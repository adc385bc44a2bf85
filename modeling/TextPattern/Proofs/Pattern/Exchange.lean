import TextPattern.Cursor.Action
import TextPattern.Proofs.Pattern.Rules

/-!
Trees that differ in their leaves only. A run goes by the flags of results and
by the successes themselves, and hands on none but the incoming cursor and
successes. So two trees run alike whose leaves do alike on those cursors
(`run_withLeaves`). Main statements: where a leaf leaves its cursor when it
fails has no influence on a match (`returns_failInPlace`), and a run that starts
from a success calls its leaves on successes only, so that it makes no
difference what they do elsewhere (`matchText_fromSuccess`).
-/

namespace TextPattern

/-- A leaf given by what it does to a cursor. -/
structure CursorFunction where
  apply : Cursor → Cursor

instance : Matcher CursorFunction where
  run f c := f.apply c
  written _ _ := "function".toList

/-- The same tree in which every leaf, of the library's or the user's, does what
the change makes of it. -/
def Pattern.withLeaves {κ : Type} [Matcher κ]
    (change : (Cursor → Cursor) → Cursor → Cursor) :
    Pattern κ → Pattern CursorFunction
  | single cls => leaf ⟨change (Cursor.passIf cls.accepts)⟩
  | literal word => leaf ⟨change (Cursor.passWord word)⟩
  | leaf value => leaf ⟨change (Matcher.run value)⟩
  | sequence first second =>
      sequence (first.withLeaves change) (second.withLeaves change)
  | choice first second =>
      choice (first.withLeaves change) (second.withLeaves change)
  | repeated inner bounds => repeated (inner.withLeaves change) bounds

namespace Cursor

/-- Two results that no combinator can tell apart: the same success, or failures
anywhere. -/
def Agrees (result result' : Cursor) : Prop :=
  result.success = result'.success ∧ (result.success = true → result = result')

theorem agrees_refl (result : Cursor) : result.Agrees result :=
  ⟨rfl, fun _ => rfl⟩

theorem Agrees.ite_success_eq {result result' : Cursor}
    (h : result.Agrees result') (otherwise : Cursor) :
    (if result.success then result else otherwise) =
      if result'.success then result' else otherwise := by
  obtain ⟨hflag, hsame⟩ := h
  cases hsuccess : result.success with
  | false => simp [← hflag, hsuccess]
  | true => simp [← hsame hsuccess, hsuccess]

/-- Does what the function does if that succeeds, and fails in place
otherwise. -/
def failInPlace (f : Cursor → Cursor) (c : Cursor) : Cursor :=
  if (f c).success then f c else c.fail

theorem agrees_failInPlace (f : Cursor → Cursor) (c : Cursor) :
    (f c).Agrees (c.failInPlace f) := by
  cases hsuccess : (f c).success with
  | false => simp [Agrees, failInPlace, hsuccess]
  | true => simpa [failInPlace, hsuccess] using (f c).agrees_refl

def fromSuccess (f : Cursor → Cursor) (c : Cursor) : Cursor := f c.succeed

theorem fromSuccess_eq_self {c : Cursor} (hsuccess : c.success = true)
    (f : Cursor → Cursor) : c.fromSuccess f = f c := by
  rw [fromSuccess, succeed_eq_self hsuccess]

end Cursor

section Alike

-- The cursors that are handed on, and what may be the same about two results.
variable {Seen : Cursor → Prop} {Alike : Cursor → Cursor → Prop}
  (hseen : ∀ c, c.success = true → Seen c)
  (hrefl : ∀ result, Alike result result)
  (hagrees : ∀ result result', Alike result result' → result.Agrees result')

section Repetition

variable {step step' : Cursor → Option Cursor} {bounds : Bounds}
  (hstep : ∀ c, Seen c → Option.Rel Alike (step c) (step' c))

include hseen hagrees hstep

/-- Loops whose steps do alike go through the same cursors. -/
theorem iterate_eq_of_alike {calls : Nat} {count : UInt32} {current : Cursor}
    (hcurrent : Seen current) :
    iterate step bounds calls count current =
      iterate step' bounds calls count current := by
  induction calls generalizing count current with
  | zero => rfl
  | succ calls ih =>
      have hnext := hstep current hcurrent
      rw [iterate, iterate]
      generalize step current = next? at hnext ⊢
      generalize step' current = next?' at hnext ⊢
      cases hnext with
      | none => rfl
      | @some next next' halike =>
          obtain ⟨hflag, hsame⟩ := hagrees next next' halike
          cases hsuccess : next.success with
          | false => simp [← hflag, hsuccess]
          | true =>
              obtain rfl := hsame hsuccess
              simp only [hsuccess, if_true]
              rw [ih (hseen next hsuccess)]

theorem greedy_eq_of_alike {limit : Nat} {origin : Cursor}
    (horigin : Seen origin) :
    greedy step bounds limit origin = greedy step' bounds limit origin := by
  rw [greedy, greedy, iterate_eq_of_alike hseen hagrees hstep horigin]

end Repetition

namespace Pattern

variable {κ : Type} [Matcher κ] {change : (Cursor → Cursor) → Cursor → Cursor}
  (hleaf : ∀ f c, Seen c → Alike (f c) (change f c))

include hseen hrefl hagrees hleaf

/-- Trees whose leaves do alike on the cursors that are handed on run alike, and
one run ends if the other does. -/
theorem run_withLeaves (p : Pattern κ) (limit : Nat) {c : Cursor}
    (hc : Seen c) :
    Option.Rel Alike (p.run limit c) ((p.withLeaves change).run limit c) := by
  induction p generalizing c with
  | single cls => exact .some (hleaf _ c hc)
  | literal word => exact .some (hleaf _ c hc)
  | leaf value => exact .some (hleaf _ c hc)
  | sequence first second ihFirst ihSecond =>
      have hfirst := ihFirst hc
      rw [withLeaves, run, run]
      generalize first.run limit c = middle? at hfirst ⊢
      generalize (first.withLeaves change).run limit c = middle?' at hfirst ⊢
      cases hfirst with
      | none => exact .none
      | @some middle middle' halike =>
          obtain ⟨hflag, hsame⟩ := hagrees middle middle' halike
          cases hsuccess : middle.success with
          | false =>
              simpa [← hflag, hsuccess] using Option.Rel.some (hrefl c.fail)
          | true =>
              obtain rfl := hsame hsuccess
              have hsecond := ihSecond (hseen middle hsuccess)
              simp only [hsuccess, if_true]
              generalize second.run limit middle = last? at hsecond ⊢
              generalize (second.withLeaves change).run limit middle = last?'
                at hsecond ⊢
              cases hsecond with
              | none => exact .none
              | @some last last' halike' =>
                  simp only [(hagrees last last' halike').ite_success_eq c.fail]
                  exact .some (hrefl _)
  | choice first second ihFirst ihSecond =>
      have hfirst := ihFirst hc
      rw [withLeaves, run, run]
      generalize first.run limit c = middle? at hfirst ⊢
      generalize (first.withLeaves change).run limit c = middle?' at hfirst ⊢
      cases hfirst with
      | none => exact .none
      | @some middle middle' halike =>
          obtain ⟨hflag, hsame⟩ := hagrees middle middle' halike
          cases hsuccess : middle.success with
          | false => simpa [← hflag, hsuccess] using ihSecond hc
          | true =>
              obtain rfl := hsame hsuccess
              simpa [hsuccess] using Option.Rel.some (hrefl middle)
  | repeated inner bounds ih =>
      have hstep (d : Cursor) (hd : Seen d) := ih hd
      rw [withLeaves, run, run, greedy_eq_of_alike hseen hagrees hstep hc]
      cases greedy ((inner.withLeaves change).run limit) bounds limit c with
      | none => exact .none
      | some result => exact .some (hrefl result)

end Pattern

end Alike

namespace Pattern

variable {κ : Type} [Matcher κ] {c result : Cursor}

/-- A sequence or a repetition: the trees that undo what a failed part has
read. -/
def RollsBack : Pattern κ → Prop
  | sequence _ _ => True
  | repeated _ _ => True
  | _ => False

theorem Returns.eq_fail {p : Pattern κ} (h : p.Returns c result)
    (hroot : p.RollsBack) (hfails : result.success = false) :
    result = c.fail := by
  cases p with
  | sequence first second =>
      obtain ⟨middle, _, ⟨_, rfl⟩ | ⟨_, last, _, rfl⟩⟩ :=
        returns_sequence_iff.1 h
      · rfl
      · cases hlast : last.success with
        | false => simp
        | true => simp [hlast] at hfails
  | repeated inner bounds =>
      cases returns_repeated_iff.1 h with
      | short => rfl
      | full | stalled | enough => simp at hfails
  | single | literal | leaf | choice => exact hroot.elim

theorem run_failInPlace (p : Pattern κ) (limit : Nat) (c : Cursor) :
    Option.Rel Cursor.Agrees (p.run limit c)
      ((p.withLeaves Cursor.failInPlace).run limit c) :=
  run_withLeaves (fun _ _ => trivial) Cursor.agrees_refl (fun _ _ => id)
    (fun f c _ => Cursor.agrees_failInPlace f c) p limit trivial

theorem Returns.failInPlace {p : Pattern κ} (h : p.Returns c result) :
    ∃ result', (p.withLeaves Cursor.failInPlace).Returns c result' ∧
      result.Agrees result' := by
  obtain ⟨limit, hrun⟩ := h
  have hrel := p.run_failInPlace limit c
  rw [hrun] at hrel
  generalize hrun' : (p.withLeaves Cursor.failInPlace).run limit c =
    result?' at hrel
  cases hrel with
  | some hagrees => exact ⟨_, returns_of_run hrun', hagrees⟩

theorem Returns.of_failInPlace {p : Pattern κ}
    (h : (p.withLeaves Cursor.failInPlace).Returns c result) :
    ∃ result', p.Returns c result' ∧ result'.Agrees result := by
  obtain ⟨limit, hrun⟩ := h
  have hrel := p.run_failInPlace limit c
  rw [hrun] at hrel
  generalize hrun' : p.run limit c = result?' at hrel
  cases hrel with
  | some hagrees => exact ⟨_, returns_of_run hrun', hagrees⟩

/-- Where leaves leave their cursors when they fail does not show. A tree ends
just where it does with leaves that fail in place, with the same verdict and the
same success; and whatever its leaves do, a sequence or a repetition fails in
place. -/
theorem returns_failInPlace (p : Pattern κ) (c : Cursor) :
    ((∃ result, p.Returns c result) ↔
      ∃ result, (p.withLeaves Cursor.failInPlace).Returns c result) ∧
    (∀ result result', p.Returns c result →
      (p.withLeaves Cursor.failInPlace).Returns c result' →
      result.success = result'.success ∧
        (result.success = true → result = result')) ∧
    ∀ result, p.RollsBack → p.Returns c result → result.success = false →
      result = c.fail := by
  refine ⟨⟨?_, ?_⟩, ?_, fun result hroot h => h.eq_fail hroot⟩
  · rintro ⟨result, h⟩
    obtain ⟨result', h', _⟩ := h.failInPlace
    exact ⟨result', h'⟩
  · rintro ⟨result', h'⟩
    obtain ⟨result, h, _⟩ := h'.of_failInPlace
    exact ⟨result, h⟩
  · intro result result' h h'
    obtain ⟨same, hsame, hagrees⟩ := h.failInPlace
    obtain rfl := hsame.unique h'
    exact hagrees

structure Routine where
  actions : List CursorAction

instance : Matcher Routine where
  run routine c := c.perform routine.actions
  written _ _ := "routine".toList

/-- Two repetitions are owed, and the second alternative reads the first letter
after a leaf has failed beyond it; the leaf fails beyond the second letter too,
and no letter is read in the end. -/
theorem returns_failInPlace_stray :
    let stray : Pattern Routine := leaf ⟨[.advance, .fail]⟩
    let p := repeated (stray.choice (char 'é')) (.exactly 2)
    let c := Cursor.between ['a'] ['é', 'b'] true
    let result := Cursor.between ['a'] ['é', 'b'] false
    p.RollsBack ∧ p.Returns c result ∧ result.success = false ∧
      result = c.fail ∧
      ∃ result', (p.withLeaves Cursor.failInPlace).Returns c result' ∧
        result.success = result'.success := by
  intro stray p c result
  have hreturns : p.Returns c result := ⟨0, by decide +kernel⟩
  obtain ⟨hends, hagrees, hfails⟩ := returns_failInPlace p c
  obtain ⟨result', hreturns'⟩ := hends.1 ⟨result, hreturns⟩
  exact ⟨trivial, hreturns, rfl, hfails result trivial hreturns rfl,
    result', hreturns', (hagrees result result' hreturns hreturns').1⟩

/-- A run that starts from a success calls its leaves on successes only. -/
theorem run_fromSuccess (p : Pattern κ) (limit : Nat) (hc : c.success = true) :
    (p.withLeaves Cursor.fromSuccess).run limit c = p.run limit c := by
  have hrel := run_withLeaves (fun _ => id) (fun _ => rfl)
    (fun result _ hsame => hsame ▸ result.agrees_refl)
    (fun f _ hsuccess => (Cursor.fromSuccess_eq_self hsuccess f).symm)
    p limit hc
  generalize p.run limit c = result? at hrel ⊢
  generalize (p.withLeaves Cursor.fromSuccess).run limit c = result?' at hrel ⊢
  cases hrel with
  | none => rfl
  | some hsame => rw [hsame]

/-- It makes no difference what leaves do to a cursor that is marked failed: a
match that starts from a success ends, and returns the same, if they mark it
successful first. So do a match of a text and a match of a whole text. -/
theorem matchText_fromSuccess (p : Pattern κ) :
    (∀ text,
      (p.withLeaves Cursor.fromSuccess).matchText text = p.matchText text ∧
      ((p.withLeaves Cursor.fromSuccess).fullMatchTextLogged text).value.map
        Cursor.isFullMatch =
        (p.fullMatchTextLogged text).value.map Cursor.isFullMatch) ∧
    ∀ c, c.success = true → ∀ result,
      (p.withLeaves Cursor.fromSuccess).Returns c result ↔
        p.Returns c result := by
  constructor
  · intro text
    have htext :
        (p.withLeaves Cursor.fromSuccess).matchText text = p.matchText text :=
      p.run_fromSuccess _ (Cursor.success_start text)
    refine ⟨htext, ?_⟩
    rw [value_fullMatchTextLogged, value_fullMatchTextLogged, htext]
  · intro c hsuccess result
    rw [Returns, Returns]
    simp only [p.run_fromSuccess _ hsuccess]

/-- A leaf that returns its cursor as it is guards a letter: it lets every
letter of a repetition pass, and would have let none pass from a cursor marked
failed. -/
theorem matchText_fromSuccess_guarded :
    let p : Pattern Routine :=
      (((leaf ⟨[]⟩).sequence (char 'ß')).choice empty).repeated .any
    let c := Cursor.between ['a'] ['ß', 'ß', 'b'] true
    let result := Cursor.between ['a', 'ß', 'ß'] ['b'] true
    c.success = true ∧ p.Returns c result ∧ p.Returns c.fail c ∧
      (p.withLeaves Cursor.fromSuccess).Returns c result := by
  intro p c result
  have hreturns : p.Returns c result := ⟨3, by decide +kernel⟩
  exact ⟨rfl, hreturns, ⟨1, by decide +kernel⟩,
    ((matchText_fromSuccess p).2 c rfl result).2 hreturns⟩

end Pattern

end TextPattern
