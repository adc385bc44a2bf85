import TextPattern.Pattern.Basic
import TextPattern.Repetition.Loop

/-!
Running a pattern from a cursor. Matching is greedy and committed: an
alternative that succeeded is not left again, and a repetition gives nothing
back. Leaves of the user's may drive a repetition for ever, so a run is given a
limit on the rounds of each unbounded loop and may end with nothing; if the
leaves go forward the run always ends, and `matchCursor` is total. Main
statements: a run that ends does so with every greater limit (`run_of_le`),
forward leaves make forward patterns (`run_forward`), and then one more round
than there are bytes left to read is enough (`run_isSome`).
-/

namespace TextPattern

/-- Passes the characters of a word as long as they are the next ones. -/
def Cursor.follow : List Char → Cursor → Option Cursor
  | [], c => some c
  | expected :: rest, c =>
      match c.current? with
      | some ch => if expected == ch then follow rest c.advance else none
      | none => none

/-- Passes a whole word, or fails in place. -/
def Cursor.passWord (word : List Char) (c : Cursor) : Cursor :=
  match c.follow word with
  | some result => result.succeed
  | none => c.fail

namespace Pattern

variable {κ : Type} [Matcher κ]

/-- What a pattern makes of a cursor; `none` if one of its unbounded loops takes
more rounds than the limit. A sequence or a repetition that fails does so where
it began; a choice fails as its second alternative does. -/
def run (limit : Nat) : Pattern κ → Cursor → Option Cursor
  | single cls, c => some (c.passIf cls.accepts)
  | literal word, c => some (c.passWord word)
  | leaf value, c => some (Matcher.run value c)
  | sequence first second, c =>
      match first.run limit c with
      | none => none
      | some middle =>
          if middle.success then
            match second.run limit middle with
            | none => none
            | some result => some (if result.success then result else c.fail)
          else some c.fail
  | choice first second, c =>
      match first.run limit c with
      | none => none
      | some result =>
          if result.success then some result else second.run limit c
  | repeated inner bounds, c => greedy (inner.run limit) bounds limit c

/-- The pattern ends with this result, given rounds enough. -/
def Returns (p : Pattern κ) (c result : Cursor) : Prop :=
  ∃ limit, p.run limit c = some result

/-- Runs the pattern with more rounds for each loop than the text has places, so
that a loop that stays on the text and has not ended by then comes back to a
place for ever. -/
def matchCursor? (p : Pattern κ) (c : Cursor) : Option Cursor :=
  p.run (c.position + utf8Length c.ahead + 2) c

end Pattern

namespace Cursor

theorem follow_forward {word : List Char} {c result : Cursor}
    (h : c.follow word = some result) :
    result.chars = c.chars ∧ c.position ≤ result.position := by
  induction word generalizing c with
  | nil =>
      obtain rfl := Option.some.inj h
      exact ⟨rfl, Nat.le_refl _⟩
  | cons expected rest ih =>
      unfold follow at h
      split at h
      · next ch hcurrent =>
          split at h
          · obtain ⟨hchars, hle⟩ := ih h
            refine ⟨by rw [hchars, chars_advance], Nat.le_trans ?_ hle⟩
            cases hahead : c.ahead with
            | nil => simp [current?, hahead] at hcurrent
            | cons head tail => simp [position_advance_cons hahead]
          · contradiction
      · contradiction

theorem passWord_forward (word : List Char) (c : Cursor) :
    c.Forward (c.passWord word) := by
  unfold passWord
  split
  · next result h =>
      have hforward := follow_forward h
      exact fun _ => hforward
  · exact fun hsuccess => absurd hsuccess (by simp)

theorem passIf_forward (test : Char → Bool) (c : Cursor) :
    c.Forward (c.passIf test) := by
  intro hsuccess
  cases hahead : c.ahead with
  | nil => simp [passIf_of_ahead_nil hahead] at hsuccess
  | cons ch rest =>
      rw [passIf_of_ahead_cons hahead] at hsuccess ⊢
      split at hsuccess
      · next haccepts =>
          rw [if_pos haccepts, chars_advance, position_advance_cons hahead]
          exact ⟨rfl, Nat.le_add_right _ _⟩
      · simp at hsuccess

end Cursor

namespace Pattern

variable {κ : Type} [Matcher κ]

/-- More rounds change nothing about a run that ends. -/
theorem run_of_le {p : Pattern κ} {limit limit' : Nat} (hle : limit ≤ limit')
    {c result : Cursor} (h : p.run limit c = some result) :
    p.run limit' c = some result := by
  induction p generalizing c result with
  | single cls => exact h
  | literal word => exact h
  | leaf value => exact h
  | sequence first second ihFirst ihSecond =>
      simp only [run] at h ⊢
      split at h
      · contradiction
      · next middle hmiddle =>
          rw [ihFirst hmiddle]
          simp only
          split at h
          · next hsuccess =>
              split at h
              · contradiction
              · next last hlast =>
                  rw [if_pos hsuccess, ihSecond hlast]
                  exact h
          · next hfailed => rwa [if_neg hfailed]
  | choice first second ihFirst ihSecond =>
      simp only [run] at h ⊢
      split at h
      · contradiction
      · next middle hmiddle =>
          rw [ihFirst hmiddle]
          simp only
          split at h
          · next hsuccess => rwa [if_pos hsuccess]
          · next hfailed =>
              rw [if_neg hfailed]
              exact ihSecond h
  | repeated inner bounds ih =>
      exact greedy_of_le (fun _ _ => ih) hle h

/-- A pattern ends in one way only. -/
theorem Returns.unique {p : Pattern κ} {c result result' : Cursor}
    (h : p.Returns c result) (h' : p.Returns c result') : result = result' := by
  obtain ⟨limit, hrun⟩ := h
  obtain ⟨limit', hrun'⟩ := h'
  have hleft := run_of_le (Nat.le_max_left limit limit') hrun
  have hright := run_of_le (Nat.le_max_right limit limit') hrun'
  exact Option.some.inj (hleft.symm.trans hright)

/-- Forward leaves make forward patterns. -/
theorem run_forward [ForwardMatcher κ] {p : Pattern κ} {limit : Nat}
    {c result : Cursor} (h : p.run limit c = some result) :
    c.Forward result := by
  induction p generalizing c result with
  | single cls =>
      obtain rfl := Option.some.inj h
      exact c.passIf_forward cls.accepts
  | literal word =>
      obtain rfl := Option.some.inj h
      exact c.passWord_forward word
  | leaf value =>
      obtain rfl := Option.some.inj h
      exact ForwardMatcher.forward value c
  | sequence first second ihFirst ihSecond =>
      simp only [run] at h
      split at h
      · contradiction
      · next middle hmiddle =>
          split at h
          · next hsuccess =>
              split at h
              · contradiction
              · next last hlast =>
                  obtain rfl := Option.some.inj h
                  obtain ⟨hchars, hle⟩ := ihFirst hmiddle hsuccess
                  split
                  · next hlastSuccess =>
                      obtain ⟨hchars', hle'⟩ := ihSecond hlast hlastSuccess
                      exact fun _ =>
                        ⟨hchars'.trans hchars, Nat.le_trans hle hle'⟩
                  · exact fun hfail => absurd hfail (by simp)
          · obtain rfl := Option.some.inj h
            exact fun hfail => absurd hfail (by simp)
  | choice first second ihFirst ihSecond =>
      simp only [run] at h
      split at h
      · contradiction
      · next middle hmiddle =>
          split at h
          · obtain rfl := Option.some.inj h
            exact ihFirst hmiddle
          · exact ihSecond h
  | repeated inner bounds ih => exact greedy_forward (fun _ _ => ih) h

/-- With forward leaves a run ends within one more round than there are bytes
left to read. -/
theorem run_isSome [ForwardMatcher κ] {p : Pattern κ} {limit : Nat} {c : Cursor}
    (hlimit : utf8Length c.ahead < limit) : (p.run limit c).isSome := by
  induction p generalizing c with
  | single cls => rfl
  | literal word => rfl
  | leaf value => rfl
  | sequence first second ihFirst ihSecond =>
      obtain ⟨middle, hmiddle⟩ := Option.isSome_iff_exists.1 (ihFirst hlimit)
      simp only [run, hmiddle]
      split
      · next hsuccess =>
          have ⟨htotal, hle⟩ := (run_forward hmiddle).utf8Length_ahead hsuccess
          have hsecond : (second.run limit middle).isSome := ihSecond (by omega)
          obtain ⟨last, hlast⟩ := Option.isSome_iff_exists.1 hsecond
          simp [hlast]
      · rfl
  | choice first second ihFirst ihSecond =>
      obtain ⟨middle, hmiddle⟩ := Option.isSome_iff_exists.1 (ihFirst hlimit)
      simp only [run, hmiddle]
      split
      · rfl
      · exact ihSecond hlimit
  | repeated inner bounds ih =>
      exact greedy_isSome (fun _ => ih) (fun _ _ => run_forward) hlimit

/-- What a pattern whose leaves go forward makes of a cursor. -/
def matchCursor [ForwardMatcher κ] (p : Pattern κ) (c : Cursor) : Cursor :=
  (p.run (utf8Length c.ahead + 1) c).get (run_isSome (Nat.lt_succ_self _))

theorem run_eq_some_matchCursor [ForwardMatcher κ] (p : Pattern κ) {c : Cursor}
    {limit : Nat} (hlimit : utf8Length c.ahead < limit) :
    p.run limit c = some (p.matchCursor c) :=
  run_of_le hlimit (Option.some_get (run_isSome (Nat.lt_succ_self _))).symm

theorem returns_iff [ForwardMatcher κ] {p : Pattern κ} {c result : Cursor} :
    p.Returns c result ↔ p.matchCursor c = result := by
  have hreturns : p.Returns c (p.matchCursor c) :=
    ⟨_, run_eq_some_matchCursor p (Nat.lt_succ_self _)⟩
  exact ⟨fun h => hreturns.unique h, fun h => h ▸ hreturns⟩

/-- The bounded run of a pattern whose leaves go forward is its match. -/
theorem matchCursor?_eq_some [ForwardMatcher κ] (p : Pattern κ) (c : Cursor) :
    p.matchCursor? c = some (p.matchCursor c) :=
  run_eq_some_matchCursor p (by omega)

end Pattern

end TextPattern
