import TextPattern.Pattern.LookAhead
import TextPattern.Proofs.Cursor.Reads
import TextPattern.Proofs.Pattern.Conduct

/-!
How far a pattern looks. Two cursors with the same next characters ahead, as far
as the pattern can look, cannot be told apart by it. `Foresees` says so of a
step with a given reach. Along a run the reach is spent: what has been read is
taken off it, and what is left has to do for the next step. Main statement: a
pattern whose repetitions all have an upper bound looks no further than
`lookAhead?` says, and reads no more than that (`matchCursor_foreseen`).
-/

namespace TextPattern

namespace Cursor

/-- The same next characters, as far as so many. -/
def SameAhead (reach : Nat) (c d : Cursor) : Prop :=
  c.ahead.take reach = d.ahead.take reach

/-- The same word lies between either cursor and its result, of at most so many
characters. -/
def ReadsAlike (reach : Nat) (c d result result' : Cursor) : Prop :=
  ∃ word : List Char, word.length ≤ reach ∧ c.Reads word result ∧
    d.Reads word result'

variable {reach reach' : Nat} {c d e e' result result' : Cursor}

theorem SameAhead.of_le (h : SameAhead reach c d) (hle : reach' ≤ reach) :
    SameAhead reach' c d := by
  have htake := congrArg (List.take reach') h
  rwa [List.take_take, List.take_take, Nat.min_eq_left hle] at htake

/-- What is left of the reach after reading a word still lies ahead. -/
theorem SameAhead.of_readsAlike (h : SameAhead (reach + reach') c d)
    (halike : ReadsAlike reach c d e e') : SameAhead reach' e e' := by
  obtain ⟨word, hlength, hreads, hreads'⟩ := halike
  obtain ⟨left, rfl⟩ := Nat.exists_eq_add_of_le hlength
  rw [SameAhead, hreads.ahead_eq, hreads'.ahead_eq,
    Nat.add_assoc, List.take_length_add_append, List.take_length_add_append,
    List.append_cancel_left_eq] at h
  exact SameAhead.of_le h (Nat.le_add_left reach' left)

theorem SameAhead.current?_eq (h : SameAhead 1 c d) :
    c.current? = d.current? := by
  have hhead := congrArg List.head? h
  rwa [List.head?_take, List.head?_take, if_neg Nat.one_ne_zero,
    if_neg Nat.one_ne_zero] at hhead

theorem readsAlike_refl (reach : Nat) (c d : Cursor) :
    ReadsAlike reach c d c d :=
  ⟨[], Nat.zero_le reach, c.reads_refl, d.reads_refl⟩

theorem readsAlike_fail (reach : Nat) (c d : Cursor) :
    ReadsAlike reach c d c.fail d.fail :=
  readsAlike_refl reach c d

theorem ReadsAlike.of_le (h : ReadsAlike reach c d result result')
    (hle : reach ≤ reach') : ReadsAlike reach' c d result result' := by
  obtain ⟨word, hlength, hreads⟩ := h
  exact ⟨word, Nat.le_trans hlength hle, hreads⟩

theorem ReadsAlike.succeed (h : ReadsAlike reach c d result result') :
    ReadsAlike reach c d result.succeed result'.succeed := h

theorem ReadsAlike.trans (h : ReadsAlike reach c d e e')
    (h' : ReadsAlike reach' e e' result result') :
    ReadsAlike (reach + reach') c d result result' := by
  obtain ⟨word, hlength, hreads, hreads'⟩ := h
  obtain ⟨next, hlengthNext, hnext, hnext'⟩ := h'
  refine ⟨word ++ next, ?_, hreads.trans hnext, hreads'.trans hnext'⟩
  rw [List.length_append]
  exact Nat.add_le_add hlength hlengthNext

/-- Either both results stand where they began or both have moved. -/
theorem ReadsAlike.position_eq_iff (h : ReadsAlike reach c d result result') :
    result.position = c.position ↔ result'.position = d.position := by
  obtain ⟨word, _, hreads, hreads'⟩ := h
  rw [hreads.position_eq, hreads'.position_eq]
  omega

end Cursor

/-- The next so many characters are all that the step goes by: where they are
the same, it gives the same verdict and reads the same word of them. -/
def Foresees (step : Cursor → Cursor → Prop) (reach : Nat) : Prop :=
  ∀ ⦃c d result : Cursor⦄, c.SameAhead reach d → step c result →
    ∃ result', step d result' ∧ result.success = result'.success ∧
      c.ReadsAlike reach d result result'

theorem Foresees.of_le {step : Cursor → Cursor → Prop} {reach reach' : Nat}
    (h : Foresees step reach) (hle : reach ≤ reach') :
    Foresees step reach' := by
  intro c d result hsame hstep
  obtain ⟨result', hstep', hflag, halike⟩ := h (hsame.of_le hle) hstep
  exact ⟨result', hstep', hflag, halike.of_le hle⟩

theorem foresees_passIf (test : Char → Bool) :
    Foresees (Cursor.passIf test · = ·) 1 := by
  rintro c d _ hsame rfl
  refine ⟨_, rfl, ?_⟩
  have hcurrent := hsame.current?_eq
  cases hnext : c.current? with
  | none =>
      rw [Cursor.passIf, Cursor.passIf, ← hcurrent, hnext]
      exact ⟨rfl, Cursor.readsAlike_fail 1 c d⟩
  | some ch =>
      obtain ⟨rest, hahead⟩ := List.head?_eq_some_iff.1 hnext
      obtain ⟨rest', hahead'⟩ :=
        List.head?_eq_some_iff.1 (hcurrent.symm.trans hnext)
      rw [Cursor.passIf_of_ahead_cons hahead,
        Cursor.passIf_of_ahead_cons hahead']
      split
      · rw [Cursor.success_advance, Cursor.success_advance]
        exact ⟨rfl, [ch], Nat.le_refl 1, Cursor.reads_advance hahead,
          Cursor.reads_advance hahead'⟩
      · exact ⟨rfl, Cursor.readsAlike_fail 1 c d⟩

theorem foresees_passWord (word : List Char) :
    Foresees (Cursor.passWord word · = ·) word.length := by
  rintro c d _ hsame rfl
  refine ⟨_, rfl, ?_⟩
  have hflag : (c.passWord word).success = (d.passWord word).success := by
    rw [Bool.eq_iff_iff, Cursor.success_passWord_iff,
      Cursor.success_passWord_iff, List.prefix_iff_eq_take,
      List.prefix_iff_eq_take, hsame]
  refine ⟨hflag, ?_⟩
  cases hsuccess : (c.passWord word).success with
  | true =>
      exact ⟨word, Nat.le_refl _, Cursor.reads_passWord hsuccess,
        Cursor.reads_passWord (hflag.symm.trans hsuccess)⟩
  | false =>
      rw [(c.conducted_passWord word).eq_fail hsuccess,
        (d.conducted_passWord word).eq_fail (hflag.symm.trans hsuccess)]
      exact Cursor.readsAlike_fail word.length c d

section Repetition

variable {step : Cursor → Cursor → Prop} {reach : Nat}

/-- A climb is paid for move by move. -/
theorem Climbs.foresees (hstep : Foresees step reach) {moves left : Nat}
    {c d e : Cursor} (climb : Climbs step moves c e)
    (hsame : c.SameAhead (moves * reach + left) d) :
    ∃ e', Climbs step moves d e' ∧ c.ReadsAlike (moves * reach) d e e' := by
  induction climb generalizing d with
  | refl c => exact ⟨d, .refl d, Cursor.readsAlike_refl _ c d⟩
  | @move moves c next e hfirst hsuccess hmoves _ ih =>
      rw [Nat.succ_mul, Nat.add_comm (moves * reach)] at hsame ⊢
      rw [Nat.add_assoc] at hsame
      obtain ⟨next', hfirst', hflag, halike⟩ :=
        hstep (hsame.of_le (Nat.le_add_right _ _)) hfirst
      obtain ⟨e', climb', halike'⟩ := ih (hsame.of_readsAlike halike)
      exact ⟨e', .move hfirst' (hflag.symm.trans hsuccess)
        (mt halike.position_eq_iff.2 hmoves) climb', halike.trans halike'⟩

/-- After a climb that leaves room, one more step is paid for too. -/
theorem Climbs.foresees_step (hstep : Foresees step reach) {bounds : Bounds}
    {limit : UInt32} (hmost : bounds.most = some limit) {moves : Nat}
    (hroom : bounds.HasRoom moves) {c d e last : Cursor}
    (climb : Climbs step moves c e) (hlast : step e last)
    (hsame : c.SameAhead (limit.toNat * reach) d) :
    ∃ e' last', Climbs step moves d e' ∧ step e' last' ∧
      last.success = last'.success ∧
      e.ReadsAlike reach e' last last' ∧
      c.ReadsAlike (limit.toNat * reach) d e e' := by
  have hmoves : moves * reach + reach ≤ limit.toNat * reach := by
    rw [← Nat.succ_mul]
    exact Nat.mul_le_mul_right reach (hroom limit hmost)
  have hspent := hsame.of_le hmoves
  obtain ⟨e', climb', halike⟩ := climb.foresees hstep hspent
  obtain ⟨last', hlast', hflag, halike'⟩ :=
    hstep (hspent.of_readsAlike halike) hlast
  exact ⟨e', last', climb', hlast', hflag, halike',
    halike.of_le (Nat.le_trans (Nat.le_add_right _ _) hmoves)⟩

/-- A repetition under an upper bound looks as far as so many steps do, one
after another. -/
theorem Repeats.foresees (hstep : Foresees step reach) {bounds : Bounds}
    {limit : UInt32} (hmost : bounds.most = some limit) :
    Foresees (Repeats step bounds) (limit.toNat * reach) := by
  intro c d result hsame h
  cases h with
  | @full limit' e hmost' climb =>
      obtain rfl : limit = limit' := Option.mem_unique hmost hmost'
      have hspent : c.SameAhead (limit.toNat * reach + 0) d := hsame
      obtain ⟨e', climb', halike⟩ := climb.foresees hstep hspent
      exact ⟨_, .full hmost climb', rfl, halike.succeed⟩
  | @stalled moves e last climb hroom hlast hsuccess hstays =>
      obtain ⟨e', last', climb', hlast', hflag, hstep', halike⟩ :=
        climb.foresees_step hstep hmost hroom hlast hsame
      exact ⟨_, .stalled climb' hroom hlast' (hflag.symm.trans hsuccess)
        (hstep'.position_eq_iff.1 hstays), rfl, halike.succeed⟩
  | @enough moves e last climb hroom hlast hfails henough =>
      obtain ⟨e', last', climb', hlast', hflag, _, halike⟩ :=
        climb.foresees_step hstep hmost hroom hlast hsame
      exact ⟨_, .enough climb' hroom hlast' (hflag.symm.trans hfails) henough,
        rfl, halike.succeed⟩
  | @short moves e last climb hroom hlast hfails hshort =>
      obtain ⟨e', last', climb', hlast', hflag, _, _⟩ :=
        climb.foresees_step hstep hmost hroom hlast hsame
      exact ⟨_, .short climb' hroom hlast' (hflag.symm.trans hfails) hshort,
        rfl, Cursor.readsAlike_fail _ c d⟩

end Repetition

namespace Pattern

section Nodes

variable {κ : Type} [Matcher κ] {first second inner : Pattern κ}
  {reach reach' : Nat}

theorem foresees_single (cls : CharClass) :
    Foresees (single cls : Pattern κ).Returns 1 := by
  intro c d result hsame h
  simp only [returns_single_iff] at h ⊢
  exact foresees_passIf cls.accepts hsame h

theorem foresees_literal (word : List Char) :
    Foresees (literal word : Pattern κ).Returns word.length := by
  intro c d result hsame h
  simp only [returns_literal_iff] at h ⊢
  exact foresees_passWord word hsame h

/-- The second part has what the first one has left of the reach. -/
theorem foresees_sequence (hfirst : Foresees first.Returns reach)
    (hsecond : Foresees second.Returns reach') :
    Foresees (sequence first second).Returns (reach + reach') := by
  intro c d result hsame h
  obtain ⟨middle, hmiddle, hrest⟩ := returns_sequence_iff.1 h
  obtain ⟨middle', hmiddle', hflag, halike⟩ :=
    hfirst (hsame.of_le (Nat.le_add_right reach reach')) hmiddle
  rcases hrest with ⟨hfails, rfl⟩ | ⟨hsuccess, last, hlast, rfl⟩
  · refine ⟨d.fail, ?_, rfl, Cursor.readsAlike_fail _ c d⟩
    exact returns_sequence_iff.2
      ⟨middle', hmiddle', .inl ⟨hflag.symm.trans hfails, rfl⟩⟩
  · obtain ⟨last', hlast', hflag', halike'⟩ :=
      hsecond (hsame.of_readsAlike halike) hlast
    refine ⟨if last'.success then last' else d.fail, ?_, ?_⟩
    · exact returns_sequence_iff.2
        ⟨middle', hmiddle',
          .inr ⟨hflag.symm.trans hsuccess, last', hlast', rfl⟩⟩
    · rw [← hflag']
      split
      · exact ⟨hflag', halike.trans halike'⟩
      · exact ⟨rfl, Cursor.readsAlike_fail _ c d⟩

/-- Alternatives start from the same place, so the one that looks further
decides. -/
theorem foresees_choice (hfirst : Foresees first.Returns reach)
    (hsecond : Foresees second.Returns reach') :
    Foresees (choice first second).Returns (max reach reach') := by
  have hfirstMax := hfirst.of_le (Nat.le_max_left reach reach')
  have hsecondMax := hsecond.of_le (Nat.le_max_right reach reach')
  intro c d result hsame h
  rcases returns_choice_iff.1 h with ⟨hresult, hsuccess⟩ |
    ⟨failed, hfailed, hfails, hresult⟩
  · obtain ⟨result', hresult', hflag, halike⟩ := hfirstMax hsame hresult
    refine ⟨result', ?_, hflag, halike⟩
    exact returns_choice_iff.2 (.inl ⟨hresult', hflag.symm.trans hsuccess⟩)
  · obtain ⟨failed', hfailed', hflagFailed, _⟩ := hfirstMax hsame hfailed
    obtain ⟨result', hresult', hflag, halike⟩ := hsecondMax hsame hresult
    refine ⟨result', ?_, hflag, halike⟩
    exact returns_choice_iff.2
      (.inr ⟨failed', hfailed', hflagFailed.symm.trans hfails, hresult'⟩)

theorem foresees_repeated (hinner : Foresees inner.Returns reach)
    {bounds : Bounds} {limit : UInt32} (hmost : bounds.most = some limit) :
    Foresees (repeated inner bounds).Returns (limit.toNat * reach) := by
  intro c d result hsame h
  simp only [returns_repeated_iff] at h ⊢
  exact Repeats.foresees hinner hmost hsame h

end Nodes

/-- Every repetition in the pattern has an upper bound. -/
def UpperBounded : Pattern Empty → Prop
  | single _ => True
  | literal _ => True
  | sequence first second => first.UpperBounded ∧ second.UpperBounded
  | choice first second => first.UpperBounded ∧ second.UpperBounded
  | repeated inner bounds => inner.UpperBounded ∧ bounds.most ≠ none

theorem UpperBounded.foresees {p : Pattern Empty} (hp : p.UpperBounded) :
    ∃ reach, p.lookAhead? = some reach ∧ Foresees p.Returns reach := by
  induction p with
  | single cls => exact ⟨1, rfl, foresees_single cls⟩
  | literal word => exact ⟨word.length, rfl, foresees_literal word⟩
  | leaf value => exact value.elim
  | sequence first second ihFirst ihSecond =>
      obtain ⟨reach, hreach, hfirst⟩ := ihFirst hp.1
      obtain ⟨reach', hreach', hsecond⟩ := ihSecond hp.2
      exact ⟨reach + reach', by rw [lookAhead?, hreach, hreach']; rfl,
        foresees_sequence hfirst hsecond⟩
  | choice first second ihFirst ihSecond =>
      obtain ⟨reach, hreach, hfirst⟩ := ihFirst hp.1
      obtain ⟨reach', hreach', hsecond⟩ := ihSecond hp.2
      exact ⟨max reach reach', by rw [lookAhead?, hreach, hreach']; rfl,
        foresees_choice hfirst hsecond⟩
  | repeated inner bounds ih =>
      obtain ⟨reach, hreach, hinner⟩ := ih hp.1
      obtain ⟨limit, hmost⟩ := Option.ne_none_iff_exists'.1 hp.2
      exact ⟨limit.toNat * reach, by rw [lookAhead?, hreach, hmost]; rfl,
        foresees_repeated hinner hmost⟩

/-- A pattern whose repetitions all have an upper bound has a reach. Wherever
two cursors have the same characters ahead as far as that, its matches from them
give the same verdict and read the same word, which is no longer than the
reach. -/
theorem matchCursor_foreseen {p : Pattern Empty} (hp : p.UpperBounded) :
    ∃ reach, p.lookAhead? = some reach ∧ ∀ c d : Cursor, c.SameAhead reach d →
      (p.matchCursor c).success = (p.matchCursor d).success ∧
        c.ReadsAlike reach d (p.matchCursor c) (p.matchCursor d) := by
  obtain ⟨reach, hreach, hforesees⟩ := hp.foresees
  refine ⟨reach, hreach, ?_⟩
  intro c d hsame
  obtain ⟨result', hreturns, hflag, halike⟩ :=
    hforesees hsame (p.returns_matchCursor c)
  obtain rfl := returns_iff.1 hreturns
  exact ⟨hflag, halike⟩

/-- Two rounds of a letter and perhaps an accented one look at four characters.
After them the texts differ, as they do behind the cursors. -/
theorem matchCursor_foreseen_rounds :
    let p : Pattern Empty :=
      ((char 'a').sequence (char 'é').optional).repeated (.atMost 2)
    let c := Cursor.between ['x'] ['a', 'é', 'a', 'b', 'c'] true
    let d := Cursor.between [] ['a', 'é', 'a', 'b'] false
    p.UpperBounded ∧ p.lookAhead? = some 4 ∧ c.SameAhead 4 d ∧
      (p.matchCursor c).success = (p.matchCursor d).success ∧
      c.ReadsAlike 4 d (p.matchCursor c) (p.matchCursor d) := by
  intro p c d
  have hp : p.UpperBounded := ⟨⟨trivial, trivial, nofun⟩, nofun⟩
  have hreach : p.lookAhead? = some 4 := by decide +kernel
  have hsame : c.SameAhead 4 d := rfl
  obtain ⟨reach, hreach', hforeseen⟩ := matchCursor_foreseen hp
  obtain rfl : 4 = reach := Option.some.inj (hreach.symm.trans hreach')
  exact ⟨hp, hreach, hsame, hforeseen c d hsame⟩

end Pattern

end TextPattern
