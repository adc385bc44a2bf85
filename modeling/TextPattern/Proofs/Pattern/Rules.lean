import TextPattern.Pattern.Match
import TextPattern.Proofs.Repetition.Outcome

/-!
What a pattern returns, by one rule for each kind of node. The rules mention
neither limits nor rounds, and later proofs go by them alone. Main statements:
the rules for sequences, choices and repetitions (`returns_sequence_iff`,
`returns_choice_iff`, `returns_repeated_iff`), and the same rules as equations
where every match ends (`matchCursor_sequence`, `matchCursor_choice`,
`repeats_matchCursor`).
-/

namespace TextPattern

namespace Pattern

variable {κ : Type} [Matcher κ] {c result : Cursor}

theorem returns_of_run {p : Pattern κ} {limit : Nat}
    (h : p.run limit c = some result) : p.Returns c result :=
  ⟨limit, h⟩

/-- Two matches that end do so within a common limit. -/
theorem Returns.common {p q : Pattern κ} {d result' : Cursor}
    (hp : p.Returns c result) (hq : q.Returns d result') :
    ∃ limit, p.run limit c = some result ∧ q.run limit d = some result' := by
  obtain ⟨limit, hrun⟩ := hp
  obtain ⟨limit', hrun'⟩ := hq
  exact ⟨max limit limit', run_of_le (Nat.le_max_left _ _) hrun,
    run_of_le (Nat.le_max_right _ _) hrun'⟩

theorem returns_single_iff {cls : CharClass} :
    (single cls : Pattern κ).Returns c result ↔
      c.passIf cls.accepts = result := by
  simp [Returns, run]

theorem returns_literal_iff {word : List Char} :
    (literal word : Pattern κ).Returns c result ↔ c.passWord word = result := by
  simp [Returns, run]

theorem returns_leaf_iff {value : κ} :
    (leaf value).Returns c result ↔ Matcher.run value c = result := by
  simp [Returns, run]

/-- A sequence fails where it began unless both parts succeed. -/
theorem returns_sequence_iff {first second : Pattern κ} :
    (sequence first second).Returns c result ↔
      ∃ middle, first.Returns c middle ∧
        ((middle.success = false ∧ result = c.fail) ∨
          (middle.success = true ∧ ∃ last, second.Returns middle last ∧
            result = if last.success then last else c.fail)) := by
  constructor
  · rintro ⟨limit, h⟩
    rw [run] at h
    cases hfirst : first.run limit c with
    | none => simp [hfirst] at h
    | some middle =>
        refine ⟨middle, returns_of_run hfirst, ?_⟩
        cases hsuccess : middle.success with
        | false => exact .inl ⟨rfl, by simpa [hfirst, hsuccess] using h.symm⟩
        | true =>
            cases hsecond : second.run limit middle with
            | none => simp [hfirst, hsuccess, hsecond] at h
            | some last =>
                refine .inr ⟨rfl, last, returns_of_run hsecond, ?_⟩
                simpa [hfirst, hsuccess, hsecond] using h.symm
  · rintro ⟨middle, hfirst, ⟨hsuccess, rfl⟩ | ⟨hsuccess, last, hsecond, rfl⟩⟩
    · obtain ⟨limit, hrun⟩ := hfirst
      exact ⟨limit, by simp [run, hrun, hsuccess]⟩
    · obtain ⟨limit, hrun, hrun'⟩ := hfirst.common hsecond
      exact ⟨limit, by simp [run, hrun, hrun', hsuccess]⟩

/-- A choice ends as its first alternative does if that succeeds, else as its
second. -/
theorem returns_choice_iff {first second : Pattern κ} :
    (choice first second).Returns c result ↔
      (first.Returns c result ∧ result.success = true) ∨
        ∃ failed, first.Returns c failed ∧ failed.success = false ∧
          second.Returns c result := by
  constructor
  · rintro ⟨limit, h⟩
    rw [run] at h
    cases hfirst : first.run limit c with
    | none => simp [hfirst] at h
    | some middle =>
        cases hsuccess : middle.success with
        | false =>
            have hsecond : second.run limit c = some result := by
              simpa [hfirst, hsuccess] using h
            exact .inr
              ⟨middle, returns_of_run hfirst, hsuccess, returns_of_run hsecond⟩
        | true =>
            obtain rfl : middle = result := by simpa [hfirst, hsuccess] using h
            exact .inl ⟨returns_of_run hfirst, hsuccess⟩
  · rintro (⟨⟨limit, hrun⟩, hsuccess⟩ | ⟨failed, hfirst, hfailed, hsecond⟩)
    · exact ⟨limit, by simp [run, hrun, hsuccess]⟩
    · obtain ⟨limit, hrun, hrun'⟩ := hfirst.common hsecond
      exact ⟨limit, by simp [run, hrun, hrun', hfailed]⟩

theorem exists_climbs_run {p : Pattern κ} {moves : Nat} {d : Cursor}
    (climb : Climbs p.Returns moves c d) :
    ∃ limit, Climbs (p.run limit · = some ·) moves c d := by
  induction climb with
  | refl c => exact ⟨0, .refl c⟩
  | move hstep hsuccess hmoves _ ih =>
      obtain ⟨limit, hrun⟩ := hstep
      obtain ⟨limit', hrest⟩ := ih
      have hfirst := run_of_le (Nat.le_max_left limit limit') hrun
      have hlater :=
        hrest.mono fun _ _ => run_of_le (Nat.le_max_right limit limit')
      exact ⟨max limit limit', .move hfirst hsuccess hmoves hlater⟩

/-- A climb and one more match end within a common limit. -/
theorem exists_climbs_run_and {p : Pattern κ} {moves : Nat} {d e : Cursor}
    (climb : Climbs p.Returns moves c d) (hstep : p.Returns d e) :
    ∃ limit, Climbs (p.run limit · = some ·) moves c d ∧
      p.run limit d = some e := by
  obtain ⟨limit, hclimb⟩ := exists_climbs_run climb
  obtain ⟨limit', hrun⟩ := hstep
  exact ⟨max limit limit',
    hclimb.mono fun _ _ => run_of_le (Nat.le_max_left _ _),
    run_of_le (Nat.le_max_right _ _) hrun⟩

theorem exists_repeats_run {p : Pattern κ} {bounds : Bounds}
    (h : Repeats p.Returns bounds c result) :
    ∃ limit, Repeats (p.run limit · = some ·) bounds c result := by
  cases h with
  | full hmost climb =>
      obtain ⟨limit, hclimb⟩ := exists_climbs_run climb
      exact ⟨limit, .full hmost hclimb⟩
  | stalled climb hroom hstep hsuccess hstays =>
      obtain ⟨limit, hclimb, hrun⟩ := exists_climbs_run_and climb hstep
      exact ⟨limit, .stalled hclimb hroom hrun hsuccess hstays⟩
  | enough climb hroom hstep hfails henough =>
      obtain ⟨limit, hclimb, hrun⟩ := exists_climbs_run_and climb hstep
      exact ⟨limit, .enough hclimb hroom hrun hfails henough⟩
  | short climb hroom hstep hfails hshort =>
      obtain ⟨limit, hclimb, hrun⟩ := exists_climbs_run_and climb hstep
      exact ⟨limit, .short hclimb hroom hrun hfails hshort⟩

/-- A repetition ends just in the outcomes of greedy repetition of its inner
pattern. -/
theorem returns_repeated_iff {inner : Pattern κ} {bounds : Bounds} :
    (repeated inner bounds).Returns c result ↔
      Repeats inner.Returns bounds c result := by
  constructor
  · rintro ⟨limit, h⟩
    exact (repeats_of_greedy h).mono fun _ _ => returns_of_run
  · intro h
    obtain ⟨limit, hrepeats⟩ := exists_repeats_run h
    obtain ⟨limit', hgreedy⟩ := exists_greedy_eq_some_iff.2 hrepeats
    have hmono (d e : Cursor) (hrun : inner.run limit d = some e) :
        inner.run (max limit limit') d = some e :=
      run_of_le (Nat.le_max_left limit limit') hrun
    exact ⟨max limit limit',
      greedy_of_le hmono (Nat.le_max_right limit limit') hgreedy⟩

section Total

variable [ForwardMatcher κ]

theorem returns_matchCursor (p : Pattern κ) (c : Cursor) :
    p.Returns c (p.matchCursor c) :=
  returns_iff.2 rfl

theorem matchText_eq_some (p : Pattern κ) (text : String) :
    p.matchText text = some (p.matchCursor (.start text)) :=
  matchCursor?_eq_some p (.start text)

theorem matchCursor_single (cls : CharClass) (c : Cursor) :
    (single cls : Pattern κ).matchCursor c = c.passIf cls.accepts :=
  returns_iff.1 (returns_single_iff.2 rfl)

theorem matchCursor_literal (word : List Char) (c : Cursor) :
    (literal word : Pattern κ).matchCursor c = c.passWord word :=
  returns_iff.1 (returns_literal_iff.2 rfl)

theorem matchCursor_sequence (first second : Pattern κ) (c : Cursor) :
    (sequence first second).matchCursor c =
      if (first.matchCursor c).success then
        if (second.matchCursor (first.matchCursor c)).success then
          second.matchCursor (first.matchCursor c)
        else c.fail
      else c.fail := by
  apply returns_iff.1
  rw [returns_sequence_iff]
  refine ⟨first.matchCursor c, first.returns_matchCursor c, ?_⟩
  cases hsuccess : (first.matchCursor c).success with
  | false => exact .inl ⟨rfl, by simp⟩
  | true =>
      exact .inr
        ⟨rfl, _, second.returns_matchCursor (first.matchCursor c), by simp⟩

theorem matchCursor_choice (first second : Pattern κ) (c : Cursor) :
    (choice first second).matchCursor c =
      if (first.matchCursor c).success then first.matchCursor c
        else second.matchCursor c := by
  apply returns_iff.1
  rw [returns_choice_iff]
  cases hsuccess : (first.matchCursor c).success with
  | false =>
      exact .inr ⟨first.matchCursor c, first.returns_matchCursor c, hsuccess,
        by simpa using second.returns_matchCursor c⟩
  | true =>
      exact .inl
        ⟨by simpa using first.returns_matchCursor c, by simpa using hsuccess⟩

theorem repeats_matchCursor (inner : Pattern κ) (bounds : Bounds) (c : Cursor) :
    Repeats (inner.matchCursor · = ·) bounds c
      ((repeated inner bounds).matchCursor c) := by
  have hrepeats :=
    returns_repeated_iff.1 ((repeated inner bounds).returns_matchCursor c)
  exact hrepeats.mono fun d e => returns_iff.1

end Total

end Pattern

end TextPattern
