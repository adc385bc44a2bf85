import TextPattern.Proofs.Pattern.Flag
import TextPattern.Proofs.Pattern.Rules

/-!
The contract of a matcher, and that compositions keep it. A result that is
`Conducted` stays on the text and either succeeds no nearer to the front or is
the incoming cursor, marked failed; this is what the leaves promise and what the
induction over a tree carries. Main statement: a tree of well-behaved leaves
ends and is well behaved (`matchCursor?_wellBehaved`).
-/

namespace TextPattern

namespace Cursor

variable {c d e : Cursor}

theorem conducted_fail (c : Cursor) : c.Conducted c.fail := ⟨rfl, by simp⟩

theorem Conducted.chars_eq (h : c.Conducted d) : d.chars = c.chars := h.1

theorem Conducted.eq_fail (h : c.Conducted d) (hfails : d.success = false) :
    d = c.fail := by
  simpa [hfails] using h.2

theorem Conducted.position_le (h : c.Conducted d) :
    c.position ≤ d.position := by
  cases hsuccess : d.success with
  | false =>
      rw [h.eq_fail hsuccess]
      exact Nat.le_refl c.position
  | true => simpa [hsuccess] using h.2

theorem conducted_of_success (hsuccess : d.success = true)
    (hchars : d.chars = c.chars) (hle : c.position ≤ d.position) :
    c.Conducted d := ⟨hchars, by rwa [if_pos hsuccess]⟩

theorem Conducted.trans (h : c.Conducted d) (h' : d.Conducted e)
    (hsuccess : e.success = true) : c.Conducted e :=
  conducted_of_success hsuccess (h'.chars_eq.trans h.chars_eq)
    (Nat.le_trans h.position_le h'.position_le)

/-- A conducted success that does not move is the incoming cursor, marked
successful. -/
theorem Conducted.eq_succeed (h : c.Conducted d) (hsuccess : d.success = true)
    (hstays : d.position = c.position) : d = c.succeed :=
  eq_iff.2 ⟨h.chars_eq, hstays, hsuccess⟩

theorem conducted_passIf (test : Char → Bool) (c : Cursor) :
    c.Conducted (c.passIf test) := by
  cases hsuccess : (c.passIf test).success with
  | true =>
      obtain ⟨hchars, hle⟩ := c.passIf_forward test hsuccess
      exact conducted_of_success hsuccess hchars hle
  | false =>
      have hfail : c.passIf test = c.fail := by
        rw [passIf] at hsuccess ⊢
        split at hsuccess
        · split at hsuccess
          · simp at hsuccess
          · next hrefuses => rw [if_neg hrefuses]
        · rfl
      rw [hfail]
      exact c.conducted_fail

theorem conducted_passWord (word : List Char) (c : Cursor) :
    c.Conducted (c.passWord word) := by
  rw [passWord]
  cases hfollow : c.follow word with
  | none => exact c.conducted_fail
  | some result =>
      obtain ⟨hchars, hle⟩ := follow_forward hfollow
      exact conducted_of_success result.success_succeed hchars hle

/-- What a well-behaved matcher makes of a cursor, in terms of the text and of
byte positions. -/
structure WellBehaved (incoming result : Cursor) : Prop where
  source_eq : result.source = incoming.source
  eq_fail : result.success = false → result = incoming.fail
  position_ge : result.success = true → incoming.position ≤ result.position
  position_le : result.success = true →
    result.position ≤ incoming.source.utf8ByteSize
  boundary : result.success = true →
    String.Pos.Raw.IsValid incoming.source ⟨result.position⟩

theorem isValid_position (c : Cursor) :
    String.Pos.Raw.IsValid c.source ⟨c.position⟩ := by
  rw [String.Pos.Raw.isValid_iff_exists_append]
  refine ⟨c.matched, c.remaining, c.matched_append_remaining.symm, ?_⟩
  rw [← c.utf8ByteSize_matched]
  rfl

/-- A cursor cannot leave its text or stand inside a character, so the contract
is all there is to well-behaved results. -/
theorem wellBehaved_iff_conducted : c.WellBehaved d ↔ c.Conducted d := by
  constructor
  · intro h
    have hchars : d.chars = c.chars := String.ofList_inj.1 h.source_eq
    cases hsuccess : d.success with
    | false => exact h.eq_fail hsuccess ▸ c.conducted_fail
    | true =>
        exact conducted_of_success hsuccess hchars (h.position_ge hsuccess)
  · intro h
    have hsource : d.source = c.source := congrArg String.ofList h.chars_eq
    exact
      { source_eq := hsource
        eq_fail := h.eq_fail
        position_ge := fun _ => h.position_le
        position_le := fun _ => hsource ▸ d.position_le_utf8ByteSize
        boundary := fun _ => hsource ▸ d.isValid_position }

end Cursor

section Repetition

variable {step : Cursor → Cursor → Prop} {bounds : Bounds} {c d : Cursor}

theorem Climbs.conducted (hstep : ∀ c d, step c d → c.Conducted d) {moves : Nat}
    (climb : Climbs step moves c d) :
    d.chars = c.chars ∧ c.position ≤ d.position := by
  induction climb with
  | refl c => exact ⟨rfl, Nat.le_refl _⟩
  | move hfirst _ _ _ ih =>
      have hconducted := hstep _ _ hfirst
      exact ⟨ih.1.trans hconducted.chars_eq,
        Nat.le_trans hconducted.position_le ih.2⟩

theorem Climbs.conducted_succeed (hstep : ∀ c d, step c d → c.Conducted d)
    {moves : Nat} (climb : Climbs step moves c d) : c.Conducted d.succeed := by
  obtain ⟨hchars, hle⟩ := climb.conducted hstep
  exact Cursor.conducted_of_success d.success_succeed hchars hle

theorem Repeats.conducted (hstep : ∀ c d, step c d → c.Conducted d)
    (h : Repeats step bounds c d) : c.Conducted d := by
  cases h with
  | full _ climb => exact climb.conducted_succeed hstep
  | stalled climb => exact climb.conducted_succeed hstep
  | enough climb => exact climb.conducted_succeed hstep
  | short => exact c.conducted_fail

theorem Climbs.chars_eq (hstep : ∀ c d, step c d → d.chars = c.chars)
    {moves : Nat} (climb : Climbs step moves c d) : d.chars = c.chars := by
  induction climb with
  | refl c => rfl
  | move hfirst _ _ _ ih => exact ih.trans (hstep _ _ hfirst)

theorem Repeats.chars_eq (hstep : ∀ c d, step c d → d.chars = c.chars)
    (h : Repeats step bounds c d) : d.chars = c.chars := by
  cases h with
  | full _ climb => exact (Cursor.chars_succeed _).trans (climb.chars_eq hstep)
  | stalled climb => exact (Cursor.chars_succeed _).trans (climb.chars_eq hstep)
  | enough climb => exact (Cursor.chars_succeed _).trans (climb.chars_eq hstep)
  | short => rfl

end Repetition

namespace Pattern

variable {κ : Type} [Matcher κ] {p : Pattern κ} {c result : Cursor}

/-- Every composition of conducted leaves is conducted, wherever it ends. -/
theorem Returns.conducted
    (hleaf : ∀ (value : κ) (c : Cursor), c.Conducted (Matcher.run value c))
    (h : p.Returns c result) : c.Conducted result := by
  induction p generalizing c result with
  | single cls =>
      obtain rfl := returns_single_iff.1 h
      exact c.conducted_passIf cls.accepts
  | literal word =>
      obtain rfl := returns_literal_iff.1 h
      exact c.conducted_passWord word
  | leaf value =>
      obtain rfl := returns_leaf_iff.1 h
      exact hleaf value c
  | sequence first second ihFirst ihSecond =>
      obtain ⟨middle, hfirst, ⟨_, rfl⟩ | ⟨_, last, hsecond, rfl⟩⟩ :=
        returns_sequence_iff.1 h
      · exact c.conducted_fail
      · split
        · next hsuccess =>
            exact (ihFirst hfirst).trans (ihSecond hsecond) hsuccess
        · exact c.conducted_fail
  | choice first second ihFirst ihSecond =>
      rcases returns_choice_iff.1 h with ⟨hfirst, _⟩ | ⟨_, _, _, hsecond⟩
      · exact ihFirst hfirst
      · exact ihSecond hsecond
  | repeated inner bounds ih =>
      exact (returns_repeated_iff.1 h).conducted fun _ _ => ih

/-- Every composition of leaves that stay on the text stays on it, wherever it
ends. -/
theorem Returns.chars_eq
    (hleaf : ∀ (value : κ) (c : Cursor), (Matcher.run value c).chars = c.chars)
    (h : p.Returns c result) : result.chars = c.chars := by
  induction p generalizing c result with
  | single cls =>
      obtain rfl := returns_single_iff.1 h
      exact (c.conducted_passIf cls.accepts).chars_eq
  | literal word =>
      obtain rfl := returns_literal_iff.1 h
      exact (c.conducted_passWord word).chars_eq
  | leaf value =>
      obtain rfl := returns_leaf_iff.1 h
      exact hleaf value c
  | sequence first second ihFirst ihSecond =>
      obtain ⟨middle, hfirst, ⟨_, rfl⟩ | ⟨_, last, hsecond, rfl⟩⟩ :=
        returns_sequence_iff.1 h
      · rfl
      · split
        · exact (ihSecond hsecond).trans (ihFirst hfirst)
        · rfl
  | choice first second ihFirst ihSecond =>
      rcases returns_choice_iff.1 h with ⟨hfirst, _⟩ | ⟨_, _, _, hsecond⟩
      · exact ihFirst hfirst
      · exact ihSecond hsecond
  | repeated inner bounds ih =>
      exact (returns_repeated_iff.1 h).chars_eq fun _ _ => ih

/-- The mark of the end of a text: a leaf that reads nothing and succeeds only
where nothing is left to read. -/
inductive EndMark where
  | mark

instance : Matcher EndMark where
  run _ c := if c.atEnd then c.succeed else c.fail
  written _ _ := "end".toList

theorem endMark_wellBehaved (value : EndMark) (c : Cursor) :
    c.WellBehaved (Matcher.run value c) := by
  rw [Cursor.wellBehaved_iff_conducted]
  change c.Conducted (if c.atEnd then c.succeed else c.fail)
  split
  · exact Cursor.conducted_of_success c.success_succeed c.chars_succeed
      (Nat.le_refl c.position)
  · exact c.conducted_fail

/-- Every tree of well-behaved leaves ends, and is well behaved itself. -/
theorem matchCursor?_wellBehaved
    (hleaf : ∀ (value : κ) (c : Cursor), c.WellBehaved (Matcher.run value c))
    (p : Pattern κ) (c : Cursor) :
    ∃ result, p.matchCursor? c = some result ∧ c.WellBehaved result := by
  have hconducted (value : κ) (c : Cursor) :
      c.Conducted (Matcher.run value c) :=
    Cursor.wellBehaved_iff_conducted.1 (hleaf value c)
  have : ForwardMatcher κ := ⟨fun value c => (hconducted value c).forward⟩
  refine ⟨p.matchCursor c, matchCursor?_eq_some p c, ?_⟩
  rw [Cursor.wellBehaved_iff_conducted]
  exact (p.returns_matchCursor c).conducted hconducted

/-- A mandatory repetition that reads an accented letter and then meets no end
is rolled back to where it began, in the middle of the text and from a cursor
marked failed. -/
theorem matchCursor?_wellBehaved_endMark :
    (∀ (value : EndMark) (c : Cursor), c.WellBehaved (Matcher.run value c)) ∧
      ∃ result,
        (repeated
          (sequenceOf [char 'é', (char 'x').optional, leaf EndMark.mark])
          (.atLeast 2)).matchCursor? (.between ['a'] ['é', 'b'] false) =
            some result ∧
        (Cursor.between ['a'] ['é', 'b'] false).WellBehaved result :=
  ⟨endMark_wellBehaved, matchCursor?_wellBehaved endMark_wellBehaved _ _⟩

theorem conducted_matchCursor (p : Pattern Empty) (c : Cursor) :
    c.Conducted (p.matchCursor c) :=
  (p.returns_matchCursor c).conducted nofun

end Pattern

end TextPattern
