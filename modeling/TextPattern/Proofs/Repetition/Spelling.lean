import TextPattern.Repetition.Reading

/-!
The texts that spell repetition bounds, said without reading them: `Spells` puts
two sides around the first colon, and `SideSpells` puts blanks alone, or blanks
around ASCII digits, on a side. Main statement: reading a text accepts just what
is spelled so and does not contradict itself, and tells the contradictory from
the malformed (`Bounds.outcome_ofText_iff`).
-/

namespace TextPattern

/-- What one side of the bounds spells: no number if it is blank, else the value
of the digits that stand between its blanks. -/
inductive SideSpells : List Char → Option UInt32 → Prop
  | blank {side : List Char} (hblank : ∀ ch ∈ side, isBlank ch = true) :
      SideSpells side none
  | digits {front digits back : List Char} {count : UInt32}
      (hfront : ∀ ch ∈ front, isBlank ch = true)
      (hback : ∀ ch ∈ back, isBlank ch = true)
      (hne : digits ≠ []) (hdigits : ∀ ch ∈ digits, ch.isDigit = true)
      (hvalue : Nat.ofDigitChars 10 digits 0 = count.toNat) :
      SideSpells (front ++ digits ++ back) (some count)

/-- The text spells these ends: each on its side of the first colon. -/
def Spells (source : String) (least most : Option UInt32) : Prop :=
  ∃ front back, source.toList = front ++ ':' :: back ∧ ':' ∉ front ∧
    SideSpells front least ∧ SideSpells back most

/-- What is to be made of a text that may spell bounds. An absent lower end is
zero. -/
inductive BoundsReading (source : String) : Except PatternError Bounds → Prop
  | accepted {least most : Option UInt32} {bounds : Bounds}
      (hspells : Spells source least most)
      (hleast : bounds.least = least.getD 0) (hmost : bounds.most = most) :
      BoundsReading source (.ok bounds)
  | contradictory {least : Option UInt32} {limit : UInt32}
      (hspells : Spells source least (some limit))
      (hlt : limit < least.getD 0) :
      BoundsReading source (.error (.invalidBounds (least.getD 0) limit))
  | malformed (hspells : ∀ least most, ¬ Spells source least most) :
      BoundsReading source (.error (.malformedBounds source))

theorem readSide?_eq_some_none_iff {side : List Char} :
    readSide? side = some none ↔ trimBlank side = [] := by
  rw [readSide?]
  by_cases hempty : trimBlank side = [] <;> simp [hempty]

theorem readSide?_eq_some_some_iff {side : List Char} {count : UInt32} :
    readSide? side = some (some count) ↔
      readCount? (trimBlank side) = some count := by
  rw [readSide?]
  by_cases hempty : trimBlank side = []
  · simp [hempty, readCount?]
  · simp [hempty]

/-- Digits between blanks are what is left after trimming. -/
theorem trimBlank_digits {front digits back : List Char}
    (hfront : ∀ ch ∈ front, isBlank ch = true)
    (hback : ∀ ch ∈ back, isBlank ch = true)
    (hdigits : ∀ ch ∈ digits, ch.isDigit = true) :
    trimBlank (front ++ digits ++ back) = digits := by
  apply trimBlank_append hfront hback
  · intro ch hch
    exact isBlank_eq_false_of_isDigit (hdigits ch (List.mem_of_mem_head? hch))
  · intro ch hch
    exact isBlank_eq_false_of_isDigit
      (hdigits ch (List.mem_of_mem_getLast? hch))

theorem readSide?_eq_some_iff {side : List Char} {value : Option UInt32} :
    readSide? side = some value ↔ SideSpells side value := by
  constructor
  · intro h
    cases value with
    | none =>
        exact .blank (trimBlank_eq_nil_iff.1 (readSide?_eq_some_none_iff.1 h))
    | some count =>
        obtain ⟨hne, hdigits, hvalue⟩ :=
          readCount?_eq_some_iff.1 (readSide?_eq_some_some_iff.1 h)
        obtain ⟨front, back, hside, hfront, hback⟩ := exists_trimBlank side
        rw [hside]
        exact .digits hfront hback hne hdigits hvalue
  · intro h
    cases h with
    | blank hblank =>
        exact readSide?_eq_some_none_iff.2 (trimBlank_eq_nil_iff.2 hblank)
    | digits hfront hback hne hdigits hvalue =>
        rw [readSide?_eq_some_some_iff, trimBlank_digits hfront hback hdigits]
        exact readCount?_eq_some_iff.2 ⟨hne, hdigits, hvalue⟩

theorem spells_iff {source : String} {least most : Option UInt32} :
    Spells source least most ↔
      ∃ front back, splitAtColon source.toList = some (front, back) ∧
        readSide? front = some least ∧ readSide? back = some most := by
  simp only [Spells, splitAtColon_eq_some_iff, readSide?_eq_some_iff, and_assoc]

/-- A text spells at most one upper end. -/
theorem Spells.most_eq_none_iff {source : String} {least most : Option UInt32}
    (h : Spells source least most) :
    most = none ↔ ∃ least, Spells source least none := by
  constructor
  · rintro rfl
    exact ⟨least, h⟩
  · rintro ⟨least', h'⟩
    obtain ⟨front, back, hsplit, _, hback⟩ := spells_iff.1 h
    obtain ⟨front', back', hsplit', _, hback'⟩ := spells_iff.1 h'
    obtain ⟨rfl, rfl⟩ : front = front' ∧ back = back' := by
      simpa using hsplit.symm.trans hsplit'
    simpa using hback.symm.trans hback'

@[simp] theorem outcome_orMalformed_some {α : Type} (source : String)
    (value : α) : (orMalformed source (some value)).outcome = .ok value :=
  rfl

@[simp] theorem outcome_orMalformed_none {α : Type} (source : String) :
    (orMalformed source (none : Option α)).outcome =
      .error (.malformedBounds source) :=
  rfl

/-- A text that spells two ends asks for the bounds with these ends. -/
theorem Spells.outcome_ofText {source : String} {least most : Option UInt32}
    (h : Spells source least most) :
    (Bounds.ofText source).outcome =
      (Bounds.ofEnds (least.getD 0) most).outcome := by
  obtain ⟨front, back, hsplit, hfront, hback⟩ := spells_iff.1 h
  rw [Bounds.ofText, hsplit, Attempt.outcome_bind]
  simp only [outcome_orMalformed_some, Except.bind, Attempt.outcome_bind,
    hfront, hback]

theorem Bounds.outcome_ofText_of_not_spells {source : String}
    (h : ∀ least most, ¬ Spells source least most) :
    (Bounds.ofText source).outcome = .error (.malformedBounds source) := by
  rw [Bounds.ofText, Attempt.outcome_bind]
  cases hsplit : splitAtColon source.toList with
  | none => rfl
  | some sides =>
      obtain ⟨front, back⟩ := sides
      simp only [outcome_orMalformed_some, Except.bind, Attempt.outcome_bind]
      cases hfront : readSide? front with
      | none => rfl
      | some least =>
          simp only [outcome_orMalformed_some]
          cases hback : readSide? back with
          | none => rfl
          | some most =>
              exact absurd (spells_iff.2 ⟨front, back, hsplit, hfront, hback⟩)
                (h least most)

/-- Reading bounds from a text gives what is to be made of it, and nothing
else. -/
theorem Bounds.outcome_ofText_iff {source : String}
    {result : Except PatternError Bounds} :
    (Bounds.ofText source).outcome = result ↔ BoundsReading source result := by
  constructor
  · rintro rfl
    by_cases hspells : ∃ least most, Spells source least most
    · obtain ⟨least, most, hspells⟩ := hspells
      rw [hspells.outcome_ofText]
      cases hends : (Bounds.ofEnds (least.getD 0) most).outcome with
      | ok bounds =>
          obtain ⟨hleast, hmost⟩ := Bounds.outcome_ofEnds_eq_ok_iff.1 hends
          exact .accepted hspells hleast hmost
      | error error =>
          obtain ⟨limit, rfl, hlt, rfl⟩ :=
            Bounds.outcome_ofEnds_eq_error_iff.1 hends
          exact .contradictory hspells hlt
    · have hnone (least most : Option UInt32) : ¬ Spells source least most := by
        intro h
        exact hspells ⟨least, most, h⟩
      rw [Bounds.outcome_ofText_of_not_spells hnone]
      exact .malformed hnone
  · intro h
    cases h with
    | accepted hspells hleast hmost =>
        rw [hspells.outcome_ofText]
        exact Bounds.outcome_ofEnds_eq_ok_iff.2 ⟨hleast, hmost⟩
    | contradictory hspells hlt =>
        rw [hspells.outcome_ofText]
        exact Bounds.outcome_ofEnds_eq_error_iff.2 ⟨_, rfl, hlt, rfl⟩
    | malformed hspells => exact Bounds.outcome_ofText_of_not_spells hspells

example :
    (Bounds.ofText " 007:\u30002\u00a0").outcome =
      .error (.invalidBounds 7 2) := by rfl

example :
    (Bounds.ofText "1:2:3").outcome = .error (.malformedBounds "1:2:3") := by
  rfl

end TextPattern
