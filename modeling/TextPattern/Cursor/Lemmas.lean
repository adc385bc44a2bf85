import TextPattern.Cursor.Basic

/-!
What each cursor operation does to the text, the place and the flag. Main
statements: a cursor is determined by its text, position and flag (`eq_iff`);
the passed and the remaining part make up the text (`matched_append_remaining`);
the position is the byte length of the passed part (`utf8ByteSize_matched`).
-/

namespace TextPattern

namespace Cursor

/-- Two cursors with the same two sides and the same flag are equal. -/
theorem eq_of_sides {c d : Cursor} (hpassed : c.passed = d.passed)
    (hahead : c.ahead = d.ahead) (hsuccess : c.success = d.success) :
    c = d := by
  cases c with
  | mk passed ahead success position hposition =>
      cases d with
      | mk passed' ahead' success' position' hposition' =>
          simp only at hpassed hahead hsuccess
          subst hpassed hahead hsuccess hposition hposition'
          rfl

/-- A cursor is determined by its text, its position and its flag. -/
theorem eq_iff {c d : Cursor} :
    c = d ↔ c.chars = d.chars ∧ c.position = d.position ∧
      c.success = d.success := by
  constructor
  · rintro rfl
    exact ⟨rfl, rfl, rfl⟩
  · rintro ⟨hchars, hposition, hsuccess⟩
    have hlength :
        utf8Length c.passed.reverse = utf8Length d.passed.reverse := by
      rw [utf8Length_reverse, utf8Length_reverse, ← c.position_eq,
        ← d.position_eq, hposition]
    obtain ⟨hpassed, hahead⟩ := eq_of_append_eq_of_utf8Length_eq hchars hlength
    exact eq_of_sides (by simpa using hpassed) hahead hsuccess

@[simp] theorem passed_start (text : String) : (start text).passed = [] := rfl

@[simp] theorem ahead_start (text : String) :
    (start text).ahead = text.toList := rfl

@[simp] theorem success_start (text : String) :
    (start text).success = true := rfl

@[simp] theorem position_start (text : String) :
    (start text).position = 0 := rfl

@[simp] theorem chars_start (text : String) :
    (start text).chars = text.toList := by
  simp [chars]

@[simp] theorem source_start (text : String) : (start text).source = text := by
  simp [source]

@[simp] theorem ahead_between (before after : List Char) (success : Bool) :
    (between before after success).ahead = after := rfl

@[simp] theorem success_between (before after : List Char) (success : Bool) :
    (between before after success).success = success := rfl

@[simp] theorem chars_between (before after : List Char) (success : Bool) :
    (between before after success).chars = before ++ after := by
  simp [chars, between]

@[simp] theorem position_between (before after : List Char) (success : Bool) :
    (between before after success).position = utf8Length before := by
  simp [between]

@[simp] theorem passed_succeed (c : Cursor) : c.succeed.passed = c.passed := rfl

@[simp] theorem ahead_succeed (c : Cursor) : c.succeed.ahead = c.ahead := rfl

@[simp] theorem success_succeed (c : Cursor) : c.succeed.success = true := rfl

@[simp] theorem position_succeed (c : Cursor) :
    c.succeed.position = c.position := rfl

@[simp] theorem chars_succeed (c : Cursor) : c.succeed.chars = c.chars := rfl

@[simp] theorem passed_fail (c : Cursor) : c.fail.passed = c.passed := rfl

@[simp] theorem ahead_fail (c : Cursor) : c.fail.ahead = c.ahead := rfl

@[simp] theorem success_fail (c : Cursor) : c.fail.success = false := rfl

@[simp] theorem position_fail (c : Cursor) : c.fail.position = c.position := rfl

@[simp] theorem chars_fail (c : Cursor) : c.fail.chars = c.chars := rfl

@[simp] theorem succeed_succeed (c : Cursor) :
    c.succeed.succeed = c.succeed := rfl

@[simp] theorem succeed_fail (c : Cursor) : c.fail.succeed = c.succeed := rfl

@[simp] theorem fail_succeed (c : Cursor) : c.succeed.fail = c.fail := rfl

@[simp] theorem fail_fail (c : Cursor) : c.fail.fail = c.fail := rfl

theorem succeed_eq_self {c : Cursor} (h : c.success = true) : c.succeed = c :=
  eq_of_sides rfl rfl h.symm

theorem fail_eq_self {c : Cursor} (h : c.success = false) : c.fail = c :=
  eq_of_sides rfl rfl h.symm

@[simp] theorem success_advance (c : Cursor) : c.advance.success = true := by
  unfold advance
  split <;> rfl

theorem advance_of_ahead_nil {c : Cursor} (h : c.ahead = []) :
    c.advance = c.succeed := by
  simp [advance, h]

theorem ahead_advance (c : Cursor) : c.advance.ahead = c.ahead.tail := by
  unfold advance
  split <;> simp_all

theorem position_advance_cons {c : Cursor} {ch : Char} {rest : List Char}
    (h : c.ahead = ch :: rest) :
    c.advance.position = c.position + ch.utf8Size := by
  unfold advance
  split <;> simp_all [Nat.add_comm]

theorem passed_advance_cons {c : Cursor} {ch : Char} {rest : List Char}
    (h : c.ahead = ch :: rest) : c.advance.passed = ch :: c.passed := by
  unfold advance
  split <;> simp_all

@[simp] theorem chars_advance (c : Cursor) : c.advance.chars = c.chars := by
  unfold advance
  split
  · rfl
  · simp_all [chars]

@[simp] theorem advance_succeed (c : Cursor) :
    c.succeed.advance = c.advance := rfl

@[simp] theorem advance_fail (c : Cursor) : c.fail.advance = c.advance := rfl

@[simp] theorem chars_restart (c : Cursor) : c.restart.chars = c.chars := by
  simp [restart, chars]

theorem matched_append_remaining (c : Cursor) :
    c.matched ++ c.remaining = c.source := by
  simp [matched, remaining, source, chars, String.ofList_append]

theorem utf8ByteSize_matched (c : Cursor) :
    c.matched.utf8ByteSize = c.position := by
  simp [matched, c.position_eq]

theorem position_add_utf8Length_ahead (c : Cursor) :
    c.position + utf8Length c.ahead = utf8Length c.chars := by
  simp [chars, c.position_eq]

theorem position_le_utf8ByteSize (c : Cursor) :
    c.position ≤ c.source.utf8ByteSize := by
  rw [source, utf8ByteSize_ofList, ← c.position_add_utf8Length_ahead]
  exact Nat.le_add_right _ _

theorem atEnd_iff {c : Cursor} : c.atEnd = true ↔ c.ahead = [] := by
  simp [atEnd]

/-- The end is where the position reaches the byte length of the text. -/
theorem atEnd_iff_position {c : Cursor} :
    c.atEnd = true ↔ c.source.utf8ByteSize ≤ c.position := by
  have := c.position_add_utf8Length_ahead
  rw [atEnd_iff, ← utf8Length_eq_zero_iff, source, utf8ByteSize_ofList]
  omega

end Cursor

end TextPattern
