import TextPattern.Cursor.Lemmas

/-!
A cursor by the bytes of its text. A cursor keeps the two sides of its place
apart and never cuts the text; here it is compared with a byte position at which
the text is cut. Main statement: the position of a cursor is one between two
characters, and what the cursor says of the two sides, of the next character and
of the end is what the text says there (`standsIn_source`).
-/

namespace TextPattern

namespace Cursor

/-- What a cursor on a text says, in terms of the text and of byte positions. -/
structure StandsIn (text : String) (c : Cursor) : Prop where
  source_eq : c.source = text
  position_le : c.position ≤ text.utf8ByteSize
  /-- The text can be cut at the position, the two sides are the parts, and the
  character there is the current one. -/
  exists_place : ∃ place : text.Pos, place.offset.byteIdx = c.position ∧
    (text.sliceTo place).copy = c.matched ∧
    (text.sliceFrom place).copy = c.remaining ∧
    place.get? = c.current?
  append_eq : c.matched ++ c.remaining = text
  size_matched : c.matched.utf8ByteSize = c.position
  current_eq : c.current? = c.remaining.front?
  atEnd_iff_position : c.atEnd = true ↔ text.utf8ByteSize ≤ c.position
  atEnd_iff_remaining : c.atEnd = true ↔ c.remaining = ""
  atEnd_iff_current : c.atEnd = true ↔ c.current? = none
  position_advance : c.advance.position =
    c.position + c.current?.elim 0 Char.utf8Size
  isFullMatch_iff : c.isFullMatch = true ↔ c.success = true ∧ c.matched = text

variable (c : Cursor)

theorem current?_eq_front? : c.current? = c.remaining.front? := by
  rw [current?, remaining, String.front?_eq, String.toList_ofList]

theorem atEnd_iff_remaining : c.atEnd = true ↔ c.remaining = "" := by
  rw [atEnd_iff, remaining, String.ofList_eq_empty_iff]

theorem atEnd_iff_current? : c.atEnd = true ↔ c.current? = none := by
  rw [atEnd_iff, current?, List.head?_eq_none_iff]

theorem position_advance :
    c.advance.position = c.position + c.current?.elim 0 Char.utf8Size := by
  cases hahead : c.ahead with
  | nil =>
      rw [advance_of_ahead_nil hahead, current?, hahead]
      rfl
  | cons ch rest =>
      rw [position_advance_cons hahead, current?, hahead]
      rfl

theorem matched_eq_source_iff : c.matched = c.source ↔ c.remaining = "" := by
  rw [← c.matched_append_remaining, ← String.toList_inj, String.toList_append,
    List.self_eq_append_right, String.toList_eq_nil_iff]

/-- The byte position of a cursor, as a place where its text can be cut. -/
def place : c.source.Pos := .ofEqAppend c.matched_append_remaining.symm

theorem splits_place : c.place.Splits c.matched c.remaining :=
  String.Pos.splits_ofEqAppend _

theorem byteIdx_offset_place : c.place.offset.byteIdx = c.position := by
  rw [c.splits_place.offset_eq_rawEndPos, ← c.utf8ByteSize_matched]
  rfl

/-- The character at the place is the first of the remaining part. -/
theorem get?_place : c.place.get? = c.current? := by
  have hsplits := c.splits_place
  cases hahead : c.ahead with
  | nil =>
      have hend : c.remaining = "" := by
        rw [remaining, hahead, String.ofList_nil]
      rw [current?, hahead,
        String.Pos.get?_eq_none (hsplits.eq_endPos_iff.2 hend)]
      rfl
  | cons ch rest =>
      have hfront :
          c.remaining = String.singleton ch ++ String.ofList rest := by
        rw [remaining, hahead]
        simp
      rw [hfront] at hsplits
      have hne := hsplits.ne_endPos_of_singleton
      rw [current?, hahead, String.Pos.get?_eq_some_get hne,
        String.Pos.Splits.get_eq_of_singleton hsplits.next]
      rfl

/-- Every cursor stands in its text as its byte position does. -/
theorem standsIn_source : c.StandsIn c.source where
  source_eq := rfl
  position_le := c.position_le_utf8ByteSize
  exists_place :=
    ⟨c.place, c.byteIdx_offset_place, c.splits_place.copy_sliceTo_eq,
      c.splits_place.copy_sliceFrom_eq, c.get?_place⟩
  append_eq := c.matched_append_remaining
  size_matched := c.utf8ByteSize_matched
  current_eq := c.current?_eq_front?
  atEnd_iff_position := atEnd_iff_position
  atEnd_iff_remaining := c.atEnd_iff_remaining
  atEnd_iff_current := c.atEnd_iff_current?
  position_advance := c.position_advance
  isFullMatch_iff := by
    rw [isFullMatch, Bool.and_eq_true, c.atEnd_iff_remaining,
      c.matched_eq_source_iff]

end Cursor

end TextPattern
