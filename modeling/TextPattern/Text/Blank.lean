import TextPattern.Text.CodeTable

/-!
Blank characters, by the Unicode property `White_Space`, and trimming them from
both ends of a text. Main statements: trimming takes away blanks only
(`exists_trimBlank`), and all of them around a text that neither begins nor ends
with one (`trimBlank_append`).
-/

namespace TextPattern

/-- The ranges of the property `White_Space`. -/
def blankTable : CodeTable where
  ranges := [
    (0x9, 0xD), (0x20, 0x20), (0x85, 0x85), (0xA0, 0xA0), (0x1680, 0x1680),
    (0x2000, 0x200A), (0x2028, 0x2029), (0x202F, 0x202F), (0x205F, 0x205F),
    (0x3000, 0x3000)]
  ascending := by decide

def isBlank (ch : Char) : Bool := blankTable.contains ch

def trimFront (chars : List Char) : List Char := chars.dropWhile isBlank

/-- The text without the blanks at its ends. -/
def trimBlank (chars : List Char) : List Char :=
  (trimFront (trimFront chars).reverse).reverse

theorem exists_trimFront (chars : List Char) :
    ∃ front, chars = front ++ trimFront chars ∧
      ∀ ch ∈ front, isBlank ch = true := by
  have hall : (chars.takeWhile isBlank).all isBlank = true := List.all_takeWhile
  exact ⟨chars.takeWhile isBlank, List.takeWhile_append_dropWhile.symm,
    List.all_eq_true.1 hall⟩

/-- Trimming takes blanks away at both ends, and nothing else. -/
theorem exists_trimBlank (chars : List Char) :
    ∃ front back, chars = front ++ trimBlank chars ++ back ∧
      (∀ ch ∈ front, isBlank ch = true) ∧ ∀ ch ∈ back, isBlank ch = true := by
  obtain ⟨front, hfront, hfrontBlank⟩ := exists_trimFront chars
  obtain ⟨back, hback, hbackBlank⟩ := exists_trimFront (trimFront chars).reverse
  refine ⟨front, back.reverse, ?_, hfrontBlank, by simpa using hbackBlank⟩
  have : trimFront chars = trimBlank chars ++ back.reverse := by
    simpa [trimBlank] using congrArg List.reverse hback
  rw [List.append_assoc, ← this]
  exact hfront

theorem trimFront_append {front : List Char}
    (hfront : ∀ ch ∈ front, isBlank ch = true) (rest : List Char) :
    trimFront (front ++ rest) = trimFront rest :=
  List.dropWhile_append_of_pos hfront

theorem trimFront_eq_self {chars : List Char}
    (h : ∀ ch ∈ chars.head?, isBlank ch = false) : trimFront chars = chars := by
  cases chars with
  | nil => rfl
  | cons ch rest => simp [trimFront, h ch rfl]

/-- Blanks around a text that neither begins nor ends with one are all that
trimming takes away. -/
theorem trimBlank_append {front core back : List Char}
    (hfront : ∀ ch ∈ front, isBlank ch = true)
    (hback : ∀ ch ∈ back, isBlank ch = true)
    (hhead : ∀ ch ∈ core.head?, isBlank ch = false)
    (hlast : ∀ ch ∈ core.getLast?, isBlank ch = false) :
    trimBlank (front ++ core ++ back) = core := by
  have hbackReverse : ∀ ch ∈ back.reverse, isBlank ch = true := by
    simpa using hback
  have hlastReverse : ∀ ch ∈ core.reverse.head?, isBlank ch = false := by
    simpa using hlast
  cases core with
  | nil =>
      rw [List.append_nil, trimBlank, trimFront_append hfront,
        ← List.append_nil back, trimFront_append hback]
      rfl
  | cons ch rest =>
      have hkeep : trimFront (ch :: rest ++ back) = ch :: rest ++ back :=
        trimFront_eq_self hhead
      rw [trimBlank, List.append_assoc, trimFront_append hfront,
        hkeep, List.reverse_append, trimFront_append hbackReverse,
        trimFront_eq_self hlastReverse, List.reverse_reverse]

/-- Nothing is left of a text of blanks. -/
theorem trimBlank_eq_nil_iff {chars : List Char} :
    trimBlank chars = [] ↔ ∀ ch ∈ chars, isBlank ch = true := by
  constructor
  · intro h ch hch
    obtain ⟨front, back, hchars, hfront, hback⟩ := exists_trimBlank chars
    rw [hchars, h, List.append_nil] at hch
    exact (List.mem_append.1 hch).elim (hfront ch) (hback ch)
  · intro h
    have htrim : trimBlank (chars ++ [] ++ []) = [] :=
      trimBlank_append h nofun nofun nofun
    rwa [List.append_nil, List.append_nil] at htrim

theorem isBlank_eq_false_of_isDigit {ch : Char} (h : ch.isDigit = true) :
    isBlank ch = false := by
  rw [Char.isDigit, Bool.and_eq_true, decide_eq_true_eq, decide_eq_true_eq] at h
  have hlow : 48 ≤ ch.toNat := h.1
  have hhigh : ch.toNat ≤ 57 := h.2
  rw [Bool.eq_false_iff]
  intro hblank
  obtain ⟨range, hrange, hle, hge⟩ := CodeTable.contains_iff.1 hblank
  have hapart : ∀ range ∈ blankTable.ranges, range.2 < 48 ∨ 57 < range.1 := by
    decide
  rcases hapart range hrange with hbelow | habove <;> omega

end TextPattern
