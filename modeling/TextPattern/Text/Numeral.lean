/-!
Decimal numerals of 32-bit counts. Reading takes ASCII digits only, any number
of leading zeros, and refuses a value that does not fit; writing gives no
leading zeros, and reading undoes it (`readCount?_countDigits`).
-/

namespace TextPattern

def countDigits (count : UInt32) : List Char := Nat.toDigits 10 count.toNat

/-- Reads a count: one digit at least, digits only, and a value that fits. -/
def readCount? (chars : List Char) : Option UInt32 :=
  if chars.isEmpty || !chars.all Char.isDigit then none
  else
    let value := Nat.ofDigitChars 10 chars 0
    if value < UInt32.size then some (UInt32.ofNat value) else none

/-- What is read is the value of the digits. -/
theorem readCount?_eq_some_iff {chars : List Char} {count : UInt32} :
    readCount? chars = some count ↔
      chars ≠ [] ∧ (∀ ch ∈ chars, ch.isDigit = true) ∧
        Nat.ofDigitChars 10 chars 0 = count.toNat := by
  have hcount := count.toNat_lt_size
  simp only [readCount?, Bool.or_eq_true, List.isEmpty_iff,
    Bool.not_eq_true', ne_eq]
  by_cases hempty : chars = []
  · simp [hempty]
  by_cases hall : chars.all Char.isDigit = true
  · have hdigits := List.all_eq_true.1 hall
    by_cases hfits : Nat.ofDigitChars 10 chars 0 < UInt32.size
    · simp only [hempty, hall, hfits, Bool.true_eq_false, or_self, if_false,
        if_true, Option.some.injEq, not_false_eq_true, true_and]
      constructor
      · rintro rfl
        exact ⟨hdigits, (UInt32.toNat_ofNat_of_lt' hfits).symm⟩
      · rintro ⟨-, hvalue⟩
        rw [hvalue, UInt32.ofNat_toNat]
    · simp only [hempty, hall, hfits, Bool.true_eq_false, or_self, if_false,
        reduceCtorEq, false_iff]
      rintro ⟨-, -, hvalue⟩
      omega
  · simp only [Bool.not_eq_true] at hall
    simp only [hempty, hall, or_true, if_true, reduceCtorEq, false_iff]
    rintro ⟨-, hdigits, -⟩
    rw [List.all_eq_true.2 hdigits] at hall
    contradiction

theorem readCount?_countDigits (count : UInt32) :
    readCount? (countDigits count) = some count := by
  rw [readCount?_eq_some_iff]
  refine ⟨Nat.toDigits_ne_nil, fun ch hch => ?_, ?_⟩
  · exact Nat.isDigit_of_mem_toDigits (by decide) (by decide) hch
  · exact Nat.ofDigitChars_toDigits (by decide) (by decide)

end TextPattern
