/-!
Sets of characters given as ascending closed ranges of code points, the form in
which the properties of characters are listed. Main statement: looking a
character up stops at the first range that begins after it, and still answers
for all ranges (`contains_iff`).
-/

namespace TextPattern

namespace CodeTable

/-- Each range ends where or after it begins, and before the next one begins. -/
def Ascending : List (Nat × Nat) → Prop
  | [] => True
  | [(low, high)] => low ≤ high
  | (low, high) :: (low', high') :: rest =>
      low ≤ high ∧ high < low' ∧ Ascending ((low', high') :: rest)

instance decidableAscending :
    (ranges : List (Nat × Nat)) → Decidable (Ascending ranges)
  | [] => inferInstanceAs (Decidable True)
  | [(low, high)] => inferInstanceAs (Decidable (low ≤ high))
  | (low, high) :: (low', high') :: rest =>
      have := decidableAscending ((low', high') :: rest)
      inferInstanceAs (Decidable
        (low ≤ high ∧ high < low' ∧ Ascending ((low', high') :: rest)))

end CodeTable

/-- A set of characters as closed ranges of code points. -/
structure CodeTable where
  ranges : List (Nat × Nat)
  ascending : CodeTable.Ascending ranges

namespace CodeTable

/-- Looks a code point up; the ranges above it are not visited. -/
def containsCode (code : Nat) : List (Nat × Nat) → Bool
  | [] => false
  | (low, high) :: rest =>
      low ≤ code && (code ≤ high || containsCode code rest)

def contains (table : CodeTable) (ch : Char) : Bool :=
  containsCode ch.toNat table.ranges

section Ranges

variable {low high : Nat} {rest ranges : List (Nat × Nat)}

/-- Where ranges ascend none begins before the first. -/
theorem Ascending.low_le (h : Ascending ((low, high) :: rest)) :
    ∀ range ∈ rest, low ≤ range.1 := by
  induction rest generalizing low high with
  | nil => simp
  | cons head tail ih =>
      obtain ⟨low', high'⟩ := head
      obtain ⟨hle, hlt, htail⟩ := h
      intro range hrange
      rcases List.mem_cons.1 hrange with rfl | hrange
      · show low ≤ low'
        omega
      · have := ih htail range hrange
        omega

theorem Ascending.tail (h : Ascending ((low, high) :: rest)) :
    Ascending rest := by
  cases rest with
  | nil => trivial
  | cons head tail => exact h.2.2

theorem containsCode_iff (h : Ascending ranges) {code : Nat} :
    containsCode code ranges = true ↔
      ∃ range ∈ ranges, range.1 ≤ code ∧ code ≤ range.2 := by
  induction ranges with
  | nil => simp [containsCode]
  | cons head tail ih =>
      obtain ⟨low, high⟩ := head
      simp only [containsCode, Bool.and_eq_true, Bool.or_eq_true,
        decide_eq_true_eq, ih h.tail, List.mem_cons, exists_eq_or_imp]
      constructor
      · rintro ⟨hlow, hhigh | htail⟩
        · exact .inl ⟨hlow, hhigh⟩
        · exact .inr htail
      · rintro (⟨hlow, hhigh⟩ | ⟨range, hrange, hlow, hhigh⟩)
        · exact ⟨hlow, .inl hhigh⟩
        · exact ⟨Nat.le_trans (h.low_le range hrange) hlow,
            .inr ⟨range, hrange, hlow, hhigh⟩⟩

end Ranges

/-- A table holds the characters of its ranges and no others. -/
theorem contains_iff {table : CodeTable} {ch : Char} :
    table.contains ch = true ↔
      ∃ range ∈ table.ranges, range.1 ≤ ch.toNat ∧ ch.toNat ≤ range.2 :=
  containsCode_iff table.ascending

end CodeTable

end TextPattern
