/-!
How tightly the parts of a printed pattern bind, and when a part needs
parentheses.
-/

namespace TextPattern

/-- How tightly a printed pattern binds, or is required to bind by its
surroundings; tightest first. -/
inductive Precedence where
  | base
  | character
  | repetition
  | sequence
  | choice
  | initial
  deriving DecidableEq

namespace Precedence

def rank : Precedence → Nat
  | base => 0
  | character => 1
  | repetition => 2
  | sequence => 3
  | choice => 4
  | initial => 5

/-- Surroundings that require nothing. -/
instance : Inhabited Precedence := ⟨initial⟩

instance : Ord Precedence :=
  ⟨fun first second => compare first.rank second.rank⟩

instance : LT Precedence := ⟨fun first second => first.rank < second.rank⟩

instance (first second : Precedence) : Decidable (first < second) :=
  inferInstanceAs (Decidable (first.rank < second.rank))

/-- Puts parentheses around a part that binds less tightly than its surroundings
require. -/
def enclose (required own : Precedence) (part : List Char) : List Char :=
  if required < own then '(' :: part ++ [')'] else part

/-- The same in front of what follows, for a part that is put in front of what
follows it. -/
def encloseBefore (required own : Precedence) (part : List Char → List Char)
    (rest : List Char) : List Char :=
  if required < own then '(' :: part (')' :: rest) else part rest

theorem encloseBefore_eq (required : Precedence) {own : Precedence}
    {part : List Char → List Char} {whole : List Char}
    (hpart : ∀ rest, part rest = whole ++ rest) (rest : List Char) :
    required.encloseBefore own part rest =
      required.enclose own whole ++ rest := by
  unfold encloseBefore enclose
  split <;> simp [hpart]

end Precedence

end TextPattern
