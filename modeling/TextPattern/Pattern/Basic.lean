import TextPattern.CharClass
import TextPattern.Repetition.Bounds

/-!
Patterns as trees: tests on a character and fixed words at the leaves, put
together one after another, as alternatives, or repeated. A kind `κ` of further
leaves is left to the user.
-/

namespace TextPattern

/-- A pattern of texts, with leaves of kind `κ` beside the library's own. -/
inductive Pattern (κ : Type) where
  /-- One character of a class. -/
  | single (cls : CharClass)
  /-- A fixed word. -/
  | literal (word : List Char)
  /-- A leaf of the user's. -/
  | leaf (value : κ)
  /-- One pattern, then another from where it ended. -/
  | sequence (first second : Pattern κ)
  /-- One pattern or, if it fails, another. -/
  | choice (first second : Pattern κ)
  /-- As many repetitions as the bounds and the text allow. -/
  | repeated (inner : Pattern κ) (bounds : Bounds)
  deriving DecidableEq

namespace Pattern

variable {κ ι : Type}

/-- The pattern that matches without reading. -/
def empty : Pattern κ := literal []

/-- The pattern that never matches. -/
def never : Pattern κ := single (.oneOf [])

def word (text : String) : Pattern κ := literal text.toList

def char (ch : Char) : Pattern κ := single (.only ch)

def oneOf (chars : String) : Pattern κ := single (.oneOf chars.toList)

def optional (p : Pattern κ) : Pattern κ := p.repeated (.atMost 1)

/-- Patterns one after another, grouped from the left. -/
def sequenceOf : List (Pattern κ) → Pattern κ
  | [] => empty
  | first :: rest => rest.foldl sequence first

/-- Patterns as alternatives in order, grouped from the left. -/
def choiceOf : List (Pattern κ) → Pattern κ
  | [] => never
  | first :: rest => rest.foldl choice first

end Pattern

end TextPattern
