import TextPattern.Matcher
import TextPattern.Pattern.Basic
import TextPattern.Pattern.Precedence

/-!
Printed patterns: `+` between parts that follow each other, `|` between
alternatives, and `*` before the count of a repetition. Both operators group
from the left, so only their right operand is printed as an operand of the next
tighter operator. Main statement: printing in front of what follows, which moves
each character once, prints the same (`writtenBefore_eq`).
-/

namespace TextPattern

namespace Pattern

variable {κ : Type} [Matcher κ]

/-- The characters of a pattern printed in surroundings that require a
precedence. -/
def written (required : Precedence) : Pattern κ → List Char
  | single cls => cls.written
  | literal word => quotedText word
  | leaf value => Matcher.written required value
  | sequence first second =>
      required.enclose .sequence
        (first.written .sequence ++
          ([' ', '+', ' '] ++ second.written .repetition))
  | choice first second =>
      required.enclose .choice
        (first.written .choice ++ ([' ', '|', ' '] ++ second.written .sequence))
  | repeated inner bounds =>
      required.enclose .repetition
        (inner.written .base ++ ([' ', '*', ' '] ++ bounds.written))

/-- Puts the characters of a pattern, printed in surroundings that require a
precedence, in front of what follows them. -/
def writtenBefore (required : Precedence) : Pattern κ → List Char → List Char
  | single cls, rest => cls.written ++ rest
  | literal word, rest => quotedText word ++ rest
  | leaf value, rest => Matcher.written required value ++ rest
  | sequence first second, rest =>
      required.encloseBefore .sequence (fun rest =>
        first.writtenBefore .sequence
          (' ' :: '+' :: ' ' :: second.writtenBefore .repetition rest)) rest
  | choice first second, rest =>
      required.encloseBefore .choice (fun rest =>
        first.writtenBefore .choice
          (' ' :: '|' :: ' ' :: second.writtenBefore .sequence rest)) rest
  | repeated inner bounds, rest =>
      required.encloseBefore .repetition (fun rest =>
        inner.writtenBefore .base
          (' ' :: '*' :: ' ' :: (bounds.written ++ rest))) rest

theorem writtenBefore_eq (required : Precedence) (p : Pattern κ)
    (rest : List Char) :
    p.writtenBefore required rest = p.written required ++ rest := by
  induction p generalizing required rest with
  | single cls => rfl
  | literal word => rfl
  | leaf value => rfl
  | sequence first second ihFirst ihSecond =>
      apply required.encloseBefore_eq
      intro rest
      simp [ihFirst, ihSecond]
  | choice first second ihFirst ihSecond =>
      apply required.encloseBefore_eq
      intro rest
      simp [ihFirst, ihSecond]
  | repeated inner bounds ih =>
      apply required.encloseBefore_eq
      intro rest
      simp [ih]

def renderAt (required : Precedence) (p : Pattern κ) : String :=
  String.ofList (p.writtenBefore required [])

theorem toList_renderAt (required : Precedence) (p : Pattern κ) :
    (p.renderAt required).toList = p.written required := by
  rw [renderAt, String.toList_ofList, writtenBefore_eq, List.append_nil]

/-- The printed form of a pattern that stands alone. -/
def render (p : Pattern κ) : String := p.renderAt .initial

example :
    ((char 'a' : Pattern Empty).choice (char 'b')).render = "'a' | 'b'" := by
  decide +kernel

example :
    (((char 'a').choice (char 'b')).repeated (.atLeast 2) :
      Pattern Empty).render = "('a' | 'b') * 2.." := by decide +kernel

example : (((char 'a' : Pattern Empty).sequence (word "b")).sequence
    ((char 'c').sequence (oneOf "d").optional)).render =
    "'a' + \"b\" + ('c' + one_of(\"d\") * ..=1)" := by decide +kernel

end Pattern

end TextPattern
