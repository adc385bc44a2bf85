import TextPattern.Pattern.Basic

/-!
How far a pattern can look, read off its shape.
-/

namespace TextPattern

namespace Pattern

/-- How many characters the pattern can look at; unknown if a repetition in it
is unbounded. -/
def lookAhead? : Pattern Empty → Option Nat
  | single _ => some 1
  | literal word => some word.length
  | sequence first second =>
      do return (← first.lookAhead?) + (← second.lookAhead?)
  | choice first second =>
      do return max (← first.lookAhead?) (← second.lookAhead?)
  | repeated inner bounds =>
      do return (← bounds.most).toNat * (← inner.lookAhead?)

example :
    (sequence (word "ab") (char 'c').optional).lookAhead? = some 3 := by
  decide +kernel

example : (repeated (char 'c') .any).lookAhead? = none := by decide +kernel

end Pattern

end TextPattern
