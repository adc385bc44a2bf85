import TextPattern.Error

/-!
What the library reports while it works: each refused construction, and each
finished match.
-/

namespace TextPattern

inductive Level where
  | debug
  | trace
  deriving DecidableEq

inductive Event where
  /-- A construction was refused. -/
  | rejected (error : PatternError)
  /-- A match ended: the printed pattern, the bytes of the text, and where and
  how it ended. -/
  | matchFinished (pattern : String) (length position : Nat) (success : Bool)
  /-- A match of a whole text ended with this verdict. -/
  | fullMatchFinished (verdict : Bool)
  deriving DecidableEq

/-- Refusals matter more than finished matches. -/
def Event.level : Event → Level
  | .rejected _ => .debug
  | .matchFinished .. => .trace
  | .fullMatchFinished _ => .trace

def Event.message : Event → String
  | .rejected (.invalidInterval ..) => "rejected character interval"
  | .rejected (.invalidBounds ..) => "rejected repeat bounds"
  | .rejected (.malformedBounds _) => "rejected repeat bounds"
  | .matchFinished .. => "match finished"
  | .fullMatchFinished _ => "fullmatch finished"

end TextPattern
