import TextPattern.Text.Utf8

/-!
A cursor is a place in a text together with a verdict: what has been passed,
what lies ahead, and whether the last step succeeded. It is a zipper, so a step
moves one character from one list to the other, and no cursor can stand between
the bytes of a character.
-/

namespace TextPattern

/-- A place in a text and the success flag of the step that led there. -/
structure Cursor where
  /-- The characters before the place, nearest first. -/
  passed : List Char
  /-- The characters after the place, nearest first. -/
  ahead : List Char
  /-- Whether the step that led here succeeded. -/
  success : Bool
  /-- The bytes before the place, kept so that asking for them costs nothing. -/
  position : Nat := utf8Length passed
  position_eq : position = utf8Length passed := by rfl
  deriving DecidableEq

namespace Cursor

def start (text : String) : Cursor where
  passed := []
  ahead := text.toList
  success := true

def between (before after : List Char) (success : Bool) : Cursor where
  passed := before.reverse
  ahead := after
  success := success

/-- The characters of the whole text, in reading order. -/
def chars (c : Cursor) : List Char := c.passed.reverse ++ c.ahead

def source (c : Cursor) : String := String.ofList c.chars

def matched (c : Cursor) : String := String.ofList c.passed.reverse

def remaining (c : Cursor) : String := String.ofList c.ahead

/-- The character just after the place, if any. -/
def current? (c : Cursor) : Option Char := c.ahead.head?

def atEnd (c : Cursor) : Bool := c.ahead.isEmpty

def succeed (c : Cursor) : Cursor := { c with success := true }

def fail (c : Cursor) : Cursor := { c with success := false }

/-- Passes one character; at the end the place stays. The result is successful
either way. -/
def advance (c : Cursor) : Cursor :=
  match c.ahead with
  | [] => c.succeed
  | ch :: rest =>
      { passed := ch :: c.passed
        ahead := rest
        success := true
        position := ch.utf8Size + c.position
        position_eq := by rw [c.position_eq, utf8Length_cons] }

def restart (c : Cursor) : Cursor where
  passed := []
  ahead := c.chars
  success := true

/-- The verdict of a whole-text match: success with nothing left to read. -/
def isFullMatch (c : Cursor) : Bool := c.success && c.atEnd

end Cursor

end TextPattern
