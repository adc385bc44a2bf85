import TextPattern.Text.Numeral
import TextPattern.Text.Quoted

/-!
Why a pattern could not be constructed, and the message that says so.
-/

namespace TextPattern

/-- The reasons for refusing a construction. -/
inductive PatternError where
  /-- The ends of a character interval are in the wrong order. -/
  | invalidInterval (low high : Char)
  /-- A repetition asks for more than it allows. -/
  | invalidBounds (least most : UInt32)
  /-- A text does not spell repetition bounds. -/
  | malformedBounds (source : String)
  deriving DecidableEq

def PatternError.messageChars : PatternError → List Char
  | .invalidInterval low high =>
      "invalid character interval: ".toList ++ quotedChar low
        ++ " is greater than ".toList ++ quotedChar high
  | .invalidBounds least most =>
      "invalid repeat bounds: minimum ".toList ++ countDigits least
        ++ " is greater than maximum ".toList ++ countDigits most
  | .malformedBounds source =>
      "malformed repeat bounds ".toList ++ quotedText source.toList
        ++ ": expected `min:max` where both sides are optional non-negative integers".toList

def PatternError.message (error : PatternError) : String :=
  String.ofList error.messageChars

end TextPattern
