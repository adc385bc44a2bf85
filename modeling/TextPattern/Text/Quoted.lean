import TextPattern.Text.Extending
import TextPattern.Text.Unprintable

/-!
Characters and texts as they are written in messages and printed patterns:
between quotation marks, with a backslash in front of whatever could not stand
there as itself. A character is written between single marks and a text between
double ones, and only the mark that is in use is escaped.
-/

namespace TextPattern

/-- The code point of a character in braces, in lower-case hexadecimal without
leading zeros. -/
def bracedCode (ch : Char) : List Char :=
  '{' :: Nat.toDigits 16 ch.toNat ++ ['}']

/-- One character as it is written between two marks: a short escape if it has
one, else its code point if it would extend the character before it or show
nothing, else itself. -/
def escaped (mark ch : Char) : List Char :=
  match ch with
  | '\x00' => ['\\', '0']
  | '\t' => ['\\', 't']
  | '\r' => ['\\', 'r']
  | '\n' => ['\\', 'n']
  | '\\' => ['\\', '\\']
  | _ =>
      if ch = mark then ['\\', ch]
      else if isExtending ch || isUnprintable ch then
        '\\' :: 'u' :: bracedCode ch
      else [ch]

def quoted (mark : Char) (chars : List Char) : List Char :=
  mark :: chars.flatMap (escaped mark) ++ [mark]

def quotedChar (ch : Char) : List Char := quoted '\'' [ch]

def quotedText (chars : List Char) : List Char := quoted '"' chars

example : quotedChar 'a' = ['\'', 'a', '\''] := by decide +kernel

example : quotedChar '\'' = ['\'', '\\', '\'', '\''] := by decide +kernel

example : quotedText ['\''] = ['"', '\'', '"'] := by decide +kernel

example :
    quotedText ['e', '\u0301'] = "\"e\\u\x7b301\x7d\"".toList := by
  decide +kernel

end TextPattern
