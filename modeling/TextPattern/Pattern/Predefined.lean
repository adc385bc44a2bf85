import TextPattern.Pattern.Basic

/-!
Ready-made patterns: classes of ASCII characters, single marks, decimal numbers
and identifiers.
-/

namespace TextPattern

namespace Pattern

variable {κ : Type}

def lower : Pattern κ := single (.between ⟨'a', 'z', by decide⟩)

def upper : Pattern κ := single (.between ⟨'A', 'Z', by decide⟩)

def digit : Pattern κ := single (.between ⟨'0', '9', by decide⟩)

def alpha : Pattern κ := lower.choice upper

def alphanumeric : Pattern κ := alpha.choice digit

def underscore : Pattern κ := char '_'

def doubleQuote : Pattern κ := char '"'

def singleQuote : Pattern κ := char '\''

def ampersand : Pattern κ := char '&'

/-- A decimal number: a sign or none, digits, and a point with further digits or
none. -/
def number : Pattern κ :=
  ((oneOf "+-").optional.sequence (digit.repeated (.atLeast 1))).sequence
    ((char '.').sequence (digit.repeated (.atLeast 1))).optional

/-- A letter or underscore, then letters, digits and underscores, up to a length
in all. A length of zero allows the first character all the same. -/
def identifier (longest : UInt32) : Pattern κ :=
  (alpha.choice underscore).sequence
    ((alphanumeric.choice underscore).repeated
      (.atMost (longest - min longest 1)))

end Pattern

end TextPattern
