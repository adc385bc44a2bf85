import TextPattern.Pattern.Basic
import TextPattern.Pattern.Precedence
import TextPattern.Repetition.Count

/-!
The grammar of printed patterns, as trees. A phrase is a reading of a text: it
says which characters make up an atom, a count or an operator, how operands are
grouped, and where parentheses stand. Its kind is the layer of the grammar that
it belongs to. Texts are not read here: a phrase has a written form
(`Phrase.written`), and there is a pattern that it stands for unless an interval
or a count in it contradicts itself (`Phrase.pattern?`).
-/

namespace TextPattern

/-- A decimal numeral: ASCII digits, one at least. -/
@[ext] structure Numeral where
  digits : List Char
  digits_ne_nil : digits ≠ []
  isDigit_of_mem : ∀ ch ∈ digits, ch.isDigit = true
  deriving DecidableEq

def Numeral.count? (numeral : Numeral) : Option UInt32 :=
  readCount? numeral.digits

/-- The numeral without leading zeros that spells a count. -/
def Numeral.ofCount (count : UInt32) : Numeral where
  digits := countDigits count
  digits_ne_nil := (readCount?_eq_some_iff.1 (readCount?_countDigits count)).1
  isDigit_of_mem :=
    (readCount?_eq_some_iff.1 (readCount?_countDigits count)).2.1

/-- A spelling of repetition bounds: `n`, `..`, `..=n`, `n..` or `m..=n`. -/
inductive CountPhrase where
  | exactly (count : Numeral)
  | any
  | atMost (limit : Numeral)
  | atLeast (least : Numeral)
  | between (least limit : Numeral)
  deriving DecidableEq

namespace CountPhrase

def written : CountPhrase → List Char
  | exactly count => count.digits
  | any => "..".toList
  | atMost limit => "..=".toList ++ limit.digits
  | atLeast least => least.digits ++ "..".toList
  | between least limit => least.digits ++ ("..=".toList ++ limit.digits)

def count? : CountPhrase → Option Count
  | exactly count => return .exactly (← count.count?)
  | any => some (.range none .unbounded)
  | atMost limit => return .range none (.included (← limit.count?))
  | atLeast least => return .range (← least.count?) .unbounded
  | between least limit =>
      return .range (← least.count?) (.included (← limit.count?))

/-- The bounds that are spelled, unless they contradict each other. -/
def bounds? (phrase : CountPhrase) : Option Bounds := do
  (← phrase.count?).bounds.outcome.toOption

end CountPhrase

/-- A phrase without parts: a character, two characters joined by `..=`, a text,
or a text in `one_of(` and `)`. -/
inductive Atom where
  | char (ch : Char)
  | interval (low high : Char)
  | word (chars : List Char)
  | oneOf (chars : List Char)
  deriving DecidableEq

namespace Atom

def written : Atom → List Char
  | char ch => quotedChar ch
  | interval low high => quotedChar low ++ ("..=".toList ++ quotedChar high)
  | word chars => quotedText chars
  | oneOf chars => "one_of(".toList ++ (quotedText chars ++ [')'])

theorem written_char (ch : Char) : (char ch).written = quotedChar ch := rfl

theorem written_interval (low high : Char) :
    (interval low high).written = quotedChar low ++
      ("..=".toList ++ quotedChar high) := rfl

theorem written_word (chars : List Char) :
    (word chars).written = quotedText chars := rfl

theorem written_oneOf (chars : List Char) :
    (oneOf chars).written = "one_of(".toList ++ (quotedText chars ++ [')']) :=
  rfl

/-- The pattern that the atom stands for, unless the ends of an interval are in
the wrong order. -/
def pattern? : Atom → Option (Pattern Empty)
  | char ch => some (.char ch)
  | interval low high =>
      return .single
        (.between (← (CharInterval.ofEnds low high).outcome.toOption))
  | word chars => some (.literal chars)
  | oneOf chars => some (.single (.oneOf chars))

end Atom

/-- The operators that join two patterns, `+` and `|`. -/
inductive Junction where
  | sequence
  | choice
  deriving DecidableEq

/-- The layers of the grammar, tightest first: what needs no parentheses as an
operand of `*`, of `+`, of `|`, and of nothing. -/
inductive Layer where
  | base
  | repetition
  | joined (junction : Junction)
  deriving DecidableEq

namespace Junction

/-- The layer of the right operand. The left operand is of the layer of the
whole. -/
def operand : Junction → Layer
  | sequence => .repetition
  | choice => .joined .sequence

def mark : Junction → Char
  | sequence => '+'
  | choice => '|'

def join : Junction → Pattern Empty → Pattern Empty → Pattern Empty
  | sequence => .sequence
  | choice => .choice

end Junction

inductive Phrase : Layer → Type
  /-- A base is an atom. -/
  | atom (value : Atom) : Phrase .base
  /-- A base is anything in parentheses. -/
  | group (inner : Phrase (.joined .choice)) : Phrase .base
  /-- A repetition is a base. -/
  | once (inner : Phrase .base) : Phrase .repetition
  /-- A repetition is a base, `*` and a count. -/
  | repeated (inner : Phrase .base) (count : CountPhrase) : Phrase .repetition
  /-- A sequence is a repetition, and a choice is a sequence. -/
  | alone {junction : Junction} (inner : Phrase junction.operand) :
      Phrase (.joined junction)
  /-- A sequence is a sequence, `+` and a repetition, and a choice is a choice,
  `|` and a sequence. -/
  | join {junction : Junction} (first : Phrase (.joined junction))
      (second : Phrase junction.operand) : Phrase (.joined junction)

namespace Phrase

def written {layer : Layer} : Phrase layer → List Char
  | atom value => value.written
  | group inner => '(' :: (inner.written ++ [')'])
  | once inner => inner.written
  | repeated inner count => inner.written ++ ([' ', '*', ' '] ++ count.written)
  | alone inner => inner.written
  | @join junction first second =>
      first.written ++ ([' ', junction.mark, ' '] ++ second.written)

/-- The pattern that the phrase stands for, unless something in it contradicts
itself. -/
def pattern? {layer : Layer} : Phrase layer → Option (Pattern Empty)
  | atom value => value.pattern?
  | group inner => inner.pattern?
  | once inner => inner.pattern?
  | repeated inner count =>
      return .repeated (← inner.pattern?) (← count.bounds?)
  | alone inner => inner.pattern?
  | @join junction first second =>
      return junction.join (← first.pattern?) (← second.pattern?)

end Phrase

end TextPattern
