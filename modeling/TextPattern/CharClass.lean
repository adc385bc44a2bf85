import TextPattern.Cursor.Lemmas
import TextPattern.Log.Logged

/-!
Tests on a single character: one character, a closed interval, or a set. A test
is also a step of a cursor: it passes the next character if the test accepts it,
and fails in place otherwise.
-/

namespace TextPattern

/-- A closed interval of characters, not empty. -/
structure CharInterval where
  low : Char
  high : Char
  low_le_high : low ≤ high
  deriving DecidableEq

/-- The interval with the given ends; refused if they are in the wrong order. -/
def CharInterval.ofEnds (low high : Char) : Attempt PatternError CharInterval :=
  if h : low ≤ high then pure ⟨low, high, h⟩
    else Attempt.reject (.invalidInterval low high)

/-- The library's own tests on a character. -/
inductive CharClass where
  | only (ch : Char)
  | between (interval : CharInterval)
  | oneOf (chars : List Char)
  deriving DecidableEq

/-- A kind of test on a character, with the way its tests are printed. Users may
add kinds. -/
class CharTest (σ : Type) where
  accepts : σ → Char → Bool
  written : σ → List Char

namespace CharClass

def accepts : CharClass → Char → Bool
  | only expected, ch => expected == ch
  | between interval, ch => interval.low ≤ ch && ch ≤ interval.high
  | oneOf chars, ch => chars.contains ch

/-- The characters that the class was made from: itself, the two ends, or the
set in order. -/
def parts : CharClass → List Char
  | only ch => [ch]
  | between interval => [interval.low, interval.high]
  | oneOf chars => chars

def written : CharClass → List Char
  | only ch => quotedChar ch
  | between interval =>
      quotedChar interval.low ++ "..=".toList ++ quotedChar interval.high
  | oneOf chars => "one_of(".toList ++ quotedText chars ++ [')']

instance : CharTest CharClass := ⟨accepts, written⟩

@[simp] theorem accepts_only (expected ch : Char) :
    (only expected).accepts ch = (expected == ch) :=
  rfl

theorem accepts_between_iff {interval : CharInterval} {ch : Char} :
    (between interval).accepts ch = true ↔
      interval.low ≤ ch ∧ ch ≤ interval.high := by
  simp [accepts]

theorem accepts_oneOf_iff {chars : List Char} {ch : Char} :
    (oneOf chars).accepts ch = true ↔ ch ∈ chars := by
  simp [accepts]

end CharClass

namespace Cursor

/-- Passes the next character if the test accepts it; otherwise, or at the end,
fails in place. -/
def passIf (test : Char → Bool) (c : Cursor) : Cursor :=
  match c.current? with
  | some ch => if test ch then c.advance else c.fail
  | none => c.fail

theorem passIf_of_ahead_nil {test : Char → Bool} {c : Cursor}
    (h : c.ahead = []) : c.passIf test = c.fail := by
  simp [passIf, current?, h]

theorem passIf_of_ahead_cons {test : Char → Bool} {c : Cursor} {ch : Char}
    {rest : List Char} (h : c.ahead = ch :: rest) :
    c.passIf test = if test ch then c.advance else c.fail := by
  simp [passIf, current?, h]

end Cursor

end TextPattern
