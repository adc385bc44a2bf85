import TextPattern.Repetition.Reading

/-!
The ways of saying how often a pattern repeats, and the bounds they stand for.
-/

namespace TextPattern

inductive UpperEnd where
  | excluded (limit : UInt32)
  | included (limit : UInt32)
  | unbounded
  deriving DecidableEq

inductive Count where
  /-- Just so many times. -/
  | exactly (count : UInt32)
  /-- Any count of a range; an absent lower end is zero. -/
  | range (lower : Option UInt32) (upper : UpperEnd)
  /-- Bounds spelled as a text. -/
  | spelled (source : String)
  /-- Bounds at hand. -/
  | given (bounds : Bounds)

/-- The bounds that a count stands for; refused if no number of repetitions
would meet it. A range that ends before zero holds no count at all, so its lower
end is raised above zero in the report. -/
def Count.bounds : Count → Attempt PatternError Bounds
  | .exactly count => pure (Bounds.exactly count)
  | .range lower upper =>
      let least := lower.getD 0
      match upper with
      | .excluded limit =>
          if limit = 0 then Bounds.ofEnds (max least 1) (some 0)
          else Bounds.ofEnds least (some (limit - 1))
      | .included limit => Bounds.ofEnds least (some limit)
      | .unbounded => Bounds.ofEnds least none
  | .spelled source => Bounds.ofText source
  | .given bounds => Bounds.ofEnds bounds.least bounds.most

end TextPattern
