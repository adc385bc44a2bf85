import TextPattern.Pattern.Basic

/-!
Whether a pattern can match without reading, read off its shape.
-/

namespace TextPattern

namespace Pattern

def nullable : Pattern Empty → Bool
  | single _ => false
  | literal word => word.isEmpty
  | sequence first second => first.nullable && second.nullable
  | choice first second => first.nullable || second.nullable
  | repeated inner bounds => bounds.least == 0 || inner.nullable

theorem nullable_optional (p : Pattern Empty) :
    p.optional.nullable = true := rfl

end Pattern

end TextPattern
