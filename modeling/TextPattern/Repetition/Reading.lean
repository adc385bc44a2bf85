import TextPattern.Repetition.Bounds
import TextPattern.Text.Blank

/-!
Repetition bounds spelled as a text `min:max`. The text is cut at its first
colon; either side may be padded with blanks or left empty, and holds ASCII
digits only. Main statement: where the cut falls (`splitAtColon_eq_some_iff`).
-/

namespace TextPattern

/-- The parts before and after the first colon, if there is one. -/
def splitAtColon : List Char → Option (List Char × List Char)
  | [] => none
  | ch :: rest =>
      if ch = ':' then some ([], rest)
      else (splitAtColon rest).map fun (before, after) => (ch :: before, after)

/-- Reads one side of the bounds: an absent number if it is blank, none at all
if it is no number. -/
def readSide? (side : List Char) : Option (Option UInt32) :=
  let digits := trimBlank side
  if digits.isEmpty then some none else (readCount? digits).map some

def orMalformed {α : Type} (source : String) : Option α → Attempt PatternError α
  | some value => pure value
  | none => Attempt.reject (.malformedBounds source)

/-- Reads bounds from a text; an absent lower end is zero. -/
def Bounds.ofText (source : String) : Attempt PatternError Bounds := do
  let (front, back) ← orMalformed source (splitAtColon source.toList)
  let least ← orMalformed source (readSide? front)
  let most ← orMalformed source (readSide? back)
  Bounds.ofEnds (least.getD 0) most

theorem splitAtColon_eq_some_iff {chars before after : List Char} :
    splitAtColon chars = some (before, after) ↔
      chars = before ++ ':' :: after ∧ ':' ∉ before := by
  induction chars generalizing before with
  | nil => simp [splitAtColon]
  | cons ch rest ih =>
      by_cases hcolon : ch = ':'
      · subst hcolon
        cases before with
        | nil => simp [splitAtColon]
        | cons head tail =>
            simp only [splitAtColon, if_true, Option.some.injEq, Prod.mk.injEq,
              reduceCtorEq, false_and, List.cons_append, List.cons.injEq,
              List.mem_cons, not_or, false_iff]
            rintro ⟨⟨rfl, -⟩, hhead, -⟩
            exact hhead rfl
      · cases before with
        | nil => simp [splitAtColon, hcolon]
        | cons head tail =>
            simp only [splitAtColon, if_neg hcolon, Option.map_eq_some_iff,
              Prod.mk.injEq, List.cons.injEq, Prod.exists, List.cons_append,
              List.mem_cons, not_or]
            constructor
            · rintro ⟨front, back, hsplit, ⟨rfl, rfl⟩, rfl⟩
              obtain ⟨htext, hfront⟩ := ih.1 hsplit
              exact ⟨⟨rfl, htext⟩, fun h => hcolon h.symm, hfront⟩
            · rintro ⟨⟨rfl, htext⟩, -, htail⟩
              exact ⟨tail, after, ih.2 ⟨htext, htail⟩, ⟨rfl, rfl⟩, rfl⟩

end TextPattern
