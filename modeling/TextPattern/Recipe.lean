import TextPattern.Pattern.Basic
import TextPattern.Repetition.Count

/-!
Patterns that are still to be constructed. Construction goes from the inside out
and from left to right, and ends at the first part that is refused; the callers
of some forms are told so by an error that is returned, those of others by one
that is raised.
-/

namespace TextPattern

/-- How a form of construction tells its caller about a refusal. -/
inductive Manner where
  | returned
  | raised
  deriving DecidableEq

/-- Why a recipe gave no pattern. -/
inductive Failure where
  /-- A part was refused, and its form said so in its own manner. -/
  | refused (error : PatternError) (manner : Manner)
  /-- The recipe refers to a definition that is not there. -/
  | undefined (index : Nat)
  deriving DecidableEq

/-- A construction whose refusal is told in a manner. -/
def Attempt.telling {α : Type} (manner : Manner)
    (attempt : Attempt PatternError α) : Attempt Failure α :=
  attempt.adapt fun error => .refused error manner

@[simp] theorem Attempt.outcome_telling {α : Type} (manner : Manner)
    (attempt : Attempt PatternError α) :
    (attempt.telling manner).outcome =
      attempt.outcome.mapError fun error => Failure.refused error manner := by
  have hrun : (attempt.telling manner).outcome =
      (Except.mapError (fun error => Failure.refused error manner) <$>
        attempt.run).value := rfl
  rw [hrun, Logged.value_map, outcome]

/-- Telling about a refusal reports nothing more. -/
@[simp] theorem Attempt.events_telling {α : Type} (manner : Manner)
    (attempt : Attempt PatternError α) :
    (attempt.telling manner).events = attempt.events := by
  have hrun : (attempt.telling manner).events =
      (Except.mapError (fun error => Failure.refused error manner) <$>
        attempt.run).events := rfl
  rw [hrun, Logged.events_map, events]

/-- How the count of a repetition is come by. -/
inductive CountRecipe where
  /-- The count is at hand. -/
  | given (count : Count)
  /-- Bounds are to be made from their ends. -/
  | ends (least : UInt32) (most : Option UInt32)
  /-- Bounds are to be read from a text. -/
  | reading (source : String)

def CountRecipe.make : CountRecipe → Attempt PatternError Count
  | given count => pure count
  | ends least most => Count.given <$> Bounds.ofEnds least most
  | reading source => Count.given <$> Bounds.ofText source

def CountRecipe.bounds (recipe : CountRecipe) :
    Attempt PatternError Bounds := do
  (← recipe.make).bounds

/-- A pattern still to be constructed. -/
inductive Recipe (κ : Type) where
  /-- A pattern that needs no construction. -/
  | ready (pattern : Pattern κ)
  /-- A pattern that was defined before. -/
  | defined (index : Nat)
  /-- One character of an interval. -/
  | interval (manner : Manner) (low high : Char)
  | sequence (first second : Recipe κ)
  | choice (first second : Recipe κ)
  /-- A repetition; a refusal of its bounds is told in the given manner, but one
  met while making the count is returned. -/
  | repeated (manner : Manner) (inner : Recipe κ) (count : CountRecipe)
  | optional (inner : Recipe κ)
  /-- One of two patterns, both of which are constructed. -/
  | select (condition : Bool) (first second : Recipe κ)
  | sequenceOf (items : List (Recipe κ))
  | choiceOf (items : List (Recipe κ))

namespace Recipe

variable {κ : Type}

mutual

def build (definitions : List (Pattern κ)) :
    Recipe κ → Attempt Failure (Pattern κ)
  | ready pattern => pure pattern
  | defined index =>
      match definitions[index]? with
      | some pattern => pure pattern
      | none => throw (.undefined index)
  | interval manner low high => do
      let interval ← (CharInterval.ofEnds low high).telling manner
      return .single (.between interval)
  | sequence first second => do
      let first ← first.build definitions
      let second ← second.build definitions
      return first.sequence second
  | choice first second => do
      let first ← first.build definitions
      let second ← second.build definitions
      return first.choice second
  | repeated manner inner count => do
      let inner ← inner.build definitions
      let count ← count.make.telling .returned
      let bounds ← count.bounds.telling manner
      return inner.repeated bounds
  | optional inner => do
      let inner ← inner.build definitions
      return inner.optional
  | select condition first second => do
      let first ← first.build definitions
      let second ← second.build definitions
      return if condition then first else second
  | sequenceOf items => do
      let patterns ← buildAll definitions items
      return Pattern.sequenceOf patterns
  | choiceOf items => do
      let patterns ← buildAll definitions items
      return Pattern.choiceOf patterns

def buildAll (definitions : List (Pattern κ)) :
    List (Recipe κ) → Attempt Failure (List (Pattern κ))
  | [] => pure []
  | recipe :: rest => do
      let pattern ← recipe.build definitions
      let patterns ← buildAll definitions rest
      return pattern :: patterns

end

/-- Constructs definitions in order; each may refer to those before it. -/
def define (recipes : List (Recipe κ)) : Attempt Failure (List (Pattern κ)) :=
  recipes.foldlM (fun definitions recipe => do
    return definitions ++ [← recipe.build definitions]) []

/-- Constructs definitions and then a pattern that may refer to them. -/
def buildWith (definitions : List (Recipe κ)) (recipe : Recipe κ) :
    Attempt Failure (Pattern κ) := do
  recipe.build (← define definitions)

end Recipe

end TextPattern
