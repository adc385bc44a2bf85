import TextPattern.Cursor.Action
import TextPattern.Pattern.Run
import TextPattern.Recipe

/-!
Walks over a text: states of a cursor, each made from the one before by an
operation, by a match, or by going back to an earlier state. States are numbered
from zero.
-/

namespace TextPattern

inductive WalkStep (κ : Type) where
  | act (action : CursorAction)
  /-- Construct a pattern and match it here. -/
  | apply (recipe : Recipe κ)
  /-- Go back to a state. -/
  | recall (number : Nat)
  /-- Compare with a state and stay. -/
  | compare (number : Nat)

inductive WalkReport where
  | state (c : Cursor)
  | same (equal : Bool)
  /-- The pattern could not be constructed. -/
  | failed (failure : Failure)
  /-- The match does not end. -/
  | endless
  /-- There is no state of that number yet. -/
  | noState (number : Nat)

/-- A walk so far: the state it is in and those before it, latest first. -/
structure Walk where
  current : Cursor
  earlier : List Cursor

namespace Walk

variable {κ : Type} [Matcher κ]

def start (text : String) : Walk := ⟨Cursor.start text, []⟩

/-- The states so far, from number zero on. -/
def states (walk : Walk) : List Cursor := (walk.current :: walk.earlier).reverse

def moveTo (walk : Walk) (next : Cursor) : Walk :=
  ⟨next, walk.current :: walk.earlier⟩

/-- Takes a step; one that cannot be taken leaves the cursor where it is. -/
def step (definitions : List (Pattern κ)) (walk : Walk) :
    WalkStep κ → WalkReport × Walk
  | .act action =>
      let next := action.apply walk.current
      (.state next, walk.moveTo next)
  | .apply recipe =>
      match (recipe.build definitions).outcome with
      | .error failure => (.failed failure, walk.moveTo walk.current)
      | .ok pattern =>
          match pattern.matchCursor? walk.current with
          | none => (.endless, walk.moveTo walk.current)
          | some next => (.state next, walk.moveTo next)
  | .recall number =>
      match walk.states[number]? with
      | none => (.noState number, walk.moveTo walk.current)
      | some next => (.state next, walk.moveTo next)
  | .compare number =>
      match walk.states[number]? with
      | none => (.noState number, walk.moveTo walk.current)
      | some state => (.same (walk.current == state), walk.moveTo walk.current)

/-- Takes steps in order; each is reported. -/
def reports (definitions : List (Pattern κ)) :
    Walk → List (WalkStep κ) → List WalkReport
  | _, [] => []
  | walk, next :: rest =>
      let (report, walk) := walk.step definitions next
      report :: reports definitions walk rest

/-- Walks over a text from its front, where the first report is made. -/
def through (definitions : List (Pattern κ)) (text : String)
    (steps : List (WalkStep κ)) : List WalkReport :=
  .state (Cursor.start text) :: (start text).reports definitions steps

end Walk

end TextPattern
