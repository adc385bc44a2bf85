import TextPattern.Cursor.Lemmas

/-!
Cursor operations as values, so that leaves can be described by the operations
that they perform.
-/

namespace TextPattern

/-- One operation on a cursor that does not look at a pattern. -/
inductive CursorAction where
  | advance
  | succeed
  | fail
  | restart
  deriving DecidableEq

def CursorAction.apply : CursorAction → Cursor → Cursor
  | advance => Cursor.advance
  | succeed => Cursor.succeed
  | fail => Cursor.fail
  | restart => Cursor.restart

def Cursor.perform (actions : List CursorAction) (c : Cursor) : Cursor :=
  actions.foldl (fun current action => action.apply current) c

theorem CursorAction.chars_apply (action : CursorAction) (c : Cursor) :
    (action.apply c).chars = c.chars := by
  cases action <;> simp [apply]

/-- No operation changes the text. -/
theorem Cursor.chars_perform (actions : List CursorAction) (c : Cursor) :
    (c.perform actions).chars = c.chars := by
  induction actions generalizing c with
  | nil => rfl
  | cons action rest ih =>
      rw [perform, List.foldl_cons, ← perform, ih, action.chars_apply]

end TextPattern
