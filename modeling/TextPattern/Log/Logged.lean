import TextPattern.Log.Event

/-!
Computations that report events, and those that may also be refused. Main
statement: the events of a computation made of two are the events of the first,
then those of the second (`events_bind`).
-/

namespace TextPattern

/-- A value together with the events reported on the way to it, in order. -/
structure Logged (α : Type) where
  value : α
  events : List Event

namespace Logged

instance : Monad Logged where
  pure value := ⟨value, []⟩
  bind first next :=
    ⟨(next first.value).value, first.events ++ (next first.value).events⟩

variable {α β : Type}

@[simp] theorem value_pure (value : α) :
    (pure value : Logged α).value = value := rfl

@[simp] theorem events_pure (value : α) :
    (pure value : Logged α).events = [] := rfl

@[simp] theorem value_bind (first : Logged α) (next : α → Logged β) :
    (first >>= next).value = (next first.value).value := rfl

@[simp] theorem events_bind (first : Logged α) (next : α → Logged β) :
    (first >>= next).events = first.events ++ (next first.value).events := rfl

@[simp] theorem value_map (f : α → β) (first : Logged α) :
    (f <$> first).value = f first.value := rfl

@[simp] theorem events_map (f : α → β) (first : Logged α) :
    (f <$> first).events = first.events :=
  List.append_nil first.events

/-- Equal values with equal events are equal. -/
theorem eq_of_parts {first second : Logged α}
    (hvalue : first.value = second.value)
    (hevents : first.events = second.events) : first = second := by
  cases first
  cases second
  simp_all

instance : LawfulMonad Logged := LawfulMonad.mk' Logged
  (fun _ => eq_of_parts rfl (by simp [Functor.map]))
  (fun _ _ => eq_of_parts rfl (by simp))
  (fun _ _ _ => eq_of_parts rfl (by simp))

def record (event : Event) : Logged Unit := ⟨(), [event]⟩

@[simp] theorem events_record (event : Event) :
    (record event).events = [event] := rfl

end Logged

/-- A construction that may be refused for a reason, with the events reported on
the way. -/
abbrev Attempt (ε α : Type) := ExceptT ε Logged α

namespace Attempt

variable {ε α : Type}

def outcome (attempt : Attempt ε α) : Except ε α := attempt.run.value

def events (attempt : Attempt ε α) : List Event := attempt.run.events

/-- Refuses a construction, and reports that. -/
def reject (error : PatternError) : Attempt PatternError α := do
  Logged.record (.rejected error)
  throw error

@[simp] theorem outcome_pure (value : α) :
    outcome (pure value : Attempt ε α) = .ok value := rfl

@[simp] theorem events_pure (value : α) :
    events (pure value : Attempt ε α) = [] := rfl

@[simp] theorem outcome_throw (failure : ε) :
    outcome (throw failure : Attempt ε α) = .error failure :=
  rfl

@[simp] theorem events_throw (failure : ε) :
    events (throw failure : Attempt ε α) = [] := rfl

@[simp] theorem outcome_reject (error : PatternError) :
    outcome (reject error : Attempt PatternError α) = .error error := rfl

@[simp] theorem events_reject (error : PatternError) :
    events (reject error : Attempt PatternError α) = [.rejected error] := rfl

/-- A refused attempt ends what follows it. -/
theorem outcome_bind {β : Type} (first : Attempt ε α) (next : α → Attempt ε β) :
    (first >>= next).outcome = first.outcome.bind fun value =>
      (next value).outcome := by
  have hrun : (first >>= next).outcome =
      (ExceptT.bindCont next first.run.value).value := rfl
  rw [hrun, outcome]
  cases first.run.value <;> rfl

/-- The events of an attempt, then those of what follows it unless it was
refused. -/
theorem events_bind {β : Type} (first : Attempt ε α) (next : α → Attempt ε β) :
    (first >>= next).events =
      first.events ++ match first.outcome with
        | .ok value => (next value).events
        | .error _ => [] := by
  have hrun : (first >>= next).events =
      first.run.events ++ (ExceptT.bindCont next first.run.value).events := rfl
  rw [hrun, outcome, events]
  cases first.run.value <;> rfl

end Attempt

end TextPattern
