import Mathlib.Logic.Function.Basic
import TextPattern.Proofs.Log.Reports
import TextPattern.Proofs.Text.Quoted

/-!
What the message of an error tells. Characters and texts stand in a message
between marks, and a number is over where no digit follows, so nothing that an
error is about can pass for another part of a message; and the ninth letter
tells its kind. Main statement: different errors have different messages, and so
a form of construction that raises its error tells as much as one that returns
it, though all there is of a raised error is the message
(`PatternError.message_identifies`).
-/

namespace TextPattern

namespace PatternError

/-- The letter in which the messages of different kinds of errors first
differ. -/
def kindLetter : PatternError → Char
  | invalidInterval .. => 'c'
  | invalidBounds .. => 'r'
  | malformedBounds _ => 'd'

theorem getElem?_messageChars (error : PatternError) :
    error.messageChars[8]? = some error.kindLetter := by
  cases error <;> rfl

theorem messageChars_invalidInterval (low high : Char) :
    (invalidInterval low high).messageChars =
      "invalid character interval: ".toList ++
        (quotedChar low ++
          (" is greater than ".toList ++ quotedChar high)) := by
  rw [← List.append_assoc, ← List.append_assoc]
  rfl

theorem messageChars_invalidBounds (least most : UInt32) :
    (invalidBounds least most).messageChars =
      "invalid repeat bounds: minimum ".toList ++
        (countDigits least ++
          (" is greater than maximum ".toList ++ countDigits most)) := by
  rw [← List.append_assoc, ← List.append_assoc]
  rfl

theorem messageChars_malformedBounds (source : String) :
    (malformedBounds source).messageChars =
      "malformed repeat bounds ".toList ++ (quotedText source.toList ++
        ": expected `min:max` where both sides are optional non-negative integers".toList) := by
  rw [← List.append_assoc]
  rfl

theorem messageChars_injective : Function.Injective messageChars := by
  intro error error' h
  have hkind : error.kindLetter = error'.kindLetter := by
    apply Option.some.inj
    rw [← getElem?_messageChars, h, getElem?_messageChars]
  cases error with
  | invalidInterval low high =>
      cases error' with
      | invalidInterval low' high' =>
          rw [messageChars_invalidInterval, messageChars_invalidInterval] at h
          obtain ⟨rfl, hlater⟩ :=
            quotedChar_append_inj (List.append_cancel_left h)
          rw [quotedChar_injective (List.append_cancel_left hlater)]
      | invalidBounds _ _ => simp [kindLetter] at hkind
      | malformedBounds _ => simp [kindLetter] at hkind
  | invalidBounds least most =>
      cases error' with
      | invalidBounds least' most' =>
          rw [messageChars_invalidBounds, messageChars_invalidBounds] at h
          obtain ⟨rfl, hlater⟩ :=
            countDigits_append_inj
              (by simp) (by simp) (List.append_cancel_left h)
          rw [countDigits_injective (List.append_cancel_left hlater)]
      | invalidInterval _ _ => simp [kindLetter] at hkind
      | malformedBounds _ => simp [kindLetter] at hkind
  | malformedBounds source =>
      cases error' with
      | malformedBounds source' =>
          rw [messageChars_malformedBounds, messageChars_malformedBounds] at h
          have hsource := (quotedText_append_inj (List.append_cancel_left h)).1
          rw [String.toList_inj.1 hsource]
      | invalidInterval _ _ => simp [kindLetter] at hkind
      | invalidBounds _ _ => simp [kindLetter] at hkind

theorem message_injective : Function.Injective message :=
  fun _ _ h => messageChars_injective (String.ofList_inj.1 h)

end PatternError

/-- The failure as it is told by a form that returns its error. -/
def Failure.returned : Failure → Failure
  | .refused error _ => .refused error .returned
  | .undefined index => .undefined index

namespace Attempt

variable {ε α β : Type} {change : ε → ε}

/-- The second attempt ends as the first does, with its failure changed. -/
def EndsAs (change : ε → ε) (attempt attempt' : Attempt ε α) : Prop :=
  attempt'.outcome = attempt.outcome.mapError change

theorem endsAs_pure (value : α) :
    (pure value : Attempt ε α).EndsAs change (pure value) := rfl

theorem EndsAs.bind {first first' : Attempt ε α} {next next' : α → Attempt ε β}
    (hfirst : first.EndsAs change first')
    (hnext : ∀ value, (next value).EndsAs change (next' value)) :
    (first >>= next).EndsAs change (first' >>= next') := by
  rw [EndsAs, outcome_bind, outcome_bind, hfirst]
  cases first.outcome with
  | error failure => rfl
  | ok value => exact hnext value

theorem endsAs_telling (attempt : Attempt PatternError α) (manner : Manner) :
    (attempt.telling manner).EndsAs Failure.returned
      (attempt.telling .returned) := by
  rw [EndsAs, outcome_telling, outcome_telling]
  cases attempt.outcome <;> rfl

end Attempt

namespace Recipe

variable {κ : Type}

mutual

/-- The same construction in forms that return their errors. -/
def returning : Recipe κ → Recipe κ
  | ready pattern => ready pattern
  | defined index => defined index
  | interval _ low high => interval .returned low high
  | sequence first second => sequence first.returning second.returning
  | choice first second => choice first.returning second.returning
  | repeated _ inner count => repeated .returned inner.returning count
  | optional inner => optional inner.returning
  | select condition first second =>
      select condition first.returning second.returning
  | sequenceOf items => sequenceOf (returningAll items)
  | choiceOf items => choiceOf (returningAll items)

def returningAll : List (Recipe κ) → List (Recipe κ)
  | [] => []
  | recipe :: rest => recipe.returning :: returningAll rest

end

variable (definitions : List (Pattern κ))

mutual

/-- In forms that return its errors a construction ends as before, but for how a
refusal is told. -/
theorem endsAs_build_returning : (recipe : Recipe κ) →
    (recipe.build definitions).EndsAs Failure.returned
      (recipe.returning.build definitions)
  | ready pattern => Attempt.endsAs_pure pattern
  | defined index => by
      rw [returning, build]
      split
      · exact Attempt.endsAs_pure _
      · rfl
  | interval manner low high =>
      ((CharInterval.ofEnds low high).endsAs_telling manner).bind fun _ =>
        Attempt.endsAs_pure _
  | sequence first second =>
      (endsAs_build_returning first).bind fun _ =>
        (endsAs_build_returning second).bind fun _ => Attempt.endsAs_pure _
  | choice first second =>
      (endsAs_build_returning first).bind fun _ =>
        (endsAs_build_returning second).bind fun _ => Attempt.endsAs_pure _
  | repeated manner inner recipe =>
      (endsAs_build_returning inner).bind fun _ =>
        (recipe.make.endsAs_telling .returned).bind fun count =>
          (count.bounds.endsAs_telling manner).bind fun _ =>
            Attempt.endsAs_pure _
  | optional inner =>
      (endsAs_build_returning inner).bind fun _ => Attempt.endsAs_pure _
  | select _ first second =>
      (endsAs_build_returning first).bind fun _ =>
        (endsAs_build_returning second).bind fun _ => Attempt.endsAs_pure _
  | sequenceOf items =>
      (endsAs_buildAll_returningAll items).bind fun _ => Attempt.endsAs_pure _
  | choiceOf items =>
      (endsAs_buildAll_returningAll items).bind fun _ => Attempt.endsAs_pure _

theorem endsAs_buildAll_returningAll : (items : List (Recipe κ)) →
    (buildAll definitions items).EndsAs Failure.returned
      (buildAll definitions (returningAll items))
  | [] => Attempt.endsAs_pure []
  | recipe :: rest =>
      (endsAs_build_returning recipe).bind fun _ =>
        (endsAs_buildAll_returningAll rest).bind fun _ => Attempt.endsAs_pure _

end

def answer (recipe : Recipe κ) : Answer κ :=
  .ofOutcome .pattern (recipe.build definitions).outcome

end Recipe

/-- The answer in which a message that was raised is read back as an error. -/
def Answer.reading {κ : Type} (read : String → PatternError) :
    Answer κ → Answer κ
  | .raised message => .refused (read message)
  | answer => answer

theorem Recipe.answer_returning {κ : Type} {read : String → PatternError}
    (hread : Function.LeftInverse read PatternError.message)
    (definitions : List (Pattern κ)) (recipe : Recipe κ) :
    recipe.returning.answer definitions =
      (recipe.answer definitions).reading read := by
  rw [answer, answer, endsAs_build_returning definitions recipe]
  cases (recipe.build definitions).outcome with
  | ok pattern => rfl
  | error failure =>
      cases failure with
      | undefined index => rfl
      | refused error manner =>
          cases manner with
          | returned => rfl
          | raised => exact congrArg Answer.refused (hread error).symm

example (definitions : List (Pattern Empty)) :
    let recipe : Recipe Empty := .interval .raised 'z' 'a'
    recipe.answer definitions =
        .raised "invalid character interval: 'z' is greater than 'a'" ∧
      recipe.returning.answer definitions =
        .refused (.invalidInterval 'z' 'a') :=
  ⟨rfl, rfl⟩

/-- An error can be told from its message. So nothing is lost in a form that
raises its errors: what the same construction tells in forms that return them
can be read off what it tells. -/
theorem PatternError.message_identifies :
    Function.Injective PatternError.message ∧
      ∃ read : String → PatternError,
        ∀ (κ : Type) (definitions : List (Pattern κ)) (recipe : Recipe κ),
          recipe.returning.answer definitions =
            (recipe.answer definitions).reading read := by
  have : Nonempty PatternError := ⟨.malformedBounds ""⟩
  obtain ⟨read, hread⟩ := PatternError.message_injective.hasLeftInverse
  exact ⟨PatternError.message_injective, read,
    fun κ => Recipe.answer_returning hread⟩

end TextPattern
