import TextPattern.Proofs.Pattern.Limit
import TextPattern.Recipe

/-!
What a program that calls the library finds in its log. A construction that is
refused ends at once, and only there is anything reported; so whatever is
constructed, and out of however many parts, the reports tell of the refusal that
ended it and of nothing else (`Recipe.candid_build`). Main statement: the log of
a program is made of the reports of its calls, in the order of the calls: one
for each refusal, one for each match and one more for the verdict on a whole
text (`Program.reported`).
-/

namespace TextPattern

namespace Attempt

variable {ε α β : Type} {cause : ε → Option PatternError}

/-- All that the attempt has reported is the refusal that ended it, once, if it
was refused. -/
def Candid (cause : ε → Option PatternError) (attempt : Attempt ε α) : Prop :=
  attempt.events = match attempt.outcome with
    | .ok _ => []
    | .error failure => ((cause failure).map Event.rejected).toList

theorem candid_pure (value : α) : (pure value : Attempt ε α).Candid cause := rfl

theorem candid_reject (error : PatternError) :
    (reject error : Attempt PatternError α).Candid some := rfl

theorem candid_throw {failure : ε} (hcause : cause failure = none) :
    (throw failure : Attempt ε α).Candid cause := by
  simp [Candid, hcause]

/-- What follows a refused attempt is not reached, so no refusal hides another
one. -/
theorem Candid.bind {first : Attempt ε α} {next : α → Attempt ε β}
    (hfirst : first.Candid cause) (hnext : ∀ value, (next value).Candid cause) :
    (first >>= next).Candid cause := by
  rw [Candid, events_bind, outcome_bind, hfirst]
  cases first.outcome with
  | error failure => simp [Except.bind]
  | ok value => exact hnext value

theorem Candid.map {attempt : Attempt ε α} (h : attempt.Candid cause)
    (f : α → β) : (f <$> attempt).Candid cause := by
  rw [map_eq_pure_bind]
  exact h.bind fun _ => candid_pure _

end Attempt

def Failure.error? : Failure → Option PatternError
  | .refused error _ => some error
  | .undefined _ => none

theorem Attempt.Candid.telling {α : Type} {attempt : Attempt PatternError α}
    (h : attempt.Candid some) (manner : Manner) :
    (attempt.telling manner).Candid Failure.error? := by
  rw [Candid, events_telling, outcome_telling, h]
  cases attempt.outcome <;> rfl

theorem CharInterval.candid_ofEnds (low high : Char) :
    (CharInterval.ofEnds low high).Candid some := by
  unfold ofEnds
  split
  · exact Attempt.candid_pure _
  · exact Attempt.candid_reject _

theorem Bounds.candid_ofEnds (least : UInt32) (most : Option UInt32) :
    (Bounds.ofEnds least most).Candid some := by
  unfold ofEnds
  split
  · exact Attempt.candid_pure _
  · split
    · exact Attempt.candid_pure _
    · exact Attempt.candid_reject _

theorem candid_orMalformed {α : Type} (source : String) (value? : Option α) :
    (orMalformed source value?).Candid some := by
  cases value? with
  | none => exact Attempt.candid_reject _
  | some value => exact Attempt.candid_pure value

/-- Of all that can be wrong with a text only the first thing is reported. -/
theorem Bounds.candid_ofText (source : String) :
    (Bounds.ofText source).Candid some := by
  apply (candid_orMalformed source _).bind
  rintro ⟨front, back⟩
  apply (candid_orMalformed source _).bind
  intro least
  apply (candid_orMalformed source _).bind
  intro most
  exact candid_ofEnds (least.getD 0) most

theorem Count.candid_bounds (count : Count) : count.bounds.Candid some := by
  cases count with
  | exactly count => exact Attempt.candid_pure _
  | range lower upper =>
      cases upper with
      | excluded limit =>
          rw [bounds]
          split
          · exact Bounds.candid_ofEnds _ _
          · exact Bounds.candid_ofEnds _ _
      | included limit => exact Bounds.candid_ofEnds _ _
      | unbounded => exact Bounds.candid_ofEnds _ _
  | spelled source => exact Bounds.candid_ofText source
  | given bounds => exact Bounds.candid_ofEnds bounds.least bounds.most

theorem CountRecipe.candid_make (recipe : CountRecipe) :
    recipe.make.Candid some := by
  cases recipe with
  | given count => exact Attempt.candid_pure count
  | ends least most => exact (Bounds.candid_ofEnds least most).map _
  | reading source => exact (Bounds.candid_ofText source).map _

namespace Recipe

variable {κ : Type} (definitions : List (Pattern κ))

mutual

/-- A pattern is constructed without a report, or refused with one. -/
theorem candid_build :
    (recipe : Recipe κ) → (recipe.build definitions).Candid Failure.error?
  | ready pattern => Attempt.candid_pure pattern
  | defined index => by
      rw [build]
      split
      · exact Attempt.candid_pure _
      · exact Attempt.candid_throw rfl
  | interval manner low high =>
      ((CharInterval.candid_ofEnds low high).telling manner).bind fun _ =>
        Attempt.candid_pure _
  | sequence first second =>
      (candid_build first).bind fun _ => (candid_build second).bind fun _ =>
        Attempt.candid_pure _
  | choice first second =>
      (candid_build first).bind fun _ => (candid_build second).bind fun _ =>
        Attempt.candid_pure _
  | repeated manner inner recipe =>
      (candid_build inner).bind fun _ =>
        (recipe.candid_make.telling .returned).bind fun count =>
          (count.candid_bounds.telling manner).bind fun _ =>
            Attempt.candid_pure _
  | optional inner => (candid_build inner).bind fun _ => Attempt.candid_pure _
  | select _ first second =>
      (candid_build first).bind fun _ => (candid_build second).bind fun _ =>
        Attempt.candid_pure _
  | sequenceOf items =>
      (candid_buildAll items).bind fun _ => Attempt.candid_pure _
  | choiceOf items =>
      (candid_buildAll items).bind fun _ => Attempt.candid_pure _

theorem candid_buildAll :
    (items : List (Recipe κ)) →
      (buildAll definitions items).Candid Failure.error?
  | [] => Attempt.candid_pure []
  | recipe :: rest =>
      (candid_build recipe).bind fun _ => (candid_buildAll rest).bind fun _ =>
        Attempt.candid_pure _

end

end Recipe

def Event.errorText? : Event → Option String
  | .rejected error => some error.message
  | .matchFinished .. => none
  | .fullMatchFinished _ => none

inductive Call (κ : Type) where
  /-- Bounds are asked for by their ends. -/
  | bounds (least : UInt32) (most : Option UInt32)
  /-- Bounds are read from a text. -/
  | reading (source : String)
  /-- A pattern is constructed: an interval or a repetition by itself, or a tree
  of many parts. -/
  | construct (recipe : Recipe κ)
  /-- A pattern is matched at the front of a text. -/
  | matchText (p : Pattern κ) (text : String)
  /-- A pattern is matched with a whole text. -/
  | fullMatchText (p : Pattern κ) (text : String)

/-- Whether the call asks for a construction, and not for a match. -/
def Call.constructs {κ : Type} : Call κ → Bool
  | bounds .. => true
  | reading _ => true
  | construct _ => true
  | matchText .. => false
  | fullMatchText .. => false

/-- What a program gets to know of a call. -/
inductive Answer (κ : Type) where
  | bounds (bounds : Bounds)
  | pattern (p : Pattern κ)
  /-- The error of a refusal is returned. -/
  | refused (error : PatternError)
  /-- The error of a refusal is raised, and all there is of it is its
  message. -/
  | raised (message : String)
  /-- The pattern refers to a definition that is not there. -/
  | undefined (index : Nat)
  /-- A match has ended. -/
  | ended (result : Cursor)

def Answer.ofOutcome {α κ : Type} (accepted : α → Answer κ) :
    Except Failure α → Answer κ
  | .ok value => accepted value
  | .error (.refused error .returned) => .refused error
  | .error (.refused error .raised) => .raised error.message
  | .error (.undefined index) => .undefined index

section Program

variable {κ : Type} [Matcher κ]

/-- Makes the call; there is no answer if it is a match that does not end. -/
def Call.perform : Call κ → Logged (Option (Answer κ))
  | bounds least most =>
      (some ∘ Answer.ofOutcome .bounds) <$>
        ((Bounds.ofEnds least most).telling .returned).run
  | reading source =>
      (some ∘ Answer.ofOutcome .bounds) <$>
        ((Bounds.ofText source).telling .returned).run
  | construct recipe =>
      (some ∘ Answer.ofOutcome .pattern) <$> (recipe.build []).run
  | matchText p text => Option.map .ended <$> p.matchTextLogged text
  | fullMatchText p text => Option.map .ended <$> p.fullMatchTextLogged text

/-- What a call and its answer leave in the log. -/
inductive Reports : Call κ → Option (Answer κ) → List Event → Prop
  | bounds {call : Call κ} {made : Bounds} (hcall : call.constructs = true) :
      Reports call (some (.bounds made)) []
  | pattern {call : Call κ} {made : Pattern κ}
      (hcall : call.constructs = true) :
      Reports call (some (.pattern made)) []
  | undefined {call : Call κ} {index : Nat} (hcall : call.constructs = true) :
      Reports call (some (.undefined index)) []
  /-- One report of a refusal, with the message of the error that is
  returned. -/
  | refused {call : Call κ} {error : PatternError} {event : Event}
      (hcall : call.constructs = true)
      (hlevel : event.level = .debug)
      (htext : event.errorText? = some error.message) :
      Reports call (some (.refused error)) [event]
  /-- One report of a refusal, with the message that is raised. -/
  | raised {call : Call κ} {message : String} {event : Event}
      (hcall : call.constructs = true)
      (hlevel : event.level = .debug)
      (htext : event.errorText? = some message) :
      Reports call (some (.raised message)) [event]
  /-- One report of a match that has ended. -/
  | matched {p : Pattern κ} {text : String} {result : Cursor} {event : Event}
      (hreturns : p.Returns (.start text) result)
      (hlevel : event.level = .trace)
      (hevent : event =
        .matchFinished p.render text.utf8ByteSize result.position
          result.success) :
      Reports (.matchText p text) (some (.ended result)) [event]
  /-- The same report, and one more with the verdict on the whole text. -/
  | fullyMatched {p : Pattern κ} {text : String} {result : Cursor}
      {event verdict : Event}
      (hmatched : Reports (.matchText p text) (some (.ended result)) [event])
      (hlevel : verdict.level = .trace)
      (hverdict : verdict = .fullMatchFinished result.isFullMatch) :
      Reports (.fullMatchText p text) (some (.ended result)) [event, verdict]
  /-- Nothing of a match that does not end. -/
  | endless {call : Call κ} (hcall : call.constructs = false) :
      Reports call none []

structure Turn (κ : Type) where
  call : Call κ
  answer : Option (Answer κ)

/-- A program that calls the library. What it does next may depend on each
answer, that of a refusal too; so a program may end at an error that is raised,
or catch it and go on. -/
inductive Program (κ : Type) where
  | finished
  | ask (call : Call κ) (next : Answer κ → Program κ)

/-- Runs a program, up to a call that is not answered if there is one, and tells
the calls made. -/
def Program.run : Program κ → Logged (List (Turn κ))
  | finished => pure []
  | ask call next => do
      match ← call.perform with
      | none => return [⟨call, none⟩]
      | some answer =>
          let later ← (next answer).run
          return ⟨call, some answer⟩ :: later

theorem Attempt.Candid.reports {α : Type} {attempt : Attempt Failure α}
    (h : attempt.Candid Failure.error?) {call : Call κ}
    (hcall : call.constructs = true) {accepted : α → Answer κ}
    (haccepted : ∀ value, Reports call (some (accepted value)) []) :
    Reports call (some (Answer.ofOutcome accepted attempt.outcome))
      attempt.events := by
  rw [h]
  cases attempt.outcome with
  | ok value => exact haccepted value
  | error failure =>
      cases failure with
      | undefined index => exact .undefined hcall
      | refused error manner =>
          cases manner with
          | returned => exact .refused hcall rfl rfl
          | raised => exact .raised hcall rfl rfl

theorem reports_matchText {p : Pattern κ} {text : String} {result : Cursor}
    (h : p.matchText text = some result) :
    Reports (.matchText p text) (some (.ended result))
      [p.finished text result] :=
  .matched ⟨_, h⟩ rfl rfl

/-- Every call leaves in the log what it should. -/
theorem Call.reports_perform (call : Call κ) :
    Reports call call.perform.value call.perform.events := by
  cases call with
  | bounds least most =>
      rw [perform, Logged.value_map, Logged.events_map]
      exact ((Bounds.candid_ofEnds least most).telling .returned).reports rfl
        fun _ => .bounds rfl
  | reading source =>
      rw [perform, Logged.value_map, Logged.events_map]
      exact ((Bounds.candid_ofText source).telling .returned).reports rfl
        fun _ => .bounds rfl
  | construct recipe =>
      rw [perform, Logged.value_map, Logged.events_map]
      exact (recipe.candid_build []).reports rfl fun _ => .pattern rfl
  | matchText p text =>
      rw [perform, Logged.value_map, Logged.events_map,
        Pattern.value_matchTextLogged, Pattern.events_matchTextLogged]
      cases h : p.matchText text with
      | none => exact .endless rfl
      | some result => exact reports_matchText h
  | fullMatchText p text =>
      rw [perform, Logged.value_map, Logged.events_map,
        Pattern.value_fullMatchTextLogged, Pattern.events_fullMatchTextLogged]
      cases h : p.matchText text with
      | none => exact .endless rfl
      | some result => exact .fullyMatched (reports_matchText h) rfl rfl

/-- A call is not answered only if it is a match that does not end, of leaves
that stay on the text. -/
theorem Call.perform_eq_none
    (hleaf : ∀ (value : κ) (c : Cursor), (Matcher.run value c).chars = c.chars)
    {call : Call κ} (h : call.perform.value = none) :
    ∃ p text, (call = .matchText p text ∨ call = .fullMatchText p text) ∧
      ∀ result, ¬ p.Returns (.start text) result := by
  cases call with
  | bounds least most => simp [perform] at h
  | reading source => simp [perform] at h
  | construct recipe => simp [perform] at h
  | matchText p text =>
      refine ⟨p, text, .inl rfl, (Pattern.matchText_eq_none_iff hleaf).1 ?_⟩
      simpa [perform] using h
  | fullMatchText p text =>
      refine ⟨p, text, .inr rfl, (Pattern.matchText_eq_none_iff hleaf).1 ?_⟩
      simpa [perform] using h

/-- The log of a program is made of the reports of its calls, in the order of
the calls, whatever it does about a refusal. Every call is answered but a match
that does not end, for leaves that stay on the text. -/
theorem Program.reported (program : Program κ) :
    (∃ logs, List.Forall₂ (fun turn log => Reports turn.call turn.answer log)
        program.run.value logs ∧
      program.run.events = logs.flatten) ∧
    ((∀ (value : κ) (c : Cursor), (Matcher.run value c).chars = c.chars) →
      ∀ turn ∈ program.run.value, turn.answer = none →
        ∃ p text,
          (turn.call = .matchText p text ∨ turn.call = .fullMatchText p text) ∧
          ∀ result, ¬ p.Returns (.start text) result) := by
  induction program with
  | finished =>
      exact ⟨⟨[], .nil, rfl⟩, fun _ turn hturn => absurd hturn List.not_mem_nil⟩
  | ask call next ih =>
      have hreports := call.reports_perform
      rw [run, Logged.value_bind, Logged.events_bind]
      cases hanswer : call.perform.value with
      | none =>
          rw [hanswer] at hreports
          refine ⟨⟨[call.perform.events], .cons hreports .nil, by simp⟩, ?_⟩
          intro hleaf turn hturn _
          obtain rfl := List.mem_singleton.1 hturn
          exact call.perform_eq_none hleaf hanswer
      | some answer =>
          rw [hanswer] at hreports
          obtain ⟨⟨logs, hlogs, hevents⟩, hunanswered⟩ := ih answer
          refine ⟨⟨call.perform.events :: logs, .cons hreports hlogs,
            by simp [hevents]⟩, ?_⟩
          intro hleaf turn hturn hnone
          rcases List.mem_cons.1 hturn with rfl | hlater
          · cases hnone
          · exact hunanswered hleaf turn hlater hnone

/-- Three refusals are met, one of them raised and caught, and one of a range
that holds no count. Then bounds are read and used in a match, which covers two
of the three letters. -/
theorem Program.reported_caught :
    let accented : Pattern Empty := .char 'é'
    let matching : Answer Empty → Program Empty
      | .bounds bounds =>
          .ask (.fullMatchText (accented.repeated bounds) "ééa") fun _ =>
            .finished
      | _ => .finished
    let program : Program Empty :=
      .ask (.construct (.interval .raised 'z' 'a')) fun _ =>
        .ask (.reading " 2:1") fun _ =>
          .ask (.construct (.repeated .returned (.ready accented)
            (.given (.range none (.excluded 0))))) fun _ =>
              .ask (.reading "1:") matching
    program.run.events =
        [.rejected (.invalidInterval 'z' 'a'), .rejected (.invalidBounds 2 1),
          .rejected (.invalidBounds 1 0), .matchFinished "'é' * 1.." 5 4 true,
          .fullMatchFinished false] ∧
      (∃ logs, List.Forall₂ (fun turn log => Reports turn.call turn.answer log)
          program.run.value logs ∧ program.run.events = logs.flatten) ∧
      (∀ (value : Empty) (c : Cursor), (Matcher.run value c).chars = c.chars) ∧
      ∀ turn ∈ program.run.value, turn.answer = none →
        ∃ p text,
          (turn.call = .matchText p text ∨ turn.call = .fullMatchText p text) ∧
          ∀ result, ¬ p.Returns (.start text) result := by
  intro accented matching program
  have hleaf (value : Empty) (c : Cursor) :
      (Matcher.run value c).chars = c.chars := nomatch value
  obtain ⟨hlogs, hunanswered⟩ := Program.reported program
  exact ⟨by decide +kernel, hlogs, hleaf, hunanswered hleaf⟩

end Program

end TextPattern
