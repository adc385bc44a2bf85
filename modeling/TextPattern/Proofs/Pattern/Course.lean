import TextPattern.Proofs.Cursor.Standing
import TextPattern.Proofs.Pattern.Conduct
import TextPattern.Walk

/-!
Whole courses over a text: states made one from another by the operations of a
cursor, by matches that end and by going back. Matches may be of any tree whose
own leaves go by the operations of a cursor alone, and may start from any state.
Main statement: every state of a course stands in the text as its byte position
does, and so does every state that a walk reports (`standsIn_of_course`).
-/

namespace TextPattern

/-- The states of a course over a text, latest first. -/
inductive Course (κ : Type) [Matcher κ] (text : String) : List Cursor → Prop
  | start : Course κ text [Cursor.start text]
  /-- An operation on the latest state. -/
  | act {c : Cursor} {earlier : List Cursor} (action : CursorAction)
      (course : Course κ text (c :: earlier)) :
      Course κ text (action.apply c :: c :: earlier)
  /-- A match from the latest state that ends. -/
  | apply {c result : Cursor} {earlier : List Cursor} (p : Pattern κ)
      (course : Course κ text (c :: earlier)) (hreturns : p.Returns c result) :
      Course κ text (result :: c :: earlier)
  /-- A copy of some state so far. -/
  | goBack {c : Cursor} {states : List Cursor} (course : Course κ text states)
      (hmem : c ∈ states) : Course κ text (c :: states)

section Course

variable {κ : Type} [Matcher κ] {text : String} {states : List Cursor}
  {c : Cursor}

theorem Cursor.standsIn_of_chars_eq (hchars : c.chars = text.toList) :
    c.StandsIn text := by
  have hsource : c.source = text := by rw [source, hchars, String.ofList_toList]
  exact hsource ▸ c.standsIn_source

/-- Leaves that go by the operations of a cursor alone stay on the text, and so
does a course. -/
theorem Course.chars_eq
    (hleaf : ∀ (value : κ) (c : Cursor),
      ∃ actions, Matcher.run value c = c.perform actions)
    (course : Course κ text states) : ∀ c ∈ states, c.chars = text.toList := by
  have hstays (value : κ) (c : Cursor) :
      (Matcher.run value c).chars = c.chars := by
    obtain ⟨actions, hrun⟩ := hleaf value c
    rw [hrun, c.chars_perform]
  induction course with
  | start => simp
  | act action _ ih =>
      apply List.forall_mem_cons.2 ⟨?_, ih⟩
      rw [action.chars_apply, ih _ List.mem_cons_self]
  | apply p _ hreturns ih =>
      apply List.forall_mem_cons.2 ⟨?_, ih⟩
      rw [hreturns.chars_eq hstays, ih _ List.mem_cons_self]
  | goBack _ hmem ih => exact List.forall_mem_cons.2 ⟨ih _ hmem, ih⟩

namespace Walk

variable (definitions : List (Pattern κ)) {walk : Walk}

/-- A step of a walk continues a course, and reports no state but the one it
leads to. -/
theorem course_step (course : Course κ text (walk.current :: walk.earlier))
    (next : WalkStep κ) :
    let after := walk.step definitions next
    Course κ text (after.2.current :: after.2.earlier) ∧
      ∀ c, after.1 = .state c → c = after.2.current := by
  have hstays : Course κ text (walk.current :: walk.current :: walk.earlier) :=
    course.goBack List.mem_cons_self
  cases next with
  | act action =>
      exact ⟨course.act action, fun _ h => (WalkReport.state.inj h).symm⟩
  | apply recipe =>
      rw [step]
      cases (recipe.build definitions).outcome with
      | error failure => exact ⟨hstays, nofun⟩
      | ok pattern =>
          simp only
          cases hmatch : pattern.matchCursor? walk.current with
          | none => exact ⟨hstays, nofun⟩
          | some result =>
              exact ⟨course.apply pattern ⟨_, hmatch⟩,
                fun _ h => (WalkReport.state.inj h).symm⟩
  | «recall» number =>
      rw [step]
      cases hstate : walk.states[number]? with
      | none => exact ⟨hstays, nofun⟩
      | some state =>
          have hmem : state ∈ walk.current :: walk.earlier :=
            List.mem_reverse.1 (List.mem_of_getElem? hstate)
          exact ⟨course.goBack hmem, fun _ h => (WalkReport.state.inj h).symm⟩
  | compare number =>
      rw [step]
      cases walk.states[number]? with
      | none => exact ⟨hstays, nofun⟩
      | some state => exact ⟨hstays, nofun⟩

theorem exists_course_of_mem_reports {steps : List (WalkStep κ)}
    (course : Course κ text (walk.current :: walk.earlier))
    (hmem : .state c ∈ walk.reports definitions steps) :
    ∃ states, Course κ text states ∧ c ∈ states := by
  induction steps generalizing walk with
  | nil => simp [reports] at hmem
  | cons next rest ih =>
      obtain ⟨hcourse, hreport⟩ := course_step definitions course next
      rcases List.mem_cons.1 hmem with hfirst | hrest
      · exact ⟨_, hcourse, hreport c hfirst.symm ▸ List.mem_cons_self⟩
      · exact ih hcourse hrest

end Walk

/-- If leaves go by the operations of a cursor alone, every state of a course
over a text stands in the text as its byte position does, and so does every
state that a walk over the text reports. -/
theorem standsIn_of_course
    (hleaf : ∀ (value : κ) (c : Cursor),
      ∃ actions, Matcher.run value c = c.perform actions)
    (text : String) :
    (∀ states, Course κ text states → ∀ c ∈ states, c.StandsIn text) ∧
    ∀ (definitions : List (Pattern κ)) (steps : List (WalkStep κ)) (c : Cursor),
      .state c ∈ Walk.through definitions text steps → c.StandsIn text := by
  have hstands (states : List Cursor) (course : Course κ text states) :
      ∀ c ∈ states, c.StandsIn text :=
    fun c hmem => Cursor.standsIn_of_chars_eq (course.chars_eq hleaf c hmem)
  refine ⟨hstands, ?_⟩
  intro definitions steps c hmem
  rcases List.mem_cons.1 hmem with hstart | hreported
  · obtain rfl := WalkReport.state.inj hstart
    exact hstands _ .start _ List.mem_cons_self
  · have hbegin : Course κ text
        ((Walk.start text).current :: (Walk.start text).earlier) := .start
    obtain ⟨states, course, hstate⟩ :=
      Walk.exists_course_of_mem_reports definitions hbegin hreported
    exact hstands states course c hstate

end Course

namespace Pattern

theorem endMark_perform (value : EndMark) (c : Cursor) :
    ∃ actions, Matcher.run value c = c.perform actions := by
  change ∃ actions, (if c.atEnd then c.succeed else c.fail) = c.perform actions
  split
  · exact ⟨[.succeed], rfl⟩
  · exact ⟨[.fail], rfl⟩

/-- Over two bytes of an accented letter, from a cursor marked failed up to the
end of the text, and back to an earlier state. -/
theorem standsIn_of_course_accented :
    let accented : Pattern EndMark := char 'é'
    let last : Pattern EndMark := (char 'a').sequence (leaf .mark)
    let steps : List (WalkStep EndMark) :=
      [.act .fail, .apply (.ready accented), .apply (.ready last), .recall 2]
    (∀ (value : EndMark) (c : Cursor), ∃ actions,
      Matcher.run value c = c.perform actions) ∧
      .state (.between ['é', 'a'] [] true) ∈ Walk.through [] "éa" steps ∧
      (Cursor.between ['é', 'a'] [] true).StandsIn "éa" := by
  intro accented last steps
  have hmem :
      .state (.between ['é', 'a'] [] true) ∈ Walk.through [] "éa" steps :=
    List.mem_of_getElem? (i := 3) rfl
  exact ⟨endMark_perform, hmem,
    (standsIn_of_course endMark_perform "éa").2 [] steps _ hmem⟩

end Pattern

end TextPattern
