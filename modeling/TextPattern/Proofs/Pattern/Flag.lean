import TextPattern.Cursor.Action
import TextPattern.Pattern.Run

/-!
The flag of the incoming cursor. A combinator asks for the flags of results, and
a loop for places; so the flag that a run begins with is handed to leaves only,
and no result keeps it. Main statements: a run does the same from two cursors at
one place if the leaves do (`run_eq_of_place_eq`), and from a cursor marked
successful or failed (`matchCursor?_flag_irrelevant`).
-/

namespace TextPattern

namespace Cursor

variable {c d : Cursor}

theorem position_eq_of_succeed_eq (hplace : c.succeed = d.succeed) :
    c.position = d.position :=
  (eq_iff.1 hplace).2.1

theorem fail_eq_of_succeed_eq (hplace : c.succeed = d.succeed) :
    c.fail = d.fail := by
  rw [← fail_succeed c, hplace, fail_succeed]

theorem passIf_succeed (test : Char → Bool) (c : Cursor) :
    c.succeed.passIf test = c.passIf test :=
  rfl

theorem passWord_succeed (word : List Char) (c : Cursor) :
    c.succeed.passWord word = c.passWord word := by
  cases word <;> rfl

end Cursor

section Repetition

variable {step : Cursor → Option Cursor} {bounds : Bounds} {c d : Cursor}
  (hplace : c.succeed = d.succeed) (hstep : step c = step d)

include hplace hstep

/-- Two loops that begin at one place go on from the same cursor, or both stop
where they began. -/
theorem iterate_eq_or_of_place_eq (calls : Nat) (count : UInt32) :
    iterate step bounds calls count c = iterate step bounds calls count d ∨
      ∃ credited, iterate step bounds calls count c = some ⟨credited, c⟩ ∧
        iterate step bounds calls count d = some ⟨credited, d⟩ := by
  have hposition := Cursor.position_eq_of_succeed_eq hplace
  cases hallows : bounds.allowsAnother count with
  | false =>
      refine .inr ⟨count, ?_, ?_⟩
      · cases calls <;> simp [iterate, hallows]
      · cases calls <;> simp [iterate, hallows]
  | true =>
      cases calls with
      | zero => exact .inl (by simp [iterate, hallows])
      | succ calls =>
          simp only [iterate, hallows, hstep, hposition, if_true]
          cases step d with
          | none => exact .inl rfl
          | some next =>
              by_cases hsuccess : next.success = true
              · by_cases hstays : next.position = d.position
                · refine .inr ⟨max (countUp count) bounds.least, ?_, ?_⟩
                  · simp [hsuccess, hstays]
                  · simp [hsuccess, hstays]
                · exact .inl (by simp [hsuccess, hstays])
              · exact .inr ⟨count, by simp [hsuccess], by simp [hsuccess]⟩

theorem greedy_eq_of_place_eq (limit : Nat) :
    greedy step bounds limit c = greedy step bounds limit d := by
  rw [greedy, greedy, Cursor.fail_eq_of_succeed_eq hplace]
  rcases iterate_eq_or_of_place_eq hplace hstep (bounds.calls limit) 0 with
    heq | ⟨credited, hc, hd⟩
  · rw [heq]
  · rw [hc, hd, Option.map_some, Option.map_some, hplace]

end Repetition

namespace Pattern

variable {κ : Type} [Matcher κ] {c d : Cursor}

/-- From two cursors at one place a tree does the same if its leaves do. -/
theorem run_eq_of_place_eq (hplace : c.succeed = d.succeed)
    (hleaf : ∀ value : κ, Matcher.run value c = Matcher.run value d)
    (p : Pattern κ) (limit : Nat) : p.run limit c = p.run limit d := by
  -- Only the first part of a sequence is run from here, so the cursors need not
  -- be generalized.
  induction p with
  | single cls => rw [run, run, ← c.passIf_succeed, hplace, d.passIf_succeed]
  | literal word =>
      rw [run, run, ← c.passWord_succeed, hplace, d.passWord_succeed]
  | leaf value => rw [run, run, hleaf value]
  | sequence first second ihFirst _ =>
      rw [run, run, ihFirst, Cursor.fail_eq_of_succeed_eq hplace]
  | choice first second ihFirst ihSecond => rw [run, run, ihFirst, ihSecond]
  | repeated inner bounds ih => exact greedy_eq_of_place_eq hplace ih limit

/-- A pattern of the library's own parts does not look at the flag. -/
theorem matchCursor_succeed (p : Pattern Empty) (c : Cursor) :
    p.matchCursor c.succeed = p.matchCursor c := by
  have hrun :=
    p.run_eq_of_place_eq c.succeed_succeed nofun (utf8Length c.ahead + 1)
  rw [run_eq_some_matchCursor p (Nat.lt_succ_self _)] at hrun
  exact returns_iff.1 ⟨_, hrun⟩

/-- Where no leaf looks at the flag of a cursor, no tree of such leaves does:
marked successful or failed, the match ends or does not, and the result is the
same cursor. -/
theorem matchCursor?_flag_irrelevant (p : Pattern κ) (c : Cursor)
    (hleaf : ∀ value : κ,
      Matcher.run value c.succeed = Matcher.run value c.fail) :
    p.matchCursor? c.succeed = p.matchCursor? c.fail ∧
      ∀ result, p.Returns c.succeed result ↔ p.Returns c.fail result := by
  have hrun :=
    run_eq_of_place_eq (c.succeed_succeed.trans c.succeed_fail.symm) hleaf p
  refine ⟨hrun _, fun result => ?_⟩
  rw [Returns, Returns]
  simp only [hrun]

/-- Leaves that perform one operation of a cursor. -/
instance : Matcher CursorAction where
  run := CursorAction.apply
  written _ _ := "action".toList

/-- A leaf goes back to the front of the text, after repetitions that read
nothing and an empty word have handed the cursor on, and as the second
alternative to a leaf that fails. -/
theorem matchCursor?_flag_irrelevant_restart :
    let idle : List (Pattern CursorAction) :=
      [repeated (leaf .advance) (.exactly 0), (char 'x').repeated .any, empty,
        leaf .restart]
    let p := (leaf CursorAction.fail).choice (sequenceOf idle)
    let c := Cursor.between ['a'] ['é', 'b'] true
    let result := Cursor.between [] ['a', 'é', 'b'] true
    (∀ action : CursorAction,
      Matcher.run action c.succeed = Matcher.run action c.fail) ∧
      p.matchCursor? c.succeed = some result ∧
      p.matchCursor? c.succeed = p.matchCursor? c.fail ∧
      (p.Returns c.succeed result ↔ p.Returns c.fail result) := by
  intro idle p c result
  have hleaf (action : CursorAction) :
      Matcher.run action c.succeed = Matcher.run action c.fail := by
    cases action <;> rfl
  obtain ⟨hmatch, hreturns⟩ := matchCursor?_flag_irrelevant p c hleaf
  exact ⟨hleaf, by decide +kernel, hmatch, hreturns result⟩

end Pattern

end TextPattern
