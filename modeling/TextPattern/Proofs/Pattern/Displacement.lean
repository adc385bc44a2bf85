import TextPattern.Proofs.Pattern.Conduct

/-!
What lies behind a cursor does not matter. A cursor is displaced by putting more
text in front of its own, so that it stands further back in a longer text with
the same text ahead. Every operation of a cursor keeps step with that, and so
does every way for a repetition to end: it compares positions with each other
only. Main statement: a match from a displaced cursor is the displaced match
(`matchCursor_precededBy`), and so a pattern of the library's own parts reads
the same wherever the same text lies ahead (`matchCursor_displaced`).
-/

namespace TextPattern

namespace Cursor

/-- The same place, in a text with more in front. -/
def precededBy (front : List Char) (c : Cursor) : Cursor where
  passed := c.passed ++ front.reverse
  ahead := c.ahead
  success := c.success

variable (front : List Char) (c : Cursor)

@[simp] theorem passed_precededBy :
    (c.precededBy front).passed = c.passed ++ front.reverse := rfl

@[simp] theorem ahead_precededBy : (c.precededBy front).ahead = c.ahead := rfl

@[simp] theorem success_precededBy :
    (c.precededBy front).success = c.success := rfl

@[simp] theorem chars_precededBy :
    (c.precededBy front).chars = front ++ c.chars := by
  simp [chars, precededBy]

@[simp] theorem position_precededBy :
    (c.precededBy front).position = utf8Length front + c.position := by
  rw [position_eq, position_eq c]
  simp [precededBy, Nat.add_comm]

theorem advance_precededBy :
    (c.precededBy front).advance = c.advance.precededBy front := by
  cases hahead : c.ahead with
  | nil =>
      rw [advance_of_ahead_nil (c := c.precededBy front) hahead,
        advance_of_ahead_nil hahead]
      rfl
  | cons ch rest =>
      apply eq_of_sides
      · rw [passed_advance_cons (c := c.precededBy front) hahead,
          passed_precededBy, passed_precededBy, passed_advance_cons hahead,
          List.cons_append]
      · rw [ahead_advance, ahead_precededBy, ahead_precededBy, ahead_advance]
      · rw [success_advance, success_precededBy, success_advance]

theorem passIf_precededBy (test : Char → Bool) :
    (c.precededBy front).passIf test = (c.passIf test).precededBy front := by
  rw [passIf, passIf, current?, current?, ahead_precededBy]
  split
  · split
    · exact advance_precededBy front c
    · rfl
  · rfl

theorem follow_precededBy (word : List Char) :
    (c.precededBy front).follow word =
      (c.follow word).map (precededBy front) := by
  induction word generalizing c with
  | nil => rfl
  | cons expected rest ih =>
      rw [follow, follow, current?, current?, ahead_precededBy]
      split
      · split
        · rw [advance_precededBy, ih]
        · rfl
      · rfl

theorem passWord_precededBy (word : List Char) :
    (c.precededBy front).passWord word =
      (c.passWord word).precededBy front := by
  rw [passWord, passWord, follow_precededBy]
  cases c.follow word <;> rfl

end Cursor

section Repetition

variable {step : Cursor → Cursor → Prop} {front : List Char} {c d : Cursor}

theorem Climbs.precededBy
    (hstep : ∀ c d, step c d → step (c.precededBy front) (d.precededBy front))
    {moves : Nat} (climb : Climbs step moves c d) :
    Climbs step moves (c.precededBy front) (d.precededBy front) := by
  induction climb with
  | refl c => exact .refl _
  | move hfirst hsuccess hmoves _ ih =>
      refine .move (hstep _ _ hfirst) hsuccess ?_ ih
      intro hstays
      apply hmoves
      simpa using hstays

theorem Repeats.precededBy
    (hstep : ∀ c d, step c d → step (c.precededBy front) (d.precededBy front))
    {bounds : Bounds} (h : Repeats step bounds c d) :
    Repeats step bounds (c.precededBy front) (d.precededBy front) := by
  cases h with
  | full hmost climb => exact .full hmost (climb.precededBy hstep)
  | stalled climb hroom hlast hsuccess hstays =>
      refine .stalled (climb.precededBy hstep) hroom (hstep _ _ hlast)
        hsuccess ?_
      rw [Cursor.position_precededBy, Cursor.position_precededBy, hstays]
  | enough climb hroom hlast hfails henough =>
      exact .enough (climb.precededBy hstep) hroom (hstep _ _ hlast)
        hfails henough
  | short climb hroom hlast hfails hshort =>
      exact .short (climb.precededBy hstep) hroom (hstep _ _ hlast)
        hfails hshort

end Repetition

namespace Pattern

variable {κ : Type} [Matcher κ] {p : Pattern κ} {front : List Char}
  {c d result : Cursor}

/-- If the leaves keep step with a displacement, every composition of them
does. -/
theorem Returns.precededBy
    (hleaf : ∀ (value : κ) (c : Cursor),
      Matcher.run value (c.precededBy front) =
        (Matcher.run value c).precededBy front)
    (h : p.Returns c result) :
    p.Returns (c.precededBy front) (result.precededBy front) := by
  induction p generalizing c result with
  | single cls =>
      rw [returns_single_iff] at h ⊢
      rw [← h, Cursor.passIf_precededBy]
  | literal word =>
      rw [returns_literal_iff] at h ⊢
      rw [← h, Cursor.passWord_precededBy]
  | leaf value =>
      rw [returns_leaf_iff] at h ⊢
      rw [← h, hleaf]
  | sequence first second ihFirst ihSecond =>
      rw [returns_sequence_iff] at h ⊢
      obtain ⟨middle, hfirst, hrest⟩ := h
      refine ⟨middle.precededBy front, ihFirst hfirst, ?_⟩
      rcases hrest with ⟨hfails, rfl⟩ | ⟨hsuccess, last, hsecond, rfl⟩
      · exact .inl ⟨hfails, rfl⟩
      · refine .inr ⟨hsuccess, last.precededBy front, ihSecond hsecond, ?_⟩
        rw [Cursor.success_precededBy]
        split <;> rfl
  | choice first second ihFirst ihSecond =>
      rw [returns_choice_iff] at h ⊢
      rcases h with ⟨hfirst, hsuccess⟩ | ⟨failed, hfirst, hfailed, hsecond⟩
      · exact .inl ⟨ihFirst hfirst, hsuccess⟩
      · exact .inr ⟨failed.precededBy front, ihFirst hfirst, hfailed,
          ihSecond hsecond⟩
  | repeated inner bounds ih =>
      rw [returns_repeated_iff] at h ⊢
      apply h.precededBy
      intro d last hreturns
      exact ih hreturns

theorem matchCursor_precededBy (p : Pattern Empty) (front : List Char)
    (c : Cursor) :
    p.matchCursor (c.precededBy front) = (p.matchCursor c).precededBy front :=
  returns_iff.1 ((p.returns_matchCursor c).precededBy nofun)

/-- A cursor of a text and one that stands as much further back in that text
with more in front give the same verdict, at places that lie as far apart. The
flags of the two do not matter. -/
theorem matchCursor_displaced (p : Pattern Empty) {front : String}
    (hsource : d.source = front ++ c.source)
    (hposition : d.position = front.utf8ByteSize + c.position) :
    (p.matchCursor d).success = (p.matchCursor c).success ∧
      (p.matchCursor d).position =
        front.utf8ByteSize + (p.matchCursor c).position := by
  have hchars : d.chars = front.toList ++ c.chars := by
    have h := congrArg String.toList hsource
    simpa [Cursor.source] using h
  have hplace : d.succeed = (c.precededBy front.toList).succeed := by
    apply Cursor.eq_iff.2
    refine ⟨?_, ?_, rfl⟩
    · simpa using hchars
    · simpa [utf8Length_toList] using hposition
  have hmatch :
      p.matchCursor d = (p.matchCursor c).precededBy front.toList := by
    rw [← p.matchCursor_succeed d, hplace, p.matchCursor_succeed,
      p.matchCursor_precededBy]
  rw [hmatch, Cursor.position_precededBy, utf8Length_toList]
  exact ⟨rfl, rfl⟩

/-- Behind seven bytes more, a repetition that owes five reads two accented
letters and stalls, at a place that lies seven bytes further. -/
theorem matchCursor_displaced_accented :
    let c := Cursor.between ['b'] ['é', 'é', 'x'] false
    let d := Cursor.between ['ñ', '中', 'ß', 'b'] ['é', 'é', 'x'] true
    let p : Pattern Empty := (char 'é').optional.repeated (.atLeast 5)
    d.source = "ñ中ß" ++ c.source ∧
      d.position = "ñ中ß".utf8ByteSize + c.position ∧
      (p.matchCursor d).success = (p.matchCursor c).success ∧
      (p.matchCursor d).position =
        "ñ中ß".utf8ByteSize + (p.matchCursor c).position :=
  ⟨by decide +kernel, by decide +kernel,
    matchCursor_displaced _ (by decide +kernel) (by decide +kernel)⟩

end Pattern

end TextPattern
