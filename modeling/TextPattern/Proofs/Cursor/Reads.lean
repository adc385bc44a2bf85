import TextPattern.Pattern.Run

/-!
The word between two cursors. `Reads` says which word lies between two places of
one text; it is how the statements about languages speak of what a match has
read. Main statements: words that are read one after another are read together
(`Reads.trans`), and a literal is read just where it is the next word
(`success_passWord_iff`, `reads_passWord`).
-/

namespace TextPattern

namespace Cursor

variable {c d e : Cursor} {word word' : List Char}

/-- The second cursor stands in the text of the first, behind a word that the
first has ahead. -/
def Reads (c : Cursor) (word : List Char) (d : Cursor) : Prop :=
  c.ahead = word ++ d.ahead ∧ d.passed = word.reverse ++ c.passed

theorem Reads.ahead_eq (h : c.Reads word d) : c.ahead = word ++ d.ahead := h.1

theorem Reads.chars_eq (h : c.Reads word d) : d.chars = c.chars := by
  simp [chars, h.1, h.2]

theorem Reads.position_eq (h : c.Reads word d) :
    d.position = c.position + utf8Length word := by
  rw [d.position_eq, c.position_eq, h.2, utf8Length_append, utf8Length_reverse,
    Nat.add_comm]

theorem reads_refl (c : Cursor) : c.Reads [] c := ⟨rfl, rfl⟩

theorem Reads.trans (h : c.Reads word d) (h' : d.Reads word' e) :
    c.Reads (word ++ word') e := by
  constructor
  · rw [h.1, h'.1, List.append_assoc]
  · rw [h'.2, h.2, List.reverse_append, List.append_assoc]

theorem Reads.succeed (h : c.Reads word d) : c.Reads word d.succeed := h

/-- Two cursors determine the word between them. -/
theorem Reads.unique (h : c.Reads word d) (h' : c.Reads word' d) :
    word = word' :=
  List.append_cancel_right (h.1.symm.trans h'.1)

/-- Nothing was read if the place is the same. -/
theorem Reads.eq_nil (h : c.Reads word d) (hstays : d.position = c.position) :
    word = [] := by
  have hposition := h.position_eq
  rw [← utf8Length_eq_zero_iff]
  omega

theorem Reads.prefix_ahead (h : c.Reads word d) : word <+: c.ahead :=
  ⟨d.ahead, h.1.symm⟩

/-- What is read from the front of a text is the matched part. -/
theorem Reads.matched_eq {text : String} (h : (start text).Reads word d) :
    d.matched = String.ofList word := by
  rw [matched, h.2, passed_start, List.append_nil, List.reverse_reverse]

theorem reads_advance {ch : Char} {rest : List Char}
    (h : c.ahead = ch :: rest) : c.Reads [ch] c.advance := by
  constructor
  · rw [ahead_advance, h]
    rfl
  · rw [passed_advance_cons h]
    rfl

/-- A test that succeeds has read one character that it accepts. -/
theorem exists_reads_passIf {test : Char → Bool}
    (hsuccess : (c.passIf test).success = true) :
    ∃ ch, test ch = true ∧ c.Reads [ch] (c.passIf test) := by
  cases hahead : c.ahead with
  | nil => simp [passIf_of_ahead_nil hahead] at hsuccess
  | cons ch rest =>
      rw [passIf_of_ahead_cons hahead] at hsuccess ⊢
      by_cases haccepts : test ch = true
      · rw [if_pos haccepts]
        exact ⟨ch, haccepts, reads_advance hahead⟩
      · simp [haccepts] at hsuccess

theorem reads_passIf {test : Char → Bool} {ch : Char} {rest : List Char}
    (hahead : c.ahead = ch :: rest) (haccepts : test ch = true) :
    (c.passIf test).success = true ∧ c.Reads [ch] (c.passIf test) := by
  rw [passIf_of_ahead_cons hahead, if_pos haccepts]
  exact ⟨c.success_advance, reads_advance hahead⟩

theorem Reads.of_follow (h : c.follow word = some d) : c.Reads word d := by
  induction word generalizing c with
  | nil =>
      obtain rfl := Option.some.inj h
      exact reads_refl c
  | cons expected rest ih =>
      cases hahead : c.ahead with
      | nil => simp [follow, current?, hahead] at h
      | cons ch tail =>
          by_cases hch : expected = ch
          · subst hch
            have hrest : c.advance.follow rest = some d := by
              simpa [follow, current?, hahead] using h
            exact (reads_advance hahead).trans (ih hrest)
          · simp [follow, current?, hahead, hch] at h

theorem follow_isSome_iff :
    (c.follow word).isSome = true ↔ word <+: c.ahead := by
  induction word generalizing c with
  | nil => simp [follow]
  | cons expected rest ih =>
      cases hahead : c.ahead with
      | nil => simp [follow, current?, hahead]
      | cons ch tail =>
          have hadvance : c.advance.ahead = tail := by
            rw [ahead_advance, hahead]; rfl
          by_cases hch : expected = ch
          · simp [follow, current?, hahead, hch, ih, hadvance]
          · simp [follow, current?, hahead, hch]

theorem success_passWord_iff :
    (c.passWord word).success = true ↔ word <+: c.ahead := by
  rw [← follow_isSome_iff, passWord]
  cases c.follow word <;> simp

theorem reads_passWord (hsuccess : (c.passWord word).success = true) :
    c.Reads word (c.passWord word) := by
  rw [passWord] at hsuccess ⊢
  cases hfollow : c.follow word with
  | none => simp [hfollow] at hsuccess
  | some result => exact (Reads.of_follow hfollow).succeed

end Cursor

end TextPattern
