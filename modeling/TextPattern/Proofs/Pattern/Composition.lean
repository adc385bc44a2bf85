import TextPattern.Proofs.Pattern.Displacement
import TextPattern.Proofs.Pattern.Nullable

/-!
Full matches of a sequence. The second part is run in the middle of the text,
where the first one stopped; since nothing depends on what lies behind a cursor,
it may as well be run on the rest as a text of its own
(`matchCursor_eq_precededBy`). Main statement: a sequence matches a whole text
just if its first part succeeds on the text and its second one matches all of
the rest, and so full matches can be put together wherever the first part stops
between them (`fullVerdict?_sequence`).
-/

namespace TextPattern

namespace Cursor

theorem isFullMatch_precededBy (front : List Char) (c : Cursor) :
    (c.precededBy front).isFullMatch = c.isFullMatch := rfl

/-- A cursor in a text stands at the front of the rest of it, behind what was
passed. -/
theorem succeed_eq_precededBy (c : Cursor) :
    c.succeed = (start c.remaining).precededBy c.passed.reverse :=
  eq_of_sides (by simp) (by simp [remaining]) rfl

/-- What remains behind the first of two texts is the second. -/
theorem remaining_eq_of_position {front back : String} {c : Cursor}
    (hchars : c.chars = (front ++ back).toList)
    (hposition : c.position = front.utf8ByteSize) : c.remaining = back := by
  rw [chars, String.toList_append] at hchars
  have hlength : utf8Length c.passed.reverse = utf8Length front.toList := by
    rw [utf8Length_reverse, ← c.position_eq, hposition, utf8Length_toList]
  rw [remaining, (eq_of_append_eq_of_utf8Length_eq hchars hlength).2,
    String.ofList_toList]

end Cursor

namespace Pattern

/-- The verdict of a match of a whole text; `none` if the match does not end. -/
def fullVerdict? {κ : Type} [Matcher κ] (p : Pattern κ) (text : String) :
    Option Bool :=
  (p.fullMatchTextLogged text).value.map Cursor.isFullMatch

theorem fullVerdict?_eq_some {κ : Type} [Matcher κ] [ForwardMatcher κ]
    (p : Pattern κ) (text : String) :
    p.fullVerdict? text = some (p.matchCursor (.start text)).isFullMatch := by
  rw [fullVerdict?, value_fullMatchTextLogged, matchText_eq_some,
    Option.map_some]

/-- A match in the middle of a text is one of the rest as a text of its own. -/
theorem matchCursor_eq_precededBy (p : Pattern Empty) (c : Cursor) :
    p.matchCursor c =
      (p.matchCursor (.start c.remaining)).precededBy c.passed.reverse := by
  rw [← p.matchCursor_succeed, c.succeed_eq_precededBy,
    p.matchCursor_precededBy]

theorem isFullMatch_matchCursor_sequence (first second : Pattern Empty)
    (c : Cursor) :
    ((sequence first second).matchCursor c).isFullMatch =
      ((first.matchCursor c).success &&
        (second.matchCursor
          (.start (first.matchCursor c).remaining)).isFullMatch) := by
  have hrest : (second.matchCursor (first.matchCursor c)).isFullMatch =
      (second.matchCursor
        (.start (first.matchCursor c).remaining)).isFullMatch := by
    rw [second.matchCursor_eq_precededBy, Cursor.isFullMatch_precededBy]
  rw [← hrest, matchCursor_sequence]
  split
  · next hfirst =>
      rw [hfirst, Bool.true_and]
      split
      · rfl
      · next hfails => simp [Cursor.isFullMatch, hfails]
  · next hfails => simp [Cursor.isFullMatch, hfails]

/-- Only a nullable pattern succeeds where nothing lies ahead. -/
theorem nullable_of_success_of_ahead_nil {p : Pattern Empty} {c : Cursor}
    (hahead : c.ahead = []) (hsuccess : (p.matchCursor c).success = true) :
    p.nullable = true := by
  obtain ⟨word, hword, hreads⟩ :=
    exists_mem_language_reads (p.returns_matchCursor c) hsuccess
  obtain rfl : word = [] := by simpa [hahead] using hreads.prefix_ahead
  exact nullable_iff.2 hword

/-- A match that stops where a full match of the same pattern ended is no
failure, even where that is the front of the text. -/
theorem success_of_position_eq {p : Pattern Empty} {front back : String}
    (hfront : (p.matchCursor (.start front)).isFullMatch = true)
    (hposition : (p.matchCursor (.start (front ++ back))).position =
      front.utf8ByteSize) :
    (p.matchCursor (.start (front ++ back))).success = true := by
  cases hsuccess : (p.matchCursor (.start (front ++ back))).success with
  | true => rfl
  | false =>
      rw [(p.conducted_matchCursor _).eq_fail hsuccess, Cursor.position_fail,
        Cursor.position_start, ← utf8Length_toList, eq_comm,
        utf8Length_eq_zero_iff] at hposition
      have hnullable : p.nullable = true :=
        nullable_of_success_of_ahead_nil hposition
          (Bool.and_eq_true_iff.1 hfront).1
      have hsucceeds :=
        (p.returns_matchCursor (.start (front ++ back))).success_of_nullable
          hnullable
      rw [hsuccess] at hsucceeds
      contradiction

/-- A sequence matches a whole text just if its first part succeeds on it and
its second one matches all of the rest. So if two parts match a text each, and
the first one stops on the two together where the first text ends, the sequence
matches the two together. -/
theorem fullVerdict?_sequence (first second : Pattern Empty) :
    (∀ text, ∃ result, first.matchText text = some result ∧
      ∃ verdict, second.fullVerdict? result.remaining = some verdict ∧
        (sequence first second).fullVerdict? text =
          some (result.success && verdict)) ∧
    ∀ front back result, first.fullVerdict? front = some true →
      second.fullVerdict? back = some true →
      first.matchText (front ++ back) = some result →
      result.position = front.utf8ByteSize →
      (sequence first second).fullVerdict? (front ++ back) = some true := by
  have hsequence (text : String) : (sequence first second).fullVerdict? text =
      some ((first.matchCursor (.start text)).success &&
        (second.matchCursor (.start
          (first.matchCursor (.start text)).remaining)).isFullMatch) := by
    rw [fullVerdict?_eq_some, isFullMatch_matchCursor_sequence]
  constructor
  · intro text
    exact ⟨_, first.matchText_eq_some text, _, second.fullVerdict?_eq_some _,
      hsequence text⟩
  · intro front back result hfront hback hresult hposition
    rw [fullVerdict?_eq_some, Option.some.injEq] at hfront hback
    rw [matchText_eq_some, Option.some.injEq] at hresult
    subst hresult
    have hchars : (first.matchCursor (.start (front ++ back))).chars =
        (front ++ back).toList := by
      rw [(first.conducted_matchCursor _).chars_eq, Cursor.chars_start]
    rw [hsequence, success_of_position_eq hfront hposition,
      Cursor.remaining_eq_of_position hchars hposition, hback, Bool.true_and]

/-- Two accented letters for the first part, which gives up at a letter without
an accent. -/
theorem fullVerdict?_sequence_accented :
    let accented : Pattern Empty := (char 'é').repeated (.atLeast 1)
    let plain : Pattern Empty := word "ab"
    accented.fullVerdict? "éé" = some true ∧
      plain.fullVerdict? "ab" = some true ∧
      accented.matchText ("éé" ++ "ab") =
        some (.between ['é', 'é'] ['a', 'b'] true) ∧
      (Cursor.between ['é', 'é'] ['a', 'b'] true).position = "éé".utf8ByteSize ∧
      (sequence accented plain).fullVerdict? ("éé" ++ "ab") = some true := by
  intro accented plain
  have haccented : accented.fullVerdict? "éé" = some true := by decide +kernel
  have hplain : plain.fullVerdict? "ab" = some true := by decide +kernel
  have hresult : accented.matchText ("éé" ++ "ab") =
      some (.between ['é', 'é'] ['a', 'b'] true) := by decide +kernel
  have hposition : (Cursor.between ['é', 'é'] ['a', 'b'] true).position =
      "éé".utf8ByteSize := by
    decide +kernel
  exact ⟨haccented, hplain, hresult, hposition,
    (fullVerdict?_sequence accented plain).2 _ _ _ haccented hplain hresult
      hposition⟩

end Pattern

end TextPattern
