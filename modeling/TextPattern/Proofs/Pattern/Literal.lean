import TextPattern.Proofs.Cursor.Reads
import TextPattern.Proofs.Pattern.Folds

/-!
Fixed words. A literal passes its characters in one loop and goes back once if
one of them is not there; the sequence of the same characters is a tree in which
each node goes back by itself. Main statement: the two match alike, and they
succeed just where the text that remains starts with the word
(`matchCursor_word_eq_iff`).
-/

namespace TextPattern

namespace Cursor

/-- Passing a word is passing its first part and then, from there, the rest of
it. -/
theorem follow_append (front back : List Char) (c : Cursor) :
    c.follow (front ++ back) = (c.follow front).bind (·.follow back) := by
  induction front generalizing c with
  | nil => rfl
  | cons expected rest ih =>
      rw [List.cons_append, follow, follow]
      cases c.current? with
      | none => rfl
      | some ch =>
          dsimp only
          split
          · exact ih c.advance
          · rfl

/-- A word is passed just if the text that remains starts with it. -/
theorem success_passWord_iff_startsWith {text : String} {c : Cursor} :
    (c.passWord text.toList).success = true ↔
      c.remaining.startsWith text = true := by
  rw [success_passWord_iff, String.startsWith_string_iff, remaining,
    String.toList_ofList]

end Cursor

namespace Pattern

theorem matchCursor_literal_append (front back : List Char) :
    (literal (front ++ back) : Pattern Empty).matchCursor =
      (sequence (literal front) (literal back) :
        Pattern Empty).matchCursor := by
  funext c
  rw [matchCursor_sequence]
  simp only [matchCursor_literal]
  cases hfront : c.follow front with
  | none => simp [Cursor.passWord, Cursor.follow_append, hfront]
  | some middle =>
      have hmiddle : c.passWord front = middle.succeed := by
        rw [Cursor.passWord, hfront]
      rw [hmiddle, Cursor.passWord_succeed, if_pos middle.success_succeed]
      cases hback : middle.follow back with
      | none => simp [Cursor.passWord, Cursor.follow_append, hfront, hback]
      | some last => simp [Cursor.passWord, Cursor.follow_append, hfront, hback]

theorem matchCursor_literal_singleton (ch : Char) :
    (literal [ch] : Pattern Empty).matchCursor =
      (char ch : Pattern Empty).matchCursor := by
  funext c
  rw [matchCursor_literal, char, matchCursor_single]
  cases hahead : c.ahead with
  | nil =>
      simp [Cursor.passWord, Cursor.follow, Cursor.current?,
        Cursor.passIf, hahead]
  | cons next rest =>
      by_cases hnext : ch = next
      · have hadvance : c.advance.succeed = c.advance :=
          Cursor.succeed_eq_self c.success_advance
        simp [Cursor.passWord, Cursor.follow, Cursor.current?, Cursor.passIf,
          hahead, hnext, hadvance]
      · simp [Cursor.passWord, Cursor.follow, Cursor.current?, Cursor.passIf,
          hahead, hnext]

/-- The characters of a word one after another match like the word. -/
theorem matchCursor_sequenceOf_chars (chars : List Char) :
    (sequenceOf (chars.map char) : Pattern Empty).matchCursor =
      (literal chars : Pattern Empty).matchCursor := by
  induction chars with
  | nil => rfl
  | cons ch rest ih =>
      calc (sequenceOf (char ch :: rest.map char) : Pattern Empty).matchCursor
          = (sequence (char ch) (sequenceOf (rest.map char)) :
            Pattern Empty).matchCursor :=
            Fold.inSequence.matchCursor_foldl_join (char ch) (rest.map char)
        _ = (sequence (literal [ch]) (literal rest) :
            Pattern Empty).matchCursor :=
            Fold.inSequence.matchCursor_join_congr
              (matchCursor_literal_singleton ch).symm ih
        _ = (literal (ch :: rest) : Pattern Empty).matchCursor :=
            (matchCursor_literal_append [ch] rest).symm

/-- A word matches where the text that remains starts with it, and then ends as
many bytes further on as it has; anywhere else it fails where it began. The
sequence of its characters does the same. -/
theorem matchCursor_word_eq_iff (text : String) (c result : Cursor) :
    ((word text : Pattern Empty).matchCursor c = result ↔
      if c.remaining.startsWith text then
        result.source = c.source ∧
          result.position = c.position + text.utf8ByteSize ∧
          result.success = true
      else result = c.fail) ∧
    (sequenceOf (text.toList.map char) : Pattern Empty).matchCursor c =
      (word text : Pattern Empty).matchCursor c := by
  refine ⟨?_, congrFun (matchCursor_sequenceOf_chars text.toList) c⟩
  rw [word, matchCursor_literal]
  split
  · next hstarts =>
      have hsuccess := Cursor.success_passWord_iff_startsWith.2 hstarts
      have hreads := Cursor.reads_passWord hsuccess
      have hposition : (c.passWord text.toList).position =
          c.position + text.utf8ByteSize := by
        rw [hreads.position_eq, utf8Length_toList]
      constructor
      · rintro rfl
        exact ⟨congrArg String.ofList hreads.chars_eq, hposition, hsuccess⟩
      · rintro ⟨hsource, hresult, hresultSuccess⟩
        have hchars : result.chars = c.chars := String.ofList_inj.1 hsource
        exact Cursor.eq_iff.2 ⟨hreads.chars_eq.trans hchars.symm,
          hposition.trans hresult.symm, hsuccess.trans hresultSuccess.symm⟩
  · next hdiffers =>
      have hfails : (c.passWord text.toList).success = false := by
        rw [Bool.eq_false_iff, ne_eq, Cursor.success_passWord_iff_startsWith]
        exact hdiffers
      rw [(c.conducted_passWord text.toList).eq_fail hfails]
      exact eq_comm

end Pattern

end TextPattern
