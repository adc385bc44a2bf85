import TextPattern.Log.Logged
import TextPattern.Pattern.Render
import TextPattern.Pattern.Run

/-!
Matching whole texts, plainly and with reports. A match that ends is reported
once, and a match of the whole text a second time with its verdict; a pattern is
printed only for a report. Main statement: reporting changes no result
(`value_matchTextLogged`, `value_fullMatchTextLogged`).
-/

namespace TextPattern

namespace Pattern

variable {κ : Type} [Matcher κ]

/-- Matches the pattern at the front of a text; `none` if that does not end.
Whether it covered the whole text is the result's `Cursor.isFullMatch`. -/
def matchText (p : Pattern κ) (text : String) : Option Cursor :=
  p.matchCursor? (Cursor.start text)

def finished (p : Pattern κ) (text : String) (result : Cursor) : Event :=
  .matchFinished p.render text.utf8ByteSize result.position result.success

/-- Matches the pattern at the front of a text and reports the end of the
match. -/
def matchTextLogged (p : Pattern κ) (text : String) : Logged (Option Cursor) :=
  match p.matchText text with
  | none => pure none
  | some result => do
      Logged.record (p.finished text result)
      return some result

/-- Matches the pattern at the front of a text and reports the end of the match,
then whether it covered the whole text. -/
def fullMatchTextLogged (p : Pattern κ) (text : String) :
    Logged (Option Cursor) := do
  match ← p.matchTextLogged text with
  | none => return none
  | some result =>
      Logged.record (.fullMatchFinished result.isFullMatch)
      return some result

@[simp] theorem value_matchTextLogged (p : Pattern κ) (text : String) :
    (p.matchTextLogged text).value = p.matchText text := by
  unfold matchTextLogged
  split <;> simp_all

theorem events_matchTextLogged (p : Pattern κ) (text : String) :
    (p.matchTextLogged text).events =
      ((p.matchText text).map (p.finished text)).toList := by
  unfold matchTextLogged
  split <;> simp_all

@[simp] theorem value_fullMatchTextLogged (p : Pattern κ) (text : String) :
    (p.fullMatchTextLogged text).value = p.matchText text := by
  unfold fullMatchTextLogged
  rw [Logged.value_bind, value_matchTextLogged]
  split <;> simp_all

theorem events_fullMatchTextLogged (p : Pattern κ) (text : String) :
    (p.fullMatchTextLogged text).events =
      match p.matchText text with
      | none => []
      | some result =>
          [p.finished text result, .fullMatchFinished result.isFullMatch] := by
  unfold fullMatchTextLogged
  rw [Logged.events_bind, value_matchTextLogged, events_matchTextLogged]
  cases p.matchText text <;> simp

end Pattern

end TextPattern
