import TextPattern.Cursor.Lemmas
import TextPattern.Pattern.Precedence

/-!
Leaves that users add to patterns: any function from the incoming cursor to the
resulting one. The combinators take a leaf as it is, whatever it does; what a
leaf should do is `Cursor.Conducted`, and what it needs to do for every
repetition of it to end is `Cursor.Forward`.
-/

namespace TextPattern

/-- A kind of leaf, with what its leaves do to a cursor and how they are printed
in surroundings that require a precedence. -/
class Matcher (κ : Type) where
  run : κ → Cursor → Cursor
  written : Precedence → κ → List Char

namespace Cursor

/-- What a leaf should make of a cursor: a result on the same text that either
succeeds no nearer to the front, or is the incoming cursor, marked failed. -/
def Conducted (incoming result : Cursor) : Prop :=
  result.chars = incoming.chars ∧
    if result.success then incoming.position ≤ result.position
      else result = incoming.fail

/-- A success keeps the text and does not move nearer to the front. -/
def Forward (incoming result : Cursor) : Prop :=
  result.success = true → result.chars = incoming.chars ∧
    incoming.position ≤ result.position

theorem Conducted.forward {incoming result : Cursor}
    (h : incoming.Conducted result) : incoming.Forward result := by
  intro hsuccess
  obtain ⟨hchars, hresult⟩ := h
  rw [if_pos hsuccess] at hresult
  exact ⟨hchars, hresult⟩

/-- A forward success leaves no more bytes to read, and fewer if it moved. -/
theorem Forward.utf8Length_ahead {incoming result : Cursor}
    (h : incoming.Forward result) (hsuccess : result.success = true) :
    result.position + utf8Length result.ahead =
      incoming.position + utf8Length incoming.ahead ∧
      incoming.position ≤ result.position := by
  obtain ⟨hchars, hle⟩ := h hsuccess
  rw [position_add_utf8Length_ahead, position_add_utf8Length_ahead, hchars]
  exact ⟨rfl, hle⟩

end Cursor

/-- A kind of leaf whose successes all go forward. -/
class ForwardMatcher (κ : Type) [Matcher κ] : Prop where
  forward (leaf : κ) (c : Cursor) : c.Forward (Matcher.run leaf c)

/-- Patterns built from the library's own parts only have leaves of the empty
kind. -/
instance : Matcher Empty where
  run := nofun
  written := nofun

instance : ForwardMatcher Empty := ⟨nofun⟩

end TextPattern
