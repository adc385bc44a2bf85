import TextPattern.Proofs.Pattern.Conduct
import TextPattern.Proofs.Repetition.Plain

/-!
The early exit of a repetition, for leaves that may look at the flag. A
repetition ends at the first match that stays in place, on the ground that all
further ones would stay as well. Main statement: under an upper bound that is
exact, from every cursor marked successful, for all leaves that stay on the text
(`returns_repeated_iff_plainGreedy`). From a cursor marked failed the second
match does not start where the first one did, since its cursor is marked
successful; there the early exit can end a repetition that plain greedy
repetition would have gone on with (`returns_repeated_not_plainGreedy`).
-/

namespace TextPattern

namespace Pattern

section Exact

variable {κ : Type} [Matcher κ] {inner : Pattern κ} {bounds : Bounds}
  {c result : Cursor}

/-- A match in place returns the incoming cursor, marked successful. -/
theorem Returns.eq_succeed
    (hleaf : ∀ (value : κ) (c : Cursor),
      (Matcher.run value c).source = c.source)
    (h : inner.Returns c result) (hsuccess : result.success = true)
    (hstays : result.position = c.position) : result = c.succeed := by
  have hchars : result.chars = c.chars :=
    h.chars_eq fun value c => String.ofList_inj.1 (hleaf value c)
  exact Cursor.eq_iff.2 ⟨hchars, hstays, hsuccess⟩

theorem returns_repeated_of_stays (hroom : bounds.HasRoom 0)
    (hstays : inner.Returns c c.succeed) :
    (repeated inner bounds).Returns c c.succeed :=
  returns_repeated_iff.2
    (.stalled (.refl c) hroom hstays c.success_succeed c.position_succeed)

/-- Under an upper bound a repetition returns what plain greedy repetition
returns, from every cursor that is marked successful, and from every other where
a match in place is one that repeats itself. A first match in place ends the
repetition in any case. -/
theorem returns_repeated_iff_plainGreedy
    (hleaf : ∀ (value : κ) (c : Cursor),
      (Matcher.run value c).source = c.source)
    {limit : UInt32} (hmost : bounds.most = some limit) :
    (c.success = true ∨
      (inner.Returns c c.succeed → inner.Returns c.succeed c.succeed) →
      ∀ result, (repeated inner bounds).Returns c result ↔
        PlainGreedy inner.Returns bounds c 0 c result) ∧
    (bounds.HasRoom 0 → inner.Returns c c.succeed →
      (repeated inner bounds).Returns c c.succeed) := by
  refine ⟨?_, returns_repeated_of_stays⟩
  intro hstart result
  have hfirst :
      inner.Returns c c.succeed → inner.Returns c.succeed c.succeed := by
    rcases hstart with hsuccess | hrepeats
    · rw [Cursor.succeed_eq_self hsuccess]
      exact id
    · exact hrepeats
  rw [returns_repeated_iff]
  exact repeats_iff_plainGreedy (fun _ _ => Returns.eq_succeed hleaf) hfirst
    (fun _ _ _ => Returns.unique) hmost

end Exact

/-- A leaf that returns its cursor as it is, so that it fails just where its
cursor is marked failed. -/
inductive AsIs where
  | asIs

instance : Matcher AsIs where
  run _ c := c
  written _ _ := "as is".toList

/-- A letter where the cursor is marked successful, and nothing otherwise. -/
def letterAfterSuccess : Pattern AsIs :=
  ((leaf .asIs).sequence (char 'a')).choice empty

/-- Three repetitions are owed, two read a letter, and the third stays in
place. -/
theorem returns_repeated_iff_plainGreedy_owed :
    let c := Cursor.between ['é'] ['a', 'a', 'b'] true
    let result := Cursor.between ['é', 'a', 'a'] ['b'] true
    (∀ (value : AsIs) (c : Cursor), (Matcher.run value c).source = c.source) ∧
      (Bounds.exactly 3).most = some 3 ∧ c.success = true ∧
      (repeated letterAfterSuccess (.exactly 3)).Returns c result ∧
      PlainGreedy letterAfterSuccess.Returns (.exactly 3) c 0 c result := by
  have hreturns : (repeated letterAfterSuccess (.exactly 3)).Returns
      (.between ['é'] ['a', 'a', 'b'] true)
      (.between ['é', 'a', 'a'] ['b'] true) :=
    ⟨3, by decide +kernel⟩
  exact ⟨fun _ _ => rfl, rfl, rfl, hreturns,
    ((returns_repeated_iff_plainGreedy (fun _ _ => rfl) rfl).1 (.inl rfl) _).1
      hreturns⟩

/-- From a cursor marked failed, the early exit leaves a letter that plain
greedy repetition reads, although the leaf stays on the text and never fails
anywhere but in place. -/
theorem returns_repeated_not_plainGreedy :
    let c := Cursor.between [] ['a'] false
    (∀ (value : AsIs) (c : Cursor), (Matcher.run value c).source = c.source ∧
      ((Matcher.run value c).success = false → Matcher.run value c = c.fail)) ∧
      (repeated letterAfterSuccess (.atMost 2)).Returns c
        (.between [] ['a'] true) ∧
      PlainGreedy letterAfterSuccess.Returns (.atMost 2) c 0 c
        (.between ['a'] [] true) ∧
      ¬ PlainGreedy letterAfterSuccess.Returns (.atMost 2) c 0 c
        (.between [] ['a'] true) := by
  have hwaits : letterAfterSuccess.Returns (.between [] ['a'] false)
      (.between [] ['a'] true) :=
    ⟨0, by decide +kernel⟩
  have hreads : letterAfterSuccess.Returns (.between [] ['a'] true)
      (.between ['a'] [] true) :=
    ⟨0, by decide +kernel⟩
  have hroom {made : Nat} (hlt : made < 2) :
      (Bounds.atMost 2).HasRoom made := by
    intro limit hmost
    obtain rfl := Option.some.inj hmost
    exact hlt
  have hfull : ¬ (Bounds.atMost 2).HasRoom 2 :=
    Bounds.not_hasRoom_iff.2 ⟨2, rfl, Nat.le_refl 2⟩
  have hplain :
      PlainGreedy letterAfterSuccess.Returns (.atMost 2)
        (.between [] ['a'] false) 0 (.between [] ['a'] false)
        (.between ['a'] [] true) :=
    .again (hroom Nat.zero_lt_two) hwaits rfl
      (.again (hroom Nat.one_lt_two) hreads rfl (.full hfull))
  refine ⟨fun _ c => ⟨rfl, fun hfails => (c.fail_eq_self hfails).symm⟩,
    ⟨2, by decide +kernel⟩, hplain, ?_⟩
  intro hwaiting
  have hresult := hplain.unique (fun _ _ _ h h' => h.unique h') hwaiting
  exact absurd hresult (by decide +kernel)

end Pattern

end TextPattern
