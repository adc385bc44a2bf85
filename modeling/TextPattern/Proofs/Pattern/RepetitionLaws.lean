import TextPattern.Proofs.Pattern.Composition
import TextPattern.Proofs.Pattern.Extent
import TextPattern.Proofs.Pattern.Unrolled

/-!
Laws of repetition. A repetition may be cut in two: so many repetitions first,
and then whatever the bounds leave. Each part has its own loop, with its own
place to go back to and its own early exit; both are read off the one chain of
matches that they share. Main statements: a count and what follows it add up
(`matchCursor_repeated_add`); where a single match cannot fail, a lower bound is
met by itself, and so it is under an option or around another repetition
(`matchCursor_repeated_owingNothing`).
-/

namespace TextPattern

/-- The same upper bound, with nothing owed. -/
def Bounds.owingNothing (bounds : Bounds) : Bounds :=
  ⟨0, bounds.most, fun _ _ => UInt32.zero_le⟩

theorem Bounds.owingNothing_eq_any {bounds : Bounds}
    (hmost : bounds.most = none) : bounds.owingNothing = .any := by
  obtain ⟨least, most, hle⟩ := bounds
  subst hmost
  rfl

section Chain

variable {f : Cursor → Cursor} {bounds : Bounds} {c : Cursor}

/-- A step that stays where it has led ends the repetition there, if it may be
made at all. -/
theorem countedGreedy_of_fixed (hsuccess : (f c).success = true)
    (hfixed : f (f c) = f c) (hroom : bounds.HasRoom 0) :
    CountedGreedy f bounds c (f c) := by
  have hlater (n : Nat) : f^[n + 1] c = f c := by
    rw [Function.iterate_succ_apply, Function.iterate_fixed hfixed]
  have hunbroken : CountedGreedy f bounds c (f^[1] c).succeed := by
    refine .unbroken (fun i _ => hlater i ▸ hsuccess) hroom ?_
    intro i hge _
    obtain ⟨n, rfl⟩ := Nat.exists_eq_add_of_le' hge
    rw [hlater n, hlater 0]
  rwa [hlater 0, Cursor.succeed_eq_self hsuccess] at hunbroken

end Chain

namespace Pattern

/-- So many repetitions and then a repetition within bounds are one repetition,
within the bounds raised by so many. -/
theorem matchCursor_repeated_add (p : Pattern Empty) {count : UInt32}
    {rest total : Bounds}
    (hleast : total.least.toNat = count.toNat + rest.least.toNat)
    (hmost : total.most.map UInt32.toNat =
      rest.most.map (count.toNat + ·.toNat))
    (c : Cursor) :
    (sequence (repeated p (.exactly count)) (repeated p rest)).matchCursor c =
      (repeated p total).matchCursor c := by
  have hleaves : total.Leaves count.toNat rest := ⟨by omega, hmost⟩
  rw [matchCursor_sequence]
  rcases unbroken_or_breaksAfter p.matchCursor count.toNat c
    with hunbroken | ⟨made, hmade, hbreaks⟩
  · rw [matchCursor_exactly_of_unbroken hunbroken,
      if_pos (Cursor.success_succeed _), matchCursor_succeed]
    symm
    exact matchCursor_repeated_of_countedGreedy
      ((countedGreedy_repeated p rest _).resume hleaves hunbroken)
  · have hshort : ¬ total.least.toNat ≤ made := by omega
    rw [matchCursor_exactly_of_breaksAfter hbreaks hmade,
      matchCursor_repeated_of_breaksAfter (hleaves.hasRoom_of_lt hmade) hbreaks,
      if_neg hshort]
    rfl

/-- Three optional letters where there are only two: the first part ends early
with its third match in place, and what follows it begins in the same place. -/
theorem matchCursor_repeated_add_stalled :
    let p : Pattern Empty := (char 'é').optional
    let rest : Bounds := ⟨1, some 2, by simp⟩
    let total : Bounds := ⟨4, some 5, by simp⟩
    let c := Cursor.between ['x'] ['é', 'é', 'b'] false
    (total.least.toNat = (3 : UInt32).toNat + rest.least.toNat ∧
      total.most.map UInt32.toNat =
        rest.most.map ((3 : UInt32).toNat + ·.toNat)) ∧
      (sequence (repeated p (.exactly 3)) (repeated p rest)).matchCursor c =
        .between ['x', 'é', 'é'] ['b'] true := by
  intro p rest total c
  have hmost : total.most.map UInt32.toNat =
      rest.most.map ((3 : UInt32).toNat + ·.toNat) := rfl
  have hadd := matchCursor_repeated_add p rfl hmost c
  exact ⟨⟨rfl, hmost⟩, hadd.trans (by decide +kernel)⟩

section Immaterial

variable {p q : Pattern Empty} {bounds : Bounds} {c : Cursor}

/-- A repetition of a nullable pattern always meets its lower bound. -/
theorem matchCursor_repeated_of_nullable (hq : q.nullable = true)
    (bounds : Bounds) (c : Cursor) :
    (repeated q bounds).matchCursor c =
      (repeated q bounds.owingNothing).matchCursor c := by
  have hsucceeds (bounds : Bounds) :
      ((repeated q bounds).matchCursor c).success = true :=
    ((repeated q bounds).returns_matchCursor c).success_of_nullable
      (by simp [nullable, hq])
  exact matchCursor_repeated_eq_of_most_eq rfl (hsucceeds bounds)
    (hsucceeds bounds.owingNothing)

theorem matchCursor_repeated_owingNothing_of_most {limit : UInt32}
    (hmost : bounds.most = some limit) (c : Cursor) :
    (repeated p bounds.owingNothing).matchCursor c =
      (p.unrolled limit.toNat).matchCursor c := by
  have hfree : bounds.owingNothing.most = some limit := hmost
  have howed : Unbroken p.matchCursor 0 c :=
    fun i hi => absurd hi (Nat.not_lt_zero i)
  rw [matchCursor_repeated_of_most hfree]
  exact matchCursor_copies_sequence (p.nullable_unrolled limit.toNat) howed

theorem matchCursor_optional (p : Pattern Empty) (c : Cursor) :
    p.optional.matchCursor c =
      if (p.matchCursor c).success then p.matchCursor c else c.succeed := by
  have hmost : (Bounds.atMost 1).most = some 1 := rfl
  have hoptional : p.optional.matchCursor c = (p.unrolled 1).matchCursor c :=
    matchCursor_repeated_owingNothing_of_most hmost c
  rw [hoptional, matchCursor_unrolled_succ]
  split
  · next hsuccess =>
      exact (matchCursor_empty _).trans (Cursor.succeed_eq_self hsuccess)
  · rfl

/-- An option that is not taken leaves the rest of the options where they were,
and they are not taken either. -/
theorem matchCursor_unrolled_optional (p : Pattern Empty) (count : Nat)
    (c : Cursor) :
    (p.optional.unrolled count).matchCursor c =
      (p.unrolled count).matchCursor c := by
  induction count generalizing c with
  | zero => rfl
  | succ count ih =>
      have htaken : (p.optional.matchCursor c).success = true :=
        (p.optional.returns_matchCursor c).success_of_nullable
          p.nullable_optional
      rw [matchCursor_unrolled_succ, matchCursor_unrolled_succ, if_pos htaken,
        ih, matchCursor_optional]
      split
      · rfl
      · next hfails =>
          rw [matchCursor_succeed]
          exact matchCursor_unrolled_of_idle
            (.inl (by simpa using hfails)) count

theorem matchCursor_repeated_optional (p : Pattern Empty) (bounds : Bounds)
    (c : Cursor) :
    (repeated p.optional bounds).matchCursor c =
      (repeated p bounds.owingNothing).matchCursor c := by
  rw [matchCursor_repeated_of_nullable p.nullable_optional]
  cases hmost : bounds.most with
  | some limit =>
      rw [matchCursor_repeated_owingNothing_of_most hmost,
        matchCursor_repeated_owingNothing_of_most hmost,
        matchCursor_unrolled_optional]
  | none =>
      rw [Bounds.owingNothing_eq_any hmost,
        matchCursor_repeated_any_unrolled (Nat.le_refl _),
        matchCursor_repeated_any_unrolled (Nat.le_refl _),
        matchCursor_unrolled_optional]

/-- Unbounded repetition ends only where one more match would take it no
further. -/
theorem idle_matchCursor_repeated_any (p : Pattern Empty) (c : Cursor) :
    p.Idle ((repeated p .any).matchCursor c) := by
  have hsuccess : ((repeated p .any).matchCursor c).success = true :=
    ((repeated p .any).returns_matchCursor c).success_of_nullable rfl
  cases hnext : (p.matchCursor ((repeated p .any).matchCursor c)).success with
  | false => exact .inl hnext
  | true =>
      rcases fails_or_stays_of_most_none rfl hsuccess with hfails | hstays
      · simp [hnext] at hfails
      · exact .inr ((p.conducted_matchCursor _).eq_succeed hnext hstays)

/-- What has been repeated without a bound is not repeated any further. -/
theorem matchCursor_repeated_repeated_any (hroom : bounds.HasRoom 0)
    (c : Cursor) :
    (repeated (repeated p .any) bounds).matchCursor c =
      (repeated p .any).matchCursor c := by
  have hsuccess : ((repeated p .any).matchCursor c).success = true :=
    ((repeated p .any).returns_matchCursor c).success_of_nullable rfl
  have hfixed :
      (repeated p .any).matchCursor ((repeated p .any).matchCursor c) =
        (repeated p .any).matchCursor c := by
    rw [matchCursor_repeated_any_of_idle (p.idle_matchCursor_repeated_any c),
      Cursor.succeed_eq_self hsuccess]
  exact matchCursor_repeated_of_countedGreedy
    (countedGreedy_of_fixed hsuccess hfixed hroom)

end Immaterial

/-- A lower bound on the repetitions of a pattern that accepts the empty text
does not matter. So an option within a repetition needs none, and unbounded
repetition is not changed by another one around it that allows it at all. -/
theorem matchCursor_repeated_owingNothing :
    (∀ (q : Pattern Empty) (result : Cursor), q.matchText "" = some result →
      result.success = true → ∀ (bounds : Bounds) (c : Cursor),
        (repeated q bounds).matchCursor c =
          (repeated q bounds.owingNothing).matchCursor c) ∧
    ∀ (p : Pattern Empty) (bounds : Bounds) (c : Cursor),
      (repeated p.optional bounds).matchCursor c =
        (repeated p bounds.owingNothing).matchCursor c ∧
      (bounds.HasRoom 0 → (repeated (repeated p .any) bounds).matchCursor c =
        (repeated p .any).matchCursor c) := by
  constructor
  · intro q result hresult hsuccess
    rw [matchText_eq_some, Option.some.injEq] at hresult
    subst hresult
    exact matchCursor_repeated_of_nullable
      (nullable_of_success_of_ahead_nil rfl hsuccess)
  · intro p bounds c
    exact ⟨p.matchCursor_repeated_optional bounds c,
      fun hroom => matchCursor_repeated_repeated_any hroom c⟩

/-- Four repetitions are owed of an accented letter with an optional letter
behind it, or of nothing: two are read, and the others stay in place. Five are
owed around a repetition that has already read all of the letters. -/
theorem matchCursor_repeated_owingNothing_accented :
    let p : Pattern Empty := (char 'é').sequence (char 'a').optional
    let q : Pattern Empty := p.choice empty
    let bounds : Bounds := ⟨4, some 5, by simp⟩
    let c := Cursor.between ['x'] ['é', 'a', 'é', 'b'] false
    let result := Cursor.between ['x', 'é', 'a', 'é'] ['b'] true
    (q.matchText "" = some (.start "") ∧ (Cursor.start "").success = true ∧
        (repeated q bounds).matchCursor c = result) ∧
      (repeated p.optional bounds).matchCursor c = result ∧
      ((Bounds.atLeast 5).HasRoom 0 ∧
        (repeated (repeated p .any) (.atLeast 5)).matchCursor c = result) := by
  intro p q bounds c result
  have hempty : q.matchText "" = some (.start "") := by decide +kernel
  have hroom : (Bounds.atLeast 5).HasRoom 0 := Bounds.hasRoom_of_most rfl 0
  have hinner := matchCursor_repeated_owingNothing.1 q _ hempty rfl bounds c
  have houter := (matchCursor_repeated_owingNothing.2 p bounds c).1
  have hnested := (matchCursor_repeated_owingNothing.2 p _ c).2 hroom
  exact ⟨⟨hempty, rfl, hinner.trans (by decide +kernel)⟩,
    houter.trans (by decide +kernel), hroom,
    hnested.trans (by decide +kernel)⟩

end Pattern

end TextPattern
