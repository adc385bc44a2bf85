import Mathlib.Logic.Function.Iterate
import TextPattern.Proofs.Pattern.Conduct

/-!
Greedy repetition as it is meant. `CountedGreedy` describes it by the chain of a
step applied to its own results, over natural numbers, and says nothing of steps
that do not move. Main statement: for patterns built from the library's own
parts the repetition returns just what `CountedGreedy` says
(`matchCursor_repeated_eq_iff`), so neither the saturating count nor the early
exit of the loop shows.
-/

namespace TextPattern

/-- What greedy repetition of a step is meant to make of a cursor. -/
inductive CountedGreedy (f : Cursor → Cursor) (bounds : Bounds)
    (origin : Cursor) : Cursor → Prop
  /-- No step of the chain fails, up to the upper bound or for ever if there is
  none; the result is where the chain ends, or any place from which on it does
  not move. -/
  | unbroken {last : Nat}
      (hsucceeds : ∀ i, bounds.HasRoom i → (f^[i + 1] origin).success = true)
      (hlast : ∀ limit ∈ bounds.most, last ≤ limit.toNat)
      (hstays : ∀ i, last ≤ i → (∀ limit ∈ bounds.most, i ≤ limit.toNat) →
        (f^[i] origin).position = (f^[last] origin).position) :
      CountedGreedy f bounds origin (f^[last] origin).succeed
  /-- The chain fails within the upper bound, after so many steps that
  succeed. -/
  | broken {made : Nat} (hroom : bounds.HasRoom made)
      (hsucceeds : ∀ i < made, (f^[i + 1] origin).success = true)
      (hfails : (f^[made + 1] origin).success = false) :
      CountedGreedy f bounds origin
        (if bounds.least.toNat ≤ made then (f^[made] origin).succeed
          else origin.fail)

section Chain

variable {f : Cursor → Cursor} {bounds : Bounds} {c d : Cursor}

theorem chars_iterate (hconduct : ∀ c : Cursor, c.Conducted (f c)) (n : Nat)
    (c : Cursor) : (f^[n] c).chars = c.chars := by
  induction n with
  | zero => rfl
  | succ n ih =>
      rw [Function.iterate_succ_apply', (hconduct _).chars_eq, ih]

/-- A climb is the beginning of the chain. -/
theorem Climbs.eq_iterate {moves : Nat} (climb : Climbs (f · = ·) moves c d) :
    f^[moves] c = d ∧ ∀ i < moves, (f^[i + 1] c).success = true := by
  induction climb with
  | refl c => exact ⟨rfl, fun i hi => absurd hi (Nat.not_lt_zero i)⟩
  | @move moves c next e hstep hsuccess _ _ ih =>
      subst hstep
      refine ⟨ih.1, ?_⟩
      intro i hi
      cases i with
      | zero => exact hsuccess
      | succ i => exact ih.2 i (Nat.lt_of_succ_lt_succ hi)

/-- A climb after which the step fails is all there is to the chain. -/
theorem Climbs.countedGreedy_of_fails {moves : Nat}
    (climb : Climbs (f · = ·) moves c d) (hroom : bounds.HasRoom moves)
    (hfails : (f d).success = false) :
    CountedGreedy f bounds c
      (if bounds.least.toNat ≤ moves then d.succeed else c.fail) := by
  obtain ⟨hd, hsucceeds⟩ := climb.eq_iterate
  rw [← hd] at hfails ⊢
  rw [← Function.iterate_succ_apply' f moves c] at hfails
  exact .broken hroom hsucceeds hfails

/-- Where one step succeeds in place, all later ones do. -/
theorem iterate_of_stays (hconduct : ∀ c : Cursor, c.Conducted (f c))
    (hflag : ∀ c : Cursor, f c.succeed = f c) (hsuccess : (f c).success = true)
    (hstays : (f c).position = c.position) (n : Nat) : f^[n + 1] c = f c := by
  have hplace : f c = c.succeed := (hconduct c).eq_succeed hsuccess hstays
  have hfixed : f (f c) = f c := (congrArg f hplace).trans (hflag c)
  rw [Function.iterate_succ_apply, Function.iterate_fixed hfixed]

/-- The outcome of a repetition is the one that is meant, if the step is
conducted and does not look at the flag. -/
theorem Repeats.countedGreedy (hconduct : ∀ c : Cursor, c.Conducted (f c))
    (hflag : ∀ c : Cursor, f c.succeed = f c)
    (h : Repeats (f · = ·) bounds c d) : CountedGreedy f bounds c d := by
  cases h with
  | @full limit e hmost climb =>
      obtain ⟨he, hsucceeds⟩ := climb.eq_iterate
      rw [← he]
      refine .unbroken (fun i hroom => hsucceeds i (hroom limit hmost)) ?_ ?_
      · intro limit' hmost'
        have hlimit : limit = limit' := Option.mem_unique hmost hmost'
        exact Nat.le_of_eq (congrArg UInt32.toNat hlimit)
      · intro i hge hle
        rw [Nat.le_antisymm (hle limit hmost) hge]
  | @stalled moves e d climb hroom hstep hsuccess hstays =>
      obtain ⟨he, hsucceeds⟩ := climb.eq_iterate
      subst hstep
      have hlater (n : Nat) : f^[n + 1 + moves] c = f e := by
        rw [Function.iterate_add_apply, he]
        exact iterate_of_stays hconduct hflag hsuccess hstays n
      rw [← he]
      refine .unbroken ?_
        (fun limit hmost => Nat.le_of_lt (hroom limit hmost)) ?_
      · intro i _
        rcases Nat.lt_or_ge i moves with hlt | hge
        · exact hsucceeds i hlt
        · obtain ⟨n, rfl⟩ := Nat.exists_eq_add_of_le hge
          rw [show moves + n + 1 = n + 1 + moves by omega, hlater n]
          exact hsuccess
      · intro i hge _
        obtain ⟨n, rfl⟩ := Nat.exists_eq_add_of_le hge
        cases n with
        | zero => rfl
        | succ n => rw [Nat.add_comm, hlater n, he, hstays]
  | @enough moves e d climb hroom hstep hfails henough =>
      subst hstep
      have hcounted := climb.countedGreedy_of_fails hroom hfails
      rwa [if_pos henough] at hcounted
  | @short moves e d climb hroom hstep hfails hshort =>
      subst hstep
      have hcounted := climb.countedGreedy_of_fails hroom hfails
      rwa [if_neg (Nat.not_le_of_lt hshort)] at hcounted

/-- The chain determines the result. -/
theorem CountedGreedy.unique (hconduct : ∀ c : Cursor, c.Conducted (f c))
    (h : CountedGreedy f bounds c d) {d' : Cursor}
    (h' : CountedGreedy f bounds c d') : d = d' := by
  cases h with
  | @unbroken last hsucceeds hlast hstays =>
      cases h' with
      | @unbroken last' hsucceeds' hlast' hstays' =>
          have hbound : ∀ limit ∈ bounds.most, max last last' ≤ limit.toNat :=
            fun limit hmost =>
              Nat.max_le.2 ⟨hlast limit hmost, hlast' limit hmost⟩
          have hposition := hstays (max last last') (Nat.le_max_left _ _) hbound
          rw [hstays' (max last last') (Nat.le_max_right _ _) hbound]
            at hposition
          have hchars : (f^[last] c).chars = (f^[last'] c).chars := by
            rw [chars_iterate hconduct, chars_iterate hconduct]
          exact Cursor.eq_iff.2 ⟨hchars, hposition.symm, rfl⟩
      | broken hroom' hsucceeds' hfails' =>
          rw [hsucceeds _ hroom'] at hfails'
          contradiction
  | @broken made hroom hsucceeds hfails =>
      cases h' with
      | unbroken hsucceeds' hlast' hstays' =>
          rw [hsucceeds' _ hroom] at hfails
          contradiction
      | @broken made' hroom' hsucceeds' hfails' =>
          have hmade : made = made' := by
            rcases Nat.lt_trichotomy made made' with hlt | heq | hgt
            · rw [hsucceeds' made hlt] at hfails
              contradiction
            · exact heq
            · rw [hsucceeds made' hgt] at hfails'
              contradiction
          rw [hmade]

end Chain

namespace Pattern

/-- A repetition computes counted greedy repetition exactly, from every
cursor. -/
theorem matchCursor_repeated_eq_iff (p : Pattern Empty) (bounds : Bounds)
    (c result : Cursor) :
    (repeated p bounds).matchCursor c = result ↔
      CountedGreedy p.matchCursor bounds c result := by
  have hcounted := (repeats_matchCursor p bounds c).countedGreedy
    p.conducted_matchCursor p.matchCursor_succeed
  constructor
  · rintro rfl
    exact hcounted
  · intro h
    exact hcounted.unique p.conducted_matchCursor h

end Pattern

end TextPattern
