import TextPattern.Proofs.Pattern.Counted

/-!
The chain of a step's results, each made from the one before, and the first
break in it. Main statements: repetition that is resumed in the middle of the
chain, under the bounds that are left by then, ends where it would have ended
from the beginning (`CountedGreedy.resume`); a repetition of a pattern is read
off the chain of its matches (`matchCursor_repeated_of_unbroken`,
`matchCursor_repeated_of_breaksAfter`).
-/

namespace TextPattern

section Chain

variable {f : Cursor → Cursor} {count made : Nat} {c : Cursor}

/-- The first so many steps of the chain succeed. -/
def Unbroken (f : Cursor → Cursor) (count : Nat) (c : Cursor) : Prop :=
  ∀ i < count, (f^[i + 1] c).success = true

/-- The chain breaks at the step after so many that succeed. -/
def BreaksAfter (f : Cursor → Cursor) (made : Nat) (c : Cursor) : Prop :=
  Unbroken f made c ∧ (f^[made + 1] c).success = false

theorem Unbroken.succ (h : Unbroken f count c)
    (hsuccess : (f^[count + 1] c).success = true) :
    Unbroken f (count + 1) c := by
  intro i hi
  rcases Nat.lt_succ_iff_lt_or_eq.1 hi with hlt | rfl
  · exact h i hlt
  · exact hsuccess

theorem unbroken_or_breaksAfter (f : Cursor → Cursor) (count : Nat)
    (c : Cursor) :
    Unbroken f count c ∨ ∃ made < count, BreaksAfter f made c := by
  induction count with
  | zero => exact .inl fun i hi => absurd hi (Nat.not_lt_zero i)
  | succ count ih =>
      rcases ih with hunbroken | ⟨made, hmade, hbreaks⟩
      · cases hsuccess : (f^[count + 1] c).success with
        | false =>
            exact .inr ⟨count, Nat.lt_succ_self count, hunbroken, hsuccess⟩
        | true => exact .inl (hunbroken.succ hsuccess)
      · exact .inr ⟨made, Nat.lt_succ_of_lt hmade, hbreaks⟩

/-- No more steps succeed than those before one that fails. -/
theorem Unbroken.le_of_fails (h : Unbroken f count c)
    (hfails : (f^[made + 1] c).success = false) : count ≤ made := by
  by_contra hbeyond
  rw [h made (Nat.lt_of_not_le hbeyond)] at hfails
  contradiction

theorem Unbroken.of_le (h : Unbroken f count c) (hle : made ≤ count) :
    Unbroken f made c :=
  fun i hi => h i (Nat.lt_of_lt_of_le hi hle)

/-- A step of a chain that begins later is a step of the whole chain. -/
theorem iterate_succ_iterate (f : Cursor → Cursor) (made i : Nat) (c : Cursor) :
    f^[i + 1] (f^[made] c) = f^[made + i + 1] c := by
  rw [← Function.iterate_add_apply, Nat.add_right_comm, Nat.add_comm i]

/-- What follows the first steps of a chain is a chain from where they ended. -/
theorem Unbroken.drop (h : Unbroken f (made + count) c) :
    Unbroken f count (f^[made] c) := by
  intro i hi
  rw [iterate_succ_iterate]
  exact h (made + i) (Nat.add_lt_add_left hi made)

theorem BreaksAfter.drop (h : BreaksAfter f (made + count) c) :
    BreaksAfter f count (f^[made] c) := by
  refine ⟨h.1.drop, ?_⟩
  rw [iterate_succ_iterate]
  exact h.2

/-- Chains of which one begins where the other ended are one chain. -/
theorem Unbroken.append (h : Unbroken f made c)
    (h' : Unbroken f count (f^[made] c)) : Unbroken f (made + count) c := by
  intro i hi
  rcases Nat.lt_or_ge i made with hlt | hge
  · exact h i hlt
  · obtain ⟨n, rfl⟩ := Nat.exists_eq_add_of_le hge
    have hsuccess := h' n (Nat.lt_of_add_lt_add_left hi)
    rwa [iterate_succ_iterate] at hsuccess

theorem Bounds.hasRoom_of_most {bounds : Bounds} (hmost : bounds.most = none)
    (made : Nat) : bounds.HasRoom made := by
  simp [Bounds.HasRoom, hmost]

/-- What the bounds leave to be matched after so many repetitions: what is still
owed, and the room that is still there. -/
structure Bounds.Leaves (bounds : Bounds) (made : Nat) (rest : Bounds) :
    Prop where
  least_eq : rest.least.toNat = bounds.least.toNat - made
  most_eq : bounds.most.map UInt32.toNat = rest.most.map (made + ·.toNat)

theorem Bounds.Leaves.least_le_iff {bounds rest : Bounds}
    (h : bounds.Leaves made rest) (later : Nat) :
    bounds.least.toNat ≤ made + later ↔ rest.least.toNat ≤ later := by
  rw [h.least_eq]
  omega

/-- A limit on the repetitions of one is a limit, lower by those made, on those
of the other. -/
theorem Bounds.Leaves.forall_most_iff {bounds rest : Bounds}
    (h : bounds.Leaves made rest) {P : Nat → Prop} :
    (∀ limit ∈ bounds.most, P limit.toNat) ↔
      ∀ limit ∈ rest.most, P (made + limit.toNat) := by
  have hmost := h.most_eq
  cases hbounds : bounds.most <;> cases hrest : rest.most <;> simp_all

theorem Bounds.Leaves.hasRoom_iff {bounds rest : Bounds}
    (h : bounds.Leaves made rest) (later : Nat) :
    bounds.HasRoom (made + later) ↔ rest.HasRoom later := by
  rw [Bounds.HasRoom, h.forall_most_iff (P := (made + later < ·))]
  simp only [Nat.add_lt_add_iff_left, Bounds.HasRoom]

/-- There is room for the first repetitions if anything may be left after
them. -/
theorem Bounds.Leaves.hasRoom_of_lt {bounds rest : Bounds}
    (h : bounds.Leaves made rest) {early : Nat} (hearly : early < made) :
    bounds.HasRoom early := by
  rw [Bounds.HasRoom, h.forall_most_iff (P := (early < ·))]
  intro limit _
  exact Nat.lt_add_right limit.toNat hearly

/-- Repetition that begins later in the chain, under what the bounds leave, ends
where it would have ended from the beginning; if it falls short, so does the
whole. -/
theorem CountedGreedy.resume {bounds rest : Bounds} {d : Cursor}
    (hleaves : bounds.Leaves made rest) (hstart : Unbroken f made c)
    (h : CountedGreedy f rest (f^[made] c) d) :
    CountedGreedy f bounds c (if d.success then d else c.fail) := by
  have hlater (i : Nat) : f^[i] (f^[made] c) = f^[i + made] c :=
    (Function.iterate_add_apply f i made c).symm
  cases h with
  | @unbroken last hsucceeds hlast hstays =>
      rw [if_pos (Cursor.success_succeed _), hlater]
      refine .unbroken ?_ ?_ ?_
      · intro i hroom
        rcases Nat.lt_or_ge i made with hlt | hge
        · exact hstart i hlt
        · obtain ⟨n, rfl⟩ := Nat.exists_eq_add_of_le hge
          have hsuccess := hsucceeds n ((hleaves.hasRoom_iff n).1 hroom)
          rwa [iterate_succ_iterate] at hsuccess
      · rw [hleaves.forall_most_iff (P := (last + made ≤ ·))]
        intro limit hmost
        have := hlast limit hmost
        omega
      · intro i hge hle
        obtain ⟨n, rfl⟩ := Nat.exists_eq_add_of_le hge
        rw [hleaves.forall_most_iff (P := (last + made + n ≤ ·))] at hle
        have hposition :=
          hstays (last + n) (Nat.le_add_right last n) fun limit hmost => by
            have := hle limit hmost
            omega
        rwa [hlater, hlater, Nat.add_right_comm] at hposition
  | @broken later hroom hsucceeds hfails =>
      rw [iterate_succ_iterate] at hfails
      have hbroken := CountedGreedy.broken ((hleaves.hasRoom_iff later).2 hroom)
        (hstart.append hsucceeds) hfails
      simp only [hleaves.least_le_iff] at hbroken
      split
      · next henough =>
          rw [if_pos henough] at hbroken
          rwa [if_pos (Cursor.success_succeed _), hlater, Nat.add_comm]
      · next hshort =>
          rw [if_neg hshort] at hbroken
          rwa [if_neg (by simp)]

/-- Unbounded repetition that begins later in the chain ends where it would have
ended from the beginning, if enough has been matched by then. -/
theorem CountedGreedy.of_iterate {bounds : Bounds} {d : Cursor}
    (hmost : bounds.most = none) (hleast : bounds.least.toNat ≤ made)
    (hstart : Unbroken f made c) (h : CountedGreedy f .any (f^[made] c) d) :
    CountedGreedy f bounds c d := by
  have hleaves : bounds.Leaves made .any :=
    ⟨(Nat.sub_eq_zero_of_le hleast).symm, by rw [hmost]; rfl⟩
  have hsuccess : d.success = true := by
    cases h with
    | unbroken => rfl
    | @broken later =>
        have hfree : Bounds.any.least.toNat ≤ later := Nat.zero_le later
        rw [if_pos hfree]
        rfl
  have hresumed := h.resume hleaves hstart
  rwa [if_pos hsuccess] at hresumed

end Chain

namespace Pattern

variable {p : Pattern Empty} {bounds : Bounds} {c d : Cursor}
  {limit count : UInt32} {made : Nat}

theorem countedGreedy_repeated (p : Pattern Empty) (bounds : Bounds)
    (c : Cursor) :
    CountedGreedy p.matchCursor bounds c ((repeated p bounds).matchCursor c) :=
  (repeats_matchCursor p bounds c).countedGreedy p.conducted_matchCursor
    p.matchCursor_succeed

theorem matchCursor_repeated_of_countedGreedy
    (h : CountedGreedy p.matchCursor bounds c d) :
    (repeated p bounds).matchCursor c = d :=
  (countedGreedy_repeated p bounds c).unique p.conducted_matchCursor h

theorem matchCursor_repeated_of_unbroken (hmost : bounds.most = some limit)
    (h : Unbroken p.matchCursor limit.toNat c) :
    (repeated p bounds).matchCursor c =
      (p.matchCursor^[limit.toNat] c).succeed := by
  apply matchCursor_repeated_of_countedGreedy
  refine .unbroken (fun i hroom => h i (hroom limit hmost)) ?_ ?_
  · intro limit' hmost'
    exact Nat.le_of_eq (congrArg UInt32.toNat (Option.mem_unique hmost hmost'))
  · intro i hge hle
    rw [Nat.le_antisymm (hle limit hmost) hge]

theorem matchCursor_repeated_of_breaksAfter (hroom : bounds.HasRoom made)
    (h : BreaksAfter p.matchCursor made c) :
    (repeated p bounds).matchCursor c =
      if bounds.least.toNat ≤ made then (p.matchCursor^[made] c).succeed
        else c.fail :=
  matchCursor_repeated_of_countedGreedy (.broken hroom h.1 h.2)

theorem matchCursor_exactly_of_unbroken
    (h : Unbroken p.matchCursor count.toNat c) :
    (repeated p (.exactly count)).matchCursor c =
      (p.matchCursor^[count.toNat] c).succeed :=
  matchCursor_repeated_of_unbroken rfl h

theorem matchCursor_exactly_of_breaksAfter
    (h : BreaksAfter p.matchCursor made c) (hmade : made < count.toNat) :
    (repeated p (.exactly count)).matchCursor c = c.fail := by
  have hroom : (Bounds.exactly count).HasRoom made := by
    intro limit hmost
    obtain rfl := Option.some.inj hmost
    exact hmade
  have howed : ¬ (Bounds.exactly count).least.toNat ≤ made :=
    Nat.not_le_of_lt hmade
  rw [matchCursor_repeated_of_breaksAfter hroom h, if_neg howed]

end Pattern

end TextPattern
