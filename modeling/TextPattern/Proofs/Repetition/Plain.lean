import TextPattern.Proofs.Repetition.Outcome

/-!
Greedy repetition without an early exit. `PlainGreedy` takes step after step
until the upper bound is reached or a step fails, and a step that stays in place
counts like any other. Main statement: under an upper bound the loop, which
gives up at the first step that stays in place, returns the same
(`repeats_iff_plainGreedy`), as long as a first step that does so would do so
again. All later steps start from a success, and there it goes without saying.
-/

namespace TextPattern

/-- What a repetition goes on to return after so many steps, if only the upper
bound and the failure of a step can end it. -/
inductive PlainGreedy (step : Cursor → Cursor → Prop) (bounds : Bounds)
    (origin : Cursor) : Nat → Cursor → Cursor → Prop
  /-- As many steps as the upper bound allows. -/
  | full {made : Nat} {current : Cursor} (hfull : ¬ bounds.HasRoom made) :
      PlainGreedy step bounds origin made current current.succeed
  /-- One more step succeeds, and the repetition goes on from its result. -/
  | again {made : Nat} {current next result : Cursor}
      (hroom : bounds.HasRoom made) (hstep : step current next)
      (hsuccess : next.success = true)
      (rest : PlainGreedy step bounds origin (made + 1) next result) :
      PlainGreedy step bounds origin made current result
  /-- A step fails, after enough of them or too few. -/
  | stop {made : Nat} {current next : Cursor} (hroom : bounds.HasRoom made)
      (hstep : step current next) (hfails : next.success = false) :
      PlainGreedy step bounds origin made current
        (if bounds.least.toNat ≤ made then current.succeed else origin.fail)

section Plain

variable {step : Cursor → Cursor → Prop} {bounds : Bounds}
  {origin c d result : Cursor} {made : Nat}

/-- A climb for which there is room is the beginning of the repetition. -/
theorem Climbs.plainGreedy {moves : Nat} (climb : Climbs step moves c d)
    (hroom : ∀ limit ∈ bounds.most, made + moves ≤ limit.toNat)
    (rest : PlainGreedy step bounds origin (made + moves) d result) :
    PlainGreedy step bounds origin made c result := by
  induction climb generalizing made with
  | refl c => exact rest
  | @move moves c next d hstep hsuccess _ _ ih =>
      have hnext : made + (moves + 1) = made + 1 + moves := by omega
      rw [hnext] at hroom rest
      have hfirst : bounds.HasRoom made := by
        intro limit hmost
        have := hroom limit hmost
        omega
      exact .again hfirst hstep hsuccess (ih hroom rest)

theorem Climbs.success_of_pos {moves : Nat} (climb : Climbs step moves c d)
    (hpos : 0 < moves) : d.success = true := by
  induction climb with
  | refl c => contradiction
  | @move moves c next d _ hsuccess _ rest ih =>
      cases moves with
      | zero =>
          cases rest
          exact hsuccess
      | succ moves => exact ih (Nat.succ_pos moves)

/-- A step that returns the cursor it was given uses up the bound and nothing
else. -/
theorem plainGreedy_of_fixed (hfixed : step c c) (hsuccess : c.success = true)
    {limit : UInt32} (hmost : bounds.most = some limit)
    (hmade : made ≤ limit.toNat) :
    PlainGreedy step bounds origin made c c.succeed := by
  obtain ⟨left, hleft⟩ := Nat.exists_eq_add_of_le hmade
  induction left generalizing made with
  | zero =>
      exact .full (Bounds.not_hasRoom_iff.2 ⟨limit, hmost, Nat.le_of_eq hleft⟩)
  | succ left ih =>
      have hroom : bounds.HasRoom made := by
        intro limit' hmost'
        obtain rfl : limit = limit' := Option.mem_unique hmost hmost'
        omega
      exact .again hroom hfixed hsuccess (ih (by omega) (by omega))

theorem PlainGreedy.unique (hunique : ∀ c d d', step c d → step c d' → d = d')
    (h : PlainGreedy step bounds origin made c result) {result' : Cursor}
    (h' : PlainGreedy step bounds origin made c result') :
    result = result' := by
  induction h with
  | full hfull =>
      cases h' with
      | full => rfl
      | again hroom => exact absurd hroom hfull
      | stop hroom => exact absurd hroom hfull
  | again hroom hstep hsuccess rest ih =>
      cases h' with
      | full hfull => exact absurd hroom hfull
      | again _ hstep' _ rest' =>
          obtain rfl := hunique _ _ _ hstep hstep'
          exact ih rest'
      | stop _ hstep' hfails =>
          obtain rfl := hunique _ _ _ hstep hstep'
          simp [hsuccess] at hfails
  | stop hroom hstep hfails =>
      cases h' with
      | full hfull => exact absurd hroom hfull
      | again _ hstep' hsuccess =>
          obtain rfl := hunique _ _ _ hstep hstep'
          simp [hsuccess] at hfails
      | stop => rfl

section Exact

variable (hplace : ∀ c d, step c d → d.success = true →
  d.position = c.position → d = c.succeed)
  (hfirst : step origin origin.succeed → step origin.succeed origin.succeed)

include hplace hfirst

/-- Where a climb stalls, the step returns the cursor that it was given. -/
theorem Climbs.fixed_of_stays {moves : Nat} (climb : Climbs step moves origin c)
    (hstep : step c d) (hsuccess : d.success = true)
    (hstays : d.position = c.position) :
    d = c.succeed ∧ step c.succeed c.succeed := by
  obtain rfl := hplace c d hstep hsuccess hstays
  refine ⟨rfl, ?_⟩
  cases climb with
  | refl => exact hfirst hstep
  | move hstep' hsuccess' hmoves rest =>
      have hc := (Climbs.move hstep' hsuccess' hmoves rest).success_of_pos
        (Nat.succ_pos _)
      rwa [Cursor.succeed_eq_self hc] at hstep ⊢

theorem Repeats.plainGreedy {limit : UInt32} (hmost : bounds.most = some limit)
    (h : Repeats step bounds origin result) :
    PlainGreedy step bounds origin 0 origin result := by
  have hbegin {moves : Nat} {e : Cursor} (climb : Climbs step moves origin e)
      (hmoves : ∀ limit ∈ bounds.most, moves ≤ limit.toNat)
      (rest : PlainGreedy step bounds origin moves e result) :
      PlainGreedy step bounds origin 0 origin result := by
    rw [← Nat.zero_add moves] at hmoves rest
    exact climb.plainGreedy hmoves rest
  cases h with
  | @full limit' e hmost' climb =>
      refine hbegin climb ?_
        (.full (Bounds.not_hasRoom_iff.2 ⟨limit', hmost', Nat.le_refl _⟩))
      intro limit'' hmost''
      obtain rfl : limit' = limit'' := Option.mem_unique hmost' hmost''
      exact Nat.le_refl _
  | @stalled moves e d climb hroom hstep hsuccess hstays =>
      obtain ⟨rfl, hfixed⟩ :=
        climb.fixed_of_stays hplace hfirst hstep hsuccess hstays
      have hle : moves + 1 ≤ limit.toNat := hroom limit hmost
      refine hbegin climb
        (fun limit hmost => Nat.le_of_lt (hroom limit hmost)) ?_
      exact .again hroom hstep hsuccess
        (plainGreedy_of_fixed hfixed hsuccess hmost hle)
  | @enough moves e d climb hroom hstep hfails henough =>
      refine hbegin climb
        (fun limit hmost => Nat.le_of_lt (hroom limit hmost)) ?_
      have hstop : PlainGreedy step bounds origin moves e _ :=
        .stop hroom hstep hfails
      rwa [if_pos henough] at hstop
  | @short moves e d climb hroom hstep hfails hshort =>
      refine hbegin climb
        (fun limit hmost => Nat.le_of_lt (hroom limit hmost)) ?_
      have hstop : PlainGreedy step bounds origin moves e _ :=
        .stop hroom hstep hfails
      rwa [if_neg (Nat.not_le_of_lt hshort)] at hstop

/-- What is left of a repetition after a climb gives an outcome of the whole. -/
theorem PlainGreedy.repeats (hunique : ∀ c d d', step c d → step c d' → d = d')
    {limit : UInt32} (hmost : bounds.most = some limit)
    (climb : Climbs step made origin c) (hmade : made ≤ limit.toNat)
    (h : PlainGreedy step bounds origin made c result) :
    Repeats step bounds origin result := by
  induction h with
  | full hfull =>
      obtain ⟨limit', hmost', hle⟩ := Bounds.not_hasRoom_iff.1 hfull
      obtain rfl : limit = limit' := Option.mem_unique hmost hmost'
      exact .full hmost (Nat.le_antisymm hmade hle ▸ climb)
  | @again made c next result hroom hstep hsuccess rest ih =>
      have hle : made + 1 ≤ limit.toNat := hroom limit hmost
      by_cases hstays : next.position = c.position
      · obtain ⟨rfl, hfixed⟩ :=
          climb.fixed_of_stays hplace hfirst hstep hsuccess hstays
        have hresult : result = c.succeed :=
          rest.unique hunique (plainGreedy_of_fixed hfixed hsuccess hmost hle)
        exact hresult ▸ .stalled climb hroom hstep hsuccess hstays
      · exact ih (climb.snoc hstep hsuccess hstays) hle
  | stop hroom hstep hfails =>
      split
      · next henough => exact .enough climb hroom hstep hfails henough
      · next hshort =>
          exact .short climb hroom hstep hfails (Nat.lt_of_not_le hshort)

/-- Under an upper bound, giving up at the first step that stays in place
changes nothing, as long as a step that stays returns the cursor it was given,
marked successful, and does so again. -/
theorem repeats_iff_plainGreedy
    (hunique : ∀ c d d', step c d → step c d' → d = d') {limit : UInt32}
    (hmost : bounds.most = some limit) :
    Repeats step bounds origin result ↔
      PlainGreedy step bounds origin 0 origin result :=
  ⟨fun h => h.plainGreedy hplace hfirst hmost,
    fun h => h.repeats hplace hfirst hunique hmost (.refl origin)
      (Nat.zero_le _)⟩

end Exact

end Plain

end TextPattern
