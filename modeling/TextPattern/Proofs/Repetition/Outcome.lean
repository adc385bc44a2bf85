import TextPattern.Repetition.Loop

/-!
Greedy repetition, counted in natural numbers. `Repeats` lists the ways in which
a repetition can end: it has used up its bound, a step stalled, or a step
failed. Main statement: the loop, with its 32-bit count and its limit on calls,
returns just what `Repeats` says (`exists_greedy_eq_some_iff`), so nothing below
has to open the loop again.
-/

namespace TextPattern

/-- A 32-bit count of so many repetitions; it stands still at the greatest
count. -/
def Tallies (count : UInt32) (made : Nat) : Prop :=
  count.toNat = min made 4294967295

theorem tallies_zero : Tallies 0 0 := rfl

theorem Tallies.countUp {count : UInt32} {made : Nat} (h : Tallies count made) :
    Tallies (countUp count) (made + 1) := by
  rw [Tallies] at h ⊢
  rw [toNat_countUp, h]
  omega

theorem Tallies.le_iff {count : UInt32} {made : Nat} (h : Tallies count made)
    (bound : UInt32) : bound ≤ count ↔ bound.toNat ≤ made := by
  have hbound := bound.toNat_lt
  rw [Tallies] at h
  rw [UInt32.le_iff_toNat_le, h]
  omega

theorem Tallies.lt_iff {count : UInt32} {made : Nat} (h : Tallies count made)
    (bound : UInt32) : count < bound ↔ made < bound.toNat := by
  have hbound := bound.toNat_lt
  rw [Tallies] at h
  rw [UInt32.lt_iff_toNat_lt, h]
  omega

/-- One more repetition is allowed after so many. -/
def Bounds.HasRoom (bounds : Bounds) (made : Nat) : Prop :=
  ∀ limit ∈ bounds.most, made < limit.toNat

theorem Bounds.not_hasRoom_iff {bounds : Bounds} {made : Nat} :
    ¬ bounds.HasRoom made ↔
      ∃ limit, bounds.most = some limit ∧ limit.toNat ≤ made := by
  rw [Bounds.HasRoom]
  cases bounds.most with
  | none => simp
  | some limit => simp

/-- The saturating count answers as the true number of repetitions would. -/
theorem Bounds.allowsAnother_iff_hasRoom {bounds : Bounds} {count : UInt32}
    {made : Nat} (h : Tallies count made) :
    bounds.allowsAnother count = true ↔ bounds.HasRoom made := by
  rw [Bounds.allowsAnother, Bounds.HasRoom]
  cases bounds.most with
  | none => simp
  | some limit => simpa using h.lt_iff limit

theorem Bounds.least_toNat_le (bounds : Bounds) {limit : UInt32}
    (hmost : bounds.most = some limit) : bounds.least.toNat ≤ limit.toNat :=
  UInt32.le_iff_toNat_le.1 (bounds.least_le_most limit hmost)

/-- A count that is raised to the lower bound meets it. -/
theorem Bounds.least_le_max (bounds : Bounds) (count : UInt32) :
    bounds.least ≤ max count bounds.least := by
  change bounds.least ≤ if count ≤ bounds.least then bounds.least else count
  split
  · exact UInt32.le_refl bounds.least
  · next h => exact UInt32.le_of_lt (UInt32.not_le.1 h)

/-- So many steps in a row, each of which succeeds and moves. -/
inductive Climbs (step : Cursor → Cursor → Prop) : Nat → Cursor → Cursor → Prop
  | refl (c : Cursor) : Climbs step 0 c c
  | move {moves : Nat} {c d e : Cursor} (hstep : step c d)
      (hsuccess : d.success = true)
      (hmoves : d.position ≠ c.position) (rest : Climbs step moves d e) :
      Climbs step (moves + 1) c e

theorem Climbs.snoc {step : Cursor → Cursor → Prop} {moves : Nat}
    {c d e : Cursor} (climb : Climbs step moves c d) (hstep : step d e)
    (hsuccess : e.success = true) (hmoves : e.position ≠ d.position) :
    Climbs step (moves + 1) c e := by
  induction climb with
  | refl c => exact .move hstep hsuccess hmoves (.refl e)
  | move hfirst hfirstSuccess hfirstMoves _ ih =>
      exact .move hfirst hfirstSuccess hfirstMoves (ih hstep hmoves)

/-- Another step needs to do the same only on cursors that a climb can come
to. -/
theorem Climbs.mono_on {step step' : Cursor → Cursor → Prop}
    {Seen : Cursor → Prop} (hseen : ∀ c d, Seen c → step c d → Seen d)
    (hstep : ∀ c d, Seen c → step c d → step' c d) {moves : Nat} {c d : Cursor}
    (hc : Seen c) (climb : Climbs step moves c d) :
    Climbs step' moves c d ∧ Seen d := by
  induction climb with
  | refl c => exact ⟨.refl c, hc⟩
  | move hfirst hsuccess hmoves _ ih =>
      obtain ⟨climb', hd⟩ := ih (hseen _ _ hc hfirst)
      exact ⟨.move (hstep _ _ hc hfirst) hsuccess hmoves climb', hd⟩

theorem Climbs.mono {step step' : Cursor → Cursor → Prop}
    (hstep : ∀ c d, step c d → step' c d) {moves : Nat} {c d : Cursor}
    (climb : Climbs step moves c d) : Climbs step' moves c d :=
  (climb.mono_on (fun _ _ _ _ => trivial) (fun c d _ => hstep c d) trivial).1

/-- One more step leads no further: it fails, or it stays in place. -/
def Stops (step : Cursor → Cursor → Prop) (e : Cursor) : Prop :=
  ∃ d, step e d ∧ (d.success = true → d.position = e.position)

/-- What greedy repetition of a step makes of a cursor. -/
inductive Repeats (step : Cursor → Cursor → Prop) (bounds : Bounds)
    (origin : Cursor) : Cursor → Prop
  /-- As many repetitions as the upper bound allows. -/
  | full {limit : UInt32} {e : Cursor} (hmost : bounds.most = some limit)
      (climb : Climbs step limit.toNat origin e) :
      Repeats step bounds origin e.succeed
  /-- A repetition stays in place, and so would all that are still owed. -/
  | stalled {moves : Nat} {e d : Cursor} (climb : Climbs step moves origin e)
      (hroom : bounds.HasRoom moves) (hstep : step e d)
      (hsuccess : d.success = true) (hstays : d.position = e.position) :
      Repeats step bounds origin e.succeed
  /-- A repetition fails after enough of them. -/
  | enough {moves : Nat} {e d : Cursor} (climb : Climbs step moves origin e)
      (hroom : bounds.HasRoom moves) (hstep : step e d)
      (hfails : d.success = false) (henough : bounds.least.toNat ≤ moves) :
      Repeats step bounds origin e.succeed
  /-- A repetition fails after too few of them. -/
  | short {moves : Nat} {e d : Cursor} (climb : Climbs step moves origin e)
      (hroom : bounds.HasRoom moves) (hstep : step e d)
      (hfails : d.success = false) (hshort : moves < bounds.least.toNat) :
      Repeats step bounds origin origin.fail

theorem Repeats.mono_on {step step' : Cursor → Cursor → Prop}
    {Seen : Cursor → Prop} (hseen : ∀ c d, Seen c → step c d → Seen d)
    (hstep : ∀ c d, Seen c → step c d → step' c d) {bounds : Bounds}
    {origin result : Cursor} (horigin : Seen origin)
    (h : Repeats step bounds origin result) :
    Repeats step' bounds origin result := by
  cases h with
  | full hmost climb => exact .full hmost (climb.mono_on hseen hstep horigin).1
  | stalled climb hroom hlast hsuccess hstays =>
      obtain ⟨climb', he⟩ := climb.mono_on hseen hstep horigin
      exact .stalled climb' hroom (hstep _ _ he hlast) hsuccess hstays
  | enough climb hroom hlast hfails henough =>
      obtain ⟨climb', he⟩ := climb.mono_on hseen hstep horigin
      exact .enough climb' hroom (hstep _ _ he hlast) hfails henough
  | short climb hroom hlast hfails hshort =>
      obtain ⟨climb', he⟩ := climb.mono_on hseen hstep horigin
      exact .short climb' hroom (hstep _ _ he hlast) hfails hshort

theorem Repeats.mono {step step' : Cursor → Cursor → Prop}
    (hstep : ∀ c d, step c d → step' c d) {bounds : Bounds}
    {origin result : Cursor} (h : Repeats step bounds origin result) :
    Repeats step' bounds origin result :=
  h.mono_on (fun _ _ _ _ => trivial) (fun c d _ => hstep c d) trivial

section Loop

variable {step : Cursor → Option Cursor} {bounds : Bounds} {origin : Cursor}

/-- A loop that may not go on has used up its bound. -/
theorem repeats_of_not_allowsAnother {count : UInt32} {made : Nat}
    {current : Cursor} (climb : Climbs (step · = some ·) made origin current)
    (htally : Tallies count made)
    (hmade : ∀ limit ∈ bounds.most, made ≤ limit.toNat)
    (hallows : ¬ bounds.allowsAnother count = true) :
    Repeats (step · = some ·) bounds origin
      (if bounds.least ≤ count then current.succeed else origin.fail) := by
  rw [Bounds.allowsAnother_iff_hasRoom htally, Bounds.not_hasRoom_iff]
    at hallows
  obtain ⟨limit, hmost, hle⟩ := hallows
  have hlimit : limit.toNat = made := Nat.le_antisymm hle (hmade limit hmost)
  have hleast := bounds.least_toNat_le hmost
  rw [if_pos ((htally.le_iff bounds.least).2 (hlimit ▸ hleast))]
  exact .full hmost (hlimit ▸ climb)

/-- A loop that has come from the origin in so many moves, with a count that
tallies them, ends in one of the outcomes. -/
theorem repeats_of_iterate {calls : Nat} {count : UInt32} {made : Nat}
    {current : Cursor} {progress : Progress}
    (climb : Climbs (step · = some ·) made origin current)
    (htally : Tallies count made)
    (hmade : ∀ limit ∈ bounds.most, made ≤ limit.toNat)
    (h : iterate step bounds calls count current = some progress) :
    Repeats (step · = some ·) bounds origin
      (if bounds.least ≤ progress.count then progress.cursor.succeed
        else origin.fail) := by
  induction calls generalizing count made current with
  | zero =>
      rw [iterate] at h
      by_cases hallows : bounds.allowsAnother count = true
      · simp [hallows] at h
      · obtain rfl : _ = progress := by simpa [hallows] using h
        exact repeats_of_not_allowsAnother climb htally hmade hallows
  | succ calls ih =>
      rw [iterate] at h
      by_cases hallows : bounds.allowsAnother count = true
      · have hroom := (Bounds.allowsAnother_iff_hasRoom htally).1 hallows
        rw [if_pos hallows] at h
        cases hnext : step current with
        | none => simp [hnext] at h
        | some next =>
            simp only [hnext] at h
            by_cases hsuccess : next.success = true
            · by_cases hstays : next.position = current.position
              · obtain rfl : _ = progress := by simpa [hsuccess, hstays] using h
                rw [if_pos (bounds.least_le_max (countUp count))]
                exact .stalled climb hroom hnext hsuccess hstays
              · rw [if_pos hsuccess, if_neg hstays] at h
                exact ih (climb.snoc hnext hsuccess hstays) htally.countUp
                  (fun limit hmost => hroom limit hmost) h
            · obtain rfl : _ = progress := by simpa [hsuccess] using h
              have hfails : next.success = false := by simpa using hsuccess
              by_cases henough : bounds.least ≤ count
              · rw [if_pos henough]
                exact .enough climb hroom hnext hfails
                  ((htally.le_iff bounds.least).1 henough)
              · rw [if_neg henough]
                rw [htally.le_iff bounds.least, Nat.not_le] at henough
                exact .short climb hroom hnext hfails henough
      · obtain rfl : _ = progress := by simpa [hallows] using h
        exact repeats_of_not_allowsAnother climb htally hmade hallows

theorem repeats_of_greedy {limit : Nat} {result : Cursor}
    (h : greedy step bounds limit origin = some result) :
    Repeats (step · = some ·) bounds origin result := by
  obtain ⟨progress, hprogress, rfl⟩ := Option.map_eq_some_iff.1 h
  exact repeats_of_iterate (.refl origin) tallies_zero
    (fun _ _ => Nat.zero_le _) hprogress

/-- A loop that is granted calls enough gets to the end of a climb for which
there is room. -/
theorem Climbs.iterate_eq {moves : Nat} {c e : Cursor}
    (climb : Climbs (step · = some ·) moves c e) {count : UInt32} {made : Nat}
    (htally : Tallies count made)
    (hroom : ∀ limit ∈ bounds.most, made + moves ≤ limit.toNat) :
    ∃ count', Tallies count' (made + moves) ∧ ∀ calls,
      iterate step bounds (moves + calls) count c =
        iterate step bounds calls count' e := by
  induction climb generalizing count made with
  | refl c => exact ⟨count, htally, fun calls => by rw [Nat.zero_add]⟩
  | @move moves c d e hstep hsuccess hmoves rest ih =>
      have hfirst : bounds.HasRoom made := by
        intro limit hmost
        have := hroom limit hmost
        omega
      obtain ⟨count', htally', hiterate⟩ := ih htally.countUp (by
        intro limit hmost
        have := hroom limit hmost
        omega)
      refine ⟨count', by rwa [Nat.add_right_comm] at htally', ?_⟩
      intro calls
      rw [Nat.add_right_comm, iterate,
        if_pos ((Bounds.allowsAnother_iff_hasRoom htally).2 hfirst), hstep]
      simp only [hsuccess, hmoves, if_true, if_false]
      exact hiterate calls

theorem Bounds.exists_calls_eq {moves : Nat} (hroom : bounds.HasRoom moves) :
    ∃ calls, bounds.calls (moves + 1) = moves + (calls + 1) := by
  rw [Bounds.calls]
  cases hmost : bounds.most with
  | none => exact ⟨0, rfl⟩
  | some limit =>
      have hlt := hroom limit hmost
      exact ⟨limit.toNat - (moves + 1), by simp only; omega⟩

/-- After a climb that leaves room the loop calls the step once more. -/
theorem Climbs.greedy_eq {moves : Nat} {e d : Cursor}
    (climb : Climbs (step · = some ·) moves origin e)
    (hroom : bounds.HasRoom moves) (hstep : step e = some d)
    (hstops : d.success = true → d.position = e.position) :
    ∃ count, Tallies count moves ∧ greedy step bounds (moves + 1) origin =
      if d.success = true ∨ bounds.least ≤ count then some e.succeed
        else some origin.fail := by
  obtain ⟨count, htally, hiterate⟩ := climb.iterate_eq tallies_zero
    (fun limit hmost => by
      rw [Nat.zero_add]; exact Nat.le_of_lt (hroom limit hmost))
  rw [Nat.zero_add] at htally
  obtain ⟨calls, hcalls⟩ := Bounds.exists_calls_eq hroom
  refine ⟨count, htally, ?_⟩
  rw [greedy, hcalls, hiterate, iterate,
    if_pos ((Bounds.allowsAnother_iff_hasRoom htally).2 hroom), hstep]
  by_cases hsuccess : d.success = true
  · simp [hsuccess, hstops hsuccess, bounds.least_le_max]
  · by_cases henough : bounds.least ≤ count <;> simp [hsuccess, henough]

theorem Climbs.greedy_eq_of_full {limit : UInt32} {e : Cursor}
    (hmost : bounds.most = some limit)
    (climb : Climbs (step · = some ·) limit.toNat origin e) (rounds : Nat) :
    greedy step bounds rounds origin = some e.succeed := by
  obtain ⟨count, htally, hiterate⟩ := climb.iterate_eq tallies_zero
    (fun limit' hmost' => by simp [Option.mem_unique hmost hmost'])
  rw [Nat.zero_add] at htally
  have hfull : ¬ bounds.allowsAnother count = true := by
    rw [Bounds.allowsAnother_iff_hasRoom htally]
    exact Bounds.not_hasRoom_iff.2 ⟨limit, hmost, Nat.le_refl _⟩
  have henough := (htally.le_iff bounds.least).2 (bounds.least_toNat_le hmost)
  have hcalls : bounds.calls rounds = limit.toNat + 0 := by
    rw [Bounds.calls, hmost, Nat.add_zero]
  rw [greedy, hcalls, hiterate, iterate, if_neg hfull, Option.map_some,
    if_pos henough]

/-- An outcome that uses up the bound is returned whatever the limit on rounds
is; any other is returned within one round more than the moves after which the
repetition stops. -/
theorem Repeats.exists_greedy_eq {result : Cursor}
    (h : Repeats (step · = some ·) bounds origin result) :
    (∀ limit, greedy step bounds limit origin = some result) ∨
      ∃ moves e, Climbs (step · = some ·) moves origin e ∧
        Stops (step · = some ·) e ∧
        greedy step bounds (moves + 1) origin = some result := by
  cases h with
  | full hmost climb => exact .inl (climb.greedy_eq_of_full hmost)
  | @stalled moves e d climb hroom hstep hsuccess hstays =>
      obtain ⟨count, _, hgreedy⟩ :=
        climb.greedy_eq hroom hstep (fun _ => hstays)
      exact .inr ⟨moves, e, climb, ⟨d, hstep, fun _ => hstays⟩,
        by rw [hgreedy, if_pos (.inl hsuccess)]⟩
  | @enough moves e d climb hroom hstep hfails henough =>
      obtain ⟨count, htally, hgreedy⟩ :=
        climb.greedy_eq hroom hstep (by simp [hfails])
      have hle := (htally.le_iff bounds.least).2 henough
      exact .inr ⟨moves, e, climb, ⟨d, hstep, by simp [hfails]⟩,
        by rw [hgreedy, if_pos (.inr hle)]⟩
  | @short moves e d climb hroom hstep hfails hshort =>
      obtain ⟨count, htally, hgreedy⟩ :=
        climb.greedy_eq hroom hstep (by simp [hfails])
      have hlt : ¬ bounds.least ≤ count := by
        rw [htally.le_iff bounds.least]
        exact Nat.not_le_of_lt hshort
      exact .inr ⟨moves, e, climb, ⟨d, hstep, by simp [hfails]⟩,
        by rw [hgreedy, if_neg (by simp [hfails, hlt])]⟩

/-- The loop returns just the outcomes of the repetition, given rounds
enough. -/
theorem exists_greedy_eq_some_iff {result : Cursor} :
    (∃ limit, greedy step bounds limit origin = some result) ↔
      Repeats (step · = some ·) bounds origin result := by
  constructor
  · rintro ⟨limit, h⟩
    exact repeats_of_greedy h
  · intro h
    rcases h.exists_greedy_eq with hgreedy | ⟨moves, _, _, _, hgreedy⟩
    · exact ⟨0, hgreedy 0⟩
    · exact ⟨moves + 1, hgreedy⟩

end Loop

end TextPattern
