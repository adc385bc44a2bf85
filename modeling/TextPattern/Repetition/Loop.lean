import TextPattern.Matcher
import TextPattern.Repetition.Bounds

/-!
Greedy repetition of a step. The loop counts in 32 bits and stops counting at
the greatest count; a success that does not move ends it, since the step would
succeed there for ever, and is credited with all the repetitions that are still
owed. Main statements: a call limit that suffices may be raised
(`greedy_of_le`), and for steps that go forward one more call than there are
bytes left to read suffices (`greedy_isSome`).
-/

namespace TextPattern

/-- The next count, or the same one if there is no next. -/
def countUp (count : UInt32) : UInt32 :=
  if count = 4294967295 then count else count + 1

/-- Where a loop stopped: the repetitions credited and the last cursor kept. -/
structure Progress where
  count : UInt32
  cursor : Cursor

/-- Repeats a step while the bounds allow it and the step succeeds and moves;
`none` if that takes more calls of the step than are granted. -/
def iterate (step : Cursor → Option Cursor) (bounds : Bounds) :
    Nat → UInt32 → Cursor → Option Progress
  | 0, count, current =>
      if bounds.allowsAnother count then none else some ⟨count, current⟩
  | calls + 1, count, current =>
      if bounds.allowsAnother count then
        match step current with
        | none => none
        | some next =>
            if next.success then
              if next.position = current.position then
                some ⟨max (countUp count) bounds.least, current⟩
              else iterate step bounds calls (countUp count) next
            else some ⟨count, current⟩
      else some ⟨count, current⟩

/-- The calls of the step that a loop is granted: as many as the upper bound
allows, or as many as the limit says if there is none. -/
def Bounds.calls (bounds : Bounds) (limit : Nat) : Nat :=
  match bounds.most with
  | none => limit
  | some most => most.toNat

/-- Takes as many repetitions of the step as the bounds allow and gives none
back; too few of them are a failure where the loop began. `none` if an unbounded
loop takes more calls than the limit. -/
def greedy (step : Cursor → Option Cursor) (bounds : Bounds) (limit : Nat)
    (origin : Cursor) : Option Cursor :=
  (iterate step bounds (bounds.calls limit) 0 origin).map fun progress =>
    if bounds.least ≤ progress.count then progress.cursor.succeed
      else origin.fail

theorem toNat_countUp (count : UInt32) :
    (countUp count).toNat = min (count.toNat + 1) 4294967295 := by
  have hlt := count.toNat_lt
  unfold countUp
  split
  · next h => subst h; decide
  · next h =>
      have : count.toNat ≠ 4294967295 := fun heq => h (UInt32.toNat_inj.1 heq)
      rw [UInt32.toNat_add]
      simp
      omega

/-- A loop that ends goes on to end with more calls granted, and with a step
that answers more. -/
theorem iterate_of_le {step step' : Cursor → Option Cursor} {bounds : Bounds}
    (hstep : ∀ c r, step c = some r → step' c = some r) {calls calls' : Nat}
    (hle : calls ≤ calls') {count : UInt32} {current : Cursor}
    {progress : Progress}
    (h : iterate step bounds calls count current = some progress) :
    iterate step' bounds calls' count current = some progress := by
  induction calls generalizing calls' count current with
  | zero =>
      by_cases hallows : bounds.allowsAnother count = true
      · simp [iterate, hallows] at h
      · cases calls' with
        | zero => simpa [iterate, hallows] using h
        | succ calls' => simpa [iterate, hallows] using h
  | succ calls ih =>
      cases calls' with
      | zero => omega
      | succ calls' =>
          by_cases hallows : bounds.allowsAnother count = true
          · simp only [iterate, hallows, if_true] at h ⊢
            cases hnext : step current with
            | none => simp [hnext] at h
            | some next =>
                simp only [hnext, hstep current next hnext] at h ⊢
                split at h
                · next hsuccess =>
                    split at h
                    · next hstays => rwa [if_pos hsuccess, if_pos hstays]
                    · next hmoves =>
                        rw [if_pos hsuccess, if_neg hmoves]
                        exact ih (Nat.le_of_succ_le_succ hle) h
                · next hfailed => rwa [if_neg hfailed]
          · simpa [iterate, hallows] using h

theorem Bounds.calls_le_calls (bounds : Bounds) {limit limit' : Nat}
    (h : limit ≤ limit') : bounds.calls limit ≤ bounds.calls limit' := by
  unfold Bounds.calls
  split
  · exact h
  · exact Nat.le_refl _

theorem greedy_of_le {step step' : Cursor → Option Cursor} {bounds : Bounds}
    (hstep : ∀ c r, step c = some r → step' c = some r) {limit limit' : Nat}
    (hle : limit ≤ limit') {origin result : Cursor}
    (h : greedy step bounds limit origin = some result) :
    greedy step' bounds limit' origin = some result := by
  obtain ⟨progress, hprogress, rfl⟩ := Option.map_eq_some_iff.1 h
  rw [greedy, iterate_of_le hstep (bounds.calls_le_calls hle) hprogress]
  rfl

/-- A loop of steps that go forward keeps the text and does not move nearer to
the front. -/
theorem iterate_forward {step : Cursor → Option Cursor} {bounds : Bounds}
    (hforward : ∀ c r, step c = some r → c.Forward r) {calls : Nat}
    {count : UInt32} {current : Cursor} {progress : Progress}
    (h : iterate step bounds calls count current = some progress) :
    progress.cursor.chars = current.chars ∧
      current.position ≤ progress.cursor.position := by
  induction calls generalizing count current with
  | zero =>
      unfold iterate at h
      split at h
      · contradiction
      · obtain rfl := Option.some.inj h
        exact ⟨rfl, Nat.le_refl _⟩
  | succ calls ih =>
      unfold iterate at h
      split at h
      · split at h
        · contradiction
        · next next hnext =>
            split at h
            · next hsuccess =>
                split at h
                · obtain rfl := Option.some.inj h
                  exact ⟨rfl, Nat.le_refl _⟩
                · obtain ⟨hchars, hle⟩ := ih h
                  obtain ⟨hchars', hle'⟩ := hforward _ _ hnext hsuccess
                  exact ⟨hchars.trans hchars', Nat.le_trans hle' hle⟩
            · obtain rfl := Option.some.inj h
              exact ⟨rfl, Nat.le_refl _⟩
      · obtain rfl := Option.some.inj h
        exact ⟨rfl, Nat.le_refl _⟩

theorem greedy_forward {step : Cursor → Option Cursor} {bounds : Bounds}
    (hforward : ∀ c r, step c = some r → c.Forward r) {limit : Nat}
    {origin result : Cursor}
    (h : greedy step bounds limit origin = some result) :
    origin.Forward result := by
  obtain ⟨progress, hprogress, rfl⟩ := Option.map_eq_some_iff.1 h
  obtain ⟨hchars, hle⟩ := iterate_forward hforward hprogress
  split
  · exact fun _ => ⟨hchars, hle⟩
  · exact fun hsuccess => absurd hsuccess (by simp)

/-- A loop of forward steps ends if it is granted more calls than there are
bytes left to read, or as many as the upper bound still allows. -/
theorem iterate_isSome {step : Cursor → Option Cursor} {bounds : Bounds}
    {bytes : Nat} (hstep : ∀ c, utf8Length c.ahead ≤ bytes → (step c).isSome)
    (hforward : ∀ c r, step c = some r → c.Forward r) {calls : Nat}
    {count : UInt32} {current : Cursor}
    (hbytes : utf8Length current.ahead ≤ bytes)
    (hcalls : utf8Length current.ahead < calls ∨
      ∃ most, bounds.most = some most ∧ most.toNat ≤ count.toNat + calls) :
    (iterate step bounds calls count current).isSome := by
  induction calls generalizing count current with
  | zero =>
      unfold iterate
      split
      · next hallows =>
          rcases hcalls with hcalls | ⟨most, hmost, hle⟩
          · omega
          · simp only [Bounds.allowsAnother, hmost, decide_eq_true_eq]
              at hallows
            have := UInt32.lt_iff_toNat_lt.1 hallows
            omega
      · rfl
  | succ calls ih =>
      unfold iterate
      split
      · next hallows =>
          obtain ⟨next, hnext⟩ :=
            Option.isSome_iff_exists.1 (hstep current hbytes)
          rw [hnext]
          simp only
          split
          · next hsuccess =>
              split
              · rfl
              · next hmoves =>
                  have ⟨htotal, hle⟩ :=
                    (hforward _ _ hnext).utf8Length_ahead hsuccess
                  apply ih (by omega)
                  rcases hcalls with hcalls | ⟨most, hmost, hle⟩
                  · exact .inl (by omega)
                  · refine .inr ⟨most, hmost, ?_⟩
                    simp only [Bounds.allowsAnother, hmost, decide_eq_true_eq]
                      at hallows
                    have := UInt32.lt_iff_toNat_lt.1 hallows
                    have := most.toNat_lt
                    rw [toNat_countUp]
                    omega
          · rfl
      · rfl

theorem greedy_isSome {step : Cursor → Option Cursor} {bounds : Bounds}
    {limit : Nat} (hstep : ∀ c, utf8Length c.ahead < limit → (step c).isSome)
    (hforward : ∀ c r, step c = some r → c.Forward r) {origin : Cursor}
    (hlimit : utf8Length origin.ahead < limit) :
    (greedy step bounds limit origin).isSome := by
  rw [greedy, Option.isSome_map]
  apply iterate_isSome (fun c hc => hstep c (Nat.lt_of_le_of_lt hc hlimit))
    hforward (Nat.le_refl _)
  unfold Bounds.calls
  split
  · exact .inl hlimit
  · next most hmost => exact .inr ⟨most, hmost, by omega⟩

end TextPattern
