import TextPattern.Proofs.Pattern.Conduct

/-!
How many calls of its step a loop makes. The loop is granted calls and gives up
when they run out; `EndsAfter` says that it needs just so many of them. Each
call either ends the loop or moves it forward, by a byte at least, so the bytes
left to read bound the calls whether or not the bounds of the repetition do.
Main statement: a loop whose steps go forward ends after at most one call more
than there are bytes left to read, and never after more than its upper bound, so
that every pattern whose leaves go forward ends on every text (`loop_ends`).
-/

namespace TextPattern

section Loop

variable {step : Cursor → Option Cursor} {bounds : Bounds} {calls : Nat}
  {count : UInt32} {current next : Cursor} {progress : Progress}

/-- A loop that has come to a cursor with a count ends if it is granted so many
calls of its step more, and not if it is granted fewer. -/
def EndsAfter (step : Cursor → Option Cursor) (bounds : Bounds) (calls : Nat)
    (count : UInt32) (current : Cursor) (progress : Progress) : Prop :=
  ∀ granted, iterate step bounds granted count current =
    if calls ≤ granted then some progress else none

theorem endsAfter_of_full (hfull : ¬ bounds.allowsAnother count = true) :
    EndsAfter step bounds 0 count current ⟨count, current⟩ := by
  intro granted
  cases granted <;> simp [iterate, hfull]

theorem endsAfter_of_fails (hallows : bounds.allowsAnother count = true)
    (hstep : step current = some next) (hfails : next.success = false) :
    EndsAfter step bounds 1 count current ⟨count, current⟩ := by
  intro granted
  cases granted <;> simp [iterate, hallows, hstep, hfails]

theorem endsAfter_of_stays (hallows : bounds.allowsAnother count = true)
    (hstep : step current = some next) (hsuccess : next.success = true)
    (hstays : next.position = current.position) :
    EndsAfter step bounds 1 count current
      ⟨max (countUp count) bounds.least, current⟩ := by
  intro granted
  cases granted <;> simp [iterate, hallows, hstep, hsuccess, hstays]

theorem EndsAfter.of_moves (hallows : bounds.allowsAnother count = true)
    (hstep : step current = some next) (hsuccess : next.success = true)
    (hmoves : next.position ≠ current.position)
    (rest : EndsAfter step bounds calls (countUp count) next progress) :
    EndsAfter step bounds (calls + 1) count current progress := by
  intro granted
  cases granted with
  | zero => simp [iterate, hallows]
  | succ granted =>
      simp [iterate, hallows, hstep, hsuccess, hmoves, rest granted]

/-- While an upper bound allows another call, the count is exact and below
it. -/
theorem Bounds.toNat_countUp_le {limit : UInt32}
    (hmost : bounds.most = some limit)
    (hallows : bounds.allowsAnother count = true) :
    (countUp count).toNat = count.toNat + 1 ∧
      count.toNat + 1 ≤ limit.toNat := by
  simp only [Bounds.allowsAnother, hmost, decide_eq_true_eq] at hallows
  have hlt := UInt32.lt_iff_toNat_lt.1 hallows
  have hlimit := limit.toNat_lt
  rw [toNat_countUp]
  omega

theorem Bounds.one_le_sub (hallows : bounds.allowsAnother count = true) :
    ∀ limit ∈ bounds.most, 1 ≤ limit.toNat - count.toNat := by
  intro limit hmost
  have hle := (Bounds.toNat_countUp_le hmost hallows).2
  omega

/-- A loop of forward steps ends. What is left to read bounds its calls, and so
does what is left of the upper bound. -/
theorem exists_endsAfter {chars : List Char}
    (hends : ∀ d : Cursor, d.chars = chars → (step d).isSome)
    (hforward : ∀ d next, step d = some next → d.Forward next)
    (hchars : current.chars = chars) :
    ∃ calls progress, EndsAfter step bounds calls count current progress ∧
      calls ≤ utf8Length current.ahead + 1 ∧
      ∀ limit ∈ bounds.most, calls ≤ limit.toNat - count.toNat := by
  -- On the bytes left to read: a call after which the loop goes on has read at
  -- least one. The count would not do, since it stands still once it is
  -- saturated.
  induction hbytes : utf8Length current.ahead using Nat.strongRecOn
    generalizing count current with
  | ind bytes ih =>
      by_cases hallows : bounds.allowsAnother count = true
      · obtain ⟨next, hstep⟩ :=
          Option.isSome_iff_exists.1 (hends current hchars)
        have honce : 1 ≤ bytes + 1 := Nat.le_add_left 1 bytes
        cases hsuccess : next.success with
        | false =>
            exact ⟨1, _, endsAfter_of_fails hallows hstep hsuccess, honce,
              Bounds.one_le_sub hallows⟩
        | true =>
            by_cases hstays : next.position = current.position
            · exact ⟨1, _, endsAfter_of_stays hallows hstep hsuccess hstays,
                honce, Bounds.one_le_sub hallows⟩
            · have hnext := hforward current next hstep
              obtain ⟨htotal, hle⟩ := hnext.utf8Length_ahead hsuccess
              have hless : utf8Length next.ahead < bytes := by omega
              obtain ⟨calls, progress, hrest, hcalls, hleft⟩ :=
                ih _ hless ((hnext hsuccess).1.trans hchars) rfl
              refine ⟨calls + 1, progress,
                hrest.of_moves hallows hstep hsuccess hstays, by omega, ?_⟩
              intro limit hmost
              have hcount := Bounds.toNat_countUp_le hmost hallows
              have hcallsLeft := hleft limit hmost
              omega
      · exact ⟨0, _, endsAfter_of_full hallows, Nat.zero_le _,
          fun _ _ => Nat.zero_le _⟩

end Loop

theorem Cursor.advance_forward (c : Cursor) : c.Forward c.advance := by
  intro _
  refine ⟨c.chars_advance, ?_⟩
  cases hahead : c.ahead with
  | nil =>
      rw [advance_of_ahead_nil hahead]
      exact Nat.le_refl c.position
  | cons ch rest =>
      rw [position_advance_cons hahead]
      exact Nat.le_add_right c.position ch.utf8Size

/-- A loop whose steps end and whose successes stay on the text and do not go
back ends, whatever its bounds are and wherever its failures stand: after at
most one call more than there are bytes left to read, and never after more calls
than the upper bound. So every pattern ends on every text if its leaves are like
that, as the library's own are. -/
theorem loop_ends :
    (∀ (step : Cursor → Option Cursor) (bounds : Bounds) (c : Cursor),
      (∀ d, d.source = c.source → (step d).isSome) →
      (∀ d next, step d = some next → d.Forward next) →
      ∃ calls progress, EndsAfter step bounds calls 0 c progress ∧
        calls ≤ c.remaining.utf8ByteSize + 1 ∧
        ∀ limit ∈ bounds.most, calls ≤ limit.toNat) ∧
    ∀ (κ : Type) [Matcher κ],
      (∀ (value : κ) (c : Cursor), c.Forward (Matcher.run value c)) →
      ∀ (p : Pattern κ) (text : String),
        ∃ result, p.matchText text = some result := by
  constructor
  · intro step bounds c hends hforward
    have hendsChars (d : Cursor) (hchars : d.chars = c.chars) :
        (step d).isSome :=
      hends d (congrArg String.ofList hchars)
    obtain ⟨calls, progress, hafter, hbytes, hleft⟩ :=
      @exists_endsAfter step bounds 0 c c.chars hendsChars hforward rfl
    refine ⟨calls, progress, hafter, ?_, hleft⟩
    rwa [Cursor.remaining, utf8ByteSize_ofList]
  · intro κ _ hleaf p text
    have : ForwardMatcher κ := ⟨hleaf⟩
    exact ⟨_, p.matchText_eq_some text⟩

/-- A step that goes on succeeding at the end of the text, with as many
repetitions owed as can be; and repetitions within repetitions that can all stay
in place. -/
theorem loop_ends_advancing :
    let step (c : Cursor) : Option Cursor := some c.advance
    let c := Cursor.between ['a'] ['é', 'b'] false
    let nested :=
      (((Pattern.leaf Pattern.EndMark.mark).choice (.char 'é')).repeated
        .any).repeated (.atLeast 4294967295)
    (∀ d, d.source = c.source → (step d).isSome) ∧
      (∀ d next, step d = some next → d.Forward next) ∧
      (∃ calls progress,
        EndsAfter step (.atLeast 4294967295) calls 0 c progress ∧ calls ≤ 4) ∧
      ∃ result, nested.matchText "éb" = some result := by
  intro step c nested
  have hforward (d next : Cursor) (hstep : step d = some next) :
      d.Forward next :=
    Option.some.inj hstep ▸ d.advance_forward
  have hleaf (value : Pattern.EndMark) (c : Cursor) :
      c.Forward (Matcher.run value c) :=
    (Cursor.wellBehaved_iff_conducted.1
      (Pattern.endMark_wellBehaved value c)).forward
  obtain ⟨calls, progress, hafter, hcalls, _⟩ :=
    loop_ends.1 step (.atLeast 4294967295) c (fun _ _ => rfl) hforward
  exact ⟨fun _ _ => rfl, hforward, ⟨calls, progress, hafter, hcalls⟩,
    loop_ends.2 Pattern.EndMark hleaf nested "éb"⟩

end TextPattern
