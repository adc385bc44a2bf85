import TextPattern.Log.Logged

/-!
How often a repetition may run: at least `least` times, and at most `most` times
if that is given.
-/

namespace TextPattern

/-- Repetition bounds that some number of repetitions meets. -/
structure Bounds where
  least : UInt32
  most : Option UInt32
  least_le_most : ∀ limit ∈ most, least ≤ limit
  deriving DecidableEq

namespace Bounds

def Allows (bounds : Bounds) (count : Nat) : Prop :=
  bounds.least.toNat ≤ count ∧ ∀ limit ∈ bounds.most, count ≤ limit.toNat

def any : Bounds := ⟨0, none, nofun⟩

def exactly (count : UInt32) : Bounds :=
  ⟨count, some count, fun _ h => Option.some.inj h ▸ UInt32.le_refl count⟩

def atLeast (least : UInt32) : Bounds := ⟨least, none, nofun⟩

def atMost (limit : UInt32) : Bounds :=
  ⟨0, some limit, fun _ _ => UInt32.zero_le⟩

/-- The bounds with the given ends; refused if they contradict each other. -/
def ofEnds (least : UInt32) : Option UInt32 → Attempt PatternError Bounds
  | none => pure (atLeast least)
  | some limit =>
      if h : least ≤ limit then
        pure ⟨least, some limit, fun _ hlimit => Option.some.inj hlimit ▸ h⟩
      else Attempt.reject (.invalidBounds least limit)

/-- Whether one more repetition may run after so many. -/
def allowsAnother (bounds : Bounds) (count : UInt32) : Bool :=
  match bounds.most with
  | none => true
  | some limit => count < limit

/-- How the bounds are printed: equal ends as one number, and an end that says
nothing not at all. -/
def written (bounds : Bounds) : List Char :=
  match bounds.most with
  | some limit =>
      if bounds.least = limit then countDigits limit
      else if bounds.least = 0 then "..=".toList ++ countDigits limit
      else countDigits bounds.least ++ "..=".toList ++ countDigits limit
  | none =>
      if bounds.least = 0 then "..".toList
        else countDigits bounds.least ++ "..".toList

/-- Bounds are accepted just as they were asked for. -/
theorem outcome_ofEnds_eq_ok_iff {least : UInt32} {most : Option UInt32}
    {bounds : Bounds} :
    (ofEnds least most).outcome = .ok bounds ↔
      bounds.least = least ∧ bounds.most = most := by
  obtain ⟨least', most', hle⟩ := bounds
  cases most with
  | none =>
      simp only [ofEnds, atLeast, Attempt.outcome_pure, Except.ok.injEq,
        mk.injEq]
      exact ⟨fun h => ⟨h.1.symm, h.2.symm⟩, fun h => ⟨h.1.symm, h.2.symm⟩⟩
  | some limit =>
      unfold ofEnds
      by_cases h : least ≤ limit
      · simp only [dif_pos h, Attempt.outcome_pure, Except.ok.injEq, mk.injEq]
        exact ⟨fun h => ⟨h.1.symm, h.2.symm⟩, fun h => ⟨h.1.symm, h.2.symm⟩⟩
      · simp only [dif_neg h, Attempt.outcome_reject, reduceCtorEq, false_iff]
        rintro ⟨rfl, rfl⟩
        exact h (hle limit rfl)

/-- Bounds are refused just when their ends contradict each other. -/
theorem outcome_ofEnds_eq_error_iff {least : UInt32} {most : Option UInt32}
    {error : PatternError} :
    (ofEnds least most).outcome = .error error ↔
      ∃ limit, most = some limit ∧ limit < least ∧
        error = .invalidBounds least limit := by
  cases most with
  | none => simp [ofEnds]
  | some limit =>
      unfold ofEnds
      by_cases h : least ≤ limit
      · simp [dif_pos h, UInt32.not_lt.2 h]
      · simp [dif_neg h, UInt32.not_le.1 h, eq_comm]

end Bounds

end TextPattern
