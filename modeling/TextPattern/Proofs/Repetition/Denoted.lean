import Mathlib.Order.Interval.Set.Basic
import TextPattern.Proofs.Repetition.Spelling
import TextPattern.Recipe

/-!
The numbers of repetitions that a count stands for. `CountRecipe.Denotes` reads
each way of writing a count as a set of natural numbers, without converting it;
the bounds made of the count are ends in 32 bits, and an excluded end has to be
turned into an included one. Main statement: the bounds allow just the numbers
in the set, and are refused just if there are none, so ways of writing the same
set build the same repetition (`CountRecipe.bounds_denoted`).
-/

namespace TextPattern

/-- The numbers from a lower end on; an absent one is no restriction. -/
def countsFrom : Option UInt32 → Set Nat
  | none => Set.univ
  | some least => Set.Ici least.toNat

def UpperEnd.counts : UpperEnd → Set Nat
  | excluded limit => Set.Iio limit.toNat
  | included limit => Set.Iic limit.toNat
  | unbounded => Set.univ

def countsBetween (least : UInt32) : Option UInt32 → Set Nat
  | none => Set.Ici least.toNat
  | some most => Set.Icc least.toNat most.toNat

/-- The set of numbers that a way of saying how often stands for. A text that
does not spell bounds stands for no set. -/
inductive CountRecipe.Denotes : CountRecipe → Set Nat → Prop
  | exactly (count : UInt32) : Denotes (.given (.exactly count)) {count.toNat}
  | range (lower : Option UInt32) (upper : UpperEnd) :
      Denotes (.given (.range lower upper)) (countsFrom lower ∩ upper.counts)
  | spelled {source : String} {least most : Option UInt32}
      (hspells : Spells source least most) :
      Denotes (.given (.spelled source)) (countsBetween (least.getD 0) most)
  | given (bounds : Bounds) :
      Denotes (.given (.given bounds)) (countsBetween bounds.least bounds.most)
  | ends (least : UInt32) (most : Option UInt32) :
      Denotes (.ends least most) (countsBetween least most)
  | reading {source : String} {least most : Option UInt32}
      (hspells : Spells source least most) :
      Denotes (.reading source) (countsBetween (least.getD 0) most)

/-- The way of saying how often names no upper limit. -/
def CountRecipe.Unlimited : CountRecipe → Prop
  | given (.exactly _) => False
  | given (.range _ upper) => upper = .unbounded
  | given (.spelled source) => ∃ least, Spells source least none
  | given (.given bounds) => bounds.most = none
  | ends _ most => most = none
  | reading source => ∃ least, Spells source least none

section Between

variable {least : UInt32} {most : Option UInt32} {bounds bounds' : Bounds}

theorem mem_countsBetween {count : Nat} : count ∈ countsBetween least most ↔
    least.toNat ≤ count ∧ ∀ limit ∈ most, count ≤ limit.toNat := by
  cases most <;> simp [countsBetween]

theorem nonempty_countsBetween_iff :
    (countsBetween least most).Nonempty ↔ ∀ limit ∈ most, least ≤ limit := by
  cases most with
  | none => simp [countsBetween]
  | some most => simp [countsBetween, UInt32.le_iff_toNat_le]

theorem Bounds.countsBetween_eq (bounds : Bounds) :
    countsBetween bounds.least bounds.most = {count | bounds.Allows count} :=
  Set.ext fun _ => mem_countsBetween

/-- Bounds with the same numbers between their ends are the same bounds. -/
theorem Bounds.eq_of_countsBetween_eq
    (h : countsBetween bounds.least bounds.most =
      countsBetween bounds'.least bounds'.most) : bounds = bounds' := by
  obtain ⟨least, most, hle⟩ := bounds
  obtain ⟨least', most', hle'⟩ := bounds'
  have hmem (count : Nat) :
      count ∈ countsBetween least most ↔ count ∈ countsBetween least' most' :=
    Set.ext_iff.1 h count
  cases most with
  | none =>
      cases most' with
      | none =>
          simp only [countsBetween, Set.mem_Ici] at hmem
          have hleast := hmem least.toNat
          have hleast' := hmem least'.toNat
          obtain rfl : least = least' := UInt32.toNat_inj.1 (by omega)
          rfl
      | some limit' =>
          simp only [countsBetween, Set.mem_Ici, Set.mem_Icc] at hmem
          have hbeyond := hmem (least.toNat + limit'.toNat + 1)
          omega
  | some limit =>
      have hlimit := UInt32.le_iff_toNat_le.1 (hle limit rfl)
      cases most' with
      | none =>
          simp only [countsBetween, Set.mem_Ici, Set.mem_Icc] at hmem
          have hbeyond := hmem (least'.toNat + limit.toNat + 1)
          omega
      | some limit' =>
          have hlimit' := UInt32.le_iff_toNat_le.1 (hle' limit' rfl)
          simp only [countsBetween, Set.mem_Icc] at hmem
          have hleast := hmem least.toNat
          have hleast' := hmem least'.toNat
          have hmost := hmem limit.toNat
          have hmost' := hmem limit'.toNat
          obtain rfl : least = least' := UInt32.toNat_inj.1 (by omega)
          obtain rfl : limit = limit' := UInt32.toNat_inj.1 (by omega)
          rfl

/-- Two ends are accepted just if there is a number between them. -/
theorem Bounds.exists_outcome_ofEnds_eq_ok_iff :
    (∃ bounds, (Bounds.ofEnds least most).outcome = .ok bounds) ↔
      (countsBetween least most).Nonempty := by
  rw [nonempty_countsBetween_iff]
  constructor
  · rintro ⟨bounds, h⟩
    obtain ⟨rfl, rfl⟩ := Bounds.outcome_ofEnds_eq_ok_iff.1 h
    exact bounds.least_le_most
  · intro h
    exact ⟨⟨least, most, h⟩, Bounds.outcome_ofEnds_eq_ok_iff.2 ⟨rfl, rfl⟩⟩

theorem Bounds.exists_outcome_ofEnds_eq_error
    (h : countsBetween least most = ∅) :
    ∃ limit,
      (Bounds.ofEnds least most).outcome =
        .error (.invalidBounds least limit) ∧ limit < least := by
  cases most with
  | none => exact absurd h Set.nonempty_Ici.ne_empty
  | some limit =>
      have hlt : limit < least := by
        simpa [countsBetween, Set.Icc_eq_empty_iff, UInt32.lt_iff_toNat_lt]
          using h
      exact ⟨limit, Bounds.outcome_ofEnds_eq_error_iff.2 ⟨limit, rfl, hlt, rfl⟩,
        hlt⟩

end Between

section Conversion

variable {recipe : CountRecipe} {counts : Set Nat}

theorem Count.outcome_bounds_given (bounds : Bounds) :
    (Count.given bounds).bounds.outcome = .ok bounds :=
  Bounds.outcome_ofEnds_eq_ok_iff.2 ⟨rfl, rfl⟩

theorem CountRecipe.outcome_bounds_given (count : Count) :
    (CountRecipe.given count).bounds.outcome = count.bounds.outcome := by
  rw [bounds, make, Attempt.outcome_bind]
  rfl

/-- Bounds that were made once are not refused afterwards. -/
theorem outcome_bounds_of_made (attempt : Attempt PatternError Bounds) :
    ((Count.given <$> attempt) >>= Count.bounds).outcome = attempt.outcome := by
  rw [bind_map_left, Attempt.outcome_bind]
  cases attempt.outcome with
  | error error => rfl
  | ok bounds => exact Count.outcome_bounds_given bounds

theorem toNat_max (first second : UInt32) :
    (max first second).toNat = max first.toNat second.toNat := by
  change (if first ≤ second then second else first).toNat = _
  simp only [UInt32.le_iff_toNat_le]
  split <;> omega

/-- An excluded end is the included end before it; zero, which has none before
it, is refused. -/
theorem Count.bounds_excluded (lower : Option UInt32) (limit : UInt32) :
    (∃ most : UInt32, most.toNat + 1 = limit.toNat ∧
      (Count.range lower (.excluded limit)).bounds =
        (Count.range lower (.included most)).bounds) ∨
    limit = 0 ∧ ∃ least : UInt32, least.toNat = max (lower.getD 0).toNat 1 ∧
      (Count.range lower (.excluded limit)).bounds =
        Bounds.ofEnds least (some 0) := by
  by_cases hzero : limit = 0
  · subst hzero
    exact .inr ⟨rfl, max (lower.getD 0) 1, toNat_max _ _, rfl⟩
  · have hpos : limit.toNat ≠ 0 := fun h => hzero (UInt32.toNat_inj.1 h)
    have hle : 1 ≤ limit :=
      UInt32.le_iff_toNat_le.2 (Nat.one_le_iff_ne_zero.2 hpos)
    refine .inl ⟨limit - 1, ?_, ?_⟩
    · rw [UInt32.toNat_sub_of_le _ _ hle]
      exact Nat.sub_add_cancel (Nat.one_le_iff_ne_zero.2 hpos)
    · simp only [bounds, if_neg hzero]

theorem countsFrom_eq (lower : Option UInt32) :
    countsFrom lower = Set.Ici (lower.getD 0).toNat := by
  cases lower with
  | none => exact (Set.eq_univ_of_forall fun count => Nat.zero_le count).symm
  | some least => rfl

/-- Whatever stands for a set of numbers asks for the bounds with some ends, and
the set is what lies between them. -/
theorem CountRecipe.Denotes.exists_ends (h : recipe.Denotes counts) :
    ∃ least most, recipe.bounds.outcome = (Bounds.ofEnds least most).outcome ∧
      counts = countsBetween least most ∧ (most = none ↔ recipe.Unlimited) := by
  cases h with
  | exactly count =>
      refine ⟨count, some count, ?_, (Set.Icc_self _).symm, by simp [Unlimited]⟩
      rw [outcome_bounds_given]
      exact (Bounds.outcome_ofEnds_eq_ok_iff.2 ⟨rfl, rfl⟩).symm
  | range lower upper =>
      rw [outcome_bounds_given, countsFrom_eq]
      cases upper with
      | excluded limit =>
          rcases Count.bounds_excluded lower limit with
            ⟨most, hmost, hbounds⟩ | ⟨rfl, least, hleast, hbounds⟩
          · refine ⟨lower.getD 0, some most, by rw [hbounds]; rfl,
              ?_, by simp [Unlimited]⟩
            ext count
            simp only [UpperEnd.counts, countsBetween, Set.mem_inter_iff,
              Set.mem_Ici, Set.mem_Iio, Set.mem_Icc]
            omega
          · refine ⟨least, some 0, by rw [hbounds], ?_, by simp [Unlimited]⟩
            have hzero : (0 : UInt32).toNat = 0 := rfl
            ext count
            simp only [UpperEnd.counts, countsBetween, Set.mem_inter_iff,
              Set.mem_Ici, Set.mem_Iio, Set.mem_Icc]
            omega
      | included limit =>
          exact ⟨lower.getD 0, some limit, rfl,
            Set.Ici_inter_Iic, by simp [Unlimited]⟩
      | unbounded =>
          exact ⟨lower.getD 0, none, rfl, Set.inter_univ _, by simp [Unlimited]⟩
  | @spelled source least most hspells =>
      refine ⟨least.getD 0, most, ?_, rfl, ?_⟩
      · rw [outcome_bounds_given]
        exact hspells.outcome_ofText
      · exact hspells.most_eq_none_iff
  | given bounds =>
      exact ⟨bounds.least, bounds.most, outcome_bounds_given _, rfl, Iff.rfl⟩
  | ends least most =>
      exact ⟨least, most, outcome_bounds_of_made _, rfl, Iff.rfl⟩
  | @reading source least most hspells =>
      refine ⟨least.getD 0, most, ?_, rfl, ?_⟩
      · exact (outcome_bounds_of_made _).trans hspells.outcome_ofText
      · exact hspells.most_eq_none_iff

theorem CountRecipe.Denotes.exists_outcome_eq_ok_iff
    (h : recipe.Denotes counts) :
    (∃ bounds, recipe.bounds.outcome = .ok bounds) ↔ counts.Nonempty := by
  obtain ⟨least, most, houtcome, rfl, _⟩ := h.exists_ends
  rw [houtcome]
  exact Bounds.exists_outcome_ofEnds_eq_ok_iff

/-- The bounds that are accepted are those that allow just the numbers in the
set. -/
theorem CountRecipe.Denotes.outcome_eq_ok_iff (h : recipe.Denotes counts)
    {bounds : Bounds} :
    recipe.bounds.outcome = .ok bounds ↔
      counts = {count | bounds.Allows count} := by
  rw [← bounds.countsBetween_eq]
  have hmeans {made : Bounds} (hmade : recipe.bounds.outcome = .ok made) :
      counts = countsBetween made.least made.most := by
    obtain ⟨least, most, houtcome, rfl, _⟩ := h.exists_ends
    obtain ⟨rfl, rfl⟩ :=
      Bounds.outcome_ofEnds_eq_ok_iff.1 (houtcome.symm.trans hmade)
    rfl
  constructor
  · exact hmeans
  · intro hcounts
    have hnonempty : counts.Nonempty := by
      rw [hcounts, nonempty_countsBetween_iff]
      exact bounds.least_le_most
    obtain ⟨made, hmade⟩ := h.exists_outcome_eq_ok_iff.2 hnonempty
    rw [hmade,
      Bounds.eq_of_countsBetween_eq ((hmeans hmade).symm.trans hcounts)]

theorem CountRecipe.Denotes.most_eq_none_iff (h : recipe.Denotes counts)
    {bounds : Bounds} (hbounds : recipe.bounds.outcome = .ok bounds) :
    bounds.most = none ↔ recipe.Unlimited := by
  obtain ⟨least, most, houtcome, _, hunlimited⟩ := h.exists_ends
  obtain ⟨_, rfl⟩ :=
    Bounds.outcome_ofEnds_eq_ok_iff.1 (houtcome.symm.trans hbounds)
  exact hunlimited

theorem CountRecipe.Denotes.exists_outcome_eq_error (h : recipe.Denotes counts)
    (hempty : counts = ∅) :
    ∃ least most, recipe.bounds.outcome = .error (.invalidBounds least most) ∧
      most < least := by
  obtain ⟨least, most, houtcome, rfl, _⟩ := h.exists_ends
  rw [houtcome]
  exact ⟨least, Bounds.exists_outcome_ofEnds_eq_error hempty⟩

end Conversion

section Building

variable {κ : Type} {manner : Manner} {definitions : List (Pattern κ)}
  {inner : Recipe κ} {recipe : CountRecipe} {counts : Set Nat} {p : Pattern κ}

/-- A repetition is built just if its inner pattern is and its count stands for
bounds. -/
theorem Recipe.outcome_build_repeated_iff :
    ((Recipe.repeated manner inner recipe).build definitions).outcome = .ok p ↔
      ∃ q bounds, (inner.build definitions).outcome = .ok q ∧
        recipe.bounds.outcome = .ok bounds ∧ p = q.repeated bounds := by
  rw [Recipe.build, Attempt.outcome_bind, CountRecipe.bounds,
    Attempt.outcome_bind]
  cases hinner : (inner.build definitions).outcome with
  | error failure => simp [Except.bind]
  | ok q =>
      simp only [Except.bind, Attempt.outcome_bind, Attempt.outcome_telling]
      cases hmake : recipe.make.outcome with
      | error error => simp [Except.mapError]
      | ok count =>
          simp only [Except.mapError]
          cases hbounds : count.bounds.outcome with
          | error error => simp
          | ok bounds => simp [eq_comm]

/-- What is built depends on the set of numbers alone. -/
theorem CountRecipe.Denotes.outcome_build_repeated_iff
    (h : recipe.Denotes counts) :
    ((Recipe.repeated manner inner recipe).build definitions).outcome = .ok p ↔
      ∃ q bounds, (inner.build definitions).outcome = .ok q ∧
        counts = {count | bounds.Allows count} ∧ p = q.repeated bounds := by
  simp only [Recipe.outcome_build_repeated_iff, h.outcome_eq_ok_iff]

end Building

/-- Whatever stands for a set of numbers is accepted just if the set is not
empty, and then it gives the one interval that the set is, open above just if no
upper limit was named; that interval is accepted again, and it is all that the
repetition built depends on. An empty set is refused with ends that contradict
each other. No end wraps around on the way: an excluded end is the included one
before it, and a range that ends before zero is refused as one that begins after
it. -/
theorem CountRecipe.bounds_denoted :
    (∀ (recipe : CountRecipe) (counts : Set Nat), recipe.Denotes counts →
      ((∃ bounds, recipe.bounds.outcome = .ok bounds) ↔ counts.Nonempty) ∧
      (∀ bounds, recipe.bounds.outcome = .ok bounds →
        (∀ most ∈ bounds.most, bounds.least ≤ most) ∧
        counts = {count | bounds.Allows count} ∧
        (bounds.most = none ↔ recipe.Unlimited) ∧
        (Count.given bounds).bounds.outcome = .ok bounds) ∧
      (counts = ∅ → ∃ least most,
        recipe.bounds.outcome = .error (.invalidBounds least most) ∧
          most < least) ∧
      ∀ (κ : Type) (manner : Manner) (definitions : List (Pattern κ))
        (inner : Recipe κ) (p : Pattern κ),
        ((Recipe.repeated manner inner recipe).build definitions).outcome =
            .ok p ↔
          ∃ q bounds, (inner.build definitions).outcome = .ok q ∧
            counts = {count | bounds.Allows count} ∧ p = q.repeated bounds) ∧
    (∀ (recipe recipe' : CountRecipe) (counts : Set Nat),
      recipe.Denotes counts → recipe'.Denotes counts →
      ∀ (κ : Type) (manner manner' : Manner) (definitions : List (Pattern κ))
        (inner : Recipe κ) (p : Pattern κ),
        ((Recipe.repeated manner inner recipe).build definitions).outcome =
            .ok p ↔
          ((Recipe.repeated manner' inner recipe').build definitions).outcome =
            .ok p) ∧
    ∀ (lower : Option UInt32) (limit : UInt32),
      (∃ most : UInt32, most.toNat + 1 = limit.toNat ∧
        (Count.range lower (.excluded limit)).bounds =
          (Count.range lower (.included most)).bounds) ∨
      limit = 0 ∧ ∃ least : UInt32, least.toNat = max (lower.getD 0).toNat 1 ∧
        (Count.range lower (.excluded limit)).bounds.outcome =
          .error (.invalidBounds least 0) := by
  refine ⟨?_, ?_, ?_⟩
  · intro recipe counts h
    refine ⟨h.exists_outcome_eq_ok_iff, ?_, h.exists_outcome_eq_error,
      fun κ manner definitions inner p => h.outcome_build_repeated_iff⟩
    intro bounds hbounds
    exact ⟨bounds.least_le_most, h.outcome_eq_ok_iff.1 hbounds,
      h.most_eq_none_iff hbounds, Count.outcome_bounds_given bounds⟩
  · intro recipe recipe' counts h h' κ manner manner' definitions inner p
    rw [h.outcome_build_repeated_iff, h'.outcome_build_repeated_iff]
  · intro lower limit
    refine (Count.bounds_excluded lower limit).imp_right ?_
    rintro ⟨hzero, least, hleast, hbounds⟩
    have hpos : 0 < least := by
      rw [UInt32.lt_iff_toNat_lt, hleast]
      exact Nat.lt_of_lt_of_le Nat.zero_lt_one (Nat.le_max_right _ _)
    refine ⟨hzero, least, hleast, ?_⟩
    rw [hbounds]
    exact Bounds.outcome_ofEnds_eq_error_iff.2 ⟨0, rfl, hpos, rfl⟩

/-- A range that excludes five and a padded text that ends at four stand for the
same three numbers and build the same repetition; a range that excludes the
number it begins with is refused. -/
theorem CountRecipe.bounds_denoted_spelled :
    let range : CountRecipe := .given (.range (some 2) (.excluded 5))
    let text : CountRecipe := .given (.spelled " 02 : 4 ")
    let nothing : CountRecipe := .given (.range (some 3) (.excluded 3))
    let p : Pattern Empty := .char 'é'
    let bounds : Bounds := ⟨2, some 4, by simp⟩
    (range.Denotes (Set.Icc 2 4) ∧ range.bounds.outcome = .ok bounds ∧
        Set.Icc 2 4 = {count | bounds.Allows count}) ∧
      (text.Denotes (Set.Icc 2 4) ∧
        ((Recipe.repeated .raised (.ready p) text).build []).outcome =
          .ok (p.repeated bounds)) ∧
      (nothing.Denotes ∅ ∧ ∃ least most,
        nothing.bounds.outcome = .error (.invalidBounds least most) ∧
          most < least) := by
  intro range text nothing p bounds
  have hrange : range.Denotes (Set.Icc 2 4) := by
    have hcounts :
        Set.Icc 2 4 = countsFrom (some 2) ∩ (UpperEnd.excluded 5).counts := by
      ext count
      exact and_congr_right fun _ => Nat.lt_succ_iff.symm
    rw [hcounts]
    exact .range (some 2) (.excluded 5)
  have htext : text.Denotes (Set.Icc 2 4) :=
    .spelled
      (spells_iff.2 ⟨[' ', '0', '2', ' '], [' ', '4', ' '], rfl, rfl, rfl⟩)
  have hnothing : nothing.Denotes ∅ := by
    have hcounts : ∅ = countsFrom (some 3) ∩ (UpperEnd.excluded 3).counts := by
      ext count
      exact iff_of_false id fun h => Nat.not_lt_of_le h.1 h.2
    rw [hcounts]
    exact .range (some 3) (.excluded 3)
  obtain ⟨hdenoted, hsame, _⟩ := CountRecipe.bounds_denoted
  have hbounds : range.bounds.outcome = .ok bounds := rfl
  have hnode := hsame range text _ hrange htext Empty .returned .raised []
    (.ready p)
  exact ⟨⟨hrange, hbounds, ((hdenoted range _ hrange).2.1 bounds hbounds).2.1⟩,
    ⟨htext, (hnode _).1 rfl⟩,
    ⟨hnothing, (hdenoted nothing ∅ hnothing).2.2.1 rfl⟩⟩

end TextPattern
