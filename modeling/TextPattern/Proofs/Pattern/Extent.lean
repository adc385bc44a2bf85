import Mathlib.Order.Monotone.Basic
import TextPattern.Proofs.Pattern.Chain
import TextPattern.Proofs.Pattern.Nullable

/-!
How far a repetition goes. Its lower bound decides only whether it succeeds: it
does just if the repetitions that it owes can be made
(`CountedGreedy.success_iff`). Its upper bound alone decides where a success
ends: at the furthest place that so many matches in a row get to
(`CountedGreedy.exists_furthest`). Main statements: a repetition stops short of
a match that would read something only if it has used up its upper bound
(`matchCursor_repeated_maximal`), and where it succeeds it still does so with a
smaller lower bound, in the same place, and with a greater upper bound, no
nearer to the front (`matchCursor_repeated_monotone`).
-/

namespace TextPattern

section Chain

variable {f : Cursor → Cursor} {bounds bounds' : Bounds} {c d d' : Cursor}
  {made : Nat}

/-- So many steps of the chain succeed, and the upper bound has room for all of
them. -/
structure Bounds.Reaches (bounds : Bounds) (f : Cursor → Cursor) (c : Cursor)
    (made : Nat) : Prop where
  unbroken : Unbroken f made c
  le_most : ∀ limit ∈ bounds.most, made ≤ limit.toNat

/-- The upper bound of the first is not greater than that of the second. -/
def Bounds.EndsBefore (bounds bounds' : Bounds) : Prop :=
  ∀ limit' ∈ bounds'.most, ∃ limit ∈ bounds.most, limit ≤ limit'

theorem Bounds.endsBefore_of_most_eq (hmost : bounds.most = bounds'.most) :
    bounds.EndsBefore bounds' :=
  fun limit hlimit => ⟨limit, hmost ▸ hlimit, UInt32.le_refl limit⟩

theorem Bounds.Reaches.of_endsBefore (h : bounds.Reaches f c made)
    (hmost : bounds.EndsBefore bounds') : bounds'.Reaches f c made := by
  refine ⟨h.unbroken, fun limit' hlimit' => ?_⟩
  obtain ⟨limit, hlimit, hle⟩ := hmost limit' hlimit'
  exact Nat.le_trans (h.le_most limit hlimit) (UInt32.le_iff_toNat_le.1 hle)

theorem monotone_position_iterate (hconduct : ∀ c : Cursor, c.Conducted (f c))
    (c : Cursor) : Monotone fun i => (f^[i] c).position := by
  apply monotone_nat_of_le_succ
  intro i
  rw [Function.iterate_succ_apply']
  exact (hconduct _).position_le

/-- Greedy repetition succeeds just if the chain has as many successful steps as
are owed. -/
theorem CountedGreedy.success_iff (h : CountedGreedy f bounds c d) :
    d.success = true ↔ Unbroken f bounds.least.toNat c := by
  cases h with
  | unbroken hsucceeds _ _ =>
      refine ⟨fun _ i hi => hsucceeds i ?_, fun _ => Cursor.success_succeed _⟩
      intro limit hmost
      exact Nat.lt_of_lt_of_le hi (bounds.least_toNat_le hmost)
  | @broken made _ hsucceeds hfails =>
      by_cases henough : bounds.least.toNat ≤ made
      · rw [if_pos henough]
        exact ⟨fun _ i hi => hsucceeds i (Nat.lt_of_lt_of_le hi henough),
          fun _ => Cursor.success_succeed _⟩
      · rw [if_neg henough]
        exact ⟨fun hsuccess => absurd hsuccess (by simp),
          fun howed => absurd (howed.le_of_fails hfails) henough⟩

/-- A success ends at the furthest place that the chain reaches. -/
theorem CountedGreedy.exists_furthest
    (hconduct : ∀ c : Cursor, c.Conducted (f c))
    (h : CountedGreedy f bounds c d) (hsuccess : d.success = true) :
    ∃ made, bounds.Reaches f c made ∧ d = (f^[made] c).succeed ∧
      ∀ made', bounds.Reaches f c made' →
        (f^[made'] c).position ≤ d.position := by
  have hmono := monotone_position_iterate hconduct c
  cases h with
  | @unbroken last hsucceeds hlast hstays =>
      refine ⟨last, ⟨fun i hi => hsucceeds i ?_, hlast⟩, rfl,
        fun made' hreaches => ?_⟩
      · intro limit hmost
        exact Nat.lt_of_lt_of_le hi (hlast limit hmost)
      · have hbound : ∀ limit ∈ bounds.most, max last made' ≤ limit.toNat :=
          fun limit hmost =>
            Nat.max_le.2 ⟨hlast limit hmost, hreaches.le_most limit hmost⟩
        calc (f^[made'] c).position
            ≤ (f^[max last made'] c).position :=
              hmono (Nat.le_max_right last made')
          _ = (f^[last] c).position :=
            hstays _ (Nat.le_max_left last made') hbound
  | @broken made hroom hsucceeds hfails =>
      by_cases henough : bounds.least.toNat ≤ made
      · rw [if_pos henough]
        have hreaches : bounds.Reaches f c made :=
          ⟨hsucceeds, fun limit hmost => Nat.le_of_lt (hroom limit hmost)⟩
        exact ⟨made, hreaches, rfl,
          fun made' hreaches' => hmono (hreaches'.unbroken.le_of_fails hfails)⟩
      · rw [if_neg henough] at hsuccess
        contradiction

/-- Of two successes, the one with the greater upper bound ends no nearer to the
front. -/
theorem CountedGreedy.position_le_position
    (hconduct : ∀ c : Cursor, c.Conducted (f c))
    (hmost : bounds.EndsBefore bounds') (h : CountedGreedy f bounds c d)
    (hsuccess : d.success = true) (h' : CountedGreedy f bounds' c d')
    (hsuccess' : d'.success = true) : d.position ≤ d'.position := by
  obtain ⟨made, hreaches, rfl, _⟩ := h.exists_furthest hconduct hsuccess
  obtain ⟨_, _, _, hfurthest⟩ := h'.exists_furthest hconduct hsuccess'
  exact hfurthest made (hreaches.of_endsBefore hmost)

/-- Two successes with the same upper bound are the same. -/
theorem CountedGreedy.eq_of_most_eq (hconduct : ∀ c : Cursor, c.Conducted (f c))
    (hmost : bounds.most = bounds'.most) (h : CountedGreedy f bounds c d)
    (hsuccess : d.success = true) (h' : CountedGreedy f bounds' c d')
    (hsuccess' : d'.success = true) : d = d' := by
  have hle := h.position_le_position hconduct
    (Bounds.endsBefore_of_most_eq hmost) hsuccess h' hsuccess'
  have hge := h'.position_le_position hconduct
    (Bounds.endsBefore_of_most_eq hmost.symm) hsuccess' h hsuccess
  obtain ⟨made, _, rfl, _⟩ := h.exists_furthest hconduct hsuccess
  obtain ⟨made', _, rfl, _⟩ := h'.exists_furthest hconduct hsuccess'
  have hchars : (f^[made] c).chars = (f^[made'] c).chars := by
    rw [chars_iterate hconduct, chars_iterate hconduct]
  exact Cursor.eq_iff.2 ⟨hchars, Nat.le_antisymm hle hge, rfl⟩

/-- Greedy repetition stops short of a step that would take it further only if
it has made as many steps as its upper bound allows. -/
theorem CountedGreedy.exists_most_eq
    (hconduct : ∀ c : Cursor, c.Conducted (f c))
    (hflag : ∀ c : Cursor, f c.succeed = f c) (h : CountedGreedy f bounds c d)
    (hsuccess : d.success = true) (hnext : (f d).success = true)
    (hfurther : d.position < (f d).position) :
    ∃ limit, bounds.most = some limit ∧ Unbroken f limit.toNat c ∧
      d = (f^[limit.toNat] c).succeed := by
  obtain ⟨made, hreaches, hd, hfurthest⟩ := h.exists_furthest hconduct hsuccess
  have hstep : f d = f^[made + 1] c := by
    rw [hd, hflag, Function.iterate_succ_apply']
  rw [hstep] at hnext hfurther
  have hfull : ¬ bounds.HasRoom made := by
    intro hroom
    have hle := hfurthest (made + 1) ⟨hreaches.unbroken.succ hnext, hroom⟩
    exact Nat.not_lt_of_le hle hfurther
  obtain ⟨limit, hmost, hle⟩ := Bounds.not_hasRoom_iff.1 hfull
  have hlimit : made = limit.toNat :=
    Nat.le_antisymm (hreaches.le_most limit hmost) hle
  exact ⟨limit, hmost, hlimit ▸ hreaches.unbroken, hlimit ▸ hd⟩

end Chain

namespace Pattern

variable {p : Pattern Empty} {bounds bounds' : Bounds} {c : Cursor}

theorem success_matchCursor_repeated_iff :
    ((repeated p bounds).matchCursor c).success = true ↔
      Unbroken p.matchCursor bounds.least.toNat c :=
  (countedGreedy_repeated p bounds c).success_iff

theorem matchCursor_repeated_eq_of_most_eq (hmost : bounds.most = bounds'.most)
    (hsuccess : ((repeated p bounds).matchCursor c).success = true)
    (hsuccess' : ((repeated p bounds').matchCursor c).success = true) :
    (repeated p bounds).matchCursor c = (repeated p bounds').matchCursor c :=
  (countedGreedy_repeated p bounds c).eq_of_most_eq p.conducted_matchCursor
    hmost hsuccess (countedGreedy_repeated p bounds' c) hsuccess'

/-- An unbounded repetition that succeeds ends where one more match fails or
reads nothing. -/
theorem fails_or_stays_of_most_none (hmost : bounds.most = none)
    (hsuccess : ((repeated p bounds).matchCursor c).success = true) :
    (p.matchCursor ((repeated p bounds).matchCursor c)).success = false ∨
      (p.matchCursor ((repeated p bounds).matchCursor c)).position =
        ((repeated p bounds).matchCursor c).position := by
  by_contra! hmoves
  obtain ⟨hnext, hmoves⟩ := hmoves
  have hfurther :=
    Nat.lt_of_le_of_ne (p.conducted_matchCursor _).position_le hmoves.symm
  obtain ⟨limit, hlimit, _⟩ :=
    (countedGreedy_repeated p bounds c).exists_most_eq p.conducted_matchCursor
      p.matchCursor_succeed hsuccess (by simpa using hnext) hfurther
  simp [hmost] at hlimit

/-- A repetition that succeeds and ends where one more match would read
something has made as many matches in a row as its upper bound allows. So
without an upper bound one more match fails or reads nothing there, and such a
repetition leaves nothing to the same pattern behind it if that cannot match
without reading. -/
theorem matchCursor_repeated_maximal (p : Pattern Empty) :
    (∀ (bounds : Bounds) (c result : Cursor),
      (repeated p bounds).matchCursor c = result →
      result.success = true → (p.matchCursor result).success = true →
        result.position < (p.matchCursor result).position →
          ∃ limit, bounds.most = some limit ∧
            Unbroken p.matchCursor limit.toNat c ∧
            result = (p.matchCursor^[limit.toNat] c).succeed) ∧
    (∀ (bounds : Bounds) (c result : Cursor),
      (repeated p bounds).matchCursor c = result →
      bounds.most = none → result.success = true →
        (p.matchCursor result).success = false ∨
          (p.matchCursor result).position = result.position) ∧
    ∀ rejected : Cursor, p.matchText "" = some rejected →
      rejected.success = false →
      ∀ (least : UInt32) (c : Cursor),
        (sequence (repeated p (.atLeast least)) p).matchCursor c = c.fail := by
  refine ⟨?_, ?_, ?_⟩
  · rintro bounds c result rfl hsuccess hnext hfurther
    exact (countedGreedy_repeated p bounds c).exists_most_eq
      p.conducted_matchCursor p.matchCursor_succeed hsuccess hnext hfurther
  · rintro bounds c result rfl hmost hsuccess
    exact fails_or_stays_of_most_none hmost hsuccess
  · intro rejected hrejected hfails least c
    rw [matchText_eq_some, Option.some.injEq] at hrejected
    have hp : p.nullable = false := by
      by_contra hnullable
      have hsuccess := (p.returns_matchCursor (.start "")).success_of_nullable
        (by simpa using hnullable)
      simp [hrejected, hfails] at hsuccess
    rw [matchCursor_sequence]
    split
    · next hsuccess =>
        apply if_neg
        intro hnext
        obtain ⟨word, hword, hreads⟩ := exists_ne_nil_reads hp hnext
        rcases fails_or_stays_of_most_none rfl hsuccess with hfails | hstays
        · simp [hfails] at hnext
        · exact hword (hreads.eq_nil hstays)
    · rfl

/-- Accented letters with an optional letter behind each: of three that are
there, two are taken where no more are allowed, and all of them where there is
no bound, so that a fourth is missing. -/
theorem matchCursor_repeated_maximal_accented :
    let p : Pattern Empty := (char 'é').sequence (char 'a').optional
    let c := Cursor.between ['x'] ['é', 'a', 'é', 'é', 'b'] false
    let second := Cursor.between ['x', 'é', 'a', 'é'] ['é', 'b'] true
    let third := Cursor.between ['x', 'é', 'a', 'é', 'é'] ['b'] true
    let bounds : Bounds := ⟨1, some 2, by simp⟩
    ((repeated p bounds).matchCursor c = second ∧
      (p.matchCursor second).success = true ∧
        second.position < (p.matchCursor second).position ∧
        ∃ limit, bounds.most = some limit ∧
          Unbroken p.matchCursor limit.toNat c ∧
          second = (p.matchCursor^[limit.toNat] c).succeed) ∧
      ((repeated p .any).matchCursor c = third ∧
        ((p.matchCursor third).success = false ∨
          (p.matchCursor third).position = third.position)) ∧
      (p.matchText "" = some (Cursor.start "").fail ∧
        (sequence (repeated p (.atLeast 3)) p).matchCursor c = c.fail) := by
  intro p c second third bounds
  obtain ⟨hfull, hidle, hnothing⟩ := matchCursor_repeated_maximal p
  have hsecond : (repeated p bounds).matchCursor c = second := by decide +kernel
  have hnext : (p.matchCursor second).success = true := by decide +kernel
  have hfurther : second.position < (p.matchCursor second).position := by
    decide +kernel
  have hthird : (repeated p .any).matchCursor c = third := by decide +kernel
  have hrejected : p.matchText "" = some (Cursor.start "").fail := by
    decide +kernel
  exact ⟨⟨hsecond, hnext, hfurther,
      hfull bounds c second hsecond rfl hnext hfurther⟩,
    ⟨hthird, hidle .any c third hthird rfl rfl⟩,
    hrejected, hnothing _ hrejected rfl 3 c⟩

/-- The lower bound decides only whether a repetition succeeds: a smaller one
lets it succeed in the same place, and whatever two lower bounds are, it ends in
the same place where it succeeds with both. With a greater upper bound a success
stays one, and ends no nearer to the front. -/
theorem matchCursor_repeated_monotone (p : Pattern Empty)
    (bounds bounds' : Bounds) (c : Cursor) :
    (bounds'.least ≤ bounds.least → bounds'.most = bounds.most →
      ((repeated p bounds).matchCursor c).success = true →
        (repeated p bounds').matchCursor c =
          (repeated p bounds).matchCursor c) ∧
    (bounds'.least = bounds.least →
      (∀ limit' ∈ bounds'.most, ∃ limit ∈ bounds.most, limit ≤ limit') →
      ((repeated p bounds).matchCursor c).success = true →
        ((repeated p bounds').matchCursor c).success = true ∧
          ((repeated p bounds).matchCursor c).position ≤
            ((repeated p bounds').matchCursor c).position) ∧
    (bounds'.most = bounds.most →
      ((repeated p bounds).matchCursor c).success = true →
      ((repeated p bounds').matchCursor c).success = true →
        (repeated p bounds').matchCursor c =
          (repeated p bounds).matchCursor c) := by
  refine ⟨?_, ?_, ?_⟩
  · intro hleast hmost hsuccess
    have howed := success_matchCursor_repeated_iff.1 hsuccess
    have hsuccess' : ((repeated p bounds').matchCursor c).success = true :=
      success_matchCursor_repeated_iff.2
        (howed.of_le (UInt32.le_iff_toNat_le.1 hleast))
    exact matchCursor_repeated_eq_of_most_eq hmost hsuccess' hsuccess
  · intro hleast hmost hsuccess
    have hsuccess' : ((repeated p bounds').matchCursor c).success = true := by
      rwa [success_matchCursor_repeated_iff, hleast,
        ← success_matchCursor_repeated_iff]
    exact ⟨hsuccess', (countedGreedy_repeated p bounds c).position_le_position
      p.conducted_matchCursor hmost hsuccess
        (countedGreedy_repeated p bounds' c) hsuccess'⟩
  · intro hmost hsuccess hsuccess'
    exact matchCursor_repeated_eq_of_most_eq hmost hsuccess' hsuccess

/-- Optional letters of which there are two: four are owed and two of them stay
in place, which one owed does not change; with room for one only the repetition
ends behind the first. -/
theorem matchCursor_repeated_monotone_stalled :
    let p : Pattern Empty := (char 'é').optional
    let c := Cursor.between ['x'] ['é', 'é', 'b'] false
    let both := Cursor.between ['x', 'é', 'é'] ['b'] true
    let four : Bounds := ⟨4, some 5, by simp⟩
    let one : Bounds := ⟨1, some 5, by simp⟩
    (one.least ≤ four.least ∧ ((repeated p four).matchCursor c).success = true ∧
        (repeated p one).matchCursor c = both) ∧
      ((Bounds.exactly 1).least = one.least ∧
        (∀ limit' ∈ one.most, ∃ limit ∈ (Bounds.exactly 1).most,
          limit ≤ limit') ∧
        ((repeated p (.exactly 1)).matchCursor c).success = true ∧
        ((repeated p (.exactly 1)).matchCursor c).position ≤ both.position) ∧
      (((repeated p one).matchCursor c).success = true ∧
        (repeated p four).matchCursor c = (repeated p one).matchCursor c) := by
  intro p c both four one
  have hleast : one.least ≤ four.least := by decide
  have hwider : ∀ limit' ∈ one.most, ∃ limit ∈ (Bounds.exactly 1).most,
      limit ≤ limit' := by
    rintro _ ⟨⟩
    exact ⟨1, rfl, by decide⟩
  have hfour : ((repeated p four).matchCursor c).success = true := by
    decide +kernel
  have hboth : (repeated p four).matchCursor c = both := by decide +kernel
  have hone : (repeated p one).matchCursor c = both :=
    ((matchCursor_repeated_monotone p four one c).1 hleast rfl hfour).trans
      hboth
  have hsingle : ((repeated p (.exactly 1)).matchCursor c).success = true := by
    decide +kernel
  have hsuccess : ((repeated p one).matchCursor c).success = true := by
    rw [hone]; rfl
  have hkeeps := (matchCursor_repeated_monotone p (.exactly 1) one c).2.1
  have hle := (hkeeps rfl hwider hsingle).2
  rw [hone] at hle
  exact ⟨⟨hleast, hfour, hone⟩, ⟨rfl, hwider, hsingle, hle⟩, hsuccess,
    (matchCursor_repeated_monotone p one four c).2.2 rfl hsuccess hfour⟩

end Pattern

end TextPattern
