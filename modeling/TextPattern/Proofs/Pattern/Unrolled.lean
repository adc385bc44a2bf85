import TextPattern.Proofs.Pattern.Chain
import TextPattern.Proofs.Pattern.Folds
import TextPattern.Proofs.Pattern.Nullable
import TextPattern.Proofs.Pattern.Shortcut

/-!
A repetition as a tree of sequences and choices. The mandatory repetitions are
copies of the pattern one after another, and the others are nested options, each
of which holds the next. The loop goes back to one place when it falls short,
while every level of the tree goes back to its own; both are compared through
the chain of the pattern's matches, each made from the result of the one before,
and through the first break in it. Main statement: a repetition and its
unrolling return the same cursor from every cursor, and an unbounded one unrolls
as far as there are characters left to read (`matchCursor_repeated_unrolled`).
-/

namespace TextPattern

namespace Pattern

/-- So many options nested in one another, each of which holds the pattern and
the next one. -/
def unrolled {κ : Type} (p : Pattern κ) : Nat → Pattern κ
  | 0 => empty
  | count + 1 => choice (sequence p (p.unrolled count)) empty

section Copies

variable {p : Pattern Empty} {c : Cursor} {count made : Nat}

theorem matchCursor_copies_succ (p : Pattern Empty) (count : Nat) (c : Cursor) :
    (sequenceOf (List.replicate (count + 1) p)).matchCursor c =
      (sequence (sequenceOf (List.replicate count p)) p).matchCursor c := by
  rw [List.replicate_succ']
  exact congrFun
    (Fold.inSequence.matchCursor_ofList_append (List.replicate count p) [p]) c

theorem matchCursor_copies_of_unbroken (h : Unbroken p.matchCursor count c) :
    (sequenceOf (List.replicate count p)).matchCursor c =
      (p.matchCursor^[count] c).succeed := by
  -- The copies are grouped from the left, so the induction takes the chain from
  -- its end.
  induction count with
  | zero => exact matchCursor_empty c
  | succ count ih =>
      have hsuccess := h count (Nat.lt_succ_self count)
      rw [Function.iterate_succ_apply'] at hsuccess ⊢
      rw [matchCursor_copies_succ, matchCursor_sequence,
        ih (h.of_le (Nat.le_succ count)), if_pos (Cursor.success_succeed _),
        matchCursor_succeed, if_pos hsuccess, Cursor.succeed_eq_self hsuccess]

theorem matchCursor_copies_of_breaksAfter (h : BreaksAfter p.matchCursor made c)
    (hmade : made < count) :
    (sequenceOf (List.replicate count p)).matchCursor c = c.fail := by
  induction count with
  | zero => exact absurd hmade (Nat.not_lt_zero made)
  | succ count ih =>
      rw [matchCursor_copies_succ, matchCursor_sequence]
      rcases Nat.lt_succ_iff_lt_or_eq.1 hmade with hlt | rfl
      · rw [ih hlt]
        rfl
      · have hfails := h.2
        rw [Function.iterate_succ_apply'] at hfails
        rw [matchCursor_copies_of_unbroken h.1,
          if_pos (Cursor.success_succeed _), matchCursor_succeed, hfails]
        rfl

end Copies

section Options

variable {p : Pattern Empty} {c : Cursor} {count made : Nat}

/-- An option that holds a pattern and something that never fails is taken if
the pattern succeeds. -/
theorem matchCursor_option (p : Pattern Empty) {rest : Pattern Empty}
    (hrest : rest.nullable = true) (c : Cursor) :
    (choice (sequence p rest) empty).matchCursor c =
      if (p.matchCursor c).success then rest.matchCursor (p.matchCursor c)
      else c.succeed := by
  rw [matchCursor_choice, matchCursor_sequence, matchCursor_empty]
  have hsuccess :=
    (rest.returns_matchCursor (p.matchCursor c)).success_of_nullable hrest
  by_cases hp : (p.matchCursor c).success = true
  · simp only [hp, hsuccess, if_true]
  · simp [hp]

theorem nullable_unrolled (p : Pattern Empty) (count : Nat) :
    (p.unrolled count).nullable = true := by
  cases count with
  | zero => rfl
  | succ count => exact Bool.or_true _

theorem matchCursor_unrolled_succ (p : Pattern Empty) (count : Nat)
    (c : Cursor) :
    (p.unrolled (count + 1)).matchCursor c =
      if (p.matchCursor c).success then
        (p.unrolled count).matchCursor (p.matchCursor c)
      else c.succeed :=
  matchCursor_option p (p.nullable_unrolled count) c

theorem matchCursor_unrolled_of_unbroken (h : Unbroken p.matchCursor count c) :
    (p.unrolled count).matchCursor c = (p.matchCursor^[count] c).succeed := by
  -- The options nest to the right, so the induction takes the chain from its
  -- front.
  induction count generalizing c with
  | zero => exact matchCursor_empty c
  | succ count ih =>
      have hfirst : (p.matchCursor c).success = true := h 0 (Nat.succ_pos count)
      rw [Nat.add_comm] at h
      have hrest : Unbroken p.matchCursor count (p.matchCursor c) := h.drop
      rw [matchCursor_unrolled_succ, if_pos hfirst, ih hrest,
        Function.iterate_succ_apply]

theorem matchCursor_unrolled_of_breaksAfter
    (h : BreaksAfter p.matchCursor made c) (hmade : made < count) :
    (p.unrolled count).matchCursor c = (p.matchCursor^[made] c).succeed := by
  induction count generalizing c made with
  | zero => exact absurd hmade (Nat.not_lt_zero made)
  | succ count ih =>
      rw [matchCursor_unrolled_succ]
      cases made with
      | zero =>
          have hfails : (p.matchCursor c).success = false := h.2
          rw [hfails]
          rfl
      | succ made =>
          have hfirst : (p.matchCursor c).success = true :=
            h.1 0 (Nat.succ_pos made)
          rw [Nat.add_comm] at h
          have hrest : BreaksAfter p.matchCursor made (p.matchCursor c) :=
            h.drop
          rw [if_pos hfirst, ih hrest (Nat.lt_of_succ_lt_succ hmade),
            Function.iterate_succ_apply]

end Options

section Unrolling

variable {p : Pattern Empty} {bounds : Bounds} {c d : Cursor} {limit : UInt32}
  {made : Nat}

/-- What follows the mandatory copies runs from where their chain ends, if it
gets that far. -/
theorem matchCursor_copies_sequence {count : Nat} {rest : Pattern Empty}
    (hrest : rest.nullable = true) (h : Unbroken p.matchCursor count c) :
    (sequence (sequenceOf (List.replicate count p)) rest).matchCursor c =
      rest.matchCursor (p.matchCursor^[count] c) := by
  have hsuccess :=
    (rest.returns_matchCursor (p.matchCursor^[count] c)).success_of_nullable
      hrest
  rw [matchCursor_sequence, matchCursor_copies_of_unbroken h,
    if_pos (Cursor.success_succeed _), matchCursor_succeed, if_pos hsuccess]

theorem matchCursor_copies_sequence_of_breaksAfter {count : Nat}
    (rest : Pattern Empty) (h : BreaksAfter p.matchCursor made c)
    (hmade : made < count) :
    (sequence (sequenceOf (List.replicate count p)) rest).matchCursor c =
      c.fail := by
  rw [matchCursor_sequence, matchCursor_copies_of_breaksAfter h hmade]
  rfl

/-- With an upper bound, a repetition is the copies it owes and then nested
options. -/
theorem matchCursor_repeated_of_most (hmost : bounds.most = some limit)
    (c : Cursor) :
    (repeated p bounds).matchCursor c =
      (sequence (sequenceOf (List.replicate bounds.least.toNat p))
        (p.unrolled (limit.toNat - bounds.least.toNat))).matchCursor c := by
  obtain ⟨options, hoptions⟩ :=
    Nat.exists_eq_add_of_le (bounds.least_toNat_le hmost)
  rw [hoptions, Nat.add_sub_cancel_left]
  rcases unbroken_or_breaksAfter p.matchCursor limit.toNat c
    with hunbroken | ⟨made, hmade, hbreaks⟩
  · rw [matchCursor_repeated_of_unbroken hmost hunbroken]
    rw [hoptions] at hunbroken ⊢
    have howed := hunbroken.of_le (Nat.le_add_right _ _)
    rw [matchCursor_copies_sequence (p.nullable_unrolled options) howed,
      matchCursor_unrolled_of_unbroken hunbroken.drop,
      ← Function.iterate_add_apply, Nat.add_comm]
  · have hroom : bounds.HasRoom made :=
      fun limit' hmost' => Option.mem_unique hmost hmost' ▸ hmade
    rw [matchCursor_repeated_of_breaksAfter hroom hbreaks]
    rcases Nat.lt_or_ge made bounds.least.toNat with hshort | henough
    · rw [if_neg (Nat.not_le_of_lt hshort),
        matchCursor_copies_sequence_of_breaksAfter _ hbreaks hshort]
    -- The break falls among the options, and the one that it falls in goes back
    -- to its own start.
    · rw [if_pos henough]
      obtain ⟨taken, rfl⟩ := Nat.exists_eq_add_of_le henough
      have howed := hbreaks.1.of_le henough
      rw [matchCursor_copies_sequence (p.nullable_unrolled options) howed,
        matchCursor_unrolled_of_breaksAfter hbreaks.drop (by omega),
        ← Function.iterate_add_apply, Nat.add_comm]

/-- Without an upper bound, a repetition is the copies it owes and then a
repetition that owes nothing. -/
theorem matchCursor_repeated_of_most_none (hmost : bounds.most = none)
    (c : Cursor) :
    (repeated p bounds).matchCursor c =
      (sequence (sequenceOf (List.replicate bounds.least.toNat p))
        (repeated p .any)).matchCursor c := by
  rcases unbroken_or_breaksAfter p.matchCursor bounds.least.toNat c with
    hunbroken | ⟨made, hmade, hbreaks⟩
  · rw [matchCursor_copies_sequence rfl hunbroken]
    exact matchCursor_repeated_of_countedGreedy
      ((countedGreedy_repeated p .any _).of_iterate hmost
        (Nat.le_refl _) hunbroken)
  · have hroom := Bounds.hasRoom_of_most hmost made
    rw [matchCursor_repeated_of_breaksAfter hroom hbreaks,
      if_neg (Nat.not_le_of_lt hmade),
      matchCursor_copies_sequence_of_breaksAfter _ hbreaks hmade]

/-- Unbounded repetition, one match at a time. -/
theorem matchCursor_repeated_any (p : Pattern Empty) (c : Cursor) :
    (repeated p .any).matchCursor c =
      if (p.matchCursor c).success then
        (repeated p .any).matchCursor (p.matchCursor c)
      else c.succeed := by
  cases hsuccess : (p.matchCursor c).success with
  | true =>
      rw [if_pos rfl]
      have hstart : Unbroken p.matchCursor 1 c := by
        intro i hi
        obtain rfl := Nat.lt_one_iff.1 hi
        exact hsuccess
      exact matchCursor_repeated_of_countedGreedy
        ((countedGreedy_repeated p .any _).of_iterate rfl
          (Nat.zero_le 1) hstart)
  | false =>
      have hbreaks : BreaksAfter p.matchCursor 0 c :=
        ⟨fun i hi => absurd hi (Nat.not_lt_zero i), hsuccess⟩
      exact matchCursor_repeated_of_breaksAfter
        (Bounds.hasRoom_of_most rfl 0) hbreaks

/-- A match that takes a repetition no further: it fails, or it stays in
place. -/
def Idle (p : Pattern Empty) (c : Cursor) : Prop :=
  (p.matchCursor c).success = false ∨ p.matchCursor c = c.succeed

theorem idle_or_shorter (p : Pattern Empty) (c : Cursor) :
    p.Idle c ∨ (p.matchCursor c).success = true ∧
      (p.matchCursor c).ahead.length < c.ahead.length := by
  cases hsuccess : (p.matchCursor c).success with
  | false => exact .inl (.inl hsuccess)
  | true =>
      obtain ⟨word, _, hreads⟩ :=
        exists_mem_language_reads (p.returns_matchCursor c) hsuccess
      cases word with
      | nil =>
          have hstays : (p.matchCursor c).position = c.position :=
            hreads.position_eq
          exact .inl
            (.inr ((p.conducted_matchCursor c).eq_succeed hsuccess hstays))
      | cons first rest =>
          right
          have hlength := congrArg List.length hreads.ahead_eq
          rw [List.length_append, List.length_cons] at hlength
          exact ⟨rfl, by omega⟩

theorem matchCursor_unrolled_of_idle (h : p.Idle c) (count : Nat) :
    (p.unrolled count).matchCursor c = c.succeed := by
  induction count with
  | zero => exact matchCursor_empty c
  | succ count ih =>
      rw [matchCursor_unrolled_succ]
      split
      · next hsuccess =>
          rcases h with hfails | hstays
          · simp [hfails] at hsuccess
          · rw [hstays, matchCursor_succeed, ih]
      · rfl

theorem matchCursor_repeated_any_of_idle (h : p.Idle c) :
    (repeated p .any).matchCursor c = c.succeed := by
  rcases h with hfails | hstays
  · rw [matchCursor_repeated_any, hfails]
    rfl
  · have hroom : Bounds.any.HasRoom 0 := Bounds.hasRoom_of_most rfl 0
    exact returns_iff.1 (returns_repeated_of_stays hroom (returns_iff.2 hstays))

/-- Every option that is taken and goes on to the next reads a character at
least, so there are enough of them. -/
theorem matchCursor_repeated_any_unrolled {count : Nat}
    (hcount : c.ahead.length ≤ count) :
    (repeated p .any).matchCursor c = (p.unrolled count).matchCursor c := by
  induction count generalizing c with
  | zero =>
      rcases p.idle_or_shorter c with hidle | ⟨_, hshorter⟩
      · rw [matchCursor_repeated_any_of_idle hidle,
          matchCursor_unrolled_of_idle hidle]
      · omega
  | succ count ih =>
      rcases p.idle_or_shorter c with hidle | ⟨hsuccess, hshorter⟩
      · rw [matchCursor_repeated_any_of_idle hidle,
          matchCursor_unrolled_of_idle hidle]
      · rw [matchCursor_repeated_any, matchCursor_unrolled_succ,
          if_pos hsuccess, if_pos hsuccess]
        exact ih (by omega)

end Unrolling

/-- A repetition returns the same cursor as its unrolling, from every cursor.
With an upper bound that is the copies it owes and then nested options; without
one it is those copies and then any number of repetitions, which is one option
that holds the next repetitions, and as many nested options as there are
characters ahead, or more. -/
theorem matchCursor_repeated_unrolled (p : Pattern Empty) :
    (∀ bounds : Bounds, ∀ limit ∈ bounds.most, ∀ c : Cursor,
      (repeated p bounds).matchCursor c =
        (sequence (sequenceOf (List.replicate bounds.least.toNat p))
          (p.unrolled (limit.toNat - bounds.least.toNat))).matchCursor c) ∧
    (∀ (least : UInt32) (c : Cursor),
      (repeated p (.atLeast least)).matchCursor c =
        (sequence (sequenceOf (List.replicate least.toNat p))
          (repeated p .any)).matchCursor c) ∧
    (∀ c : Cursor, (repeated p .any).matchCursor c =
      (choice (sequence p (repeated p .any)) empty).matchCursor c) ∧
    ∀ (c : Cursor) (count : Nat), c.ahead.length ≤ count →
      (repeated p .any).matchCursor c = (p.unrolled count).matchCursor c := by
  refine ⟨fun bounds limit hmost c => matchCursor_repeated_of_most hmost c,
    fun least c => matchCursor_repeated_of_most_none rfl c, fun c => ?_,
    fun c count hcount => matchCursor_repeated_any_unrolled hcount⟩
  rw [matchCursor_option p rfl, matchCursor_repeated_any]

/-- Accented letters with an optional letter behind each: the third option is
not taken, and the five characters ahead are options enough; a fourth repetition
that is owed is not there. -/
theorem matchCursor_repeated_unrolled_accented :
    let p : Pattern Empty := (char 'é').sequence (char 'a').optional
    let c := Cursor.between ['x'] ['é', 'a', 'é', 'é', 'b'] false
    let result := Cursor.between ['x', 'é', 'a', 'é', 'é'] ['b'] true
    let bounds : Bounds := ⟨1, some 4, by simp⟩
    (4 ∈ bounds.most ∧
      (sequence (sequenceOf (List.replicate 1 p))
        (p.unrolled 3)).matchCursor c = result) ∧
      (sequence (sequenceOf (List.replicate 4 p))
        (repeated p .any)).matchCursor c = c.fail ∧
      (choice (sequence p (repeated p .any)) empty).matchCursor c = result ∧
      (c.ahead.length ≤ 5 ∧ (p.unrolled 5).matchCursor c = result) := by
  intro p c result bounds
  obtain ⟨hmost, hleast, honce, hany⟩ := matchCursor_repeated_unrolled p
  have hreads : (repeated p .any).matchCursor c = result := by decide +kernel
  exact ⟨⟨rfl, (hmost bounds 4 rfl c).symm.trans (by decide +kernel)⟩,
    (hleast 4 c).symm.trans (by decide +kernel), (honce c).symm.trans hreads,
    by decide, (hany c 5 (by decide)).symm.trans hreads⟩

end Pattern

end TextPattern
