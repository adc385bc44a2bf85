import TextPattern.Proofs.Pattern.Conduct

/-!
Chains of patterns, in sequence or as alternatives, and the ways of grouping
them. A fold groups its patterns from the left; other groupings go back to other
places when a part fails, and a fold of no patterns is a pattern of its own.
Main statement: none of this shows. The fold of two lists is the two folds put
together, and chains with the same parts in the same order match alike, wherever
they stand in a pattern (`matchCursor_folds`).
-/

namespace TextPattern

namespace Pattern

inductive Fold where
  | inSequence
  | asAlternatives

def Fold.join {κ : Type} : Fold → Pattern κ → Pattern κ → Pattern κ
  | inSequence => sequence
  | asAlternatives => choice

def Fold.neutral {κ : Type} : Fold → Pattern κ
  | inSequence => empty
  | asAlternatives => never

def Fold.ofList {κ : Type} : Fold → List (Pattern κ) → Pattern κ
  | inSequence => sequenceOf
  | asAlternatives => choiceOf

@[simp] theorem Fold.ofList_nil {κ : Type} (fold : Fold) :
    fold.ofList ([] : List (Pattern κ)) = fold.neutral := by
  cases fold <;> rfl

@[simp] theorem Fold.ofList_cons {κ : Type} (fold : Fold) (first : Pattern κ)
    (rest : List (Pattern κ)) :
    fold.ofList (first :: rest) = rest.foldl fold.join first := by
  cases fold <;> rfl

/-- A chain with a grouping: its parts and the gaps between them, put together
two by two. -/
inductive Grouping where
  | part (pattern : Pattern Empty)
  | gap
  | pair (front back : Grouping)

def Grouping.parts : Grouping → List (Pattern Empty)
  | part pattern => [pattern]
  | gap => []
  | pair front back => front.parts ++ back.parts

/-- The chain as it is grouped, with an empty fold in each gap. -/
def Grouping.chain (fold : Fold) : Grouping → Pattern Empty
  | part pattern => pattern
  | gap => fold.neutral
  | pair front back => fold.join (front.chain fold) (back.chain fold)

/-- The same tree with a pattern in place of each leaf of the user's. -/
def graft {κ ι : Type} : Pattern κ → (κ → Pattern ι) → Pattern ι
  | single cls, _ => single cls
  | literal word, _ => literal word
  | leaf value, f => f value
  | sequence first second, f => sequence (first.graft f) (second.graft f)
  | choice first second, f => choice (first.graft f) (second.graft f)
  | repeated inner bounds, f => repeated (inner.graft f) bounds

section Exchange

variable {κ : Type} [Matcher κ] {p p' q q' : Pattern κ}

/-- The patterns end on the same cursors, and with the same results. -/
def MatchesLike (p p' : Pattern κ) : Prop :=
  ∀ c result, p.Returns c result ↔ p'.Returns c result

theorem matchesLike_refl (p : Pattern κ) : p.MatchesLike p := fun _ _ => Iff.rfl

theorem MatchesLike.symm (h : p.MatchesLike q) : q.MatchesLike p :=
  fun c result => (h c result).symm

theorem MatchesLike.trans {r : Pattern κ} (hp : p.MatchesLike q)
    (hq : q.MatchesLike r) : p.MatchesLike r :=
  fun c result => (hp c result).trans (hq c result)

theorem matchesLike_of_run_eq (h : ∀ limit c, p.run limit c = p'.run limit c) :
    p.MatchesLike p' := by
  intro c result
  simp only [Returns, h]

theorem MatchesLike.sequence (hp : p.MatchesLike p') (hq : q.MatchesLike q') :
    (sequence p q).MatchesLike (sequence p' q') := by
  intro c result
  simp only [returns_sequence_iff, hp c, hq _ _]

theorem MatchesLike.choice (hp : p.MatchesLike p') (hq : q.MatchesLike q') :
    (choice p q).MatchesLike (choice p' q') := by
  intro c result
  simp only [returns_choice_iff, hp c, hq c]

theorem MatchesLike.repeated (hp : p.MatchesLike p') (bounds : Bounds) :
    (repeated p bounds).MatchesLike (repeated p' bounds) := by
  intro c result
  rw [returns_repeated_iff, returns_repeated_iff]
  exact ⟨fun h => h.mono fun d e => (hp d e).1,
    fun h => h.mono fun d e => (hp d e).2⟩

/-- Patterns that match alike may be exchanged for one another anywhere in a
pattern. -/
theorem MatchesLike.graft {ι : Type} {f g : ι → Pattern κ}
    (h : ∀ value, (f value).MatchesLike (g value)) (p : Pattern ι) :
    (p.graft f).MatchesLike (p.graft g) := by
  induction p with
  | single cls => exact matchesLike_refl _
  | literal word => exact matchesLike_refl _
  | leaf value => exact h value
  | sequence first second ihFirst ihSecond => exact ihFirst.sequence ihSecond
  | choice first second ihFirst ihSecond => exact ihFirst.choice ihSecond
  | repeated inner bounds ih => exact ih.repeated bounds

theorem matchesLike_iff {p p' : Pattern Empty} :
    p.MatchesLike p' ↔ p.matchCursor = p'.matchCursor := by
  simp only [MatchesLike, returns_iff, funext_iff]
  exact ⟨fun h c => (h c _).2 rfl, fun h c result => by rw [h c]⟩

end Exchange

section Laws

theorem matchCursor_empty (c : Cursor) :
    (empty : Pattern Empty).matchCursor c = c.succeed :=
  matchCursor_literal [] c

theorem returns_never_iff {κ : Type} [Matcher κ] {c result : Cursor} :
    (never : Pattern κ).Returns c result ↔ c.fail = result := by
  rw [never, returns_single_iff, Cursor.passIf]
  split <;> rfl

theorem matchCursor_never (c : Cursor) :
    (never : Pattern Empty).matchCursor c = c.fail :=
  returns_iff.1 (returns_never_iff.2 rfl)

/-- A failed match is the incoming cursor, marked failed. -/
theorem matchCursor_eq_fail {p : Pattern Empty} {c : Cursor}
    (hfails : ¬ (p.matchCursor c).success = true) : p.matchCursor c = c.fail :=
  (p.conducted_matchCursor c).eq_fail (by simpa using hfails)

theorem Fold.matchCursor_join_congr (fold : Fold) {p p' q q' : Pattern Empty}
    (hp : p.matchCursor = p'.matchCursor)
    (hq : q.matchCursor = q'.matchCursor) :
    (fold.join p q).matchCursor = (fold.join p' q').matchCursor := by
  rw [← matchesLike_iff] at hp hq
  cases fold with
  | inSequence => exact matchesLike_iff.1 (hp.sequence hq)
  | asAlternatives => exact matchesLike_iff.1 (hp.choice hq)

theorem Fold.matchCursor_join_assoc (fold : Fold) (p q r : Pattern Empty) :
    (fold.join (fold.join p q) r).matchCursor =
      (fold.join p (fold.join q r)).matchCursor := by
  funext c
  cases fold with
  | inSequence =>
      -- Wherever a part fails, both groupings go back to the incoming cursor in
      -- the end.
      simp only [join, matchCursor_sequence]
      by_cases hp : (p.matchCursor c).success = true
      · by_cases hq : (q.matchCursor (p.matchCursor c)).success = true
        · by_cases hr :
            (r.matchCursor (q.matchCursor (p.matchCursor c))).success = true
          · simp [hp, hq, hr]
          · simp [hp, hq, hr]
        · simp [hp, hq]
      · simp [hp]
  | asAlternatives =>
      simp only [join, matchCursor_choice]
      by_cases hp : (p.matchCursor c).success = true
      · simp [hp]
      · simp [hp]

theorem Fold.matchCursor_neutral_join (fold : Fold) (p : Pattern Empty) :
    (fold.join fold.neutral p).matchCursor = p.matchCursor := by
  funext c
  cases fold with
  | inSequence =>
      rw [join, neutral, matchCursor_sequence, matchCursor_empty,
        if_pos c.success_succeed, matchCursor_succeed]
      split
      · rfl
      · next hfails => exact (matchCursor_eq_fail hfails).symm
  | asAlternatives =>
      rw [join, neutral, matchCursor_choice, matchCursor_never]
      rfl

theorem Fold.matchCursor_join_neutral (fold : Fold) (p : Pattern Empty) :
    (fold.join p fold.neutral).matchCursor = p.matchCursor := by
  funext c
  cases fold with
  | inSequence =>
      rw [join, neutral, matchCursor_sequence, matchCursor_empty]
      split
      · next hsuccess => rw [Cursor.succeed_eq_self hsuccess, if_pos hsuccess]
      · next hfails => exact (matchCursor_eq_fail hfails).symm
  | asAlternatives =>
      rw [join, neutral, matchCursor_choice, matchCursor_never]
      split
      · rfl
      · next hfails => exact (matchCursor_eq_fail hfails).symm

end Laws

section Chains

variable (fold : Fold)

/-- A chain that is being built matches like what there is of it, followed by
the rest. -/
theorem Fold.matchCursor_foldl_join (front : Pattern Empty)
    (rest : List (Pattern Empty)) :
    (rest.foldl fold.join front).matchCursor =
      (fold.join front (fold.ofList rest)).matchCursor := by
  induction rest generalizing front with
  | nil =>
      rw [fold.ofList_nil]
      exact (fold.matchCursor_join_neutral front).symm
  | cons next rest ih =>
      calc ((next :: rest).foldl fold.join front).matchCursor
          = (fold.join (fold.join front next) (fold.ofList rest)).matchCursor :=
            ih (fold.join front next)
        _ = (fold.join front (fold.join next (fold.ofList rest))).matchCursor :=
            fold.matchCursor_join_assoc front next _
        _ = (fold.join front (fold.ofList (next :: rest))).matchCursor := by
            rw [fold.ofList_cons]
            exact fold.matchCursor_join_congr rfl (ih next).symm

theorem Fold.matchCursor_ofList_append (front back : List (Pattern Empty)) :
    (fold.ofList (front ++ back)).matchCursor =
      (fold.join (fold.ofList front) (fold.ofList back)).matchCursor := by
  cases front with
  | nil =>
      rw [fold.ofList_nil]
      exact (fold.matchCursor_neutral_join _).symm
  | cons first rest =>
      rw [List.cons_append, fold.ofList_cons, List.foldl_append,
        fold.matchCursor_foldl_join, fold.ofList_cons]

/-- However a chain is grouped, it matches like the fold of its parts. -/
theorem Grouping.matchCursor_chain (grouping : Grouping) :
    (grouping.chain fold).matchCursor =
      (fold.ofList grouping.parts).matchCursor := by
  induction grouping with
  | part pattern => rw [parts, fold.ofList_cons]; rfl
  | gap => rw [parts, fold.ofList_nil]; rfl
  | pair front back ihFront ihBack =>
      rw [parts, fold.matchCursor_ofList_append]
      exact fold.matchCursor_join_congr ihFront ihBack

theorem Grouping.matchCursor_chain_eq {grouping grouping' : Grouping}
    (h : grouping.parts = grouping'.parts) :
    (grouping.chain fold).matchCursor = (grouping'.chain fold).matchCursor := by
  rw [grouping.matchCursor_chain, grouping'.matchCursor_chain, h]

end Chains

/-- The fold of two lists matches like the two folds put together, from every
cursor. So a chain matches like the fold of its parts, however it is grouped and
with gaps wherever one likes, and chains that have the same parts in the same
order may stand for one another anywhere in a pattern. -/
theorem matchCursor_folds :
    (∀ (front back : List (Pattern Empty)) (c : Cursor),
      (sequenceOf (front ++ back)).matchCursor c =
          (sequence (sequenceOf front) (sequenceOf back)).matchCursor c ∧
        (choiceOf (front ++ back)).matchCursor c =
          (choice (choiceOf front) (choiceOf back)).matchCursor c) ∧
    (∀ (grouping : Grouping) (c : Cursor),
      (grouping.chain .inSequence).matchCursor c =
          (sequenceOf grouping.parts).matchCursor c ∧
        (grouping.chain .asAlternatives).matchCursor c =
          (choiceOf grouping.parts).matchCursor c) ∧
    ∀ (κ : Type) (p : Pattern κ) (folds : κ → Fold)
      (groupings groupings' : κ → Grouping),
      (∀ value, (groupings value).parts = (groupings' value).parts) →
        ∀ c : Cursor,
          (p.graft fun value =>
              (groupings value).chain (folds value)).matchCursor c =
            (p.graft fun value =>
              (groupings' value).chain (folds value)).matchCursor c := by
  refine ⟨?_, ?_, ?_⟩
  · intro front back c
    exact ⟨congrFun (Fold.inSequence.matchCursor_ofList_append front back) c,
      congrFun (Fold.asAlternatives.matchCursor_ofList_append front back) c⟩
  · intro grouping c
    exact ⟨congrFun (grouping.matchCursor_chain .inSequence) c,
      congrFun (grouping.matchCursor_chain .asAlternatives) c⟩
  · intro κ p folds groupings groupings' hparts c
    have halike (value : κ) :
        ((groupings value).chain (folds value)).MatchesLike
          ((groupings' value).chain (folds value)) :=
      matchesLike_iff.2
        (Grouping.matchCursor_chain_eq (folds value) (hparts value))
    exact congrFun (matchesLike_iff.1 (.graft halike p)) c

/-- A repeated chain of three, grouped from the right and with a gap, matches
like the same chain grouped from the left; its third repetition fails at its
last part and is taken back. -/
theorem matchCursor_folds_repeated :
    let optionalA : Pattern Empty := (char 'a').optional
    let fromRight : Grouping :=
      .pair (.part (char 'é'))
        (.pair .gap (.pair (.part optionalA) (.part (char 'b'))))
    let fromLeft : Grouping :=
      .pair (.pair (.part (char 'é')) (.part optionalA)) (.part (char 'b'))
    let p : Pattern Unit := (leaf ()).repeated (.atLeast 2)
    let c := Cursor.between ['x'] ['é', 'a', 'b', 'é', 'b', 'é', 'a'] false
    (∀ _ : Unit, fromRight.parts = fromLeft.parts) ∧
      (p.graft fun _ => fromRight.chain .inSequence).matchCursor c =
        .between ['x', 'é', 'a', 'b', 'é', 'b'] ['é', 'a'] true := by
  intro optionalA fromRight fromLeft p c
  have hparts : ∀ _ : Unit, fromRight.parts = fromLeft.parts := fun _ => rfl
  have halike := matchCursor_folds.2.2 Unit p (fun _ => .inSequence)
    (fun _ => fromRight) (fun _ => fromLeft) hparts c
  exact ⟨hparts, halike.trans (by decide +kernel)⟩

end Pattern

end TextPattern
