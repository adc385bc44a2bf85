import Mathlib.Data.List.Induction
import TextPattern.Proofs.Pattern.Composition
import TextPattern.Proofs.Pattern.Exchange
import TextPattern.Proofs.Pattern.Folds

/-!
Lists of alternatives. They are tried in order, each from where the first one
was, and a list fails as its last alternative does. Main statements: a first
part that all alternatives have in common may be matched once for all of them,
whatever the parts do (`returns_choiceOf_map_sequence`); an alternative that can
succeed only where an earlier one does may be left out
(`matchCursor_choiceOf_pruned`); and a set of characters is the list of them as
alternatives, so that only its members count (`returns_fill_oneOf`).
-/

namespace TextPattern

namespace Pattern

section Factoring

variable {κ : Type} [Matcher κ] {p q : Pattern κ} {c : Cursor}

/-- Matching a first part again for the second alternative leads to where it led
before. -/
theorem choice_sequence_sequence_matchesLike (p q r : Pattern κ) :
    (choice (sequence p q) (sequence p r)).MatchesLike
      (sequence p (choice q r)) := by
  refine matchesLike_of_run_eq fun limit c => ?_
  simp only [run]
  cases p.run limit c with
  | none => rfl
  | some middle =>
      by_cases hmiddle : middle.success = true
      · cases hq : q.run limit middle with
        | none => simp [hmiddle, hq]
        | some last =>
            by_cases hlast : last.success = true
            · simp [hmiddle, hq, hlast]
            · simp [hmiddle, hq, hlast]
      · simp [hmiddle]

theorem foldl_choice_map_sequence_matchesLike (p first : Pattern κ)
    (rest : List (Pattern κ)) :
    ((rest.map (sequence p)).foldl choice (sequence p first)).MatchesLike
      (sequence p (rest.foldl choice first)) := by
  -- From the end of the list, since the last alternative stands at the root of
  -- the tree.
  induction rest using List.reverseRecOn with
  | nil => exact matchesLike_refl _
  | append_singleton rest last ih =>
      simp only [List.map_append, List.map_cons, List.map_nil,
        List.foldl_append, List.foldl_cons, List.foldl_nil]
      exact (ih.choice (matchesLike_refl _)).trans
        (choice_sequence_sequence_matchesLike p (rest.foldl choice first) last)

theorem exists_returns_sequence (hp : ∃ middle, p.Returns c middle)
    (hq : ∀ middle, ∃ result, q.Returns middle result) :
    ∃ result, (sequence p q).Returns c result := by
  obtain ⟨middle, hmiddle⟩ := hp
  obtain ⟨last, hlast⟩ := hq middle
  cases hsuccess : middle.success with
  | false =>
      exact ⟨c.fail,
        returns_sequence_iff.2 ⟨middle, hmiddle, .inl ⟨hsuccess, rfl⟩⟩⟩
  | true =>
      exact ⟨_, returns_sequence_iff.2
        ⟨middle, hmiddle, .inr ⟨hsuccess, last, hlast, rfl⟩⟩⟩

theorem exists_returns_choice (hp : ∃ result, p.Returns c result)
    (hq : ∃ result, q.Returns c result) :
    ∃ result, (choice p q).Returns c result := by
  obtain ⟨first, hfirst⟩ := hp
  obtain ⟨second, hsecond⟩ := hq
  cases hsuccess : first.success with
  | false =>
      exact ⟨second,
        returns_choice_iff.2 (.inr ⟨first, hfirst, hsuccess, hsecond⟩)⟩
  | true => exact ⟨first, returns_choice_iff.2 (.inl ⟨hfirst, hsuccess⟩)⟩

/-- A list of alternatives that end is a pattern that ends. -/
theorem exists_returns_choiceOf {alternatives : List (Pattern κ)}
    (hends : ∀ q ∈ alternatives, ∃ result, q.Returns c result) :
    ∃ result, (choiceOf alternatives).Returns c result := by
  cases alternatives with
  | nil => exact ⟨c.fail, returns_never_iff.2 rfl⟩
  | cons first rest =>
      rw [List.forall_mem_cons] at hends
      obtain ⟨hfirst, hrest⟩ := hends
      change ∃ result, (rest.foldl choice first).Returns c result
      induction rest generalizing first with
      | nil => exact hfirst
      | cons next rest ih =>
          rw [List.forall_mem_cons] at hrest
          exact ih (choice first next)
            (exists_returns_choice hfirst hrest.1) hrest.2

/-- A first part that all alternatives have in common may be matched once for
all of them. Of any matchers, and with the same result where they fail; and with
no alternatives at all, wherever the first part ends. -/
theorem returns_choiceOf_map_sequence (p : Pattern κ)
    (rests : List (Pattern κ)) :
    (∀ c result, (rests ≠ [] ∨ ∃ middle, p.Returns c middle) →
      ((choiceOf (rests.map (sequence p))).Returns c result ↔
        (sequence p (choiceOf rests)).Returns c result)) ∧
    ((∀ c, ∃ middle, p.Returns c middle) →
      (∀ q ∈ rests, ∀ c, ∃ result, q.Returns c result) →
      ∀ c, ∃ result, (choiceOf (rests.map (sequence p))).Returns c result ∧
        (sequence p (choiceOf rests)).Returns c result ∧
        (result.success = false → result = c.fail)) := by
  have hsame (c result : Cursor)
      (hends : rests ≠ [] ∨ ∃ middle, p.Returns c middle) :
      (choiceOf (rests.map (sequence p))).Returns c result ↔
        (sequence p (choiceOf rests)).Returns c result := by
    cases rests with
    | cons first rest =>
        exact foldl_choice_map_sequence_matchesLike p first rest c result
    | nil =>
        -- With no alternatives both fail in place, the first part having been
        -- matched or not.
        simp only [List.map_nil, choiceOf, returns_never_iff,
          returns_sequence_iff]
        obtain ⟨middle, hmiddle⟩ := hends.resolve_left (absurd rfl)
        constructor
        · rintro rfl
          refine ⟨middle, hmiddle, ?_⟩
          cases middle.success <;> simp
        · rintro ⟨middle, _, ⟨_, rfl⟩ | ⟨_, last, rfl, rfl⟩⟩
          · rfl
          · rfl
  refine ⟨hsame, ?_⟩
  intro hp hrests c
  obtain ⟨result, hresult⟩ := exists_returns_sequence (hp c)
    (fun middle => exists_returns_choiceOf fun q hq => hrests q hq middle)
  exact ⟨result, (hsame c result (.inr (hp c))).2 hresult, hresult,
    hresult.eq_fail trivial⟩

/-- The first part reads a letter, or stays in place at the end and succeeds all
the same; one alternative fails beyond the next letter, and another reads it. -/
theorem returns_choiceOf_map_sequence_stray :
    let anything : Pattern Routine := leaf ⟨[.advance]⟩
    let stray : Pattern Routine := leaf ⟨[.advance, .fail]⟩
    let rests := [stray, char 'é']
    let c := Cursor.between ['x'] ['a', 'é', 'b'] false
    (rests ≠ [] ∧ (choiceOf (rests.map (sequence anything))).Returns c
        (.between ['x', 'a', 'é'] ['b'] true)) ∧
      (∀ c, ∃ middle, anything.Returns c middle) ∧
      (∀ q ∈ rests, ∀ c, ∃ result, q.Returns c result) ∧
      ∃ result,
        (choiceOf (rests.map (sequence anything))).Returns c.advance result ∧
        (sequence anything (choiceOf rests)).Returns c.advance result ∧
        (result.success = false → result = c.advance.fail) := by
  intro anything stray rests c
  have hanything (c : Cursor) : ∃ middle, anything.Returns c middle :=
    ⟨_, returns_leaf_iff.2 rfl⟩
  have hrests : ∀ q ∈ rests, ∀ c, ∃ result, q.Returns c result := by
    intro q hq c
    rcases List.mem_pair.1 hq with rfl | rfl
    · exact ⟨_, returns_leaf_iff.2 rfl⟩
    · exact ⟨_, returns_single_iff.2 rfl⟩
  have hne : rests ≠ [] := List.cons_ne_nil _ _
  obtain ⟨hsame, hends⟩ := returns_choiceOf_map_sequence anything rests
  exact ⟨⟨hne, (hsame c _ (.inl hne)).2 ⟨0, by decide +kernel⟩⟩, hanything,
    hrests, hends hanything hrests c.advance⟩

end Factoring

section Pruning

variable {p q dead : Pattern Empty} {alternatives kept : List (Pattern Empty)}
  {c : Cursor}

/-- The pattern itself, or a sequence whose first part begins with it. -/
inductive BeginsWith (p : Pattern Empty) : Pattern Empty → Prop
  | itself : BeginsWith p p
  | followed {first : Pattern Empty} (second : Pattern Empty)
      (h : BeginsWith p first) : BeginsWith p (sequence first second)

/-- What may be left out of a list of alternatives in one go. -/
inductive LeavesOut : List (Pattern Empty) → List (Pattern Empty) → Prop
  /-- An alternative that begins with an earlier one. -/
  | shadowed {p dead : Pattern Empty} (earlier later : List (Pattern Empty))
      (hmem : p ∈ earlier) (hbegins : BeginsWith p dead) :
      LeavesOut (earlier ++ dead :: later) (earlier ++ later)
  /-- All alternatives behind one that accepts the empty text. -/
  | unreached {p : Pattern Empty} (earlier later : List (Pattern Empty))
      (haccepts : (p.matchCursor (.start "")).success = true) :
      LeavesOut (earlier ++ p :: later) (earlier ++ [p])

/-- A sequence succeeds only where the pattern that it begins with does. -/
theorem BeginsWith.success (h : BeginsWith p dead)
    (hsuccess : (dead.matchCursor c).success = true) :
    (p.matchCursor c).success = true := by
  induction h with
  | itself => exact hsuccess
  | followed second _ ih =>
      apply ih
      by_contra hfails
      rw [matchCursor_sequence, if_neg hfails] at hsuccess
      simp at hsuccess

/-- The first alternative to succeed decides; if there is none, the list fails
in place. -/
theorem matchCursor_choiceOf (alternatives : List (Pattern Empty))
    (c : Cursor) :
    (choiceOf alternatives).matchCursor c =
      ((alternatives.find? fun q => (q.matchCursor c).success).map
        (·.matchCursor c)).getD c.fail := by
  induction alternatives with
  | nil => exact matchCursor_never c
  | cons first rest ih =>
      calc (choiceOf (first :: rest)).matchCursor c
          = (choice first (choiceOf rest)).matchCursor c :=
            congrFun (Fold.asAlternatives.matchCursor_foldl_join first rest) c
        _ = _ := by
            rw [matchCursor_choice, ih, List.find?_cons]
            split
            · next hsuccess => simp [hsuccess]
            · next hfails => simp [hfails]

/-- Behind an element that is found nothing is looked at. -/
theorem find?_append_of_exists {α : Type} {test : α → Bool} {front : List α}
    (hfound : ∃ a ∈ front, test a = true) (back : List α) :
    (front ++ back).find? test = front.find? test := by
  rw [List.find?_append, Option.or_of_isSome (List.find?_isSome.2 hfound)]

theorem LeavesOut.matchCursor_eq (h : LeavesOut alternatives kept)
    (c : Cursor) :
    (choiceOf alternatives).matchCursor c = (choiceOf kept).matchCursor c := by
  rw [matchCursor_choiceOf, matchCursor_choiceOf]
  cases h with
  | @shadowed p dead earlier later hmem hbegins =>
      by_cases hp : (p.matchCursor c).success = true
      · rw [find?_append_of_exists ⟨p, hmem, hp⟩,
          find?_append_of_exists ⟨p, hmem, hp⟩]
      · have hdead : (dead.matchCursor c).success = false := by
          simpa using fun hsuccess => hp (hbegins.success hsuccess)
        simp only [List.find?_append, List.find?_cons, hdead]
  | @unreached p earlier later haccepts =>
      have hnullable : p.nullable = true :=
        nullable_of_success_of_ahead_nil rfl haccepts
      have hp : (p.matchCursor c).success = true :=
        (p.returns_matchCursor c).success_of_nullable hnullable
      have hmem : p ∈ earlier ++ [p] :=
        List.mem_append_right earlier List.mem_cons_self
      rw [List.append_cons, find?_append_of_exists ⟨p, hmem, hp⟩]

/-- An alternative is dead behind one that it begins with, and so are all
alternatives behind one that accepts the empty text. Dead alternatives may be
left out, one after another and in any order: the list ends every match where it
did, be it a success or a failure. -/
theorem matchCursor_choiceOf_pruned
    (h : Relation.ReflTransGen LeavesOut alternatives kept) (c : Cursor) :
    (choiceOf alternatives).matchCursor c = (choiceOf kept).matchCursor c := by
  induction h with
  | refl => rfl
  | tail _ hstep ih => exact ih.trans (hstep.matchCursor_eq c)

/-- Of six alternatives the third begins with the first, and the last two are
behind an option. -/
theorem matchCursor_choiceOf_pruned_option :
    let accented : Pattern Empty := char 'é'
    let longer : Pattern Empty := (accented.sequence (char 'a')).sequence digit
    let alternatives :=
      [accented, word "b", longer, (word "ab").optional, accented, never]
    let kept := [accented, word "b", (word "ab").optional]
    let c := Cursor.between ['x'] ['a', 'b', 'é'] false
    Relation.ReflTransGen LeavesOut alternatives kept ∧
      (choiceOf alternatives).matchCursor c =
        .between ['x', 'a', 'b'] ['é'] true := by
  intro accented longer alternatives kept c
  have hshadowed :
      LeavesOut alternatives
        [accented, word "b", (word "ab").optional, accented, never] :=
    .shadowed [accented, word "b"] [(word "ab").optional, accented, never]
      List.mem_cons_self ((BeginsWith.itself.followed _).followed _)
  have hunreached :
      LeavesOut
        [accented, word "b", (word "ab").optional, accented, never] kept :=
    .unreached [accented, word "b"] [accented, never] (by decide +kernel)
  have hpruned := (Relation.ReflTransGen.single hshadowed).tail hunreached
  exact ⟨hpruned,
    (matchCursor_choiceOf_pruned hpruned c).trans (by decide +kernel)⟩

end Pruning

section Sets

variable {κ : Type} [Matcher κ]

/-- A composed pattern with gaps, and one pattern put into all of them. -/
def fill (p : Pattern (Option κ)) (filling : Pattern κ) : Pattern κ :=
  p.graft fun gap? => gap?.elim filling leaf

theorem MatchesLike.fill {filling filling' : Pattern κ}
    (h : filling.MatchesLike filling') (p : Pattern (Option κ)) :
    (p.fill filling).MatchesLike (p.fill filling') := by
  apply MatchesLike.graft
  intro gap?
  cases gap? with
  | none => exact h
  | some value => exact matchesLike_refl _

theorem passIf_oneOf_singleton (ch : Char) (c : Cursor) :
    c.passIf (CharClass.oneOf [ch]).accepts =
      c.passIf (CharClass.only ch).accepts := by
  have haccepts :
      (CharClass.oneOf [ch]).accepts = (CharClass.only ch).accepts := by
    funext next
    rw [Bool.eq_iff_iff, CharClass.accepts_oneOf_iff, CharClass.accepts_only,
      beq_iff_eq, List.mem_singleton]
    exact eq_comm
  rw [haccepts]

/-- One more character in a set is one more alternative. -/
theorem choice_oneOf_char_matchesLike (chars : List Char) (ch : Char) :
    (choice (single (.oneOf chars)) (char ch) : Pattern κ).MatchesLike
      (single (.oneOf (chars ++ [ch]))) := by
  refine matchesLike_of_run_eq fun limit c => ?_
  simp only [run, char]
  cases hahead : c.ahead with
  | nil => simp [Cursor.passIf_of_ahead_nil hahead]
  | cons next rest =>
      simp only [Cursor.passIf_of_ahead_cons hahead]
      by_cases hmem : next ∈ chars
      · simp [CharClass.accepts, hmem]
      · by_cases heq : ch = next
        · simp [CharClass.accepts, hmem, heq]
        · simp [CharClass.accepts, hmem, heq, Ne.symm heq]

theorem oneOf_matchesLike_choiceOf (chars : List Char) :
    (single (.oneOf chars) : Pattern κ).MatchesLike
      (choiceOf (chars.map char)) := by
  cases chars with
  | nil => exact matchesLike_refl _
  | cons first rest =>
      induction rest using List.reverseRecOn with
      | nil =>
          exact matchesLike_of_run_eq fun _ c =>
            congrArg some (passIf_oneOf_singleton first c)
      | append_singleton rest last ih =>
          have hfold :
              (choiceOf ((first :: (rest ++ [last])).map char) : Pattern κ) =
                choice (choiceOf ((first :: rest).map char)) (char last) := by
            simp [choiceOf, List.foldl_append]
          rw [hfold]
          exact (choice_oneOf_char_matchesLike (first :: rest) last).symm.trans
            (ih.choice (matchesLike_refl _))

/-- Only the members of a set count, not their order or their number. -/
theorem oneOf_matchesLike {set set' : String}
    (hmem : ∀ ch, ch ∈ set.toList ↔ ch ∈ set'.toList) :
    (oneOf set : Pattern κ).MatchesLike (oneOf set') := by
  have haccepts : (CharClass.oneOf set.toList).accepts =
      (CharClass.oneOf set'.toList).accepts := by
    funext ch
    rw [Bool.eq_iff_iff, CharClass.accepts_oneOf_iff,
      CharClass.accepts_oneOf_iff, hmem]
  refine matchesLike_of_run_eq fun limit c => ?_
  simp only [oneOf, run, haccepts]

/-- A set of characters matches like the list of them as alternatives, whatever
is in it, alone and at any place in a pattern. So sets with the same members
match alike. -/
theorem returns_fill_oneOf (set : String) :
    (∀ c : Cursor, (oneOf set : Pattern Empty).matchCursor c =
      (choiceOf (set.toList.map char) : Pattern Empty).matchCursor c) ∧
    ∀ (κ : Type) [Matcher κ] (p : Pattern (Option κ)) (c result : Cursor),
      ((p.fill (oneOf set)).Returns c result ↔
        (p.fill (choiceOf (set.toList.map char))).Returns c result) ∧
      ∀ set' : String, (∀ ch, ch ∈ set.toList ↔ ch ∈ set'.toList) →
        ((p.fill (oneOf set)).Returns c result ↔
          (p.fill (oneOf set')).Returns c result) := by
  constructor
  · exact congrFun (matchesLike_iff.1 (oneOf_matchesLike_choiceOf set.toList))
  · intro κ _ p c result
    constructor
    · exact (oneOf_matchesLike_choiceOf set.toList).fill p c result
    · exact fun set' hmem => (oneOf_matchesLike hmem).fill p c result

/-- The same two letters in another order and one of them twice, in a repetition
of words of them before the end of the text. -/
theorem returns_fill_oneOf_twice :
    let letters : Pattern (Option EndMark) := (leaf none).repeated (.atLeast 1)
    let p := (letters.sequence (char ' ').optional).repeated .any |>.sequence
      (leaf (some .mark))
    let c := Cursor.between ['x'] ['é', 'a', ' ', 'a'] false
    (∀ ch, ch ∈ "éa".toList ↔ ch ∈ "aéa".toList) ∧
      (p.fill (oneOf "éa")).Returns c
        (.between ['x', 'é', 'a', ' ', 'a'] [] true) := by
  intro letters p c
  have hmem (ch : Char) : ch ∈ "éa".toList ↔ ch ∈ "aéa".toList := by
    change ch ∈ ['é', 'a'] ↔ ch ∈ ['a', 'é', 'a']
    simp [or_comm]
  exact ⟨hmem, (((returns_fill_oneOf "éa").2 EndMark p c _).2 "aéa" hmem).2
    ⟨5, by decide +kernel⟩⟩

end Sets

end Pattern

end TextPattern
