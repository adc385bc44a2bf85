import TextPattern.Proofs.Pattern.Tokens

/-!
Printed patterns have the fewest parentheses. A phrase is, once the parentheses
around the whole are taken off, the operator at the top of its pattern with its
operands (`Phrase.exists_bare`), and if none were there, that operator belongs
to a layer as tight as the phrase's. So where the text of a pattern with
parentheses around some of its nodes has a reading that stands for the pattern,
the operands have such readings in the layers of the grammar for them, and a
node that binds less tightly than that has parentheses. Main statement: these
are all nodes that are printed in parentheses
(`Pattern.render_fewest_parentheses`).
-/

namespace TextPattern

def Layer.precedence : Layer → Precedence
  | base => .base
  | repetition => .repetition
  | joined .sequence => .sequence
  | joined .choice => .choice

theorem Layer.rank_operand_le (junction : Junction) :
    junction.operand.precedence.rank ≤ (joined junction).precedence.rank := by
  cases junction <;> decide

theorem Precedence.rank_layer_le (required : Precedence) :
    required.layer.precedence.rank ≤ required.rank := by
  cases required <;> decide

/-- A part that is read as a phrase of the required layer is in parentheses if
it binds less tightly than required. -/
theorem Layer.enclosed_of_lt {required : Precedence} {own : Layer}
    {enclosed : Bool}
    (hle : enclosed.toNat = 0 →
      own.precedence.rank ≤ required.layer.precedence.rank)
    (hlt : required < own.precedence) : enclosed = true := by
  cases enclosed with
  | true => rfl
  | false =>
      have hrank : own.precedence.rank ≤ required.rank :=
        Nat.le_trans (hle rfl) required.rank_layer_le
      exact absurd hlt (Nat.not_lt.2 hrank)

theorem Junction.join_inj {junction junction' : Junction}
    {first second first' second' : Pattern Empty}
    (h : junction.join first second = junction'.join first' second') :
    junction = junction' ∧ first = first' ∧ second = second' := by
  cases junction <;> cases junction' <;> cases h <;> exact ⟨rfl, rfl, rfl⟩

theorem Junction.join_ne_repeated {junction : Junction}
    {first second part : Pattern Empty} {bounds : Bounds} :
    junction.join first second ≠ part.repeated bounds := by
  cases junction <;> exact nofun

/-- The tokens of a reading of the pattern that has no parentheses around the
whole, with the layer of that reading. -/
inductive Layer.Bare (p : Pattern Empty) : Layer → List Token → Prop
  | atom (value : Atom) (hp : value.pattern? = some p) :
      Bare p .base [.atom value]
  | repeated {inner : Phrase .base} {part : Pattern Empty}
      (hinner : inner.pattern? = some part)
      (count : CountPhrase) (bounds : Bounds) (hp : part.repeated bounds = p) :
      Bare p .repetition (inner.tokens ++ [.times count])
  | join {junction : Junction} {first : Phrase (.joined junction)}
      {second : Phrase junction.operand} {part part' : Pattern Empty}
      (hfirst : first.pattern? = some part)
      (hsecond : second.pattern? = some part')
      (hp : junction.join part part' = p) :
      Bare p (.joined junction)
        (first.tokens ++ .mark junction :: second.tokens)

namespace Phrase

open Token

variable {layer : Layer} {p first second : Pattern Empty}
  {front back : List Token}

/-- Takes the parentheses around the whole off a phrase. -/
theorem exists_bare {phrase : Phrase layer} (h : phrase.pattern? = some p) :
    ∃ depth own body, Layer.Bare p own body ∧ phrase.tokens = nest depth body ∧
      (depth = 0 → own.precedence.rank ≤ layer.precedence.rank) := by
  induction phrase generalizing p with
  | atom value => exact ⟨0, _, _, .atom value h, rfl, fun _ => Nat.le_refl _⟩
  | group inner ih =>
      obtain ⟨depth, own, body, hbare, htokens, -⟩ := ih h
      refine ⟨depth + 1, own, body, hbare, ?_, nofun⟩
      rw [tokens, htokens, ← nest_succ]
  | once inner ih =>
      obtain ⟨depth, own, body, hbare, htokens, hle⟩ := ih h
      exact ⟨depth, own, body, hbare, htokens,
        fun hdepth => Nat.le_trans (hle hdepth) (Nat.zero_le _)⟩
  | repeated inner count ih =>
      obtain ⟨part, bounds, hinner, hp⟩ := pattern?_repeated_eq_some h
      exact ⟨0, _, _, .repeated hinner count bounds hp, (nest_zero _).symm,
        fun _ => Nat.le_refl _⟩
  | alone inner ih =>
      obtain ⟨depth, own, body, hbare, htokens, hle⟩ := ih h
      exact ⟨depth, own, body, hbare, htokens,
        fun hdepth => Nat.le_trans (hle hdepth) (Layer.rank_operand_le _)⟩
  | join first second =>
      obtain ⟨part, part', hfirst, hsecond, hp⟩ := pattern?_join_eq_some h
      exact ⟨0, _, _, .join hfirst hsecond hp, (nest_zero _).symm,
        fun _ => Nat.le_refl _⟩

section Operands

variable {required : Precedence} {enclosed : Bool}
  {phrase : Phrase required.layer}

/-- A reading of an operator with its operands, in parentheses or not, reads the
operands as phrases of their layers, and the parentheses are there if they need
to be. -/
theorem of_join (junction : Junction)
    (h : phrase.pattern? = some (junction.join first second))
    (hfront : Writes first front)
    (htokens : phrase.tokens =
      nest enclosed.toNat (front ++ .mark junction :: back)) :
    (required < (Layer.joined junction).precedence → enclosed = true) ∧
      (∃ phrase : Phrase (.joined junction),
        phrase.pattern? = some first ∧ phrase.tokens = front) ∧
      ∃ phrase : Phrase junction.operand, phrase.pattern? = some second ∧
        phrase.tokens = back := by
  obtain ⟨depth, own, body, hbare, hbody, hle⟩ := exists_bare h
  rw [hbody] at htokens
  cases hbare with
  | atom value hp =>
      have hjoints := Atom.joints_eq_zero hp
      rw [junction.joints_join] at hjoints
      contradiction
  | repeated hinner count bounds hp =>
      exact absurd hp.symm Junction.join_ne_repeated
  | @join junction' first' second' part part' hfirst hsecond hp =>
      obtain ⟨rfl, rfl, rfl⟩ := Junction.join_inj hp
      obtain ⟨rfl, rfl, rfl⟩ := (writes hfirst).nest_inj hfront rfl rfl htokens
      exact ⟨Layer.enclosed_of_lt hle, ⟨first', hfirst, rfl⟩, second',
        hsecond, rfl⟩

/-- The same of a repetition. -/
theorem of_repeated {bounds : Bounds} {count : CountPhrase}
    (h : phrase.pattern? = some (p.repeated bounds)) (hfront : Writes p front)
    (htokens : phrase.tokens = nest enclosed.toNat (front ++ [.times count])) :
    (required < Layer.repetition.precedence → enclosed = true) ∧
      ∃ phrase : Phrase .base, phrase.pattern? = some p ∧
        phrase.tokens = front := by
  obtain ⟨depth, own, body, hbare, hbody, hle⟩ := exists_bare h
  rw [hbody] at htokens
  cases hbare with
  | atom value hp => exact absurd (Atom.joints_eq_zero hp) (Nat.succ_ne_zero _)
  | @repeated inner part hinner count' bounds' hp =>
      cases hp
      obtain ⟨rfl, rfl, -⟩ := (writes hinner).nest_inj hfront rfl rfl htokens
      exact ⟨Layer.enclosed_of_lt hle, inner, hinner, rfl⟩
  | join hfirst hsecond hp => exact absurd hp Junction.join_ne_repeated

end Operands

/-- Where a pattern written with parentheses around the chosen nodes has a
reading that stands for it, the nodes that are printed in parentheses are
chosen. -/
theorem chosen_of_parenthesized (required : Precedence)
    {phrase : Phrase required.layer} {chosen : Pattern.Node p → Bool}
    (h : phrase.pattern? = some p)
    (htokens : phrase.tokens = p.tokensWith chosen) (node : Pattern.Node p)
    (hnode : node.parenthesized required = true) : chosen node = true := by
  induction p generalizing required with
  | single cls =>
      cases node with
      | top => exact absurd (of_decide_eq_true hnode) (Nat.not_lt_zero _)
  | literal word =>
      cases node with
      | top => exact absurd (of_decide_eq_true hnode) (Nat.not_lt_zero _)
  | leaf value => exact value.elim
  | sequence first second ihFirst ihSecond =>
      obtain ⟨htop, ⟨phrase', hfirst, htokens'⟩, phrase'', hsecond,
        htokens''⟩ :=
        of_join .sequence h (first.writes_tokensWith _) htokens
      cases node with
      | top => exact htop (of_decide_eq_true hnode)
      | sequenceFirst node => exact ihFirst .sequence hfirst htokens' node hnode
      | sequenceSecond node =>
          exact ihSecond .repetition hsecond htokens'' node hnode
  | choice first second ihFirst ihSecond =>
      obtain ⟨htop, ⟨phrase', hfirst, htokens'⟩, phrase'', hsecond,
        htokens''⟩ :=
        of_join .choice h (first.writes_tokensWith _) htokens
      cases node with
      | top => exact htop (of_decide_eq_true hnode)
      | choiceFirst node => exact ihFirst .choice hfirst htokens' node hnode
      | choiceSecond node =>
          exact ihSecond .sequence hsecond htokens'' node hnode
  | repeated inner bounds ih =>
      obtain ⟨htop, phrase', hinner, htokens'⟩ :=
        of_repeated h (inner.writes_tokensWith _) htokens
      cases node with
      | top => exact htop (of_decide_eq_true hnode)
      | repeatedInner node => exact ih .base hinner htokens' node hnode

end Phrase

namespace Pattern

/-- What is printed of a pattern has parentheses around some nodes and is read
as the pattern. Any way of putting parentheses around nodes that is read as the
pattern puts them around these nodes too. If it puts them around others as well,
the text is another one and has more parentheses. -/
theorem render_fewest_parentheses (p : Pattern Empty) :
    p.writtenWith (Node.parenthesized .initial) = p.render.toList ∧
      (Layer.joined .choice).Expresses p.render.toList p ∧
      ∀ chosen : Node p → Bool,
        (Layer.joined .choice).Expresses (p.writtenWith chosen) p →
        (∀ node : Node p, node.parenthesized .initial = true →
          chosen node = true) ∧
          (chosen ≠ Node.parenthesized .initial →
            p.writtenWith chosen ≠ p.render.toList ∧
              p.pairs (Node.parenthesized .initial) < p.pairs chosen) := by
  have hprinted :
      p.writtenWith (Node.parenthesized .initial) = p.render.toList := by
    rw [p.writtenWith_parenthesized, render, toList_renderAt]
  refine ⟨hprinted, ?_, ?_⟩
  · rw [render, toList_renderAt]
    exact p.expresses_written .initial
  rintro chosen ⟨phrase, hwritten, hpattern⟩
  have htokens : phrase.tokens = p.tokensWith chosen := by
    apply Token.text_injective
    rw [phrase.text_tokens, p.text_tokensWith, hwritten]
  have hchosen : ∀ node : Node p, node.parenthesized .initial = true →
      chosen node = true :=
    Phrase.chosen_of_parenthesized .initial hpattern htokens
  refine ⟨hchosen, fun hne => ?_⟩
  have hmore := (eq_or_pairs_lt hchosen).resolve_left hne
  rw [← hprinted]
  exact ⟨fun hsame => Nat.ne_of_gt hmore (pairs_eq_of_writtenWith_eq hsame),
    hmore⟩

/-- Parentheses around everything are read as the pattern too, but are four
pairs in place of one. With no parentheses the text is not read as the
pattern. -/
theorem render_fewest_parentheses_alternatives :
    let p : Pattern Empty :=
      ((char 'a').choice (char 'b')).repeated (.atLeast 2)
    p.render.toList = "('a' | 'b') * 2..".toList ∧
      (Layer.joined .choice).Expresses "((('a') | ('b')) * 2..)".toList p ∧
      p.pairs (Node.parenthesized .initial) < p.pairs (fun _ => true) ∧
      ¬ (Layer.joined .choice).Expresses "'a' | 'b' * 2..".toList p := by
  intro p
  obtain ⟨-, -, hfewest⟩ := render_fewest_parentheses p
  have hsingle (ch : Char) : Layer.base.Expresses _ (char ch) :=
    CharClass.expresses_written (.only ch)
  have hall : (Layer.joined .choice).Expresses
      (p.writtenWith fun _ => true) p :=
    (((((hsingle 'a').to_choice.group.of_base (.joined .choice)).join
      ((hsingle 'b').to_choice.group.of_base _)).group.repeated
        (.atLeast 2)).to_choice.group).to_choice
  have hmore : (fun _ => true) ≠ Node.parenthesized (p := p) .initial := by
    intro h
    exact absurd (congrFun h .top) (by decide)
  refine ⟨by decide +kernel, hall, ((hfewest _ hall).2 hmore).2, ?_⟩
  intro hnone
  have hneeded := (hfewest (fun _ => false) hnone).1 (.repeatedInner .top) rfl
  contradiction

end Pattern

end TextPattern
