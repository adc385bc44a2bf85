import TextPattern.Pattern.Render
import TextPattern.Proofs.Pattern.Unambiguous

/-!
Printing stays within the grammar of printed patterns: what is printed is the
written form of a phrase that stands for the pattern
(`Pattern.expresses_written`). A part that binds less tightly than its
surroundings require becomes a base by its parentheses, and any other part is a
phrase of the required layer as it is (`Layer.Expresses.enclose`). Main
statement: the printed form of a pattern has one reading, and the pattern can be
told from it (`Pattern.renderAt_unambiguous`).
-/

namespace TextPattern

variable {text : List Char} {p first second : Pattern Empty}

theorem Numeral.count?_ofCount (count : UInt32) :
    (Numeral.ofCount count).count? = some count :=
  readCount?_countDigits count

/-- The spelling that bounds are printed in. -/
def CountPhrase.ofBounds (bounds : Bounds) : CountPhrase :=
  match bounds.most with
  | some limit =>
      if bounds.least = limit then exactly (.ofCount limit)
      else if bounds.least = 0 then atMost (.ofCount limit)
      else between (.ofCount bounds.least) (.ofCount limit)
  | none => if bounds.least = 0 then any else atLeast (.ofCount bounds.least)

theorem CountPhrase.written_ofBounds (bounds : Bounds) :
    (ofBounds bounds).written = bounds.written := by
  unfold ofBounds Bounds.written
  cases bounds.most with
  | none =>
      dsimp only
      split <;> rfl
  | some limit =>
      dsimp only
      split
      · rfl
      · split
        · rfl
        · exact (List.append_assoc _ _ _).symm

theorem CountPhrase.bounds?_eq_some {phrase : CountPhrase} {count : Count}
    {bounds : Bounds} (hcount : phrase.count? = some count)
    (hbounds : count.bounds.outcome = .ok bounds) :
    phrase.bounds? = some bounds := by
  simp [bounds?, hcount, hbounds, Except.toOption]

theorem CountPhrase.bounds?_ofBounds (bounds : Bounds) :
    (ofBounds bounds).bounds? = some bounds := by
  have hends : (Bounds.ofEnds bounds.least bounds.most).outcome = .ok bounds :=
    Bounds.outcome_ofEnds_eq_ok_iff.2 ⟨rfl, rfl⟩
  obtain ⟨least, most, hle⟩ := bounds
  unfold ofBounds
  cases most with
  | none =>
      dsimp only
      split
      · next hleast =>
          subst hleast
          exact bounds?_eq_some rfl hends
      · have hcount : (atLeast (.ofCount least)).count? =
            some (.range least .unbounded) := by
          simp [count?, Numeral.count?_ofCount]
        exact bounds?_eq_some hcount hends
  | some limit =>
      dsimp only
      split
      · next heq =>
          subst heq
          have hcount :
              (exactly (.ofCount least)).count? = some (.exactly least) := by
            simp [count?, Numeral.count?_ofCount]
          exact bounds?_eq_some hcount rfl
      · split
        · next hleast =>
            subst hleast
            have hcount : (atMost (.ofCount limit)).count? =
                some (.range none (.included limit)) := by
              simp [count?, Numeral.count?_ofCount]
            exact bounds?_eq_some hcount hends
        · have hcount : (between (.ofCount least) (.ofCount limit)).count? =
              some (.range least (.included limit)) := by
            simp [count?, Numeral.count?_ofCount]
          exact bounds?_eq_some hcount hends

/-- Some phrase of the layer is written as the text and stands for the
pattern. -/
def Layer.Expresses (layer : Layer) (text : List Char) (p : Pattern Empty) :
    Prop :=
  ∃ phrase : Phrase layer, phrase.written = text ∧ phrase.pattern? = some p

namespace Layer.Expresses

theorem once (h : Layer.base.Expresses text p) :
    Layer.repetition.Expresses text p := by
  obtain ⟨phrase, hwritten, hpattern⟩ := h
  exact ⟨.once phrase, hwritten, hpattern⟩

theorem alone (junction : Junction) (h : junction.operand.Expresses text p) :
    (Layer.joined junction).Expresses text p := by
  obtain ⟨phrase, hwritten, hpattern⟩ := h
  exact ⟨.alone phrase, hwritten, hpattern⟩

theorem group (h : (Layer.joined .choice).Expresses text p) :
    Layer.base.Expresses ('(' :: text ++ [')']) p := by
  obtain ⟨phrase, hwritten, hpattern⟩ := h
  refine ⟨.group phrase, ?_, hpattern⟩
  rw [Phrase.written, hwritten, List.cons_append]

theorem repeated (h : Layer.base.Expresses text p) (bounds : Bounds) :
    Layer.repetition.Expresses (text ++ ([' ', '*', ' '] ++ bounds.written))
      (p.repeated bounds) := by
  obtain ⟨phrase, hwritten, hpattern⟩ := h
  refine ⟨.repeated phrase (.ofBounds bounds), ?_, ?_⟩
  · rw [Phrase.written, hwritten, CountPhrase.written_ofBounds]
  · simp [Phrase.pattern?, hpattern, CountPhrase.bounds?_ofBounds]

theorem join {junction : Junction} {text' : List Char}
    (hfirst : (Layer.joined junction).Expresses text first)
    (hsecond : junction.operand.Expresses text' second) :
    (Layer.joined junction).Expresses
      (text ++ ([' ', junction.mark, ' '] ++ text'))
      (junction.join first second) := by
  obtain ⟨phrase, hwritten, hpattern⟩ := hfirst
  obtain ⟨phrase', hwritten', hpattern'⟩ := hsecond
  refine ⟨.join phrase phrase', ?_, ?_⟩
  · rw [Phrase.written, hwritten, hwritten']
  · simp [Phrase.pattern?, hpattern, hpattern']

/-- A base is a phrase of every layer. -/
theorem of_base (h : Layer.base.Expresses text p) :
    ∀ layer : Layer, layer.Expresses text p
  | .base => h
  | .repetition => h.once
  | .joined .sequence => h.once.alone .sequence
  | .joined .choice => (h.once.alone .sequence).alone .choice

/-- A phrase of any layer is a choice. -/
theorem to_choice {layer : Layer} (h : layer.Expresses text p) :
    (Layer.joined .choice).Expresses text p := by
  match layer with
  | .base => exact h.of_base _
  | .repetition => exact (h.alone .sequence).alone .choice
  | .joined .sequence => exact h.alone .choice
  | .joined .choice => exact h

end Layer.Expresses

def Precedence.layer : Precedence → Layer
  | base | character => .base
  | repetition => .repetition
  | sequence => .joined .sequence
  | choice | initial => .joined .choice

/-- What binds as tightly as required needs no parentheses. -/
theorem Layer.Expresses.of_tighter {own required : Precedence}
    (h : own.layer.Expresses text p) (hle : ¬ required < own) :
    required.layer.Expresses text p := by
  cases own with
  | base => exact h.of_base _
  | character => exact h.of_base _
  | repetition =>
      cases required with
      | repetition => exact h
      | sequence => exact h.alone .sequence
      | choice => exact h.to_choice
      | initial => exact h.to_choice
      | _ => exact absurd (by decide) hle
  | sequence =>
      cases required with
      | sequence => exact h
      | choice => exact h.to_choice
      | initial => exact h.to_choice
      | _ => exact absurd (by decide) hle
  | choice =>
      cases required with
      | choice => exact h
      | initial => exact h
      | _ => exact absurd (by decide) hle
  | initial =>
      cases required with
      | initial => exact h
      | _ => exact absurd (by decide) hle

theorem Layer.Expresses.enclose {own : Precedence}
    (h : own.layer.Expresses text p) (required : Precedence) :
    required.layer.Expresses (required.enclose own text) p := by
  unfold Precedence.enclose
  split
  · exact h.to_choice.group.of_base _
  · next hle => exact h.of_tighter hle

theorem CharClass.expresses_written (cls : CharClass) :
    Layer.base.Expresses cls.written (.single cls) := by
  cases cls with
  | only ch => exact ⟨.atom (.char ch), rfl, rfl⟩
  | between interval =>
      refine ⟨.atom (.interval interval.low interval.high), ?_, ?_⟩
      · exact (List.append_assoc _ _ _).symm
      · have hends : (CharInterval.ofEnds interval.low interval.high).outcome =
            .ok interval := by
          rw [CharInterval.ofEnds, dif_pos interval.low_le_high,
            Attempt.outcome_pure]
        simp [Phrase.pattern?, Atom.pattern?, hends, Except.toOption]
  | oneOf chars =>
      refine ⟨.atom (.oneOf chars), ?_, rfl⟩
      exact (List.append_assoc _ _ _).symm

theorem Pattern.expresses_written (p : Pattern Empty) (required : Precedence) :
    required.layer.Expresses (p.written required) p := by
  induction p generalizing required with
  | single cls => exact cls.expresses_written.of_base _
  | literal word =>
      exact Layer.Expresses.of_base ⟨.atom (.word word), rfl, rfl⟩ _
  | leaf value => exact value.elim
  | sequence first second ihFirst ihSecond =>
      have h : Precedence.sequence.layer.Expresses _ _ :=
        Layer.Expresses.join (ihFirst .sequence) (ihSecond .repetition)
      exact h.enclose required
  | choice first second ihFirst ihSecond =>
      have h : Precedence.choice.layer.Expresses _ _ :=
        Layer.Expresses.join (ihFirst .choice) (ihSecond .sequence)
      exact h.enclose required
  | repeated inner bounds ih =>
      have h : Precedence.repetition.layer.Expresses _ _ :=
        (ih .base).repeated bounds
      exact h.enclose required

/-- What is printed of a pattern, in any surroundings, has one reading, which
stands for the pattern, and no other pattern is printed so in any
surroundings. -/
theorem Pattern.renderAt_unambiguous (p : Pattern Empty)
    (required : Precedence) :
    (∃ phrase : Phrase (.joined .choice),
      phrase.written = (p.renderAt required).toList ∧ phrase.pattern? = some p ∧
        ∀ other : Phrase (.joined .choice),
          other.written = (p.renderAt required).toList → other = phrase) ∧
      ∀ (q : Pattern Empty) (required' : Precedence),
        q.renderAt required' = p.renderAt required → q = p := by
  obtain ⟨phrase, hwritten, hpattern⟩ :=
    (p.expresses_written required).to_choice
  rw [toList_renderAt]
  refine ⟨⟨phrase, hwritten, hpattern, ?_⟩, ?_⟩
  · intro other hother
    exact Phrase.written_injective (hother.trans hwritten.symm)
  · intro q required' h
    obtain ⟨phrase', hwritten', hpattern'⟩ :=
      (q.expresses_written required').to_choice
    have hsame : phrase'.written = phrase.written := by
      rw [hwritten', hwritten, ← toList_renderAt, ← toList_renderAt, h]
    rw [Phrase.written_injective hsame, hpattern] at hpattern'
    exact (Option.some.inj hpattern').symm

end TextPattern
