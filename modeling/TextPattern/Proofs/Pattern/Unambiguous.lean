import TextPattern.Pattern.Phrase
import TextPattern.Proofs.Text.Quoted

/-!
The grammar of printed patterns is unambiguous. A phrase of a layer can be over
where the text is, at a closing parenthesis, or at the mark of a looser operator
(`Ends`), and up to there it can be read in one way only. The left operand of an
operator can be over at the mark of that operator too, where the whole is not
over yet, so what an operator joins is compared as a list of operands
(`Phrase.operands`). Main statements: a phrase and what comes after it are
determined (`Phrase.determined`), and a text has at most one reading
(`Phrase.written_injective`).
-/

namespace TextPattern

/-- The marks that may follow a phrase of the layer: those of the operators of
looser layers. -/
def Layer.marksAfter : Layer → List Char
  | .base => ['*', '+', '|']
  | .repetition => ['+', '|']
  | .joined .sequence => ['|']
  | .joined .choice => []

/-- A text with which a phrase can be over: nothing, a closing parenthesis, or
one of the marks. -/
inductive Ends (marks : List Char) : List Char → Prop
  | nil : Ends marks []
  | close (later : List Char) : Ends marks (')' :: later)
  | mark {mark : Char} (hmark : mark ∈ marks) (later : List Char) :
      Ends marks ([' ', mark, ' '] ++ later)

section Ends

variable {marks marks' rest rest' : List Char}

theorem Ends.mono (hle : marks ⊆ marks') (h : Ends marks rest) :
    Ends marks' rest := by
  cases h with
  | nil => exact .nil
  | close later => exact .close later
  | mark hmark later => exact .mark (hle hmark) later

theorem Ends.of_repetition (h : Ends Layer.repetition.marksAfter rest) :
    Ends Layer.base.marksAfter rest :=
  h.mono (List.subset_cons_self '*' ['+', '|'])

theorem Ends.ne_mark (h : Ends marks rest) {mark : Char}
    (hmark : mark ∉ marks) : rest ≠ [' ', mark, ' '] ++ rest' := by
  rintro rfl
  cases h
  contradiction

/-- The characters that the pieces of a printed pattern begin with. -/
def leads : List Char := ['(', ')', ' ', '\'', '"', 'o']

/-- A text that no piece can go on with: it is over, or begins as another piece
does. -/
def Apart (rest : List Char) : Prop := ∀ ch ∈ rest.head?, ch ∈ leads

theorem Ends.apart (h : Ends marks rest) : Apart rest := by
  cases h <;> simp [Apart, leads]

theorem Apart.ne_cons (h : Apart rest) {ch : Char} (hch : ch ∉ leads) :
    rest ≠ ch :: rest' := by
  rintro rfl
  exact hch (h ch rfl)

theorem Apart.isDigit_head? (h : Apart rest) :
    ∀ ch ∈ rest.head?, ch.isDigit = false := by
  have hleads : ∀ ch ∈ leads, ch.isDigit = false := by
    simp [leads, Char.isDigit]
  exact fun ch hch => hleads ch (h ch hch)

end Ends

theorem Numeral.append_inj {numeral numeral' : Numeral} {rest rest' : List Char}
    (hrest : ∀ ch ∈ rest.head?, ch.isDigit = false)
    (hrest' : ∀ ch ∈ rest'.head?, ch.isDigit = false)
    (h : numeral.digits ++ rest = numeral'.digits ++ rest') :
    numeral = numeral' ∧ rest = rest' := by
  obtain ⟨hdigits, heq⟩ :=
    run_append_inj Char.isDigit numeral.isDigit_of_mem numeral'.isDigit_of_mem
      hrest hrest' h
  exact ⟨Numeral.ext hdigits, heq⟩

/-- What may stand after the first digits of a count: nothing, dots, or dots and
a limit. -/
inductive DotsForm : List Char → Prop
  | none : DotsForm []
  | alone : DotsForm "..".toList
  | limited (limit : Numeral) : DotsForm ("..=".toList ++ limit.digits)

namespace CountPhrase

def front : CountPhrase → List Char
  | exactly count => count.digits
  | any | atMost _ => []
  | atLeast least | between least _ => least.digits

def dots : CountPhrase → List Char
  | exactly _ => []
  | any | atLeast _ => "..".toList
  | atMost limit | between _ limit => "..=".toList ++ limit.digits

theorem written_eq_front_append_dots (phrase : CountPhrase) :
    phrase.written = phrase.front ++ phrase.dots := by
  cases phrase <;> simp [written, front, dots]

theorem isDigit_of_mem_front (phrase : CountPhrase) :
    ∀ ch ∈ phrase.front, ch.isDigit = true := by
  cases phrase with
  | exactly count => exact count.isDigit_of_mem
  | any => simp [front]
  | atMost limit => simp [front]
  | atLeast least => exact least.isDigit_of_mem
  | between least limit => exact least.isDigit_of_mem

theorem dotsForm_dots (phrase : CountPhrase) : DotsForm phrase.dots := by
  cases phrase with
  | exactly count => exact .none
  | any => exact .alone
  | atMost limit => exact .limited limit
  | atLeast least => exact .alone
  | between least limit => exact .limited limit

/-- The five spellings differ in whether there are digits, dots and a limit. -/
theorem eq_of_front_eq_of_dots_eq {phrase phrase' : CountPhrase}
    (hfront : phrase.front = phrase'.front)
    (hdots : phrase.dots = phrase'.dots) : phrase = phrase' := by
  cases phrase <;> cases phrase' <;>
    simp_all [front, dots, Numeral.digits_ne_nil, Numeral.ext_iff]

end CountPhrase

section Counts

variable {rest rest' : List Char}

theorem DotsForm.isDigit_head? {form : List Char} (hform : DotsForm form)
    (hrest : Apart rest) : ∀ ch ∈ (form ++ rest).head?, ch.isDigit = false := by
  cases hform with
  | none => exact hrest.isDigit_head?
  | alone => simp
  | limited limit => simp

theorem DotsForm.append_inj {form form' : List Char} (hform : DotsForm form)
    (hform' : DotsForm form') (hrest : Apart rest) (hrest' : Apart rest')
    (h : form ++ rest = form' ++ rest') : form = form' ∧ rest = rest' := by
  cases hform with
  | none =>
      cases hform' with
      | none => exact ⟨rfl, h⟩
      | alone => exact absurd h (hrest.ne_cons (by decide))
      | limited limit => exact absurd h (hrest.ne_cons (by decide))
  | alone =>
      cases hform' with
      | none => exact absurd h.symm (hrest'.ne_cons (by decide))
      | alone => exact ⟨rfl, List.append_cancel_left h⟩
      | limited limit =>
          exact absurd (List.cons.inj (List.cons.inj h).2).2
            (hrest.ne_cons (by decide))
  | limited limit =>
      cases hform' with
      | none => exact absurd h.symm (hrest'.ne_cons (by decide))
      | alone =>
          exact absurd (List.cons.inj (List.cons.inj h).2).2.symm
            (hrest'.ne_cons (by decide))
      | limited limit' =>
          rw [List.append_assoc, List.append_assoc] at h
          obtain ⟨rfl, rfl⟩ := Numeral.append_inj hrest.isDigit_head?
            hrest'.isDigit_head? (List.append_cancel_left h)
          exact ⟨rfl, rfl⟩

theorem CountPhrase.append_inj {phrase phrase' : CountPhrase}
    (hrest : Apart rest) (hrest' : Apart rest')
    (h : phrase.written ++ rest = phrase'.written ++ rest') :
    phrase = phrase' ∧ rest = rest' := by
  simp only [written_eq_front_append_dots, List.append_assoc] at h
  obtain ⟨hfront, hlater⟩ :=
    run_append_inj Char.isDigit phrase.isDigit_of_mem_front
      phrase'.isDigit_of_mem_front (phrase.dotsForm_dots.isDigit_head? hrest)
      (phrase'.dotsForm_dots.isDigit_head? hrest') h
  obtain ⟨hdots, heq⟩ :=
    phrase.dotsForm_dots.append_inj phrase'.dotsForm_dots hrest hrest' hlater
  exact ⟨eq_of_front_eq_of_dots_eq hfront hdots, heq⟩

end Counts

namespace Atom

variable {rest rest' : List Char}

def lead : Atom → Char
  | char _ | interval _ _ => '\''
  | word _ => '"'
  | oneOf _ => 'o'

theorem head?_written_append (atom : Atom) (rest : List Char) :
    (atom.written ++ rest).head? = some atom.lead := by
  cases atom <;> rfl

theorem append_inj {atom atom' : Atom} (hrest : Apart rest)
    (hrest' : Apart rest') (h : atom.written ++ rest = atom'.written ++ rest') :
    atom = atom' ∧ rest = rest' := by
  have hlead : atom.lead = atom'.lead := by
    simpa only [head?_written_append, Option.some.injEq]
      using congrArg List.head? h
  cases atom with
  | char ch =>
      cases atom' with
      | char ch' =>
          rw [written_char, written_char] at h
          obtain ⟨rfl, rfl⟩ := quotedChar_append_inj h
          exact ⟨rfl, rfl⟩
      | interval low' high' =>
          rw [written_char, written_interval, List.append_assoc,
            List.append_assoc] at h
          have hlater := (quotedChar_append_inj h).2
          exact absurd hlater (hrest.ne_cons (by decide))
      | word _ => simp [lead] at hlead
      | oneOf _ => simp [lead] at hlead
  | interval low high =>
      cases atom' with
      | char ch' =>
          rw [written_char, written_interval, List.append_assoc,
            List.append_assoc] at h
          have hlater := (quotedChar_append_inj h).2
          exact absurd hlater.symm (hrest'.ne_cons (by decide))
      | interval low' high' =>
          simp only [written_interval, List.append_assoc] at h
          obtain ⟨rfl, hlater⟩ := quotedChar_append_inj h
          obtain ⟨rfl, rfl⟩ :=
            quotedChar_append_inj (List.append_cancel_left hlater)
          exact ⟨rfl, rfl⟩
      | word _ => simp [lead] at hlead
      | oneOf _ => simp [lead] at hlead
  | word chars =>
      cases atom' with
      | word chars' =>
          rw [written_word, written_word] at h
          obtain ⟨rfl, rfl⟩ := quotedText_append_inj h
          exact ⟨rfl, rfl⟩
      | char _ => simp [lead] at hlead
      | interval _ _ => simp [lead] at hlead
      | oneOf _ => simp [lead] at hlead
  | oneOf chars =>
      cases atom' with
      | oneOf chars' =>
          simp only [written_oneOf, List.append_assoc] at h
          obtain ⟨rfl, hlater⟩ :=
            quotedText_append_inj (List.append_cancel_left h)
          exact ⟨rfl, List.append_cancel_left hlater⟩
      | char _ => simp [lead] at hlead
      | interval _ _ => simp [lead] at hlead
      | word _ => simp [lead] at hlead

/-- No atom begins with a parenthesis. -/
theorem written_append_ne (atom : Atom) :
    atom.written ++ rest ≠ '(' :: rest' := by
  intro h
  have hlead : some atom.lead = some '(' := by
    rw [← atom.head?_written_append rest, h, List.head?_cons]
  cases atom <;> simp [lead] at hlead

end Atom

namespace Phrase

variable {layer : Layer} {junction : Junction} {rest rest' : List Char}

/-- Wherever the phrase stands at the front of a text and can be over where it
ends, it is the only phrase of its layer that does, and what comes after it is
determined. -/
def Determined (phrase : Phrase layer) : Prop :=
  ∀ ⦃other : Phrase layer⦄ ⦃rest rest' : List Char⦄,
    Ends layer.marksAfter rest → Ends layer.marksAfter rest' →
      phrase.written ++ rest = other.written ++ rest' →
        phrase = other ∧ rest = rest'

/-- The operands of the operator at the top of a phrase, from left to right. -/
def operands : Phrase (.joined junction) → List (Phrase junction.operand)
  | alone inner => [inner]
  | join first second => first.operands ++ [second]

theorem operands_ne_nil (phrase : Phrase (.joined junction)) :
    phrase.operands ≠ [] := by
  fun_cases operands phrase <;> simp

theorem operands_injective : Function.Injective (@operands junction) := by
  intro phrase phrase' h
  fun_induction operands phrase generalizing phrase' with
  | case1 inner =>
      cases phrase' with
      | alone inner' =>
          rw [operands, List.singleton_inj] at h
          rw [h]
      | join first' second' =>
          rw [operands, List.singleton_eq_append_iff] at h
          simp [operands_ne_nil] at h
  | case2 first second ih =>
      cases phrase' with
      | alone inner' =>
          rw [operands, List.append_eq_singleton_iff] at h
          simp [operands_ne_nil] at h
      | join first' second' =>
          rw [operands] at h
          obtain ⟨hfirst, hsecond⟩ := List.append_inj' h rfl
          rw [ih hfirst, List.singleton_inj.1 hsecond]

end Phrase

namespace Junction

variable {junction : Junction} {rest rest' : List Char}

theorem mark_mem_marksAfter_operand (junction : Junction) :
    junction.mark ∈ junction.operand.marksAfter := by
  cases junction <;> decide

theorem mark_notMem_marksAfter (junction : Junction) :
    junction.mark ∉ (Layer.joined junction).marksAfter := by
  cases junction <;> decide

theorem marksAfter_subset (junction : Junction) :
    (Layer.joined junction).marksAfter ⊆ junction.operand.marksAfter := by
  cases junction <;> decide

/-- Operands with the mark of the operator in front of each. -/
def chain (junction : Junction) (operands : List (Phrase junction.operand)) :
    List Char :=
  operands.flatMap fun operand => [' ', junction.mark, ' '] ++ operand.written

theorem chain_cons (operand : Phrase junction.operand)
    (later : List (Phrase junction.operand)) :
    junction.chain (operand :: later) ++ rest =
      [' ', junction.mark, ' '] ++
        (operand.written ++ (junction.chain later ++ rest)) := by
  simp [chain]

theorem ends_chain (operands : List (Phrase junction.operand))
    (hrest : Ends (Layer.joined junction).marksAfter rest) :
    Ends junction.operand.marksAfter (junction.chain operands ++ rest) := by
  cases operands with
  | nil => exact hrest.mono junction.marksAfter_subset
  | cons operand later =>
      rw [chain_cons]
      exact .mark junction.mark_mem_marksAfter_operand _

theorem chain_append_inj {operands operands' : List (Phrase junction.operand)}
    (hoperands : ∀ operand ∈ operands, operand.Determined)
    (hrest : Ends (Layer.joined junction).marksAfter rest)
    (hrest' : Ends (Layer.joined junction).marksAfter rest')
    (h : junction.chain operands ++ rest = junction.chain operands' ++ rest') :
    operands = operands' ∧ rest = rest' := by
  induction operands generalizing operands' with
  | nil =>
      cases operands' with
      | nil => exact ⟨rfl, h⟩
      -- the whole cannot be over at a mark of its own, so no operand is left on
      -- one side only
      | cons operand' later' =>
          rw [chain_cons] at h
          exact absurd h (hrest.ne_mark junction.mark_notMem_marksAfter)
  | cons operand later ih =>
      rw [chain_cons] at h
      cases operands' with
      | nil =>
          exact absurd h.symm (hrest'.ne_mark junction.mark_notMem_marksAfter)
      | cons operand' later' =>
          rw [chain_cons] at h
          obtain ⟨rfl, hlater⟩ :=
            hoperands operand List.mem_cons_self (ends_chain later hrest)
              (ends_chain later' hrest') (List.append_cancel_left h)
          obtain ⟨rfl, rfl⟩ :=
            ih (fun operand hmem =>
              hoperands operand (List.mem_cons_of_mem _ hmem)) hlater
          exact ⟨rfl, rfl⟩

end Junction

namespace Phrase

variable {layer : Layer} {junction : Junction} {rest rest' : List Char}

theorem chain_operands (phrase : Phrase (.joined junction)) :
    junction.chain phrase.operands =
      [' ', junction.mark, ' '] ++ phrase.written := by
  fun_induction operands phrase with
  | case1 inner => simp [Junction.chain, written]
  | case2 first second ih =>
      rw [Junction.chain, List.flatMap_append, ← Junction.chain, ih]
      simp [written]

theorem determined_of_operands {phrase : Phrase (.joined junction)}
    (hoperands : ∀ operand ∈ phrase.operands, operand.Determined) :
    phrase.Determined := by
  intro other rest rest' hrest hrest' h
  have hchain : junction.chain phrase.operands ++ rest =
      junction.chain other.operands ++ rest' := by
    rw [chain_operands, chain_operands, List.append_assoc, List.append_assoc, h]
  obtain ⟨heq, hlater⟩ :=
    Junction.chain_append_inj hoperands hrest hrest' hchain
  exact ⟨operands_injective heq, hlater⟩

/-- What holds of a phrase by induction: it is determined, and so are its
operands. -/
def Settled {layer : Layer} (phrase : Phrase layer) : Prop :=
  match layer, phrase with
  | .base, phrase => phrase.Determined
  | .repetition, phrase => phrase.Determined
  | .joined _, phrase => ∀ operand ∈ phrase.operands, operand.Determined

theorem Settled.determined {phrase : Phrase layer} (h : phrase.Settled) :
    phrase.Determined := by
  cases layer with
  | base => exact h
  | repetition => exact h
  | joined junction => exact determined_of_operands h

theorem determined_atom (value : Atom) : (atom value).Determined := by
  intro other rest rest' hrest hrest' h
  cases other with
  | atom value' =>
      obtain ⟨rfl, rfl⟩ := Atom.append_inj hrest.apart hrest'.apart h
      exact ⟨rfl, rfl⟩
  | group inner' => exact absurd h value.written_append_ne

theorem determined_group {inner : Phrase (.joined .choice)}
    (hinner : inner.Determined) : (group inner).Determined := by
  intro other rest rest' hrest hrest' h
  cases other with
  | atom value' => exact absurd h.symm value'.written_append_ne
  | group inner' =>
      have hafter : inner.written ++ (')' :: rest) =
          inner'.written ++ (')' :: rest') := by
        simpa [written] using h
      obtain ⟨rfl, hclose⟩ := hinner (.close rest) (.close rest') hafter
      exact ⟨rfl, (List.cons.inj hclose).2⟩

theorem determined_once {inner : Phrase .base} (hinner : inner.Determined) :
    (once inner).Determined := by
  intro other rest rest' hrest hrest' h
  cases other with
  | once inner' =>
      obtain ⟨rfl, rfl⟩ := hinner hrest.of_repetition hrest'.of_repetition h
      exact ⟨rfl, rfl⟩
  | repeated inner' count' =>
      rw [written, written, List.append_assoc, List.append_assoc] at h
      -- the base is the same on both sides, so here a repetition would be over
      -- at `*`
      have hlater := (hinner hrest.of_repetition (.mark (by decide) _) h).2
      exact absurd hlater (hrest.ne_mark (by decide))

theorem determined_repeated {inner : Phrase .base} (hinner : inner.Determined)
    (count : CountPhrase) : (repeated inner count).Determined := by
  intro other rest rest' hrest hrest' h
  cases other with
  | once inner' =>
      rw [written, written, List.append_assoc, List.append_assoc] at h
      have hlater := (hinner (.mark (by decide) _) hrest'.of_repetition h).2
      exact absurd hlater.symm (hrest'.ne_mark (by decide))
  | repeated inner' count' =>
      simp only [written, List.append_assoc] at h
      obtain ⟨rfl, hlater⟩ :=
        hinner (.mark (by decide) _) (.mark (by decide) _) h
      obtain ⟨rfl, rfl⟩ := CountPhrase.append_inj hrest.apart hrest'.apart
        (List.append_cancel_left hlater)
      exact ⟨rfl, rfl⟩

theorem settled (phrase : Phrase layer) : phrase.Settled := by
  induction phrase with
  | atom value => exact determined_atom value
  | group inner ih => exact determined_group ih.determined
  | once inner ih => exact determined_once ih.determined
  | repeated inner count ih => exact determined_repeated ih.determined count
  | alone inner ih =>
      intro operand hoperand
      rw [operands, List.mem_singleton] at hoperand
      rw [hoperand]
      exact ih.determined
  | join first second ihFirst ihSecond =>
      intro operand hoperand
      rw [operands, List.mem_append, List.mem_singleton] at hoperand
      rcases hoperand with hfirst | rfl
      · exact ihFirst operand hfirst
      · exact ihSecond.determined

/-- A phrase can be read in one way only up to where it can be over. -/
theorem determined (phrase : Phrase layer) : phrase.Determined :=
  phrase.settled.determined

/-- A text has at most one reading. -/
theorem written_injective : Function.Injective (@written layer) := by
  intro phrase phrase' h
  exact (phrase.determined .nil .nil (congrArg (· ++ []) h)).1

end Phrase

end TextPattern
