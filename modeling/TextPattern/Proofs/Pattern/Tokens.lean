import TextPattern.Pattern.Parentheses
import TextPattern.Proofs.Pattern.Printed

/-!
Printed patterns as lists of tokens. A token is a piece of the text that is not
taken apart any further, so parentheses, operators and counts can be told from
the same characters in quotes. Main statements: a text is made up of at most one
list of tokens (`Token.text_injective`), and where two lists of tokens stand for
an operator and its operands, with parentheses around the whole, they have as
many of them and the same operands (`Writes.nest_inj`). That needs no more of a
left operand than that it holds as many parentheses of either kind, and as many
operators as its pattern (`Writes`). How many pairs of parentheses a pattern is
written with can be told from the text (`Pattern.pairs_eq_of_writtenWith_eq`).
-/

namespace TextPattern

theorem Atom.lead_ne (atom : Atom) {ch : Char} (hch : ch ∈ ['(', ')', ' ']) :
    atom.lead ≠ ch := by
  rintro rfl
  cases atom <;> simp [lead] at hch

theorem Junction.mark_injective : Function.Injective Junction.mark := by
  intro junction junction' h
  cases junction <;> cases junction' <;> first | rfl | contradiction

theorem Junction.mark_ne (junction : Junction) : junction.mark ≠ '*' := by
  cases junction <;> decide

/-- The pieces of printed patterns. -/
inductive Token where
  | opening
  | closing
  | atom (value : Atom)
  | mark (junction : Junction)
  | times (count : CountPhrase)
  deriving DecidableEq

namespace Token

variable {rest rest' : List Char}

def written : Token → List Char
  | opening => ['(']
  | closing => [')']
  | atom value => value.written
  | mark junction => [' ', junction.mark, ' ']
  | times count => [' ', '*', ' '] ++ count.written

def text (tokens : List Token) : List Char := tokens.flatMap written

def lead : Token → Char
  | opening => '('
  | closing => ')'
  | atom value => value.lead
  | mark _ => ' '
  | times _ => ' '

theorem head?_written_append (token : Token) (rest : List Char) :
    (token.written ++ rest).head? = some token.lead := by
  cases token with
  | atom value => exact value.head?_written_append rest
  | _ => rfl

theorem text_cons (token : Token) (later : List Token) :
    text (token :: later) = token.written ++ text later := rfl

theorem lead_mem_leads (token : Token) : token.lead ∈ leads := by
  cases token with
  | atom value => cases value <;> simp [lead, Atom.lead, leads]
  | _ => simp [lead, leads]

theorem apart_text (tokens : List Token) : Apart (text tokens) := by
  intro ch hch
  cases tokens with
  | nil => contradiction
  | cons token later =>
      rw [text_cons, head?_written_append, Option.mem_some_iff] at hch
      exact hch ▸ token.lead_mem_leads

/-- The first token of a text is determined, and so is what comes after it. -/
theorem append_inj {token token' : Token} (hrest : Apart rest)
    (hrest' : Apart rest')
    (h : token.written ++ rest = token'.written ++ rest') :
    token = token' ∧ rest = rest' := by
  have hlead : token.lead = token'.lead := by
    simpa only [head?_written_append, Option.some.injEq]
      using congrArg List.head? h
  cases token with
  | opening =>
      cases token' with
      | opening => exact ⟨rfl, (List.cons.inj h).2⟩
      | atom value' => exact absurd hlead.symm (value'.lead_ne (by simp [lead]))
      | _ => simp [lead] at hlead
  | closing =>
      cases token' with
      | closing => exact ⟨rfl, (List.cons.inj h).2⟩
      | atom value' => exact absurd hlead.symm (value'.lead_ne (by simp [lead]))
      | _ => simp [lead] at hlead
  | atom value =>
      cases token' with
      | atom value' =>
          obtain ⟨rfl, rfl⟩ := Atom.append_inj hrest hrest' h
          exact ⟨rfl, rfl⟩
      | _ => exact absurd hlead (value.lead_ne (by simp [lead]))
  -- Both kinds of operator begin with a blank, so they are told apart by what
  -- comes next.
  | mark junction =>
      cases token' with
      | mark junction' =>
          obtain ⟨hmark, hlater⟩ := List.cons.inj (List.cons.inj h).2
          rw [junction.mark_injective hmark]
          exact ⟨rfl, (List.cons.inj hlater).2⟩
      | times count' =>
          exact absurd (List.cons.inj (List.cons.inj h).2).1 junction.mark_ne
      | atom value' => exact absurd hlead.symm (value'.lead_ne (by simp [lead]))
      | _ => simp [lead] at hlead
  | times count =>
      cases token' with
      | times count' =>
          obtain ⟨rfl, rfl⟩ := CountPhrase.append_inj hrest hrest'
            (List.cons.inj (List.cons.inj (List.cons.inj h).2).2).2
          exact ⟨rfl, rfl⟩
      | mark junction' =>
          exact absurd (List.cons.inj (List.cons.inj h).2).1.symm
            junction'.mark_ne
      | atom value' => exact absurd hlead.symm (value'.lead_ne (by simp [lead]))
      | _ => simp [lead] at hlead

theorem text_cons_ne_nil (token : Token) (later : List Token) :
    text (token :: later) ≠ [] := by
  intro h
  have hhead := token.head?_written_append (text later)
  rw [← text_cons, h] at hhead
  contradiction

theorem text_injective : Function.Injective text := by
  intro tokens tokens' h
  induction tokens generalizing tokens' with
  | nil =>
      cases tokens' with
      | nil => rfl
      | cons token' later' =>
          exact absurd h.symm (text_cons_ne_nil token' later')
  | cons token later ih =>
      cases tokens' with
      | nil => exact absurd h (text_cons_ne_nil token later)
      | cons token' later' =>
          rw [text_cons, text_cons] at h
          obtain ⟨rfl, hlater⟩ :=
            append_inj (apart_text later) (apart_text later') h
          rw [ih hlater]

theorem text_append (front back : List Token) :
    text (front ++ back) = text front ++ text back :=
  List.flatMap_append

def nest (depth : Nat) (body : List Token) : List Token :=
  List.replicate depth opening ++ (body ++ List.replicate depth closing)

theorem nest_zero (body : List Token) : nest 0 body = body :=
  List.append_nil body

theorem nest_succ (depth : Nat) (body : List Token) :
    nest (depth + 1) body = nest 1 (nest depth body) := by
  rw [nest, List.replicate_succ, List.replicate_succ']
  simp [nest]

theorem text_nest_toNat (chosen : Bool) (body : List Token) :
    text (nest chosen.toNat body) =
      Pattern.parenthesize chosen (text body) := by
  cases chosen with
  | false => exact congrArg text (nest_zero body)
  | true => simp [nest, Pattern.parenthesize, text, written]

theorem count_opening_nest (depth : Nat) (body : List Token) :
    (nest depth body).count opening = depth + body.count opening := by
  simp [nest, List.count_replicate]

/-- Whether the token is an operator, or an operator with its count. -/
def isJoint : Token → Bool
  | mark _ => true
  | times _ => true
  | _ => false

end Token

/-- Two lists cut before an element that passes a test, each after as many
others that pass it, have the same parts if they are the same. -/
theorem append_cons_inj_of_countP_eq {α : Type} {test : α → Bool}
    {front front' back back' : List α} {a a' : α} (ha : test a = true)
    (ha' : test a' = true) (hcountP : front.countP test = front'.countP test)
    (h : front ++ a :: back = front' ++ a' :: back') :
    front = front' ∧ back = back' := by
  induction front generalizing front' with
  | nil =>
      cases front' with
      | nil => exact ⟨rfl, (List.cons.inj h).2⟩
      | cons first' later' =>
          obtain ⟨rfl, -⟩ := List.cons.inj h
          rw [List.countP_nil, List.countP_cons_of_pos ha] at hcountP
          omega
  | cons first later ih =>
      cases front' with
      | nil =>
          obtain ⟨rfl, -⟩ := List.cons.inj h
          rw [List.countP_nil, List.countP_cons_of_pos ha'] at hcountP
          omega
      | cons first' later' =>
          obtain ⟨rfl, hlater⟩ := List.cons.inj h
          rw [List.countP_cons, List.countP_cons, Nat.add_right_cancel_iff]
            at hcountP
          obtain ⟨rfl, hback⟩ := ih hcountP hlater
          exact ⟨rfl, hback⟩

/-- The number of nodes with parts. -/
def Pattern.joints {κ : Type} : Pattern κ → Nat
  | single _ => 0
  | literal _ => 0
  | leaf _ => 0
  | sequence first second => first.joints + second.joints + 1
  | choice first second => first.joints + second.joints + 1
  | repeated inner _ => inner.joints + 1

theorem Junction.joints_join (junction : Junction)
    (first second : Pattern Empty) :
    (junction.join first second).joints = first.joints + second.joints + 1 := by
  cases junction <;> rfl

/-- What all ways of writing the pattern have in common: as many parentheses of
either kind, and one operator for each node with parts. -/
structure Writes (p : Pattern Empty) (tokens : List Token) : Prop where
  count_eq : tokens.count .opening = tokens.count .closing
  countP_eq : tokens.countP Token.isJoint = p.joints

namespace Writes

open Token

variable {p first second : Pattern Empty} {tokens tokens' : List Token}

theorem atom (hp : p.joints = 0) (value : Atom) : Writes p [.atom value] :=
  ⟨rfl, hp.symm⟩

theorem nest (h : Writes p tokens) (depth : Nat) :
    Writes p (nest depth tokens) where
  count_eq := by
    simp [Token.nest, List.count_replicate, h.count_eq, Nat.add_comm]
  countP_eq := by simp [Token.nest, List.countP_replicate, isJoint, h.countP_eq]

theorem join (junction : Junction) (h : Writes first tokens)
    (h' : Writes second tokens') :
    Writes (junction.join first second)
      (tokens ++ .mark junction :: tokens') where
  count_eq := by simp [h.count_eq, h'.count_eq]
  countP_eq := by
    rw [List.countP_append, List.countP_cons_of_pos rfl, h.countP_eq,
      h'.countP_eq, junction.joints_join, Nat.add_assoc]

theorem repeated (h : Writes p tokens) (bounds : Bounds) (count : CountPhrase) :
    Writes (p.repeated bounds) (tokens ++ [.times count]) where
  count_eq := by simp [h.count_eq]
  countP_eq := by simp [isJoint, h.countP_eq, Pattern.joints]

/-- The first operand is over at the operator before which there are as many
operators as it has, and as many parentheses as are open there are around the
whole. -/
theorem nest_inj {depth depth' : Nat} {front front' back back' : List Token}
    {joint joint' : Token} (hfront : Writes p front) (hfront' : Writes p front')
    (hjoint : joint.isJoint = true) (hjoint' : joint'.isJoint = true)
    (h : Token.nest depth (front ++ joint :: back) =
      Token.nest depth' (front' ++ joint' :: back')) :
    depth = depth' ∧ front = front' ∧ back = back' := by
  simp only [Token.nest, List.append_assoc, List.cons_append] at h
  simp only [← List.append_assoc (List.replicate _ opening)] at h
  have hcountP : (List.replicate depth opening ++ front).countP isJoint =
      (List.replicate depth' opening ++ front').countP isJoint := by
    simp [List.countP_replicate, isJoint, hfront.countP_eq, hfront'.countP_eq]
  obtain ⟨hopen, hclose⟩ :=
    append_cons_inj_of_countP_eq hjoint hjoint' hcountP h
  have hdepth : depth = depth' := by
    have hnone (n : Nat) : (List.replicate n opening).count closing = 0 := by
      simp [List.count_replicate]
    have hopening := congrArg (List.count opening) hopen
    have hclosing := congrArg (List.count closing) hopen
    rw [List.count_append, List.count_append, List.count_replicate_self,
      List.count_replicate_self, hfront.count_eq, hfront'.count_eq] at hopening
    rw [List.count_append, List.count_append, hnone, hnone] at hclosing
    omega
  subst hdepth
  exact ⟨rfl, List.append_cancel_left hopen, List.append_cancel_right hclose⟩

end Writes

theorem Atom.joints_eq_zero {value : Atom} {p : Pattern Empty}
    (h : value.pattern? = some p) : p.joints = 0 := by
  cases value with
  | interval low high =>
      simp only [pattern?, Option.bind_eq_bind, Option.bind_eq_some_iff,
        Option.pure_def, Option.some.injEq] at h
      obtain ⟨interval, -, rfl⟩ := h
      rfl
  | _ =>
      cases h
      rfl

namespace Phrase

variable {layer : Layer}

def tokens {layer : Layer} : Phrase layer → List Token
  | atom value => [.atom value]
  | group inner => Token.nest 1 inner.tokens
  | once inner => inner.tokens
  | repeated inner count => inner.tokens ++ [.times count]
  | alone inner => inner.tokens
  | @join junction first second =>
      first.tokens ++ .mark junction :: second.tokens

theorem text_tokens (phrase : Phrase layer) :
    Token.text phrase.tokens = phrase.written := by
  induction phrase with
  | atom value => exact List.append_nil _
  | group inner ih => exact (Token.text_nest_toNat true _).trans (congrArg _ ih)
  | once inner ih => exact ih
  | repeated inner count ih =>
      rw [tokens, written, Token.text_append, ih, Token.text_cons]
      exact congrArg _ (List.append_nil _)
  | alone inner ih => exact ih
  | join first second ihFirst ihSecond =>
      rw [tokens, written, Token.text_append, ihFirst, Token.text_cons,
        ihSecond]
      rfl

theorem pattern?_repeated_eq_some {inner : Phrase .base} {count : CountPhrase}
    {p : Pattern Empty} (h : (inner.repeated count).pattern? = some p) :
    ∃ part bounds, inner.pattern? = some part ∧ part.repeated bounds = p := by
  simp only [pattern?, Option.bind_eq_bind, Option.bind_eq_some_iff,
    Option.pure_def, Option.some.injEq] at h
  obtain ⟨part, hinner, bounds, -, hp⟩ := h
  exact ⟨part, bounds, hinner, hp⟩

theorem pattern?_join_eq_some {junction : Junction}
    {first : Phrase (.joined junction)} {second : Phrase junction.operand}
    {p : Pattern Empty} (h : (first.join second).pattern? = some p) :
    ∃ part part', first.pattern? = some part ∧ second.pattern? = some part' ∧
      junction.join part part' = p := by
  simp only [pattern?, Option.bind_eq_bind, Option.bind_eq_some_iff,
    Option.pure_def, Option.some.injEq] at h
  obtain ⟨part, hfirst, part', hsecond, hp⟩ := h
  exact ⟨part, part', hfirst, hsecond, hp⟩

theorem writes {phrase : Phrase layer} {p : Pattern Empty}
    (h : phrase.pattern? = some p) : Writes p phrase.tokens := by
  induction phrase generalizing p with
  | atom value => exact .atom (Atom.joints_eq_zero h) value
  | group inner ih => exact (ih h).nest 1
  | once inner ih => exact ih h
  | repeated inner count ih =>
      obtain ⟨part, bounds, hinner, rfl⟩ := pattern?_repeated_eq_some h
      exact (ih hinner).repeated bounds count
  | alone inner ih => exact ih h
  | @join junction first second ihFirst ihSecond =>
      obtain ⟨part, part', hfirst, hsecond, rfl⟩ := pattern?_join_eq_some h
      exact (ihFirst hfirst).join junction (ihSecond hsecond)

end Phrase

def CharClass.atom : CharClass → Atom
  | only ch => .char ch
  | between interval => .interval interval.low interval.high
  | oneOf chars => .oneOf chars

theorem CharClass.written_atom (cls : CharClass) :
    cls.atom.written = cls.written := by
  cases cls with
  | only ch => rfl
  | between interval => exact (List.append_assoc _ _ _).symm
  | oneOf chars => exact (List.append_assoc _ _ _).symm

namespace Pattern

/-- The tokens of the pattern written with a pair of parentheses around each
chosen node. -/
def tokensWith : (p : Pattern Empty) → (Node p → Bool) → List Token
  | single cls, chosen => Token.nest (chosen .top).toNat [.atom cls.atom]
  | literal word, chosen => Token.nest (chosen .top).toNat [.atom (.word word)]
  | leaf value, _ => value.elim
  | sequence first second, chosen =>
      Token.nest (chosen .top).toNat
        (first.tokensWith (fun node => chosen node.sequenceFirst) ++
          .mark .sequence :: second.tokensWith fun node =>
            chosen node.sequenceSecond)
  | choice first second, chosen =>
      Token.nest (chosen .top).toNat
        (first.tokensWith (fun node => chosen node.choiceFirst) ++
          .mark .choice :: second.tokensWith fun node =>
            chosen node.choiceSecond)
  | repeated inner bounds, chosen =>
      Token.nest (chosen .top).toNat
        (inner.tokensWith (fun node => chosen node.repeatedInner) ++
          [.times (.ofBounds bounds)])

theorem text_tokensWith (p : Pattern Empty) (chosen : Node p → Bool) :
    Token.text (p.tokensWith chosen) = p.writtenWith chosen := by
  induction p with
  | single cls =>
      rw [tokensWith, writtenWith, Token.text_nest_toNat, ← cls.written_atom]
      exact congrArg _ (List.append_nil _)
  | literal word =>
      rw [tokensWith, writtenWith, Token.text_nest_toNat]
      exact congrArg _ (List.append_nil _)
  | leaf value => exact value.elim
  | sequence first second ihFirst ihSecond =>
      rw [tokensWith, writtenWith, Token.text_nest_toNat, Token.text_append,
        ihFirst, Token.text_cons, ihSecond]
      rfl
  | choice first second ihFirst ihSecond =>
      rw [tokensWith, writtenWith, Token.text_nest_toNat, Token.text_append,
        ihFirst, Token.text_cons, ihSecond]
      rfl
  | repeated inner bounds ih =>
      rw [tokensWith, writtenWith, Token.text_nest_toNat, Token.text_append, ih,
        Token.text_cons, ← CountPhrase.written_ofBounds]
      exact congrArg _ (congrArg _ (List.append_nil _))

theorem writes_tokensWith (p : Pattern Empty) (chosen : Node p → Bool) :
    Writes p (p.tokensWith chosen) := by
  induction p with
  | single cls => exact (Writes.atom rfl _).nest _
  | literal word => exact (Writes.atom rfl _).nest _
  | leaf value => exact value.elim
  | sequence first second ihFirst ihSecond =>
      exact ((ihFirst _).join .sequence (ihSecond _)).nest _
  | choice first second ihFirst ihSecond =>
      exact ((ihFirst _).join .choice (ihSecond _)).nest _
  | repeated inner bounds ih => exact ((ih _).repeated bounds _).nest _

/-- There is one pair of parentheses for each chosen node. -/
theorem count_opening_tokensWith (p : Pattern Empty) (chosen : Node p → Bool) :
    (p.tokensWith chosen).count .opening = p.pairs chosen := by
  induction p with
  | single cls =>
      rw [tokensWith, Token.count_opening_nest, pairs_eq_toNat_of_nodes_eq rfl]
      rfl
  | literal word =>
      rw [tokensWith, Token.count_opening_nest, pairs_eq_toNat_of_nodes_eq rfl]
      rfl
  | leaf value => exact value.elim
  | sequence first second ihFirst ihSecond =>
      rw [tokensWith, Token.count_opening_nest, pairs_sequence, ← ihFirst,
        ← ihSecond]
      simp
  | choice first second ihFirst ihSecond =>
      rw [tokensWith, Token.count_opening_nest, pairs_choice, ← ihFirst,
        ← ihSecond]
      simp
  | repeated inner bounds ih =>
      rw [tokensWith, Token.count_opening_nest, pairs_repeated, ← ih]
      simp

theorem pairs_eq_of_writtenWith_eq {p : Pattern Empty}
    {chosen chosen' : Node p → Bool}
    (h : p.writtenWith chosen = p.writtenWith chosen') :
    p.pairs chosen = p.pairs chosen' := by
  rw [← text_tokensWith, ← text_tokensWith] at h
  rw [← count_opening_tokensWith, ← count_opening_tokensWith,
    Token.text_injective h]

end Pattern

end TextPattern
