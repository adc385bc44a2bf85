import Mathlib.Data.List.Basic
import TextPattern.Pattern.Render

/-!
The ways of putting parentheses into the written form of a pattern. Each node of
the pattern may be given one pair or none; what is printed is the choice in
which a node has parentheses just if it binds less tightly than its surroundings
require. Main statements: that choice writes what is printed
(`writtenWith_parenthesized`), and a choice that holds another one has as many
pairs only if it is the same (`eq_or_pairs_lt`).
-/

namespace TextPattern

namespace Pattern

/-- The nodes of a pattern, each as the way to it from the top. -/
inductive Node {κ : Type} : Pattern κ → Type
  | top {p : Pattern κ} : Node p
  | sequenceFirst {first second : Pattern κ} (node : Node first) :
      Node (sequence first second)
  | sequenceSecond {first second : Pattern κ} (node : Node second) :
      Node (sequence first second)
  | choiceFirst {first second : Pattern κ} (node : Node first) :
      Node (choice first second)
  | choiceSecond {first second : Pattern κ} (node : Node second) :
      Node (choice first second)
  | repeatedInner {inner : Pattern κ} {bounds : Bounds} (node : Node inner) :
      Node (repeated inner bounds)

def parenthesize (chosen : Bool) (part : List Char) : List Char :=
  if chosen then '(' :: part ++ [')'] else part

variable {κ : Type}

/-- The pattern written with a pair of parentheses around each chosen node, and
no others. -/
def writtenWith : (p : Pattern Empty) → (Node p → Bool) → List Char
  | single cls, chosen => parenthesize (chosen .top) cls.written
  | literal word, chosen => parenthesize (chosen .top) (quotedText word)
  | leaf value, _ => value.elim
  | sequence first second, chosen =>
      parenthesize (chosen .top)
        (first.writtenWith (fun node => chosen node.sequenceFirst) ++
          ([' ', '+', ' '] ++ second.writtenWith fun node =>
            chosen node.sequenceSecond))
  | choice first second, chosen =>
      parenthesize (chosen .top)
        (first.writtenWith (fun node => chosen node.choiceFirst) ++
          ([' ', '|', ' '] ++ second.writtenWith fun node =>
            chosen node.choiceSecond))
  | repeated inner bounds, chosen =>
      parenthesize (chosen .top)
        (inner.writtenWith (fun node => chosen node.repeatedInner) ++
          ([' ', '*', ' '] ++ bounds.written))

/-- All nodes of the pattern, each once. -/
def nodes : (p : Pattern κ) → List (Node p)
  | single _ => [.top]
  | literal _ => [.top]
  | leaf _ => [.top]
  | sequence first second =>
      .top ::
        (first.nodes.map .sequenceFirst ++ second.nodes.map .sequenceSecond)
  | choice first second =>
      .top :: (first.nodes.map .choiceFirst ++ second.nodes.map .choiceSecond)
  | repeated inner _ => .top :: inner.nodes.map .repeatedInner

/-- The number of pairs of parentheses that are chosen. -/
def pairs (p : Pattern κ) (chosen : Node p → Bool) : Nat :=
  p.nodes.countP chosen

theorem pairs_eq_toNat_of_nodes_eq {p : Pattern κ} {chosen : Node p → Bool}
    {parts : List (Node p)} (hnodes : p.nodes = .top :: parts) :
    p.pairs chosen = (chosen .top).toNat + parts.countP chosen := by
  rw [pairs, hnodes, List.countP_cons, Nat.add_comm]
  cases chosen .top <;> rfl

theorem pairs_sequence {first second : Pattern κ}
    (chosen : Node (sequence first second) → Bool) :
    (sequence first second).pairs chosen =
      (chosen .top).toNat +
        (first.pairs (fun node => chosen node.sequenceFirst) +
          second.pairs fun node => chosen node.sequenceSecond) := by
  rw [pairs_eq_toNat_of_nodes_eq rfl, List.countP_append, List.countP_map,
    List.countP_map]
  rfl

theorem pairs_choice {first second : Pattern κ}
    (chosen : Node (choice first second) → Bool) :
    (choice first second).pairs chosen =
      (chosen .top).toNat + (first.pairs (fun node => chosen node.choiceFirst) +
        second.pairs fun node => chosen node.choiceSecond) := by
  rw [pairs_eq_toNat_of_nodes_eq rfl, List.countP_append, List.countP_map,
    List.countP_map]
  rfl

theorem pairs_repeated {inner : Pattern κ} {bounds : Bounds}
    (chosen : Node (repeated inner bounds) → Bool) :
    (repeated inner bounds).pairs chosen =
      (chosen .top).toNat + inner.pairs fun node =>
        chosen node.repeatedInner := by
  rw [pairs_eq_toNat_of_nodes_eq rfl, List.countP_map]
  rfl

/-- How tightly the printed form of a pattern binds. -/
def precedence : Pattern κ → Precedence
  | single _ => .base
  | literal _ => .base
  | leaf _ => .base
  | sequence _ _ => .sequence
  | choice _ _ => .choice
  | repeated _ _ => .repetition

/-- Whether a node is printed in parentheses, in surroundings of the whole that
require a precedence. -/
def Node.parenthesized : {p : Pattern κ} → Precedence → Node p → Bool
  | p, required, top => required < p.precedence
  | _, _, sequenceFirst node => node.parenthesized .sequence
  | _, _, sequenceSecond node => node.parenthesized .repetition
  | _, _, choiceFirst node => node.parenthesized .choice
  | _, _, choiceSecond node => node.parenthesized .sequence
  | _, _, repeatedInner node => node.parenthesized .base

theorem parenthesize_eq_enclose (required own : Precedence) (part : List Char) :
    parenthesize (required < own) part = required.enclose own part := by
  simp [parenthesize, Precedence.enclose]

theorem enclose_base (required : Precedence) (part : List Char) :
    required.enclose .base part = part :=
  if_neg (Nat.not_lt_zero _)

/-- Printing puts parentheses around just those nodes. -/
theorem writtenWith_parenthesized (required : Precedence) (p : Pattern Empty) :
    p.writtenWith (Node.parenthesized required) = p.written required := by
  induction p generalizing required with
  | single cls =>
      exact (parenthesize_eq_enclose required .base _).trans
        (enclose_base required _)
  | literal word =>
      exact (parenthesize_eq_enclose required .base _).trans
        (enclose_base required _)
  | leaf value => exact value.elim
  | sequence first second ihFirst ihSecond =>
      rw [written, ← parenthesize_eq_enclose, ← ihFirst, ← ihSecond]
      rfl
  | choice first second ihFirst ihSecond =>
      rw [written, ← parenthesize_eq_enclose, ← ihFirst, ← ihSecond]
      rfl
  | repeated inner bounds ih =>
      rw [written, ← parenthesize_eq_enclose, ← ih]
      rfl

theorem mem_nodes {p : Pattern κ} (node : Node p) : node ∈ p.nodes := by
  induction node with
  | @top p => cases p <;> simp [nodes]
  | sequenceFirst node ih => simp [nodes, ih]
  | sequenceSecond node ih => simp [nodes, ih]
  | choiceFirst node ih => simp [nodes, ih]
  | choiceSecond node ih => simp [nodes, ih]
  | repeatedInner node ih => simp [nodes, ih]

/-- A choice that holds another one is the same, or it has more pairs. -/
theorem eq_or_pairs_lt {p : Pattern κ} {chosen chosen' : Node p → Bool}
    (h : ∀ node, chosen node = true → chosen' node = true) :
    chosen' = chosen ∨ p.pairs chosen < p.pairs chosen' := by
  have hsublist := List.monotone_filter_right p.nodes h
  rw [pairs, pairs, List.countP_eq_length_filter, List.countP_eq_length_filter]
  rcases Nat.eq_or_lt_of_le hsublist.length_le with hlength | hlt
  · left
    have hsame := hsublist.eq_of_length hlength
    funext node
    rw [Bool.eq_iff_iff]
    refine ⟨fun hchosen' => ?_, h node⟩
    have hmem : node ∈ p.nodes.filter chosen := by
      rw [hsame]
      exact List.mem_filter.2 ⟨mem_nodes node, hchosen'⟩
    exact (List.mem_filter.1 hmem).2
  · exact .inr hlt

end Pattern

end TextPattern
