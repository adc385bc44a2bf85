import Mathlib.Computability.Language
import TextPattern.Pattern.Basic

/-!
The language of a pattern built from the library's own parts, said without
running it: words of one character, fixed words, products, unions and bounded
powers.
-/

namespace TextPattern

namespace Pattern

def language : Pattern Empty → Language Char
  | single (.only ch) => {[ch]}
  | single (.between interval) =>
      {w | ∃ ch, w = [ch] ∧ interval.low ≤ ch ∧ ch ≤ interval.high}
  | single (.oneOf chars) => {w | ∃ ch, w = [ch] ∧ ch ∈ chars}
  | literal word => {word}
  | sequence first second => first.language * second.language
  | choice first second => first.language + second.language
  | repeated inner bounds =>
      {w | ∃ count, bounds.Allows count ∧ w ∈ inner.language ^ count}

/-- The words of one character are those that the class accepts. -/
theorem mem_language_single {cls : CharClass} {w : List Char} :
    w ∈ (single cls : Pattern Empty).language ↔
      ∃ ch, w = [ch] ∧ cls.accepts ch = true := by
  cases cls with
  | only expected =>
      have hmem : w ∈ (single (.only expected) : Pattern Empty).language ↔
          w = [expected] := Iff.rfl
      rw [hmem]
      constructor
      · rintro rfl
        exact ⟨expected, rfl, by simp⟩
      · rintro ⟨ch, rfl, haccepts⟩
        rw [CharClass.accepts_only, beq_iff_eq] at haccepts
        rw [haccepts]
  | between interval =>
      simp only [CharClass.accepts_between_iff]
      exact Iff.rfl
  | oneOf chars =>
      simp only [CharClass.accepts_oneOf_iff]
      exact Iff.rfl

theorem mem_language_literal {word w : List Char} :
    w ∈ (literal word : Pattern Empty).language ↔ w = word := Iff.rfl

theorem mem_language_sequence {first second : Pattern Empty} {w : List Char} :
    w ∈ (sequence first second).language ↔
      ∃ u ∈ first.language, ∃ v ∈ second.language, u ++ v = w :=
  Language.mem_mul

theorem mem_language_choice {first second : Pattern Empty} {w : List Char} :
    w ∈ (choice first second).language ↔
      w ∈ first.language ∨ w ∈ second.language := Iff.rfl

theorem mem_language_repeated {inner : Pattern Empty} {bounds : Bounds}
    {w : List Char} :
    w ∈ (repeated inner bounds).language ↔
      ∃ count, bounds.Allows count ∧ w ∈ inner.language ^ count := Iff.rfl

theorem mem_language_char {ch : Char} {w : List Char} :
    w ∈ (char ch : Pattern Empty).language ↔ w = [ch] := by
  rw [char, mem_language_single]
  simp

theorem mem_language_optional {p : Pattern Empty} {w : List Char} :
    w ∈ p.optional.language ↔ w = [] ∨ w ∈ p.language := by
  rw [optional, mem_language_repeated]
  constructor
  · rintro ⟨count, ⟨_, hmost⟩, hw⟩
    have hle : count ≤ 1 := hmost 1 rfl
    rcases Nat.le_one_iff_eq_zero_or_eq_one.1 hle with rfl | rfl
    · exact .inl (by rwa [pow_zero, Language.mem_one] at hw)
    · exact .inr (by rwa [pow_one] at hw)
  · rintro (rfl | hw)
    · exact ⟨0,
        ⟨Nat.le_refl 0, fun _ _ => Nat.zero_le _⟩, by simp [Language.mem_one]⟩
    · refine ⟨1, ⟨Nat.zero_le 1, fun limit hlimit => ?_⟩, by rwa [pow_one]⟩
      rw [← Option.some.inj hlimit]
      exact Nat.le_refl 1

end Pattern

end TextPattern
