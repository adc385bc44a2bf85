import TextPattern.Pattern.Nullable
import TextPattern.Pattern.Predefined
import TextPattern.Proofs.Pattern.Soundness

/-!
Patterns that can match without reading, and those that cannot. Whether a
pattern is nullable is read off its shape; it is so just if the empty word is in
its language (`nullable_iff`). A match commits itself and gives nothing back, so
more text ahead could well make it fail. Main statement: it does not where that
matters (`nullable_dichotomy`): a nullable pattern fails nowhere, and any other
reads at least one character wherever it succeeds.
-/

namespace TextPattern

/-- The empty word is a power of the language if it is in the language, or if
the power is none. -/
theorem nil_mem_pow_iff {L : Language Char} {count : Nat} :
    [] ∈ L ^ count ↔ count = 0 ∨ [] ∈ L := by
  cases count with
  | zero => simp [Language.mem_one]
  | succ count =>
      constructor
      · intro h
        obtain ⟨first, hfirst, later, _, happend⟩ := mem_pow_succ_iff.1 h
        rw [(List.append_eq_nil_iff.1 happend).1] at hfirst
        exact .inr hfirst
      · rintro (hzero | hnil)
        · contradiction
        · exact mem_pow_of_le hnil (Nat.zero_le _) (by simp [Language.mem_one])

theorem Bounds.allows_least (bounds : Bounds) :
    bounds.Allows bounds.least.toNat :=
  ⟨Nat.le_refl _, fun _ hmost => bounds.least_toNat_le hmost⟩

/-- A repetition does not fail if it owes nothing, or if its step never
fails. -/
theorem Repeats.success_of_nullable {step : Cursor → Cursor → Prop}
    {bounds : Bounds} {c d : Cursor} (h : Repeats step bounds c d)
    (hnullable : bounds.least = 0 ∨ ∀ c d, step c d → d.success = true) :
    d.success = true := by
  cases h with
  | full => rfl
  | stalled => rfl
  | enough => rfl
  | short _ _ hlast hfails hshort =>
      rcases hnullable with hleast | hstep
      · simp [hleast] at hshort
      · simp [hstep _ _ hlast] at hfails

namespace Pattern

theorem nullable_iff {p : Pattern Empty} :
    p.nullable = true ↔ [] ∈ p.language := by
  induction p with
  | single cls => simp [nullable, mem_language_single]
  | literal word =>
      rw [nullable, List.isEmpty_iff, mem_language_literal, eq_comm]
  | leaf value => exact value.elim
  | sequence first second ihFirst ihSecond =>
      simp [nullable, ihFirst, ihSecond, mem_language_sequence]
  | choice first second ihFirst ihSecond =>
      simp [nullable, ihFirst, ihSecond, mem_language_choice]
  | repeated inner bounds ih =>
      rw [nullable, Bool.or_eq_true, beq_iff_eq, ih, mem_language_repeated]
      constructor
      · rintro hnullable
        refine ⟨bounds.least.toNat, bounds.allows_least, nil_mem_pow_iff.2 ?_⟩
        rcases hnullable with hleast | hnil
        · exact .inl (by simp [hleast])
        · exact .inr hnil
      · rintro ⟨count, hallows, hpower⟩
        rcases nil_mem_pow_iff.1 hpower with rfl | hnil
        · left
          rw [← UInt32.toNat_inj]
          exact Nat.le_zero.1 hallows.1
        · exact .inr hnil

/-- A nullable pattern fails nowhere, whatever lies ahead. -/
theorem Returns.success_of_nullable {p : Pattern Empty} (hp : p.nullable = true)
    {c result : Cursor} (h : p.Returns c result) : result.success = true := by
  induction p generalizing c result with
  | single cls => simp [nullable] at hp
  | literal word =>
      obtain rfl := returns_literal_iff.1 h
      obtain rfl : word = [] := by simpa [nullable] using hp
      rfl
  | leaf value => exact value.elim
  | sequence first second ihFirst ihSecond =>
      obtain ⟨hpFirst, hpSecond⟩ :
          first.nullable = true ∧ second.nullable = true := by
        simpa [nullable] using hp
      obtain ⟨middle, hfirst, ⟨hfails, _⟩ | ⟨_, last, hsecond, rfl⟩⟩ :=
        returns_sequence_iff.1 h
      · simp [ihFirst hpFirst hfirst] at hfails
      · have hlast := ihSecond hpSecond hsecond
        rwa [if_pos hlast]
  | choice first second ihFirst ihSecond =>
      have hpEither : first.nullable = true ∨ second.nullable = true := by
        simpa [nullable] using hp
      rcases returns_choice_iff.1 h with ⟨_, hsuccess⟩ |
        ⟨failed, hfirst, hfails, hsecond⟩
      · exact hsuccess
      · rcases hpEither with hpFirst | hpSecond
        · simp [ihFirst hpFirst hfirst] at hfails
        · exact ihSecond hpSecond hsecond
  | repeated inner bounds ih =>
      have hpEither : bounds.least = 0 ∨ inner.nullable = true := by
        simpa [nullable] using hp
      apply (returns_repeated_iff.1 h).success_of_nullable
      apply hpEither.imp_right
      intro hpInner d last hreturns
      exact ih hpInner hreturns

/-- Where a pattern that is not nullable succeeds, it has read something. -/
theorem exists_ne_nil_reads {p : Pattern Empty} (hp : p.nullable = false)
    {c : Cursor} (hsuccess : (p.matchCursor c).success = true) :
    ∃ word, word ≠ [] ∧ c.Reads word (p.matchCursor c) := by
  obtain ⟨word, hword, hreads⟩ :=
    exists_mem_language_reads (p.returns_matchCursor c) hsuccess
  refine ⟨word, ?_, hreads⟩
  rintro rfl
  simp [nullable_iff.2 hword] at hp

/-- A pattern matches the empty text just if it is nullable. If it is, it
succeeds at every cursor; if it is not, it reads at least one character wherever
it succeeds. -/
theorem nullable_dichotomy (p : Pattern Empty) :
    (∃ result, p.matchText "" = some result ∧
      (result.success = true ↔ p.nullable = true)) ∧
    (p.nullable = true → ∀ c : Cursor, (p.matchCursor c).success = true) ∧
    (p.nullable = false → ∀ c : Cursor, (p.matchCursor c).success = true →
      ∃ word, word ≠ [] ∧ c.Reads word (p.matchCursor c)) := by
  have hsucceeds (hp : p.nullable = true) (c : Cursor) :
      (p.matchCursor c).success = true :=
    (p.returns_matchCursor c).success_of_nullable hp
  refine ⟨⟨_, p.matchText_eq_some "", ?_⟩, hsucceeds,
    fun hp c => exists_ne_nil_reads hp⟩
  constructor
  · intro hsuccess
    by_contra hp
    obtain ⟨word, hword, hreads⟩ :=
      exists_ne_nil_reads (Bool.not_eq_true _ ▸ hp) hsuccess
    apply hword
    simpa using hreads.prefix_ahead
  · intro hp
    exact hsucceeds hp (.start "")

/-- Three repetitions of an empty alternative are owed and none fails, with
anything ahead; an optional sign before a digit never succeeds on nothing. -/
theorem nullable_dichotomy_signs :
    let owed : Pattern Empty := ((word "ab").choice empty).repeated (.atLeast 3)
    let signed : Pattern Empty := (oneOf "+-").optional.sequence digit
    let c := Cursor.between ['x'] ['-', '7', 'a'] false
    owed.nullable = true ∧ (owed.matchCursor c).success = true ∧
      signed.nullable = false ∧ (signed.matchCursor c).success = true ∧
      ∃ word, word ≠ [] ∧ c.Reads word (signed.matchCursor c) :=
  ⟨rfl, (nullable_dichotomy _).2.1 rfl _, rfl, by decide +kernel,
    (nullable_dichotomy _).2.2 rfl _ (by decide +kernel)⟩

end Pattern

end TextPattern
