import TextPattern.Pattern.Language
import TextPattern.Proofs.Cursor.Reads
import TextPattern.Proofs.Pattern.Rules

/-!
Soundness against the language of a pattern. Main statement: what a match of a
pattern built from the library's own parts has read is a word of the pattern's
language, from every cursor (`matchCursor_sound`). The delicate case is a
repetition that stalls before its lower bound: the repetitions that it still
owes are supplied by the empty word.
-/

namespace TextPattern

section Powers

variable {L : Language Char} {word : List Char}

theorem mem_pow_succ_iff {count : Nat} :
    word ∈ L ^ (count + 1) ↔ ∃ u ∈ L, ∃ v ∈ L ^ count, u ++ v = word := by
  rw [pow_succ', Language.mem_mul]

/-- The empty word pays for any further repetitions. -/
theorem mem_pow_of_le (hnil : [] ∈ L) {count count' : Nat}
    (hle : count ≤ count') (hword : word ∈ L ^ count) : word ∈ L ^ count' := by
  induction hle with
  | refl => exact hword
  | step _ ih => exact mem_pow_succ_iff.2 ⟨[], hnil, word, ih, rfl⟩

end Powers

section Repetition

variable {step : Cursor → Cursor → Prop} {L : Language Char} {c d : Cursor}

/-- A climb whose steps read words of a language reads a word of a power of
it. -/
theorem Climbs.exists_mem_pow_reads
    (hstep : ∀ c d, step c d → d.success = true → ∃ word ∈ L, c.Reads word d)
    {moves : Nat} (climb : Climbs step moves c d) :
    ∃ word ∈ L ^ moves, c.Reads word d := by
  induction climb with
  | refl c =>
      exact ⟨[], by rw [pow_zero]; exact Language.nil_mem_one, c.reads_refl⟩
  | move hfirst hsuccess _ _ ih =>
      obtain ⟨u, hu, hreads⟩ := hstep _ _ hfirst hsuccess
      obtain ⟨v, hv, hrest⟩ := ih
      exact ⟨u ++ v, mem_pow_succ_iff.2 ⟨u, hu, v, hv, rfl⟩, hreads.trans hrest⟩

/-- A repetition that succeeds has read an allowed power of the language of its
steps. -/
theorem Repeats.exists_mem_pow_reads
    (hstep : ∀ c d, step c d → d.success = true → ∃ word ∈ L, c.Reads word d)
    {bounds : Bounds} (h : Repeats step bounds c d)
    (hsuccess : d.success = true) :
    ∃ count, bounds.Allows count ∧ ∃ word ∈ L ^ count, c.Reads word d := by
  cases h with
  | @full limit e hmost climb =>
      obtain ⟨word, hword, hreads⟩ := climb.exists_mem_pow_reads hstep
      have hallows : bounds.Allows limit.toNat := by
        refine ⟨bounds.least_toNat_le hmost, ?_⟩
        intro limit' hmost'
        have hlimit : limit = limit' := Option.mem_unique hmost hmost'
        exact Nat.le_of_eq (congrArg UInt32.toNat hlimit)
      exact ⟨limit.toNat, hallows, word, hword, hreads.succeed⟩
  | @stalled moves e d climb hroom hlast hlastSuccess hstays =>
      obtain ⟨word, hword, hreads⟩ := climb.exists_mem_pow_reads hstep
      obtain ⟨stay, hstay, hreadsStay⟩ := hstep _ _ hlast hlastSuccess
      have hnil : [] ∈ L := hreadsStay.eq_nil hstays ▸ hstay
      have hallows : bounds.Allows (max moves bounds.least.toNat) := by
        refine ⟨Nat.le_max_right _ _, ?_⟩
        intro limit hmost
        have hlt := hroom limit hmost
        have hle := bounds.least_toNat_le hmost
        omega
      exact ⟨_, hallows, word, mem_pow_of_le hnil (Nat.le_max_left _ _) hword,
        hreads.succeed⟩
  | @enough moves e d climb hroom _ _ henough =>
      obtain ⟨word, hword, hreads⟩ := climb.exists_mem_pow_reads hstep
      have hallows : bounds.Allows moves :=
        ⟨henough, fun limit hmost => Nat.le_of_lt (hroom limit hmost)⟩
      exact ⟨moves, hallows, word, hword, hreads.succeed⟩
  | short => simp at hsuccess

end Repetition

namespace Pattern

/-- A successful match has read a word of the language. -/
theorem exists_mem_language_reads {p : Pattern Empty} {c result : Cursor}
    (h : p.Returns c result) (hsuccess : result.success = true) :
    ∃ word ∈ p.language, c.Reads word result := by
  induction p generalizing c result with
  | single cls =>
      obtain rfl := returns_single_iff.1 h
      obtain ⟨ch, haccepts, hreads⟩ := Cursor.exists_reads_passIf hsuccess
      exact ⟨[ch], mem_language_single.2 ⟨ch, rfl, haccepts⟩, hreads⟩
  | literal word =>
      obtain rfl := returns_literal_iff.1 h
      exact ⟨word, mem_language_literal.2 rfl, Cursor.reads_passWord hsuccess⟩
  | leaf value => exact value.elim
  | sequence first second ihFirst ihSecond =>
      obtain ⟨middle, hfirst, ⟨_, rfl⟩ | ⟨hmiddle, last, hsecond, rfl⟩⟩ :=
        returns_sequence_iff.1 h
      · simp at hsuccess
      · by_cases hlast : last.success = true
        · obtain ⟨u, hu, hreads⟩ := ihFirst hfirst hmiddle
          obtain ⟨v, hv, hrest⟩ := ihSecond hsecond hlast
          rw [if_pos hlast]
          exact ⟨u ++ v, mem_language_sequence.2 ⟨u, hu, v, hv, rfl⟩,
            hreads.trans hrest⟩
        · simp [hlast] at hsuccess
  | choice first second ihFirst ihSecond =>
      rcases returns_choice_iff.1 h with ⟨hfirst, _⟩ | ⟨_, _, _, hsecond⟩
      · obtain ⟨word, hword, hreads⟩ := ihFirst hfirst hsuccess
        exact ⟨word, mem_language_choice.2 (.inl hword), hreads⟩
      · obtain ⟨word, hword, hreads⟩ := ihSecond hsecond hsuccess
        exact ⟨word, mem_language_choice.2 (.inr hword), hreads⟩
  | repeated inner bounds ih =>
      obtain ⟨count, hallows, word, hword, hreads⟩ :=
        (returns_repeated_iff.1 h).exists_mem_pow_reads (fun _ _ => ih) hsuccess
      exact ⟨word, mem_language_repeated.2 ⟨count, hallows, hword⟩, hreads⟩

/-- A match of a whole text has read all of it. -/
theorem toList_eq_of_isFullMatch {text : String} {word : List Char}
    {result : Cursor} (hreads : (Cursor.start text).Reads word result)
    (hfull : result.isFullMatch = true) : text.toList = word := by
  rw [Cursor.isFullMatch, Bool.and_eq_true, Cursor.atEnd_iff] at hfull
  have hahead := hreads.ahead_eq
  rwa [hfull.2, List.append_nil] at hahead

/-- Wherever a match succeeds, the text between the incoming and the resulting
cursor is a word of the pattern's language; so a text that is matched as a whole
is one. -/
theorem matchCursor_sound (p : Pattern Empty) :
    (∀ c : Cursor, (p.matchCursor c).success = true →
      ∃ word ∈ p.language, c.Reads word (p.matchCursor c)) ∧
    ∀ text : String, ∃ result, p.matchText text = some result ∧
      (result.isFullMatch = true → text.toList ∈ p.language) := by
  constructor
  · intro c hsuccess
    exact exists_mem_language_reads (p.returns_matchCursor c) hsuccess
  · intro text
    refine ⟨p.matchCursor (.start text), p.matchText_eq_some text, ?_⟩
    intro hfull
    have hsuccess := (Bool.and_eq_true_iff.1 hfull).1
    obtain ⟨word, hword, hreads⟩ :=
      exists_mem_language_reads (p.returns_matchCursor (.start text)) hsuccess
    rwa [toList_eq_of_isFullMatch hreads hfull]

/-- Three repetitions are owed, one reads a letter, and the second stalls. -/
theorem matchCursor_sound_stalled :
    let p : Pattern Empty := repeated ((char 'a').choice empty) (.atLeast 3)
    let c := Cursor.between ['é'] ['a', 'b'] false
    (p.matchCursor c).success = true ∧
      ∃ word ∈ p.language, c.Reads word (p.matchCursor c) :=
  ⟨by decide +kernel, (matchCursor_sound _).1 _ (by decide +kernel)⟩

end Pattern

end TextPattern
