import Mathlib.Data.Set.Lattice
import Mathlib.Order.CompletePartialOrder
import TextPattern.Proofs.Pattern.Soundness

/-!
Patterns whose next character always tells how to go on. On such patterns the
committed, greedy match misses nothing: it reads the longest prefix of the text
that is in the language. Main statements: a committed choice of a prefix is the
right one (`eq_or_nil_of_begins`), a match covers every word of the language
that lies ahead (`Deterministic.readsLongest`), and so matching a text is
longest-prefix matching and full matching is membership (`matchText_longest`).
-/

namespace TextPattern

/-- The characters with which a word of the language begins. -/
def firsts (L : Language Char) : Set Char := {ch | ∃ rest, ch :: rest ∈ L}

/-- The characters that come next when a word of the language is the beginning
of another. -/
def extensions (L : Language Char) : Set Char :=
  {ch | ∃ word ∈ L, ∃ rest, word ++ ch :: rest ∈ L}

/-- The next character tells, at every node, whether to go on: a word of a first
part cannot be extended by what the second part begins with, alternatives begin
differently and the first is not empty, and likewise for a repetition of
itself. -/
def Pattern.Deterministic : Pattern Empty → Prop
  | .single _ => True
  | .literal _ => True
  | .sequence first second =>
      first.Deterministic ∧ second.Deterministic ∧
        Disjoint (extensions first.language) (firsts second.language)
  | .choice first second =>
      first.Deterministic ∧ second.Deterministic ∧ [] ∉ first.language ∧
        Disjoint (firsts first.language) (firsts second.language)
  | .repeated inner _ =>
      inner.Deterministic ∧ [] ∉ inner.language ∧
        Disjoint (extensions inner.language) (firsts inner.language)

/-- A word of the language that begins the text and is as long as any other that
does. -/
def IsLongestPrefix (L : Language Char) (chars word : List Char) : Prop :=
  word ∈ L ∧ word <+: chars ∧
    ∀ other ∈ L, other <+: chars → other.length ≤ word.length

/-- The second cursor succeeds and has read at least the word. -/
def Cursor.Covers (c : Cursor) (word : List Char) (d : Cursor) : Prop :=
  d.success = true ∧ ∃ read, c.Reads read d ∧ word <+: read

/-- Reading the longer of two words commits to nothing wrong: if the shorter one
goes on with a word of the second language, then it was not shorter or that word
is empty. -/
theorem eq_or_nil_of_begins {L M : Language Char}
    (hdisjoint : Disjoint (extensions L) (firsts M))
    {word read next rest : List Char} (hword : word ∈ L) (hread : read ∈ L)
    (hle : word <+: read) (hnext : next ∈ M)
    (hbegins : word ++ next <+: read ++ rest) : word = read ∨ next = [] := by
  obtain ⟨more, rfl⟩ := hle
  rw [List.append_assoc, List.prefix_append_right_inj] at hbegins
  cases more with
  | nil => exact .inl (List.append_nil word).symm
  | cons ch more =>
      cases next with
      | nil => exact .inr rfl
      | cons ch' next =>
          rw [List.cons_append, List.cons_prefix_cons] at hbegins
          obtain ⟨rfl, _⟩ := hbegins
          have hextends : ch' ∈ extensions L := ⟨word, hword, more, hread⟩
          exact absurd ⟨next, hnext⟩ (Set.disjoint_left.1 hdisjoint hextends)

/-- The same for a repetition: what was read is its first part, or that was all
of it. -/
theorem eq_or_eq_zero_of_begins {L : Language Char} (hnil : [] ∉ L)
    (hdisjoint : Disjoint (extensions L) (firsts L))
    {word read later rest : List Char} {count : Nat} (hword : word ∈ L)
    (hread : read ∈ L) (hle : word <+: read) (hlater : later ∈ L ^ count)
    (hbegins : word ++ later <+: read ++ rest) : word = read ∨ count = 0 := by
  cases count with
  | zero => exact .inr rfl
  | succ count =>
      obtain ⟨next, hnext, last, _, rfl⟩ := mem_pow_succ_iff.1 hlater
      have hfirst : word ++ next <+: read ++ rest := by
        rw [← List.append_assoc] at hbegins
        exact (List.prefix_append _ last).trans hbegins
      rcases eq_or_nil_of_begins hdisjoint hword hread hle hnext hfirst
        with heq | hempty
      · exact .inl heq
      · exact absurd (hempty ▸ hnext) hnil

/-- Of two languages that begin differently at most one has a word ahead, the
empty word apart. -/
theorem eq_nil_of_disjoint_firsts {L M : Language Char} (hnil : [] ∉ L)
    (hdisjoint : Disjoint (firsts L) (firsts M)) {read word rest : List Char}
    (hread : read ∈ L) (hword : word ∈ M) (hbegins : word <+: read ++ rest) :
    word = [] := by
  cases read with
  | nil => exact absurd hread hnil
  | cons ch read =>
      cases word with
      | nil => rfl
      | cons ch' word =>
          rw [List.cons_append, List.cons_prefix_cons] at hbegins
          obtain ⟨rfl, _⟩ := hbegins
          exact absurd ⟨word, hword⟩
            (Set.disjoint_left.1 hdisjoint ⟨read, hread⟩)

theorem Cursor.covers_nil {c d : Cursor} {read : List Char}
    (hreads : c.Reads read d) (hsuccess : d.success = true) : c.Covers [] d :=
  ⟨hsuccess, read, hreads, List.nil_prefix⟩

theorem Cursor.Covers.append {c d e : Cursor} {read word : List Char}
    (hreads : c.Reads read d) (h : d.Covers word e) :
    c.Covers (read ++ word) e := by
  obtain ⟨hsuccess, read', hreads', hle⟩ := h
  exact ⟨hsuccess, read ++ read', hreads.trans hreads',
    (List.prefix_append_right_inj read).2 hle⟩

/-- A step reads words of a language, and misses none that lies ahead. -/
structure ReadsLongest (step : Cursor → Cursor → Prop) (L : Language Char) :
    Prop where
  sound : ∀ {c d : Cursor}, step c d → d.success = true →
    ∃ read ∈ L, c.Reads read d
  covers : ∀ {c d : Cursor} {word : List Char}, step c d → word ∈ L →
    word <+: c.ahead → c.Covers word d

/-- A step that covers a word has read a word of the language that is at least
as long. -/
theorem ReadsLongest.exists_read {step : Cursor → Cursor → Prop}
    {L : Language Char} (h : ReadsLongest step L) {c d : Cursor}
    (hstep : step c d) {word : List Char} (hword : word ∈ L)
    (hbegins : word <+: c.ahead) :
    d.success = true ∧ ∃ read ∈ L, c.Reads read d ∧ word <+: read := by
  obtain ⟨hsuccess, read, hreads, hle⟩ := h.covers hstep hword hbegins
  obtain ⟨read', hread', hreads'⟩ := h.sound hstep hsuccess
  obtain rfl := hreads.unique hreads'
  exact ⟨hsuccess, read, hread', hreads, hle⟩

section Repetition

variable {step : Cursor → Cursor → Prop} {L : Language Char} {c d : Cursor}

/-- A climb covers every power of the language that lies ahead, unless there are
more repetitions in it than the climb has moves; then another one lies ahead of
its end. -/
theorem Climbs.covers_or_beyond (hlongest : ReadsLongest step L) (hnil : [] ∉ L)
    (hdisjoint : Disjoint (extensions L) (firsts L)) {moves : Nat}
    (climb : Climbs step moves c d) {count : Nat} {word : List Char}
    (hword : word ∈ L ^ count) (hbegins : word <+: c.ahead) :
    (count ≤ moves ∧ c.Covers word d.succeed) ∨
      (moves < count ∧ ∃ next ∈ L, next <+: d.ahead) := by
  induction climb generalizing count word with
  | refl c =>
      cases count with
      | zero =>
          rw [pow_zero, Language.mem_one] at hword
          subst hword
          exact .inl ⟨Nat.le_refl 0, Cursor.covers_nil c.reads_refl.succeed rfl⟩
      | succ count =>
          obtain ⟨next, hnext, later, _, rfl⟩ := mem_pow_succ_iff.1 hword
          have hahead := (List.prefix_append next later).trans hbegins
          exact .inr ⟨Nat.succ_pos count, next, hnext, hahead⟩
  | @move moves c d e hstep hsuccess hmoves rest ih =>
      have hsound := fun c d => hlongest.sound (c := c) (d := d)
      obtain ⟨tail, _, htail⟩ := rest.exists_mem_pow_reads hsound
      cases count with
      | zero =>
          rw [pow_zero, Language.mem_one] at hword
          subst hword
          obtain ⟨read, _, hreads⟩ := hlongest.sound hstep hsuccess
          exact .inl
            ⟨Nat.zero_le _, Cursor.covers_nil (hreads.trans htail).succeed rfl⟩
      | succ count =>
          obtain ⟨next, hnext, later, hlater, rfl⟩ := mem_pow_succ_iff.1 hword
          obtain ⟨_, read, hread, hreads, hle⟩ := hlongest.exists_read hstep
            hnext ((List.prefix_append next later).trans hbegins)
          rw [hreads.ahead_eq] at hbegins
          rcases eq_or_eq_zero_of_begins hnil hdisjoint hnext hread hle hlater
            hbegins with rfl | rfl
          · rw [List.prefix_append_right_inj] at hbegins
            rcases ih hlater hbegins with ⟨hmade, hcovers⟩ | ⟨hbeyond, hahead⟩
            · exact .inl ⟨Nat.succ_le_succ hmade, hcovers.append hreads⟩
            · exact .inr ⟨Nat.succ_lt_succ hbeyond, hahead⟩
          · rw [pow_zero, Language.mem_one] at hlater
            subst hlater
            rw [List.append_nil]
            exact .inl ⟨Nat.succ_le_succ (Nat.zero_le moves), rfl, read ++ tail,
              (hreads.trans htail).succeed,
              hle.trans (List.prefix_append read tail)⟩

/-- A repetition covers every allowed power of the language that lies ahead. -/
theorem Repeats.covers (hlongest : ReadsLongest step L) (hnil : [] ∉ L)
    (hdisjoint : Disjoint (extensions L) (firsts L)) {bounds : Bounds}
    (h : Repeats step bounds c d) {count : Nat} (hallows : bounds.Allows count)
    {word : List Char} (hword : word ∈ L ^ count) (hbegins : word <+: c.ahead) :
    c.Covers word d := by
  cases h with
  | @full limit e hmost climb =>
      rcases climb.covers_or_beyond hlongest hnil hdisjoint hword hbegins with
        ⟨_, hcovers⟩ | ⟨hbeyond, _⟩
      · exact hcovers
      · exact absurd (hallows.2 limit hmost) (Nat.not_le_of_lt hbeyond)
  | stalled _ _ hlast hsuccess hstays =>
      obtain ⟨read, hread, hreads⟩ := hlongest.sound hlast hsuccess
      exact absurd (hreads.eq_nil hstays ▸ hread) hnil
  | enough climb _ hlast hfails _ =>
      rcases climb.covers_or_beyond hlongest hnil hdisjoint hword hbegins with
        ⟨_, hcovers⟩ | ⟨_, next, hnext, hahead⟩
      · exact hcovers
      · have hsucceeds := (hlongest.covers hlast hnext hahead).1
        simp [hfails] at hsucceeds
  | short climb _ hlast hfails hshort =>
      rcases climb.covers_or_beyond hlongest hnil hdisjoint hword hbegins with
        ⟨hle, _⟩ | ⟨_, next, hnext, hahead⟩
      · exact absurd (Nat.le_trans hallows.1 hle) (Nat.not_le_of_lt hshort)
      · have hsucceeds := (hlongest.covers hlast hnext hahead).1
        simp [hfails] at hsucceeds

end Repetition

namespace Pattern

/-- On a deterministic pattern the committed match misses no word of the
language. -/
theorem Deterministic.readsLongest {p : Pattern Empty} (hp : p.Deterministic) :
    ReadsLongest p.Returns p.language := by
  refine ⟨exists_mem_language_reads, ?_⟩
  intro c d word h hword hbegins
  induction p generalizing c d word with
  | single cls =>
      obtain rfl := returns_single_iff.1 h
      obtain ⟨ch, rfl, haccepts⟩ := mem_language_single.1 hword
      obtain ⟨rest, hahead⟩ := hbegins
      obtain ⟨hsuccess, hreads⟩ := Cursor.reads_passIf hahead.symm haccepts
      exact ⟨hsuccess, [ch], hreads, List.prefix_rfl⟩
  | literal text =>
      obtain rfl := returns_literal_iff.1 h
      obtain rfl := mem_language_literal.1 hword
      have hsuccess := Cursor.success_passWord_iff.2 hbegins
      exact ⟨hsuccess, word, Cursor.reads_passWord hsuccess, List.prefix_rfl⟩
  | leaf value => exact value.elim
  | sequence first second ihFirst ihSecond =>
      obtain ⟨hpFirst, hpSecond, hdisjoint⟩ := hp
      obtain ⟨front, hfront, back, hback, rfl⟩ := mem_language_sequence.1 hword
      have hlongest : ReadsLongest first.Returns first.language :=
        ⟨exists_mem_language_reads, ihFirst hpFirst⟩
      obtain ⟨middle, hfirst, hrest⟩ := returns_sequence_iff.1 h
      obtain ⟨hmiddle, read, hread, hreads, hle⟩ := hlongest.exists_read hfirst
        hfront ((List.prefix_append front back).trans hbegins)
      rcases hrest with ⟨hfails, _⟩ | ⟨_, last, hsecond, rfl⟩
      · simp [hmiddle] at hfails
      · rw [hreads.ahead_eq] at hbegins
        rcases eq_or_nil_of_begins hdisjoint hfront hread hle hback hbegins
          with rfl | rfl
        · rw [List.prefix_append_right_inj] at hbegins
          have hcovers := ihSecond hpSecond hsecond hback hbegins
          rw [if_pos hcovers.1]
          exact hcovers.append hreads
        · obtain ⟨hlast, tail, htail, _⟩ :=
            ihSecond hpSecond hsecond hback List.nil_prefix
          rw [if_pos hlast, List.append_nil]
          exact ⟨hlast, read ++ tail, hreads.trans htail,
            hle.trans (List.prefix_append read tail)⟩
  | choice first second ihFirst ihSecond =>
      obtain ⟨hpFirst, hpSecond, hnil, hdisjoint⟩ := hp
      rcases returns_choice_iff.1 h with ⟨hfirst, hsuccess⟩ |
        ⟨failed, hfirst, hfails, hsecond⟩
      · rcases mem_language_choice.1 hword with hword | hword
        · exact ihFirst hpFirst hfirst hword hbegins
        · obtain ⟨read, hread, hreads⟩ :=
            exists_mem_language_reads hfirst hsuccess
          rw [hreads.ahead_eq] at hbegins
          rw [eq_nil_of_disjoint_firsts hnil hdisjoint hread hword hbegins]
          exact Cursor.covers_nil hreads hsuccess
      · rcases mem_language_choice.1 hword with hword | hword
        · have hsucceeds := (ihFirst hpFirst hfirst hword hbegins).1
          simp [hfails] at hsucceeds
        · exact ihSecond hpSecond hsecond hword hbegins
  | repeated inner bounds ih =>
      obtain ⟨hinner, hnil, hdisjoint⟩ := hp
      obtain ⟨count, hallows, hpower⟩ := mem_language_repeated.1 hword
      have hlongest : ReadsLongest inner.Returns inner.language :=
        ⟨exists_mem_language_reads, ih hinner⟩
      exact (returns_repeated_iff.1 h).covers hlongest hnil hdisjoint hallows
        hpower hbegins

/-- If a match covers the whole text, it is a match of the whole text. -/
theorem isFullMatch_of_covers {text : String} {result : Cursor}
    (h : (Cursor.start text).Covers text.toList result) :
    result.isFullMatch = true := by
  obtain ⟨hsuccess, read, hreads, hle⟩ := h
  have hlength := congrArg List.length hreads.ahead_eq
  have hle' := hle.length_le
  rw [Cursor.ahead_start, List.length_append] at hlength
  have hend : result.ahead = [] := List.length_eq_zero_iff.1 (by omega)
  rw [Cursor.isFullMatch, hsuccess, Bool.true_and, Cursor.atEnd_iff, hend]

/-- Matching a deterministic pattern succeeds just if the text begins with a
word of its language, and then reads the longest; matching a whole text is
membership of the language. -/
theorem matchText_longest {p : Pattern Empty} (hp : p.Deterministic)
    (text : String) :
    ∃ result, p.matchText text = some result ∧
      (result.success = true ↔ ∃ word ∈ p.language, word <+: text.toList) ∧
      (result.success = true →
        IsLongestPrefix p.language text.toList result.matched.toList) ∧
      (result.isFullMatch = true ↔ text.toList ∈ p.language) := by
  have hlongest := hp.readsLongest
  have hreturns := p.returns_matchCursor (.start text)
  refine ⟨p.matchCursor (.start text), p.matchText_eq_some text, ?_, ?_, ?_⟩
  · constructor
    · intro hsuccess
      obtain ⟨read, hread, hreads⟩ := hlongest.sound hreturns hsuccess
      exact ⟨read, hread, hreads.prefix_ahead⟩
    · rintro ⟨word, hword, hbegins⟩
      exact (hlongest.covers hreturns hword hbegins).1
  · intro hsuccess
    obtain ⟨read, hread, hreads⟩ := hlongest.sound hreturns hsuccess
    rw [hreads.matched_eq, String.toList_ofList]
    refine ⟨hread, hreads.prefix_ahead, ?_⟩
    intro other hother hbegins
    obtain ⟨_, read', hreads', hle⟩ := hlongest.covers hreturns hother hbegins
    rw [hreads.unique hreads']
    exact hle.length_le
  · constructor
    · intro hfull
      obtain ⟨read, hread, hreads⟩ :=
        hlongest.sound hreturns (Bool.and_eq_true_iff.1 hfull).1
      rwa [toList_eq_of_isFullMatch hreads hfull]
    · intro hmember
      exact isFullMatch_of_covers
        (hlongest.covers hreturns hmember List.prefix_rfl)

theorem mem_language_char_then_optional {first second : Char} {w : List Char} :
    w ∈ (sequence (char first) (char second).optional :
        Pattern Empty).language ↔
      w = [first] ∨ w = [first, second] := by
  rw [mem_language_sequence]
  constructor
  · intro hw
    obtain ⟨u, hu, v, hv, rfl⟩ := hw
    rw [mem_language_char] at hu
    rw [mem_language_optional, mem_language_char] at hv
    subst hu
    rcases hv with rfl | rfl
    · exact .inl rfl
    · exact .inr rfl
  · intro hw
    have hfirst : [first] ∈ (char first : Pattern Empty).language :=
      mem_language_char.2 rfl
    rcases hw with rfl | rfl
    · exact ⟨[first], hfirst, [], mem_language_optional.2 (.inl rfl), rfl⟩
    · exact ⟨[first], hfirst, [second],
        mem_language_optional.2 (.inr (mem_language_char.2 rfl)), rfl⟩

/-- One character has nothing to go on with. -/
theorem extensions_char (ch : Char) :
    extensions (char ch : Pattern Empty).language = ∅ := by
  rw [Set.eq_empty_iff_forall_notMem]
  intro next h
  obtain ⟨word, hword, rest, hlonger⟩ := h
  rw [mem_language_char] at hword hlonger
  simp [hword] at hlonger

theorem firsts_char_then_optional (first second : Char) :
    firsts (sequence (char first) (char second).optional :
      Pattern Empty).language ⊆ {first} := by
  intro ch h
  obtain ⟨rest, hword⟩ := h
  rw [mem_language_char_then_optional] at hword
  simp only [List.cons.injEq] at hword
  rcases hword with ⟨rfl, _⟩ | ⟨rfl, _⟩ <;> rfl

theorem extensions_char_then_optional (first second : Char) :
    extensions (sequence (char first) (char second).optional :
      Pattern Empty).language ⊆ {second} := by
  intro ch h
  obtain ⟨word, hword, rest, hlonger⟩ := h
  rw [mem_language_char_then_optional] at hword hlonger
  rcases hword with rfl | rfl <;> simp_all

/-- A repetition may go on with a character with which the next one does not
begin. -/
theorem deterministic_char_then_optional {first second : Char}
    (hne : first ≠ second) (bounds : Bounds) :
    (repeated (sequence (char first) (char second).optional)
      bounds).Deterministic := by
  have hoptional : ((char second).optional : Pattern Empty).Deterministic := by
    refine ⟨trivial, ?_, ?_⟩
    · simp [mem_language_char]
    · simp [extensions_char]
  refine ⟨⟨trivial, hoptional, ?_⟩, ?_, ?_⟩
  · simp [extensions_char]
  · simp [mem_language_char_then_optional]
  · refine Set.disjoint_of_subset (extensions_char_then_optional first second)
      (firsts_char_then_optional first second) ?_
    exact Set.disjoint_singleton.2 hne.symm

/-- Repetitions of an `a` that a `b` may follow, at least two of them. -/
theorem matchText_longest_letters :
    IsLongestPrefix
      (repeated (sequence (char 'a') (char 'b').optional) (.atLeast 2)).language
      "ababa!".toList "ababa".toList ∧
    "ababa!".toList ∉
      (repeated (sequence (char 'a') (char 'b').optional)
        (.atLeast 2)).language := by
  have hletters :
      (repeated (sequence (char 'a') (char 'b').optional)
        (.atLeast 2)).Deterministic :=
    deterministic_char_then_optional (by decide) (.atLeast 2)
  obtain ⟨result, hresult, _, hlongest, hfull⟩ :=
    matchText_longest hletters "ababa!"
  have hread :
      ((repeated (sequence (char 'a') (char 'b').optional) (.atLeast 2) :
        Pattern Empty).matchText "ababa!").map (fun result =>
          (result.success, result.matched, result.isFullMatch)) =
        some (true, "ababa", false) := by
    decide +kernel
  rw [hresult, Option.map_some, Option.some.injEq, Prod.mk.injEq, Prod.mk.injEq]
    at hread
  rw [← hread.2.1, ← hfull, hread.2.2]
  exact ⟨hlongest hread.1, Bool.false_ne_true⟩

end Pattern

end TextPattern
