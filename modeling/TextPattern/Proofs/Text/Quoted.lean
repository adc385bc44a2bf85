import TextPattern.Text.Numeral
import TextPattern.Text.Quoted

/-!
Quoted texts can be told from what follows them. At the front of a text there is
only one quoted text, since each escape says where it ends and the closing mark
never stands there unescaped. Numerals say so too, if no digit follows. Main
statements: what is between the marks and what comes after them are determined
(`quoted_append_inj`), and so are a run of characters of one class and what
comes after it (`run_append_inj`).
-/

namespace TextPattern

section Run

variable (test : Char → Bool)

theorem takeWhile_run_append {run rest : List Char}
    (hrun : ∀ ch ∈ run, test ch = true)
    (hrest : ∀ ch ∈ rest.head?, test ch = false) :
    (run ++ rest).takeWhile test = run := by
  rw [List.takeWhile_append_of_pos hrun]
  cases rest with
  | nil => simp
  | cons ch rest => simp [hrest ch rfl]

/-- A run of characters that pass a test ends where a character does not. -/
theorem run_append_inj {run run' rest rest' : List Char}
    (hrun : ∀ ch ∈ run, test ch = true) (hrun' : ∀ ch ∈ run', test ch = true)
    (hrest : ∀ ch ∈ rest.head?, test ch = false)
    (hrest' : ∀ ch ∈ rest'.head?, test ch = false)
    (h : run ++ rest = run' ++ rest') : run = run' ∧ rest = rest' := by
  have heq : run = run' := by
    rw [← takeWhile_run_append test hrun hrest, h,
      takeWhile_run_append test hrun' hrest']
  rw [heq] at h
  exact ⟨heq, List.append_cancel_left h⟩

end Run

section Digits

/-- The digits of a number are digits below the base. -/
theorem exists_digitChar_of_mem_toDigits {base number : Nat} (hbase : 1 < base)
    {ch : Char} (h : ch ∈ Nat.toDigits base number) :
    ∃ digit < base, ch = digit.digitChar := by
  induction number using Nat.strongRecOn with
  | ind number ih =>
      rw [Nat.toDigits_eq_if hbase] at h
      split at h
      · next hlt => exact ⟨number, hlt, List.mem_singleton.1 h⟩
      · next hge =>
          rcases List.mem_append.1 h with hfront | hlast
          · exact ih (number / base) (Nat.div_lt_self (by omega) hbase) hfront
          · exact ⟨number % base, Nat.mod_lt _ (by omega),
              List.mem_singleton.1 hlast⟩

theorem digitChar_inj : ∀ digit < 16, ∀ digit' < 16,
    Nat.digitChar digit = Nat.digitChar digit' → digit = digit' := by decide

/-- In a base of sixteen or less different numbers have different digits. -/
theorem toDigits_injective {base : Nat} (hbase : 1 < base) (hle : base ≤ 16) :
    Function.Injective (Nat.toDigits base) := by
  intro number
  induction number using Nat.strongRecOn with
  | ind number ih =>
      intro number' h
      rw [Nat.toDigits_eq_if hbase, Nat.toDigits_eq_if (n := number') hbase]
        at h
      by_cases hlt : number < base <;> by_cases hlt' : number' < base
      · rw [if_pos hlt, if_pos hlt', List.singleton_inj] at h
        exact digitChar_inj _ (by omega) _ (by omega) h
      · rw [if_pos hlt, if_neg hlt', List.singleton_eq_append_iff] at h
        simp [Nat.toDigits_ne_nil] at h
      · rw [if_neg hlt, if_pos hlt', List.append_eq_singleton_iff] at h
        simp [Nat.toDigits_ne_nil] at h
      · rw [if_neg hlt, if_neg hlt'] at h
        obtain ⟨hfront, hlast⟩ := List.append_inj' h rfl
        have hdiv : number / base = number' / base :=
          ih _ (Nat.div_lt_self (by omega) hbase) hfront
        have hmod : number % base = number' % base := by
          have hdigit := Nat.mod_lt number (show 0 < base by omega)
          have hdigit' := Nat.mod_lt number' (show 0 < base by omega)
          exact digitChar_inj _ (by omega) _ (by omega)
            (List.singleton_inj.1 hlast)
        rw [← Nat.div_add_mod number base, ← Nat.div_add_mod number' base,
          hdiv, hmod]

theorem countDigits_injective : Function.Injective countDigits := by
  intro count count' h
  have hread : some count = some count' := by
    rw [← readCount?_countDigits count, h, readCount?_countDigits count']
  exact Option.some.inj hread

/-- A count at the front of a text and what comes after it are determined, if no
digit follows. -/
theorem countDigits_append_inj {count count' : UInt32} {rest rest' : List Char}
    (hrest : ∀ ch ∈ rest.head?, ch.isDigit = false)
    (hrest' : ∀ ch ∈ rest'.head?, ch.isDigit = false)
    (h : countDigits count ++ rest = countDigits count' ++ rest') :
    count = count' ∧ rest = rest' := by
  have hdigits (count : UInt32) : ∀ ch ∈ countDigits count, ch.isDigit = true :=
    (readCount?_eq_some_iff.1 (readCount?_countDigits count)).2.1
  obtain ⟨hcount, heq⟩ :=
    run_append_inj Char.isDigit (hdigits count) (hdigits count') hrest hrest' h
  exact ⟨countDigits_injective hcount, heq⟩

end Digits

/-- The character that a letter after a backslash stands for: itself, if it is
no letter of an escape. -/
def escapeMeaning : Char → Char
  | '0' => '\x00'
  | 't' => '\t'
  | 'r' => '\r'
  | 'n' => '\n'
  | letter => letter

/-- The three forms of an escaped character: as it is, a backslash and a letter
that stands for it, or a backslash and its code point. -/
inductive EscapeForm (mark ch : Char) : List Char → Prop
  | plain (hmark : ch ≠ mark) (hslash : ch ≠ '\\') : EscapeForm mark ch [ch]
  | short {letter : Char} (hletter : letter ≠ 'u')
      (hmeaning : escapeMeaning letter = ch) :
      EscapeForm mark ch ['\\', letter]
  | code : EscapeForm mark ch ('\\' :: 'u' :: bracedCode ch)

section Escape

variable {mark ch ch' : Char} {form form' rest rest' : List Char}

theorem escapeForm_escaped (hmark : mark = '\'' ∨ mark = '"') (ch : Char) :
    EscapeForm mark ch (escaped mark ch) := by
  unfold escaped
  split
  · exact .short (by decide) rfl
  · exact .short (by decide) rfl
  · exact .short (by decide) rfl
  · exact .short (by decide) rfl
  · exact .short (by decide) rfl
  · next hslash =>
      split
      · next heq =>
          subst heq
          rcases hmark with rfl | rfl
          · exact .short (by decide) rfl
          · exact .short (by decide) rfl
      · next hne =>
          split
          · exact .code
          · exact .plain hne hslash

theorem bracedCode_append_inj
    (h : bracedCode ch ++ rest = bracedCode ch' ++ rest') :
    ch = ch' ∧ rest = rest' := by
  have hdigits (ch : Char) :
      ∀ digit ∈ Nat.toDigits 16 ch.toNat, (digit != '}') = true := by
    intro digit hdigit
    obtain ⟨value, hvalue, rfl⟩ :=
      exists_digitChar_of_mem_toDigits (by decide) hdigit
    have hapart : ∀ value < 16, (Nat.digitChar value != '}') = true := by decide
    exact hapart value hvalue
  simp only [bracedCode, List.cons_append, List.append_assoc, List.cons.injEq,
    true_and, List.nil_append] at h
  obtain ⟨hcode, hrest⟩ := run_append_inj (· != '}') (hdigits ch) (hdigits ch')
    (by simp) (by simp) h
  exact ⟨Char.toNat_inj.1 (toDigits_injective (by decide) (by decide) hcode),
    (List.cons.inj hrest).2⟩

theorem EscapeForm.append_inj (hform : EscapeForm mark ch form)
    (hform' : EscapeForm mark ch' form') (h : form ++ rest = form' ++ rest') :
    ch = ch' ∧ rest = rest' := by
  cases hform with
  | plain hmark hslash =>
      cases hform' with
      | plain => simpa using h
      | short => exact absurd (List.cons.inj h).1 hslash
      | code => exact absurd (List.cons.inj h).1 hslash
  | short hletter hmeaning =>
      cases hform' with
      | plain hmark' hslash' => exact absurd (List.cons.inj h).1.symm hslash'
      | short hletter' hmeaning' =>
          obtain ⟨rfl, rfl⟩ : _ = _ ∧ rest = rest' := by simpa using h
          exact ⟨hmeaning.symm.trans hmeaning', rfl⟩
      | code => exact absurd (List.cons.inj (List.cons.inj h).2).1 hletter
  | code =>
      cases hform' with
      | plain hmark' hslash' => exact absurd (List.cons.inj h).1.symm hslash'
      | short hletter' _ =>
          exact absurd (List.cons.inj (List.cons.inj h).2).1.symm hletter'
      | code =>
          exact bracedCode_append_inj (List.cons.inj (List.cons.inj h).2).2

/-- No escaped character begins with the mark. -/
theorem EscapeForm.append_ne (hmark : mark = '\'' ∨ mark = '"')
    (hform : EscapeForm mark ch form) : form ++ rest ≠ mark :: rest' := by
  have hslash : '\\' ≠ mark := by rcases hmark with rfl | rfl <;> decide
  cases hform with
  | plain hne _ =>
      intro h
      exact hne (List.cons.inj h).1
  | short =>
      intro h
      exact hslash (List.cons.inj h).1
  | code =>
      intro h
      exact hslash (List.cons.inj h).1

end Escape

/-- A quoted text at the front of a text and what comes after it are
determined. -/
theorem quoted_append_inj {mark : Char} (hmark : mark = '\'' ∨ mark = '"')
    {chars chars' rest rest' : List Char}
    (h : quoted mark chars ++ rest = quoted mark chars' ++ rest') :
    chars = chars' ∧ rest = rest' := by
  have hbody : chars.flatMap (escaped mark) ++ mark :: rest =
      chars'.flatMap (escaped mark) ++ mark :: rest' := by
    simpa [quoted] using h
  clear h
  induction chars generalizing chars' with
  | nil =>
      cases chars' with
      | nil => simpa using hbody
      | cons ch' later' =>
          rw [List.flatMap_cons, List.append_assoc] at hbody
          exact absurd hbody.symm
            ((escapeForm_escaped hmark ch').append_ne hmark)
  | cons ch later ih =>
      rw [List.flatMap_cons, List.append_assoc] at hbody
      cases chars' with
      | nil =>
          exact absurd hbody ((escapeForm_escaped hmark ch).append_ne hmark)
      | cons ch' later' =>
          rw [List.flatMap_cons, List.append_assoc] at hbody
          obtain ⟨rfl, hlater⟩ :=
            (escapeForm_escaped hmark ch).append_inj
              (escapeForm_escaped hmark ch') hbody
          obtain ⟨rfl, rfl⟩ := ih hlater
          exact ⟨rfl, rfl⟩

theorem quotedChar_append_inj {ch ch' : Char} {rest rest' : List Char}
    (h : quotedChar ch ++ rest = quotedChar ch' ++ rest') :
    ch = ch' ∧ rest = rest' := by
  obtain ⟨hchars, hrest⟩ := quoted_append_inj (.inl rfl) h
  exact ⟨List.singleton_inj.1 hchars, hrest⟩

theorem quotedChar_injective : Function.Injective quotedChar := by
  intro ch ch' h
  have happend : quotedChar ch ++ [] = quotedChar ch' ++ [] := by rw [h]
  exact (quotedChar_append_inj happend).1

theorem quotedText_append_inj {chars chars' rest rest' : List Char}
    (h : quotedText chars ++ rest = quotedText chars' ++ rest') :
    chars = chars' ∧ rest = rest' :=
  quoted_append_inj (.inr rfl) h

end TextPattern
