/-!
The UTF-8 length of a list of characters. Positions in a text are counted in
bytes, so this is the measure by which a cursor says how far it has read; the
last lemma ties it to the length of a `String`.
-/

namespace TextPattern

/-- The number of bytes that the characters take in UTF-8. -/
def utf8Length (chars : List Char) : Nat :=
  chars.foldl (fun total ch => total + ch.utf8Size) 0

@[simp] theorem utf8Length_nil : utf8Length [] = 0 := rfl

theorem foldl_utf8Size (chars : List Char) (total : Nat) :
    chars.foldl (fun total ch => total + ch.utf8Size) total =
      total + utf8Length chars := by
  unfold utf8Length
  induction chars generalizing total with
  | nil => rfl
  | cons ch rest ih =>
      rw [List.foldl_cons, List.foldl_cons, ih, ih (0 + ch.utf8Size)]; omega

@[simp] theorem utf8Length_cons (ch : Char) (rest : List Char) :
    utf8Length (ch :: rest) = ch.utf8Size + utf8Length rest := by
  rw [utf8Length, List.foldl_cons, foldl_utf8Size, Nat.zero_add]

@[simp] theorem utf8Length_append (front back : List Char) :
    utf8Length (front ++ back) = utf8Length front + utf8Length back := by
  induction front with
  | nil => simp
  | cons c rest ih => simp [ih, Nat.add_assoc]

@[simp] theorem utf8Length_reverse (chars : List Char) :
    utf8Length chars.reverse = utf8Length chars := by
  induction chars with
  | nil => rfl
  | cons c rest ih => simp [ih, Nat.add_comm]

@[simp] theorem utf8Length_eq_zero_iff {chars : List Char} :
    utf8Length chars = 0 ↔ chars = [] := by
  cases chars with
  | nil => simp
  | cons c rest =>
      have := c.utf8Size_pos
      simp only [utf8Length_cons, reduceCtorEq, iff_false]
      omega

/-- Two ends of one text that take equally many bytes are the same end. -/
theorem eq_of_append_eq_of_utf8Length_eq {front front' back back' : List Char}
    (htext : front ++ back = front' ++ back')
    (hlength : utf8Length front = utf8Length front') :
    front = front' ∧ back = back' := by
  induction front generalizing front' with
  | nil =>
      have : front' = [] := utf8Length_eq_zero_iff.1 hlength.symm
      subst this
      exact ⟨rfl, htext⟩
  | cons c rest ih =>
      cases front' with
      | nil => simp at hlength; have := c.utf8Size_pos; omega
      | cons c' rest' =>
          simp only [List.cons_append, List.cons.injEq] at htext
          obtain ⟨rfl, htext⟩ := htext
          obtain ⟨rfl, rfl⟩ := ih htext (by simpa using hlength)
          exact ⟨rfl, rfl⟩

@[simp] theorem utf8ByteSize_ofList (chars : List Char) :
    (String.ofList chars).utf8ByteSize = utf8Length chars := by
  induction chars with
  | nil => rfl
  | cons c rest ih =>
      have : c :: rest = [c] ++ rest := rfl
      rw [this, String.ofList_append, String.utf8ByteSize_append, ih,
        ← String.singleton_eq_ofList, String.utf8ByteSize_singleton,
        List.singleton_append, utf8Length_cons]

theorem utf8Length_toList (text : String) :
    utf8Length text.toList = text.utf8ByteSize := by
  rw [← utf8ByteSize_ofList, String.ofList_toList]

end TextPattern
