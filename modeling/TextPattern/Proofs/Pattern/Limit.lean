import Mathlib.Data.List.Perm.Subperm
import TextPattern.Proofs.Pattern.Conduct

/-!
How many rounds a match needs. Leaves that stay on the text may go back in it
and keep a repetition running for ever. But a repetition that comes back to a
place, after a success, goes on from there as it did before; so one that stops
has been nowhere twice, and a text has no more places than bytes and one. Main
statement: the limit on rounds that a bounded match is given is never what ends
it (`matchCursor?_eq_some_iff`).
-/

namespace TextPattern

section Repetition

variable {step : Cursor → Cursor → Prop} {c e e' : Cursor} {moves moves' : Nat}

/-- A step that is determined by the cursor stops after a determined number of
moves. -/
theorem Climbs.moves_eq (hunique : ∀ c d d', step c d → step c d' → d = d')
    (climb : Climbs step moves c e) (hstops : Stops step e)
    (climb' : Climbs step moves' c e') (hstops' : Stops step e') :
    moves = moves' := by
  induction climb generalizing moves' with
  | refl c =>
      cases climb' with
      | refl => rfl
      | move hstep hsuccess hmoves _ =>
          obtain ⟨last, hlast, hstays⟩ := hstops
          obtain rfl := hunique _ _ _ hlast hstep
          exact absurd (hstays hsuccess) hmoves
  | move hstep hsuccess hmoves _ ih =>
      cases climb' with
      | refl =>
          obtain ⟨last, hlast, hstays⟩ := hstops'
          obtain rfl := hunique _ _ _ hlast hstep
          exact absurd (hstays hsuccess) hmoves
      | move hstep' _ _ rest' =>
          obtain rfl := hunique _ _ _ hstep hstep'
          rw [ih hstops rest']

/-- The positions that a climb to a stop comes to are all different. -/
theorem Climbs.exists_positions
    (hunique : ∀ c d d', step c d → step c d' → d = d')
    (hchars : ∀ c d, step c d → d.chars = c.chars)
    (climb : Climbs step moves c e) (hstops : Stops step e) :
    ∃ positions : List Nat, positions.length = moves ∧ positions.Nodup ∧
      ∀ position ∈ positions, ∃ d left, left < moves ∧ d.chars = c.chars ∧
        d.success = true ∧ d.position = position ∧ Climbs step left d e := by
  induction climb with
  | refl c => exact ⟨[], rfl, List.nodup_nil, by simp⟩
  | @move moves c d e hstep hsuccess hmoves rest ih =>
      obtain ⟨positions, hlength, hnodup, hreached⟩ := ih hstops
      refine ⟨d.position :: positions, by simp [hlength],
        List.nodup_cons.2 ⟨?_, hnodup⟩, ?_⟩
      · -- Had the climb come back to the first place, it would be as far from
        -- its stop as before.
        intro hmem
        obtain ⟨d', left, hless, hsource, hsuccess', hposition, climb'⟩ :=
          hreached _ hmem
        obtain rfl : d' = d :=
          Cursor.eq_iff.2 ⟨hsource, hposition, hsuccess'.trans hsuccess.symm⟩
        exact absurd (climb'.moves_eq hunique hstops rest hstops)
          (Nat.ne_of_lt hless)
      · intro position hmem
        rcases List.mem_cons.1 hmem with rfl | hmem
        · exact ⟨d, moves, Nat.lt_succ_self moves, hchars c d hstep, hsuccess,
            rfl, rest⟩
        · obtain ⟨d', left, hless, hsource, hreached'⟩ := hreached position hmem
          exact ⟨d', left, Nat.lt_succ_of_lt hless,
            hsource.trans (hchars c d hstep), hreached'⟩

/-- A climb to a stop makes no more moves than there are places in the text. -/
theorem Climbs.moves_le (hunique : ∀ c d d', step c d → step c d' → d = d')
    (hchars : ∀ c d, step c d → d.chars = c.chars)
    (climb : Climbs step moves c e) (hstops : Stops step e) :
    moves ≤ utf8Length c.chars + 1 := by
  obtain ⟨positions, rfl, hnodup, hreached⟩ :=
    climb.exists_positions hunique hchars hstops
  have hsubset : positions ⊆ List.range (utf8Length c.chars + 1) := by
    intro position hmem
    obtain ⟨d, _, _, hsource, _, rfl, _⟩ := hreached position hmem
    have hplace := d.position_add_utf8Length_ahead
    rw [hsource] at hplace
    exact List.mem_range.2 (by omega)
  simpa using (List.subperm_of_subset hnodup hsubset).length_le

end Repetition

namespace Pattern

variable {κ : Type} [Matcher κ]
  (hleaf : ∀ (value : κ) (c : Cursor), (Matcher.run value c).chars = c.chars)

include hleaf

/-- Two rounds more than there are bytes in the text are enough for a match that
ends. -/
theorem Returns.run_eq_some {p : Pattern κ} {c result : Cursor} {limit : Nat}
    (hlimit : utf8Length c.chars + 2 ≤ limit) (h : p.Returns c result) :
    p.run limit c = some result := by
  induction p generalizing c result with
  | single cls => exact congrArg some (returns_single_iff.1 h)
  | literal word => exact congrArg some (returns_literal_iff.1 h)
  | leaf value => exact congrArg some (returns_leaf_iff.1 h)
  | sequence first second ihFirst ihSecond =>
      obtain ⟨middle, hfirst, hrest⟩ := returns_sequence_iff.1 h
      rw [run, ihFirst hlimit hfirst]
      rcases hrest with ⟨hfails, rfl⟩ | ⟨hsuccess, last, hsecond, rfl⟩
      · simp [hfails]
      · have hmiddle : utf8Length middle.chars + 2 ≤ limit := by
          rwa [hfirst.chars_eq hleaf]
        simp [hsuccess, ihSecond hmiddle hsecond]
  | choice first second ihFirst ihSecond =>
      rw [run]
      rcases returns_choice_iff.1 h with ⟨hfirst, hsuccess⟩ |
        ⟨failed, hfirst, hfails, hsecond⟩
      · simp [ihFirst hlimit hfirst, hsuccess]
      · simp [ihFirst hlimit hfirst, hfails, ihSecond hlimit hsecond]
  | repeated inner bounds ih =>
      have hplaces (d e : Cursor) (hd : utf8Length d.chars + 2 ≤ limit)
          (hinner : inner.Returns d e) : utf8Length e.chars + 2 ≤ limit := by
        rwa [hinner.chars_eq hleaf]
      have hrepeats : Repeats (inner.run limit · = some ·) bounds c result :=
        (returns_repeated_iff.1 h).mono_on hplaces (fun _ _ => ih) hlimit
      rcases hrepeats.exists_greedy_eq with hgreedy |
        ⟨moves, e, climb, hstops, hgreedy⟩
      · exact hgreedy limit
      · have hmoves := climb.moves_le
          (fun _ _ _ hd hd' => Option.some.inj (hd.symm.trans hd'))
          (fun _ _ hrun => (returns_of_run hrun).chars_eq hleaf) hstops
        exact greedy_of_le (fun _ _ hrun => hrun) (by omega) hgreedy

/-- If leaves stay on the text, the bounded match finds every result, and gives
up only on a match that does not end. -/
theorem matchCursor?_eq_some_iff {p : Pattern κ} {c result : Cursor} :
    p.matchCursor? c = some result ↔ p.Returns c result := by
  constructor
  · exact fun hrun => ⟨_, hrun⟩
  · intro h
    have hplaces := c.position_add_utf8Length_ahead
    exact h.run_eq_some hleaf (by omega)

theorem matchText_eq_none_iff {p : Pattern κ} {text : String} :
    p.matchText text = none ↔ ∀ result, ¬ p.Returns (.start text) result := by
  rw [matchText, Option.eq_none_iff_forall_ne_some]
  simp only [ne_eq, matchCursor?_eq_some_iff hleaf]

end Pattern

end TextPattern
