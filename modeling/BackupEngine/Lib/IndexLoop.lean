import Mathlib

/-!
# Loops over a list that changes

A loop goes through a list by index while entries are appended to the list and erased from it. It visits every entry that stays
exactly once as long as nothing is erased at or before its place while an entry that was there from the start is still
ahead: an erasure there moves the entries ahead down by one, and the next of them is passed unvisited.
-/

namespace IndexLoop

variable {α : Type*} [DecidableEq α] {first dropped called xs : List α} {a : α} {k : ℕ}

/-- The loop is about to look at place `k` of `xs`, has visited the entries `called`, and the list was `first` when it began;
the entries of `dropped` were erased since. Of the others those before the place were visited once, those ahead not yet. -/
structure Visits (first dropped called xs : List α) (k : ℕ) : Prop where
  stays : ∀ b ∈ first, b ∉ dropped → b ∈ xs
  passed : ∀ b ∈ first, b ∉ dropped → b ∈ xs.take k → called.count b = 1
  ahead : ∀ b ∈ first, b ∉ dropped → b ∈ xs.drop k → called.count b = 0

theorem Visits.start (xs : List α) : Visits xs [] [] xs 0 :=
  ⟨fun _ hb _ => hb, fun _ _ _ hb => by simp at hb, fun _ _ _ _ => rfl⟩

/-- The entry at the place is visited. -/
theorem Visits.visit (h : Visits first dropped called xs k) (hnodup : xs.Nodup) (ha : xs[k]? = some a) :
    Visits first dropped (called ++ [a]) xs (k + 1) := by
  obtain ⟨hk, rfl⟩ := List.getElem?_eq_some_iff.mp ha
  have hne : ∀ {b}, b ∈ xs.take k ∨ b ∈ xs.drop (k + 1) → b ≠ xs[k] := by
    rintro b hb rfl
    rw [← List.take_append_drop k xs, List.drop_eq_getElem_cons hk] at hnodup
    obtain ⟨_, hdrop, hdisjoint⟩ := List.nodup_append.mp hnodup
    rcases hb with hb | hb
    · exact hdisjoint _ hb _ List.mem_cons_self rfl
    · exact (List.nodup_cons.mp hdrop).1 hb
  refine ⟨h.stays, fun b hb hstays hpassed => ?_, fun b hb hstays hahead => ?_⟩
  · rw [List.take_succ_eq_append_getElem hk] at hpassed
    rw [List.count_append, List.count_singleton']
    rcases List.mem_append.mp hpassed with hpassed | heq
    · rw [h.passed b hb hstays hpassed, if_neg (Ne.symm (hne (.inl hpassed)))]
    · obtain rfl := List.mem_singleton.mp heq
      rw [h.ahead _ hb hstays (by rw [List.drop_eq_getElem_cons hk]; exact List.mem_cons_self), if_pos rfl]
  · have hbehind : b ∈ xs.drop k := by
      rw [List.drop_eq_getElem_cons hk]
      exact List.mem_cons_of_mem _ hahead
    rw [List.count_append, List.count_singleton', h.ahead b hb hstays hbehind, if_neg (Ne.symm (hne (.inr hahead)))]

/-- A new entry is appended. -/
theorem Visits.append (h : Visits first dropped called xs k) (ha : a ∉ xs) : Visits first dropped called (xs ++ [a]) k := by
  refine ⟨fun b hb hstays => List.mem_append_left _ (h.stays b hb hstays), fun b hb hstays hpassed => ?_,
    fun b hb hstays hahead => ?_⟩
  · rw [List.take_append] at hpassed
    rcases List.mem_append.mp hpassed with hpassed | hnew
    · exact h.passed b hb hstays hpassed
    · obtain rfl := List.mem_singleton.mp (List.mem_of_mem_take hnew)
      exact absurd (h.stays b hb hstays) ha
  · rw [List.drop_append] at hahead
    rcases List.mem_append.mp hahead with hahead | hnew
    · exact h.ahead b hb hstays hahead
    · obtain rfl := List.mem_singleton.mp (List.mem_of_mem_drop hnew)
      exact absurd (h.stays b hb hstays) ha

/-- An entry is erased: one ahead, or one of the others where nothing ahead was there from the start. -/
theorem Visits.erase (h : Visits first dropped called xs k)
    (hlast : a ∈ xs.take k → ∀ b ∈ xs.drop k, b ∈ first → b ∈ dropped) :
    Visits first (dropped ++ [a]) called (xs.erase a) k := by
  have hstaying : ∀ {b}, b ∉ dropped ++ [a] → b ∉ dropped ∧ b ≠ a := by
    intro b hb
    rw [List.mem_append, not_or, List.mem_singleton] at hb
    exact hb
  have hsplit := List.take_append_drop k xs
  have hlen : (xs.take k).length ≤ k := by
    rw [List.length_take]
    exact Nat.min_le_left _ _
  refine ⟨fun b hb hstays => ?_, fun b hb hstays hpassed => ?_, fun b hb hstays hahead => ?_⟩
  · obtain ⟨hstays, hne⟩ := hstaying hstays
    exact (List.mem_erase_of_ne hne).mpr (h.stays b hb hstays)
  · obtain ⟨hstays, hne⟩ := hstaying hstays
    refine h.passed b hb hstays ?_
    by_cases ha : a ∈ xs.take k
    · have hmem := h.stays b hb hstays
      rw [← hsplit] at hmem
      exact (List.mem_append.mp hmem).resolve_right fun hdrop => hstays (hlast ha b hdrop hb)
    · rw [← hsplit, List.erase_append_right _ ha, List.take_append] at hpassed
      rcases List.mem_append.mp hpassed with hpassed | hpassed
      · exact List.mem_of_mem_take hpassed
      · -- The places before `k` that the first part does not fill are past the end of the list.
        exfalso
        rw [List.length_take] at hpassed
        have hdrop : b ∈ xs.drop k := List.mem_of_mem_erase (List.mem_of_mem_take hpassed)
        have := List.length_pos_of_mem hdrop
        rw [List.length_drop] at this
        rw [show k - min k xs.length = 0 by omega, List.take_zero] at hpassed
        exact absurd hpassed List.not_mem_nil
  · obtain ⟨hstays, hne⟩ := hstaying hstays
    by_cases ha : a ∈ xs.take k
    · rw [← hsplit, List.erase_append_left _ ha, List.drop_append] at hahead
      have hle : ((xs.take k).erase a).length ≤ k := (List.length_erase_le).trans hlen
      rw [List.drop_eq_nil_of_le hle, List.nil_append] at hahead
      exact absurd (hlast ha b (List.mem_of_mem_drop hahead) hb) hstays
    · rw [← hsplit, List.erase_append_right _ ha, List.drop_append, List.drop_eq_nil_of_le hlen, List.nil_append] at hahead
      exact h.ahead b hb hstays (List.mem_of_mem_erase (List.mem_of_mem_drop hahead))

/-- The loop ends where the list does, also when its place is further on. -/
theorem Visits.finish (h : Visits first dropped called xs k) (hk : xs.length ≤ k) :
    Visits first dropped called xs xs.length := by
  refine ⟨h.stays, fun b hb hstays _ => ?_, fun b _ _ hahead => ?_⟩
  · refine h.passed b hb hstays ?_
    rw [List.take_of_length_le hk]
    exact h.stays b hb hstays
  · rw [List.drop_length] at hahead
    cases hahead

/-- Past the end every entry that stays was visited once. -/
theorem Visits.once (h : Visits first dropped called xs xs.length) {b : α} (hb : b ∈ first) (hstays : b ∉ dropped) :
    called.count b = 1 := by
  refine h.passed b hb hstays ?_
  rw [List.take_length]
  exact h.stays b hb hstays

end IndexLoop
