import BackupEngine.Cpp.Vector

/-!
# Sparse tables

A vector used as a sparse table: a key has a slot, the vector grows when a slot past its end is touched, and a flag in the
element says whether the slot is in use. `Holds` is the abstract reading, a set of keys: the used slots are exactly the
slots of the keys of the set, each with the value its key prescribes. Touching a key adds it to the set, provided no other
key of the set has the same slot.
-/

namespace SlotTable

open Cpp

variable {κ σ : Type} (used : σ → Bool) (slot : κ → Nat) (mk : κ → σ)

/-- The used slots of `xs` are exactly the slots of the keys `K`, each holding its key's value. -/
def Holds (xs : List σ) (K : Set κ) : Prop :=
  ∀ i s, (xs[i]? = some s ∧ used s = true) ↔ ∃ k ∈ K, slot k = i ∧ mk k = s

/-- `ys` is no shorter than `xs` and has every used element of `xs` in its place. -/
def Keeps (xs ys : List σ) : Prop :=
  xs.length ≤ ys.length ∧ ∀ (i : Nat) s, xs[i]? = some s → used s = true → ys[i]? = some s

variable {used slot mk}

theorem Keeps.refl (xs : List σ) : Keeps used xs xs := ⟨Nat.le_refl _, fun _ _ h _ => h⟩

theorem Keeps.trans {xs ys zs : List σ} (h : Keeps used xs ys) (h' : Keeps used ys zs) : Keeps used xs zs :=
  ⟨Nat.le_trans h.1 h'.1, fun i s hs hu => h'.2 i s (h.2 i s hs hu) hu⟩

/-- Growing a table keeps it. -/
theorem Keeps.grow (xs : List σ) {n : Nat} (hn : xs.length ≤ n) (blank : σ) : Keeps used xs (resized xs n blank) := by
  refine ⟨by simpa using hn, fun i s hs _ => ?_⟩
  have hi : i < xs.length := (List.getElem?_eq_some_iff.mp hs).1
  rw [getElem?_resized, if_pos (by omega), List.getD, hs]
  rfl

/-- Writing a free slot keeps the table. -/
theorem Keeps.set (xs : List σ) {i : Nat} {s₀ : σ} (hs₀ : xs[i]? = some s₀) (hfree : used s₀ = false) (a : σ) :
    Keeps used xs (xs.set i a) := by
  refine ⟨by simp, fun j s hs hu => ?_⟩
  rw [List.getElem?_set_ne, hs]
  rintro rfl
  rw [hs₀] at hs
  cases hs
  rw [hfree] at hu
  cases hu

/-- An empty vector holds no key. -/
theorem holds_nil : Holds used slot mk [] ∅ := by
  intro i s
  simp

/-- Growing a table by unused elements does not change what it holds. -/
theorem Holds.grow {xs : List σ} {K : Set κ} (h : Holds used slot mk xs K) (blank : σ) (hb : used blank = false)
    {n : Nat} (hn : xs.length ≤ n) : Holds used slot mk (resized xs n blank) K := by
  intro i s
  rw [← h i s, getElem?_resized]
  by_cases hx : i < xs.length
  · simp [hx, Nat.lt_of_lt_of_le hx hn]
  · have hnone : xs[i]? = none := List.getElem?_eq_none (Nat.not_lt.mp hx)
    simp only [hnone, List.getD, Option.getD_none, reduceCtorEq, false_and, iff_false, not_and]
    intro hs
    split at hs
    · cases hs
      simp [hb]
    · cases hs

/-- Writing the value of a key whose slot is free adds the key. -/
theorem Holds.insert {xs : List σ} {K : Set κ} (h : Holds used slot mk xs K) {k : κ} {s₀ : σ}
    (hs₀ : xs[slot k]? = some s₀) (hfree : used s₀ = false) (hmk : used (mk k) = true) :
    Holds used slot mk (xs.set (slot k) (mk k)) (insert k K) := by
  have hlt : slot k < xs.length := (List.getElem?_eq_some_iff.mp hs₀).1
  intro i s
  by_cases hi : slot k = i
  · subst hi
    rw [List.getElem?_set_self hlt]
    constructor
    · rintro ⟨hs, _⟩
      cases hs
      exact ⟨k, Set.mem_insert k K, rfl, rfl⟩
    · rintro ⟨k', hk', hslot, rfl⟩
      rcases hk' with rfl | hk'
      · exact ⟨rfl, hmk⟩
      · have := ((h (slot k) (mk k')).mpr ⟨k', hk', hslot, rfl⟩)
        rw [hs₀] at this
        obtain ⟨hs, hu⟩ := this
        cases hs
        rw [hfree] at hu
        cases hu
  · rw [List.getElem?_set_ne hi, h i s]
    constructor
    · rintro ⟨k', hk', hh⟩
      exact ⟨k', Set.mem_insert_of_mem k hk', hh⟩
    · rintro ⟨k', hk' | hk', hslot, hval⟩
      · subst hk'
        exact absurd hslot hi
      · exact ⟨k', hk', hslot, hval⟩

/-- A key whose slot is in use is one of the keys held, when distinct keys have distinct slots. -/
theorem Holds.mem_of_used {xs : List σ} {K : Set κ} (h : Holds used slot mk xs K) {k : κ} {s₀ : σ}
    (hinj : ∀ k' ∈ K, slot k' = slot k → k' = k) (hs₀ : xs[slot k]? = some s₀) (hu : used s₀ = true) : k ∈ K := by
  obtain ⟨k', hk', hslot, _⟩ := (h _ _).mp ⟨hs₀, hu⟩
  exact hinj k' hk' hslot ▸ hk'

/-- A flat index over rows of width `w` names its row and its column. -/
theorem flat_inj {w x y u v : Int} (hy : 0 ≤ y) (hyw : y < w) (hv : 0 ≤ v) (hvw : v < w)
    (h : x * w + y = u * w + v) : x = u ∧ y = v := by
  have hdiv : ∀ a b : Int, 0 ≤ b → b < w → (a * w + b) / w = a := by
    intro a b hb hbw
    rw [Int.add_comm, Int.add_mul_ediv_right _ _ (by omega), Int.ediv_eq_zero_of_lt hb hbw, Int.zero_add]
  have hx : x = u := by
    rw [← hdiv x y hy hyw, h, hdiv u v hv hvw]
  subst hx
  exact ⟨rfl, by omega⟩

end SlotTable
