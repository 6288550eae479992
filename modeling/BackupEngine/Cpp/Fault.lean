import Mathlib

/-!
# Computations that can fault

A C++ computation returns a value or ends in one of the ways below. Undefined behaviour is modelled as a fault: nothing is
claimed about the program after it, and a theorem that says a computation returns also says that it is free of it.
-/

namespace Cpp

/-- How a C++ computation ends when it does not return. -/
inductive Fault where
  /-- A read or a write outside the storage of an object, or through a pointer to no object. -/
  | badAccess
  /-- Signed arithmetic whose exact result does not fit its type. -/
  | overflow
  /-- `erase` of the past-the-end iterator. -/
  | eraseEnd
  /-- `std::length_error`: a container was asked for more elements than it can hold. -/
  | lengthError
  /-- An exception the program throws itself, or a conversion of a string. -/
  | thrown
  /-- `delete` through a pointer to a base class that has no virtual destructor. -/
  | badDelete
  deriving DecidableEq, Repr

/-- A computation that returns an `α` or faults. -/
abbrev Comp (α : Type) := Except Fault α

instance decidableEqExcept {ε α : Type} [DecidableEq ε] [DecidableEq α] : DecidableEq (Except ε α)
  | .ok a, .ok b => decidable_of_iff (a = b) (by rw [Except.ok.injEq])
  | .error a, .error b => decidable_of_iff (a = b) (by rw [Except.error.injEq])
  | .ok _, .error _ => isFalse nofun
  | .error _, .ok _ => isFalse nofun

/-- A sequence returns exactly when its first part returns and the rest returns on that value. -/
theorem bind_eq_ok {α β : Type} {x : Comp α} {f : α → Comp β} {b : β} :
    (x >>= f) = .ok b ↔ ∃ a, x = .ok a ∧ f a = .ok b := by
  cases x with
  | error e => exact ⟨nofun, fun ⟨_, h, _⟩ => nomatch h⟩
  | ok a =>
    constructor
    · intro h
      exact ⟨a, rfl, h⟩
    · rintro ⟨_, h, hf⟩
      cases h
      exact hf

/-- A sequence faults where its first part does, or where the rest does on the value of the first part. -/
theorem bind_eq_error {α β : Type} {x : Comp α} {f : α → Comp β} {e : Fault} :
    (x >>= f) = .error e ↔ x = .error e ∨ ∃ a, x = .ok a ∧ f a = .error e := by
  cases x with
  | error e' =>
    constructor
    · intro h
      cases h
      exact .inl rfl
    · rintro (h | ⟨_, h, _⟩)
      · cases h
        rfl
      · cases h
  | ok a =>
    refine ⟨fun h => .inr ⟨a, rfl, h⟩, ?_⟩
    rintro (h | ⟨_, h, hf⟩)
    · cases h
    · cases h
      exact hf

@[simp] theorem ok_bind {α β : Type} (a : α) (f : α → Comp β) : (Except.ok a >>= f : Comp β) = f a := rfl

@[simp] theorem error_bind {α β : Type} (e : Fault) (f : α → Comp β) : (Except.error e >>= f : Comp β) = .error e := rfl

@[simp] theorem pure_eq_ok {α : Type} (a : α) : (pure a : Comp α) = .ok a := rfl

/-! ## Loops over a list -/

section foldlM

variable {σ α : Type} {step : σ → α → Comp σ}

/-- A loop over a list with one more element: it returns what the step returns on the state the loop before it left. -/
theorem foldlM_concat {s : σ} {l : List α} {a : α} :
    (l ++ [a]).foldlM step s = l.foldlM step s >>= fun t => step t a := by
  rw [List.foldlM_append]
  congr 1
  funext t
  simp only [List.foldlM_cons, List.foldlM_nil]
  cases step t a <;> rfl

/-- The invariant rule for a loop that returns: what holds before it and is kept by every step holds after it. -/
theorem foldlM_invariant (P : σ → Prop) (hstep : ∀ s a t, P s → step s a = .ok t → P t) {l : List α} :
    ∀ {s t : σ}, P s → l.foldlM step s = .ok t → P t := by
  induction l with
  | nil =>
    intro s t hs h
    simp only [List.foldlM_nil, pure_eq_ok, Except.ok.injEq] at h
    exact h ▸ hs
  | cons a l ih =>
    intro s t hs h
    rw [List.foldlM_cons] at h
    obtain ⟨u, hu, ht⟩ := bind_eq_ok.mp h
    exact ih (hstep s a u hs hu) ht

/-- Two loops over a list whose steps agree on the states an invariant holds of. -/
theorem foldlM_congr {step' : σ → α → Comp σ} (P : σ → Prop) (heq : ∀ s a, P s → step s a = step' s a)
    (hstep : ∀ s a t, P s → step s a = .ok t → P t) {l : List α} :
    ∀ {s : σ}, P s → l.foldlM step s = l.foldlM step' s := by
  induction l with
  | nil => exact fun _ => rfl
  | cons a l ih =>
    intro s hs
    rw [List.foldlM_cons, List.foldlM_cons, ← heq s a hs]
    cases hnext : step s a with
    | error e => rfl
    | ok t => exact ih (hstep s a t hs hnext)

/-- The invariant rule that also remembers the elements read so far: `P l s` relates the state to the prefix `l`. -/
theorem foldlM_prefix_invariant (P : List α → σ → Prop) (l : List α)
    (hstep : ∀ p a s t, p ++ [a] <+: l → P p s → step s a = .ok t → P (p ++ [a]) t) {s t : σ} (hs : P [] s)
    (h : l.foldlM step s = .ok t) : P l t := by
  induction l using List.reverseRecOn generalizing t with
  | nil =>
    simp only [List.foldlM_nil, pure_eq_ok, Except.ok.injEq] at h
    exact h ▸ hs
  | append_singleton l a ih =>
    rw [foldlM_concat] at h
    obtain ⟨u, hu, ht⟩ := bind_eq_ok.mp h
    have hP : P l u := by
      refine ih (fun p b s t hp => hstep p b s t (hp.trans (List.prefix_append _ _))) hu
    exact hstep l a u t (List.prefix_refl _) hP ht

/-- A loop returns when every step taken from a state the invariant holds of returns. -/
theorem foldlM_total (P : List α → σ → Prop) (l : List α)
    (hstep : ∀ p a s, p ++ [a] <+: l → P p s → ∃ t, step s a = .ok t ∧ P (p ++ [a]) t) {s : σ} (hs : P [] s) :
    ∃ t, l.foldlM step s = .ok t ∧ P l t := by
  induction l using List.reverseRecOn with
  | nil => exact ⟨s, rfl, hs⟩
  | append_singleton l a ih =>
    obtain ⟨u, hu, hP⟩ := ih (fun p b s hp => hstep p b s (hp.trans (List.prefix_append _ _)))
    obtain ⟨t, ht, hPt⟩ := hstep l a u (List.prefix_refl _) hP
    exact ⟨t, by rw [foldlM_concat, hu]; exact ht, hPt⟩

/-- The same for a counter that runs up to `n`: the invariant speaks of the next number. -/
theorem foldlM_range {step : σ → Nat → Comp σ} (P : Nat → σ → Prop) {n : Nat}
    (hstep : ∀ i < n, ∀ s, P i s → ∃ t, step s i = .ok t ∧ P (i + 1) t) {s : σ} (hs : P 0 s) :
    ∃ t, (List.range n).foldlM step s = .ok t ∧ P n t := by
  induction n with
  | zero => exact ⟨s, rfl, hs⟩
  | succ n ih =>
    obtain ⟨u, hu, hP⟩ := ih fun i hi => hstep i (Nat.lt_succ_of_lt hi)
    obtain ⟨t, ht, hPt⟩ := hstep n (Nat.lt_succ_self n) u hP
    exact ⟨t, by rw [List.range_succ, foldlM_concat, hu]; exact ht, hPt⟩

/-- A loop that keeps nothing returns exactly when its body returns for every element. -/
theorem forM_eq_ok {f : α → Comp Unit} {l : List α} : l.forM f = .ok () ↔ ∀ a ∈ l, f a = .ok () := by
  induction l with
  | nil => exact iff_of_true rfl nofun
  | cons a l ih =>
    rw [List.forall_mem_cons, ← ih]
    refine bind_eq_ok.trans ⟨?_, fun h => ⟨(), h⟩⟩
    rintro ⟨⟨⟩, h⟩
    exact h

/-- A loop that returns has returned on every prefix of its list. -/
theorem foldlM_prefix {p l : List α} (hp : p <+: l) {s t : σ} (h : l.foldlM step s = .ok t) :
    ∃ u, p.foldlM step s = .ok u := by
  obtain ⟨r, rfl⟩ := hp
  rw [List.foldlM_append] at h
  obtain ⟨u, hu, _⟩ := bind_eq_ok.mp h
  exact ⟨u, hu⟩

end foldlM

/-! ## Loops that collect what they compute -/

section mapM

variable {α β : Type} {f : α → Comp β} {xs : List α}

theorem mapM_eq_ok {ys : List β} : xs.mapM f = .ok ys ↔ List.Forall₂ (fun x y => f x = .ok y) xs ys := by
  induction xs generalizing ys with
  | nil => simp [eq_comm]
  | cons x xs ih =>
    rw [List.mapM_cons, bind_eq_ok]
    constructor
    · rintro ⟨y, hy, h⟩
      obtain ⟨ys', hys, h⟩ := bind_eq_ok.mp h
      cases h
      exact .cons hy (ih.mp hys)
    · rintro (_ | ⟨hy, hys⟩)
      exact ⟨_, hy, bind_eq_ok.mpr ⟨_, ih.mpr hys, rfl⟩⟩

theorem mapM_returns : (∃ ys, xs.mapM f = .ok ys) ↔ ∀ x ∈ xs, ∃ y, f x = .ok y := by
  induction xs with
  | nil => exact iff_of_true ⟨[], rfl⟩ nofun
  | cons x xs ih =>
    rw [List.forall_mem_cons, ← ih]
    constructor
    · rintro ⟨ys, h⟩
      rcases mapM_eq_ok.mp h with _ | ⟨hy, hys⟩
      exact ⟨⟨_, hy⟩, _, mapM_eq_ok.mpr hys⟩
    · rintro ⟨⟨y, hy⟩, ys, hys⟩
      exact ⟨_, mapM_eq_ok.mpr (.cons hy (mapM_eq_ok.mp hys))⟩

end mapM

end Cpp
