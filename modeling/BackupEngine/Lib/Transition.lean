import Mathlib

/-!
# Machines and their runs

A machine says which events can happen in a state and what state each of them leaves, or how it faults. A run is a finite
sequence of events, each of which could happen and left the next state. The rules below are the ones every proof about
runs goes through: an invariant is shown for one step, and holds then in every run.
-/

namespace Transition

/-- A machine over the states `σ` with the events `ι`; an event can end in a fault of `ε` instead of a state. -/
structure Machine (ε σ ι : Type*) where
  enabled : σ → ι → Prop
  next : σ → ι → Except ε σ

variable {ε σ ι : Type*}

namespace Machine

/-- One step: the event can happen and leaves the state `t`. -/
def Step (M : Machine ε σ ι) (s : σ) (a : ι) (t : σ) : Prop := M.enabled s a ∧ M.next s a = .ok t

/-- No event can happen. -/
def Quiescent (M : Machine ε σ ι) (s : σ) : Prop := ∀ a, ¬M.enabled s a

/-- The machine whose events also have to meet a condition: its runs are the runs all of whose steps meet it. -/
def when (M : Machine ε σ ι) (good : σ → ι → Prop) : Machine ε σ ι where
  enabled := fun s a => M.enabled s a ∧ good s a
  next := M.next

end Machine

/-- The runs of a machine from a state, with the events taken. -/
inductive Run (M : Machine ε σ ι) (s : σ) : List ι → σ → Prop
  | nil : Run M s [] s
  | snoc {as : List ι} {t : σ} {a : ι} {u : σ} (run : Run M s as t) (step : M.Step t a u) : Run M s (as ++ [a]) u

namespace Run

variable {M : Machine ε σ ι} {s t u : σ} {as bs : List ι} {a : ι}

/-- A single step is a run. -/
theorem single (h : M.Step s a t) : Run M s [a] t := snoc nil h

/-- Runs compose. -/
theorem append (h : Run M s as t) (h' : Run M t bs u) : Run M s (as ++ bs) u := by
  induction h' with
  | nil => simpa using h
  | snoc _ step ih =>
    rw [← List.append_assoc]
    exact snoc ih step

/-- A step before a run. -/
theorem cons (h : M.Step s a t) (h' : Run M t as u) : Run M s (a :: as) u := (single h).append h'

/-- The invariant rule: what holds at the start and is kept by every step holds after every run. `P` may speak of the events
taken so far. -/
theorem invariant (P : List ι → σ → Prop) (h0 : P [] s)
    (hstep : ∀ as t a u, P as t → M.Step t a u → P (as ++ [a]) u) (h : Run M s as t) : P as t := by
  induction h with
  | nil => exact h0
  | snoc _ step ih => exact hstep _ _ _ _ ih step

/-- A run that takes no event ends where it started. -/
theorem eq_of_nil (h : Run M s [] t) : t = s := by
  generalize hnil : ([] : List ι) = as at h
  cases h with
  | nil => rfl
  | snoc _ _ => simp at hnil

/-- A run splits at each of its events. -/
theorem split (h : Run M s (as ++ bs) u) : ∃ t, Run M s as t ∧ Run M t bs u := by
  induction bs using List.reverseRecOn generalizing u with
  | nil => exact ⟨u, by simpa using h, nil⟩
  | append_singleton bs b ih =>
    rw [← List.append_assoc] at h
    generalize hcs : as ++ bs ++ [b] = cs at h
    cases h with
    | nil => simp at hcs
    | snoc run step =>
      obtain ⟨rfl, hb⟩ := List.append_inj' hcs rfl
      cases hb
      obtain ⟨t, h₁, h₂⟩ := ih run
      exact ⟨t, h₁, snoc h₂ step⟩

/-- A run begins with a step. -/
theorem uncons (h : Run M s (a :: as) u) : ∃ t, M.Step s a t ∧ Run M t as u := by
  obtain ⟨t, h₁, h₂⟩ : ∃ t, Run M s [a] t ∧ Run M t as u := h.split
  generalize ha : [a] = cs at h₁
  cases h₁ with
  | nil => cases ha
  | @snoc es v b r run step =>
    obtain ⟨rfl, rfl⟩ : es = [] ∧ b = a := by
      cases es with
      | nil => exact ⟨rfl, (List.cons.inj ha).1.symm⟩
      | cons => simp at ha
    cases run.eq_of_nil
    exact ⟨t, step, h₂⟩

/-- A run of a restricted machine is a run of the machine. -/
theorem of_when {good : σ → ι → Prop} (h : Run (M.when good) s as t) : Run M s as t := by
  induction h with
  | nil => exact nil
  | snoc _ step ih => exact snoc ih ⟨step.1.1, step.2⟩

end Run

/-- The events of a run determine where it ends. -/
theorem Run.unique {M : Machine ε σ ι} {s t u : σ} {as : List ι} (h : Run M s as t) (h' : Run M s as u) : t = u := by
  induction as generalizing s with
  | nil => exact h.eq_of_nil.trans h'.eq_of_nil.symm
  | cons a as ih =>
    obtain ⟨r, step, hr⟩ := h.uncons
    obtain ⟨r', step', hr'⟩ := h'.uncons
    have : Except.ok r = (Except.ok r' : Except ε σ) := step.2.symm.trans step'.2
    cases this
    exact ih hr hr'

/-- The rule for a property that a step keeps exactly when it meets a condition: it holds in every state of a run exactly when
every step of the run meets the condition. -/
theorem Run.always_iff {M : Machine ε σ ι} {P : σ → Prop} {good : σ → ι → Prop} {s t : σ} {as : List ι} (h0 : P s)
    (hgood : ∀ t a u, P t → M.Step t a u → (P u ↔ good t a)) (h : Run M s as t) :
    (∀ bs u, bs <+: as → Run M s bs u → P u) ↔ Run (M.when good) s as t := by
  constructor
  · intro hall
    induction h with
    | nil => exact .nil
    | @snoc as t a u run step ih =>
      have ht : P t := hall as t (List.prefix_append _ _) run
      have hu : P u := hall _ u (List.prefix_refl _) (.snoc run step)
      exact .snoc (ih fun bs v hbs => hall bs v (hbs.trans (List.prefix_append _ _)))
        ⟨⟨step.1, (hgood t a u ht step).mp hu⟩, step.2⟩
  · rintro hwhen bs u ⟨cs, rfl⟩ hu
    obtain ⟨v, hv, _⟩ := hwhen.split
    obtain rfl := hu.unique hv.of_when
    refine hv.invariant (fun _ v => P v) h0 ?_
    rintro _ t a u ht ⟨⟨hen, hg⟩, hu⟩
    exact (hgood t a u ht ⟨hen, hu⟩).mpr hg

/-- The same where the step needs an invariant that holds as long as the property does. -/
theorem Run.always_iff_under {M : Machine ε σ ι} {I P : σ → Prop} {good : σ → ι → Prop} {s t : σ} {as : List ι} (hI : I s)
    (hP : P s) (hgood : ∀ t a u, I t → P t → M.Step t a u → I u ∧ (P u ↔ good t a)) (h : Run M s as t) :
    (∀ bs u, bs <+: as → Run M s bs u → P u) ↔ Run (M.when good) s as t := by
  rw [← Run.always_iff (P := fun s => I s ∧ P s) ⟨hI, hP⟩ (fun t a u ht step => ?_) h]
  · constructor
    · intro hall bs
      induction bs using List.reverseRecOn with
      | nil =>
        intro u _ hu
        cases hu.eq_of_nil
        exact ⟨hI, hP⟩
      | append_singleton bs a ih =>
        intro u hbs hu
        obtain ⟨v, hv, hlast⟩ := hu.split
        obtain ⟨u', step, hnil⟩ := hlast.uncons
        cases hnil.eq_of_nil
        obtain ⟨hIv, hPv⟩ := ih v ((List.prefix_append _ _).trans hbs) hv
        exact ⟨(hgood v a u hIv hPv step).1, hall _ u hbs hu⟩
    · exact fun hall bs u hbs hu => (hall bs u hbs hu).2
  · obtain ⟨hIu, hiff⟩ := hgood t a u ht.1 ht.2 step
    exact ⟨fun h => hiff.mp h.2, fun hg => ⟨hIu, hiff.mpr hg⟩⟩

/-! ## Safety

A machine is safe in a state when no event that can happen there faults. -/

/-- Every event that can happen leaves a state. -/
def Safe (M : Machine ε σ ι) (s : σ) : Prop := ∀ a, M.enabled s a → ∃ t, M.next s a = .ok t

/-- The safety rule: an invariant whose states are safe. -/
theorem Run.safe {M : Machine ε σ ι} {s : σ} (P : List ι → σ → Prop) (h0 : P [] s)
    (hstep : ∀ as t a, P as t → M.enabled t a → ∃ u, M.next t a = .ok u ∧ P (as ++ [a]) u) {as : List ι} {t : σ}
    (h : Run M s as t) : P as t ∧ Safe M t := by
  have hP : P as t := by
    refine h.invariant P h0 ?_
    rintro as t a u hP ⟨hen, hu⟩
    obtain ⟨u', hu', hP'⟩ := hstep as t a hP hen
    rw [hu] at hu'
    cases hu'
    exact hP'
  refine ⟨hP, fun a hen => ?_⟩
  obtain ⟨u, hu, _⟩ := hstep as t a hP hen
  exact ⟨u, hu⟩

/-! ## What happened since

Over a list of what happened so far: something met `P`, and everything from then on met `Q`. -/

/-- An entry meets `P`, and it and all entries after it meet `Q`. -/
def Since {α : Type*} (P Q : α → Prop) (past : List α) : Prop :=
  ∃ p m s, past = p ++ m :: s ∧ P m ∧ ∀ k ∈ m :: s, Q k

theorem not_since_nil {α : Type*} {P Q : α → Prop} : ¬Since P Q [] := by
  rintro ⟨p, m, s, h, _⟩
  exact List.append_ne_nil_of_right_ne_nil p (List.cons_ne_nil m s) h.symm

/-- One more entry. -/
theorem since_concat {α : Type*} {P Q : α → Prop} {past : List α} {a : α} :
    Since P Q (past ++ [a]) ↔ Q a ∧ (P a ∨ Since P Q past) := by
  constructor
  · rintro ⟨p, m, s, h, hm, hs⟩
    rcases List.eq_nil_or_concat' s with rfl | ⟨s, b, rfl⟩
    · obtain ⟨_, hlast⟩ := List.append_inj' h rfl
      cases hlast
      exact ⟨hs a List.mem_cons_self, .inl hm⟩
    · rw [← List.cons_append, ← List.append_assoc] at h
      obtain ⟨rfl, hlast⟩ := List.append_inj' h rfl
      cases hlast
      refine ⟨hs a (List.mem_cons_of_mem _ (List.mem_append_right _ List.mem_cons_self)), .inr ⟨p, m, s, rfl, hm, ?_⟩⟩
      intro k hk
      refine hs k ?_
      rw [← List.cons_append]
      exact List.mem_append_left _ hk
  · rintro ⟨hQ, hP | ⟨p, m, s, rfl, hm, hs⟩⟩
    · exact ⟨past, a, [], rfl, hP, fun k hk => (List.mem_singleton.mp hk) ▸ hQ⟩
    · refine ⟨p, m, s ++ [a], by rw [List.append_assoc, List.cons_append], hm, fun k hk => ?_⟩
      rw [← List.cons_append] at hk
      rcases List.mem_append.mp hk with hk | hk
      · exact hs k hk
      · exact (List.mem_singleton.mp hk) ▸ hQ

/-! ## Machines with a single event -/

section Unit

variable {M : Machine ε σ Unit} {s t u : σ}

/-- A machine with one event ends in one state only: the quiescent states its runs reach are equal. -/
theorem Run.quiescent_unique {as bs : List Unit} (h : Run M s as t) (ht : M.Quiescent t) (h' : Run M s bs u)
    (hu : M.Quiescent u) : t = u := by
  induction as generalizing s bs with
  | nil =>
    cases h.eq_of_nil
    cases bs with
    | nil => exact h'.eq_of_nil.symm
    | cons b bs =>
      obtain ⟨_, step, _⟩ := h'.uncons
      exact absurd step.1 (ht b)
  | cons a as ih =>
    obtain ⟨r, step, hr⟩ := h.uncons
    cases bs with
    | nil =>
      cases h'.eq_of_nil
      exact absurd step.1 (hu a)
    | cons b bs =>
      obtain ⟨r', step', hr'⟩ := h'.uncons
      have : Except.ok r = (Except.ok r' : Except ε σ) := step.2.symm.trans step'.2
      cases this
      exact ih hr hr'

end Unit

/-! ## Executing a list of events -/

/-- The state a list of events leads to, where every one of them can happen and none faults. -/
def exec (M : Machine ε σ ι) [∀ s a, Decidable (M.enabled s a)] : σ → List ι → Option σ
  | s, [] => some s
  | s, a :: as =>
    if M.enabled s a then
      match M.next s a with
      | .ok t => exec M t as
      | .error _ => none
    else none

/-- An execution is a run. -/
theorem Run.of_exec {M : Machine ε σ ι} [∀ s a, Decidable (M.enabled s a)] {as : List ι} :
    ∀ {s t : σ}, exec M s as = some t → Run M s as t := by
  induction as with
  | nil =>
    intro s t h
    cases h
    exact nil
  | cons a as ih =>
    intro s t h
    unfold exec at h
    split at h
    · rename_i hen
      split at h
      · rename_i u hu
        exact cons ⟨hen, hu⟩ (ih h)
      · cases h
    · cases h

end Transition
