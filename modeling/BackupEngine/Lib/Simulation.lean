import BackupEngine.Lib.Transition

/-!
# What is seen of a run

Of each step of a machine something is seen, or nothing. A machine simulates another when a relation between their states is
kept by its steps, each of them matched by a run of the other that shows the same. What is seen of a run of the one is then
seen of a run of the other, so that what holds of everything the abstract machine shows holds of what the concrete one shows.
-/

namespace Transition

variable {ε σ ι ε' τ κ ω : Type*}

/-- The runs of a machine from a state, with what is seen of them. -/
inductive Seen (M : Machine ε σ ι) (see : σ → ι → List ω) (s : σ) : List ω → σ → Prop
  | nil : Seen M see s [] s
  | snoc {ws : List ω} {t : σ} {a : ι} {u : σ} (seen : Seen M see s ws t) (step : M.Step t a u) :
      Seen M see s (ws ++ see t a) u

namespace Seen

variable {M : Machine ε σ ι} {see : σ → ι → List ω} {s t u : σ} {a : ι} {ws vs : List ω}

/-- A single step. -/
theorem single (h : M.Step s a t) : Seen M see s (see s a) t := snoc nil h

/-- Runs compose, and so does what is seen of them. -/
theorem append (h : Seen M see s ws t) (h' : Seen M see t vs u) : Seen M see s (ws ++ vs) u := by
  induction h' with
  | nil => simpa using h
  | snoc _ step ih =>
    rw [← List.append_assoc]
    exact snoc ih step

/-- A step before a run. -/
theorem cons (h : M.Step s a t) (h' : Seen M see t ws u) : Seen M see s (see s a ++ ws) u := (single h).append h'

/-- The invariant rule: what holds at the start and is kept by every step. `P` may speak of what was seen so far. -/
theorem invariant (P : List ω → σ → Prop) (h0 : P [] s)
    (hstep : ∀ ws t a u, P ws t → M.Step t a u → P (ws ++ see t a) u) (h : Seen M see s ws t) : P ws t := by
  induction h with
  | nil => exact h0
  | snoc _ step ih => exact hstep _ _ _ _ ih step

/-- Less may be seen of the same run. -/
theorem filterMap {χ : Type*} (g : ω → Option χ) (h : Seen M see s ws t) :
    Seen M (fun s a => (see s a).filterMap g) s (ws.filterMap g) t := by
  induction h with
  | nil => exact nil
  | snoc _ step ih =>
    rw [List.filterMap_append]
    exact snoc ih step

end Seen

/-- What is seen of a list of events that is executed, and the state it leads to. -/
def watch (M : Machine ε σ ι) [∀ s a, Decidable (M.enabled s a)] (see : σ → ι → List ω) : σ → List ι → Option (List ω × σ)
  | s, [] => some ([], s)
  | s, a :: as =>
    if M.enabled s a then
      match M.next s a with
      | .ok t => (watch M see t as).map fun r => (see s a ++ r.1, r.2)
      | .error _ => none
    else none

/-- What is seen of an execution is seen of a run. -/
theorem Seen.of_watch {M : Machine ε σ ι} [∀ s a, Decidable (M.enabled s a)] {see : σ → ι → List ω} {as : List ι} :
    ∀ {s t : σ} {ws : List ω}, watch M see s as = some (ws, t) → Seen M see s ws t := by
  induction as with
  | nil =>
    intro s t ws h
    cases h
    exact .nil
  | cons a as ih =>
    intro s t ws h
    unfold watch at h
    split at h
    · rename_i hen
      split at h
      · rename_i u hu
        obtain ⟨⟨vs, t'⟩, hwatch, heq⟩ := Option.map_eq_some_iff.mp h
        cases heq
        exact cons ⟨hen, hu⟩ (ih hwatch)
      · cases h
    · cases h

/-- `R` relates the states of a machine to those of an abstract one that can show whatever a step shows. -/
def Simulates (M : Machine ε σ ι) (see : σ → ι → List ω) (N : Machine ε' τ κ) (look : τ → κ → List ω)
    (R : σ → τ → Prop) : Prop :=
  ∀ s a s' t, R s t → M.Step s a s' → ∃ t', Seen N look t (see s a) t' ∧ R s' t'

/-- The simulation rule: what is seen of a run is seen of a run of the abstract machine, from related states to related ones. -/
theorem Simulates.seen {M : Machine ε σ ι} {see : σ → ι → List ω} {N : Machine ε' τ κ} {look : τ → κ → List ω}
    {R : σ → τ → Prop} (h : Simulates M see N look R) {s s' : σ} {t : τ} (hst : R s t) {ws : List ω}
    (hrun : Seen M see s ws s') : ∃ t', Seen N look t ws t' ∧ R s' t' := by
  induction hrun with
  | nil => exact ⟨t, .nil, hst⟩
  | snoc _ step ih =>
    obtain ⟨t₁, hseen, hrel⟩ := ih
    obtain ⟨t', hstep, hrel'⟩ := h _ _ _ _ hrel step
    exact ⟨t', hseen.append hstep, hrel'⟩

/-! ## Runs that come to rest -/

/-- A number that every step makes smaller bounds the length of a run. -/
theorem Run.length_le {M : Machine ε σ ι} (μ : σ → Nat) {P : σ → Prop}
    (hstep : ∀ s a t, P s → M.Step s a t → P t ∧ μ t < μ s) {s t : σ} {as : List ι} (hs : P s) (h : Run M s as t) :
    P t ∧ as.length + μ t ≤ μ s := by
  induction h with
  | nil => exact ⟨hs, by simp⟩
  | snoc _ step ih =>
    obtain ⟨ht, hle⟩ := ih
    obtain ⟨hu, hlt⟩ := hstep _ _ _ ht step
    rw [List.length_append, List.length_singleton]
    exact ⟨hu, by omega⟩

/-! ## First in, first out -/

namespace Fifo

variable {α β : Type*}

/-- Something goes into a queue, or the first of it comes out. -/
inductive Event (α β : Type*) where
  | enter (a : α)
  | leave (b : β)
  deriving DecidableEq

/-- A queue that makes something of what it is given before it hands it on; what it makes may depend on what it was given
before, through a state. -/
structure State (σ β : Type*) where
  mem : σ
  queue : List β

/-- The queue: `make` says what becomes of an element, and `learn` what is remembered of it. -/
def machine (make : σ → α → β) (learn : σ → α → σ) : Machine Empty (State σ β) (Event α β) where
  enabled := fun s e => match e with
    | .enter _ => True
    | .leave b => s.queue.head? = some b
  next := fun s e => match e with
    | .enter a => .ok { mem := learn s.mem a, queue := s.queue ++ [make s.mem a] }
    | .leave _ => .ok { s with queue := s.queue.tail }

/-- Everything is seen of a queue. -/
def look (_ : State σ β) (e : Event α β) : List (Event α β) := [e]

/-- What went in. -/
def entered (ws : List (Event α β)) : List α :=
  ws.filterMap fun e => match e with
    | .enter a => some a
    | .leave _ => none

/-- What came out. -/
def left (ws : List (Event α β)) : List β :=
  ws.filterMap fun e => match e with
    | .enter _ => none
    | .leave b => some b

theorem entered_append (ws vs : List (Event α β)) : entered (ws ++ vs) = entered ws ++ entered vs := List.filterMap_append

theorem left_append (ws vs : List (Event α β)) : left (ws ++ vs) = left ws ++ left vs := List.filterMap_append

/-- What is made of a sequence of elements. -/
def made (make : σ → α → β) (learn : σ → α → σ) : σ → List α → List β
  | _, [] => []
  | m, a :: as => make m a :: made make learn (learn m a) as

theorem made_append (make : σ → α → β) (learn : σ → α → σ) (m : σ) (as as' : List α) :
    made make learn m (as ++ as') = made make learn m as ++ made make learn (as.foldl learn m) as' := by
  induction as generalizing m with
  | nil => rfl
  | cons a as ih => exact congrArg _ (ih (learn m a))

/-- What came out of the queue and what is in it is what was made of everything that went in. -/
theorem left_append_queue {make : σ → α → β} {learn : σ → α → σ} {m : σ} {ws : List (Event α β)} {s : State σ β}
    (h : Seen (machine make learn) look ⟨m, []⟩ ws s) :
    left ws ++ s.queue = made make learn m (entered ws) ∧ s.mem = (entered ws).foldl learn m := by
  refine h.invariant (fun ws s => left ws ++ s.queue = made make learn m (entered ws) ∧
    s.mem = (entered ws).foldl learn m) ⟨rfl, rfl⟩ ?_
  rintro ws t a u ⟨hqueue, hmem⟩ ⟨hen, hu⟩
  rw [left_append, entered_append, made_append, ← hqueue, ← hmem, List.foldl_append, ← hmem]
  cases a with
  | enter a =>
    cases hu
    exact ⟨by simp [left, entered, look, made], rfl⟩
  | leave b =>
    cases hu
    obtain ⟨rest, hrest⟩ := List.head?_eq_some_iff.mp hen
    exact ⟨by simp [left, entered, look, made, hrest], rfl⟩

end Fifo

end Transition
