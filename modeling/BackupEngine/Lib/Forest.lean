import Mathlib

/-!
# Forests given by links

Every node has at most one link upwards. The links are those of a forest when every chain of them ends. Moving a node below
another keeps a forest a forest exactly when the other one is not below it. A recursion that goes from a node to the nodes
that link to it ends in a forest whose chains are bounded.
-/

namespace Forest

/-! ## Chains -/

section Chains

variable {α : Type*} (up : α → Option α)

/-- Where `n` links lead from a node. -/
def ancestor : Nat → α → Option α
  | 0, a => some a
  | n + 1, a => (up a).bind (ancestor n)

/-- Some number of links leads from `a` to `b`. -/
def Reaches (a b : α) : Prop := ∃ n, ancestor up n a = some b

/-- The chain of links from a node ends. -/
def Ends (a : α) : Prop := ∃ n, ancestor up n a = none

/-- Every chain ends. -/
def Grounded : Prop := ∀ a, Ends up a

variable {up} {a b p : α}

/-- One link more. -/
theorem ancestor_succ (n : Nat) (a : α) : ancestor up (n + 1) a = (ancestor up n a).bind up := by
  induction n generalizing a with
  | zero => cases h : up a <;> simp [ancestor, h]
  | succ n ih =>
    rw [ancestor]
    cases h : up a with
    | none => rw [ancestor, h, Option.bind_none, Option.bind_none, Option.bind_none]
    | some p => rw [Option.bind_some, ih p, ancestor, h, Option.bind_some]

theorem Reaches.refl (a : α) : Reaches up a a := ⟨0, rfl⟩

theorem Reaches.head (h : up a = some p) (hp : Reaches up p b) : Reaches up a b := by
  obtain ⟨n, hn⟩ := hp
  exact ⟨n + 1, by rw [ancestor, h, Option.bind_some, hn]⟩

/-- A node that reaches another one does so through its link. -/
theorem Reaches.tail (h : Reaches up a b) (hne : a ≠ b) : ∃ p, up a = some p ∧ Reaches up p b := by
  obtain ⟨n, hn⟩ := h
  cases n with
  | zero => exact absurd (Option.some_inj.mp hn) hne
  | succ n =>
    obtain ⟨p, hp, hn⟩ := Option.bind_eq_some_iff.mp hn
    exact ⟨p, hp, n, hn⟩

theorem ancestor_add (m n : Nat) (a : α) : ancestor up (m + n) a = (ancestor up m a).bind (ancestor up n) := by
  induction n with
  | zero => cases ancestor up m a <;> simp [ancestor]
  | succ n ih =>
    rw [Nat.add_succ, ancestor_succ, ih, Option.bind_assoc]
    exact congrArg _ (funext fun b => (ancestor_succ n b).symm)

/-- A node without a link is reached in one number of steps only. -/
theorem ancestor_unique {m n : Nat} (hb : up b = none) (hm : ancestor up m a = some b) (hn : ancestor up n a = some b) :
    m = n := by
  have hbehind : ∀ {i j : Nat}, ancestor up i a = some b → ancestor up (i + (j + 1)) a = none := by
    intro i j hi
    rw [ancestor_add, hi, Option.bind_some, ancestor, hb, Option.bind_none]
  rcases Nat.lt_trichotomy m n with hlt | heq | hlt
  · have := hbehind (j := n - m - 1) hm
    rw [show m + (n - m - 1 + 1) = n by omega, hn] at this
    cases this
  · exact heq
  · have := hbehind (j := m - n - 1) hn
    rw [show n + (m - n - 1 + 1) = m by omega, hm] at this
    cases this

theorem Reaches.trans {c : α} (h : Reaches up a b) (h' : Reaches up b c) : Reaches up a c := by
  obtain ⟨m, hm⟩ := h
  obtain ⟨n, hn⟩ := h'
  exact ⟨m + n, by rw [ancestor_add, hm, Option.bind_some, hn]⟩

/-- A node that reaches another one does so through a node that links to it. -/
theorem Reaches.last (h : Reaches up a b) (hne : a ≠ b) : ∃ c, Reaches up a c ∧ up c = some b := by
  obtain ⟨n, hn⟩ := h
  cases n with
  | zero => exact absurd (Option.some_inj.mp hn) hne
  | succ n =>
    rw [ancestor_succ] at hn
    obtain ⟨c, hc, hup⟩ := Option.bind_eq_some_iff.mp hn
    exact ⟨c, ⟨n, hc⟩, hup⟩

/-- Of two nodes on one chain one reaches the other. -/
theorem Reaches.total {c : α} (hb : Reaches up a b) (hc : Reaches up a c) : Reaches up b c ∨ Reaches up c b := by
  obtain ⟨m, hm⟩ := hb
  obtain ⟨n, hn⟩ := hc
  rcases Nat.le_total m n with hle | hle
  · refine .inl ⟨n - m, ?_⟩
    rw [← Nat.add_sub_cancel' hle, ancestor_add, hm, Option.bind_some] at hn
    exact hn
  · refine .inr ⟨m - n, ?_⟩
    rw [← Nat.add_sub_cancel' hle, ancestor_add, hn, Option.bind_some] at hm
    exact hm

theorem Ends.of_none (h : up a = none) : Ends up a := ⟨1, by rw [ancestor, h, Option.bind_none]⟩

theorem Ends.of_up (h : up a = some p) (hp : Ends up p) : Ends up a := by
  obtain ⟨n, hn⟩ := hp
  exact ⟨n + 1, by rw [ancestor, h, Option.bind_some, hn]⟩

/-- Induction along a chain that ends. -/
theorem Ends.rec_up {P : α → Prop} (ha : Ends up a) (hstep : ∀ a, (∀ p, up a = some p → P p) → P a) : P a := by
  obtain ⟨n, hn⟩ := ha
  induction n generalizing a with
  | zero => cases hn
  | succ n ih =>
    refine hstep a fun p hp => ih ?_
    rwa [ancestor, hp, Option.bind_some] at hn

/-- Nodes that all link to one another do not reach an end. -/
theorem not_ends_of_closed {P : α → Prop} (hclosed : ∀ a, P a → ∃ p, up a = some p ∧ P p) (ha : P a) : ¬Ends up a := by
  intro hends
  have hno : ∀ b, Ends up b → P b → False := by
    intro b hb
    refine hb.rec_up (P := fun b => P b → False) fun b ih hb => ?_
    obtain ⟨p, hp, hPp⟩ := hclosed b hb
    exact ih p hp hPp
  exact hno a hends ha

/-- A node with as many links above it as a finite set has nodes, all of them in the set, is on a circle or above one. -/
theorem ancestor_card_eq_none {s : Finset α} (hclosed : ∀ a p, up a = some p → p ∈ s)
    (hcircle : ∀ n a, ancestor up (n + 1) a ≠ some a) (ha : a ∈ s) : ancestor up s.card a = none := by
  rcases hend : ancestor up s.card a with _ | b
  · rfl
  exfalso
  -- The chain is longer than the set has nodes, so that a node occurs twice on it.
  have hchain : ∀ i ∈ Finset.range (s.card + 1), ∃ c ∈ s, ancestor up i a = some c := by
    intro i hi
    rw [Finset.mem_range] at hi
    rw [← Nat.add_sub_cancel' (show i ≤ s.card by omega), ancestor_add] at hend
    obtain ⟨c, hc, -⟩ := Option.bind_eq_some_iff.mp hend
    refine ⟨c, ?_, hc⟩
    cases i with
    | zero => exact Option.some_inj.mp hc ▸ ha
    | succ i =>
      rw [ancestor_succ] at hc
      obtain ⟨d, -, hdc⟩ := Option.bind_eq_some_iff.mp hc
      exact hclosed d c hdc
  have : Nonempty α := ⟨a⟩
  choose! node hnode using hchain
  have hcard : s.card < (Finset.range (s.card + 1)).card := by rw [Finset.card_range]; exact Nat.lt_succ_self _
  obtain ⟨i, hi, j, hj, hne, heq⟩ :=
    Finset.exists_ne_map_eq_of_card_lt_of_maps_to hcard (f := node) fun i hi => (hnode i hi).1
  have hnot : ∀ i j c, i < j → ancestor up i a = some c → ancestor up j a = some c → False := by
    intro i j c hlt hi hj
    rw [← Nat.add_sub_cancel' hlt.le, ancestor_add, hi, Option.bind_some] at hj
    refine hcircle (j - i - 1) c ?_
    rwa [show j - i - 1 + 1 = j - i by omega]
  rcases Nat.lt_or_gt_of_ne hne with hlt | hlt
  · exact hnot i j _ hlt (heq ▸ (hnode i hi).2) (hnode j hj).2
  · exact hnot j i _ hlt (heq ▸ (hnode j hj).2) (hnode i hi).2

/-- In a forest the links count the nodes of a chain. -/
theorem Grounded.depth (h : Grounded up) : ∃ depth : α → Nat, ∀ a p, up a = some p → depth a = depth p + 1 := by
  classical
  refine ⟨fun a => Nat.find (h a), fun a p hp => ?_⟩
  have hfind : ∀ n, ancestor up (n + 1) a = ancestor up n p := fun n => by rw [ancestor, hp, Option.bind_some]
  refine (Nat.find_eq_iff _).mpr ⟨?_, fun n hn hnone => ?_⟩
  · rw [hfind]
    exact Nat.find_spec (h p)
  · cases n with
    | zero => cases hnone
    | succ n =>
      rw [hfind] at hnone
      exact Nat.find_min (h p) (Nat.lt_of_succ_lt_succ hn) hnone

/-- No node of a forest links to itself. -/
theorem Grounded.irrefl (h : Grounded up) (a : α) : up a ≠ some a := by
  obtain ⟨depth, hdepth⟩ := h.depth
  intro hup
  have := hdepth a a hup
  omega

/-- No two nodes of a forest reach each other. -/
theorem Grounded.antisymm (h : Grounded up) (hab : Reaches up a b) (hba : Reaches up b a) : a = b := by
  obtain ⟨depth, hdepth⟩ := h.depth
  have hcount : ∀ n c d, ancestor up n c = some d → depth c = depth d + n := by
    intro n
    induction n with
    | zero => exact fun c d hd => Option.some_inj.mp hd ▸ rfl
    | succ n ih =>
      intro c d hd
      obtain ⟨p, hp, hd⟩ := Option.bind_eq_some_iff.mp hd
      rw [hdepth c p hp, ih p d hd, Nat.add_assoc]
  obtain ⟨m, hm⟩ := hab
  obtain ⟨n, hn⟩ := hba
  have := hcount m a b hm
  have := hcount n b a hn
  have hzero : m = 0 := by omega
  subst hzero
  exact Option.some_inj.mp hm

/-- The nodes of a list are ranked below what they link to. -/
theorem Grounded.rank (h : Grounded up) (nodes : List α) :
    ∃ rank : α → Nat, ∀ a p, a ∈ nodes → up a = some p → rank a < rank p := by
  obtain ⟨depth, hdepth⟩ := h.depth
  refine ⟨fun a => (nodes.map depth).sum - depth a, fun a p ha hp => ?_⟩
  have hle : depth a ≤ (nodes.map depth).sum := List.le_sum_of_mem (List.mem_map_of_mem ha)
  have := hdepth a p hp
  simp only
  omega

/-! ## Moving a node -/

section Move

variable [DecidableEq α]

/-- A chain that does not come to the node moved is as it was. -/
theorem Ends.move {q : Option α} (hb : Ends up b) (hnot : ¬Reaches up b a) : Ends (Function.update up a q) b := by
  refine hb.rec_up (P := fun b => ¬Reaches up b a → Ends (Function.update up a q) b) (fun b ih hnot => ?_) hnot
  have hne : b ≠ a := by
    rintro rfl
    exact hnot (.refl b)
  cases hup : up b with
  | none => exact .of_none ((Function.update_of_ne hne _ _).trans hup)
  | some p => exact .of_up ((Function.update_of_ne hne _ _).trans hup) (ih p hup fun hp => hnot (.head hup hp))

/-- If the new chain of the node moved ends, all chains do. -/
theorem Grounded.move (h : Grounded up) {q : Option α} (ha : Ends (Function.update up a q) a) :
    Grounded (Function.update up a q) := by
  intro b
  refine (h b).rec_up (P := Ends (Function.update up a q)) fun b ih => ?_
  by_cases hba : b = a
  · exact hba ▸ ha
  · cases hup : up b with
    | none => exact .of_none ((Function.update_of_ne hba _ _).trans hup)
    | some p => exact .of_up ((Function.update_of_ne hba _ _).trans hup) (ih p hup)

/-- A node that is put below `p` leaves a forest exactly when `p` is not below it. -/
theorem Grounded.move_iff (h : Grounded up) : Grounded (Function.update up a (some p)) ↔ ¬Reaches up p a := by
  constructor
  · intro hmoved hp
    -- The chain from `p` to the node, closed by the new link.
    refine not_ends_of_closed (P := fun b => Reaches up b a) (fun b hb => ?_) hp (hmoved p)
    by_cases hba : b = a
    · exact ⟨p, by rw [hba, Function.update_self], hp⟩
    · obtain ⟨c, hc, hca⟩ := hb.tail hba
      exact ⟨c, (Function.update_of_ne hba _ _).trans hc, hca⟩
  · intro hp
    exact h.move (.of_up (Function.update_self ..) ((h p).move hp))

end Move

end Chains

/-! ## Recursion -/

section Recursion

universe u

variable {ε α : Type*} {β γ σ : Type u}

/-- A recursion that may call itself at most `depth` deep; none where that is not deep enough. -/
def within (body : (α → Except ε (Option β)) → α → Except ε (Option β)) : Nat → α → Except ε (Option β)
  | 0, _ => .ok none
  | depth + 1, a => body (within body depth) a

/-- A loop over a list whose steps may call the recursion: none as soon as a step is. -/
def each (step : σ → γ → Except ε (Option σ)) (start : σ) (l : List γ) : Except ε (Option σ) :=
  l.foldlM (fun s a => match s with
    | none => .ok none
    | some s => step s a) (some start)

theorem each_nil {step : σ → γ → Except ε (Option σ)} {start : σ} : each step start [] = .ok (some start) := rfl

theorem each_cons_error {step : σ → γ → Except ε (Option σ)} {start : σ} {a : γ} {l : List γ} {e : ε}
    (h : step start a = .error e) : each step start (a :: l) = .error e := by
  rw [each, List.foldlM_cons]
  simp only [h]
  rfl

theorem each_cons_some {step : σ → γ → Except ε (Option σ)} {start s : σ} {a : γ} {l : List γ}
    (h : step start a = .ok (some s)) : each step start (a :: l) = each step s l := by
  rw [each, List.foldlM_cons]
  simp only [h]
  rfl

/-- The computation ends, and `Q` holds of what it returns. -/
def Yields (Q : β → Prop) (r : Except ε (Option β)) : Prop := r ≠ .ok none ∧ ∀ b, r = .ok (some b) → Q b

variable {Q R : β → Prop}

theorem Yields.error (e : ε) : Yields Q (.error e : Except ε (Option β)) := ⟨nofun, nofun⟩

theorem Yields.value {b : β} (h : Q b) : Yields Q (.ok (some b) : Except ε (Option β)) :=
  ⟨nofun, fun _ hb => Option.some_inj.mp (Except.ok.inj hb) ▸ h⟩

/-- A computation before the one that may not end. -/
theorem Yields.bind {x : Except ε γ} {f : γ → Except ε (Option β)} (h : ∀ a, x = .ok a → Yields Q (f a)) :
    Yields Q (x >>= f) := by
  cases x with
  | error e => exact .error e
  | ok a => exact h a rfl

/-- A computation after the one that may not end. -/
theorem Yields.andThen {r : Except ε (Option γ)} {f : Option γ → Except ε (Option β)} {P : γ → Prop} (hr : Yields P r)
    (h : ∀ c, P c → Yields Q (f (some c))) : Yields Q (r >>= f) := by
  refine .bind fun c hc => ?_
  cases c with
  | none => exact absurd hc hr.1
  | some c => exact h c (hr.2 c hc)

/-- The invariant rule for a loop whose steps end. -/
theorem Yields.each {step : σ → γ → Except ε (Option σ)} (P : σ → Prop) {l : List γ} :
    ∀ {start : σ}, (∀ s a, a ∈ l → P s → Yields P (step s a)) → P start → Yields P (each step start l) := by
  induction l with
  | nil => exact fun _ hstart => .value hstart
  | cons a l ih =>
    intro start hstep hstart
    rw [Forest.each, List.foldlM_cons]
    exact (hstep start a List.mem_cons_self hstart).andThen fun s hs =>
      ih (fun s b hb => hstep s b (List.mem_cons_of_mem a hb)) hs

/-- A recursion whose calls go to smaller arguments ends. -/
theorem within_yields {body : (α → Except ε (Option β)) → α → Except ε (Option β)} (P : α → Prop) (Q : α → β → Prop)
    (rank : α → Nat)
    (hbody : ∀ call a, P a → (∀ b, P b → rank b < rank a → Yields (Q b) (call b)) → Yields (Q a) (body call a)) :
    ∀ depth a, P a → rank a < depth → Yields (Q a) (within body depth a) := by
  intro depth
  induction depth with
  | zero => exact fun _ _ h => absurd h (Nat.not_lt_zero _)
  | succ depth ih =>
    intro a ha hlt
    exact hbody _ a ha fun b hb hba => ih b hb (by omega)

end Recursion

end Forest
