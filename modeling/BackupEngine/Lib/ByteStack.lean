import Mathlib

/-!
# Stacks of bytes

A serializer without framing: writers push bytes at the end of a list, readers pop them from the end, so that what was
written last is read first. `Writes` and `Reads` say which bytes a writer pushes and a reader pops, below a limit on the
length; the rules compose them the way programs are composed, the bytes of a sequence of readers in reverse order. `Ensures`
and `Shrinks` speak of readers on bytes of any origin: what a reader returns, and how much it pops at least.
-/

namespace ByteStack

variable {ε β σ α γ : Type}

/-- A computation over a list of bytes and a state of its own, that can fault. -/
abbrev Stack (ε β σ α : Type) := StateT (List β × σ) (Except ε) α

/-- A loop that runs its body `n` times over an accumulator. -/
def loop {m : Type → Type} [Monad m] : Nat → (γ → m γ) → γ → m γ
  | 0, _, c => pure c
  | n + 1, body, c => body c >>= loop n body

theorem bind_apply (p : Stack ε β σ α) (f : α → Stack ε β σ γ) (s : List β × σ) :
    (p >>= f) s = p s >>= fun r => f r.1 r.2 := rfl

theorem pure_apply (a : α) (s : List β × σ) : (pure a : Stack ε β σ α) s = .ok (a, s) := rfl

theorem map_eq_bind (f : α → γ) (p : Stack ε β σ α) : f <$> p = p >>= fun a => pure (f a) := rfl

/-- A sequence returns exactly when its first part returns and the rest returns on what that left. -/
theorem bind_eq_ok {p : Stack ε β σ α} {f : α → Stack ε β σ γ} {s : List β × σ} {r : γ × List β × σ} :
    (p >>= f) s = .ok r ↔ ∃ a t, p s = .ok (a, t) ∧ f a t = .ok r := by
  rw [bind_apply]
  cases p s with
  | error e => exact ⟨nofun, fun ⟨_, _, h, _⟩ => nomatch h⟩
  | ok u =>
    constructor
    · intro h
      exact ⟨u.1, u.2, rfl, h⟩
    · rintro ⟨_, _, h, hf⟩
      cases h
      exact hf

/-- A mapped computation returns exactly when the computation does. -/
theorem map_eq_ok {f : α → γ} {p : Stack ε β σ α} {s : List β × σ} {r : γ × List β × σ} :
    (f <$> p) s = .ok r ↔ ∃ a t, p s = .ok (a, t) ∧ (f a, t) = r := by
  rw [map_eq_bind, bind_eq_ok]
  exact exists_congr fun a => exists_congr fun t => and_congr_right fun _ => by rw [pure_apply, Except.ok.injEq]

/-- A loop over a list that returns has returned from each of its elements. -/
theorem forM_returns {f : α → Stack ε β σ Unit} {xs : List α} {s : List β × σ} {r : Unit × List β × σ}
    (h : xs.forM f s = .ok r) : ∀ x ∈ xs, ∃ t r', f x t = .ok r' := by
  induction xs generalizing s with
  | nil => exact nofun
  | cons x xs ih =>
    obtain ⟨_, t, hx, hxs⟩ := bind_eq_ok.mp h
    exact List.forall_mem_cons.mpr ⟨⟨s, _, hx⟩, ih hxs⟩

/-! ## What is written and read, below a limit -/

section Trip

variable (L : Nat)

/-- `p` pushes `bs`, whatever is below and as long as everything stays below the limit. -/
def Writes (p : Stack ε β σ Unit) (bs : List β) : Prop :=
  ∀ B w, (B ++ bs).length < L → p (B, w) = .ok ((), B ++ bs, w)

/-- `p` pops `bs`, whatever is below, and returns something that satisfies `Q`. -/
def Reads (p : Stack ε β σ α) (Q : α → Prop) (bs : List β) : Prop :=
  ∀ B w, (B ++ bs).length < L → ∃ a w', p (B ++ bs, w) = .ok (a, B, w') ∧ Q a

variable {L}

theorem Writes.pure : Writes L (pure () : Stack ε β σ Unit) [] := by
  intro B w _
  rw [List.append_nil]
  rfl

theorem Writes.mono {L' : Nat} {p : Stack ε β σ Unit} {bs : List β} (h : Writes L' p bs) (hL : L ≤ L') : Writes L p bs :=
  fun B w hB => h B w (Nat.lt_of_lt_of_le hB hL)

/-- Writers in sequence write their bytes one after the other. -/
theorem Writes.bind {p : Stack ε β σ Unit} {q : Unit → Stack ε β σ Unit} {bs cs : List β} (hp : Writes L p bs)
    (hq : Writes L (q ()) cs) : Writes L (p >>= q) (bs ++ cs) := by
  intro B w hL
  rw [← List.append_assoc] at hL ⊢
  have hlt : (B ++ bs).length < L := Nat.lt_of_le_of_lt (by simp) hL
  rw [bind_apply, hp B w hlt]
  exact hq (B ++ bs) w hL

/-- A loop over a list writes the bytes of its elements in order. -/
theorem Writes.forM {f : α → Stack ε β σ Unit} {enc : α → List β} {xs : List α} (h : ∀ x ∈ xs, Writes L (f x) (enc x)) :
    Writes L (xs.forM f) (xs.flatMap enc) := by
  induction xs with
  | nil => exact Writes.pure
  | cons x xs ih =>
    rw [List.flatMap_cons]
    exact (h x List.mem_cons_self).bind (ih fun y hy => h y (List.mem_cons_of_mem x hy))

theorem Reads.pure {a : α} {Q : α → Prop} (h : Q a) : Reads L (pure a : Stack ε β σ α) Q [] := by
  intro B w _
  rw [List.append_nil]
  exact ⟨a, w, rfl, h⟩

theorem Reads.mono {p : Stack ε β σ α} {Q Q' : α → Prop} {bs : List β} (h : Reads L p Q bs) (hQ : ∀ a, Q a → Q' a) :
    Reads L p Q' bs := by
  intro B w hL
  obtain ⟨a, w', hp, hq⟩ := h B w hL
  exact ⟨a, w', hp, hQ a hq⟩

/-- What every run of a reader ensures holds of what it reads. -/
theorem Reads.and {p : Stack ε β σ α} {Q Q' : α → Prop} {bs : List β} (h : Reads L p Q bs)
    (hp : ∀ s a t, p s = .ok (a, t) → Q' a) : Reads L p (fun a => Q a ∧ Q' a) bs := by
  intro B w hL
  obtain ⟨a, w', ha, hq⟩ := h B w hL
  exact ⟨a, w', ha, hq, hp _ a _ ha⟩

/-- Readers in sequence: the bytes of the first lie above those of the second. -/
theorem Reads.bind {p : Stack ε β σ α} {f : α → Stack ε β σ γ} {Q : α → Prop} {Q' : γ → Prop} {bs cs : List β}
    (hp : Reads L p Q cs) (hf : ∀ a, Q a → Reads L (f a) Q' bs) : Reads L (p >>= f) Q' (bs ++ cs) := by
  intro B w hL
  rw [← List.append_assoc] at hL ⊢
  obtain ⟨a, w₁, ha, hq⟩ := hp (B ++ bs) w hL
  have hlt : (B ++ bs).length < L := Nat.lt_of_le_of_lt (by simp) hL
  obtain ⟨c, w₂, hc, hq'⟩ := hf a hq B w₁ hlt
  refine ⟨c, w₂, ?_, hq'⟩
  rw [bind_apply, ha]
  exact hc

/-- A reader that returns `a`, in sequence with another. -/
theorem Reads.bind_eq {p : Stack ε β σ α} {f : α → Stack ε β σ γ} {a : α} {Q : γ → Prop} {bs cs : List β}
    (hp : Reads L p (· = a) cs) (hf : Reads L (f a) Q bs) : Reads L (p >>= f) Q (bs ++ cs) :=
  hp.bind fun _ h => h ▸ hf

/-- The last reader of a sequence. -/
theorem Reads.last {p : Stack ε β σ α} {f : α → Stack ε β σ γ} {Q : α → Prop} {Q' : γ → Prop} {cs : List β}
    (hp : Reads L p Q cs) (hf : ∀ a, Q a → Reads L (f a) Q' []) : Reads L (p >>= f) Q' cs :=
  List.nil_append cs ▸ hp.bind hf

theorem Reads.map {p : Stack ε β σ α} {f : α → γ} {Q : α → Prop} {Q' : γ → Prop} {bs : List β} (hp : Reads L p Q bs)
    (hf : ∀ a, Q a → Q' (f a)) : Reads L (f <$> p) Q' bs := by
  intro B w hL
  obtain ⟨a, w', ha, hq⟩ := hp B w hL
  refine ⟨f a, w', ?_, hf a hq⟩
  rw [map_eq_bind, bind_apply, ha]
  rfl

/-- A loop reads the elements of a list whose last element was written first. The accumulator is related to the elements read
so far. -/
theorem Reads.loop {body : γ → Stack ε β σ γ} {enc : α → List β} (xs : List α) (I : List α → γ → Prop)
    (hstep : ∀ pre x c, pre ++ [x] <+: xs → I pre c → Reads L (body c) (I (pre ++ [x])) (enc x)) {c : γ} (h0 : I [] c) :
    Reads L (ByteStack.loop xs.length body c) (I xs) (xs.reverse.flatMap enc) := by
  have hrest : ∀ (ys pre : List α) (c : γ), pre ++ ys = xs → I pre c →
      Reads L (ByteStack.loop ys.length body c) (I xs) (ys.reverse.flatMap enc) := by
    intro ys
    induction ys with
    | nil =>
      intro pre c hpre hI
      rw [List.append_nil] at hpre
      subst hpre
      exact Reads.pure hI
    | cons y ys ih =>
      intro pre c hpre hI
      have hbytes : (y :: ys).reverse.flatMap enc = ys.reverse.flatMap enc ++ enc y := by simp
      rw [hbytes]
      refine (hstep pre y c ⟨ys, by simpa using hpre⟩ hI).bind fun c' hI' => ?_
      exact ih (pre ++ [y]) c' (by simpa using hpre) hI'
  exact hrest xs [] c rfl h0

/-- A loop that appends what its body reads to a list reads, element by element, what `R` allows. -/
theorem Reads.loop_append {p : Stack ε β σ γ} {enc : α → List β} {R : α → γ → Prop} (xs : List α)
    (hp : ∀ x ∈ xs, Reads L p (R x) (enc x)) :
    Reads L (ByteStack.loop xs.length (fun ys => do let y ← p; Pure.pure (ys ++ [y])) []) (List.Forall₂ R xs)
      (xs.reverse.flatMap enc) := by
  refine Reads.loop xs (List.Forall₂ R) ?_ .nil
  intro pre x ys hpre hys
  refine (hp x (hpre.subset (by simp))).last fun y hy => Reads.pure ?_
  exact List.rel_append hys (.cons hy .nil)

/-- `p` faults with `e` on `bs`, whatever is below. -/
def Faults (L : Nat) (p : Stack ε β σ α) (e : ε) (bs : List β) : Prop :=
  ∀ B w, (B ++ bs).length < L → p (B ++ bs, w) = .error e

/-- A sequence faults where its first part does. -/
theorem Faults.bind {p : Stack ε β σ α} {f : α → Stack ε β σ γ} {e : ε} {bs : List β} (hp : Faults L p e bs) :
    Faults L (p >>= f) e bs := by
  intro B w hL
  rw [bind_apply, hp B w hL]
  rfl

/-- A sequence whose first part reads its bytes and whose rest faults on the bytes below them. -/
theorem Reads.bind_faults {p : Stack ε β σ α} {f : α → Stack ε β σ γ} {Q : α → Prop} {e : ε} {bs cs : List β}
    (hp : Reads L p Q cs) (hf : ∀ a, Q a → Faults L (f a) e bs) : Faults L (p >>= f) e (bs ++ cs) := by
  intro B w hL
  rw [← List.append_assoc] at hL ⊢
  obtain ⟨a, w₁, ha, hq⟩ := hp (B ++ bs) w hL
  have hlt : (B ++ bs).length < L := Nat.lt_of_le_of_lt (by simp) hL
  rw [bind_apply, ha]
  exact hf a hq B w₁ hlt

/-- A loop faults where the first run of its body does. -/
theorem Faults.loop {body : γ → Stack ε β σ γ} {e : ε} {bs : List β} {n : Nat} {c : γ} (h : Faults L (body c) e bs) :
    Faults L (ByteStack.loop (n + 1) body c) e bs := h.bind

end Trip

/-! ## Writers that have returned -/

section Commits

/-- Started below `K` bytes, `p` has pushed `bs` when it returns, and there are less than `M` bytes then. -/
def Commits (K M : Nat) (p : Stack ε β σ Unit) (bs : List β) : Prop :=
  ∀ B w r, B.length < K → p (B, w) = .ok r → r = ((), B ++ bs, w) ∧ (B ++ bs).length < M

variable {K M N : Nat}

theorem Writes.commits {L : Nat} {p : Stack ε β σ Unit} {bs : List β} (h : Writes L p bs) (hK : K + bs.length ≤ M)
    (hL : M ≤ L) : Commits K M p bs := by
  intro B w r hB hr
  have hlen : (B ++ bs).length < M := by
    rw [List.length_append]
    omega
  rw [h B w (Nat.lt_of_lt_of_le hlen hL)] at hr
  cases hr
  exact ⟨rfl, hlen⟩

theorem Commits.bind {p : Stack ε β σ Unit} {q : Unit → Stack ε β σ Unit} {bs cs : List β} (hp : Commits K M p bs)
    (hq : Commits M N (q ()) cs) : Commits K N (p >>= q) (bs ++ cs) := by
  intro B w r hB hr
  obtain ⟨_, t, ha, hf⟩ := bind_eq_ok.mp hr
  obtain ⟨ht, hlen⟩ := hp B w _ hB ha
  cases ht
  rw [← List.append_assoc]
  exact hq (B ++ bs) w r hlen hf

/-- A loop over a list whose body ends below the bound it started under. -/
theorem Commits.forM {f : α → Stack ε β σ Unit} {enc : α → List β} {xs : List α}
    (h : ∀ x ∈ xs, Commits K K (f x) (enc x)) : Commits K K (xs.forM f) (xs.flatMap enc) := by
  induction xs with
  | nil =>
    intro B w r hB hr
    cases hr
    rw [List.flatMap_nil, List.append_nil]
    exact ⟨rfl, hB⟩
  | cons x xs ih =>
    rw [List.flatMap_cons]
    exact (h x List.mem_cons_self).bind (ih fun y hy => h y (List.mem_cons_of_mem x hy))

end Commits

/-! ## Bytes of any origin -/

section Shrinks

/-- On a list below the limit and in a state that `I` holds of, `p` faults, or it pops at least `k` bytes, keeps `I` and
returns something that satisfies `Q`. -/
def Shrinks (I : σ → Prop) (L : Nat) (p : Stack ε β σ α) (k : Nat) (Q : α → Prop) : Prop :=
  ∀ B w a B' w', B.length < L → I w → p (B, w) = .ok (a, B', w') → B'.length + k ≤ B.length ∧ I w' ∧ Q a

/-- `p` pushes nothing and keeps `I`. -/
abbrev Keeps (I : σ → Prop) (L : Nat) (p : Stack ε β σ α) : Prop := Shrinks I L p 0 fun _ => True

variable {I : σ → Prop} {L : Nat}

theorem Shrinks.pure {a : α} {Q : α → Prop} (h : Q a) : Shrinks I L (pure a : Stack ε β σ α) 0 Q := by
  rintro B w _ _ _ _ hI ⟨rfl, rfl, rfl⟩
  exact ⟨Nat.le_refl _, hI, h⟩

theorem Shrinks.mono {p : Stack ε β σ α} {k k' : Nat} {Q Q' : α → Prop} (h : Shrinks I L p k Q) (hk : k' ≤ k)
    (hQ : ∀ a, Q a → Q' a) : Shrinks I L p k' Q' := by
  intro B w a B' w' hL hI hp
  obtain ⟨hlen, hI', hq⟩ := h B w a B' w' hL hI hp
  exact ⟨by omega, hI', hQ a hq⟩

theorem Shrinks.keeps {p : Stack ε β σ α} {k : Nat} {Q : α → Prop} (h : Shrinks I L p k Q) : Keeps I L p :=
  h.mono (Nat.zero_le k) fun _ _ => True.intro

theorem Shrinks.bind {p : Stack ε β σ α} {f : α → Stack ε β σ γ} {k m : Nat} {Q : α → Prop} {Q' : γ → Prop}
    (hp : Shrinks I L p k Q) (hf : ∀ a, Q a → Shrinks I L (f a) m Q') : Shrinks I L (p >>= f) (k + m) Q' := by
  intro B w c B' w' hL hI h
  obtain ⟨a, ⟨B₁, w₁⟩, ha, hc⟩ := bind_eq_ok.mp h
  obtain ⟨h₁, hI₁, hq⟩ := hp B w a B₁ w₁ hL hI ha
  obtain ⟨h₂, hI₂, hq'⟩ := hf a hq B₁ w₁ c B' w' (by omega) hI₁ hc
  exact ⟨by omega, hI₂, hq'⟩

/-- Readers of which nothing more is known, in sequence. -/
theorem Keeps.seq {p : Stack ε β σ α} {f : α → Stack ε β σ γ} (hp : Keeps I L p) (hf : ∀ a, Keeps I L (f a)) :
    Keeps I L (p >>= f) := hp.bind fun a _ => hf a

theorem Keeps.pure (a : α) : Keeps I L (Pure.pure a : Stack ε β σ α) := Shrinks.pure True.intro

theorem Keeps.map {p : Stack ε β σ α} {f : α → γ} (hp : Keeps I L p) : Keeps I L (f <$> p) :=
  hp.seq fun a => Keeps.pure (f a)

/-- An invariant of the accumulator of a loop. -/
theorem Shrinks.loop {body : γ → Stack ε β σ γ} {k : Nat} {Q : γ → Prop}
    (hbody : ∀ c, Q c → Shrinks I L (body c) k Q) :
    ∀ (n : Nat) (c : γ), Q c → Shrinks I L (ByteStack.loop n body c) (n * k) Q := by
  intro n
  induction n with
  | zero =>
    intro c h
    rw [Nat.zero_mul]
    exact Shrinks.pure h
  | succ n ih =>
    intro c h
    have hk : (n + 1) * k = k + n * k := by rw [Nat.succ_mul, Nat.add_comm]
    rw [hk]
    exact (hbody c h).bind ih

theorem Keeps.loop {body : γ → Stack ε β σ γ} (hbody : ∀ c, Keeps I L (body c)) (n : Nat) (c : γ) :
    Keeps I L (ByteStack.loop n body c) :=
  (Shrinks.loop (fun c _ => hbody c) n c True.intro).keeps

end Shrinks

end ByteStack
