import BackupEngine.Cpp.Fault

/-!
# Integers and vectors

`int` is 32 bits wide and its overflow is undefined, so an `int` expression is computed over `Int` and checked; `size_t` is
64 bits wide and wraps. A `std::vector` is a list; `operator[]` and `resize` take a `size_t`, so an `int` index is
converted first.
-/

namespace Cpp

/-- The values of `int`. -/
def InInt (n : Int) : Prop := -2 ^ 31 ≤ n ∧ n < 2 ^ 31

instance (n : Int) : Decidable (InInt n) := inferInstanceAs (Decidable (_ ∧ _))

/-- The result of an `int` operation: the exact value when it is an `int`, undefined otherwise. -/
def int (n : Int) : Comp Int := if InInt n then .ok n else .error .overflow

theorem int_eq_ok {n m : Int} : int n = .ok m ↔ InInt n ∧ n = m := by
  unfold int
  split
  · rename_i h
    simp [h]
  · rename_i h
    simp [h]

theorem int_of_inInt {n : Int} (h : InInt n) : int n = .ok n := int_eq_ok.mpr ⟨h, rfl⟩

theorem eq_overflow_of_int {n : Int} {f : Fault} (h : int n = .error f) : f = .overflow := by
  unfold int at h
  split at h
  · cases h
  · cases h
    rfl

/-- A clamp at zero stays in the range. -/
theorem inInt_max {n : Int} (h : InInt n) : InInt (max n 0) := by
  unfold InInt at *
  omega

/-- The conversion of an integer to `size_t`. -/
def sizeT (n : Int) : Nat := (n % 2 ^ 64).toNat

/-- A non-negative `int` keeps its value. -/
theorem sizeT_natCast {n : Nat} (h : n < 2 ^ 31) : sizeT n = n := by
  unfold sizeT
  omega

theorem sizeT_of_nonneg {n : Int} (h0 : 0 ≤ n) (h : n < 2 ^ 31) : sizeT n = n.toNat := by
  unfold sizeT
  omega

/-- The conversion of a `size_t` to `int`. -/
def intOf (n : Nat) : Int := (n : Int).bmod (2 ^ 32)

theorem inInt_intOf (n : Nat) : InInt (intOf n) := by
  unfold InInt intOf
  rw [Int.bmod_def]
  split <;> omega

/-- A size that converts to a non-negative `int` is at least that `int`. -/
theorem intOf_le (n : Nat) : intOf n ≤ n := by
  unfold intOf
  rw [Int.bmod_def]
  split <;> omega

/-- More elements than `std::vector::max_size` of the smallest element type. -/
def maxSize : Nat := 2 ^ 63 - 1

section Vector

variable {α : Type}

/-- `resize` to `n` elements: the vector is cut, or filled up with value-initialised elements. -/
def resized (xs : List α) (n : Nat) (fresh : α) : List α :=
  xs.take n ++ List.replicate (n - xs.length) fresh

/-- `std::vector::resize`. -/
def resize (xs : List α) (n : Nat) (fresh : α) : Comp (List α) :=
  if n ≤ maxSize then .ok (resized xs n fresh) else .error .lengthError

/-- `std::vector::operator[]`, read. -/
def elemAt (xs : List α) (i : Nat) : Comp α :=
  match xs[i]? with
  | some a => .ok a
  | none => .error .badAccess

/-- `std::vector::operator[]`, written. -/
def setAt (xs : List α) (i : Nat) (a : α) : Comp (List α) :=
  if i < xs.length then .ok (xs.set i a) else .error .badAccess

/-- `erase(begin() + i)`. -/
def eraseAt (xs : List α) (i : Nat) : Comp (List α) :=
  if i < xs.length then .ok (xs.eraseIdx i) else .error .badAccess

/-- A loop over the places of a vector, counted with an `int`, that stops at the first one that holds `a`. -/
def findPlace [DecidableEq α] (xs : List α) (a : α) : Comp (Option Nat) := do
  match xs.findIdx? (· = a) with
  | some i =>
    let _ ← int i
    return some i
  | none =>
    let _ ← int xs.length
    return none

/-- `for (int i = …; i < xs.size(); i++)` over the rest of a vector from the place `i` on: the body is run on the element
there, then the counter goes up. -/
def forEach {σ : Type} (body : σ → α → Comp σ) : Nat → List α → σ → Comp σ
  | _, [], s => .ok s
  | i, x :: xs, s => do
    let s ← body s x
    let _ ← int (i + 1)
    forEach body (i + 1) xs s

@[simp] theorem length_resized (xs : List α) (n : Nat) (fresh : α) : (resized xs n fresh).length = n := by
  simp only [resized, List.length_append, List.length_take, List.length_replicate]
  omega

/-- What a resized vector holds: the old element where there was one, a fresh one past the old end. -/
theorem getElem?_resized (xs : List α) (n i : Nat) (fresh : α) :
    (resized xs n fresh)[i]? = if i < n then some (xs.getD i fresh) else none := by
  unfold resized
  by_cases hi : i < n
  · by_cases hx : i < xs.length
    · rw [List.getElem?_append_left (by simp [hi, hx]), List.getElem?_take_of_lt hi, if_pos hi]
      simp [hx]
    · rw [List.getElem?_append_right (by rw [List.length_take]; omega), if_pos hi,
        List.getElem?_replicate_of_lt (by rw [List.length_take]; omega)]
      simp [List.getD, List.getElem?_eq_none (Nat.not_lt.mp hx)]
  · rw [if_neg hi]
    apply List.getElem?_eq_none
    have := length_resized xs n fresh
    unfold resized at this
    omega

theorem resize_eq_ok {xs ys : List α} {n : Nat} {fresh : α} :
    resize xs n fresh = .ok ys ↔ n ≤ maxSize ∧ resized xs n fresh = ys := by
  unfold resize
  split
  · rename_i h
    simp [h]
  · rename_i h
    simp [h]

theorem resize_eq_error {xs : List α} {n : Nat} {fresh : α} {e : Fault} :
    resize xs n fresh = .error e ↔ maxSize < n ∧ e = .lengthError := by
  unfold resize
  split
  · rename_i h
    exact ⟨nofun, fun h' => absurd h'.1 (Nat.not_lt_of_le h)⟩
  · rename_i h
    rw [Except.error.injEq, eq_comm, and_iff_right (Nat.lt_of_not_le h)]

theorem elemAt_eq_ok {xs : List α} {i : Nat} {a : α} : elemAt xs i = .ok a ↔ xs[i]? = some a := by
  unfold elemAt
  split
  · rename_i b h
    simp [h]
  · rename_i h
    simp [h]

theorem setAt_eq_ok {xs ys : List α} {i : Nat} {a : α} :
    setAt xs i a = .ok ys ↔ i < xs.length ∧ xs.set i a = ys := by
  unfold setAt
  split
  · rename_i h
    simp [h]
  · rename_i h
    simp [h]

theorem eraseAt_eq_ok {xs ys : List α} {i : Nat} : eraseAt xs i = .ok ys ↔ i < xs.length ∧ xs.eraseIdx i = ys := by
  unfold eraseAt
  split
  · rename_i h
    simp [h]
  · rename_i h
    simp [h]

section forEach

variable {σ : Type} {body : σ → α → Comp σ} {i : Nat} {xs : List α} {s t : σ}

/-- One round of the loop. -/
theorem forEach_cons_ok {x : α} (h : forEach body i (x :: xs) s = .ok t) :
    ∃ u, body s x = .ok u ∧ i + 1 < 2 ^ 31 ∧ forEach body (i + 1) xs u = .ok t := by
  rw [forEach] at h
  obtain ⟨u, hu, h⟩ := bind_eq_ok.mp h
  obtain ⟨_, hint, h⟩ := bind_eq_ok.mp h
  have := (int_eq_ok.mp hint).1.2
  exact ⟨u, hu, by omega, h⟩

/-- Where the counter stays an `int`, the loop is the loop over the elements. -/
theorem forEach_eq_foldlM (h : i + xs.length < 2 ^ 31) : forEach body i xs s = xs.foldlM body s := by
  induction xs generalizing i s with
  | nil => rfl
  | cons x xs ih =>
    rw [List.length_cons] at h
    have hint : InInt ((i : Int) + 1) := by
      unfold InInt
      omega
    rw [forEach, List.foldlM_cons]
    cases body s x with
    | error e => rw [error_bind, error_bind]
    | ok u =>
      rw [ok_bind, ok_bind, int_of_inInt hint, ok_bind]
      exact ih (by omega)

/-- The loop over a vector in two parts: the counter goes on where the first part left it. -/
theorem forEach_append {ys : List α} (h : i + xs.length < 2 ^ 31) :
    forEach body i (xs ++ ys) s = xs.foldlM body s >>= forEach body (i + xs.length) ys := by
  induction xs generalizing i s with
  | nil => rfl
  | cons x xs ih =>
    rw [List.length_cons] at h
    have hint : InInt ((i : Int) + 1) := by
      unfold InInt
      omega
    rw [List.cons_append, forEach, List.foldlM_cons]
    cases body s x with
    | error e => rw [error_bind, error_bind, error_bind]
    | ok u =>
      rw [ok_bind, ok_bind, int_of_inInt hint, ok_bind, ih (by omega), List.length_cons, Nat.add_right_comm, Nat.add_assoc]

/-- How a loop can fault: in its counter, or the way its body can fault on the elements the counter reaches. -/
theorem forEach_error {Q : Fault → Prop} (hover : Q .overflow) (P : σ → Prop)
    (hstep : ∀ s x, x ∈ xs.take (2 ^ 31 - i) → P s → (∀ f, body s x = .error f → Q f) ∧ ∀ t, body s x = .ok t → P t)
    (hs : P s) (hi : i < 2 ^ 31) {f : Fault} (h : forEach body i xs s = .error f) : Q f := by
  induction xs generalizing i s with
  | nil => cases h
  | cons x xs ih =>
    obtain ⟨n, hn⟩ : ∃ n, 2 ^ 31 - i = n + 1 := ⟨2 ^ 31 - i - 1, by omega⟩
    rw [hn, List.take_succ_cons] at hstep
    obtain ⟨hfault, hkeep⟩ := hstep s x List.mem_cons_self hs
    rw [forEach] at h
    cases hbody : body s x with
    | error e =>
      rw [hbody, error_bind] at h
      cases h
      exact hfault f hbody
    | ok u =>
      rw [hbody, ok_bind] at h
      by_cases hint : InInt ((i : Int) + 1)
      · have hlt : i + 1 < 2 ^ 31 := by
          have := hint.2
          omega
        rw [int_of_inInt hint, ok_bind] at h
        refine ih (fun s y hy => hstep s y (List.mem_cons_of_mem _ ?_)) (hkeep u hbody) hlt h
        rwa [show n = 2 ^ 31 - (i + 1) by omega]
      · unfold int at h
        rw [if_neg hint, error_bind] at h
        cases h
        exact hover

/-- A loop that returns has run its body on every element. -/
theorem foldlM_of_forEach (h : forEach body i xs s = .ok t) : xs.foldlM body s = .ok t := by
  induction xs generalizing i s with
  | nil => exact h
  | cons x xs ih =>
    obtain ⟨u, hu, _, hrest⟩ := forEach_cons_ok h
    rw [List.foldlM_cons, hu, ok_bind]
    exact ih hrest

/-- A loop that returns has counted its elements with an `int`. -/
theorem length_of_forEach (h : forEach body i xs s = .ok t) (hne : xs ≠ []) : i + xs.length < 2 ^ 31 := by
  induction xs generalizing i s with
  | nil => exact absurd rfl hne
  | cons x xs ih =>
    obtain ⟨u, _, hlt, hrest⟩ := forEach_cons_ok h
    rw [List.length_cons]
    rcases xs with _ | ⟨y, ys⟩
    · exact hlt
    · have := ih hrest (List.cons_ne_nil _ _)
      omega

end forEach

section findPlace

variable [DecidableEq α] {xs : List α} {a : α} {i : Nat}

/-- A place that was found holds what was looked for. -/
theorem getElem?_of_findPlace (h : findPlace xs a = .ok (some i)) : xs[i]? = some a := by
  unfold findPlace at h
  split at h
  · rename_i j hj
    obtain ⟨_, _, h⟩ := bind_eq_ok.mp h
    cases h
    obtain ⟨hlt, hp, _⟩ := List.findIdx?_eq_some_iff_getElem.mp hj
    exact List.getElem?_eq_some_iff.mpr ⟨hlt, of_decide_eq_true hp⟩
  · obtain ⟨_, _, h⟩ := bind_eq_ok.mp h
    cases h

/-- What was found is found at its first place. -/
theorem eraseIdx_of_findPlace (h : findPlace xs a = .ok (some i)) : xs.eraseIdx i = xs.erase a := by
  unfold findPlace at h
  split at h
  · rename_i j hj
    obtain ⟨_, _, h⟩ := bind_eq_ok.mp h
    cases h
    rw [List.erase_eq_eraseIdx, List.idxOf?]
    have : xs.findIdx? (· == a) = some i := by
      rw [← hj]
      rfl
    rw [this]
  · obtain ⟨_, _, h⟩ := bind_eq_ok.mp h
    cases h

/-- What was not found is not there. -/
theorem not_mem_of_findPlace (h : findPlace xs a = .ok none) : a ∉ xs := by
  unfold findPlace at h
  split at h
  · obtain ⟨_, _, h⟩ := bind_eq_ok.mp h
    cases h
  · rename_i hnone
    intro hmem
    exact of_decide_eq_false (List.findIdx?_eq_none_iff.mp hnone a hmem) rfl

/-- The places found are numbers of type `int`. -/
theorem lt_of_findPlace (h : findPlace xs a = .ok (some i)) : i < 2 ^ 31 := by
  unfold findPlace at h
  split at h
  · obtain ⟨_, hint, h⟩ := bind_eq_ok.mp h
    cases h
    have := (int_eq_ok.mp hint).1.2
    omega
  · obtain ⟨_, _, h⟩ := bind_eq_ok.mp h
    cases h

/-- A search returns in a vector whose places are numbers of type `int`. -/
theorem findPlace_returns (h : xs.length < 2 ^ 31) (a : α) : ∃ i, findPlace xs a = .ok i := by
  unfold findPlace
  split
  · rename_i i hi
    obtain ⟨hlt, _⟩ := List.findIdx?_eq_some_iff_getElem.mp hi
    have hint : InInt (i : Int) := ⟨by omega, by omega⟩
    exact ⟨some i, bind_eq_ok.mpr ⟨_, int_of_inInt hint, rfl⟩⟩
  · have hint : InInt (xs.length : Int) := ⟨by omega, by omega⟩
    exact ⟨none, bind_eq_ok.mpr ⟨_, int_of_inInt hint, rfl⟩⟩

end findPlace

end Vector

/-! ## The buffer of a vector

Where the program keeps pointers into a vector, the vector also has a capacity and a generation: a `push_back` beyond the
capacity moves the elements to a new buffer, and pointers into the old one no longer name them. -/

/-- A vector with its buffer: which buffer it is (`gen`), how many elements fit (`cap`), and the elements. -/
structure Buffer (α : Type) where
  gen : Nat := 0
  cap : Nat := 0
  elems : List α := []
  deriving Repr

namespace Buffer

variable {α : Type}

/-- `push_back`. `growth` is the library's policy: the capacity it asks for when `cap` elements are full. -/
def push (growth : Nat → Nat) (b : Buffer α) (a : α) : Buffer α :=
  if b.elems.length < b.cap then { b with elems := b.elems ++ [a] }
  else { gen := b.gen + 1, cap := max (growth b.cap) (b.elems.length + 1), elems := b.elems ++ [a] }

@[simp] theorem elems_push (growth : Nat → Nat) (b : Buffer α) (a : α) :
    (b.push growth a).elems = b.elems ++ [a] := by
  unfold push
  split <;> rfl

/-- The buffers that pushes make of an empty vector. -/
inductive Pushed (growth : Nat → Nat) : Buffer α → Prop
  | empty : Pushed growth {}
  | push {b : Buffer α} (before : Pushed growth b) (a : α) : Pushed growth (b.push growth a)

theorem gen_le_push (growth : Nat → Nat) (b : Buffer α) (a : α) : b.gen ≤ (b.push growth a).gen := by
  unfold push
  split
  · exact Nat.le_refl _
  · exact Nat.le_succ _

/-- The first push allocates, and the elements stay in that buffer until they are more than it holds. -/
theorem Pushed.cases {growth : Nat → Nat} {b : Buffer α} (h : Pushed growth b) :
    (b.gen = 0 ∧ b.cap = 0 ∧ b.elems = []) ∨
    (b.gen = 1 ∧ b.cap = max (growth 0) 1 ∧ b.elems ≠ [] ∧ b.elems.length ≤ b.cap) ∨
    (2 ≤ b.gen ∧ max (growth 0) 1 < b.elems.length) := by
  induction h with
  | empty => exact .inl ⟨rfl, rfl, rfl⟩
  | @push b before a ih =>
    unfold Buffer.push
    rcases ih with ⟨hgen, hcap, helems⟩ | ⟨hgen, hcap, _, hle⟩ | ⟨hgen, hlt⟩
    · refine .inr (.inl ?_)
      rw [hgen, hcap, helems]
      simp
    · split
      · refine .inr (.inl ⟨hgen, hcap, by simp, ?_⟩)
        simp only [List.length_append, List.length_singleton]
        omega
      · refine .inr (.inr ⟨by simp only; omega, ?_⟩)
        simp only [List.length_append, List.length_singleton]
        omega
    · split
      · refine .inr (.inr ⟨hgen, ?_⟩)
        simp only [List.length_append, List.length_singleton]
        omega
      · refine .inr (.inr ⟨by simp only; omega, ?_⟩)
        simp only [List.length_append, List.length_singleton]
        omega

end Buffer

end Cpp
