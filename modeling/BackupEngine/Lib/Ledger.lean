import Mathlib

/-!
# Ledgers

A book holds an amount under every key. A list of entries gives amounts to keys or takes amounts from them, one entry after
the other, and may name a key more than once. What counts in the end is the sum of the amounts a list asks of each key
(`asked`), also where taking stops at zero (`draw`): there the sum decides whether anything was cut off.
-/

namespace Ledger

variable {κ M : Type*} [DecidableEq κ]

section Sums

variable [AddCommMonoid M]

/-- What a list asks of one key: the sum of its amounts there. -/
def asked (l : List (κ × M)) (k : κ) : M := ((l.filter fun e => e.1 = k).map Prod.snd).sum

/-- The book after the entries were given. -/
def give (book : κ → M) (l : List (κ × M)) : κ → M := fun k => book k + asked l k

@[simp] theorem asked_nil (k : κ) : asked ([] : List (κ × M)) k = 0 := rfl

theorem asked_cons (e : κ × M) (l : List (κ × M)) (k : κ) :
    asked (e :: l) k = (if e.1 = k then e.2 else 0) + asked l k := by
  unfold asked
  by_cases h : e.1 = k
  · simp [h]
  · simp [h]

/-- A key no entry names is asked for nothing. -/
theorem asked_eq_zero {l : List (κ × M)} {k : κ} (h : ∀ e ∈ l, e.1 ≠ k) : asked l k = 0 := by
  induction l with
  | nil => rfl
  | cons e l ih =>
    rw [List.forall_mem_cons] at h
    rw [asked_cons, if_neg h.1, ih h.2, zero_add]

/-- Entries of zero ask for nothing. -/
theorem asked_zero {l : List (κ × M)} {k : κ} (h : ∀ e ∈ l, e.2 = 0) : asked l k = 0 := by
  induction l with
  | nil => rfl
  | cons e l ih =>
    rw [List.forall_mem_cons] at h
    rw [asked_cons, h.1, ih h.2, ite_self, zero_add]

@[simp] theorem give_nil (book : κ → M) : give book [] = book := by
  funext k
  simp [give]

/-- Entries are given one after the other. -/
theorem give_cons (book : κ → M) (e : κ × M) (l : List (κ × M)) :
    give book (e :: l) = give (Function.update book e.1 (book e.1 + e.2)) l := by
  funext k
  unfold give
  rw [asked_cons, ← add_assoc]
  by_cases h : k = e.1
  · subst h
    rw [if_pos rfl, Function.update_self]
  · rw [if_neg (Ne.symm h), Function.update_of_ne h, add_zero]

/-- A book that changes at one place of a list of books, in the sum over all of them. -/
theorem sum_map_modify {β : Type*} {N : Type*} [AddCommGroup N] (g : β → N) (f : β → β) {l : List β} {n : ℕ} {b : β}
    (h : l[n]? = some b) : ((l.modify n f).map g).sum = (l.map g).sum - g b + g (f b) := by
  induction l generalizing n with
  | nil => simp at h
  | cons a l ih =>
    cases n with
    | zero =>
      rw [List.getElem?_cons_zero, Option.some.injEq] at h
      subst h
      rw [List.modify_zero_cons, List.map_cons, List.map_cons, List.sum_cons, List.sum_cons]
      abel
    | succ n =>
      rw [List.getElem?_cons_succ] at h
      rw [List.modify_succ_cons, List.map_cons, List.map_cons, List.sum_cons, List.sum_cons, ih h]
      abel

end Sums

section Order

variable [AddCommGroup M] [LinearOrder M] [IsOrderedAddMonoid M] {book : κ → M} {l : List (κ × M)}

/-- The book after the entries were taken, each of them down to zero at most. -/
def draw (book : κ → M) : List (κ × M) → κ → M
  | [] => book
  | e :: l => draw (Function.update book e.1 (max (book e.1 - e.2) 0)) l

theorem asked_nonneg (hl : ∀ e ∈ l, 0 ≤ e.2) (k : κ) : 0 ≤ asked l k := by
  induction l with
  | nil => exact le_refl 0
  | cons e l ih =>
    rw [List.forall_mem_cons] at hl
    rw [asked_cons]
    refine add_nonneg ?_ (ih hl.2)
    split
    · exact hl.1
    · exact le_refl 0

theorem give_nonneg (hbook : ∀ k, 0 ≤ book k) (hl : ∀ e ∈ l, 0 ≤ e.2) (k : κ) : 0 ≤ give book l k :=
  add_nonneg (hbook k) (asked_nonneg hl k)

omit [IsOrderedAddMonoid M] in
/-- A book that owes nothing owes nothing after the entries were taken, whatever their signs. -/
theorem draw_nonneg (hbook : ∀ k, 0 ≤ book k) (k : κ) : 0 ≤ draw book l k := by
  induction l generalizing book with
  | nil => exact hbook k
  | cons e l ih =>
    refine ih fun k => ?_
    rw [Function.update_apply]
    split
    · exact le_max_right _ _
    · exact hbook k

/-- A clamp at zero before something non-negative is taken makes no difference to the clamp after it. -/
theorem max_sub_sub_right_zero {a b : M} (hb : 0 ≤ b) : max (max a 0 - b) 0 = max (a - b) 0 := by
  rcases le_total a 0 with ha | ha
  · rw [max_eq_right ha, max_eq_right (sub_le_self 0 hb), max_eq_right ((sub_le_self a hb).trans ha)]
  · rw [max_eq_left ha]

/-- Taking non-negative amounts one by one, each down to zero at most, is taking their sums down to zero at most. -/
theorem draw_eq (hbook : ∀ k, 0 ≤ book k) (hl : ∀ e ∈ l, 0 ≤ e.2) (k : κ) :
    draw book l k = max (book k - asked l k) 0 := by
  induction l generalizing book with
  | nil =>
    rw [asked_nil, sub_zero]
    exact (max_eq_left (hbook k)).symm
  | cons e l ih =>
    rw [List.forall_mem_cons] at hl
    have hnext : ∀ k, 0 ≤ Function.update book e.1 (max (book e.1 - e.2) 0) k := by
      intro k
      rw [Function.update_apply]
      split
      · exact le_max_right _ _
      · exact hbook k
    rw [draw, ih hnext hl.2, asked_cons, Function.update_apply]
    by_cases hk : k = e.1
    · subst hk
      rw [if_pos rfl, if_pos rfl, ← sub_sub, max_sub_sub_right_zero (asked_nonneg hl.2 _)]
    · rw [if_neg hk, if_neg (Ne.symm hk), zero_add]

/-- Nothing is cut off exactly where the list asks for no more than the book holds. -/
theorem draw_eq_sub_iff (hbook : ∀ k, 0 ≤ book k) (hl : ∀ e ∈ l, 0 ≤ e.2) (k : κ) :
    draw book l k = book k - asked l k ↔ asked l k ≤ book k := by
  rw [draw_eq hbook hl, max_eq_left_iff, sub_nonneg]

/-- What was given can be taken again. -/
theorem draw_give (hbook : ∀ k, 0 ≤ book k) (hl : ∀ e ∈ l, 0 ≤ e.2) : draw (give book l) l = book := by
  funext k
  rw [draw_eq (give_nonneg hbook hl) hl, give, add_sub_cancel_right, max_eq_left (hbook k)]

end Order

end Ledger
