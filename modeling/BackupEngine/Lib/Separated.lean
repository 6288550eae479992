import Mathlib

/-!
# Fields between separators

A list is cut at a separator of two elements, wherever the first of them is followed by the second.
-/

namespace Separated

variable {α : Type} [DecidableEq α] (a b : α)

/-- The position of the first separator. -/
def find? : List α → Option Nat
  | [] => none
  | x :: xs => if x = a ∧ xs.head? = some b then some 0 else (find? xs).map (· + 1)

/-- The lists between the separators. -/
def fields : List α → List (List α)
  | [] => [[]]
  | [x] => [[x]]
  | x :: y :: xs =>
    if x = a ∧ y = b then [] :: fields xs
    else match fields (y :: xs) with
      | [] => [[x]]
      | f :: fs => (x :: f) :: fs

variable {a b}

theorem fields_ne_nil (l : List α) : fields a b l ≠ [] := by
  unfold fields
  split
  · nofun
  · nofun
  · split
    · nofun
    · split <;> nofun

/-- An element that begins no separator belongs to the first field. -/
theorem fields_cons_of_not {x : α} {xs : List α} (h : ¬(x = a ∧ xs.head? = some b)) :
    ∃ f fs, fields a b xs = f :: fs ∧ fields a b (x :: xs) = (x :: f) :: fs := by
  cases xs with
  | nil => exact ⟨[], [], rfl, rfl⟩
  | cons y xs =>
    rw [List.head?_cons, Option.some_inj] at h
    rw [fields, if_neg h]
    cases hfs : fields a b (y :: xs) with
    | nil => exact absurd hfs (fields_ne_nil _)
    | cons f fs => exact ⟨f, fs, rfl, rfl⟩

/-- A list without a separator is one field. -/
theorem fields_of_find?_none {l : List α} (h : find? a b l = none) : fields a b l = [l] := by
  induction l with
  | nil => rfl
  | cons x xs ih =>
    rw [find?] at h
    split at h
    · cases h
    · rename_i hx
      obtain ⟨f, fs, hfs, hcons⟩ := fields_cons_of_not hx
      rw [ih (Option.map_eq_none_iff.mp h)] at hfs
      cases hfs
      exact hcons

/-- A list with a separator: the field before it, the separator, and the fields behind it. -/
theorem fields_of_find?_some {l : List α} {i : Nat} (h : find? a b l = some i) :
    fields a b l = l.take i :: fields a b (l.drop (i + 2)) ∧ l.drop (i + 1) = b :: l.drop (i + 2) := by
  induction l generalizing i with
  | nil => cases h
  | cons x xs ih =>
    rw [find?] at h
    split at h
    · rename_i hx
      obtain ⟨rfl, hhead⟩ := hx
      cases h
      cases xs with
      | nil => cases hhead
      | cons y xs =>
        obtain rfl : y = b := Option.some_inj.mp hhead
        refine ⟨?_, rfl⟩
        rw [fields, if_pos ⟨rfl, rfl⟩]
        rfl
    · rename_i hx
      obtain ⟨j, hj, rfl⟩ := Option.map_eq_some_iff.mp h
      obtain ⟨hfields, hdrop⟩ := ih hj
      obtain ⟨f, fs, hfs, hcons⟩ := fields_cons_of_not hx
      rw [hfields, List.cons.injEq] at hfs
      obtain ⟨rfl, rfl⟩ := hfs
      exact ⟨hcons, hdrop⟩

/-- A field grows by what is put before it, unless that begins a separator. -/
theorem fields_cons {x : α} (hx : x ≠ a) (xs : List α) :
    ∃ f fs, fields a b xs = f :: fs ∧ fields a b (x :: xs) = (x :: f) :: fs := fields_cons_of_not fun h => hx h.1

end Separated
