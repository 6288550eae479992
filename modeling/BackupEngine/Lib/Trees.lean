import Mathlib

/-!
# Lists of trees

A list of trees, of any shape. `layout` gives each node a cell: a node is to the right of the node it is below, the first
tree below a node starts in the row of the node, and every tree starts in the row behind the one before it.
-/

/-- A list of trees: the root of the first, the trees below it, and the trees beside it. -/
inductive Trees (α : Type*) where
  | nil
  | node (a : α) (below beside : Trees α)

namespace Trees

variable {α : Type*}

/-- The nodes in pre-order. -/
def nodes : Trees α → List α
  | nil => []
  | node a below beside => a :: (below.nodes ++ beside.nodes)

/-- The roots. -/
def roots : Trees α → List α
  | nil => []
  | node a _ beside => a :: beside.roots

/-- The nodes below the roots, in pre-order. -/
def deeper : Trees α → List α
  | nil => []
  | node _ below beside => below.nodes ++ beside.deeper

/-- The number of rows: a node with nothing below it takes one. -/
def width : Trees α → Nat
  | nil => 0
  | node _ below beside => max 1 below.width + beside.width

/-- The cells, row and column, of the nodes of trees that start in a row and a column. -/
def layout (row col : Int) : Trees α → List (α × Int × Int)
  | nil => []
  | node a below beside =>
    (a, row, col) :: (below.layout row (col + 1) ++ beside.layout (row + max 1 below.width) col)

example : (node 'a' (node 'b' nil (node 'c' nil nil)) (node 'd' nil nil)).layout 0 0 =
    [('a', 0, 0), ('b', 0, 1), ('c', 1, 1), ('d', 2, 0)] := by decide

/-- Every node has one cell. -/
theorem map_fst_layout (ts : Trees α) (row col : Int) : (ts.layout row col).map Prod.fst = ts.nodes := by
  induction ts generalizing row col with
  | nil => rfl
  | node a below beside ihbelow ihbeside =>
    rw [layout, nodes, List.map_cons, List.map_append, ihbelow, ihbeside]

theorem row_of_mem {ts : Trees α} {row col : Int} {c : α × Int × Int} (h : c ∈ ts.layout row col) :
    row ≤ c.2.1 ∧ c.2.1 < row + ts.width := by
  induction ts generalizing row col with
  | nil => cases h
  | node a below beside ihbelow ihbeside =>
    rw [width]
    rcases List.mem_cons.mp h with rfl | h
    · simp only
      omega
    · rcases List.mem_append.mp h with h | h
      · have := ihbelow h
        omega
      · have := ihbeside h
        omega

/-- No row is left empty. -/
theorem exists_mem_row {ts : Trees α} {row r : Int} (col : Int) (hle : row ≤ r) (hlt : r < row + ts.width) :
    ∃ c ∈ ts.layout row col, c.2.1 = r := by
  induction ts generalizing row col with
  | nil => simp only [width, Nat.cast_zero] at hlt; omega
  | node a below beside ihbelow ihbeside =>
    rw [width] at hlt
    by_cases hown : r = row
    · exact ⟨_, List.mem_cons_self, hown.symm⟩
    · by_cases hbelow : r < row + below.width
      · obtain ⟨c, hc, hrow⟩ := ihbelow (col + 1) hle hbelow
        exact ⟨c, List.mem_cons_of_mem _ (List.mem_append_left _ hc), hrow⟩
      · obtain ⟨c, hc, hrow⟩ := @ihbeside (row + max 1 below.width) col (by omega) (by omega)
        exact ⟨c, List.mem_cons_of_mem _ (List.mem_append_right _ hc), hrow⟩

theorem col_of_mem {ts : Trees α} {row col : Int} {c : α × Int × Int} (h : c ∈ ts.layout row col) : col ≤ c.2.2 := by
  induction ts generalizing row col with
  | nil => cases h
  | node a below beside ihbelow ihbeside =>
    rcases List.mem_cons.mp h with rfl | h
    · exact Int.le_refl _
    · rcases List.mem_append.mp h with h | h
      · have := ihbelow h
        omega
      · exact ihbeside h

/-- No two nodes have the same cell. -/
theorem nodup_cells (ts : Trees α) (row col : Int) : ((ts.layout row col).map Prod.snd).Nodup := by
  induction ts generalizing row col with
  | nil => exact List.nodup_nil
  | node a below beside ihbelow ihbeside =>
    rw [layout, List.map_cons, List.map_append, List.nodup_cons]
    refine ⟨fun hmem => ?_, (ihbelow _ _).append (ihbeside _ _) fun cell hbelow hbeside => ?_⟩
    · rcases List.mem_append.mp hmem with hmem | hmem
      · obtain ⟨c, hc, heq⟩ := List.mem_map.mp hmem
        have := col_of_mem hc
        rw [heq] at this
        simp only at this
        omega
      · obtain ⟨c, hc, heq⟩ := List.mem_map.mp hmem
        have := (row_of_mem hc).1
        rw [heq] at this
        simp only at this
        omega
    · obtain ⟨c, hc, rfl⟩ := List.mem_map.mp hbelow
      obtain ⟨c', hc', heq⟩ := List.mem_map.mp hbeside
      have hlt := (row_of_mem hc).2
      have hle := (row_of_mem hc').1
      rw [heq] at hle
      omega

end Trees
