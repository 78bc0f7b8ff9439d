import Mathlib.Tactic

/-!
# Address windows of a display controller

A display controller fills a rectangle, its address window, with a stream of
values: row by row from the top, each row from the left, and again from the
first cell after the last one.  The cell of every position in the stream has a
closed form, so the cells that a stream of a given length reaches are known.
-/

namespace InternetWavPlayer.AddressWindow

/-! ## Rows and columns -/

/-- The places of a table, row by row. -/
def grid (rows columns : Nat) : List (Nat × Nat) :=
  (List.range rows).flatMap fun row =>
    (List.range columns).map fun column => (row, column)

theorem mem_grid {rows columns : Nat} {place : Nat × Nat} :
    place ∈ grid rows columns ↔ place.1 < rows ∧ place.2 < columns := by
  simp [grid, Prod.ext_iff]

theorem grid_succ (rows columns : Nat) :
    grid (rows + 1) columns = grid rows columns ++
      (List.range columns).map fun column => (rows, column) := by
  rw [grid, List.range_succ, List.flatMap_append, List.flatMap_singleton]
  rfl

/-- The place of a table that comes at a position. -/
theorem grid_positions (rows columns : Nat) :
    (grid rows columns).map (fun place => columns * place.1 + place.2) =
      List.range (rows * columns) := by
  induction rows with
  | zero => simp [grid]
  | succ rows induction =>
      rw [grid_succ, List.map_append, induction, List.map_map,
        Nat.succ_mul, List.range_add, Nat.mul_comm rows columns]
      rfl

theorem length_grid (rows columns : Nat) :
    (grid rows columns).length = rows * columns := by
  simp [grid, List.length_flatMap]

/-- A rectangle of cells, given by its inclusive ends. -/
structure Window where
  left : Nat
  top : Nat
  right : Nat
  bottom : Nat
  columns : left ≤ right
  rows : top ≤ bottom
deriving DecidableEq

namespace Window

variable (window : Window)

def width : Nat := window.right - window.left + 1

def height : Nat := window.bottom - window.top + 1

/-- The number of cells. -/
def area : Nat := window.width * window.height

/-- A cell lies in the rectangle. -/
def Inside (cell : Nat × Nat) : Prop :=
  (window.left ≤ cell.1 ∧ cell.1 ≤ window.right) ∧
    window.top ≤ cell.2 ∧ cell.2 ≤ window.bottom

instance (cell : Nat × Nat) : Decidable (window.Inside cell) :=
  inferInstanceAs (Decidable (_ ∧ _))

/-- The cell that the value at a position of the stream goes to. -/
def cell (position : Nat) : Nat × Nat :=
  (window.left + position % window.width,
    window.top + position / window.width % window.height)

/-- The position of a cell in the first pass over the rectangle. -/
def position (cell : Nat × Nat) : Nat :=
  window.width * (cell.2 - window.top) + (cell.1 - window.left)

theorem width_pos : 0 < window.width :=
  Nat.succ_pos _

theorem height_pos : 0 < window.height :=
  Nat.succ_pos _

theorem area_pos : 0 < window.area :=
  Nat.mul_pos window.width_pos window.height_pos

variable {window}

theorem cell_inside (position : Nat) :
    window.Inside (window.cell position) := by
  have column : position % window.width < window.width :=
    Nat.mod_lt _ window.width_pos
  have row : position / window.width % window.height < window.height :=
    Nat.mod_lt _ window.height_pos
  have columns := window.columns
  have rows := window.rows
  simp only [width, height] at column row
  refine ⟨⟨Nat.le_add_right _ _, ?_⟩, Nat.le_add_right _ _, ?_⟩
  · show window.left + position % (window.right - window.left + 1) ≤
      window.right
    omega
  · show window.top + position / (window.right - window.left + 1) %
      (window.bottom - window.top + 1) ≤ window.bottom
    omega

/-- Every cell of the rectangle has a position in the first pass. -/
theorem position_lt {cell : Nat × Nat} (inside : window.Inside cell) :
    window.position cell < window.area := by
  obtain ⟨⟨left, right⟩, top, bottom⟩ := inside
  have column : cell.1 - window.left < window.width := by
    simp only [width]
    omega
  have row : cell.2 - window.top + 1 ≤ window.height := by
    simp only [height]
    omega
  calc window.width * (cell.2 - window.top) + (cell.1 - window.left)
      < window.width * (cell.2 - window.top) + window.width :=
        Nat.add_lt_add_left column _
    _ = window.width * (cell.2 - window.top + 1) := by ring
    _ ≤ window.area := Nat.mul_le_mul_left _ row

theorem cell_position {cell : Nat × Nat} (inside : window.Inside cell) :
    window.cell (window.position cell) = cell := by
  obtain ⟨⟨left, right⟩, top, bottom⟩ := inside
  have column : cell.1 - window.left < window.width := by
    simp only [width]
    omega
  have row : cell.2 - window.top < window.height := by
    simp only [height]
    omega
  apply Prod.ext
  · simp only [Window.cell, position, Nat.mul_add_mod,
      Nat.mod_eq_of_lt column]
    omega
  · simp only [Window.cell, position,
      Nat.mul_add_div window.width_pos, Nat.div_eq_of_lt column,
      Nat.add_zero, Nat.mod_eq_of_lt row]
    omega

/-- Within the first pass the position is read back from the cell. -/
theorem position_cell {index : Nat} (first : index < window.area) :
    window.position (window.cell index) = index := by
  have row : index / window.width < window.height :=
    Nat.div_lt_of_lt_mul first
  simp only [position, Window.cell, Nat.add_sub_cancel_left,
    Nat.mod_eq_of_lt row]
  exact Nat.div_add_mod index window.width

/-! ## The cells of a stream -/

variable (window) in
/-- The cells of a stream of `count` values, from a position on. -/
def cells (start count : Nat) : List (Nat × Nat) :=
  (List.range' start count).map window.cell

@[simp]
theorem cells_length (start count : Nat) :
    (window.cells start count).length = count := by
  simp [cells]

/-- A stream goes on where the one before it ended. -/
theorem cells_append (start first second : Nat) :
    window.cells start first ++ window.cells (start + first) second =
      window.cells start (first + second) := by
  rw [cells, cells, cells, ← List.map_append, List.range'_append_1]

/-- The first pass goes row by row. -/
theorem cells_grid :
    window.cells 0 window.area =
      (grid window.height window.width).map fun place =>
        (window.left + place.2, window.top + place.1) := by
  rw [cells, area, Nat.mul_comm, ← List.range_eq_range', ← grid_positions,
    List.map_map]
  apply List.map_congr_left
  rintro ⟨row, column⟩ member
  obtain ⟨above, left⟩ := mem_grid.mp member
  dsimp only at above left
  simp only [Function.comp_apply, Window.cell, Nat.mul_add_mod,
    Nat.mod_eq_of_lt left, Nat.mul_add_div window.width_pos,
    Nat.div_eq_of_lt left, Nat.add_zero, Nat.mod_eq_of_lt above]

/-- Nothing outside the rectangle is reached. -/
theorem inside_of_mem {start count : Nat} {cell : Nat × Nat}
    (member : cell ∈ window.cells start count) : window.Inside cell := by
  obtain ⟨position, -, rfl⟩ := List.mem_map.mp member
  exact cell_inside position

/-- A stream that fits in the rectangle reaches every cell at most once. -/
theorem cells_nodup {count : Nat} (fits : count ≤ window.area) :
    (window.cells 0 count).Nodup := by
  apply List.Nodup.map_on _ List.nodup_range'
  intro first firstMember second secondMember same
  rw [List.mem_range'_1] at firstMember secondMember
  have firstPosition : window.position (window.cell first) = first :=
    position_cell (by omega)
  have secondPosition : window.position (window.cell second) = second :=
    position_cell (by omega)
  rw [← firstPosition, same, secondPosition]

/-- A stream reaches the whole rectangle exactly when it is long enough. -/
theorem covers_iff (count : Nat) :
    (∀ cell, window.Inside cell → cell ∈ window.cells 0 count) ↔
      window.area ≤ count := by
  constructor
  · intro covers
    by_contra short
    have last : window.area - 1 < window.area :=
      Nat.sub_lt window.area_pos Nat.one_pos
    obtain ⟨index, member, same⟩ := List.mem_map.mp
      (covers _ (cell_inside (window.area - 1)))
    rw [List.mem_range'_1] at member
    have found := congrArg window.position same
    rw [position_cell (by omega), position_cell last] at found
    omega
  · intro long cell inside
    have early := position_lt inside
    rw [← cell_position inside]
    exact List.mem_map_of_mem (List.mem_range'_1.mpr (by omega))

end Window

end InternetWavPlayer.AddressWindow
