import Mathlib.Data.List.Chain
import Mathlib.Tactic

/-!
# Rows of cells

A row of cells, each used or free, tiles an interval: a cell starts where the
one before it ends.  This file locates the cells of a row, states that no two
free cells touch, and finds the first free cell.

Nothing here mentions a particular program.
-/

namespace InternetWavPlayer.Tiling

structure Cell where
  size : Nat
  used : Bool
deriving DecidableEq, Repr

/-- The length of a row. -/
def total (cells : List Cell) : Nat :=
  (cells.map Cell.size).sum

@[simp]
theorem total_nil : total [] = 0 :=
  rfl

@[simp]
theorem total_cons (cell : Cell) (cells : List Cell) :
    total (cell :: cells) = cell.size + total cells := by
  simp [total]

@[simp]
theorem total_append (left right : List Cell) :
    total (left ++ right) = total left + total right := by
  simp [total]

/-- The length of the used cells of a row. -/
def usedTotal (cells : List Cell) : Nat :=
  total (cells.filter Cell.used)

@[simp]
theorem usedTotal_nil : usedTotal [] = 0 :=
  rfl

@[simp]
theorem usedTotal_cons (cell : Cell) (cells : List Cell) :
    usedTotal (cell :: cells) =
      (if cell.used then cell.size else 0) + usedTotal cells := by
  rw [usedTotal, List.filter_cons]
  split <;> simp [usedTotal]

@[simp]
theorem usedTotal_append (left right : List Cell) :
    usedTotal (left ++ right) = usedTotal left + usedTotal right := by
  simp [usedTotal]

theorem usedTotal_le (cells : List Cell) : usedTotal cells ≤ total cells := by
  induction cells with
  | nil => rfl
  | cons cell cells induction =>
      rw [usedTotal_cons, total_cons]
      split <;> omega

/-! ## Places -/

/-- The cells of a row which starts at a position, with their starts. -/
def places (start : Nat) : List Cell → List (Nat × Cell)
  | [] => []
  | cell :: cells => (start, cell) :: places (start + cell.size) cells

@[simp]
theorem places_nil (start : Nat) : places start [] = [] :=
  rfl

@[simp]
theorem places_cons (start : Nat) (cell : Cell) (cells : List Cell) :
    places start (cell :: cells) =
      (start, cell) :: places (start + cell.size) cells :=
  rfl

@[simp]
theorem places_append (start : Nat) (left right : List Cell) :
    places start (left ++ right) =
      places start left ++ places (start + total left) right := by
  induction left generalizing start with
  | nil => simp
  | cons cell left induction =>
      simp only [List.cons_append, places_cons, induction, total_cons,
        Nat.add_assoc]

variable {start : Nat} {cells : List Cell}

/-- A cell at a place splits the row there. -/
theorem split_of_mem_places {place : Nat × Cell}
    (member : place ∈ places start cells) :
    ∃ left right, cells = left ++ place.2 :: right ∧
      place.1 = start + total left := by
  induction cells generalizing start with
  | nil => simp at member
  | cons cell cells induction =>
      rw [places_cons, List.mem_cons] at member
      rcases member with rfl | member
      · exact ⟨[], cells, rfl, rfl⟩
      · obtain ⟨left, right, rfl, same⟩ := induction member
        refine ⟨cell :: left, right, rfl, ?_⟩
        rw [same, total_cons, Nat.add_assoc]

theorem mem_places_split (left : List Cell) (cell : Cell)
    (right : List Cell) :
    (start + total left, cell) ∈ places start (left ++ cell :: right) := by
  simp

theorem mem_of_mem_places {place : Nat × Cell}
    (member : place ∈ places start cells) : place.2 ∈ cells := by
  obtain ⟨left, right, rfl, -⟩ := split_of_mem_places member
  simp

/-- The cells of a row lie in its interval. -/
theorem places_within {place : Nat × Cell}
    (member : place ∈ places start cells) :
    start ≤ place.1 ∧ place.1 + place.2.size ≤ start + total cells := by
  obtain ⟨left, right, rfl, same⟩ := split_of_mem_places member
  simp only [total_append, total_cons]
  omega

/-- Two places of a row are the same, or one ends before the other starts. -/
theorem places_apart {first second : Nat × Cell}
    (firstMember : first ∈ places start cells)
    (secondMember : second ∈ places start cells) :
    first = second ∨ first.1 + first.2.size ≤ second.1 ∨
      second.1 + second.2.size ≤ first.1 := by
  induction cells generalizing start with
  | nil => simp at firstMember
  | cons cell cells induction =>
      rw [places_cons, List.mem_cons] at firstMember secondMember
      rcases firstMember with rfl | firstLater <;>
        rcases secondMember with rfl | secondLater
      · exact .inl rfl
      · exact .inr (.inl (places_within secondLater).1)
      · exact .inr (.inr (places_within firstLater).1)
      · exact induction firstLater secondLater

/-! ## Free cells -/

/-- No two free cells touch. -/
def Separated (cells : List Cell) : Prop :=
  cells.IsChain fun first second => first.used ∨ second.used

theorem Separated.left {left right : List Cell}
    (separated : Separated (left ++ right)) : Separated left :=
  List.IsChain.left_of_append separated

theorem Separated.right {left right : List Cell}
    (separated : Separated (left ++ right)) : Separated right :=
  List.IsChain.right_of_append separated

/-- A used cell separates what stands on its two sides. -/
theorem separated_used {left right : List Cell} {size : Nat} :
    Separated (left ++ ⟨size, true⟩ :: right) ↔
      Separated left ∧ Separated right := by
  rw [Separated, List.isChain_append]
  constructor
  · rintro ⟨leftSeparated, rest, -⟩
    exact ⟨leftSeparated, List.IsChain.tail rest⟩
  · rintro ⟨leftSeparated, rightSeparated⟩
    refine ⟨leftSeparated, ?_, by simp⟩
    cases right with
    | nil => exact List.isChain_singleton _
    | cons next right => exact rightSeparated.cons_cons (.inl rfl)

/-- A free cell stands between used cells or ends of the row. -/
theorem separated_free {left right : List Cell} {size : Nat} :
    Separated (left ++ ⟨size, false⟩ :: right) ↔
      Separated left ∧ Separated right ∧
        (∀ cell ∈ left.getLast?, cell.used) ∧
          ∀ cell ∈ right.head?, cell.used := by
  rw [Separated, List.isChain_append, List.isChain_cons]
  simp [Separated]
  tauto

/-- A row without used cells is one cell. -/
theorem Separated.eq_singleton (separated : Separated cells)
    (nonempty : cells ≠ []) (free : ∀ cell ∈ cells, cell.used = false) :
    cells = [⟨total cells, false⟩] := by
  match cells with
  | [] => exact absurd rfl nonempty
  | [⟨size, used⟩] =>
      have isFree : used = false := free _ List.mem_cons_self
      simp [isFree]
  | first :: second :: rest =>
      have touching : first.used ∨ second.used :=
        (List.isChain_cons_cons.mp separated).1
      rcases touching with used | used
      · rw [free first (by simp)] at used
        cases used
      · rw [free second (by simp)] at used
        cases used

/-- The start of the first free cell, or the end of the row. -/
def firstFree (start : Nat) : List Cell → Nat
  | [] => start
  | cell :: cells =>
      if cell.used then firstFree (start + cell.size) cells else start

/-- The position is the start of a free cell or the end of the row. -/
def FreeOrEnd (start : Nat) (cells : List Cell) (position : Nat) : Prop :=
  position = start + total cells ∨
    ∃ cell, (position, cell) ∈ places start cells ∧ cell.used = false

/-- Such a position splits the row. -/
theorem FreeOrEnd.split {position : Nat}
    (freeOrEnd : FreeOrEnd start cells position) :
    ∃ left rest, cells = left ++ rest ∧ position = start + total left := by
  rcases freeOrEnd with atEnd | ⟨cell, member, -⟩
  · exact ⟨cells, [], by simp, atEnd⟩
  · obtain ⟨left, right, split, place⟩ := split_of_mem_places member
    exact ⟨left, cell :: right, split, place⟩

theorem firstFree_freeOrEnd (start : Nat) (cells : List Cell) :
    FreeOrEnd start cells (firstFree start cells) := by
  induction cells generalizing start with
  | nil => exact .inl rfl
  | cons cell cells induction =>
      rw [firstFree]
      split
      · rcases induction (start + cell.size) with same | ⟨found, member, free⟩
        · left
          rw [same, total_cons, Nat.add_assoc]
        · exact .inr ⟨found, List.mem_cons_of_mem _ member, free⟩
      · exact .inr ⟨cell, List.mem_cons_self, by simp_all⟩

theorem firstFree_le {place : Nat × Cell}
    (member : place ∈ places start cells) (free : place.2.used = false) :
    firstFree start cells ≤ place.1 := by
  induction cells generalizing start with
  | nil => simp at member
  | cons cell cells induction =>
      rw [places_cons, List.mem_cons] at member
      rw [firstFree]
      rcases member with rfl | member
      · have isFree : cell.used = false := free
        simp [isFree]
      · split
        · exact induction member
        · have within := places_within member
          omega

/-- A free cell hides what comes after it. -/
theorem firstFree_free (start : Nat) (left : List Cell) (size : Nat)
    (right : List Cell) :
    firstFree start (left ++ ⟨size, false⟩ :: right) =
      firstFree start left := by
  induction left generalizing start with
  | nil => simp [firstFree]
  | cons cell left induction =>
      rw [List.cons_append, firstFree, firstFree, induction]

theorem firstFree_le_total (start : Nat) (cells : List Cell) :
    firstFree start cells ≤ start + total cells := by
  induction cells generalizing start with
  | nil => rfl
  | cons cell cells induction =>
      rw [firstFree, total_cons]
      split
      · have later := induction (start + cell.size)
        omega
      · omega

/-- The first free cell of two rows, the first of which has no empty cell. -/
theorem firstFree_append (start : Nat) {left : List Cell}
    (solid : ∀ cell ∈ left, 0 < cell.size) (right : List Cell) :
    firstFree start (left ++ right) =
      if firstFree start left = start + total left then
        firstFree (start + total left) right
      else firstFree start left := by
  induction left generalizing start with
  | nil => simp [firstFree]
  | cons cell left induction =>
      have positive := solid cell List.mem_cons_self
      rw [List.cons_append, firstFree, firstFree, total_cons,
        ← Nat.add_assoc]
      split
      · exact induction (start + cell.size) fun other member =>
          solid other (List.mem_cons_of_mem cell member)
      · rw [if_neg (by omega)]

end InternetWavPlayer.Tiling
