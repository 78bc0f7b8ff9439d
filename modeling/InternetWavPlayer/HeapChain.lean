import InternetWavPlayer.Contract
import InternetWavPlayer.MemHeap
import InternetWavPlayer.Tiling

/-!
# The chain of headers

The headers of the system heap describe a row of cells.  This file states when
a memory holds the headers of a row, and follows the three edits of the
allocator through it: a block is split, two blocks become one, and a block
changes its flag.
-/

namespace InternetWavPlayer.MemHeap

open ByteMemory Tiling

/-! ## Reading back a header -/

@[simp]
theorem rtAssert_of {condition : Prop} [Decidable condition]
    (holds : condition) : rtAssert condition = .ok () :=
  if_pos holds

theorem sub32_eq {first second : Nat} (below : second ≤ first)
    (fits : first < 2 ^ 32) : sub32 first second = first - second := by
  rw [sub32]
  omega

section Fields

variable {memory : Memory} {mem other value : Nat}

theorem header_setMagic (fits : value < 2 ^ 16) :
    header (setMagic memory mem value) mem =
      { header memory mem with magic := value } := by
  simp only [header, setMagic, HeapMem.mk.injEq]
  exact ⟨load_store_eq (by simpa using fits),
    load_store_frame (by omega), load_store_frame (by omega),
    load_store_frame (by omega)⟩

theorem header_setUsed (fits : value < 2 ^ 16) :
    header (setUsed memory mem value) mem =
      { header memory mem with used := value } := by
  simp only [header, setUsed, HeapMem.mk.injEq]
  exact ⟨load_store_frame (by omega), load_store_eq (by simpa using fits),
    load_store_frame (by omega), load_store_frame (by omega)⟩

theorem header_setNext (fits : value < 2 ^ 32) :
    header (setNext memory mem value) mem =
      { header memory mem with next := value } := by
  simp only [header, setNext, HeapMem.mk.injEq]
  exact ⟨load_store_frame (by omega), load_store_frame (by omega),
    load_store_eq (by simpa using fits), load_store_frame (by omega)⟩

theorem header_setPrev (fits : value < 2 ^ 32) :
    header (setPrev memory mem value) mem =
      { header memory mem with prev := value } := by
  simp only [header, setPrev, HeapMem.mk.injEq]
  exact ⟨load_store_frame (by omega), load_store_frame (by omega),
    load_store_frame (by omega), load_store_eq (by simpa using fits)⟩

end Fields

/-! ## Frames -/

/-- The memories agree outside of an interval. -/
def Outside (low high : Nat) (first second : Memory) : Prop :=
  ∀ address, address < low ∨ high ≤ address →
    second address = first address

section Frames

variable {memory second third : Memory} {low high mem value : Nat}

theorem Outside.refl : Outside low high memory memory :=
  fun _ _ => rfl

theorem Outside.trans (before : Outside low high memory second)
    (after : Outside low high second third) :
    Outside low high memory third :=
  fun address outside =>
    (after address outside).trans (before address outside)

theorem Outside.widen {lower higher : Nat}
    (outside : Outside low high memory second)
    (below : lower ≤ low) (above : high ≤ higher) :
    Outside lower higher memory second :=
  fun address apart => outside address (by omega)

theorem outside_setMagic :
    Outside mem (mem + 12) memory (setMagic memory mem value) :=
  fun _ apart => store_frame 2 (by omega)

theorem outside_setUsed :
    Outside mem (mem + 12) memory (setUsed memory mem value) :=
  fun _ apart => store_frame 2 (by omega)

theorem outside_setNext :
    Outside mem (mem + 12) memory (setNext memory mem value) :=
  fun _ apart => store_frame 4 (by omega)

theorem outside_setPrev :
    Outside mem (mem + 12) memory (setPrev memory mem value) :=
  fun _ apart => store_frame 4 (by omega)

theorem Outside.header (outside : Outside low high memory second)
    (apart : mem + 12 ≤ low ∨ high ≤ mem) :
    header second mem = header memory mem := by
  simp only [MemHeap.header, HeapMem.mk.injEq]
  refine ⟨?_, ?_, ?_, ?_⟩ <;>
    exact load_congr _ fun place above below =>
      outside place (by omega)

end Frames

/-! ## Chains -/

def flag (used : Bool) : Nat :=
  if used then 1 else 0

/-- The headers of a row of cells from a position on. -/
def Chained (memory : Memory) : Nat → Nat → List Cell → Prop
  | _, _, [] => True
  | position, prev, cell :: cells =>
      header memory position =
          ⟨heapMagic, flag cell.used, position + cell.size, prev⟩ ∧
        Chained memory (position + cell.size) position cells

/-- The header before the end of a row. -/
def lastStart (position prev : Nat) : List Cell → Nat
  | [] => prev
  | cell :: cells => lastStart (position + cell.size) position cells

/-- The sizes of blocks are multiples of four with room for a header. -/
def Sized (cells : List Cell) : Prop :=
  ∀ cell ∈ cells, 16 ≤ cell.size ∧ cell.size % 4 = 0

section Sizes

variable {cells left right : List Cell} {cell : Cell}

theorem sized_append :
    Sized (left ++ right) ↔ Sized left ∧ Sized right :=
  List.forall_mem_append

theorem sized_cons :
    Sized (cell :: cells) ↔
      (16 ≤ cell.size ∧ cell.size % 4 = 0) ∧ Sized cells :=
  List.forall_mem_cons

theorem Sized.total (sized : Sized cells) : total cells % 4 = 0 := by
  induction cells with
  | nil => rfl
  | cons cell cells induction =>
      obtain ⟨⟨-, first⟩, rest⟩ := sized_cons.mp sized
      have aligned := induction rest
      rw [total_cons]
      omega

theorem Sized.length (sized : Sized cells) :
    16 * cells.length ≤ Tiling.total cells := by
  induction cells with
  | nil => simp
  | cons cell cells induction =>
      obtain ⟨⟨first, -⟩, rest⟩ := sized_cons.mp sized
      have longer := induction rest
      rw [total_cons, List.length_cons]
      omega

end Sizes

section Chains

variable {memory second : Memory} {position prev low high : Nat}
  {cells left right : List Cell}

theorem chained_append :
    Chained memory position prev (left ++ right) ↔
      Chained memory position prev left ∧
        Chained memory (position + total left)
          (lastStart position prev left) right := by
  induction left generalizing position prev with
  | nil => simp [Chained, lastStart]
  | cons cell left induction =>
      simp only [List.cons_append, Chained, induction, lastStart,
        total_cons, Nat.add_assoc, and_assoc]

theorem chained_split {cell : Cell} :
    Chained memory 0 0 (left ++ cell :: right) ↔
      Chained memory 0 0 left ∧
        header memory (total left) =
            ⟨heapMagic, flag cell.used, total left + cell.size,
              lastStart 0 0 left⟩ ∧
          Chained memory (total left + cell.size) (total left) right := by
  rw [chained_append, Chained, Nat.zero_add]

/-- A chain is kept by what happens outside of its row. -/
theorem Chained.frame (sized : Sized cells)
    (outside : Outside low high memory second)
    (apart : position + total cells ≤ low ∨ high ≤ position)
    (chained : Chained memory position prev cells) :
    Chained second position prev cells := by
  induction cells generalizing position prev with
  | nil => exact True.intro
  | cons cell cells induction =>
      obtain ⟨first, rest⟩ := chained
      obtain ⟨⟨room, -⟩, restSized⟩ := sized_cons.mp sized
      rw [total_cons] at apart
      refine ⟨?_, induction restSized (by omega) rest⟩
      rw [outside.header (by omega)]
      exact first

/-- The first header of a row may point back to another block. -/
theorem Chained.relink {before : Nat} (sized : Sized cells)
    (fits : before < 2 ^ 32)
    (chained : Chained memory position prev cells) :
    Chained (setPrev memory position before) position before cells := by
  cases cells with
  | nil => exact True.intro
  | cons cell cells =>
      obtain ⟨first, rest⟩ := chained
      obtain ⟨⟨room, -⟩, restSized⟩ := sized_cons.mp sized
      refine ⟨by rw [header_setPrev fits, first], ?_⟩
      exact rest.frame restSized outside_setPrev (by omega)

@[simp]
theorem lastStart_append_singleton (left : List Cell) (cell : Cell) :
    lastStart position prev (left ++ [cell]) = position + total left := by
  induction left generalizing position prev with
  | nil => rfl
  | cons first left induction =>
      rw [List.cons_append, lastStart, induction, total_cons, Nat.add_assoc]

end Chains

/-! ## A laid out heap -/

/-- The memory holds the headers of a row which fills the heap. -/
structure Laid (size : Nat) (memory : Memory) (cells : List Cell) :
    Prop where
  room : 12 ≤ size
  limit : size + 24 ≤ 2 ^ 32
  total : Tiling.total cells = size + 12
  sized : Sized cells
  chained : Chained memory 0 0 cells
  sentinel : ∃ prev, header memory (size + 12) =
    ⟨heapMagic, 1, size + 12, prev⟩

/-- Used blocks keep the bytes of their data. -/
def Spares (cells : List Cell) (memory second : Memory) : Prop :=
  ∀ place ∈ places 0 cells, place.2.used →
    ∀ address, place.1 + 12 ≤ address →
      address < place.1 + place.2.size → second address = memory address

section Data

variable {size mem : Nat} {memory second third : Memory} {cell : Cell}
  {cells left right : List Cell}

theorem Spares.refl : Spares cells memory memory :=
  fun _ _ _ _ _ _ => rfl

theorem Spares.trans (before : Spares cells memory second)
    (after : Spares cells second third) : Spares cells memory third :=
  fun place member used address above below =>
    (after place member used address above below).trans
      (before place member used address above below)

/-- Headers hold no data. -/
theorem data_apart (member : (mem, cell) ∈ places 0 cells)
    {place : Nat × Cell} (placeMember : place ∈ places 0 cells)
    {address : Nat} (above : place.1 + 12 ≤ address)
    (below : address < place.1 + place.2.size) :
    address < mem ∨ mem + 12 ≤ address := by
  rcases places_apart member placeMember with rfl | before | after
  · exact .inr above
  · dsimp only at before
    omega
  · dsimp only at after
    omega

theorem Outside.spares_header (member : (mem, cell) ∈ places 0 cells)
    (outside : Outside mem (mem + 12) memory second) :
    Spares cells memory second :=
  fun _ placeMember _ address above below =>
    outside address (data_apart member placeMember above below)

/-- Free blocks hold no data. -/
theorem Outside.spares_free (member : (mem, cell) ∈ places 0 cells)
    (free : cell.used = false)
    (outside : Outside mem (mem + cell.size) memory second) :
    Spares cells memory second := by
  intro place placeMember used address above below
  apply outside
  rcases places_apart member placeMember with rfl | before | after
  · rw [free] at used
    cases used
  · dsimp only at before
    omega
  · dsimp only at after
    omega

/-- The end of the heap holds no data. -/
theorem Outside.spares_end (outside : Outside mem (mem + 12) memory second)
    (beyond : Tiling.total cells ≤ mem) : Spares cells memory second := by
  intro place member used address above below
  have within := places_within member
  exact outside address (by omega)

/-- The header where a row goes on, or the end of the heap. -/
theorem Outside.spares_start (left right : List Cell)
    (starts : mem = Tiling.total left)
    (outside : Outside mem (mem + 12) memory second) :
    Spares (left ++ right) memory second := by
  subst starts
  cases right with
  | nil => exact outside.spares_end (by simp)
  | cons cell right =>
      have member : (Tiling.total left, cell) ∈
          places 0 (left ++ cell :: right) := by
        simp
      exact outside.spares_header member

namespace Laid

theorem header_at (laid : Laid size memory (left ++ cell :: right)) :
    header memory (Tiling.total left) =
      ⟨heapMagic, flag cell.used, Tiling.total left + cell.size,
        lastStart 0 0 left⟩ :=
  (chained_split.mp laid.chained).2.1

/-- The place of a cell is aligned and lies before the end. -/
theorem place_bounds (laid : Laid size memory (left ++ cell :: right)) :
    Tiling.total left % 4 = 0 ∧ 16 ≤ cell.size ∧ cell.size % 4 = 0 ∧
      Tiling.total left + cell.size + Tiling.total right = size + 12 := by
  obtain ⟨leftSized, rest⟩ := sized_append.mp laid.sized
  obtain ⟨⟨large, aligned⟩, -⟩ := sized_cons.mp rest
  have whole := laid.total
  rw [total_append, total_cons] at whole
  exact ⟨leftSized.total, large, aligned, by omega⟩

/-- A write to one block, and what the row has there afterwards. -/
theorem rewrite {left right : List Cell} {cell changed : Cell}
    {memory second : Memory}
    (laid : Laid size memory (left ++ cell :: right))
    (same : changed.size = cell.size)
    (outside : Outside (Tiling.total left)
      (Tiling.total left + cell.size) memory second)
    (written : header second (Tiling.total left) =
      ⟨heapMagic, flag changed.used, Tiling.total left + cell.size,
        lastStart 0 0 left⟩) :
    Laid size second (left ++ changed :: right) := by
  obtain ⟨leftSized, rest⟩ := sized_append.mp laid.sized
  obtain ⟨cellSized, rightSized⟩ := sized_cons.mp rest
  obtain ⟨leftChain, -, rightChain⟩ := chained_split.mp laid.chained
  obtain ⟨-, large, -, whole⟩ := laid.place_bounds
  obtain ⟨prev, sentinel⟩ := laid.sentinel
  refine ⟨laid.room, laid.limit, ?_, ?_, ?_, prev, ?_⟩
  · rw [total_append, total_cons, same]
    omega
  · rw [← same] at cellSized
    exact sized_append.mpr ⟨leftSized, sized_cons.mpr
      ⟨cellSized, rightSized⟩⟩
  · rw [chained_split, same]
    exact ⟨leftChain.frame leftSized outside (by omega), written,
      rightChain.frame rightSized outside (by omega)⟩
  · rw [outside.header (by omega)]
    exact sentinel

/-- A block changes its flag. -/
theorem setUsed {left right : List Cell} {cell : Cell} {memory : Memory}
    (laid : Laid size memory (left ++ cell :: right)) (used : Bool) :
    Laid size
      (MemHeap.setUsed memory (Tiling.total left) (flag used))
      (left ++ ⟨cell.size, used⟩ :: right) := by
  have large := laid.place_bounds.2.1
  refine laid.rewrite rfl (outside_setUsed.widen le_rfl (by omega)) ?_
  rw [header_setUsed (by cases used <;> decide), laid.header_at]

/-- The magic number is written once more. -/
theorem setMagic {left right : List Cell} {cell : Cell} {memory : Memory}
    (laid : Laid size memory (left ++ cell :: right)) :
    Laid size (MemHeap.setMagic memory (Tiling.total left) heapMagic)
      (left ++ cell :: right) := by
  have large := laid.place_bounds.2.1
  refine laid.rewrite rfl (outside_setMagic.widen le_rfl (by omega)) ?_
  rw [header_setMagic (by decide), laid.header_at]

/-- The data of a block is written. -/
theorem data {start : Nat} {cell : Cell} {cells : List Cell}
    {memory second : Memory} (laid : Laid size memory cells)
    (member : (start, cell) ∈ places 0 cells)
    (outside : Outside (start + 12) (start + cell.size) memory second) :
    Laid size second cells := by
  obtain ⟨left, right, rfl, place⟩ := split_of_mem_places member
  dsimp only at place
  rw [Nat.zero_add] at place
  subst place
  refine laid.rewrite rfl (outside.widen (Nat.le_add_right _ _) le_rfl) ?_
  rw [outside.header (.inl le_rfl)]
  exact laid.header_at

end Laid

end Data

end InternetWavPlayer.MemHeap
