import InternetWavPlayer.ByteMemory

/-!
# The system heap

The allocator of the kernel: `rt_system_heap_init`, `rt_malloc`, `rt_realloc`,
`rt_calloc` and `rt_free`.  Every block of the heap starts with a header that
holds a magic number, the used flag and the offsets of the next and of the
previous header; the headers live in the heap's own bytes.

Pointers are offsets from `heap_ptr`, and `RT_NULL` is `none`.  Reaching a
header outside of the heap, a failed assertion and a loop which does not end
are faults.
-/

namespace InternetWavPlayer.MemHeap

open ByteMemory

inductive Fault where
  | assertion
  | wild
  | endless
  | misuse
deriving DecidableEq, Repr

def rtAssert (condition : Prop) [Decidable condition] :
    Except Fault Unit :=
  if condition then .ok () else .error .assertion

def rtAlignSize : Nat := 4

def heapMagic : Nat := 0x1ea0

/-- The size of a header. -/
def sizeofStructMem : Nat := 12

def minSize : Nat := 12

def minSizeAligned : Nat := 12

/-- `RT_ALIGN(size, RT_ALIGN_SIZE)` on `rt_size_t`. -/
def rtAlign (size : Nat) : Nat :=
  (size + (rtAlignSize - 1)) % 2 ^ 32 / rtAlignSize * rtAlignSize

/-- The difference of two values of `rt_size_t`. -/
def sub32 (first second : Nat) : Nat :=
  (first + (2 ^ 32 - second)) % 2 ^ 32

/-! ## Headers -/

/-- `struct heap_mem` -/
structure HeapMem where
  magic : Nat
  used : Nat
  next : Nat
  prev : Nat
deriving DecidableEq, Repr

/-- The header at an offset. -/
def header (memory : Memory) (mem : Nat) : HeapMem where
  magic := load memory mem 2
  used := load memory (mem + 2) 2
  next := load memory (mem + 4) 4
  prev := load memory (mem + 8) 4

def setMagic (memory : Memory) (mem magic : Nat) : Memory :=
  store memory mem 2 magic

def setUsed (memory : Memory) (mem used : Nat) : Memory :=
  store memory (mem + 2) 2 used

def setNext (memory : Memory) (mem next : Nat) : Memory :=
  store memory (mem + 4) 4 next

def setPrev (memory : Memory) (mem prev : Nat) : Memory :=
  store memory (mem + 8) 4 prev

/-! ## The heap -/

structure SystemHeap where
  /-- the bytes from `heap_ptr` on -/
  memory : Memory
  memSizeAligned : Nat
  /-- meant to point to the lowest free block -/
  lfree : Nat
  usedMem : Nat
  maxMem : Nat

def SystemHeap.heapEnd (heap : SystemHeap) : Nat :=
  heap.memSizeAligned + sizeofStructMem

/-- `(struct heap_mem *)&heap_ptr[offset]`, for an offset which is read. -/
def SystemHeap.entry (heap : SystemHeap) (offset : Nat) :
    Except Fault Nat :=
  if offset % rtAlignSize = 0 ∧ offset ≤ heap.heapEnd then .ok offset
  else .error .wild

/-- `(struct heap_mem *)((rt_uint8_t *)rmem - SIZEOF_STRUCT_MEM)` -/
def SystemHeap.entryOf (heap : SystemHeap) (rmem : Nat) :
    Except Fault Nat :=
  if sizeofStructMem ≤ rmem then heap.entry (rmem - sizeofStructMem)
  else .error .wild

/--
The heap between two addresses, over memory of any content; `none` where the
addresses are too close to each other.
-/
def rtSystemHeapInit (memory : Memory) (beginAddr endAddr : Nat) :
    Option SystemHeap :=
  let begin_align := rtAlign beginAddr
  let end_align := endAddr / rtAlignSize * rtAlignSize
  if 2 * sizeofStructMem < end_align ∧
      begin_align ≤ end_align - 2 * sizeofStructMem then
    let memSizeAligned := end_align - begin_align - 2 * sizeofStructMem
    let heapEnd := memSizeAligned + sizeofStructMem
    let memory := setMagic memory 0 heapMagic
    let memory := setNext memory 0 heapEnd
    let memory := setPrev memory 0 0
    let memory := setUsed memory 0 0
    let memory := setMagic memory heapEnd heapMagic
    let memory := setUsed memory heapEnd 1
    let memory := setNext memory heapEnd heapEnd
    let memory := setPrev memory heapEnd heapEnd
    some { memory, memSizeAligned, lfree := 0, usedMem := 0, maxMem := 0 }
  else none

/-- `first` takes over the block `second` after it. -/
def absorb (heap : SystemHeap) (first second : Nat) :
    Except Fault SystemHeap := do
  let memory := setNext heap.memory first (header heap.memory second).next
  let after ← heap.entry (header memory second).next
  return { heap with memory := setPrev memory after first }

/-- The part of `plug_holes` under "plug hole forward". -/
def plugForward (heap : SystemHeap) (mem : Nat) :
    Except Fault SystemHeap := do
  let nmem ← heap.entry (header heap.memory mem).next
  if mem ≠ nmem ∧ (header heap.memory nmem).used = 0 ∧
      nmem ≠ heap.heapEnd then
    absorb
      { heap with lfree := if heap.lfree = nmem then mem else heap.lfree }
      mem nmem
  else .ok heap

/-- The part of `plug_holes` under "plug hole backward". -/
def plugBackward (heap : SystemHeap) (mem : Nat) :
    Except Fault SystemHeap := do
  let pmem ← heap.entry (header heap.memory mem).prev
  if pmem ≠ mem ∧ (header heap.memory pmem).used = 0 then
    absorb
      { heap with lfree := if heap.lfree = mem then pmem else heap.lfree }
      pmem mem
  else .ok heap

def plugHoles (heap : SystemHeap) (mem : Nat) : Except Fault SystemHeap := do
  rtAssert (mem < heap.heapEnd)
  rtAssert ((header heap.memory mem).used = 0)
  let heap ← plugForward heap mem
  plugBackward heap mem

/-! ## rt_malloc -/

/-- The loop which looks for a block that is large enough. -/
def search (heap : SystemHeap) (size : Nat) :
    Nat → Nat → Except Fault (Option Nat)
  | 0, _ => .error .endless
  | fuel + 1, ptr =>
      if ptr < sub32 heap.memSizeAligned size then do
        let mem ← heap.entry ptr
        if (header heap.memory mem).used = 0 ∧
            size ≤ sub32 (header heap.memory mem).next
              (ptr + sizeofStructMem) then
          return some mem
        else search heap size fuel (header heap.memory mem).next
      else .ok none

/-- Create `mem2` at `ptr2`, behind what `mem` keeps. -/
def createMem2 (heap : SystemHeap) (memory : Memory) (mem ptr2 : Nat) :
    Except Fault Memory := do
  let mem2 ← heap.entry ptr2
  let memory := setMagic memory mem2 heapMagic
  let memory := setUsed memory mem2 0
  let memory := setNext memory mem2 (header memory mem).next
  let memory := setPrev memory mem2 mem
  return setNext memory mem ptr2

/-- The block after `mem2`, unless it is the last one, points back to it. -/
def linkMem2 (heap : SystemHeap) (memory : Memory) (mem2 : Nat) :
    Except Fault Memory :=
  if (header memory mem2).next ≠
      heap.memSizeAligned + sizeofStructMem then do
    let after ← heap.entry (header memory mem2).next
    return setPrev memory after mem2
  else .ok memory

/-- Account for an allocation. -/
def SystemHeap.grow (heap : SystemHeap) (memory : Memory) (size : Nat) :
    SystemHeap :=
  { heap with
    memory
    usedMem := heap.usedMem + size
    maxMem :=
      if heap.maxMem < heap.usedMem + size then heap.usedMem + size
      else heap.maxMem }

/-- Use `mem`, either its first part or the whole of it. -/
def carve (heap : SystemHeap) (mem size : Nat) : Except Fault SystemHeap :=
  if size + sizeofStructMem + minSizeAligned ≤
      sub32 (header heap.memory mem).next (mem + sizeofStructMem) then do
    let ptr2 := mem + sizeofStructMem + size
    let memory ← createMem2 heap heap.memory mem ptr2
    let memory ← linkMem2 heap (setUsed memory mem 1) ptr2
    return heap.grow memory (size + sizeofStructMem)
  else
    let memory := setUsed heap.memory mem 1
    .ok (heap.grow memory (sub32 (header memory mem).next mem))

/-- The loop which moves `lfree` up to a free block. -/
def nextFree (heap : SystemHeap) : Nat → Nat → Except Fault Nat
  | 0, _ => .error .endless
  | fuel + 1, lfree => do
      let lfree ← heap.entry lfree
      if (header heap.memory lfree).used ≠ 0 ∧ lfree ≠ heap.heapEnd then
        nextFree heap fuel (header heap.memory lfree).next
      else .ok lfree

/-- An upper bound on the passes of both loops. -/
def SystemHeap.fuel (heap : SystemHeap) : Nat :=
  heap.memSizeAligned + 1

def updateLfree (heap : SystemHeap) (mem : Nat) :
    Except Fault SystemHeap :=
  if mem = heap.lfree then do
    let lfree ← nextFree heap heap.fuel heap.lfree
    rtAssert (lfree = heap.heapEnd ∨ (header heap.memory lfree).used = 0)
    return { heap with lfree }
  else .ok heap

/-- Allocate in the block which the search found. -/
def allocate (heap : SystemHeap) (size mem : Nat) :
    Except Fault (Option Nat × SystemHeap) := do
  let heap ← carve heap mem size
  let heap := { heap with memory := setMagic heap.memory mem heapMagic }
  let heap ← updateLfree heap mem
  rtAssert (mem + sizeofStructMem + size ≤ heap.heapEnd)
  rtAssert ((mem + sizeofStructMem) % rtAlignSize = 0)
  rtAssert (mem % rtAlignSize = 0)
  return (some (mem + sizeofStructMem), heap)

/-- What follows the search. -/
def allocated (heap : SystemHeap) (size : Nat) :
    Option Nat → Except Fault (Option Nat × SystemHeap)
  | none => .ok (none, heap)
  | some mem => allocate heap size mem

/-- The bytes that a request takes. -/
def raiseSize (size : Nat) : Nat :=
  if size < minSizeAligned then minSizeAligned else size

def rtMalloc (heap : SystemHeap) (size : Nat) :
    Except Fault (Option Nat × SystemHeap) :=
  if size = 0 then .ok (none, heap)
  else if heap.memSizeAligned < rtAlign size then .ok (none, heap)
  else do
    let found ← search heap (raiseSize (rtAlign size)) heap.fuel heap.lfree
    allocated heap (raiseSize (rtAlign size)) found

/-! ## rt_free -/

/-- `rt_free` of a pointer which is not `RT_NULL`. -/
def release (heap : SystemHeap) (rmem : Nat) : Except Fault SystemHeap := do
  rtAssert (rmem % rtAlignSize = 0)
  rtAssert (rmem < heap.heapEnd)
  let mem ← heap.entryOf rmem
  rtAssert ((header heap.memory mem).used ≠ 0)
  rtAssert ((header heap.memory mem).magic = heapMagic)
  let memory := setMagic (setUsed heap.memory mem 0) mem heapMagic
  plugHoles
    { heap with
      memory
      lfree := if mem < heap.lfree then mem else heap.lfree
      usedMem := sub32 heap.usedMem (sub32 (header memory mem).next mem) }
    mem

def rtFree (heap : SystemHeap) : Option Nat → Except Fault SystemHeap
  | none => .ok heap
  | some rmem => release heap rmem

/-! ## rt_realloc and rt_calloc -/

/-- The branch of `rt_realloc` under "split memory block". -/
def shrink (heap : SystemHeap) (mem size newsize : Nat) :
    Except Fault SystemHeap := do
  let ptr2 := mem + sizeofStructMem + newsize
  let memory ← createMem2 heap heap.memory mem ptr2
  let memory ← linkMem2 heap memory ptr2
  plugHoles
    { heap with
      memory
      usedMem := sub32 heap.usedMem (sub32 size newsize) }
    ptr2

/-- The end of `rt_realloc`, with the block that `rt_malloc` returned. -/
def moved (heap : SystemHeap) (rmem size newsize : Nat) :
    Option Nat → Except Fault (Option Nat × SystemHeap)
  | none => .ok (none, heap)
  | some nmem => do
      let memory := copy heap.memory nmem rmem
        (if size < newsize then size else newsize)
      let heap ← rtFree { heap with memory } (some rmem)
      return (some nmem, heap)

/-- `rt_realloc` of a pointer which is not `RT_NULL`, with an aligned size. -/
def resize (heap : SystemHeap) (rmem newsize : Nat) :
    Except Fault (Option Nat × SystemHeap) :=
  if heap.heapEnd ≤ rmem then .ok (some rmem, heap)
  else do
    let mem ← heap.entryOf rmem
    let size :=
      sub32 (sub32 (header heap.memory mem).next mem) sizeofStructMem
    if size = newsize then .ok (some rmem, heap)
    else if newsize + sizeofStructMem + minSize < size then do
      let heap ← shrink heap mem size newsize
      return (some rmem, heap)
    else do
      let (nmem, heap) ← rtMalloc heap newsize
      moved heap rmem size newsize nmem

def rtRealloc (heap : SystemHeap) (rmem : Option Nat) (newsize : Nat) :
    Except Fault (Option Nat × SystemHeap) :=
  if heap.memSizeAligned < rtAlign newsize then .ok (none, heap)
  else if rtAlign newsize = 0 then do
    let heap ← rtFree heap rmem
    return (none, heap)
  else
    match rmem with
    | none => rtMalloc heap (rtAlign newsize)
    | some rmem => resize heap rmem (rtAlign newsize)

/-- The end of `rt_calloc`, with the block that `rt_malloc` returned. -/
def cleared (heap : SystemHeap) (size : Nat) : Option Nat → SystemHeap
  | none => heap
  | some p => { heap with memory := fill heap.memory p 0 size }

def rtCalloc (heap : SystemHeap) (count size : Nat) :
    Except Fault (Option Nat × SystemHeap) := do
  let (p, heap) ← rtMalloc heap (count * size % 2 ^ 32)
  return (p, cleared heap (count * size % 2 ^ 32) p)

end InternetWavPlayer.MemHeap
