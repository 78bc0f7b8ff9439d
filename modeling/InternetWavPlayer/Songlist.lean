import Mathlib.Data.List.TakeWhile
import InternetWavPlayer.Display

/-!
# The playlist statics and the heap blocks behind them

`songlist`, `item_num` and `songlist_num` are three independent statics.  The
array and the 30-byte names it points to are heap blocks; a block is named by
a number, and the heap keeps the set of live ones.  Every element access and
every read of a name goes through a function which faults when C gives the
access no meaning.
-/

namespace InternetWavPlayer.Songlist

open InternetWavPlayer.Display

/-- The accesses without a meaning that end a run. -/
inductive Fault where
  /-- `songlist[k]` through a null pointer or outside the array allocated. -/
  | songlistAccess (allocated : Option Nat) (index : Int)
  /-- A text is read or written through a null pointer. -/
  | nullPointer
  /-- A block is freed which is not live. -/
  | doubleFree (block : Nat)
  /-- A block is read which is not live. -/
  | useAfterFree (block : Nat)
  /-- A webclient session is used or closed after it was closed. -/
  | closedSession
  /-- The handler of a page without one is called. -/
  | nullHandle (menu : Nat)
deriving DecidableEq, Repr

/-! ## Texts -/

/--
A C string: the memory from its first character on, and the position of the
first NUL in it.
-/
structure CString where
  mem : Nat → UInt8
  length : Nat
  terminated : mem length = 0
  nonzero : ∀ index < length, mem index ≠ 0

/-- The characters before the NUL. -/
def CString.text (string : CString) : List UInt8 :=
  (List.range string.length).map string.mem

/-- A string literal. -/
def CString.ofList (text : List UInt8)
    (solid : ∀ character ∈ text, character ≠ 0) : CString where
  mem index := text.getD index 0
  length := text.length
  terminated := by simp
  nonzero index inside := by
    rw [List.getD_eq_getElem?_getD, List.getElem?_eq_getElem inside]
    exact solid _ (List.getElem_mem inside)

theorem solid_of_all {text : List UInt8}
    (all : text.all (fun character => character != 0) = true) :
    ∀ character ∈ text, character ≠ 0 :=
  fun character member => by
    simpa using List.all_eq_true.mp all character member

/-- `rt_memcpy` of the first `count` bytes into a fresh block. -/
def rtMemcpy (string : CString) (count : Nat) : List UInt8 :=
  (List.range count).map string.mem

/--
The text of a block: its bytes up to the first NUL.  A block without a NUL
contributes all its bytes; what a reader finds past the block is not part of
the model.
-/
def blockText (bytes : List UInt8) : List UInt8 :=
  bytes.takeWhile (· != 0)

/-- Copying a string into a block keeps its text, cut to the block's size. -/
theorem blockText_rtMemcpy (string : CString) (count : Nat) :
    blockText (rtMemcpy string count) = string.text.take count := by
  by_cases short : string.length < count
  · obtain ⟨extra, rfl⟩ : ∃ extra, count = string.length + (extra + 1) :=
      ⟨count - string.length - 1, by omega⟩
    have split : rtMemcpy string (string.length + (extra + 1)) =
        string.text ++ 0 ::
          (List.range extra).map fun index =>
            string.mem (string.length + (index + 1)) := by
      rw [rtMemcpy, List.range_add, List.map_append, List.map_map,
        List.range_succ_eq_map, List.map_cons, List.map_map]
      simp only [Function.comp_def, Nat.add_zero, string.terminated]
      rfl
    have solid : ∀ byte ∈ string.text, (byte != 0) = true := by
      intro byte member
      obtain ⟨index, inside, rfl⟩ := List.mem_map.mp member
      simpa using string.nonzero index (List.mem_range.mp inside)
    have whole : string.text.take (string.length + (extra + 1)) =
        string.text := by
      apply List.take_of_length_le
      simp [CString.text]
    rw [whole, blockText, split, List.takeWhile_append_of_pos solid]
    simp
  · have solid : ∀ byte ∈ rtMemcpy string count, (byte != 0) = true := by
      intro byte member
      obtain ⟨index, inside, rfl⟩ := List.mem_map.mp member
      simpa using string.nonzero index
        (by have := List.mem_range.mp inside; omega)
    rw [blockText, List.takeWhile_eq_self_iff.mpr solid, rtMemcpy,
      CString.text, ← List.map_take, List.take_range,
      Nat.min_eq_left (by omega)]

/-! ## The heap -/

/-- The live blocks, and a number no block has had yet. -/
structure Heap where
  live : Finset Nat
  next : Nat
deriving DecidableEq

/-- `rt_malloc`, when it succeeds: a fresh block. -/
def rtMalloc (heap : Heap) : Nat × Heap :=
  (heap.next, ⟨insert heap.next heap.live, heap.next + 1⟩)

/-- `rt_free`. -/
def rtFree (block : Nat) (heap : Heap) : Except Fault Heap :=
  if block ∈ heap.live then
    .ok { heap with live := heap.live.erase block }
  else
    .error (.doubleFree block)

/-- One saved name: its block and the 30 bytes in it. -/
structure Song where
  block : Nat
  bytes : List UInt8
deriving DecidableEq, Repr

/-- The array of pointers; an entry is `none` when it is null or not yet set. -/
structure SongArray where
  block : Nat
  entries : List (Option Song)
deriving DecidableEq, Repr

/-- `songlist`, `item_num`, `songlist_num`, and the heap they live in. -/
structure Playlist where
  songlist : Option SongArray
  itemNum : Int
  songlistNum : Int
  heap : Heap
deriving DecidableEq

/-- The statics before the first fetch. -/
def Playlist.initial : Playlist where
  songlist := none
  itemNum := 0
  songlistNum := 0
  heap := ⟨∅, 0⟩

/-- The number of elements allocated in the array `songlist` points to. -/
def Playlist.allocated (playlist : Playlist) : Option Nat :=
  playlist.songlist.map fun array => array.entries.length

/-- The element access `songlist[index]`, as an address. -/
def songlistElement (playlist : Playlist) (index : Int) :
    Except Fault (SongArray × Nat) :=
  match playlist.songlist with
  | none => .error (.songlistAccess none index)
  | some array =>
      if array.block ∉ playlist.heap.live then
        .error (.useAfterFree array.block)
      else if 0 ≤ index ∧ index < array.entries.length then
        .ok (array, index.toNat)
      else
        .error (.songlistAccess (some array.entries.length) index)

/-- The pointer read by `songlist[index]`. -/
def songlistRead (playlist : Playlist) (index : Int) :
    Except Fault (Option Song) := do
  let (array, position) ← songlistElement playlist index
  return (array.entries.getD position none)

/-- The pointer written by `songlist[index] = ...`. -/
def songlistWrite (playlist : Playlist) (index : Int)
    (entry : Option Song) : Except Fault Playlist := do
  let (array, position) ← songlistElement playlist index
  return { playlist with
    songlist := some
      { array with entries := array.entries.set position entry } }

/-- The text of `songlist[index]`, read as a string. -/
def songText (playlist : Playlist) (index : Int) :
    Except Fault (List UInt8) := do
  match ← songlistRead playlist index with
  | none => throw .nullPointer
  | some song =>
      if song.block ∈ playlist.heap.live then
        return blockText song.bytes
      else
        throw (.useAfterFree song.block)

end InternetWavPlayer.Songlist
