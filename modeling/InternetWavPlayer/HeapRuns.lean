import InternetWavPlayer.HeapResizing
import InternetWavPlayer.Run

/-!
# Runs of a program on the system heap

A program asks for blocks, stores bytes in them, resizes them and gives them
back, in any order.  It only names blocks that it holds, and it stores within
what it asked for.  Next to the heap stands what the program knows: its blocks
with the bytes that it stored.
-/

namespace InternetWavPlayer.MemHeap

open ByteMemory Tiling Contract

/-! ## The program's view -/

/-- A block that the program holds, with the bytes that it knows of. -/
structure Block where
  pointer : Nat
  bytes : List (Option UInt8)
deriving DecidableEq

structure World where
  heap : SystemHeap
  blocks : List Block

inductive Call where
  | malloc (size : Nat)
  | calloc (count size : Nat)
  | realloc (rmem : Option Nat) (size : Nat)
  | free (rmem : Option Nat)
  | store (pointer index : Nat) (byte : UInt8)
deriving DecidableEq

/-- The call is one that a program may make. -/
def require (condition : Prop) [Decidable condition] : Except Fault Unit :=
  if condition then .ok () else .error .misuse

/-- Above this the alignment of a request wraps around. -/
def requestMax : Nat := 2 ^ 32 - 4

def World.find (world : World) (pointer : Nat) : Except Fault Block :=
  match world.blocks.find? fun block => block.pointer = pointer with
  | some block => .ok block
  | none => .error .misuse

/-- The blocks other than the one at a pointer. -/
def World.others (world : World) (pointer : Nat) : List Block :=
  world.blocks.filter fun block => block.pointer ≠ pointer

/-- The program takes what a call returns. -/
def receive (heap : SystemHeap) (blocks : List Block)
    (bytes : List (Option UInt8)) : Option Nat → World
  | none => ⟨heap, blocks⟩
  | some pointer => ⟨heap, ⟨pointer, bytes⟩ :: blocks⟩

/-- Bytes beyond those known are not known. -/
def resizeBytes (size : Nat) (bytes : List (Option UInt8)) :
    List (Option UInt8) :=
  bytes.take size ++ List.replicate (size - bytes.length) none

/-- What the program holds once a block has been resized. -/
def replaceBlock (world : World) (block : Block) (size : Nat)
    (heap : SystemHeap) : Option Nat → World
  | none =>
      ⟨heap, if size = 0 then world.others block.pointer else world.blocks⟩
  | some pointer =>
      ⟨heap, ⟨pointer, resizeBytes size block.bytes⟩ ::
        world.others block.pointer⟩

def Block.store (index : Nat) (byte : UInt8) (block : Block) : Block :=
  { block with bytes := block.bytes.set index (some byte) }

def World.step : Call → World → Except Fault World
  | .malloc size, world => do
      require (size ≤ requestMax)
      let (pointer, heap) ← rtMalloc world.heap size
      return receive heap world.blocks (List.replicate size none) pointer
  | .calloc count size, world => do
      require (count * size % 2 ^ 32 ≤ requestMax)
      let (pointer, heap) ← rtCalloc world.heap count size
      return receive heap world.blocks
        (List.replicate (count * size % 2 ^ 32) (some 0)) pointer
  | .realloc none size, world => do
      require (size ≤ requestMax)
      let (pointer, heap) ← rtRealloc world.heap none size
      return receive heap world.blocks (List.replicate size none) pointer
  | .realloc (some rmem) size, world => do
      require (size ≤ requestMax)
      let block ← world.find rmem
      let (pointer, heap) ← rtRealloc world.heap (some rmem) size
      return replaceBlock world block size heap pointer
  | .free none, world => do
      let heap ← rtFree world.heap none
      return { world with heap }
  | .free (some rmem), world => do
      let block ← world.find rmem
      let heap ← rtFree world.heap (some rmem)
      return ⟨heap, world.others block.pointer⟩
  | .store pointer index byte, world => do
      let block ← world.find pointer
      require (index < block.bytes.length)
      let memory := write world.heap.memory (pointer + index) byte
      return ⟨{ world.heap with memory },
        block.store index byte :: world.others pointer⟩

/-! ## The invariant -/

/-- The block lies in the data of a used block of the heap. -/
structure Block.In (block : Block) (heap : SystemHeap)
    (place : Nat × Cell) : Prop where
  pointer : block.pointer = place.1 + 12
  used : place.2.used
  room : block.bytes.length + 12 ≤ place.2.size
  known : ∀ index byte, block.bytes[index]? = some (some byte) →
    heap.memory (block.pointer + index) = byte

/-- The blocks of the program are the used blocks of the heap. -/
structure World.Sound (world : World) (cells : List Cell) : Prop where
  represents : Represents world.heap cells
  held : ∀ block ∈ world.blocks, ∃ place ∈ places 0 cells,
    block.In world.heap place
  all : ∀ place ∈ places 0 cells, place.2.used →
    ∃ block ∈ world.blocks, block.pointer = place.1 + 12
  distinct : (world.blocks.map Block.pointer).Nodup
  idle : world.blocks = [] → world.heap.lfree = 0

section Steps

variable {world : World} {heap : SystemHeap} {cells changed : List Cell}
  {block fresh : Block} {place : Nat × Cell}

/-- A block is kept by a call that spares it. -/
theorem Block.In.spared {gone added : List (Nat × Cell)}
    (within : block.In world.heap place) (member : place ∈ places 0 cells)
    (changes : Changes world.heap cells heap changed gone added)
    (kept : place ∉ gone) :
    place ∈ places 0 changed ∧ block.In heap place := by
  refine ⟨(changes.used place within.used).mpr (.inl ⟨member, kept⟩),
    within.pointer, within.used, within.room, ?_⟩
  intro index byte known
  obtain ⟨inside, -⟩ := List.getElem?_eq_some_iff.mp known
  have room := within.room
  have pointer := within.pointer
  rw [← within.known index byte known]
  exact changes.spares place member within.used kept _ (by omega)
    (by omega)

theorem World.find_spec (pointer : Nat) :
    world.find pointer = .error .misuse ∨
      ∃ block ∈ world.blocks, block.pointer = pointer ∧
        world.find pointer = .ok block := by
  rw [World.find]
  cases found : world.blocks.find? fun block => block.pointer = pointer with
  | none => exact .inl rfl
  | some block =>
      refine .inr ⟨block, List.mem_of_find?_eq_some found, ?_, rfl⟩
      simpa using List.find?_some found

theorem World.mem_others {pointer : Nat} :
    block ∈ world.others pointer ↔
      block ∈ world.blocks ∧ block.pointer ≠ pointer := by
  simp [World.others]

/-- A call that only adds a block. -/
theorem World.Sound.receive (sound : world.Sound cells)
    (changes : Changes world.heap cells heap changed [] [place])
    (within : fresh.In heap place) :
    World.Sound ⟨heap, fresh :: world.blocks⟩ changed where
  represents := changes.represents
  held := by
    intro block member
    rcases List.mem_cons.mp member with rfl | member
    · exact ⟨place, changes.fresh_mem within.used, within⟩
    · obtain ⟨old, oldMember, oldWithin⟩ := sound.held block member
      have spared := oldWithin.spared oldMember changes List.not_mem_nil
      exact ⟨old, spared.1, spared.2⟩
  all := by
    intro other member used
    rcases (changes.used other used).mp member with ⟨old, -⟩ | new
    · obtain ⟨block, blockMember, pointer⟩ := sound.all other old used
      exact ⟨block, List.mem_cons_of_mem _ blockMember, pointer⟩
    · rw [List.mem_singleton.mp new]
      exact ⟨fresh, List.mem_cons_self, within.pointer⟩
  distinct := by
    rw [List.map_cons, List.nodup_cons]
    refine ⟨?_, sound.distinct⟩
    intro member
    obtain ⟨block, blockMember, same⟩ := List.mem_map.mp member
    obtain ⟨old, oldMember, oldWithin⟩ := sound.held block blockMember
    apply changes.apart place List.mem_cons_self old oldMember
      oldWithin.used List.not_mem_nil
    have first := oldWithin.pointer
    have second := within.pointer
    omega
  idle := nofun

section Gone

variable {gone : Nat × Cell} {added : List (Nat × Cell)}

/-- The other blocks are kept by a call about one block. -/
theorem World.Sound.keep (sound : world.Sound cells)
    (within : block.In world.heap gone)
    (changes : Changes world.heap cells heap changed [gone] added) :
    ∀ other ∈ world.others block.pointer, ∃ place ∈ places 0 changed,
      place ∈ places 0 cells ∧ place ∉ [gone] ∧ other.In heap place := by
  intro other member
  obtain ⟨otherMember, different⟩ := World.mem_others.mp member
  obtain ⟨place, placeMember, otherWithin⟩ := sound.held other otherMember
  have kept : place ∉ [gone] := by
    intro same
    obtain rfl := List.mem_singleton.mp same
    exact different (otherWithin.pointer.trans within.pointer.symm)
  have spared := otherWithin.spared placeMember changes kept
  exact ⟨place, spared.1, placeMember, kept, spared.2⟩

/-- A used block that is kept is one of the others. -/
theorem World.Sound.other_of_used (sound : world.Sound cells)
    (within : block.In world.heap gone) (goneMember : gone ∈ places 0 cells)
    (member : place ∈ places 0 cells) (used : place.2.used)
    (kept : place ∉ [gone]) :
    ∃ other ∈ world.others block.pointer,
      other.pointer = place.1 + 12 := by
  obtain ⟨other, otherMember, pointer⟩ := sound.all place member used
  refine ⟨other, World.mem_others.mpr ⟨otherMember, ?_⟩, pointer⟩
  have starts := sound.represents.laid.starts_ne member goneMember
    (List.ne_of_not_mem_cons kept)
  rw [pointer, within.pointer]
  omega

theorem World.Sound.distinct_others (sound : world.Sound cells)
    (pointer : Nat) :
    ((world.others pointer).map Block.pointer).Nodup :=
  sound.distinct.sublist (List.filter_sublist.map _)

/-- A heap without used blocks is one free block. -/
theorem Represents.eq_singleton (represents : Represents heap cells)
    (free : ∀ place ∈ places 0 cells, place.2.used = false) :
    cells = [⟨heap.memSizeAligned + 12, false⟩] := by
  have whole := represents.laid.total
  rw [← whole]
  apply represents.separated.eq_singleton
  · rintro rfl
    cases whole
  · intro cell member
    obtain ⟨left, right, rfl⟩ := List.append_of_mem member
    exact free _ (mem_places_split left cell right)

/-- A call that takes a block back. -/
theorem World.Sound.release (sound : world.Sound cells)
    (within : block.In world.heap gone) (member : gone ∈ places 0 cells)
    (changes : Changes world.heap cells heap changed [gone] [])
    (lower : heap.lfree ≤ gone.1) :
    World.Sound ⟨heap, world.others block.pointer⟩ changed := by
  have all : ∀ place ∈ places 0 changed, place.2.used →
      ∃ other ∈ world.others block.pointer,
        other.pointer = place.1 + 12 := by
    intro place placeMember used
    rcases (changes.used place used).mp placeMember with ⟨old, kept⟩ | new
    · exact sound.other_of_used within member old used kept
    · exact absurd new List.not_mem_nil
  refine ⟨changes.represents, ?_, all, sound.distinct_others _, ?_⟩
  · intro other otherMember
    obtain ⟨place, placeMember, -, -, otherWithin⟩ :=
      sound.keep within changes other otherMember
    exact ⟨place, placeMember, otherWithin⟩
  · intro none_left
    dsimp only at none_left
    have free : ∀ place ∈ places 0 changed, place.2.used = false := by
      intro place placeMember
      by_contra used
      rw [Bool.not_eq_false] at used
      obtain ⟨other, otherMember, -⟩ := all place placeMember used
      rw [none_left] at otherMember
      cases otherMember
    have single := changes.represents.eq_singleton free
    have inside := places_within member
    have whole := sound.represents.laid.total
    have large := (sound.represents.laid.sized _
      (mem_of_mem_places member)).1
    rcases changes.represents.lfree with atEnd | ⟨cell, cellMember, -⟩
    · have total := changes.represents.laid.total
      rw [changes.size] at total
      omega
    · rw [single] at cellMember
      simp only [places_cons, places_nil, List.mem_singleton,
        Prod.mk.injEq] at cellMember
      exact cellMember.1

/-- A call that replaces a block. -/
theorem World.Sound.replace (sound : world.Sound cells)
    (within : block.In world.heap gone) (member : gone ∈ places 0 cells)
    (changes : Changes world.heap cells heap changed [gone] [place])
    (freshWithin : fresh.In heap place) :
    World.Sound ⟨heap, fresh :: world.others block.pointer⟩ changed where
  represents := changes.represents
  held := by
    intro other otherMember
    rcases List.mem_cons.mp otherMember with rfl | otherMember
    · exact ⟨place, (changes.used place freshWithin.used).mpr
        (.inr List.mem_cons_self), freshWithin⟩
    · obtain ⟨old, oldMember, -, -, oldWithin⟩ :=
        sound.keep within changes other otherMember
      exact ⟨old, oldMember, oldWithin⟩
  all := by
    intro other otherMember used
    rcases (changes.used other used).mp otherMember with ⟨old, kept⟩ | new
    · obtain ⟨found, foundMember, pointer⟩ :=
        sound.other_of_used within member old used kept
      exact ⟨found, List.mem_cons_of_mem _ foundMember, pointer⟩
    · rw [List.mem_singleton.mp new]
      exact ⟨fresh, List.mem_cons_self, freshWithin.pointer⟩
  distinct := by
    rw [List.map_cons, List.nodup_cons]
    refine ⟨?_, sound.distinct_others _⟩
    intro freshMember
    obtain ⟨other, otherMember, same⟩ := List.mem_map.mp freshMember
    obtain ⟨old, -, oldMember, kept, oldWithin⟩ :=
      sound.keep within changes other otherMember
    apply changes.apart place List.mem_cons_self old oldMember
      oldWithin.used kept
    have first := oldWithin.pointer
    have second := freshWithin.pointer
    omega
  idle := nofun

/-- A store into a block. -/
theorem World.Sound.store (sound : world.Sound cells)
    (member : block ∈ world.blocks) {index : Nat} (byte : UInt8)
    (inside : index < block.bytes.length) :
    World.Sound
      ⟨{ world.heap with
          memory := write world.heap.memory (block.pointer + index) byte },
        block.store index byte :: world.others block.pointer⟩ cells := by
  obtain ⟨gone, goneMember, within⟩ := sound.held block member
  have pointer := within.pointer
  have room := within.room
  have outside : Outside (gone.1 + 12) (gone.1 + gone.2.size)
      world.heap.memory
      (write world.heap.memory (block.pointer + index) byte) := by
    intro address apart
    exact write_other _ _ (by omega)
  have same := Changes.same sound.represents goneMember
  have changes : Changes world.heap cells
      { world.heap with
        memory := write world.heap.memory (block.pointer + index) byte }
      cells [gone] [gone] :=
    ⟨sound.represents.write goneMember outside, rfl, same.used, same.apart,
      fun place placeMember _ other address above below =>
        outside.spares_other goneMember placeMember
          (List.ne_of_not_mem_cons other) above below⟩
  apply sound.replace within goneMember changes
  refine ⟨pointer, within.used, ?_, ?_⟩
  · rw [Block.store, List.length_set]
    exact room
  · intro position value known
    rw [Block.store, List.getElem?_set] at known
    dsimp only [Block.store]
    by_cases here : index = position
    · rw [if_pos here, if_pos inside] at known
      rw [here, write_same]
      exact Option.some.inj (Option.some.inj known)
    · rw [if_neg here] at known
      rw [write_other _ _ (by omega)]
      exact within.known position value known

end Gone

end Steps

/-! ## Steps and runs -/

/--
A step is refused as the program's mistake, or it keeps the invariant.  Where
`first` holds, it also keeps the free pointer at the first free block.
-/
def Proceeds (heap : SystemHeap) (cells : List Cell) (first : Prop)
    (step : Except Fault World) : Prop :=
  step = .error .misuse ∨
    Returns step fun after =>
      after.heap.memSizeAligned = heap.memSizeAligned ∧
        ∃ changed, after.Sound changed ∧
          (first → heap.lfree = firstFree 0 cells →
            after.heap.lfree = firstFree 0 changed)

/-- The call may cut a block in place. -/
def Call.resizes : Call → Bool
  | .realloc (some _) _ => true
  | _ => false

section Proceeding

variable {world : World} {cells : List Cell} {first : Prop}

theorem Proceeds.mono {heap : SystemHeap} {weaker : Prop}
    {step : Except Fault World} (proceeds : Proceeds heap cells first step)
    (implies : weaker → first) : Proceeds heap cells weaker step := by
  rcases proceeds with mistake | returns
  · exact .inl mistake
  · refine .inr (returns.mono ?_)
    rintro after ⟨size, changed, sound, lowest⟩
    exact ⟨size, changed, sound, fun holds => lowest (implies holds)⟩

theorem proceeds_require {condition : Prop} [Decidable condition]
    {heap : SystemHeap} {next : Unit → Except Fault World}
    (proceeds : condition → Proceeds heap cells first (next ())) :
    Proceeds heap cells first (require condition >>= next) := by
  rw [require]
  split
  · exact proceeds ‹_›
  · exact .inl rfl

theorem proceeds_find {heap : SystemHeap} {pointer : Nat}
    {next : Block → Except Fault World}
    (proceeds : ∀ block ∈ world.blocks, block.pointer = pointer →
      Proceeds heap cells first (next block)) :
    Proceeds heap cells first (world.find pointer >>= next) := by
  rcases world.find_spec pointer with mistake | ⟨block, member, same, found⟩
  · rw [mistake]
    exact .inl rfl
  · rw [found]
    exact proceeds block member same

/-- A block of which nothing is known. -/
theorem unknown_in {heap : SystemHeap} {start kept size : Nat}
    (wide : size + 12 ≤ kept) :
    Block.In ⟨start + 12, List.replicate size none⟩ heap
      (start, ⟨kept, true⟩) := by
  refine ⟨rfl, rfl, ?_, ?_⟩
  · rw [List.length_replicate]
    exact wide
  · intro index byte known
    rw [List.getElem?_replicate] at known
    split at known <;> cases known

theorem malloc_proceeds (sound : world.Sound cells) {asked size : Nat}
    (enough : size ≤ raiseSize (rtAlign asked)) :
    Proceeds world.heap cells first (do
      let (pointer, heap) ← rtMalloc world.heap asked
      return receive heap world.blocks (List.replicate size none)
        pointer) := by
  right
  apply (rtMalloc_spec sound.represents asked).bind
  rintro ⟨pointer, heap⟩ ⟨-, refused, allocated⟩
  apply returns_pure
  dsimp only at refused allocated ⊢
  cases pointer with
  | none =>
      rw [refused rfl]
      exact ⟨rfl, cells, sound, fun _ => id⟩
  | some pointer =>
      obtain ⟨start, kept, changed, rfl, wide, changes, lowest⟩ :=
        allocated pointer rfl
      exact ⟨changes.size, changed,
        sound.receive changes (unknown_in (by omega)), fun _ => lowest⟩

theorem calloc_proceeds (sound : world.Sound cells) {count size : Nat}
    (fits : count * size % 2 ^ 32 ≤ requestMax) :
    Proceeds world.heap cells first (do
      let (pointer, heap) ← rtCalloc world.heap count size
      return receive heap world.blocks
        (List.replicate (count * size % 2 ^ 32) (some 0)) pointer) := by
  right
  apply (rtCalloc_spec sound.represents count size fits).bind
  rintro ⟨pointer, heap⟩ ⟨refused, allocated⟩
  apply returns_pure
  dsimp only at refused allocated ⊢
  cases pointer with
  | none =>
      rw [refused rfl]
      exact ⟨rfl, cells, sound, fun _ => id⟩
  | some pointer =>
      obtain ⟨start, kept, changed, rfl, wide, changes, lowest, clear⟩ :=
        allocated pointer rfl
      refine ⟨changes.size, changed, sound.receive changes
        ⟨rfl, rfl, ?_, ?_⟩, fun _ => lowest⟩
      · rw [List.length_replicate]
        exact wide
      · intro index byte known
        rw [List.getElem?_replicate] at known
        split at known
        · cases known
          exact clear index ‹_›
        · cases known

/-- The bytes of a block that has been resized. -/
theorem resizeBytes_known {size index : Nat} {byte : UInt8}
    {bytes : List (Option UInt8)}
    (known : (resizeBytes size bytes)[index]? = some (some byte)) :
    index < size ∧ bytes[index]? = some (some byte) := by
  rw [resizeBytes, List.getElem?_append] at known
  split at known
  · rename_i inside
    rw [List.length_take] at inside
    rw [List.getElem?_take_of_lt (by omega)] at known
    exact ⟨by omega, known⟩
  · rw [List.getElem?_replicate] at known
    split at known <;> cases known

theorem length_resizeBytes (size : Nat) (bytes : List (Option UInt8)) :
    (resizeBytes size bytes).length = size := by
  rw [resizeBytes, List.length_append, List.length_take,
    List.length_replicate]
  omega

theorem realloc_proceeds (sound : world.Sound cells) {block : Block}
    (member : block ∈ world.blocks) {size : Nat}
    (fits : size ≤ requestMax) :
    Proceeds world.heap cells False (do
      let (pointer, heap) ← rtRealloc world.heap (some block.pointer) size
      return replaceBlock world block size heap pointer) := by
  right
  obtain ⟨⟨start, length, used⟩, goneMember, within⟩ :=
    sound.held block member
  obtain rfl : used = true := within.used
  have room := within.room
  have pointer := within.pointer
  have aligned := le_rtAlign fits
  dsimp only at room pointer
  rw [pointer]
  apply (rtRealloc_spec sound.represents goneMember size).bind
  rintro _ (positive | ⟨nothing, changes, lower⟩ |
    ⟨positive, wide, changes, data⟩)
  · apply returns_pure
    have asked : size ≠ 0 := by
      rintro rfl
      exact positive rfl
    refine ⟨rfl, cells, ?_, nofun⟩
    rw [replaceBlock, if_neg asked]
    exact sound
  · apply returns_pure
    have none_asked : size = 0 := by omega
    refine ⟨changes.size, ?_⟩
    rw [replaceBlock, if_pos none_asked]
    exact ⟨_, sound.release within goneMember changes lower, nofun⟩
  · apply returns_pure
    refine ⟨changes.size, _,
      sound.replace within goneMember changes ⟨rfl, rfl, ?_, ?_⟩, nofun⟩
    · rw [length_resizeBytes]
      dsimp only
      omega
    · intro index byte known
      obtain ⟨below, old⟩ := resizeBytes_known known
      obtain ⟨inside, -⟩ := List.getElem?_eq_some_iff.mp old
      have same := within.known index byte old
      rw [pointer] at same
      rw [← same]
      exact data index (by omega) (by omega)

/-- One call of the program. -/
theorem step_proceeds (sound : world.Sound cells) (call : Call) :
    Proceeds world.heap cells (call.resizes = false)
      (World.step call world) := by
  cases call with
  | malloc size =>
      apply proceeds_require
      intro fits
      apply malloc_proceeds sound
      rw [raiseSize_eq]
      exact (le_rtAlign fits).trans (Nat.le_max_right _ _)
  | calloc count size =>
      apply proceeds_require
      exact calloc_proceeds sound
  | realloc rmem size =>
      cases rmem with
      | none =>
          apply proceeds_require
          intro fits
          rw [rtRealloc_none]
          apply malloc_proceeds sound
          have enough := le_rtAlign fits
          rw [rtAlign_rtAlign, raiseSize_eq]
          omega
      | some rmem =>
          apply proceeds_require
          intro fits
          apply proceeds_find
          rintro block member rfl
          exact (realloc_proceeds sound member fits).mono nofun
  | free rmem =>
      cases rmem with
      | none => exact .inr ⟨world, rfl, rfl, cells, sound, fun _ => id⟩
      | some rmem =>
          apply proceeds_find
          rintro block member rfl
          obtain ⟨⟨start, length, used⟩, goneMember, within⟩ :=
            sound.held block member
          obtain rfl : used = true := within.used
          right
          rw [within.pointer]
          apply (release_spec sound.represents goneMember).bind
          rintro heap ⟨changed, changes, lower, lowest⟩
          apply returns_pure
          have released := sound.release within goneMember changes lower
          rw [within.pointer] at released
          exact ⟨changes.size, changed, released, fun _ => lowest⟩
  | store pointer index byte =>
      apply proceeds_find
      rintro block member rfl
      apply proceeds_require
      intro inside
      exact .inr (returns_pure
        ⟨rfl, cells, sound.store member byte inside, fun _ => id⟩)

/-- Every run of the program. -/
theorem run_proceeds (calls : List Call) (sound : world.Sound cells) :
    Proceeds world.heap cells (∀ call ∈ calls, call.resizes = false)
      (Run.run World.step calls world) := by
  induction calls generalizing world cells with
  | nil => exact .inr ⟨world, rfl, rfl, cells, sound, fun _ => id⟩
  | cons call calls induction =>
      rw [Run.run_cons]
      rcases step_proceeds sound call with mistake |
        ⟨after, stepped, size, changed, afterSound, lowest⟩
      · rw [mistake]
        exact .inl rfl
      · rw [stepped]
        rcases induction afterSound with mistake |
          ⟨last, ran, lastSize, final, lastSound, lastLowest⟩
        · exact .inl mistake
        · refine .inr ⟨last, ran, lastSize.trans size, final, lastSound, ?_⟩
          intro none_resizes start
          apply lastLowest fun other member =>
            none_resizes other (List.mem_cons_of_mem call member)
          exact lowest (none_resizes call List.mem_cons_self) start

end Proceeding

/-! ## From the start of the system -/

section Boot

variable {memory : Memory} {beginAddr endAddr : Nat} {heap : SystemHeap}

/-- The header at the end of the heap, over what is there before it. -/
theorem outside_end {first : Memory} {heapEnd : Nat} :
    Outside heapEnd (heapEnd + 12) first
      (setPrev (setNext (setUsed (setMagic first heapEnd heapMagic)
        heapEnd 1) heapEnd heapEnd) heapEnd heapEnd) :=
  ((outside_setMagic.trans outside_setUsed).trans outside_setNext).trans
    outside_setPrev

/-- The two headers which are there at the start. -/
theorem init_laid {size : Nat} (large : 12 ≤ size)
    (limit : size + 24 ≤ 2 ^ 32) (aligned : size % 4 = 0) :
    Laid size
      (setPrev (setNext (setUsed (setMagic
        (setUsed (setPrev (setNext (setMagic memory 0 heapMagic) 0
          (size + 12)) 0 0) 0 0)
        (size + 12) heapMagic) (size + 12) 1) (size + 12) (size + 12))
        (size + 12) (size + 12))
      [⟨size + 12, false⟩] := by
  refine ⟨large, limit, by simp, ?_, ⟨?_, True.intro⟩, size + 12, ?_⟩
  · intro cell member
    obtain rfl := List.mem_singleton.mp member
    dsimp only
    omega
  · rw [outside_end.header (by omega), header_setUsed (by decide),
      header_setPrev (by decide), header_setNext (by omega),
      header_setMagic (by decide), Nat.zero_add]
    rfl
  · rw [header_setPrev (by omega), header_setNext (by omega),
      header_setUsed (by decide), header_setMagic (by decide)]

/-- The heap that the system starts with is one free block. -/
theorem init_represents
    (booted : rtSystemHeapInit memory beginAddr endAddr = some heap)
    (address : endAddr < 2 ^ 32) (large : 12 ≤ heap.memSizeAligned) :
    Represents heap [⟨heap.memSizeAligned + 12, false⟩] ∧
      heap.lfree = 0 := by
  rw [rtSystemHeapInit] at booted
  dsimp only at booted
  split at booted
  · rename_i fits
    have beginAligned := rtAlign_mod beginAddr
    simp only [rtAlignSize, sizeofStructMem] at booted fits
    generalize rtAlign beginAddr = begin_align at *
    obtain rfl := Option.some.inj booted
    dsimp only at large ⊢
    generalize sized : endAddr / 4 * 4 - begin_align - 2 * 12 = size at *
    have limit : size + 24 ≤ 2 ^ 32 := by omega
    have aligned : size % 4 = 0 := by omega
    refine ⟨⟨⟨init_laid large limit aligned, ?_, rfl⟩, ?_⟩, rfl⟩
    · exact .inr ⟨_, List.mem_cons_self, rfl⟩
    · exact List.isChain_singleton _
  · cases booted

/-- A program that holds nothing yet. -/
theorem boot_sound
    (booted : rtSystemHeapInit memory beginAddr endAddr = some heap)
    (address : endAddr < 2 ^ 32) (large : 12 ≤ heap.memSizeAligned) :
    World.Sound ⟨heap, []⟩ [⟨heap.memSizeAligned + 12, false⟩] := by
  obtain ⟨represents, lfree⟩ := init_represents booted address large
  refine ⟨represents, nofun, ?_, List.nodup_nil, fun _ => lfree⟩
  intro place member used
  simp only [places_cons, places_nil, List.mem_singleton] at member
  rw [member] at used
  cases used

end Boot

/-! ## What a program may rely on -/

/--
The blocks are aligned, lie in the heap with at least a header between them,
and hold the bytes that were stored in them.
-/
structure World.Intact (world : World) : Prop where
  apart : world.blocks.Pairwise fun first second =>
    first.pointer + first.bytes.length + 12 ≤ second.pointer ∨
      second.pointer + second.bytes.length + 12 ≤ first.pointer
  inside : ∀ block ∈ world.blocks, block.pointer % rtAlignSize = 0 ∧
    sizeofStructMem ≤ block.pointer ∧
      block.pointer + block.bytes.length ≤ world.heap.heapEnd
  known : ∀ block ∈ world.blocks, ∀ index byte,
    block.bytes[index]? = some (some byte) →
      world.heap.memory (block.pointer + index) = byte

section Reliance

variable {world : World} {cells : List Cell}

theorem World.Sound.intact (sound : world.Sound cells) : world.Intact where
  apart := by
    have distinct : world.blocks.Pairwise fun first second =>
        first.pointer ≠ second.pointer :=
      List.pairwise_map.mp sound.distinct
    apply distinct.imp_of_mem
    intro first second firstMember secondMember different
    obtain ⟨place, placeMember, within⟩ := sound.held first firstMember
    obtain ⟨other, otherMember, otherWithin⟩ :=
      sound.held second secondMember
    have firstPointer := within.pointer
    have secondPointer := otherWithin.pointer
    have firstRoom := within.room
    have secondRoom := otherWithin.room
    rcases places_apart placeMember otherMember with same | before | after
    · rw [same] at firstPointer
      exact absurd (firstPointer.trans secondPointer.symm) different
    · omega
    · omega
  inside := by
    intro block member
    obtain ⟨place, placeMember, within⟩ := sound.held block member
    obtain ⟨left, right, rfl, start⟩ := split_of_mem_places placeMember
    obtain ⟨aligned, -, -, whole⟩ := sound.represents.laid.place_bounds
    have pointer := within.pointer
    have room := within.room
    dsimp only [rtAlignSize, sizeofStructMem, SystemHeap.heapEnd]
    omega
  known := by
    intro block member
    obtain ⟨place, -, within⟩ := sound.held block member
    exact within.known

end Reliance

section Serving

variable {heap : SystemHeap} {cells : List Cell}

/-- Which requests a heap grants that is one free block. -/
theorem served_whole (lfree : heap.lfree = 0) (size : Nat) :
    served heap [⟨heap.memSizeAligned + 12, false⟩] size =
      if 0 < size ∧
          max minSize (rtAlign size) < heap.memSizeAligned then
        some (0, ⟨heap.memSizeAligned + 12, false⟩)
      else none := by
  rw [served, raiseSize_eq, lfree, minSize]
  split
  · rename_i refused
    rw [if_neg (by omega)]
  · rename_i tried
    rw [places_cons, places_nil, List.find?_cons, List.find?_nil]
    split
    · rename_i suits
      simp only [Suits, Bool.and_eq_true, decide_eq_true_eq] at suits
      rw [if_pos (by omega)]
    · rename_i unsuited
      rw [if_neg]
      rintro ⟨positive, fits⟩
      rw [Bool.eq_false_iff] at unsuited
      apply unsuited
      simp only [Suits, Bool.and_eq_true, decide_eq_true_eq, Bool.not_false,
        and_true]
      omega

/-- A free block that is large enough and starts early enough. -/
def Fits (heap : SystemHeap) (asked : Nat) (place : Nat × Cell) : Bool :=
  !place.2.used && decide (asked + 12 ≤ place.2.size) &&
    decide (place.1 + asked < heap.memSizeAligned)

/-- With the free pointer at the first free block, no block is missed. -/
theorem served_of_lowest (represents : Represents heap cells)
    (lowest : heap.lfree = firstFree 0 cells) {size : Nat}
    (positive : 0 < size) :
    served heap cells size =
      (places 0 cells).find? (Fits heap (max 12 (rtAlign size))) := by
  have whole := represents.laid.total
  rw [served, raiseSize_eq]
  split
  · rename_i refused
    symm
    rw [List.find?_eq_none]
    intro place member
    simp only [Fits, Bool.and_eq_true, decide_eq_true_eq, not_and]
    omega
  · rename_i tried
    apply List.find?_congr
    intro place member
    rw [Bool.eq_iff_iff]
    simp only [Suits, Fits, Bool.and_eq_true, decide_eq_true_eq,
      Bool.not_eq_true']
    constructor
    · rintro ⟨⟨⟨-, early⟩, free⟩, enough⟩
      exact ⟨⟨free, enough⟩, by omega⟩
    · rintro ⟨⟨free, enough⟩, early⟩
      have first := firstFree_le member free
      exact ⟨⟨⟨by omega, by omega⟩, free⟩, enough⟩

end Serving

section Results

variable {memory : Memory} {beginAddr endAddr : Nat} {heap : SystemHeap}
  {world : World}

/-- A heap with room for a hundred bytes. -/
def smallHeap : SystemHeap :=
  (rtSystemHeapInit (fun _ => 0) 0 124).get rfl

theorem smallHeap_booted :
    rtSystemHeapInit (fun _ => 0) 0 124 = some smallHeap :=
  rfl

/--
Whatever a program does with its blocks, no call fails an assertion, leaves the
heap or runs on without an end, and the blocks stay intact.
-/
theorem blocks_intact
    (booted : rtSystemHeapInit memory beginAddr endAddr = some heap)
    (address : endAddr < 2 ^ 32) (large : 12 ≤ heap.memSizeAligned)
    (calls : List Call) :
    Run.run World.step calls ⟨heap, []⟩ = .error .misuse ∨
      ∃ world, Run.run World.step calls ⟨heap, []⟩ = .ok world ∧
        world.Intact := by
  rcases run_proceeds calls (boot_sound booted address large) with
    mistake | ⟨world, ran, -, cells, sound, -⟩
  · exact .inl mistake
  · exact .inr ⟨world, ran, sound.intact⟩

theorem blocks_intact_moved :
    ∃ world,
      Run.run World.step
        [.malloc 10, .malloc 20, .store 12 3 7, .realloc (some 12) 20]
        ⟨smallHeap, []⟩ = .ok world ∧ world.Intact := by
  refine (blocks_intact smallHeap_booted (by decide) (by decide)
    _).resolve_left ?_
  intro mistake
  have proceeded : (Run.run World.step
      [.malloc 10, .malloc 20, .store 12 3 7, .realloc (some 12) 20]
      ⟨smallHeap, []⟩).isOk = true := by
    decide +kernel
  rw [mistake] at proceeded
  cases proceeded

/--
Once every block has been given back, the heap is as good as new: nothing is
accounted for, and a request is granted unless it takes the whole heap.
-/
theorem all_given_back
    (booted : rtSystemHeapInit memory beginAddr endAddr = some heap)
    (address : endAddr < 2 ^ 32) (large : 12 ≤ heap.memSizeAligned)
    {calls : List Call}
    (ran : Run.run World.step calls ⟨heap, []⟩ = .ok world)
    (given_back : world.blocks = []) (size : Nat) :
    world.heap.usedMem = 0 ∧
      ∃ after, rtMalloc world.heap size =
        .ok (if 0 < size ∧
            max minSize (rtAlign size) < heap.memSizeAligned then
          some sizeofStructMem else none, after) := by
  rcases run_proceeds calls (boot_sound booted address large) with
    mistake | ⟨_, same, sizeSame, cells, sound, -⟩
  · rw [mistake] at ran
    cases ran
  obtain rfl := Except.ok.inj (ran.symm.trans same)
  have free : ∀ place ∈ places 0 cells, place.2.used = false := by
    intro place member
    by_contra used
    rw [Bool.not_eq_false] at used
    obtain ⟨block, blockMember, -⟩ := sound.all place member used
    rw [given_back] at blockMember
    cases blockMember
  have represents := sound.represents
  have lfree := sound.idle given_back
  obtain rfl := represents.eq_singleton free
  dsimp only at sizeSame
  refine ⟨represents.usedMem, ?_⟩
  obtain ⟨⟨pointer, after⟩, called, granted, -⟩ :=
    rtMalloc_spec represents size
  refine ⟨after, called.trans ?_⟩
  dsimp only at granted
  rw [granted, served_whole lfree, sizeSame]
  split <;> rfl

theorem all_given_back_freed :
    ∃ world,
      Run.run World.step
          [.malloc 10, .malloc 60, .realloc (some 36) 8, .free (some 12),
            .free (some 36)]
          ⟨smallHeap, []⟩ = .ok world ∧
        world.heap.usedMem = 0 ∧
          ∃ after, rtMalloc world.heap 96 = .ok (some 12, after) := by
  obtain ⟨world, ran, given_back⟩ := Run.toOption_map_eq_some_iff.mp
    (by decide +kernel :
      (Run.run World.step
        [.malloc 10, .malloc 60, .realloc (some 36) 8, .free (some 12),
          .free (some 36)]
        ⟨smallHeap, []⟩).toOption.map World.blocks = some [])
  exact ⟨world, ran, all_given_back smallHeap_booted (by decide) (by decide)
    ran given_back 96⟩

/--
As long as no block is cut in place, a request is served from the first block
which is free, large enough and not too close to the end, and refused only
when there is none.
-/
theorem first_fit
    (booted : rtSystemHeapInit memory beginAddr endAddr = some heap)
    (address : endAddr < 2 ^ 32) (large : 12 ≤ heap.memSizeAligned)
    {calls : List Call}
    (none_resized : ∀ call ∈ calls, call.resizes = false)
    (ran : Run.run World.step calls ⟨heap, []⟩ = .ok world) :
    ∃ cells, Represents world.heap cells ∧
      world.heap.lfree = firstFree 0 cells ∧
      ∀ size, 0 < size → ∃ after, rtMalloc world.heap size =
        .ok (((places 0 cells).find?
          (Fits world.heap (max minSize (rtAlign size)))).map
            (fun place => place.1 + sizeofStructMem), after) := by
  have sound := boot_sound booted address large
  have boot_lowest : heap.lfree =
      firstFree 0 [⟨heap.memSizeAligned + 12, false⟩] :=
    sound.idle rfl
  rcases run_proceeds calls sound with
    mistake | ⟨_, same, -, cells, worldSound, lowest⟩
  · rw [mistake] at ran
    cases ran
  obtain rfl := Except.ok.inj (ran.symm.trans same)
  have free := lowest none_resized boot_lowest
  refine ⟨cells, worldSound.represents, free, ?_⟩
  intro size positive
  obtain ⟨⟨pointer, after⟩, called, granted, -⟩ :=
    rtMalloc_spec worldSound.represents size
  refine ⟨after, called.trans ?_⟩
  dsimp only at granted
  rw [granted, served_of_lowest worldSound.represents free positive]
  rfl

theorem first_fit_reused :
    ∃ world,
      Run.run World.step
          [.malloc 10, .malloc 20, .malloc 12, .free (some 12)]
          ⟨smallHeap, []⟩ = .ok world ∧
        ∃ cells, Represents world.heap cells ∧
          world.heap.lfree = firstFree 0 cells ∧
          ∃ after, rtMalloc world.heap 12 =
            .ok (((places 0 cells).find? (Fits world.heap 12)).map
              (fun place => place.1 + sizeofStructMem), after) := by
  obtain ⟨world, ran, -⟩ := Run.toOption_map_eq_some_iff.mp
    (by decide +kernel :
      (Run.run World.step
        [.malloc 10, .malloc 20, .malloc 12, .free (some 12)]
        ⟨smallHeap, []⟩).toOption.map (fun world => world.heap.lfree) = some 0)
  obtain ⟨cells, represents, lowest, served⟩ :=
    first_fit smallHeap_booted (by decide) (by decide) (by decide) ran
  exact ⟨world, ran, cells, represents, lowest, served 12 (by decide)⟩

end Results

end InternetWavPlayer.MemHeap
