import InternetWavPlayer.HeapCalls

/-!
# Resizing and clearing blocks

`rt_realloc` cuts a block in place, or moves it: a block is allocated, the data
copied and the old block freed.  `rt_calloc` clears what it allocates.  Both
build on the calls before them.
-/

namespace InternetWavPlayer.MemHeap

open ByteMemory Tiling Contract

variable {heap after last : SystemHeap} {cells changed final : List Cell}

/-! ## Changes in a row -/

/-- The data of a block is written between two calls. -/
theorem Represents.write {memory : Memory} {start : Nat} {cell : Cell}
    (represents : Represents heap cells)
    (member : (start, cell) ∈ places 0 cells)
    (outside : Outside (start + 12) (start + cell.size) heap.memory
      memory) :
    Represents { heap with memory } cells :=
  ⟨⟨represents.laid.data member outside, represents.lfree,
    represents.usedMem⟩, represents.separated⟩

/-- Writing to a block spares the data of the others. -/
theorem Outside.spares_other {memory second : Memory} {start : Nat}
    {cell : Cell} (member : (start, cell) ∈ places 0 cells)
    (outside : Outside (start + 12) (start + cell.size) memory second)
    {place : Nat × Cell} (placeMember : place ∈ places 0 cells)
    (other : place ≠ (start, cell)) {address : Nat}
    (above : place.1 + 12 ≤ address)
    (below : address < place.1 + place.2.size) :
    second address = memory address := by
  apply outside
  rcases places_apart placeMember member with same | before | beyond
  · exact absurd same other
  · dsimp only at before
    omega
  · dsimp only at beyond
    omega

section Fresh

variable {fresh : Nat × Cell}

theorem Changes.fresh_mem
    (changes : Changes heap cells after changed [] [fresh])
    (used : fresh.2.used) : fresh ∈ places 0 changed :=
  (changes.used fresh used).mpr (.inr List.mem_cons_self)

/-- A new block is none of those which were used before. -/
theorem Changes.fresh_ne
    (changes : Changes heap cells after changed [] [fresh])
    {place : Nat × Cell} (member : place ∈ places 0 cells)
    (used : place.2.used) : place ≠ fresh := by
  rintro rfl
  exact changes.apart place List.mem_cons_self place member used
    List.not_mem_nil rfl

/-- The new block is filled. -/
theorem Changes.write {memory : Memory}
    (changes : Changes heap cells after changed [] [fresh])
    (used : fresh.2.used)
    (outside : Outside (fresh.1 + 12) (fresh.1 + fresh.2.size)
      after.memory memory) :
    Changes heap cells { after with memory } changed [] [fresh] where
  represents := changes.represents.write (changes.fresh_mem used) outside
  size := changes.size
  used := changes.used
  apart := changes.apart
  spares := by
    intro place member isUsed kept address above below
    rw [← changes.spares place member isUsed kept address above below]
    have still : place ∈ places 0 changed :=
      (changes.used place isUsed).mpr (.inl ⟨member, List.not_mem_nil⟩)
    exact outside.spares_other (changes.fresh_mem used) still
      (changes.fresh_ne member isUsed) above below

/-- An allocation followed by the release of an older block. -/
theorem Changes.release {gone : Nat × Cell}
    (first : Changes heap cells after changed [] [fresh])
    (second : Changes after changed last final [gone] [])
    (member : gone ∈ places 0 cells) (used : gone.2.used) :
    Changes heap cells last final [gone] [fresh] where
  represents := second.represents
  size := second.size.trans first.size
  used := by
    intro place isUsed
    have different := first.fresh_ne member used
    rw [second.used place isUsed, first.used place isUsed]
    simp only [List.mem_singleton, List.not_mem_nil, or_false,
      not_false_eq_true, and_true]
    constructor
    · rintro ⟨old | rfl, kept⟩
      · exact .inl ⟨old, kept⟩
      · exact .inr rfl
    · rintro (⟨old, kept⟩ | rfl)
      · exact ⟨.inl old, kept⟩
      · exact ⟨.inr rfl, different.symm⟩
  apart := fun place placeMember old oldMember isUsed _ =>
    first.apart place placeMember old oldMember isUsed List.not_mem_nil
  spares := by
    intro place placeMember isUsed kept address above below
    have still : place ∈ places 0 changed :=
      (first.used place isUsed).mpr
        (.inl ⟨placeMember, List.not_mem_nil⟩)
    exact (second.spares place still isUsed kept address above below).trans
      (first.spares place placeMember isUsed List.not_mem_nil address
        above below)

end Fresh

/-- Two blocks do not start at one place. -/
theorem Laid.starts_ne {size : Nat} {memory : Memory}
    (laid : Laid size memory cells) {first second : Nat × Cell}
    (firstMember : first ∈ places 0 cells)
    (secondMember : second ∈ places 0 cells) (other : first ≠ second) :
    first.1 ≠ second.1 := by
  have firstLarge := (laid.sized _ (mem_of_mem_places firstMember)).1
  have secondLarge := (laid.sized _ (mem_of_mem_places secondMember)).1
  rcases places_apart firstMember secondMember with same | before | after
  · exact absurd same other
  · omega
  · omega

/-- Nothing changes when a block is kept as it is. -/
theorem Changes.same (represents : Represents heap cells)
    {place : Nat × Cell} (member : place ∈ places 0 cells) :
    Changes heap cells heap cells [place] [place] where
  represents := represents
  size := rfl
  used := by
    intro other _
    simp only [List.mem_singleton]
    constructor
    · intro otherMember
      by_cases same : other = place
      · exact .inr same
      · exact .inl ⟨otherMember, same⟩
    · rintro (⟨otherMember, -⟩ | rfl)
      · exact otherMember
      · exact member
  apart := by
    intro fresh freshMember old oldMember _ kept
    obtain rfl := List.mem_singleton.mp freshMember
    exact represents.laid.starts_ne oldMember member
      (List.ne_of_not_mem_cons kept)
  spares := fun _ _ _ _ _ _ _ => rfl

/-! ## Cutting a block in place -/

section Shrink

variable {start length newsize : Nat}

/-- What is used once the end of a block is free. -/
theorem used_shrunk {left right : List Cell} {part : Nat}
    (sized : Sized (left ++ ⟨length, true⟩ :: right))
    (fits : part ≤ length) (place : Nat × Cell) (used : place.2.used) :
    place ∈ places 0
        (left ++ ⟨part, true⟩ :: ⟨length - part, false⟩ :: right) ↔
      place ∈ places 0 (left ++ ⟨length, true⟩ :: right) ∧
          place ∉ [(total left, (⟨length, true⟩ : Cell))] ∨
        place ∈ [(total left, (⟨part, true⟩ : Cell))] := by
  rw [← used_freed sized used]
  simp only [places_append, places_cons, List.mem_append, List.mem_cons,
    List.not_mem_nil, or_false, Nat.zero_add, Nat.add_assoc,
    Nat.add_sub_cancel' fits]
  constructor
  · rintro (member | same | rfl | member)
    · exact .inl (.inl member)
    · exact .inr same
    · cases used
    · exact .inl (.inr (.inr member))
  · rintro ((member | rfl | member) | same)
    · exact .inl member
    · cases used
    · exact .inr (.inr (.inr member))
    · exact .inr (.inl same)

/-- The free pointer is not affected by the cut. -/
theorem freeOrEnd_shrunk {left right : List Cell} {part lfree : Nat}
    (fits : part ≤ length)
    (held : FreeOrEnd 0 (left ++ ⟨length, true⟩ :: right) lfree) :
    FreeOrEnd 0
      (left ++ ⟨part, true⟩ :: ⟨length - part, false⟩ :: right) lfree := by
  rcases held with atEnd | ⟨cell, member, free⟩
  · left
    rw [atEnd]
    simp only [total_append, total_cons]
    omega
  · right
    refine ⟨cell, ?_, free⟩
    simp only [places_append, places_cons, List.mem_append, List.mem_cons,
      Prod.mk.injEq, Nat.zero_add, Nat.add_assoc,
      Nat.add_sub_cancel' fits] at member ⊢
    rcases member with member | ⟨-, rfl⟩ | member
    · exact .inl member
    · cases free
    · exact .inr (.inr (.inr member))

theorem shrink_spec (represents : Represents heap cells)
    (member : (start, (⟨length, true⟩ : Cell)) ∈ places 0 cells)
    (aligned : newsize % 4 = 0) (positive : 0 < newsize)
    (fits : newsize + 12 + 12 < length - 12) :
    Returns (shrink heap start (length - 12) newsize) fun after =>
      ∃ changed,
        Changes heap cells after changed [(start, ⟨length, true⟩)]
            [(start, ⟨newsize + 12, true⟩)] ∧
          ∀ address, start + 12 ≤ address →
            address < start + 12 + newsize →
              after.memory address = heap.memory address := by
  obtain ⟨left, right, rfl, place⟩ := split_of_mem_places member
  dsimp only at place
  rw [Nat.zero_add] at place
  subst place
  dsimp only at represents member
  have laid := represents.laid
  have limit := laid.limit
  obtain ⟨leftAligned, large, lengthAligned, whole⟩ := laid.place_bounds
  obtain ⟨leftSeparated, rightSeparated⟩ :=
    separated_used.mp represents.separated
  dsimp only at large whole lengthAligned
  have second : total left + sizeofStructMem + newsize =
      total left + (newsize + 12) := by
    dsimp only [sizeofStructMem]
    omega
  rw [shrink, second]
  apply (createMem2_spec laid
    (by omega : 16 ≤ newsize + 12 ∧ (newsize + 12) % 4 = 0)
    (by omega)).bind
  rintro created ⟨cut, createdOutside⟩
  apply (linkMem2_spec cut).bind
  rintro linked ⟨linkedLaid, linkedOutside⟩
  have account : sub32 heap.usedMem (sub32 (length - 12) newsize) =
      usedTotal (left ++ ⟨newsize + 12, true⟩ ::
        ⟨length - (newsize + 12), false⟩ :: right) := by
    have bounded := usedTotal_le (left ++ ⟨length, true⟩ :: right)
    have all := laid.total
    have cut_off : sub32 (length - 12) newsize = length - 12 - newsize :=
      sub32_eq (by omega) (by omega)
    rw [represents.usedMem, cut_off]
    simp only [usedTotal_append, usedTotal_cons, if_true] at bounded ⊢
    rw [sub32_eq (by omega) (by omega)]
    simp
    omega
  have held : Held
      { heap with
        memory := linked
        usedMem := sub32 heap.usedMem (sub32 (length - 12) newsize) }
      ((left ++ [⟨newsize + 12, true⟩]) ++
        ⟨length - (newsize + 12), false⟩ :: right) := by
    rw [← List.append_cons]
    exact ⟨linkedLaid, freeOrEnd_shrunk (by omega) represents.lfree, account⟩
  have leftPart : Separated (left ++ [⟨newsize + 12, true⟩]) :=
    separated_used.mpr ⟨leftSeparated, List.isChain_nil⟩
  have plugged := plugHoles_spec held leftPart rightSeparated
  rw [← List.append_cons] at plugged
  simp only [total_append, total_cons, total_nil, Nat.add_zero] at plugged
  apply plugged.mono
  rintro after ⟨changed, afterRepresents, follows⟩
  -- neither the writes nor the joining touch data that stays in use
  have kept : Spares
      (left ++ ⟨newsize + 12, true⟩ ::
        ⟨length - (newsize + 12), false⟩ :: right)
      heap.memory after.memory := by
    have part : (total left, (⟨newsize + 12, true⟩ : Cell)) ∈
        places 0 (left ++ ⟨newsize + 12, true⟩ ::
          ⟨length - (newsize + 12), false⟩ :: right) := by
      simp
    have rest : (total left + (newsize + 12),
        (⟨length - (newsize + 12), false⟩ : Cell)) ∈
        places 0 (left ++ ⟨newsize + 12, true⟩ ::
          ⟨length - (newsize + 12), false⟩ :: right) := by
      simp
    apply Spares.trans _ follows.spares
    apply (createdOutside.spares part rest).trans
    rcases linkedOutside with rfl | ⟨-, outside⟩
    · exact Spares.refl
    · rw [List.append_cons, List.append_cons]
      apply outside.spares_start
      simp only [total_append, total_cons, total_nil]
      omega
  refine ⟨changed, ⟨afterRepresents, follows.size, ?_, ?_, ?_⟩, ?_⟩
  · intro place used
    rw [← follows.used place used]
    exact used_shrunk laid.sized (by omega) place used
  · intro fresh freshMember old oldMember _ other
    obtain rfl := List.mem_singleton.mp freshMember
    have differ := laid.starts_ne oldMember member
      (List.ne_of_not_mem_cons other)
    exact differ
  · intro place placeMember used other
    exact kept place ((used_shrunk laid.sized (by omega) place used).mpr
      (.inl ⟨placeMember, other⟩)) used
  · intro address above below
    exact kept (total left, ⟨newsize + 12, true⟩) (by simp) rfl address
      above (by
        dsimp only
        omega)

end Shrink

/-! ## rt_realloc -/

/-- What `rt_realloc` makes of a block that is to hold `asked` bytes. -/
inductive Reallocated (heap : SystemHeap) (cells : List Cell)
    (start length asked : Nat) : Option Nat × SystemHeap → Prop
  | refused :
      asked ≠ 0 → Reallocated heap cells start length asked (none, heap)
  | released {after : SystemHeap} {changed : List Cell} :
      asked = 0 →
      Changes heap cells after changed [(start, ⟨length, true⟩)] [] →
      after.lfree ≤ start →
      Reallocated heap cells start length asked (none, after)
  | resized {after : SystemHeap} {changed : List Cell} {place kept : Nat} :
      asked ≠ 0 → asked + 12 ≤ kept →
      Changes heap cells after changed [(start, ⟨length, true⟩)]
        [(place, ⟨kept, true⟩)] →
      (∀ index, index + 12 < length → index < asked →
        after.memory (place + 12 + index) =
          heap.memory (start + 12 + index)) →
      Reallocated heap cells start length asked (some (place + 12), after)

section Realloc

variable {start length asked size : Nat}

theorem rtAlign_of_aligned (aligned : asked % 4 = 0)
    (fits : asked + 4 ≤ 2 ^ 32) : rtAlign asked = asked := by
  simp only [rtAlign, rtAlignSize]
  omega

/-- The data of a block that is moved. -/
theorem moved_spec {place kept : Nat}
    (changes : Changes heap cells after changed []
      [(place, ⟨kept, true⟩)])
    (member : (start, (⟨length, true⟩ : Cell)) ∈ places 0 cells)
    (positive : asked ≠ 0) (wide : asked + 12 ≤ kept) :
    Returns (moved after (start + 12) (length - 12) asked
        (some (place + 12)))
      (Reallocated heap cells start length asked) := by
  have newMember := changes.fresh_mem rfl
  have different := changes.fresh_ne member rfl
  have still : (start, (⟨length, true⟩ : Cell)) ∈ places 0 changed :=
    (changes.used _ rfl).mpr (.inl ⟨member, List.not_mem_nil⟩)
  have outside : Outside (place + 12) (place + kept) after.memory
      (copy after.memory (place + 12) (start + 12)
        (if length - 12 < asked then length - 12 else asked)) := by
    intro address apart
    apply copy_frame
    split <;> omega
  have written := changes.write rfl outside
  apply (release_spec written.represents still).bind
  rintro last ⟨final, freed, -, -⟩
  apply returns_pure
  have whole := written.release freed member rfl
  refine .resized positive wide whole ?_
  intro index inOld inNew
  have kept_data := freed.spares _ newMember rfl
    (by simpa using different.symm) (place + 12 + index)
    (by dsimp only; omega) (by dsimp only; omega)
  rw [kept_data]
  dsimp only
  rw [copy_inside _ _ (by split <;> omega)]
  · exact changes.spares _ member rfl List.not_mem_nil _ (by dsimp only; omega)
      (by dsimp only; omega)
  · rcases places_apart newMember still with same | before | beyond
    · exact absurd same.symm different
    · dsimp only at before
      left
      omega
    · dsimp only at beyond
      right
      split <;> omega

theorem resize_spec (represents : Represents heap cells)
    (member : (start, (⟨length, true⟩ : Cell)) ∈ places 0 cells)
    (aligned : asked % 4 = 0) (positive : asked ≠ 0)
    (fits : asked ≤ heap.memSizeAligned) :
    Returns (resize heap (start + 12) asked)
      (Reallocated heap cells start length asked) := by
  have limit := represents.laid.limit
  obtain ⟨left, right, split, place⟩ := split_of_mem_places member
  dsimp only at split place
  have laid := represents.laid
  rw [split] at laid
  obtain ⟨leftAligned, large, lengthAligned, whole⟩ := laid.place_bounds
  have own := laid.header_at
  rw [Nat.zero_add] at place
  dsimp only at large lengthAligned whole own
  rw [← place] at leftAligned whole own
  have span : sub32 (sub32 (start + length) start) 12 = length - 12 := by
    have block : sub32 (start + length) start = length := by
      rw [sub32_eq (by omega) (by omega), Nat.add_sub_cancel_left]
    rw [block, sub32_eq (by omega) (by omega)]
  rw [resize, if_neg (by
    dsimp only [SystemHeap.heapEnd, sizeofStructMem]
    omega)]
  refine returns_bind_of_eq (entryOf_data leftAligned (by omega)) ?_
  simp only [own, sizeofStructMem, minSize, span]
  by_cases same : length - 12 = asked
  · rw [if_pos same]
    apply returns_ok
    exact .resized positive (by omega) (Changes.same represents member)
      fun _ _ _ => rfl
  rw [if_neg same]
  by_cases shrinks : asked + 12 + 12 < length - 12
  · rw [if_pos shrinks]
    apply (shrink_spec represents member aligned (by omega) shrinks).bind
    rintro after ⟨changed, changes, data⟩
    apply returns_pure
    exact .resized positive le_rfl changes fun index _ inNew =>
      data _ (Nat.le_add_right _ _) (by omega)
  rw [if_neg shrinks]
  apply (rtMalloc_spec represents asked).bind
  rintro ⟨pointer, after⟩ ⟨-, refused, allocated⟩
  dsimp only at refused allocated ⊢
  cases pointer with
  | none =>
      obtain rfl := refused rfl
      apply returns_ok
      exact .refused positive
  | some pointer =>
      obtain ⟨place, kept, changed, rfl, wide, changes, -⟩ :=
        allocated pointer rfl
      rw [rtAlign_of_aligned aligned (by omega), raiseSize_eq] at wide
      exact moved_spec changes member positive (by omega)

theorem rtRealloc_spec (represents : Represents heap cells)
    (member : (start, (⟨length, true⟩ : Cell)) ∈ places 0 cells)
    (size : Nat) :
    Returns (rtRealloc heap (some (start + 12)) size)
      (Reallocated heap cells start length (rtAlign size)) := by
  rw [rtRealloc]
  by_cases too_large : heap.memSizeAligned < rtAlign size
  · rw [if_pos too_large]
    apply returns_ok
    exact .refused (by omega)
  rw [if_neg too_large]
  by_cases nothing : rtAlign size = 0
  · rw [if_pos nothing]
    apply (release_spec represents member).bind
    rintro after ⟨changed, changes, below, -⟩
    apply returns_pure
    exact .released nothing changes below
  · rw [if_neg nothing]
    exact resize_spec represents member (rtAlign_mod size) nothing
      (Nat.le_of_not_lt too_large)

/-- A size that has been aligned stays as it is. -/
theorem rtAlign_rtAlign (size : Nat) :
    rtAlign (rtAlign size) = rtAlign size := by
  apply rtAlign_of_aligned (rtAlign_mod size)
  simp only [rtAlign, rtAlignSize]
  omega

/-- Without a block, `rt_realloc` allocates one. -/
theorem rtRealloc_none (heap : SystemHeap) (size : Nat) :
    rtRealloc heap none size = rtMalloc heap (rtAlign size) := by
  rw [rtRealloc]
  by_cases nothing : rtAlign size = 0
  · rw [if_neg (by omega), if_pos nothing, rtMalloc, if_pos nothing]
    rfl
  · by_cases too_large : heap.memSizeAligned < rtAlign size
    · rw [if_pos too_large, rtMalloc, if_neg nothing, rtAlign_rtAlign,
        if_pos too_large]
    · rw [if_neg too_large, if_neg nothing]

end Realloc

/-! ## rt_calloc -/

/-- A block that is allocated and cleared. -/
theorem rtCalloc_spec (represents : Represents heap cells)
    (count size : Nat) (fits : count * size % 2 ^ 32 ≤ 2 ^ 32 - 4) :
    Returns (rtCalloc heap count size) fun result =>
      (result.1 = none → result.2 = heap) ∧
        ∀ pointer, result.1 = some pointer →
          ∃ start kept changed, pointer = start + 12 ∧
            count * size % 2 ^ 32 + 12 ≤ kept ∧
            Changes heap cells result.2 changed []
              [(start, ⟨kept, true⟩)] ∧
            (heap.lfree = firstFree 0 cells →
              result.2.lfree = firstFree 0 changed) ∧
            ∀ index < count * size % 2 ^ 32,
              result.2.memory (pointer + index) = 0 := by
  apply (rtMalloc_spec represents (count * size % 2 ^ 32)).bind
  rintro ⟨pointer, after⟩ ⟨-, refused, allocated⟩
  dsimp only at refused allocated ⊢
  apply returns_pure
  cases pointer with
  | none => exact ⟨refused, nofun⟩
  | some pointer =>
      obtain ⟨start, kept, changed, rfl, wide, changes, lowest⟩ :=
        allocated pointer rfl
      have enough := le_rtAlign fits
      rw [raiseSize_eq] at wide
      refine ⟨nofun, ?_⟩
      rintro _ ⟨⟩
      refine ⟨start, kept, changed, rfl, by omega, changes.write rfl ?_,
        lowest, ?_⟩
      · intro address apart
        apply fill_frame
        dsimp only at apart
        omega
      · intro index below
        exact fill_inside _ (Nat.le_add_right _ _) (by omega)

end InternetWavPlayer.MemHeap
