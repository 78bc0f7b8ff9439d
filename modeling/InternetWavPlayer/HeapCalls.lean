import InternetWavPlayer.HeapEdits

/-!
# The calls of the allocator

What `rt_malloc`, `rt_free`, `rt_realloc` and `rt_calloc` do to a heap that
represents a row of cells: which used blocks there are afterwards, and that
the data of the others is spared.
-/

namespace InternetWavPlayer.MemHeap

open ByteMemory Tiling Contract

/-! ## The loops -/

/-- A free block of the right size below the bound of the search. -/
def Suits (lfree bound size : Nat) (place : Nat × Cell) : Bool :=
  decide (lfree ≤ place.1) && decide (place.1 < bound) &&
    !place.2.used && decide (size + 12 ≤ place.2.size)

section Loops

variable {heap : SystemHeap} {left rest : List Cell} {bound size : Nat}

theorem Laid.length_lt_fuel
    (laid : Laid heap.memSizeAligned heap.memory (left ++ rest)) :
    rest.length < heap.fuel := by
  have sizes := (sized_append.mp laid.sized).2.length
  have whole := laid.total
  have room := laid.room
  rw [total_append] at whole
  rw [SystemHeap.fuel]
  omega

/-- No block beyond the bound suits. -/
theorem find_beyond {lfree start : Nat} {cells : List Cell}
    (beyond : bound ≤ start) :
    (places start cells).find? (Suits lfree bound size) = none := by
  rw [List.find?_eq_none]
  intro place member
  have within := places_within member
  simp only [Suits, Bool.and_eq_true, decide_eq_true_eq, not_and]
  omega

/-- The search finds the first block that suits. -/
theorem search_spec {fuel lfree : Nat}
    (laid : Laid heap.memSizeAligned heap.memory (left ++ rest))
    (positive : 0 < size) (fits : size ≤ heap.memSizeAligned)
    (enough : rest.length < fuel) (above : lfree ≤ total left) :
    search heap size fuel (total left) =
      .ok (((places (total left) rest).find?
        (Suits lfree (heap.memSizeAligned - size) size)).map
          Prod.fst) := by
  have limit := laid.limit
  have same : sub32 heap.memSizeAligned size =
      heap.memSizeAligned - size := sub32_eq fits (by omega)
  induction rest generalizing left fuel with
  | nil =>
      have whole := laid.total
      rw [total_append, total_nil] at whole
      cases fuel with
      | zero => exact absurd enough (Nat.not_lt_zero _)
      | succ fuel =>
          rw [search, same, if_neg (by omega)]
          rfl
  | cons cell rest induction =>
      cases fuel with
      | zero => exact absurd enough (Nat.not_lt_zero _)
      | succ fuel =>
          obtain ⟨aligned, large, -, whole⟩ := laid.place_bounds
          have own := laid.header_at
          rw [search, same]
          by_cases inside : total left < heap.memSizeAligned - size
          · have room : sub32 (total left + cell.size) (total left + 12) =
                cell.size - 12 := by
              rw [sub32_eq (by omega) (by omega)]
              omega
            rw [if_pos inside, entry_of aligned (by omega)]
            simp only [bind, Except.bind, own, sizeofStructMem, room,
              places_cons, List.find?_cons]
            by_cases suits : cell.used = false ∧ size + 12 ≤ cell.size
            · have found : Suits lfree (heap.memSizeAligned - size) size
                  (total left, cell) = true := by
                simp [Suits, suits, above, inside]
              rw [found, if_pos (by
                rw [suits.1]
                exact ⟨rfl, by omega⟩)]
              rfl
            · have skipped : Suits lfree (heap.memSizeAligned - size) size
                  (total left, cell) = false := by
                rw [Bool.eq_false_iff]
                intro found
                simp only [Suits, Bool.and_eq_true, decide_eq_true_eq,
                  Bool.not_eq_true'] at found
                exact suits ⟨found.1.2, found.2⟩
              rw [skipped, if_neg (by
                rintro ⟨unused, enoughRoom⟩
                refine suits ⟨?_, by omega⟩
                cases isUsed : cell.used with
                | false => rfl
                | true =>
                    rw [isUsed] at unused
                    cases unused)]
              rw [List.append_cons] at laid
              have next := induction laid (Nat.lt_of_succ_lt_succ enough)
                (by simp only [total_append, total_cons, total_nil]; omega)
              simp only [total_append, total_cons, total_nil,
                Nat.add_zero] at next
              exact next
          · rw [if_neg inside, find_beyond (by omega)]
            rfl

/-- The free pointer moves to the first free block. -/
theorem nextFree_spec {fuel : Nat}
    (laid : Laid heap.memSizeAligned heap.memory (left ++ rest))
    (enough : rest.length < fuel) :
    nextFree heap fuel (total left) = .ok (firstFree (total left) rest) := by
  induction rest generalizing left fuel with
  | nil =>
      obtain ⟨prev, sentinel⟩ := laid.sentinel
      have whole := laid.total
      have aligned := laid.sized.total
      rw [total_append, total_nil, Nat.add_zero] at whole
      rw [total_append, total_nil, Nat.add_zero] at aligned
      cases fuel with
      | zero => exact absurd enough (Nat.not_lt_zero _)
      | succ fuel =>
          rw [nextFree, entry_of aligned (by omega)]
          simp only [bind, Except.bind, firstFree]
          rw [if_neg (by
            rintro ⟨-, elsewhere⟩
            exact elsewhere whole)]
  | cons cell rest induction =>
      cases fuel with
      | zero => exact absurd enough (Nat.not_lt_zero _)
      | succ fuel =>
          obtain ⟨aligned, large, -, whole⟩ := laid.place_bounds
          have own := laid.header_at
          rw [nextFree, entry_of aligned (by omega)]
          simp only [bind, Except.bind, own, firstFree]
          cases used : cell.used with
          | true =>
              rw [if_pos ⟨Nat.one_ne_zero, by
                dsimp only [SystemHeap.heapEnd, sizeofStructMem]
                omega⟩, if_pos rfl]
              rw [List.append_cons] at laid
              have next := induction laid (Nat.lt_of_succ_lt_succ enough)
              simp only [total_append, total_cons, total_nil,
                Nat.add_zero] at next
              exact next
          | false =>
              rw [if_neg (by
                rintro ⟨isUsed, -⟩
                exact isUsed rfl), if_neg Bool.false_ne_true]

end Loops

/-! ## rt_malloc -/

/--
What a call changes: some used blocks go, others are new, and the data of the
used blocks which stay is spared.
-/
structure Changes (heap : SystemHeap) (cells : List Cell)
    (after : SystemHeap) (changed : List Cell)
    (gone fresh : List (Nat × Cell)) : Prop where
  represents : Represents after changed
  size : after.memSizeAligned = heap.memSizeAligned
  used : ∀ place : Nat × Cell, place.2.used →
    (place ∈ places 0 changed ↔
      place ∈ places 0 cells ∧ place ∉ gone ∨ place ∈ fresh)
  apart : ∀ place ∈ fresh, ∀ old ∈ places 0 cells, old.2.used →
    old ∉ gone → old.1 ≠ place.1
  spares : ∀ place ∈ places 0 cells, place.2.used → place ∉ gone →
    ∀ address, place.1 + 12 ≤ address →
      address < place.1 + place.2.size →
        after.memory address = heap.memory address

theorem Changes.refl {heap : SystemHeap} {cells : List Cell}
    (represents : Represents heap cells) :
    Changes heap cells heap cells [] [] :=
  ⟨represents, rfl, fun _ _ => by simp, fun _ member => by simp at member,
    fun _ _ _ _ _ _ _ => rfl⟩

section Carve

variable {heap : SystemHeap} {left right : List Cell} {length size : Nat}

/-- The block that is used is what stood there, or its first part. -/
def Carved (length size kept : Nat) (right rest : List Cell) : Prop :=
  kept = length ∧ rest = right ∨
    kept = size + 12 ∧ rest = ⟨length - kept, false⟩ :: right

theorem Carved.used {start kept : Nat} {rest : List Cell}
    (carved : Carved length size kept right rest)
    (fits : size + 12 ≤ length) {place : Nat × Cell}
    (used : place.2.used) :
    place ∈ places (start + kept) rest ↔
      place ∈ places (start + length) right := by
  rcases carved with ⟨rfl, rfl⟩ | ⟨rfl, rfl⟩
  · rfl
  · rw [places_cons, List.mem_cons, Nat.add_assoc,
      Nat.add_sub_cancel' fits]
    constructor
    · rintro (rfl | member)
      · cases used
      · exact member
    · exact .inr

theorem Carved.separated {kept : Nat} {rest : List Cell}
    (carved : Carved length size kept right rest)
    (separated : Separated (left ++ ⟨length, false⟩ :: right)) :
    Separated (left ++ ⟨kept, true⟩ :: rest) := by
  obtain ⟨leftSeparated, rightSeparated, -, rightUsed⟩ :=
    separated_free.mp separated
  rw [separated_used]
  refine ⟨leftSeparated, ?_⟩
  rcases carved with ⟨-, rfl⟩ | ⟨-, rfl⟩
  · exact rightSeparated
  · have alone : Separated ([] ++ ⟨length - kept, false⟩ :: right) :=
      separated_free.mpr ⟨List.isChain_nil, rightSeparated, by simp,
        rightUsed⟩
    exact alone

theorem carve_spec
    (held : Held heap (left ++ ⟨length, false⟩ :: right))
    (aligned : size % 4 = 0) (large : 12 ≤ size)
    (fits : size + 12 ≤ length) :
    Returns (carve heap (total left) size) fun after =>
      ∃ kept rest, Carved length size kept right rest ∧
        Laid heap.memSizeAligned after.memory
          (left ++ ⟨kept, true⟩ :: rest) ∧
        after.memSizeAligned = heap.memSizeAligned ∧
        after.lfree = heap.lfree ∧
        after.usedMem = usedTotal (left ++ ⟨kept, true⟩ :: rest) ∧
        Spares (left ++ ⟨length, false⟩ :: right) heap.memory
          after.memory := by
  obtain ⟨leftAligned, -, lengthAligned, whole⟩ := held.laid.place_bounds
  have limit := held.laid.limit
  have own := held.laid.header_at
  dsimp only at lengthAligned whole own
  have room : sub32 (total left + length) (total left + 12) =
      length - 12 := by
    rw [sub32_eq (by omega) (by omega)]
    omega
  have block : (total left, (⟨length, false⟩ : Cell)) ∈
      places 0 (left ++ ⟨length, false⟩ :: right) := by
    simp
  have second : total left + 12 + size = total left + (size + 12) := by
    omega
  simp only [carve, own, sizeofStructMem, minSizeAligned, room, second]
  by_cases splits : size + 12 + 12 ≤ length - 12
  · rw [if_pos splits]
    apply (createMem2_spec held.laid
      (by omega : 16 ≤ size + 12 ∧ (size + 12) % 4 = 0) (by omega)).bind
    rintro created ⟨cut, createdOutside⟩
    apply (linkMem2_spec (cut.setUsed true)).bind
    rintro linked ⟨laid, linkedOutside⟩
    apply returns_pure
    refine ⟨size + 12, _, .inr ⟨rfl, rfl⟩, laid, rfl, rfl, ?_, ?_⟩
    · rw [SystemHeap.grow, held.usedMem]
      simp only [usedTotal_append, usedTotal_cons, if_true]
      simp
      omega
    · have inBlock : Outside (total left) (total left + length)
          heap.memory (setUsed created (total left) 1) := by
        apply Outside.trans
        · intro address outside
          exact createdOutside address (by omega) (by omega)
        · exact outside_setUsed.widen le_rfl (by omega)
      apply (inBlock.spares_free block rfl).trans
      rcases linkedOutside with rfl | ⟨-, outside⟩
      · exact Spares.refl
      · rw [List.append_cons]
        apply outside.spares_start
        simp only [total_append, total_cons, total_nil]
        omega
  · rw [if_neg splits]
    apply returns_ok
    refine ⟨length, right, .inl ⟨rfl, rfl⟩, held.laid.setUsed true, rfl,
      rfl, ?_, ?_⟩
    · rw [SystemHeap.grow, header_setUsed (by decide), own]
      dsimp only
      rw [sub32_eq (by omega) (by omega), held.usedMem,
        Nat.add_sub_cancel_left]
      simp only [usedTotal_append, usedTotal_cons, if_true]
      simp
      omega
    · exact outside_setUsed.spares_header block

theorem Sized.positive {cells : List Cell} (sized : Sized cells) :
    ∀ cell ∈ cells, 0 < cell.size :=
  fun cell member => Nat.lt_of_lt_of_le (by decide) (sized cell member).1

/-- A used block does not start where a free one does. -/
theorem Laid.start_ne {size : Nat} {memory : Memory} {cells : List Cell}
    (laid : Laid size memory cells) {free used : Nat × Cell}
    (freeMember : free ∈ places 0 cells) (isFree : free.2.used = false)
    (usedMember : used ∈ places 0 cells) (isUsed : used.2.used) :
    used.1 ≠ free.1 := by
  have freeLarge := (laid.sized _ (mem_of_mem_places freeMember)).1
  have usedLarge := (laid.sized _ (mem_of_mem_places usedMember)).1
  rcases places_apart usedMember freeMember with rfl | before | after
  · rw [isFree] at isUsed
    cases isUsed
  · omega
  · omega

/-- A free block that is not the one taken is still free. -/
theorem Carved.freeOrEnd {kept lfree : Nat} {rest : List Cell}
    (carved : Carved length size kept right rest)
    (fits : size + 12 ≤ length)
    (held : FreeOrEnd 0 (left ++ ⟨length, false⟩ :: right) lfree)
    (elsewhere : total left ≠ lfree) :
    FreeOrEnd 0 (left ++ ⟨kept, true⟩ :: rest) lfree := by
  have inRest : ∀ place, place ∈ places (total left + length) right →
      place ∈ places (total left + kept) rest := by
    intro place member
    rcases carved with ⟨rfl, rfl⟩ | ⟨rfl, rfl⟩
    · exact member
    · rw [places_cons, Nat.add_assoc, Nat.add_sub_cancel' fits]
      exact List.mem_cons_of_mem _ member
  rcases held with atEnd | ⟨cell, member, free⟩
  · left
    rw [atEnd]
    simp only [total_append, total_cons]
    rcases carved with ⟨rfl, rfl⟩ | ⟨rfl, rfl⟩
    · rfl
    · rw [total_cons]
      dsimp only
      omega
  · right
    refine ⟨cell, ?_, free⟩
    simp only [places_append, places_cons, List.mem_append, List.mem_cons,
      Prod.mk.injEq, Nat.zero_add] at member ⊢
    rcases member with member | ⟨same, -⟩ | member
    · exact .inl member
    · exact absurd same.symm elsewhere
    · exact .inr (.inr (inRest _ member))

variable (heap) in
/-- The free pointer leaves a block that has been used. -/
theorem updateLfree_spec {kept : Nat} {rest : List Cell}
    (carved : Carved length size kept right rest)
    (fits : size + 12 ≤ length)
    (laid : Laid heap.memSizeAligned heap.memory
      (left ++ ⟨kept, true⟩ :: rest))
    (held : FreeOrEnd 0 (left ++ ⟨length, false⟩ :: right) heap.lfree) :
    Returns (updateLfree heap (total left)) fun after =>
      ∃ lfree, after = { heap with lfree } ∧
        FreeOrEnd 0 (left ++ ⟨kept, true⟩ :: rest) lfree ∧
        (heap.lfree = firstFree 0 (left ++ ⟨length, false⟩ :: right) →
          lfree = firstFree 0 (left ++ ⟨kept, true⟩ :: rest)) := by
  obtain ⟨leftSized, -⟩ := sized_append.mp laid.sized
  have parts := firstFree_append 0 leftSized.positive
    (⟨kept, true⟩ :: rest)
  rw [Nat.zero_add] at parts
  rw [updateLfree]
  by_cases moves : total left = heap.lfree
  · have found := nextFree_spec laid laid.length_lt_fuel
    have freeOrEnd : FreeOrEnd 0 (left ++ ⟨kept, true⟩ :: rest)
        (firstFree (total left) (⟨kept, true⟩ :: rest)) := by
      rcases firstFree_freeOrEnd (total left) (⟨kept, true⟩ :: rest) with
        atEnd | ⟨cell, member, free⟩
      · left
        rw [atEnd, total_append, Nat.zero_add]
      · exact .inr ⟨cell, by simp_all, free⟩
    rw [if_pos moves, ← moves]
    refine returns_bind_of_eq found ?_
    refine returns_bind_of_eq (rtAssert_of ?_) ?_
    · rcases freeOrEnd with atEnd | ⟨cell, member, free⟩
      · left
        rw [atEnd, laid.total, Nat.zero_add]
        rfl
      · right
        obtain ⟨before, after, split, start⟩ := split_of_mem_places member
        dsimp only at split start
        rw [split] at laid
        rw [start, Nat.zero_add, laid.header_at, free]
        rfl
    apply returns_pure
    refine ⟨_, rfl, freeOrEnd, ?_⟩
    intro lowest
    rw [firstFree_free] at lowest
    rw [parts, if_pos lowest.symm]
  · rw [if_neg moves]
    apply returns_ok
    refine ⟨heap.lfree, rfl, carved.freeOrEnd fits held moves, ?_⟩
    intro lowest
    rw [firstFree_free] at lowest
    rw [parts, if_neg (by
      rw [← lowest]
      exact fun same => moves same.symm)]
    exact lowest

/-- An allocation in a free block that is large enough. -/
theorem allocate_spec
    (represents : Represents heap (left ++ ⟨length, false⟩ :: right))
    (aligned : size % 4 = 0) (large : 12 ≤ size)
    (fits : size + 12 ≤ length) :
    Returns (allocate heap size (total left)) fun result =>
      result.1 = some (total left + 12) ∧
        ∃ kept changed, size + 12 ≤ kept ∧
          Changes heap (left ++ ⟨length, false⟩ :: right) result.2 changed
            [] [(total left, ⟨kept, true⟩)] ∧
          (heap.lfree = firstFree 0 (left ++ ⟨length, false⟩ :: right) →
            result.2.lfree = firstFree 0 changed) := by
  obtain ⟨leftAligned, -, -, whole⟩ := represents.laid.place_bounds
  dsimp only at whole
  apply (carve_spec represents.toHeld aligned large fits).bind
  rintro carved ⟨kept, rest, shape, laid, sizeSame, lfreeSame, account,
    spares⟩
  have block : (total left, (⟨length, false⟩ : Cell)) ∈
      places 0 (left ++ ⟨length, false⟩ :: right) := by
    simp
  have marked : Laid carved.memSizeAligned
      (setMagic carved.memory (total left) heapMagic)
      (left ++ ⟨kept, true⟩ :: rest) := by
    rw [sizeSame]
    exact laid.setMagic
  apply (updateLfree_spec
    { carved with memory := setMagic carved.memory (total left) heapMagic }
    shape fits marked (by
      rw [lfreeSame]
      exact represents.lfree)).bind
  rintro _ ⟨lfree, rfl, freeOrEnd, lowest⟩
  refine returns_bind_of_eq (rtAssert_of ?_) ?_
  · dsimp only [SystemHeap.heapEnd, sizeofStructMem]
    rw [sizeSame]
    omega
  refine returns_bind_of_eq (rtAssert_of ?_) ?_
  · dsimp only [sizeofStructMem, rtAlignSize]
    omega
  refine returns_bind_of_eq (rtAssert_of leftAligned) ?_
  apply returns_pure
  rw [lfreeSame] at lowest
  refine ⟨rfl, kept, left ++ ⟨kept, true⟩ :: rest, ?_, ⟨⟨⟨marked,
    freeOrEnd, account⟩, shape.separated represents.separated⟩, sizeSame,
    ?_, ?_, ?_⟩, lowest⟩
  · rcases shape with ⟨rfl, -⟩ | ⟨rfl, -⟩
    · exact fits
    · exact le_rfl
  · intro place used
    simp only [places_append, places_cons, List.mem_append,
      List.mem_cons, Nat.zero_add, shape.used fits used,
      List.not_mem_nil, not_false_eq_true, and_true, or_false]
    constructor
    · rintro (member | same | member)
      · exact .inl (.inl member)
      · exact .inr same
      · exact .inl (.inr (.inr member))
    · rintro ((member | rfl | member) | same)
      · exact .inl member
      · cases used
      · exact .inr (.inr member)
      · exact .inr (.inl same)
  · intro place member old oldMember oldUsed _
    obtain rfl := List.mem_singleton.mp member
    have differ := represents.laid.start_ne block rfl oldMember oldUsed
    exact differ
  · exact fun place member used _ =>
      (spares.trans (outside_setMagic.spares_header block)) place member used

end Carve

/-- The block that a request is served from, if there is one. -/
def served (heap : SystemHeap) (cells : List Cell) (size : Nat) :
    Option (Nat × Cell) :=
  if size = 0 ∨ heap.memSizeAligned < rtAlign size then none
  else
    (places 0 cells).find?
      (Suits heap.lfree
        (heap.memSizeAligned - raiseSize (rtAlign size))
        (raiseSize (rtAlign size)))

section Malloc

variable {heap : SystemHeap} {cells : List Cell} {size : Nat}

theorem rtAlign_mod (size : Nat) : rtAlign size % 4 = 0 :=
  Nat.mul_mod_left _ _

theorem raiseSize_mod (size : Nat) : raiseSize (rtAlign size) % 4 = 0 := by
  rw [raiseSize]
  split
  · rfl
  · exact rtAlign_mod size

theorem raiseSize_eq (size : Nat) : raiseSize size = max 12 size := by
  rw [raiseSize]
  split
  · rename_i small
    exact (Nat.max_eq_left (Nat.le_of_lt small)).symm
  · rename_i large
    exact (Nat.max_eq_right (Nat.le_of_not_lt large)).symm

/-- A request is not cut short, unless the alignment wraps around. -/
theorem le_rtAlign (fits : size ≤ 2 ^ 32 - 4) : size ≤ rtAlign size := by
  simp only [rtAlign, rtAlignSize]
  omega

/-- No block before the free pointer suits. -/
theorem find_from {left rest : List Cell} {bound : Nat}
    (sized : Sized left) :
    (places 0 (left ++ rest)).find? (Suits (total left) bound size) =
      (places (total left) rest).find? (Suits (total left) bound size) := by
  have before : (places 0 left).find? (Suits (total left) bound size) =
      none := by
    rw [List.find?_eq_none]
    intro place member
    have within := places_within member
    have large := (sized _ (mem_of_mem_places member)).1
    simp only [Suits, Bool.and_eq_true, decide_eq_true_eq, not_and]
    omega
  rw [places_append, List.find?_append, before, Nat.zero_add]
  rfl

theorem rtMalloc_spec (represents : Represents heap cells) (size : Nat) :
    Returns (rtMalloc heap size) fun result =>
      result.1 =
          (served heap cells size).map (fun place => place.1 + 12) ∧
        (result.1 = none → result.2 = heap) ∧
        ∀ pointer, result.1 = some pointer →
          ∃ start kept changed, pointer = start + 12 ∧
            raiseSize (rtAlign size) + 12 ≤ kept ∧
            Changes heap cells result.2 changed []
              [(start, ⟨kept, true⟩)] ∧
            (heap.lfree = firstFree 0 cells →
              result.2.lfree = firstFree 0 changed) := by
  have laid := represents.laid
  rw [rtMalloc, served]
  by_cases none_asked : size = 0
  · rw [if_pos none_asked, if_pos (.inl none_asked)]
    exact returns_ok ⟨rfl, fun _ => rfl, nofun⟩
  rw [if_neg none_asked]
  by_cases too_large : heap.memSizeAligned < rtAlign size
  · rw [if_pos too_large, if_pos (.inr too_large)]
    exact returns_ok ⟨rfl, fun _ => rfl, nofun⟩
  rw [if_neg too_large, if_neg (by tauto)]
  have room := laid.room
  have fits : raiseSize (rtAlign size) ≤ heap.memSizeAligned := by
    rw [raiseSize_eq]
    omega
  have large : 12 ≤ raiseSize (rtAlign size) := by
    rw [raiseSize_eq]
    exact Nat.le_max_left _ _
  have aligned := raiseSize_mod size
  generalize raiseSize (rtAlign size) = asked at *
  obtain ⟨left, rest, rfl, start⟩ := represents.lfree.split
  rw [Nat.zero_add] at start
  have leftSized := (sized_append.mp laid.sized).1
  have searched := search_spec laid (by omega) fits laid.length_lt_fuel
    (le_refl (total left))
  rw [start, find_from leftSized]
  refine returns_bind_of_eq searched ?_
  cases found : (places (total left) rest).find?
      (Suits (total left) (heap.memSizeAligned - asked) asked) with
  | none => exact returns_ok ⟨rfl, fun _ => rfl, nofun⟩
  | some place =>
      obtain ⟨position, length, used⟩ := place
      have member : (position, (⟨length, used⟩ : Cell)) ∈
          places 0 (left ++ rest) := by
        rw [places_append, List.mem_append, Nat.zero_add]
        exact .inr (List.mem_of_find?_eq_some found)
      have suits := List.find?_some found
      simp only [Suits, Bool.and_eq_true, decide_eq_true_eq,
        Bool.not_eq_true'] at suits
      obtain ⟨⟨-, rfl⟩, enough⟩ := suits
      obtain ⟨before, after, split, place⟩ := split_of_mem_places member
      dsimp only at split place
      rw [Nat.zero_add] at place
      rw [place]
      rw [split] at represents ⊢
      apply (allocate_spec represents aligned large enough).mono
      rintro result ⟨pointer, kept, changed, wide, changes, lowest⟩
      rw [pointer]
      refine ⟨rfl, nofun, ?_⟩
      rintro _ ⟨⟩
      rw [start] at lowest
      exact ⟨total before, kept, changed, rfl, wide, changes, lowest⟩

end Malloc

/-! ## rt_free -/

section Free

variable {heap : SystemHeap} {cells left right : List Cell}
  {start length : Nat}

/-- What is used once a block is free. -/
theorem used_freed (sized : Sized (left ++ ⟨length, true⟩ :: right))
    {place : Nat × Cell} (used : place.2.used) :
    place ∈ places 0 (left ++ ⟨length, false⟩ :: right) ↔
      place ∈ places 0 (left ++ ⟨length, true⟩ :: right) ∧
        place ∉ [(total left, (⟨length, true⟩ : Cell))] := by
  obtain ⟨leftSized, rest⟩ := sized_append.mp sized
  obtain ⟨⟨large, -⟩, -⟩ := sized_cons.mp rest
  dsimp only at large
  simp only [places_append, places_cons, List.mem_append, List.mem_cons,
    List.not_mem_nil, or_false, Nat.zero_add]
  constructor
  · rintro (member | rfl | member)
    · refine ⟨.inl member, ?_⟩
      rintro rfl
      have within := places_within member
      dsimp only at within
      omega
    · cases used
    · refine ⟨.inr (.inr member), ?_⟩
      rintro rfl
      have within := places_within member
      dsimp only at within
      omega
  · rintro ⟨member | same | member, other⟩
    · exact .inl member
    · exact absurd same other
    · exact .inr (.inr member)

/-- The free pointer after a block has been freed. -/
theorem freeOrEnd_freed {lfree : Nat}
    (held : FreeOrEnd 0 (left ++ ⟨length, true⟩ :: right) lfree) :
    FreeOrEnd 0 (left ++ ⟨length, false⟩ :: right)
      (if total left < lfree then total left else lfree) := by
  split
  · exact .inr ⟨⟨length, false⟩, by simp, rfl⟩
  · rcases held with atEnd | ⟨cell, member, free⟩
    · left
      rw [atEnd]
      simp
    · right
      refine ⟨cell, ?_, free⟩
      simp only [places_append, places_cons, List.mem_append, List.mem_cons,
        Prod.mk.injEq, Nat.zero_add] at member ⊢
      rcases member with member | ⟨-, rfl⟩ | member
      · exact .inl member
      · cases free
      · exact .inr (.inr member)

/-- The lowest free block after a block has been freed. -/
theorem firstFree_freed (solid : ∀ cell ∈ left, 0 < cell.size) :
    firstFree 0 (left ++ ⟨length, false⟩ :: right) =
      if total left < firstFree 0 (left ++ ⟨length, true⟩ :: right) then
        total left
      else firstFree 0 (left ++ ⟨length, true⟩ :: right) := by
  have below := firstFree_le_total 0 left
  rw [firstFree_free, firstFree_append 0 solid, Nat.zero_add] at *
  by_cases full : firstFree 0 left = total left
  · rw [if_pos full, firstFree, if_pos rfl, full]
    split
    · rfl
    · rename_i notAbove
      have above : total left + length ≤
          firstFree (total left + length) right := by
        rcases firstFree_freeOrEnd (total left + length) right with
          atEnd | ⟨cell, member, -⟩
        · omega
        · exact (places_within member).1
      dsimp only at notAbove ⊢
      omega
  · rw [if_neg full, if_neg (by omega)]

theorem release_spec (represents : Represents heap cells)
    (member : (start, (⟨length, true⟩ : Cell)) ∈ places 0 cells) :
    Returns (release heap (start + 12)) fun after =>
      ∃ changed,
        Changes heap cells after changed [(start, ⟨length, true⟩)] [] ∧
          after.lfree ≤ start ∧
          (heap.lfree = firstFree 0 cells →
            after.lfree = firstFree 0 changed) := by
  obtain ⟨left, right, rfl, place⟩ := split_of_mem_places member
  dsimp only at place
  rw [Nat.zero_add] at place
  subst place
  have laid := represents.laid
  have own := laid.header_at
  have limit := laid.limit
  obtain ⟨aligned, large, -, whole⟩ := laid.place_bounds
  obtain ⟨leftSized, -⟩ := sized_append.mp laid.sized
  obtain ⟨leftSeparated, rightSeparated⟩ :=
    separated_used.mp represents.separated
  dsimp only at large whole own
  have freed : Laid heap.memSizeAligned
      (setMagic (setUsed heap.memory (total left) 0) (total left)
        heapMagic)
      (left ++ ⟨length, false⟩ :: right) :=
    (laid.setUsed false).setMagic
  refine returns_bind_of_eq (rtAssert_of ?_) ?_
  · dsimp only [rtAlignSize]
    omega
  refine returns_bind_of_eq (rtAssert_of ?_) ?_
  · dsimp only [SystemHeap.heapEnd, sizeofStructMem]
    omega
  refine returns_bind_of_eq (entryOf_data aligned (by omega)) ?_
  refine returns_bind_of_eq (rtAssert_of ?_) ?_
  · rw [own]
    exact Nat.one_ne_zero
  refine returns_bind_of_eq (rtAssert_of ?_) ?_
  · rw [own]
  have spanned : sub32 (total left + length) (total left) = length := by
    rw [sub32_eq (by omega) (by omega), Nat.add_sub_cancel_left]
  simp only [freed.header_at, spanned]
  have account : sub32 heap.usedMem length =
      usedTotal (left ++ ⟨length, false⟩ :: right) := by
    have bounded := usedTotal_le (left ++ ⟨length, true⟩ :: right)
    have all := laid.total
    dsimp only at all
    rw [represents.usedMem]
    simp only [usedTotal_append, usedTotal_cons, if_true] at bounded ⊢
    rw [sub32_eq (by omega) (by omega)]
    simp
    omega
  apply (plugHoles_spec
    ⟨freed, freeOrEnd_freed represents.lfree, account⟩
    leftSeparated rightSeparated).mono
  rintro after ⟨changed, afterRepresents, follows⟩
  refine ⟨changed, ⟨afterRepresents, follows.size, ?_, nofun, ?_⟩, ?_, ?_⟩
  · intro place used
    rw [← follows.used place used, used_freed laid.sized used]
    simp
  · intro place placeMember used other address above below
    have still := (used_freed laid.sized used).mpr ⟨placeMember, other⟩
    rw [follows.spares place still used address above below]
    have headers : Outside (total left) (total left + 12) heap.memory
        (setMagic (setUsed heap.memory (total left) 0) (total left)
          heapMagic) :=
      outside_setUsed.trans outside_setMagic
    have block : (total left, (⟨length, false⟩ : Cell)) ∈
        places 0 (left ++ ⟨length, false⟩ :: right) := by
      simp
    exact headers.spares_header block place still used address above below
  · apply follows.lower.trans
    dsimp only
    split <;> omega
  · intro lowest
    apply follows.lowest
    rw [firstFree_freed leftSized.positive, ← lowest]

end Free

end InternetWavPlayer.MemHeap
