import InternetWavPlayer.HeapChain

/-!
# Splitting and joining blocks

The allocator splits a block with `create_mem2` and `link_mem2`, and joins free
neighbours with `plug_holes`.  Each of them is followed from a heap that lays
out one row of cells to a heap that lays out the next.
-/

namespace InternetWavPlayer.MemHeap

open ByteMemory Tiling Contract

section Entries

variable {heap : SystemHeap} {offset : Nat}

theorem entry_of (aligned : offset % 4 = 0)
    (inside : offset ≤ heap.memSizeAligned + 12) :
    heap.entry offset = .ok offset :=
  if_pos ⟨aligned, inside⟩

theorem entryOf_data (aligned : offset % 4 = 0)
    (inside : offset ≤ heap.memSizeAligned + 12) :
    heap.entryOf (offset + 12) = .ok offset :=
  (if_pos (Nat.le_add_left 12 offset)).trans (entry_of aligned inside)

end Entries

/-! ## Splitting -/

/--
A block has been cut in two, and the block after it still points back to the
first part.
-/
structure Cut (size : Nat) (memory : Memory) (left : List Cell) (kept : Cell)
    (rest : Nat) (right : List Cell) : Prop where
  room : 12 ≤ size
  limit : size + 24 ≤ 2 ^ 32
  whole : total left + kept.size + rest + total right =
    size + 12
  leftSized : Sized left
  keptSized : 16 ≤ kept.size ∧ kept.size % 4 = 0
  restSized : 16 ≤ rest ∧ rest % 4 = 0
  rightSized : Sized right
  leftChain : Chained memory 0 0 left
  keptHeader : header memory (total left) =
    ⟨heapMagic, flag kept.used, total left + kept.size,
      lastStart 0 0 left⟩
  restHeader : header memory (total left + kept.size) =
    ⟨heapMagic, 0, total left + kept.size + rest,
      total left⟩
  rightChain : Chained memory (total left + kept.size + rest)
    (total left) right
  sentinel : ∃ prev, header memory (size + 12) =
    ⟨heapMagic, 1, size + 12, prev⟩

section Split

variable {memory second : Memory} {size length part rest mem next prev : Nat}
  {used : Bool} {left right : List Cell} {kept : Cell}

/-- The four writes that make a header. -/
theorem header_created (nextFits : next < 2 ^ 32) (prevFits : prev < 2 ^ 32) :
    header (setPrev (setNext (setUsed (setMagic memory mem heapMagic) mem 0)
      mem next) mem prev) mem = ⟨heapMagic, 0, next, prev⟩ := by
  rw [header_setPrev prevFits, header_setNext nextFits,
    header_setUsed (by decide), header_setMagic (by decide)]

theorem outside_created :
    Outside mem (mem + 12) memory
      (setPrev (setNext (setUsed (setMagic memory mem heapMagic) mem 0)
        mem next) mem prev) :=
  ((outside_setMagic.trans outside_setUsed).trans outside_setNext).trans
    outside_setPrev

/-- The two headers of a split lie in the block that is split. -/
def SplitOutside (mem ptr2 : Nat) (first second : Memory) : Prop :=
  ∀ address, address < mem ∨ mem + 12 ≤ address →
    address < ptr2 ∨ ptr2 + 12 ≤ address →
      second address = first address

theorem SplitOutside.spares {ptr2 : Nat} {cells : List Cell}
    {first rest : Cell} (outside : SplitOutside mem ptr2 memory second)
    (firstMember : (mem, first) ∈ places 0 cells)
    (restMember : (ptr2, rest) ∈ places 0 cells) :
    Spares cells memory second :=
  fun _ placeMember _ address above below =>
    outside address (data_apart firstMember placeMember above below)
      (data_apart restMember placeMember above below)

theorem createMem2_spec {heap : SystemHeap}
    (laid : Laid heap.memSizeAligned memory
      (left ++ ⟨length, used⟩ :: right))
    (partSized : 16 ≤ part ∧ part % 4 = 0) (fits : part + 16 ≤ length) :
    Returns (createMem2 heap memory (total left) (total left + part))
      fun after =>
        Cut heap.memSizeAligned after left ⟨part, used⟩ (length - part)
            right ∧
          SplitOutside (total left) (total left + part) memory after := by
  obtain ⟨leftSized, cellsSized⟩ := sized_append.mp laid.sized
  obtain ⟨-, rightSized⟩ := sized_cons.mp cellsSized
  obtain ⟨leftChain, oldHeader, rightChain⟩ := chained_split.mp laid.chained
  obtain ⟨leftAligned, -, aligned, whole⟩ := laid.place_bounds
  obtain ⟨prev, sentinel⟩ := laid.sentinel
  have limit := laid.limit
  dsimp only at aligned whole oldHeader rightChain
  refine returns_bind_of_eq (entry_of (by omega) (by omega)) ?_
  apply returns_pure
  -- the first two writes leave the old header alone
  have unread : header (setUsed (setMagic memory (total left + part)
      heapMagic) (total left + part) 0) (total left) =
        ⟨heapMagic, flag used, total left + length,
          lastStart 0 0 left⟩ := by
    rw [(outside_setMagic.trans outside_setUsed).header (by omega)]
    exact oldHeader
  rw [unread]
  have created := @outside_created memory (total left + part)
    (total left + length) (total left)
  have relinked := @outside_setNext
    (setPrev (setNext (setUsed (setMagic memory (total left + part)
      heapMagic) (total left + part) 0) (total left + part)
        (total left + length)) (total left + part) (total left))
    (total left) (total left + part)
  refine ⟨⟨laid.room, laid.limit, ?_, leftSized, partSized, by omega,
    rightSized, ?_, ?_, ?_, ?_, prev, ?_⟩, ?_⟩
  · dsimp only
    omega
  · exact (leftChain.frame leftSized created (by omega)).frame leftSized
      relinked (by omega)
  · rw [header_setNext (by omega), created.header (by omega), oldHeader]
  · dsimp only
    rw [relinked.header (by omega), header_created (by omega) (by omega)]
    congr 1
    omega
  · dsimp only
    rw [show total left + part + (length - part) = total left + length by
      omega]
    exact (rightChain.frame rightSized created (by omega)).frame rightSized
      relinked (by omega)
  · rw [relinked.header (by omega), created.header (by omega)]
    exact sentinel
  · intro address first second
    rw [relinked address first, created address second]

/-- The part that is kept changes its flag. -/
theorem Cut.setUsed (cut : Cut size memory left kept rest right)
    (changed : Bool) :
    Cut size (MemHeap.setUsed memory (total left) (flag changed)) left
      ⟨kept.size, changed⟩ rest right := by
  have outside := @outside_setUsed memory (total left) (flag changed)
  obtain ⟨prev, sentinel⟩ := cut.sentinel
  have large := cut.keptSized.1
  have whole := cut.whole
  refine ⟨cut.room, cut.limit, cut.whole, cut.leftSized, cut.keptSized,
    cut.restSized, cut.rightSized, ?_, ?_, ?_, ?_, prev, ?_⟩
  · exact cut.leftChain.frame cut.leftSized outside (by omega)
  · rw [header_setUsed (by cases changed <;> decide), cut.keptHeader]
  · rw [outside.header (by dsimp only; omega)]
    exact cut.restHeader
  · exact cut.rightChain.frame cut.rightSized outside
      (by dsimp only; omega)
  · rw [outside.header (by omega)]
    exact sentinel

/-- A cut block whose neighbour points back to the second part. -/
theorem Cut.laid {start : Nat}
    (cut : Cut size memory left kept rest right)
    (starts : start = total left + kept.size + rest)
    (outside : Outside start (start + 12) memory second)
    (rightChain : Chained second start (total left + kept.size) right)
    (sentinel : ∃ prev, header second (size + 12) =
      ⟨heapMagic, 1, size + 12, prev⟩) :
    Laid size second (left ++ kept :: ⟨rest, false⟩ :: right) := by
  subst starts
  have keptLarge := cut.keptSized.1
  have restLarge := cut.restSized.1
  refine ⟨cut.room, cut.limit, ?_, ?_, ?_, sentinel⟩
  · have whole := cut.whole
    simp only [total_append, total_cons]
    omega
  · exact sized_append.mpr ⟨cut.leftSized, sized_cons.mpr ⟨cut.keptSized,
      sized_cons.mpr ⟨cut.restSized, cut.rightSized⟩⟩⟩
  · rw [chained_split]
    refine ⟨cut.leftChain.frame cut.leftSized outside (by omega), ?_, ?_,
      rightChain⟩
    · rw [outside.header (by omega)]
      exact cut.keptHeader
    · rw [outside.header (by omega)]
      exact cut.restHeader

theorem linkMem2_spec {heap : SystemHeap}
    (cut : Cut heap.memSizeAligned memory left kept rest right) :
    Returns (linkMem2 heap memory (total left + kept.size)) fun after =>
      Laid heap.memSizeAligned after
          (left ++ kept :: ⟨rest, false⟩ :: right) ∧
        (after = memory ∨ right ≠ [] ∧
          Outside (total left + kept.size + rest)
            (total left + kept.size + rest + 12) memory after) := by
  have limit := cut.limit
  have whole := cut.whole
  have rest_aligned := cut.restSized.2
  have kept_aligned := cut.keptSized.2
  have left_aligned := cut.leftSized.total
  rw [linkMem2, cut.restHeader]
  cases right with
  | nil =>
      rw [total_nil] at whole
      rw [if_neg (not_not_intro (by
        dsimp only [sizeofStructMem]
        omega))]
      apply returns_ok
      exact ⟨cut.laid rfl Outside.refl True.intro cut.sentinel, .inl rfl⟩
  | cons cell right =>
      have large := (sized_cons.mp cut.rightSized).1.1
      rw [total_cons] at whole
      rw [if_pos (by
        dsimp only [sizeofStructMem]
        omega)]
      refine returns_bind_of_eq (entry_of (by dsimp only; omega)
        (by dsimp only; omega)) ?_
      apply returns_pure
      refine ⟨cut.laid rfl outside_setPrev
        (cut.rightChain.relink cut.rightSized (by omega)) ?_,
        .inr ⟨List.cons_ne_nil _ _, outside_setPrev⟩⟩
      obtain ⟨prev, sentinel⟩ := cut.sentinel
      refine ⟨prev, ?_⟩
      rw [outside_setPrev.header (by dsimp only; omega)]
      exact sentinel

end Split

/-! ## What the heap represents -/

/-- A heap with its headers, its free pointer and its account. -/
structure Held (heap : SystemHeap) (cells : List Cell) : Prop where
  laid : Laid heap.memSizeAligned heap.memory cells
  lfree : FreeOrEnd 0 cells heap.lfree
  usedMem : heap.usedMem = usedTotal cells

/-- A heap between two calls. -/
structure Represents (heap : SystemHeap) (cells : List Cell) : Prop
    extends Held heap cells where
  separated : Separated cells

/-- The used blocks are the same ones. -/
def SameUsed (cells changed : List Cell) : Prop :=
  ∀ place : Nat × Cell, place.2.used →
    (place ∈ places 0 cells ↔ place ∈ places 0 changed)

/-- What the joining of free blocks keeps. -/
structure Follows (heap : SystemHeap) (cells : List Cell)
    (after : SystemHeap) (changed : List Cell) : Prop where
  size : after.memSizeAligned = heap.memSizeAligned
  used : SameUsed cells changed
  spares : Spares cells heap.memory after.memory
  lower : after.lfree ≤ heap.lfree
  lowest : heap.lfree = firstFree 0 cells →
    after.lfree = firstFree 0 changed

section Following

variable {heap after last : SystemHeap} {cells changed final : List Cell}

theorem Follows.refl : Follows heap cells heap cells :=
  ⟨rfl, fun _ _ => Iff.rfl, Spares.refl, le_rfl, id⟩

theorem SameUsed.spares {memory second : Memory}
    (same : SameUsed cells changed) (spares : Spares changed memory second) :
    Spares cells memory second :=
  fun place member used =>
    spares place ((same place used).mp member) used

theorem Follows.trans (first : Follows heap cells after changed)
    (second : Follows after changed last final) :
    Follows heap cells last final where
  size := second.size.trans first.size
  used := fun place used =>
    (first.used place used).trans (second.used place used)
  spares := first.spares.trans (first.used.spares second.spares)
  lower := second.lower.trans first.lower
  lowest := second.lowest ∘ first.lowest

end Following

/-! ## Joining -/

section Join

variable {heap : SystemHeap} {left right : List Cell} {first second : Nat}

theorem sameUsed_join :
    SameUsed (left ++ ⟨first, false⟩ :: ⟨second, false⟩ :: right)
      (left ++ ⟨first + second, false⟩ :: right) := by
  rintro ⟨position, cell⟩ used
  dsimp only at used
  simp only [places_append, places_cons, List.mem_append, List.mem_cons,
    Prod.mk.injEq, Nat.add_assoc]
  constructor
  · rintro (member | ⟨-, rfl⟩ | ⟨-, rfl⟩ | member)
    · exact .inl member
    · cases used
    · cases used
    · exact .inr (.inr member)
  · rintro (member | ⟨-, rfl⟩ | member)
    · exact .inl member
    · cases used
    · exact .inr (.inr (.inr member))

/-- Where the free pointer stands after a join. -/
theorem freeOrEnd_join {lfree : Nat}
    (held : FreeOrEnd 0
      (left ++ ⟨first, false⟩ :: ⟨second, false⟩ :: right) lfree) :
    FreeOrEnd 0 (left ++ ⟨first + second, false⟩ :: right)
      (if lfree = total left + first then total left else lfree) := by
  split
  · exact .inr ⟨⟨first + second, false⟩, by simp, rfl⟩
  · rename_i elsewhere
    rcases held with atEnd | ⟨cell, member, free⟩
    · left
      rw [atEnd]
      simp only [total_append, total_cons]
      omega
    · right
      simp only [places_append, places_cons, List.mem_append,
        List.mem_cons, Prod.mk.injEq, Nat.add_assoc, Nat.zero_add]
        at member ⊢
      rcases member with member | ⟨rfl, rfl⟩ | ⟨rfl, rfl⟩ | member
      · exact ⟨cell, .inl member, free⟩
      · exact ⟨_, .inr (.inl ⟨rfl, rfl⟩), rfl⟩
      · exact absurd rfl elsewhere
      · exact ⟨cell, .inr (.inr member), free⟩

/-- Two free neighbours become one block. -/
theorem absorb_spec
    (held : Held heap
      (left ++ ⟨first, false⟩ :: ⟨second, false⟩ :: right)) :
    Returns
      (absorb
        { heap with
          lfree :=
            if heap.lfree = total left + first then total left
            else heap.lfree }
        (total left) (total left + first))
      fun after =>
        Held after (left ++ ⟨first + second, false⟩ :: right) ∧
          Follows heap
            (left ++ ⟨first, false⟩ :: ⟨second, false⟩ :: right) after
            (left ++ ⟨first + second, false⟩ :: right) := by
  obtain ⟨leftSized, cellsSized⟩ := sized_append.mp held.laid.sized
  obtain ⟨⟨firstLarge, firstAligned⟩, othersSized⟩ :=
    sized_cons.mp cellsSized
  obtain ⟨⟨secondLarge, secondAligned⟩, rightSized⟩ :=
    sized_cons.mp othersSized
  obtain ⟨leftChain, firstHeader, secondHeader, rightChain⟩ :=
    chained_split.mp held.laid.chained
  obtain ⟨prev, sentinel⟩ := held.laid.sentinel
  have limit := held.laid.limit
  have whole := held.laid.total
  have leftAligned := leftSized.total
  simp only [total_append, total_cons] at whole
  dsimp only at firstLarge firstAligned secondLarge secondAligned
  dsimp only at firstHeader secondHeader rightChain
  have nextWritten := @outside_setNext heap.memory (total left)
    (total left + first + second)
  have unread : header (setNext heap.memory (total left)
      (total left + first + second)) (total left + first) =
        header heap.memory (total left + first) :=
    nextWritten.header (by omega)
  simp only [absorb, secondHeader, unread]
  refine returns_bind_of_eq (entry_of (by omega)
    (by dsimp only; omega)) ?_
  apply returns_pure
  have prevWritten := @outside_setPrev
    (setNext heap.memory (total left) (total left + first + second))
    (total left + first + second) (total left)
  have rightStart : total left + (first + second) =
      total left + first + second := by omega
  refine ⟨⟨⟨held.laid.room, limit, ?_, ?_, ?_, ?_⟩, ?_, ?_⟩, rfl,
    sameUsed_join, ?_, ?_, ?_⟩
  · simp only [total_append, total_cons]
    omega
  · exact sized_append.mpr ⟨leftSized, sized_cons.mpr
      ⟨by dsimp only; omega, rightSized⟩⟩
  · rw [chained_split]
    refine ⟨(leftChain.frame leftSized nextWritten (by omega)).frame
      leftSized prevWritten (by omega), ?_, ?_⟩
    · rw [prevWritten.header (by omega), header_setNext (by omega),
        firstHeader, ← rightStart]
    · dsimp only
      rw [rightStart]
      exact (rightChain.frame rightSized nextWritten (by omega)).relink
        rightSized (by omega)
  · -- the header at the end may be the one that is linked back
    dsimp only
    rcases Nat.lt_or_ge (total left + first + second)
        (heap.memSizeAligned + 12) with inside | atEnd
    · have rightLarge := rightSized.length
      cases right with
      | nil =>
          rw [total_nil] at whole
          omega
      | cons cell right =>
          have large := (sized_cons.mp rightSized).1.1
          rw [total_cons] at whole
          refine ⟨prev, ?_⟩
          rw [prevWritten.header (by omega), nextWritten.header (by omega)]
          exact sentinel
    · have same : heap.memSizeAligned + 12 =
          total left + first + second := by omega
      refine ⟨total left, ?_⟩
      rw [← same, header_setPrev (by omega), same,
        nextWritten.header (by omega), ← same, sentinel]
  · exact freeOrEnd_join held.lfree
  · rw [held.usedMem]
    simp
  · apply Spares.trans
    · exact nextWritten.spares_start left _ rfl
    · rw [List.append_cons, List.append_cons]
      apply prevWritten.spares_start
      simp [Nat.add_assoc]
  · dsimp only
    split <;> omega
  · intro lowest
    dsimp only
    rw [firstFree_free] at lowest ⊢
    have below := firstFree_le_total 0 left
    rw [if_neg (by omega)]
    exact lowest

end Join

/-! ## plug_holes -/

section Plug

variable {heap : SystemHeap} {left right : List Cell} {size : Nat}

theorem plugForward_spec
    (held : Held heap (left ++ ⟨size, false⟩ :: right))
    (separated : Separated right) :
    Returns (plugForward heap (total left)) fun after =>
      ∃ grown rest,
        Held after (left ++ ⟨grown, false⟩ :: rest) ∧ Separated rest ∧
          (∀ cell ∈ rest.head?, cell.used) ∧
            Follows heap (left ++ ⟨size, false⟩ :: right) after
              (left ++ ⟨grown, false⟩ :: rest) := by
  obtain ⟨aligned, large, sizeAligned, whole⟩ := held.laid.place_bounds
  have own := held.laid.header_at
  dsimp only at large sizeAligned whole own
  rw [plugForward, own]
  refine returns_bind_of_eq (entry_of (by dsimp only; omega)
    (by dsimp only; omega)) ?_
  dsimp only
  cases right with
  | nil =>
      rw [total_nil] at whole
      rw [if_neg (by
        rintro ⟨-, -, beforeEnd⟩
        apply beforeEnd
        dsimp only [SystemHeap.heapEnd, sizeofStructMem]
        omega)]
      apply returns_ok
      exact ⟨size, [], held, List.isChain_nil, by simp, Follows.refl⟩
  | cons next rest =>
      have nextBounds := held.laid.place_bounds
      rw [List.append_cons] at held
      have nextHeader := held.laid.header_at
      have nextLarge := held.laid.place_bounds.2.1
      rw [← List.append_cons] at held
      simp only [total_append, total_cons, total_nil, Nat.add_zero]
        at nextHeader
      obtain ⟨nextSize, nextUsed⟩ := next
      cases nextUsed with
      | true =>
          rw [if_neg (by
            rintro ⟨-, unused, -⟩
            rw [nextHeader] at unused
            cases unused)]
          apply returns_ok
          exact ⟨size, _, held, separated, by simp, Follows.refl⟩
      | false =>
          rw [total_cons] at whole
          dsimp only at whole nextLarge
          rw [if_pos ⟨by omega, by rw [nextHeader]; rfl, by
            dsimp only [SystemHeap.heapEnd, sizeofStructMem]
            omega⟩]
          apply (absorb_spec held).mono
          rintro after ⟨joined, follows⟩
          have alone : Separated ([] ++ ⟨nextSize, false⟩ :: rest) :=
            separated
          obtain ⟨-, restSeparated, -, restUsed⟩ := separated_free.mp alone
          exact ⟨size + nextSize, rest, joined, restSeparated, restUsed,
            follows⟩

theorem plugBackward_spec
    (held : Held heap (left ++ ⟨size, false⟩ :: right))
    (leftSeparated : Separated left) (rightSeparated : Separated right)
    (rightUsed : ∀ cell ∈ right.head?, cell.used) :
    Returns (plugBackward heap (total left)) fun after =>
      ∃ changed, Represents after changed ∧
        Follows heap (left ++ ⟨size, false⟩ :: right) after changed := by
  obtain ⟨aligned, large, sizeAligned, whole⟩ := held.laid.place_bounds
  have own := held.laid.header_at
  dsimp only at large sizeAligned whole own
  rw [plugBackward, own]
  rcases List.eq_nil_or_concat left with rfl | ⟨before, last, rfl⟩
  · refine returns_bind_of_eq (entry_of rfl (Nat.zero_le _)) ?_
    rw [if_neg (by
      rintro ⟨moved, -⟩
      exact moved rfl)]
    apply returns_ok
    refine ⟨_, ⟨held, ?_⟩, Follows.refl⟩
    exact separated_free.mpr ⟨leftSeparated, rightSeparated, by simp,
      rightUsed⟩
  · rw [List.concat_eq_append] at *
    have lastLaid := held.laid
    rw [← List.append_cons] at lastLaid
    have lastHeader := lastLaid.header_at
    obtain ⟨beforeAligned, lastLarge, -, -⟩ := lastLaid.place_bounds
    simp only [total_append, total_cons, total_nil, Nat.add_zero]
      at whole aligned ⊢
    simp only [lastStart_append_singleton, Nat.zero_add]
    refine returns_bind_of_eq (entry_of beforeAligned (by omega)) ?_
    obtain ⟨lastSize, lastUsed⟩ := last
    cases lastUsed with
    | true =>
        rw [if_neg (by
          rintro ⟨-, unused⟩
          rw [lastHeader] at unused
          cases unused)]
        apply returns_ok
        refine ⟨_, ⟨held, ?_⟩, Follows.refl⟩
        exact separated_free.mpr ⟨leftSeparated, rightSeparated, by simp,
          rightUsed⟩
    | false =>
        dsimp only at lastLarge
        rw [if_pos ⟨by dsimp only; omega, by rw [lastHeader]; rfl⟩]
        rw [← List.append_cons] at held
        apply (absorb_spec held).mono
        rintro after ⟨joined, follows⟩
        obtain ⟨beforeSeparated, -, beforeUsed, -⟩ :=
          separated_free.mp leftSeparated
        refine ⟨_, ⟨joined, ?_⟩, by rwa [← List.append_cons]⟩
        exact separated_free.mpr ⟨beforeSeparated, rightSeparated,
          beforeUsed, rightUsed⟩

/-- A freed block joins its free neighbours on both sides. -/
theorem plugHoles_spec
    (held : Held heap (left ++ ⟨size, false⟩ :: right))
    (leftSeparated : Separated left) (rightSeparated : Separated right) :
    Returns (plugHoles heap (total left)) fun after =>
      ∃ changed, Represents after changed ∧
        Follows heap (left ++ ⟨size, false⟩ :: right) after changed := by
  obtain ⟨-, large, -, whole⟩ := held.laid.place_bounds
  dsimp only at large whole
  refine returns_bind_of_eq (rtAssert_of (by
    dsimp only [SystemHeap.heapEnd, sizeofStructMem]
    omega)) ?_
  refine returns_bind_of_eq (rtAssert_of (by
    rw [held.laid.header_at]
    rfl)) ?_
  apply (plugForward_spec held rightSeparated).bind
  rintro middle ⟨grown, rest, middleHeld, restSeparated, restUsed, first⟩
  apply (plugBackward_spec middleHeld leftSeparated restSeparated
    restUsed).mono
  rintro after ⟨changed, represents, second⟩
  exact ⟨changed, represents, first.trans second⟩

end Plug

end InternetWavPlayer.MemHeap
