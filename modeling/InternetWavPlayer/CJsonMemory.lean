import Mathlib.Algebra.Order.Floor.Ring
import Mathlib.Data.Rat.Floor
import InternetWavPlayer.CJsonSafety

/-!
# What the parser allocates

Every block that parsing acquires belongs to the tree it builds, also to the
partial tree of a text that is rejected or for which an allocation failed, and
`cJSON_Delete` frees the blocks of a tree, each once.  So a rejected text
leaves the heap as it was, and an accepted one adds just the blocks of its
document.
-/

namespace InternetWavPlayer.CJsonMemory

open InternetWavPlayer.CJsonParse
open InternetWavPlayer.CJsonSafety
open InternetWavPlayer.Contract
open InternetWavPlayer.ResourceLedger
open InternetWavPlayer.Vsnprintf

variable {D : Type}

/-- The block of a string, if there is one. -/
def textBlocks (text : Option Text) : Multiset (Resource Block) :=
  (text.map Text.block).toList

@[simp]
theorem textBlocks_none : textBlocks none = 0 :=
  rfl

/-- The blocks of one item. -/
def itemBlocks (item : Item D) : Multiset (Resource Block) :=
  {item.block} + (textBlocks item.valuestring + textBlocks item.string)

/-- The blocks of a chain and of all that hangs on it. -/
def chainBlocks : Chain D → Multiset (Resource Block)
  | .null => 0
  | .node item child next =>
      itemBlocks item + chainBlocks child + chainBlocks next

/-! ## The allocator -/

section Allocator

variable {before held : Multiset (Resource Block)} {heap after : Heap}
  {allocates : Nat → Bool} {block : Block} {resource : Resource Block}

theorem malloc_none
    (failed : malloc allocates block heap = (none, after)) :
    after.ledger = heap.ledger := by
  rw [malloc] at failed
  split at failed
  · cases failed
  · cases failed
    rfl

theorem malloc_some (owns : Owns before held heap.ledger)
    (allocated : malloc allocates block heap = (some resource, after)) :
    Owns before ({resource} + held) after.ledger := by
  rw [malloc] at allocated
  split at allocated
  · cases allocated
    rw [Multiset.singleton_add]
    exact owns.acquire block
  · cases allocated

variable {double : Double D} {item : Item D}

theorem newItem_none
    (failed : newItem double allocates heap = (none, after)) :
    after.ledger = heap.ledger := by
  rw [newItem] at failed
  split at failed
  · next allocated =>
      cases failed
      exact malloc_none allocated
  · cases failed

theorem newItem_some (owns : Owns before 0 heap.ledger)
    (allocated : newItem double allocates heap = (some item, after)) :
    Owns before (itemBlocks item) after.ledger ∧
      item.valuestring = none ∧ item.string = none := by
  rw [newItem] at allocated
  split at allocated
  · cases allocated
  · next new =>
      cases allocated
      refine ⟨?_, rfl, rfl⟩
      simpa [itemBlocks] using malloc_some owns new

end Allocator

/-! ## Parsing -/

section Parsing

variable (double : Double D) (allocates : Nat → Bool)
  {before : Multiset (Resource Block)} {item : Item D} {heap : Heap}

/-- All that was acquired belongs to the item and its children. -/
def Accounts (before : Multiset (Resource Block)) (parsed : Parsed D) : Prop :=
  Owns before (itemBlocks parsed.item + chainBlocks parsed.child)
    parsed.heap.ledger

theorem accounts_childless (stop : Option Ptr)
    (owns : Owns before (itemBlocks item) heap.ledger) :
    Accounts before (⟨stop, item, .null, heap⟩ : Parsed D) := by
  rw [Accounts, chainBlocks, add_zero]
  exact owns

theorem parseString_accounts (str : Ptr) (unset : item.valuestring = none)
    (owns : Owns before (itemBlocks item) heap.ledger) :
    Yields (parseString allocates item str heap) fun parsed =>
      Accounts before parsed ∧ parsed.child = .null ∧
        parsed.item.string = item.string ∧
        (parsed.stop = none → parsed.item = item) := by
  rw [parseString]
  refine (yields_any _).bind fun first _ => ?_
  split
  · exact yields_pure
      ⟨accounts_childless none owns, rfl, rfl, fun _ => rfl⟩
  · refine (yields_any _).bind fun len _ => ?_
    split
    · next failed =>
        refine yields_pure
          ⟨accounts_childless none ?_, rfl, rfl, fun _ => rfl⟩
        rw [malloc_none failed]
        exact owns
    · next allocated =>
        refine (yields_any _).bind fun written _ => ?_
        refine (yields_any _).bind fun last _ => ?_
        refine yields_pure ⟨?_, rfl, rfl, by simp⟩
        refine accounts_childless _ ?_
        convert malloc_some owns allocated using 1
        simp only [itemBlocks, unset, textBlocks, Option.map_some,
          Option.toList_some, Option.map_none, Option.toList_none,
          Multiset.coe_singleton, Multiset.coe_nil]
        abel

/-- The name becomes the item's own string, and its value is still unset. -/
theorem parseName_accounts (container : Container) (value : Ptr)
    (unset : item.valuestring = none) (unnamed : item.string = none)
    (owns : Owns before (itemBlocks item) heap.ledger) :
    Yields (parseName allocates container item value heap) fun named =>
      Owns before (itemBlocks named.item) named.heap.ledger ∧
        (named.stop ≠ none → named.item.valuestring = none) := by
  cases container with
  | array => exact yields_ok ⟨owns, fun _ => unset⟩
  | object =>
      rw [parseName]
      refine (parseString_accounts allocates value unset owns).bind ?_
      rintro parsed ⟨accounts, childless, kept, unchanged⟩
      rw [Accounts, childless, chainBlocks, add_zero] at accounts
      split
      · next failed => exact yields_pure ⟨accounts, by simp [failed]⟩
      · have moved : itemBlocks
            { parsed.item with
              string := parsed.item.valuestring, valuestring := none } =
              itemBlocks parsed.item := by
          simp only [itemBlocks, kept, unnamed, textBlocks_none, add_zero,
            zero_add]
        refine (yields_any _).bind fun value _ => ?_
        refine (yields_any _).bind fun colon _ => ?_
        split
        · refine yields_pure ⟨?_, by simp⟩
          rw [moved]
          exact accounts
        · refine (yields_any _).bind fun start _ => ?_
          refine yields_pure ⟨?_, fun _ => rfl⟩
          rw [moved]
          exact accounts

theorem parseContainer_accounts (container : Container)
    {members : Ptr → Heap → Except Fault (Members D)}
    (loop : ∀ (before : Multiset (Resource Block)) start heap,
      Owns before 0 heap.ledger →
        Yields (members start heap) fun left =>
          Owns before (chainBlocks left.chain) left.heap.ledger)
    (value : Ptr) (owns : Owns before (itemBlocks item) heap.ledger) :
    Yields (parseContainer container members item value heap)
      (Accounts before) := by
  have typed (type : ItemType) :
      itemBlocks { item with type := type } = itemBlocks item := rfl
  rw [parseContainer]
  refine (yields_any _).bind fun start _ => ?_
  refine (yields_any _).bind fun closing _ => ?_
  split
  · refine yields_pure (accounts_childless _ ?_)
    rw [typed]
    exact owns
  · have framed : Owns (itemBlocks item + before) 0 heap.ledger := by
      rw [owns_frame_iff, zero_add]
      exact owns
    refine (loop _ start heap framed).bind fun left rest => ?_
    refine yields_pure ?_
    rw [Accounts, typed, add_comm, ← owns_frame_iff]
    exact rest

/-- A value and the members of a container, by induction on the calls left. -/
theorem parse_accounts (fuel : Nat) :
    (∀ (before : Multiset (Resource Block)) (item : Item D) value heap,
      item.valuestring = none → Owns before (itemBlocks item) heap.ledger →
        Yields (parseValue double allocates fuel item value heap)
          (Accounts before)) ∧
    (∀ (before : Multiset (Resource Block)) container value heap,
      Owns before 0 heap.ledger →
        Yields (parseMembers double allocates container fuel value heap)
          fun left =>
            Owns before (chainBlocks left.chain) left.heap.ledger) := by
  induction fuel with
  | zero =>
      constructor
      · intro before item value heap unset owns
        rw [parseValue]
        exact yields_error _
      · intro before container value heap owns
        rw [parseMembers]
        exact yields_error _
  | succ fuel ih =>
      obtain ⟨values, members⟩ := ih
      constructor
      · intro before item value heap unset owns
        rw [parseValue]
        refine (yields_any _).bind fun isNull _ => ?_
        split
        · exact yields_pure (accounts_childless _ owns)
        refine (yields_any _).bind fun isFalse _ => ?_
        split
        · exact yields_pure (accounts_childless _ owns)
        refine (yields_any _).bind fun isTrue _ => ?_
        split
        · exact yields_pure (accounts_childless _ owns)
        refine (yields_any _).bind fun first _ => ?_
        split
        · exact (parseString_accounts allocates value unset owns).mono
            fun parsed left => left.1
        split
        · -- a number changes none of the pointers of the item
          have numbered : Yields (parseNumber double item value)
              fun left => itemBlocks left.2 = itemBlocks item := by
            rw [parseNumber]
            refine (yields_any _).bind fun sign _ => ?_
            refine (yields_any _).bind fun whole _ => ?_
            refine (yields_any _).bind fun fraction _ => ?_
            refine (yields_any _).bind fun exponent _ => ?_
            exact yields_pure rfl
          refine numbered.bind ?_
          rintro ⟨stop, numeral⟩ same
          refine yields_pure (accounts_childless _ ?_)
          rw [same]
          exact owns
        split
        · exact parseContainer_accounts .array
            (fun before => members before .array) value owns
        split
        · exact parseContainer_accounts .object
            (fun before => members before .object) value owns
        · exact yields_pure (accounts_childless _ owns)
      · intro before container value heap owns
        rw [parseMembers]
        split
        · next failed =>
            refine yields_ok ?_
            rw [chainBlocks, newItem_none failed]
            exact owns
        · next item heap allocated =>
            obtain ⟨fresh, unset, unnamed⟩ := newItem_some owns allocated
            refine (yields_any _).bind fun start _ => ?_
            refine (parseName_accounts allocates container start unset unnamed
              fresh).bind ?_
            rintro named ⟨kept, ready⟩
            split
            · refine yields_pure ?_
              rw [chainBlocks, chainBlocks, add_zero, add_zero]
              exact kept
            · next start stopped =>
                refine (values before named.item start named.heap
                  (ready (by simp [stopped])) kept).bind ?_
                intro parsed accounts
                have last : Owns before
                    (chainBlocks
                      (.node parsed.item parsed.child .null))
                    parsed.heap.ledger := by
                  rw [chainBlocks, chainBlocks, add_zero]
                  exact accounts
                split
                · exact yields_pure last
                refine (yields_any _).bind fun stop _ => ?_
                refine (yields_any _).bind fun separator _ => ?_
                split
                · have framed : Owns
                      (itemBlocks parsed.item + chainBlocks parsed.child +
                        before) 0 parsed.heap.ledger := by
                    rw [owns_frame_iff, zero_add]
                    exact accounts
                  refine (members _ container _ _ framed).bind ?_
                  intro more rest
                  refine yields_pure ?_
                  rw [chainBlocks, add_comm, ← owns_frame_iff]
                  exact rest
                split
                · exact yields_pure last
                · exact yields_pure last

end Parsing

/-! ## Deleting -/

/-- A string, if there is one, can be freed. -/
theorem freeText_frees {text : Option Text}
    {before held : Multiset (Resource Block)} {ledger : Ledger Block}
    (owns : Owns before (textBlocks text + held) ledger) :
    Returns (freeText text ledger) (Owns before held) := by
  obtain ⟨after, released, rest⟩ := Owns.releaseAny (E := Fault) owns
  exact ⟨after, released, rest⟩

/-- The blocks of a chain can be freed, and nothing else is. -/
theorem cJSONDelete_frees (chain : Chain D) :
    ∀ {before : Multiset (Resource Block)} {ledger : Ledger Block},
      Owns before (chainBlocks chain) ledger →
        Returns (cJSONDelete chain ledger) (Owns before 0) := by
  induction chain with
  | null => exact fun owns => returns_ok owns
  | node item child next childFrees nextFrees =>
      intro before ledger owns
      have live : Owns before
          (item.block ::ₘ (textBlocks item.valuestring +
            textBlocks item.string + chainBlocks child +
            chainBlocks next)) ledger := by
        convert owns using 1
        rw [chainBlocks, itemBlocks, ← Multiset.singleton_add]
        abel
      rw [cJSONDelete]
      refine returns_bind_of_eq live.use ?_
      -- the child chain goes first, then the strings and the item itself
      have framed : Owns (textBlocks item.valuestring +
          (textBlocks item.string + ({item.block} + chainBlocks next)) +
            before) (chainBlocks child) ledger := by
        rw [owns_frame_iff]
        convert owns using 1
        rw [chainBlocks, itemBlocks]
        abel
      refine (childFrees framed).bind fun ledger freed => ?_
      rw [owns_frame_iff, zero_add] at freed
      refine (freeText_frees freed).bind fun ledger freed => ?_
      refine (freeText_frees freed).bind fun ledger freed => ?_
      rw [Multiset.singleton_add] at freed
      obtain ⟨ledger, released, freed, -⟩ := freed.release (E := Fault)
      refine Returns.bind ⟨ledger, released, freed⟩ fun ledger freed => ?_
      exact nextFrees freed

/-! ## A whole document -/

section Document

variable (double : Double D) (allocates : Nat → Bool)

theorem lift_yields {α : Type} {computation : Except Fault α}
    {post : α → Prop} (yields : Yields computation post) :
    Yields (lift (κ := Block) computation) post := by
  cases computation with
  | error fault => exact yields_error _
  | ok value => exact yields_ok (yields value rfl)

theorem lift_returns {α : Type} {computation : Except Fault α}
    {post : α → Prop} (returns : Returns computation post) :
    Returns (lift (κ := Block) computation) post := by
  obtain ⟨value, rfl, meets⟩ := returns
  exact returns_ok meets

/-- The partial or whole tree that parsing leaves can be deleted. -/
theorem root_accounts {before : Multiset (Resource Block)}
    {parsed : Parsed D} (accounts : Accounts before parsed) :
    Owns before (chainBlocks (.node parsed.item parsed.child .null))
      parsed.heap.ledger := by
  rw [chainBlocks, chainBlocks, add_zero]
  exact accounts

theorem parseFirst_accounts {before : Multiset (Resource Block)}
    {item : Item D} {heap : Heap} (value : Ptr)
    (unset : item.valuestring = none)
    (owns : Owns before (itemBlocks item) heap.ledger) :
    Yields (parseFirst double allocates item value heap) (Accounts before) := by
  rw [parseFirst]
  exact (yields_any _).bind fun start _ =>
    (parse_accounts double allocates _).1 _ item start heap unset owns

theorem parseWithOpts_accounts (value : Ptr) (requireNullTerminated : Bool)
    (heap : Heap) :
    Yields
      (cJSONParseWithOpts double allocates value requireNullTerminated heap)
      fun left =>
        Owns heap.ledger.live (chainBlocks left.1) left.2.ledger := by
  rw [cJSONParseWithOpts]
  split
  · next failed =>
      refine yields_ok ?_
      rw [newItem_none failed]
      exact owns_start _
  · next item heap' allocated =>
      obtain ⟨fresh, unset, -⟩ :=
        newItem_some (owns_start heap.ledger) allocated
      refine (lift_yields (parseFirst_accounts double allocates value unset
        fresh)).bind fun parsed accounts => ?_
      refine (yields_any _).bind fun accepted _ => ?_
      split
      · exact yields_pure (root_accounts accounts)
      · obtain ⟨ledger, freed, none⟩ :=
          cJSONDelete_frees _ (root_accounts accounts)
        rw [freed]
        exact yields_pure none

/-- The release of a tree that is rejected never goes wrong. -/
theorem parse_never_dead (value : Ptr) (requireNullTerminated : Bool)
    (heap : Heap) (resource : Resource Block) :
    cJSONParseWithOpts double allocates value requireNullTerminated heap ≠
      .error (.dead resource) := by
  intro faulted
  rw [cJSONParseWithOpts] at faulted
  split at faulted
  · cases faulted
  · next item heap' allocated =>
      obtain ⟨fresh, unset, -⟩ :=
        newItem_some (owns_start heap.ledger) allocated
      cases parses : parseFirst double allocates item value heap' with
      | error fault =>
          rw [parses] at faulted
          cases faulted
      | ok parsed =>
          have accounts := parseFirst_accounts double allocates value unset
            fresh parsed parses
          obtain ⟨ledger, freed, -⟩ :=
            cJSONDelete_frees _ (root_accounts accounts)
          simp only [parses, lift_ok, bind, Except.bind, freed] at faulted
          cases kept : accepts requireNullTerminated parsed.stop with
          | error fault =>
              rw [kept] at faulted
              cases faulted
          | ok accepted =>
              rw [kept] at faulted
              cases accepted <;> cases faulted

/--
Whatever the text and whichever calls of the allocator fail, no block is freed
that is not live.  When `cJSON_Parse` gives null, the heap is as before; when
it gives a document, just the blocks of the document are new, and
`cJSON_Delete` frees each of them once and leaves the heap as before.
-/
theorem parse_then_delete (value : Ptr) (requireNullTerminated : Bool)
    (heap : Heap) :
    (∀ resource, cJSONParseWithOpts double allocates value
      requireNullTerminated heap ≠ .error (.dead resource)) ∧
    ∀ root after, cJSONParseWithOpts double allocates value
        requireNullTerminated heap = .ok (root, after) →
      (root = .null → after.ledger.live = heap.ledger.live) ∧
      after.ledger.live = chainBlocks root + heap.ledger.live ∧
      (chainBlocks root).Nodup ∧
      ∃ freed, cJSONDelete root after.ledger = .ok freed ∧
        freed.live = heap.ledger.live := by
  refine ⟨parse_never_dead double allocates value requireNullTerminated heap,
    fun root after parsed => ?_⟩
  have owns := parseWithOpts_accounts double allocates value
    requireNullTerminated heap _ parsed
  obtain ⟨freed, deleted, none⟩ := cJSONDelete_frees root owns
  refine ⟨?_, owns, ?_, freed, deleted, owns_none_iff.mp none⟩
  · rintro rfl
    exact owns_none_iff.mp owns
  · have distinct := after.ledger.distinct
    rw [show after.ledger.live = chainBlocks root + heap.ledger.live
      from owns] at distinct
    exact (Multiset.nodup_add.mp distinct).1

/-- The parser keeps to its blocks when every escape is whole. -/
theorem parseWithOpts_returns {value : Ptr} (whole : Whole value)
    (requireNullTerminated : Bool) (heap : Heap) :
    ∃ root after,
      cJSONParseWithOpts double allocates value requireNullTerminated heap =
        .ok (root, after) := by
  have returns : Returns
      (cJSONParseWithOpts double allocates value requireNullTerminated heap)
      fun _ => True := by
    rw [cJSONParseWithOpts]
    split
    · exact returns_ok trivial
    · next item heap' allocated =>
        obtain ⟨fresh, unset, -⟩ :=
          newItem_some (owns_start heap.ledger) allocated
        refine (lift_returns ((parseFirst_returns double allocates whole item
          heap').and (parseFirst_accounts double allocates value unset
            fresh))).bind ?_
        rintro parsed ⟨advances, accounts⟩
        have kept : Returns (accepts requireNullTerminated parsed.stop)
            fun _ => True := by
          cases stopped : parsed.stop with
          | none => exact returns_ok trivial
          | some stop =>
              rw [accepts]
              split
              · refine (skip_returns (advances stop stopped).1).bind ?_
                rintro end_ ⟨whole, -⟩
                refine (deref_returns whole).bind fun _ _ => ?_
                exact returns_pure trivial
              · exact returns_ok trivial
        refine (lift_returns kept).bind fun accepted _ => ?_
        split
        · exact returns_pure trivial
        · obtain ⟨ledger, freed, -⟩ :=
            cJSONDelete_frees _ (root_accounts accounts)
          rw [freed]
          exact returns_pure trivial
  obtain ⟨⟨root, after⟩, parsed, -⟩ := returns
  exact ⟨root, after, parsed⟩

/--
When every escape of the text is whole, `cJSON_Parse` and the `cJSON_Delete`
of its result end without reading after the text's block, without writing
after the block of a string and without a wrong release, whatever the allocator
does.
-/
theorem parse_safe {value : Ptr} (whole : Whole value)
    (requireNullTerminated : Bool) (heap : Heap) :
    ∃ root after freed,
      cJSONParseWithOpts double allocates value requireNullTerminated heap =
        .ok (root, after) ∧
      cJSONDelete root after.ledger = .ok freed ∧
      freed.live = heap.ledger.live := by
  obtain ⟨root, after, parsed⟩ :=
    parseWithOpts_returns double allocates whole requireNullTerminated heap
  have owns := parseWithOpts_accounts double allocates value
    requireNullTerminated heap _ parsed
  obtain ⟨freed, deleted, none⟩ := cJSONDelete_frees root owns
  exact ⟨root, after, freed, parsed, deleted, owns_none_iff.mp none⟩

end Document

/-- The rational numbers in the place of `double`. -/
def rationalDouble : Double ℚ where
  ofInt value := value
  add a b := a + b
  sub a b := a - b
  mul a b := a * b
  pow a b := a ^ ⌊b⌋
  toInt a := Int.tdiv a.num a.den

/-- The text `["\u0041",-1]` in a block with a byte behind it. -/
def escapedText : Ptr :=
  "[\"\\u0041\",-1]".toList.map ascii ++ [0, 9]

theorem escapedText_whole : Whole escapedText :=
  .plain (by decide) (by decide) (.plain (by decide) (by decide)
    (.unicode (by decide) (by decide) (by decide) (by decide)
      (.plain (by decide) (by decide) (.plain (by decide) (by decide)
        (.plain (by decide) (by decide) (.plain (by decide) (by decide)
          (.plain (by decide) (by decide) (.nul [9]))))))))

theorem parse_safe_escaped :
    ∃ root after freed,
      cJSONParseWithOpts rationalDouble (fun call => call != 2) escapedText
        false ⟨.empty, 0⟩ = .ok (root, after) ∧
      cJSONDelete root after.ledger = .ok freed ∧
      freed.live = (Ledger.empty : Ledger Block).live :=
  parse_safe rationalDouble (fun call => call != 2) escapedText_whole false
    ⟨.empty, 0⟩

end InternetWavPlayer.CJsonMemory
