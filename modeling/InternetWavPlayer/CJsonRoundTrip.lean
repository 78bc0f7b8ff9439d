import InternetWavPlayer.CJsonReading

/-!
# Printing a document and parsing it again

What a tree of items says is a value of JSON, without blocks and without the
fields that its type leaves unused.  A printed document is parsed to a tree
which says the same, whichever of the two formats it is printed in, and
whatever lies behind its NUL; a failure of the allocator can only lead to no
tree at all.
-/

namespace InternetWavPlayer.CJsonRoundTrip

open InternetWavPlayer.CJsonMemory
open InternetWavPlayer.CJsonParse
open InternetWavPlayer.CJsonPrint
open InternetWavPlayer.CJsonPrinting
open InternetWavPlayer.CJsonReading
open InternetWavPlayer.CJsonSafety
open InternetWavPlayer.Contract
open InternetWavPlayer.ResourceLedger
open InternetWavPlayer.Songlist (blockText)
open InternetWavPlayer.Vsnprintf (ascii isDigit)

/-! ## What a document says -/

/-- A value of JSON, with the numbers of an `int`. -/
inductive Value where
  | null
  | bool (value : Bool)
  | number (value : Int)
  | string (text : List UInt8)
  | array (elements : List Value)
  | object (members : List (List UInt8 × Value))

/-- The value of a container with given members. -/
def holding (container : Container) (members : List (List UInt8 × Value)) :
    Value :=
  match container with
  | .array => .array (members.map Prod.snd)
  | .object => .object members

variable {D : Type}

/--
What an item says whose members say what is given.  A string item without its
string says no more than null.
-/
def valueOf (item : Item D) (members : List (List UInt8 × Value)) : Value :=
  match item.type with
  | .null => .null
  | .false => .bool false
  | .true => .bool true
  | .number => .number item.valueint
  | .string => (item.valuestring.map fun text => .string text.text).getD .null
  | .array => holding .array members
  | .object => holding .object members

/-- The character which begins the text of a container. -/
def Container.opening : Container → UInt8
  | .array => ascii '['
  | .object => ascii '{'

/-- The names and values of the items of a chain. -/
def meaning : Chain D → List (List UInt8 × Value)
  | .null => []
  | .node item child next =>
      (copied item.string, valueOf item (meaning child)) :: meaning next

/-! ## Blanks -/

/-- The white space that the printing functions write. -/
def Blank (text : List UInt8) : Prop :=
  ∀ byte ∈ text, byte = 32 ∨ byte = 10 ∨ byte = 9

theorem blank_nil : Blank [] := by
  rintro byte ⟨⟩

theorem blank_tabs (count : Nat) : Blank (tabs count) :=
  fun _ member => .inr (.inr (List.eq_of_mem_replicate member))

theorem Blank.append {first second : List UInt8} (blank : Blank first)
    (rest : Blank second) : Blank (first ++ second) := by
  intro byte member
  rcases List.mem_append.mp member with member | member
  · exact blank byte member
  · exact rest byte member

theorem Blank.cons {byte : UInt8} {text : List UInt8}
    (white : byte = 32 ∨ byte = 10 ∨ byte = 9) (blank : Blank text) :
    Blank (byte :: text) := by
  rintro other (_ | ⟨_, member⟩)
  · exact white
  · exact blank other member

theorem skip_blank {text : List UInt8} (blank : Blank text) (rest : Ptr) :
    skip (text ++ rest) = skip rest := by
  induction text with
  | nil => rfl
  | cons byte text ih =>
      have white : byte ≠ 0 ∧ byte ≤ 32 := by
        rcases blank byte (by simp) with rfl | rfl | rfl <;> decide
      rw [List.cons_append, skip, if_pos white]
      exact ih fun other member => blank other (by simp [member])

/-- A pointer at which `skip` does not move. -/
def Visible (p : Ptr) : Prop :=
  ∃ byte rest, p = byte :: rest ∧ 32 < byte

theorem skip_visible {p : Ptr} (visible : Visible p) : skip p = .ok p := by
  obtain ⟨byte, rest, rfl, high⟩ := visible
  have notBlank : ¬ (byte ≠ 0 ∧ byte ≤ 32) :=
    fun blank => absurd (UInt8.lt_of_le_of_lt blank.2 high)
      (UInt8.lt_irrefl _)
  rw [skip, if_neg notBlank]

theorem visible_cons {byte : UInt8} (rest : Ptr) (high : 32 < byte) :
    Visible (byte :: rest) :=
  ⟨byte, rest, rfl, high⟩

theorem visible_closing (container : Container) (rest : Ptr) :
    Visible (container.closing :: rest) :=
  visible_cons rest (by cases container <;> decide)

/-- The first character of a value or of a name. -/
def Starts (p : Ptr) : Prop :=
  ∃ byte rest, p = byte :: rest ∧ 32 < byte ∧ byte ≠ ascii ']' ∧
    byte ≠ ascii '}'

theorem starts_cons {byte : UInt8} (rest : Ptr)
    (first : 32 < byte ∧ byte ≠ ascii ']' ∧ byte ≠ ascii '}') :
    Starts (byte :: rest) :=
  ⟨byte, rest, rfl, first⟩

theorem Starts.append {text : List UInt8} (starts : Starts text) (rest : Ptr) :
    Starts (text ++ rest) := by
  obtain ⟨byte, tail, rfl, first⟩ := starts
  exact ⟨byte, tail ++ rest, rfl, first⟩

theorem Starts.visible {p : Ptr} (starts : Starts p) : Visible p := by
  obtain ⟨byte, rest, rfl, high, -⟩ := starts
  exact visible_cons rest high

/-- A printed number starts with its sign or with a digit. -/
theorem decimal_first (value : Int) :
    ∃ byte rest, decimal value = byte :: rest ∧
      (byte = ascii '-' ∨ isDigit byte) := by
  rw [decimal]
  split_ifs with negative zero
  · exact ⟨_, _, rfl, .inl rfl⟩
  · exact ⟨_, _, rfl, .inr (by decide)⟩
  · obtain ⟨first, ds, split⟩ : ∃ first ds,
        (Nat.digits 10 value.natAbs).reverse = first :: ds := by
      refine List.exists_cons_of_ne_nil ?_
      rw [ne_eq, List.reverse_eq_nil_iff]
      exact Nat.digits_ne_nil_iff_ne_zero.mpr (by omega)
    have small : first < 10 := by
      refine Nat.digits_lt_base (b := 10) (m := value.natAbs) (by norm_num)
        (List.mem_reverse.mp ?_)
      simp [split]
    rw [split, List.map_cons]
    exact ⟨_, _, rfl, .inr (isDigit_digitByte small).1⟩

/-- Neither a sign nor a digit is a quote or starts a literal. -/
theorem numeric_first {byte : UInt8}
    (numeric : byte = ascii '-' ∨ isDigit byte) :
    (32 < byte ∧ byte ≠ ascii ']' ∧ byte ≠ ascii '}') ∧
      byte ≠ ascii 'n' ∧ byte ≠ ascii 'f' ∧ byte ≠ ascii 't' ∧
      byte ≠ ascii '"' := by
  rcases numeric with rfl | digit
  · decide
  · have range := digit
    simp only [isDigit, Bool.and_eq_true, decide_eq_true_eq,
      UInt8.le_iff_toNat_le, show (ascii '0').toNat = 48 from rfl,
      show (ascii '9').toNat = 57 from rfl] at range
    refine ⟨⟨?_, ?_, ?_⟩, ?_, ?_, ?_, ?_⟩
    · rw [UInt8.lt_iff_toNat_lt]
      show 32 < byte.toNat
      omega
    all_goals
      rintro rfl
      exact absurd digit (by decide)

/-- The text of an item starts with a visible character. -/
theorem starts_renderItem (fmt : Bool) (depth : Nat) (item : Item D)
    (members : List (List UInt8 × List UInt8)) :
    Starts (renderItem fmt depth item members) := by
  have container (container : Container) :
      Starts (if members.isEmpty then emptyText container fmt depth
        else enclose container fmt (depth + 1)
          (compose container fmt (depth + 1) members)) := by
    split <;> cases container <;> exact starts_cons _ (by decide)
  simp only [renderItem]
  split
  · exact starts_cons _ (by decide)
  · exact starts_cons _ (by decide)
  · exact starts_cons _ (by decide)
  · obtain ⟨byte, rest, shape, numeric⟩ := decimal_first item.valueint
    rw [shape]
    exact starts_cons _ (numeric_first numeric).1
  · exact starts_cons _ (by decide)
  · exact container .array
  · exact container .object

/-! ## Literals and first characters -/

theorem startsWith_append (literal : List UInt8) (rest : Ptr) :
    startsWith literal (literal ++ rest) = .ok true := by
  induction literal with
  | nil => rfl
  | cons character literal ih =>
      rw [List.cons_append, startsWith, if_pos rfl]
      exact ih

theorem startsWith_other {character byte : UInt8} (literal : List UInt8)
    (rest : Ptr) (other : byte ≠ character) :
    startsWith (character :: literal) (byte :: rest) = .ok false := by
  rw [startsWith, if_neg other]

/-- A first character which starts none of the literals. -/
theorem no_literal {byte : UInt8} (rest : Ptr) (null : byte ≠ ascii 'n')
    (false : byte ≠ ascii 'f') (true : byte ≠ ascii 't') :
    startsWith nullText (byte :: rest) = .ok Bool.false ∧
    startsWith falseText (byte :: rest) = .ok Bool.false ∧
    startsWith trueText (byte :: rest) = .ok Bool.false :=
  ⟨startsWith_other _ rest null, startsWith_other _ rest false,
    startsWith_other _ rest true⟩

/-! ## Reading back a value -/

section Reading

variable {printing : Printing D} {allocates : Nat → Bool}

/--
Stopped by the allocator since the start, or read to the end, with the value
given.
-/
def Reads (allocates : Nat → Bool) (start : Heap) (rest : Ptr)
    (value : Value) (parsed : Parsed D) : Prop :=
  (parsed.stop = none ∧ Refused allocates start parsed.heap) ∨
    (parsed.stop = some rest ∧ start.calls ≤ parsed.heap.calls ∧
      valueOf parsed.item (meaning parsed.child) = value)

/-- The same for the members of a container. -/
def ReadsMembers (allocates : Nat → Bool) (container : Container)
    (start : Heap) (rest : Ptr) (members : List (List UInt8 × Value))
    (left : Members D) : Prop :=
  (left.stop = none ∧ Refused allocates start left.heap) ∨
    (left.stop = some rest ∧ start.calls ≤ left.heap.calls ∧
      holding container (meaning left.chain) = holding container members)

/-- The loop over the members reads back those of a chain, at any depth. -/
def ReadsChain (printing : Printing D) (allocates : Nat → Bool) (fmt : Bool)
    (container : Container) (chain : Chain D) : Prop :=
  ∀ (depth fuel : Nat) (blank trailer : List UInt8) (rest : Ptr)
    (heap : Heap), Blank blank → Blank trailer →
    Yields
      (parseMembers printing.toDouble allocates container fuel
        (blank ++ (compose container fmt depth (renderings fmt chain depth) ++
          (trailer ++ container.closing :: rest))) heap)
      (ReadsMembers allocates container heap rest (meaning chain))

theorem parseContainer_empty (printing : Printing D)
    (allocates : Nat → Bool) (fuel : Nat) {container : Container}
    {fmt : Bool} {depth : Nat} {item : Item D} {rest : Ptr} {heap : Heap} :
    Yields
      (parseContainer container
        (parseMembers printing.toDouble allocates container fuel) item
        (emptyText container fmt depth ++ rest) heap) fun parsed =>
      parsed.stop = some rest ∧ parsed.heap = heap ∧
        parsed.item.type = container.type ∧ parsed.child = .null ∧
        parsed.item.string = item.string := by
  have blank : ∃ inside, Blank inside ∧ ∃ opening,
      emptyText container fmt depth ++ rest =
        opening :: (inside ++ container.closing :: rest) := by
    cases container with
    | array => exact ⟨[], blank_nil, ascii '[', rfl⟩
    | object =>
        cases fmt with
        | false => exact ⟨[], blank_nil, ascii '{', rfl⟩
        | true =>
            refine ⟨10 :: tabs (depth - 1),
              (blank_tabs _).cons (.inr (.inl rfl)), ascii '{', ?_⟩
            simp [emptyText, Container.closing]
  obtain ⟨inside, blank, opening, shape⟩ := blank
  rw [shape, parseContainer]
  simp only [List.drop_succ_cons, List.drop_zero]
  rw [skip_blank blank, skip_visible (visible_closing container rest)]
  simp only [bind, Except.bind, deref, if_true, List.drop_succ_cons,
    List.drop_zero]
  exact yields_pure ⟨rfl, rfl, rfl, rfl, rfl⟩

/-- The members depend on where they start only through `skip`. -/
theorem parseMembers_congr {container : Container} {fuel : Nat} {p q : Ptr}
    (same : skip p = skip q) (heap : Heap) :
    parseMembers printing.toDouble allocates container fuel p heap =
      parseMembers printing.toDouble allocates container fuel q heap := by
  cases fuel with
  | zero => rw [parseMembers, parseMembers]
  | succ fuel => rw [parseMembers, parseMembers, same]

/-- What a member starts with, behind blanks, does not close a container. -/
theorem memberStart_skip (container : Container) (fmt : Bool) (depth : Nat)
    (name : List UInt8) {value : List UInt8} (starts : Starts value) :
    ∃ start, Starts start ∧
      skip (memberStart container fmt depth (quoted name) ++ value) =
        .ok start ∧
      (container = .array → start = value) ∧
      (container = .object →
        start = quoted name ++ (ascii ':' :: ((if fmt then [9] else []) ++
          value))) := by
  cases container with
  | array =>
      exact ⟨value, starts, skip_visible starts.visible, fun _ => rfl,
        by simp⟩
  | object =>
      have start : Starts (quoted name ++ (ascii ':' ::
          ((if fmt then [9] else []) ++ value))) :=
        (starts_cons _ (by decide)).append _
      have indent : Blank (if fmt then tabs depth else []) := by
        split
        · exact blank_tabs _
        · exact blank_nil
      refine ⟨_, start, ?_, by simp, fun _ => rfl⟩
      rw [memberStart, List.append_assoc, List.append_assoc,
        skip_blank indent, List.cons_append, skip_visible start.visible]

/-- The name of a member is read back, up to its value. -/
theorem parseName_reads {container : Container} {fmt : Bool}
    {name : List UInt8} (solid : Solid name) {value start : List UInt8}
    (starts : Starts value) (item : Item D) (heap : Heap)
    (array : container = .array → start = value)
    (object : container = .object →
      start = quoted name ++ (ascii ':' :: ((if fmt then [9] else []) ++
        value))) :
    Yields (parseName allocates container item start heap) fun named =>
      (named.stop = none ∧ Refused allocates heap named.heap) ∨
      (named.stop = some value ∧ heap.calls ≤ named.heap.calls ∧
        (container = .object → copied named.item.string = name)) := by
  cases container with
  | array =>
      rw [array rfl]
      exact yields_ok (.inr ⟨rfl, le_rfl, by simp⟩)
  | object =>
      rw [object rfl, parseName]
      refine (parseString_quoted solid _ item).bind ?_
      rintro parsed
        (⟨failed, -, refused⟩ | ⟨stopped, counts, out, named⟩)
      · rw [failed]
        exact yields_pure (.inl ⟨failed, refused⟩)
      · have colon : Visible (ascii ':' ::
            ((if fmt then [9] else []) ++ value)) :=
          visible_cons _ (by decide)
        have tab : Blank (if fmt then [9] else []) := by
          split
          · exact blank_nil.cons (.inr (.inr rfl))
          · exact blank_nil
        rw [stopped]
        simp only [skip_visible colon, bind, Except.bind, deref, ne_eq,
          not_true_eq_false, if_false, List.drop_succ_cons, List.drop_zero,
          skip_blank tab, skip_visible starts.visible]
        refine yields_pure (.inr ⟨rfl, counts, fun _ => ?_⟩)
        rw [named]
        exact blockText_of_solid solid

theorem compose_node (container : Container) (fmt : Bool) (depth : Nat)
    (item : Item D) (child next : Chain D) (rest : Ptr) :
    compose container fmt depth
        (renderings fmt (.node item child next) depth) ++ rest =
      memberStart container fmt depth (quoted (copied item.string)) ++
        (renderItem fmt depth item (renderings fmt child (depth + 1)) ++
          (memberEnd container fmt (renderings fmt next depth).isEmpty ++
            (compose container fmt depth (renderings fmt next depth) ++
              rest))) := by
  rw [renderings, compose]
  simp only [List.append_assoc]

/-- A container with members is read back if its members are. -/
theorem parseContainer_reads {container : Container} {fmt : Bool}
    {child : Chain D} (some : child ≠ .null)
    (reads : ReadsChain printing allocates fmt container child)
    (depth fuel : Nat) (item : Item D) (tail : Ptr) (heap : Heap) :
    Yields
      (parseContainer container
        (parseMembers printing.toDouble allocates container fuel) item
        (enclose container fmt depth
          (compose container fmt depth (renderings fmt child depth)) ++ tail)
        heap) fun parsed =>
      ((parsed.stop = none ∧ Refused allocates heap parsed.heap) ∨
        (parsed.stop = Option.some tail ∧
          heap.calls ≤ parsed.heap.calls ∧
          holding container (meaning parsed.child) =
            holding container (meaning child))) ∧
      parsed.item.type = container.type ∧
        parsed.item.string = item.string := by
  -- the blanks behind the opening and before the closing character
  obtain ⟨opening, inside, trailer, blankInside, blankTrailer, shape⟩ :
      ∃ opening inside trailer, Blank inside ∧ Blank trailer ∧
        enclose container fmt depth
            (compose container fmt depth (renderings fmt child depth)) ++
              tail =
          opening :: (inside ++
            (compose container fmt depth (renderings fmt child depth) ++
              (trailer ++ container.closing :: tail))) := by
    cases container with
    | array =>
        exact ⟨ascii '[', [], [], blank_nil, blank_nil, by
          simp [enclose, Container.closing]⟩
    | object =>
        refine ⟨ascii '{', if fmt then [10] else [],
          if fmt then tabs (depth - 1) else [], ?_, ?_, ?_⟩
        · split
          · exact blank_nil.cons (.inr (.inl rfl))
          · exact blank_nil
        · split
          · exact blank_tabs _
          · exact blank_nil
        · simp [enclose, Container.closing]
  have members := reads depth fuel inside trailer tail heap blankInside
    blankTrailer
  cases child with
  | null => exact absurd rfl some
  | node first grandchild next =>
      rw [compose_node] at shape members
      obtain ⟨start, starts, skipped, -⟩ := memberStart_skip container fmt
        depth (copied first.string)
        ((starts_renderItem fmt depth first
          (renderings fmt grandchild (depth + 1))).append
            (memberEnd container fmt (renderings fmt next depth).isEmpty ++
              (compose container fmt depth (renderings fmt next depth) ++
                (trailer ++ container.closing :: tail))))
      rw [parseMembers_congr (q := start)
        (by rw [skip_blank blankInside, skipped,
          skip_visible starts.visible])] at members
      obtain ⟨byte, rest, rfl, -, notArray, notObject⟩ := starts
      have open_ : byte ≠ container.closing := by
        cases container
        · exact notArray
        · exact notObject
      rw [shape, parseContainer]
      simp only [List.drop_succ_cons, List.drop_zero, skip_blank blankInside,
        skipped, bind, Except.bind, deref, open_, if_false]
      refine members.bind fun left reads => ?_
      refine yields_pure ⟨?_, rfl, rfl⟩
      exact reads

/-- A value that starts with none of the letters of a literal. -/
theorem parseValue_other {byte : UInt8} (null : byte ≠ ascii 'n')
    (false : byte ≠ ascii 'f') (true : byte ≠ ascii 't') (fuel : Nat)
    (item : Item D) (rest : Ptr) (heap : Heap) :
    parseValue printing.toDouble allocates (fuel + 1) item (byte :: rest) heap =
      if byte = ascii '"' then
        parseString allocates item (byte :: rest) heap
      else if byte = ascii '-' ∨ isDigit byte then do
        let (stop, item) ← parseNumber printing.toDouble item (byte :: rest)
        return ⟨some stop, item, .null, heap⟩
      else if byte = ascii '[' then
        parseContainer .array
          (parseMembers printing.toDouble allocates .array fuel) item
          (byte :: rest) heap
      else if byte = ascii '{' then
        parseContainer .object
          (parseMembers printing.toDouble allocates .object fuel) item
          (byte :: rest) heap
      else return ⟨none, item, .null, heap⟩ := by
  obtain ⟨notNull, notFalse, notTrue⟩ := no_literal rest null false true
  rw [parseValue]
  simp only [notNull, notFalse, notTrue, bind, Except.bind, deref,
    Bool.false_eq_true, if_false]

/-- A container, empty or not, behind its first character. -/
theorem parseValue_container (container : Container) {fmt : Bool}
    {depth : Nat} {item : Item D} {child : Chain D}
    (type : item.type = container.type)
    (reads : child ≠ .null →
      ReadsChain printing allocates fmt container child)
    (fuel : Nat) (into : Item D) (tail : Ptr) (heap : Heap) :
    Yields
      (parseValue printing.toDouble allocates (fuel + 1) into
        ((if (renderings fmt child (depth + 1)).isEmpty then
            emptyText container fmt depth
          else enclose container fmt (depth + 1)
            (compose container fmt (depth + 1)
              (renderings fmt child (depth + 1)))) ++ tail) heap)
      fun parsed =>
        Reads allocates heap tail (valueOf item (meaning child)) parsed ∧
          parsed.item.string = into.string := by
  have value (parsed : Parsed D)
      (same : parsed.item.type = container.type) :
      valueOf parsed.item (meaning parsed.child) =
        holding container (meaning parsed.child) := by
    rw [valueOf, same]
    cases container <;> rfl
  have meant : valueOf item (meaning child) =
      holding container (meaning child) := by
    rw [valueOf, type]
    cases container <;> rfl
  have opened (text : List UInt8)
      (opening : ∃ rest, text = Container.opening container :: rest) :
      parseValue printing.toDouble allocates (fuel + 1) into text heap =
        parseContainer container
          (parseMembers printing.toDouble allocates container fuel) into text
          heap := by
    obtain ⟨rest, rfl⟩ := opening
    cases container with
    | array =>
        show parseValue printing.toDouble allocates (fuel + 1) into
          (ascii '[' :: rest) heap = _
        rw [parseValue_other (by decide) (by decide) (by decide),
          if_neg (by decide), if_neg (by decide), if_pos rfl]
        rfl
    | object =>
        show parseValue printing.toDouble allocates (fuel + 1) into
          (ascii '{' :: rest) heap = _
        rw [parseValue_other (by decide) (by decide) (by decide),
          if_neg (by decide), if_neg (by decide), if_neg (by decide),
          if_pos rfl]
        rfl
  cases child with
  | null =>
      rw [renderings, List.isEmpty_nil, if_pos rfl,
        opened _ (by cases container <;> exact ⟨_, rfl⟩)]
      refine (parseContainer_empty printing allocates fuel).mono ?_
      rintro parsed ⟨stopped, kept, type, childless, named⟩
      refine ⟨.inr ⟨stopped, by rw [kept], ?_⟩, named⟩
      rw [value parsed type, childless, meant]
  | node first grandchild next =>
      rw [if_neg (by simp [renderings]),
        opened _ (by cases container <;> exact ⟨_, rfl⟩)]
      refine (parseContainer_reads (by simp) (reads (by simp)) (depth + 1) fuel
        into tail heap).mono ?_
      rintro parsed ⟨outcome, type, named⟩
      refine ⟨?_, named⟩
      rcases outcome with failed | ⟨stopped, counts, same⟩
      · exact .inl failed
      · refine .inr ⟨stopped, counts, ?_⟩
        rw [value parsed type, same, meant]

/-- The text of an item is read back as its value. -/
theorem parseValue_reads (exact_ : Exact printing) {fmt : Bool} {depth : Nat}
    {item : Item D} {child : Chain D}
    (there : item.type = .string → item.valuestring.isSome)
    (whole : item.type = .number → WholeNumber printing item)
    (array : item.type = .array → child ≠ .null →
      ReadsChain printing allocates fmt .array child)
    (object : item.type = .object → child ≠ .null →
      ReadsChain printing allocates fmt .object child)
    (fuel : Nat) (into : Item D) {tail : Ptr} (ends : Ends tail)
    (heap : Heap) :
    Yields
      (parseValue printing.toDouble allocates fuel into
        (renderItem fmt depth item (renderings fmt child (depth + 1)) ++ tail)
        heap)
      fun parsed =>
        Reads allocates heap tail (valueOf item (meaning child)) parsed ∧
          parsed.item.string = into.string := by
  cases fuel with
  | zero =>
      rw [parseValue]
      exact yields_error _
  | succ fuel =>
      simp only [renderItem]
      cases type : item.type with
      | null =>
          rw [parseValue]
          simp only [startsWith_append, bind, Except.bind, if_true]
          exact yields_pure
            ⟨.inr ⟨rfl, le_rfl, by rw [valueOf, valueOf, type]⟩, rfl⟩
      | false =>
          have notNull : startsWith nullText
              (falseText ++ tail) = .ok Bool.false :=
            startsWith_other _ _ (by decide)
          rw [parseValue]
          simp only [notNull, startsWith_append, bind, Except.bind, if_true,
            Bool.false_eq_true, if_false]
          exact yields_pure
            ⟨.inr ⟨rfl, le_rfl, by rw [valueOf, valueOf, type]⟩, rfl⟩
      | true =>
          have notNull : startsWith nullText
              (trueText ++ tail) = .ok Bool.false :=
            startsWith_other _ _ (by decide)
          have notFalse : startsWith falseText
              (trueText ++ tail) = .ok Bool.false :=
            startsWith_other _ _ (by decide)
          rw [parseValue]
          simp only [notNull, notFalse, startsWith_append, bind, Except.bind,
            if_true, Bool.false_eq_true, if_false]
          exact yields_pure
            ⟨.inr ⟨rfl, le_rfl, by rw [valueOf, valueOf, type]⟩, rfl⟩
      | number =>
          obtain ⟨low, high, -⟩ := whole type
          obtain ⟨byte, rest, shape, numeric⟩ := decimal_first item.valueint
          obtain ⟨-, null, false, true, quote⟩ := numeric_first numeric
          have read := parseNumber_decimal exact_ ends low high into
          rw [shape, List.cons_append] at read
          rw [shape, List.cons_append, parseValue_other null false true,
            if_neg quote, if_pos numeric, read]
          exact yields_pure
            ⟨.inr ⟨rfl, le_rfl, by rw [valueOf, valueOf, type]⟩, rfl⟩
      | string =>
          rw [quoted, List.cons_append,
            parseValue_other (by decide) (by decide) (by decide), if_pos rfl,
            ← List.cons_append, ← quoted]
          refine (parseString_quoted (solid_copied _) tail into).mono ?_
          rintro parsed
            (⟨failed, same, refused⟩ | ⟨stopped, counts, out, set⟩)
          · exact ⟨.inl ⟨failed, refused⟩, by rw [same]⟩
          · refine ⟨.inr ⟨stopped, counts, ?_⟩, by rw [set]⟩
            obtain ⟨text, found⟩ := Option.isSome_iff_exists.mp (there type)
            rw [set, valueOf, valueOf, type, found]
            exact congrArg Value.string
              (blockText_of_solid (solid_blockText text.written))
      | array =>
          exact parseValue_container .array type (array type) fuel into tail
            heap
      | object =>
          exact parseValue_container .object type (object type) fuel into tail
            heap

theorem blank_memberEnd (container : Container) (fmt : Bool) :
    Blank (memberEnd container fmt true) ∧
      ∃ after, Blank after ∧
        memberEnd container fmt false = ascii ',' :: after := by
  have newline : Blank (if fmt then [10] else []) := by
    split
    · exact blank_nil.cons (.inr (.inl rfl))
    · exact blank_nil
  cases container with
  | array =>
      refine ⟨blank_nil, if fmt then [32] else [], ?_, rfl⟩
      split
      · exact blank_nil.cons (.inl rfl)
      · exact blank_nil
  | object => exact ⟨newline, if fmt then [10] else [], newline, rfl⟩

/-- Neither blanks nor a closing bracket go on with a number. -/
theorem ends_closing {blank : List UInt8} (white : Blank blank)
    (container : Container) (rest : Ptr) :
    Ends (blank ++ container.closing :: rest) := by
  cases blank with
  | nil =>
      refine ⟨container.closing, rest, rfl, ?_⟩
      cases container <;> decide
  | cons byte blank =>
      refine ⟨byte, _, rfl, ?_⟩
      rcases white byte (by simp) with rfl | rfl | rfl <;> decide

/-- The members of a container, by induction over the chain. -/
theorem parseMembers_reads (exact_ : Exact printing) (fmt : Bool)
    (chain : Chain D) :
    ∀ container, Printable printing container chain → chain ≠ .null →
      ReadsChain printing allocates fmt container chain := by
  induction chain with
  | null => exact fun container _ some => absurd rfl some
  | node item child next childIH nextIH =>
      intro container printable _ depth fuel blank trailer rest heap white
        closes
      obtain ⟨-, there, whole, array, object, others⟩ := printable
      cases fuel with
      | zero =>
          rw [parseMembers]
          exact yields_error _
      | succ fuel =>
          rw [compose_node, parseMembers]
          split
          · next failed =>
              refine yields_ok (.inl ⟨rfl, ?_⟩)
              exact newItem_refused failed
          next into heap' allocated =>
          have first := newItem_calls allocated
          -- the text behind the value, and how the loop goes on there
          generalize behind : memberEnd container fmt
            (renderings fmt next depth).isEmpty ++
              (compose container fmt depth (renderings fmt next depth) ++
                (trailer ++ container.closing :: rest)) = tail
          have value := starts_renderItem fmt depth item
            (renderings fmt child (depth + 1))
          obtain ⟨start, starts, skipped, isArray, isObject⟩ :=
            memberStart_skip container fmt depth (copied item.string)
              (value.append tail)
          rw [skip_blank white, skipped]
          refine (parseName_reads (solid_copied item.string)
            (value.append tail) into heap' isArray isObject).bind ?_
          rintro named (⟨failed, refused⟩ | ⟨stopped, second, name⟩)
          · rw [failed]
            exact yields_pure
              (.inl ⟨rfl, refused.mono (by omega) le_rfl⟩)
          rw [stopped]
          have ends : Ends tail := by
            rw [← behind]
            cases next with
            | null =>
                rw [renderings, List.isEmpty_nil, compose, List.nil_append,
                  ← List.append_assoc]
                exact ends_closing
                  ((blank_memberEnd container fmt).1.append closes) _ _
            | node =>
                obtain ⟨after, -, comma⟩ :=
                  (blank_memberEnd container fmt).2
                rw [renderings, List.isEmpty_cons, comma]
                exact ⟨_, _, rfl, by decide⟩
          refine (parseValue_reads exact_ there whole
            (fun type some => childIH .array (array type) some)
            (fun type some => childIH .object (object type) some)
            fuel named.item ends named.heap).bind ?_
          rintro parsed
            ⟨⟨failed, refused⟩ | ⟨stopped, third, meant⟩, kept⟩
          · rw [failed]
            exact yields_pure
              (.inl ⟨rfl, refused.mono (by omega) le_rfl⟩)
          rw [stopped]
          have same : container = .object →
              copied parsed.item.string = copied item.string := by
            intro kind
            rw [kept, name kind]
          subst behind
          cases next with
          | null =>
              rw [renderings, List.isEmpty_nil, compose, List.nil_append]
              simp only [skip_blank (blank_memberEnd container fmt).1,
                skip_blank closes,
                skip_visible (visible_closing container rest), bind,
                Except.bind, deref, List.drop_succ_cons, List.drop_zero]
              have notComma : container.closing ≠ ascii ',' := by
                cases container <;> decide
              rw [if_neg notComma, if_pos trivial]
              refine yields_pure (.inr ⟨rfl, by simp only; omega, ?_⟩)
              simp only [meaning, meant]
              cases container with
              | array => rfl
              | object => rw [same rfl]
          | node second grandchild following =>
              obtain ⟨after, whiteAfter, comma⟩ :=
                (blank_memberEnd container fmt).2
              have reads := nextIH container others (by simp) depth fuel after
                trailer rest parsed.heap whiteAfter closes
              rw [show (renderings fmt (.node second grandchild following)
                depth).isEmpty = false from rfl, comma, List.cons_append]
              simp only [skip_visible (visible_cons _ (by decide :
                32 < ascii ',')), bind, Except.bind, deref, if_true,
                List.drop_succ_cons, List.drop_zero]
              refine reads.bind fun left outcome => ?_
              rcases outcome with
                ⟨failed, refused⟩ | ⟨stopped, fourth, members⟩
              · exact yields_pure
                  (.inl ⟨failed, refused.mono (by omega) le_rfl⟩)
              · refine yields_pure
                  (.inr ⟨stopped, by simp only; omega, ?_⟩)
                cases container with
                | array =>
                    simp only [holding, Value.array.injEq, meaning,
                      List.map_cons, meant] at members ⊢
                    rw [members]
                | object =>
                    simp only [holding, Value.object.injEq, meaning, meant,
                      same rfl] at members ⊢
                    rw [members]

end Reading

/-! ## Printed escapes are whole -/

/-- Put before a text with whole escapes, it gives another. -/
def Keeps (text : List UInt8) : Prop :=
  ∀ rest, Whole rest → Whole (text ++ rest)

theorem keeps_nil : Keeps [] :=
  fun _ whole => whole

theorem Keeps.append {first second : List UInt8} (keeps : Keeps first)
    (more : Keeps second) : Keeps (first ++ second) := by
  intro rest whole
  rw [List.append_assoc]
  exact keeps _ (more rest whole)

theorem Keeps.cons {byte : UInt8} {text : List UInt8}
    (plain : byte ≠ 0 ∧ byte ≠ ascii '\\') (keeps : Keeps text) :
    Keeps (byte :: text) :=
  fun rest whole => .plain plain.1 plain.2 (keeps rest whole)

theorem keeps_plain {text : List UInt8}
    (plain : ∀ byte ∈ text, byte ≠ 0 ∧ byte ≠ ascii '\\') :
    Keeps text := by
  induction text with
  | nil => exact keeps_nil
  | cons byte text ih =>
      exact (ih fun other member => plain other (by simp [member])).cons
        (plain byte (by simp))

theorem keeps_of_all {text : List UInt8} (all : text.all plainByte = true) :
    Keeps text :=
  keeps_plain fun byte member =>
    plainByte_iff.mp (List.all_eq_true.mp all byte member)

theorem keeps_blank {text : List UInt8} (blank : Blank text) : Keeps text := by
  refine keeps_plain fun byte member => ?_
  rcases blank byte member with rfl | rfl | rfl <;> decide

theorem keeps_quoted {str : List UInt8} (solid : Solid str) :
    Keeps (quoted str) := by
  have body : Keeps (str.flatMap escapeByte) := by
    induction str with
    | nil => exact keeps_nil
    | cons byte str ih =>
        rw [List.flatMap_cons]
        refine Keeps.append ?_ (ih fun other among =>
          solid other (by simp [among]))
        have escapes := escapeByte_escapes (solid byte (by simp))
        generalize escapeByte byte = written at escapes ⊢
        cases escapes with
        | plain quote some other => exact keeps_nil.cons ⟨some, other⟩
        | short letter some other =>
            exact fun rest whole => .escape some other whole
        | control high low first second =>
            exact fun rest whole =>
              .unicode (by decide) (by decide) first second whole
  rw [quoted, escaped_eq solid]
  exact (body.append (keeps_nil.cons (by decide))).cons (by decide)

theorem keeps_decimal (value : Int) : Keeps (decimal value) := by
  have digits : Keeps ((Nat.digits 10 value.natAbs).reverse.map
      fun digit => UInt8.ofNat (48 + digit)) := by
    refine keeps_plain fun byte member => ?_
    obtain ⟨digit, among, rfl⟩ := List.mem_map.mp member
    exact isDigit_plain (isDigit_digitByte (Nat.digits_lt_base (by norm_num)
      (List.mem_reverse.mp among))).1
  rw [decimal]
  split_ifs
  · exact digits.cons (by decide)
  · exact keeps_nil.cons (by decide)
  · exact digits

theorem keeps_emptyText (container : Container) (fmt : Bool) (depth : Nat) :
    Keeps (emptyText container fmt depth) := by
  cases container with
  | array => exact (keeps_nil.cons (by decide)).cons (by decide)
  | object =>
      rw [emptyText]
      refine Keeps.cons (by decide)
        (Keeps.append ?_ (keeps_nil.cons (by decide)))
      split
      · exact (keeps_blank (blank_tabs _)).cons (by decide)
      · exact keeps_nil

theorem keeps_enclose (container : Container) (fmt : Bool) (depth : Nat)
    {members : List UInt8} (keeps : Keeps members) :
    Keeps (enclose container fmt depth members) := by
  cases container with
  | array =>
      exact (keeps.append (keeps_nil.cons (by decide))).cons (by decide)
  | object =>
      rw [enclose]
      refine Keeps.cons (by decide) (Keeps.append (Keeps.append
        (Keeps.append ?_ keeps) ?_) (keeps_nil.cons (by decide)))
      · split
        · exact keeps_nil.cons (by decide)
        · exact keeps_nil
      · split
        · exact keeps_blank (blank_tabs _)
        · exact keeps_nil

theorem keeps_compose (container : Container) (fmt : Bool) (depth : Nat)
    {members : List (List UInt8 × List UInt8)}
    (keeps : ∀ member ∈ members, Keeps member.1 ∧ Keeps member.2) :
    Keeps (compose container fmt depth members) := by
  induction members with
  | nil => exact keeps_nil
  | cons member members ih =>
      obtain ⟨name, value⟩ := keeps member (by simp)
      have start : Keeps (memberStart container fmt depth member.1) := by
        cases container with
        | array => exact keeps_nil
        | object =>
            rw [memberStart]
            refine Keeps.append (Keeps.append ?_ name)
              (Keeps.cons (by decide) ?_)
            · split
              · exact keeps_blank (blank_tabs _)
              · exact keeps_nil
            · split
              · exact keeps_nil.cons (by decide)
              · exact keeps_nil
      have finish : Keeps (memberEnd container fmt members.isEmpty) := by
        cases members.isEmpty with
        | true => exact keeps_blank (blank_memberEnd container fmt).1
        | false =>
            obtain ⟨after, blank, comma⟩ :=
              (blank_memberEnd container fmt).2
            rw [comma]
            exact (keeps_blank blank).cons (by decide)
      exact ((start.append value).append finish).append
        (ih fun other among => keeps other (by simp [among]))

theorem keeps_renderItem (fmt : Bool) (depth : Nat) (item : Item D)
    {members : List (List UInt8 × List UInt8)}
    (keeps : ∀ member ∈ members, Keeps member.1 ∧ Keeps member.2) :
    Keeps (renderItem fmt depth item members) := by
  have container (container : Container) :
      Keeps (if members.isEmpty then emptyText container fmt depth
        else enclose container fmt (depth + 1)
          (compose container fmt (depth + 1) members)) := by
    split
    · exact keeps_emptyText container fmt depth
    · exact keeps_enclose _ _ _ (keeps_compose _ _ _ keeps)
  simp only [renderItem]
  split
  · exact keeps_of_all rfl
  · exact keeps_of_all rfl
  · exact keeps_of_all rfl
  · exact keeps_decimal _
  · exact keeps_quoted (solid_copied _)
  · exact container .array
  · exact container .object

theorem keeps_renderings (fmt : Bool) (chain : Chain D) (depth : Nat) :
    ∀ member ∈ renderings fmt chain depth,
      Keeps member.1 ∧ Keeps member.2 := by
  induction chain generalizing depth with
  | null => rintro member ⟨⟩
  | node item child next childIH nextIH =>
      rintro member (_ | ⟨_, among⟩)
      · exact ⟨keeps_quoted (solid_copied _),
          keeps_renderItem fmt depth item (childIH (depth + 1))⟩
      · exact nextIH depth member among

/-! ## The round trip -/

section RoundTrip

variable {printing : Printing D} (allocates : Nat → Bool)

/-- What `cJSON_Parse` makes of the text of an item and its NUL. -/
theorem parse_rendered (exact_ : Exact printing) (fmt : Bool) {item : Item D}
    {child : Chain D}
    (printable : Printable printing .array (.node item child .null))
    (behind : Ptr) (heap : Heap) :
    Returns
      (cJSONParse printing.toDouble allocates
        (renderItem fmt 0 item (renderings fmt child 1) ++ 0 :: behind) heap)
      fun parsed =>
        (parsed.1 = .null ∧ Refused allocates heap parsed.2) ∨
          meaning parsed.1 = [([], valueOf item (meaning child))] := by
  obtain ⟨-, there, whole, array, object, -⟩ := printable
  have escapes : Whole
      (renderItem fmt 0 item (renderings fmt child 1) ++ 0 :: behind) :=
    keeps_renderItem fmt 0 item (keeps_renderings fmt child 1) _ (.nul behind)
  obtain ⟨root, after, parsed⟩ :=
    parseWithOpts_returns printing.toDouble allocates escapes false heap
  have ends : Ends (0 :: behind) := ⟨0, behind, rfl, by decide⟩
  have start := (starts_renderItem fmt 0 item (renderings fmt child 1)).append
    (0 :: behind)
  have yields : Yields
      (cJSONParse printing.toDouble allocates
        (renderItem fmt 0 item (renderings fmt child 1) ++ 0 :: behind) heap)
      fun parsed =>
        (parsed.1 = .null ∧ Refused allocates heap parsed.2) ∨
          meaning parsed.1 = [([], valueOf item (meaning child))] := by
    rw [cJSONParse, cJSONParseWithOpts]
    split
    · next failed =>
        exact yields_ok (.inl ⟨rfl, newItem_refused failed⟩)
    · next into heap' allocated =>
        obtain ⟨-, -, unnamed⟩ :=
          newItem_some (owns_start heap.ledger) allocated
        have reads : Yields
            (parseFirst printing.toDouble allocates into
              (renderItem fmt 0 item (renderings fmt child 1) ++ 0 :: behind)
              heap') fun parsed =>
            Reads allocates heap' (0 :: behind)
                (valueOf item (meaning child)) parsed ∧
              parsed.item.string = into.string := by
          rw [parseFirst, skip_visible start.visible]
          exact parseValue_reads exact_ there whole
            (fun type some => parseMembers_reads exact_ fmt child .array
              (array type) some)
            (fun type some => parseMembers_reads exact_ fmt child .object
              (object type) some) _ into ends heap'
        refine (lift_yields reads).bind ?_
        · rintro parsed
            ⟨⟨failed, refused⟩ | ⟨stopped, -, meant⟩, named⟩
          · rw [failed]
            refine yields_ok_bind ?_
            refine (yields_any _).bind fun ledger _ => ?_
            have first := newItem_calls allocated
            exact yields_pure
              (.inl ⟨rfl, refused.mono (by omega) le_rfl⟩)
          · rw [stopped]
            refine yields_pure (.inr ?_)
            rw [meaning, meaning, meant, named, unnamed]
            rfl
  exact ⟨(root, after), parsed, yields _ parsed⟩

/--
Print a document, formatted or not, put any bytes behind the NUL of the text,
and parse it: the tree says what the document said.  The text or the tree is
missing only when one of the allocations made for it was refused.
-/
theorem parse_printed (exact_ : Exact printing) (fmt : Bool) {item : Item D}
    {child : Chain D}
    (printable : Printable printing .array (.node item child .null))
    (heap : Heap) :
    ∃ printed after,
      printRoot printing allocates fmt item child heap =
        .ok (printed, after) ∧
      (printed = none → Refused allocates heap after) ∧
      ∀ out, printed = some out →
        ∀ (grants : Nat → Bool) (behind : Ptr) (fresh : Heap),
          ∃ root later,
            cJSONParse printing.toDouble grants (out.written ++ 0 :: behind)
              fresh = .ok (root, later) ∧
            ((root = .null ∧ Refused grants fresh later) ∨
              meaning root = [([], valueOf item (meaning child))]) := by
  obtain ⟨⟨printed, after⟩, equation, writes⟩ :=
    printRoot_writes allocates exact_ fmt printable heap
  refine ⟨printed, after, equation, writes.failed, ?_⟩
  intro out there grants behind fresh
  rw [writes.written out there]
  obtain ⟨⟨root, later⟩, parsed, outcome⟩ :=
    parse_rendered grants exact_ fmt printable behind fresh
  exact ⟨root, later, parsed, outcome⟩

end RoundTrip

theorem parse_printed_five :
    ∃ printed after,
      printRoot rationals (fun call => call != 9) true fiveItem fiveChild
        ⟨.empty, 0⟩ = .ok (printed, after) ∧
      (printed = none →
        Refused (fun call => call != 9) ⟨.empty, 0⟩ after) ∧
      ∀ out, printed = some out →
        ∀ (grants : Nat → Bool) (behind : Ptr) (fresh : Heap),
          ∃ root later,
            cJSONParse rationals.toDouble grants (out.written ++ 0 :: behind)
              fresh = .ok (root, later) ∧
            ((root = .null ∧ Refused grants fresh later) ∨
              meaning root = [([], .array [.number (-5)])]) :=
  parse_printed (fun call => call != 9) rationals_exact true printable_five
    ⟨.empty, 0⟩

end InternetWavPlayer.CJsonRoundTrip
