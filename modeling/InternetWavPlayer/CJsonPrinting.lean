import Mathlib.Data.Nat.Digits.Lemmas
import InternetWavPlayer.CJsonMemory
import InternetWavPlayer.CJsonPrint

/-!
# What printing writes

The text of an item is defined by recursion over the tree, without blocks.
Printing gives this text or, when an allocation fails, null; every size that is
computed beforehand suffices; and every block acquired on the way is freed
again, so that only the block of the text is left.
-/

namespace InternetWavPlayer.CJsonPrinting

open InternetWavPlayer.CJsonMemory
open InternetWavPlayer.CJsonParse
open InternetWavPlayer.CJsonPrint
open InternetWavPlayer.Contract
open InternetWavPlayer.ResourceLedger
open InternetWavPlayer.Songlist (blockText solid_of_all)
open InternetWavPlayer.Vsnprintf (ascii)

variable {D : Type}

/-! ## Texts -/

/-- The text of an item whose members have the texts given. -/
def renderItem (fmt : Bool) (depth : Nat) (item : Item D)
    (members : List (List UInt8 × List UInt8)) : List UInt8 :=
  let container (container : Container) :=
    if members.isEmpty then emptyText container fmt depth
    else enclose container fmt (depth + 1)
      (compose container fmt (depth + 1) members)
  match item.type with
  | .null => nullText
  | .false => falseText
  | .true => trueText
  | .number => decimal item.valueint
  | .string => quoted (copied item.valuestring)
  | .array => container .array
  | .object => container .object

/-- The names and texts of the items of a chain. -/
def renderings (fmt : Bool) :
    Chain D → Nat → List (List UInt8 × List UInt8)
  | .null, _ => []
  | .node item child next, depth =>
      (quoted (copied item.string),
        renderItem fmt depth item (renderings fmt child (depth + 1))) ::
        renderings fmt next depth

theorem renderings_length (fmt : Bool) (chain : Chain D) (depth : Nat) :
    (renderings fmt chain depth).length = chain.items.length := by
  induction chain generalizing depth with
  | null => rfl
  | node item child next _ nextIH =>
      rw [renderings, Chain.items, List.length_cons, List.length_cons, nextIH]

/-! ## What can be printed -/

/-- The number of an item is an `int`, and its `double` is the same number. -/
structure WholeNumber (printing : Printing D) (item : Item D) : Prop where
  low : -2147483648 ≤ item.valueint
  high : item.valueint ≤ 2147483647
  same : item.valuedouble = printing.ofInt item.valueint

/--
The strings an item must have are there, and its number is whole.  The names
of the members of an object must be there too.
-/
def Printable (printing : Printing D) : Container → Chain D → Prop
  | _, .null => True
  | container, .node item child next =>
      (container = .object → item.string.isSome) ∧
      (item.type = .string → item.valuestring.isSome) ∧
      (item.type = .number → WholeNumber printing item) ∧
      (item.type = .array → Printable printing .array child) ∧
      (item.type = .object → Printable printing .object child) ∧
      Printable printing container next

/-- Arithmetic is exact on whole numbers of up to 53 bits. -/
structure Exact (printing : Printing D) : Prop where
  add : ∀ a b : Int,
    |a| ≤ 2 ^ 53 → |b| ≤ 2 ^ 53 → |a + b| ≤ 2 ^ 53 →
    printing.add (printing.ofInt a) (printing.ofInt b) =
      printing.ofInt (a + b)
  /-- The sign of a zero is kept out. -/
  mul : ∀ a b : Int,
    |a| ≤ 2 ^ 53 → |b| ≤ 2 ^ 53 → |a * b| ≤ 2 ^ 53 →
    (0 ≤ a ∧ 0 ≤ b) ∨ a * b ≠ 0 →
      printing.mul (printing.ofInt a) (printing.ofInt b) =
        printing.ofInt (a * b)
  pow : printing.pow (printing.ofInt 10) (printing.ofInt 0) =
    printing.ofInt 1
  toInt : ∀ a : Int, -2147483648 ≤ a → a ≤ 2147483647 →
    printing.toInt (printing.ofInt a) = a
  isZero : ∀ a : Int, |a| ≤ 2 ^ 53 →
    (printing.isZero (printing.ofInt a) ↔ a = 0)
  le : ∀ a b : Int, |a| ≤ 2 ^ 53 → |b| ≤ 2 ^ 53 →
    (printing.le (printing.ofInt a) (printing.ofInt b) ↔ a ≤ b)
  near : ∀ a : Int, |a| ≤ 2 ^ 53 →
    printing.le
      (printing.fabs (printing.sub (printing.ofInt a) (printing.ofInt a)))
      printing.epsilon

/-- The rational numbers, whose arithmetic is exact everywhere. -/
def rationals : Printing ℚ where
  toDouble := rationalDouble
  isZero a := a = 0
  fabs a := |a|
  floor a := ⌊a⌋
  le a b := a ≤ b
  lt a b := a < b
  epsilon := 1 / 2 ^ 52
  huge := 10 ^ 60
  tiny := 1 / 10 ^ 6
  big := 10 ^ 9
  formatWhole a := decimal ⌊a⌋
  formatExponent a := decimal ⌊a⌋
  formatFraction a := decimal ⌊a⌋

theorem rationals_exact : Exact rationals where
  add a b _ _ _ := (Int.cast_add a b).symm
  mul a b _ _ _ _ := (Int.cast_mul a b).symm
  pow := by simp [rationals, rationalDouble]
  toInt a _ _ := by simp [rationals, rationalDouble]
  isZero a _ := by simp [rationals, rationalDouble]
  le a b _ _ := by simp [rationals, rationalDouble]
  near a _ := by simp [rationals, rationalDouble]

/-! ## Sizes -/

/-- No byte of a text is a NUL. -/
def Solid (text : List UInt8) : Prop :=
  ∀ byte ∈ text, byte ≠ 0

theorem Solid.append {first second : List UInt8} (solid : Solid first)
    (rest : Solid second) : Solid (first ++ second) := by
  intro byte member
  rcases List.mem_append.mp member with member | member
  · exact solid byte member
  · exact rest byte member

theorem Solid.cons {byte : UInt8} {text : List UInt8} (some : byte ≠ 0)
    (solid : Solid text) : Solid (byte :: text) := by
  rintro other (_ | ⟨_, member⟩)
  · exact some
  · exact solid other member

theorem solid_nil : Solid [] := by
  rintro byte ⟨⟩

theorem solid_blockText (bytes : List UInt8) : Solid (blockText bytes) := by
  intro byte member
  simpa using List.mem_takeWhile_imp member

theorem blockText_of_solid {text : List UInt8} (solid : Solid text) :
    blockText text = text := by
  rw [blockText, List.takeWhile_eq_self_iff]
  intro byte member
  simpa using solid byte member

theorem solid_copied (text : Option Text) : Solid (copied text) := by
  cases text with
  | none => exact solid_nil
  | some text => exact solid_blockText _

theorem escapeByte_length (byte : UInt8) :
    (escapeByte byte).length = countByte byte := by
  rw [escapeByte, countByte]
  by_cases plain : byte > 31 ∧ byte ≠ ascii '"' ∧ byte ≠ ascii '\\'
  · obtain ⟨printable, quote, backslash⟩ := plain
    have high : 31 < byte.toNat := UInt8.lt_iff_toNat_lt.mp printable
    have other : byte ∉ shortEscapes := by
      intro member
      simp only [shortEscapes, List.mem_cons, List.not_mem_nil,
        or_false] at member
      rcases member with same | same | rfl | rfl | rfl | rfl | rfl
      · exact quote same
      · exact backslash same
      all_goals exact absurd high (by decide)
    have notLow : ¬ byte < 32 := by
      rw [UInt8.lt_iff_toNat_lt]
      exact Nat.not_lt.mpr high
    rw [if_pos ⟨printable, quote, backslash⟩, if_neg other, if_neg notLow]
    rfl
  · rw [if_neg plain]
    by_cases backslash : byte = ascii '\\'
    · rw [backslash]; rfl
    by_cases quote : byte = ascii '"'
    · rw [quote]; rfl
    have low : byte < 32 := by
      rw [UInt8.lt_iff_toNat_lt]
      by_contra high
      refine plain ⟨UInt8.lt_iff_toNat_lt.mpr ?_, quote, backslash⟩
      have bound : ¬ byte.toNat < 32 := high
      show 31 < byte.toNat
      omega
    rw [if_neg backslash, if_neg quote]
    split_ifs <;> simp_all [shortEscapes]

theorem solid_escapeByte {byte : UInt8} (some : byte ≠ 0) :
    Solid (escapeByte byte) := by
  have digit (value : Nat) (small : value < 16) : hexCharacter value ≠ 0 := by
    revert value
    decide
  have bound : byte.toNat < 256 := byte.toNat_lt
  rw [escapeByte]
  split_ifs
  · exact solid_nil.cons some
  · exact (solid_nil.cons (by decide)).cons (by decide)
  · exact (solid_nil.cons (by decide)).cons (by decide)
  · exact (solid_nil.cons (by decide)).cons (by decide)
  · exact (solid_nil.cons (by decide)).cons (by decide)
  · exact (solid_nil.cons (by decide)).cons (by decide)
  · exact (solid_nil.cons (by decide)).cons (by decide)
  · exact (solid_nil.cons (by decide)).cons (by decide)
  · exact (((((solid_nil.cons (digit _ (by omega))).cons
      (digit _ (by omega))).cons (by decide)).cons (by decide)).cons
      (by decide)).cons (by decide)

theorem solid_quoted {str : List UInt8} (solid : Solid str) :
    Solid (quoted str) := by
  have body : Solid (escaped str) := by
    rw [escaped]
    split
    · intro byte member
      obtain ⟨source, among, member⟩ := List.mem_flatMap.mp member
      exact solid_escapeByte (solid source among) byte member
    · exact solid
  exact (body.append (solid_nil.cons (by decide))).cons (by decide)

/-- The block of a printed string is just large enough. -/
theorem quoted_fits (str : List UInt8) :
    (quoted str).length + 1 = quotedSize str := by
  rw [quoted, quotedSize, escaped, List.length_cons, List.length_append,
    List.length_singleton]
  split
  · rw [List.length_flatMap]
    simp only [escapeByte_length]
  · rfl

theorem decimal_length {value : Int} (low : -2147483648 ≤ value)
    (high : value ≤ 2147483647) : (decimal value).length ≤ 11 := by
  have digits : (Nat.digits 10 value.natAbs).length ≤ 10 := by
    rw [Nat.digits_length_le_iff (by norm_num)]
    omega
  rw [decimal]
  split_ifs
  · rw [List.length_cons, List.length_map, List.length_reverse]
    omega
  · simp
  · rw [List.length_map, List.length_reverse]
    omega

theorem solid_decimal (value : Int) : Solid (decimal value) := by
  have digits : Solid ((Nat.digits 10 value.natAbs).reverse.map
      fun digit => UInt8.ofNat (48 + digit)) := by
    intro byte member
    obtain ⟨digit, among, rfl⟩ := List.mem_map.mp member
    have small : digit < 10 :=
      Nat.digits_lt_base (by norm_num) (List.mem_reverse.mp among)
    clear among member
    revert digit
    decide
  rw [decimal]
  split_ifs
  · exact digits.cons (by decide)
  · exact solid_nil.cons (by decide)
  · exact digits

theorem tabs_length (count : Nat) : (tabs count).length = count :=
  List.length_replicate

theorem solid_tabs (count : Nat) : Solid (tabs count) := by
  intro byte member
  rw [List.eq_of_mem_replicate member]
  decide

section Members

variable {container : Container} {fmt : Bool} {depth : Nat}

theorem solid_compose {members : List (List UInt8 × List UInt8)}
    (solid : ∀ member ∈ members, Solid member.1 ∧ Solid member.2) :
    Solid (compose container fmt depth members) := by
  induction members with
  | nil => exact solid_nil
  | cons member members ih =>
      obtain ⟨name, value⟩ := solid member (by simp)
      have rest := ih fun other among => solid other (by simp [among])
      have start : Solid (memberStart container fmt depth member.1) := by
        cases container with
        | array => exact solid_nil
        | object =>
            rw [memberStart]
            refine Solid.append (Solid.append ?_ name) (Solid.cons
              (by decide) ?_)
            · split
              · exact solid_tabs _
              · exact solid_nil
            · split
              · exact solid_nil.cons (by decide)
              · exact solid_nil
      have finish : Solid (memberEnd container fmt members.isEmpty) := by
        cases container <;> cases fmt <;> cases members.isEmpty <;>
          exact solid_of_all rfl
      exact ((start.append value).append finish).append rest

theorem solid_enclose {members : List UInt8} (solid : Solid members) :
    Solid (enclose container fmt depth members) := by
  cases container with
  | array => exact (solid.append (solid_nil.cons (by decide))).cons (by decide)
  | object =>
      rw [enclose]
      refine Solid.cons (by decide) (Solid.append (Solid.append
        (Solid.append ?_ solid) ?_) (solid_nil.cons (by decide)))
      · split
        · exact solid_nil.cons (by decide)
        · exact solid_nil
      · split
        · exact solid_tabs _
        · exact solid_nil

theorem solid_emptyText : Solid (emptyText container fmt depth) := by
  cases container with
  | array => exact (solid_nil.cons (by decide)).cons (by decide)
  | object =>
      rw [emptyText]
      refine Solid.cons (by decide)
        (Solid.append ?_ (solid_nil.cons (by decide)))
      split
      · exact (solid_tabs _).cons (by decide)
      · exact solid_nil

theorem emptyText_fits :
    (emptyText container fmt depth).length + 1 ≤
      emptySize container fmt depth := by
  cases container with
  | array => exact Nat.le_refl _
  | object =>
      cases fmt
      · exact Nat.le_refl _
      · simp only [emptyText, emptySize, if_true, List.length_cons,
          List.length_append, tabs_length, List.length_nil]
        omega

/-- The members of a container take no more than was added up for them. -/
theorem compose_length (entries : List Entry) :
    (compose container fmt depth (entries.map fun entry =>
      (copied entry.name, copied entry.value))).length ≤
        (entries.map (memberSize container fmt depth)).sum := by
  have length (text : Option Text) :
      (copied text).length = strlen text := by
    cases text <;> rfl
  induction entries with
  | nil => exact Nat.le_refl _
  | cons entry entries ih =>
      simp only [List.map_cons, compose, List.length_append, List.sum_cons]
      refine Nat.add_le_add ?_ ih
      cases container with
      | array =>
          have last : (memberEnd .array fmt (entries.map fun entry : Entry =>
              (copied entry.name, copied entry.value)).isEmpty).length ≤
                2 + if fmt then 1 else 0 := by
            cases fmt <;>
              cases (entries.map fun entry : Entry =>
                (copied entry.name, copied entry.value)).isEmpty <;>
              decide
          simp only [memberStart, memberSize, List.length_nil, length]
          omega
      | object =>
          simp only [memberStart, memberEnd, memberSize, List.length_append,
            List.length_cons, length]
          cases fmt <;>
            cases (entries.map fun entry : Entry =>
              (copied entry.name, copied entry.value)).isEmpty <;>
            simp [tabs_length] <;> omega

/-- The size computed for a container suffices for its text. -/
theorem enclose_fits (entries : List Entry) :
    (enclose container fmt depth (compose container fmt depth
      (entries.map fun entry =>
        (copied entry.name, copied entry.value)))).length + 1 ≤
      baseSize container fmt depth +
        (entries.map (memberSize container fmt depth)).sum := by
  have members : (compose container fmt depth (entries.map fun entry =>
      (copied entry.name, copied entry.value))).length ≤
        (entries.map (memberSize container fmt depth)).sum :=
    compose_length entries
  cases container with
  | array =>
      simp only [enclose, baseSize, List.length_cons, List.length_append,
        List.length_nil] at members ⊢
      omega
  | object =>
      simp only [enclose, baseSize, List.length_cons, List.length_append,
        List.length_nil] at members ⊢
      cases fmt
      · simp only [Bool.false_eq_true, if_false, List.length_nil]
          at members ⊢
        omega
      · simp only [if_true, List.length_cons, List.length_nil, tabs_length]
          at members ⊢
        omega

end Members

/-! ## Printing -/

section Printing

variable {printing : Printing D} {allocates : Nat → Bool}
  {before : Multiset (Resource Block)} {heap : Heap}

/-- One of the allocations made from one heap to another was refused. -/
def Refused (allocates : Nat → Bool) (heap after : Heap) : Prop :=
  ∃ call, heap.calls ≤ call ∧ call < after.calls ∧
    allocates call = false

theorem Refused.mono {first last : Heap}
    (refused : Refused allocates heap first)
    (earlier : last.calls ≤ heap.calls) {after : Heap}
    (later : first.calls ≤ after.calls) : Refused allocates last after := by
  obtain ⟨call, low, high, none⟩ := refused
  exact ⟨call, earlier.trans low, lt_of_lt_of_le high later, none⟩

/-- A text in a block of its own, unless an allocation for it was refused. -/
structure Writes (allocates : Nat → Bool) (start : Heap)
    (before : Multiset (Resource Block)) (text : List UInt8)
    (left : Option Text × Heap) : Prop where
  owns : Owns before (textBlocks left.1) left.2.ledger
  written : ∀ out, left.1 = some out → out.written = text
  solid : Solid text
  calls : start.calls ≤ left.2.calls
  failed : left.1 = none → Refused allocates start left.2

theorem Writes.copied {start : Heap} {text : List UInt8}
    {left : Option Text × Heap}
    (writes : Writes allocates start before text left)
    (some : left.1.isSome) :
    copied left.1 = text := by
  obtain ⟨out, found⟩ := Option.isSome_iff_exists.mp some
  rw [found, CJsonPrint.copied, Text.text, writes.written out found,
    blockText_of_solid writes.solid]

theorem malloc_calls {block : Block} {after : Heap}
    {allocated : Option (Resource Block)}
    (called : malloc allocates block heap = (allocated, after)) :
    after.calls = heap.calls + 1 := by
  rw [malloc] at called
  split at called <;> cases called <;> rfl

theorem malloc_refused {block : Block} {after : Heap}
    (failed : malloc allocates block heap = (none, after)) :
    Refused allocates heap after := by
  have calls := malloc_calls failed
  rw [malloc] at failed
  split at failed
  · cases failed
  · next refused =>
      exact ⟨heap.calls, le_rfl, by omega, by simpa using refused⟩

theorem newItem_calls {double : Double D} {after : Heap}
    {new : Option (Item D)}
    (called : newItem double allocates heap = (new, after)) :
    after.calls = heap.calls + 1 := by
  rw [newItem] at called
  split at called
  · next refused =>
      cases called
      exact malloc_calls refused
  · next allocated =>
      cases called
      exact malloc_calls allocated

theorem newItem_refused {double : Double D} {after : Heap}
    (failed : newItem double allocates heap = (none, after)) :
    Refused allocates heap after := by
  rw [newItem] at failed
  split at failed
  · next refused =>
      cases failed
      exact malloc_refused refused
  · cases failed

theorem fill_writes {text : List UInt8} {size : Nat} (solid : Solid text)
    (fits : text.length + 1 ≤ size) (owns : Owns before 0 heap.ledger) :
    Returns (fill allocates text size heap)
      (Writes allocates heap before text) := by
  rw [fill]
  split
  · next after failed =>
      refine returns_ok ⟨?_, ?_, solid,
        (malloc_calls failed).symm ▸ Nat.le_succ _,
        fun _ => malloc_refused failed⟩
      · rw [malloc_none failed]
        exact owns
      · rintro out ⟨⟩
  · next out after allocated =>
      rw [if_pos fits]
      refine returns_ok ⟨?_, ?_, solid,
        (malloc_calls allocated).symm ▸ Nat.le_succ _, by simp⟩
      · simpa [textBlocks] using malloc_some owns allocated
      · rintro _ ⟨⟩
        rfl

theorem printNumber_writes (exact_ : Exact printing) {item : Item D}
    (whole : WholeNumber printing item) (owns : Owns before 0 heap.ledger) :
    Returns (printNumber printing allocates item heap)
      (Writes allocates heap before (decimal item.valueint)) := by
  obtain ⟨low, high, same⟩ := whole
  have small : |item.valueint| ≤ 2 ^ 53 := abs_le.mpr ⟨by omega, by omega⟩
  rw [printNumber]
  by_cases zero : item.valueint = 0
  · have isZero : printing.isZero item.valuedouble := by
      rw [same]
      exact (exact_.isZero _ small).mpr zero
    rw [if_pos isZero, zero]
    exact fill_writes (solid_nil.cons (by decide)) (by simp) owns
  · have notZero : ¬ printing.isZero item.valuedouble := by
      rw [same]
      exact fun isZero => zero ((exact_.isZero _ small).mp isZero)
    have range : printing.le
          (printing.fabs (printing.sub (printing.ofInt item.valueint)
            item.valuedouble)) printing.epsilon ∧
        printing.le item.valuedouble (printing.ofInt 2147483647) ∧
        printing.le (printing.ofInt (-2147483648)) item.valuedouble := by
      rw [same]
      exact ⟨exact_.near _ small,
        (exact_.le _ _ small (by norm_num)).mpr high,
        (exact_.le _ _ (by norm_num) small).mpr low⟩
    rw [if_neg notZero, if_pos range]
    refine fill_writes (solid_decimal _) ?_ owns
    have length := decimal_length low high
    omega

theorem printStringPtr_writes {str : Option Text} (some : str.isSome)
    (owns : Owns before 0 heap.ledger) :
    Returns (printStringPtr allocates str heap)
      (Writes allocates heap before (quoted (copied str))) := by
  obtain ⟨text, rfl⟩ := Option.isSome_iff_exists.mp some
  exact fill_writes (solid_quoted (solid_blockText _)) (quoted_fits _).le owns

/-! ### Members -/

/-- The blocks of members that were printed. -/
def entriesBlocks : List Entry → Multiset (Resource Block)
  | [] => 0
  | entry :: rest =>
      textBlocks entry.name + textBlocks entry.value + entriesBlocks rest

theorem freeEntries_frees (entries : List Entry) :
    ∀ {held : Multiset (Resource Block)} {ledger : Ledger Block},
      Owns before (entriesBlocks entries + held) ledger →
        Returns (freeEntries entries ledger) (Owns before held) := by
  induction entries with
  | nil =>
      intro held ledger owns
      rw [entriesBlocks, zero_add] at owns
      exact returns_ok owns
  | cons entry entries ih =>
      intro held ledger owns
      rw [freeEntries]
      rw [entriesBlocks, add_assoc, add_assoc] at owns
      refine (freeText_frees owns).bind fun ledger owns => ?_
      refine (freeText_frees owns).bind fun ledger owns => ?_
      exact ih owns

/-- The blocks of the arrays of pointers. -/
def arrayBlocks (arrays : Resource Block × Option (Resource Block)) :
    Multiset (Resource Block) :=
  arrays.2.toList + {arrays.1}

theorem allocateArrays_returns (container : Container)
    (owns : Owns before 0 heap.ledger) :
    Returns (allocateArrays allocates container heap) fun left =>
      heap.calls ≤ left.2.calls ∧
      (left.1 = none → Owns before 0 left.2.ledger ∧
        Refused allocates heap left.2) ∧
      ∀ arrays, left.1 = some arrays →
        Owns before (arrayBlocks arrays) left.2.ledger := by
  rw [allocateArrays]
  split
  · next failed =>
      have calls := malloc_calls failed
      refine returns_ok ⟨by simp only; omega,
        fun _ => ⟨?_, malloc_refused failed⟩, by simp⟩
      rw [malloc_none failed]
      exact owns
  · next entries second allocated =>
      have one := malloc_some owns allocated
      have calls := malloc_calls allocated
      cases container with
      | array =>
          refine returns_ok ⟨by simp only; omega, by simp, ?_⟩
          rintro _ ⟨⟩
          simpa [arrayBlocks] using one
      | object =>
          simp only
          split
          · next after failed =>
              have more := malloc_calls failed
              rw [add_zero, ← Multiset.cons_zero,
                ← malloc_none failed] at one
              obtain ⟨ledger, released, none, -⟩ := one.release (E := Fault)
              rw [released]
              refine returns_ok ⟨by simp only; omega,
                fun _ => ⟨none, ?_⟩, by simp⟩
              exact (malloc_refused failed).mono (by omega) le_rfl
          · next names after allocated =>
              have more := malloc_calls allocated
              refine returns_ok ⟨by simp only; omega, by simp, ?_⟩
              rintro _ ⟨⟩
              simpa [arrayBlocks] using malloc_some one allocated

theorem freeArrays_frees (arrays : Resource Block × Option (Resource Block))
    (entries : List Entry) {held : Multiset (Resource Block)}
    (owns : Owns before
      (entriesBlocks entries + (arrayBlocks arrays + held)) heap.ledger) :
    Returns (freeArrays arrays entries heap) fun after =>
      Owns before held after.ledger ∧ after.calls = heap.calls := by
  rw [freeArrays]
  refine (freeEntries_frees entries owns).bind fun ledger owns => ?_
  rw [arrayBlocks, add_assoc] at owns
  obtain ⟨ledger, released, owns⟩ := Owns.releaseAny (E := Fault) owns
  refine Returns.bind ⟨ledger, released, owns⟩ fun ledger owns => ?_
  rw [Multiset.singleton_add] at owns
  obtain ⟨ledger, released, owns, -⟩ := owns.release (E := Fault)
  exact Returns.bind ⟨ledger, released, owns⟩
    fun _ owns => returns_pure ⟨owns, rfl⟩

/-- The members printed have the texts given, so far as they are used. -/
def Renders (container : Container) (entries : List Entry)
    (members : List (List UInt8 × List UInt8)) : Prop :=
  List.Forall₂
    (fun entry member => copied entry.value = member.2 ∧
      (container = .object → copied entry.name = member.1)) entries members

theorem Renders.compose {container : Container}
    {entries : List Entry} {members : List (List UInt8 × List UInt8)}
    (renders : Renders container entries members) (fmt : Bool) (depth : Nat) :
    compose container fmt depth (entries.map fun entry =>
      (copied entry.name, copied entry.value)) =
      compose container fmt depth members := by
  induction renders with
  | nil => rfl
  | @cons entry member entries members same _ ih =>
      obtain ⟨value, name⟩ := same
      have last : (entries.map fun entry : Entry =>
          (copied entry.name, copied entry.value)).isEmpty =
            members.isEmpty := by
        cases ‹List.Forall₂ _ entries members› <;> rfl
      rw [List.map_cons, CJsonPrint.compose, CJsonPrint.compose, ih, last,
        value]
      cases container with
      | array => rfl
      | object => rw [name rfl]

/-- What the loop over the members leaves. -/
structure WritesMembers (allocates : Nat → Bool) (start : Heap)
    (before : Multiset (Resource Block)) (container : Container)
    (members : List (List UInt8 × List UInt8))
    (left : List Entry × Heap) : Prop where
  owns : Owns before (entriesBlocks left.1) left.2.ledger
  renders : left.1.all (Entry.printed container) →
    Renders container left.1 members
  calls : start.calls ≤ left.2.calls
  failed : ¬ left.1.all (Entry.printed container) →
    Refused allocates start left.2

theorem solid_renderings (fmt : Bool) (chain : Chain D) (depth : Nat) :
    ∀ member ∈ renderings fmt chain depth,
      Solid member.1 ∧ Solid member.2 := by
  induction chain generalizing depth with
  | null => rintro member ⟨⟩
  | node item child next childIH nextIH =>
      rintro member (_ | ⟨_, among⟩)
      · refine ⟨solid_quoted (solid_copied _), ?_⟩
        have container (container : Container) :
            Solid (if (renderings fmt child (depth + 1)).isEmpty then
                emptyText container fmt depth
              else enclose container fmt (depth + 1)
                (CJsonPrint.compose container fmt (depth + 1)
                  (renderings fmt child (depth + 1)))) := by
          split
          · exact solid_emptyText
          · exact solid_enclose (solid_compose (childIH (depth + 1)))
        simp only [renderItem]
        split
        · exact solid_of_all rfl
        · exact solid_of_all rfl
        · exact solid_of_all rfl
        · exact solid_decimal _
        · exact solid_quoted (solid_copied _)
        · exact container .array
        · exact container .object
      · exact nextIH depth member among

theorem printContainer_writes (container : Container) (fmt : Bool)
    (depth : Nat) (child : Chain D)
    {members : Heap → Except (Failure Block Fault) (List Entry × Heap)}
    (loop : ∀ (before : Multiset (Resource Block)) heap,
      Owns before 0 heap.ledger →
        Returns (members heap) (WritesMembers allocates heap before
          container (renderings fmt child (depth + 1))))
    (owns : Owns before 0 heap.ledger) :
    Returns (printContainer allocates container fmt depth child members heap)
      (Writes allocates heap before
        (if (renderings fmt child (depth + 1)).isEmpty then
          emptyText container fmt depth
        else enclose container fmt (depth + 1)
          (CJsonPrint.compose container fmt (depth + 1)
            (renderings fmt child (depth + 1))))) := by
  have empty : (renderings fmt child (depth + 1)).isEmpty =
      (child.items.length == 0) := by
    rw [← renderings_length fmt child (depth + 1)]
    cases renderings fmt child (depth + 1) <;> rfl
  rw [printContainer]
  by_cases none : child.items.length = 0
  · rw [if_pos none, if_pos (by simp [empty, none])]
    exact fill_writes solid_emptyText emptyText_fits owns
  · have solid : Solid (enclose container fmt (depth + 1)
        (CJsonPrint.compose container fmt (depth + 1)
          (renderings fmt child (depth + 1)))) :=
      solid_enclose (solid_compose (solid_renderings fmt child (depth + 1)))
    rw [if_neg none, if_neg (by simp [empty, none])]
    refine (allocateArrays_returns container owns).bind ?_
    rintro ⟨arrays, second⟩ ⟨counts, failed, allocated⟩
    cases arrays with
    | none =>
        obtain ⟨owns, refused⟩ := failed rfl
        exact returns_pure
          ⟨owns, by simp, solid, counts, fun _ => refused⟩
    | some arrays =>
        have framed : Owns (arrayBlocks arrays + before) 0 second.ledger := by
          rw [owns_frame_iff, zero_add]
          exact allocated arrays rfl
        refine (loop _ second framed).bind ?_
        rintro ⟨entries, third⟩ ⟨owns, renders, more, refused⟩
        simp only at counts more
        rw [owns_frame_iff] at owns
        simp only
        split
        · next printed =>
            have text := (renders printed).compose fmt (depth + 1)
            have framed : Owns (entriesBlocks entries + arrayBlocks arrays +
                before) 0 third.ledger := by
              rw [owns_frame_iff, zero_add]
              exact owns
            rw [← text] at solid
            refine (fill_writes solid (enclose_fits entries) framed).bind ?_
            rintro ⟨out, fourth⟩ writes
            have held := writes.owns
            have filled := writes.calls
            simp only at filled
            rw [owns_frame_iff, add_comm, add_assoc] at held
            refine (freeArrays_frees arrays entries held).bind ?_
            rintro after ⟨owns, freed⟩
            simp only at freed
            rw [← text]
            refine returns_pure ⟨owns, writes.written, solid,
              by simp only; omega, fun missing => ?_⟩
            exact (writes.failed missing).mono (by omega) (by simp only; omega)
        · next missing =>
            have held : Owns before
                (entriesBlocks entries + (arrayBlocks arrays + 0))
                third.ledger := by
              rw [add_zero]
              exact owns
            refine (freeArrays_frees arrays entries held).bind ?_
            rintro after ⟨owns, freed⟩
            refine returns_pure ⟨owns, by simp, solid, by simp only; omega,
              fun _ => ?_⟩
            exact (refused missing).mono counts (by simp only; omega)

/-- One item, if the loop over its children writes theirs. -/
theorem printValue_writes (exact_ : Exact printing) (fmt : Bool) (depth : Nat)
    {item : Item D} {child : Chain D}
    {members : Container → Heap →
      Except (Failure Block Fault) (List Entry × Heap)}
    (some : item.type = .string → item.valuestring.isSome)
    (whole : item.type = .number → WholeNumber printing item)
    (array : item.type = .array →
      ∀ (before : Multiset (Resource Block)) heap,
        Owns before 0 heap.ledger →
        Returns (members .array heap) (WritesMembers allocates heap before
          .array (renderings fmt child (depth + 1))))
    (object : item.type = .object →
      ∀ (before : Multiset (Resource Block)) heap,
        Owns before 0 heap.ledger →
        Returns (members .object heap) (WritesMembers allocates heap before
          .object (renderings fmt child (depth + 1))))
    (owns : Owns before 0 heap.ledger) :
    Returns (printValue printing allocates fmt depth item child members heap)
      (Writes allocates heap before
        (renderItem fmt depth item (renderings fmt child (depth + 1)))) := by
  rw [printValue, renderItem]
  cases type : item.type with
  | null => exact fill_writes (solid_of_all rfl) (by decide) owns
  | false => exact fill_writes (solid_of_all rfl) (by decide) owns
  | true => exact fill_writes (solid_of_all rfl) (by decide) owns
  | number => exact printNumber_writes exact_ (whole type) owns
  | string => exact printStringPtr_writes (some type) owns
  | array =>
      exact printContainer_writes .array fmt depth child (array type) owns
  | object =>
      exact printContainer_writes .object fmt depth child (object type) owns

theorem printName_writes (container : Container) {item : Item D}
    (named : container = .object → item.string.isSome)
    (owns : Owns before 0 heap.ledger) :
    Returns (printName allocates container item heap) fun left =>
      Owns before (textBlocks left.1) left.2.ledger ∧
      (container = .object → left.1.isSome →
        copied left.1 = quoted (copied item.string)) ∧
      heap.calls ≤ left.2.calls ∧
      (container = .object → left.1 = none →
        Refused allocates heap left.2) := by
  cases container with
  | array => exact returns_ok ⟨owns, by simp, le_rfl, by simp⟩
  | object =>
      rw [printName]
      refine (printStringPtr_writes (named rfl) owns).mono ?_
      intro left writes
      exact ⟨writes.owns, fun _ some => writes.copied some, writes.calls,
        fun _ => writes.failed⟩

/-- The loop over the members, by induction over the tree. -/
theorem printMembers_writes (exact_ : Exact printing) (fmt : Bool)
    (chain : Chain D) :
    ∀ (depth : Nat) (container : Container)
      (before : Multiset (Resource Block)) (heap : Heap),
      Printable printing container chain → Owns before 0 heap.ledger →
        Returns (printMembers printing allocates fmt chain depth container heap)
          (WritesMembers allocates heap before container
            (renderings fmt chain depth)) := by
  induction chain with
  | null =>
      intro depth container before heap _ owns
      exact returns_ok ⟨owns, fun _ => .nil, le_rfl,
        fun missing => absurd rfl missing⟩
  | node item child next childIH nextIH =>
      intro depth container before heap printable owns
      obtain ⟨named, some, whole, array, object, rest⟩ := printable
      rw [printMembers]
      refine (printName_writes container named owns).bind ?_
      rintro ⟨name, second⟩ ⟨owns, nameText, counts, nameFailed⟩
      simp only at counts
      have framed : Owns (textBlocks name + before) 0 second.ledger := by
        rw [owns_frame_iff, zero_add]
        exact owns
      refine (printValue_writes exact_ fmt depth some whole
        (fun type before heap => childIH _ .array before heap (array type))
        (fun type before heap => childIH _ .object before heap (object type))
        framed).bind ?_
      rintro ⟨value, third⟩ writes
      have held := writes.owns
      have valued := writes.calls
      simp only at valued
      rw [owns_frame_iff] at held
      simp only
      split
      · next failed =>
          -- an array stops here
          obtain ⟨rfl, missing⟩ := failed
          obtain rfl : value = none := by simpa using missing
          refine returns_pure
            ⟨?_, by simp [Entry.printed], by simp only; omega,
            fun _ => (writes.failed rfl).mono counts le_rfl⟩
          simpa [entriesBlocks] using held
      · have framed : Owns (textBlocks value + textBlocks name + before) 0
            third.ledger := by
          rw [owns_frame_iff, zero_add]
          exact held
        refine (nextIH depth container _ third rest framed).bind ?_
        rintro ⟨entries, fourth⟩ ⟨owns, renders, more, failed⟩
        simp only at more
        rw [owns_frame_iff] at owns
        refine returns_pure ⟨?_, ?_, by simp only; omega, ?_⟩
        · convert owns using 1
          rw [entriesBlocks, add_comm (textBlocks name), add_comm]
        · intro all
          simp only [List.all_cons, Bool.and_eq_true, Entry.printed] at all
          obtain ⟨⟨there, nameThere⟩, others⟩ := all
          refine .cons ⟨writes.copied there, ?_⟩ (renders others)
          rintro rfl
          exact nameText rfl (by simpa using nameThere)
        · intro missing
          by_cases others : entries.all (Entry.printed container)
          · simp only [List.all_cons, others, Bool.and_true, Entry.printed,
              Bool.and_eq_true, not_and_or, Bool.or_eq_true,
              not_or] at missing
            rcases missing with missing | ⟨kind, missing⟩
            · exact (writes.failed (by simpa using missing)).mono counts more
            · cases container with
              | array => simp at kind
              | object =>
                  exact (nameFailed rfl (by simpa using missing)).mono le_rfl
                    (valued.trans more)
          · exact (failed others).mono (counts.trans valued) le_rfl

/-- A document is printed as its text, in a block of its own. -/
theorem printRoot_writes (allocates : Nat → Bool) (exact_ : Exact printing)
    (fmt : Bool) {item : Item D} {child : Chain D}
    (printable : Printable printing .array (.node item child .null))
    (heap : Heap) :
    Returns (printRoot printing allocates fmt item child heap)
      (Writes allocates heap heap.ledger.live
        (renderItem fmt 0 item (renderings fmt child 1))) := by
  obtain ⟨-, some, whole, array, object, -⟩ := printable
  exact printValue_writes exact_ fmt 0 some whole
    (fun type before heap =>
      printMembers_writes exact_ fmt child 1 .array before heap (array type))
    (fun type before heap =>
      printMembers_writes exact_ fmt child 1 .object before heap (object type))
    (owns_start _)

/--
Printing a tree whose strings are there and whose numbers are whole never
writes past a block and frees all blocks but that of the text it returns; the
text is that of the tree, and it is missing only when one of the allocations
made for it was refused.
-/
theorem print_fits (allocates : Nat → Bool) (exact_ : Exact printing)
    (fmt : Bool) {item : Item D} {child : Chain D}
    (printable : Printable printing .array (.node item child .null))
    (heap : Heap) :
    ∃ printed after,
      printRoot printing allocates fmt item child heap =
        .ok (printed, after) ∧
      after.ledger.live = textBlocks printed + heap.ledger.live ∧
      (∀ out, printed = some out →
        out.written = renderItem fmt 0 item (renderings fmt child 1) ∧
          out.text = out.written) ∧
      (printed = none → Refused allocates heap after) := by
  obtain ⟨⟨printed, after⟩, equation, writes⟩ :=
    printRoot_writes allocates exact_ fmt printable heap
  refine ⟨printed, after, equation, writes.owns, fun out there => ?_,
    writes.failed⟩
  have written := writes.written out there
  refine ⟨written, ?_⟩
  rw [Text.text, written, blockText_of_solid writes.solid]

end Printing

/-- The item of `[-5]` and its child. -/
def fiveItem : Item ℚ := ⟨⟨.item, 0⟩, .array, none, 0, 0, none⟩

def fiveChild : Chain ℚ :=
  .node ⟨⟨.item, 1⟩, .number, none, -5, -5, none⟩ .null .null

theorem printable_five :
    Printable rationals .array (.node fiveItem fiveChild .null) := by
  refine ⟨by simp, by simp [fiveItem], by simp [fiveItem], fun _ => ?_,
    by simp [fiveItem], trivial⟩
  refine ⟨by simp, by simp,
    fun _ => ⟨by norm_num, by norm_num, ?_⟩, by simp,
    by simp, trivial⟩
  simp [rationals, rationalDouble]

theorem print_fits_five :
    ∃ printed after,
      printRoot rationals (fun call => call != 1) true fiveItem fiveChild
        ⟨.empty, 0⟩ = .ok (printed, after) ∧
      after.ledger.live =
        textBlocks printed + (Ledger.empty : Ledger Block).live ∧
      (∀ out, printed = some out →
        out.written = "[-5]".toList.map ascii ∧ out.text = out.written) ∧
      (printed = none →
        Refused (fun call => call != 1) ⟨.empty, 0⟩ after) := by
  have text : renderItem true 0 fiveItem (renderings true fiveChild 1) =
      "[-5]".toList.map ascii := by
    simp [renderItem, renderings, fiveItem, fiveChild, enclose, compose,
      memberStart, memberEnd, decimal]
    rfl
  rw [← text]
  exact print_fits (fun call => call != 1) rationals_exact true printable_five
    ⟨.empty, 0⟩

end InternetWavPlayer.CJsonPrinting
