import InternetWavPlayer.ResourceLedger
import InternetWavPlayer.Vsnprintf

/-!
# `cJSON_Parse` and `cJSON_Delete`

The parser which reads the playlist of the server.  A character pointer is the
list of the bytes from where it points to the end of the block of the text, so
that reading past the block is a fault.  So is a write past the block that
`parse_string` allocates, which is sized in a first pass over the text.

An item is a node of a chain, with a child chain and a next node, as in the
source; `prev` is not used by what is modelled here.  Items and strings are
resources of a ledger, and any call of the allocator may fail.  The parser
calls itself with a bound on the number of nested calls; the bound with which
`cJSON_Parse` starts is shown elsewhere never to be reached.
-/

namespace InternetWavPlayer.CJsonParse

open InternetWavPlayer.ResourceLedger
open InternetWavPlayer.Songlist
open InternetWavPlayer.Vsnprintf

/-- The accesses without a meaning that end a call. -/
inductive Fault where
  /-- A byte after the block of the text is read. -/
  | overread
  /-- A byte after the block of a string is written. -/
  | overrun
  /-- A string is read through a null pointer. -/
  | nullPointer
  /-- The bound on nested calls is reached. -/
  | outOfFuel
deriving DecidableEq, Repr

/-- What the blocks allocated are for. -/
inductive Block where
  | item
  | string
  /-- The arrays `entries` and `names` of the printing functions. -/
  | pointers
deriving DecidableEq, Repr

/-! ## The allocator -/

/-- The heap: its live blocks, and how often it was asked for one. -/
structure Heap where
  ledger : Ledger Block
  calls : Nat

/-- `cJSON_malloc`; `allocates` says which calls succeed. -/
def malloc (allocates : Nat → Bool) (block : Block) (heap : Heap) :
    Option (Resource Block) × Heap :=
  if allocates heap.calls then
    (some (heap.ledger.acquire block).1,
      ⟨(heap.ledger.acquire block).2, heap.calls + 1⟩)
  else (none, ⟨heap.ledger, heap.calls + 1⟩)

/-! ## Items -/

/-- The type of an item, without the flags of references and constants. -/
inductive ItemType where
  | false
  | true
  | null
  | number
  | string
  | array
  | object
deriving DecidableEq, Repr

/-- A block with a string: the bytes before the NUL written last. -/
structure Text where
  block : Resource Block
  written : List UInt8
deriving DecidableEq, Repr

/-- What a reader finds in it, up to the first NUL. -/
def Text.text (text : Text) : List UInt8 :=
  blockText text.written

/-- One `struct cJSON` without its links. -/
structure Item (D : Type) where
  block : Resource Block
  type : ItemType
  valuestring : Option Text
  valueint : Int
  valuedouble : D
  string : Option Text
deriving DecidableEq, Repr

/-- A pointer to an item: null, or the item with its two links. -/
inductive Chain (D : Type) where
  | null
  | node (item : Item D) (child next : Chain D)
deriving DecidableEq, Repr

/-- The arithmetic of `double`, and the `pow` of the library. -/
structure Double (D : Type) where
  ofInt : Int → D
  add : D → D → D
  sub : D → D → D
  mul : D → D → D
  pow : D → D → D
  /-- The conversion to `int`. -/
  toInt : D → Int

/-! ## Reading the text -/

/-- A character pointer: the bytes from there to the end of the block. -/
abbrev Ptr := List UInt8

/-- `*ptr`. -/
def deref : Ptr → Except Fault UInt8
  | [] => .error .overread
  | byte :: _ => .ok byte

/-- `!strncmp(ptr, literal, n)` for the `n` characters of a literal. -/
def startsWith : List UInt8 → Ptr → Except Fault Bool
  | [], _ => .ok true
  | _ :: _, [] => .error .overread
  | character :: literal, byte :: rest =>
      if byte = character then startsWith literal rest else .ok false

/-- `skip` for a pointer which is not null. -/
def skip : Ptr → Except Fault Ptr
  | [] => .error .overread
  | byte :: rest =>
      if byte ≠ 0 ∧ byte ≤ 32 then skip rest else .ok (byte :: rest)

/-- The value of a hexadecimal digit. -/
def hexDigit (byte : UInt8) : Option Nat :=
  if isDigit byte then some (byte.toNat - 48)
  else if ascii 'A' ≤ byte ∧ byte ≤ ascii 'F' then
    some (10 + byte.toNat - 65)
  else if ascii 'a' ≤ byte ∧ byte ≤ ascii 'f' then
    some (10 + byte.toNat - 97)
  else none

/-- The remaining digits of `parse_hex4`; any other character gives 0. -/
def parseHex : Nat → Nat → Ptr → Except Fault Nat
  | 0, h, _ => .ok h
  | count + 1, h, str => do
      match hexDigit (← deref str) with
      | some digit => parseHex count (h <<< 4 + digit) (str.drop 1)
      | none => return 0

/-- `parse_hex4`. -/
def parseHex4 (str : Ptr) : Except Fault Nat :=
  parseHex 4 0 str

/-! ## Numbers -/

section Number

variable {D : Type} (double : Double D)

/--
The loop over a run of digits.  Behind the decimal point it also counts
`scale` down.
-/
def digits (fraction : Bool) : D → D → Ptr → Except Fault (D × D × Ptr)
  | _, _, [] => .error .overread
  | n, scale, byte :: rest =>
      if isDigit byte then
        digits fraction
          (double.add (double.mul n (double.ofInt 10))
            (double.ofInt (byte.toNat - 48)))
          (if fraction then double.sub scale (double.ofInt 1) else scale) rest
      else .ok (n, scale, byte :: rest)

/-- The loop over the digits of the exponent, in an `int` of 32 bits. -/
def exponentDigits : Int → Ptr → Except Fault (Int × Ptr)
  | _, [] => .error .overread
  | subscale, byte :: rest =>
      if isDigit byte then
        exponentDigits ((subscale * 10 + (byte.toNat - 48)).bmod (2 ^ 32)) rest
      else .ok (subscale, byte :: rest)

/-- The exponent: its value with the sign of `signsubscale`. -/
def exponent (num : Ptr) : Except Fault (Int × Ptr) := do
  let letter ← deref num
  if letter = ascii 'e' ∨ letter = ascii 'E' then
    let sign ← deref (num.drop 1)
    if sign = ascii '+' then exponentDigits 0 (num.drop 2)
    else if sign = ascii '-' then do
      let (subscale, num) ← exponentDigits 0 (num.drop 2)
      return ((-subscale).bmod (2 ^ 32), num)
    else exponentDigits 0 (num.drop 1)
  else return (0, num)

/-- The digits before the decimal point, a leading zero apart. -/
def wholePart (num : Ptr) : Except Fault (D × Ptr) := do
  let num := if (← deref num) = ascii '0' then num.drop 1 else num
  let first ← deref num
  if ascii '1' ≤ first ∧ first ≤ ascii '9' then
    let (n, _, num) ←
      digits double false (double.ofInt 0) (double.ofInt 0) num
    return (n, num)
  else return (double.ofInt 0, num)

/-- The decimal point and the digits behind it. -/
def fractionalPart (n : D) (num : Ptr) : Except Fault (D × D × Ptr) := do
  if (← deref num) = ascii '.' then
    if isDigit (← deref (num.drop 1)) then
      digits double true n (double.ofInt 0) (num.drop 1)
    else return (n, double.ofInt 0, num)
  else return (n, double.ofInt 0, num)

/-- `parse_number`. -/
def parseNumber (item : Item D) (num : Ptr) :
    Except Fault (Ptr × Item D) := do
  let first ← deref num
  let num := if first = ascii '-' then num.drop 1 else num
  let (n, num) ← wholePart double num
  let (n, scale, num) ← fractionalPart double n num
  let (subscale, num) ← exponent num
  let sign := double.ofInt (if first = ascii '-' then -1 else 1)
  let n := double.mul (double.mul sign n)
    (double.pow (double.ofInt 10) (double.add scale (double.ofInt subscale)))
  return (num,
    { item with
      valuedouble := n, valueint := double.toInt n, type := .number })

end Number

/-! ## Strings -/

/-- The first pass of `parse_string`, which counts an escape once. -/
def stringLength : Ptr → Except Fault Nat
  | [] => .error .overread
  | byte :: rest =>
      if byte = ascii '"' ∨ byte = 0 then .ok 0
      else if byte = ascii '\\' then
        match rest with
        | [] => .error .overread
        | _ :: rest => (· + 1) <$> stringLength rest
      else (· + 1) <$> stringLength rest

/-- `firstByteMark`. -/
def firstByteMark : List Nat := [0x00, 0x00, 0xC0, 0xE0, 0xF0, 0xF8, 0xFC]

/-- The `switch` which writes a character of `len` bytes from its end. -/
def utf8Write (len : Nat) : Nat → Nat → List UInt8 → List UInt8
  | 0, _, after => after
  | 1, uc, after => UInt8.ofNat (uc ||| firstByteMark.getD len 0) :: after
  | count + 2, uc, after =>
      utf8Write len (count + 1) (uc >>> 6)
        (UInt8.ofNat ((uc ||| 0x80) &&& 0xBF) :: after)

/-- The number of bytes of a character. -/
def utf8Length (uc : Nat) : Nat :=
  if uc < 0x80 then 1
  else if uc < 0x800 then 2
  else if uc < 0x10000 then 3
  else 4

/-- The bytes of a character. -/
def utf8 (uc : Nat) : List UInt8 :=
  utf8Write (utf8Length uc) (utf8Length uc) uc []

/-- The second half of a surrogate pair; `ptr` is before its backslash. -/
def transcodePair (uc : Nat) (ptr : Ptr) :
    Except Fault (List UInt8 × Ptr) := do
  if (← deref (ptr.drop 1)) ≠ ascii '\\' then return ([], ptr)
  else if (← deref (ptr.drop 2)) ≠ ascii 'u' then return ([], ptr)
  else
    let uc2 ← parseHex4 (ptr.drop 3)
    if uc2 < 0xDC00 ∨ uc2 > 0xDFFF then return ([], ptr.drop 6)
    else
      return (utf8 (0x10000 + (((uc &&& 0x3FF) <<< 10) ||| (uc2 &&& 0x3FF))),
        ptr.drop 6)

/--
The case `'u'` of `parse_string`: what is written, and the pointer at the last
character of the escape.
-/
def transcode (ptr : Ptr) : Except Fault (List UInt8 × Ptr) := do
  let uc ← parseHex4 (ptr.drop 1)
  let ptr := ptr.drop 4
  if (0xDC00 ≤ uc ∧ uc ≤ 0xDFFF) ∨ uc = 0 then return ([], ptr)
  else if 0xD800 ≤ uc ∧ uc ≤ 0xDBFF then transcodePair uc ptr
  else return (utf8 uc, ptr)

/-- The `switch` on the character after a backslash. -/
def escape (ptr : Ptr) : Except Fault (List UInt8 × Ptr) := do
  let character ← deref ptr
  if character = ascii 'b' then return ([8], ptr)
  else if character = ascii 'f' then return ([12], ptr)
  else if character = ascii 'n' then return ([10], ptr)
  else if character = ascii 'r' then return ([13], ptr)
  else if character = ascii 't' then return ([9], ptr)
  else if character = ascii 'u' then transcode ptr
  else return ([character], ptr)

/-- Write bytes into a block with so much room left. -/
def write (bytes : List UInt8) (room : Nat) : Except Fault Nat :=
  if bytes.length ≤ room then .ok (room - bytes.length) else .error .overrun

/--
The second pass of `parse_string`: the bytes written into a block with so much
room, its last NUL included, and the pointer at which the loop ends.
-/
def unescape : Nat → Nat → Ptr → Except Fault (List UInt8 × Ptr)
  | 0, _, _ => .error .outOfFuel
  | fuel + 1, room, ptr => do
      let character ← deref ptr
      if character = ascii '"' ∨ character = 0 then
        let _ ← write [0] room
        return ([], ptr)
      else if character = ascii '\\' then
        let (bytes, stop) ← escape (ptr.drop 1)
        let room ← write bytes room
        let (written, stop) ← unescape fuel room (stop.drop 1)
        return (bytes ++ written, stop)
      else
        let room ← write [character] room
        let (written, stop) ← unescape fuel room (ptr.drop 1)
        return (character :: written, stop)

section Parser

variable {D : Type} (double : Double D) (allocates : Nat → Bool)

/-- What a parsing function leaves: where it stopped, unless it failed. -/
structure Parsed (D : Type) where
  stop : Option Ptr
  item : Item D
  child : Chain D
  heap : Heap

/-- `parse_string`. -/
def parseString (item : Item D) (str : Ptr) (heap : Heap) :
    Except Fault (Parsed D) := do
  if (← deref str) ≠ ascii '"' then return ⟨none, item, .null, heap⟩
  else
    let len ← stringLength (str.drop 1)
    match malloc allocates .string heap with
    | (none, heap) => return ⟨none, item, .null, heap⟩
    | (some out, heap) =>
        let (written, ptr) ← unescape str.length (len + 1) (str.drop 1)
        let stop := if (← deref ptr) = ascii '"' then ptr.drop 1 else ptr
        return ⟨some stop,
          { item with valuestring := some ⟨out, written⟩, type := .string },
          .null, heap⟩

/-- `cJSON_New_Item`. -/
def newItem (heap : Heap) : Option (Item D) × Heap :=
  match malloc allocates .item heap with
  | (none, heap) => (none, heap)
  | (some block, heap) =>
      (some ⟨block, .false, none, 0, double.ofInt 0, none⟩, heap)

/-! ## Values -/

/-- The two items with children. -/
inductive Container where
  | array
  | object
deriving DecidableEq, Repr

/-- The character which ends the text of a container. -/
def Container.closing : Container → UInt8
  | .array => ascii ']'
  | .object => ascii '}'

def Container.type : Container → ItemType
  | .array => .array
  | .object => .object

/--
What comes before the value of a member: in an object its name, which
`parse_string` stores as the item's own string, and a colon.
-/
def parseName (container : Container) (item : Item D) (value : Ptr)
    (heap : Heap) : Except Fault (Parsed D) :=
  match container with
  | .array => .ok ⟨some value, item, .null, heap⟩
  | .object => do
      let parsed ← parseString allocates item value heap
      match parsed.stop with
      | none => return parsed
      | some stop =>
          let value ← skip stop
          let item :=
            { parsed.item with
              string := parsed.item.valuestring, valuestring := none }
          if (← deref value) ≠ ascii ':' then
            return ⟨none, item, .null, parsed.heap⟩
          else
            return ⟨some (← skip (value.drop 1)), item, .null,
              parsed.heap⟩

/-- What the loop over the members leaves: where it stopped, and the chain. -/
structure Members (D : Type) where
  stop : Option Ptr
  chain : Chain D
  heap : Heap

/-- `parse_array` and `parse_object`, given the loop over the members. -/
def parseContainer (container : Container)
    (members : Ptr → Heap → Except Fault (Members D))
    (item : Item D) (value : Ptr) (heap : Heap) :
    Except Fault (Parsed D) := do
  let item := { item with type := container.type }
  let value ← skip (value.drop 1)
  if (← deref value) = container.closing then
    return ⟨some (value.drop 1), item, .null, heap⟩
  else
    let members ← members value heap
    return ⟨members.stop, item, members.chain, members.heap⟩

/-- The three literals. -/
def nullText : List UInt8 := [ascii 'n', ascii 'u', ascii 'l', ascii 'l']

def falseText : List UInt8 :=
  [ascii 'f', ascii 'a', ascii 'l', ascii 's', ascii 'e']

def trueText : List UInt8 := [ascii 't', ascii 'r', ascii 'u', ascii 'e']

mutual

/-- `parse_value`. -/
def parseValue : Nat → Item D → Ptr → Heap → Except Fault (Parsed D)
  | 0, _, _, _ => .error .outOfFuel
  | fuel + 1, item, value, heap => do
      if ← startsWith nullText value then
        return ⟨some (value.drop 4), { item with type := .null }, .null,
          heap⟩
      else if ← startsWith falseText value then
        return ⟨some (value.drop 5), { item with type := .false }, .null,
          heap⟩
      else if ← startsWith trueText value then
        return ⟨some (value.drop 4),
          { item with type := .true, valueint := 1 }, .null, heap⟩
      else
        let first ← deref value
        if first = ascii '"' then parseString allocates item value heap
        else if first = ascii '-' ∨ isDigit first then
          let (stop, item) ← parseNumber double item value
          return ⟨some stop, item, .null, heap⟩
        else if first = ascii '[' then
          parseContainer .array (parseMembers .array fuel) item value heap
        else if first = ascii '{' then
          parseContainer .object (parseMembers .object fuel) item value heap
        else return ⟨none, item, .null, heap⟩

/--
The loop of `parse_array` and `parse_object` from a member on: a new item, its
name and value, and after a comma the next one.
-/
def parseMembers (container : Container) :
    Nat → Ptr → Heap → Except Fault (Members D)
  | 0, _, _ => .error .outOfFuel
  | fuel + 1, value, heap =>
      match newItem double allocates heap with
      | (none, heap) => .ok ⟨none, .null, heap⟩
      | (some item, heap) => do
          let named ←
            parseName allocates container item (← skip value) heap
          match named.stop with
          | none => return ⟨none, .node named.item .null .null, named.heap⟩
          | some start =>
              let parsed ← parseValue fuel named.item start named.heap
              match parsed.stop with
              | none =>
                  return ⟨none, .node parsed.item parsed.child .null,
                    parsed.heap⟩
              | some stop =>
                  let stop ← skip stop
                  let separator ← deref stop
                  if separator = ascii ',' then
                    let more ←
                      parseMembers container fuel (stop.drop 1) parsed.heap
                    return ⟨more.stop,
                      .node parsed.item parsed.child more.chain, more.heap⟩
                  else if separator = container.closing then
                    return ⟨some (stop.drop 1),
                      .node parsed.item parsed.child .null, parsed.heap⟩
                  else
                    return ⟨none, .node parsed.item parsed.child .null,
                      parsed.heap⟩

end

/-- `parse_array`. -/
def parseArray (fuel : Nat) :
    Item D → Ptr → Heap → Except Fault (Parsed D) :=
  parseContainer .array (parseMembers double allocates .array fuel)

/-- `parse_object`. -/
def parseObject (fuel : Nat) :
    Item D → Ptr → Heap → Except Fault (Parsed D) :=
  parseContainer .object (parseMembers double allocates .object fuel)

/-! ## The calls of a client -/

/-- Free a string, if there is one. -/
def freeText (text : Option Text) (ledger : Ledger Block) :
    Except (Failure Block Fault) (Ledger Block) :=
  ledger.releaseAny (text.map Text.block)

/-- `cJSON_Delete`, for items which are no references. -/
def cJSONDelete : Chain D → Ledger Block →
    Except (Failure Block Fault) (Ledger Block)
  | .null, ledger => .ok ledger
  | .node item child next, ledger => do
      ledger.use item.block
      let ledger ← cJSONDelete child ledger
      let ledger ← freeText item.valuestring ledger
      let ledger ← freeText item.string ledger
      let ledger ← ledger.release item.block
      cJSONDelete next ledger

/-- The depth of calls that is enough for a text. -/
def fuelFor (value : Ptr) : Nat := 2 * value.length + 2

/-- The value at a pointer, after white space. -/
def parseFirst (item : Item D) (value : Ptr) (heap : Heap) :
    Except Fault (Parsed D) := do
  parseValue double allocates (fuelFor value) item (← skip value) heap

/--
Whether the value is kept: it was read and, with `require_null_terminated`, is
followed by the NUL after white space.
-/
def accepts (requireNullTerminated : Bool) (stop : Option Ptr) :
    Except Fault Bool :=
  match stop with
  | none => .ok false
  | some stop =>
      if requireNullTerminated then do
        return (← deref (← skip stop)) = 0
      else .ok true

/-- `cJSON_ParseWithOpts`; the text's end is not asked for. -/
def cJSONParseWithOpts (value : Ptr) (requireNullTerminated : Bool)
    (heap : Heap) : Except (Failure Block Fault) (Chain D × Heap) :=
  match newItem double allocates heap with
  | (none, heap) => .ok (.null, heap)
  | (some c, heap) => do
      let parsed ← lift (parseFirst double allocates c value heap)
      let root := Chain.node parsed.item parsed.child .null
      let accepted ← lift (accepts requireNullTerminated parsed.stop)
      if accepted then return (root, parsed.heap)
      else
        let ledger ← cJSONDelete root parsed.heap.ledger
        return (.null, { parsed.heap with ledger := ledger })

/-- `cJSON_Parse`. -/
def cJSONParse (value : Ptr) (heap : Heap) :
    Except (Failure Block Fault) (Chain D × Heap) :=
  cJSONParseWithOpts double allocates value false heap

end Parser

/-! ## Looking at a document -/

variable {D : Type}

/-- The items of a chain, each with its child. -/
def Chain.items : Chain D → List (Item D × Chain D)
  | .null => []
  | .node item child next => (item, child) :: next.items

end InternetWavPlayer.CJsonParse
