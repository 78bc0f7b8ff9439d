import Mathlib.Data.Nat.Digits.Defs
import InternetWavPlayer.CJsonParse

/-!
# `cJSON_Print` and `cJSON_PrintUnformatted`

The printing functions without a print buffer.  An array or object first
prints its members into blocks of their own, adds up what they need, and then
copies them into one block.  The writes into a block go forward from its
start, so a block is overrun just when the finished text and its NUL do not
fit the size that was computed.
-/

namespace InternetWavPlayer.CJsonPrint

open InternetWavPlayer.CJsonParse
open InternetWavPlayer.ResourceLedger
open InternetWavPlayer.Vsnprintf

/-- What printing needs of `double`, beside the arithmetic. -/
structure Printing (D : Type) extends Double D where
  isZero : D → Bool
  fabs : D → D
  floor : D → D
  le : D → D → Bool
  lt : D → D → Bool
  /-- `DBL_EPSILON`. -/
  epsilon : D
  /-- The constants `1.0e60`, `1.0e-6` and `1.0e9`. -/
  huge : D
  tiny : D
  big : D
  /-- `sprintf` with `"%.0f"`, `"%e"` and `"%f"`. -/
  formatWhole : D → List UInt8
  formatExponent : D → List UInt8
  formatFraction : D → List UInt8

/-- `sprintf` with `"%d"`. -/
def decimal (value : Int) : List UInt8 :=
  let digits := (Nat.digits 10 value.natAbs).reverse.map
    fun digit => UInt8.ofNat (48 + digit)
  if value < 0 then ascii '-' :: digits
  else if value = 0 then [ascii '0']
  else digits

/-! ## Strings -/

/-- The test of the first loop of `print_string_ptr`. -/
def flagged (byte : UInt8) : Bool :=
  (0 < byte && byte < 32) || byte == ascii '"' || byte == ascii '\\'

/-- The characters that `strchr` looks for. -/
def shortEscapes : List UInt8 :=
  [ascii '"', ascii '\\', 8, 12, 10, 13, 9]

/-- What the second loop counts for a character. -/
def countByte (byte : UInt8) : Nat :=
  if byte ∈ shortEscapes then 2 else if byte < 32 then 6 else 1

/-- A digit of `"%x"`. -/
def hexCharacter (digit : Nat) : UInt8 :=
  if digit < 10 then UInt8.ofNat (48 + digit) else UInt8.ofNat (87 + digit)

/-- What the third loop writes for a character. -/
def escapeByte (byte : UInt8) : List UInt8 :=
  if byte > 31 ∧ byte ≠ ascii '"' ∧ byte ≠ ascii '\\' then [byte]
  else if byte = ascii '\\' then [ascii '\\', ascii '\\']
  else if byte = ascii '"' then [ascii '\\', ascii '"']
  else if byte = 8 then [ascii '\\', ascii 'b']
  else if byte = 12 then [ascii '\\', ascii 'f']
  else if byte = 10 then [ascii '\\', ascii 'n']
  else if byte = 13 then [ascii '\\', ascii 'r']
  else if byte = 9 then [ascii '\\', ascii 't']
  else
    -- `"u%04x"` of a byte
    [ascii '\\', ascii 'u', ascii '0', ascii '0',
      hexCharacter (byte.toNat / 16), hexCharacter (byte.toNat % 16)]

/-- The text between the quotes. -/
def escaped (str : List UInt8) : List UInt8 :=
  if str.any flagged then str.flatMap escapeByte else str

/-- A string with its quotes. -/
def quoted (str : List UInt8) : List UInt8 :=
  ascii '"' :: (escaped str ++ [ascii '"'])

/-- The size of the block of a printed string. -/
def quotedSize (str : List UInt8) : Nat :=
  if str.any flagged then (str.map countByte).sum + 3 else str.length + 3

/-! ## Blocks with a text -/

/-- An allocation, unless it fails, and the writes of a text and its NUL. -/
def fill (allocates : Nat → Bool) (text : List UInt8) (size : Nat)
    (heap : Heap) : Except (Failure Block Fault) (Option Text × Heap) :=
  match malloc allocates .string heap with
  | (none, heap) => .ok (none, heap)
  | (some out, heap) =>
      if text.length + 1 ≤ size then .ok (some ⟨out, text⟩, heap)
      else .error (.program .overrun)

section Printer

variable {D : Type} (printing : Printing D) (allocates : Nat → Bool)

/-- `print_number`. -/
def printNumber (item : Item D) (heap : Heap) :
    Except (Failure Block Fault) (Option Text × Heap) :=
  let d := item.valuedouble
  if printing.isZero d then fill allocates [ascii '0'] 2 heap
  else if printing.le
        (printing.fabs (printing.sub (printing.ofInt item.valueint) d))
        printing.epsilon ∧
      printing.le d (printing.ofInt 2147483647) ∧
      printing.le (printing.ofInt (-2147483648)) d then
    fill allocates (decimal item.valueint) 21 heap
  else if printing.le
        (printing.fabs (printing.sub (printing.floor d) d))
        printing.epsilon ∧
      printing.lt (printing.fabs d) printing.huge then
    fill allocates (printing.formatWhole d) 64 heap
  else if printing.lt (printing.fabs d) printing.tiny ∨
      printing.lt printing.big (printing.fabs d) then
    fill allocates (printing.formatExponent d) 64 heap
  else fill allocates (printing.formatFraction d) 64 heap

/-- `print_string_ptr`, which reads its argument before it tests it. -/
def printStringPtr (str : Option Text) (heap : Heap) :
    Except (Failure Block Fault) (Option Text × Heap) :=
  match str with
  | none => .error (.program .nullPointer)
  | some str => fill allocates (quoted str.text) (quotedSize str.text) heap

/-! ## Members -/

/-- A member printed: its name, in an object, and its value. -/
structure Entry where
  name : Option Text
  value : Option Text

/-- An entry for which nothing failed. -/
def Entry.printed (container : Container) (entry : Entry) : Bool :=
  entry.value.isSome && (container == .array || entry.name.isSome)

/-- `strlen` of a text, or 0 without one. -/
def strlen (text : Option Text) : Nat :=
  match text with
  | none => 0
  | some text => text.text.length

/-- The bytes that a text is copied as. -/
def copied (text : Option Text) : List UInt8 :=
  match text with
  | none => []
  | some text => text.text

def tabs (count : Nat) : List UInt8 := List.replicate count 9

/-- What is written before a member: its indentation, name and colon. -/
def memberStart (container : Container) (fmt : Bool) (depth : Nat)
    (name : List UInt8) : List UInt8 :=
  match container with
  | .array => []
  | .object =>
      (if fmt then tabs depth else []) ++ name ++
        (ascii ':' :: if fmt then [9] else [])

/-- What is written behind a member. -/
def memberEnd (container : Container) (fmt last : Bool) : List UInt8 :=
  match container with
  | .array => if last then [] else ascii ',' :: if fmt then [32] else []
  | .object =>
      (if last then [] else [ascii ',']) ++ if fmt then [10] else []

/-- The loop which copies the members into the block. -/
def compose (container : Container) (fmt : Bool) (depth : Nat) :
    List (List UInt8 × List UInt8) → List UInt8
  | [] => []
  | (name, value) :: rest =>
      memberStart container fmt depth name ++ value ++
        memberEnd container fmt rest.isEmpty ++
        compose container fmt depth rest

/-- What `len` grows by for one member. -/
def memberSize (container : Container) (fmt : Bool) (depth : Nat)
    (entry : Entry) : Nat :=
  match container with
  | .array => strlen entry.value + 2 + if fmt then 1 else 0
  | .object =>
      strlen entry.value + strlen entry.name + 2 +
        if fmt then 2 + depth else 0

/-- `len` before the first member. -/
def baseSize (container : Container) (fmt : Bool) (depth : Nat) : Nat :=
  match container with
  | .array => 5
  | .object => 7 + if fmt then depth else 0

/-- The whole text of a container whose members are at the given depth. -/
def enclose (container : Container) (fmt : Bool) (depth : Nat)
    (members : List UInt8) : List UInt8 :=
  match container with
  | .array => ascii '[' :: (members ++ [ascii ']'])
  | .object =>
      ascii '{' :: ((if fmt then [10] else []) ++ members ++
        (if fmt then tabs (depth - 1) else []) ++ [ascii '}'])

/-- Free the printed members. -/
def freeEntries : List Entry → Ledger Block →
    Except (Failure Block Fault) (Ledger Block)
  | [], ledger => .ok ledger
  | entry :: rest, ledger => do
      let ledger ← freeText entry.name ledger
      let ledger ← freeText entry.value ledger
      freeEntries rest ledger

/-- Allocate the arrays `entries` and, for an object, `names`. -/
def allocateArrays (container : Container) (heap : Heap) :
    Except (Failure Block Fault)
      (Option (Resource Block × Option (Resource Block)) × Heap) :=
  match malloc allocates .pointers heap with
  | (none, heap) => .ok (none, heap)
  | (some entries, heap) =>
      match container with
      | .array => .ok (some (entries, none), heap)
      | .object =>
          match malloc allocates .pointers heap with
          | (none, heap) => do
              let ledger ← heap.ledger.release entries
              return (none, { heap with ledger := ledger })
          | (some names, heap) => .ok (some (entries, some names), heap)

/-- Free the members and the two arrays. -/
def freeArrays (arrays : Resource Block × Option (Resource Block))
    (entries : List Entry) (heap : Heap) :
    Except (Failure Block Fault) Heap := do
  let ledger ← freeEntries entries heap.ledger
  let ledger ← ledger.releaseAny arrays.2
  let ledger ← ledger.release arrays.1
  return { heap with ledger := ledger }

/-- The text of a container without members. -/
def emptyText (container : Container) (fmt : Bool) (depth : Nat) :
    List UInt8 :=
  match container with
  | .array => [ascii '[', ascii ']']
  | .object =>
      ascii '{' :: ((if fmt then 10 :: tabs (depth - 1) else []) ++
        [ascii '}'])

/-- The size of the block of a container without members. -/
def emptySize (container : Container) (fmt : Bool) (depth : Nat) : Nat :=
  match container with
  | .array => 3
  | .object => if fmt then depth + 4 else 3

/--
`print_array` and `print_object`, given the loop which prints the members at
the depth below.
-/
def printContainer (container : Container) (fmt : Bool) (depth : Nat)
    (child : Chain D)
    (members : Heap →
      Except (Failure Block Fault) (List Entry × Heap)) (heap : Heap) :
    Except (Failure Block Fault) (Option Text × Heap) :=
  if child.items.length = 0 then
    fill allocates (emptyText container fmt depth)
      (emptySize container fmt depth) heap
  else do
    let (arrays, heap) ← allocateArrays allocates container heap
    match arrays with
    | none => return (none, heap)
    | some arrays =>
        let (entries, heap) ← members heap
        if entries.all (Entry.printed container) then
          let text := enclose container fmt (depth + 1)
            (compose container fmt (depth + 1)
              (entries.map fun entry =>
                (copied entry.name, copied entry.value)))
          let len := baseSize container fmt (depth + 1) +
            (entries.map (memberSize container fmt (depth + 1))).sum
          let (out, heap) ← fill allocates text len heap
          let heap ← freeArrays arrays entries heap
          return (out, heap)
        else
          let heap ← freeArrays arrays entries heap
          return (none, heap)

/-- The name of a member, printed in an object only. -/
def printName (container : Container) (item : Item D) (heap : Heap) :
    Except (Failure Block Fault) (Option Text × Heap) :=
  match container with
  | .array => .ok (none, heap)
  | .object => printStringPtr allocates item.string heap

/-- `print_value`, given the loop over the children of the item. -/
def printValue (fmt : Bool) (depth : Nat) (item : Item D) (child : Chain D)
    (members : Container → Heap →
      Except (Failure Block Fault) (List Entry × Heap)) (heap : Heap) :
    Except (Failure Block Fault) (Option Text × Heap) :=
  match item.type with
  | .null => fill allocates nullText 5 heap
  | .false => fill allocates falseText 6 heap
  | .true => fill allocates trueText 5 heap
  | .number => printNumber printing allocates item heap
  | .string => printStringPtr allocates item.valuestring heap
  | .array =>
      printContainer allocates .array fmt depth child (members .array) heap
  | .object =>
      printContainer allocates .object fmt depth child (members .object) heap

/--
The loop which prints the members of a container, all at one depth.  In an
array it stops at the first failure.
-/
def printMembers (fmt : Bool) : Chain D → Nat → Container → Heap →
    Except (Failure Block Fault) (List Entry × Heap)
  | .null, _, _, heap => .ok ([], heap)
  | .node item child next, depth, container, heap => do
      let (name, heap) ← printName allocates container item heap
      let (value, heap) ← printValue printing allocates fmt depth item child
        (printMembers fmt child (depth + 1)) heap
      if container = .array ∧ value.isNone then
        return ([⟨name, none⟩], heap)
      else
        let (rest, heap) ← printMembers fmt next depth container heap
        return (⟨name, value⟩ :: rest, heap)

/-- `print_value` at the top, for an item which is not null. -/
def printRoot (fmt : Bool) (item : Item D) (child : Chain D) (heap : Heap) :
    Except (Failure Block Fault) (Option Text × Heap) :=
  printValue printing allocates fmt 0 item child
    (printMembers printing allocates fmt child 1) heap

/-- `cJSON_Print`. -/
def cJSONPrint : Item D → Chain D → Heap →
    Except (Failure Block Fault) (Option Text × Heap) :=
  printRoot printing allocates true

/-- `cJSON_PrintUnformatted`. -/
def cJSONPrintUnformatted : Item D → Chain D → Heap →
    Except (Failure Block Fault) (Option Text × Heap) :=
  printRoot printing allocates false

end Printer

end InternetWavPlayer.CJsonPrint
