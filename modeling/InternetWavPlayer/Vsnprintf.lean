import Mathlib.Data.Nat.Digits.Defs
import InternetWavPlayer.Songlist

/-!
# `rt_vsnprintf`

The formatter of the kernel service, with precisions and without `long long`
and the prefixes of `#`.  A format is read a directive at a time: flags, width,
precision, a qualifier and the conversion character.  What a conversion takes
from the variadic arguments must have been passed; a format from outside comes
with none.

The loops that write a number of equal characters are replications, and the
buffer keeps what fits before its last byte.
-/

namespace InternetWavPlayer.Vsnprintf

open InternetWavPlayer.Songlist

/-- The code of a character. -/
def ascii (character : Char) : UInt8 := character.toUInt8

/-- An argument of a variadic call: a word, or a pointer to a text. -/
inductive Arg where
  | word (bits : BitVec 32)
  | text (pointer : Option (List UInt8))
deriving DecidableEq, Repr

/-- An argument is read that was not passed. -/
inductive Missing where
  | argument
deriving DecidableEq, Repr

/-- `va_arg` for an integer or an address. -/
def vaWord : List Arg → Except Missing (BitVec 32 × List Arg)
  | .word bits :: args => .ok (bits, args)
  | _ => .error .argument

/-- `va_arg` for a text. -/
def vaText : List Arg → Except Missing (Option (List UInt8) × List Arg)
  | .text pointer :: args => .ok (pointer, args)
  | _ => .error .argument

/-! ## Directives -/

/-- The bits of `flags`. -/
structure Flags where
  zeropad : Bool
  sign : Bool
  plus : Bool
  space : Bool
  left : Bool
  special : Bool
  large : Bool
deriving DecidableEq, Repr

/-- `flags = 0`. -/
def Flags.clear : Flags := ⟨false, false, false, false, false, false, false⟩

/-- A width or a precision: not given, a number, or the next argument. -/
inductive Count where
  | absent
  | number (value : Int)
  | argument
deriving DecidableEq, Repr

/-- What stands between `%` and the next literal character. -/
structure Directive where
  flags : Flags
  fieldWidth : Count
  precision : Count
  qualifier : Option UInt8
  /-- The conversion character, none at the end of the format. -/
  conversion : Option UInt8
deriving DecidableEq, Repr

/-- `isdigit`. -/
def isDigit (character : UInt8) : Bool :=
  ascii '0' ≤ character && character ≤ ascii '9'

/-- The loop over the flags. -/
def takeFlags : Flags → List UInt8 → Flags × List UInt8
  | flags, [] => (flags, [])
  | flags, character :: fmt =>
      if character = ascii '-' then
        takeFlags { flags with left := true } fmt
      else if character = ascii '+' then
        takeFlags { flags with plus := true } fmt
      else if character = ascii ' ' then
        takeFlags { flags with space := true } fmt
      else if character = ascii '#' then
        takeFlags { flags with special := true } fmt
      else if character = ascii '0' then
        takeFlags { flags with zeropad := true } fmt
      else (flags, character :: fmt)

/-- `skip_atoi`, where an `int` that overflows wraps around. -/
def skipAtoi : BitVec 32 → List UInt8 → BitVec 32 × List UInt8
  | i, [] => (i, [])
  | i, character :: fmt =>
      if isDigit character then
        skipAtoi (i * 10 + BitVec.ofNat 32 character.toNat - 48) fmt
      else (i, character :: fmt)

/-- A number or `*`, with what it is when neither is there. -/
def takeCount (missing : Count) (fmt : List UInt8) : Count × List UInt8 :=
  match fmt with
  | [] => (missing, [])
  | character :: rest =>
      if isDigit character then
        (.number (skipAtoi 0 fmt).1.toInt, (skipAtoi 0 fmt).2)
      else if character = ascii '*' then (.argument, rest)
      else (missing, fmt)

/-- The precision, which a lone point sets to 0. -/
def takePrecision (fmt : List UInt8) : Count × List UInt8 :=
  match fmt with
  | [] => (.absent, [])
  | character :: rest =>
      if character = ascii '.' then takeCount (.number 0) rest
      else (.absent, fmt)

/-- The conversion qualifier. -/
def takeQualifier (fmt : List UInt8) : Option UInt8 × List UInt8 :=
  match fmt with
  | [] => (none, [])
  | character :: rest =>
      if character = ascii 'h' ∨ character = ascii 'l' then
        (some character, rest)
      else (none, fmt)

/-- The conversion character. -/
def takeConversion (fmt : List UInt8) : Option UInt8 × List UInt8 :=
  match fmt with
  | [] => (none, [])
  | character :: rest => (some character, rest)

/-- The directive after a `%`, and the format behind it. -/
def directive (fmt : List UInt8) : Directive × List UInt8 :=
  let (flags, fmt) := takeFlags .clear fmt
  let (fieldWidth, fmt) := takeCount .absent fmt
  let (precision, fmt) := takePrecision fmt
  let (qualifier, fmt) := takeQualifier fmt
  let (conversion, fmt) := takeConversion fmt
  (⟨flags, fieldWidth, precision, qualifier, conversion⟩, fmt)

/-! ## Conversions -/

/-- So many equal characters; none for a negative count. -/
def repeated (count : Int) (character : UInt8) : List UInt8 :=
  List.replicate count.toNat character

/-- A digit, in `small_digits` or `large_digits`. -/
def digitCharacter (large : Bool) (digit : Nat) : UInt8 :=
  if digit < 10 then ascii '0' + digit.toUInt8
  else if large then ascii 'A' + (digit - 10).toUInt8
  else ascii 'a' + (digit - 10).toUInt8

/--
`tmp` in `print_number`, least digit first.  `divide` knows the base 10 and
takes every other base for 16.
-/
def numberDigits (base value : Nat) : List Nat :=
  if value = 0 then [0]
  else Nat.digits (if base = 10 then 10 else 16) value

/-- The sign character of `print_number`. -/
def signCharacter (flags : Flags) (negative : Bool) : List UInt8 :=
  if flags.sign then
    if negative then [ascii '-']
    else if flags.plus then [ascii '+']
    else if flags.space then [ascii ' ']
    else []
  else []

/-- `print_number`. -/
def printNumber (num : BitVec 32) (base : Nat) (size precision : Int)
    (flags : Flags) : List UInt8 :=
  let zeropad := flags.zeropad && !flags.left
  let negative := decide (num.toInt < 0)
  let sign := signCharacter flags negative
  let value :=
    if flags.sign && negative then num.toInt.natAbs else num.toNat
  let tmp := numberDigits base value
  let digits :=
    if precision = 0 then []
    else (tmp.map (digitCharacter flags.large)).reverse
  let least := max precision tmp.length
  let zeros := repeated (least - tmp.length) (ascii '0')
  let size := size - least
  if flags.left then
    sign ++ zeros ++ digits ++ repeated (size - sign.length) (ascii ' ')
  else if zeropad then
    sign ++ repeated (size - sign.length) (ascii '0') ++ zeros ++ digits
  else
    repeated (size - sign.length) (ascii ' ') ++ sign ++ zeros ++ digits

/-- The width as `field_width`, with the flags that a `*` may change. -/
def readWidth (count : Count) (flags : Flags) (args : List Arg) :
    Except Missing (Int × Flags × List Arg) :=
  match count with
  | .absent => .ok (-1, flags, args)
  | .number value => .ok (value, flags, args)
  | .argument => do
      let (bits, args) ← vaWord args
      if bits.toInt < 0 then
        return ((-bits).toInt, { flags with left := true }, args)
      else return (bits.toInt, flags, args)

/-- The precision as `precision`, which is not negative if one is given. -/
def readPrecision (count : Count) (args : List Arg) :
    Except Missing (Int × List Arg) :=
  match count with
  | .absent => .ok (-1, args)
  | .number value => .ok (max value 0, args)
  | .argument => do
      let (bits, args) ← vaWord args
      return (max bits.toInt 0, args)

/-- The integer of a conversion, cut to 16 bits by the qualifier `h`. -/
def readNumber (qualifier : Option UInt8) (sign : Bool)
    (args : List Arg) : Except Missing (BitVec 32 × List Arg) := do
  let (bits, args) ← vaWord args
  if qualifier = some (ascii 'h') then
    let low := bits.setWidth 16
    return (if sign then low.signExtend 32 else low.setWidth 32, args)
  else return (bits, args)

/-- The conversions that print an integer: their base, sign and case. -/
def integerBase (conversion : UInt8) (flags : Flags) :
    Option (Nat × Flags) :=
  if conversion = ascii 'o' then some (8, flags)
  else if conversion = ascii 'X' then some (16, { flags with large := true })
  else if conversion = ascii 'x' then some (16, flags)
  else if conversion = ascii 'd' ∨ conversion = ascii 'i' then
    some (10, { flags with sign := true })
  else if conversion = ascii 'u' then some (10, flags)
  else none

/-- The `switch` over the conversion character. -/
def convertAs (conversion : UInt8) (qualifier : Option UInt8)
    (fieldWidth precision : Int) (flags : Flags) (args : List Arg) :
    Except Missing (List UInt8 × List Arg) :=
  if conversion = ascii 'c' then do
    let (bits, args) ← vaWord args
    let character := UInt8.ofNat bits.toNat
    let padding := repeated (fieldWidth - 1) (ascii ' ')
    return (if flags.left then character :: padding
      else padding ++ [character], args)
  else if conversion = ascii 's' then do
    let (pointer, args) ← vaText args
    let s := pointer.getD ("(NULL)".toUTF8.toList)
    let shown :=
      if precision > 0 ∧ (s.length : Int) > precision then
        s.take precision.toNat
      else s
    let padding := repeated (fieldWidth - shown.length) (ascii ' ')
    return (if flags.left then shown ++ padding else padding ++ shown, args)
  else if conversion = ascii 'p' then do
    let (bits, args) ← vaWord args
    if fieldWidth = -1 then
      return (printNumber bits 16 8 precision { flags with zeropad := true },
        args)
    else return (printNumber bits 16 fieldWidth precision flags, args)
  else if conversion = ascii '%' then .ok ([ascii '%'], args)
  else
    match integerBase conversion flags with
    | some (base, flags) => do
        let (num, args) ← readNumber qualifier flags.sign args
        return (printNumber num base fieldWidth precision flags, args)
    | none => .ok ([ascii '%', conversion], args)

/-- What a directive prints, and the arguments behind it. -/
def convert (found : Directive) (args : List Arg) :
    Except Missing (List UInt8 × List Arg) := do
  let (fieldWidth, flags, args) ←
    readWidth found.fieldWidth found.flags args
  let (precision, args) ← readPrecision found.precision args
  match found.conversion with
  | some conversion =>
      convertAs conversion found.qualifier fieldWidth precision flags args
  | none => return ([ascii '%'], args)

/-- The loop over the format, whose length is enough fuel. -/
def formatLoop : Nat → List UInt8 → List Arg → Except Missing (List UInt8)
  | 0, _, _ => .ok []
  | _ + 1, [], _ => .ok []
  | fuel + 1, character :: fmt, args =>
      if character ≠ ascii '%' then do
        let printed ← formatLoop fuel fmt args
        return character :: printed
      else do
        let (found, fmt) := directive fmt
        let (printed, args) ← convert found args
        let more ← formatLoop fuel fmt args
        return printed ++ more

/-- All characters that a format and its arguments print. -/
def format (fmt : List UInt8) (args : List Arg) :
    Except Missing (List UInt8) :=
  formatLoop fmt.length fmt args

/-- `rt_vsnprintf(buf, size, fmt, args)`: the text it leaves in `buf`. -/
def rtVsnprintf (size : Nat) (fmt : List UInt8) (args : List Arg) :
    Except Missing (List UInt8) := do
  let printed ← format fmt args
  return blockText (printed.take (size - 1))

end InternetWavPlayer.Vsnprintf
