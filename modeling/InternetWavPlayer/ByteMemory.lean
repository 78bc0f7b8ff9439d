import Mathlib.Logic.Function.Basic
import Mathlib.Tactic

/-!
# Byte memory

A memory gives every address a byte.  Numbers are stored with their low byte
first; a block of bytes is filled or copied one byte after the other.  Each
operation comes with what it leaves at the addresses it writes and with the
frame of the others.

Nothing here mentions a particular program.
-/

namespace InternetWavPlayer.ByteMemory

/-- A byte for every address. -/
abbrev Memory := Nat → UInt8

/-- Write one byte. -/
def write (memory : Memory) (address : Nat) (byte : UInt8) : Memory :=
  Function.update memory address byte

@[simp]
theorem write_same (memory : Memory) (address : Nat) (byte : UInt8) :
    write memory address byte address = byte :=
  Function.update_self _ _ _

@[simp]
theorem write_other (memory : Memory) {address other : Nat} (byte : UInt8)
    (apart : other ≠ address) :
    write memory address byte other = memory other :=
  Function.update_of_ne apart _ _

/-! ## Numbers -/

/-- The number in `width` bytes, low byte first. -/
def load (memory : Memory) (address : Nat) : Nat → Nat
  | 0 => 0
  | width + 1 =>
      (memory address).toNat + 256 * load memory (address + 1) width

/-- Store the low `width` bytes of a number, low byte first. -/
def store (memory : Memory) (address : Nat) : Nat → Nat → Memory
  | 0, _ => memory
  | width + 1, value =>
      store (write memory address (UInt8.ofNat value)) (address + 1) width
        (value / 256)

theorem store_frame (width : Nat) {memory : Memory} {address value : Nat}
    {other : Nat} (outside : other < address ∨ address + width ≤ other) :
    store memory address width value other = memory other := by
  induction width generalizing memory address value with
  | zero => rfl
  | succ width induction =>
      rw [store, induction (by omega), write_other _ _ (by omega)]

theorem load_congr (width : Nat) {first second : Memory} {address : Nat}
    (agree : ∀ other, address ≤ other → other < address + width →
      first other = second other) :
    load first address width = load second address width := by
  induction width generalizing address with
  | zero => rfl
  | succ width induction =>
      rw [load, load, agree address le_rfl (by omega),
        induction fun other above below =>
          agree other (by omega) (by omega)]

/-- A number loads as it was stored, up to its width. -/
theorem load_store (width : Nat) (memory : Memory) (address value : Nat) :
    load (store memory address width value) address width =
      value % 256 ^ width := by
  induction width generalizing memory address value with
  | zero => rw [load, Nat.pow_zero, Nat.mod_one]
  | succ width induction =>
      have low : store memory address (width + 1) value address =
          UInt8.ofNat value := by
        rw [store, store_frame width (Or.inl (Nat.lt_add_one _)),
          write_same]
      have byte : (UInt8.ofNat value).toNat = value % 256 :=
        UInt8.toNat_ofNat'
      rw [load, low, store, induction, byte, Nat.pow_succ',
        Nat.mod_mul]

theorem load_store_eq {width : Nat} {memory : Memory}
    {address value : Nat} (fits : value < 256 ^ width) :
    load (store memory address width value) address width = value := by
  rw [load_store, Nat.mod_eq_of_lt fits]

theorem load_store_frame {width stored : Nat} {memory : Memory}
    {address other value : Nat}
    (apart : other + width ≤ address ∨ address + stored ≤ other) :
    load (store memory address stored value) other width =
      load memory other width :=
  load_congr width fun place above below =>
    store_frame stored (by omega)

/-! ## Blocks -/

/-- Fill `count` bytes, in order. -/
def fill (memory : Memory) (address : Nat) (byte : UInt8) : Nat → Memory
  | 0 => memory
  | count + 1 => fill (write memory address byte) (address + 1) byte count

theorem fill_frame (count : Nat) {memory : Memory} {address other : Nat}
    {byte : UInt8} (outside : other < address ∨ address + count ≤ other) :
    fill memory address byte count other = memory other := by
  induction count generalizing memory address with
  | zero => rfl
  | succ count induction =>
      rw [fill, induction (by omega), write_other _ _ (by omega)]

theorem fill_inside (count : Nat) {memory : Memory} {address other : Nat}
    {byte : UInt8} (above : address ≤ other)
    (below : other < address + count) :
    fill memory address byte count other = byte := by
  induction count generalizing memory address with
  | zero => omega
  | succ count induction =>
      rw [fill]
      by_cases first : other = address
      · rw [first, fill_frame count (Or.inl (Nat.lt_add_one _)),
          write_same]
      · exact induction (by omega) (by omega)

/-- Copy `count` bytes from one address to another, in order. -/
def copy (memory : Memory) (target source : Nat) : Nat → Memory
  | 0 => memory
  | count + 1 =>
      copy (write memory target (memory source)) (target + 1)
        (source + 1) count

theorem copy_frame (count : Nat) {memory : Memory}
    {target source other : Nat}
    (outside : other < target ∨ target + count ≤ other) :
    copy memory target source count other = memory other := by
  induction count generalizing memory target source with
  | zero => rfl
  | succ count induction =>
      rw [copy, induction (by omega), write_other _ _ (by omega)]

/--
The copy holds the bytes of the source, unless the target starts inside the
source.
-/
theorem copy_inside (count : Nat) {memory : Memory}
    {target source index : Nat}
    (apart : target ≤ source ∨ source + count ≤ target)
    (inside : index < count) :
    copy memory target source count (target + index) =
      memory (source + index) := by
  induction count generalizing memory target source index with
  | zero => omega
  | succ count induction =>
      rw [copy]
      cases index with
      | zero =>
          have first : target < target + 1 := Nat.lt_add_one target
          simp only [Nat.add_zero]
          rw [copy_frame count (Or.inl first), write_same]
      | succ index =>
          rw [Nat.add_comm index 1, ← Nat.add_assoc, ← Nat.add_assoc,
            induction (by omega) (by omega), write_other _ _ (by omega)]

end InternetWavPlayer.ByteMemory
