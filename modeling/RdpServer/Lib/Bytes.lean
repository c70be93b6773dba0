import Mathlib.Algebra.Ring.Nat
import Mathlib.Data.List.Basic
import Mathlib.Tactic.Common

/-!
# Byte strings, byte buffers and bits

A buffer that a program writes by offset is a byte string as well: `writeAt` replaces the
octets that a block store covers, and grows the string when the store reaches past its end.
Integers of a fixed number of octets are natural numbers; `leBytes` and `beBytes` encode them.
`mask` adds a keystream, and `Bits.of` is a number as bits, the highest one first.
-/

abbrev Bytes := List UInt8

namespace Bytes

open List

/-- Store `block` into `buffer` at `offset`, as `memcpy` does. -/
def writeAt {α : Type} (buffer : List α) (offset : Nat) (block : List α) : List α :=
  buffer.take offset ++ block ++ buffer.drop (offset + block.length)

section WriteAt

variable {α : Type} {buffer block : List α} {offset : Nat}

theorem length_writeAt (fits : offset + block.length ≤ buffer.length) :
    (writeAt buffer offset block).length = buffer.length := by
  simp only [writeAt, length_append, length_take, length_drop]
  omega

theorem le_length_writeAt (buffer block : List α) (inside : offset ≤ buffer.length) :
    offset + block.length ≤ (writeAt buffer offset block).length := by
  simp only [writeAt, length_append, length_take, length_drop]
  omega

theorem take_writeAt (buffer block : List α) (inside : offset ≤ buffer.length) :
    (writeAt buffer offset block).take (offset + block.length) = buffer.take offset ++ block := by
  have length : (buffer.take offset ++ block).length = offset + block.length := by
    simp only [length_append, length_take]
    omega
  rw [writeAt, ← length]
  exact take_left

theorem getElem?_writeAt_before {index : Nat} (inside : offset ≤ buffer.length)
    (before : index < offset) : (writeAt buffer offset block)[index]? = buffer[index]? := by
  rw [writeAt, append_assoc, getElem?_append_left
    (by rw [length_take]; omega), getElem?_take_of_lt before]

theorem getElem?_writeAt_block (buffer block : List α) {index : Nat}
    (inside : offset ≤ buffer.length) (covered : index < block.length) :
    (writeAt buffer offset block)[offset + index]? = block[index]? := by
  have length : (buffer.take offset).length = offset := by
    rw [length_take]
    omega
  rw [writeAt, append_assoc, getElem?_append_right (by omega), length,
    Nat.add_sub_cancel_left, getElem?_append_left covered]

end WriteAt

def low (value : Nat) : UInt8 := UInt8.ofNat value

@[simp] theorem toNat_low (value : Nat) : (low value).toNat = value % 256 := by
  simp [low]

theorem low_toNat (octet : UInt8) : low octet.toNat = octet := by
  simp [low]

/-- The little endian encoding in `width` octets. -/
def leBytes : Nat → Nat → Bytes
  | 0, _ => []
  | width + 1, value => low value :: leBytes width (value / 256)

def leValue : Bytes → Nat
  | [] => 0
  | octet :: rest => octet.toNat + 256 * leValue rest

variable (width value : Nat)

@[simp] theorem length_leBytes : (leBytes width value).length = width := by
  induction width generalizing value with
  | zero => rfl
  | succ width ih => simp only [leBytes, length_cons, ih]

theorem leValue_leBytes_mod :
    leValue (leBytes width value) = value % 256 ^ width := by
  induction width generalizing value with
  | zero => exact (Nat.mod_one value).symm
  | succ width ih =>
    rw [leBytes, leValue, toNat_low, ih, Nat.pow_succ, Nat.mul_comm (256 ^ width), Nat.mod_mul]

theorem leValue_leBytes (fits : value < 256 ^ width) :
    leValue (leBytes width value) = value := by
  rw [leValue_leBytes_mod, Nat.mod_eq_of_lt fits]

/-- A field is read at its offset. -/
theorem leValue_field {before : Bytes} {off width value : Nat} (starts : before.length = off)
    (rest : Bytes) (fits : value < 256 ^ width) :
    leValue (((before ++ (leBytes width value ++ rest)).drop off).take width) = value := by
  rw [drop_left' starts, take_left' (length_leBytes width value), leValue_leBytes width value fits]

theorem leBytes_leValue (octets : Bytes) :
    leBytes octets.length (leValue octets) = octets := by
  induction octets with
  | nil => rfl
  | cons octet rest ih =>
    have small : octet.toNat < 256 := octet.toNat_lt
    have first : low (octet.toNat + 256 * leValue rest) = octet := by
      apply UInt8.toNat_inj.1
      rw [toNat_low]
      omega
    have others : (octet.toNat + 256 * leValue rest) / 256 = leValue rest := by omega
    rw [length_cons, leBytes, leValue, first, others, ih]

/-- The big endian encoding in `width` octets. -/
def beBytes (width value : Nat) : Bytes := (leBytes width value).reverse

def beValue (octets : Bytes) : Nat :=
  octets.foldl (fun value octet => value * 256 + octet.toNat) 0

end Bytes

namespace Bits

/-- The lowest `n` bits of a number, the highest of them first. -/
def of : Nat → Nat → List Bool
  | 0, _ => []
  | n + 1, value => value.testBit n :: of n value

/-- A number of `n` bits at the front of a list, and what is behind it. -/
def read : Nat → List Bool → Option (Nat × List Bool)
  | 0, bits => some (0, bits)
  | _ + 1, [] => none
  | n + 1, bit :: bits => (read n bits).map fun found => (2 ^ n * bit.toNat + found.1, found.2)

def ofOctets (octets : List UInt8) : List Bool := octets.flatMap fun octet => of 8 octet.toNat

theorem ofOctets_append (first second : List UInt8) :
    ofOctets (first ++ second) = ofOctets first ++ ofOctets second :=
  List.flatMap_append

theorem of_append (m n value : Nat) : of (m + n) value = of m (value / 2 ^ n) ++ of n value := by
  induction m with
  | zero => rw [Nat.zero_add, of, List.nil_append]
  | succ m ih =>
    rw [Nat.succ_add, of, of, ih, Nat.testBit_div_two_pow, List.cons_append, Nat.add_comm]

theorem of_mod {k n : Nat} (within : k ≤ n) (value : Nat) : of k (value % 2 ^ n) = of k value := by
  induction k with
  | zero => rfl
  | succ k ih =>
    rw [of, of, ih (by omega), Nat.testBit_mod_two_pow, decide_eq_true (by omega), Bool.true_and]

theorem of_join (m n first : Nat) (second : Nat) :
    of (m + n) (first * 2 ^ n + second % 2 ^ n) = of m first ++ of n second := by
  have below : second % 2 ^ n < 2 ^ n := Nat.mod_lt _ (Nat.two_pow_pos n)
  have high : (first * 2 ^ n + second % 2 ^ n) / 2 ^ n = first := by
    rw [Nat.mul_comm, Nat.mul_add_div (Nat.two_pow_pos n), Nat.div_eq_of_lt below, Nat.add_zero]
  have low : of n (first * 2 ^ n + second % 2 ^ n) = of n second := by
    rw [← of_mod le_rfl, Nat.mul_comm, Nat.mul_add_mod, Nat.mod_mod, of_mod le_rfl]
  rw [of_append, high, low]

theorem of_zero (n : Nat) : of n 0 = List.replicate n false := by
  induction n with
  | zero => rfl
  | succ n ih => rw [of, ih, Nat.zero_testBit, List.replicate_succ]

theorem read_of (n value : Nat) (rest : List Bool) :
    read n (of n value ++ rest) = some (value % 2 ^ n, rest) := by
  induction n with
  | zero => rw [of, List.nil_append, read, Nat.pow_zero, Nat.mod_one]
  | succ n ih =>
    rw [of, List.cons_append, read, ih, Option.map_some, Nat.toNat_testBit, Nat.mod_pow_succ,
      Nat.add_comm]

end Bits

namespace Bytes

def mask (stream : Nat → UInt8) : Nat → Bytes → Bytes
  | _, [] => []
  | pos, octet :: rest => (octet ^^^ stream pos) :: mask stream (pos + 1) rest

@[simp] theorem length_mask (stream : Nat → UInt8) (pos : Nat) (message : Bytes) :
    (mask stream pos message).length = message.length := by
  induction message generalizing pos with
  | nil => rfl
  | cons octet rest ih => rw [mask, List.length_cons, List.length_cons, ih]

/-- Adding the same keystream twice gives the message back. -/
@[simp] theorem mask_mask (stream : Nat → UInt8) (pos : Nat) (message : Bytes) :
    mask stream pos (mask stream pos message) = message := by
  induction message generalizing pos with
  | nil => rfl
  | cons octet rest ih =>
    rw [mask, mask, ih, UInt8.xor_assoc, UInt8.xor_self, UInt8.xor_zero]

end Bytes
