import Mathlib.Tactic.Common

/-!
# Names in 16 bit units and in bytes

Text in little endian 16 bit units, its narrowing to the low byte of each unit
and the widening of bytes back to units. Widening undoes narrowing for the units
below 256 and for no others. The last part of a path is what follows its last
separator.
-/

namespace Units

open List

def octets (unit : UInt16) : List UInt8 := [unit.toUInt8, (unit >>> 8).toUInt8]

def encode (units : List UInt16) : List UInt8 := units.flatMap octets

def decode : List UInt8 → List UInt16
  | low :: high :: rest => (low.toUInt16 ||| high.toUInt16 <<< 8) :: decode rest
  | _ => []

def widen (octet : UInt8) : UInt16 := octet.toUInt16

def narrow (unit : UInt16) : UInt8 := unit.toUInt8

def wide (name : List UInt8) : List UInt8 := name.flatMap fun octet => [octet, 0]

variable (units : List UInt16)

@[simp] theorem length_encode : (encode units).length = 2 * units.length := by
  induction units with
  | nil => rfl
  | cons unit units ih =>
    rw [encode, flatMap_cons, length_append]
    rw [encode] at ih
    rw [ih, length_cons]
    have two : (octets unit).length = 2 := rfl
    omega

@[simp] theorem length_wide (name : List UInt8) : (wide name).length = 2 * name.length := by
  induction name with
  | nil => rfl
  | cons octet name ih =>
    rw [wide, flatMap_cons, length_append]
    rw [wide] at ih
    rw [ih, length_cons, length_cons, length_cons, length_nil]
    omega

theorem getElem?_encode (i : Nat) : (encode units)[2 * i]? = (units[i]?).map narrow := by
  induction units generalizing i with
  | nil => rfl
  | cons unit units ih =>
    cases i with
    | zero => rfl
    | succ i => exact ih i

theorem narrow_pair (low high : UInt8) :
    narrow (low.toUInt16 ||| high.toUInt16 <<< 8) = low := by
  have none : (high.toUInt16 <<< 8).toUInt8 = 0 := by
    rw [← UInt8.toNat_inj, UInt16.toNat_toUInt8, UInt16.toNat_shiftLeft, UInt8.toNat_toUInt16]
    have eight : (8 : UInt16).toNat % 16 = 8 := rfl
    have zero : (0 : UInt8).toNat = 0 := rfl
    rw [eight, zero, Nat.shiftLeft_eq]
    omega
  rw [narrow, UInt16.toUInt8_or, UInt8.toUInt8_toUInt16, none, UInt8.or_zero]

theorem map_narrow_decode : ∀ octets : List UInt8,
    (decode octets).map narrow = (range (octets.length / 2)).map fun i => octets.getD (2 * i) 0
  | [] => rfl
  | [_] => by simp [decode]
  | low :: high :: rest => by
    have half : (low :: high :: rest).length / 2 = rest.length / 2 + 1 := by
      rw [length_cons, length_cons]
      omega
    rw [decode, map_cons, narrow_pair, map_narrow_decode rest, half, range_succ_eq_map, map_cons,
      map_map]
    rfl

theorem widen_narrow {unit : UInt16} : widen (narrow unit) = unit ↔ unit < 256 := by
  rw [← UInt16.toNat_inj, UInt16.lt_iff_toNat_lt, widen, narrow, UInt8.toNat_toUInt16,
    UInt16.toNat_toUInt8]
  have small : (256 : UInt16).toNat = 256 := rfl
  rw [small]
  omega

theorem widen_lt (octet : UInt8) : widen octet < 256 := by
  rw [UInt16.lt_iff_toNat_lt, widen, UInt8.toNat_toUInt16]
  exact octet.toNat_lt

theorem widen_injective : Function.Injective widen := by
  intro first second same
  rw [← UInt16.toNat_inj, widen, widen, UInt8.toNat_toUInt16, UInt8.toNat_toUInt16] at same
  exact UInt8.toNat_inj.1 same

theorem decode_wide (name rest : List UInt8) :
    decode (wide name ++ rest) = name.map widen ++ decode rest := by
  induction name with
  | nil => rfl
  | cons octet name ih =>
    have zero : octet.toUInt16 ||| (0 : UInt8).toUInt16 <<< 8 = widen octet := by
      rw [widen]
      simp
    rw [map_cons, cons_append, ← ih, ← zero]
    rfl

theorem map_widen_narrow : (units.map narrow).map widen = units ↔ ∀ unit ∈ units, unit < 256 := by
  rw [map_map]
  constructor
  · intro same unit member
    rw [← same] at member
    obtain ⟨other, _, rfl⟩ := mem_map.1 member
    exact widen_lt _
  · intro small
    conv_rhs => rw [← List.map_id units]
    exact map_congr_left fun unit member => widen_narrow.2 (small unit member)

def lastPart {α : Type} [BEq α] (separator : α) (path : List α) : List α :=
  (path.reverse.takeWhile (· != separator)).reverse

theorem takeWhile_append_stop {α : Type} {p : α → Bool} {stop : α} (fails : p stop = false)
    (before rest : List α) : (before ++ stop :: rest).takeWhile p = before.takeWhile p := by
  induction before with
  | nil => rw [nil_append, takeWhile_cons, fails, takeWhile_nil, if_neg (by decide)]
  | cons x before ih => rw [cons_append, takeWhile_cons, takeWhile_cons, ih]

section LastPart

variable {α : Type} [BEq α] [LawfulBEq α] {separator : α} {name : List α}

theorem lastPart_append (above name : List α) :
    lastPart separator (above ++ separator :: name) = lastPart separator name := by
  rw [lastPart, reverse_append, reverse_cons, append_assoc, singleton_append,
    takeWhile_append_stop (p := fun x => x != separator) (bne_self_eq_false separator), lastPart]

theorem lastPart_of_plain (plain : separator ∉ name) : lastPart separator name = name := by
  have kept : ∀ x ∈ name.reverse, (x != separator) = true := by
    intro x member
    rw [bne_iff_ne]
    rintro rfl
    exact plain (mem_reverse.1 member)
  have all : (name.reverse ++ []).takeWhile (· != separator) = name.reverse ++ [] :=
    takeWhile_append_of_pos kept
  rw [append_nil] at all
  rw [lastPart, all, reverse_reverse]

omit [LawfulBEq α] in
theorem lastPart_sublist (separator : α) (name : List α) :
    (lastPart separator name).Sublist name := by
  have found := takeWhile_sublist (· != separator) (l := name.reverse)
  have back := found.reverse
  rwa [reverse_reverse] at back

end LastPart

end Units
