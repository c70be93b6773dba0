import RdpServer.Lib.Bytes

/-!
# Parsers of byte strings

A parser takes octets from the front of a byte string and may fail. That a
parser decodes an encoding (`Decodes`) is a statement about every continuation:
the parser returns the value and leaves exactly what follows the encoding. The
rules below compose such statements along the parser.
-/

namespace Bytes

abbrev Parser (α : Type) := StateT Bytes Option α

namespace Parser

def octet : Parser UInt8 := fun input =>
  match input with
  | [] => none
  | first :: rest => some (first, rest)

/-- A block of `count` octets. -/
def block (count : Nat) : Parser Bytes := fun input =>
  if input.length < count then none else some (input.take count, input.drop count)

/-- A little endian number of `width` octets. -/
def le (width : Nat) : Parser Nat := leValue <$> block width

def require (condition : Bool) : Parser Unit := fun input =>
  if condition then some ((), input) else none

def whole {α : Type} (parser : Parser α) (input : Bytes) : Option α :=
  match parser input with
  | some (value, []) => some value
  | _ => none

end Parser

def Decodes {α : Type} (parser : Parser α) (encoding : Bytes) (value : α) : Prop :=
  ∀ rest, parser (encoding ++ rest) = some (value, rest)

namespace Decodes

variable {α β : Type} {encoding : Bytes} {value : α} {next : α → Parser β} {result : β}
  {first : Parser α}

theorem pure (value : α) : Decodes (Pure.pure value) [] value := fun _ => rfl

theorem bind {front back : Bytes} (reads : Decodes first front value)
    (continues : Decodes (next value) back result) :
    Decodes (first >>= next) (front ++ back) result := by
  intro rest
  change (first (front ++ back ++ rest)).bind _ = _
  rw [List.append_assoc, reads, Option.bind_some]
  exact continues rest

variable {parser : Parser α}

theorem map (f : α → β) (reads : Decodes parser encoding value) :
    Decodes (f <$> parser) encoding (f value) := by
  intro rest
  change (parser (encoding ++ rest)).bind _ = _
  rw [reads, Option.bind_some]
  rfl

theorem step (reads : Decodes first [] value) (continues : Decodes (next value) encoding result) :
    Decodes (first >>= next) encoding result :=
  bind reads continues

theorem finish (reads : Decodes first encoding value) (continues : Decodes (next value) [] result) :
    Decodes (first >>= next) encoding result := by
  have all := bind reads continues
  rwa [List.append_nil] at all

theorem octet (value : UInt8) : Decodes Parser.octet [value] value := fun _ => rfl

theorem cons {next : UInt8 → Parser β} {value : UInt8} {rest : Bytes}
    (continues : Decodes (next value) rest result) :
    Decodes (Parser.octet >>= next) (value :: rest) result :=
  bind (octet value) continues

theorem block (octets : Bytes) : Decodes (Parser.block octets.length) octets octets := by
  intro rest
  have long : ¬ (octets ++ rest).length < octets.length := by
    rw [List.length_append]
    omega
  rw [Parser.block, if_neg long, List.take_left, List.drop_left]

theorem le (width value : Nat) (fits : value < 256 ^ width) :
    Decodes (Parser.le width) (leBytes width value) value := by
  have taken := block (leBytes width value)
  rw [length_leBytes] at taken
  have mapped := taken.map leValue
  rwa [leValue_leBytes width value fits] at mapped

theorem require {condition : Bool} (holds : condition = true) :
    Decodes (Parser.require condition) [] () := by
  intro rest
  rw [Parser.require, if_pos holds]
  rfl

theorem unique {other : α} (reads : Decodes parser encoding value)
    (also : Decodes parser encoding other) : value = other :=
  (Prod.mk.inj (Option.some.inj ((reads []).symm.trans (also [])))).1

theorem whole (reads : Decodes parser encoding value) :
    parser.whole encoding = some value := by
  have all := reads []
  rw [List.append_nil] at all
  rw [Parser.whole, all]

end Decodes

end Bytes
