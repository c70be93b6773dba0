import RdpServer.Wire.BitmapRle.Decoder

/-!
# The grammar of interleaved RLE

What the decoder takes for an order, said without the decoder: its run length is spelled in the
low bits of the header octet or behind it (`Heading`), and its data follows (`Item`). A stream
is a sequence of orders (`Parses`).
-/

namespace RdpServer.BitmapRle

open Bytes Predict

inductive Code where
  | fill
  | mix
  | fom
  | color
  | copy
  | bicolor
  deriving DecidableEq

/-- How the run length of an order is spelled: by the low bits of `header`, fewer than `limit`
and counted in `unit`s, by an octet that counts from `base`, or behind `mega`. -/
structure Spelling where
  header : Nat
  limit : Nat
  unit : Nat
  base : Nat
  mega : Nat

def Code.spelling : Code → Spelling
  | .fill => ⟨0x00, 32, 1, 32, 0xf0⟩
  | .mix => ⟨0x20, 32, 1, 32, 0xf1⟩
  | .fom => ⟨0x40, 32, 8, 1, 0xf2⟩
  | .color => ⟨0x60, 32, 1, 32, 0xf3⟩
  | .copy => ⟨0x80, 32, 1, 32, 0xf4⟩
  | .bicolor => ⟨0xe0, 16, 1, 16, 0xf8⟩

/-- The octets that announce an order with run length `n`. -/
inductive Heading (code : Code) : (n : Nat) → Bytes → Prop
  | short (bits : Nat) (positive : 0 < bits) (below : bits < code.spelling.limit) :
      Heading code (bits * code.spelling.unit) [low (code.spelling.header + bits)]
  | extended (octet : UInt8) :
      Heading code (octet.toNat + code.spelling.base) [low code.spelling.header, octet]
  | mega (first second : UInt8) :
      Heading code (first.toNat + 256 * second.toNat) [low code.spelling.mega, first, second]

def Code.pixels (code : Code) (n : Nat) : Nat :=
  match code with
  | .bicolor => n * 2
  | _ => n

def Code.dataLength (code : Code) (n : Nat) : Nat :=
  match code with
  | .fill => 0
  | .mix => 0
  | .fom => (n + 7) / 8
  | .color => 3
  | .copy => 3 * n
  | .bicolor => 6

structure Item where
  code : Code
  n : Nat
  data : Bytes
  sized : data.length = code.dataLength n

/-- Pixel `k` of packed pixels. -/
def pixelAt (data : Bytes) (k : Nat) : Pixel :=
  ldPixel (data.getD (3 * k) 0) (data.getD (3 * k + 1) 0) (data.getD (3 * k + 2) 0)

/-- The pixel that an order appends at its step `k`. -/
def Code.pixel (code : Code) (data : Bytes) (width k : Nat) (pixels : List Pixel) : Pixel :=
  match code with
  | .fill => aboveOf width pixels
  | .mix => aboveOf width pixels ^^^ mixColor
  | .fom => if maskBit data k then aboveOf width pixels ^^^ mixColor else aboveOf width pixels
  | .color => pixelAt data 0
  | .copy => pixelAt data k
  | .bicolor => if k % 2 = 1 then pixelAt data 0 else pixelAt data 1

namespace Item

def count (item : Item) : Nat := item.code.pixels item.n

def expand (width : Nat) (item : Item) (pixels : List Pixel) : List Pixel :=
  grow (item.code.pixel item.data width) item.count 0 pixels

def Spells (item : Item) (octets : Bytes) : Prop :=
  ∃ heading, Heading item.code item.n heading ∧ octets = heading ++ item.data

def expandAll (width : Nat) (items : List Item) (pixels : List Pixel) : List Pixel :=
  items.foldl (fun pixels item => item.expand width pixels) pixels

def total (items : List Item) : Nat := (items.map count).sum

theorem length_expand (width : Nat) (item : Item) (pixels : List Pixel) :
    (item.expand width pixels).length = pixels.length + item.count :=
  length_grow _ _ _ _

theorem length_expandAll (width : Nat) (items : List Item) (pixels : List Pixel) :
    (expandAll width items pixels).length = pixels.length + total items := by
  induction items generalizing pixels with
  | nil => rfl
  | cons item items ih =>
    change (expandAll width items (item.expand width pixels)).length = _
    rw [ih, length_expand, Nat.add_assoc]
    rfl

end Item

inductive Parses : Bytes → List Item → Prop
  | nil : Parses [] []
  | cons {item : Item} {items : List Item} {octets rest : Bytes} (first : item.Spells octets)
      (others : Parses rest items) : Parses (octets ++ rest) (item :: items)

variable {code : Code}

theorem Heading.length_pos {n : Nat} {octets : Bytes} (heading : Heading code n octets) :
    0 < octets.length := by
  cases heading <;> exact Nat.succ_pos _

section Encoder

variable {n : Nat}

theorem toNat_wide (bound : n < 65536) : (low n).toNat + 256 * (low (n >>> 8)).toNat = n := by
  rw [toNat_low, toNat_low]
  omega

theorem heading_header (code : Code) (c : Nat)
    (spelling : code.spelling = ⟨32 * c, 32, 1, 32, 0xf0 + c⟩) (some : 0 < n)
    (bound : n < 65536) : Heading code n (Order.header c n) := by
  have shifted : c <<< 5 = 32 * c := by rw [Nat.shiftLeft_eq, Nat.mul_comm]
  rw [Order.header, shifted]
  split_ifs with short middle
  · have heading := @Heading.short code n some (by rw [spelling]; exact short)
    rw [spelling, Nat.mul_one] at heading
    rw [← shifted, ← Nat.shiftLeft_add_eq_or_of_lt short, shifted]
    exact heading
  · have heading := @Heading.extended code (low (n - 32))
    rw [spelling, toNat_low, Nat.mod_eq_of_lt (by omega), Nat.sub_add_cancel (by omega)] at heading
    exact heading
  · have heading := @Heading.mega code (low n) (low (n >>> 8))
    rw [spelling, toNat_wide bound] at heading
    exact heading

theorem heading_fomHeader (some : 0 < n) (bound : n < 65536) :
    Heading .fom n (Order.fomHeader n) := by
  rw [Order.fomHeader]
  split_ifs with short middle
  · have heading := @Heading.short .fom (n / 8) (by omega) (by change n / 8 < 32; omega)
    have header : 0x2 <<< 5 ||| n / 8 = 0x40 + n / 8 :=
      (Nat.shiftLeft_add_eq_or_of_lt (by omega : n / 8 < 2 ^ 5) 2).symm
    rw [show n / 8 * Code.fom.spelling.unit = n by change n / 8 * 8 = n; omega] at heading
    rw [header]
    exact heading
  · have heading := @Heading.extended .fom (low (n - 1))
    rw [toNat_low, Nat.mod_eq_of_lt (by omega)] at heading
    rw [show n - 1 + Code.fom.spelling.base = n by change n - 1 + 1 = n; omega] at heading
    exact heading
  · have heading := @Heading.mega .fom (low n) (low (n >>> 8))
    rw [toNat_wide bound] at heading
    exact heading

end Encoder

/-- The code and the run length of an order behind a header octet, as the decoder reads
them. -/
def decLength (src : Bytes) (hdr : Nat) (d : Dec) : Checked (Code × Nat × Dec) :=
  let short := fun (code : Code) (bits base : Nat) => do
    let (n, d) ← runLength src bits base d
    return (code, n, d)
  let wide := fun (code : Code) => do
    let (n, d) ← ir16 src d
    return (code, n, d)
  match hdr >>> 5 with
  | 0 => short .fill (hdr &&& 0x1f) 32
  | 1 => short .mix (hdr &&& 0x1f) 32
  | 2 => if hdr &&& 0x1f = 0 then short .fom 0 1 else return (.fom, (hdr &&& 0x1f) * 8, d)
  | 3 => short .color (hdr &&& 0x1f) 32
  | 4 => short .copy (hdr &&& 0x1f) 32
  | 7 =>
    if hdr < 0xf0 then short .bicolor (hdr &&& 0x0f) 16
    else
      match hdr with
      | 0xf0 => wide .fill
      | 0xf1 => wide .mix
      | 0xf2 => wide .fom
      | 0xf3 => wide .color
      | 0xf4 => wide .copy
      | 0xf8 => wide .bicolor
      | _ => .error .reject
  | _ => .error .reject

def decHead (src : Bytes) (d : Dec) : Checked (Code × Nat × Dec) := do
  let (hdr, d) ← ir8 src d
  decLength src hdr.toNat d

def decBody (src : Bytes) (width total : Nat) (code : Code) (n : Nat) (d : Dec) :
    Checked Dec :=
  match code with
  | .fill => putLoop width total (fillPixel width) n 0 d
  | .mix => putLoop width total (mixPixel width) n 0 d
  | .fom => fomRun src width total n d
  | .color => do
    let (col, d) ← irPixel src d
    putLoop width total (colorPixel col) n 0 d
  | .copy => putLoop width total (copyPixel src) n 0 d
  | .bicolor => do
    let (c1, d) ← irPixel src d
    let (c2, d) ← irPixel src d
    putLoop width total (bicolorPixel c1 c2) (n * 2) 0 d

theorem decOrder_eq (src : Bytes) (width total : Nat) (d : Dec) :
    decOrder src width total d =
      decHead src d >>= fun head => decBody src width total head.1 head.2.1 head.2.2 := by
  unfold decOrder decHead decLength
  rw [bind_assoc]
  refine congrArg _ (funext fun read => ?_)
  obtain ⟨hdr, d⟩ := read
  dsimp only
  generalize hdr.toNat = hdr
  generalize hdr >>> 5 = code
  rcases code with _ | _ | _ | _ | _ | _ | _ | _ | code
  case succ.succ.zero =>
    by_cases extended : hdr &&& 0x1f = 0
    · simp only [extended, runLength, ↓reduceIte, bind_assoc, pure_bind, decBody]
    · simp [extended, decBody]
  case succ.succ.succ.succ.succ.succ.succ.zero =>
    by_cases lite : hdr < 0xf0
    · simp only [lite, ↓reduceIte, bind_assoc, pure_bind, decBody]
    · simp only [lite, ↓reduceIte]
      split <;> simp only [bind_assoc, pure_bind, decBody]
      rfl
  all_goals first | rfl | simp only [bind_assoc, pure_bind, decBody]

section Headers

variable {src rest : Bytes} {d : Dec}

theorem ir16_end (short : (src.drop d.pos).length < 2) : ir16 src d = .error .reject := by
  have second : src[d.pos + 1]? = none := by
    rw [List.length_drop] at short
    exact List.getElem?_eq_none (by omega)
  simp only [ir16, ir8_eq, bind, Except.bind]
  cases src[d.pos]? with
  | none => rfl
  | some first => simp only [Option.elim_some, second, Option.elim_none]

theorem ir16_octets {first second : UInt8} (ahead : src.drop d.pos = first :: second :: rest) :
    ir16 src d = .ok (first.toNat + 256 * second.toNat, { d with pos := d.pos + 2 }) := by
  have next := getElem?_of_drop ahead 1
  have value : first.toNat ||| (second.toNat <<< 8) = first.toNat + 256 * second.toNat := by
    rw [Nat.or_comm, ← Nat.shiftLeft_add_eq_or_of_lt first.toNat_lt]
    omega
  simp [ir16, ir8_ok ahead, bind, Except.bind, ir8_eq, next, pure, Except.pure, value]

theorem decLength_short {bits : Nat} (below : bits < code.spelling.limit) :
    decLength src (code.spelling.header + bits) d = if bits = 0 then ir8 src d >>= fun read =>
        pure (code, read.1.toNat + code.spelling.base, read.2)
      else .ok (code, bits * code.spelling.unit, d) := by
  have quotient : (code.spelling.header + bits) >>> 5 = code.spelling.header / 32 := by
    cases code <;> simp only [Code.spelling] at below ⊢ <;> omega
  have remainder : code ≠ .bicolor → (code.spelling.header + bits) &&& 0x1f = bits := by
    rw [and_low_five]
    cases code <;> simp only [Code.spelling] at below ⊢ <;> first | exact absurd rfl regular | omega
  by_cases zero : bits = 0
  · subst zero
    cases code <;>
      simp only [Code.spelling, decLength, runLength, Nat.reduceAdd, Nat.reduceShiftRight,
        Nat.reduceAnd, Nat.reduceLT, ↓reduceIte, bind_assoc, pure_bind]
  · cases code with
    | bicolor =>
      simp only [Code.spelling] at quotient below ⊢
      have lite : 224 + bits < 0xf0 := by omega
      have remainder : (224 + bits) &&& 0x0f = bits := by
        rw [Nat.and_two_pow_sub_one_eq_mod _ 4]
        omega
      simp only [decLength, runLength, quotient, lite, remainder, zero, Nat.mul_one]
      rfl
    | _ =>
      have remainder := remainder nofun
      simp only [Code.spelling] at quotient remainder ⊢
      simp only [decLength, runLength, quotient, remainder, zero, Nat.mul_one]
      rfl

theorem decLength_mega (code : Code) :
    decLength src code.spelling.mega d =
      ir16 src d >>= fun read => pure (code, read.1, read.2) := by
  cases code <;> rfl

theorem decLength_unknown {hdr : Nat} (octet : hdr < 256)
    (notShort : ∀ (code : Code) bits, bits < code.spelling.limit →
      hdr ≠ code.spelling.header + bits)
    (notMega : ∀ code : Code, hdr ≠ code.spelling.mega) :
    decLength src hdr d = .error .reject := by
  have apart : ∀ code : Code,
      ¬ (code.spelling.header ≤ hdr ∧ hdr < code.spelling.header + code.spelling.limit) :=
    fun code inside => notShort code (hdr - code.spelling.header) (by omega) (by omega)
  have fill := apart .fill
  have mix := apart .mix
  have fom := apart .fom
  have color := apart .color
  have copy := apart .copy
  have bicolor := apart .bicolor
  simp only [Code.spelling] at fill mix fom color copy bicolor
  by_cases mega : 0xf0 ≤ hdr
  · have quotient : hdr >>> 5 = 7 := by rw [shiftRight_five]; omega
    simp only [decLength, quotient, Nat.not_lt.2 mega, ↓reduceIte]
    split
    · exact absurd rfl (notMega .fill)
    · exact absurd rfl (notMega .mix)
    · exact absurd rfl (notMega .fom)
    · exact absurd rfl (notMega .color)
    · exact absurd rfl (notMega .copy)
    · exact absurd rfl (notMega .bicolor)
    · rfl
  · have quotient : hdr >>> 5 = 5 ∨ hdr >>> 5 = 6 := by rw [shiftRight_five]; omega
    rcases quotient with quotient | quotient
    · simp only [decLength, quotient]
    · simp only [decLength, quotient]

/-- **The decoder reads every heading.** -/
theorem decHead_of_heading {n : Nat} {octets : Bytes} (heading : Heading code n octets)
    (ahead : src.drop d.pos = octets ++ rest) :
    decHead src d = .ok (code, n, { d with pos := d.pos + octets.length }) := by
  have small : code.spelling.header + code.spelling.limit ≤ 256 ∧ code.spelling.mega < 256 ∧
      0 < code.spelling.limit := by
    cases code <;> decide
  cases heading with
  | short bits positive below =>
    have value : (low (code.spelling.header + bits)).toNat = code.spelling.header + bits := by
      rw [toNat_low, Nat.mod_eq_of_lt (by omega)]
    rw [decHead, ir8_ok ahead]
    change decLength src (low (code.spelling.header + bits)).toNat _ = _
    rw [value, decLength_short below, if_neg (ne_of_gt positive)]
    rfl
  | extended octet =>
    have value : (low code.spelling.header).toNat = code.spelling.header + 0 := by
      rw [toNat_low, Nat.mod_eq_of_lt (by omega), Nat.add_zero]
    rw [decHead, ir8_ok ahead]
    change decLength src (low code.spelling.header).toNat _ = _
    rw [value, decLength_short (by omega), ir8_ok (drop_pos_succ ahead)]
    rfl
  | mega first second =>
    have value : (low code.spelling.mega).toNat = code.spelling.mega := by
      rw [toNat_low, Nat.mod_eq_of_lt small.2.1]
    rw [decHead, ir8_ok ahead]
    change decLength src (low code.spelling.mega).toNat _ = _
    rw [value, decLength_mega, ir16_octets (drop_pos_succ ahead)]
    rfl

def Headed (src : Bytes) (d : Dec) (outcome : Checked (Code × Nat × Dec)) : Prop :=
  (∃ code n octets rest, Heading code n octets ∧ src.drop d.pos = octets ++ rest ∧
    outcome = .ok (code, n, { d with pos := d.pos + octets.length })) ∨
  outcome = .error .reject

theorem headed_short {bits : Nat} {hdr : UInt8} (below : bits < code.spelling.limit)
    (value : hdr.toNat = code.spelling.header + bits) (ahead : src.drop d.pos = hdr :: rest) :
    Headed src d (decLength src hdr.toNat { d with pos := d.pos + 1 }) := by
  have same : hdr = low (code.spelling.header + bits) := by rw [← value, low_toNat]
  rw [value, decLength_short below]
  by_cases zero : bits = 0
  · subst zero
    cases rest with
    | nil =>
      right
      rw [ir8_end (drop_pos_succ ahead)]
      rfl
    | cons octet rest =>
      left
      rw [ir8_ok (drop_pos_succ ahead)]
      exact ⟨code, _, _, rest, .extended octet, by rw [ahead, same]; rfl, rfl⟩
  · left
    have heading := @Heading.short code bits (Nat.pos_of_ne_zero zero) below
    rw [if_neg zero]
    exact ⟨code, _, _, rest, heading, by rw [ahead, same]; rfl, rfl⟩

theorem headed_mega {hdr : UInt8} (value : hdr.toNat = code.spelling.mega)
    (ahead : src.drop d.pos = hdr :: rest) :
    Headed src d (decLength src hdr.toNat { d with pos := d.pos + 1 }) := by
  have same : hdr = low code.spelling.mega := by rw [← value, low_toNat]
  have behind := drop_pos_succ ahead
  rw [value, decLength_mega]
  match rest with
  | [] =>
    right
    rw [ir16_end (by rw [behind]; exact Nat.succ_pos 1)]
    rfl
  | [_] =>
    right
    rw [ir16_end (by rw [behind]; exact Nat.lt_succ_self 1)]
    rfl
  | first :: second :: rest =>
    left
    rw [ir16_octets behind]
    exact ⟨code, _, _, rest, .mega first second, by rw [ahead, same]; rfl, rfl⟩

/-- **The decoder reads headings only.** -/
theorem decHead_cases (src : Bytes) (d : Dec) : Headed src d (decHead src d) := by
  cases ahead : src.drop d.pos with
  | nil =>
    right
    rw [decHead, ir8_end ahead]
    rfl
  | cons hdr rest =>
    have head : decHead src d = decLength src hdr.toNat { d with pos := d.pos + 1 } := by
      rw [decHead, ir8_ok ahead]
      rfl
    rw [head]
    by_cases isShort : ∃ (code : Code) (bits : Nat), bits < code.spelling.limit ∧
        hdr.toNat = code.spelling.header + bits
    · obtain ⟨code, bits, below, value⟩ := isShort
      exact headed_short below value ahead
    · by_cases isMega : ∃ code : Code, hdr.toNat = code.spelling.mega
      · obtain ⟨code, value⟩ := isMega
        exact headed_mega value ahead
      · right
        exact decLength_unknown hdr.toNat_lt
          (fun code bits below value => isShort ⟨code, bits, below, value⟩)
          (fun code value => isMega ⟨code, value⟩)

end Headers

end RdpServer.BitmapRle
