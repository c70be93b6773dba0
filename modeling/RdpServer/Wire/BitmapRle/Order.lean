import RdpServer.Lib.Predict
import RdpServer.Wire.BitmapRle.Encoder

/-!
# Interleaved RLE orders

An order appends a number of pixels to the pixels decoded so far, each from the pixel one row
above, a colour or a literal (`Order.expand`), and `Order.wire` is its encoding. The emitters of
the encoder write exactly the encodings (`outFillCount_of` and the lemmas after it). The mask of
a fill-or-mix order grows by one bit per pixel (`pushMask_spec`).
-/

namespace RdpServer.BitmapRle

open Bytes Predict List

def aboveOf (width : Nat) (pixels : List Pixel) : Pixel :=
  if pixels.length < width then 0 else pixels.getD (pixels.length - width) 0

/-- Bit `k` of a fill-or-mix mask. -/
def maskBit (mask : Bytes) (k : Nat) : Bool :=
  (mask.getD (k / 8) 0).toNat &&& (1 <<< (k % 8)) ≠ 0

inductive Order where
  | fill (n : Nat)
  | mix (n : Nat)
  | fom (n : Nat) (mask : Bytes)
  | color (n : Nat) (pixel : Pixel)
  | copy (pixels : List Pixel)

/-- The runs, which the encoder counts. -/
inductive Kind where
  | fill
  | mix
  | color
  | fom
  deriving DecidableEq

variable {n : Nat} (code : Nat)

namespace Order

def kind : Order → Option Kind
  | .fill _ => some .fill
  | .mix _ => some .mix
  | .fom _ _ => some .fom
  | .color _ _ => some .color
  | .copy _ => none

def count : Order → Nat
  | .fill n => n
  | .mix n => n
  | .fom n _ => n
  | .color n _ => n
  | .copy pixels => pixels.length

/-- The pixel an order appends at its step `k`, after the pixels so far. -/
def pixel (width : Nat) : Order → Nat → List Pixel → Pixel
  | .fill _, _, pixels => aboveOf width pixels
  | .mix _, _, pixels => aboveOf width pixels ^^^ mixColor
  | .fom _ mask, k, pixels =>
    if maskBit mask k then aboveOf width pixels ^^^ mixColor else aboveOf width pixels
  | .color _ hue, _, _ => hue
  | .copy literal, k, _ => literal.getD k 0

def expand (width : Nat) (order : Order) (pixels : List Pixel) : List Pixel :=
  grow (order.pixel width) order.count 0 pixels

def header (code n : Nat) : Bytes :=
  if n < 32 then [low ((code <<< 5) ||| n)]
  else if n < 256 + 32 then [low (code <<< 5), low (n - 32)]
  else [low (0xf0 + code), low n, low (n >>> 8)]

def fomHeader (n : Nat) : Bytes :=
  if n % 8 = 0 ∧ n < 249 then [low ((0x2 <<< 5) ||| (n / 8))]
  else if n < 256 then [0x40, low (n - 1)]
  else [0xf2, low n, low (n >>> 8)]

def wire : Order → Bytes
  | .fill n => header 0 n
  | .mix n => header 1 n
  | .fom n mask => fomHeader n ++ mask
  | .color n hue => header 3 n ++ pixelBytes hue
  | .copy literal => header 4 literal.length ++ literal.flatMap pixelBytes

def WF (order : Order) : Prop :=
  0 < order.count ∧ order.count < 65536 ∧
    match order with
    | .fom n mask => mask.length = (n + 7) / 8
    | .color _ hue => Is24 hue
    | .copy literal => ∀ pixel ∈ literal, Is24 pixel
    | _ => True

theorem length_header (n : Nat) : 0 < (header code n).length ∧ (header code n).length ≤ 3 := by
  unfold header
  split_ifs <;> simp

theorem length_fomHeader (n : Nat) : 0 < (fomHeader n).length ∧ (fomHeader n).length ≤ 3 := by
  unfold fomHeader
  split_ifs <;> simp

theorem length_wire_pos (order : Order) : 0 < order.wire.length := by
  cases order with
  | fill n => exact (length_header 0 n).1
  | mix n => exact (length_header 1 n).1
  | fom n mask =>
    rw [wire, length_append]
    exact Nat.add_pos_left (length_fomHeader n).1 _
  | color n hue =>
    rw [wire, length_append]
    exact Nat.add_pos_left (length_header 3 n).1 _
  | copy literal =>
    rw [wire, length_append]
    exact Nat.add_pos_left (length_header 4 _).1 _

theorem length_header_short (short : n < 32) : (header code n).length = 1 := by
  simp [header, short]

theorem length_wire_run {order : Order} (wf : order.WF) (long : 3 < order.count)
    {kind : Kind} (isKind : order.kind = some kind) : order.wire.length + 3 ≤ 3 * order.count := by
  cases order with
  | fill n =>
    have := (length_header 0 n).2
    simp only [wire] at *
    omega
  | mix n =>
    have := (length_header 1 n).2
    simp only [wire] at *
    omega
  | fom n mask =>
    have := (length_fomHeader n).2
    obtain ⟨_, _, length⟩ := wf
    simp only [wire, count, length_append] at *
    omega
  | color n pixel =>
    have := (length_header 3 n).2
    simp only [wire, length_append, length_pixelBytes] at *
    by_cases short : n < 32
    · omega
    · omega
  | copy literal => cases isKind

theorem length_flatMap_pixelBytes (pixels : List Pixel) :
    (pixels.flatMap pixelBytes).length = 3 * pixels.length := by
  simp [Nat.mul_comm]

theorem length_wire_copy (literal : List Pixel) :
    (Order.copy literal).wire.length ≤ 3 * literal.length + 3 := by
  have := (length_header 4 literal.length).2
  simp only [wire, length_append, length_flatMap_pixelBytes]
  omega

def expandAll (width : Nat) (orders : List Order) (pixels : List Pixel) : List Pixel :=
  orders.foldl (fun pixels order => order.expand width pixels) pixels

def wireAll (orders : List Order) : Bytes :=
  orders.flatMap wire

theorem length_expand (width : Nat) (order : Order) (pixels : List Pixel) :
    (order.expand width pixels).length = pixels.length + order.count :=
  length_grow _ _ _ _

@[simp] theorem wireAll_singleton (order : Order) : wireAll [order] = order.wire := append_nil _

theorem wireAll_append (first second : List Order) :
    wireAll (first ++ second) = wireAll first ++ wireAll second :=
  flatMap_append

end Order

namespace Ostrm

/-- The stream of capacity `cap` that was given `octets`. -/
def of (cap : Nat) (octets : Bytes) : Ostrm where
  buf := octets.take cap
  pos := octets.length
  cap := cap
  ovf := decide (cap < octets.length)

variable (cap : Nat) (octets : Bytes)

theorem ow8_of (v : UInt8) : ow8 (of cap octets) v = of cap (octets ++ [v]) := by
  by_cases room : octets.length < cap
  · have kept : octets.take cap = octets := take_of_length_le (le_of_lt room)
    have keptNext : (octets ++ [v]).take cap = octets ++ [v] := by
      apply take_of_length_le
      simp only [length_append, length_cons, length_nil]
      omega
    have fits : ¬ cap < octets.length + 1 := by omega
    have fitsNow : ¬ cap < octets.length := by omega
    simp only [ow8, of, room, ↓reduceIte, kept, keptNext, length_append, length_cons,
      length_nil, fits, fitsNow]
  · have cut : (octets ++ [v]).take cap = octets.take cap :=
      take_append_of_le_length (by omega)
    have excess : cap < octets.length + 1 := by omega
    simp only [ow8, of, room, ↓reduceIte, cut, length_append, length_cons,
      length_nil, excess, decide_true]

theorem owrite_of (block : Bytes) :
    owrite (of cap octets) block = of cap (octets ++ block) := by
  induction block generalizing octets with
  | nil => rw [append_nil]; rfl
  | cons v rest ih =>
    have step : owrite (of cap octets) (v :: rest) = owrite (ow8 (of cap octets) v) rest := rfl
    rw [step, ow8_of, ih, append_assoc, singleton_append]

theorem ow16_of (v : Nat) : ow16 (of cap octets) v = of cap (octets ++ [low v, low (v >>> 8)]) := by
  rw [ow16, ow8_of, ow8_of, append_assoc]
  rfl

theorem outHeader_of (n : Nat) :
    outHeader code n (of cap octets) = of cap (octets ++ Order.header code n) := by
  unfold outHeader Order.header
  split
  · exact ow8_of ..
  · split
    · rw [ow8_of, ow8_of, append_assoc]
      rfl
    · rw [ow8_of, ow16_of, append_assoc]
      rfl

theorem outFillCount_of (some : 0 < n) :
    outFillCount n (of cap octets) = of cap (octets ++ (Order.fill n).wire) := by
  simp [outFillCount, some, outHeader_of, Order.wire]

theorem outMixCount_of (some : 0 < n) :
    outMixCount n (of cap octets) = of cap (octets ++ (Order.mix n).wire) := by
  simp [outMixCount, some, outHeader_of, Order.wire]

theorem outFomCount_of (mask : Bytes) (some : 0 < n) :
    outFomCount n (of cap octets) mask = of cap (octets ++ (Order.fom n mask).wire) := by
  have headed : (if n % 8 = 0 ∧ n < 249 then ow8 (of cap octets) (low ((0x2 <<< 5) ||| (n / 8)))
      else if n < 256 then ow8 (ow8 (of cap octets) 0x40) (low (n - 1))
      else ow16 (ow8 (of cap octets) 0xf2) n) = of cap (octets ++ Order.fomHeader n) := by
    unfold Order.fomHeader
    split
    · exact ow8_of ..
    · split
      · rw [ow8_of, ow8_of, append_assoc]
        rfl
      · rw [ow8_of, ow16_of, append_assoc]
        rfl
  simp only [outFomCount, some, ↓reduceIte, headed, owrite_of, Order.wire, append_assoc]

theorem outColorCount_of (color : Pixel) (some : 0 < n) :
    outColorCount n (of cap octets) color = of cap (octets ++ (Order.color n color).wire) := by
  simp [outColorCount, some, outHeader_of, owrite_of, Order.wire]

theorem outCopyCount_of (temp : Bytes) {literal : List Pixel} (some : literal ≠ [])
    (held : temp.take (3 * literal.length) = literal.flatMap pixelBytes) :
    outCopyCount literal.length (of cap octets) temp =
      of cap (octets ++ (Order.copy literal).wire) := by
  have positive : literal.length > 0 := length_pos_of_ne_nil some
  simp [outCopyCount, positive, outHeader_of, owrite_of, held, Order.wire]

end Ostrm

end RdpServer.BitmapRle

namespace RdpServer.BitmapRle

open Bytes List

theorem maskBit_eq_testBit (mask : Bytes) (k : Nat) :
    maskBit mask k = (mask.getD (k / 8) 0).toNat.testBit (k % 8) := by
  unfold maskBit
  rw [Nat.one_shiftLeft]
  cases bit : (mask.getD (k / 8) 0).toNat.testBit (k % 8) with
  | true =>
    refine decide_eq_true fun zero => ?_
    have same := congrArg (Nat.testBit · (k % 8)) zero
    simp only [Nat.testBit_and, bit, Nat.testBit_two_pow_self, Nat.zero_testBit,
      Bool.and_self, Bool.true_eq_false] at same
  | false =>
    refine decide_eq_false fun nonzero => nonzero (Nat.eq_of_testBit_eq fun i => ?_)
    rw [Nat.testBit_and, Nat.zero_testBit]
    by_cases same : k % 8 = i
    · rw [← same, bit, Bool.false_and]
    · rw [Nat.testBit_two_pow_of_ne same, Bool.and_false]

theorem maskBit_congr {first second : Bytes} {k : Nat}
    (same : first[k / 8]? = second[k / 8]?) : maskBit first k = maskBit second k := by
  unfold maskBit
  rw [getD_eq_getElem?_getD, getD_eq_getElem?_getD, same]

variable {mask : Bytes}

theorem maskBit_take {len k : Nat} (inside : k / 8 < len) :
    maskBit (mask.take len) k = maskBit mask k :=
  maskBit_congr (getElem?_take_of_lt inside)

/-- The mask of a run of `n` pixels takes `len` octets of the buffer. -/
structure MaskInv (mask : Bytes) (n len : Nat) : Prop where
  len_eq : len = (n + 7) / 8
  room : len ≤ mask.length
  clean : n % 8 ≠ 0 → (mask.getD (n / 8) 0).toNat < 2 ^ (n % 8)

theorem MaskInv.empty (mask : Bytes) : MaskInv mask 0 0 :=
  ⟨rfl, Nat.zero_le _, fun odd => absurd rfl odd⟩

/-- A mask whose last octet has a free bit, which is zero like those above it. -/
structure OpenMask (mask : Bytes) (n : Nat) : Prop where
  room : n / 8 < mask.length
  clean : (mask.getD (n / 8) 0).toNat < 2 ^ (n % 8)

def openMask (mask : Bytes) (c : Count) : Bytes × Nat :=
  if c.fomCount % 8 = 0 then (writeAt mask c.fomMaskLen [0], c.fomMaskLen + 1)
  else (mask, c.fomMaskLen)

theorem openMask_spec {c : Count} (inv : MaskInv mask c.fomCount c.fomMaskLen) :
    OpenMask (openMask mask c).1 c.fomCount ∧ (openMask mask c).2 = c.fomCount / 8 + 1 ∧
      ∀ k, k < c.fomCount → maskBit (openMask mask c).1 k = maskBit mask k := by
  have lenEq := inv.len_eq
  have room := inv.room
  unfold openMask
  by_cases whole : c.fomCount % 8 = 0
  · simp only [whole, ↓reduceIte]
    have lenIs : c.fomMaskLen = c.fomCount / 8 := by omega
    have head := getElem?_writeAt_block mask [(0 : UInt8)] room Nat.zero_lt_one
    rw [Nat.add_zero, lenIs] at head
    have grown := le_length_writeAt mask [(0 : UInt8)] room
    rw [lenIs] at grown ⊢
    rw [lenIs] at room
    refine ⟨⟨?_, ?_⟩, rfl, ?_⟩
    · exact grown
    · rw [getD_eq_getElem?_getD, head]
      exact Nat.two_pow_pos _
    · intro k below
      exact maskBit_congr (getElem?_writeAt_before room (by omega))
  · simp only [whole, ↓reduceIte]
    exact ⟨⟨by omega, inv.clean whole⟩, by omega, fun _ _ => trivial⟩

theorem setBit_spec {n : Nat} (inv : OpenMask mask n) :
    let octet := mask.getD (n / 8) 0 ||| low (1 <<< (n % 8))
    let next := writeAt mask (n / 8) [octet]
    (next.getD (n / 8) 0).toNat < 2 ^ (n % 8 + 1) ∧ n / 8 < next.length ∧
      maskBit next n = true ∧ ∀ k, k < n → maskBit next k = maskBit mask k := by
  intro octet next
  have room : n / 8 ≤ mask.length := le_of_lt inv.room
  have held : next[n / 8]? = some octet := by
    have block := getElem?_writeAt_block mask [octet] room Nat.zero_lt_one
    rwa [Nat.add_zero] at block
  have value : octet.toNat = (mask.getD (n / 8) 0).toNat ||| 2 ^ (n % 8) := by
    have small : 2 ^ (n % 8) < 256 := by
      have : n % 8 < 8 := Nat.mod_lt _ (by decide)
      calc 2 ^ (n % 8) < 2 ^ 8 := Nat.pow_lt_pow_right (by decide) this
        _ = 256 := rfl
    simp [octet, Nat.one_shiftLeft, Nat.mod_eq_of_lt small]
  have getD : next.getD (n / 8) 0 = octet := by
    rw [getD_eq_getElem?_getD, held, Option.getD_some]
  refine ⟨?_, ?_, ?_, ?_⟩
  · rw [getD, value]
    apply Nat.or_lt_two_pow
    · exact lt_of_lt_of_le inv.clean (Nat.pow_le_pow_right (by decide) (Nat.le_succ _))
    · exact Nat.pow_lt_pow_right (by decide) (Nat.lt_succ_self _)
  · have grown := le_length_writeAt mask [octet] room
    exact grown
  · rw [maskBit_eq_testBit, getD, value, Nat.testBit_or, Nat.testBit_two_pow_self, Bool.or_true]
  · intro k below
    by_cases early : k / 8 < n / 8
    · exact maskBit_congr (getElem?_writeAt_before room early)
    · -- the same octet: only the new bit differs
      have sameOctet : k / 8 = n / 8 := by omega
      have differs : n % 8 ≠ k % 8 := by omega
      rw [maskBit_eq_testBit, maskBit_eq_testBit, sameOctet, getD, value, Nat.testBit_or,
        Nat.testBit_two_pow_of_ne differs, Bool.or_false]

/-- **Extending the mask.** The bits already there stay and the new one is the
one asked for. -/
theorem pushMask_spec {c : Count} (mixed : Bool) (inv : MaskInv mask c.fomCount c.fomMaskLen) :
    MaskInv (pushMask mask c mixed).1 (c.fomCount + 1) (pushMask mask c mixed).2 ∧
      maskBit (pushMask mask c mixed).1 c.fomCount = mixed ∧
      ∀ k, k < c.fomCount → maskBit (pushMask mask c mixed).1 k = maskBit mask k := by
  obtain ⟨opened, len, kept⟩ := openMask_spec inv
  have unfolded : pushMask mask c mixed =
      if mixed then
        (writeAt (openMask mask c).1 (c.fomCount / 8)
          [(openMask mask c).1.getD (c.fomCount / 8) 0 ||| low (1 <<< (c.fomCount % 8))],
          (openMask mask c).2)
      else openMask mask c := by
    rw [show c.fomCount / 8 = (openMask mask c).2 - 1 by omega]
    rfl
  have inOctet (odd : (c.fomCount + 1) % 8 ≠ 0) : (c.fomCount + 1) / 8 = c.fomCount / 8 ∧
      (c.fomCount + 1) % 8 = c.fomCount % 8 + 1 := by omega
  rw [unfolded]
  cases mixed with
  | true =>
    obtain ⟨clean, room, bit, before⟩ := setBit_spec opened
    refine ⟨⟨?_, ?_, ?_⟩, bit, fun k below => (before k below).trans (kept k below)⟩
    · simp only [↓reduceIte, len]
      omega
    · simp only [len]
      exact room
    · intro odd
      rw [(inOctet odd).1, (inOctet odd).2]
      exact clean
  | false =>
    refine ⟨⟨?_, ?_, ?_⟩, ?_, kept⟩
    · simp only [Bool.false_eq_true, ↓reduceIte]
      omega
    · simp only [Bool.false_eq_true, ↓reduceIte, len]
      exact opened.room
    · intro odd
      rw [(inOctet odd).1, (inOctet odd).2]
      exact lt_of_lt_of_le opened.clean (Nat.pow_le_pow_right (by decide) (Nat.le_succ _))
    · rw [maskBit_eq_testBit]
      exact Nat.testBit_lt_two_pow opened.clean

end RdpServer.BitmapRle
