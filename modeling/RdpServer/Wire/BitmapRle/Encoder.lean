import RdpServer.Lib.Bytes

/-!
# The interleaved RLE encoder

Encoder and decoder hold a pixel in a `uint32_t` whose top octet is zero.
`rdp_bitmap_rle_compress_24` walks the rows of a top-down image from the last
to the first and keeps, over the pixels not yet written, four run counters, the
literal pixels and the mask of the fill-or-mix run. The `uint16_t` counters are natural
numbers: each is bounded by the number of pending pixels, so by `RLE_MAX_PIX` (`EncInv`).
-/

namespace RdpServer.BitmapRle

abbrev Pixel := UInt32

def ldPixel (a b c : UInt8) : Pixel :=
  a.toUInt32 ||| (b.toUInt32 <<< 8) ||| (c.toUInt32 <<< 16)

def pixelBytes (pixel : Pixel) : Bytes :=
  [(pixel &&& 0xff).toUInt8, ((pixel >>> 8) &&& 0xff).toUInt8, ((pixel >>> 16) &&& 0xff).toUInt8]

/-- The exclusive-or mask of the encoder and the foreground of the decoder. -/
def mixColor : Pixel := 0xFFFFFF

def Is24 (pixel : Pixel) : Prop := pixel.toNat < 2 ^ 24

@[simp] theorem length_pixelBytes (pixel : Pixel) : (pixelBytes pixel).length = 3 := rfl

variable (a b c : UInt8)

theorem toNat_ldPixel :
    (ldPixel a b c).toNat = a.toNat + 256 * b.toNat + 65536 * c.toNat := by
  have la := a.toNat_lt
  have lb := b.toNat_lt
  have lc := c.toNat_lt
  have first : a.toNat ||| (b.toNat <<< 8) = b.toNat <<< 8 + a.toNat := by
    rw [Nat.or_comm]
    exact (Nat.shiftLeft_add_eq_or_of_lt la b.toNat).symm
  have second : (b.toNat <<< 8 + a.toNat) ||| (c.toNat <<< 16) =
      c.toNat <<< 16 + (b.toNat <<< 8 + a.toNat) := by
    rw [Nat.or_comm]
    refine (Nat.shiftLeft_add_eq_or_of_lt ?_ c.toNat).symm
    omega
  have shifted : (b.toUInt32 <<< 8).toNat = b.toNat <<< 8 ∧
      (c.toUInt32 <<< 16).toNat = c.toNat <<< 16 := by
    rw [UInt32.toNat_shiftLeft, UInt32.toNat_shiftLeft]
    simp only [UInt8.toNat_toUInt32, UInt32.reduceToNat, Nat.reduceMod, Nat.reducePow,
      Nat.shiftLeft_eq]
    omega
  rw [ldPixel, UInt32.toNat_or, UInt32.toNat_or, shifted.1, shifted.2, UInt8.toNat_toUInt32,
    first]
  omega

theorem is24_ldPixel : Is24 (ldPixel a b c) := by
  have la := a.toNat_lt
  have lb := b.toNat_lt
  have lc := c.toNat_lt
  rw [Is24, toNat_ldPixel]
  omega

theorem is24_mix {pixel : Pixel} (narrow : Is24 pixel) : Is24 (pixel ^^^ mixColor) := by
  exact Nat.xor_lt_two_pow narrow (by decide)

private theorem toNat_octet (pixel shift : Pixel) :
    ((pixel >>> shift) &&& 0xff).toUInt8.toNat = pixel.toNat / 2 ^ (shift.toNat % 32) % 256 := by
  rw [UInt32.toNat_toUInt8, UInt32.toNat_and, UInt32.toNat_shiftRight, Nat.shiftRight_eq_div_pow]
  have mask : (255 : UInt32).toNat = 2 ^ 8 - 1 := rfl
  rw [mask, Nat.and_two_pow_sub_one_eq_mod]
  exact Nat.mod_mod _ _

private theorem toNat_lowOctet (pixel : Pixel) :
    (pixel &&& 0xff).toUInt8.toNat = pixel.toNat % 256 := by
  rw [UInt32.toNat_toUInt8, UInt32.toNat_and]
  have mask : (255 : UInt32).toNat = 2 ^ 8 - 1 := rfl
  rw [mask, Nat.and_two_pow_sub_one_eq_mod]
  exact Nat.mod_mod _ _

theorem pixelBytes_ldPixel : pixelBytes (ldPixel a b c) = [a, b, c] := by
  have la := a.toNat_lt
  have lb := b.toNat_lt
  have lc := c.toNat_lt
  have wide := toNat_ldPixel a b c
  refine congrArg₂ _ ?_ (congrArg₂ _ ?_ (congrArg₂ _ ?_ rfl)) <;> apply UInt8.toNat_inj.mp
  · rw [toNat_lowOctet]
    omega
  · rw [toNat_octet]
    simp only [UInt32.reduceToNat, Nat.reduceMod]
    omega
  · rw [toNat_octet]
    simp only [UInt32.reduceToNat, Nat.reduceMod]
    omega

theorem ldPixel_of_pixelBytes {pixel : Pixel} (narrow : Is24 pixel) {a b c : UInt8}
    (stored : pixelBytes pixel = [a, b, c]) : ldPixel a b c = pixel := by
  injection stored with first stored
  injection stored with second stored
  injection stored with third
  have firstNat := toNat_lowOctet pixel
  have secondNat := toNat_octet pixel 8
  have thirdNat := toNat_octet pixel 16
  rw [first] at firstNat
  rw [second] at secondNat
  rw [third] at thirdNat
  simp only [UInt32.reduceToNat, Nat.reduceMod, Nat.reducePow] at secondNat thirdNat
  rw [Is24] at narrow
  apply UInt32.toNat_inj.mp
  rw [toNat_ldPixel]
  omega

end RdpServer.BitmapRle

namespace RdpServer.BitmapRle

open Bytes

/-- `RLE_MAX_DIM`. -/
def rleMaxDim : Nat := 64

/-- The bounds-checked output stream: `pos` is the would-be length and `ovf` is
set by a write past `cap`. The stores go to consecutive offsets from zero, so
`buf` is what the destination holds. -/
structure Ostrm where
  buf : Bytes
  pos : Nat
  cap : Nat
  ovf : Bool
  deriving DecidableEq

def ow8 (s : Ostrm) (v : UInt8) : Ostrm :=
  if s.pos < s.cap then { s with buf := s.buf ++ [v], pos := s.pos + 1 }
  else { s with ovf := true, pos := s.pos + 1 }

def ow16 (s : Ostrm) (v : Nat) : Ostrm :=
  ow8 (ow8 s (low v)) (low (v >>> 8))

def owrite (s : Ostrm) (p : Bytes) : Ostrm :=
  p.foldl ow8 s

/-- The competing run lengths. `bicolorCount` stays zero: bicolor runs are
never emitted. -/
structure Count where
  bicolorCount : Nat := 0
  fillCount : Nat := 0
  colorCount : Nat := 0
  mixCount : Nat := 0
  fomCount : Nat := 0
  fomMaskLen : Nat := 0
  deriving DecidableEq

/-- The run-length header shared by the order-code emitters: the short form,
the form with one extension octet and the mega form. -/
def outHeader (code : Nat) (n : Nat) (s : Ostrm) : Ostrm :=
  if n < 32 then ow8 s (low ((code <<< 5) ||| n))
  else if n < 256 + 32 then ow8 (ow8 s (low (code <<< 5))) (low (n - 32))
  else ow16 (ow8 s (low (0xf0 + code))) n

def outFillCount (n : Nat) (s : Ostrm) : Ostrm :=
  if n > 0 then outHeader 0 n s else s

def outMixCount (n : Nat) (s : Ostrm) : Ostrm :=
  if n > 0 then outHeader 1 n s else s

/-- The fill-or-mix order counts whole mask octets in its short form and starts
its one-octet extension at one, unlike the other orders. -/
def outFomCount (n : Nat) (s : Ostrm) (mask : Bytes) : Ostrm :=
  if n > 0 then
    owrite (if n % 8 = 0 ∧ n < 249 then ow8 s (low ((0x2 <<< 5) ||| (n / 8)))
      else if n < 256 then ow8 (ow8 s 0x40) (low (n - 1))
      else ow16 (ow8 s 0xf2) n) mask
  else s

def outColorCount (n : Nat) (s : Ostrm) (color : Pixel) : Ostrm :=
  if n > 0 then owrite (outHeader 3 n s) (pixelBytes color) else s

/-- The literal order writes the first `n` accumulated pixels. -/
def outCopyCount (n : Nat) (s : Ostrm) (temp : Bytes) : Ostrm :=
  if n > 0 then owrite (outHeader 4 n s) (temp.take (3 * n)) else s

/-- Read a pixel of the row at an offset of the image; there is no row above the
first one, and columns past the width replicate `last`. -/
def inPixel (src : Bytes) (line : Option Nat) (x width : Nat) (last : Pixel) : Pixel :=
  match line with
  | none => 0
  | some offset =>
    if x ≥ width then last
    else ldPixel (src.getD (offset + x * 3) 0) (src.getD (offset + x * 3 + 1) 0)
      (src.getD (offset + x * 3 + 2) 0)

structure Enc where
  s : Ostrm
  counts : Count := {}
  count : Nat := 0
  temp : Bytes := []
  fomMask : Bytes := []
  lastPixel : Pixel := 0
  lastYpixel : Pixel := 0
  deriving DecidableEq

/-- A run length is worth an order when it is over three and no other counter is
longer. -/
def Count.Dominant (c : Count) (n : Nat) : Prop :=
  n > 3 ∧ n ≥ c.fillCount ∧ n ≥ c.colorCount ∧ n ≥ c.bicolorCount ∧ n ≥ c.mixCount ∧
    n ≥ c.fomCount

instance (c : Count) (n : Nat) : Decidable (c.Dominant n) :=
  inferInstanceAs (Decidable (_ ∧ _))

/-- Write the literals that precede a run of `n` pending pixels and then the
run. The source repeats this block for each counter and each place a run ends. -/
def Enc.flushRun (e : Enc) (n : Nat) (emit : Ostrm → Ostrm) : Option Enc :=
  if e.counts.Dominant n then
    if n > e.count then none
    else some { e with s := emit (outCopyCount (e.count - n) e.s e.temp), count := 0, counts := {} }
  else some e

def Enc.flushFill (e : Enc) : Option Enc :=
  e.flushRun e.counts.fillCount (outFillCount e.counts.fillCount)

def Enc.flushMix (e : Enc) : Option Enc :=
  e.flushRun e.counts.mixCount (outMixCount e.counts.mixCount)

def Enc.flushColor (e : Enc) : Option Enc :=
  e.flushRun e.counts.colorCount (fun s => outColorCount e.counts.colorCount s e.lastPixel)

def Enc.flushFom (e : Enc) : Option Enc :=
  e.flushRun e.counts.fomCount
    (fun s => outFomCount e.counts.fomCount s (e.fomMask.take e.counts.fomMaskLen))

def Enc.clearFill (e : Enc) : Enc := { e with counts := { e.counts with fillCount := 0 } }

def Enc.clearMix (e : Enc) : Enc := { e with counts := { e.counts with mixCount := 0 } }

def Enc.clearColor (e : Enc) : Enc := { e with counts := { e.counts with colorCount := 0 } }

def Enc.clearFom (e : Enc) : Enc :=
  { e with counts := { e.counts with fomCount := 0, fomMaskLen := 0 } }

structure Tests where
  fill : Bool
  mix : Bool
  color : Bool

def Tests.fom (t : Tests) : Bool := t.fill || t.mix

def testsOf (lastLine : Option Nat) (pixel ypixel lastPixel : Pixel) : Tests where
  fill := (lastLine.isNone && pixel == 0) || (lastLine.isSome && pixel == ypixel)
  mix := (lastLine.isNone && pixel == mixColor) || (lastLine.isSome && pixel == ypixel ^^^ mixColor)
  color := pixel == lastPixel

def Enc.endRuns (e : Enc) (t : Tests) : Option Enc :=
  (if t.fill then some e else e.flushFill.map Enc.clearFill).bind fun e =>
  (if t.mix then some e else e.flushMix.map Enc.clearMix).bind fun e =>
  (if t.color then some e else e.flushColor.map Enc.clearColor).bind fun e =>
  if t.fom then some e else e.flushFom.map Enc.clearFom

def pushMask (mask : Bytes) (c : Count) (mixed : Bool) : Bytes × Nat :=
  let (mask, len) :=
    if c.fomCount % 8 = 0 then (writeAt mask c.fomMaskLen [0], c.fomMaskLen + 1)
    else (mask, c.fomMaskLen)
  if mixed then
    (writeAt mask (len - 1) [mask.getD (len - 1) 0 ||| low (1 <<< (c.fomCount % 8))], len)
  else (mask, len)

def Enc.push (e : Enc) (t : Tests) (pixel ypixel : Pixel) : Enc :=
  let (mask, len) :=
    if t.fom then pushMask e.fomMask e.counts (pixel == ypixel ^^^ mixColor)
    else (e.fomMask, e.counts.fomMaskLen)
  { e with
    counts :=
      { e.counts with
        fillCount := if t.fill then e.counts.fillCount + 1 else e.counts.fillCount
        mixCount := if t.mix then e.counts.mixCount + 1 else e.counts.mixCount
        colorCount := if t.color then e.counts.colorCount + 1 else e.counts.colorCount
        fomCount := if t.fom then e.counts.fomCount + 1 else e.counts.fomCount
        fomMaskLen := len }
    fomMask := mask
    temp := writeAt e.temp (e.count * 3) (pixelBytes pixel)
    count := e.count + 1
    lastPixel := pixel
    lastYpixel := ypixel }

def encPixel (src : Bytes) (width line : Nat) (lastLine : Option Nat) (e : Enc) (j : Nat) :
    Option Enc :=
  let pixel := inPixel src (some line) j width e.lastPixel
  let ypixel := inPixel src lastLine j width e.lastYpixel
  let t := testsOf lastLine pixel ypixel e.lastPixel
  (e.endRuns t).map fun e => e.push t pixel ypixel

/-- Fill, mix and fill-or-mix runs do not cross the end of the first scanline. -/
def Enc.endFirstLine (e : Enc) : Option Enc :=
  (e.flushFill.map Enc.clearFill).bind fun e =>
  (e.flushMix.map Enc.clearMix).bind fun e =>
  e.flushFom.map Enc.clearFom

def encLine (src : Bytes) (width line : Nat) (lastLine : Option Nat) (e : Enc) :
    Option Enc :=
  ((List.range width).foldlM (encPixel src width line lastLine) e).bind fun e =>
  if lastLine.isNone then e.endFirstLine else some e

/-- The test that gives up on the remaining scanlines: even with the best
pending run written, the output would not fit. -/
def Enc.full (e : Enc) (cap : Nat) : Bool :=
  let i := e.s.pos + 3 * e.count
  i - 3 * e.counts.colorCount ≥ cap && i - 3 * e.counts.bicolorCount ≥ cap &&
    i - 3 * e.counts.fillCount ≥ cap && i - 3 * e.counts.mixCount ≥ cap &&
    i - 3 * e.counts.fomCount ≥ cap

/-- The scanline loop, from row `row` down to row zero. -/
def encLines (src : Bytes) (width cap : Nat) :
    (row : Nat) → (lastLine : Option Nat) → (outCount : Nat) → Enc → Option Enc
  | row, lastLine, outCount, e =>
    if ¬ outCount < 32768 then some e
    else if e.full cap then some e
    else (encLine src width (3 * width * row) lastLine e).bind fun e =>
      match row with
      | 0 => some e
      | next + 1 =>
        encLines src width cap next (some (3 * width * row)) (outCount + width * 3) e

def Enc.finish (e : Enc) : Option Ostrm :=
  let c := e.counts
  if c.Dominant c.fillCount then e.flushFill.map Enc.s
  else if c.Dominant c.mixCount then e.flushMix.map Enc.s
  else if c.Dominant c.colorCount then e.flushColor.map Enc.s
  else if c.Dominant c.fomCount then e.flushFom.map Enc.s
  else some (outCopyCount e.count e.s e.temp)

/-- The output octets, or `none` where the source returns -1. -/
def rdpBitmapRleCompress24 (cap : Nat) (src : Bytes) (width height : Nat) :
    Option Bytes :=
  if width = 0 ∨ height = 0 ∨ width > rleMaxDim ∨ height > rleMaxDim then none
  else
    (encLines src width cap (height - 1) none (width * 3) { s := ⟨[], 0, cap, false⟩ }).bind
      fun e => e.finish.bind fun s => if s.ovf then none else some s.buf

end RdpServer.BitmapRle
