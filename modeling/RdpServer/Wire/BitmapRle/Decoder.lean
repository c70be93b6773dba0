import RdpServer.Lib.Checked
import RdpServer.Wire.BitmapRle.Order

/-!
# The interleaved RLE decoder

`rdp_bitmap_rle_decompress_24`, the independent decoder of the round-trip test. The pixels go to
the destination one by one and a background pixel is the one a row above, or black on the first
scanline. An access outside stream and destination is a fault. `Holds` relates the state to the
pixels decoded so far.
-/

namespace RdpServer.BitmapRle

open Bytes

structure Dec where
  pos : Nat := 0
  out : Nat := 0
  first : Bool := true
  dst : Bytes
  deriving DecidableEq

def ir8 (src : Bytes) (d : Dec) : Checked (UInt8 × Dec) :=
  if d.pos ≥ src.length then .error .reject
  else do
    let v ← load src d.pos
    return (v, { d with pos := d.pos + 1 })

def ir16 (src : Bytes) (d : Dec) : Checked (Nat × Dec) := do
  let (a, d) ← ir8 src d
  let (b, d) ← ir8 src d
  return (a.toNat ||| (b.toNat <<< 8), d)

def irPixel (src : Bytes) (d : Dec) : Checked (Pixel × Dec) := do
  let (a, d) ← ir8 src d
  let (b, d) ← ir8 src d
  let (c, d) ← ir8 src d
  return (ldPixel a b c, d)

/-- The pixel above the next one. The subtraction would wrap before the second
scanline, and the load is then outside the destination. -/
def above (width : Nat) (d : Dec) : Checked Pixel :=
  if d.first then .ok 0
  else if d.out < width then .error .fault
  else do
    let a ← load d.dst ((d.out - width) * 3)
    let b ← load d.dst ((d.out - width) * 3 + 1)
    let c ← load d.dst ((d.out - width) * 3 + 2)
    return ldPixel a b c

def put (width total : Nat) (d : Dec) (px : Pixel) : Checked Dec :=
  if d.out ≥ total then .error .reject
  else do
    let dst ← store d.dst (d.out * 3) (pixelBytes px)
    return { d with
      dst := dst
      out := d.out + 1
      first := if (d.out + 1) % width = 0 then false else d.first }

/-- A loop that appends `n` pixels, each computed when its turn comes. -/
def putLoop (width total : Nat) (px : Nat → Dec → Checked (Pixel × Dec)) :
    (n k : Nat) → Dec → Checked Dec
  | 0, _, d => .ok d
  | n + 1, k, d => do
    let (p, d) ← px k d
    let d ← put width total d p
    putLoop width total px n (k + 1) d

def fillPixel (width : Nat) (_k : Nat) (d : Dec) : Checked (Pixel × Dec) := do
  return (← above width d, d)

def mixPixel (width : Nat) (_k : Nat) (d : Dec) : Checked (Pixel × Dec) := do
  return ((← above width d) ^^^ mixColor, d)

def colorPixel (col : Pixel) (_k : Nat) (d : Dec) : Checked (Pixel × Dec) :=
  return (col, d)

def bicolorPixel (c1 c2 : Pixel) (k : Nat) (d : Dec) : Checked (Pixel × Dec) :=
  return (if k % 2 = 1 then c1 else c2, d)

def copyPixel (src : Bytes) (_k : Nat) (d : Dec) : Checked (Pixel × Dec) :=
  irPixel src d

def fomPixel (src : Bytes) (width : Nat) (k : Nat) (d : Dec) : Checked (Pixel × Dec) :=
  if d.pos + k / 8 ≥ src.length then .error .reject
  else do
    let mb ← load src (d.pos + k / 8)
    let a ← above width d
    return (if mb.toNat &&& (1 <<< (k % 8)) ≠ 0 then a ^^^ mixColor else a, d)

/-- `FOM_RUN`: the mask octets are skipped after the run. -/
def fomRun (src : Bytes) (width total n : Nat) (d : Dec) : Checked Dec := do
  let d ← putLoop width total (fomPixel src width) n 0 d
  return { d with pos := d.pos + (n + 7) / 8 }

/-- The run length of a short order: the header's low bits or, when these are
zero, an extension octet plus `base`. -/
def runLength (src : Bytes) (bits base : Nat) (d : Dec) : Checked (Nat × Dec) :=
  if bits = 0 then do
    let (e, d) ← ir8 src d
    return (e.toNat + base, d)
  else return (bits, d)

def decOrder (src : Bytes) (width total : Nat) (d : Dec) : Checked Dec := do
  let (hdr, d) ← ir8 src d
  let hdr := hdr.toNat
  match hdr >>> 5 with
  | 0 => do
    let (n, d) ← runLength src (hdr &&& 0x1f) 32 d
    putLoop width total (fillPixel width) n 0 d
  | 1 => do
    let (n, d) ← runLength src (hdr &&& 0x1f) 32 d
    putLoop width total (mixPixel width) n 0 d
  | 2 =>
    if hdr &&& 0x1f = 0 then do
      let (e, d) ← ir8 src d
      fomRun src width total (e.toNat + 1) d
    else fomRun src width total ((hdr &&& 0x1f) * 8) d
  | 3 => do
    let (n, d) ← runLength src (hdr &&& 0x1f) 32 d
    let (col, d) ← irPixel src d
    putLoop width total (colorPixel col) n 0 d
  | 4 => do
    let (n, d) ← runLength src (hdr &&& 0x1f) 32 d
    putLoop width total (copyPixel src) n 0 d
  | 7 =>
    if hdr < 0xf0 then do
      let (n, d) ← runLength src (hdr &&& 0x0f) 16 d
      let (c1, d) ← irPixel src d
      let (c2, d) ← irPixel src d
      putLoop width total (bicolorPixel c1 c2) (n * 2) 0 d
    else
      match hdr with
      | 0xf0 => do
        let (nn, d) ← ir16 src d
        putLoop width total (fillPixel width) nn 0 d
      | 0xf1 => do
        let (nn, d) ← ir16 src d
        putLoop width total (mixPixel width) nn 0 d
      | 0xf2 => do
        let (nn, d) ← ir16 src d
        fomRun src width total nn d
      | 0xf3 => do
        let (nn, d) ← ir16 src d
        let (col, d) ← irPixel src d
        putLoop width total (colorPixel col) nn 0 d
      | 0xf4 => do
        let (nn, d) ← ir16 src d
        putLoop width total (copyPixel src) nn 0 d
      | 0xf8 => do
        let (nn, d) ← ir16 src d
        let (c1, d) ← irPixel src d
        let (c2, d) ← irPixel src d
        putLoop width total (bicolorPixel c1 c2) (nn * 2) 0 d
      | _ => .error .reject
  | _ => .error .reject

/-- The order loop. An order takes at least its header octet, so as many rounds
as there are octets reach the end of the stream. -/
def decLoop (src : Bytes) (width total : Nat) : (rounds : Nat) → Dec → Checked Dec
  | 0, d => .ok d
  | rounds + 1, d =>
    if d.pos < src.length then do
      let d ← decOrder src width total d
      decLoop src width total rounds d
    else .ok d

/-- `SIZE_MAX`. -/
def sizeMax : Nat := 2 ^ 64 - 1

/-- The destination after the call, whose previous contents are `dst`. -/
def rdpBitmapRleDecompress24 (dst src : Bytes) (width height : Nat) : Checked Bytes :=
  let total := width * height
  if width = 0 ∨ height = 0 ∨ total > sizeMax / 3 ∨ dst.length < total * 3 then .error .reject
  else do
    let d ← decLoop src width total src.length { dst := dst }
    if d.out = total then return d.dst else .error .reject

open Predict List Option

section Pixels

theorem getElem?_flatMap_pixelBytes (pixels : List Pixel) (j i : Nat) (octet : i < 3) :
    (pixels.flatMap pixelBytes)[3 * j + i]? = (pixels[j]?).bind fun px => (pixelBytes px)[i]? := by
  induction pixels generalizing j with
  | nil => rfl
  | cons pixel rest ih =>
    rw [flatMap_cons]
    cases j with
    | zero =>
      rw [getElem?_append_left (by rw [length_pixelBytes]; omega)]
      simp
    | succ j =>
      rw [getElem?_append_right (by rw [length_pixelBytes]; omega), length_pixelBytes,
        show 3 * (j + 1) + i - 3 = 3 * j + i by omega, ih j, getElem?_cons_succ]

end Pixels

variable {octet : UInt8}

section Stream

variable {src rest : Bytes} {d : Dec}

theorem drop_pos_succ (ahead : src.drop d.pos = octet :: rest) : src.drop (d.pos + 1) = rest := by
  rw [← drop_drop, ahead, drop_succ_cons, drop_zero]

theorem drop_pos_add {block : Bytes} {pos : Nat} (ahead : src.drop pos = block ++ rest) :
    src.drop (pos + block.length) = rest := by
  rw [← drop_drop, ahead, drop_left]

theorem getElem?_of_drop {pos : Nat} {octets : Bytes} (ahead : src.drop pos = octets)
    (i : Nat) : src[pos + i]? = octets[i]? := by
  rw [← ahead, getElem?_drop]

theorem ir8_eq (src : Bytes) (d : Dec) : ir8 src d = (src[d.pos]?).elim (.error .reject)
    fun octet => .ok (octet, { d with pos := d.pos + 1 }) := by
  cases held : src[d.pos]? with
  | none => rw [ir8, if_pos (List.getElem?_eq_none_iff.1 held), elim_none]
  | some octet =>
    have inside : ¬ d.pos ≥ src.length := Nat.not_le.2 (List.getElem?_eq_some_iff.1 held).1
    rw [ir8, if_neg inside, load_ok held]
    rfl

theorem ir8_ok (ahead : src.drop d.pos = octet :: rest) :
    ir8 src d = .ok (octet, { d with pos := d.pos + 1 }) := by
  have held := getElem?_of_drop ahead 0
  rw [Nat.add_zero, getElem?_cons_zero] at held
  rw [ir8_eq, held, elim_some]

theorem ir8_end (none : src.drop d.pos = []) : ir8 src d = .error .reject := by
  rw [ir8, if_pos (drop_eq_nil_iff.1 none)]

theorem irPixel_end (short : src.length < d.pos + 3) : irPixel src d = .error .reject := by
  have third : src[d.pos + 2]? = none := getElem?_eq_none (by omega)
  simp only [irPixel, ir8_eq, bind, Except.bind]
  cases src[d.pos]? with
  | none => rfl
  | some first =>
    simp only [elim_some]
    cases src[d.pos + 1]? with
    | none => rfl
    | some second => simp only [elim_some, third, elim_none]

end Stream

/-- The destination holds these pixels, and the octets behind the image are `tail`. -/
structure Dec.Holds (width total : Nat) (tail : Bytes) (pixels : List Pixel) (d : Dec) :
    Prop where
  out : d.out = pixels.length
  first : d.first = decide (pixels.length < width)
  dst : d.dst.take (3 * pixels.length) = pixels.flatMap pixelBytes
  room : 3 * total ≤ d.dst.length
  narrow : ∀ pixel ∈ pixels, Is24 pixel
  tail_eq : d.dst.drop (3 * total) = tail

theorem drop_writeAt {α : Type} {buffer block : List α} {offset start : Nat}
    (inside : offset + block.length ≤ start) (fits : offset + block.length ≤ buffer.length) :
    (writeAt buffer offset block).drop start = buffer.drop start := by
  have length : (buffer.take offset ++ block).length = offset + block.length := by
    rw [length_append, length_take]
    omega
  rw [writeAt, drop_append, drop_eq_nil_of_le (by omega), nil_append, drop_drop]
  congr 1
  omega

namespace Dec.Holds

variable {width total : Nat} {tail : Bytes} {pixels : List Pixel} {d : Dec}

variable (held : d.Holds width total tail pixels)
include held

theorem setPos (pos : Nat) : Dec.Holds width total tail pixels { d with pos := pos } :=
  ⟨held.out, held.first, held.dst, held.room, held.narrow, held.tail_eq⟩

theorem load_octet {j i : Nat} {pixel : Pixel} (present : pixels[j]? = some pixel) (third : i < 3)
    (stored : (pixelBytes pixel)[i]? = some octet) : load d.dst (j * 3 + i) = .ok octet := by
  apply load_ok
  have inside : j < pixels.length := (List.getElem?_eq_some_iff.mp present).1
  have taken : (d.dst.take (3 * pixels.length))[3 * j + i]? = some octet := by
    rw [held.dst, getElem?_flatMap_pixelBytes pixels j i third, present]
    exact stored
  rw [getElem?_take_of_lt (by omega)] at taken
  rw [Nat.mul_comm]
  exact taken

theorem above (positive : 0 < width) : above width d = .ok (aboveOf width pixels) := by
  by_cases first : pixels.length < width
  · have flag : d.first = true := by rw [held.first]; exact decide_eq_true first
    simp [BitmapRle.above, flag, aboveOf, first]
  · have flag : d.first = false := by rw [held.first]; exact decide_eq_false first
    have inside : pixels.length - width < pixels.length := by omega
    have present : pixels[pixels.length - width]? = some pixels[pixels.length - width] :=
      getElem?_eq_getElem inside
    have narrow : Is24 pixels[pixels.length - width] := held.narrow _ (getElem_mem inside)
    obtain ⟨a, b, c, stored⟩ : ∃ a b c, pixelBytes pixels[pixels.length - width] = [a, b, c] :=
      ⟨_, _, _, rfl⟩
    have loadA := held.load_octet present (i := 0) (by decide) (by rw [stored]; rfl)
    have loadB := held.load_octet present (i := 1) (by decide) (by rw [stored]; rfl)
    have loadC := held.load_octet present (i := 2) (by decide) (by rw [stored]; rfl)
    simp only [BitmapRle.above, flag, held.out, first, aboveOf]
    rw [Nat.add_zero] at loadA
    simp [loadA, loadB, loadC, bind, Except.bind, pure, Except.pure,
      ldPixel_of_pixelBytes narrow stored, present]

theorem put (room : pixels.length < total) {px : Pixel} (narrow : Is24 px) :
    ∃ next, put width total d px = .ok next ∧ next.pos = d.pos ∧
      next.Holds width total tail (pixels ++ [px]) := by
  have space : ¬ d.out ≥ total := by rw [held.out]; omega
  have length : 3 * pixels.length ≤ d.dst.length := by have := held.room; omega
  have fits : d.out * 3 + (pixelBytes px).length ≤ d.dst.length := by
    have := held.room
    rw [length_pixelBytes]
    omega
  let next : Dec := { d with
    dst := writeAt d.dst (d.out * 3) (pixelBytes px)
    out := d.out + 1
    first := if (d.out + 1) % width = 0 then false else d.first }
  have stored : BitmapRle.put width total d px = .ok next := by
    simp only [BitmapRle.put, space, store, fits]
    rfl
  refine ⟨next, stored, rfl, ?_, ?_, ?_, ?_,
    forall_mem_append.2 ⟨held.narrow, forall_mem_singleton.2 narrow⟩, ?_⟩
  · simp [next, held.out]
  · simp only [next, held.out, held.first, length_append, length_cons, length_nil]
    -- the flag falls exactly at the end of the first scanline
    by_cases ends : (pixels.length + 1) % width = 0
    · have notFirst : ¬ pixels.length + 1 < width := by
        intro below
        rw [Nat.mod_eq_of_lt below] at ends
        omega
      simp only [ends, ↓reduceIte, notFirst, decide_false]
    · simp only [ends]
      have differs : pixels.length + 1 ≠ width := by
        intro same
        rw [same, Nat.mod_self] at ends
        exact ends rfl
      apply decide_eq_decide.mpr
      omega
  · have offset : d.out * 3 = 3 * pixels.length := by rw [held.out, Nat.mul_comm]
    have stored := take_writeAt d.dst (pixelBytes px) length
    rw [length_pixelBytes] at stored
    simp only [next, offset, length_append, length_cons, length_nil, Nat.mul_add, flatMap_append, flatMap_cons, flatMap_nil, append_nil, stored, held.dst]
  · rw [length_writeAt fits]
    exact held.room
  · rw [← held.tail_eq]
    exact drop_writeAt (by rw [length_pixelBytes]; omega) fits

end Dec.Holds

theorem shiftRight_five (value : Nat) : value >>> 5 = value / 32 :=
  Nat.shiftRight_eq_div_pow value 5

theorem and_low_five (value : Nat) : value &&& 0x1f = value % 32 :=
  Nat.and_two_pow_sub_one_eq_mod value 5

section Orders

variable {src rest tail : Bytes} {d : Dec} {width total : Nat} {pixels : List Pixel}

theorem Dec.Holds.is24_aboveOf (held : d.Holds width total tail pixels) :
    Is24 (aboveOf width pixels) := by
  unfold aboveOf
  split
  · exact Nat.two_pow_pos 24
  · rw [getD_eq_getElem?_getD]
    cases found : pixels[pixels.length - width]? with
    | none => exact Nat.two_pow_pos 24
    | some pixel => exact held.narrow pixel (mem_of_getElem? found)

theorem fomPixel_ok (held : d.Holds width total tail pixels) (positive : 0 < width)
    {mask : Bytes} (ahead : src.drop d.pos = mask ++ rest) {k : Nat}
    (inside : k / 8 < mask.length) :
    fomPixel src width k d = .ok
      (if maskBit mask k then aboveOf width pixels ^^^ mixColor else aboveOf width pixels, d) := by
  have octet : src[d.pos + k / 8]? = some (mask.getD (k / 8) 0) := by
    rw [getElem?_of_drop ahead, getElem?_append_left inside,
      getD_eq_getElem?_getD, getElem?_eq_getElem inside, getD_some]
  have within : ¬ d.pos + k / 8 ≥ src.length := by
    have := (List.getElem?_eq_some_iff.mp octet).1
    omega
  simp only [fomPixel, within, ↓reduceIte, load_ok octet, held.above positive, bind, Except.bind,
    pure, Except.pure, maskBit, decide_eq_true_eq]

end Orders

end RdpServer.BitmapRle
