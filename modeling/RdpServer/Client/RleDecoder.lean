import RdpServer.Wire.BitmapRle.Capacity
import RdpServer.Wire.BitmapRle.Grammar
import RdpServer.Wire.BitmapRle.Placement

/-!
# Interleaved RLE in a client

The decoder of MS-RDPBCGR 3.1.9, as clients have it. Unlike the decoder that the server is
tested with, it knows all orders, looks once for each order whether the first scanline is over,
and puts a foreground pixel in front of a background run that follows another one, unless the
second scanline has just begun. The stream of the encoder means the same to it.
-/

namespace RdpServer.Client

open Bytes BitmapRle Predict History List Option BitmapRle.Order

inductive RleCode where
  | bgRun
  | fgRun
  | fgbgImage
  | colorRun
  | colorImage
  | setFgFgRun
  | setFgFgbgImage
  | ditheredRun
  | specialFgbg1
  | specialFgbg2
  | white
  | black
  deriving DecidableEq

/-- A run length in the low bits of the header, or else in an octet that counts from `base`. -/
def runLengthOf (bits base : Nat) (src : Bytes) : Option (Nat × Bytes) :=
  if bits = 0 then src.head?.map fun octet => (octet.toNat + base, src.tail)
  else some (bits, src)

/-- The length of a foreground and background image is given in octets of its mask, or
else in an octet that counts pixels from one. -/
def imageLengthOf (bits : Nat) (src : Bytes) : Option (Nat × Bytes) :=
  if bits = 0 then src.head?.map fun octet => (octet.toNat + 1, src.tail)
  else some (bits * 8, src)

def megaLengthOf : Bytes → Option (Nat × Bytes)
  | first :: second :: src => some (first.toNat + 256 * second.toNat, src)
  | _ => none

def regularHeader (hdr : Nat) (src : Bytes) : Option (RleCode × Nat × Bytes) :=
  match hdr / 32 with
  | 0 => (runLengthOf (hdr % 32) 32 src).map (.bgRun, ·)
  | 1 => (runLengthOf (hdr % 32) 32 src).map (.fgRun, ·)
  | 2 => (imageLengthOf (hdr % 32) src).map (.fgbgImage, ·)
  | 3 => (runLengthOf (hdr % 32) 32 src).map (.colorRun, ·)
  | 4 => (runLengthOf (hdr % 32) 32 src).map (.colorImage, ·)
  | _ => none

def liteHeader (hdr : Nat) (src : Bytes) : Option (RleCode × Nat × Bytes) :=
  match hdr / 16 with
  | 0xC => (runLengthOf (hdr % 16) 16 src).map (.setFgFgRun, ·)
  | 0xD => (imageLengthOf (hdr % 16) src).map (.setFgFgbgImage, ·)
  | 0xE => (runLengthOf (hdr % 16) 16 src).map (.ditheredRun, ·)
  | _ => none

def megaHeader (hdr : Nat) (src : Bytes) : Option (RleCode × Nat × Bytes) :=
  match hdr with
  | 0xF0 => (megaLengthOf src).map (.bgRun, ·)
  | 0xF1 => (megaLengthOf src).map (.fgRun, ·)
  | 0xF2 => (megaLengthOf src).map (.fgbgImage, ·)
  | 0xF3 => (megaLengthOf src).map (.colorRun, ·)
  | 0xF4 => (megaLengthOf src).map (.colorImage, ·)
  | 0xF6 => (megaLengthOf src).map (.setFgFgRun, ·)
  | 0xF7 => (megaLengthOf src).map (.setFgFgbgImage, ·)
  | 0xF8 => (megaLengthOf src).map (.ditheredRun, ·)
  | 0xF9 => some (.specialFgbg1, 8, src)
  | 0xFA => some (.specialFgbg2, 8, src)
  | 0xFD => some (.white, 1, src)
  | 0xFE => some (.black, 1, src)
  | _ => none

def rleHeader : Bytes → Option (RleCode × Nat × Bytes)
  | [] => none
  | hdr :: src =>
    if hdr.toNat < 0xC0 then regularHeader hdr.toNat src
    else if hdr.toNat < 0xF0 then liteHeader hdr.toNat src
    else megaHeader hdr.toNat src

structure RleState where
  pixels : List Pixel := []
  fgPel : Pixel := 0xFFFFFF
  firstLine : Bool := true
  insertFgPel : Bool := false
  deriving DecidableEq

def readPel : Bytes → Option (Pixel × Bytes)
  | a :: b :: c :: src => some (ldPixel a b c, src)
  | _ => none

def readPels : Nat → Bytes → Option (List Pixel × Bytes)
  | 0, src => some ([], src)
  | n + 1, src => do
    let (pel, src) ← readPel src
    let (pels, src) ← readPels n src
    some (pel :: pels, src)

def RleState.watch (width : Nat) (st : RleState) : RleState :=
  if st.firstLine && decide (width ≤ st.pixels.length) then
    { st with firstLine := false, insertFgPel := false }
  else st

/-- A background pixel behind `pixels`: black, or the one above. -/
def bgPel (width : Nat) (firstLine : Bool) (pixels : List Pixel) : Pixel :=
  if firstLine then 0 else pixels.getD (pixels.length - width) 0

/-- A foreground pixel behind `pixels`. -/
def fgPelOn (width : Nat) (firstLine : Bool) (fgPel : Pixel) (pixels : List Pixel) : Pixel :=
  if firstLine then fgPel else pixels.getD (pixels.length - width) 0 ^^^ fgPel

namespace RleState

variable (st : RleState) (width : Nat)

/-- Append `n` pixels. No background run has come last. -/
def draw (n : Nat) (next : Nat → List Pixel → Pixel) : RleState :=
  { st with pixels := grow next n 0 st.pixels, insertFgPel := false }

def drawBackground (n : Nat) : RleState :=
  let pixels :=
    if st.insertFgPel then st.pixels ++ [fgPelOn width st.firstLine st.fgPel st.pixels]
    else st.pixels
  { st with
    pixels := grow (fun _ => bgPel width st.firstLine) (n - st.insertFgPel.toNat) 0 pixels
    insertFgPel := true }

def drawForeground (n : Nat) : RleState :=
  st.draw n fun _ => fgPelOn width st.firstLine st.fgPel

def drawMask (n : Nat) (mask : Bytes) : RleState :=
  st.draw n fun k pixels =>
    if maskBit mask k then fgPelOn width st.firstLine st.fgPel pixels
    else bgPel width st.firstLine pixels

def drawImage (n : Nat) (src : Bytes) : Option (RleState × Bytes) :=
  if src.length < (n + 7) / 8 then none
  else some (st.drawMask width n (src.take ((n + 7) / 8)), src.drop ((n + 7) / 8))

def drawOrder (code : RleCode) (n : Nat) (src : Bytes) : Option (RleState × Bytes) :=
  match code with
  | .bgRun => some (st.drawBackground width n, src)
  | .fgRun => some (st.drawForeground width n, src)
  | .fgbgImage => st.drawImage width n src
  | .colorRun => (readPel src).map fun (pel, src) => (st.draw n fun _ _ => pel, src)
  | .colorImage =>
    (readPels n src).map fun (pels, src) => (st.draw n fun k _ => pels.getD k 0, src)
  | .setFgFgRun =>
    (readPel src).map fun (pel, src) => ({ st with fgPel := pel }.drawForeground width n, src)
  | .setFgFgbgImage =>
    (readPel src).bind fun (pel, src) => { st with fgPel := pel }.drawImage width n src
  | .ditheredRun =>
    (readPels 2 src).map fun (pels, src) => (st.draw (2 * n) fun k _ => pels.getD (k % 2) 0, src)
  | .specialFgbg1 => some (st.drawMask width 8 [0x03], src)
  | .specialFgbg2 => some (st.drawMask width 8 [0x05], src)
  | .white => some (st.draw 1 fun _ _ => 0xFFFFFF, src)
  | .black => some (st.draw 1 fun _ _ => 0, src)

end RleState

def rleOrder (width : Nat) (st : RleState) (src : Bytes) :
    Option (RleState × Bytes) :=
  (rleHeader src).bind fun (code, n, src) => (st.watch width).drawOrder width code n src

def rleOrders (width : Nat) : Nat → RleState → Bytes → Option RleState
  | _, st, [] => some st
  | 0, _, _ :: _ => none
  | rounds + 1, st, octet :: src =>
    (rleOrder width st (octet :: src)).bind fun (st, src) => rleOrders width rounds st src

def rleDecompress (width : Nat) (src : Bytes) : Option (List Pixel) :=
  (rleOrders width src.length {} src).map RleState.pixels

def codeOf : Code → RleCode
  | .fill => .bgRun
  | .mix => .fgRun
  | .fom => .fgbgImage
  | .color => .colorRun
  | .copy => .colorImage
  | .bicolor => .ditheredRun

variable {n : Nat}

/-- **A client reads every heading** of the grammar. -/
theorem rleHeader_heading {code : Code} {octets : Bytes} (heading : Heading code n octets)
    (rest : Bytes) : rleHeader (octets ++ rest) = some (codeOf code, n, rest) := by
  cases heading with
  | short bits positive below =>
    have small : code.spelling.header + code.spelling.limit ≤ 256 := by cases code <;> decide
    have value : (low (code.spelling.header + bits)).toNat = code.spelling.header + bits := by
      rw [toNat_low, Nat.mod_eq_of_lt (by omega)]
    have nonzero : bits ≠ 0 := ne_of_gt positive
    have regular : code ≠ .bicolor → code.spelling.header + bits < 0xC0 ∧
        (code.spelling.header + bits) / 32 = code.spelling.header / 32 ∧
        (code.spelling.header + bits) % 32 = bits := by
      intro other
      cases code <;> simp only [Code.spelling] at below ⊢ <;> first | exact absurd rfl other | omega
    rw [singleton_append, rleHeader, value]
    cases code with
    | bicolor =>
      simp only [Code.spelling] at below ⊢
      have lite : ¬ 224 + bits < 0xC0 ∧ 224 + bits < 0xF0 := by omega
      have digits : (224 + bits) / 16 = 14 ∧ (224 + bits) % 16 = bits := by omega
      simp only [lite, digits, ↓reduceIte, liteHeader, runLengthOf, nonzero, map_some,
        Nat.mul_one, codeOf]
    | _ =>
      obtain ⟨below, quotient, remainder⟩ := regular (by decide)
      simp only [Code.spelling] at below quotient remainder ⊢
      simp only [below, quotient, remainder, ↓reduceIte, regularHeader, runLengthOf,
        imageLengthOf, nonzero, map_some, Nat.mul_one, codeOf]
  | extended octet | mega first second => cases code <;> rfl

theorem readPel_pixelBytes {pixel : Pixel} (narrow : Is24 pixel) (rest : Bytes) :
    readPel (pixelBytes pixel ++ rest) = some (pixel, rest) := by
  obtain ⟨a, b, c, stored⟩ : ∃ a b c, pixelBytes pixel = [a, b, c] := ⟨_, _, _, rfl⟩
  rw [stored]
  simp [readPel, ldPixel_of_pixelBytes narrow stored]

theorem readPels_flatMap {pixels : List Pixel} (narrow : ∀ pixel ∈ pixels, Is24 pixel)
    (rest : Bytes) :
    readPels pixels.length (pixels.flatMap pixelBytes ++ rest) = some (pixels, rest) := by
  induction pixels with
  | nil => rfl
  | cons pixel pixels ih =>
    rw [flatMap_cons, append_assoc, length_cons, readPels,
      readPel_pixelBytes (narrow pixel mem_cons_self)]
    simp [ih fun other member => narrow other (.tail _ member)]

/-- The client has drawn these pixels, and no other foreground is set. That the first scanline
is over it has seen only at the beginning of an order. -/
structure RleState.Drawn (width : Nat) (pixels : List Pixel) (st : RleState) : Prop where
  pixels_eq : st.pixels = pixels
  fgPel : st.fgPel = mixColor
  late : st.firstLine = false → width < pixels.length

section Orders

variable {width : Nat} {pixels longer : List Pixel} {st : RleState}

def OneSide (width : Nat) (pixels : List Pixel) (n : Nat) : Prop :=
  pixels.length < width → pixels.length + n ≤ width

theorem OneSide.decide_eq {step : Nat} (side : OneSide width pixels n) (below : step < n)
    (length : longer.length = pixels.length + step) :
    decide (pixels.length < width) = decide (longer.length < width) := by
  apply decide_eq_decide.2
  constructor
  · intro first
    have fits := side first
    omega
  · omega

theorem OneSide.bgPel_eq {step : Nat} (side : OneSide width pixels n) (below : step < n)
    (length : longer.length = pixels.length + step) :
    bgPel width (decide (pixels.length < width)) longer = aboveOf width longer := by
  rw [side.decide_eq below length, bgPel, aboveOf]
  simp

theorem OneSide.fgPelOn_eq {step : Nat} (side : OneSide width pixels n) (below : step < n)
    (length : longer.length = pixels.length + step) :
    fgPelOn width (decide (pixels.length < width)) mixColor longer =
      aboveOf width longer ^^^ mixColor := by
  rw [side.decide_eq below length, fgPelOn, aboveOf]
  simp only [decide_eq_true_eq]
  split
  · exact (UInt32.zero_xor).symm
  · rfl

structure RleState.Watched (width : Nat) (pixels : List Pixel) (st : RleState) : Prop where
  pixels_eq : st.pixels = pixels
  fgPel : st.fgPel = mixColor
  firstLine : st.firstLine = decide (pixels.length < width)

theorem RleState.Drawn.watch (drawn : st.Drawn width pixels) :
    (st.watch width).Watched width pixels ∧
      ((st.watch width).insertFgPel = true → st.insertFgPel = true ∧ pixels.length ≠ width) := by
  obtain ⟨rfl, fgPel, late⟩ := drawn
  unfold RleState.watch
  cases first : st.firstLine with
  | true =>
    by_cases past : width ≤ st.pixels.length
    · simp only [past]
      exact ⟨⟨rfl, fgPel, (decide_eq_false (Nat.not_lt.2 past)).symm⟩, nofun⟩
    · simp only [past, decide_false, Bool.and_false, Bool.false_eq_true, ↓reduceIte]
      refine ⟨⟨rfl, fgPel, ?_⟩, fun inserts => ⟨inserts, by omega⟩⟩
      rw [first]
      exact (decide_eq_true (Nat.lt_of_not_le past)).symm
  | false =>
    have past := late first
    simp only [Bool.false_and, Bool.false_eq_true, ↓reduceIte]
    refine ⟨⟨rfl, fgPel, ?_⟩, fun inserts => ⟨inserts, by omega⟩⟩
    rw [first]
    exact (decide_eq_false (by omega)).symm

structure RleState.After (width : Nat) (pixels : List Pixel) (order : Order)
    (st next : RleState) : Prop where
  pixels_eq : next.pixels = order.expand width pixels
  fgPel : next.fgPel = mixColor
  firstLine : next.firstLine = st.firstLine
  insertFgPel : next.insertFgPel = decide (order.kind = some .fill)

/-- **An order of the encoder** is drawn as it is meant. -/
theorem drawOrder_wire {order : Order} (wf : order.WF) (watched : st.Watched width pixels)
    (side : ∀ kind, order.kind = some kind → kind ≠ .color → OneSide width pixels order.count)
    (apart : order.kind = some .fill → st.insertFgPel = false) (rest : Bytes) :
    ∃ next, ((rleHeader (order.wire ++ rest)).bind fun head =>
        st.drawOrder width head.1 head.2.1 head.2.2) = some (next, rest) ∧
      st.After width pixels order next := by
  obtain ⟨positive, bound, wf⟩ := wf
  obtain ⟨rfl, fgPel, firstLine⟩ := watched
  cases order with
  | fill n =>
    have side : OneSide width st.pixels n := side .fill rfl (by decide)
    have insert := apart rfl
    rw [wire, rleHeader_heading (heading_header (n := n) .fill 0 rfl positive bound)]
    refine ⟨_, rfl, ⟨?_, fgPel, rfl, rfl⟩⟩
    simp only [RleState.drawBackground, insert, firstLine]
    exact grow_congr fun step below longer length => side.bgPel_eq below length
  | mix n =>
    have side : OneSide width st.pixels n := side .mix rfl (by decide)
    rw [wire, rleHeader_heading (heading_header (n := n) .mix 1 rfl positive bound)]
    refine ⟨_, rfl, ⟨?_, fgPel, rfl, rfl⟩⟩
    simp only [RleState.drawForeground, fgPel, firstLine]
    exact grow_congr fun step below longer length => side.fgPelOn_eq below length
  | fom n mask =>
    have side : OneSide width st.pixels n := side .fom rfl (by decide)
    rw [wire, append_assoc, rleHeader_heading (heading_fomHeader (n := n) positive bound),
      bind_some]
    have enough : ¬ (mask ++ rest).length < (n + 7) / 8 := by
      rw [length_append]
      omega
    simp only [RleState.drawOrder, RleState.drawImage, enough, take_left' wf, drop_left' wf]
    refine ⟨_, rfl, ⟨?_, fgPel, rfl, rfl⟩⟩
    simp only [RleState.drawMask, fgPel, firstLine]
    refine grow_congr fun step below longer length => ?_
    rw [side.fgPelOn_eq below length, side.bgPel_eq below length]
    rfl
  | color n pixel =>
    rw [wire, append_assoc,
      rleHeader_heading (heading_header (n := n) .color 3 rfl positive bound), bind_some]
    simp only [RleState.drawOrder, readPel_pixelBytes wf]
    exact ⟨_, rfl, ⟨rfl, fgPel, rfl, rfl⟩⟩
  | copy literal =>
    rw [wire, append_assoc, rleHeader_heading
      (heading_header (n := literal.length) .copy 4 rfl positive bound), bind_some]
    simp only [RleState.drawOrder, readPels_flatMap wf]
    exact ⟨_, rfl, ⟨rfl, fgPel, rfl, rfl⟩⟩

theorem rleOrder_wire {before : List Order} {order : Order} (wf : order.WF)
    (drawn : st.Drawn width pixels) (insert : st.insertFgPel = true → EndsFill before)
    (total : Order.total before = pixels.length) (placed : Placed width before order)
    (rest : Bytes) :
    ∃ next, rleOrder width st (order.wire ++ rest) = some (next, rest) ∧
      next.Drawn width (order.expand width pixels) ∧
      (next.insertFgPel = true → order.kind = some .fill) := by
  obtain ⟨watched, inserts⟩ := drawn.watch
  have side : ∀ kind, order.kind = some kind → kind ≠ .color →
      OneSide width pixels order.count := by
    intro kind isKind notColor
    have within := placed.within kind isKind notColor
    rwa [total] at within
  have apart : order.kind = some .fill → (st.watch width).insertFgPel = false := by
    intro fill
    rw [← Bool.not_eq_true]
    intro inserted
    obtain ⟨was, differs⟩ := inserts inserted
    exact differs (total.symm.trans (placed.apart fill (insert was)))
  obtain ⟨next, drew, after⟩ := drawOrder_wire wf watched side apart rest
  refine ⟨next, drew, ⟨after.pixels_eq, after.fgPel, fun past => ?_⟩, fun inserted => ?_⟩
  · rw [after.firstLine, watched.firstLine] at past
    have late := of_decide_eq_false past
    have some := wf.1
    rw [Order.length_expand]
    omega
  · rw [after.insertFgPel] at inserted
    exact of_decide_eq_true inserted

/-- **A stream of the encoder**, by induction on its orders. -/
theorem rleOrders_wireAll (orders : List Order) :
    ∀ (before : List Order) (rounds : Nat) (pixels : List Pixel) (st : RleState),
      (∀ order ∈ orders, order.WF) → Justified (Placed width) (before ++ orders) →
      st.Drawn width pixels → (st.insertFgPel = true → EndsFill before) →
      Order.total before = pixels.length → (wireAll orders).length ≤ rounds →
      ∃ final, rleOrders width rounds st (wireAll orders) = some final ∧
        final.pixels = expandAll width orders pixels := by
  induction orders with
  | nil =>
    intro before rounds pixels st _ _ drawn _ _ _
    refine ⟨st, ?_, drawn.pixels_eq⟩
    cases rounds <;> rfl
  | cons order orders ih =>
    intro before rounds pixels st wf placed drawn insert total enough
    have here : Placed width before order := placed before order orders rfl
    obtain ⟨next, drew, nextDrawn, nextInsert⟩ :=
      rleOrder_wire (wf order mem_cons_self) drawn insert total here (wireAll orders)
    have split : wireAll (order :: orders) = order.wire ++ wireAll orders := rfl
    have written := order.length_wire_pos
    rw [split, length_append] at enough
    have total' : Order.total (before ++ [order]) = (order.expand width pixels).length := by
      rw [Order.total_append, Order.total_singleton, Order.length_expand, total]
    cases rounds with
    | zero => omega
    | succ rounds =>
      obtain ⟨final, ran, final_eq⟩ := ih (before ++ [order]) rounds _ next
        (fun other member => wf other (.tail _ member))
        (by rw [append_assoc]; exact placed) nextDrawn
        (fun inserted => endsFill_concat.2 (nextInsert inserted)) total' (by omega)
      refine ⟨final, ?_, final_eq⟩
      rw [split]
      cases wire : order.wire with
      | nil => rw [wire] at written; exact absurd written (lt_irrefl _)
      | cons octet octets =>
        rw [wire, cons_append] at drew
        rw [cons_append, rleOrders, drew]
        exact ran

end Orders

/-- **Interleaved RLE means the same to a client**: the one stream that the encoder produces
for an image whenever it has room for all pixels decodes to the image under the rules of the
protocol, too. -/
theorem rle_decodes_in_client {width height : Nat} {src : Bytes}
    (widthIn : 1 ≤ width ∧ width ≤ 64) (heightIn : 1 ≤ height ∧ height ≤ 64)
    (size : src.length = 3 * width * height) :
    ∃ stream : Bytes, (∀ cap, 3 * width * height + 3 ≤ cap →
        rdpBitmapRleCompress24 cap src width height = some stream) ∧
      ∃ pixels, rleDecompress width stream = some pixels ∧ pixels.length = width * height ∧
        bottomUp (pixels.flatMap pixelBytes) width height = src := by
  obtain ⟨orders, wf, placed, compressed, denoted, -⟩ :=
    @orders_placed width height _ src widthIn heightIn (le_rfl)
  obtain ⟨final, ran, drawn⟩ := rleOrders_wireAll orders [] (wireAll orders).length []
    ({} : RleState) wf placed ⟨rfl, rfl, nofun⟩ nofun rfl (le_rfl)
  obtain ⟨stream, roomy, -⟩ := compress_closes src widthIn heightIn
  refine ⟨wireAll orders, fun cap room => ?_, final.pixels, ?_, ?_, ?_⟩
  · rw [roomy cap room, ← roomy _ (le_rfl), compressed]
  · rw [rleDecompress, ran, map_some]
  · rw [drawn, denoted, length_imagePixels]
  · rw [drawn, denoted, imagePixels_bytes height (le_of_eq size.symm)]
    exact bottomUp_bottomUp height size

/-- Two lines of four pixels: a white one between black ones, and black ones. -/
def whiteBetween : Bytes := List.replicate 3 0 ++ List.replicate 3 0xff ++ List.replicate 18 0

theorem rle_decodes_in_client_white :
    ∃ stream pixels, rdpBitmapRleCompress24 27 whiteBetween 4 2 = some stream ∧
      rleDecompress 4 stream = some pixels ∧ pixels.length = 8 ∧
      bottomUp (pixels.flatMap pixelBytes) 4 2 = whiteBetween := by
  have size : whiteBetween.length = 3 * 4 * 2 := by decide
  obtain ⟨stream, compressed, pixels, decoded⟩ :=
    rle_decodes_in_client (by decide) (by decide) size
  exact ⟨stream, pixels, compressed 27 (by decide), decoded⟩

end RdpServer.Client
