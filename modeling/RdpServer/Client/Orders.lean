import RdpServer.Lib.Parser
import RdpServer.Wire.BitmapRle.RoundTrip
import RdpServer.Wire.Fastpath
import RdpServer.Wire.Order

/-!
# A client with a bitmap cache

The client reads fast-path order updates with their drawing orders, stores the bitmaps of Cache
Bitmap orders under their cache identifier and index, and paints what MemBlt orders
recall, clipped to the bitmap it holds. An order that it cannot carry out ends
the connection.
-/

namespace RdpServer.Client

open Bytes List CacheBitmap

def announced {α : Type} (present : Bool) (parser : Parser α) (otherwise : α) : Parser α :=
  if present then parser else pure otherwise

def twoByteField : Parser Nat := do
  let first ← Parser.octet
  let second ← announced (128 ≤ first.toNat) (some <$> Parser.octet) none
  return match second with
    | none => first.toNat
    | some second => first.toNat % 128 * 256 + second.toNat

def fourByteField : Parser Nat := do
  let first ← Parser.octet
  let rest ← Parser.block (first.toNat / 64)
  return rest.foldl (fun value octet => value * 256 + octet.toNat) (first.toNat % 64)

def signed16 (value : Nat) : Int :=
  if value < 0x8000 then value else (value : Int) - 0x10000

/-- MS-RDPEGDI `COORD_FIELD`, not as a delta. -/
def coordField : Parser Int := signed16 <$> Parser.le 2

def membltOrder : Parser Memblt := do
  let control ← Parser.octet
  Parser.require (control == 0x09)
  let orderType ← Parser.octet
  Parser.require (orderType == 0x0D)
  let fields ← Parser.le 2
  Parser.require (fields == 0x01FF)
  let cacheId ← Parser.le 2
  let x ← coordField
  let y ← coordField
  let w ← coordField
  let h ← coordField
  let rop ← Parser.octet
  let srcX ← coordField
  let srcY ← coordField
  let cacheIndex ← Parser.le 2
  return ⟨UInt8.ofNat cacheId, UInt16.ofNat cacheIndex, x, y, w, h, rop, srcX, srcY⟩

def depthOf (id : Nat) : UInt8 :=
  if id = 3 then 8 else if id = 4 then 16 else if id = 5 then 24 else 32

def cacheBitmapBody (extra : Nat) (compressed : Bool) : Parser CacheBitmap := do
  let key1 ← announced ((extra / 128).testBit 1) (Parser.le 4) 0
  let key2 ← announced ((extra / 128).testBit 1) (Parser.le 4) 0
  let width ← twoByteField
  let height ← announced (!(extra / 128).testBit 0) twoByteField width
  let length ← fourByteField
  let cacheIndex ← twoByteField
  let header ← announced (compressed && !(extra / 128).testBit 3) (Parser.block 8) []
  let data ← Parser.block (length - header.length)
  return {
    cacheId := UInt8.ofNat (extra % 8)
    cacheIndex := UInt16.ofNat cacheIndex
    bpp := depthOf (extra / 8 % 16)
    width := UInt16.ofNat width
    height := UInt16.ofNat height
    key := UInt64.ofNat (key1 + 2 ^ 32 * key2)
    compressed := compressed
    data := data }

def cacheBitmapOrder : Parser CacheBitmap := do
  let control ← Parser.octet
  Parser.require (control == 0x03)
  let orderLength ← Parser.le 2
  let extra ← Parser.le 2
  let orderType ← Parser.octet
  Parser.require (orderType == 0x04 || orderType == 0x05)
  let body ← Parser.block (orderLength + 13 - 6)
  StateT.lift ((cacheBitmapBody extra (orderType == 0x05)).whole body)

section Fields

theorem decodes_announced {α : Type} {parser : Parser α} {encoding : Bytes} {value : α}
    {present : Bool} (otherwise : α) (shown : present = true)
    (reads : Decodes parser encoding value) :
    Decodes (announced present parser otherwise) encoding value := by
  rw [announced, if_pos shown]
  exact reads

theorem decodes_otherwise {α : Type} (parser : Parser α) {present : Bool} (otherwise : α)
    (hidden : present = false) : Decodes (announced present parser otherwise) [] otherwise := by
  rw [announced, if_neg (by rw [hidden]; exact Bool.false_ne_true)]
  exact .pure otherwise

theorem decodes_twoByte {v : Nat} (fits : v ≤ 0x7FFF) :
    Decodes twoByteField (twoByteUnsigned v) v := by
  unfold twoByteUnsigned twoByteField
  by_cases short : v < 0x7F
  · have toNat : (low v).toNat = v := by
      rw [toNat_low]
      omega
    rw [if_pos short]
    refine Decodes.cons (Decodes.step (decodes_otherwise _ none ?_) ?_)
    · rw [decide_eq_false_iff_not]
      omega
    · rw [toNat]
      exact .pure v
  · have toNat : (low (v / 256 + 128)).toNat = v / 256 + 128 := by
      rw [toNat_low]
      omega
    rw [if_neg short]
    refine Decodes.cons
      (Decodes.finish (decodes_announced none ?_ ((Decodes.octet (low v)).map some)) ?_)
    · rw [decide_eq_true_eq]
      omega
    · have value : (v / 256 + 128) % 128 * 256 + v % 256 = v := by omega
      simp only [toNat, toNat_low, value]
      exact .pure v

theorem decodes_fourByte {v : Nat} (fits : v ≤ 0x3FFFFFFF) :
    Decodes fourByteField (fourByteUnsigned v) v := by
  -- each size has its own first octet, of which the top two bits count the octets that follow
  have sized (first : Nat) (rest : Bytes) (count : first / 64 = rest.length)
      (small : first < 256)
      (value : rest.foldl (fun value octet => value * 256 + octet.toNat) (first % 64) = v) :
      Decodes fourByteField (low first :: rest) v := by
    have toNat : (low first).toNat = first := by
      rw [toNat_low]
      omega
    refine Decodes.cons ?_
    rw [toNat, count]
    refine Decodes.finish (Decodes.block rest) ?_
    rw [value]
    exact .pure v
  unfold fourByteUnsigned
  split
  · exact sized v [] (by rw [length_nil]; omega) (by omega)
      (by rw [foldl_nil]; omega)
  split
  · exact sized (v / 256 + 64) [low v] (by simp only [length_cons, length_nil]; omega)
      (by omega) (by simp only [foldl_cons, foldl_nil, toNat_low]; omega)
  split
  · exact sized (v / 65536 + 128) [low (v / 256), low v]
      (by simp only [length_cons, length_nil]; omega) (by omega)
      (by simp only [foldl_cons, foldl_nil, toNat_low]; omega)
  · exact sized (v / 16777216 + 192) [low (v / 65536), low (v / 256), low v]
      (by simp only [length_cons, length_nil]; omega) (by omega)
      (by simp only [foldl_cons, foldl_nil, toNat_low]; omega)

end Fields

section Orders

/-- The order as the client reads it. -/
def seen (m : Memblt) : Memblt :=
  { m with
    x := signed16 m.x.toNat
    y := signed16 m.y.toNat
    w := signed16 m.w.toNat
    h := signed16 m.h.toNat
    srcX := signed16 m.srcX.toNat
    srcY := signed16 m.srcY.toNat }

theorem decodes_memblt {m : Memblt} (inRange : m.InRange) :
    Decodes membltOrder m.wire (seen m) := by
  have coord {v : Int} (held : 0 ≤ v ∧ v ≤ 65535) :
      Decodes coordField (leBytes 2 v.toNat) (signed16 v.toNat) := .map _ (.le 2 _ (by omega))
  have cacheId := m.cacheId.toNat_lt
  have cacheIndex := m.cacheIndex.toNat_lt
  simp only [Memblt.wire, append_assoc, cons_append, nil_append]
  refine .cons (.step (.require (by decide)) (.cons (.step (.require (by decide)) ?_)))
  refine .bind (.le 2 membltFields (by decide)) (.step (.require (by decide)) ?_)
  refine .bind (.le 2 _ (by omega)) (.bind (coord inRange.x) (.bind (coord inRange.y) ?_))
  refine .bind (coord inRange.w) (.bind (coord inRange.h) (.cons ?_))
  refine .bind (coord inRange.srcX) (.bind (coord inRange.srcY) ?_)
  refine .finish (.le 2 _ (by omega)) ?_
  rw [UInt8.ofNat_toNat, UInt16.ofNat_toNat]
  exact .pure (seen m)

/-- Every coordinate of the order is below 2^15. -/
structure NearCoords (m : Memblt) : Prop where
  x : m.x ≤ 0x7FFF
  y : m.y ≤ 0x7FFF
  w : m.w ≤ 0x7FFF
  h : m.h ≤ 0x7FFF
  srcX : m.srcX ≤ 0x7FFF
  srcY : m.srcY ≤ 0x7FFF

theorem signed16_eq_iff {v : Int} (held : 0 ≤ v ∧ v ≤ 65535) :
    signed16 v.toNat = v ↔ v ≤ 0x7FFF := by
  unfold signed16
  split_ifs <;> omega

theorem seen_eq_iff {m : Memblt} (inRange : m.InRange) : seen m = m ↔ NearCoords m := by
  obtain ⟨x, y, w, h, srcX, srcY⟩ := inRange
  rw [seen, Memblt.ext_iff]
  simp only [signed16_eq_iff x, signed16_eq_iff y, signed16_eq_iff w, signed16_eq_iff h,
    signed16_eq_iff srcX, signed16_eq_iff srcY, true_and]
  exact ⟨fun ⟨x, y, w, h, srcX, srcY⟩ => ⟨x, y, w, h, srcX, srcY⟩,
    fun ⟨x, y, w, h, srcX, srcY⟩ => ⟨x, y, w, h, srcX, srcY⟩⟩

theorem bppId_depthOf {bpp : UInt8} {id : Nat} (known : bppId bpp = some id) :
    depthOf id = bpp ∧ id < 16 := by
  unfold bppId at known
  split_ifs at known with depth depth depth depth
  all_goals
    cases known
    exact ⟨depth.symm, by decide⟩

theorem testBit_flags (cb : CacheBitmap) :
    cb.flags.testBit 1 = true ∧ cb.flags.testBit 0 = decide (cb.height = cb.width) ∧
      cb.flags.testBit 3 = cb.compressed ∧ cb.flags < 12 := by
  unfold flags
  by_cases square : cb.height = cb.width <;> cases cb.compressed <;>
    simp [square] <;> decide

theorem decodes_cacheBitmapBody {cb : CacheBitmap} {id : Nat} (inRange : cb.InRange)
    (known : bppId cb.bpp = some id) :
    Decodes (cacheBitmapBody (cb.cacheId.toNat + 8 * id + 128 * cb.flags) cb.compressed)
      cb.body cb := by
  have cell := inRange.cacheId
  obtain ⟨depth, small⟩ := bppId_depthOf known
  obtain ⟨keyBit, heightBit, headerBit, _⟩ := testBit_flags cb
  have key := cb.key.toNat_lt
  have flags : (cb.cacheId.toNat + 8 * id + 128 * cb.flags) / 128 = cb.flags := by omega
  have cacheId : (cb.cacheId.toNat + 8 * id + 128 * cb.flags) % 8 = cb.cacheId.toNat := by omega
  have bpp : (cb.cacheId.toNat + 8 * id + 128 * cb.flags) / 8 % 16 = id := by omega
  have whole : cb.key.toNat % 2 ^ 32 + 2 ^ 32 * (cb.key.toNat / 2 ^ 32) = cb.key.toNat := by omega
  simp only [cacheBitmapBody, flags, cacheId, bpp, body, append_assoc]
  refine .bind (decodes_announced 0 keyBit (.le 4 _ (Nat.mod_lt _ (by decide)))) ?_
  refine .bind (decodes_announced 0 keyBit (.le 4 _ (by omega))) ?_
  refine .bind (decodes_twoByte inRange.width) ?_
  have height : Decodes (announced (!cb.flags.testBit 0) twoByteField cb.width.toNat)
      (if cb.height = cb.width then [] else twoByteUnsigned cb.height.toNat)
      cb.height.toNat := by
    rw [heightBit]
    by_cases square : cb.height = cb.width
    · rw [if_pos square, square]
      exact decodes_otherwise _ _ (by simp only [decide_true, Bool.not_true])
    · rw [if_neg square]
      exact decodes_announced _ (by simp only [square, decide_false, Bool.not_false])
        (decodes_twoByte inRange.height)
  refine .bind height (.bind (decodes_fourByte inRange.data) ?_)
  refine .bind (decodes_twoByte inRange.cacheIndex) ?_
  refine .step (decodes_otherwise _ [] ?_) ?_
  · rw [headerBit, Bool.and_not_self]
  · refine .finish (.block cb.data) ?_
    rw [UInt8.ofNat_toNat, UInt16.ofNat_toNat, UInt16.ofNat_toNat, UInt16.ofNat_toNat, depth, whole,
      UInt64.ofNat_toNat]
    exact .pure cb

theorem decodes_cacheBitmap {cb : CacheBitmap} {id : Nat} (inRange : cb.InRange)
    (known : bppId cb.bpp = some id) (short : cb.body.length + 6 ≤ 0xFFFF + 13) :
    Decodes cacheBitmapOrder (cb.wire id) cb := by
  have long : 11 + cb.data.length ≤ cb.body.length := length_body.1
  have cell := inRange.cacheId
  obtain ⟨_, small⟩ := bppId_depthOf known
  obtain ⟨_, _, _, flags⟩ := testBit_flags cb
  have length : cb.body.length + 6 - 13 + 13 - 6 = cb.body.length := by omega
  simp only [wire, append_assoc, cons_append, nil_append]
  refine .cons (.step (.require (by decide)) (.bind (.le 2 _ (by omega)) ?_))
  refine .bind (.le 2 _ (by omega)) (.cons (.step (.require (by cases cb.compressed <;> decide))
    ?_))
  rw [length]
  refine .finish (.block cb.body) ?_
  have compressed : ((if cb.compressed = true then 0x05 else 0x04 : UInt8) == 0x05) =
      cb.compressed := by
    cases cb.compressed <;> decide
  rw [compressed, (decodes_cacheBitmapBody inRange known).whole]
  exact .pure cb

/-- **Which orders the client reads back**, up to the octet where they end: every Cache Bitmap
order that the builder accepts, and a MemBlt that the builder accepts exactly if its coordinates
are below 2^15. The builders refuse an order only for a field out of range or for want of room. -/
theorem builders_decodable_iff (cap : Nat) (m : Memblt) (cb : CacheBitmap) :
    (∀ order, rdpOrderBuildMemblt cap m = some order →
      (Decodes membltOrder order m ↔ NearCoords m)) ∧
    (rdpOrderBuildMemblt cap m = none → ¬ m.InRange ∨ cap < m.wire.length) ∧
    (∀ order, rdpOrderBuildCacheBitmapV2 cap cb = some order →
      Decodes cacheBitmapOrder order cb) ∧
    (rdpOrderBuildCacheBitmapV2 cap cb = none → ¬ cb.InRange ∨ bppId cb.bpp = none ∨
      ∃ id, bppId cb.bpp = some id ∧
        (0xFFFF + 13 < (cb.wire id).length ∨ cap < (cb.wire id).length)) := by
  refine ⟨fun order built => ?_, fun refused => ?_, fun order built => ?_, fun refused => ?_⟩
  · obtain ⟨inRange, -, rfl⟩ := rdpOrderBuildMemblt_accepts built
    have reads := decodes_memblt inRange
    rw [← seen_eq_iff inRange]
    constructor
    · intro also
      exact reads.unique also
    · intro same
      rw [same] at reads
      exact reads
  · by_contra accepted
    rw [not_or, not_not, Memblt.length_wire, not_lt] at accepted
    rw [rdpOrderBuildMemblt_eq accepted.1 accepted.2] at refused
    cases refused
  · obtain ⟨inRange, ⟨id, known, rfl⟩, -, short⟩ := rdpOrderBuildCacheBitmapV2_accepts built
    exact decodes_cacheBitmap inRange known short
  · by_cases inRange : cb.InRange
    · cases known : bppId cb.bpp with
      | none => exact .inr (.inl rfl)
      | some id =>
        refine .inr (.inr ⟨id, rfl, ?_⟩)
        have length : (cb.wire id).length = cb.body.length + 6 := by
          simp [wire, length_leBytes]
          omega
        by_contra accepted
        rw [not_or, not_lt, not_lt, length] at accepted
        rw [rdpOrderBuildCacheBitmapV2_eq inRange known (bppId_depthOf known).2 accepted.2
          accepted.1] at refused
        cases refused
    · exact .inl inRange

/-- A tile at the left edge of a second screen of 40000 columns. -/
def farBlit : Memblt := ⟨0, 1, 40000, 0, 64, 64, rdpRopSrccopy, 0, 0⟩

/-- The builder accepts it, and the client reads it 25536 columns left of the origin. -/
theorem farBlit_misread :
    rdpOrderBuildMemblt 21 farBlit = some farBlit.wire ∧
      membltOrder farBlit.wire = some ({ farBlit with x := -25536 }, []) := by
  decide

end Orders

open BitmapRle

structure Bitmap where
  width : Nat
  height : Nat
  pixels : Bytes
  deriving DecidableEq

structure Paint where
  x : Int
  y : Int
  bitmap : Bitmap
  deriving DecidableEq

/-- The client's announced cells, its cache, and what it has painted so far. -/
structure Screen where
  cells : Fin 3 → UInt32
  cache : UInt8 × UInt16 → Option Bitmap
  painted : List Paint

def Screen.start (cells : Fin 3 → UInt32) : Screen := ⟨cells, fun _ => none, []⟩

def Bitmap.crop (b : Bitmap) (srcX srcY w h : Nat) : Bitmap :=
  let width := min w (b.width - srcX)
  let height := min h (b.height - srcY)
  { width := width
    height := height
    pixels := (List.range height).flatMap fun row =>
      (b.pixels.drop (((srcY + row) * b.width + srcX) * 3)).take (3 * width) }

def Screen.allocated (client : Screen) (place : UInt8 × UInt16) : Bool :=
  if cell : place.1.toNat < 3 then place.2.toNat < (client.cells ⟨_, cell⟩).toNat else false

def Screen.store (client : Screen) (cb : CacheBitmap) : Option Screen :=
  let width := cb.width.toNat
  let height := cb.height.toNat
  let place := (cb.cacheId, cb.cacheIndex)
  if cb.bpp = 24 ∧ cb.compressed ∧ client.allocated place then
    match rdpBitmapRleDecompress24 (List.replicate (3 * width * height) 0) cb.data width height with
    | .ok final =>
      let bitmap := some ⟨width, height, bottomUp final width height⟩
      some { client with cache := Function.update client.cache place bitmap }
    | .error _ => none
  else none

def Screen.blit (client : Screen) (m : Memblt) : Option Screen :=
  if m.rop = rdpRopSrccopy then
    (client.cache (m.cacheId, m.cacheIndex)).map fun bitmap =>
      { client with painted := client.painted ++
        [⟨m.x, m.y, bitmap.crop m.srcX.toNat m.srcY.toNat m.w.toNat m.h.toNat⟩] }
  else none

def Screen.order (client : Screen) : Parser Screen := fun input =>
  if (input.getD 0 0).toNat.testBit 1 then
    (cacheBitmapOrder input).bind fun (cb, rest) => (client.store cb).map (·, rest)
  else (membltOrder input).bind fun (m, rest) => (client.blit m).map (·, rest)

def Screen.orders (client : Screen) : Nat → Parser Screen
  | 0 => pure client
  | count + 1 => do
    let client ← client.order
    client.orders count

def Screen.ordersUpdate (client : Screen) : Parser Screen := do
  let numberOrders ← Parser.le 2
  client.orders numberOrders

def fastpathUpdate (length : Nat) : Parser (UInt8 × Bytes) := do
  let action ← Parser.octet
  Parser.require (action == 0)
  let total ← twoByteField
  Parser.require (total == length)
  let header ← Parser.octet
  let size ← Parser.le 2
  let body ← Parser.block size
  return (header, body)

def Screen.receive (client : Screen) (packet : Bytes) : Option Screen :=
  ((fastpathUpdate packet.length).whole packet).bind fun (header, body) =>
    if header = 0 then client.ordersUpdate.whole body else none

def Screen.receiveAll (client : Screen) (packets : List Bytes) : Option Screen :=
  packets.foldlM Screen.receive client

open List Option

variable {body : Bytes}

section Packet

/-- A fast-path packet with the update header `code`. -/
def updatePacket (code : UInt8) (body : Bytes) : Bytes :=
  let total := if 5 + body.length < 0x80 then 5 + body.length else 6 + body.length
  0 :: (if total ≤ 0x7f then [low total] else [low (total / 256 + 128), low total]) ++
    code :: leBytes 2 body.length ++ body

def ordersPacket (body : Bytes) : Bytes := updatePacket 0 body

theorem length_updatePacket (code : UInt8) (body : Bytes) : ∃ total,
    (if 5 + body.length < 0x80 then 5 + body.length else 6 + body.length) = total ∧
      (updatePacket code body).length = total ∧ 5 ≤ total ∧ total ≤ 6 + body.length := by
  refine ⟨_, rfl, ?_, by split <;> omega⟩
  simp only [updatePacket, length_append, length_cons, length_leBytes]
  by_cases short : 5 + body.length < 0x80
  · have fits : 5 + body.length ≤ 0x7f := by omega
    rw [if_pos short, if_pos fits, length_singleton]
  · have excess : ¬ 6 + body.length ≤ 0x7f := by omega
    rw [if_neg short, if_neg excess, length_cons, length_singleton]

theorem fpWriteHeader_eq (b : Buf) {total : Nat} (small : total < 0x8000) :
    fpWriteHeader b total = rdpBufPut b
      (0 :: if total ≤ 0x7f then [low total] else [low (total / 256 + 128), low total]) := by
  by_cases one : total ≤ 0x7f
  · simp only [fpWriteHeader, one]
    exact rdpBufPut_bind
  · have high : 0x80 ||| ((total >>> 8) &&& 0x7f) = total / 256 + 128 := by
      rw [Nat.or_comm, show (0x7f : Nat) = 2 ^ 7 - 1 from rfl, Nat.and_two_pow_sub_one_eq_mod,
        show (0x80 : Nat) = 2 ^ 7 * 1 from rfl, or_eq_add 7 1 (Nat.mod_lt _ (by decide))]
      omega
    simp only [fpWriteHeader, one, ↓reduceIte, rdpBufPutU8, high, low_and, rdpBufPut_bind]
    rfl

theorem rdpFpBuildUpdateFrag_eq (updateType fragment : Nat)
    (short : 6 + body.length ≤ rdpFpMaxPacketSize) :
    rdpFpBuildUpdateFrag 0x4000 updateType fragment body =
      some (updatePacket (low ((updateType &&& 0x0f) ||| (fragment <<< 4))) body) := by
  generalize code : low ((updateType &&& 0x0f) ||| (fragment <<< 4)) = header
  rw [rdpFpMaxPacketSize] at short
  obtain ⟨total, chosen, length, _, bounds⟩ := length_updatePacket header body
  have fits : (updatePacket header body).length ≤ 0x4000 := by omega
  have written := rdpBufPut_init fits
  rw [map_eq_bind] at written
  have totalMin : (if 1 + 1 + (3 + body.length) < 0x80 then 1 + 1 + (3 + body.length)
      else 1 + 2 + (3 + body.length)) = total := by
    rw [← chosen, show 1 + 1 + (3 + body.length) = 5 + body.length by omega,
      show 1 + 2 + (3 + body.length) = 6 + body.length by omega]
  have small : ¬ (total > 0x4000 ∨ body.length > 0xffff) := by omega
  have inPacket : ¬ total > rdpFpMaxPacketSize := by
    simp only [rdpFpMaxPacketSize]
    omega
  have header (b : Buf) := fpWriteHeader_eq b (by omega : total < 0x8000)
  simp only [rdpFpBuildUpdateFrag, totalMin, small, inPacket, bind, header,
    rdpBufPutU8, rdpBufPutU16le, rdpBufPut_then]
  simp only [updatePacket, chosen, append_assoc, cons_append] at written ⊢
  simp only [code]
  exact written

theorem rdpFpBuildUpdate_orders (short : body.length ≤ 0x3300) :
    rdpFpBuildUpdate 0x4000 rdpFpUpdateOrders body = some (ordersPacket body) :=
  rdpFpBuildUpdateFrag_eq rdpFpUpdateOrders rdpFpFragmentSingle (by rw [rdpFpMaxPacketSize]; omega)

theorem whole_updatePacket (code : UInt8) (short : 6 + body.length ≤ rdpFpMaxPacketSize) :
    (fastpathUpdate (updatePacket code body).length).whole (updatePacket code body) =
      some (code, body) := by
  rw [rdpFpMaxPacketSize] at short
  obtain ⟨total, chosen, length, _, bounds⟩ := length_updatePacket code body
  have determinant : Decodes twoByteField
      (if total ≤ 0x7f then [low total] else [low (total / 256 + 128), low total]) total := by
    by_cases one : total ≤ 0x7f
    · have toNat : (low total).toNat = total := by
        rw [toNat_low]
        omega
      rw [if_pos one]
      refine Decodes.cons (Decodes.step (decodes_otherwise _ none ?_) ?_)
      · rw [decide_eq_false_iff_not]
        omega
      · rw [toNat]
        exact .pure total
    · have same := decodes_twoByte (by omega : total ≤ 0x7FFF)
      rw [twoByteUnsigned, if_neg (by omega)] at same
      rw [if_neg one]
      exact same
  rw [length]
  refine Decodes.whole ?_
  simp only [updatePacket, chosen, append_assoc]
  refine .cons (.step (.require (by decide)) (.bind determinant (.step (.require ?_) ?_)))
  · rw [beq_self_eq_true]
  · refine .cons (.bind (.le 2 _ (by omega)) ?_)
    exact .finish (.block body) (.pure _)

end Packet

section Orders

variable {client after : Screen}

theorem decodes_store {cb : CacheBitmap} {id : Nat} (inRange : cb.InRange)
    (known : bppId cb.bpp = some id) (short : cb.body.length ≤ 0xFFFF)
    (stored : client.store cb = some after) : Decodes client.order (cb.wire id) after := by
  intro rest
  have secondary : ((cb.wire id ++ rest).getD 0 0).toNat.testBit 1 = true := by
    simp only [CacheBitmap.wire, cons_append, getD_cons_zero]
    decide
  rw [Screen.order, if_pos secondary, decodes_cacheBitmap inRange known (by omega) rest, bind_some]
  dsimp only
  rw [stored, map_some]

theorem decodes_blit {m : Memblt} (inRange : m.InRange)
    (painted : client.blit (seen m) = some after) :
    Decodes client.order m.wire after := by
  intro rest
  have primary : ¬ ((m.wire ++ rest).getD 0 0).toNat.testBit 1 = true := by
    simp only [Memblt.wire, cons_append, getD_cons_zero]
    decide
  rw [Screen.order, if_neg primary, decodes_memblt inRange rest, bind_some]
  dsimp only
  rw [painted, map_some]

theorem receive_ordersPacket {count : Nat} (few : count < 65536) (short : body.length + 2 ≤ 0x3300)
    (reads : Decodes (client.orders count) body after) :
    client.receive (ordersPacket (leBytes 2 count ++ body)) = some after := by
  have length : 6 + (leBytes 2 count ++ body).length ≤ rdpFpMaxPacketSize := by
    rw [length_append, length_leBytes, rdpFpMaxPacketSize]
    omega
  rw [Screen.receive, ordersPacket, whole_updatePacket 0 length, bind_some]
  exact (Decodes.bind (.le 2 count few) reads).whole

theorem decodes_oneOrder {first : Bytes} (reads : Decodes client.order first after) :
    Decodes (client.orders 1) first after :=
  .finish reads (.pure after)

end Orders

section Crop

theorem crop_self (b : Bitmap) (size : b.pixels.length = 3 * b.width * b.height) :
    b.crop 0 0 b.width b.height = b := by
  -- the first rows taken one after the other are the first octets
  have rows : ∀ count, count ≤ b.height → ((range count).flatMap fun row =>
        (b.pixels.drop (((0 + row) * b.width + 0) * 3)).take (3 * b.width)) =
      b.pixels.take (3 * b.width * count) := by
    intro count
    induction count with
    | zero => intro _; rfl
    | succ row ih =>
      intro le
      have start : ((0 + row) * b.width + 0) * 3 = 3 * b.width * row := by
        rw [Nat.zero_add, Nat.add_zero, Nat.mul_comm row, Nat.mul_right_comm, Nat.mul_comm b.width]
      rw [range_succ, flatMap_append, ih (by omega), flatMap_singleton, start,
        Nat.mul_succ, take_add]
  obtain ⟨width, height, pixels⟩ := b
  simp only [Bitmap.crop, Nat.sub_zero, min_self] at rows ⊢
  rw [rows height (le_rfl), ← size, take_length]

theorem crop_ne {b : Bitmap} {w h : Nat} {pixels : Bytes} (area : b.width * b.height = w * h)
    (positive : 0 < h) (other : b.width ≠ w) : b.crop 0 0 w h ≠ ⟨w, h, pixels⟩ := by
  intro same
  simp only [Bitmap.crop, Bitmap.mk.injEq] at same
  have tall : h ≤ b.height := by omega
  have wider : w < b.width := by omega
  have more : w * h < b.width * b.height := Nat.mul_lt_mul_of_lt_of_le wider tall (by omega)
  omega

end Crop

end RdpServer.Client
