import RdpServer.Common.Buf

/-!
# Drawing orders

The builders of `order.c`: a MemBlt primary order and a Cache Bitmap Rev2
secondary order, each with its own header. A builder fails on a field out of
range or when the order does not fit the output; for fields in range it writes one byte
string.
-/

namespace RdpServer

open Bytes

def rdpOrderStandard : Nat := 0x01
def rdpOrderSecondary : Nat := 0x02
def rdpOrderTypeChange : Nat := 0x08
def rdpOrderTypeMemblt : Nat := 0x0D
def rdpOrderTypeCacheBitmapUncompressedV2 : Nat := 0x04
def rdpOrderTypeCacheBitmapCompressedV2 : Nat := 0x05
def cbr2HeightSameAsWidth : Nat := 0x01
def cbr2PersistentKeyPresent : Nat := 0x02
def cbr2NoBitmapCompressionHdr : Nat := 0x08
def rdpRopSrccopy : UInt8 := 0xCC
def membltFields : Nat := 0x01FF
def secOrderLengthBias : Nat := 13

@[ext] structure Memblt where
  cacheId : UInt8
  cacheIndex : UInt16
  x : Int
  y : Int
  w : Int
  h : Int
  rop : UInt8
  srcX : Int
  srcY : Int
  deriving DecidableEq

structure CacheBitmap where
  cacheId : UInt8
  cacheIndex : UInt16
  bpp : UInt8
  width : UInt16
  height : UInt16
  key : UInt64
  compressed : Bool
  data : Bytes
  deriving DecidableEq

def putCoord (b : Buf) (v : Int) : Option Buf :=
  if v < 0 ∨ v > 65535 then none else rdpBufPutU16le b v.toNat

def put2byteUnsigned (b : Buf) (v : Nat) : Option Buf :=
  if v > 0x7FFF then none
  else if v ≥ 0x7F then
    (rdpBufPutU8 b (((v &&& 0x7F00) >>> 8) ||| 0x80)).bind (rdpBufPutU8 · (v &&& 0xFF))
  else rdpBufPutU8 b (v &&& 0x7F)

def put4byteUnsigned (b : Buf) (v : Nat) : Option Buf :=
  if v ≤ 0x3F then rdpBufPutU8 b v
  else if v ≤ 0x3FFF then
    (rdpBufPutU8 b (((v >>> 8) &&& 0x3F) ||| 0x40)).bind (rdpBufPutU8 · (v &&& 0xFF))
  else if v ≤ 0x3FFFFF then
    ((rdpBufPutU8 b (((v >>> 16) &&& 0x3F) ||| 0x80)).bind
      (rdpBufPutU8 · ((v >>> 8) &&& 0xFF))).bind (rdpBufPutU8 · (v &&& 0xFF))
  else if v ≤ 0x3FFFFFFF then
    (((rdpBufPutU8 b (((v >>> 24) &&& 0x3F) ||| 0xC0)).bind
      (rdpBufPutU8 · ((v >>> 16) &&& 0xFF))).bind
      (rdpBufPutU8 · ((v >>> 8) &&& 0xFF))).bind (rdpBufPutU8 · (v &&& 0xFF))
  else none

def bppId (bpp : UInt8) : Option Nat :=
  if bpp = 8 then some 3
  else if bpp = 16 then some 4
  else if bpp = 24 then some 5
  else if bpp = 32 then some 6
  else none

def rdpOrderBuildMemblt (cap : Nat) (m : Memblt) : Option Bytes := do
  let b := rdpBufInit cap
  let b ← rdpBufPutU8 b (rdpOrderStandard ||| rdpOrderTypeChange)
  let b ← rdpBufPutU8 b rdpOrderTypeMemblt
  let b ← rdpBufPutU16le b membltFields
  let b ← rdpBufPutU16le b (m.cacheId.toNat &&& 0xFF)
  let b ← putCoord b m.x
  let b ← putCoord b m.y
  let b ← putCoord b m.w
  let b ← putCoord b m.h
  let b ← rdpBufPutU8 b m.rop.toNat
  let b ← putCoord b m.srcX
  let b ← putCoord b m.srcY
  let b ← rdpBufPutU16le b m.cacheIndex.toNat
  return b.written

def CacheBitmap.cbr2Flags (cb : CacheBitmap) : Nat :=
  cbr2PersistentKeyPresent ||| (if cb.height = cb.width then cbr2HeightSameAsWidth else 0) |||
    (if cb.compressed then cbr2NoBitmapCompressionHdr else 0)

def CacheBitmap.putHeight (cb : CacheBitmap) (b : Buf) : Option Buf :=
  if cb.cbr2Flags &&& cbr2HeightSameAsWidth = 0 then put2byteUnsigned b cb.height.toNat else some b

def CacheBitmap.putBody (cb : CacheBitmap) (b : Buf) : Option Buf := do
  let b ← rdpBufPutU32le b (cb.key.toNat &&& 0xFFFFFFFF)
  let b ← rdpBufPutU32le b (cb.key.toNat >>> 32)
  let b ← put2byteUnsigned b cb.width.toNat
  let b ← cb.putHeight b
  let b ← put4byteUnsigned b (cb.data.length % 2 ^ 32)
  let b ← put2byteUnsigned b cb.cacheIndex.toNat
  rdpBufPut b cb.data

def rdpOrderBuildCacheBitmapV2 (cap : Nat) (cb : CacheBitmap) : Option Bytes := do
  if cb.cacheId > 3 then none
  else
    let id ← bppId cb.bpp
    if cap < 6 then none
    else
      let body ← cb.putBody (rdpBufInit (cap - 6))
      let total := 6 + body.written.length
      -- a total below the bias wraps around to a huge value of size_t
      if total < secOrderLengthBias ∨ total - secOrderLengthBias > 0xFFFF then none
      else
        let extraFlags := (cb.cacheId.toNat &&& 3) ||| (id <<< 3) ||| (cb.cbr2Flags <<< 7)
        return low (rdpOrderStandard ||| rdpOrderSecondary) ::
          leBytes 2 (total - secOrderLengthBias) ++ leBytes 2 extraFlags ++
          [low (if cb.compressed then rdpOrderTypeCacheBitmapCompressedV2
            else rdpOrderTypeCacheBitmapUncompressedV2)] ++ body.written

open Option List CacheBitmap

theorem or_eq_add {value : Nat} (bits high : Nat) (small : value < 2 ^ bits) :
    value ||| 2 ^ bits * high = value + 2 ^ bits * high := by
  rw [Nat.or_comm, ← Nat.two_pow_add_eq_or_of_lt small, Nat.add_comm]

def twoByteUnsigned (v : Nat) : Bytes :=
  if v < 0x7F then [low v] else [low (v / 256 + 128), low v]

def fourByteUnsigned (v : Nat) : Bytes :=
  if v ≤ 0x3F then [low v]
  else if v ≤ 0x3FFF then [low (v / 256 + 64), low v]
  else if v ≤ 0x3FFFFF then [low (v / 65536 + 128), low (v / 256), low v]
  else [low (v / 16777216 + 192), low (v / 65536), low (v / 256), low v]

variable (v : Nat)

theorem low_mod : low (v % 256) = low v := by
  apply UInt8.toNat_inj.1
  rw [toNat_low, toNat_low, Nat.mod_mod]

theorem low_and : low (v &&& 0xFF) = low v := by
  rw [show v &&& 0xFF = v % 256 from Nat.and_two_pow_sub_one_eq_mod v 8, low_mod]

variable {b : Buf}

theorem put2byteUnsigned_eq {v : Nat} (fits : v ≤ 0x7FFF) :
    put2byteUnsigned b v = rdpBufPut b (twoByteUnsigned v) := by
  have notOver : ¬ v > 0x7FFF := by omega
  by_cases short : v < 0x7F
  · have notLong : ¬ v ≥ 0x7F := by omega
    have same : v &&& 0x7F = v := by
      rw [show (0x7F : Nat) = 2 ^ 7 - 1 from rfl, Nat.and_two_pow_sub_one_eq_mod]
      omega
    rw [put2byteUnsigned, if_neg notOver, if_neg notLong, same, twoByteUnsigned, if_pos short,
      rdpBufPutU8]
  · have long : v ≥ 0x7F := by omega
    have high : ((v &&& 0x7F00) >>> 8) ||| 0x80 = v / 256 + 128 := by
      rw [Nat.shiftRight_and_distrib, show 0x7F00 >>> 8 = 2 ^ 7 - 1 from rfl,
        Nat.and_two_pow_sub_one_eq_mod,
        show (0x80 : Nat) = 2 ^ 7 * 1 from rfl, or_eq_add 7 1 (Nat.mod_lt _ (by decide))]
      omega
    rw [put2byteUnsigned, if_neg notOver, if_pos long, high, twoByteUnsigned, if_neg short]
    simp only [rdpBufPutU8, low_and]
    exact rdpBufPut_bind

theorem put4byteUnsigned_eq {v : Nat} (fits : v ≤ 0x3FFFFFFF) :
    put4byteUnsigned b v = rdpBufPut b (fourByteUnsigned v) := by
  have high (bits high : Nat) : ((v >>> bits) &&& 0x3F) ||| 2 ^ 6 * high =
      v / 2 ^ bits % 64 + 2 ^ 6 * high := by
    rw [Nat.shiftRight_eq_div_pow, show (v / 2 ^ bits) &&& 0x3F = v / 2 ^ bits % 64 from
      Nat.and_two_pow_sub_one_eq_mod _ 6]
    exact or_eq_add 6 high (Nat.mod_lt _ (by decide))
  have middle (bits : Nat) : low ((v >>> bits) &&& 0xFF) = low (v / 2 ^ bits) := by
    rw [low_and, Nat.shiftRight_eq_div_pow]
  have one := high 8 1
  have two := high 16 2
  have three := high 24 3
  have second := middle 8
  have third := middle 16
  simp only [Nat.reducePow] at one two three second third
  by_cases octet : v ≤ 0x3F
  · simp only [put4byteUnsigned, fourByteUnsigned, octet, ↓reduceIte, rdpBufPutU8]
  · by_cases octets : v ≤ 0x3FFF
    · simp only [put4byteUnsigned, fourByteUnsigned, octet, octets, rdpBufPutU8, one, low_and]
      rw [Nat.mod_eq_of_lt (by omega : v / 256 < 64)]
      exact rdpBufPut_bind
    · by_cases three' : v ≤ 0x3FFFFF
      · simp only [put4byteUnsigned, fourByteUnsigned, octet, octets, three', ↓reduceIte,
          rdpBufPutU8, two, low_and, second]
        rw [Nat.mod_eq_of_lt (by omega : v / 65536 < 64), rdpBufPut_bind, rdpBufPut_bind]
        rfl
      · simp only [put4byteUnsigned, fourByteUnsigned, octet, octets, three', fits, ↓reduceIte,
          rdpBufPutU8, three, low_and, second, third]
        rw [Nat.mod_eq_of_lt (by omega : v / 16777216 < 64), rdpBufPut_bind, rdpBufPut_bind,
          rdpBufPut_bind]
        rfl

structure Memblt.InRange (m : Memblt) : Prop where
  x : 0 ≤ m.x ∧ m.x ≤ 65535
  y : 0 ≤ m.y ∧ m.y ≤ 65535
  w : 0 ≤ m.w ∧ m.w ≤ 65535
  h : 0 ≤ m.h ∧ m.h ≤ 65535
  srcX : 0 ≤ m.srcX ∧ m.srcX ≤ 65535
  srcY : 0 ≤ m.srcY ∧ m.srcY ≤ 65535

def Memblt.wire (m : Memblt) : Bytes :=
  [0x09] ++ [0x0D] ++ leBytes 2 membltFields ++ leBytes 2 m.cacheId.toNat ++
    leBytes 2 m.x.toNat ++ leBytes 2 m.y.toNat ++ leBytes 2 m.w.toNat ++ leBytes 2 m.h.toNat ++
    [m.rop] ++ leBytes 2 m.srcX.toNat ++ leBytes 2 m.srcY.toNat ++ leBytes 2 m.cacheIndex.toNat

@[simp] theorem Memblt.length_wire (m : Memblt) : m.wire.length = 21 := by
  simp only [Memblt.wire, length_append, length_singleton, length_leBytes]

theorem putCoord_eq {v : Int} (inRange : 0 ≤ v ∧ v ≤ 65535) :
    putCoord b v = rdpBufPut b (leBytes 2 v.toNat) := by
  rw [putCoord, if_neg (by omega), rdpBufPutU16le]

variable {cap : Nat} {m : Memblt}

theorem rdpOrderBuildMemblt_put (inRange : m.InRange) :
    rdpOrderBuildMemblt cap m = (rdpBufPut (rdpBufInit cap) m.wire).map Buf.written := by
  have cacheId : m.cacheId.toNat &&& 0xFF = m.cacheId.toNat := by
    have small := m.cacheId.toNat_lt
    rw [show (0xFF : Nat) = 2 ^ 8 - 1 from rfl, Nat.and_two_pow_sub_one_eq_mod]
    omega
  simp only [rdpOrderBuildMemblt, bind, putCoord_eq inRange.x, putCoord_eq inRange.y,
    putCoord_eq inRange.w, putCoord_eq inRange.h, putCoord_eq inRange.srcX,
    putCoord_eq inRange.srcY, rdpBufPutU8, rdpBufPutU16le, cacheId, low_toNat, rdpBufPut_then]
  rw [map_eq_bind]
  rfl

theorem rdpOrderBuildMemblt_eq (inRange : m.InRange) (fits : 21 ≤ cap) :
    rdpOrderBuildMemblt cap m = some m.wire := by
  rw [rdpOrderBuildMemblt_put inRange]
  apply rdpBufPut_init
  rw [Memblt.length_wire]
  exact fits

theorem putCoord_inRange {after : Buf} {v : Int} (put : putCoord b v = some after) :
    0 ≤ v ∧ v ≤ 65535 := by
  unfold putCoord at put
  split at put
  · cases put
  · omega

theorem rdpOrderBuildMemblt_accepts {order : Bytes}
    (built : rdpOrderBuildMemblt cap m = some order) : m.InRange ∧ 21 ≤ cap ∧ order = m.wire := by
  have inRange : m.InRange := by
    simp only [rdpOrderBuildMemblt, bind, bind_eq_some_iff] at built
    obtain ⟨_, -, _, -, _, -, _, -, _, x, _, y, _, w, _, h, _, -, _, srcX, _, srcY, -⟩ := built
    exact ⟨putCoord_inRange x, putCoord_inRange y, putCoord_inRange w, putCoord_inRange h,
      putCoord_inRange srcX, putCoord_inRange srcY⟩
  rw [rdpOrderBuildMemblt_put inRange, map_eq_some_iff] at built
  obtain ⟨after, put, rfl⟩ := built
  obtain ⟨written, cap⟩ := rdpBufPut_eq_some put
  have inside := after.inside
  rw [written, cap] at inside
  have length := m.length_wire
  exact ⟨inRange, length ▸ inside, written⟩

theorem putCoord_none {v : Int} (outside : v < 0 ∨ v > 65535) (b : Buf) : putCoord b v = none := by
  rw [putCoord, if_pos outside]

theorem rdpOrderBuildMemblt_none (cap : Nat) (outside : m.x > 65535 ∨ m.y > 65535) :
    rdpOrderBuildMemblt cap m = none := by
  rcases outside with x | y
  · simp [rdpOrderBuildMemblt, putCoord_none (.inr x)]
  · simp [rdpOrderBuildMemblt, putCoord_none (.inr y)]

section CacheBitmap

variable (cb : CacheBitmap)

structure CacheBitmap.InRange : Prop where
  cacheId : cb.cacheId.toNat ≤ 3
  width : cb.width.toNat ≤ 0x7FFF
  height : cb.height.toNat ≤ 0x7FFF
  cacheIndex : cb.cacheIndex.toNat ≤ 0x7FFF
  data : cb.data.length ≤ 0x3FFFFFFF

def CacheBitmap.body : Bytes :=
  leBytes 4 (cb.key.toNat % 2 ^ 32) ++ leBytes 4 (cb.key.toNat / 2 ^ 32) ++
    twoByteUnsigned cb.width.toNat ++
    (if cb.height = cb.width then [] else twoByteUnsigned cb.height.toNat) ++
    fourByteUnsigned cb.data.length ++ twoByteUnsigned cb.cacheIndex.toNat ++ cb.data

def CacheBitmap.flags : Nat :=
  2 + (if cb.height = cb.width then 1 else 0) + (if cb.compressed then 8 else 0)

/-- The octets of a Cache Bitmap Rev2 order with the depth identifier `id`. -/
def CacheBitmap.wire (id : Nat) : Bytes :=
  [0x03] ++ leBytes 2 (cb.body.length + 6 - 13) ++
    leBytes 2 (cb.cacheId.toNat + 8 * id + 128 * cb.flags) ++
    [if cb.compressed then 0x05 else 0x04] ++ cb.body

variable {cb}

theorem CacheBitmap.cbr2Flags_eq : cb.cbr2Flags = cb.flags := by
  unfold cbr2Flags flags
  split <;> split <;> rfl

theorem CacheBitmap.putHeight_eq (inRange : cb.InRange) :
    cb.putHeight b = rdpBufPut b
      (if cb.height = cb.width then [] else twoByteUnsigned cb.height.toNat) := by
  rw [putHeight, cbr2Flags_eq, flags]
  by_cases square : cb.height = cb.width
  · have set : (2 + (if cb.height = cb.width then 1 else 0) + (if cb.compressed then 8 else 0)) &&&
        cbr2HeightSameAsWidth ≠ 0 := by
      rw [if_pos square]
      split <;> decide
    rw [if_neg set, if_pos square, rdpBufPut]
    simp
  · have clear : (2 + (if cb.height = cb.width then 1 else 0) +
        (if cb.compressed then 8 else 0)) &&& cbr2HeightSameAsWidth = 0 := by
      rw [if_neg square]
      split <;> decide
    rw [if_pos clear, if_neg square, put2byteUnsigned_eq inRange.height]

theorem CacheBitmap.putBody_eq (inRange : cb.InRange) : cb.putBody b = rdpBufPut b cb.body := by
  have lowHalf : cb.key.toNat &&& 0xFFFFFFFF = cb.key.toNat % 2 ^ 32 :=
    Nat.and_two_pow_sub_one_eq_mod _ 32
  have highHalf : cb.key.toNat >>> 32 = cb.key.toNat / 2 ^ 32 := Nat.shiftRight_eq_div_pow _ _
  have length : cb.data.length % 2 ^ 32 = cb.data.length := by
    have small := inRange.data
    omega
  simp only [putBody, bind, rdpBufPutU32le, lowHalf, highHalf, length,
    put2byteUnsigned_eq inRange.width, putHeight_eq inRange, put4byteUnsigned_eq inRange.data,
    put2byteUnsigned_eq inRange.cacheIndex, rdpBufPut_bind, body, append_assoc]

theorem length_twoByteUnsigned :
    1 ≤ (twoByteUnsigned v).length ∧ (twoByteUnsigned v).length ≤ 2 := by
  unfold twoByteUnsigned
  split <;> simp only [length_cons, length_nil] <;> omega

theorem length_fourByteUnsigned :
    1 ≤ (fourByteUnsigned v).length ∧ (fourByteUnsigned v).length ≤ 4 := by
  unfold fourByteUnsigned
  repeat' split
  all_goals simp only [length_cons, length_nil]; omega

theorem CacheBitmap.length_body :
    11 + cb.data.length ≤ cb.body.length ∧ cb.body.length ≤ 18 + cb.data.length := by
  have width := length_twoByteUnsigned cb.width.toNat
  have height := length_twoByteUnsigned cb.height.toNat
  have length := length_fourByteUnsigned cb.data.length
  have index := length_twoByteUnsigned cb.cacheIndex.toNat
  simp only [body, length_append, length_leBytes]
  split
  · rw [length_nil]
    omega
  · omega

theorem rdpOrderBuildCacheBitmapV2_eq {id : Nat} (inRange : cb.InRange)
    (depth : bppId cb.bpp = some id) (known : id < 16) (fits : cb.body.length + 6 ≤ cap)
    (short : cb.body.length + 6 ≤ 0xFFFF + 13) :
    rdpOrderBuildCacheBitmapV2 cap cb = some (cb.wire id) := by
  have length : 11 + cb.data.length ≤ cb.body.length := length_body.1
  have cell : ¬ cb.cacheId > 3 := by
    have small := inRange.cacheId
    exact Nat.not_lt.2 small
  have header : ¬ cap < 6 := by omega
  obtain ⟨b, put, written⟩ : ∃ b, rdpBufPut (rdpBufInit (cap - 6)) cb.body = some b ∧
      b.written = cb.body :=
    map_eq_some_iff.1 (rdpBufPut_init (by omega : cb.body.length ≤ cap - 6))
  have extra : (cb.cacheId.toNat &&& 3) ||| (id <<< 3) ||| (cb.flags <<< 7) =
      cb.cacheId.toNat + 8 * id + 128 * cb.flags := by
    have small := inRange.cacheId
    have masked : cb.cacheId.toNat &&& 3 = cb.cacheId.toNat := by
      rw [show (3 : Nat) = 2 ^ 2 - 1 from rfl, Nat.and_two_pow_sub_one_eq_mod]
      omega
    rw [Nat.shiftLeft_eq, Nat.shiftLeft_eq, Nat.mul_comm id, Nat.mul_comm cb.flags,
      or_eq_add 3 id (by omega), or_eq_add 7 cb.flags (by omega)]
    omega
  have total : ¬ (6 + cb.body.length < secOrderLengthBias ∨
      6 + cb.body.length - secOrderLengthBias > 0xFFFF) := by
    simp only [secOrderLengthBias]
    omega
  simp only [rdpOrderBuildCacheBitmapV2, cell, header, depth, bind, bind_some,
    putBody_eq inRange, put, written, total, cbr2Flags_eq, extra]
  simp only [wire, Nat.add_comm 6]
  cases cb.compressed <;> rfl

theorem put2byteUnsigned_inRange {after : Buf} {v : Nat} (put : put2byteUnsigned b v = some after) :
    v ≤ 0x7FFF := by
  unfold put2byteUnsigned at put
  split at put
  · cases put
  · omega

/-- A body that is put has every field in range, if its data are not too long for the field that
counts them: the builder refuses those by the length of the order. -/
theorem CacheBitmap.putBody_inRange {after : Buf} (cell : cb.cacheId.toNat ≤ 3)
    (put : cb.putBody b = some after) (short : after.written.length ≤ 0x3FFFFFFF) : cb.InRange := by
  simp only [putBody, bind, bind_eq_some_iff] at put
  obtain ⟨_, -, _, -, _, width, _, height, _, -, _, cacheIndex, data⟩ := put
  have width := put2byteUnsigned_inRange width
  refine ⟨cell, width, ?_, put2byteUnsigned_inRange cacheIndex, ?_⟩
  · unfold putHeight at height
    by_cases square : cb.height = cb.width
    · rw [square]
      exact width
    · have clear : cb.cbr2Flags &&& cbr2HeightSameAsWidth = 0 := by
        rw [cbr2Flags, if_neg square]
        split <;> decide
      rw [if_pos clear] at height
      exact put2byteUnsigned_inRange height
  · rw [(rdpBufPut_eq_some data).1, length_append] at short
    omega

theorem rdpOrderBuildCacheBitmapV2_accepts {order : Bytes}
    (built : rdpOrderBuildCacheBitmapV2 cap cb = some order) :
    cb.InRange ∧ (∃ id, bppId cb.bpp = some id ∧ order = cb.wire id) ∧
      cb.body.length + 6 ≤ cap ∧ cb.body.length + 6 ≤ 0xFFFF + 13 := by
  have accepted := built
  unfold rdpOrderBuildCacheBitmapV2 at built
  split at built
  · cases built
  next cell =>
  simp only [bind, bind_eq_some_iff] at built
  obtain ⟨id, depth, built⟩ := built
  split at built
  · cases built
  obtain ⟨after, put, built⟩ := bind_eq_some_iff.1 built
  split at built
  · cases built
  next total =>
  have cell : cb.cacheId.toNat ≤ 3 := by
    exact Nat.not_lt.1 cell
  rw [secOrderLengthBias] at total
  have inRange := putBody_inRange cell put (by omega)
  rw [putBody_eq inRange] at put
  obtain ⟨written, room⟩ := rdpBufPut_eq_some put
  have inside := after.inside
  change after.written = cb.body at written
  change after.cap = cap - 6 at room
  rw [written] at total inside
  have known : id < 16 := by
    unfold bppId at depth
    split_ifs at depth <;> cases depth <;> decide
  rw [rdpOrderBuildCacheBitmapV2_eq inRange depth known (by omega) (by omega)] at accepted
  cases accepted
  exact ⟨inRange, ⟨id, depth, rfl⟩, by omega, by omega⟩

end CacheBitmap

end RdpServer
