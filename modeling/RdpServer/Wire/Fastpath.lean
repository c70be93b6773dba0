import RdpServer.Common.Buf
import RdpServer.Wire.BitmapRle.Encoder

/-!
# Fast-path output

The fast-path update wrapper and the TS_BITMAP_DATA record of `fastpath.c`, for
tiles of 24-bit pixels. Sixteen-bit fields wrap where the source's do.
-/

namespace RdpServer

open Bytes BitmapRle

def rdpFpUpdateOrders : Nat := 0
def rdpFpUpdateBitmap : Nat := 1
def rdpFpFragmentSingle : Nat := 0
def rdpFpFragmentLast : Nat := 1
def rdpFpFragmentFirst : Nat := 2
def rdpFpFragmentNext : Nat := 3
def rdpFpMaxPacketSize : Nat := 0x3FFF

def fpWriteHeader (b : Buf) (totalLen : Nat) : Option Buf :=
  (rdpBufPutU8 b 0).bind fun b =>
    if totalLen ≤ 0x7f then rdpBufPutU8 b totalLen
    else (rdpBufPutU8 b (0x80 ||| ((totalLen >>> 8) &&& 0x7f))).bind
      (rdpBufPutU8 · (totalLen &&& 0xff))

def rdpFpBuildUpdateFrag (cap updateType fragment : Nat) (body : Bytes) :
    Option Bytes :=
  let inner := 3 + body.length
  let totalMin := 1 + 1 + inner
  let total := if totalMin < 0x80 then totalMin else 1 + 2 + inner
  if total > cap ∨ body.length > 0xffff then none
  else if total > rdpFpMaxPacketSize then none
  else do
    let b ← fpWriteHeader (rdpBufInit cap) total
    let b ← rdpBufPutU8 b ((updateType &&& 0x0f) ||| (fragment <<< 4))
    let b ← rdpBufPutU16le b body.length
    let b ← rdpBufPut b body
    return b.written

def rdpFpBuildUpdate (cap updateType : Nat) (body : Bytes) : Option Bytes :=
  rdpFpBuildUpdateFrag cap updateType rdpFpFragmentSingle body

/-- `count` octets of memory from an offset. -/
def readBlock (src : Bytes) (offset count : Nat) : Bytes :=
  (List.range count).map fun i => src.getD (offset + i) 0

def paddedWidth (w : Nat) : Nat := (w + 3) / 4 * 4 % 65536

def encodeBitmapPixels (src : Bytes) (srcStride w h : Nat) : Bytes :=
  (List.range h).flatMap fun r =>
    readBlock src ((h - 1 - r) * srcStride) (3 * w) ++
      List.replicate (3 * (paddedWidth w - w)) 0

def bitmapCompression : Nat := 0x0001

def rleCap : Nat := 64 * 64 * 3 + 256

def rleTile (rleOk : Bool) (w h : Nat) (pixels : Bytes) (stride : Nat) :
    Option Bytes :=
  if rleOk && decide (1 ≤ w ∧ w ≤ 64 ∧ 1 ≤ h ∧ h ≤ 64 ∧ stride = w * 3) then
    (rdpBitmapRleCompress24 rleCap pixels w h).filter fun rle =>
      rle.length + 8 < paddedWidth w * 3 * h
  else none

def bitmapDataHead (x y w h width flags bitmapLength : Nat) : Bytes :=
  leBytes 2 x ++ leBytes 2 y ++ leBytes 2 (x + w + 65535) ++ leBytes 2 (y + h + 65535) ++
    leBytes 2 width ++ leBytes 2 h ++ leBytes 2 24 ++ leBytes 2 flags ++ leBytes 2 bitmapLength

def writeBitmapData (rleOk : Bool) (cap x y w h : Nat) (pixels : Bytes) (stride : Nat) :
    Option Bytes :=
  let pixelBytes := paddedWidth w * 3 * h
  if cap < 18 then none
  else
    match rleTile rleOk w h pixels stride with
    | some rle =>
      if cap < 18 + 8 + rle.length then none
      else some (bitmapDataHead x y w h w bitmapCompression rle.length ++
        leBytes 2 0 ++ leBytes 2 rle.length ++ leBytes 2 (w * 3) ++ leBytes 2 (w * 3 * h) ++ rle)
    | none =>
      if 18 + pixelBytes > 0xffff ∨ cap < 18 + pixelBytes then none
      else some (bitmapDataHead x y w h (paddedWidth w) 0 pixelBytes ++
        encodeBitmapPixels pixels stride w h)

def rdpFpBuildBitmapBody (rleOk : Bool) (cap x y w h : Nat) (pixels : Bytes)
    (pixelsStride : Nat) : Option Bytes :=
  if cap < 4 then none
  else (writeBitmapData rleOk (cap - 4) x y w h pixels pixelsStride).bind fun record =>
    if 4 + record.length > 0xffff then none
    else some ([0x01, 0x00, 0x01, 0x00] ++ record)

def rdpFpBuildBitmapUpdate (rleOk : Bool) (cap x y w h : Nat) (pixels : Bytes)
    (pixelsStride : Nat) : Option Bytes :=
  if cap < 8 then none
  else (writeBitmapData rleOk (cap - 8) x y w h pixels pixelsStride).bind fun record =>
    let bodySize := 4 + record.length
    if bodySize > 0xffff then none
    else
      let inner := 3 + bodySize
      let total := if inner < 0x80 - 2 then 1 + 1 + inner else 1 + 2 + inner
      if total > rdpFpMaxPacketSize then none
      else (fpWriteHeader (rdpBufInit 4) total).bind fun hdr =>
        if hdr.written.length + 3 + bodySize > cap then none
        else some (hdr.written ++
          [low ((rdpFpUpdateBitmap &&& 0x0f) ||| (rdpFpFragmentSingle <<< 4))] ++
          leBytes 2 bodySize ++ [0x01, 0x00, 0x01, 0x00] ++ record)

end RdpServer
