import RdpServer.Wire.BmpCache
import RdpServer.Wire.Fastpath
import RdpServer.Wire.Order

/-!
# Pushing frames as tiles

A frame is cut into tiles of at most 64 by 64 pixels. With a bitmap cache every
tile goes out as drawing orders: a MemBlt that recalls the tile's slot, and on a
miss a Cache Bitmap order before it that fills the slot. Without one it goes out
as a bitmap update, in fragments where it has to. The loop counters have
sixteen bits, and a walk says whether it came to its end.
-/

namespace RdpServer

open Bytes BitmapRle

structure Frame where
  x : UInt16
  y : UInt16
  w : UInt16
  h : UInt16
  pixels : Bytes
  size : pixels.length = w.toNat * h.toNat * 3

structure Tile where
  x : Nat
  y : Nat
  w : Nat
  h : Nat
  pixels : Bytes
  deriving DecidableEq

/-- The tile of a frame at the loop counters `x` and `y`. -/
def Frame.tileAt (frame : Frame) (x y : Nat) : Tile :=
  let tw := if x + 64 > frame.w.toNat then frame.w.toNat - x else 64
  let th := if y + 64 > frame.h.toNat then frame.h.toNat - y else 64
  { x := frame.x.toNat + x
    y := frame.y.toNat + y
    w := tw
    h := th
    pixels := (List.range th).flatMap fun row =>
      readBlock frame.pixels (((y + row) * frame.w.toNat + x) * 3) (tw * 3) }

/-- The tiles the two nested loops visit from the counters `y` and `x` on, and
whether the loops end within the given number of steps. -/
def Frame.walk (frame : Frame) : (steps y x : Nat) → List Tile × Bool
  | 0, _, _ => ([], false)
  | steps + 1, y, x =>
    if y < frame.h.toNat then
      if x < frame.w.toNat then
        let rest := frame.walk steps y ((x + 64) % 65536)
        (frame.tileAt x y :: rest.1, rest.2)
      else frame.walk steps ((y + 64) % 65536) 0
    else ([], true)

namespace Frame

variable {frame : Frame} {steps x y : Nat}

theorem walk_done (past : frame.h.toNat ≤ y) : frame.walk (steps + 1) y x = ([], true) := by
  rw [walk, if_neg (Nat.not_lt.2 past)]

theorem walk_tile (inColumn : y < frame.h.toNat) (inRow : x < frame.w.toNat) :
    frame.walk (steps + 1) y x = (frame.tileAt x y :: (frame.walk steps y ((x + 64) % 65536)).1,
      (frame.walk steps y ((x + 64) % 65536)).2) := by
  rw [walk, if_pos inColumn, if_pos inRow]

theorem walk_row (inColumn : y < frame.h.toNat) (past : frame.w.toNat ≤ x) :
    frame.walk (steps + 1) y x = frame.walk steps ((y + 64) % 65536) 0 := by
  rw [walk, if_pos inColumn, if_neg (Nat.not_lt.2 past)]

/-- The tiles are at multiples of 64 within the frame. -/
theorem mem_walk {tile : Tile} (alignedY : y % 64 = 0) (alignedX : x % 64 = 0)
    (member : tile ∈ (frame.walk steps y x).1) : ∃ x' y', x' % 64 = 0 ∧ y' % 64 = 0 ∧
      x' < frame.w.toNat ∧ y' < frame.h.toNat ∧ tile = frame.tileAt x' y' := by
  induction steps generalizing y x with
  | zero => cases member
  | succ steps ih =>
    rcases lt_or_ge y frame.h.toNat with inColumn | past
    · rcases lt_or_ge x frame.w.toNat with inRow | past
      · rw [walk_tile inColumn inRow] at member
        rcases List.mem_cons.1 member with rfl | later
        · exact ⟨x, y, alignedX, alignedY, inRow, inColumn, rfl⟩
        · exact ih alignedY (by omega) later
      · rw [walk_row inColumn past] at member
        exact ih (by omega) rfl member
    · rw [walk_done past] at member
      cases member

end Frame

def ordersCap : Nat := 2 + 64 * 64 * 3 + 512

def tileCacheOrder (place : UInt8 × UInt16) (key : UInt64) (tile : Tile) : Option Bytes :=
  (rdpBitmapRleCompress24 (64 * 64 * 3 + 512) tile.pixels tile.w tile.h).bind fun rle =>
    rdpOrderBuildCacheBitmapV2 (ordersCap - 2) {
      cacheId := place.1
      cacheIndex := place.2
      bpp := 24
      width := UInt16.ofNat tile.w
      height := UInt16.ofNat tile.h
      key := key
      compressed := true
      data := rle }

def tileMemblt (place : UInt8 × UInt16) (tile : Tile) : Memblt where
  cacheId := place.1
  cacheIndex := place.2
  x := tile.x
  y := tile.y
  w := tile.w
  h := tile.h
  rop := rdpRopSrccopy
  srcX := 0
  srcY := 0

/-- The update that `send_tile_orders` sends for a tile, and the cache after it. -/
def tileOrders (cache : BmpCache) (tile : Tile) : Option (BmpCache × Bytes) :=
  let key := rdpBmpcacheKey tile.pixels
  (rdpBmpcacheLookup cache key).bind fun (hit, place, cache) =>
    (if hit then some [] else tileCacheOrder place key tile).bind fun stored =>
      (rdpOrderBuildMemblt (ordersCap - (2 + stored.length)) (tileMemblt place tile)).bind
        fun blit =>
          (rdpFpBuildUpdate 0x4000 rdpFpUpdateOrders
            (leBytes 2 (if hit then 1 else 2) ++ stored ++ blit)).map fun packet => (cache, packet)

/-- The fragments of an update body from an offset on. A slice of no octets
makes no progress, and the source's loop goes on for ever. -/
def bitmapFragments (frag : Nat) (body : Bytes) : (steps off : Nat) → (first : Bool) →
    Option (List Bytes)
  | 0, _, _ => none
  | steps + 1, off, first =>
    if off < body.length then
      let slice := if body.length - off > frag then frag else body.length - off
      let flag :=
        if off + slice ≥ body.length then
          if first then rdpFpFragmentSingle else rdpFpFragmentLast
        else if first then rdpFpFragmentFirst else rdpFpFragmentNext
      (rdpFpBuildUpdateFrag 0x4000 rdpFpUpdateBitmap flag ((body.drop off).take slice)).bind
        fun packet => (bitmapFragments frag body steps (off + slice) false).map (packet :: ·)
    else some []

/-- The packets of `send_bitmap_fragments`; the slice size wraps below six. -/
def sendBitmapFragments (body : Bytes) (chunkTarget : Nat) : Option (List Bytes) :=
  let frag := if chunkTarget < 6 ∨ chunkTarget - 6 > 0xffff then 0xffff else chunkTarget - 6
  bitmapFragments frag body (body.length + 1) 0 true

def tileBitmap (rleOk : Bool) (chunkTarget : Nat) (tile : Tile) : Option (List Bytes) :=
  let bodySize := 4 + 18 + paddedWidth tile.w * 3 * tile.h
  if bodySize + 6 ≤ chunkTarget then
    (rdpFpBuildBitmapUpdate rleOk 0x4000 (tile.x % 65536) (tile.y % 65536) tile.w tile.h tile.pixels
      (tile.w * 3)).map fun packet => [packet]
  else
    (rdpFpBuildBitmapBody rleOk bodySize (tile.x % 65536) (tile.y % 65536) tile.w tile.h tile.pixels
      (tile.w * 3)).bind fun body => sendBitmapFragments body chunkTarget

inductive PushStatus where
  | ready
  | failed
  | looping
  deriving DecidableEq

/-- The worker's side of the frame path: its cache and the packets it sent. -/
structure Worker where
  cache : Option BmpCache
  sent : List Bytes := []
  status : PushStatus := .ready

/-- What the worker knows of its connection: whether the n-th packet can be
sent, whether bitmaps may be compressed, and the largest packet. -/
structure Link where
  sends : Nat → Bool
  rleOk : Bool
  chunkTarget : Nat

def Worker.sendAll (link : Link) : List Bytes → Worker → Worker
  | [], worker => worker
  | packet :: rest, worker =>
    if link.sends worker.sent.length then
      sendAll link rest { worker with sent := worker.sent ++ [packet] }
    else { worker with status := .failed }

def Worker.pushTile (link : Link) (worker : Worker) (tile : Tile) : Worker :=
  match worker.status with
  | .ready =>
    match worker.cache with
    | some cache =>
      match tileOrders cache tile with
      | some (cache, packet) => { worker with cache := some cache }.sendAll link [packet]
      | none => { worker with status := .failed }
    | none =>
      match tileBitmap link.rleOk link.chunkTarget tile with
      | some packets => worker.sendAll link packets
      | none => { worker with status := .failed }
  | _ => worker

/-- The worker after the tiles of a frame: still looping if the walk is not at
its end. -/
def Worker.endFrame (worker : Worker) (ended : Bool) : Worker :=
  if worker.status = .ready ∧ ended = false then { worker with status := .looping } else worker

def pushFrameTiled (link : Link) (steps : Nat) (worker : Worker) (frame : Frame) : Worker :=
  if worker.status = .ready then
    ((frame.walk steps 0 0).1.foldl (Worker.pushTile link) worker).endFrame (frame.walk steps 0 0).2
  else worker

end RdpServer
