import Mathlib.Data.List.Induction
import RdpServer.Client.Orders
import RdpServer.Daemon.Tiles
import RdpServer.Lib.Mirror
import RdpServer.Lib.Rows

/-!
# Coherence of the bitmap cache

The worker's cache is a directory of the client's: each key it lists is that of
the bitmap the client holds in the slot's place. The key does not cover the tile's shape, so a
recalled bitmap may have other dimensions than the tile; and the client reads a position above
32767 as a negative one.
-/

namespace RdpServer.Client

open Bytes BitmapRle Mirror Option List UInt16

def bitmapOf (tile : Tile) : Bitmap := ⟨tile.w, tile.h, tile.pixels⟩

def paintOf (tile : Tile) : Paint := ⟨tile.x, tile.y, bitmapOf tile⟩

structure Sized (tile : Tile) : Prop where
  w : 1 ≤ tile.w ∧ tile.w ≤ 64
  h : 1 ≤ tile.h ∧ tile.h ≤ 64
  pixels : tile.pixels.length = 3 * tile.w * tile.h

/-- The worker's cache describes the client's, whose bitmaps are among `tiles`. -/
structure Coherent (tiles : List Tile) (cache : BmpCache) (client : Screen) : Prop where
  wf : cache.WF
  positive : 0 < cache.total
  cells : ∀ i : Fin 3, (cache.cell i).slots ≤ (client.cells i).toNat
  mirrors : Mirrors (· < cache.total) cache.slotToCell (fun b : Bitmap => rdpBmpcacheKey b.pixels)
    (fun b => ∃ tile ∈ tiles, Sized tile ∧ b = bitmapOf tile) cache.keyAt client.cache

def recalled (cache : BmpCache) (client : Screen) (tile : Tile) : Option Bitmap :=
  ((List.range cache.total).find? (cache.holds (rdpBmpcacheKey tile.pixels))).bind fun slot =>
    client.cache (cache.slotToCell slot)

section Step

variable {tiles : List Tile} {cache : BmpCache} {client : Screen} {tile : Tile}

theorem coherent_start {cells : Fin 3 → UInt32} (room : 0 < (rdpBmpcacheFit cells).2) :
    Coherent tiles (rdpBmpcacheFit cells).1 (Screen.start cells) where
  wf := BmpCache.wf_layoutCells _
  positive := room
  cells := by
    have limited (i : Fin 3) : limitedSlots (some cells) i ≤ (cells i).toNat := by
      simp only [limitedSlots]
      split <;> omega
    rintro ⟨_ | _ | _ | i, below⟩
    · exact limited 0
    · exact limited 1
    · exact limited 2
    · omega
  mirrors := Mirrors.empty fun slot _ => BmpCache.keyAt_layoutCells _ slot

theorem Coherent.allocated (coherent : Coherent tiles cache client) {slot : Nat}
    (inside : slot < cache.total) : client.allocated (cache.slotToCell slot) = true := by
  obtain ⟨i, below, place, _, within⟩ := coherent.wf.slotToCell_spec inside
  have slots := coherent.cells ⟨i, below⟩
  have small := coherent.wf.total_le
  have cellOf : (UInt8.ofNat i).toNat = i := by
    rw [UInt8.toNat_ofNat']
    omega
  have indexOf : (ofNat (slot - (cache.cell i).offset)).toNat =
      slot - (cache.cell i).offset := by
    rw [toNat_ofNat']
    omega
  simp only [Screen.allocated, place, cellOf, below, ↓reduceDIte, indexOf, decide_eq_true_eq]
  exact lt_of_lt_of_le within slots

variable {place : UInt8 × UInt16}

theorem tileCacheOrder_spec (sized : Sized tile) (key : UInt64)
    (cell : place.1.toNat ≤ 3) (index : place.2.toNat ≤ 0x7FFF) :
    ∃ order, tileCacheOrder place key tile = some order ∧ order.length ≤ 12315 ∧
      ∀ client : Screen, client.allocated place = true → Decodes client.order order
        { client with cache := Function.update client.cache place (some (bitmapOf tile)) } := by
  have w := sized.w
  have h := sized.h
  have area : tile.w * tile.h ≤ 64 * 64 := Nat.mul_le_mul w.2 h.2
  have area3 : 3 * tile.w * tile.h = 3 * (tile.w * tile.h) := Nat.mul_assoc _ _ _
  obtain ⟨orders, wf, -, compressed, denoted, cost⟩ := @orders_placed _ _ (64 * 64 * 3 + 512)
    tile.pixels w h (by omega)
  obtain ⟨final, decoded, image⟩ := decompress_image wf w h sized.pixels denoted
    (le_of_eq (length_replicate (n := 3 * tile.w * tile.h) (a := (0 : UInt8))).symm)
  have width : (ofNat tile.w).toNat = tile.w := by
    rw [toNat_ofNat']
    omega
  have height : (ofNat tile.h).toNat = tile.h := by
    rw [toNat_ofNat']
    omega
  let cb : CacheBitmap := {
    cacheId := place.1
    cacheIndex := place.2
    bpp := 24
    width := ofNat tile.w
    height := ofNat tile.h
    key := key
    compressed := true
    data := Order.wireAll orders }
  have inRange : cb.InRange := ⟨cell, by rw [width]; omega, by rw [height]; omega, index,
    by change (Order.wireAll orders).length ≤ _; omega⟩
  have body : cb.body.length ≤ 18 + (Order.wireAll orders).length := CacheBitmap.length_body.2
  have stored (client : Screen) (allocated : client.allocated place = true) :
      client.store cb = some
        { client with cache := Function.update client.cache place (some (bitmapOf tile)) } := by
    simp only [Screen.store, cb, width, height, allocated, decoded, image]
    rfl
  have built : rdpOrderBuildCacheBitmapV2 (ordersCap - 2) cb = some (cb.wire 5) :=
    rdpOrderBuildCacheBitmapV2_eq inRange rfl (by decide)
      (by simp only [ordersCap]; omega) (by omega)
  refine ⟨cb.wire 5, ?_, ?_, fun client allocated =>
    decodes_store inRange rfl (by omega) (stored client allocated)⟩
  · rw [tileCacheOrder, compressed]
    exact built
  · simp only [CacheBitmap.wire, length_append, length_singleton, length_leBytes]
    omega

theorem tileMemblt_inRange (sized : Sized tile) (place : UInt8 × UInt16)
    (inRange : tile.x ≤ 65535 ∧ tile.y ≤ 65535) : (tileMemblt place tile).InRange := by
  have w := sized.w
  have h := sized.h
  refine ⟨?_, ?_, ?_, ?_, ?_, ?_⟩ <;> simp only [tileMemblt] <;> omega

/-- The update of a tile within the coordinates, once its place is known and the order that
stores it is made. -/
theorem tileOrders_eq (sized : Sized tile) (inRange : tile.x ≤ 65535 ∧ tile.y ≤ 65535) {hit : Bool}
    {next : BmpCache} {stored : Bytes}
    (looked : rdpBmpcacheLookup cache (rdpBmpcacheKey tile.pixels) = some (hit, place, next))
    (made : (if hit then some [] else tileCacheOrder place (rdpBmpcacheKey tile.pixels) tile) =
      some stored) (short : stored.length ≤ 12315) :
    tileOrders cache tile = some (next, ordersPacket
      (leBytes 2 (if hit then 1 else 2) ++ (stored ++ (tileMemblt place tile).wire))) := by
  have blitRange := tileMemblt_inRange sized place inRange
  simp only [tileOrders, looked, bind_some, made, rdpOrderBuildMemblt_eq blitRange
    (by simp only [ordersCap]; omega : 21 ≤ ordersCap - (2 + stored.length))]
  rw [rdpFpBuildUpdate_orders (by
    rw [length_append, length_append, length_leBytes, Memblt.length_wire]; omega),
    map_some, append_assoc]

theorem slotToCell_bounds (wf : cache.WF) {slot : Nat} (inside : slot < cache.total) :
    (cache.slotToCell slot).1.toNat ≤ 3 ∧ (cache.slotToCell slot).2.toNat ≤ 0x7FFF := by
  obtain ⟨i, below, place, _, _⟩ := wf.slotToCell_spec inside
  have small := wf.total_le
  rw [place, UInt8.toNat_ofNat', toNat_ofNat']
  omega

/-- A tile within the coordinates can be sent, and leaves the cache usable. -/
theorem tileOrders_some (wf : cache.WF) (positive : 0 < cache.total) (sized : Sized tile)
    (inRange : tile.x ≤ 65535 ∧ tile.y ≤ 65535) :
    ∃ next packet, tileOrders cache tile = some (next, packet) ∧ next.WF ∧ 0 < next.total := by
  obtain ⟨result, looked, looks⟩ := wf.lookup_looked positive (rdpBmpcacheKey tile.pixels)
  cases looks with
  | hit slot inside found held =>
    exact ⟨cache, _, tileOrders_eq sized inRange looked rfl (Nat.zero_le _), wf, positive⟩
  | miss slot used inside found filled spare =>
    obtain ⟨cell, index⟩ := slotToCell_bounds wf inside
    obtain ⟨order, built, short, -⟩ := tileCacheOrder_spec sized (rdpBmpcacheKey tile.pixels)
      cell index
    exact ⟨_, _, tileOrders_eq sized inRange looked built short, filled, positive⟩

theorem signed16_small {value : Nat} (small : value ≤ 64) : signed16 value = value := by
  rw [signed16, if_pos (by omega)]

/-- What the client paints for the MemBlt of a tile from the bitmap in its place. -/
def blitPaint (bitmap : Bitmap) (tile : Tile) : Paint :=
  ⟨signed16 tile.x, signed16 tile.y, bitmap.crop 0 0 tile.w tile.h⟩

theorem blit_tileMemblt (sized : Sized tile) {bitmap : Bitmap}
    (held : client.cache place = some bitmap) :
    client.blit (seen (tileMemblt place tile)) = some { client with
      painted := client.painted ++ [blitPaint bitmap tile] } := by
  simp only [Screen.blit, seen, tileMemblt, held,
    Int.toNat_natCast, signed16_small sized.w.2, signed16_small sized.h.2]
  rfl

theorem crop_bitmapOf (sized : Sized tile) :
    (bitmapOf tile).crop 0 0 tile.w tile.h = bitmapOf tile :=
  crop_self (bitmapOf tile) sized.pixels

/-- The position is below 2^15 in both directions. -/
def Near (tile : Tile) : Prop := tile.x ≤ 0x7FFF ∧ tile.y ≤ 0x7FFF

theorem position_eq_iff (inRange : tile.x ≤ 65535 ∧ tile.y ≤ 65535) :
    signed16 tile.x = tile.x ∧ signed16 tile.y = tile.y ↔ Near tile := by
  unfold signed16 Near
  split_ifs <;> omega

theorem crop_eq_iff {bitmap : Bitmap} (sized : Sized tile) {other : Tile}
    (otherSized : Sized other)
    (same : bitmap = bitmapOf other) (octets : other.pixels = tile.pixels) :
    bitmap.crop 0 0 tile.w tile.h = bitmapOf tile ↔ bitmap.width = tile.w := by
  subst same
  have area : other.w * other.h = tile.w * tile.h := by
    have first := otherSized.pixels
    have second := sized.pixels
    rw [Nat.mul_assoc] at first second
    rw [octets] at first
    omega
  have h := sized.h
  have w := sized.w
  constructor
  · intro painted
    by_contra apart
    exact crop_ne area (by omega) apart painted
  · intro width
    have widthSame : other.w = tile.w := width
    have heightSame : other.h = tile.h := by
      rw [widthSame] at area
      exact Nat.eq_of_mul_eq_mul_left (by omega) area
    have bitmapSame : bitmapOf other = bitmapOf tile := by
      rw [bitmapOf, bitmapOf, widthSame, heightSame, octets]
    rw [bitmapSame, crop_bitmapOf sized]

theorem blitPaint_eq_iff (inRange : tile.x ≤ 65535 ∧ tile.y ≤ 65535) (bitmap : Bitmap) :
    blitPaint bitmap tile = paintOf tile ↔
      Near tile ∧ bitmap.crop 0 0 tile.w tile.h = bitmapOf tile := by
  rw [blitPaint, paintOf, Paint.mk.injEq, ← and_assoc, position_eq_iff inRange]

/-- The condition under which a tile is painted right: its position is below 2^15, and a
bitmap that the client recalls for it has its width. -/
def Fits (cache : BmpCache) (client : Screen) (tile : Tile) : Prop :=
  Near tile ∧ ∀ bitmap, recalled cache client tile = some bitmap → bitmap.width = tile.w

def NoCollision (tiles : List Tile) : Prop :=
  ∀ first ∈ tiles, ∀ second ∈ tiles,
    rdpBmpcacheKey first.pixels = rdpBmpcacheKey second.pixels → first.pixels = second.pixels

/-- The update of a tile keeps the caches coherent, and paints the tile as far as it fits. -/
def Paints (tiles : List Tile) (cache : BmpCache) (client : Screen) (tile : Tile)
    (next : BmpCache) : Prop :=
  ∃ packet after painted, tileOrders cache tile = some (next, packet) ∧
    client.receive packet = some after ∧ Coherent tiles next after ∧
    after.painted = client.painted ++ [painted] ∧
    (painted = paintOf tile ↔ Fits cache client tile)

section

variable (coherent : Coherent tiles cache client) (member : tile ∈ tiles) (sized : Sized tile)
  (inRange : tile.x ≤ 65535 ∧ tile.y ≤ 65535)
include coherent member sized inRange

theorem Coherent.paints_hit (distinct : NoCollision tiles) {slot : Nat}
    (inside : slot < cache.total)
    (looked : rdpBmpcacheLookup cache (rdpBmpcacheKey tile.pixels) =
      some (true, cache.slotToCell slot, cache))
    (found : (range cache.total).find? (cache.holds (rdpBmpcacheKey tile.pixels)) = some slot)
    (held : cache.keyAt slot = some (rdpBmpcacheKey tile.pixels)) :
    Paints tiles cache client tile cache := by
  obtain ⟨bitmap, stored, keyed, other, otherIn, otherSized, shape⟩ :=
    coherent.mirrors slot _ inside held
  have octets : other.pixels = tile.pixels := by
    rw [shape] at keyed
    exact distinct other otherIn tile member keyed
  have painted := blit_tileMemblt sized stored
  have blitRange := tileMemblt_inRange sized (cache.slotToCell slot) inRange
  have reads := decodes_oneOrder (decodes_blit blitRange painted)
  refine ⟨_, _, _, tileOrders_eq sized inRange looked rfl (Nat.zero_le _),
    receive_ordersPacket (by decide) ?_ reads, ?_, rfl, ?_⟩
  · rw [nil_append, Memblt.length_wire]
    decide
  · exact ⟨coherent.wf, coherent.positive, coherent.cells, coherent.mirrors⟩
  · have recalls : recalled cache client tile = some bitmap := by
      rw [recalled, found, bind_some, stored]
    rw [blitPaint_eq_iff inRange, crop_eq_iff sized otherSized shape octets]
    refine and_congr_right fun _ => ⟨fun width found' same => ?_, fun fits => fits bitmap recalls⟩
    rw [recalls] at same
    cases same
    exact width

theorem Coherent.paints_miss {slot used : Nat} (inside : slot < cache.total)
    (looked : rdpBmpcacheLookup cache (rdpBmpcacheKey tile.pixels) = some (false,
      cache.slotToCell slot, { cache.fill (rdpBmpcacheKey tile.pixels) slot with used }))
    (found : (range cache.total).find? (cache.holds (rdpBmpcacheKey tile.pixels)) = none)
    (wf : ({ cache.fill (rdpBmpcacheKey tile.pixels) slot with used } : BmpCache).WF) :
    Paints tiles cache client tile { cache.fill (rdpBmpcacheKey tile.pixels) slot with used } := by
  have size := coherent.wf.size
  have small := coherent.wf.total_le
  obtain ⟨cell, index⟩ := slotToCell_bounds coherent.wf inside
  obtain ⟨order, built, short, storeReads⟩ := tileCacheOrder_spec sized
    (rdpBmpcacheKey tile.pixels) cell index
  have blitRange := tileMemblt_inRange sized (cache.slotToCell slot) inRange
  have reads : Decodes (client.orders 2) _ _ := .bind
    (storeReads client (coherent.allocated inside)) (decodes_oneOrder
    (decodes_blit blitRange (blit_tileMemblt sized (Function.update_self _ _ _))))
  have filled : ∀ i, ({ cache.fill (rdpBmpcacheKey tile.pixels) slot with used } :
      BmpCache).keyAt i = if i = slot then _ else cache.keyAt i :=
    BmpCache.keyAt_set rfl (by omega)
  refine ⟨_, _, _, tileOrders_eq sized inRange looked built short,
    receive_ordersPacket (by decide) ?_ reads, ?_, rfl, ?_⟩
  · rw [length_append, Memblt.length_wire]
    omega
  · refine ⟨wf, coherent.positive, coherent.cells, Mirrors.fill coherent.mirrors
      (fun first second firstIn secondIn same =>
        coherent.wf.slotToCell_inj firstIn secondIn same) inside ⟨tile, member, sized, rfl⟩ ?_ ?_⟩
    · rw [filled, if_pos rfl]
      rfl
    · intro other apart
      rw [filled, if_neg apart]
  · have missed : recalled cache client tile = none := by
      rw [recalled, found, bind_none]
    rw [blitPaint_eq_iff inRange]
    refine and_congr_right fun _ => ⟨fun _ bitmap recalls => ?_, fun _ => crop_bitmapOf sized⟩
    rw [missed] at recalls
    cases recalls

theorem Coherent.paints (distinct : NoCollision tiles) :
    ∃ next, Paints tiles cache client tile next := by
  obtain ⟨result, looked, looks⟩ :=
    coherent.wf.lookup_looked coherent.positive (rdpBmpcacheKey tile.pixels)
  cases looks with
  | hit slot inside found held =>
    exact ⟨_, coherent.paints_hit member sized inRange distinct inside looked found held⟩
  | miss slot used inside found wf spare =>
    exact ⟨_, coherent.paints_miss member sized inRange inside looked found wf⟩

end

end Step

section Frames

theorem sized_tileAt {frame : Frame} {x y : Nat} (inRow : x < frame.w.toNat)
    (inColumn : y < frame.h.toNat) : Sized (frame.tileAt x y) := by
  have readLength (offset count : Nat) : (readBlock frame.pixels offset count).length = count := by
    rw [readBlock, length_map, length_range]
  refine ⟨?_, ?_, ?_⟩
  · simp only [Frame.tileAt]
    split <;> omega
  · simp only [Frame.tileAt]
    split <;> omega
  · simp only [Frame.tileAt]
    rw [Rows.length_flatMap_range _ _ _ (fun row _ => readLength _ _), Nat.mul_comm 3]

theorem sized_walk (frame : Frame) (steps : Nat) :
    ∀ tile ∈ (frame.walk steps 0 0).1, Sized tile := by
  intro tile member
  obtain ⟨x, y, -, -, inRow, inColumn, rfl⟩ := Frame.mem_walk rfl rfl member
  exact sized_tileAt inRow inColumn

/-- The tiles of a sequence of frames, up to the first frame whose loops do not
end within the steps. -/
def visited (steps : Nat) : List Frame → List Tile
  | [] => []
  | frame :: rest =>
    (frame.walk steps 0 0).1 ++ if (frame.walk steps 0 0).2 then visited steps rest else []

theorem sized_visited (steps : Nat) (frames : List Frame) :
    ∀ tile ∈ visited steps frames, Sized tile := by
  induction frames with
  | nil =>
    intro tile member
    cases member
  | cons frame rest ih =>
    intro tile member
    rcases mem_append.1 member with here | later
    · exact sized_walk frame steps tile here
    · split at later
      · exact ih tile later
      · cases later

end Frames

variable {worker : Worker}

section Run

variable {link : Link}

def startWorker (cells : Fin 3 → UInt32) : Worker := { cache := some (rdpBmpcacheFit cells).1 }

def pushTiles (link : Link) (tiles : List Tile) (worker : Worker) : Worker :=
  tiles.foldl (Worker.pushTile link) worker

structure SameOutput (first second : Worker) : Prop where
  cache : first.cache = second.cache
  sent : first.sent = second.sent
  failed : first.status = .failed ↔ second.status = .failed

theorem pushTiles_stopped (stopped : worker.status ≠ .ready) (tiles : List Tile) :
    pushTiles link tiles worker = worker := by
  refine foldl_fixed' (fun tile => ?_) tiles
  unfold Worker.pushTile
  split
  · next ready => exact absurd ready stopped
  · rfl

theorem pushFrames_stopped (stopped : worker.status ≠ .ready) (steps : Nat) (frames : List Frame) :
    frames.foldl (pushFrameTiled link steps) worker = worker :=
  foldl_fixed' (fun _ => if_neg stopped) frames

theorem pushTile_status (tile : Tile) (calm : worker.status ≠ .looping) :
    (worker.pushTile link tile).status ≠ .looping := by
  have sendAll : ∀ (packets : List Bytes) (worker : Worker), worker.status ≠ .looping →
      (worker.sendAll link packets).status ≠ .looping := by
    intro packets
    induction packets with
    | nil => intro worker calm; exact calm
    | cons packet rest ih =>
      intro worker calm
      rw [Worker.sendAll]
      split
      · exact ih _ calm
      · exact nofun
  unfold Worker.pushTile
  split
  · split
    all_goals
      split
      · exact sendAll _ _ calm
      · exact nofun
  · exact calm

theorem pushFrames_eq_pushTiles (link : Link) (steps : Nat) (frames : List Frame) :
    ∀ worker : Worker, worker.status ≠ .looping →
      SameOutput (frames.foldl (pushFrameTiled link steps) worker)
        (pushTiles link (visited steps frames) worker) := by
  induction frames with
  | nil => intro worker _; exact ⟨rfl, rfl, Iff.rfl⟩
  | cons frame rest ih =>
    intro worker calm
    by_cases ready : worker.status = .ready
    · have split : pushTiles link (visited steps (frame :: rest)) worker =
          pushTiles link (if (frame.walk steps 0 0).2 then visited steps rest else [])
            (pushTiles link (frame.walk steps 0 0).1 worker) := by
        rw [visited, pushTiles, foldl_append]
        rfl
      generalize walked : pushTiles link (frame.walk steps 0 0).1 worker = middle at split
      have calmMiddle : middle.status ≠ .looping := by
        rw [← walked]
        exact Runs.invariant (P := fun worker : Worker => worker.status ≠ .looping)
          (fun _ tile => pushTile_status tile) calm _
      have pushed : pushFrameTiled link steps worker frame =
          middle.endFrame (frame.walk steps 0 0).2 := by
        rw [pushFrameTiled, if_pos ready, ← walked]
        rfl
      rw [foldl_cons, pushed, split]
      cases (frame.walk steps 0 0).2 with
      | true =>
        have ended : middle.endFrame true = middle := if_neg fun both => nomatch both.2
        rw [ended]
        exact ih middle calmMiddle
      | false =>
        by_cases going : middle.status = .ready
        · have looping : middle.endFrame false = { middle with status := .looping } :=
            if_pos ⟨going, rfl⟩
          rw [looping, pushFrames_stopped (by exact nofun)]
          refine ⟨rfl, rfl, ?_⟩
          change PushStatus.looping = .failed ↔ middle.status = .failed
          rw [going]
          decide
        · have ended : middle.endFrame false = middle := if_neg fun both => going both.1
          rw [ended, pushFrames_stopped going]
          exact ⟨rfl, rfl, Iff.rfl⟩
    · rw [pushFrames_stopped ready, pushTiles_stopped ready]
      exact ⟨rfl, rfl, Iff.rfl⟩

end Run

section Painted

variable {link : Link} {cells : Fin 3 → UInt32} {cache : BmpCache} {tile : Tile}

/-- In the state before the tile at `index`, a bitmap that the client recalls
for the tile has its width, and the tile is below 2^15. -/
def TileFits (link : Link) (cells : Fin 3 → UInt32) (tiles : List Tile) (index : Nat) : Prop :=
  ∀ cache client tile, (pushTiles link (tiles.take index) (startWorker cells)).cache = some cache →
    (Screen.start cells).receiveAll (pushTiles link (tiles.take index) (startWorker cells)).sent =
      some client →
    tiles[index]? = some tile → Fits cache client tile

/-- How far a worker has come with the tiles `done`: all of them are sent and
the caches are coherent, or it failed at a tile that cannot be sent. -/
inductive Progress (link : Link) (all done : List Tile) (worker : Worker) (client : Screen) : Prop
  | ready (status : worker.status = .ready) (sent : worker.sent.length = done.length)
      (cache : BmpCache) (cached : worker.cache = some cache)
      (coherent : Coherent all cache client)
  | failed (status : worker.status = .failed) (tile : Tile)
      (next : done[worker.sent.length]? = some tile)
      (cause : 65535 < tile.x ∨ 65535 < tile.y ∨ link.sends worker.sent.length = false)

theorem tileFits_append {tiles : List Tile} (more : List Tile) {index : Nat}
    (inside : index < tiles.length) :
    TileFits link cells (tiles ++ more) index ↔ TileFits link cells tiles index := by
  unfold TileFits
  rw [take_append_of_le_length (le_of_lt inside), getElem?_append_left inside]

def PaintedRight (link : Link) (cells : Fin 3 → UInt32) (done : List Tile) (count : Nat)
    (painted : List Paint) : Prop :=
  painted = (done.take count).map paintOf ↔ ∀ index < count, TileFits link cells done index

theorem PaintedRight.idle {done : List Tile} {count : Nat} {painted : List Paint}
    (right : PaintedRight link cells done count painted) (few : count ≤ done.length)
    (more : List Tile) : PaintedRight link cells (done ++ more) count painted := by
  rw [PaintedRight, take_append_of_le_length few]
  refine right.trans (forall₂_congr fun index inside => ?_)
  exact (tileFits_append more (lt_of_lt_of_le inside few)).symm

theorem PaintedRight.sent {done : List Tile} {painted : List Paint} {paint : Paint}
    {client : Screen} (right : PaintedRight link cells done done.length painted)
    (cached : (pushTiles link done (startWorker cells)).cache = some cache)
    (received : (Screen.start cells).receiveAll (pushTiles link done (startWorker cells)).sent =
      some client)
    (here : paint = paintOf tile ↔ Fits cache client tile) :
    PaintedRight link cells (done ++ [tile]) (done.length + 1) (painted ++ [paint]) := by
  have before : TileFits link cells (done ++ [tile]) done.length ↔ Fits cache client tile := by
    rw [TileFits, take_left, getElem?_concat_length]
    constructor
    · intro fits
      exact fits cache client tile cached received rfl
    · intro fits cache' client' tile' cached' received' same
      rw [cached] at cached'
      rw [received] at received'
      cases cached'
      cases received'
      cases same
      exact fits
  rw [PaintedRight, take_length] at right
  have whole : (done ++ [tile]).take (done.length + 1) = done ++ [tile] :=
    take_of_length_le (by rw [length_append]; exact le_rfl)
  rw [PaintedRight, whole, map_append, map_singleton]
  constructor
  · intro equal index inside
    obtain ⟨past, last⟩ := append_inj' equal rfl
    rcases Nat.lt_succ_iff_lt_or_eq.1 inside with earlier | rfl
    · exact (tileFits_append [tile] earlier).2 (right.1 past index earlier)
    · exact before.2 (here.1 (cons.inj last).1)
  · intro fits
    have past := right.2 fun index inside =>
      (tileFits_append [tile] inside).1 (fits index (Nat.lt_succ_of_lt inside))
    rw [past, here.2 (before.1 (fits done.length (Nat.lt_succ_self _)))]

theorem tileOrders_none (outside : 65535 < tile.x ∨ 65535 < tile.y) :
    tileOrders cache tile = none := by
  have refused (place : UInt8 × UInt16) (cap : Nat) :
      rdpOrderBuildMemblt cap (tileMemblt place tile) = none :=
    rdpOrderBuildMemblt_none cap (by simp only [tileMemblt]; omega)
  simp [tileOrders, refused]

theorem pushTiles_painted (link : Link) {all : List Tile} (room : 0 < (rdpBmpcacheFit cells).2)
    (distinct : NoCollision all) (sized : ∀ tile ∈ all, Sized tile) (done : List Tile) :
    (∀ tile ∈ done, tile ∈ all) →
    ∃ client, (Screen.start cells).receiveAll (pushTiles link done (startWorker cells)).sent =
        some client ∧
      Progress link all done (pushTiles link done (startWorker cells)) client ∧
      PaintedRight link cells done (pushTiles link done (startWorker cells)).sent.length
        client.painted := by
  induction done using reverseRecOn with
  | nil =>
    intro _
    refine ⟨Screen.start cells, rfl, .ready rfl rfl _ rfl (coherent_start room), ?_⟩
    exact ⟨fun _ index absurd => (Nat.not_lt_zero _ absurd).elim, fun _ => rfl⟩
  | append_singleton done tile ih =>
    intro within
    have member : tile ∈ all := within tile (mem_append_right _ (mem_singleton_self _))
    obtain ⟨client, received, progress, right⟩ :=
      ih fun earlier here => within earlier (mem_append_left _ here)
    have stepped : pushTiles link (done ++ [tile]) (startWorker cells) =
        (pushTiles link done (startWorker cells)).pushTile link tile := by
      rw [pushTiles, foldl_append]
      rfl
    rw [stepped]
    cases progress with
    | failed status refused next cause =>
      have short := (List.getElem?_eq_some_iff.1 next).1
      have stopped : (pushTiles link done (startWorker cells)).pushTile link tile =
          pushTiles link done (startWorker cells) :=
        pushTiles_stopped (by rw [status]; decide) [tile]
      rw [stopped]
      refine ⟨client, received, .failed status refused ?_ cause,
        right.idle (le_of_lt short) [tile]⟩
      rw [getElem?_append_left short, next]
    | ready status sent cache cached coherent =>
      have next : (done ++ [tile])[(pushTiles link done (startWorker cells)).sent.length]? =
          some tile := by
        rw [sent, getElem?_concat_length]
      by_cases outside : 65535 < tile.x ∨ 65535 < tile.y
      · simp only [Worker.pushTile, status, cached, tileOrders_none outside]
        exact ⟨client, received, .failed rfl tile next (by omega),
          right.idle (le_of_eq sent) [tile]⟩
      · obtain ⟨cache', packet, after, paint, orders, carried, coherent', painted, here⟩ :=
          coherent.paints member (sized tile member) (by omega) distinct
        simp only [Worker.pushTile, status, cached, orders, Worker.sendAll]
        split
        · refine ⟨after, ?_, .ready rfl ?_ cache' rfl coherent', ?_⟩
          · rw [Screen.receiveAll, foldlM_append]
            rw [Screen.receiveAll] at received
            rw [received]
            simp only [bind, bind_some, foldlM_cons, carried]
            rfl
          · rw [length_append, length_append, sent]
            rfl
          · rw [sent] at right
            rw [length_append, sent, painted]
            exact right.sent cached received here
        · next down =>
            exact ⟨client, received,
              .failed rfl tile next (.inr (.inr (Bool.not_eq_true _ ▸ down))),
              right.idle (le_of_eq sent) [tile]⟩

def pushFrames (link : Link) (steps : Nat) (cells : Fin 3 → UInt32) (frames : List Frame) :
    Worker :=
  frames.foldl (pushFrameTiled link steps) (startWorker cells)

/-- **Coherence of the bitmap cache**. Over every sequence of frames on the
cached-order path, the client carries out every update; unless a position does
not fit sixteen bits or a send fails, every tile is sent; and the tiles sent are
painted with their pixels and dimensions at their positions exactly if every
bitmap that is recalled for a tile has the tile's width and every position is one
that the client reads as it was meant. -/
theorem painted_eq_tiles_iff_fits (link : Link) (steps : Nat) {cells : Fin 3 → UInt32}
    (room : 0 < (rdpBmpcacheFit cells).2) (frames : List Frame)
    (distinct : NoCollision (visited steps frames)) :
    ∃ client,
      (Screen.start cells).receiveAll (pushFrames link steps cells frames).sent = some client ∧
      ((pushFrames link steps cells frames).sent.length = (visited steps frames).length ∨
        ∃ tile, (visited steps frames)[(pushFrames link steps cells frames).sent.length]? =
            some tile ∧
          (65535 < tile.x ∨ 65535 < tile.y ∨
            link.sends (pushFrames link steps cells frames).sent.length = false)) ∧
      (client.painted = ((visited steps frames).take
          (pushFrames link steps cells frames).sent.length).map paintOf ↔
        ∀ index < (pushFrames link steps cells frames).sent.length,
          TileFits link cells (visited steps frames) index) := by
  have same := pushFrames_eq_pushTiles link steps frames (startWorker cells) nofun
  obtain ⟨client, received, progress, right⟩ := pushTiles_painted link room distinct
    (sized_visited steps frames) (visited steps frames) fun _ member => member
  rw [pushFrames, same.sent]
  refine ⟨client, received, ?_, right⟩
  cases progress with
  | ready _ sent _ _ _ => exact .inl sent
  | failed _ tile next cause => exact .inr ⟨tile, next, cause⟩

def tallFrame : Frame := ⟨0, 0, 1, 2, [1, 2, 3, 4, 5, 6], rfl⟩

def wideFrame : Frame := ⟨0, 0, 2, 1, [1, 2, 3, 4, 5, 6], rfl⟩

def openLink : Link := ⟨fun _ => true, true, 0x3F80⟩

/-- A frame of two tiles, and one of them again at another place. -/
def seenTwice : List Frame :=
  [⟨0, 0, 1, 65, List.replicate 195 7, List.length_replicate⟩, ⟨9, 9, 1, 1, [7, 7, 7], rfl⟩]

theorem painted_eq_tiles_seen_twice :
    (visited 8 seenTwice).length = 3 ∧
    ∃ client, (Screen.start fun _ => 8).receiveAll
        (pushFrames openLink 8 (fun _ => 8) seenTwice).sent = some client ∧
      ((pushFrames openLink 8 (fun _ => 8) seenTwice).sent.length =
          (visited 8 seenTwice).length ∨
        ∃ tile, (visited 8 seenTwice)[
            (pushFrames openLink 8 (fun _ => 8) seenTwice).sent.length]? = some tile ∧
          (65535 < tile.x ∨ 65535 < tile.y ∨ openLink.sends
            (pushFrames openLink 8 (fun _ => 8) seenTwice).sent.length = false)) ∧
      (client.painted = ((visited 8 seenTwice).take
          (pushFrames openLink 8 (fun _ => 8) seenTwice).sent.length).map paintOf ↔
        ∀ index < (pushFrames openLink 8 (fun _ => 8) seenTwice).sent.length,
          TileFits openLink (fun _ => 8) (visited 8 seenTwice) index) := by
  have distinct : NoCollision (visited 8 seenTwice) := by
    unfold NoCollision
    decide +kernel
  exact ⟨by decide +kernel, painted_eq_tiles_iff_fits openLink 8 (by decide) seenTwice distinct⟩

/-- A tall frame and a wide one of the same octets: both tiles are sent and the
hash does not collide, but the second is painted from the bitmap of the first. -/
theorem painted_ne_tiles_tall_wide :
    0 < (rdpBmpcacheFit fun _ => 8).2 ∧ NoCollision (visited 4 [tallFrame, wideFrame]) ∧
      (pushFrames openLink 4 (fun _ => 8) [tallFrame, wideFrame]).status = .ready ∧
      ¬ ∃ client, (Screen.start fun _ => 8).receiveAll
          (pushFrames openLink 4 (fun _ => 8) [tallFrame, wideFrame]).sent = some client ∧
        client.painted = (visited 4 [tallFrame, wideFrame]).map paintOf := by
  have distinct : NoCollision (visited 4 [tallFrame, wideFrame]) := by
    unfold NoCollision
    decide +kernel
  have painted : ((Screen.start fun _ => 8).receiveAll
      (pushFrames openLink 4 (fun _ => 8) [tallFrame, wideFrame]).sent).map Screen.painted ≠
        some ((visited 4 [tallFrame, wideFrame]).map paintOf) := by
    decide +kernel
  refine ⟨by decide, distinct, by decide +kernel, ?_⟩
  rintro ⟨client, received, right⟩
  exact painted (by rw [received, map_some, right])

end Painted

end RdpServer.Client
