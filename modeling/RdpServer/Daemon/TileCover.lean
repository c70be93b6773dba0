import RdpServer.Client.BitmapData
import RdpServer.Daemon.Fragments
import RdpServer.Daemon.CacheCoherence

/-!
# The cover of a frame by its tiles

The two loops of `push_frame_tiled` count in the sixteen-bit type of the frame's
own size: above 65472 = 1023 · 64 the counter goes back to zero before it reaches the size. With
a bitmap cache the push also stops at a tile whose position is above 65535, which no MemBlt
can name. `push_tiled_iff` says which frames are pushed as a whole.
-/

namespace RdpServer

open Bytes Client Daemon

def Tile.covers (tile : Tile) (px py : Nat) : Bool :=
  tile.x ≤ px ∧ px < tile.x + tile.w ∧ tile.y ≤ py ∧ py < tile.y + tile.h

/-- What the tiles of a frame have to be: small, and one for each pixel. -/
structure Frame.Tiled (frame : Frame) (tiles : List Tile) : Prop where
  small : ∀ tile ∈ tiles, tile.w ≤ 64 ∧ tile.h ≤ 64
  once : ∀ px py, px < frame.w.toNat → py < frame.h.toNat →
    tiles.countP (·.covers (frame.x.toNat + px) (frame.y.toNat + py)) = 1

/-- Both sizes can be passed by the counters, or there are no rows. -/
def Frame.FitsCounters (frame : Frame) : Prop :=
  frame.h.toNat = 0 ∨ frame.w.toNat ≤ 65472 ∧ frame.h.toNat ≤ 65472

/-- The last tile of the frame, if it has one, begins at 65535 at most. -/
def Frame.FitsCoords (frame : Frame) : Prop :=
  frame.w.toNat = 0 ∨ frame.h.toNat = 0 ∨
    frame.x.toNat + (frame.w.toNat - 1) / 64 * 64 ≤ 65535 ∧
      frame.y.toNat + (frame.h.toNat - 1) / 64 * 64 ≤ 65535

namespace Frame

variable {frame : Frame} {steps x y : Nat}

section Fits

variable (columns : frame.w.toNat ≤ 65472)

include columns

theorem walk_ends_row (inColumn : y < frame.h.toNat)
    (below : ∃ steps, (frame.walk steps ((y + 64) % 65536) 0).2 = true) (count : Nat) :
    ∀ x, frame.w.toNat ≤ x + 64 * count → ∃ steps, (frame.walk steps y x).2 = true := by
  induction count with
  | zero =>
    intro x past
    obtain ⟨steps, ends⟩ := below
    exact ⟨steps + 1, by rw [walk_row inColumn (by omega), ends]⟩
  | succ count ih =>
    intro x reach
    rcases lt_or_ge x frame.w.toNat with inRow | past
    · obtain ⟨steps, ends⟩ := ih ((x + 64) % 65536) (by omega)
      exact ⟨steps + 1, by rw [walk_tile inColumn inRow, ends]⟩
    · obtain ⟨steps, ends⟩ := below
      exact ⟨steps + 1, by rw [walk_row inColumn past, ends]⟩

variable (rows : frame.h.toNat ≤ 65472)

include rows

theorem walk_ends (count : Nat) :
    ∀ y, frame.h.toNat ≤ y + 64 * count → ∃ steps, (frame.walk steps y 0).2 = true := by
  induction count with
  | zero =>
    intro y past
    exact ⟨1, by rw [walk_done (by omega)]⟩
  | succ count ih =>
    intro y reach
    rcases lt_or_ge y frame.h.toNat with inColumn | past
    · exact walk_ends_row columns inColumn (ih _ (by omega)) (frame.w.toNat) 0 (by omega)
    · exact ⟨1, by rw [walk_done past]⟩

/-- The pixels that the loops still have to visit at the counters `y` and `x`. -/
theorem count_walk {px py : Nat} (inRow : px < frame.w.toNat) (inColumn : py < frame.h.toNat) :
    ∀ y x, (frame.walk steps y x).2 = true →
      (frame.walk steps y x).1.countP (·.covers (frame.x.toNat + px) (frame.y.toNat + py)) =
        if y + 64 ≤ py ∨ y ≤ py ∧ x ≤ px then 1 else 0 := by
  induction steps with
  | zero =>
    intro y x ends
    cases ends
  | succ steps ih =>
    intro y x ends
    rcases lt_or_ge y frame.h.toNat with started | past
    · rcases lt_or_ge x frame.w.toNat with inside | past
      · rw [walk_tile started inside] at ends ⊢
        have here : (frame.tileAt x y).covers (frame.x.toNat + px) (frame.y.toNat + py) =
            decide (x ≤ px ∧ px < x + 64 ∧ y ≤ py ∧ py < y + 64) := by
          simp only [tileAt, Tile.covers]
          split_ifs <;> exact decide_eq_decide.2 (by omega)
        simp only [List.countP_cons, ih _ _ ends, here, decide_eq_true_eq]
        split_ifs <;> omega
      · rw [walk_row started past] at ends ⊢
        rw [ih _ _ ends]
        split_ifs <;> omega
    · rw [walk_done past, List.countP_nil, if_neg (by omega)]

end Fits

theorem walk_wide (wide : 65472 < frame.w.toNat) (inColumn : y < frame.h.toNat) :
    ∀ x, x < 65536 → x % 64 = 0 → (frame.walk steps y x).2 = false := by
  induction steps with
  | zero =>
    intro x below aligned
    rfl
  | succ steps ih =>
    intro x below aligned
    rw [walk_tile inColumn (by omega)]
    exact ih _ (by omega) (by omega)

theorem walk_high (high : 65472 < frame.h.toNat) :
    ∀ y x, y < 65536 → y % 64 = 0 → (frame.walk steps y x).2 = false := by
  induction steps with
  | zero =>
    intro y x below aligned
    rfl
  | succ steps ih =>
    intro y x below aligned
    rcases lt_or_ge x frame.w.toNat with inRow | past
    · rw [walk_tile (by omega) inRow]
      exact ih _ _ below aligned
    · rw [walk_row (by omega) past]
      exact ih _ _ (by omega) (by omega)

theorem fitsCounters_of_ends (ends : (frame.walk steps 0 0).2 = true) : frame.FitsCounters := by
  by_contra long
  rw [FitsCounters, not_or, not_and_or] at long
  rcases long with ⟨some, wide | high⟩
  · rw [walk_wide (by omega) (by omega) 0 (by omega) rfl] at ends
    cases ends
  · rw [walk_high (by omega) 0 0 (by omega) rfl] at ends
    cases ends

theorem walk_tiled (fits : frame.FitsCounters) :
    ∃ steps, (frame.walk steps 0 0).2 = true ∧ frame.Tiled (frame.walk steps 0 0).1 := by
  have small {steps : Nat} : ∀ tile ∈ (frame.walk steps 0 0).1, tile.w ≤ 64 ∧ tile.h ≤ 64 :=
    fun tile member =>
      have sized := sized_walk frame steps tile member
      ⟨sized.w.2, sized.h.2⟩
  rcases fits with empty | ⟨columns, rows⟩
  · refine ⟨1, by rw [walk_done (by omega)], small, ?_⟩
    omega
  · obtain ⟨steps, ends⟩ := walk_ends columns rows frame.h.toNat 0 (by omega)
    refine ⟨steps, ends, small, ?_⟩
    intro px py inRow inColumn
    rw [count_walk columns rows inRow inColumn 0 0 ends, if_pos (by omega)]

theorem inCoords_iff (tiled : frame.Tiled (frame.walk steps 0 0).1) :
    (∀ tile ∈ (frame.walk steps 0 0).1, tile.x ≤ 65535 ∧ tile.y ≤ 65535) ↔ frame.FitsCoords := by
  constructor
  · intro inCoords
    rw [FitsCoords, or_iff_not_imp_left, or_iff_not_imp_left]
    intro columns rows
    -- the tile of the last pixel is the last one
    have last := tiled.once (frame.w.toNat - 1) (frame.h.toNat - 1) (by omega) (by omega)
    obtain ⟨tile, member, covers⟩ := List.countP_pos_iff.1 (last ▸ Nat.one_pos)
    have inside := inCoords tile member
    have small := tiled.small tile member
    obtain ⟨x', y', alignedX, alignedY, inRow, inColumn, rfl⟩ := mem_walk rfl rfl member
    have left : (frame.tileAt x' y').x = frame.x.toNat + x' := rfl
    have top : (frame.tileAt x' y').y = frame.y.toNat + y' := rfl
    rw [Tile.covers, decide_eq_true_eq] at covers
    omega
  · intro fits tile member
    obtain ⟨x', y', alignedX, alignedY, inRow, inColumn, rfl⟩ := mem_walk rfl rfl member
    have left : (frame.tileAt x' y').x = frame.x.toNat + x' := rfl
    have top : (frame.tileAt x' y').y = frame.y.toNat + y' := rfl
    unfold FitsCoords at fits
    omega

end Frame

variable {link : Link} {worker : Worker} {tile : Tile}

section Bitmaps

variable (rleOk : Bool) (x y : Nat) {w h : Nat} (pixels : Bytes) (stride : Nat)
  (wIn : 1 ≤ w ∧ w ≤ 64) (hIn : 1 ≤ h ∧ h ≤ 64)

include wIn hIn

theorem rdpFpBuildBitmapUpdate_some (short : 28 + paddedWidth w * 3 * h ≤ 0x3F80) :
    ∃ packet, rdpFpBuildBitmapUpdate rleOk 0x4000 x y w h pixels stride = some packet := by
  obtain ⟨record, written, within⟩ := writeBitmapData_some x y stride pixels rleOk wIn hIn
    (by omega : _ ≤ 0x4000 - 8)
  rw [rdpFpBuildBitmapUpdate, if_neg (by decide), written, Option.bind_some]
  dsimp only
  generalize packed : (if 3 + (4 + record.length) < 0x80 - 2 then 1 + 1 + (3 + (4 + record.length))
    else 1 + 2 + (3 + (4 + record.length))) = total
  have small : total ≤ 10 + record.length := by
    rw [← packed]
    split <;> omega
  have three : (0 :: if total ≤ 0x7f then [low total]
      else [low (total / 256 + 128), low total]).length ≤ 3 := by split <;> simp
  obtain ⟨hdr, put, length⟩ :=
    Option.map_eq_some_iff.1 (rdpBufPut_init (Nat.le_succ_of_le three))
  rw [← length] at three
  rw [if_neg (by omega), if_neg (by rw [rdpFpMaxPacketSize]; omega), fpWriteHeader_eq _ (by omega),
    put]
  exact ⟨_, if_neg (by omega)⟩

theorem rdpFpBuildBitmapBody_some :
    ∃ body, rdpFpBuildBitmapBody rleOk (4 + 18 + paddedWidth w * 3 * h) x y w h pixels stride =
      some body ∧ 1 ≤ body.length := by
  have padded := paddedWidth_bounds wIn
  have area : paddedWidth w * 3 * h ≤ 64 * 3 * 64 := Nat.mul_le_mul (by omega) hIn.2
  obtain ⟨record, written, within⟩ := writeBitmapData_some x y stride pixels rleOk wIn hIn
    (by omega : _ ≤ 4 + 18 + paddedWidth w * 3 * h - 4)
  rw [rdpFpBuildBitmapBody, if_neg (by omega), written]
  exact ⟨_, if_neg (by omega), by simp⟩

end Bitmaps

/-- A bitmap update can be built for every tile. -/
theorem tileBitmap_some (rleOk : Bool) (clientMaxRequest : Nat) (sized : Sized tile) :
    ∃ packets, tileBitmap rleOk (chunkTarget clientMaxRequest) tile = some packets := by
  have bounds := chunkTarget_bounds clientMaxRequest
  unfold tileBitmap
  dsimp only
  split_ifs with whole
  · obtain ⟨packet, built⟩ := rdpFpBuildBitmapUpdate_some rleOk (tile.x % 65536)
      (tile.y % 65536) tile.pixels (tile.w * 3) sized.w sized.h (by omega)
    exact ⟨[packet], by rw [built, Option.map_some]⟩
  · obtain ⟨body, built, nonempty⟩ := rdpFpBuildBitmapBody_some rleOk (tile.x % 65536)
      (tile.y % 65536) tile.pixels (tile.w * 3) sized.w sized.h
    obtain ⟨packets, sent, -⟩ := sendBitmapFragments_carries clientMaxRequest nonempty
    exact ⟨packets, by rw [built, Option.bind_some, sent]⟩

/-- The worker goes on, and its cache, if it has one, can take a tile. -/
structure Worker.Going (worker : Worker) : Prop where
  ready : worker.status = .ready
  usable : ∀ cache, worker.cache = some cache → cache.WF ∧ 0 < cache.total

/-- The tile can be sent: without a cache any tile can. -/
def Worker.Takes (worker : Worker) (tile : Tile) : Prop :=
  worker.cache.isSome = true → tile.x ≤ 65535 ∧ tile.y ≤ 65535

/-- The tiles that a push comes to; one that cannot be sent is the last. -/
def Worker.reached (link : Link) : Worker → List Tile → List Tile
  | _, [] => []
  | worker, tile :: rest =>
    if worker.status = .ready then tile :: (worker.pushTile link tile).reached link rest else []

theorem sendAll_up (up : ∀ n, link.sends n = true) (packets : List Bytes) :
    ∀ worker : Worker, (worker.sendAll link packets).status = worker.status ∧
      (worker.sendAll link packets).cache = worker.cache := by
  induction packets with
  | nil => exact fun worker => ⟨rfl, rfl⟩
  | cons packet rest ih =>
    intro worker
    rw [Worker.sendAll, if_pos (up _)]
    exact ih _

section Push

variable (up : ∀ n, link.sends n = true) {clientMaxRequest : Nat}
  (target : link.chunkTarget = chunkTarget clientMaxRequest)

include up target

theorem pushTile_going (going : worker.Going) (sized : Sized tile) (takes : worker.Takes tile) :
    (worker.pushTile link tile).Going ∧
      (worker.pushTile link tile).cache.isSome = worker.cache.isSome := by
  rw [Worker.pushTile, going.ready]
  cases cached : worker.cache with
  | some cache =>
    obtain ⟨wf, positive⟩ := going.usable cache cached
    obtain ⟨next, packet, orders, nextWf, nextPositive⟩ := tileOrders_some wf positive sized
      (takes (by rw [cached]; rfl))
    simp only [orders]
    obtain ⟨status, cacheAfter⟩ := sendAll_up up [packet]
      { worker with cache := some next, status := .ready }
    refine ⟨⟨status, fun other same => ?_⟩, by rw [cacheAfter]; rfl⟩
    rw [cacheAfter] at same
    cases same
    exact ⟨nextWf, nextPositive⟩
  | none =>
    obtain ⟨packets, built⟩ := tileBitmap_some link.rleOk clientMaxRequest sized
    rw [← target] at built
    simp only [built]
    obtain ⟨status, cacheAfter⟩ := sendAll_up up packets worker
    refine ⟨⟨status.trans going.ready, fun other same => ?_⟩, by rw [cacheAfter, cached]⟩
    rw [cacheAfter, cached] at same
    cases same

omit up target in
theorem pushTile_fails (ready : worker.status = .ready) (refuses : ¬ worker.Takes tile) :
    (worker.pushTile link tile).status = .failed := by
  rw [Worker.pushTile, ready]
  cases cached : worker.cache with
  | some cache =>
    have outside : 65535 < tile.x ∨ 65535 < tile.y := by
      by_contra inside
      exact refuses fun _ => by omega
    simp only [tileOrders_none outside]
  | none => exact (refuses fun some => by rw [cached] at some; cases some).elim

theorem pushTiles_ready_iff (tiles : List Tile) (sized : ∀ tile ∈ tiles, Sized tile) :
    ∀ worker : Worker, worker.Going →
      ((pushTiles link tiles worker).status = .ready ↔ ∀ tile ∈ tiles, worker.Takes tile) := by
  induction tiles with
  | nil => exact fun worker going => iff_of_true going.ready (List.forall_mem_nil _)
  | cons tile rest ih =>
    intro worker going
    rw [List.forall_mem_cons] at sized ⊢
    rw [pushTiles, List.foldl_cons, ← pushTiles]
    by_cases takes : worker.Takes tile
    · obtain ⟨next, same⟩ := pushTile_going up target going sized.1 takes
      rw [ih sized.2 _ next, and_iff_right takes]
      unfold Worker.Takes
      rw [same]
    · have failed : (worker.pushTile link tile).status = .failed :=
        pushTile_fails going.ready takes
      rw [pushTiles_stopped (by rw [failed]; decide), failed]
      exact iff_of_false (by decide) fun both => takes both.1

omit up target in
theorem reached_of_ready (tiles : List Tile) : ∀ worker : Worker,
    (pushTiles link tiles worker).status = .ready → worker.reached link tiles = tiles := by
  induction tiles with
  | nil => exact fun _ _ => rfl
  | cons tile rest ih =>
    intro worker ready
    have here : worker.status = .ready := by
      by_contra stopped
      rw [pushTiles_stopped stopped] at ready
      exact stopped ready
    rw [Worker.reached, if_pos here, ih _ ready]

omit up target in
theorem pushFrameTiled_ready_iff (ready : worker.status = .ready) (steps : Nat) (frame : Frame) :
    (pushFrameTiled link steps worker frame).status = .ready ↔
      (frame.walk steps 0 0).2 = true ∧
        (pushTiles link (frame.walk steps 0 0).1 worker).status = .ready := by
  rw [pushFrameTiled, if_pos ready, ← pushTiles, Worker.endFrame]
  cases (frame.walk steps 0 0).2 with
  | true => simp
  | false =>
    simp only [Bool.false_eq_true, false_and, iff_false, and_true]
    split_ifs with going
    · decide
    · exact going

end Push

/-- **A frame is pushed as a whole** over a connection that sends: the push returns, having come
to a list of small tiles with every pixel in one, exactly if the counters can pass both sizes and,
with a cache, the last tile begins within the coordinates. -/
theorem push_tiled_iff (up : ∀ n, link.sends n = true) {clientMaxRequest : Nat}
    (target : link.chunkTarget = chunkTarget clientMaxRequest) (going : worker.Going)
    (frame : Frame) :
    (∃ steps, (pushFrameTiled link steps worker frame).status = .ready ∧
        frame.Tiled (worker.reached link (frame.walk steps 0 0).1)) ↔
      frame.FitsCounters ∧ (worker.cache.isSome = true → frame.FitsCoords) := by
  have takes (steps : Nat) := pushTiles_ready_iff up target _ (sized_walk frame steps) _ going
  constructor
  · rintro ⟨steps, ready, tiled⟩
    obtain ⟨ends, pushed⟩ := (pushFrameTiled_ready_iff going.ready steps frame).1 ready
    rw [reached_of_ready _ _ pushed] at tiled
    refine ⟨Frame.fitsCounters_of_ends ends, fun cached => ?_⟩
    exact (Frame.inCoords_iff tiled).1 fun tile member => (takes steps).1 pushed tile member cached
  · rintro ⟨counters, coords⟩
    obtain ⟨steps, ends, tiled⟩ := Frame.walk_tiled counters
    have pushed := (takes steps).2 fun tile member cached =>
      (Frame.inCoords_iff tiled).2 (coords cached) tile member
    refine ⟨steps, (pushFrameTiled_ready_iff going.ready steps frame).2 ⟨ends, pushed⟩, ?_⟩
    rw [reached_of_ready _ _ pushed]
    exact tiled

theorem chunkTarget_openLink : openLink.chunkTarget = chunkTarget 0 := rfl

/-- The worker of a client with room for eight tiles in each cell. -/
theorem startWorker_going : (startWorker fun _ => 8).Going :=
  ⟨rfl, fun cache cached => by cases cached; exact ⟨BmpCache.wf_layoutCells _, by decide⟩⟩

/-- A line of 128 pixels whose second tile begins at 65535. -/
def edgeFrame : Frame :=
  ⟨65471, 0, 128, 1, List.replicate 384 0, by rw [List.length_replicate]; rfl⟩

theorem push_tiled_iff_edge :
    ∃ steps, (pushFrameTiled openLink steps (startWorker fun _ => 8) edgeFrame).status = .ready ∧
      edgeFrame.Tiled ((startWorker fun _ => 8).reached openLink (edgeFrame.walk steps 0 0).1) :=
  (push_tiled_iff (fun _ => rfl) chunkTarget_openLink startWorker_going edgeFrame).2
    ⟨.inr (by decide), fun _ => .inr (.inr (by decide))⟩

def tallFrame : Frame where
  x := 0
  y := 0
  w := 1
  h := 65535
  pixels := List.replicate (65535 * 3) 0
  size := by rw [List.length_replicate]; rfl

/-- A line of 192 pixels at the last column. -/
def lastColumn : Frame :=
  ⟨65535, 0, 192, 1, List.replicate 576 0, by rw [List.length_replicate]; rfl⟩

/-- A frame of one column and 65535 rows is walked for ever, and with a cache the push of
three tiles returns at the second. -/
theorem pushes_not_tiled :
    (∀ steps, (pushFrameTiled openLink steps { cache := none } tallFrame).status = .looping) ∧
      (pushFrameTiled openLink 8 (startWorker fun _ => 8) lastColumn).status = .failed ∧
      ((startWorker fun _ => 8).reached openLink (lastColumn.walk 8 0 0).1).map Tile.x =
        [65535, 65599] := by
  refine ⟨fun steps => ?_, by decide +kernel, by decide +kernel⟩
  have pushed : (pushTiles openLink (tallFrame.walk steps 0 0).1 { cache := none }).status =
      .ready :=
    (pushTiles_ready_iff (fun _ => rfl) chunkTarget_openLink _ (sized_walk tallFrame steps) _
      ⟨rfl, fun _ cached => by cases cached⟩).2 fun _ _ => nofun
  have walks : (tallFrame.walk steps 0 0).2 = false :=
    Frame.walk_high (by decide) 0 0 (by decide) rfl
  rw [pushFrameTiled, if_pos rfl, ← pushTiles, Worker.endFrame, if_pos ⟨pushed, walks⟩]

end RdpServer
