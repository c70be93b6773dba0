import RdpServer.Lib.Runs
import RdpServer.Wire.BitmapRle.Lines

/-!
# Where the runs of the encoder lie

A decoder may decide once for an order whether it is on the first scanline, and may take two
background runs in a row as a sign that a pixel between them has been left out. The orders of
the encoder allow both (`orders_placed`).
-/

namespace RdpServer.BitmapRle

open Bytes Predict History List BitmapRle.Order

def Order.total (orders : List Order) : Nat := (orders.map Order.count).sum

theorem Order.total_append (first second : List Order) :
    total (first ++ second) = total first + total second := by
  rw [total, map_append, sum_append]
  rfl

theorem Order.total_singleton (order : Order) : total [order] = order.count :=
  sum_singleton

theorem Order.length_expandAll (width : Nat) (orders : List Order) (pixels : List Pixel) :
    (expandAll width orders pixels).length = pixels.length + total orders := by
  induction orders generalizing pixels with
  | nil => rfl
  | cons order orders ih =>
    change (expandAll width orders (order.expand width pixels)).length = _
    rw [ih, length_expand, Nat.add_assoc]
    rfl

def EndsFill (orders : List Order) : Prop := orders.getLast?.bind Order.kind = some .fill

theorem endsFill_concat {orders : List Order} {order : Order} :
    EndsFill (orders ++ [order]) ↔ order.kind = some .fill := by
  rw [EndsFill, getLast?_concat, Option.bind_some]

/-- An order does not cross the end of the first scanline, if it refers to the pixels above,
and does not follow another background run, if it is one, except at that place. -/
structure Placed (width : Nat) (before : List Order) (order : Order) : Prop where
  within : ∀ kind, order.kind = some kind → kind ≠ .color → Order.total before < width →
    Order.total before + order.count ≤ width
  apart : order.kind = some .fill → EndsFill before → Order.total before = width

section Runs

variable {width : Nat} {done : List Pixel} {d : Draft} {orders : List Order}

theorem Script.total {pending : Nat} (script : Script width done pending orders) :
    total orders = done.length - pending := by
  have length := congrArg length script.denoted
  rw [length_expandAll, length_nil, Nat.zero_add, length_take] at length
  omega

theorem total_literalOrders {pending : Nat} (rest : Nat) (le : pending ≤ done.length) :
    total (literalOrders done pending rest) = pending - rest := by
  unfold literalOrders
  split
  · exact Eq.symm ‹_›
  · rw [Order.total_singleton, Order.count, length_literal rest le]

theorem justified_literals (pending rest : Nat) (placed : Justified (Placed width) orders) :
    Justified (Placed width) (orders ++ literalOrders done pending rest) := by
  refine placed.append fun before order member => ?_
  unfold literalOrders at member
  split at member
  · cases member
  · rw [mem_singleton.1 member]
    exact ⟨fun _ => nofun, nofun⟩

/-- The orders so far are placed, and a background run that is written next will be. -/
structure Ready (width : Nat) (done : List Pixel) (d : Draft) : Prop where
  placed : Justified (Placed width) d.orders
  apart : EndsFill d.orders → d.counts.of .fill < d.count ∨ done.length - d.count = width

section

variable (ready : Ready width done d) (inv : EncInv width done d) (within : ∀ kind, kind ≠ .color →
  done.length ≤ width ∨ d.counts.of kind ≤ done.length - width)
include ready inv within

theorem Ready.run {kind : Kind} {order : Order} (isKind : order.kind = some kind)
    (counted : order.count = d.counts.of kind) (less : order.count ≤ d.count) :
    Justified (Placed width) (d.orders ++ literalOrders done d.count order.count ++ [order]) := by
  have pending := inv.pending
  have total : total (d.orders ++ literalOrders done d.count order.count) =
      done.length - order.count := by
    rw [total_append, inv.script.total, total_literalOrders _ pending]
    omega
  refine (justified_literals d.count order.count ready.placed).concat ⟨?_, ?_⟩
  · intro other isOther notColor early
    rw [isKind] at isOther
    cases isOther
    rw [total] at early ⊢
    rcases within kind notColor with first | below
    · omega
    · omega
  · intro fill ends
    rw [isKind] at fill
    cases fill
    rw [total]
    unfold literalOrders at ends
    split at ends
    rotate_left
    · exact absurd (endsFill_concat.1 ends) nofun
    rw [append_nil] at ends
    rcases ready.apart ends with fewer | start
    · omega
    · omega

theorem Ready.finished (turn : Finished done d orders) : Justified (Placed width) orders := by
  cases turn with
  | literals => exact justified_literals _ _ ready.placed
  | run isKind counted long less => exact ready.run inv within isKind counted less

theorem Ready.push {t : Tests} {ended : Draft} (turn : Ended done (Enc.ending t) d ended)
    (pixel : Pixel) : Ready width (done ++ [pixel]) (ended.push t pixel (aboveOf width done)) := by
  have after := turn.push_le t pixel (aboveOf width done) .fill
  cases turn with
  | kept same cleared zero =>
    have orders : ended.orders = d.orders := by rw [same]
    have pending : ended.count = d.count := by rw [same]
    refine ⟨orders ▸ ready.placed, fun ends => ?_⟩
    change _ < ended.count + 1 ∨ (done ++ [pixel]).length - (ended.count + 1) = width
    rw [length_append, length_singleton, pending, Nat.add_sub_add_right]
    exact (ready.apart (orders ▸ ends)).imp_left fun fewer => by omega
  | @wrote kind order due isKind counted long less nothing =>
    have wrote : ended.orders = d.orders ++ literalOrders done d.count order.count ++ [order] := by
      rw [nothing]
    refine ⟨wrote ▸ ready.run inv within isKind counted less, fun ends => .inl ?_⟩
    have fill : order.kind = some .fill := endsFill_concat.1 (wrote ▸ ends)
    rw [isKind] at fill
    cases fill
    change (ended.toEnc.push t pixel _).counts.of .fill < _
    rw [Enc.push_of, Enc.mem_ending.1 due, if_neg Bool.false_ne_true, nothing]
    exact Nat.succ_pos _

end

/-- The counters that refer to the pixels above do not reach into the first scanline. -/
structure Below (width : Nat) (done : List Pixel) (d : Draft) : Prop extends
    Ready width done d where
  late : width ≤ done.length
  within : ∀ kind, kind ≠ .color → d.counts.of kind ≤ done.length - width

theorem onFirst_kept :
    KeptByPixels width width fun done d => done.length ≤ width ∧ Ready width done d := by
  intro done d t pixel ended inv early endedInv turn held
  refine ⟨?_, held.2.push inv (fun _ _ => .inl held.1) turn pixel⟩
  rw [length_append, length_singleton]
  exact early

theorem below_kept : KeptByPixels width 65536 fun done d => Below width done d := by
  intro done d t pixel ended inv early endedInv turn held
  have late := held.late
  have length : (done ++ [pixel]).length = done.length + 1 := by
    rw [length_append, length_singleton]
  refine ⟨held.push inv (fun kind notColor =>
    .inr (held.within kind notColor)) turn pixel, by omega,
    fun kind notColor => ?_⟩
  have before := held.within kind notColor
  have after := turn.push_le t pixel (aboveOf width done) kind
  omega

/-- **The end of the first scanline** clears the counters that refer to the pixels above. -/
theorem below_of_onFirst :
    KeptByEnd width (fun done d => done.length ≤ width ∧ Ready width done d) (Below width) := by
  intro done d next inv length nextInv turn held
  have cleared : ∀ kind, kind ≠ .color → next.counts.of kind = 0 := by
    intro kind notColor
    refine turn.zero kind ?_
    cases kind with
    | color => exact absurd rfl notColor
    | _ => decide
  refine ⟨?_, by omega, fun kind notColor => by rw [cleared kind notColor]; exact Nat.zero_le _⟩
  have fill := cleared .fill (by decide)
  cases turn with
  | kept same _ _ =>
    have orders : next.orders = d.orders := by rw [same]
    have pending : next.count = d.count := by rw [same]
    refine ⟨orders ▸ held.2.placed, fun ends => ?_⟩
    rw [pending]
    exact (held.2.apart (orders ▸ ends)).imp_left fun fewer => by omega
  | @wrote kind order due isKind counted long less nothing =>
    rw [nothing]
    exact ⟨held.2.run inv (fun _ _ => .inl held.1) isKind counted less, fun _ => .inr length⟩

end Runs

/-- **The orders of an image** are placed for a decoder that decides once for an order
whether it is on the first scanline, and that puts a pixel between two background runs. -/
theorem orders_placed {width height cap : Nat} {src : Bytes}
    (widthIn : 1 ≤ width ∧ width ≤ 64) (heightIn : 1 ≤ height ∧ height ≤ 64)
    (room : 3 * width * height + 3 ≤ cap) :
    ∃ orders : List Order, (∀ order ∈ orders, order.WF) ∧ Justified (Placed width) orders ∧
      rdpBitmapRleCompress24 cap src width height = some (wireAll orders) ∧
      expandAll width orders [] = imagePixels src width height ∧
      (wireAll orders).length ≤ 3 * width * height + 3 := by
  obtain ⟨last, rfl⟩ : ∃ last, height = last + 1 := ⟨height - 1, by omega⟩
  have area : width * (last + 1) ≤ 64 * 64 := Nat.mul_le_mul widthIn.2 heightIn.2
  have area3 : 3 * width * (last + 1) = 3 * (width * (last + 1)) := Nat.mul_assoc _ _ _
  have lines : 3 * width * (last + 1) = 3 * width * last + 3 * width := Nat.mul_succ _ _
  have length : (imagePixels src width (last + 1)).length = width * (last + 1) :=
    length_imagePixels (last + 1)
  obtain ⟨final, ran, inv, below⟩ := encImage_keeps src last onFirst_kept below_of_onFirst
    below_kept (by omega) (by omega) (show 3 * (width * (last + 1)) < cap by omega)
    (encInv_start width) ⟨Nat.zero_le _, justified_nil, nofun⟩
  obtain ⟨orders, finished, script, turn⟩ := inv.finish (by omega)
  have cost := turn.cost inv script
  refine ⟨orders, script.wf, below.finished inv (fun kind notColor =>
    .inr (below.within kind notColor)) turn, ?_, ?_, by omega⟩
  · rw [compress_eq widthIn (by omega), ← into_startDraft, ran cap, Option.bind_some, finished cap,
      Option.bind_some, close_of, if_pos (by omega)]
  · rw [script.denoted, Nat.sub_zero, take_length]

end RdpServer.BitmapRle
