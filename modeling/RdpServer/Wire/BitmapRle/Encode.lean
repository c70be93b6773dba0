import RdpServer.Wire.BitmapRle.Order

/-!
# The encoder's invariant

After the pixels `done`, the octets written are the encoding of orders that
denote all but the pending pixels, the literal buffer holds the pending pixels,
and each run counter counts pixels at the end of `done` that an order of its
kind would predict (`EncInv`). The capacity of the stream has no part in this
(`Draft.Leads`). Ending runs (`Ended`) and pushing a pixel keep the invariant.
-/

namespace RdpServer.BitmapRle

open Bytes Predict List Option BitmapRle.Order

section Orders

variable {width pending rest : Nat} {done : List Pixel} {orders : List Order} {order : Order}

/-- The order for the pending pixels before the last `rest` ones, if there are any. -/
def literalOrders (done : List Pixel) (pending rest : Nat) : List Order :=
  if pending - rest = 0 then []
  else [.copy ((done.drop (done.length - pending)).take (pending - rest))]

/-- The orders denote all but the last `pending` pixels. -/
structure Script (width : Nat) (done : List Pixel) (pending : Nat) (orders : List Order) :
    Prop where
  wf : ∀ order ∈ orders, order.WF
  denoted : Order.expandAll width orders [] = done.take (done.length - pending)

theorem Script.concat (script : Script width done pending orders) (wf : order.WF)
    (denotes : order.expand width (done.take (done.length - pending)) =
      done.take (done.length - rest)) : Script width done rest (orders ++ [order]) := by
  refine ⟨forall_mem_append.2 ⟨script.wf, forall_mem_singleton.2 wf⟩, ?_⟩
  exact foldl_append.trans ((congrArg (order.expand width) script.denoted).trans denotes)

theorem length_literal (rest : Nat) (le : pending ≤ done.length) :
    ((done.drop (done.length - pending)).take (pending - rest)).length = pending - rest := by
  rw [length_take, length_drop]
  omega

theorem Script.copy (script : Script width done pending orders) (bound : done.length < 65536)
    (narrow : ∀ pixel ∈ done, Is24 pixel) (le : pending ≤ done.length) (less : rest ≤ pending) :
    Script width done rest (orders ++ literalOrders done pending rest) := by
  by_cases none : pending - rest = 0
  · rw [literalOrders, if_pos none, append_nil, show rest = pending by omega]
    exact script
  · have length := length_literal rest le
    rw [literalOrders, if_neg none]
    refine script.concat ⟨?_, ?_, fun pixel inside =>
      narrow pixel (mem_of_mem_drop (mem_of_mem_take inside))⟩ ?_
    · rw [Order.count]
      omega
    · rw [Order.count]
      omega
    · -- the literal order appends exactly the next pixels of `done`
      rw [Order.expand, Order.count, length, grow_take _ done _ 0 _ (by omega)]
      · congr 1
        omega
      · intro step below
        rw [Order.pixel, Nat.zero_add, getD_eq_getElem?_getD, getElem?_take_of_lt below,
          getElem?_drop, getElem?_eq_getElem (by omega), getD_some]

theorem outCopyCount_literals {temp : Bytes} (orders : List Order) (rest cap : Nat)
    (le : pending ≤ done.length)
    (held : temp.take (3 * pending) = (done.drop (done.length - pending)).flatMap pixelBytes) :
    outCopyCount (pending - rest) (Ostrm.of cap (wireAll orders)) temp =
      Ostrm.of cap (wireAll (orders ++ literalOrders done pending rest)) := by
  by_cases none : pending - rest = 0
  · rw [none, literalOrders, if_pos none, append_nil]
    rfl
  · have length := length_literal rest le
    rw [literalOrders, if_neg none]
    generalize kept : (done.drop (done.length - pending)).take (pending - rest) = literal at *
    have start : temp.take (3 * literal.length) = literal.flatMap pixelBytes := by
      have split : (done.drop (done.length - pending)).flatMap pixelBytes = literal.flatMap
          pixelBytes ++ ((done.drop (done.length - pending)).drop (pending - rest)).flatMap
            pixelBytes := by
        rw [← kept, ← flatMap_append, take_append_drop]
      rw [← min_eq_left (show 3 * literal.length ≤ 3 * pending by omega), ← take_take, held, split]
      exact take_left' (length_flatMap_pixelBytes literal)
    have nonempty : literal ≠ [] := fun empty => none (by rw [← length, empty, length_nil])
    rw [← length, Ostrm.outCopyCount_of cap _ temp nonempty start, wireAll_append,
      wireAll_singleton]

theorem length_wireAll_literalOrders (done : List Pixel) (pending rest : Nat) :
    (wireAll (literalOrders done pending rest)).length ≤ 3 * (pending - rest) + 3 := by
  unfold literalOrders
  split
  · exact Nat.zero_le _
  · have cheap := length_wire_copy
      ((done.drop (done.length - pending)).take (pending - rest))
    rw [length_take] at cheap
    rw [wireAll_singleton]
    omega

theorem length_wireAll_run (orders : List Order) (done : List Pixel) (pending : Nat)
    (order : Order) :
    (wireAll (orders ++ literalOrders done pending order.count ++ [order])).length =
      (wireAll orders).length +
        (wireAll (literalOrders done pending order.count)).length + order.wire.length := by
  rw [wireAll_append, wireAll_append, length_append, length_append, wireAll_singleton]

theorem Script.push {pixel : Pixel} (script : Script width done pending orders) :
    Script width (done ++ [pixel]) (pending + 1) orders := by
  refine ⟨script.wf, ?_⟩
  rw [script.denoted, length_append, length_singleton, Nat.add_sub_add_right,
    take_append_of_le_length (Nat.sub_le _ _)]

end Orders

def Count.of (c : Count) : Kind → Nat
  | .fill => c.fillCount
  | .mix => c.mixCount
  | .color => c.colorCount
  | .fom => c.fomCount

def Tests.passes (t : Tests) : Kind → Bool
  | .fill => t.fill
  | .mix => t.mix
  | .color => t.color
  | .fom => t.fom

variable {kind : Kind}

/-- The run to write at the end of the image. -/
def Count.due (c : Count) : Option Kind :=
  if c.Dominant c.fillCount then some .fill
  else if c.Dominant c.mixCount then some .mix
  else if c.Dominant c.colorCount then some .color
  else if c.Dominant c.fomCount then some .fom
  else none

theorem Count.dominant_of_due {c : Count} (due : c.due = some kind) : c.Dominant (c.of kind) := by
  unfold Count.due at due
  split_ifs at due <;> cases due <;> assumption

theorem count_of_empty (kind : Kind) : ({} : Count).of kind = 0 := by
  cases kind <;> rfl

namespace Enc

def endRun (e : Enc) : Kind → Option Enc
  | .fill => e.flushFill.map clearFill
  | .mix => e.flushMix.map clearMix
  | .color => e.flushColor.map clearColor
  | .fom => e.flushFom.map clearFom

def endAll (e : Enc) (kinds : List Kind) : Option Enc := kinds.foldlM endRun e

def ending (t : Tests) : List Kind := [Kind.fill, .mix, .color, .fom].filter fun kind =>
  !t.passes kind

theorem endRuns_eq (e : Enc) (t : Tests) : e.endRuns t = e.endAll (ending t) := by
  rw [endAll, ending, foldlM_filter]
  simp only [Bool.not_eq_true', ← Bool.not_eq_true, ite_not, endRuns, foldlM_cons, foldlM_nil,
    Tests.passes, endRun, bind, pure, bind_fun_some]

theorem mem_ending {t : Tests} : kind ∈ ending t ↔ t.passes kind = false := by
  rw [ending, mem_filter, Bool.not_eq_true', and_iff_right]
  cases kind <;> decide

theorem endFirstLine_eq (e : Enc) : e.endFirstLine = e.endAll [.fill, .mix, .fom] := by
  simp [endFirstLine, endAll, endRun]

def flushOf (e : Enc) : Kind → Option Enc
  | .fill => e.flushFill
  | .mix => e.flushMix
  | .color => e.flushColor
  | .fom => e.flushFom

def clear (e : Enc) : Kind → Enc
  | .fill => e.clearFill
  | .mix => e.clearMix
  | .color => e.clearColor
  | .fom => e.clearFom

/-- The order that a counter stands for. -/
def run (e : Enc) : Kind → Order
  | .fill => .fill e.counts.fillCount
  | .mix => .mix e.counts.mixCount
  | .color => .color e.counts.colorCount e.lastPixel
  | .fom => .fom e.counts.fomCount (e.fomMask.take e.counts.fomMaskLen)

theorem endRun_eq (e : Enc) (kind : Kind) :
    e.endRun kind = (e.flushOf kind).map fun e => e.clear kind := by
  cases kind <;> rfl

@[simp] theorem count_run (e : Enc) (kind : Kind) : (e.run kind).count = e.counts.of kind := by
  cases kind <;> rfl

theorem kind_run (e : Enc) (kind : Kind) : (e.run kind).kind = some kind := by
  cases kind <;> rfl

variable {e : Enc}

theorem flushOf_idle (idle : ¬ e.counts.Dominant (e.counts.of kind)) : e.flushOf kind = some e := by
  cases kind <;> exact if_neg idle

theorem flushOf_dominant {cap : Nat} {orders : List Order} (less : e.counts.of kind ≤ e.count)
    (dominant : e.counts.Dominant (e.counts.of kind))
    (copied : outCopyCount (e.count - e.counts.of kind) e.s e.temp =
      Ostrm.of cap (wireAll orders)) :
    e.flushOf kind = some { e with
      s := Ostrm.of cap (wireAll (orders ++ [e.run kind])), count := 0, counts := {} } := by
  have positive : 0 < e.counts.of kind := lt_trans (by decide) dominant.1
  have flushes : ∀ emit : Ostrm → Ostrm, emit (Ostrm.of cap (wireAll orders)) =
        Ostrm.of cap (wireAll orders ++ (e.run kind).wire) →
      e.flushRun (e.counts.of kind) emit = some { e with
        s := Ostrm.of cap (wireAll (orders ++ [e.run kind])), count := 0, counts := {} } := by
    intro emit emits
    rw [flushRun, if_pos dominant, if_neg (Nat.not_lt.2 less), copied, emits, wireAll_append,
      wireAll_singleton]
  cases kind with
  | fill => exact flushes (outFillCount _) (Ostrm.outFillCount_of cap _ positive)
  | mix => exact flushes (outMixCount _) (Ostrm.outMixCount_of cap _ positive)
  | color =>
    exact flushes (fun s => outColorCount _ s _) (Ostrm.outColorCount_of cap _ e.lastPixel positive)
  | fom =>
    exact flushes (fun s => outFomCount _ s _)
      (Ostrm.outFomCount_of cap _ (e.fomMask.take e.counts.fomMaskLen) positive)

theorem clear_same (e : Enc) (kind : Kind) : e.clear kind =
    { e with counts := (e.clear kind).counts } := by
  cases kind <;> rfl

theorem clear_self (e : Enc) (kind : Kind) : (e.clear kind).counts.of kind = 0 := by
  cases kind <;> rfl

theorem clear_run (e : Enc) {other : Kind} (differs : other ≠ kind) :
    (e.clear kind).run other = e.run other := by
  cases kind <;> cases other <;> first | rfl | exact absurd rfl differs

theorem clear_of (e : Enc) (kind other : Kind) :
    (e.clear kind).counts.of other = e.counts.of other ∨ (e.clear kind).counts.of other = 0 := by
  by_cases same : other = kind
  · exact .inr (same ▸ e.clear_self kind)
  · rw [← count_run, e.clear_run same, count_run]
    exact .inl rfl

theorem clear_idle (idle : e.counts = {}) (kind : Kind) : e.clear kind = e := by
  obtain ⟨s, counts, count, temp, fomMask, lastPixel, lastYpixel⟩ := e
  cases idle
  cases kind <;> rfl

theorem endAll_idle (idle : e.counts = {}) (kinds : List Kind) : e.endAll kinds = some e := by
  induction kinds with
  | nil => rfl
  | cons kind kinds ih =>
    have quiet : ¬ e.counts.Dominant (e.counts.of kind) := by
      rw [idle]
      cases kind <;> decide
    rw [endAll, foldlM_cons, endRun_eq, flushOf_idle quiet, map_some, clear_idle idle]
    exact ih

theorem finish_eq (e : Enc) :
    e.finish = e.counts.due.elim (some (outCopyCount e.count e.s e.temp))
      fun kind => (e.flushOf kind).map Enc.s := by
  unfold finish Count.due
  dsimp only
  split_ifs <;> rfl

theorem push_of (e : Enc) (t : Tests) (pixel ypixel : Pixel) (kind : Kind) :
    (e.push t pixel ypixel).counts.of kind =
      if t.passes kind then e.counts.of kind + 1 else e.counts.of kind := by
  cases kind <;> rfl

theorem push_of_le (e : Enc) (t : Tests) (pixel ypixel : Pixel) (kind : Kind) :
    (e.push t pixel ypixel).counts.of kind ≤ e.counts.of kind + 1 := by
  rw [push_of]
  split
  · exact le_rfl
  · exact Nat.le_succ _

end Enc

/-- The state of the encoder together with the orders in its stream, which can have any
capacity. -/
structure Draft extends Enc where
  orders : List BitmapRle.Order

namespace Draft

variable {d middle next : Draft}

/-- The encoder with a stream of this capacity. -/
def into (d : Draft) (cap : Nat) : Enc :=
  { d.toEnc with s := Ostrm.of cap (Order.wireAll d.orders) }

/-- What a step makes of the encoder, whatever the capacity. -/
def Leads (d : Draft) (step : Enc → Option Enc) (next : Draft) : Prop :=
  ∀ cap, step (d.into cap) = some (next.into cap)

theorem Leads.bind {first second : Enc → Option Enc} (one : d.Leads first middle)
    (two : middle.Leads second next) : d.Leads (fun e => (first e).bind second) next :=
  fun cap => (congrArg (Option.bind · second) (one cap)).trans (two cap)

def push (d : Draft) (t : Tests) (pixel ypixel : Pixel) : Draft :=
  { d with toEnc := d.toEnc.push t pixel ypixel }

end Draft

/-- What ending runs of some kinds does. -/
inductive Ended (done : List Pixel) (kinds : List Kind) (d : Draft) : Draft → Prop
  | kept {next : Draft} (same : next = { d with counts := next.counts })
      (cleared : ∀ kind, next.counts.of kind = d.counts.of kind ∨ next.counts.of kind = 0)
      (zero : ∀ kind ∈ kinds, next.counts.of kind = 0) : Ended done kinds d next
  | wrote {next : Draft} {kind : Kind} {order : Order} (due : kind ∈ kinds)
      (isKind : order.kind = some kind) (counted : order.count = d.counts.of kind)
      (long : 3 < order.count) (less : order.count ≤ d.count)
      (nothing : next = { d with
        count := 0, counts := {}
        orders := d.orders ++ literalOrders done d.count order.count ++ [order] }) :
      Ended done kinds d next

section Ended

variable {done : List Pixel} {d middle next : Draft} {kinds : List Kind}

theorem Ended.refl (kinds : List Kind) (zero : ∀ kind ∈ kinds, d.counts.of kind = 0) :
    Ended done kinds d d :=
  .kept rfl (fun _ => .inl rfl) zero

theorem Ended.cons (first : Ended done [kind] d middle) (rest : Ended done kinds middle next)
    (idle : middle.counts = {} → next = middle) : Ended done (kind :: kinds) d next := by
  cases first with
  | kept same cleared zero =>
    cases rest with
    | kept sameNext clearedNext zeroNext =>
      refine .kept (by rw [sameNext, same]) ?_ ?_
      · intro other
        rcases clearedNext other with kept | zero
        · rw [kept]
          exact cleared other
        · exact .inr zero
      · intro other member
        rcases mem_cons.1 member with rfl | later
        · have here := zero other mem_cons_self
          rcases clearedNext other with kept | zero
          · rw [kept, here]
          · exact zero
        · exact zeroNext other later
    | @wrote kind order due isKind counted long less nothing =>
      have pending : middle.count = d.count := by rw [same]
      have counted' : order.count = d.counts.of kind := by
        rcases cleared kind with kept | zero
        · rw [counted, kept]
        · omega
      exact .wrote (.tail _ due) isKind counted' long (pending ▸ less) (by rw [nothing, same])
  | wrote due isKind counted long less nothing =>
    obtain rfl := idle (by rw [nothing])
    rw [mem_singleton.1 due] at isKind counted
    exact .wrote mem_cons_self isKind counted long less nothing

theorem Ended.last (ended : Ended done kinds d next) : next.lastPixel = d.lastPixel := by
  cases ended with
  | kept same _ _ => rw [same]
  | wrote _ _ _ _ _ nothing => rw [nothing]

theorem Ended.zero (ended : Ended done kinds d next) : ∀ kind ∈ kinds, next.counts.of kind = 0 := by
  cases ended with
  | kept _ _ zero => exact zero
  | wrote _ _ _ _ _ nothing =>
    intro kind _
    rw [nothing]
    exact count_of_empty kind

theorem Ended.push_le (ended : Ended done kinds d next) (t : Tests) (pixel ypixel : Pixel)
    (kind : Kind) : (next.push t pixel ypixel).counts.of kind ≤ d.counts.of kind + 1 := by
  refine le_trans (next.push_of_le t pixel ypixel kind) (Nat.succ_le_succ ?_)
  cases ended with
  | kept _ cleared _ =>
    rcases cleared kind with same | zero
    · exact Nat.le_of_eq same
    · exact zero ▸ Nat.zero_le _
  | wrote _ _ _ _ _ nothing =>
    rw [nothing]
    exact Nat.le_trans (Nat.le_of_eq (count_of_empty kind)) (Nat.zero_le _)

end Ended

/-- The encoder's state after the pixels `done`. -/
structure EncInv (width : Nat) (done : List Pixel) (d : Draft) : Prop where
  narrow : ∀ pixel ∈ done, Is24 pixel
  lastNarrow : Is24 d.lastPixel
  script : Script width done d.count d.orders
  cost : (Order.wireAll d.orders).length + 3 * d.count ≤ 3 * done.length
  pending : d.count ≤ done.length
  tempRoom : 3 * d.count ≤ d.temp.length
  temp : d.temp.take (3 * d.count) = (done.drop (done.length - d.count)).flatMap pixelBytes
  bicolor : d.counts.bicolorCount = 0
  le : ∀ kind, d.counts.of kind ≤ d.count
  predicted : ∀ kind, Predicted ((d.run kind).pixel width) done (d.counts.of kind)
  mask : MaskInv d.fomMask d.counts.fomCount d.counts.fomMaskLen

namespace EncInv

variable {width : Nat} {done : List Pixel} {d : Draft}

theorem idle {orders : List Order} (narrow : ∀ pixel ∈ done, Is24 pixel)
    (lastNarrow : Is24 d.lastPixel) (script : Script width done 0 orders)
    (cost : (wireAll orders).length ≤ 3 * done.length) :
    EncInv width done { d with count := 0, counts := {}, orders := orders } where
  narrow := narrow
  lastNarrow := lastNarrow
  script := script
  cost := cost
  pending := Nat.zero_le _
  tempRoom := Nat.zero_le _
  temp := by
    simp
  bicolor := rfl
  le := fun kind => le_of_eq (count_of_empty kind)
  predicted := fun kind => by
    rw [count_of_empty]
    exact Predicted.zero _ _
  mask := MaskInv.empty _

variable (inv : EncInv width done d)
include inv

theorem clear (kind : Kind) : EncInv width done { d with toEnc := d.clear kind } := by
  have le : ∀ other, (d.clear kind).counts.of other ≤ d.count := fun other =>
    (d.clear_of kind other).elim (fun same => same ▸ inv.le other) fun zero => zero ▸ Nat.zero_le _
  have predicted : ∀ other, Predicted (((d.clear kind).run other).pixel width) done
      ((d.clear kind).counts.of other) := by
    intro other
    by_cases same : other = kind
    · rw [same, d.clear_self]
      exact Predicted.zero _ _
    · rw [← Enc.count_run, d.clear_run same, Enc.count_run]
      exact inv.predicted other
  cases kind with
  | fom => exact { inv with le := le, predicted := predicted, mask := MaskInv.empty _ }
  | _ => exact { inv with le := le, predicted := predicted }

variable (bound : done.length < 65536)
include bound

theorem run_wf (long : 3 < d.counts.of kind) : (d.run kind).WF := by
  have le := inv.le kind
  have pending := inv.pending
  refine ⟨by rw [Enc.count_run]; omega, by rw [Enc.count_run]; omega, ?_⟩
  cases kind with
  | fill | mix => exact trivial
  | color => exact inv.lastNarrow
  | fom =>
    change (d.fomMask.take d.counts.fomMaskLen).length = (d.counts.fomCount + 7) / 8
    rw [length_take, min_eq_left inv.mask.room, inv.mask.len_eq]

/-- **A dominant run is written**, behind the literals before it. -/
theorem flush (dominant : d.counts.Dominant (d.counts.of kind)) :
    ∃ next, d.Leads (Enc.flushOf · kind) next ∧ EncInv width done next ∧
      next = { d with
        count := 0, counts := {}
        orders := d.orders ++ literalOrders done d.count (d.run kind).count ++ [d.run kind] } := by
  have less := inv.le kind
  have wf := inv.run_wf bound dominant.1
  have long : 3 < (d.run kind).count := by
    rw [Enc.count_run]
    exact dominant.1
  refine ⟨_, fun cap => ?_, .idle inv.narrow inv.lastNarrow ?_ ?_, rfl⟩
  · rw [Enc.count_run]
    exact Enc.flushOf_dominant (e := d.into cap) less dominant
      (outCopyCount_literals d.orders (d.counts.of kind) cap inv.pending inv.temp)
  · have copied := inv.script.copy bound inv.narrow inv.pending less
    rw [Enc.count_run]
    refine copied.concat wf ?_
    rw [Nat.sub_zero, take_length, Order.expand, Enc.count_run]
    exact (inv.predicted kind).grow_eq (le_trans less inv.pending)
  · have literals := length_wireAll_literalOrders done d.count (d.run kind).count
    have cheap := length_wire_run wf long (d.kind_run kind)
    have cost := inv.cost
    rw [length_wireAll_run]
    rw [Enc.count_run] at *
    omega

theorem endRun (kind : Kind) :
    ∃ next, d.Leads (Enc.endRun · kind) next ∧ EncInv width done next ∧
      Ended done [kind] d next := by
  by_cases dominant : d.counts.Dominant (d.counts.of kind)
  · obtain ⟨next, flushed, nextInv, nothing⟩ := inv.flush bound dominant
    refine ⟨next, fun cap => ?_, nextInv, .wrote mem_cons_self (d.kind_run kind) (d.count_run kind)
      (by rw [Enc.count_run]; exact dominant.1) (by rw [Enc.count_run]; exact inv.le kind) nothing⟩
    have idle : (next.into cap).counts = {} := by rw [nothing]; rfl
    refine ((d.into cap).endRun_eq kind).trans ?_
    rw [show Enc.flushOf (d.into cap) kind = _ from flushed cap, map_some, Enc.clear_idle idle]
  · refine ⟨_, fun cap => ?_, inv.clear kind, .kept ?_ (d.clear_of kind) fun other member => ?_⟩
    · refine ((d.into cap).endRun_eq kind).trans ?_
      rw [Enc.flushOf_idle (e := d.into cap) dominant]
      cases kind <;> rfl
    · exact congrArg (Draft.mk · d.orders) (d.clear_same kind)
    · rw [mem_singleton.1 member]
      exact d.clear_self kind

/-- **Ending runs** writes at most one of them, and keeps the invariant. -/
theorem endAll (kinds : List Kind) :
    ∃ next, d.Leads (Enc.endAll · kinds) next ∧ EncInv width done next ∧
      Ended done kinds d next := by
  induction kinds generalizing d with
  | nil => exact ⟨d, fun _ => rfl, inv, .refl _ nofun⟩
  | cons kind kinds ih =>
    obtain ⟨middle, first, middleInv, firstEnded⟩ := inv.endRun bound kind
    by_cases idle : middle.counts = {}
    · refine ⟨middle, first.bind fun cap => Enc.endAll_idle (e := middle.into cap) idle kinds,
        middleInv,
        firstEnded.cons (.refl _ fun other _ => ?_) fun _ => rfl⟩
      rw [idle, count_of_empty]
    · obtain ⟨next, rest, nextInv, restEnded⟩ := ih middleInv
      exact ⟨next, first.bind rest, nextInv, firstEnded.cons restEnded fun nothing =>
        absurd nothing idle⟩

end EncInv

section Push

variable {width : Nat} {done : List Pixel} {d : Draft} {pixel : Pixel} {t : Tests}

/-- The tests say how the pixel relates to the one above and the one before. -/
structure Tests.Right (t : Tests) (width : Nat) (done : List Pixel) (e : Enc) (pixel : Pixel) :
    Prop where
  fill : t.fill = true ↔ pixel = aboveOf width done
  mix : t.mix = true ↔ pixel = aboveOf width done ^^^ mixColor
  color : t.color = true ↔ pixel = e.lastPixel

variable (inv : EncInv width done d) (right : t.Right width done d.toEnc pixel)
include inv

theorem EncInv.push_mask (t : Tests) (pixel : Pixel) :
    MaskInv (d.push t pixel (aboveOf width done)).fomMask
      (d.push t pixel (aboveOf width done)).counts.fomCount
      (d.push t pixel (aboveOf width done)).counts.fomMaskLen := by
  cases extended : t.fom with
  | false =>
    simp only [Draft.push, Enc.push, extended]
    exact inv.mask
  | true =>
    simp only [Draft.push, Enc.push, extended]
    exact (pushMask_spec _ inv.mask).1

include right

/-- A run that the pixel goes on with predicts it, and the pixels before as it did. -/
theorem EncInv.push_predicts (passes : t.passes kind = true) :
    (∀ step < d.counts.of kind, ∀ pixels, (d.run kind).pixel width step pixels =
        ((d.push t pixel (aboveOf width done)).run kind).pixel width step pixels) ∧
      pixel = ((d.push t pixel (aboveOf width done)).run kind).pixel width
        (d.counts.of kind) done := by
  cases kind with
  | fill => exact ⟨fun _ _ _ => rfl, right.fill.1 passes⟩
  | mix => exact ⟨fun _ _ _ => rfl, right.mix.1 passes⟩
  | color => exact ⟨fun _ _ _ => (right.color.1 passes).symm, rfl⟩
  | fom =>
    have extended : t.fom = true := passes
    have grown := inv.push_mask t pixel
    obtain ⟨-, bit, kept⟩ := pushMask_spec (pixel == aboveOf width done ^^^ mixColor) inv.mask
    have inside : ∀ step ≤ d.counts.fomCount, step / 8 <
        (d.push t pixel (aboveOf width done)).counts.fomMaskLen := by
      have length := grown.len_eq
      have count : (d.push t pixel (aboveOf width done)).counts.fomCount = d.counts.fomCount + 1 :=
        if_pos extended
      omega
    have mask : (d.push t pixel (aboveOf width done)).fomMask =
        (pushMask d.fomMask d.counts (pixel == aboveOf width done ^^^ mixColor)).1 := by
      simp [Draft.push, Enc.push, extended]
    refine ⟨fun step below pixels => ?_, ?_⟩
    · have before : step / 8 < d.counts.fomMaskLen := by
        have length := inv.mask.len_eq
        have : step < d.counts.fomCount := below
        omega
      simp [Enc.run, Order.pixel, maskBit_take before, maskBit_take (inside step (le_of_lt below)),
        mask, kept step below]
    · -- the new bit says which of the two tests the pixel passed
      simp only [Enc.run, Order.pixel, Count.of, maskBit_take (inside _ (le_rfl)), mask, bit,
        beq_iff_eq]
      split
      · assumption
      · rename_i unmixed
        have filled : t.fill = true := by
          rcases Bool.or_eq_true_iff.mp extended with filled | mixed
          · exact filled
          · exact absurd (right.mix.mp mixed) unmixed
        exact right.fill.mp filled

/-- **Pushing a pixel.** -/
theorem EncInv.push (narrow : Is24 pixel)
    (ended : ∀ kind, t.passes kind = false → d.counts.of kind = 0) :
    EncInv width (done ++ [pixel]) (d.push t pixel (aboveOf width done)) where
  narrow := forall_mem_append.2 ⟨inv.narrow, forall_mem_singleton.2 narrow⟩
  lastNarrow := narrow
  script := inv.script.push
  cost := by
    have cost := inv.cost
    rw [length_append, length_singleton]
    change (wireAll d.orders).length + 3 * (d.count + 1) ≤ _
    omega
  pending := by
    rw [length_append]
    exact Nat.succ_le_succ inv.pending
  tempRoom := by
    have room := inv.tempRoom
    have grown := le_length_writeAt d.temp (pixelBytes pixel)
      (show d.count * 3 ≤ d.temp.length by omega)
    rw [length_pixelBytes] at grown
    change 3 * (d.count + 1) ≤ (writeAt d.temp (d.count * 3) (pixelBytes pixel)).length
    omega
  temp := by
    have stored := take_writeAt d.temp (pixelBytes pixel) inv.tempRoom
    change (writeAt d.temp (d.count * 3) (pixelBytes pixel)).take (3 * (d.count + 1)) =
      ((done ++ [pixel]).drop ((done ++ [pixel]).length - (d.count + 1))).flatMap pixelBytes
    rw [length_pixelBytes] at stored
    rw [Nat.mul_comm d.count 3, Nat.mul_add, stored, inv.temp, length_append,
      length_singleton, Nat.add_sub_add_right, drop_append_of_le_length (Nat.sub_le _ _),
      flatMap_append, flatMap_singleton]
  bicolor := inv.bicolor
  le := fun kind => le_trans (d.push_of_le t pixel _ kind) (Nat.succ_le_succ (inv.le kind))
  predicted := fun kind => by
    change Predicted _ _ ((d.toEnc.push t pixel (aboveOf width done)).counts.of kind)
    rw [Enc.push_of]
    cases passes : t.passes kind with
    | true =>
      obtain ⟨kept, goesOn⟩ := inv.push_predicts right passes
      exact ((inv.predicted kind).congr kept).snoc (le_trans (inv.le kind) inv.pending) goesOn
    | false =>
      rw [ended kind passes]
      exact Predicted.zero _ _
  mask := inv.push_mask t pixel

end Push

end RdpServer.BitmapRle
