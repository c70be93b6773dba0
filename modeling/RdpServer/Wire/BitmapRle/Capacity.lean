import RdpServer.Wire.BitmapRle.Lines

/-!
# Compressing into a small buffer

The encoder counts what it would have written beyond its capacity and refuses at the end,
and it gives up on the remaining scanlines when the output cannot fit any more. Nothing else
depends on the capacity (`complete_stream`). With nothing pending and a buffer that is exactly
full it gives up wrongly (`compress_complete_iff`).
-/

namespace RdpServer.BitmapRle

open Bytes Predict List Option BitmapRle.Order

section Laden

variable {width room : Nat} {src : Bytes} {done : List Pixel} {d : Draft}

/-- What is written and the literals among the pending pixels fill the capacity, whichever
run is written next. -/
def Laden (room : Nat) (d : Draft) : Prop :=
  room < (Order.wireAll d.orders).length ∨
    ∀ kind, room ≤ (Order.wireAll d.orders).length + 3 * (d.count - d.counts.of kind)

theorem le_length_wireAll_literalOrders {pending : Nat} (rest : Nat) (le : pending ≤ done.length) :
    3 * (pending - rest) ≤ (wireAll (literalOrders done pending rest)).length := by
  unfold literalOrders
  split
  · omega
  · rw [wireAll_singleton, wire, length_append, length_flatMap_pixelBytes, length_literal rest le]
    exact Nat.le_add_left _ _

theorem Laden.run {kind : Kind} {order : Order} (laden : Laden room d) (le : d.count ≤ done.length)
    (counted : order.count = d.counts.of kind) :
    room < (wireAll
      (d.orders ++ literalOrders done d.count order.count ++ [order])).length := by
  have literals := le_length_wireAll_literalOrders order.count le
  have written := order.length_wire_pos
  rw [length_wireAll_run]
  rcases laden with beyond | full
  · omega
  · have here := full kind
    omega

/-- **A laden encoder stays so** with every pixel. -/
theorem laden_kept (room : Nat) : KeptByPixels width 65536 fun _ d => Laden room d := by
  intro done d t pixel ended inv early endedInv turn laden
  have kept := turn.push_le t pixel (aboveOf width done)
  cases turn with
  | kept same cleared zero =>
    have orders : ended.orders = d.orders := by rw [same]
    have pending : ended.count = d.count := by rw [same]
    refine laden.imp (fun beyond => orders ▸ beyond) fun full kind => ?_
    have here := full kind
    have counted := kept kind
    change room ≤ (wireAll ended.orders).length + 3 * (ended.count + 1 - _)
    rw [orders]
    omega
  | wrote due isKind counted long less nothing =>
    rw [nothing]
    exact .inl (laden.run inv.pending counted)

theorem Laden.finish {orders : List Order} (laden : Laden room d) (inv : EncInv width done d)
    (pending : 0 < d.count) (turn : Finished done d orders) :
    room < (wireAll orders).length := by
  cases turn with
  | literals =>
    rw [wireAll_append, length_append]
    have header : 3 * d.count < (wireAll (literalOrders done d.count 0)).length := by
      have some : ¬ d.count - 0 = 0 := by omega
      have code := (length_header 4
        ((done.drop (done.length - d.count)).take (d.count - 0)).length).1
      rw [literalOrders, if_neg some, wireAll_singleton, wire, length_append,
        length_flatMap_pixelBytes, length_literal 0 inv.pending] at *
      omega
    rcases laden with beyond | full
    · omega
    · have here := full .fill
      omega
  | run isKind counted long less => exact laden.run inv.pending counted

theorem EncInv.laden {cap : Nat} (inv : EncInv width done d)
    (full : (d.into cap).full room = true) : Laden room d := by
  simp only [Enc.full, Bool.and_eq_true, decide_eq_true_eq] at full
  simp only [Draft.into, Ostrm.of] at full
  right
  intro kind
  have le := inv.le kind
  cases kind <;> simp only [Count.of] at le ⊢ <;> omega

theorem pending_kept (start : Nat) :
    KeptByPixels width 65536 fun done d => start < done.length → 0 < d.count :=
  fun _ _ _ _ ended _ _ _ _ _ _ => Nat.succ_pos ended.count

/-- The encoder has given up, and with all scanlines its output would not have fitted. -/
structure GaveUp (width room : Nat) (d stop final : Draft) : Prop where
  full : (stop.into 0).full room = true
  pending : stop = d ∨ 0 < stop.count
  stopped : ∃ done, done.length < 65536 ∧ EncInv width done stop
  beyond : ∀ octets, final.Ends Enc.finish octets → room < octets.length

variable {small row line outCount : Nat}

theorem AtRow.gaveUp (here : AtRow src width room row line outCount done d) (positive : 0 < width)
    (full : (d.into 0).full small = true) :
    d.Leads (encLines src width small row (some line) outCount) d ∧
      ∃ final, d.Leads (encLines src width room row (some line) outCount) final ∧
        GaveUp width small d d final := by
  have keeps : KeptByPixels width 65536 fun longer d =>
      Laden small d ∧ (done.length < longer.length → 0 < d.count) :=
    fun longer d t pixel ended inv early endedInv turn both =>
      ⟨laden_kept small longer d t pixel ended inv early endedInv turn both.1,
        pending_kept done.length longer d t pixel ended inv early endedInv turn both.2⟩
  obtain ⟨final, ran, finalInv, laden, pending⟩ := encLines_keeps keeps here
    ⟨here.inv.laden full, fun longer => absurd longer (lt_irrefl _)⟩
  have bound := here.bound
  have length : (done ++ imagePixels src width (row + 1)).length < 65536 := by
    rw [length_append, length_imagePixels]
    exact bound
  refine ⟨fun cap => encLines_full here.early_here full, final, ran, full, .inl rfl,
    ⟨done, by omega, here.inv⟩, fun octets ends => ?_⟩
  obtain ⟨orders, finished, -, turn⟩ := finalInv.finish length
  rw [ends.inj finished]
  refine laden.finish finalInv (pending ?_) turn
  rw [length_append, length_imagePixels]
  exact Nat.lt_add_of_pos_right (Nat.mul_pos positive (Nat.succ_pos row))

/-- **The scanlines below the first, into a small buffer**: all of them are encoded, or the
encoder gives up on the rest. -/
theorem encLines_stops (positive : 0 < width)
    (here : AtRow src width room row line outCount done d) :
    ∃ stop final, d.Leads (encLines src width small row (some line) outCount) stop ∧
      d.Leads (encLines src width room row (some line) outCount) final ∧
      (stop = final ∨ GaveUp width small d stop final) := by
  induction row generalizing line outCount done d with
  | zero =>
    cases full : (d.into 0).full small with
    | true =>
      obtain ⟨stops, final, ran, gaveUp⟩ := here.gaveUp positive full
      exact ⟨d, final, stops, ran, .inr gaveUp⟩
    | false =>
      obtain ⟨next, ran, -⟩ := here.scanline (keptByPixels_true _) True.intro
      exact ⟨next, next, fun cap => encLines_last here.early_here full (ran cap),
        fun cap => encLines_last here.early_here (here.notFull cap) (ran cap), .inl rfl⟩
  | succ row ih =>
    cases full : (d.into 0).full small with
    | true =>
      obtain ⟨stops, final, ran, gaveUp⟩ := here.gaveUp positive full
      exact ⟨d, final, stops, ran, .inr gaveUp⟩
    | false =>
      obtain ⟨middle, ran, middleInv, pending⟩ := here.scanline (pending_kept done.length)
        fun longer => absurd longer (lt_irrefl _)
      have some : 0 < middle.count := by
        refine pending ?_
        rw [length_append, length_rowPixels]
        exact Nat.lt_add_of_pos_right positive
      obtain ⟨stop, final, stops, ends, outcome⟩ := ih (here.next middleInv)
      refine ⟨stop, final, fun cap => ?_, fun cap => ?_, outcome.imp_right fun gaveUp => ?_⟩
      · have notFull : (d.into cap).full small = false := full
        rw [encLines_next here.early_here notFull (ran cap)]
        exact stops cap
      · rw [encLines_next here.early_here (here.notFull cap) (ran cap)]
        exact ends cap
      · refine { gaveUp with pending := .inr ?_ }
        rcases gaveUp.pending with rfl | pending
        · exact some
        · exact pending

theorem EncInv.finish_empty (inv : EncInv width done d) (nothing : d.count = 0) :
    d.Ends Enc.finish (wireAll d.orders) := by
  intro cap
  have none : (d.into cap).counts.due = none := by
    cases due : d.counts.due with
    | none => exact due
    | some kind =>
      have long := (Count.dominant_of_due due).1
      have le := inv.le kind
      omega
  rw [Enc.finish_eq, none, show (d.into cap).count = 0 from nothing]
  rfl

theorem EncInv.full_empty (inv : EncInv width done d) (nothing : d.count = 0) (cap : Nat) :
    (d.into cap).full room = decide (room ≤ (wireAll d.orders).length) := by
  have none : ∀ kind, d.counts.of kind = 0 := fun kind => Nat.le_zero.1 (nothing ▸ inv.le kind)
  simp only [Enc.full, Draft.into, Ostrm.of, nothing, inv.bicolor,
    show d.counts.fillCount = 0 from none .fill, show d.counts.mixCount = 0 from none .mix,
    show d.counts.colorCount = 0 from none .color, show d.counts.fomCount = 0 from none .fom,
    Nat.mul_zero, Nat.add_zero, Nat.sub_zero, Bool.and_self]

end Laden

section Image

variable {width cap room last : Nat} {src : Bytes}

/-- **The complete stream**: with room for all pixels, the octets do not depend on the
capacity. -/
theorem complete_stream (widthIn : 1 ≤ width ∧ width ≤ 64) (heightIn : last < 64)
    (fits : 3 * (width * (last + 1)) + 3 ≤ room) :
    ∃ octets : Bytes, 0 < octets.length ∧ octets.length ≤ 3 * (width * (last + 1)) + 3 ∧
      startDraft.Ends (fun e => (encLines src width room last none (width * 3) e).bind Enc.finish)
        octets := by
  have area : width * (last + 1) ≤ 64 * 64 := Nat.mul_le_mul widthIn.2 (by omega)
  have lines : 3 * width * last + 3 * width = 3 * (width * (last + 1)) := by
    rw [← Nat.mul_succ, Nat.mul_assoc]
  have length : (imagePixels src width (last + 1)).length = width * (last + 1) :=
    length_imagePixels (last + 1)
  obtain ⟨final, ran, inv, -⟩ := encImage_keeps src last (keptByPixels_true width)
    (fun _ _ _ _ _ _ _ _ => True.intro) (keptByPixels_true _) (by omega) (by omega)
    (show 3 * (width * (last + 1)) < room by omega) (encInv_start width) True.intro
  obtain ⟨orders, finished, script, turn⟩ := inv.finish (by omega)
  have cost := turn.cost inv script
  have denoted := script.denoted
  rw [Nat.sub_zero, take_length] at denoted
  refine ⟨wireAll orders, ?_, by omega, ran.ends_iff.2 finished⟩
  cases orders with
  | nil =>
    rw [← denoted] at length
    have none : 0 = width * (last + 1) := length
    omega
  | cons order orders =>
    have written := order.length_wire_pos
    rw [wireAll, flatMap_cons, length_append]
    omega

/-- The encoder gives up although nothing is pending and its output fits: before the first
scanline, or when the orders of the first one end with it and fill the buffer exactly. -/
def StopsEmpty (cap : Nat) (src : Bytes) (width height : Nat) : Prop :=
  cap = 0 ∨ 1 < height ∧ ∃ e,
    encLine src width (3 * width * (height - 1)) none (startEnc cap) = some e ∧
      e.count = 0 ∧ e.s.pos = cap

/-- What the encoder writes with a small buffer, against the complete stream. -/
structure Closes (cap : Nat) (octets out : Bytes) (stops : Prop) : Prop where
  wrong : stops → out.length ≤ cap ∧ cap < octets.length
  right : ¬ stops → out = octets ∨ cap < out.length ∧ cap < octets.length

theorem closes_below {row line outCount : Nat} {done : List Pixel} {d : Draft}
    {octets : Bytes} (positive : 0 < width)
    (here : AtRow src width room row line outCount done d)
    (complete : d.Ends (fun e => (encLines src width room row (some line) outCount e).bind
      Enc.finish) octets) (cap : Nat) :
    ∃ out, d.Ends (fun e => (encLines src width cap row (some line) outCount e).bind Enc.finish)
        out ∧
      Closes cap octets out (d.count = 0 ∧ (wireAll d.orders).length = cap) := by
  have inv := here.inv
  by_cases empty : d.count = 0 ∧ (wireAll d.orders).length = cap
  · have full : (d.into 0).full cap = true := by
      rw [inv.full_empty empty.1]
      exact decide_eq_true (le_of_eq empty.2.symm)
    obtain ⟨gives, final, ends, gaveUp⟩ := here.gaveUp positive full
    exact ⟨_, gives.ends_iff.2 (inv.finish_empty empty.1), fun _ =>
      ⟨le_of_eq empty.2, gaveUp.beyond _ (ends.ends_iff.1 complete)⟩, fun not =>
        absurd empty not⟩
  · obtain ⟨stop, final, stops, ends, outcome⟩ := encLines_stops positive here
    rcases outcome with rfl | gaveUp
    · exact ⟨octets, stops.ends_iff.2 (ends.ends_iff.1 complete), fun stopped =>
        absurd stopped empty,
        fun _ => .inl rfl⟩
    · obtain ⟨stopped, short, stopInv⟩ := gaveUp.stopped
      obtain ⟨orders, finished, -, turn⟩ := stopInv.finish short
      refine ⟨_, stops.ends_iff.2 finished, fun stopped => absurd stopped empty, fun _ =>
        .inr ⟨?_, gaveUp.beyond _ (ends.ends_iff.1 complete)⟩⟩
      by_cases nothing : stop.count = 0
      · -- only the first scanline can leave nothing pending
        have full := gaveUp.full
        rw [stopInv.full_empty nothing, decide_eq_true_eq] at full
        rw [finished.inj (stopInv.finish_empty nothing)]
        rcases gaveUp.pending with rfl | some
        · exact Nat.lt_of_le_of_ne full fun same => empty ⟨nothing, same.symm⟩
        · omega
      · exact (stopInv.laden gaveUp.full).finish stopInv (Nat.pos_of_ne_zero nothing) turn

/-- **The image, into a small buffer.** -/
theorem closes_image {octets : Bytes} (widthIn : 1 ≤ width ∧ width ≤ 64)
    (heightIn : last < 64) (fits : 3 * (width * (last + 1)) + 3 ≤ room)
    (written : 0 < octets.length) (complete : startDraft.Ends (fun e =>
      (encLines src width room last none (width * 3) e).bind Enc.finish) octets) (cap : Nat) :
    ∃ out, (encLines src width cap last none (width * 3) (startEnc cap)).bind Enc.finish =
        some (Ostrm.of cap out) ∧
      Closes cap octets out (StopsEmpty cap src width (last + 1)) := by
  have area : width * (last + 1) ≤ 64 * 64 := Nat.mul_le_mul widthIn.2 (by omega)
  have lines : 3 * width * last + 3 * width = 3 * (width * (last + 1)) := by
    rw [← Nat.mul_succ, Nat.mul_assoc]
  have inv := encInv_start width
  rw [← into_startDraft]
  by_cases zero : cap = 0
  · have full : (startDraft.into cap).full cap = true := by
      rw [zero]
      rfl
    refine ⟨[], ?_, fun _ => ⟨Nat.zero_le _, by omega⟩, fun not => absurd (.inl zero) not⟩
    rw [encLines_full (by omega) full]
    exact inv.finish_empty rfl cap
  · have notFull : ∀ limit, limit ≠ 0 → ∀ cap, (startDraft.into cap).full limit = false := by
      intro limit some cap
      rw [inv.full_empty rfl]
      exact decide_eq_false fun none => some (Nat.le_zero.1 none)
    obtain ⟨d, ran, nextInv, -⟩ := encFirstLine_keeps (keptByPixels_true width)
      (fun _ _ _ _ _ _ _ _ => True.intro) (by omega) inv True.intro src last
    cases last with
    | zero =>
      have leads : ∀ limit, limit ≠ 0 →
          startDraft.Leads (encLines src width limit 0 none (width * 3)) d :=
        fun limit some cap => encLines_last (by omega) (notFull limit some cap) (ran cap)
      refine ⟨octets, ?_, fun stops => ?_, fun _ => .inl rfl⟩
      · exact (leads cap zero).ends_iff.2 ((leads room (by omega)).ends_iff.1 complete) cap
      · rcases stops with none | ⟨lines, -⟩
        · exact absurd none zero
        · omega
    | succ row =>
      obtain ⟨out, closed, closes⟩ := closes_below widthIn.1
        (atRow_second (by omega) (by omega) (show 3 * (width * (row + 1 + 1)) < room by omega)
          nextInv) (fun cap => (congrArg (bind · Enc.finish)
            (encLines_next (by omega) (notFull room (by omega) cap) (ran cap))).symm.trans
              (complete cap)) cap
      have same : StopsEmpty cap src width (row + 1 + 1) ↔
          d.count = 0 ∧ (wireAll d.orders).length = cap := by
        have first := ran cap
        rw [into_startDraft] at first
        constructor
        · rintro (none | ⟨-, other, again, stops⟩)
          · exact absurd none zero
          · rw [Nat.add_sub_cancel, first] at again
            cases again
            exact stops
        · intro stops
          exact .inr ⟨by omega, _, first, stops⟩
      refine ⟨out, ?_, fun stops => closes.wrong (same.1 stops),
        fun not => closes.right fun stops => not (same.2 stops)⟩
      rw [encLines_next (by omega) (notFull cap zero cap) (ran cap)]
      exact closed cap

theorem not_stopsEmpty (widthIn : 1 ≤ width ∧ width ≤ 64)
    (fits : 3 * (width * (last + 1)) + 3 ≤ cap) : ¬ StopsEmpty cap src width (last + 1) := by
  rintro (zero | ⟨-, e, ran, -, exact⟩)
  · omega
  · have spread : width * (last + 1) = width * last + width := Nat.mul_succ _ _
    obtain ⟨next, again, inv, -⟩ := encFirstLine_keeps (keptByPixels_true width)
      (fun _ _ _ _ _ _ _ _ => True.intro) (by omega) (encInv_start width) True.intro src last
    rw [Nat.add_sub_cancel, ← into_startDraft, again cap] at ran
    cases ran
    have cost := inv.cost
    rw [length_rowPixels] at cost
    have exact : (wireAll next.orders).length = cap := exact
    omega

theorem compress_closes {height : Nat} (src : Bytes) (widthIn : 1 ≤ width ∧ width ≤ 64)
    (heightIn : 1 ≤ height ∧ height ≤ 64) :
    ∃ stream : Bytes, (∀ room, 3 * width * height + 3 ≤ room →
        rdpBitmapRleCompress24 room src width height = some stream) ∧ ∀ cap,
        (StopsEmpty cap src width height →
          rdpBitmapRleCompress24 cap src width height ≠ none ∧ cap < stream.length) ∧
        (¬ StopsEmpty cap src width height → rdpBitmapRleCompress24 cap src width height =
            if stream.length ≤ cap then some stream else none) := by
  obtain ⟨last, rfl⟩ : ∃ last, height = last + 1 := ⟨height - 1, by omega⟩
  have area3 : 3 * width * (last + 1) = 3 * (width * (last + 1)) := Nat.mul_assoc _ _ _
  obtain ⟨octets, written, cost, complete⟩ :=
    complete_stream widthIn (by omega) (Nat.le_refl (3 * (width * (last + 1)) + 3))
  -- with room for all pixels the encoder does not stop empty
  refine ⟨octets, (and_iff_right_of_imp fun closes room fits => ?_).2 fun cap => ?_⟩
  · rw [(closes room).2 (not_stopsEmpty widthIn (by omega)), if_pos (by omega)]
  · obtain ⟨out, closed, closes⟩ :=
      closes_image widthIn (by omega) (le_rfl) written complete cap
    rw [compress_eq widthIn (by omega), closed, bind_some, close_of]
    refine ⟨fun stops => ?_, fun not => ?_⟩
    · rw [if_pos (closes.wrong stops).1]
      exact ⟨nofun, (closes.wrong stops).2⟩
    · rcases closes.right not with rfl | ⟨beyond, more⟩
      · rfl
      · rw [if_neg (Nat.not_le.2 beyond), if_neg (Nat.not_le.2 more)]

/-- **A truncated image is reported as complete only if the encoder stops empty**: in every
other case it succeeds exactly if the complete stream fits, and returns that stream. -/
theorem compress_complete_iff {height : Nat} (widthIn : 1 ≤ width ∧ width ≤ 64)
    (heightIn : 1 ≤ height ∧ height ≤ 64) :
    ∃ stream : Bytes, (∀ room, 3 * width * height + 3 ≤ room →
        rdpBitmapRleCompress24 room src width height = some stream) ∧
      (rdpBitmapRleCompress24 cap src width height =
          (if stream.length ≤ cap then some stream else none) ↔
        ¬ StopsEmpty cap src width height) := by
  obtain ⟨stream, roomy, closes⟩ := compress_closes src widthIn heightIn
  refine ⟨stream, roomy, fun right stops => ?_, (closes cap).2⟩
  obtain ⟨succeeds, beyond⟩ := (closes cap).1 stops
  rw [if_neg (Nat.not_le.2 beyond)] at right
  exact succeeds right

theorem compress_complete_iff_black :
    ∃ stream : Bytes, (∀ room, 3 * 4 * 2 + 3 ≤ room →
        rdpBitmapRleCompress24 room (List.replicate 24 0) 4 2 = some stream) ∧
      (rdpBitmapRleCompress24 2 (List.replicate 24 0) 4 2 =
          (if stream.length ≤ 2 then some stream else none) ↔
        ¬ StopsEmpty 2 (List.replicate 24 0) 4 2) :=
  compress_complete_iff (by decide) (by decide)

/-- **A truncated image is reported as complete**: a black image of four columns and two rows
takes two octets, but with room for one the encoder returns the octet of the first scanline,
and with room for none it returns nothing, both times with success. -/
theorem truncated_reported_complete :
    rdpBitmapRleCompress24 27 (List.replicate 24 0) 4 2 = some [4, 4] ∧
      rdpBitmapRleCompress24 1 (List.replicate 24 0) 4 2 = some [4] ∧
      rdpBitmapRleCompress24 0 (List.replicate 24 0) 4 2 = some [] := by
  decide

end Image

end RdpServer.BitmapRle
