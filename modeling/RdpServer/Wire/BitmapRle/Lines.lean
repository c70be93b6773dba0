import RdpServer.Wire.BitmapRle.Encode

/-!
# The encoder on scanlines

The encoder reads the rows of the image from the last to the first (`imagePixels`). For each
pixel it ends the runs that the pixel does not extend, and counts the pixel in the others
(`encPixel_turn`). What this keeps holds along a scanline and over the image
(`encImage_keeps`). The end of the image writes what is pending (`EncInv.finish`).
-/

namespace RdpServer.BitmapRle

open Bytes Predict List Option

def rowPixels (src : Bytes) (width row : Nat) : List Pixel :=
  (List.range width).map fun j => inPixel src (some (3 * width * row)) j width 0

/-- The pixels of the first `height` rows, from the last row to the first. -/
def imagePixels (src : Bytes) (width : Nat) : Nat → List Pixel
  | 0 => []
  | row + 1 => rowPixels src width row ++ imagePixels src width row

/-- The octets of the first `height` rows, from the last row to the first. -/
def bottomUp (src : Bytes) (width : Nat) : Nat → Bytes
  | 0 => []
  | row + 1 => (src.drop (3 * width * row)).take (3 * width) ++ bottomUp src width row

variable {j : Nat}

section Rows

variable {src : Bytes} {width row : Nat} (height : Nat)

@[simp] theorem length_rowPixels : (rowPixels src width row).length = width := by
  simp [rowPixels]

theorem length_imagePixels : (imagePixels src width height).length = width * height := by
  induction height with
  | zero => rfl
  | succ row ih => rw [imagePixels, length_append, length_rowPixels, ih, Nat.mul_succ, Nat.add_comm]

theorem is24_inPixel {offset j : Nat} (inside : j < width) (last : Pixel) :
    Is24 (inPixel src (some offset) j width last) := by
  have within : ¬ j ≥ width := by omega
  simp only [inPixel, within]
  exact is24_ldPixel _ _ _

theorem getElem?_rowPixels (inside : j < width) (last : Pixel) :
    (rowPixels src width row)[j]? = some (inPixel src (some (3 * width * row)) j width last) := by
  rw [rowPixels, getElem?_map, getElem?_range inside]
  simp [inPixel, not_le.2 inside]

theorem rowPixels_bytes (present : 3 * width * row + 3 * width ≤ src.length) :
    (rowPixels src width row).flatMap pixelBytes =
      (src.drop (3 * width * row)).take (3 * width) := by
  -- by induction on the number of columns taken
  suffices columns : ∀ count, count ≤ width →
      ((range count).map fun j => inPixel src (some (3 * width * row)) j width 0).flatMap
        pixelBytes = (src.drop (3 * width * row)).take (3 * count) by
    exact columns width (le_rfl)
  intro count
  induction count with
  | zero => intro _; rfl
  | succ j ih =>
    intro le
    have within : ¬ j ≥ width := by omega
    have octet : ∀ i, i < 3 → (src.drop (3 * width * row))[3 * j + i]? =
        some (src.getD (3 * width * row + j * 3 + i) 0) := by
      intro i third
      have inside : 3 * width * row + j * 3 + i < src.length := by omega
      rw [getElem?_drop, getD_eq_getElem?_getD,
        show 3 * width * row + (3 * j + i) = 3 * width * row + j * 3 + i by omega,
        getElem?_eq_getElem inside, getD_some]
    have first := octet 0 (by decide)
    have second := octet 1 (by decide)
    have third := octet 2 (by decide)
    rw [Nat.add_zero] at first
    rw [range_succ, map_append, flatMap_append, ih (by omega),
      show 3 * (j + 1) = 3 * j + 1 + 1 + 1 by omega, take_add_one, take_add_one, take_add_one,
      first, second, third]
    simp [inPixel, within, pixelBytes_ldPixel]

theorem imagePixels_bytes (present : 3 * width * height ≤ src.length) :
    (imagePixels src width height).flatMap pixelBytes = bottomUp src width height := by
  induction height with
  | zero => rfl
  | succ row ih =>
    rw [Nat.mul_succ] at present
    rw [imagePixels, flatMap_append, rowPixels_bytes present, ih (by omega), bottomUp]

theorem bottomUp_take {count : Nat} (covered : 3 * width * height ≤ count) :
    bottomUp (src.take count) width height = bottomUp src width height := by
  induction height with
  | zero => rfl
  | succ row ih =>
    rw [Nat.mul_succ] at covered
    rw [bottomUp, bottomUp, ih (by omega), drop_take, take_take, min_eq_left (by omega)]

theorem bottomUp_cons (line : Bytes) (length : line.length = 3 * width) (height : Nat) :
    bottomUp (line ++ src) width (height + 1) = bottomUp src width height ++ line := by
  induction height with
  | zero =>
    rw [bottomUp, bottomUp, bottomUp, append_nil]
    exact take_left' length
  | succ row ih =>
    have skip : (line ++ src).drop (3 * width * (row + 1)) = src.drop (3 * width * row) := by
      rw [Nat.mul_succ, Nat.add_comm, ← drop_drop, drop_left' length]
    rw [bottomUp, ih, skip, bottomUp, append_assoc]

theorem bottomUp_bottomUp (size : src.length = 3 * width * height) :
    bottomUp (bottomUp src width height) width height = src := by
  -- by induction on the rows, for an image cut off at the last row
  suffices rows : ∀ height, 3 * width * height ≤ src.length →
      bottomUp (bottomUp src width height) width height = src.take (3 * width * height) by
    rw [rows height (le_of_eq size.symm), ← size, take_length]
  intro height
  induction height with
  | zero => intro _; rfl
  | succ row ih =>
    intro present
    rw [Nat.mul_succ] at present ⊢
    have length : ((src.drop (3 * width * row)).take (3 * width)).length = 3 * width := by
      rw [length_take, length_drop]
      omega
    have flipped : bottomUp src width (row + 1) =
        (src.drop (3 * width * row)).take (3 * width) ++ bottomUp src width row := rfl
    rw [flipped, bottomUp_cons _ length, ih (by omega), take_add]

end Rows

section Lines

variable {src : Bytes} {width row : Nat} {P Q : List Pixel → Draft → Prop}
  {done : List Pixel} {lastLine : Option Nat} {d : Draft}

/-- The row above the one at hand: none, or the last one in `done`. -/
def RowAbove (src : Bytes) (width row : Nat) (lastLine : Option Nat) (done : List Pixel) :
    Prop :=
  (lastLine = none ∧ done = []) ∨
    (lastLine = some (3 * width * (row + 1)) ∧
      ∃ before, done = before ++ rowPixels src width (row + 1))

theorem ypixel_eq (inside : j < width) (above : RowAbove src width row lastLine done)
    (last : Pixel) :
    inPixel src lastLine j width last =
      aboveOf width (done ++ (rowPixels src width row).take j) := by
  have length : ((rowPixels src width row).take j).length = j := by
    rw [length_take, length_rowPixels]
    omega
  rcases above with ⟨rfl, rfl⟩ | ⟨rfl, before, rfl⟩
  · simp [inPixel, aboveOf, length, inside]
  · have total : ((before ++ rowPixels src width (row + 1)) ++
        (rowPixels src width row).take j).length = before.length + width + j := by
      rw [length_append, length_append, length_rowPixels, length]
    have notFirst : ¬ before.length + width + j < width := by omega
    have column : before.length + width + j - width = before.length + j := by omega
    rw [aboveOf, total, if_neg notFirst, column, getD_eq_getElem?_getD,
      getElem?_append_left (by rw [length_append, length_rowPixels]; omega),
      getElem?_append_right (Nat.le_add_right _ _), Nat.add_sub_cancel_left,
      getElem?_rowPixels inside last, getD_some]

theorem testsOf_right {last : Pixel} (e : Enc) (pixel : Pixel)
    (above : inPixel src lastLine j width last = aboveOf width done) :
    (testsOf lastLine pixel (inPixel src lastLine j width last) e.lastPixel).Right width done e
      pixel := by
  cases lastLine with
  | none =>
    refine ⟨?_, ?_, ?_⟩ <;> try rw [← above]
    all_goals simp only [testsOf, inPixel, isNone_none, isSome_none, Bool.true_and,
        Bool.false_and, Bool.or_false, beq_iff_eq, UInt32.zero_xor]
  | some line =>
    refine ⟨?_, ?_, ?_⟩ <;> try rw [← above]
    all_goals simp only [testsOf, isNone_some, isSome_some, Bool.true_and,
        Bool.false_and, Bool.false_or, beq_iff_eq]

/-- **One pixel of a scanline** ends runs and is counted. -/
theorem encPixel_turn (inside : j < width) (bound : done.length < 65536)
    (above : ∀ last, inPixel src lastLine j width last = aboveOf width done)
    (inv : EncInv width done d) :
    ∃ t pixel ended, (rowPixels src width row)[j]? = some pixel ∧ EncInv width done ended ∧
      Ended done (Enc.ending t) d ended ∧
      d.Leads (encPixel src width (3 * width * row) lastLine · j)
        (ended.push t pixel (aboveOf width done)) ∧
      EncInv width (done ++ [pixel]) (ended.push t pixel (aboveOf width done)) := by
  have right := testsOf_right d.toEnc (inPixel src (some (3 * width * row)) j width d.lastPixel)
    (above d.lastYpixel)
  obtain ⟨ended, ends, endedInv, turn⟩ := inv.endAll bound (Enc.ending _)
  refine ⟨_, _, ended, getElem?_rowPixels inside d.lastPixel, endedInv, turn, fun cap => ?_,
    endedInv.push ⟨right.fill, right.mix, by rw [turn.last]; exact right.color⟩
      (is24_inPixel inside d.lastPixel) fun kind fails => turn.zero kind (Enc.mem_ending.2 fails)⟩
  have same : (d.into cap).endRuns _ = _ := ((d.into cap).endRuns_eq _).trans (ends cap)
  rw [← above d.lastYpixel]
  exact congrArg (Option.map _) same

/-- What a pixel keeps that is not yet beyond the first `limit` ones. -/
def KeptByPixels (width limit : Nat) (P : List Pixel → Draft → Prop) : Prop :=
  ∀ done d t pixel ended, EncInv width done d → done.length < limit → EncInv width done ended →
    Ended done (Enc.ending t) d ended → P done d →
    P (done ++ [pixel]) (ended.push t pixel (aboveOf width done))

theorem keptByPixels_true (limit : Nat) : KeptByPixels width limit fun _ _ => True :=
  fun _ _ _ _ _ _ _ _ _ _ => True.intro

/-- **The pixel loop**, by induction on the columns done, with what its pixels keep. -/
theorem encPixels_keeps (keeps : KeptByPixels width (done.length + width) P)
    (above : RowAbove src width row lastLine done) (bound : done.length + width < 65536)
    (inv : EncInv width done d) (start : P done d) (count : Nat) (le : count ≤ width) :
    ∃ next, d.Leads ((List.range count).foldlM (encPixel src width (3 * width * row) lastLine))
        next ∧
      EncInv width (done ++ (rowPixels src width row).take count) next ∧
      P (done ++ (rowPixels src width row).take count) next := by
  induction count with
  | zero =>
    refine ⟨d, fun _ => rfl, ?_⟩
    rw [take_zero, append_nil]
    exact ⟨inv, start⟩
  | succ j ih =>
    obtain ⟨middle, ran, middleInv, kept⟩ := ih (by omega)
    have early : (done ++ (rowPixels src width row).take j).length < done.length + width := by
      rw [length_append, length_take]
      omega
    obtain ⟨t, pixel, ended, here, endedInv, turn, stepped, nextInv⟩ :=
      encPixel_turn (by omega) (lt_trans early bound) (ypixel_eq (by omega) above) middleInv
    rw [take_add_one, here, ← append_assoc]
    refine ⟨_, fun cap => ?_, nextInv, keeps _ _ _ _ _ middleInv early endedInv turn kept⟩
    change (range (j + 1)).foldlM _ (d.into cap) = _
    rw [range_succ, foldlM_append, show (range j).foldlM _ (d.into cap) = _ from ran cap]
    exact (bind_fun_some _).trans (stepped cap)

/-- What the end of the first scanline makes of what its pixels keep. -/
def KeptByEnd (width : Nat) (P Q : List Pixel → Draft → Prop) : Prop :=
  ∀ done d next, EncInv width done d → done.length = width → EncInv width done next →
    Ended done [.fill, .mix, .fom] d next → P done d → Q done next

/-- **The first scanline.** -/
theorem encFirstLine_keeps (keeps : KeptByPixels width width P) (ends : KeptByEnd width P Q)
    (bound : width < 65536) (inv : EncInv width [] d) (start : P [] d) (src : Bytes)
    (row : Nat) :
    ∃ next, d.Leads (encLine src width (3 * width * row) none) next ∧
      EncInv width (rowPixels src width row) next ∧ Q (rowPixels src width row) next := by
  have fromZero : KeptByPixels width (([] : List Pixel).length + width) P := by
    rw [length_nil, Nat.zero_add]
    exact keeps
  have above : RowAbove src width row none [] := .inl ⟨rfl, rfl⟩
  obtain ⟨middle, ran, middleInv, kept⟩ := encPixels_keeps fromZero above
    (by rw [length_nil]; omega) inv start width (le_rfl)
  rw [nil_append, take_of_length_le (le_of_eq length_rowPixels)] at middleInv kept
  obtain ⟨next, ended, nextInv, turn⟩ :=
    middleInv.endAll (by rw [length_rowPixels]; exact bound) [.fill, .mix, .fom]
  exact ⟨next, ran.bind fun cap => ((middle.into cap).endFirstLine_eq).trans (ended cap), nextInv,
    ends _ _ _ middleInv length_rowPixels nextInv turn kept⟩

theorem EncInv.not_full {room : Nat} (inv : EncInv width done d) (fits : 3 * done.length < room)
    (cap : Nat) : (d.into cap).full room = false := by
  have cost := inv.cost
  have slack : ¬ (Order.wireAll d.orders).length + 3 * d.count - 3 * d.counts.bicolorCount ≥
      room := by
    omega
  simp only [Enc.full, Draft.into, Ostrm.of, slack, decide_false, Bool.and_false, Bool.false_and]

section Loop

variable {room outCount : Nat} {e middle : Enc} {after : Draft}

theorem encLines_full (early : outCount < 32768) (full : e.full room = true) :
    encLines src width room row lastLine outCount e = some e := by
  cases row <;> rw [encLines, if_neg (not_not.2 early), if_pos full]

theorem encLines_last (early : outCount < 32768) (notFull : e.full room = false)
    (ran : encLine src width (3 * width * 0) lastLine e = some middle) :
    encLines src width room 0 lastLine outCount e = some middle := by
  rw [encLines, if_neg (not_not.2 early), notFull, if_neg Bool.false_ne_true, ran, bind_some]

theorem encLines_next (early : outCount < 32768) (notFull : e.full room = false)
    (ran : encLine src width (3 * width * (row + 1)) lastLine e = some middle) :
    encLines src width room (row + 1) lastLine outCount e =
      encLines src width room row (some (3 * width * (row + 1))) (outCount + width * 3) middle := by
  rw [encLines, if_neg (not_not.2 early), notFull, if_neg Bool.false_ne_true, ran, bind_some]

/-- The encoder is at a row below the first, with room for all pixels. -/
structure AtRow (src : Bytes) (width room row line outCount : Nat) (done : List Pixel)
    (d : Draft) : Prop where
  above : RowAbove src width row (some line) done
  bound : done.length + width * (row + 1) < 65536
  early : outCount + 3 * width * row < 32768
  fits : 3 * (done.length + width * (row + 1)) < room
  inv : EncInv width done d

variable {line : Nat}

section

variable (here : AtRow src width room row line outCount done d)
include here

theorem AtRow.early_here : outCount < 32768 := lt_of_le_of_lt (Nat.le_add_right _ _) here.early

theorem AtRow.notFull : ∀ cap, (d.into cap).full room = false := by
  have fits := here.fits
  exact here.inv.not_full (by omega)

/-- **A scanline below the first** keeps what its pixels keep. -/
theorem AtRow.scanline (keeps : KeptByPixels width 65536 P) (start : P done d) :
    ∃ next, d.Leads (encLine src width (3 * width * row) (some line)) next ∧
      EncInv width (done ++ rowPixels src width row) next ∧
      P (done ++ rowPixels src width row) next := by
  have bound := here.bound
  rw [Nat.mul_succ] at bound
  obtain ⟨next, ran, nextInv, kept⟩ := encPixels_keeps
    (fun done d t pixel ended inv early => keeps done d t pixel ended inv (by omega)) here.above
    (by omega) here.inv start width (le_rfl)
  rw [take_of_length_le (le_of_eq length_rowPixels)] at nextInv kept
  exact ⟨next, ran.bind fun _ => rfl, nextInv, kept⟩

end

theorem AtRow.next (here : AtRow src width room (row + 1) line outCount done d)
    (inv : EncInv width (done ++ rowPixels src width (row + 1)) after) :
    AtRow src width room row (3 * width * (row + 1)) (outCount + width * 3)
      (done ++ rowPixels src width (row + 1)) after := by
  obtain ⟨-, bound, early, fits, -⟩ := here
  rw [Nat.mul_succ] at bound early fits
  have length : (done ++ rowPixels src width (row + 1)).length = done.length + width := by
    rw [length_append, length_rowPixels]
  exact ⟨.inr ⟨rfl, done, rfl⟩, by rw [length]; omega, by omega, by rw [length]; omega, inv⟩

theorem atRow_second (bound : width * (row + 1 + 1) < 65536)
    (early : width * 3 + 3 * width * (row + 1) < 32768) (fits : 3 * (width * (row + 1 + 1)) < room)
    (inv : EncInv width (rowPixels src width (row + 1)) after) :
    AtRow src width room row (3 * width * (row + 1)) (width * 3 + width * 3)
      (rowPixels src width (row + 1)) after := by
  rw [Nat.mul_succ] at bound fits
  rw [Nat.mul_succ (3 * width)] at early
  exact ⟨.inr ⟨rfl, [], rfl⟩, by rw [length_rowPixels]; omega, by omega,
    by rw [length_rowPixels]; omega, inv⟩

end Loop

/-- **The scanlines below the first**, by induction on the rows left, when there is room for
all pixels. -/
theorem encLines_keeps {room line outCount : Nat} (keeps : KeptByPixels width 65536 P)
    (here : AtRow src width room row line outCount done d) (start : P done d) :
    ∃ next, d.Leads (encLines src width room row (some line) outCount) next ∧
      EncInv width (done ++ imagePixels src width (row + 1)) next ∧
      P (done ++ imagePixels src width (row + 1)) next := by
  induction row generalizing line outCount done d with
  | zero =>
    obtain ⟨next, ran, nextInv, kept⟩ := here.scanline keeps start
    refine ⟨next, fun cap => encLines_last here.early_here (here.notFull cap) (ran cap), ?_⟩
    rw [imagePixels, imagePixels, append_nil]
    exact ⟨nextInv, kept⟩
  | succ row ih =>
    obtain ⟨middle, ran, middleInv, middleKept⟩ := here.scanline keeps start
    obtain ⟨next, looped, nextInv, kept⟩ := ih (here.next middleInv) middleKept
    refine ⟨next, fun cap => ?_, ?_⟩
    · rw [encLines_next here.early_here (here.notFull cap) (ran cap)]
      exact looped cap
    · rw [imagePixels, ← append_assoc]
      exact ⟨nextInv, kept⟩

/-- **The whole image**, when there is room for all its pixels: `P` holds on the first
scanline and `Q` below it. -/
theorem encImage_keeps (src : Bytes) (last : Nat) {room : Nat}
    (first : KeptByPixels width width P)
    (ends : KeptByEnd width P Q) (later : KeptByPixels width 65536 Q)
    (bound : width * (last + 1) < 65536) (early : width * 3 + 3 * width * last < 32768)
    (fits : 3 * (width * (last + 1)) < room) (inv : EncInv width [] d) (start : P [] d) :
    ∃ next, d.Leads (encLines src width room last none (width * 3)) next ∧
      EncInv width (imagePixels src width (last + 1)) next ∧
      Q (imagePixels src width (last + 1)) next := by
  have notFull := inv.not_full (by rw [length_nil]; omega : 3 * ([] : List Pixel).length < room)
  obtain ⟨middle, ran, middleInv, kept⟩ :=
    encFirstLine_keeps first ends (by omega) inv start src last
  cases last with
  | zero =>
    refine ⟨middle, fun cap => encLines_last (by omega) (notFull cap) (ran cap), ?_⟩
    rw [imagePixels, imagePixels, append_nil]
    exact ⟨middleInv, kept⟩
  | succ row =>
    obtain ⟨next, looped, nextInv, nextKept⟩ :=
      encLines_keeps later (atRow_second bound early fits middleInv) kept
    refine ⟨next, fun cap => ?_, nextInv, nextKept⟩
    rw [encLines_next (by omega) (notFull cap) (ran cap)]
    exact looped cap

end Lines

/-- The draft to start from. -/
def startDraft : Draft := { s := ⟨[], 0, 0, false⟩, orders := [] }

theorem encInv_start (width : Nat) : EncInv width [] startDraft :=
  EncInv.idle (d := startDraft) nofun (by decide : (0 : Pixel).toNat < 2 ^ 24) ⟨nofun, rfl⟩
    (le_rfl)

open Enc

section Script

variable {width : Nat} {done : List Pixel} {d : Draft} {orders : List Order}

/-- What a step writes in the end, whatever the capacity. -/
def Draft.Ends (d : Draft) (step : Enc → Option Ostrm) (octets : Bytes) : Prop :=
  ∀ cap, step (d.into cap) = some (Ostrm.of cap octets)

theorem Draft.Ends.inj {step : Enc → Option Ostrm} {first second : Bytes}
    (one : d.Ends step first) (two : d.Ends step second) : first = second := by
  have same : ∀ cap, Ostrm.of cap first = Ostrm.of cap second := fun cap =>
    Option.some.inj ((one cap).symm.trans (two cap))
  have length : first.length = second.length := congrArg Ostrm.pos (same 0)
  have kept : first.take first.length = second.take first.length :=
    congrArg Ostrm.buf (same first.length)
  rwa [take_length, length, take_length] at kept

theorem Draft.Leads.ends_iff {step : Enc → Option Enc} {next : Draft} {octets : Bytes}
    (leads : d.Leads step next) :
    d.Ends (fun e => (step e).bind finish) octets ↔ next.Ends finish octets :=
  forall_congr' fun cap => by simp only [leads cap, Option.bind_some]

/-- The orders after the end of the image. -/
inductive Finished (done : List Pixel) (d : Draft) : List Order → Prop
  | literals : Finished done d (d.orders ++ literalOrders done d.count 0)
  | run {kind : Kind} {order : Order} (isKind : order.kind = some kind)
      (counted : order.count = d.counts.of kind) (long : 3 < order.count)
      (less : order.count ≤ d.count) :
      Finished done d (d.orders ++ literalOrders done d.count order.count ++ [order])

/-- **The end of the image** writes what is pending. -/
theorem EncInv.finish (inv : EncInv width done d) (bound : done.length < 65536) :
    ∃ orders, d.Ends finish (Order.wireAll orders) ∧ Script width done 0 orders ∧
      Finished done d orders := by
  cases due : d.counts.due with
  | none =>
    refine ⟨_, fun cap => ?_, inv.script.copy bound inv.narrow inv.pending (Nat.zero_le _),
      .literals⟩
    rw [finish_eq, show (d.into cap).counts.due = _ from due]
    exact congrArg some (outCopyCount_literals d.orders 0 cap inv.pending inv.temp)
  | some kind =>
    have dominant := Count.dominant_of_due due
    obtain ⟨next, flushed, nextInv, rfl⟩ := inv.flush bound dominant
    refine ⟨_, fun cap => ?_, nextInv.script, .run (d.kind_run kind) (d.count_run kind)
      (by rw [count_run]; exact dominant.1) (by rw [count_run]; exact inv.le kind)⟩
    rw [finish_eq, show (d.into cap).counts.due = _ from due]
    exact congrArg (Option.map s) (flushed cap)

/-- What is written at the end takes at most three octets more than the pixels. -/
theorem Finished.cost (finished : Finished done d orders) (inv : EncInv width done d)
    (script : Script width done 0 orders) :
      (Order.wireAll orders).length ≤ 3 * done.length + 3 := by
  have cost := inv.cost
  cases finished with
  | literals =>
    have literals := length_wireAll_literalOrders done d.count 0
    rw [Order.wireAll_append, length_append]
    omega
  | @run kind order isKind counted long less =>
    have literals := length_wireAll_literalOrders done d.count order.count
    have cheap := Order.length_wire_run (script.wf order (mem_append_right _ mem_cons_self)) long
      isKind
    rw [length_wireAll_run]
    omega

end Script

section Image

variable {width cap last : Nat} {src : Bytes}

def startEnc (cap : Nat) : Enc := { s := ⟨[], 0, cap, false⟩ }

theorem into_startDraft (cap : Nat) : startDraft.into cap = startEnc cap := by
  simp [Draft.into, startDraft, startEnc, Ostrm.of, Order.wireAll]

def Ostrm.close (s : Ostrm) : Option Bytes := if s.ovf then none else some s.buf

theorem close_of (cap : Nat) (octets : Bytes) :
    (Ostrm.of cap octets).close = if octets.length ≤ cap then some octets else none := by
  by_cases fits : octets.length ≤ cap
  · simp [Ostrm.close, Ostrm.of, Nat.not_lt.2 fits, take_of_length_le fits]
  · simp [Ostrm.close, Ostrm.of, Nat.lt_of_not_le fits]

theorem compress_eq (widthIn : 1 ≤ width ∧ width ≤ 64) (heightIn : last < 64) :
    rdpBitmapRleCompress24 cap src width (last + 1) =
      ((encLines src width cap last none (width * 3) (startEnc cap)).bind finish).bind
        Ostrm.close := by
  have accepted : ¬ (width = 0 ∨ last + 1 = 0 ∨ width > rleMaxDim ∨ last + 1 > rleMaxDim) := by
    simp only [rleMaxDim]
    omega
  rw [rdpBitmapRleCompress24, if_neg accepted, Option.bind_assoc]
  rfl

end Image

end RdpServer.BitmapRle
