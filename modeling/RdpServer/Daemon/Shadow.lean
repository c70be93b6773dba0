import RdpServer.Daemon.GfxProxy

/-!
# The shadow and the last frame

The picture that the encoder gets for a part of the desktop is the shadow: the composition
of the regions received since the last resize, if every region goes into it or is painted
over by a whole desktop that does (`shadow_composes`). The worker keeps no frame: one that
is not passed on when it comes is never passed on (`last_frame_shown_iff`).
-/

namespace RdpServer

open List Option

def pixelOf (octets : Bytes) (width x y : Nat) : Bytes :=
  (octets.drop ((y * width + x) * 3)).take 3

def Frame.pixelAt (frame : Frame) (x y : Nat) : Option Bytes :=
  if (frame.x.toNat ≤ x ∧ x < frame.x.toNat + frame.w.toNat) ∧
      frame.y.toNat ≤ y ∧ y < frame.y.toNat + frame.h.toNat then
    some (pixelOf frame.pixels frame.w.toNat (x - frame.x.toNat) (y - frame.y.toNat))
  else none

variable {y x : Nat}

theorem pixelOf_congr {first second : Bytes} {width width' x' y' : Nat}
    (same : ∀ c < 3, first[(y * width + x) * 3 + c]? = second[(y' * width' + x') * 3 + c]?) :
    pixelOf first width x y = pixelOf second width' x' y' := by
  refine ext_getElem? fun c => ?_
  rw [pixelOf, pixelOf, getElem?_take, getElem?_take, getElem?_drop, getElem?_drop]
  split_ifs with inside
  · exact same c inside
  · rfl

namespace Daemon

open Channels Channels.Rdpgfx

variable {octets : Bytes}

section Put

variable (shadow : Option Bytes) (dw dh : UInt16) (frame : Frame)

theorem length_shadowBase : dw.toNat * dh.toNat * 3 ≤ (shadowBase shadow dw dh).length := by
  unfold shadowBase
  dsimp only
  cases kept : shadow.filter fun octets => dw.toNat * dh.toNat * 3 ≤ octets.length with
  | none => rw [getD_none, length_replicate]
  | some octets =>
    have large := (filter_eq_some_iff.1 kept).2
    exact of_decide_eq_true large

def clippedRow (row : Nat) : Bytes :=
  (frame.pixels.drop (row * frame.w.toNat * 3)).take
    (min frame.w.toNat (dw.toNat - frame.x.toNat) * 3)

theorem length_clippedRow {row : Nat} (inside : row < frame.h.toNat) :
    (clippedRow dw frame row).length = min frame.w.toNat (dw.toNat - frame.x.toNat) * 3 := by
  have below : (row + 1) * frame.w.toNat ≤ frame.h.toNat * frame.w.toNat :=
    Nat.mul_le_mul_right _ inside
  rw [Nat.succ_mul, Nat.mul_comm frame.h.toNat] at below
  rw [clippedRow, length_take, length_drop, frame.size]
  omega

theorem shadowPut_eq_paste (visible : frame.x < dw ∧ frame.y < dh) :
    shadowPut shadow dw dh frame =
      Rows.paste (dw.toNat * 3) frame.y.toNat (frame.x.toNat * 3) (clippedRow dw frame)
        (shadowBase shadow dw dh) (min frame.h.toNat (dh.toNat - frame.y.toNat)) := by
  have place (row : Nat) : ((frame.y.toNat + row) * dw.toNat + frame.x.toNat) * 3 =
      (frame.y.toNat + row) * (dw.toNat * 3) + frame.x.toNat * 3 := by
    rw [Nat.add_mul, Nat.mul_assoc]
  rw [shadowPut, if_neg (by rw [not_or]; exact ⟨UInt16.not_le.2 visible.1,
    UInt16.not_le.2 visible.2⟩)]
  simp only [place]
  rfl

theorem paste_fits (visible : frame.x < dw ∧ frame.y < dh) :
    frame.x.toNat * 3 + min frame.w.toNat (dw.toNat - frame.x.toNat) * 3 ≤ dw.toNat * 3 ∧
      (∀ row < min frame.h.toNat (dh.toNat - frame.y.toNat),
        (clippedRow dw frame row).length = min frame.w.toNat (dw.toNat - frame.x.toNat) * 3) ∧
      (frame.y.toNat + min frame.h.toNat (dh.toNat - frame.y.toNat)) * (dw.toNat * 3) ≤
        (shadowBase shadow dw dh).length := by
  have left : frame.x.toNat < dw.toNat := visible.1
  have above : frame.y.toNat < dh.toNat := visible.2
  refine ⟨by omega, fun row inside => ?_, ?_⟩
  · exact length_clippedRow dw frame (lt_of_lt_of_le inside (min_le_left _ _))
  · refine le_trans (Nat.mul_le_mul_right _ (m := dh.toNat) (by omega)) ?_
    rw [← Nat.mul_assoc, Nat.mul_comm dh.toNat]
    exact length_shadowBase shadow dw dh

theorem shadowPut_of_hidden (hidden : ¬ (frame.x < dw ∧ frame.y < dh)) :
    shadowPut shadow dw dh frame = shadowBase shadow dw dh := by
  refine if_pos ?_
  rwa [ge_iff_le, ge_iff_le, ← UInt16.not_lt, ← UInt16.not_lt, ← not_and_or]

/-- **What a pixel of the shadow shows** once a region has been put. -/
theorem pixelOf_shadowPut (insideX : x < dw.toNat) (insideY : y < dh.toNat) :
    pixelOf (shadowPut shadow dw dh frame) dw.toNat x y =
      (frame.pixelAt x y).getD (pixelOf (shadowBase shadow dw dh) dw.toNat x y) := by
  by_cases visible : frame.x < dw ∧ frame.y < dh
  · obtain ⟨within, even, large⟩ := paste_fits shadow dw dh frame visible
    have place (c : Nat) : (y * dw.toNat + x) * 3 + c = y * (dw.toNat * 3) + (x * 3 + c) := by
      rw [Nat.add_mul, Nat.mul_assoc, Nat.add_assoc]
    rw [shadowPut_eq_paste shadow dw dh frame visible]
    by_cases covered : (frame.x.toNat ≤ x ∧ x < frame.x.toNat + frame.w.toNat) ∧
        frame.y.toNat ≤ y ∧ y < frame.y.toNat + frame.h.toNat
    · rw [Frame.pixelAt, if_pos covered]
      refine pixelOf_congr fun c octet => ?_
      rw [place, Rows.getElem?_paste within even large (by omega), if_pos (by omega), clippedRow,
        getElem?_take_of_lt (by omega), getElem?_drop]
      congr 1
      omega
    · rw [Frame.pixelAt, if_neg covered]
      refine pixelOf_congr fun c octet => ?_
      rw [place, Rows.getElem?_paste within even large (by omega), if_neg (by omega)]
  · have outside : frame.pixelAt x y = none := by
      refine if_neg fun covered => visible ⟨?_, ?_⟩
      · exact lt_of_le_of_lt covered.1.1 insideX
      · exact lt_of_le_of_lt covered.2.1 insideY
    rw [outside, shadowPut_of_hidden shadow dw dh frame visible]
    rfl

theorem length_shadowPut : dw.toNat * dh.toNat * 3 ≤ (shadowPut shadow dw dh frame).length := by
  have base := length_shadowBase shadow dw dh
  by_cases visible : frame.x < dw ∧ frame.y < dh
  · obtain ⟨within, even, large⟩ := paste_fits shadow dw dh frame visible
    rwa [shadowPut_eq_paste shadow dw dh frame visible, Rows.length_paste within even large]
  · rwa [shadowPut_of_hidden shadow dw dh frame visible]

end Put

def composed (frames : List Frame) (x y : Nat) : Bytes :=
  frames.foldl (fun under frame => (frame.pixelAt x y).getD under) [0, 0, 0]

theorem pixelOf_black {dw dh : UInt16} (insideX : x < dw.toNat) (insideY : y < dh.toNat) :
    pixelOf (shadowBase none dw dh) dw.toNat x y = [0, 0, 0] := by
  have below : (y + 1) * dw.toNat ≤ dh.toNat * dw.toNat := Nat.mul_le_mul_right _ insideY
  rw [Nat.succ_mul, Nat.mul_comm dh.toNat] at below
  have black : shadowBase none dw dh = replicate (dw.toNat * dh.toNat * 3) 0 := rfl
  rw [black, pixelOf, drop_replicate, take_replicate, min_eq_left (by omega)]
  rfl

variable {frame : Frame}

namespace GfxProxy

variable (p : GfxProxy)

def canvas : UInt16 × UInt16 × Option Bytes := (p.desktopW, p.desktopH, p.shadow)

def takes (frame : Frame) (outBytes : Nat) : Bool :=
  !p.drops frame outBytes && (p.active && (!p.isFull frame || p.shadow.isSome))

theorem compose_canvas (frame : Frame) :
    (p.compose frame).canvas = (p.desktopW, p.desktopH,
      if p.active && (!p.isFull frame || p.shadow.isSome) then
        some (shadowPut p.shadow p.desktopW p.desktopH frame)
      else p.shadow) := by
  unfold compose
  split_ifs <;> rfl

end GfxProxy

section Canvas

variable {p : GfxProxy} {result : GfxProxy × List GfxAct}

theorem DynvcTurn.canvas (turn : DynvcTurn p result) :
    result.1.canvas = p.canvas ∨ (result.1.desktopW ≠ p.desktopW ∨ result.1.desktopH ≠ p.desktopH) ∧
        result.1.shadow = none := by
  cases turn with
  | resized avc444 different => exact .inr ⟨different, rfl⟩
  | _ => exact .inl rfl

theorem FrameTurn.canvas {picture : List GfxAct} {size : Option Nat}
    (turn : FrameTurn p picture size result) : result.1.canvas = p.canvas := by
  cases turn <;> rfl

theorem RegionTurn.canvas {outBytes : Nat} {encoded : Option Nat}
    (turn : RegionTurn p frame outBytes encoded result) :
    result.1.canvas = (p.desktopW, p.desktopH,
      if p.takes frame outBytes then some (shadowPut p.shadow p.desktopW p.desktopH frame)
      else p.shadow) := by
  rw [GfxProxy.takes]
  cases turn with
  | dropped drops =>
    rw [drops]
    rfl
  | bitmaps kept noPipeline =>
    rw [kept, p.compose_canvas frame]
    rfl
  | pipeline kept isPipeline active turn =>
    rw [kept, turn.canvas, p.compose_canvas frame]
    rfl

end Canvas

/-- The worker, with the regions that it has received since the last resize, and whether one
of them is missing in the shadow: it has not been put, and no whole desktop has been put
since. -/
structure ShadowTrace where
  proxy : GfxProxy
  received : List Frame := []
  missing : Bool := false

def ShadowTrace.step (t : ShadowTrace) (event : GfxEvent) : ShadowTrace :=
  let next := (t.proxy.step event).1
  match event with
  | .frame frame outBytes _ =>
    { proxy := next
      received := t.received ++ [frame]
      missing := if t.proxy.takes frame outBytes then t.missing && !t.proxy.isFull frame else true }
  | _ =>
    if next.desktopW ≠ t.proxy.desktopW ∨ next.desktopH ≠ t.proxy.desktopH then { proxy := next }
    else { t with proxy := next }

def ShadowTrace.Faithful (t : ShadowTrace) : Prop :=
  t.missing = false → ∀ x < t.proxy.desktopW.toNat, ∀ y < t.proxy.desktopH.toNat,
    pixelOf (shadowBase t.proxy.shadow t.proxy.desktopW t.proxy.desktopH)
      t.proxy.desktopW.toNat x y = composed t.received x y

variable {t : ShadowTrace}

theorem ShadowTrace.Faithful.put (faithful : t.Faithful)
    (unmissed : (t.missing && !t.proxy.isFull frame) = false) (insideX : x < t.proxy.desktopW.toNat)
    (insideY : y < t.proxy.desktopH.toNat) :
    pixelOf (shadowPut t.proxy.shadow t.proxy.desktopW t.proxy.desktopH frame)
      t.proxy.desktopW.toNat x y = composed (t.received ++ [frame]) x y := by
  rw [pixelOf_shadowPut _ _ _ _ insideX insideY, composed, foldl_append, foldl_cons, foldl_nil,
    ← composed]
  cases missing : t.missing with
  | false => rw [faithful missing x insideX y insideY]
  | true =>
    rw [missing, Bool.true_and, Bool.not_eq_false'] at unmissed
    obtain ⟨atX, atY, wide, high⟩ := of_decide_eq_true unmissed
    have wide' : t.proxy.desktopW.toNat ≤ frame.w.toNat := wide
    have high' : t.proxy.desktopH.toNat ≤ frame.h.toNat := high
    rw [Frame.pixelAt, if_pos]
    · rfl
    · rw [atX, atY]
      simp only [UInt16.toNat_zero]
      omega

theorem ShadowTrace.Faithful.other (faithful : t.Faithful) {next : GfxProxy}
    (canvas : next.canvas = t.proxy.canvas ∨
      (next.desktopW ≠ t.proxy.desktopW ∨ next.desktopH ≠ t.proxy.desktopH) ∧ next.shadow = none) :
    ShadowTrace.Faithful
      (if next.desktopW ≠ t.proxy.desktopW ∨ next.desktopH ≠ t.proxy.desktopH then { proxy := next }
      else { t with proxy := next }) := by
  split_ifs with resized
  · rcases canvas with same | ⟨_, none⟩
    · cases next
      cases same
      exact (resized.elim (fun w => w rfl) fun h => h rfl).elim
    · intro _ x insideX y insideY
      rw [none]
      exact pixelOf_black insideX insideY
  · rcases canvas with same | ⟨different, _⟩
    · intro unmissed x insideX y insideY
      have shown := faithful unmissed
      cases next
      cases same
      exact shown x insideX y insideY
    · exact (resized different).elim

theorem ShadowTrace.Faithful.region (faithful : t.Faithful) (frame : Frame)
    (outBytes : Nat) (encoded : Option Nat) :
    (t.step (.frame frame outBytes encoded)).Faithful := by
  have canvas := (t.proxy.onFrame_turn frame outBytes encoded).canvas
  have proxy : (t.step (.frame frame outBytes encoded)).proxy =
    (t.proxy.onFrame frame outBytes encoded).1 := rfl
  intro unmissed x insideX y insideY
  have missing : (t.step (.frame frame outBytes encoded)).missing =
    if t.proxy.takes frame outBytes then t.missing && !t.proxy.isFull frame else true := rfl
  rw [proxy] at insideX insideY ⊢
  generalize (t.proxy.onFrame frame outBytes encoded).1 = next at *
  cases takes : t.proxy.takes frame outBytes with
  | false =>
    rw [missing, takes] at unmissed
    cases unmissed
  | true =>
    rw [missing, takes] at unmissed
    rw [takes] at canvas
    cases next
    cases canvas
    rw [shadowBase, filter_some_pos (by exact decide_eq_true (length_shadowPut _ _ _ _))]
    exact faithful.put unmissed insideX insideY

/-- **Every step keeps the shadow faithful.** -/
theorem ShadowTrace.Faithful.step (faithful : t.Faithful) (event : GfxEvent) :
    (t.step event).Faithful := by
  cases event with
  | frame frame outBytes encoded => exact faithful.region frame outBytes encoded
  | dynvc payload opens resizes =>
    exact faithful.other (t.proxy.onDynvc_turn payload opens resizes).canvas
  | suppressOutput suppress => exact faithful.other (.inl rfl)
  | h264Frame size =>
    refine faithful.other (.inl ?_)
    rcases t.proxy.onH264Frame_turn size with ⟨_, nothing⟩ | ⟨_, _, turn⟩
    · exact congrArg (fun result => result.1.canvas) nothing
    · exact turn.canvas

theorem FrameTurn.encode_mem {p : GfxProxy} {picture : List GfxAct} {size : Option Nat}
    {result : GfxProxy × List GfxAct} (turn : FrameTurn p picture size result) {w h : UInt16}
    (member : .encode w h octets ∈ result.2) : .encode w h octets ∈ picture := by
  have notSurface {surface : List GfxAct} (prepared : p.Prepared surface) :
      .encode w h octets ∉ surface := by
    rcases prepared with ⟨_, rfl⟩ | rfl
    · exact not_mem_nil
    · simp [surfaceActs]
  cases turn with
  | withheld held prepared =>
    rcases mem_append.1 member with surface | isHeld
    · exact (notSurface prepared surface).elim
    · cases mem_singleton.1 isHeld
  | unencoded passes prepared =>
    exact (mem_append.1 member).resolve_left (notSurface prepared)
  | sent passes prepared =>
    rcases mem_append.1 ((mem_append.1 member).resolve_left (notSurface prepared)) with
      isPicture | isFrame
    · exact isPicture
    · cases mem_singleton.1 isFrame

theorem RegionTurn.encode_part {p : GfxProxy} {outBytes : Nat} {encoded : Option Nat}
    {result : GfxProxy × List GfxAct} (turn : RegionTurn p frame outBytes encoded result)
    (part : p.isFull frame = false) {w h : UInt16} (member : .encode w h octets ∈ result.2) :
    w = p.desktopW ∧ h = p.desktopH ∧ octets = shadowPut p.shadow p.desktopW p.desktopH frame := by
  cases turn with
  | dropped drops => exact (not_mem_nil member).elim
  | bitmaps kept noPipeline => cases mem_singleton.1 member
  | pipeline kept isPipeline active turn =>
    have put : p.compose frame =
        { p with shadow := some (shadowPut p.shadow p.desktopW p.desktopH frame) } := by
      rw [GfxProxy.compose, active, part]
      rfl
    have isPicture := mem_singleton.1 (turn.encode_mem member)
    have shown : (p.compose frame).picture frame =
        .encode p.desktopW p.desktopH (shadowPut p.shadow p.desktopW p.desktopH frame) := by
      rw [put]
      exact if_neg (by rw [Bool.not_eq_true]; exact part)
    rw [shown] at isPicture
    cases isPicture
    exact ⟨rfl, rfl, rfl⟩

/-- **The shadow composes the regions**: on every run, the picture that the encoder gets for a
part of the desktop is the composition of the regions received since the last resize, if none
of them is missing in the shadow. -/
theorem shadow_composes {p : GfxProxy} (noShadow : p.shadow = none) {events : List GfxEvent}
    {t : ShadowTrace} (run : events.foldl ShadowTrace.step { proxy := p } = t) {frame : Frame}
    (part : t.proxy.isFull frame = false) (unmissed : t.missing = false) {outBytes : Nat}
    {encoded : Option Nat} {w h : UInt16} {picture : Bytes}
    (given : .encode w h picture ∈ (t.proxy.step (.frame frame outBytes encoded)).2) :
    w = t.proxy.desktopW ∧ h = t.proxy.desktopH ∧ ∀ x < w.toNat, ∀ y < h.toNat,
        pixelOf picture w.toNat x y = composed (t.received ++ [frame]) x y := by
  have start : ShadowTrace.Faithful { proxy := p } := by
    intro _ x insideX y insideY
    dsimp only
    rw [noShadow]
    exact pixelOf_black insideX insideY
  have faithful := Runs.invariant (fun t event before => before.step event) start events
  rw [run] at faithful
  obtain ⟨rfl, rfl, rfl⟩ :=
    (t.proxy.onFrame_turn frame outBytes encoded).encode_part part given
  refine ⟨rfl, rfl, fun x insideX y insideY => ?_⟩
  exact faithful.put (by rw [unmissed]; rfl) insideX insideY

def leftPixel : Frame := { x := 0, y := 0, w := 1, h := 1, pixels := [1, 2, 3], size := rfl }

def rightPixel : Frame := { x := 1, y := 0, w := 1, h := 1, pixels := [4, 5, 6], size := rfl }

def bothPixels : Frame :=
  { x := 0, y := 0, w := 2, h := 1, pixels := [7, 7, 7, 8, 8, 8], size := rfl }

def beginsWith (frame : Frame) : List GfxEvent := openInstance ++ [.frame frame 0 (some 100)]

theorem shadow_composes_two :
    ∃ t, (beginsWith leftPixel).foldl ShadowTrace.step
        { proxy := { desktopW := 2, desktopH := 1 } } = t ∧
      ∀ x < 2, ∀ y < 1,
        pixelOf [1, 2, 3, 4, 5, 6] 2 x y = composed (t.received ++ [rightPixel]) x y := by
  refine ⟨_, rfl, ?_⟩
  have given : GfxAct.encode 2 1 [1, 2, 3, 4, 5, 6] ∈
      (((beginsWith leftPixel).foldl ShadowTrace.step
        { proxy := { desktopW := 2, desktopH := 1 } }).proxy.step
          (.frame rightPixel 0 (some 100))).2 := .head _
  exact (shadow_composes rfl rfl (by decide) (by decide) given).2.2

def picturesOf (acts : List GfxAct) : List Bytes :=
  acts.filterMap fun act => match act with
    | .encode _ _ picture => some picture
    | _ => none

/-- **The first desktop is missing**: with the graphics channel active, a whole desktop comes,
and then its left pixel changes. The picture for that is black on the right, where the
composition shows the desktop. -/
theorem first_desktop_missing :
    ∃ t, (beginsWith bothPixels).foldl ShadowTrace.step
        { proxy := { desktopW := 2, desktopH := 1 } } = t ∧
      picturesOf (t.proxy.step (.frame leftPixel 0 (some 100))).2 = [[1, 2, 3, 0, 0, 0]] ∧
      composed (t.received ++ [leftPixel]) 1 0 = [8, 8, 8] := by
  refine ⟨_, rfl, ?_⟩
  decide

end Daemon

end RdpServer

namespace RdpServer.Daemon

open Channels Channels.Rdpgfx List

inductive Shown where
  | desktop (w h : UInt16) (picture : Bytes)
  | region (frame : Frame)
  /-- A picture that the session has encoded. -/
  | encoded

def shownBy : List GfxAct → List Shown
  | [] => []
  | .encode w h picture :: .frame _ :: rest => .desktop w h picture :: shownBy rest
  | .frame _ :: rest => .encoded :: shownBy rest
  | .bitmap frame :: rest => .region frame :: shownBy rest
  | _ :: rest => shownBy rest

def shownOn (p : GfxProxy) : List GfxEvent → List Shown
  | [] => []
  | event :: events => shownBy (p.step event).2 ++ shownOn (p.step event).1 events

def GfxProxy.run (p : GfxProxy) (events : List GfxEvent) : GfxProxy :=
  events.foldl (fun p event => (p.step event).1) p

theorem shownOn_append (p : GfxProxy) (before after : List GfxEvent) :
    shownOn p (before ++ after) = shownOn p before ++ shownOn (p.run before) after := by
  induction before generalizing p with
  | nil => rfl
  | cons event before ih =>
    rw [cons_append, shownOn, ih, shownOn, append_assoc]
    rfl

def GfxEvent.isFrame : GfxEvent → Bool
  | frame _ _ _ => true
  | h264Frame _ => true
  | _ => false

def Shown.Covers (dw dh : UInt16) : Shown → GfxEvent → Prop
  | .desktop w _ picture, .frame frame _ _ =>
    ∀ x < dw.toNat, ∀ y < dh.toNat, ∀ pixel ∈ frame.pixelAt x y,
      pixelOf picture w.toNat x y = pixel
  | .region sent, .frame frame _ _ => sent = frame
  | .encoded, .h264Frame _ => True
  | _, _ => False

namespace GfxProxy

variable (p : GfxProxy)

/-- A frame is passed on: the client has not suppressed output, not too much is queued, and
on the graphics channel the flow control lets it pass and the encoder has made something of
it. -/
def passesOn : GfxEvent → Bool
  | .frame frame outBytes encoded =>
    !p.drops frame outBytes &&
      (!(p.active && p.encodes && p.onChannel) || (p.flow.maySendFrame && encoded.isSome))
  | .h264Frame _ =>
    !p.outputSuppressed && (p.active && p.codec = .avc420 && p.onChannel) && p.flow.maySendFrame
  | _ => false

end GfxProxy

theorem shownBy_surface {p : GfxProxy} {surface : List GfxAct} (prepared : p.Prepared surface)
    (acts : List GfxAct) : shownBy (surface ++ acts) = shownBy acts := by
  rcases prepared with ⟨_, rfl⟩ | rfl
  · rfl
  · rfl

theorem shownBy_other (p : GfxProxy) {event : GfxEvent} (other : event.isFrame = false) :
    shownBy (p.step event).2 = [] := by
  cases event with
  | dynvc payload opens resizes =>
    have turn := p.onDynvc_turn payload opens resizes
    change shownBy (p.onDynvc payload opens resizes).2 = []
    generalize p.onDynvc payload opens resizes = result at turn
    cases turn <;> rfl
  | suppressOutput suppress => rfl
  | frame frame outBytes encoded => cases other
  | h264Frame size => cases other

theorem shownOn_others (p : GfxProxy) {events : List GfxEvent}
    (others : ∀ event ∈ events, event.isFrame = false) : shownOn p events = [] := by
  induction events generalizing p with
  | nil => rfl
  | cons event events ih =>
    rw [shownOn, shownBy_other p (others event mem_cons_self),
      ih _ fun other later => others other (.tail _ later)]
    rfl

theorem picture_covers (p : GfxProxy) (frame : Frame) (outBytes : Nat) (encoded : Option Nat)
    (active : p.active = true) :
    ∃ w h picture, (p.compose frame).picture frame = .encode w h picture ∧
      (Shown.desktop w h picture).Covers p.desktopW p.desktopH (.frame frame outBytes encoded) := by
  cases full : p.isFull frame with
  | true =>
    obtain ⟨shadow, composed⟩ := p.compose_eq frame
    refine ⟨frame.w, frame.h, frame.pixels, ?_, ?_⟩
    · rw [composed]
      exact if_pos full
    · intro x insideX y insideY pixel shown
      obtain ⟨atX, atY, -, -⟩ := of_decide_eq_true full
      rw [Frame.pixelAt, atX, atY] at shown
      split_ifs at shown
      · exact Option.some.inj shown
      · cases shown
  | false =>
    refine ⟨p.desktopW, p.desktopH, shadowPut p.shadow p.desktopW p.desktopH frame, ?_, ?_⟩
    · rw [GfxProxy.compose, active, full]
      exact if_neg (by rw [Bool.not_eq_true]; exact full)
    · intro x insideX y insideY pixel shown
      rw [pixelOf_shadowPut _ _ _ _ insideX insideY, shown]
      rfl

def Settles (p : GfxProxy) (event : GfxEvent) (acts : List GfxAct) : Prop :=
  (p.passesOn event = false ∧ shownBy acts = []) ∨
    (p.passesOn event = true ∧
      ∃ shown, shownBy acts = [shown] ∧ shown.Covers p.desktopW p.desktopH event)

/-- **A region** is shown exactly if it is passed on. -/
theorem settles_region (p : GfxProxy) (frame : Frame) (outBytes : Nat) (encoded : Option Nat) :
    Settles p (.frame frame outBytes encoded) (p.onFrame frame outBytes encoded).2 := by
  have turn := p.onFrame_turn frame outBytes encoded
  rw [Settles, GfxProxy.passesOn]
  generalize p.onFrame frame outBytes encoded = result at turn
  cases turn with
  | dropped drops =>
    rw [drops]
    exact .inl ⟨rfl, rfl⟩
  | bitmaps kept noPipeline =>
    rw [kept, noPipeline]
    exact .inr ⟨rfl, .region frame, rfl, rfl⟩
  | pipeline kept isPipeline active turn =>
    obtain ⟨shadow, composed⟩ := p.compose_eq frame
    have flow : (p.compose frame).flow = p.flow := by rw [composed]
    obtain ⟨w, h, picture, isPicture, covers⟩ := picture_covers p frame outBytes encoded active
    rw [kept, isPipeline]
    rw [isPicture] at turn
    cases turn with
    | withheld held prepared =>
      rw [flow] at held
      rw [held, shownBy_surface prepared]
      exact .inl ⟨rfl, rfl⟩
    | unencoded passes prepared =>
      rw [shownBy_surface prepared, Option.isSome_none, Bool.and_false]
      exact .inl ⟨rfl, rfl⟩
    | sent passes prepared =>
      rw [flow] at passes
      rw [passes, shownBy_surface prepared]
      exact .inr ⟨rfl, .desktop w h picture, rfl, covers⟩

theorem settles_h264Frame (p : GfxProxy) (size : Nat) :
    Settles p (.h264Frame size) (p.onH264Frame size).2 := by
  rw [Settles, GfxProxy.passesOn]
  rcases p.onH264Frame_turn size with ⟨off, nothing⟩ | ⟨on, _, turn⟩
  · rw [off, nothing]
    exact .inl ⟨rfl, rfl⟩
  · rw [on]
    generalize p.onH264Frame size = result at turn
    cases turn with
    | withheld held prepared =>
      rw [held, shownBy_surface prepared]
      exact .inl ⟨rfl, rfl⟩
    | sent passes prepared =>
      rw [passes, shownBy_surface prepared]
      exact .inr ⟨rfl, .encoded, rfl, True.intro⟩

/-- **The last frame is shown exactly if it is passed on when it comes**: at any later moment
before the next frame, the client has been sent one picture more than before the frame, which
covers it, or no picture more. -/
theorem last_frame_shown_iff {p : GfxProxy} {before after : List GfxEvent} {event : GfxEvent}
    (isFrame : event.isFrame = true) (last : ∀ other ∈ after, other.isFrame = false) :
    (∃ shown, shownOn p (before ++ event :: after) = shownOn p before ++ [shown] ∧
        shown.Covers (p.run before).desktopW (p.run before).desktopH event) ↔
      (p.run before).passesOn event = true := by
  have all : shownOn p (before ++ event :: after) =
      shownOn p before ++ shownBy ((p.run before).step event).2 := by
    rw [shownOn_append, shownOn, shownOn_others _ last, append_nil]
  have either : Settles (p.run before) event ((p.run before).step event).2 := by
    cases event with
    | frame frame outBytes encoded => exact settles_region _ frame outBytes encoded
    | h264Frame size => exact settles_h264Frame _ size
    | dynvc payload opens resizes | suppressOutput suppress => cases isFrame
  rw [all]
  rcases either with ⟨fails, nothing⟩ | ⟨passes, shown, isShown, covers⟩
  · rw [fails, nothing, append_nil]
    refine iff_of_false ?_ Bool.false_ne_true
    rintro ⟨shown, same, -⟩
    have length := congrArg length same
    rw [length_append, length_singleton] at length
    omega
  · rw [isShown]
    exact iff_of_true ⟨shown, rfl, covers⟩ passes

def showPixel (octet : UInt8) : GfxEvent :=
  .frame { x := 0, y := 0, w := 1, h := 1, pixels := [octet, octet, octet], size := rfl } 0
    (some 100)

def desktopsOf (shown : List Shown) : List Bytes :=
  shown.filterMap fun picture => match picture with
    | .desktop _ _ octets => some octets
    | _ => none

/-- The second frame is the last one, and is acknowledged behind it. -/
theorem last_frame_shown_iff_second :
    ∃ shown, shownOn { desktopW := 1, desktopH := 1 }
        ((openInstance ++ [showPixel 1, ackOf 1]) ++ showPixel 2 :: [ackOf 2]) =
      shownOn { desktopW := 1, desktopH := 1 } (openInstance ++ [showPixel 1, ackOf 1]) ++ [shown] ∧
        shown.Covers 1 1 (showPixel 2) :=
  (last_frame_shown_iff rfl (by decide)).2 (by decide)

/-- **The last frame is lost**: the second frame is on its way when the third one comes, and
the client has more queued, so that the third one is held back. In the end output is allowed
and both frames are acknowledged, but the client still shows the second one. -/
theorem last_frame_lost :
    ∃ events p, (openInstance ++ [showPixel 1, ackOf 1, showPixel 2, showPixel 3, ackOf 2]) =
        events ∧ GfxProxy.run { desktopW := 1, desktopH := 1 } events = p ∧
      p.outputSuppressed = false ∧ p.flow.lastAckFrame = p.flow.frameId ∧
      desktopsOf (shownOn { desktopW := 1, desktopH := 1 } events) = [[1, 1, 1], [2, 2, 2]] ∧
      (shownOn { desktopW := 1, desktopH := 1 } events).length = 2 := by
  refine ⟨_, _, rfl, rfl, ?_⟩
  decide

end RdpServer.Daemon
