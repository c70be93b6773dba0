import RdpServer.Channels.Rdpgfx
import RdpServer.Daemon.Camera
import RdpServer.Daemon.Tiles
import RdpServer.Lib.Rows

/-!
# Frames on their way to the client

`run_proxy`, as far as the picture goes: the session sends regions of the desktop, and the
worker encodes the whole desktop for the graphics pipeline, composed in a shadow, or cuts the
region into bitmaps. A region may be dropped, since the client has suppressed output, since too
much is queued, or since the client has not acknowledged enough frames.
-/

namespace RdpServer.Daemon

open Channels Channels.Rdpgfx

def shadowBase (shadow : Option Bytes) (dw dh : UInt16) : Bytes :=
  let need := dw.toNat * dh.toNat * 3
  (shadow.filter fun octets => need ≤ octets.length).getD (List.replicate need 0)

/-- `shadow_put`: a region, clipped to the desktop, over what the shadow has. -/
def shadowPut (shadow : Option Bytes) (dw dh : UInt16) (frame : Frame) : Bytes :=
  let base := shadowBase shadow dw dh
  if frame.x ≥ dw ∨ frame.y ≥ dh then base
  else
    let cw := min frame.w.toNat (dw.toNat - frame.x.toNat)
    let ch := min frame.h.toNat (dh.toNat - frame.y.toNat)
    (List.range ch).foldl (fun octets row =>
      Rows.overwrite octets (((frame.y.toNat + row) * dw.toNat + frame.x.toNat) * 3)
        ((frame.pixels.drop (row * frame.w.toNat * 3)).take (cw * 3))) base

inductive GfxAct where
  | capsConfirm (version flags : UInt32)
  | resetGraphics (w h : UInt16)
  | createSurface (w h : UInt16)
  | mapSurface
  /-- An acknowledgement of the client is taken. -/
  | frameAck (frameId : UInt32)
  /-- A picture is given to the encoder. -/
  | encode (w h : UInt16) (picture : Bytes)
  /-- A frame is sent on the graphics channel. -/
  | frame (frameId : UInt32)
  /-- The flow control holds a frame back. -/
  | withhold
  /-- A region is sent as bitmaps. -/
  | bitmap (frame : Frame)

/-- The variables of `run_proxy` that are about the picture. -/
structure GfxProxy where
  dynvc : DynvcState := {}
  allowV10Avc : Bool := false
  allowProgressive : Bool := true
  allowAvc444 : Bool := false
  active : Bool := false
  codec : Codec := .none
  surfaceCreated : Bool := false
  flow : Flow := {}
  /-- The encoders that are open. -/
  h264 : Bool := false
  avc444 : Bool := false
  prog : Bool := false
  desktopW : UInt16
  desktopH : UInt16
  outputSuppressed : Bool := false
  shadow : Option Bytes := none

/-- What the loop is woken by, with what its surroundings answer: which encoders can be
opened and resized, how much is queued, and how large a frame the encoder makes. -/
inductive GfxEvent where
  | dynvc (payload : Bytes) (opens : Codec → Bool) (resizes : Bool)
  | suppressOutput (suppress : Bool)
  | frame (frame : Frame) (outBytes : Nat) (encoded : Option Nat)
  | h264Frame (size : Nat)

namespace GfxProxy

variable (p : GfxProxy)

/-- `RDP_FRAME_QUEUE_HIGH_WATER`. -/
def frameQueueHighWater : Nat := 0x40000

/-- `RDP_FRAME_QUEUE_HARD_CAP`. -/
def frameQueueHardCap : Nat := 0x1000000

def onChannel : Bool := 0 ≤ p.dynvc.dv.gfx.channelId

def gfxClosed : GfxProxy :=
  if p.active then { p with active := false, h264 := false, avc444 := false, prog := false } else p

def resized (size : Nat × Nat) (resizes : Bool) : GfxProxy :=
  let rw := UInt16.ofNat size.1
  let rh := UInt16.ofNat size.2
  if 0 < rw ∧ 0 < rh ∧ (rw ≠ p.desktopW ∨ rh ≠ p.desktopH) then
    { p with
      desktopW := rw
      desktopH := rh
      avc444 := p.avc444 && resizes
      surfaceCreated := false
      shadow := none }
  else p

def openEncoder (codec : Codec) (opens : Codec → Bool) : GfxProxy × Codec :=
  match codec with
  | .avc420 => ({ p with h264 := opens .avc420 }, .avc420)
  | .avc444 =>
    if opens .avc444 then ({ p with avc444 := true }, .avc444)
    else
      ({ p with avc444 := false, h264 := opens .avc420 },
        if opens .avc420 then .avc420 else .avc444)
  | .caprogressive => ({ p with prog := opens .caprogressive }, .caprogressive)
  | .none => (p, .none)

def encodes : Bool := p.h264 || p.avc444 || p.prog

def capsAdvertised (pdu : Bytes) (opens : Codec → Bool) : GfxProxy × List GfxAct :=
  if p.active || !p.onChannel then (p, [])
  else
    match (parseCapsAdvertise pdu).bind fun sets =>
        selectCaps sets p.allowV10Avc p.allowProgressive p.allowAvc444 with
    | none => (p, [])
    | some chosen =>
      let opened := p.openEncoder chosen.codec opens
      if opened.1.encodes then
        ({ opened.1 with active := true, codec := opened.2 },
          [.capsConfirm chosen.version chosen.flags])
      else (opened.1, [])

def frameAcked (pdu : Bytes) : GfxProxy × List GfxAct :=
  match parseFrameAck pdu with
  | none => (p, [])
  | some (queueDepth, frameId) =>
    ({ p with flow := p.flow.ack queueDepth frameId }, [.frameAck frameId])

def gfxPdu (pdu : Bytes) (opens : Codec → Bool) : GfxProxy × List GfxAct :=
  if pdu.length < 2 then (p, [])
  else if Bytes.leValue (pdu.take 2) = cmdidCapsadvertise then p.capsAdvertised pdu opens
  else if Bytes.leValue (pdu.take 2) = cmdidFrameacknowledge then p.frameAcked pdu
  else (p, [])

/-- What the loop does with the outcome of the handler of dynamic channels. -/
def onOutcome (outcome : DvcOutcome) (opens : Codec → Bool) (resizes : Bool) :
    GfxProxy × List GfxAct :=
  if outcome.code = 7 then (p.gfxClosed, [])
  else if outcome.code = 1 then ((outcome.newSize.elim p fun size => p.resized size resizes), [])
  else if outcome.code = 3 then p.gfxPdu (outcome.data.getD []) opens
  else (p, [])

def onDynvc (payload : Bytes) (opens : Codec → Bool) (resizes : Bool) :
    GfxProxy × List GfxAct :=
  if !p.dynvc.enabled ∨ payload.length < 8 then (p, [])
  else
    { p with dynvc := p.dynvc.dispatch payload }.onOutcome
      (p.dynvc.dv.handle (payload.drop 8) 64).2 opens resizes

/-- `ensure_gfx_surface`. -/
def ensureGfxSurface : GfxProxy × List GfxAct :=
  if p.surfaceCreated || !p.onChannel then (p, [])
  else
    ({ p with surfaceCreated := true },
      [.resetGraphics p.desktopW p.desktopH, .createSurface p.desktopW p.desktopH, .mapSurface])

def sendFrame (size : Nat) : GfxProxy × List GfxAct :=
  ({ p with flow := p.flow.nextFrame.frameSent size }, [.frame p.flow.nextFrame.frameId])

/-- The surface is there, and the flow control lets a frame pass that has been made of a
picture. -/
def gfxFrame (picture : List GfxAct) (size : Option Nat) : GfxProxy × List GfxAct :=
  let (p, surface) := p.ensureGfxSurface
  if p.flow.maySendFrame then
    match size with
    | none => (p, surface ++ picture)
    | some size =>
      let (p, sent) := p.sendFrame size
      (p, surface ++ (picture ++ sent))
  else (p, surface ++ [.withhold])

def isFull (frame : Frame) : Bool :=
  frame.x = 0 ∧ frame.y = 0 ∧ frame.w ≥ p.desktopW ∧ frame.h ≥ p.desktopH

def drops (frame : Frame) (outBytes : Nat) : Bool :=
  p.outputSuppressed || (outBytes > frameQueueHighWater && p.isFull frame) ||
    outBytes > frameQueueHardCap

/-- A region goes into the shadow, if it is a part of the desktop or there is a shadow. -/
def compose (frame : Frame) : GfxProxy :=
  if p.active && (!p.isFull frame || p.shadow.isSome) then
    { p with shadow := some (shadowPut p.shadow p.desktopW p.desktopH frame) }
  else p

def picture (frame : Frame) : GfxAct :=
  if p.isFull frame then .encode frame.w frame.h frame.pixels
  else .encode p.desktopW p.desktopH (p.shadow.getD [])

/-- `RDP_BE_FRAME`. -/
def onFrame (frame : Frame) (outBytes : Nat) (encoded : Option Nat) : GfxProxy × List GfxAct :=
  if p.drops frame outBytes then (p, [])
  else
    let p := p.compose frame
    if p.active && p.encodes && p.onChannel then p.gfxFrame [p.picture frame] encoded
    else (p, [.bitmap frame])

/-- `RDP_BE_H264_FRAME`, which the session has encoded. -/
def onH264Frame (size : Nat) : GfxProxy × List GfxAct :=
  if p.outputSuppressed then (p, [])
  else if p.active && p.codec = .avc420 && p.onChannel then p.gfxFrame [] (some size)
  else (p, [])

def step : GfxEvent → GfxProxy × List GfxAct
  | .dynvc payload opens resizes => p.onDynvc payload opens resizes
  | .suppressOutput suppress => ({ p with outputSuppressed := suppress }, [])
  | .frame frame outBytes encoded => p.onFrame frame outBytes encoded
  | .h264Frame size => p.onH264Frame size

end GfxProxy

/-- What becomes of the worker, and what it does, when a PDU of a dynamic channel has been
handled. -/
inductive DynvcTurn (p : GfxProxy) : GfxProxy × List GfxAct → Prop
  | nothing : DynvcTurn p (p, [])
  | closed : DynvcTurn p
      ({ p with active := false, h264 := false, avc444 := false, prog := false }, [])
  | resized {w h : UInt16} (avc444 : Bool) (different : w ≠ p.desktopW ∨ h ≠ p.desktopH) :
      DynvcTurn p ({ p with
        desktopW := w, desktopH := h, avc444 := avc444, surfaceCreated := false
        shadow := none }, [])
  | probed (h264 avc444 prog : Bool) (inactive : p.active = false) :
      DynvcTurn p ({ p with h264 := h264, avc444 := avc444, prog := prog }, [])
  | confirmed (h264 avc444 prog : Bool) (codec : Codec) (version flags : UInt32)
      (inactive : p.active = false) :
      DynvcTurn p ({ p with
        h264 := h264, avc444 := avc444, prog := prog, active := true, codec := codec },
        [.capsConfirm version flags])
  | acked (queueDepth frameId : UInt32) :
      DynvcTurn p ({ p with flow := p.flow.ack queueDepth frameId }, [.frameAck frameId])

def surfaceActs (w h : UInt16) : List GfxAct := [.resetGraphics w h, .createSurface w h,
  .mapSurface]

/-- What is done to have a surface: nothing, or one of the desktop's size is created. -/
def GfxProxy.Prepared (p : GfxProxy) (surface : List GfxAct) : Prop :=
  p.surfaceCreated = true ∧ surface = [] ∨ surface = surfaceActs p.desktopW p.desktopH

/-- What becomes of the worker, and what it does, when it has a picture for the graphics
channel. -/
inductive FrameTurn (p : GfxProxy) (picture : List GfxAct) :
    Option Nat → GfxProxy × List GfxAct → Prop
  | withheld {surface : List GfxAct} {size : Option Nat} (held : p.flow.maySendFrame = false)
      (prepared : p.Prepared surface) :
      FrameTurn p picture size ({ p with surfaceCreated := true }, surface ++ [.withhold])
  | unencoded {surface : List GfxAct} (passes : p.flow.maySendFrame = true)
      (prepared : p.Prepared surface) :
      FrameTurn p picture none ({ p with surfaceCreated := true }, surface ++ picture)
  | sent {surface : List GfxAct} {size : Nat} (passes : p.flow.maySendFrame = true)
      (prepared : p.Prepared surface) :
      FrameTurn p picture (some size)
        ({ p with surfaceCreated := true, flow := p.flow.nextFrame.frameSent size },
          surface ++ (picture ++ [.frame p.flow.nextFrame.frameId]))

namespace GfxProxy

variable (p : GfxProxy)

theorem compose_eq (frame : Frame) : ∃ shadow, p.compose frame = { p with shadow := shadow } := by
  unfold compose
  split_ifs
  · exact ⟨_, rfl⟩
  · exact ⟨p.shadow, rfl⟩

theorem capsAdvertised_turn (pdu : Bytes) (opens : Codec → Bool) :
    DynvcTurn p (p.capsAdvertised pdu opens) := by
  unfold capsAdvertised
  cases active : p.active with
  | true => exact .nothing
  | false =>
    cases onChannel : p.onChannel with
    | false => exact .nothing
    | true =>
      rw [if_neg (by decide)]
      split
      · exact .nothing
      · rename_i chosen _
        obtain ⟨h264, avc444, prog, opened⟩ : ∃ h264 avc444 prog,
            (p.openEncoder chosen.codec opens).1 =
              { p with h264 := h264, avc444 := avc444, prog := prog } := by
          unfold openEncoder
          cases chosen.codec with
          | none | avc420 | caprogressive => exact ⟨_, _, _, rfl⟩
          | avc444 => cases opens .avc444 <;> exact ⟨_, _, _, rfl⟩
        dsimp only
        rw [opened]
        split_ifs
        · exact .confirmed h264 avc444 prog _ _ _ active
        · exact .probed h264 avc444 prog active

theorem onOutcome_turn (outcome : DvcOutcome) (opens : Codec → Bool) (resizes : Bool) :
    DynvcTurn p (p.onOutcome outcome opens resizes) := by
  unfold onOutcome gfxClosed gfxPdu frameAcked
  split_ifs
  · exact .closed
  · exact .nothing
  · cases outcome.newSize with
    | none => exact .nothing
    | some size =>
      rw [Option.elim_some, GfxProxy.resized]
      split_ifs with different
      · exact .resized _ different.2.2
      · exact .nothing
  · exact .nothing
  · exact p.capsAdvertised_turn _ opens
  · split
    · exact .nothing
    · exact .acked _ _
  · exact .nothing
  · exact .nothing

/-- **A PDU on a dynamic channel.** -/
theorem onDynvc_turn (payload : Bytes) (opens : Codec → Bool) (resizes : Bool) :
    DynvcTurn { p with dynvc := p.dynvc.dispatch payload } (p.onDynvc payload opens resizes) := by
  unfold onDynvc
  split_ifs with ignored
  · have same : { p with dynvc := p.dynvc.dispatch payload } = p := by
      rw [DynvcState.dispatch, if_pos ignored]
    rw [same]
    exact .nothing
  · exact onOutcome_turn _ _ opens resizes

/-- **A picture for the graphics channel.** -/
theorem gfxFrame_turn (onChannel : p.onChannel = true) (picture : List GfxAct)
    (size : Option Nat) : FrameTurn p picture size (p.gfxFrame picture size) := by
  obtain ⟨surface, ensured, prepared⟩ : ∃ surface,
      p.ensureGfxSurface = ({ p with surfaceCreated := true }, surface) ∧ p.Prepared surface := by
    by_cases created : p.surfaceCreated = true
    · have same : { p with surfaceCreated := true } = p := by rw [← created]
      exact ⟨[], by rw [same, ensureGfxSurface, created]; rfl, .inl ⟨created, rfl⟩⟩
    · refine ⟨_, if_neg ?_, .inr rfl⟩
      rw [Bool.eq_false_iff.2 created, onChannel]
      decide
  rw [gfxFrame, ensured]
  dsimp only
  cases may : p.flow.maySendFrame with
  | false => exact .withheld may prepared
  | true =>
    cases size with
    | none => exact .unencoded may prepared
    | some size => exact .sent may prepared

end GfxProxy

inductive RegionTurn (p : GfxProxy) (frame : Frame) (outBytes : Nat) (encoded : Option Nat) :
    GfxProxy × List GfxAct → Prop
  | dropped (drops : p.drops frame outBytes = true) : RegionTurn p frame outBytes encoded (p, [])
  | bitmaps (kept : p.drops frame outBytes = false)
      (noPipeline : (p.active && p.encodes && p.onChannel) = false) :
      RegionTurn p frame outBytes encoded (p.compose frame, [.bitmap frame])
  | pipeline {result : GfxProxy × List GfxAct} (kept : p.drops frame outBytes = false)
      (isPipeline : (p.active && p.encodes && p.onChannel) = true) (active : p.active = true)
      (turn : FrameTurn (p.compose frame) [(p.compose frame).picture frame] encoded result) :
      RegionTurn p frame outBytes encoded result

/-- **A region of the session.** -/
theorem GfxProxy.onFrame_turn (p : GfxProxy) (frame : Frame) (outBytes : Nat)
    (encoded : Option Nat) :
    RegionTurn p frame outBytes encoded (p.onFrame frame outBytes encoded) := by
  unfold GfxProxy.onFrame
  cases drops : p.drops frame outBytes with
  | true => exact .dropped drops
  | false =>
    obtain ⟨shadow, composed⟩ := p.compose_eq frame
    have same : ((p.compose frame).active && (p.compose frame).encodes &&
        (p.compose frame).onChannel) = (p.active && p.encodes && p.onChannel) := by
      rw [composed]
      rfl
    dsimp only
    rw [same]
    cases pipeline : p.active && p.encodes && p.onChannel with
    | false => exact .bitmaps drops pipeline
    | true =>
      have both := pipeline
      have onChannel := same.trans pipeline
      simp only [Bool.and_eq_true] at both onChannel
      exact .pipeline drops pipeline both.1.1 (GfxProxy.gfxFrame_turn _ onChannel.2 _ _)

theorem GfxProxy.onH264Frame_turn (p : GfxProxy) (size : Nat) :
    ((!p.outputSuppressed && (p.active && p.codec = .avc420 && p.onChannel)) = false ∧
      p.onH264Frame size = (p, [])) ∨
      ((!p.outputSuppressed && (p.active && p.codec = .avc420 && p.onChannel)) = true ∧
        p.active = true ∧ FrameTurn p [] (some size) (p.onH264Frame size)) := by
  unfold GfxProxy.onH264Frame
  cases p.outputSuppressed with
  | true => exact .inl ⟨rfl, rfl⟩
  | false =>
    cases pipeline : p.active && p.codec = .avc420 && p.onChannel with
    | false => exact .inl ⟨rfl, rfl⟩
    | true =>
      simp only [Bool.and_eq_true] at pipeline
      exact .inr ⟨rfl, pipeline.1.1, p.gfxFrame_turn pipeline.2 [] (some size)⟩

def dynvcChunk (pdu : Bytes) : GfxEvent :=
  .dynvc (List.replicate 8 0 ++ pdu) (fun _ => true) true

/-- The client answers with its capabilities, has the graphics channel created, and
advertises version 8. -/
def openInstance : List GfxEvent :=
  [dynvcChunk [0x50], dynvcChunk [0x10, 1, 0, 0, 0, 0],
    dynvcChunk [0x30, 1, 0x12, 0, 0, 0, 22, 0, 0, 0, 1, 0, 4, 0, 8, 0, 4, 0, 0, 0, 0, 0, 0, 0]]

def ackOf (frameId : UInt8) : GfxEvent :=
  dynvcChunk [0x30, 1, 0x0D, 0, 0, 0, 20, 0, 0, 0, 2, 0, 0, 0, frameId, 0, 0, 0, 1, 0, 0, 0]

end RdpServer.Daemon
