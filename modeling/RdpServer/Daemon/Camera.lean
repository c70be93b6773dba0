import RdpServer.Channels.Cam
import RdpServer.Channels.Drdynvc

/-!
# The worker's side of the dynamic channels

The worker drives the camera negotiation with the PDUs of the two camera channels, and forwards
each frame of the camera to the session. The negotiation remembers that a camera is there until
the client says that one was removed, whichever it was, and the channel of the device has a life
of its own (`camera_returns_iff`, `removal_spares_iff`).
-/

namespace RdpServer.Daemon

open Bytes Channels

/-- `struct rdp_be_camera` and the frame behind it. -/
structure CameraMsg where
  format : Nat
  width : Nat
  height : Nat
  frame : Bytes
  deriving DecidableEq

def CameraMsg.payload (m : CameraMsg) : Bytes :=
  [low m.format, 0, 0, 0] ++ leBytes 4 m.width ++ leBytes 4 m.height ++ leBytes 4 m.frame.length ++
    m.frame

/-- `RDP_BE_CAMERA_MAX`. -/
def beCameraMax : Nat := 0x400000

/-- `struct dynvc_state` with the options of the server, and what was sent. -/
structure DynvcState where
  enabled : Bool := true
  allowMicrophone : Bool := true
  allowCamera : Bool := true
  dv : Drdynvc := {}
  cam : Cam := {}
  toSession : List CameraMsg := []
  /-- What goes to the client on the static channel, or on a dynamic one. -/
  toClient : List (Option Dvc × Bytes) := []
  deriving DecidableEq

namespace DynvcState

variable (s : DynvcState)

def sendPdu (pdu : Bytes) : DynvcState :=
  if pdu.isEmpty then s else { s with toClient := s.toClient ++ [(none, pdu)] }

def sendBuilt (built : Drdynvc × Bytes) : DynvcState :=
  { s with dv := built.1 }.sendPdu built.2

def offer (wanted : Bool) (pending : Bool) (id : Int) (built : Drdynvc × Bytes) : DynvcState :=
  if wanted && !pending && id < 0 then s.sendBuilt built else s

def offerChannels : DynvcState :=
  let s := s.offer true s.dv.gfx.createPending s.dv.gfx.channelId s.dv.buildCreateGfx
  let s := s.offer true s.dv.dispCreatePending s.dv.dispChannelId s.dv.buildCreateDisp
  let s := s.offer s.allowMicrophone s.dv.audioin.createPending s.dv.audioin.channelId
    s.dv.buildCreateAudioInput
  let s := s.offer true s.dv.rdpei.createPending s.dv.rdpei.channelId s.dv.buildCreateRdpei
  s.offer s.allowCamera s.dv.camenum.createPending s.dv.camenum.channelId s.dv.buildCreateCamEnum

def dvcOf : CamChan → Dvc
  | .enumerator => .camenum
  | .device => .camdev

def camSend (send : Option (CamChan × Bytes)) : DynvcState :=
  match send with
  | none => s
  | some (chan, pdu) =>
    if (s.dv.channel (dvcOf chan)).channelId ≥ 0 then
      { s with toClient := s.toClient ++ [(some (dvcOf chan), pdu)] }
    else s

def camOpen (name : Option Bytes) : DynvcState :=
  match name with
  | none => s
  | some name =>
    if s.dv.camdev.createPending ∨ s.dv.camdev.channelId ≥ 0 then s
    else (s.dv.buildCreateCamDevice name).elim s s.sendBuilt

def camClose (wanted : Bool) : DynvcState :=
  if wanted then s.dv.buildCloseCamDevice.elim s s.sendBuilt else s

def camFrame (frame : Option (MediaType × Bytes)) : DynvcState :=
  match frame with
  | none => s
  | some (mt, octets) =>
    if octets.isEmpty ∨ octets.length > beCameraMax then s
    else
      { s with toSession := s.toSession ++
          [{ format := mt.format, width := mt.width, height := mt.height, frame := octets }] }

/-- `cam_forward_action`. -/
def camForwardAction (act : CamAction) : DynvcState :=
  (((s.camSend act.send).camOpen act.openDevice).camClose act.closeDevice).camFrame act.frame

def camStep (next : Cam × Option CamAction) : DynvcState :=
  next.2.elim { s with cam := next.1 } fun act => { s with cam := next.1 }.camForwardAction act

def camPdu (chan : CamChan) (pdu : Bytes) : DynvcState :=
  if pdu.isEmpty then s else s.camStep (s.cam.negotiate chan pdu)

def onOutcome (outcome : DvcOutcome) : DynvcState :=
  let s := s.sendPdu outcome.resp
  if outcome.code = 5 then s.offerChannels
  else if outcome.code = 14 then s.camStep s.cam.deviceOpened
  else if outcome.code = 15 then s.camPdu .enumerator (outcome.data.getD [])
  else if outcome.code = 16 then s.camPdu .device (outcome.data.getD [])
  else s

/-- A payload on the static channel, as `maybe_dispatch_clip` and its caller take it. -/
def dispatch (payload : Bytes) : DynvcState :=
  if !s.enabled ∨ payload.length < 8 then s
  else
    let (dv, outcome) := s.dv.handle (payload.drop 8) 64
    { s with dv }.onOutcome outcome

end DynvcState

end RdpServer.Daemon

namespace RdpServer.Daemon.DynvcState

open Channels Channels.Cam

variable {s : DynvcState} {pdu name : Bytes} {version : Nat} {m : CamMsg}

theorem camPdu_of_parse (parsed : parse pdu = some m) :
    s.camPdu .enumerator pdu =
      { s with cam := (s.cam.onEnumerator m).1 }.camForwardAction (s.cam.onEnumerator m).2 := by
  have some : pdu.isEmpty = false := by
    cases pdu with
    | nil => cases parsed
    | cons => rfl
  simp [camPdu, some, negotiate, parsed, camStep]

theorem camPdu_of_unparsed (unparsed : parse pdu = none) : s.camPdu .enumerator pdu = s := by
  simp [camPdu, negotiate, unparsed, camStep]

/-- No device channel is open or being opened. -/
def Absent (s : DynvcState) : Prop :=
  s.dv.camdev.createPending = false ∧ s.dv.camdev.channelId < 0

def Acceptable (name : Bytes) : Prop :=
  name.isEmpty = false ∧ name.length ≤ devNameMax ∧ 0 ∉ name

/-- The PDU of the enumerator channel makes the server ask for a device channel with this
name. -/
def Opens (s : DynvcState) (pdu name : Bytes) : Prop :=
  (s.camPdu .enumerator pdu).dv.camdev.createPending = true ∧
    (s.camPdu .enumerator pdu).toClient =
      s.toClient ++ [(none, Drdynvc.createRequest (Drdynvc.serverChanId .camdev) name)]

theorem camOpen_of_absent (absent : s.Absent) (acceptable : Acceptable name) :
    s.camOpen (some name) = s.sendBuilt (s.dv.awaitCreate .camdev,
      Drdynvc.createRequest (Drdynvc.serverChanId .camdev) name) := by
  obtain ⟨some, short, unended⟩ := acceptable
  have closed : ¬ (s.dv.camdev.createPending = true ∨ s.dv.camdev.channelId ≥ 0) := by
    rw [absent.1]
    exact fun either => either.elim Bool.noConfusion (Int.not_le.2 absent.2)
  have named : ¬ (name.isEmpty = true ∨ name.length > 250 ∨ 0 ∈ name) := by
    rw [some]
    exact fun any => any.elim Bool.noConfusion fun rest => rest.elim (Nat.not_lt.2 short) unended
  simp only [camOpen, closed, Drdynvc.buildCreateCamDevice, named]
  rfl

/-- **A camera can come back** when there is no device channel, exactly if none is
remembered: after every sequence of payloads of the client, the next announcement with
an acceptable name makes the server open a channel for it if and only if no camera is
remembered then. -/
theorem camera_returns_iff (start : DynvcState) (payloads : List Bytes)
    (pdu name : Bytes) (version : Nat) (absent : (payloads.foldl dispatch start).Absent)
    (announces : parse pdu = some ⟨version, .deviceAdded name⟩) (acceptable : Acceptable name) :
    (payloads.foldl dispatch start).Opens pdu name ↔
      (payloads.foldl dispatch start).cam.haveDevice = false := by
  generalize payloads.foldl dispatch start = s at absent ⊢
  unfold Opens
  rw [camPdu_of_parse announces]
  unfold onEnumerator
  cases known : s.cam.haveDevice with
  | true =>
    simp only [true_or, if_true]
    exact iff_of_false (fun opens => Bool.noConfusion (absent.1.symm.trans opens.1)) nofun
  | false =>
    have taken : ¬ (false = true ∨ name.isEmpty = true ∨ name.length > devNameMax) := by
      simp [acceptable.1, acceptable.2.1]
    have opens := camOpen_of_absent (s := { s with cam := { s.cam with haveDevice := true } })
      absent acceptable
    simp only [taken, if_false, iff_true, camForwardAction, camSend, opens]
    exact ⟨rfl, rfl⟩

/-- A payload of the static channel with a PDU of the dynamic ones. -/
def payload (pdu : Bytes) : Bytes := List.replicate 8 0 ++ pdu

/-- The capabilities, the answer for the enumerator channel, and a camera with the channel
name A. -/
def announced : List Bytes :=
  [payload [0x50, 0, 3, 0], payload [0x10, 5, 0, 0, 0, 0],
    payload [0x30, 5, 2, 5, 0x43, 0, 0, 0, 0x41, 0]]

theorem camera_returns_iff_removed :
    (((announced ++ [payload [0x30, 5, 2, 6, 0x41, 0]]).foldl dispatch {}).Opens
        [2, 5, 0x43, 0, 0, 0, 0x41, 0] [0x41]) ↔
      ((announced ++ [payload [0x30, 5, 2, 6, 0x41, 0]]).foldl dispatch {}).cam.haveDevice =
        false :=
  camera_returns_iff {} _ _ _ 2 ⟨by decide, by decide⟩ (by decide)
    ⟨by decide, by decide, by decide⟩

/-- The client refuses the channel of the camera, or closes it, and announces the camera
again: nothing comes of it. -/
theorem closed_camera_stays_away :
    (((announced ++ [payload [0x10, 6, 1, 0, 0, 0]]).foldl dispatch {}).Absent ∧
      ¬ ((announced ++ [payload [0x10, 6, 1, 0, 0, 0]]).foldl dispatch {}).Opens
        [2, 5, 0x43, 0, 0, 0, 0x41, 0] [0x41]) ∧
    ((announced ++ [payload [0x40, 6]]).foldl dispatch {}).Absent ∧
      ¬ ((announced ++ [payload [0x40, 6]]).foldl dispatch {}).Opens
        [2, 5, 0x43, 0, 0, 0, 0x41, 0] [0x41] :=
  ⟨⟨⟨by decide, by decide⟩, fun opens => absurd opens.1 (by decide)⟩, ⟨by decide, by decide⟩,
    fun opens => absurd opens.1 (by decide)⟩

/-- The camera in use has its channel, phase and format as before. -/
def Kept (s after : DynvcState) : Prop :=
  after.dv.camdev = s.dv.camdev ∧ after.cam.phase = s.cam.phase ∧ after.cam.sel = s.cam.sel

def Removes (pdu : Bytes) : Prop := ∃ version name, parse pdu =
  some ⟨version, .deviceRemoved name⟩

/-- A camera is in use: it is remembered, and its channel is open or being opened. -/
def InUse (s : DynvcState) : Prop := s.cam.haveDevice = true ∧ 0 < s.dv.camdev.channelId

theorem camPdu_kept (inUse : s.InUse) (spares : ¬ Removes pdu) :
    s.Kept (s.camPdu .enumerator pdu) ∧ (s.camPdu .enumerator pdu).InUse := by
  cases parsed : parse pdu with
  | none =>
    rw [camPdu_of_unparsed parsed]
    exact ⟨⟨rfl, rfl, rfl⟩, inUse⟩
  | some m =>
    obtain ⟨version, body⟩ := m
    rw [camPdu_of_parse parsed]
    unfold onEnumerator
    cases body with
    | selectVersionRequest =>
      dsimp only [camForwardAction, camSend]
      split_ifs <;> exact ⟨⟨rfl, rfl, rfl⟩, inUse⟩
    | deviceAdded name =>
      simp only [inUse.1]
      exact ⟨⟨rfl, rfl, rfl⟩, inUse⟩
    | deviceRemoved name => exact absurd ⟨version, name, parsed⟩ spares
    | _ => exact ⟨⟨rfl, rfl, rfl⟩, inUse⟩

theorem camPdu_removes (inUse : s.InUse) (removes : Removes pdu) :
    ¬ s.Kept (s.camPdu .enumerator pdu) := by
  obtain ⟨version, name, parsed⟩ := removes
  have present : ¬ s.dv.camdev.channelId ≤ 0 := Int.not_le.2 inUse.2
  rw [camPdu_of_parse parsed]
  rintro ⟨same, -⟩
  have gone := congrArg DvcChannel.channelId same
  simp only [onEnumerator, camForwardAction, camSend, camOpen, camClose, if_true,
    Drdynvc.buildCloseCamDevice, present, if_false, Option.elim_some, camFrame, sendBuilt,
    sendPdu, List.isEmpty_cons, Bool.false_eq_true] at gone
  exact present (gone ▸ by decide)

/-- **A camera is spared** by each message of a sequence exactly if no message removes a
camera, be it another one. -/
theorem removal_spares_iff (s : DynvcState) (inUse : s.InUse) (pdus : List Bytes) :
    Runs.Along (fun s pdu => s.camPdu .enumerator pdu)
        (fun s pdu => s.Kept (s.camPdu .enumerator pdu)) s pdus ↔
      ∀ pdu ∈ pdus, ¬ Removes pdu := by
  induction pdus generalizing s with
  | nil => simp [Runs.Along]
  | cons pdu pdus ih =>
    rw [Runs.Along, List.forall_mem_cons]
    by_cases removes : Removes pdu
    · exact iff_of_false (fun kept => camPdu_removes inUse removes kept.1) fun none =>
        none.1 removes
    · obtain ⟨kept, still⟩ := camPdu_kept inUse removes
      exact and_congr (iff_of_true kept removes) (ih _ still)

theorem removal_spares_iff_added :
    Runs.Along (fun s pdu => camPdu s .enumerator pdu)
        (fun s pdu => s.Kept (s.camPdu .enumerator pdu)) (announced.foldl dispatch {})
        [[2, 5, 0x43, 0, 0, 0, 0x42, 0]] ↔
      ∀ pdu ∈ [[2, 5, 0x43, 0, 0, 0, 0x42, 0]], ¬ Removes pdu :=
  removal_spares_iff _ ⟨by decide, by decide⟩ _

/-- The camera A is in use, and B is removed. -/
theorem other_removal_stops :
    (announced.foldl dispatch {}).InUse ∧
      parse [2, 6, 0x42, 0] = some ⟨2, .deviceRemoved [0x42]⟩ ∧
      ((announced.foldl dispatch {}).camPdu .enumerator [2, 6, 0x42, 0]).dv.camdev.channelId =
        -1 :=
  ⟨⟨by decide, by decide⟩, by decide, by decide⟩

end RdpServer.Daemon.DynvcState
