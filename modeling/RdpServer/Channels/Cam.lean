import RdpServer.Lib.Bytes
import RdpServer.Lib.Runs

/-!
# Camera redirection

`cam.c`: the client announces cameras on the enumerator channel; the server opens a
channel for one of them, asks for its streams and media types, selects an uncompressed one
and pulls frames. The negotiation is a state machine that is driven by the PDUs of the client
(`negotiate`) and says what its caller is to do (`CamAction`). A selected format fits the
bound for frames if the computation of its size does not wrap around (`selected_fits_iff`).
-/

namespace RdpServer.Channels

open Bytes

/-- `struct rdp_cam_media_type`. -/
structure MediaType where
  format : Nat
  width : Nat
  height : Nat
  frameRateNum : Nat
  frameRateDen : Nat
  aspectNum : Nat
  aspectDen : Nat
  flags : Nat
  deriving DecidableEq

inductive CamBody where
  | successResponse
  | errorResponse
  | selectVersionRequest
  | deviceAdded (channelName : Bytes)
  | deviceRemoved (channelName : Bytes)
  | streamListResponse
  | mediaTypeListResponse (mediaTypes : List MediaType)
  | sampleResponse (sample : Bytes)
  | sampleErrorResponse
  /-- A PDU that the server takes no notice of. -/
  | other
  deriving DecidableEq

/-- `struct rdp_cam_msg`, with what the negotiation reads. -/
structure CamMsg where
  version : Nat
  body : CamBody
  deriving DecidableEq

namespace Cam

def ld32 (octets : Bytes) (offset : Nat) : Nat := leValue ((octets.drop offset).take 4)

def byteAt (octets : Bytes) (offset : Nat) : Nat := (octets.getD offset 0).toNat

def maxMediaTypes : Nat := 64

def mediaTypeSize : Nat := 26

def behindUtf16Nul : Bytes → Option Bytes
  | a :: b :: rest => if a = 0 ∧ b = 0 then some rest else behindUtf16Nul rest
  | _ => none

/-- The bytes before a terminator, which is there; an empty name is of no use. -/
def channelName (octets : Bytes) : Option Bytes :=
  if 0 ∉ octets then none
  else
    let name := octets.takeWhile (· != 0)
    if name.isEmpty then none else some name

/-- `parse_device_added`: the name of the device, then that of its channel. -/
def parseDeviceAdded (body : Bytes) : Option Bytes :=
  (behindUtf16Nul body).bind channelName

def readMediaType (p : Bytes) : MediaType where
  format := byteAt p 0
  width := ld32 p 1
  height := ld32 p 5
  frameRateNum := ld32 p 9
  frameRateDen := ld32 p 13
  aspectNum := ld32 p 17
  aspectDen := ld32 p 21
  flags := byteAt p 25

def mediaTypes (body : Bytes) : List MediaType :=
  (List.range (min (body.length / mediaTypeSize) maxMediaTypes)).map fun i =>
    readMediaType (body.drop (i * mediaTypeSize))

def parseBody (msgId : Nat) (body : Bytes) : Option CamBody :=
  match msgId with
  | 0x01 => some .successResponse
  | 0x02 => if body.length < 4 then none else some .errorResponse
  | 0x03 => some .selectVersionRequest
  | 0x05 => (parseDeviceAdded body).map .deviceAdded
  | 0x06 => (channelName body).map .deviceRemoved
  | 0x0A => if body.length < 5 then none else some .streamListResponse
  | 0x0C => some (.mediaTypeListResponse (mediaTypes body))
  | 0x0E => if body.length < mediaTypeSize then none else some .other
  | 0x12 => if body.length < 1 then none else some (.sampleResponse (body.drop 1))
  | 0x13 => if body.length < 5 then none else some .sampleErrorResponse
  | 0x17 => if body.length < 5 then none else some .other
  | _ => some .other

/-- `rdp_cam_parse`. -/
def parse (p : Bytes) : Option CamMsg :=
  if p.length < 2 then none
  else if byteAt p 1 < 0x01 ∨ byteAt p 1 > 0x18 then none
  else (parseBody (byteAt p 1) (p.drop 2)).map fun body => { version := byteAt p 0, body }

/-- `CAM_FRAME_MAX`. -/
def frameMax : Nat := 0x3F0000

/-- `frame_size`, in 64 bits: the size of a frame, 0 for a format that is not raw. -/
def frameSize (mt : MediaType) : Nat :=
  let px := mt.width * mt.height % 0x10000000000000000
  match mt.format with
  | 4 | 5 => px * 3 % 0x10000000000000000 / 2
  | 3 => px * 2 % 0x10000000000000000
  | 6 => px * 3 % 0x10000000000000000
  | 7 => px * 4 % 0x10000000000000000
  | _ => 0

def preferred : List Nat := [4, 5, 3, 6, 7]

def usable (mt : MediaType) : Bool :=
  mt.flags &&& 1 == 0 && mt.width != 0 && mt.height != 0 && frameSize mt != 0 &&
    frameSize mt ≤ frameMax

/-- `pick_media_type`. -/
def pickMediaType (offered : List MediaType) : Option MediaType :=
  preferred.findSome? fun format => offered.find? fun mt => mt.format == format && usable mt

/-- `put_media_type`. -/
def putMediaType (mt : MediaType) : Bytes :=
  [low mt.format] ++ leBytes 4 mt.width ++ leBytes 4 mt.height ++ leBytes 4 mt.frameRateNum ++
    leBytes 4 mt.frameRateDen ++ leBytes 4 mt.aspectNum ++ leBytes 4 mt.aspectDen ++
    [low mt.flags]

def header (version : Nat) (msgId : UInt8) : Bytes := [low version, msgId]

def selectVersionResponse (version : Nat) : Bytes := header version 0x04

def activateRequest (version : Nat) : Bytes := header version 0x07

def streamListRequest (version : Nat) : Bytes := header version 0x09

def mediaTypeListRequest (version : Nat) : Bytes := header version 0x0B ++ [0]

def startStreamsRequest (version : Nat) (mt : MediaType) : Bytes :=
  header version 0x0F ++ [0] ++ putMediaType mt

def sampleRequest (version : Nat) : Bytes := header version 0x11 ++ [0]

end Cam

inductive CamPhase where
  | init
  | activating
  | streamList
  | mediaList
  | starting
  | streaming
  | stopped
  deriving DecidableEq

def camProtoVersion : Nat := 2

/-- `struct rdp_cam_state`, with the selected media type if it is valid. -/
structure Cam where
  phase : CamPhase := .init
  version : Nat := camProtoVersion
  haveDevice : Bool := false
  sel : Option MediaType := none
  deriving DecidableEq

inductive CamChan where
  | enumerator
  | device
  deriving DecidableEq

/-- `struct rdp_cam_action`. -/
structure CamAction where
  send : Option (CamChan × Bytes) := none
  /-- Open the channel of the device with this name. -/
  openDevice : Option Bytes := none
  closeDevice : Bool := false
  /-- A frame to forward, and its format. -/
  frame : Option (MediaType × Bytes) := none
  deriving DecidableEq

namespace Cam

def devNameMax : Nat := 250

variable (st : Cam)

/-- `rdp_cam_device_opened`. -/
def deviceOpened : Cam × Option CamAction :=
  if !st.haveDevice then (st, none)
  else
    ({ st with phase := .activating },
      some { send := some (.device, activateRequest st.version) })

def onEnumerator (m : CamMsg) : Cam × CamAction :=
  match m.body with
  | .selectVersionRequest =>
    let version := if m.version < camProtoVersion then m.version else camProtoVersion
    ({ st with version := version },
      { send := some (.enumerator, selectVersionResponse version) })
  | .deviceAdded name =>
    if st.haveDevice ∨ name.isEmpty ∨ name.length > devNameMax then (st, {})
    else ({ st with haveDevice := true }, { openDevice := some name })
  | .deviceRemoved _ =>
    ({ st with haveDevice := false, sel := none, phase := .init }, { closeDevice := true })
  | _ => (st, {})

def onDevice (m : CamMsg) : Cam × CamAction :=
  match m.body with
  | .successResponse =>
    match st.phase with
    | .activating =>
      ({ st with phase := .streamList },
        { send := some (.device, streamListRequest st.version) })
    | .starting =>
      ({ st with phase := .streaming }, { send := some (.device, sampleRequest st.version) })
    | _ => (st, {})
  | .errorResponse => ({ st with phase := .stopped }, {})
  | .streamListResponse =>
    if st.phase ≠ .streamList then (st, {})
    else
      ({ st with phase := .mediaList },
        { send := some (.device, mediaTypeListRequest st.version) })
  | .mediaTypeListResponse offered =>
    if st.phase ≠ .mediaList then (st, {})
    else
      match pickMediaType offered with
      | none => ({ st with phase := .stopped }, {})
      | some mt =>
        ({ st with sel := some mt, phase := .starting },
          { send := some (.device, startStreamsRequest st.version mt) })
  | .sampleResponse sample =>
    match st.phase, st.sel with
    | .streaming, some mt =>
      (st, { send := some (.device, sampleRequest st.version)
             frame := if sample.isEmpty then none else some (mt, sample) })
    | _, _ => (st, {})
  | .sampleErrorResponse =>
    if st.phase ≠ .streaming then (st, {})
    else (st, { send := some (.device, sampleRequest st.version) })
  | _ => (st, {})

/-- `rdp_cam_negotiate`: nothing is done about a PDU that does not parse. -/
def negotiate (chan : CamChan) (pdu : Bytes) : Cam × Option CamAction :=
  match parse pdu with
  | none => (st, none)
  | some m =>
    let (st, action) :=
      match chan with
      | .enumerator => st.onEnumerator m
      | .device => st.onDevice m
    (st, some action)

end Cam

end RdpServer.Channels

namespace RdpServer.Channels.Cam

/-- How many times the pixels of a frame are counted, before I420 and NV12 are halved. -/
def sizeFactor (format : Nat) : Nat :=
  match format with
  | 4 | 5 | 6 => 3
  | 3 => 2
  | 7 => 4
  | _ => 0

/-- The size of a frame, over all numbers. -/
def exactSize (mt : MediaType) : Nat :=
  let scaled := mt.width * mt.height * sizeFactor mt.format
  if mt.format = 4 ∨ mt.format = 5 then scaled / 2 else scaled

def FrameFits (mt : MediaType) : Prop := 0 < exactSize mt ∧ exactSize mt ≤ frameMax

theorem frameSize_eq (mt : MediaType) :
    frameSize mt =
      let scaled := mt.width * mt.height * sizeFactor mt.format % 0x10000000000000000
      if mt.format = 4 ∨ mt.format = 5 then scaled / 2 else scaled := by
  unfold frameSize sizeFactor
  split
  all_goals simp_all [Nat.mod_mul_mod]

theorem fits_iff_unwrapped {mt : MediaType} (chosen : usable mt = true) :
    FrameFits mt ↔ mt.width * mt.height * sizeFactor mt.format < 0x10000000000000000 := by
  simp only [usable, Bool.and_eq_true, bne_iff_ne, decide_eq_true_eq] at chosen
  obtain ⟨⟨-, some⟩, small⟩ := chosen
  rw [frameSize_eq] at some small
  unfold FrameFits exactSize
  dsimp only at some small ⊢
  rw [frameMax] at small ⊢
  split_ifs at some small ⊢ <;> omega

theorem usable_of_pick {offered : List MediaType} {mt : MediaType}
    (picked : pickMediaType offered = some mt) : usable mt = true := by
  obtain ⟨format, _, found⟩ := List.exists_of_findSome?_eq_some picked
  have both := List.find?_some found
  rw [Bool.and_eq_true] at both
  exact both.2

/-- A PDU of the client on a camera channel, or the word that the device channel is open. -/
inductive CamEvent where
  | received (chan : CamChan) (pdu : Bytes)
  | opened

def step (st : Cam) : CamEvent → Cam
  | .received chan pdu => (st.negotiate chan pdu).1
  | .opened => st.deviceOpened.1

def Starts (st : Cam) : Prop := st.phase = .starting ∨ st.phase = .streaming

def Selected (st : Cam) : Prop :=
  st.Starts → ∃ mt offered, st.sel = some mt ∧ pickMediaType offered = some mt

variable {st : Cam}

theorem selected_of_phase (idle : ¬ st.Starts) : st.Selected := fun starts => absurd starts idle

theorem onEnumerator_selected (m : CamMsg) (selected : st.Selected) :
    (st.onEnumerator m).1.Selected := by
  unfold onEnumerator
  split
  · exact selected
  · split_ifs <;> exact selected
  · exact selected_of_phase (by simp [Starts])
  · exact selected

theorem onDevice_selected (m : CamMsg) (selected : st.Selected) : (st.onDevice m).1.Selected := by
  unfold onDevice
  split
  · split
    · exact selected_of_phase (by simp [Starts])
    · rename_i starting
      exact fun _ => selected (.inl starting)
    · exact selected
  · exact selected_of_phase (by simp [Starts])
  · split_ifs
    · exact selected
    · exact selected_of_phase (by simp [Starts])
  · split_ifs
    · exact selected
    · split
      · exact selected_of_phase (by simp [Starts])
      · rename_i mt picked
        exact fun _ => ⟨mt, _, rfl, picked⟩
  · split <;> exact selected
  · split_ifs <;> exact selected
  · exact selected

theorem step_selected (e : CamEvent) (selected : st.Selected) : (st.step e).Selected := by
  cases e with
  | received chan pdu =>
    unfold step negotiate
    dsimp only
    split
    · exact selected
    · cases chan with
      | enumerator => exact onEnumerator_selected _ selected
      | device => exact onDevice_selected _ selected
  | opened =>
    unfold step deviceOpened
    split_ifs
    · exact selected
    · exact selected_of_phase (by simp [Starts])

/-- **The selected format fits**, exactly if its size does not wrap around in 64 bits;
and in every sequence of messages the camera starts and streams only with a format that
was selected, for which the same is true. -/
theorem selected_fits_iff (offered : List MediaType) (events : List CamEvent) :
    (∀ mt, pickMediaType offered = some mt →
      (FrameFits mt ↔ mt.width * mt.height * sizeFactor mt.format < 0x10000000000000000)) ∧
    ((events.foldl step {}).Starts →
      ∃ mt offered, (events.foldl step {}).sel = some mt ∧ pickMediaType offered = some mt ∧
        (FrameFits mt ↔ mt.width * mt.height * sizeFactor mt.format < 0x10000000000000000)) := by
  refine ⟨fun mt picked => fits_iff_unwrapped (usable_of_pick picked), fun starts => ?_⟩
  have begun : Selected {} := selected_of_phase (by simp [Starts])
  obtain ⟨mt, offered, chosen, picked⟩ :=
    Runs.invariant (fun _ e => step_selected e) begun events starts
  exact ⟨mt, offered, chosen, picked, fits_iff_unwrapped (usable_of_pick picked)⟩

/-- A format of some 2³¹ by 2³¹ pixels: four bytes for each of them are 2⁶⁴ + 524288. -/
def wrappingFormat : MediaType :=
  { format := 7, width := 0x80010000, height := 0x7FFF0002, frameRateNum := 0
    frameRateDen := 0, aspectNum := 0, aspectDen := 0, flags := 0 }

/-- The client offers it in a media type list, and it is selected. -/
theorem wrapping_format_selected :
    parse ([2, 0x0C] ++ putMediaType wrappingFormat) =
      some { version := 2, body := .mediaTypeListResponse [wrappingFormat] } ∧
    pickMediaType [wrappingFormat] = some wrappingFormat ∧ ¬ FrameFits wrappingFormat := by
  refine ⟨by decide, by decide, ?_⟩
  rintro ⟨-, small⟩
  exact absurd small (by decide)

end RdpServer.Channels.Cam
