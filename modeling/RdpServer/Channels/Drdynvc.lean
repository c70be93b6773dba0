import RdpServer.Lib.Bytes

/-!
# Dynamic virtual channels

`drdynvc.c`: one static channel carries the dynamic ones. A PDU names a command and
a channel id of one, two or four bytes. The data of the graphics, audio input, touch
and the two camera channels may come in fragments, and each of them collects its
own; the display control channel carries monitor layouts.
-/

namespace RdpServer.Channels

open Bytes

def signed32 (value : Nat) : Int :=
  if value < 0x80000000 then value else (value : Int) - 0x100000000

/-- `struct dvc_reasm`, with the bytes that are there of a PDU of `total` bytes. -/
structure DvcReasm where
  buf : Bytes := []
  /-- 0 when no PDU is in progress. -/
  total : Nat := 0
  deriving DecidableEq

def dvcReasmMax : Nat := 0x400000

/-- The body of a `DATA_FIRST` or a `DATA` PDU. -/
inductive Fragment where
  | dataFirst (totalLen : Nat) (data : Bytes)
  | data (data : Bytes)
  deriving DecidableEq

inductive Fed where
  | bad
  | more
  | complete (pdu : Bytes)
  deriving DecidableEq

namespace DvcReasm

/-- The bytes go behind those that are there, as far as the PDU needs them. -/
def collect (r : DvcReasm) (data : Bytes) : DvcReasm × Fed :=
  let buf := r.buf ++ data.take (r.total - r.buf.length)
  if buf.length < r.total then ({ r with buf := buf }, .more) else ({}, .complete buf)

/-- `dvc_reasm_feed`. -/
def feed (r : DvcReasm) : Fragment → DvcReasm × Fed
  | .dataFirst totalLen data =>
    if totalLen = 0 ∨ totalLen > dvcReasmMax then ({}, .bad)
    else collect { buf := [], total := totalLen } data
  | .data data => if r.total = 0 then (r, .complete data) else r.collect data

end DvcReasm

inductive Dvc where
  | gfx
  | audioin
  | rdpei
  | camenum
  | camdev
  deriving DecidableEq

namespace Dvc

def all : List Dvc := [gfx, audioin, rdpei, camenum, camdev]

def takes : Dvc → Int → Bool
  | gfx, _ => true
  | audioin, id => id ≥ 0
  | rdpei, id => id ≥ 0
  | camenum, id => id > 0
  | camdev, id => id > 0

def createdCode : Dvc → Int
  | gfx => 0
  | audioin => 10
  | rdpei => 11
  | camenum => 13
  | camdev => 14

def dataCode : Dvc → Int
  | gfx => 3
  | audioin => 9
  | rdpei => 12
  | camenum => 15
  | camdev => 16

end Dvc

structure DvcChannel where
  /-- −1 if not yet created. -/
  channelId : Int := -1
  createPending : Bool := false
  reasm : DvcReasm := {}
  deriving DecidableEq

/-- `struct drdynvc_state`. -/
structure Drdynvc where
  capsExchanged : Bool := false
  dispChannelId : Int := -1
  dispCreatePending : Bool := false
  gfx : DvcChannel := {}
  audioin : DvcChannel := {}
  rdpei : DvcChannel := {}
  camenum : DvcChannel := {}
  camdev : DvcChannel := {}
  deriving DecidableEq

structure DvcOutcome where
  code : Int
  resp : Bytes := []
  newSize : Option (Nat × Nat) := none
  /-- `gfx_data`, which carries the data of every channel. -/
  data : Option Bytes := none
  deriving DecidableEq

def Fed.outcome (c : Dvc) : Fed → DvcOutcome
  | bad => { code := -1 }
  | more => { code := 0 }
  | complete pdu => { code := c.dataCode, data := some pdu }

def readSized (octets : Bytes) (width : Nat) : Option (Nat × Nat) :=
  if octets.length < width then none else some (leValue (octets.take width), width)

/-- `read_channel_id`: the id and its width. -/
def readChannelId (octets : Bytes) : Nat → Option (Nat × Nat)
  | 0 => readSized octets 1
  | 1 => readSized octets 2
  | 2 => readSized octets 4
  | _ => none

/-- The total length in front of the data of a `DATA_FIRST`, and its width. -/
def readTotalLen (octets : Bytes) : Nat → Option (Nat × Nat)
  | 0 => readSized octets 1
  | 1 => readSized octets 2
  | 2 => readSized octets 4
  | _ => some (0, 0)

structure Extent where
  minX : Int
  minY : Int
  maxX : Int
  maxY : Int

def Extent.join (a b : Extent) : Extent :=
  { minX := min a.minX b.minX, minY := min a.minY b.minY
    maxX := max a.maxX b.maxX, maxY := max a.maxY b.maxY }

def Drdynvc.ld32 (octets : Bytes) (offset : Nat) : Nat := leValue ((octets.drop offset).take 4)

def monitorExtent (m : Bytes) : Extent :=
  let ml := signed32 (Drdynvc.ld32 m 4)
  let mt := signed32 (Drdynvc.ld32 m 8)
  { minX := ml, minY := mt
    maxX := ml + Drdynvc.ld32 m 12, maxY := mt + Drdynvc.ld32 m 16 }

/-- A display update: the size of the rectangle around all monitors, if it is sane. -/
def displayUpdate (data : Bytes) : DvcOutcome :=
  if data.length < 16 + 40 then { code := 0 }
  else
    let nm := Drdynvc.ld32 data 12
    if nm < 1 ∨ nm > 16 then { code := 0 }
    else if data.length < 16 + nm * 40 then { code := 0 }
    else
      let extent := (List.range (nm - 1)).foldl
        (fun extent mi => extent.join (monitorExtent (data.drop (16 + (mi + 1) * 40))))
        (monitorExtent (data.drop 16))
      let tw := extent.maxX - extent.minX
      let th := extent.maxY - extent.minY
      if (tw ≥ 200 ∧ tw ≤ 8192) ∧ th ≥ 200 ∧ th ≤ 8192 then
        { code := 1, newSize := some (tw.toNat, th.toNat) }
      else { code := 0 }

namespace Drdynvc

variable (st : Drdynvc)

def channel : Dvc → DvcChannel
  | .gfx => st.gfx
  | .audioin => st.audioin
  | .rdpei => st.rdpei
  | .camenum => st.camenum
  | .camdev => st.camdev

def setChannel (channel : DvcChannel) : Dvc → Drdynvc
  | .gfx => { st with gfx := channel }
  | .audioin => { st with audioin := channel }
  | .rdpei => { st with rdpei := channel }
  | .camenum => { st with camenum := channel }
  | .camdev => { st with camdev := channel }

@[simp] theorem channel_setChannel_self (channel : DvcChannel) (c : Dvc) :
    (st.setChannel channel c).channel c = channel := by
  cases c <;> rfl

theorem channel_setChannel_of_ne (channel : DvcChannel) {c d : Dvc} (other : d ≠ c) :
    (st.setChannel channel c).channel d = st.channel d := by
  cases c <;> cases d <;> first | rfl | exact absurd rfl other

def createdOk (rest : Bytes) : Bool := rest.length < 4 || ld32 rest 0 == 0

/-- `strstr`: whether one string occurs in another. -/
def strstr (needle : Bytes) : Bytes → Bool
  | [] => needle.isEmpty
  | c :: rest => needle.isPrefixOf (c :: rest) || strstr needle rest

def named (needle : String) (name : Bytes) : Bool :=
  strstr (needle.toList.map fun c => UInt8.ofNat c.toNat) name

/-- A create response to a request of the server, or a create request of the client. -/
def handleCreate (hdr : UInt8) (id idLen : Nat) (idBytes rest : Bytes) (respCap : Nat) :
    Drdynvc × DvcOutcome :=
  if st.dispCreatePending ∧ signed32 id = st.dispChannelId then
    if createdOk rest then ({ st with dispCreatePending := false }, { code := 8 })
    else ({ st with dispCreatePending := false, dispChannelId := -1 }, { code := 0 })
  else
    match Dvc.all.find? fun c =>
        (st.channel c).createPending && signed32 id == (st.channel c).channelId with
    | some c =>
      if createdOk rest then
        (st.setChannel { st.channel c with createPending := false } c, { code := c.createdCode })
      else
        (st.setChannel { st.channel c with createPending := false, channelId := -1 } c,
          { code := 0 })
    | none =>
      if 0 ∉ rest then (st, { code := -1 })
      else
        let name := rest.takeWhile (· != 0)
        let st := if named "DisplayControl" name then { st with dispChannelId := signed32 id }
          else st
        let st :=
          if named "GraphicsPipeline" name then
            { st with gfx := { st.gfx with channelId := signed32 id } }
          else st
        let resp := if respCap ≥ 1 + idLen + 4 then hdr :: idBytes ++ List.replicate 4 0 else []
        (st, { code := 0, resp := resp })

def handleData (id : Nat) (fragment : Fragment) : Drdynvc × DvcOutcome :=
  match Dvc.all.find? fun c =>
      signed32 id == (st.channel c).channelId && c.takes (st.channel c).channelId with
  | some c =>
    let (reasm, fed) := (st.channel c).reasm.feed fragment
    (st.setChannel { st.channel c with reasm := reasm } c, fed.outcome c)
  | none =>
    if signed32 id ≠ st.dispChannelId then (st, { code := 0 })
    else
      match fragment with
      | .dataFirst _ data => (st, displayUpdate data)
      | .data data => (st, displayUpdate data)

def handleClose (id : Nat) : Drdynvc × DvcOutcome :=
  if signed32 id = st.gfx.channelId then
    ({ st with gfx := { st.gfx with channelId := -1 } }, { code := 7 })
  else if st.camdev.channelId > 0 ∧ signed32 id = st.camdev.channelId then
    ({ st with camdev := { st.camdev with channelId := -1, createPending := false } },
      { code := 0 })
  else if st.camenum.channelId > 0 ∧ signed32 id = st.camenum.channelId then
    ({ st with camenum := { st.camenum with channelId := -1, createPending := false } },
      { code := 0 })
  else (st, { code := 0 })

/-- `rdp_drdynvc_handle`. -/
def handle (pdu : Bytes) (respCap : Nat) : Drdynvc × DvcOutcome :=
  match pdu with
  | [] => (st, { code := -1 })
  | hdr :: body =>
    let cmd := hdr.toNat / 16
    let cbId := hdr.toNat % 4
    if cmd = 5 then ({ st with capsExchanged := true }, { code := 5 })
    else if cmd = 1 then
      match readChannelId body cbId with
      | none => (st, { code := -1 })
      | some (id, idLen) =>
        st.handleCreate hdr id idLen (body.take idLen) (body.drop idLen) respCap
    else if cmd = 3 then
      match readChannelId body cbId with
      | none => (st, { code := -1 })
      | some (id, idLen) => st.handleData id (.data (body.drop idLen))
    else if cmd = 2 then
      match readChannelId body cbId with
      | none => (st, { code := -1 })
      | some (id, idLen) =>
        match readTotalLen (body.drop idLen) (hdr.toNat / 4 % 4) with
        | none => (st, { code := -1 })
        | some (totalLen, skip) =>
          st.handleData id (.dataFirst totalLen ((body.drop idLen).drop skip))
    else if cmd = 4 then
      match readChannelId body cbId with
      | none => (st, { code := 0 })
      | some (id, _) => st.handleClose id
    else (st, { code := 0 })

def nameBytes (name : String) : Bytes := name.toList.map fun c => UInt8.ofNat c.toNat

/-- A create request with an id of one byte and a name with its terminator. -/
def createRequest (id : UInt8) (name : Bytes) : Bytes := 0x18 :: id :: name ++ [0]

def serverChanId : Dvc → UInt8
  | .gfx => 1
  | .audioin => 3
  | .rdpei => 4
  | .camenum => 5
  | .camdev => 6

def awaitCreate (c : Dvc) : Drdynvc :=
  st.setChannel { st.channel c with channelId := (serverChanId c).toNat, createPending := true } c

/-- `rdp_drdynvc_build_create_gfx` and its like. -/
def buildCreate (c : Dvc) (name : String) : Drdynvc × Bytes :=
  (st.awaitCreate c, createRequest (serverChanId c) (nameBytes name))

def buildCreateGfx : Drdynvc × Bytes :=
  st.buildCreate .gfx "Microsoft::Windows::RDS::Graphics"

def buildCreateAudioInput : Drdynvc × Bytes := st.buildCreate .audioin "AUDIO_INPUT"

def buildCreateRdpei : Drdynvc × Bytes :=
  st.buildCreate .rdpei "Microsoft::Windows::RDS::Input"

def buildCreateCamEnum : Drdynvc × Bytes :=
  st.buildCreate .camenum "RDCamera_Device_Enumerator"

def buildCreateDisp : Drdynvc × Bytes :=
  ({ st with dispChannelId := 2, dispCreatePending := true },
    createRequest 2 (nameBytes "Microsoft::Windows::RDS::DisplayControl"))

/-- `rdp_drdynvc_build_create_cam_device`, with a name that the client gave. -/
def buildCreateCamDevice (name : Bytes) : Option (Drdynvc × Bytes) :=
  if name.isEmpty ∨ name.length > 250 ∨ 0 ∈ name then none
  else some (st.awaitCreate .camdev, createRequest (serverChanId .camdev) name)

/-- `rdp_drdynvc_build_close_cam_device`. -/
def buildCloseCamDevice : Option (Drdynvc × Bytes) :=
  if st.camdev.channelId ≤ 0 then none
  else
    some ({ st with camdev := { st.camdev with channelId := -1, createPending := false } },
      [0x40, UInt8.ofNat st.camdev.channelId.toNat])

end Drdynvc

end RdpServer.Channels
