import RdpServer.Channels.Rdpdr
import RdpServer.Session.Drive.State

/-!
# Device redirection with print jobs

The worker serves the FS_REQs of the session, each of which becomes one request to a device, and
the print jobs. A print job opens its printer, writes its spool in slices of 8000 bytes and
closes the printer. Which of the two a completion is for is decided by the device that its
request was for.
-/

namespace RdpServer.Daemon

open Bytes Channels Session

structure FsRelay where
  enabled : Bool := true
  rdpdr : Rdpdr := {}
  deriving DecidableEq

inductive ToSession where
  | fsRsp (rsp : FsRsp)
  | fsDevice (deviceId : Session.DeviceId) (name : Name)
  deriving DecidableEq

def fsMaxPayload : Nat := 4 * 1024 * 1024

def dispositionCode : Disposition → Nat
  | .unset => 0
  | .fileOpen => 1
  | .fileCreate => 2

def infoClassCode : InfoClass → Nat
  | .unset => 0
  | .fileBasicInformation => 4
  | .fileStandardInformation => 5
  | .fileRenameInformation => 0x0A
  | .fileDispositionInformation => 0x0D
  | .fileEndOfFileInformation => 0x14

/-- `struct rdp_be_fs_req` with its payload, whatever its fields say. -/
structure WireFsReq where
  reqId : ReqId
  op : UInt32
  deviceId : Session.DeviceId
  fileId : FileId := 0
  desiredAccess : UInt32 := 0
  disposition : Nat := 0
  options : UInt32 := 0
  infoClass : Nat := 0
  length : Nat := 0
  offset : Nat := 0
  payload : Bytes := []
  deriving DecidableEq

/-- The request for an FS_REQ; there is none for an operation that is not known. The path
of an OPEN and the pattern of a LIST are the payload up to its first zero byte. -/
def wireIrp (st : Rdpdr) (req : WireFsReq) : Option Rdpdr.Built :=
  let cap := Rdpdr.irpHdrSize + 32 + (req.payload.length + 2) * 2
  if req.op = 1 then
    let access := if req.desiredAccess ≠ 0 then req.desiredAccess else fileReadData
    let disposition := if req.disposition ≠ 0 then req.disposition else 1
    st.buildIrpCreate cap req.deviceId (FuseDrive.cString req.payload) access.toNat disposition
      req.options.toNat
  else if req.op = 2 then st.buildIrpRead cap req.deviceId req.fileId req.length req.offset
  else if req.op = 3 then st.buildIrpWrite cap req.deviceId req.fileId req.offset req.payload
  else if req.op = 4 then st.buildIrpClose cap req.deviceId req.fileId
  else if req.op = 5 then
    let pattern := if req.payload.isEmpty then [0x2A] else FuseDrive.cString req.payload
    st.buildIrpQueryDir cap req.deviceId req.fileId pattern (req.options &&& fsListContinue = 0)
  else if req.op = 6 then st.buildIrpQueryInfo cap req.deviceId req.fileId req.infoClass
  else if req.op = 7 then
    st.buildIrpSetInfo cap req.deviceId req.fileId req.infoClass req.payload
  else none

/-- `RDP_FS_OPEN` and the others. -/
def fsOpCode : FsOp → UInt32
  | .fsOpen => 1
  | .fsRead => 2
  | .fsWrite => 3
  | .fsClose => 4
  | .fsList => 5
  | .fsQueryInfo => 6
  | .fsSetInfo => 7

/-- An FS_REQ of the FUSE drive as it is sent. -/
def WireFsReq.of (req : FsReq) : WireFsReq where
  reqId := req.reqId
  op := fsOpCode req.op
  deviceId := req.deviceId
  fileId := req.fileId
  desiredAccess := req.desiredAccess
  disposition := dispositionCode req.disposition
  options := req.options
  infoClass := infoClassCode req.infoClass
  length := req.length
  offset := req.offset
  payload := req.payload

def setBeReqId (st : Rdpdr) (cid : CompletionId) (reqId : ReqId) : Rdpdr :=
  match st.pending.lookup fun p => p.completionId == cid with
  | none => st
  | some (slot, p) => { st with pending := st.pending.put slot { p with beReqId := reqId } }

namespace FsRelay

variable (relay : FsRelay)

/-- The FS_RSP of a completion: a CREATE returns a file id, the others their data. -/
def fsRspOf (completion : Rdpdr.Completion) : FsRsp :=
  let rsp : FsRsp :=
    { reqId := completion.beReqId, status := completion.ioStatus
      length := completion.data.length }
  if completion.major = .create then
    { rsp with fileId :=
        if completion.data.length ≥ 4 then UInt32.ofNat (Rdpdr.ld32 completion.data 0) else 0 }
  else { rsp with payload := completion.data }

/-- `dr_is_printer_device`. -/
def isPrinterDevice (deviceId : Channels.DeviceId) : Bool :=
  (relay.rdpdr.devices.find? fun d => d.deviceId == deviceId).any fun d =>
    d.deviceType == dtypPrint

def newDrives : List Device :=
  relay.rdpdr.devices.filter fun d => !d.announced && d.deviceType == dtypFilesystem

def markAnnounced : FsRelay :=
  { relay with rdpdr.devices := relay.rdpdr.devices.map fun d =>
      { d with announced := d.announced || d.deviceType == dtypFilesystem ||
          d.deviceType == dtypPrint } }

end FsRelay

open Option Rdpdr

def rdpdrMaxPrintJobs : Nat := 8

def rdpdrPrintChunk : Nat := 8000

def rdpBePrintJobMaxSpool : Nat := 4 * 1024 * 1024

/-- `enum print_job_state`; a slot without a job is `PJ_FREE`. -/
inductive PrintJobState where
  | create
  | write
  | close
  deriving DecidableEq

structure PrintProgress where
  state : PrintJobState
  deviceId : Channels.DeviceId
  fileId : UInt32
  spool : Bytes
  off : Nat
  deriving DecidableEq

def PrintProgress.start (deviceId : Channels.DeviceId) (spool : Bytes) : PrintProgress where
  state := .create
  deviceId := deviceId
  fileId := 0
  spool := spool
  off := 0

/-- `struct print_job`. -/
structure PrintJob extends PrintProgress where
  cid : CompletionId
  deriving DecidableEq

/-- `struct dr_state`, without the reassembly of its channel. -/
structure DrState where
  relay : FsRelay := {}
  jobs : Slots PrintJob := Slots.empty rdpdrMaxPrintJobs
  deriving DecidableEq

structure SentIrp where
  cid : CompletionId
  irp : Bytes
  deriving DecidableEq

inductive PrintRequest where
  | create
  | write (fileId : UInt32) (offset : Nat) (data : Bytes)
  | close (fileId : UInt32)
  deriving DecidableEq

/-- The request is built in a buffer of its own size; the printer is opened with
GENERIC_WRITE and an empty path. -/
def PrintRequest.build (st : Rdpdr) (deviceId : Channels.DeviceId) :
    PrintRequest → Option Rdpdr.Built
  | create => st.buildIrpCreate (Rdpdr.irpHdrSize + 64 + 2) deviceId [] 0x40000000 0 0
  | write fileId offset data =>
    st.buildIrpWrite (Rdpdr.irpHdrSize + 32 + rdpdrPrintChunk) deviceId fileId offset data
  | close fileId => st.buildIrpClose (Rdpdr.irpHdrSize + 32) deviceId fileId

namespace DrState

variable (dr : DrState)

/-- A request of the job in a slot is sent. The job is freed if the request cannot be
built. -/
def printJobSend (slot : Nat) (j : PrintProgress) (request : PrintRequest) :
    DrState × List SentIrp :=
  match request.build dr.relay.rdpdr j.deviceId with
  | none => ({ dr with jobs := dr.jobs.clear slot }, [])
  | some built =>
    ({ dr with
        relay := { dr.relay with rdpdr := built.rdpdr }
        jobs := dr.jobs.put slot { j with cid := built.cid } },
      [{ cid := built.cid, irp := built.irp }])

/-- `print_job_send_write`. -/
def printJobSendWrite (slot : Nat) (j : PrintProgress) : DrState × List SentIrp :=
  dr.printJobSend slot { j with state := .write }
    (.write j.fileId j.off ((j.spool.drop j.off).take rdpdrPrintChunk))

/-- `print_job_send_close`. -/
def printJobSendClose (slot : Nat) (j : PrintProgress) : DrState × List SentIrp :=
  dr.printJobSend slot { j with state := .close } (.close j.fileId)

/-- `print_job_start`. -/
def printJobStart (deviceId : Channels.DeviceId) (spool : Bytes) : DrState × List SentIrp :=
  match dr.jobs.free with
  | none => (dr, [])
  | some slot =>
    match PrintRequest.create.build dr.relay.rdpdr deviceId with
    | none => (dr, [])
    | some built =>
      ({ dr with
          relay := { dr.relay with rdpdr := built.rdpdr }
          jobs := dr.jobs.put slot { PrintProgress.start deviceId spool with cid := built.cid } },
        [{ cid := built.cid, irp := built.irp }])

/-- `print_job_on_completion`. -/
def printJobOnCompletion (comp : Rdpdr.Completion) : DrState × List SentIrp :=
  match dr.jobs.lookup fun j => j.cid == comp.completionId with
  | none => (dr, [])
  | some (slot, j) =>
    if comp.ioStatus ≠ statusSuccess then ({ dr with jobs := dr.jobs.clear slot }, [])
    else match j.state with
      | .create =>
        let j := if comp.data.length ≥ 4 then
          { j.toPrintProgress with fileId := UInt32.ofNat (Rdpdr.ld32 comp.data 0) }
          else j.toPrintProgress
        if j.spool.length = 0 then dr.printJobSendClose slot j else dr.printJobSendWrite slot j
      | .write =>
        let j := { j.toPrintProgress with off := j.off +
          if j.spool.length - j.off > rdpdrPrintChunk then rdpdrPrintChunk
          else j.spool.length - j.off }
        if j.off < j.spool.length then dr.printJobSendWrite slot j
        else dr.printJobSendClose slot j
      | .close => ({ dr with jobs := dr.jobs.clear slot }, [])

end DrState

/-- What the worker sends: FS_RSPs and new devices to the session, requests to the
client. -/
structure DrOut where
  toSession : List ToSession := []
  irps : List SentIrp := []
  deriving DecidableEq

def ToSession.rsp? : ToSession → Option FsRsp
  | fsRsp rsp => some rsp
  | fsDevice _ _ => none

def DrOut.rsps (out : DrOut) : List FsRsp := out.toSession.filterMap ToSession.rsp?

namespace DrState

variable (dr : DrState)

def handleFsReq (req : WireFsReq) : DrState × DrOut :=
  if !dr.relay.enabled then (dr, {})
  else if req.payload.length > fsMaxPayload then
    (dr, { toSession := [.fsRsp { reqId := req.reqId, status := statusUnsuccessful }] })
  else match wireIrp dr.relay.rdpdr req with
    | none => (dr, { toSession := [.fsRsp { reqId := req.reqId, status := statusNotImplemented }] })
    | some built =>
      ({ dr with relay := { dr.relay with rdpdr := setBeReqId built.rdpdr built.cid req.reqId } },
        { irps := [{ cid := built.cid, irp := built.irp }] })

def handlePrintJob (deviceId : Channels.DeviceId) (spool : Bytes) : DrState × DrOut :=
  if !dr.relay.enabled then (dr, {})
  else if spool.length > rdpBePrintJobMaxSpool then (dr, {})
  else
    let started := dr.printJobStart deviceId spool
    (started.1, { irps := started.2 })

/-- A completion goes to the print jobs if it is of a printer, and else to the session. -/
def routeCompletion (comp : Rdpdr.Completion) : DrState × DrOut :=
  if dr.relay.isPrinterDevice comp.deviceId then
    let advanced := dr.printJobOnCompletion comp
    (advanced.1, { irps := advanced.2 })
  else (dr, { toSession := [.fsRsp (FsRelay.fsRspOf comp)] })

/-- The worker reads a PDU of the client on the device redirection channel. -/
def handlePdu (pdu : Bytes) : DrState × DrOut :=
  if !dr.relay.enabled then (dr, {})
  else
    let handled := dr.relay.rdpdr.handle pdu
    let dr := { dr with relay := { dr.relay with rdpdr := handled.2 } }
    let routed : DrState × DrOut := match handled.1 with
      | none => (dr, {})
      | some comp => dr.routeCompletion comp
    ({ routed.1 with relay := routed.1.relay.markAnnounced },
      { routed.2 with
        toSession := routed.2.toSession ++
          routed.1.relay.newDrives.map fun d => .fsDevice d.deviceId d.name })

end DrState

namespace PrintProgress

variable (j : PrintProgress)

def writing : PrintProgress × PrintRequest :=
  ({ j with state := .write }, .write j.fileId j.off ((j.spool.drop j.off).take rdpdrPrintChunk))

def closing : PrintProgress × PrintRequest := ({ j with state := .close }, .close j.fileId)

def opened (data : Bytes) : PrintProgress :=
  if data.length ≥ 4 then { j with fileId := UInt32.ofNat (Rdpdr.ld32 data 0) } else j

def written : PrintProgress :=
  { j with off := j.off +
      if j.spool.length - j.off > rdpdrPrintChunk then rdpdrPrintChunk
      else j.spool.length - j.off }

/-- What a completion makes of a job, and what the job asks for then; nothing is left of
a job that has failed or is done. -/
def next (status : UInt32) (data : Bytes) : Option (PrintProgress × PrintRequest) :=
  if status ≠ statusSuccess then none
  else match j.state with
    | .create =>
      if (j.opened data).spool.length = 0 then some (j.opened data).closing
      else some (j.opened data).writing
    | .write =>
      if j.written.off < j.written.spool.length then some j.written.writing
      else some j.written.closing
    | .close => none

inductive Goes (data : Bytes) : PrintProgress × PrintRequest → Prop
  | closesEmpty (state : j.state = .create) (empty : (j.opened data).spool.length = 0) :
      Goes data (j.opened data).closing
  | writesFirst (state : j.state = .create) (some : (j.opened data).spool.length ≠ 0) :
      Goes data (j.opened data).writing
  | writesOn (state : j.state = .write) (left : j.written.off < j.written.spool.length) :
      Goes data j.written.writing
  | closes (state : j.state = .write) (done : ¬ j.written.off < j.written.spool.length) :
      Goes data j.written.closing

variable {j} {status : UInt32} {data : Bytes} {after : PrintProgress × PrintRequest}

theorem next_eq_some (next : j.next status data = some after) :
    status = statusSuccess ∧ j.Goes data after := by
  rw [PrintProgress.next] at next
  by_cases failed : status ≠ statusSuccess
  · rw [if_pos failed] at next
    cases next
  rw [if_neg failed] at next
  refine ⟨not_not.1 failed, ?_⟩
  cases state : j.state with
  | create =>
    rw [state] at next
    dsimp only at next
    split_ifs at next with empty
    · exact (some.inj next) ▸ .closesEmpty state empty
    · exact (some.inj next) ▸ .writesFirst state empty
  | write =>
    rw [state] at next
    dsimp only at next
    split_ifs at next with left
    · exact (some.inj next) ▸ .writesOn state left
    · exact (some.inj next) ▸ .closes state left
  | close =>
    rw [state] at next
    cases next

theorem next_eq_none : j.next status data = none ↔ status ≠ statusSuccess ∨ j.state = .close := by
  rw [PrintProgress.next]
  by_cases failed : status ≠ statusSuccess
  · rw [if_pos failed]
    exact iff_of_true rfl (.inl failed)
  · rw [if_neg failed]
    cases state : j.state with
    | create | write =>
      refine iff_of_false ?_ fun either => either.elim failed nofun
      dsimp only
      split_ifs <;> exact not_false
    | close => exact iff_of_true rfl (.inr rfl)

@[simp] theorem opened_deviceId : (j.opened data).deviceId = j.deviceId := by
  unfold opened
  split_ifs <;> rfl

@[simp] theorem opened_spool : (j.opened data).spool = j.spool := by
  unfold opened
  split_ifs <;> rfl

theorem Goes.same (goes : j.Goes data after) :
    after.1.deviceId = j.deviceId ∧ after.1.spool = j.spool := by
  cases goes with
  | closesEmpty _ _ | writesFirst _ _ => exact ⟨opened_deviceId, opened_spool⟩
  | writesOn _ _ | closes _ _ => exact ⟨rfl, rfl⟩

end PrintProgress

def PrintRequest.irp (deviceId : Channels.DeviceId) (cid : CompletionId) :
    PrintRequest → Bytes
  | create => Rdpdr.irpHeader deviceId 0 cid .create 0 ++
      (leBytes 4 0x40000000 ++ Rdpdr.zeros 8 ++ Rdpdr.zeros 4 ++ leBytes 4 7 ++ leBytes 4 0 ++
        leBytes 4 0 ++ leBytes 4 2 ++ [0, 0])
  | write fileId offset data => Rdpdr.irpHeader deviceId fileId cid .write 0 ++
      (leBytes 4 data.length ++ leBytes 8 offset ++ Rdpdr.zeros 20 ++ data)
  | close fileId => Rdpdr.irpHeader deviceId fileId cid .close 0 ++ Rdpdr.zeros 32

def PrintRequest.major : PrintRequest → Major
  | create => .create
  | write _ _ _ => .write
  | close _ => .close

def PrintRequest.Small : PrintRequest → Prop
  | write _ _ data => data.length ≤ rdpdrPrintChunk
  | _ => True

theorem PrintRequest.build_of_free {st : Rdpdr} {slot : Nat} {request : PrintRequest}
    (small : request.Small) (free : st.pending.free = some slot) (deviceId : Channels.DeviceId) :
    request.build st deviceId =
      some { rdpdr := st.reserved slot deviceId request.major, cid := st.nextCompletionId
             irp := request.irp deviceId st.nextCompletionId } := by
  cases request with
  | create =>
    rw [build]
    exact buildIrp_of_free (by decide) free deviceId 0 .create 0
  | write fileId offset data =>
    rw [Small, rdpdrPrintChunk] at small
    rw [build, buildIrpWrite, if_neg (by omega)]
    refine buildIrp_of_free ?_ free deviceId fileId .write 0
    simp only [List.length_append, length_leBytes, zeros, List.length_replicate, rdpdrPrintChunk]
    omega
  | close fileId =>
    rw [build]
    exact buildIrp_of_free (by decide) free deviceId fileId .close 0

theorem PrintProgress.Goes.small {j : PrintProgress} {data : Bytes}
    {after : PrintProgress × PrintRequest} (goes : j.Goes data after) : after.2.Small := by
  cases goes with
  | closesEmpty _ _ => trivial
  | writesFirst _ _ | writesOn _ _ => exact List.length_take_le _ _
  | closes _ _ => trivial

namespace DrState

variable {dr : DrState} {comp : Rdpdr.Completion} {slot : Nat} {j : PrintJob}

theorem printJobOnCompletion_some
    (found : dr.jobs.lookup (fun j => j.cid == comp.completionId) = some (slot, j)) :
    dr.printJobOnCompletion comp = (j.toPrintProgress.next comp.ioStatus comp.data).elim
        ({ dr with jobs := dr.jobs.clear slot }, []) fun after =>
          dr.printJobSend slot after.1 after.2 := by
  rw [printJobOnCompletion, found, PrintProgress.next]
  dsimp only
  by_cases failed : comp.ioStatus ≠ statusSuccess
  · rw [if_pos failed, if_pos failed]
    rfl
  rw [if_neg failed, if_neg failed]
  obtain ⟨⟨state, deviceId, fileId, spool, off⟩, cid⟩ := j
  cases state with
  | create | write =>
    rw [apply_ite (Option.elim · _ _)]
    rfl
  | close => rfl

end DrState

end RdpServer.Daemon
