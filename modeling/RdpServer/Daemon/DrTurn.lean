import RdpServer.Daemon.PrintJobs

/-!
# One step of the device redirection

The worker is given an FS_REQ, a PRINT_JOB or the PDU of a completion. `Turn` says all
that it does then (`step_turn`), as long as a new request gets a completion id that no
other request is waiting with: what is sent, and how the table of requests and that of
the print jobs change.
-/

namespace RdpServer.Daemon

open Bytes Channels Session Slots Option Rdpdr DrState

inductive DrEvent where
  | fsReq (req : WireFsReq)
  | printJob (deviceId : Channels.DeviceId) (spool : Bytes)
  /-- A completion, with the device id that the client puts into it. -/
  | completion (echo : Channels.DeviceId) (cid : CompletionId) (status : UInt32)
      (data : Bytes)
  deriving DecidableEq

def completionPdu (echo : Channels.DeviceId) (cid : CompletionId) (status : UInt32)
    (data : Bytes) : Bytes :=
  leBytes 2 0x4472 ++ (leBytes 2 0x4943 ++ (leBytes 4 echo.toNat ++
    (leBytes 4 cid.toNat ++ (leBytes 4 status.toNat ++ data))))

def DrState.step (dr : DrState) : DrEvent → DrState × DrOut
  | .fsReq req => dr.handleFsReq req
  | .printJob deviceId spool => dr.handlePrintJob deviceId spool
  | .completion echo cid status data => dr.handlePdu (completionPdu echo cid status data)

def completionOf (p : Pending) (status : UInt32) (data : Bytes) : Rdpdr.Completion where
  completionId := p.completionId
  deviceId := p.deviceId
  major := p.major
  ioStatus := status
  beReqId := p.beReqId
  data := data

theorem handle_completionPdu (st : Rdpdr) (echo : Channels.DeviceId) (cid : CompletionId)
    (status : UInt32) (data : Bytes) :
    st.handle (completionPdu echo cid status data) =
      (st.pending.lookup fun p => p.completionId == cid).elim (none, st) fun found =>
        (some (completionOf found.2 status data),
          { st with pending := st.pending.clear found.1 }) := by
  have at16 : (completionPdu echo cid status data).drop 16 = data := by
    simp only [completionPdu, ← List.append_assoc]
    exact List.drop_left' (by simp only [List.length_append, length_leBytes])
  have length : 16 ≤ (completionPdu echo cid status data).length := by
    simp only [completionPdu, List.length_append, length_leBytes]
    omega
  have component : ld16 (completionPdu echo cid status data) 0 = 0x4472 :=
    leValue_field (List.length_nil (α := UInt8)) _ (by decide)
  have packet : ld16 (completionPdu echo cid status data) 2 = 0x4943 :=
    leValue_field (length_leBytes 2 0x4472) _ (by decide)
  have id : UInt32.ofNat (ld32 (completionPdu echo cid status data) 8) = cid := by
    rw [ld32, completionPdu, ← List.append_assoc, ← List.append_assoc,
      leValue_field (by simp only [List.length_append, length_leBytes]) _ cid.toNat_lt,
      UInt32.ofNat_toNat]
  have ios : UInt32.ofNat (ld32 (completionPdu echo cid status data) 12) = status := by
    rw [ld32, completionPdu, ← List.append_assoc, ← List.append_assoc, ← List.append_assoc,
      leValue_field (by simp only [List.length_append, length_leBytes]) _ status.toNat_lt,
      UInt32.ofNat_toNat]
  rw [handle, if_neg (by rw [component]; omega), packet, if_neg (by decide), if_pos rfl,
    handleIoCompletion, if_neg (Nat.not_lt.2 length), id, ios, at16]
  dsimp only
  cases found : st.pending.lookup fun p => p.completionId == cid with
  | none => rfl
  | some entry =>
    obtain ⟨slot, p⟩ := entry
    have same : p.completionId = cid := beq_iff_eq.1 (lookup_eq_some found).2
    rw [map_some, elim_some, completionOf, same]

def Reserves (st : Rdpdr) (deviceId : Channels.DeviceId) (wanted : Major → Prop)
    (result : Option Rdpdr.Built) : Prop :=
  ∀ built, result = some built → ∃ slot major, st.pending.free = some slot ∧ wanted major ∧
    built.cid = st.nextCompletionId ∧ built.rdpdr = st.reserved slot deviceId major

variable {wanted : Major → Prop} {st : Rdpdr} {deviceId : Channels.DeviceId}

theorem Reserves.none : Reserves st deviceId wanted .none := nofun

theorem Reserves.ite {condition : Prop} [Decidable condition] {first second : Option Rdpdr.Built}
    (one : Reserves st deviceId wanted first) (other : Reserves st deviceId wanted second) :
    Reserves st deviceId wanted (if condition then first else second) := by
  by_cases holds : condition
  · rw [if_pos holds]
    exact one
  · rw [if_neg holds]
    exact other

theorem Reserves.buildIrp {cap : Nat} {deviceId fileId : UInt32} {major : Major} {minor : Nat}
    {body : Bytes} (isWanted : wanted major) :
    Reserves st deviceId wanted (st.buildIrp cap deviceId fileId major minor body) := by
  intro built builds
  unfold Rdpdr.buildIrp allocPending at builds
  split_ifs at builds
  rw [map_map] at builds
  obtain ⟨slot, free, rfl⟩ := map_eq_some_iff.1 builds
  exact ⟨slot, major, free, isWanted, rfl, rfl⟩

theorem wireIrp_reserves (st : Rdpdr) (req : WireFsReq) :
    Reserves st req.deviceId (fun major => major = .create ↔ req.op = 1) (wireIrp st req) := by
  rw [wireIrp]
  by_cases isOpen : req.op = 1
  · rw [if_pos isOpen]
    exact .buildIrp (iff_of_true rfl isOpen)
  · rw [if_neg isOpen]
    refine .ite (.buildIrp ?_) (.ite (.ite .none (.buildIrp ?_)) (.ite (.buildIrp ?_)
      (.ite (.buildIrp ?_) (.ite (.buildIrp ?_) (.ite (.ite .none (.buildIrp ?_)) .none)))))
    all_goals exact iff_of_false nofun isOpen

def Fresh (st : Rdpdr) : Prop := ∀ p, st.pending.Holds p → p.completionId ≠ st.nextCompletionId

theorem setBeReqId_reserved (fresh : Fresh st) {slot : Nat} (free : st.pending.free = some slot)
    (deviceId : Channels.DeviceId) (major : Major) (reqId : ReqId) :
    setBeReqId (st.reserved slot deviceId major) st.nextCompletionId reqId = { st with
        pending := st.pending.put slot
          { completionId := st.nextCompletionId, deviceId, major, beReqId := reqId }
        nextCompletionId := st.nextCompletionId + 1 } := by
  obtain ⟨inside, isFree⟩ := free_eq_some free
  have found : (st.reserved slot deviceId major).pending.lookup
      (fun p => p.completionId == st.nextCompletionId) =
        some (slot, { completionId := st.nextCompletionId, deviceId, major }) := by
    refine lookup_of_only (entry_put_self inside) (beq_self_eq_true _) ?_
    intro i p held same
    rcases entry_put held with ⟨here, _⟩ | ⟨_, before⟩
    · exact here
    · exact (fresh p (holds_of_entry before) (beq_iff_eq.1 same)).elim
  rw [setBeReqId, found]
  dsimp only
  rw [reserved, put_put]

/-- What becomes of the tables; which devices are printers does not change. -/
structure DrState.Becomes (dr dr' : DrState) (pending : Slots Pending) (next : CompletionId)
    (jobs : Slots PrintJob) : Prop where
  table : dr'.relay.rdpdr.pending = pending
  counter : dr'.relay.rdpdr.nextCompletionId = next
  slots : dr'.jobs = jobs
  printers : dr'.relay.isPrinterDevice = dr.relay.isPrinterDevice
  enabled : dr'.relay.enabled = dr.relay.enabled

inductive Turn (dr dr' : DrState) : DrEvent → List FsRsp → List SentIrp → Prop
  | refused {req : WireFsReq} (status : UInt32)
      (same : dr.Becomes dr' dr.relay.rdpdr.pending dr.relay.rdpdr.nextCompletionId dr.jobs) :
      Turn dr dr' (.fsReq req) [{ reqId := req.reqId, status := status }] []
  | asked {req : WireFsReq} {slot : Nat} {major : Major} {irp : Bytes}
      (free : dr.relay.rdpdr.pending.free = some slot) (opens : major = .create ↔ req.op = 1)
      (becomes : dr.Becomes dr'
        (dr.relay.rdpdr.pending.put slot
          { completionId := dr.relay.rdpdr.nextCompletionId, deviceId := req.deviceId, major
            beReqId := req.reqId })
        (dr.relay.rdpdr.nextCompletionId + 1) dr.jobs) :
      Turn dr dr' (.fsReq req) [] [{ cid := dr.relay.rdpdr.nextCompletionId, irp := irp }]
  | dropped {deviceId : Channels.DeviceId} {spool : Bytes}
      (same : dr.Becomes dr' dr.relay.rdpdr.pending dr.relay.rdpdr.nextCompletionId dr.jobs) :
      Turn dr dr' (.printJob deviceId spool) [] []
  | started {deviceId : Channels.DeviceId} {spool : Bytes} {slot place : Nat}
      (free : dr.relay.rdpdr.pending.free = some slot) (idle : dr.jobs.free = some place)
      (becomes : dr.Becomes dr'
        (dr.relay.rdpdr.pending.put slot
          { completionId := dr.relay.rdpdr.nextCompletionId, deviceId, major := .create })
        (dr.relay.rdpdr.nextCompletionId + 1)
        (dr.jobs.put place
          { PrintProgress.start deviceId spool with cid := dr.relay.rdpdr.nextCompletionId })) :
      Turn dr dr' (.printJob deviceId spool) []
        [{ cid := dr.relay.rdpdr.nextCompletionId
           irp := PrintRequest.create.irp deviceId dr.relay.rdpdr.nextCompletionId }]
  | unknown {echo : Channels.DeviceId} {cid : CompletionId} {status : UInt32} {data : Bytes}
      (none : ∀ p, dr.relay.rdpdr.pending.Holds p → p.completionId ≠ cid)
      (same : dr.Becomes dr' dr.relay.rdpdr.pending dr.relay.rdpdr.nextCompletionId dr.jobs) :
      Turn dr dr' (.completion echo cid status data) [] []
  | answered {echo : Channels.DeviceId} {status : UInt32} {data : Bytes} {slot : Nat}
      {p : Pending} (held : dr.relay.rdpdr.pending.entry slot = some p)
      (drive : dr.relay.isPrinterDevice p.deviceId = false)
      (becomes : dr.Becomes dr' (dr.relay.rdpdr.pending.clear slot)
        dr.relay.rdpdr.nextCompletionId dr.jobs) :
      Turn dr dr' (.completion echo p.completionId status data)
        [FsRelay.fsRspOf (completionOf p status data)] []
  | unclaimed {echo : Channels.DeviceId} {status : UInt32} {data : Bytes} {slot : Nat}
      {p : Pending} (held : dr.relay.rdpdr.pending.entry slot = some p)
      (printer : dr.relay.isPrinterDevice p.deviceId = true)
      (none : ∀ j, dr.jobs.Holds j → j.cid ≠ p.completionId)
      (becomes : dr.Becomes dr' (dr.relay.rdpdr.pending.clear slot)
        dr.relay.rdpdr.nextCompletionId dr.jobs) :
      Turn dr dr' (.completion echo p.completionId status data) [] []
  | ended {echo : Channels.DeviceId} {status : UInt32} {data : Bytes} {slot place : Nat}
      {p : Pending} {j : PrintJob} (held : dr.relay.rdpdr.pending.entry slot = some p)
      (printer : dr.relay.isPrinterDevice p.deviceId = true)
      (waits : dr.jobs.entry place = some j) (cid : j.cid = p.completionId)
      (ends : j.toPrintProgress.next status data = none)
      (becomes : dr.Becomes dr' (dr.relay.rdpdr.pending.clear slot)
        dr.relay.rdpdr.nextCompletionId (dr.jobs.clear place)) :
      Turn dr dr' (.completion echo p.completionId status data) [] []
  | advanced {echo : Channels.DeviceId} {status : UInt32} {data : Bytes}
      {slot place next : Nat} {p : Pending} {j : PrintJob} {after : PrintProgress × PrintRequest}
      (held : dr.relay.rdpdr.pending.entry slot = some p)
      (printer : dr.relay.isPrinterDevice p.deviceId = true)
      (waits : dr.jobs.entry place = some j) (cid : j.cid = p.completionId)
      (goes : j.toPrintProgress.next status data = some after)
      (free : (dr.relay.rdpdr.pending.clear slot).free = some next)
      (becomes : dr.Becomes dr'
        ((dr.relay.rdpdr.pending.clear slot).put next
          { completionId := dr.relay.rdpdr.nextCompletionId, deviceId := j.deviceId
            major := after.2.major })
        (dr.relay.rdpdr.nextCompletionId + 1)
        (dr.jobs.put place { after.1 with cid := dr.relay.rdpdr.nextCompletionId })) :
      Turn dr dr' (.completion echo p.completionId status data) []
        [{ cid := dr.relay.rdpdr.nextCompletionId
           irp := after.2.irp j.deviceId dr.relay.rdpdr.nextCompletionId }]

theorem DrState.becomes_self (dr : DrState) :
    dr.Becomes dr dr.relay.rdpdr.pending dr.relay.rdpdr.nextCompletionId dr.jobs :=
  ⟨rfl, rfl, rfl, rfl, rfl⟩

variable {dr : DrState}

theorem handleFsReq_turn (enabled : dr.relay.enabled = true) (fresh : Fresh dr.relay.rdpdr)
    (req : WireFsReq) :
    Turn dr (dr.handleFsReq req).1 (.fsReq req) (dr.handleFsReq req).2.rsps
      (dr.handleFsReq req).2.irps := by
  rw [handleFsReq, enabled, if_neg (by decide)]
  by_cases large : req.payload.length > fsMaxPayload
  · rw [if_pos large]
    exact .refused statusUnsuccessful dr.becomes_self
  rw [if_neg large]
  cases builds : wireIrp dr.relay.rdpdr req with
  | none => exact .refused statusNotImplemented dr.becomes_self
  | some built =>
    obtain ⟨slot, major, free, opens, cid, rdpdr⟩ := wireIrp_reserves _ _ _ builds
    dsimp only
    rw [cid, rdpdr, setBeReqId_reserved fresh free]
    exact .asked free opens ⟨rfl, rfl, rfl, rfl, rfl⟩

theorem handlePrintJob_turn (enabled : dr.relay.enabled = true) (deviceId : Channels.DeviceId)
    (spool : Bytes) :
    Turn dr (dr.handlePrintJob deviceId spool).1 (.printJob deviceId spool)
      (dr.handlePrintJob deviceId spool).2.rsps (dr.handlePrintJob deviceId spool).2.irps := by
  rw [handlePrintJob, enabled]
  by_cases large : spool.length > rdpBePrintJobMaxSpool
  · rw [if_pos large]
    exact .dropped dr.becomes_self
  rw [if_neg large, printJobStart]
  cases idle : dr.jobs.free with
  | none => exact .dropped dr.becomes_self
  | some place =>
    cases free : dr.relay.rdpdr.pending.free with
    | none =>
      have none : PrintRequest.create.build dr.relay.rdpdr deviceId = none := by
        rw [PrintRequest.build, buildIrpCreate, buildIrp, allocPending, free]
        exact ite_self _
      rw [none]
      exact .dropped dr.becomes_self
    | some slot =>
      rw [PrintRequest.build_of_free (show PrintRequest.create.Small from trivial) free deviceId]
      exact .started free idle ⟨rfl, rfl, rfl, rfl, rfl⟩

theorem markAnnounced_isPrinterDevice (relay : FsRelay) :
    relay.markAnnounced.isPrinterDevice = relay.isPrinterDevice := by
  funext deviceId
  rw [FsRelay.isPrinterDevice, FsRelay.markAnnounced, List.find?_map, any_map]
  rfl

theorem rsps_append_devices (out : DrOut) (devices : List Device) :
    DrOut.rsps { out with
      toSession := out.toSession ++ devices.map fun d : Device => .fsDevice d.deviceId d.name } =
        out.rsps := by
  have none : ∀ message ∈ devices.map fun d : Device => ToSession.fsDevice d.deviceId d.name,
      message.rsp? = none := by
    intro message member
    obtain ⟨d, _, rfl⟩ := List.mem_map.1 member
    rfl
  rw [DrOut.rsps, List.filterMap_append, List.filterMap_eq_nil_iff.2 none, List.append_nil]
  rfl

theorem handlePdu_turn (enabled : dr.relay.enabled = true) (echo : Channels.DeviceId)
    (cid : CompletionId) (status : UInt32) (data : Bytes) :
    Turn dr (dr.handlePdu (completionPdu echo cid status data)).1 (.completion echo cid status data)
      (dr.handlePdu (completionPdu echo cid status data)).2.rsps
      (dr.handlePdu (completionPdu echo cid status data)).2.irps := by
  rw [handlePdu, enabled, if_neg (by decide), handle_completionPdu]
  rw [rsps_append_devices]
  cases found : dr.relay.rdpdr.pending.lookup fun p => p.completionId == cid with
  | none =>
    refine .unknown ?_ ⟨rfl, rfl, rfl, markAnnounced_isPrinterDevice _, rfl⟩
    intro p held
    have apart := lookup_eq_none found held
    exact beq_eq_false_iff_ne.1 apart
  | some entry =>
    obtain ⟨slot, p⟩ := entry
    obtain ⟨held, same⟩ := lookup_eq_some found
    obtain rfl : p.completionId = cid := beq_iff_eq.1 same
    rw [elim_some]
    dsimp only
    rw [routeCompletion]
    by_cases printer : dr.relay.isPrinterDevice p.deviceId = true
    · rw [if_pos (by exact printer)]
      cases waiting : dr.jobs.lookup fun j => j.cid == p.completionId with
      | none =>
        simp only [printJobOnCompletion, completionOf, waiting]
        refine .unclaimed held printer ?_ ⟨rfl, rfl, rfl, markAnnounced_isPrinterDevice _, rfl⟩
        intro j isJob
        have apart := lookup_eq_none waiting isJob
        exact beq_eq_false_iff_ne.1 apart
      | some entry =>
        obtain ⟨place, j⟩ := entry
        obtain ⟨waits, sameCid⟩ := lookup_eq_some waiting
        rw [printJobOnCompletion_some (by exact waiting)]
        cases goes : j.toPrintProgress.next (completionOf p status data).ioStatus
            (completionOf p status data).data with
        | none =>
          exact .ended held printer waits (beq_iff_eq.1 sameCid) goes
            ⟨rfl, rfl, rfl, markAnnounced_isPrinterDevice _, rfl⟩
        | some after =>
          have cleared : (dr.relay.rdpdr.pending.clear slot).free ≠ none :=
            free_ne_none (by rw [length_clear]; exact inside_of_entry held)
              (entry_clear_self _ slot)
          obtain ⟨next, free⟩ := ne_none_iff_exists'.1 cleared
          obtain ⟨_, how⟩ := PrintProgress.next_eq_some goes
          rw [elim_some, printJobSend, PrintRequest.build_of_free how.small free, how.same.1]
          exact .advanced held printer waits (beq_iff_eq.1 sameCid) goes free
            ⟨rfl, rfl, rfl, markAnnounced_isPrinterDevice _, rfl⟩
    · rw [if_neg (by exact printer)]
      exact .answered held (Bool.eq_false_iff.2 printer)
        ⟨rfl, rfl, rfl, markAnnounced_isPrinterDevice _, rfl⟩

/-- **Every step is a turn.** -/
theorem DrState.step_turn (enabled : dr.relay.enabled = true) (fresh : Fresh dr.relay.rdpdr)
    (event : DrEvent) :
    Turn dr (dr.step event).1 event (dr.step event).2.rsps (dr.step event).2.irps := by
  cases event with
  | fsReq req => exact handleFsReq_turn enabled fresh req
  | printJob deviceId spool => exact handlePrintJob_turn enabled deviceId spool
  | completion echo cid status data => exact handlePdu_turn enabled echo cid status data

end RdpServer.Daemon
