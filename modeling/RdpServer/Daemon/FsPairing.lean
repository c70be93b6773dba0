import RdpServer.Daemon.DrBook

/-!
# FS_REQs and their FS_RSPs

The worker counts its completion ids up, so that as long as it has made fewer than
`2 ^ 32` requests no two that wait have the same one (`Numbered.fresh`). Then each FS_REQ has
one FS_RSP, with what the completion of its own request brought (`fs_rsps_paired`).
-/

namespace RdpServer.Daemon

open Channels Session Ledger Slots List

structure Numbered (start : CompletionId) (issued : Nat) (st : Rdpdr) : Prop where
  next : st.nextCompletionId = start + UInt32.ofNat issued
  given : ∀ p, st.pending.Holds p → ∃ k < issued, p.completionId = start + UInt32.ofNat k

namespace Numbered

variable {start : CompletionId} {issued : Nat} {st st' : Rdpdr}

variable (numbered : Numbered start issued st)
include numbered

theorem fresh (few : issued < 2 ^ 32) : Fresh st := by
  intro p held same
  obtain ⟨k, earlier, isK⟩ := numbered.given p held
  rw [isK, numbered.next, UInt32.add_right_inj] at same
  have alike := congrArg UInt32.toNat same
  rw [UInt32.toNat_ofNat_of_lt' (lt_trans earlier few), UInt32.toNat_ofNat_of_lt' few] at alike
  exact ne_of_lt earlier alike

theorem keeps (counter : st'.nextCompletionId = st.nextCompletionId)
    (table : ∀ p, st'.pending.Holds p → st.pending.Holds p) : Numbered start issued st' where
  next := counter.trans numbered.next
  given := fun p held => numbered.given p (table p held)

theorem issues (counter : st'.nextCompletionId = st.nextCompletionId + 1)
    (table : ∀ p, st'.pending.Holds p → p.completionId = st.nextCompletionId ∨ st.pending.Holds p) :
    Numbered start (issued + 1) st' where
  next := by rw [counter, numbered.next, UInt32.ofNat_add, UInt32.add_assoc]; rfl
  given := by
    intro p held
    rcases table p held with new | old
    · exact ⟨issued, Nat.lt_succ_self issued, new.trans numbered.next⟩
    · obtain ⟨k, earlier, isK⟩ := numbered.given p old
      exact ⟨k, Nat.lt_succ_of_lt earlier, isK⟩

end Numbered

variable {dr : DrState} {event : DrEvent} {issued : Nat}

theorem Turn.numbered {dr' : DrState} {rsps : List FsRsp} {irps : List SentIrp}
    (turn : Turn dr dr' event rsps irps) {start : CompletionId}
    (numbered : Numbered start issued dr.relay.rdpdr) :
    Numbered start (issued + irps.length) dr'.relay.rdpdr := by
  cases turn with
  | refused _ same | dropped same | unknown _ same =>
    exact numbered.keeps same.counter fun _ held => same.table ▸ held
  | answered _ _ becomes | unclaimed _ _ _ becomes | ended _ _ _ _ _ becomes =>
    exact numbered.keeps becomes.counter fun _ held =>
      holds_clear (becomes.table ▸ held)
  | asked _ _ becomes | started _ _ becomes =>
    refine numbered.issues becomes.counter fun p held => ?_
    rw [becomes.table] at held
    exact (holds_put held).imp_left fun new => by rw [new]
  | advanced _ _ _ _ _ _ becomes =>
    refine numbered.issues becomes.counter fun p held => ?_
    rw [becomes.table] at held
    exact (holds_put held).imp (fun new => by rw [new]) holds_clear

theorem Turn.printers {dr' : DrState} {rsps : List FsRsp} {irps : List SentIrp}
    (turn : Turn dr dr' event rsps irps) :
    dr'.relay.isPrinterDevice = dr.relay.isPrinterDevice := by
  cases turn with
  | refused _ same | dropped same | unknown _ same => exact same.printers
  | answered _ _ becomes | unclaimed _ _ _ becomes | ended _ _ _ _ _ becomes | asked _ _ becomes
  | started _ _ becomes | advanced _ _ _ _ _ _ becomes =>
    exact becomes.printers

def DrState.apt (dr : DrState) : DrEvent → Bool
  | .fsReq req => !dr.relay.isPrinterDevice req.deviceId
  | .printJob deviceId _ => dr.relay.isPrinterDevice deviceId
  | .completion _ _ _ _ => true

def requested (t : DrTrace) (event : DrEvent) : Nat := (t.dr.step event).2.irps.length

structure Steady (first : DrState) (issued : Nat) (t : DrTrace) : Prop where
  accounted : Accounted t
  numbered : Numbered first.relay.rdpdr.nextCompletionId issued t.dr.relay.rdpdr
  printers : t.dr.relay.isPrinterDevice = first.relay.isPrinterDevice

theorem DrState.Begins.steady (begins : dr.Begins) : Steady dr 0 { dr := dr } where
  accounted := begins.accounted
  numbered :=
    { next := (UInt32.add_zero _).symm
      given := fun p held => (not_holds_empty _ p (begins.pending ▸ held)).elim }
  printers := rfl

theorem Steady.step {first : DrState} {t : DrTrace} (steady : Steady first issued t)
    (few : issued < 2 ^ 32) (apt : first.apt event = true) :
    Steady first (issued + requested t event) (t.step event) := by
  have fresh := steady.numbered.fresh few
  have turn := DrState.step_turn steady.accounted.enabled fresh event
  refine ⟨steady.accounted.step event ⟨fresh, ?_⟩, turn.numbered steady.numbered,
    turn.printers.trans steady.printers⟩
  rintro deviceId spool rfl
  rw [steady.printers]
  exact apt

theorem Steady.run {first : DrState} {events : List DrEvent}
    (apt : ∀ event ∈ events, first.apt event = true) {t : DrTrace} (steady : Steady first issued t)
    (few : issued + Runs.total DrTrace.step requested t events < 2 ^ 32) :
    ∃ issued, Steady first issued (events.foldl DrTrace.step t) := by
  induction events generalizing issued t with
  | nil => exact ⟨issued, steady⟩
  | cons event events ih =>
    rw [Runs.total, ← Nat.add_assoc] at few
    exact ih (fun other later => apt other (.tail _ later))
      (steady.step (by omega) (apt event mem_cons_self)) few

def DrOutput.rsp? : DrOutput → Option FsRsp
  | .rsp message => some message
  | .irp _ => none

/-- The record of an FS_REQ: rejected with one FS_RSP, or waiting with one request and no
FS_RSP, or answered with one FS_RSP that has the id of the FS_REQ and what its completion
brought. -/
inductive Paired (req : WireFsReq) (record : DrRecord) : Prop
  | rejected (status : UInt32)
      (outputs : record.outputs = [.rsp { reqId := req.reqId, status := status }])
      (replies : record.replies = []) (waiting : record.waiting = none)
  | waits (cid : CompletionId) (irp : Bytes)
      (outputs : record.outputs = [.irp { cid := cid, irp := irp }])
      (replies : record.replies = []) (waiting : record.waiting = some cid)
  | answered (cid : CompletionId) (irp : Bytes) (rsp : FsRsp) (status : UInt32)
      (data : Bytes) (outputs : record.outputs = [.irp { cid := cid, irp := irp }, .rsp rsp])
      (replies : record.replies = [(status, data)]) (waiting : record.waiting = none)
      (sameId : rsp.reqId = req.reqId) (sameStatus : rsp.status = status)
      (sameLength : rsp.length = data.length)
      (sameFile : req.op = 1 → 4 ≤ data.length →
        rsp.fileId = UInt32.ofNat (Rdpdr.ld32 data 0))
      (sameData : req.op ≠ 1 → rsp.payload = data)

def InOrder (record : DrRecord) : Prop :=
  match record.cause with
  | .fsReq req => Paired req record
  | .printJob _ _ => ∀ rsp, .rsp rsp ∉ record.outputs
  | .completion _ _ _ _ => False

theorem Carried.not_mem_rsp {deviceId : Channels.DeviceId} {outputs : List DrOutput}
    {requests : List PrintRequest} (carried : Carried deviceId outputs requests) (rsp : FsRsp) :
    .rsp rsp ∉ outputs := by
  induction carried with
  | nil => exact not_mem_nil
  | cons sent _ ih =>
    obtain ⟨cid, rfl⟩ := sent
    intro member
    rcases mem_cons.1 member with here | later
    · cases here
    · exact ih later

theorem FsFate.paired {req : WireFsReq} {record : DrRecord} (fate : FsFate dr req record)
    (drive : dr.relay.isPrinterDevice req.deviceId = false) : Paired req record := by
  cases fate with
  | refused status outputs replies waiting => exact .rejected status outputs replies waiting
  | waits cid irp major outputs replies waiting opens held =>
    exact .waits cid irp outputs replies waiting
  | answered cid irp major reply outputs replies waiting opens =>
    rw [drive] at outputs
    by_cases isOpen : req.op = 1
    · obtain rfl := opens.2 isOpen
      exact .answered cid irp _ reply.1 reply.2 outputs replies waiting rfl rfl rfl
        (fun _ long => if_pos long) fun other => (other isOpen).elim
    · have payload : rspOf req cid major reply = _ := if_neg fun create => isOpen (opens.1 create)
      rw [payload] at outputs
      exact .answered cid irp _ reply.1 reply.2 outputs replies waiting rfl rfl rfl
        (fun same => (isOpen same).elim) fun _ => rfl

theorem Explained.inOrder {record : DrRecord} (explained : Explained dr record)
    (drives : ∀ req, record.cause = .fsReq req → dr.relay.isPrinterDevice req.deviceId = false) :
    InOrder record := by
  unfold Explained at explained
  unfold InOrder
  cases cause : record.cause with
  | fsReq req =>
    rw [cause] at explained
    exact FsFate.paired explained (drives req cause)
  | printJob deviceId spool =>
    rw [cause] at explained
    intro rsp
    cases explained with
    | dropped outputs =>
      rw [outputs]
      exact not_mem_nil
    | goes j p requests held waiting prints carried | ended requests waiting prints carried =>
      exact carried.not_mem_rsp rsp
  | completion echo cid status data =>
    rw [cause] at explained
    exact explained

/-- **FS_REQs and FS_RSPs stay paired** on every run with fewer than `2 ^ 32` requests on
which the FS_REQs are for drives and the print jobs for printers. -/
theorem fs_rsps_paired {dr : DrState} (begins : dr.Begins) {events : List DrEvent}
    (apt : ∀ event ∈ events, dr.apt event = true)
    (few : Runs.total DrTrace.step requested { dr := dr } events < 2 ^ 32) :
    (events.foldl DrTrace.step { dr := dr }).book.strays = [] ∧
      (events.foldl DrTrace.step { dr := dr }).book.records.map Record.cause =
        events.filter DrEvent.isCause ∧
      ∀ record ∈ (events.foldl DrTrace.step { dr := dr }).book.records, InOrder record := by
  obtain ⟨issued, steady⟩ := begins.steady.run apt (by rwa [Nat.zero_add])
  have causes := map_cause_run { dr := dr } events
  refine ⟨steady.accounted.strays, causes, fun record member => ?_⟩
  refine (steady.accounted.each record member).inOrder fun req cause => ?_
  have isEvent : DrEvent.fsReq req ∈ events := by
    have isCause : record.cause ∈ _ := mem_map_of_mem member
    rw [causes, cause] at isCause
    exact (mem_filter.1 isCause).1
  have isApt := apt _ isEvent
  rw [DrState.apt, Bool.not_eq_true'] at isApt
  rw [steady.printers]
  exact isApt

def printerAndDrive : DrState where
  relay.rdpdr.devices := [{ deviceId := 5, deviceType := dtypPrint, name := [] },
    { deviceId := 7, deviceType := dtypFilesystem, name := [0x43] }]

def closeWhilePrinting : List DrEvent :=
  [.fsReq { reqId := 9, op := 4, deviceId := 7, fileId := 3 }, .printJob 5 [1, 2],
    .completion 5 1 0 [8, 0, 0, 0], .completion 7 0 0 [0, 0, 0, 0, 0]]

theorem fs_rsps_paired_close :
    (closeWhilePrinting.foldl DrTrace.step { dr := printerAndDrive }).book.strays = [] ∧
      (closeWhilePrinting.foldl DrTrace.step { dr := printerAndDrive }).book.records.map
        Record.cause = closeWhilePrinting.filter DrEvent.isCause ∧
      ∀ record ∈ (closeWhilePrinting.foldl DrTrace.step { dr := printerAndDrive }).book.records,
        InOrder record :=
  fs_rsps_paired ⟨rfl, rfl, rfl⟩ (by decide) (by decide)

def closeAndPrintOnDrive : List DrEvent :=
  [.fsReq { reqId := 0, op := 4, deviceId := 7, fileId := 3 }, .printJob 7 [],
    .completion 7 1 0 [8, 0, 0, 0], .completion 7 0 0 []]

/-- **A print job for a drive is answered with an FS_RSP**: the completion of its CREATE is
passed on with the id 0, so that an FS_REQ with this id gets two. -/
theorem print_job_answered :
    printerAndDrive.Begins ∧ (∀ req, .fsReq req ∈ closeAndPrintOnDrive →
        printerAndDrive.relay.isPrinterDevice req.deviceId = false) ∧
      Runs.total DrTrace.step requested { dr := printerAndDrive } closeAndPrintOnDrive < 2 ^ 32 ∧
      (closeAndPrintOnDrive.foldl DrTrace.step { dr := printerAndDrive }).book.records.map
        (fun record => (record.cause, record.outputs.filterMap DrOutput.rsp?)) =
        [(.fsReq { reqId := 0, op := 4, deviceId := 7, fileId := 3 },
          [{ reqId := 0, status := 0 }]),
          (.printJob 7 [], [{ reqId := 0, status := 0, fileId := 8, length := 4 }])] := by
  refine ⟨⟨rfl, rfl, rfl⟩, ?_, by decide, by decide⟩
  intro req member
  rcases mem_cons.1 member with same | member
  · cases same
    decide
  · simp at member

end RdpServer.Daemon
