import RdpServer.Daemon.DrTurn
import RdpServer.Lib.Ledger

/-!
# The book of the device redirection

The book of a run has a record for each FS_REQ and each PRINT_JOB: what was sent for
it, and which completions came for its requests. `Accounted` says that the tables of the
worker agree with the book, and every step keeps it (`Accounted.step`).
-/

namespace RdpServer.Daemon

open Channels Session Ledger List Slots

inductive DrOutput where
  | rsp (rsp : FsRsp)
  | irp (irp : SentIrp)
  deriving DecidableEq

abbrev DrReply := UInt32 × Bytes

abbrev DrRecord := Record DrEvent DrReply DrOutput CompletionId

abbrev DrBook := Book DrEvent DrReply DrOutput CompletionId

def DrOut.outputs (out : DrOut) : List DrOutput := out.rsps.map .rsp ++ out.irps.map .irp

def DrOut.waiting (out : DrOut) : Option CompletionId := out.irps.head?.map SentIrp.cid

structure DrTrace where
  dr : DrState
  book : DrBook := {}

/-- A step goes into the book: a completion is a reply, and the others are causes. -/
def noted (book : DrBook) (outputs : List DrOutput) (waiting : Option CompletionId) :
    DrEvent → DrBook
  | .completion _ cid status data => book.answers cid (status, data) outputs waiting
  | .fsReq req => book.opens (.fsReq req) outputs waiting
  | .printJob deviceId spool => book.opens (.printJob deviceId spool) outputs waiting

def DrTrace.step (t : DrTrace) (event : DrEvent) : DrTrace :=
  let turn := t.dr.step event
  { dr := turn.1, book := noted t.book turn.2.outputs turn.2.waiting event }

abbrev DrTrace.table (t : DrTrace) : Slots Pending := t.dr.relay.rdpdr.pending

abbrev DrTrace.next (t : DrTrace) : CompletionId := t.dr.relay.rdpdr.nextCompletionId

/-- A print job by itself: where the replies to its requests bring it, and which
requests it makes. -/
inductive Prints (start : PrintProgress) : List DrReply → Option PrintProgress →
    List PrintRequest → Prop
  | starts : Prints start [] (some start) [.create]
  | goes {replies : List DrReply} {j after : PrintProgress} {requests : List PrintRequest}
      {reply : DrReply} {request : PrintRequest} (before : Prints start replies (some j) requests)
      (next : j.next reply.1 reply.2 = some (after, request)) :
      Prints start (replies ++ [reply]) (some after) (requests ++ [request])
  | ends {replies : List DrReply} {j : PrintProgress} {requests : List PrintRequest}
      {reply : DrReply} (before : Prints start replies (some j) requests)
      (none : j.next reply.1 reply.2 = none) :
      Prints start (replies ++ [reply]) .none requests

def Carried (deviceId : Channels.DeviceId) : List DrOutput → List PrintRequest → Prop :=
  List.Forall₂ fun output request =>
    ∃ cid, output = .irp { cid := cid, irp := request.irp deviceId cid }

def pendingOf (req : WireFsReq) (cid : CompletionId) (major : Major) : Pending where
  completionId := cid
  deviceId := req.deviceId
  major := major
  beReqId := req.reqId

def rspOf (req : WireFsReq) (cid : CompletionId) (major : Major) (reply : DrReply) : FsRsp :=
  FsRelay.fsRspOf (completionOf (pendingOf req cid major) reply.1 reply.2)

/-- The record of an FS_REQ: it is answered at once, or its request waits, or its
completion has been passed on. -/
inductive FsFate (dr : DrState) (req : WireFsReq) (record : DrRecord) : Prop
  | refused (status : UInt32)
      (outputs : record.outputs = [.rsp { reqId := req.reqId, status := status }])
      (replies : record.replies = []) (waiting : record.waiting = none)
  | waits (cid : CompletionId) (irp : Bytes) (major : Major)
      (outputs : record.outputs = [.irp { cid := cid, irp := irp }])
      (replies : record.replies = []) (waiting : record.waiting = some cid)
      (opens : major = .create ↔ req.op = 1)
      (held : dr.relay.rdpdr.pending.Holds (pendingOf req cid major))
  | answered (cid : CompletionId) (irp : Bytes) (major : Major) (reply : DrReply)
      (outputs : record.outputs = .irp { cid := cid, irp := irp } ::
        if dr.relay.isPrinterDevice req.deviceId then [] else [.rsp (rspOf req cid major reply)])
      (replies : record.replies = [reply]) (waiting : record.waiting = none)
      (opens : major = .create ↔ req.op = 1)

/-- The record of a PRINT_JOB: it is dropped, or under way in a slot, or over. -/
inductive PrintFate (dr : DrState) (deviceId : Channels.DeviceId) (spool : Bytes)
    (record : DrRecord) : Prop
  | dropped (outputs : record.outputs = []) (replies : record.replies = [])
      (waiting : record.waiting = none)
  | goes (j : PrintJob) (p : Pending) (requests : List PrintRequest) (held : dr.jobs.Holds j)
      (waiting : record.waiting = some j.cid)
      (prints : Prints (.start deviceId spool) record.replies (some j.toPrintProgress) requests)
      (carried : Carried deviceId record.outputs requests)
      (pending : dr.relay.rdpdr.pending.Holds p) (cid : p.completionId = j.cid)
      (device : p.deviceId = deviceId) (same : j.deviceId = deviceId)
      (printer : dr.relay.isPrinterDevice deviceId = true)
  | ended (requests : List PrintRequest) (waiting : record.waiting = none)
      (prints : Prints (.start deviceId spool) record.replies none requests)
      (carried : Carried deviceId record.outputs requests)

def Explained (dr : DrState) (record : DrRecord) : Prop :=
  match record.cause with
  | .fsReq req => FsFate dr req record
  | .printJob deviceId spool => PrintFate dr deviceId spool record
  | .completion _ _ _ _ => False

variable {record : DrRecord} {dr : DrState}

theorem Explained.keep {dr' : DrState} (explained : Explained dr record)
    (printers : dr'.relay.isPrinterDevice = dr.relay.isPrinterDevice)
    (table : ∀ p, dr.relay.rdpdr.pending.Holds p → record.waiting = some p.completionId →
      dr'.relay.rdpdr.pending.Holds p)
    (slots : ∀ j, dr.jobs.Holds j → record.waiting = some j.cid → dr'.jobs.Holds j) :
    Explained dr' record := by
  unfold Explained at explained ⊢
  cases cause : record.cause with
  | fsReq req =>
    rw [cause] at explained
    cases explained with
    | refused status outputs replies waiting => exact .refused status outputs replies waiting
    | waits cid irp major outputs replies waiting opens held =>
      exact .waits cid irp major outputs replies waiting opens (table _ held waiting)
    | answered cid irp major reply outputs replies waiting opens =>
      exact .answered cid irp major reply (printers ▸ outputs) replies waiting opens
  | printJob deviceId spool =>
    rw [cause] at explained
    cases explained with
    | dropped outputs replies waiting => exact .dropped outputs replies waiting
    | goes j p requests held waiting prints carried pending cid device same printer =>
      exact .goes j p requests (slots j held waiting) waiting prints carried
        (table p pending (cid ▸ waiting)) cid device same (printers ▸ printer)
    | ended requests waiting prints carried => exact .ended requests waiting prints carried
  | completion echo cid status data =>
    rw [cause] at explained
    exact explained

/-- A record that waits for a completion is that of an FS_REQ or of a print job. -/
inductive Waits (dr : DrState) (record : DrRecord) (cid : CompletionId) : Prop
  | fs (req : WireFsReq) (irp : Bytes) (major : Major) (cause : record.cause = .fsReq req)
      (outputs : record.outputs = [.irp { cid := cid, irp := irp }])
      (replies : record.replies = []) (opens : major = .create ↔ req.op = 1)
      (held : dr.relay.rdpdr.pending.Holds (pendingOf req cid major))
  | print (deviceId : Channels.DeviceId) (spool : Bytes) (j : PrintJob) (p : Pending)
      (requests : List PrintRequest) (cause : record.cause = .printJob deviceId spool)
      (held : dr.jobs.Holds j) (isCid : j.cid = cid)
      (prints : Prints (.start deviceId spool) record.replies (some j.toPrintProgress) requests)
      (carried : Carried deviceId record.outputs requests)
      (pending : dr.relay.rdpdr.pending.Holds p) (alsoCid : p.completionId = cid)
      (device : p.deviceId = deviceId) (same : j.deviceId = deviceId)
      (printer : dr.relay.isPrinterDevice deviceId = true)

theorem Explained.waits {cid : CompletionId} (explained : Explained dr record)
    (waits : record.waiting = some cid) : Waits dr record cid := by
  unfold Explained at explained
  cases cause : record.cause with
  | fsReq req =>
    rw [cause] at explained
    cases explained with
    | refused status outputs replies waiting => rw [waits] at waiting; cases waiting
    | waits other irp major outputs replies waiting opens held =>
      rw [waits] at waiting
      cases waiting
      exact .fs req irp major cause outputs replies opens held
    | answered other irp major reply outputs replies waiting =>
      rw [waits] at waiting; cases waiting
  | printJob deviceId spool =>
    rw [cause] at explained
    cases explained with
    | dropped outputs replies waiting => rw [waits] at waiting; cases waiting
    | goes j p requests held waiting prints carried pending isCid device same printer =>
      rw [waits] at waiting
      cases waiting
      exact .print deviceId spool j p requests cause held rfl prints carried pending isCid device
        same printer
    | ended requests waiting prints carried => rw [waits] at waiting; cases waiting
  | completion echo other status data =>
    rw [cause] at explained
    exact explained.elim

theorem Waits.pending {cid : CompletionId} (waits : Waits dr record cid) :
    ∃ p, dr.relay.rdpdr.pending.Holds p ∧ p.completionId = cid := by
  cases waits with
  | fs req irp major cause outputs replies opens held => exact ⟨_, held, rfl⟩
  | print deviceId spool j p requests cause held isCid prints carried pending alsoCid =>
    exact ⟨p, pending, alsoCid⟩

/-- **The tables of the worker agree with the book.** -/
structure Accounted (t : DrTrace) : Prop where
  enabled : t.dr.relay.enabled = true
  unique : Slots.KeyUnique Pending.completionId t.dr.relay.rdpdr.pending
  jobsUnique : Slots.KeyUnique PrintJob.cid t.dr.jobs
  awaited : ∀ p, t.dr.relay.rdpdr.pending.Holds p → p.completionId ∈ t.book.waits
  jobsAwaited : ∀ j, t.dr.jobs.Holds j → ∃ record ∈ t.book.records,
    record.waiting = some j.cid ∧ ∃ deviceId spool, record.cause = .printJob deviceId spool
  nodup : t.book.waits.Nodup
  strays : t.book.strays = []
  each : ∀ record ∈ t.book.records, Explained t.dr record

namespace Accounted

variable {t : DrTrace} {dr' : DrState} {cause : DrEvent} {outputs : List DrOutput}
  {waiting : Option CompletionId} {cid next : CompletionId} {reply : DrReply} {slot place : Nat}
  {table : Slots Pending} {slots : Slots PrintJob} {p : Pending} {j : PrintJob}

variable (accounted : Accounted t)
include accounted

theorem pending_of_waits (waits : cid ∈ t.book.waits) :
    ∃ p, t.table.Holds p ∧ p.completionId = cid := by
  obtain ⟨record, member, waiting⟩ := mem_waitsOf.1 waits
  exact ((accounted.each record member).waits waiting).pending

theorem not_mem_waits (fresh : Fresh t.dr.relay.rdpdr) :
    ∀ x, some t.next = some x → x ∉ t.book.waits := by
  rintro x ⟨⟩ waits
  obtain ⟨p, held, same⟩ := accounted.pending_of_waits waits
  exact fresh p held same

/-- A job waits for the record of its own print job. -/
theorem print_of_job (held : t.dr.jobs.Holds j)
    (member : record ∈ t.book.records) (waiting : record.waiting = some j.cid) :
    ∃ spool requests, record.cause = .printJob j.deviceId spool ∧
      Prints (.start j.deviceId spool) record.replies (some j.toPrintProgress) requests ∧
      Carried j.deviceId record.outputs requests ∧
      t.dr.relay.isPrinterDevice j.deviceId = true ∧
      ∃ p, t.table.Holds p ∧ p.completionId = j.cid ∧ p.deviceId = j.deviceId := by
  obtain ⟨other, isIn, alsoWaits, deviceId, spool, isPrint⟩ := accounted.jobsAwaited j held
  rw [← eq_of_waiting accounted.nodup member isIn waiting alsoWaits] at isPrint
  cases (accounted.each record member).waits waiting with
  | fs req irp major isFs =>
    rw [isPrint] at isFs
    cases isFs
  | print _ spool k p requests cause isJob isCid prints carried pending alsoCid device same
      printer =>
    obtain rfl : k = j := accounted.jobsUnique.eq_of_holds isJob held isCid
    subst same
    exact ⟨spool, requests, cause, prints, carried, printer, p, pending, alsoCid, device⟩

theorem printer_of_job (held : t.dr.jobs.Holds j) :
    ∃ p, t.table.Holds p ∧ p.completionId = j.cid ∧
      t.dr.relay.isPrinterDevice p.deviceId = true := by
  obtain ⟨record, member, waiting, -⟩ := accounted.jobsAwaited j held
  obtain ⟨_, _, -, -, -, printer, p, pending, isCid, device⟩ :=
    accounted.print_of_job held member waiting
  exact ⟨p, pending, isCid, device ▸ printer⟩

theorem opens (becomes : t.dr.Becomes dr' table next slots)
    (unique : Slots.KeyUnique Pending.completionId table)
    (jobsUnique : Slots.KeyUnique PrintJob.cid slots)
    (kept : ∀ p, t.table.Holds p → table.Holds p)
    (jobsKept : ∀ j, t.dr.jobs.Holds j → slots.Holds j)
    (added : ∀ p, table.Holds p → t.table.Holds p ∨ waiting = some p.completionId)
    (jobsAdded : ∀ j, slots.Holds j → t.dr.jobs.Holds j ∨
      waiting = some j.cid ∧ ∃ deviceId spool, cause = .printJob deviceId spool)
    (fresh : ∀ x, waiting = some x → x ∉ t.book.waits)
    (new : Explained dr' { cause := cause, outputs := outputs, waiting := waiting }) :
    Accounted { dr := dr', book := t.book.opens cause outputs waiting } := by
  obtain ⟨rfl, -, rfl, printers, enabled⟩ := becomes
  refine ⟨enabled.trans accounted.enabled, unique, jobsUnique, ?_, ?_,
    nodup_opens accounted.nodup fresh, accounted.strays, ?_⟩
  · intro p held
    exact mem_waits_opens.2 ((added p held).imp_left (accounted.awaited p))
  · intro j held
    rcases jobsAdded j held with old | ⟨waits, isPrint⟩
    · obtain ⟨record, member, rest⟩ := accounted.jobsAwaited j old
      exact ⟨record, mem_append_left _ member, rest⟩
    · exact ⟨_, mem_append_right _ (mem_singleton_self _), waits, isPrint⟩
  · exact each_opens accounted.each (fun _ explained => explained.keep printers
      (fun p held _ => kept p held) fun j held _ => jobsKept j held) new

theorem answers (held : t.table.entry slot = some p)
    (becomes : t.dr.Becomes dr' table next slots)
    (unique : Slots.KeyUnique Pending.completionId table)
    (jobsUnique : Slots.KeyUnique PrintJob.cid slots)
    (kept : ∀ q, (t.table.clear slot).Holds q → table.Holds q)
    (jobsKept : ∀ j, t.dr.jobs.Holds j → j.cid ≠ p.completionId → slots.Holds j)
    (added : ∀ q, table.Holds q →
      (t.table.clear slot).Holds q ∨ waiting = some q.completionId)
    (jobsAdded : ∀ j, slots.Holds j → t.dr.jobs.Holds j ∧ j.cid ≠ p.completionId ∨
      waiting = some j.cid ∧ ∃ old, t.dr.jobs.Holds old ∧ old.cid = p.completionId)
    (fresh : ∀ x, waiting = some x → x ∉ t.book.waits)
    (here : ∀ record ∈ t.book.records, record.waiting = some p.completionId →
      Explained dr' (record.answered reply outputs waiting)) :
    Accounted { dr := dr', book := t.book.answers p.completionId reply outputs waiting } := by
  obtain ⟨rfl, -, rfl, printers, enabled⟩ := becomes
  have present := accounted.awaited p (holds_of_entry held)
  refine ⟨enabled.trans accounted.enabled, unique, jobsUnique, ?_, ?_,
    nodup_answers accounted.nodup present fun x waits earlier => (fresh x waits earlier).elim, ?_,
      ?_⟩
  · intro q isIn
    rw [mem_waits_answers accounted.nodup present]
    refine (added q isIn).imp_left fun left => ?_
    have old := accounted.unique.holds_clear held left
    exact ⟨accounted.awaited q old.1, old.2⟩
  · intro j isIn
    rcases jobsAdded j isIn with ⟨old, other⟩ | ⟨waits, old, wasHeld, same⟩
    · obtain ⟨record, member, isWaiting, isPrint⟩ := accounted.jobsAwaited j old
      refine ⟨record, mem_answers_of_ne member ?_, isWaiting, isPrint⟩
      rw [isWaiting]
      exact fun same => other (Option.some.inj same)
    · obtain ⟨record, member, isWaiting, isPrint⟩ := accounted.jobsAwaited old wasHeld
      rw [same] at isWaiting
      exact ⟨_, mem_answers_self accounted.nodup member isWaiting, waits, isPrint⟩
  · obtain ⟨front, record, rest, -, -, answered⟩ := answers_found present reply outputs waiting
    rw [answered]
    exact accounted.strays
  · refine each_answers accounted.nodup present accounted.each ?_
      fun record member _ => here record member
    intro record explained other
    refine explained.keep printers
      (fun q isIn waits => kept q (holds_set_of_ne Pending.completionId held isIn ?_))
      fun j isIn waits => jobsKept j isIn ?_
    · exact fun same => other (same ▸ waits)
    · exact fun same => other (same ▸ waits)

theorem same
    (same : t.dr.Becomes dr' t.dr.relay.rdpdr.pending t.next t.dr.jobs) :
    Accounted ⟨dr', t.book⟩ where
  enabled := same.enabled.trans accounted.enabled
  unique := same.table ▸ accounted.unique
  jobsUnique := same.slots ▸ accounted.jobsUnique
  awaited := fun p held => accounted.awaited p (same.table ▸ held)
  jobsAwaited := fun j held => accounted.jobsAwaited j (same.slots ▸ held)
  nodup := accounted.nodup
  strays := accounted.strays
  each := fun record member => (accounted.each record member).keep same.printers
    (fun _ held _ => same.table ▸ held) fun _ held _ => same.slots ▸ held

theorem opens_idle
    (same : t.dr.Becomes dr' t.table t.next t.dr.jobs)
    (new : Explained dr' { cause := cause, outputs := outputs, waiting := none }) :
    Accounted { dr := dr', book := t.book.opens cause outputs none } :=
  accounted.opens same accounted.unique accounted.jobsUnique (fun _ held => held)
    (fun _ held => held) (fun _ => .inl) (fun _ => .inl) nofun new

theorem unique_put (fresh : Fresh t.dr.relay.rdpdr)
    (isNext : p.completionId = t.next) (slot : Nat) :
    Slots.KeyUnique Pending.completionId (t.table.put slot p) := by
  refine accounted.unique.put fun i q held _ => ?_
  rw [isNext]
  exact fresh q (holds_of_entry held)

theorem jobsUnique_put (fresh : Fresh t.dr.relay.rdpdr)
    (isNext : j.cid = t.next) (place : Nat) :
    Slots.KeyUnique PrintJob.cid (t.dr.jobs.put place j) := by
  refine accounted.jobsUnique.put fun i k held _ same => ?_
  obtain ⟨q, pending, isCid, _⟩ := accounted.printer_of_job (holds_of_entry held)
  exact fresh q pending (isCid.trans (same.trans isNext))

theorem asked (fresh : Fresh t.dr.relay.rdpdr) {req : WireFsReq}
    {major : Major} {irp : Bytes} (free : t.table.free = some slot)
    (opens : major = .create ↔ req.op = 1)
    (becomes : t.dr.Becomes dr'
      (t.table.put slot (pendingOf req t.next major))
      (t.next + 1) t.dr.jobs) :
    Accounted ⟨dr', t.book.opens (.fsReq req)
      [.irp { cid := t.next, irp := irp }]
      (some t.next)⟩ := by
  refine accounted.opens becomes (accounted.unique_put fresh rfl slot) accounted.jobsUnique
    (fun p => holds_put_free free) (fun _ held => held) ?_ (fun _ => .inl)
    (accounted.not_mem_waits fresh) (FsFate.waits _ irp major rfl rfl rfl opens ?_)
  · exact fun p held => (holds_put held).symm.imp_right fun new => by rw [new]; rfl
  · exact becomes.table ▸ holds_put_self free

theorem started (fresh : Fresh t.dr.relay.rdpdr)
    {deviceId : Channels.DeviceId} {spool : Bytes}
    (printer : t.dr.relay.isPrinterDevice deviceId = true)
    (free : t.table.free = some slot) (idle : t.dr.jobs.free = some place)
    (becomes : t.dr.Becomes dr' (t.table.put slot
        { completionId := t.next, deviceId, major := .create })
      (t.next + 1)
      (t.dr.jobs.put place
        { PrintProgress.start deviceId spool with cid := t.next })) :
    Accounted ⟨dr', t.book.opens (.printJob deviceId spool)
      [.irp { cid := t.next
              irp := PrintRequest.create.irp deviceId t.next }]
      (some t.next)⟩ := by
  refine accounted.opens becomes (accounted.unique_put fresh rfl slot)
    (accounted.jobsUnique_put fresh rfl place) (fun p => holds_put_free free)
    (fun j => holds_put_free idle) ?_ ?_ (accounted.not_mem_waits fresh)
    (PrintFate.goes _ _ [.create] (becomes.slots ▸ holds_put_self idle) rfl .starts
      (.cons ⟨_, rfl⟩ .nil) (becomes.table ▸ holds_put_self free) rfl rfl rfl
      (becomes.printers ▸ printer))
  · exact fun p held => (holds_put held).symm.imp_right fun new => by rw [new]
  · exact fun j held => (holds_put held).symm.imp_right fun new => ⟨by rw [new], _, _, rfl⟩

section Completions

variable {status : UInt32} {data : Bytes}

theorem answers_fs (held : t.table.entry slot = some p)
    (noJob : ∀ j, t.dr.jobs.Holds j → j.cid ≠ p.completionId)
    (becomes : t.dr.Becomes dr' (t.table.clear slot)
      t.next t.dr.jobs)
    (sent : outputs = if t.dr.relay.isPrinterDevice p.deviceId then []
      else [.rsp (FsRelay.fsRspOf (completionOf p status data))]) :
    Accounted ⟨dr', t.book.answers p.completionId (status, data) outputs none⟩ := by
  refine accounted.answers held becomes (accounted.unique.clear slot) accounted.jobsUnique
    (fun _ isIn => isIn) (fun _ isJob _ => isJob) (fun _ => .inl)
    (fun j isJob => .inl ⟨isJob, noJob j isJob⟩) nofun ?_
  intro record member waiting
  cases (accounted.each record member).waits waiting with
  | fs req irp major cause old replies opens pending =>
    have same : pendingOf req p.completionId major = p :=
      accounted.unique.eq_of_holds pending (holds_of_entry held) rfl
    rw [← same] at sent
    rw [Record.answered, cause]
    refine FsFate.answered p.completionId irp major (status, data) ?_ ?_ rfl opens
    · rw [becomes.printers, sent]
      exact congrArg (· ++ _) old
    · rw [replies]
      rfl
  | print deviceId spool j _ requests _ isJob isCid => exact (noJob j isJob isCid).elim

theorem ended (held : t.table.entry slot = some p)
    (waits : t.dr.jobs.entry place = some j) (isCid : j.cid = p.completionId)
    (ends : j.toPrintProgress.next status data = none)
    (becomes : t.dr.Becomes dr' (t.table.clear slot)
      t.next (t.dr.jobs.clear place)) :
    Accounted ⟨dr', t.book.answers p.completionId (status, data) [] none⟩ := by
  refine accounted.answers held becomes (accounted.unique.clear slot)
    (accounted.jobsUnique.clear place) (fun _ isIn => isIn) ?_ (fun _ => .inl) ?_ nofun ?_
  · exact fun k isIn other => holds_set_of_ne PrintJob.cid waits isIn (isCid ▸ other)
  · exact fun k isIn => .inl (isCid ▸ accounted.jobsUnique.holds_clear waits isIn)
  · intro record member waiting
    obtain ⟨spool, requests, cause, prints, carried, -⟩ :=
      accounted.print_of_job (holds_of_entry waits) member (isCid ▸ waiting)
    rw [Record.answered, cause]
    refine PrintFate.ended requests rfl (.ends prints ends) ?_
    rw [append_nil]
    exact carried

theorem advanced (fresh : Fresh t.dr.relay.rdpdr) {next : Nat}
    {after : PrintProgress × PrintRequest}
    (held : t.table.entry slot = some p)
    (waits : t.dr.jobs.entry place = some j) (isCid : j.cid = p.completionId)
    (goes : j.toPrintProgress.next status data = some after)
    (free : (t.table.clear slot).free = some next)
    (becomes : t.dr.Becomes dr' ((t.table.clear slot).put next
        { completionId := t.next, deviceId := j.deviceId
          major := after.2.major })
      (t.next + 1)
      (t.dr.jobs.put place { after.1 with cid := t.next })) :
    Accounted ⟨dr', t.book.answers p.completionId (status, data)
      [.irp { cid := t.next
              irp := after.2.irp j.deviceId t.next }]
      (some t.next)⟩ := by
  have isJob := holds_of_entry waits
  refine accounted.answers held becomes ?_ (accounted.jobsUnique_put fresh rfl place)
    (fun q => holds_put_free free) ?_ ?_ ?_ (accounted.not_mem_waits fresh) ?_
  · refine (accounted.unique.clear slot).put fun i q isIn _ => ?_
    exact fresh q (holds_of_entry (entry_clear isIn).2)
  · exact fun k isIn other => holds_set_of_ne PrintJob.cid waits isIn (isCid ▸ other)
  · exact fun q isIn => (holds_put isIn).symm.imp_right fun new => by rw [new]
  · intro k isIn
    rcases accounted.jobsUnique.holds_put waits isIn with rfl | left
    · exact .inr ⟨rfl, j, isJob, isCid⟩
    · exact .inl (isCid ▸ left)
  · intro record member waiting
    obtain ⟨spool, requests, cause, prints, carried, printer, -⟩ :=
      accounted.print_of_job isJob member (isCid ▸ waiting)
    rw [Record.answered, cause]
    refine PrintFate.goes _ _ (requests ++ [after.2])
      (becomes.slots ▸ holds_put_held waits) rfl
      (.goes prints goes) (rel_append carried (.cons ⟨_, rfl⟩ .nil))
      (becomes.table ▸ holds_put_self free) rfl rfl
      (PrintProgress.next_eq_some goes).2.same.1 (becomes.printers ▸ printer)

end Completions

end Accounted

/-- What a run needs: a new request gets a completion id that no other request waits
with, and print jobs are for printers. -/
structure Allowed (t : DrTrace) (event : DrEvent) : Prop where
  fresh : Fresh t.dr.relay.rdpdr
  printers : ∀ deviceId spool, event = .printJob deviceId spool →
    t.dr.relay.isPrinterDevice deviceId = true

instance decidableFresh (st : Rdpdr) : Decidable (Fresh st) :=
  Slots.decidableForallHolds st.pending _

instance decidableAllowed (t : DrTrace) : (event : DrEvent) → Decidable (Allowed t event)
  | .fsReq _ => decidable_of_iff (Fresh t.dr.relay.rdpdr) ⟨fun fresh => ⟨fresh, nofun⟩,
        Allowed.fresh⟩
  | .printJob deviceId spool =>
    decidable_of_iff (Fresh t.dr.relay.rdpdr ∧ t.dr.relay.isPrinterDevice deviceId = true)
      ⟨fun both => ⟨both.1, fun _ _ same => by cases same; exact both.2⟩,
        fun allowed => ⟨allowed.fresh, allowed.printers deviceId spool rfl⟩⟩
  | .completion _ _ _ _ =>
    decidable_of_iff (Fresh t.dr.relay.rdpdr) ⟨fun fresh => ⟨fresh, nofun⟩, Allowed.fresh⟩

/-- **Every step keeps the book.** -/
theorem Accounted.step {t : DrTrace} (accounted : Accounted t) (event : DrEvent)
    (allowed : Allowed t event) : Accounted (t.step event) := by
  have turn := DrState.step_turn accounted.enabled allowed.fresh event
  unfold DrTrace.step DrOut.outputs DrOut.waiting
  dsimp only
  generalize (t.dr.step event).2.rsps = rsps at turn
  generalize (t.dr.step event).2.irps = irps at turn
  cases turn with
  | refused status same => exact accounted.opens_idle same (FsFate.refused status rfl rfl rfl)
  | asked free opens becomes => exact accounted.asked allowed.fresh free opens becomes
  | dropped same => exact accounted.opens_idle same (PrintFate.dropped rfl rfl rfl)
  | started free idle becomes =>
    exact accounted.started allowed.fresh (allowed.printers _ _ rfl) free idle becomes
  | unknown none same =>
    have absent : _ ∉ t.book.waits := fun waits =>
      have ⟨p, held, isCid⟩ := accounted.pending_of_waits waits
      none p held isCid
    rw [noted, answers_stray absent, map_nil, map_nil, append_nil, append_nil]
    exact accounted.same same
  | answered held drive becomes =>
    refine accounted.answers_fs held ?_ becomes (by rw [drive]; rfl)
    intro j isJob isCid
    obtain ⟨q, pending, alsoCid, printer⟩ := accounted.printer_of_job isJob
    rw [accounted.unique.eq_of_holds pending (holds_of_entry held) (alsoCid.trans isCid),
      drive] at printer
    cases printer
  | unclaimed held printer none becomes =>
    exact accounted.answers_fs held none becomes (by rw [printer]; rfl)
  | ended held printer waits isCid ends becomes =>
    exact accounted.ended held waits isCid ends becomes
  | advanced held printer waits isCid goes free becomes =>
    exact accounted.advanced allowed.fresh held waits isCid goes free becomes

structure DrState.Begins (dr : DrState) : Prop where
  enabled : dr.relay.enabled = true
  pending : dr.relay.rdpdr.pending = Slots.empty maxPending
  jobs : dr.jobs = Slots.empty rdpdrMaxPrintJobs

theorem DrState.Begins.accounted (begins : dr.Begins) : Accounted { dr := dr } where
  enabled := begins.enabled
  unique := begins.pending ▸ keyUnique_empty _ _
  jobsUnique := begins.jobs ▸ keyUnique_empty _ _
  awaited := fun p held => (not_holds_empty _ p (begins.pending ▸ held)).elim
  jobsAwaited := fun j held => (not_holds_empty _ j (begins.jobs ▸ held)).elim
  nodup := nodup_nil
  strays := rfl
  each := nofun

/-- **Every run keeps the book.** -/
theorem DrState.Begins.accounted_run (begins : dr.Begins) {events : List DrEvent}
    (along : Runs.Along DrTrace.step Allowed { dr := dr } events) :
    Accounted (events.foldl DrTrace.step { dr := dr }) :=
  along.invariant (fun _ event allowed accounted => accounted.step event allowed) begins.accounted

def DrEvent.isCause : DrEvent → Bool
  | completion _ _ _ _ => false
  | _ => true

theorem map_cause_run (t : DrTrace) (events : List DrEvent) :
    (events.foldl DrTrace.step t).book.records.map Record.cause =
      t.book.records.map Record.cause ++ events.filter DrEvent.isCause := by
  induction events generalizing t with
  | nil => exact (append_nil _).symm
  | cons event events ih =>
    rw [foldl_cons, ih]
    cases event with
    | fsReq req | printJob deviceId spool =>
      rw [filter_cons_of_pos rfl, append_cons]
      exact congrArg (· ++ _) map_append
    | completion echo cid status data =>
      exact congrArg (· ++ _) (map_cause_answers ..)

end RdpServer.Daemon
