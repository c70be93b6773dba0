import RdpServer.Session.Drive.ResponseEffects

/-!
# Every request of the kernel is answered once

Each handler writes the reply, or puts an operation in flight that takes the reply on. So the
replies with an id and the operations in flight for it add up to the requests with that id
(`run_ledger`), and no reply is owed once all its FS_REQs are answered
(`request_answered_once`).
-/

namespace RdpServer.Session

open List

def FdRequest.expectsReply (req : FdRequest) : Bool :=
  !(req.op = .opInit ∨ req.op = .opForget)

namespace FuseDrive

def repliesTo (fd : FuseDrive) (unique : Unique) : Nat :=
  (fd.replies.map Reply.unique).count unique

def awaiting (fd : FuseDrive) (unique : Unique) : Nat :=
  fd.inflight.count fun f => f.owes && f.fuseUnique == unique

def accountedFor (fd : FuseDrive) (unique : Unique) : Nat :=
  fd.repliesTo unique + fd.awaiting unique

def sentFor (fd : FuseDrive) (unique : Unique) : Nat :=
  (fd.sent.filterMap Sent.behalf).count unique

/-- The request of the kernel that an event dispatches, if it expects a reply. -/
def Event.asks : Event → Option Unique
  | .request req => if req.expectsReply then some req.unique else none
  | _ => none

def asked (events : List Event) (unique : Unique) : Nat :=
  (events.filterMap Event.asks).count unique

def answersFor (fd : FuseDrive) : Event → Option Unique
  | .response rsp =>
    (fd.inflightFind rsp.reqId).bind fun found =>
      if found.2.owes then some found.2.fuseUnique else none
  | _ => none

def answered (fd : FuseDrive) (events : List Event) (unique : Unique) : Nat :=
  Runs.total step (fun fd event => (fd.answersFor event).toList.count unique) fd events

variable {fd after : FuseDrive} {unique : Unique} {n : NodeRef} {node : Node} {e : Effect}
  {scope : Effect → Prop} {tally : Tally}

theorem acts_sendOk (act : Acts fd e after) (works : fd.sendOk = true) : after.sendOk = true := by
  cases act with
  | closed here held => exact (sendClose_keeps works here).2.1
  | _ => exact works

theorem closeInflight_count {wanted : Inflight → Bool} (nodeid : NodeId)
    (other : wanted { closeSlot nodeid with reqId := fd.nextReqId } = false) :
    (fd.closeInflight nodeid).count wanted = fd.inflight.count wanted := by
  unfold closeInflight
  cases free : fd.inflight.free with
  | none => rfl
  | some f =>
    rw [Slots.count_put_free free, other]
    rfl

theorem awaiting_issueAt {f : SlotRef} {slot : Inflight} {req : FsReq}
    (free : fd.inflight.free = some f) (owes : slot.owes = true) :
    (fd.issueAt n f slot req).awaiting unique =
      fd.awaiting unique + [slot.fuseUnique].count unique := by
  have raises : (fd.issueAt n f slot req).awaiting unique =
      fd.awaiting unique + (slot.owes && slot.fuseUnique == unique).toNat :=
    Slots.count_put_free free
  rw [raises, owes, Bool.true_and, Chain.count_one]

theorem acts_settles (act : Acts fd e after) (works : fd.sendOk = true) (unique : Unique) :
    after.accountedFor unique = fd.accountedFor unique + e.answers.toList.count unique := by
  unfold accountedFor
  cases act with
  | closed here held =>
    rw [sendClose_of_held works here held, awaiting, closeInflight_count _ rfl]
    rfl
  | issued here free names _ =>
    rw [awaiting_issueAt free names.owes, ← Nat.add_assoc]
    rfl
  | replied reply =>
    have raises : FuseDrive.repliesTo { fd with replies := fd.replies ++ [reply] } unique =
        fd.repliesTo unique + [reply.unique].count unique := by
      rw [repliesTo, map_append, count_append]
      rfl
    rw [raises, Nat.add_right_comm]
    rfl
  | _ => rfl

theorem acts_traced (act : Acts fd e after) (works : fd.sendOk = true) (unique : Unique) :
    after.sentFor unique + fd.awaiting unique = fd.sentFor unique + after.awaiting unique := by
  cases act with
  | closed here held =>
    rw [sendClose_of_held works here held, awaiting, awaiting, closeInflight_count _ rfl]
    have silent : ∀ sent : Sent, sent.behalf = none →
        (fd.sent ++ [sent]).filterMap Sent.behalf = fd.sent.filterMap Sent.behalf := by
      intro sent none
      rw [filterMap_append, filterMap_cons_none none, filterMap_nil, append_nil]
    rw [sentFor, silent _ rfl]
    rfl
  | @issued n f _ slot req here free names _ =>
    have raises : (fd.issueAt n f slot req).sentFor unique =
        fd.sentFor unique + [slot.fuseUnique].count unique := by
      rw [sentFor, issueAt, filterMap_append, count_append]
      rfl
    rw [awaiting_issueAt free names.owes]
    omega
  | _ => rfl

section

variable (handled : Handled scope tally fd after) (works : fd.sendOk = true)
include handled works

/-- What every effect keeps while requests can be sent, a handler keeps. -/
theorem Handled.keeps {P : FuseDrive → Prop} (start : P fd)
    (each : ∀ {before e later}, Acts before e later → before.sendOk = true → scope e → P before →
      P later) : P after := by
  obtain ⟨es, chain, inScope, _⟩ := handled
  refine (chain.keeps (P := fun later => later.sendOk = true ∧ P later) ?_ inScope ⟨works, start⟩).2
  rintro before e later act within ⟨works, held⟩
  exact ⟨acts_sendOk act works, each act works within held⟩

theorem Handled.sendOk : after.sendOk = true :=
  handled.keeps works (P := fun fd => fd.sendOk = true) works fun act works _ _ =>
    acts_sendOk act works

theorem Handled.settles (unique : Unique) :
    after.accountedFor unique = fd.accountedFor unique + tally.answers.count unique := by
  obtain ⟨es, chain, _, rfl⟩ := handled
  exact chain.count acts_sendOk acts_settles works unique

theorem Handled.traced (unique : Unique) :
    after.sentFor unique + fd.awaiting unique = fd.sentFor unique + after.awaiting unique := by
  refine handled.keeps works (P := fun later => later.sentFor unique + fd.awaiting unique =
    fd.sentFor unique + later.awaiting unique) rfl fun act works _ same => ?_
  have traced := acts_traced act works unique
  omega

end

structure Settles (fd : FuseDrive) (event : Event) (unique : Unique) : Prop where
  sendOk : (fd.step event).sendOk = true
  replies : (fd.step event).accountedFor unique =
    fd.accountedFor unique + event.asks.toList.count unique
  messages : (fd.step event).sentFor unique + fd.awaiting unique =
    fd.sentFor unique + (fd.step event).awaiting unique + (fd.answersFor event).toList.count unique

theorem dispatch_settles (works : fd.sendOk = true) (req : FdRequest) (unique : Unique) :
    Settles fd (.request req) unique := by
  have handled := dispatch_handled works req
  refine ⟨handled.sendOk works, ?_, handled.traced works unique⟩
  have settles := handled.settles works unique
  by_cases silent : req.op = .opInit ∨ req.op = .opForget
  · rw [if_pos silent] at settles
    rw [Event.asks, FdRequest.expectsReply, decide_eq_true silent]
    exact settles
  · rw [if_neg silent] at settles
    rw [Event.asks, FdRequest.expectsReply, decide_eq_false silent]
    exact settles

theorem awaiting_freeSlot {slot : SlotRef} {f : Inflight}
    (held : fd.inflight.entry slot = some f) (unique : Unique) :
    (fd.freeSlot slot).awaiting unique + (if f.owes then [f.fuseUnique] else []).count unique =
      fd.awaiting unique := by
  have lowers : (fd.freeSlot slot).awaiting unique +
      (f.owes && f.fuseUnique == unique).toNat = fd.awaiting unique := Slots.count_clear_held held
  rw [← lowers]
  cases f.owes with
  | true => rw [if_pos rfl, Chain.count_one, Bool.true_and]
  | false => rfl

section

variable (works : fd.sendOk = true)
include works

theorem handleFsRsp_settles (rsp : FsRsp) (unique : Unique) :
    Settles fd (.response rsp) unique := by
  rcases fd.handleFsRsp_cases rsp with ⟨found, ignores⟩ | ⟨slot, f, found, held, takes⟩
  · have same : fd.step (.response rsp) = fd := ignores
    refine ⟨?_, ?_, ?_⟩
    · rw [same, works]
    · rw [same]
      rfl
    · rw [same, answersFor, found]
      rfl
  · have freed : (fd.freeSlot slot).sendOk = true := works
    have handled := complete_handled freed f rsp
    have lowers := awaiting_freeSlot held unique
    have settles : (fd.handleFsRsp rsp).accountedFor unique =
        (fd.freeSlot slot).accountedFor unique +
          (if f.owes then [f.fuseUnique] else []).count unique := by
      rw [takes]
      exact handled.settles freed unique
    have traced := handled.traced freed unique
    have answers : (fd.answersFor (.response rsp)).toList =
        if f.owes then [f.fuseUnique] else [] := by
      rw [answersFor, found]
      cases owes : f.owes <;> simp only [Option.bind_some, owes] <;> rfl
    rw [← takes] at traced
    have kept : (fd.freeSlot slot).repliesTo unique = fd.repliesTo unique := rfl
    have sent : (fd.freeSlot slot).sentFor unique = fd.sentFor unique := rfl
    rw [accountedFor, accountedFor] at settles
    have same : fd.step (.response rsp) = fd.handleFsRsp rsp := rfl
    refine ⟨?_, ?_, ?_⟩
    · rw [same, takes]
      exact handled.sendOk freed
    · have silent : (Event.asks (.response rsp)).toList.count unique = 0 := rfl
      rw [same, accountedFor, accountedFor]
      omega
    · rw [same, answers]
      omega

theorem addDevice_settles (deviceId : DeviceId) (name : Name) (added : Bool) (unique : Unique) :
    Settles fd (.device deviceId name added) unique := by
  have announces := fd.addDevice_announces deviceId name added
  have same : fd.step (.device deviceId name added) = fd.addDevice deviceId name added := rfl
  generalize fd.addDevice deviceId name added = after at announces same
  refine ⟨?_, ?_, ?_⟩ <;> rw [same] <;> cases announces <;> first | exact works | rfl

theorem step_settles (event : Event) (unique : Unique) : Settles fd event unique := by
  cases event with
  | request req => exact dispatch_settles works req unique
  | response rsp => exact handleFsRsp_settles works rsp unique
  | device deviceId name added => exact addDevice_settles works deviceId name added unique

theorem run_ledger (events : List Event) (unique : Unique) :
    (fd.run events).accountedFor unique = fd.accountedFor unique + asked events unique ∧
      (fd.run events).sentFor unique + fd.awaiting unique =
        fd.sentFor unique + (fd.run events).awaiting unique + fd.answered events unique := by
  induction events generalizing fd with
  | nil => exact ⟨rfl, rfl⟩
  | cons event events ih =>
    obtain ⟨sendOk, replies, messages⟩ := step_settles works event unique
    obtain ⟨later, rest⟩ := ih sendOk
    have runs : fd.run (event :: events) = (fd.step event).run events := rfl
    refine ⟨?_, ?_⟩
    · rw [runs, later, asked, asked, Chain.filterMap_label, count_append]
      omega
    · rw [runs, answered, Runs.total]
      rw [answered] at rest
      omega

end

/-- **Every request of the kernel is answered once.** In every run of the drive
there are at most as many replies with a request id as requests with that id, and
exactly as many once every FS_REQ sent for it is answered. -/
theorem request_answered_once (indexOffsets : Bool) (events : List Event) (unique : Unique) :
    ((commonInit indexOffsets).run events).repliesTo unique ≤ asked events unique ∧
      (commonInit indexOffsets).answered events unique ≤
        ((commonInit indexOffsets).run events).sentFor unique ∧
      ((commonInit indexOffsets).answered events unique =
          ((commonInit indexOffsets).run events).sentFor unique →
        ((commonInit indexOffsets).run events).repliesTo unique = asked events unique) := by
  have works : (commonInit indexOffsets).sendOk = true := rfl
  obtain ⟨replies, messages⟩ := run_ledger works events unique
  have idle : (commonInit indexOffsets).awaiting unique = 0 := Slots.count_empty _ _
  have unheard : (commonInit indexOffsets).repliesTo unique = 0 := rfl
  have unsent : (commonInit indexOffsets).sentFor unique = 0 := rfl
  rw [accountedFor, accountedFor] at replies
  exact ⟨by omega, by omega, fun all => by omega⟩

def lookupRun : List Event :=
  [.device 1 [0x43, 0x3A] true,
    .request { op := .opLookup, unique := 11, nodeid := 2, name := [0x61] },
    .response { reqId := 1, status := statusSuccess, fileId := 6 },
    .response { reqId := 2, status := statusSuccess },
    .response { reqId := 3, status := statusSuccess }]

set_option maxRecDepth 4000 in
theorem request_answered_once_lookup :
    asked lookupRun 11 = 1 ∧ ((commonInit true).run lookupRun).repliesTo 11 = 1 :=
  ⟨by decide, ((request_answered_once true lookupRun 11).2.2 (by decide)).trans (by decide)⟩

end FuseDrive

end RdpServer.Session
