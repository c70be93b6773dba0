import RdpServer.Session.Drive.Answers

/-!
# The file handles of the client

A handle that an OPEN brings is recorded in the node it was for, and goes from
there into a CLOSE. The drive loses track of it when the node is gone or has another handle by
then, or is freed with it. The handles that are recorded, closed and lost add up to those that
came (`run_balance`), so none is leaked exactly in the runs that lose none.
-/

namespace RdpServer.Session

open List Slots

namespace FuseDrive

def closesOf (fd : FuseDrive) (fileId : FileId) : Nat :=
  fd.sent.countP fun message => message.req.op == .fsClose && message.req.fileId == fileId

def heldBy (fd : FuseDrive) (fileId : FileId) : Nat :=
  fd.nodes.count fun node => node.haveOpen && node.fileId == fileId

def tracked (fd : FuseDrive) (fileId : FileId) : Nat := fd.closesOf fileId + fd.heldBy fileId

def brings (fd : FuseDrive) (rsp : FsRsp) : List FileId :=
  match fd.inflightFind rsp.reqId with
  | none => []
  | some (_, f) => if OpenSucceeds f rsp then [rsp.fileId] else []

/-- The file ids that an answer makes the drive lose track of: the one it brings,
for a node that is gone, and the one it drops. -/
def loses (fd : FuseDrive) (rsp : FsRsp) : List FileId :=
  match fd.inflightFind rsp.reqId with
  | none => []
  | some (_, f) =>
    (if fd.nodeFind f.nodeid = none ∧ OpenSucceeds f rsp then [rsp.fileId] else []) ++
      fd.dropped f rsp

def returnedBy (fd : FuseDrive) (fileId : FileId) : Event → Nat
  | .response rsp => (fd.brings rsp).count fileId
  | _ => 0

def lostBy (fd : FuseDrive) (fileId : FileId) : Event → Nat
  | .response rsp => (fd.loses rsp).count fileId
  | .device deviceId _ false =>
    fd.nodes.count fun node => (node.haveOpen && node.fileId == fileId) &&
      (node.isDrive && node.deviceId == deviceId)
  | _ => 0

def returned (fd : FuseDrive) (events : List Event) (fileId : FileId) : Nat :=
  Runs.total step (fun fd event => fd.returnedBy fileId event) fd events

def lost (fd : FuseDrive) (events : List Event) (fileId : FileId) : Nat :=
  Runs.total step (fun fd event => fd.lostBy fileId event) fd events

variable {fd after : FuseDrive} {e : Effect} {scope : Effect → Prop} {tally : Tally}

theorem closesOf_append {message : Sent} (sends : after.sent = fd.sent ++ [message])
    (fileId : FileId) :
    after.closesOf fileId = fd.closesOf fileId +
      (message.req.op == .fsClose && message.req.fileId == fileId).toNat := by
  rw [closesOf, sends, countP_append, countP_singleton]
  cases message.req.op == .fsClose && message.req.fileId == fileId <;> rfl

theorem toNat_held (node : Node) (fileId : FileId) :
    (node.haveOpen && node.fileId == fileId).toNat =
      (if node.haveOpen then some node.fileId else none).toList.count fileId := by
  cases node.haveOpen with
  | true => exact (Chain.count_one node.fileId fileId).symm
  | false => rfl

theorem tracked_put {n : NodeRef} {node : Node} (here : fd.nodes.entry n = some node)
    (changed : Node) (fileId : FileId) :
    ({ fd with nodes := fd.nodes.put n changed } : FuseDrive).tracked fileId +
        (node.haveOpen && node.fileId == fileId).toNat =
      fd.tracked fileId + (changed.haveOpen && changed.fileId == fileId).toNat := by
  rw [tracked, tracked, Nat.add_assoc, Nat.add_assoc]
  exact congrArg (fd.closesOf fileId + ·) (count_put_held here)

theorem sendClose_tracks {n : NodeRef} {node : Node} (works : fd.sendOk = true)
    (here : fd.nodes.entry n = some node) (held : node.haveOpen = true) (fileId : FileId) :
    (fd.sendClose n).tracked fileId = fd.tracked fileId := by
  have closes := sendClose_of_held works here held
  generalize fd.sendClose n = after at closes
  have sends : after.sent = fd.sent ++ [{ req := closeReq node fd.nextReqId
                                          drive := fd.driveLabel maxNodes n
                                          behalf := none }] := by rw [closes]
  have puts : after.nodes = fd.nodes.put n node.closed := by rw [closes]
  have more := closesOf_append sends fileId
  have less : after.heldBy fileId + (node.haveOpen && node.fileId == fileId).toNat =
      fd.heldBy fileId + (node.closed.haveOpen && node.closed.fileId == fileId).toNat := by
    rw [heldBy, puts]
    exact count_put_held here
  have isClose : ((closeReq node fd.nextReqId).op == .fsClose &&
      (closeReq node fd.nextReqId).fileId == fileId) = (node.fileId == fileId) := rfl
  have shut : (node.closed.haveOpen && node.closed.fileId == fileId).toNat = 0 := rfl
  rw [held, Bool.true_and] at less
  rw [isClose] at more
  rw [tracked, tracked]
  omega

theorem acts_tracks (act : Acts fd e after) (works : fd.sendOk = true) (fileId : FileId) :
    after.tracked fileId + e.leaks.toList.count fileId =
      fd.tracked fileId + e.grants.toList.count fileId := by
  cases act with
  | @touched n node changed here same =>
    have exchange := tracked_put here changed fileId
    rw [same.haveOpen, same.fileId] at exchange
    exact Nat.add_right_cancel exchange
  | @moved n node here target name =>
    exact Nat.add_right_cancel (tracked_put here { node with parent := target, name } fileId)
  | @made n node free fresh unopened plain above =>
    have adds : ({ fd with nodes := fd.nodes.put n node, nextNodeid := fd.nextNodeid + 1 } :
        FuseDrive).heldBy fileId = fd.heldBy fileId +
          (node.haveOpen && node.fileId == fileId).toNat := count_put_free free
    rw [tracked, adds, unopened]
    rfl
  | @freed n node here =>
    have lowers : (fd.freeNode n).heldBy fileId +
        (node.haveOpen && node.fileId == fileId).toNat = fd.heldBy fileId :=
      count_clear_held here
    rw [toNat_held] at lowers
    rw [tracked, tracked, ← lowers, ← Nat.add_assoc]
    rfl
  | @granted n node here brought access =>
    have exchange := tracked_put here (node.granted brought access) fileId
    rw [toNat_held] at exchange
    exact exchange
  | closed here held =>
    rw [sendClose_tracks works here held]
    rfl
  | @issued n f node slot req here free names within =>
    have sends : (fd.issueAt n f slot req).sent = fd.sent ++
        [{ req := { req with reqId := fd.nextReqId }, drive := fd.driveLabel maxNodes n
           behalf := some slot.fuseUnique }] := rfl
    have more := closesOf_append sends fileId
    have other : (req.op == .fsClose) = false := beq_eq_false_iff_ne.2 names.forNode.notClose
    rw [other] at more
    exact congrArg (· + fd.heldBy fileId) more
  | replied reply => rfl
  | listings dircache clock => rfl

theorem Handled.tracks (handled : Handled scope tally fd after) (works : fd.sendOk = true)
    (fileId : FileId) :
    after.tracked fileId + tally.leaks.count fileId =
      fd.tracked fileId + tally.grants.count fileId := by
  obtain ⟨es, chain, _, rfl⟩ := handled
  exact chain.balance acts_sendOk acts_tracks works fileId

theorem brings_eq (fd : FuseDrive) (f : Inflight) (rsp : FsRsp) :
    (if OpenSucceeds f rsp then [rsp.fileId] else []) =
      (if fd.nodeFind f.nodeid = none ∧ OpenSucceeds f rsp then [rsp.fileId] else []) ++
        fd.recorded f rsp := by
  unfold recorded
  cases fd.nodeFind f.nodeid with
  | none => simp only [true_and, append_nil]
  | some n => simp only [reduceCtorEq, false_and, if_false, nil_append]

theorem handleFsRsp_tracks (works : fd.sendOk = true) (rsp : FsRsp) (fileId : FileId) :
    (fd.handleFsRsp rsp).tracked fileId + (fd.loses rsp).count fileId =
      fd.tracked fileId + (fd.brings rsp).count fileId := by
  rcases fd.handleFsRsp_cases rsp with ⟨found, ignores⟩ | ⟨slot, f, found, _, takes⟩
  · rw [ignores, brings, loses, found]
  · have freed : (fd.freeSlot slot).sendOk = true := works
    have tracks : (fd.handleFsRsp rsp).tracked fileId + (fd.dropped f rsp).count fileId =
        fd.tracked fileId + (fd.recorded f rsp).count fileId := by
      rw [takes]
      exact (complete_handled freed f rsp).tracks freed fileId
    rw [brings, loses, found]
    dsimp only
    rw [brings_eq fd f rsp, count_append, count_append]
    omega

theorem addDevice_tracks (deviceId : DeviceId) (name : Name) (added : Bool) (fileId : FileId) :
    (fd.addDevice deviceId name added).tracked fileId +
        fd.lostBy fileId (.device deviceId name added) = fd.tracked fileId := by
  have announces := fd.addDevice_announces deviceId name added
  generalize fd.addDevice deviceId name added = after at announces
  cases announces with
  | withdrawn =>
    have sweeps := count_keep fd.nodes (fun n => !(n.isDrive && n.deviceId == deviceId))
      fun node => node.haveOpen && node.fileId == fileId
    simp only [Bool.not_not] at sweeps
    rw [tracked, Nat.add_assoc]
    exact congrArg (fd.closesOf fileId + ·) sweeps
  | ignored => rfl
  | turned n node here _ _ =>
    exact Nat.add_right_cancel (tracked_put here { node with isDrive := true } fileId)
  | made n free =>
    exact congrArg (fd.closesOf fileId + ·) (count_put_free free)

theorem step_tracks (works : fd.sendOk = true) (event : Event) (fileId : FileId) :
    (fd.step event).tracked fileId + fd.lostBy fileId event =
      fd.tracked fileId + fd.returnedBy fileId event := by
  cases event with
  | request req => exact (dispatch_handled works req).tracks works fileId
  | response rsp => exact handleFsRsp_tracks works rsp fileId
  | device deviceId name added => exact addDevice_tracks deviceId name added fileId

theorem step_sendOk (works : fd.sendOk = true) (event : Event) : (fd.step event).sendOk = true :=
  (step_settles works event 0).sendOk

theorem run_balance (works : fd.sendOk = true) (events : List Event) (fileId : FileId) :
    (fd.run events).tracked fileId + fd.lost events fileId =
      fd.tracked fileId + fd.returned events fileId :=
  Runs.balance (fun fd : FuseDrive => fd.tracked fileId) (fun _ event works =>
    step_sendOk works event)
    (fun _ event works => step_tracks works event fileId) works events

/-- An event loses no handle: an OPEN that succeeds finds its node, and without a
handle; a lookup that fails gives up no node with a handle; and a drive that goes
has none. -/
def KeepsHandles (fd : FuseDrive) : Event → Prop
  | .response rsp => ∀ slot f, fd.inflightFind rsp.reqId = some (slot, f) →
      (OpenSucceeds f rsp → ∃ n, fd.nodeFind f.nodeid = some n) ∧
      ∀ n, fd.nodeFind f.nodeid = some n →
        OpenSucceeds f rsp ∨ ProbeFails f rsp (fd.nodeAt n) → (fd.nodeAt n).haveOpen = false
  | .device deviceId _ false => ∀ node, fd.nodes.Holds node → node.isDrive = true →
      node.deviceId = deviceId → node.haveOpen = false
  | _ => True

theorem ite_singleton_eq_nil {α : Type} {condition : Prop} [Decidable condition] (x : α) :
    (if condition then [x] else []) = [] ↔ ¬ condition := by
  by_cases meets : condition <;> simp [meets]

theorem nothing_lost_iff (fd : FuseDrive) (f : Inflight) (rsp : FsRsp) :
    (if fd.nodeFind f.nodeid = none ∧ OpenSucceeds f rsp then [rsp.fileId] else []) ++
        fd.dropped f rsp = [] ↔
      (OpenSucceeds f rsp → ∃ n, fd.nodeFind f.nodeid = some n) ∧
      ∀ n, fd.nodeFind f.nodeid = some n →
        OpenSucceeds f rsp ∨ ProbeFails f rsp (fd.nodeAt n) → (fd.nodeAt n).haveOpen = false := by
  rw [append_eq_nil_iff, ite_singleton_eq_nil, dropped]
  cases fd.nodeFind f.nodeid with
  | none =>
    simp
  | some n =>
    rw [ite_singleton_eq_nil]
    constructor
    · rintro ⟨_, kept⟩
      refine ⟨fun _ => ⟨n, rfl⟩, ?_⟩
      intro other same fails
      cases same
      exact Bool.eq_false_iff.2 fun held => kept ⟨fails, held⟩
    · rintro ⟨_, kept⟩
      refine ⟨fun gone => Option.some_ne_none n gone.1, ?_⟩
      rintro ⟨fails, held⟩
      rw [kept n rfl fails] at held
      cases held

theorem loses_eq_nil (fd : FuseDrive) (rsp : FsRsp) :
    fd.loses rsp = [] ↔ fd.KeepsHandles (.response rsp) := by
  rw [loses, KeepsHandles]
  cases fd.inflightFind rsp.reqId with
  | none => simp only [reduceCtorEq, false_implies, implies_true]
  | some pair =>
    rw [nothing_lost_iff]
    constructor
    · rintro kept slot f same
      cases same
      exact kept
    · exact fun keeps => keeps pair.1 pair.2 rfl

theorem lostBy_eq_zero (fd : FuseDrive) (event : Event) :
    (∀ fileId, fd.lostBy fileId event = 0) ↔ fd.KeepsHandles event := by
  cases event with
  | request req => exact ⟨fun _ => True.intro, fun _ _ => rfl⟩
  | response rsp =>
    rw [← loses_eq_nil, eq_nil_iff_forall_not_mem]
    exact forall_congr' fun fileId => count_eq_zero
  | device deviceId name added =>
    cases added with
    | true => exact ⟨fun _ => True.intro, fun _ _ => rfl⟩
    | false =>
      have counts : (∀ fileId, fd.lostBy fileId (.device deviceId name false) = 0) ↔
          ∀ fileId node, fd.nodes.Holds node → ((node.haveOpen && node.fileId == fileId) &&
            (node.isDrive && node.deviceId == deviceId)) = false :=
        forall_congr' fun fileId => count_eq_zero _ _
      rw [counts]
      constructor
      · intro none node held isDrive same
        have lost := none node.fileId node held
        rw [isDrive, beq_iff_eq.2 same, beq_self_eq_true, Bool.and_true, Bool.and_true,
          Bool.and_true] at lost
        exact lost
      · intro keeps fileId node held
        by_contra lost
        rw [Bool.not_eq_false, Bool.and_eq_true, Bool.and_eq_true, Bool.and_eq_true] at lost
        obtain ⟨⟨haveOpen, _⟩, isDrive, same⟩ := lost
        rw [keeps node held isDrive (beq_iff_eq.1 same)] at haveOpen
        cases haveOpen

theorem lost_eq_zero (fd : FuseDrive) (events : List Event) :
    (∀ fileId, fd.lost events fileId = 0) ↔ Runs.Along step KeepsHandles fd events := by
  induction events generalizing fd with
  | nil => exact ⟨fun _ => True.intro, fun _ _ => rfl⟩
  | cons event events ih =>
    rw [Runs.Along, ← lostBy_eq_zero, ← ih, ← forall_and]
    exact forall_congr' fun fileId => Nat.add_eq_zero_iff

def FreshId (fd : FuseDrive) (event : Event) : Prop :=
  ∀ fileId, fd.returnedBy fileId event ≠ 0 → fd.heldBy fileId = 0

theorem acts_sent (act : Acts fd e after) (works : fd.sendOk = true) : fd.sent <+: after.sent := by
  cases act with
  | closed here held =>
    rw [sendClose_of_held works here held]
    exact prefix_append _ _
  | issued here free names within => exact prefix_append _ _
  | _ => exact prefix_rfl

theorem Handled.sent (handled : Handled scope tally fd after) (works : fd.sendOk = true) :
    fd.sent <+: after.sent :=
  handled.keeps works (P := fun later => fd.sent <+: later.sent) prefix_rfl fun act works _ grows =>
    grows.trans (acts_sent act works)

theorem step_sent (works : fd.sendOk = true) (event : Event) :
    fd.sent <+: (fd.step event).sent := by
  cases event with
  | request req => exact (dispatch_handled works req).sent works
  | response rsp =>
    have same : fd.step (.response rsp) = fd.handleFsRsp rsp := rfl
    rw [same]
    rcases fd.handleFsRsp_cases rsp with ⟨_, ignores⟩ | ⟨slot, f, _, _, takes⟩
    · exact ignores.symm ▸ prefix_rfl
    · have freed : (fd.freeSlot slot).sendOk = true := works
      rw [takes]
      exact (complete_handled freed f rsp).sent freed
  | device deviceId name added =>
    have same : fd.step (.device deviceId name added) = fd.addDevice deviceId name added := rfl
    have announces := fd.addDevice_announces deviceId name added
    rw [same]
    generalize fd.addDevice deviceId name added = after at announces
    cases announces <;> exact prefix_rfl

theorem step_heldBy_le (works : fd.sendOk = true) (event : Event) (fileId : FileId) :
    (fd.step event).heldBy fileId ≤ fd.heldBy fileId + fd.returnedBy fileId event := by
  have tracks := step_tracks works event fileId
  have closes : fd.closesOf fileId ≤ (fd.step event).closesOf fileId :=
    (step_sent works event).sublist.countP_le
  rw [tracked, tracked] at tracks
  omega

theorem returnedBy_le_one (fd : FuseDrive) (fileId : FileId) (event : Event) :
    fd.returnedBy fileId event ≤ 1 := by
  cases event with
  | response rsp =>
    have short : (fd.brings rsp).length ≤ 1 := by
      unfold brings
      split
      · exact Nat.zero_le 1
      · split_ifs
        · exact Nat.le_refl 1
        · exact Nat.zero_le 1
    exact Nat.le_trans count_le_length short
  | _ => exact Nat.zero_le 1

theorem run_heldBy_le_one {events : List Event} (works : fd.sendOk = true)
    (fresh : Runs.Along step FreshId fd events) (start : ∀ fileId, fd.heldBy fileId ≤ 1)
    (fileId : FileId) : (fd.run events).heldBy fileId ≤ 1 := by
  have both : (fd.run events).sendOk = true ∧ ∀ fileId, (fd.run events).heldBy fileId ≤ 1 := by
    refine fresh.invariant (P := fun fd => fd.sendOk = true ∧ ∀ fileId, fd.heldBy fileId ≤ 1) ?_
      ⟨works, start⟩
    rintro fd event new ⟨works, atMostOne⟩
    refine ⟨step_sendOk works event, fun fileId => ?_⟩
    have grows := step_heldBy_le works event fileId
    have before := atMostOne fileId
    have one := fd.returnedBy_le_one fileId event
    by_cases returns : fd.returnedBy fileId event = 0
    · omega
    · have free := new fileId returns
      omega
  exact both.2 fileId

theorem heldBy_commonInit (indexOffsets : Bool) (fileId : FileId) :
    (commonInit indexOffsets).heldBy fileId = 0 := by
  have free : (empty maxNodes : Slots Node).free = some 0 := rfl
  have one : (commonInit indexOffsets).heldBy fileId =
      (empty maxNodes).count (fun node : Node => node.haveOpen && node.fileId == fileId) +
        (rootNode.haveOpen && rootNode.fileId == fileId).toNat := count_put_free free
  rw [one, count_empty]
  rfl

/-- **Handles are neither leaked nor closed twice, in the runs that lose none.**
Every file id that came is the handle of a node or has been closed, as often as it
came, exactly if no step loses a handle. If moreover the client returns no file
id that is in use, a file id is the handle of at most one node. -/
theorem handles_accounted_iff (indexOffsets : Bool) (events : List Event) :
    ((∀ fileId, ((commonInit indexOffsets).run events).closesOf fileId +
            ((commonInit indexOffsets).run events).heldBy fileId =
          (commonInit indexOffsets).returned events fileId) ↔
      Runs.Along step KeepsHandles (commonInit indexOffsets) events) ∧
    (Runs.Along step FreshId (commonInit indexOffsets) events →
      ∀ fileId, ((commonInit indexOffsets).run events).heldBy fileId ≤ 1) := by
  have works : (commonInit indexOffsets).sendOk = true := rfl
  have closed : ∀ fileId, (commonInit indexOffsets).closesOf fileId = 0 := fun _ => rfl
  have held : ∀ fileId, (commonInit indexOffsets).heldBy fileId = 0 := heldBy_commonInit _
  constructor
  · rw [← lost_eq_zero]
    refine forall_congr' fun fileId => ?_
    have balance := run_balance works events fileId
    rw [tracked, tracked, closed, held] at balance
    omega
  · intro fresh
    exact run_heldBy_le_one works fresh fun fileId => by rw [held]; exact Nat.zero_le 1

/-- Two processes open the directory of a drive at once, and both close it. -/
def racingOpens : List Event :=
  [.device 1 [0x43, 0x3A] true,
    .request { op := .opOpendir, unique := 10, nodeid := 2 },
    .request { op := .opOpendir, unique := 11, nodeid := 2 },
    .response { reqId := 1, status := statusSuccess, fileId := 5 },
    .response { reqId := 2, status := statusSuccess, fileId := 6 },
    .request { op := .opReleasedir, unique := 12, nodeid := 2 },
    .request { op := .opReleasedir, unique := 13, nodeid := 2 }]

set_option maxRecDepth 4000 in
/-- The handle that came first is overwritten by the second, and never closed. -/
theorem racingOpens_leaks :
    (commonInit true).returned racingOpens 5 = 1 ∧
      ((commonInit true).run racingOpens).closesOf 5 = 0 ∧
      ((commonInit true).run racingOpens).heldBy 5 = 0 := by
  decide

end FuseDrive

end RdpServer.Session
