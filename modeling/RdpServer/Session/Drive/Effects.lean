import RdpServer.Lib.Runs
import RdpServer.Session.Drive.Responses

/-!
# What a handler can do to the drive

Every handler of the drive is a sequence of a few kinds of steps: a node is
changed, made, freed, given a handle or stripped of it; an operation is put in
flight; a reply is written; the listings change. `Acts` says what each of them
does and `Handled` summarises the sequence of a handler.
-/

namespace RdpServer.Session

open List Slots

structure Node.Same (before after : Node) : Prop where
  nodeid : after.nodeid = before.nodeid
  deviceId : after.deviceId = before.deviceId
  parent : after.parent = before.parent
  name : after.name = before.name
  isDrive : after.isDrive = before.isDrive
  haveOpen : after.haveOpen = before.haveOpen
  fileId : after.fileId = before.fileId

theorem Node.same_counts (node : Node) (isDir : Bool) (openRefs nlookup : Nat) :
    node.Same { node with isDir, openRefs, nlookup } :=
  ⟨rfl, rfl, rfl, rfl, rfl, rfl, rfl⟩

/-- The node after `fd_send_close`. -/
def Node.shut (node : Node) : Node := if node.haveOpen then node.closed else node

@[simp] theorem Node.shut_nodeid (node : Node) : node.shut.nodeid = node.nodeid := by
  unfold shut
  split_ifs <;> rfl

@[simp] theorem Node.shut_parent (node : Node) : node.shut.parent = node.parent := by
  unfold shut
  split_ifs <;> rfl

@[simp] theorem Node.shut_deviceId (node : Node) : node.shut.deviceId = node.deviceId := by
  unfold shut
  split_ifs <;> rfl

@[simp] theorem Node.shut_name (node : Node) : node.shut.name = node.name := by
  unfold shut
  split_ifs <;> rfl

@[simp] theorem Node.shut_isDrive (node : Node) : node.shut.isDrive = node.isDrive := by
  unfold shut
  split_ifs <;> rfl

@[simp] theorem Node.shut_haveOpen (node : Node) : node.shut.haveOpen = false := by
  unfold shut
  split_ifs with held
  · rfl
  · exact Bool.eq_false_iff.2 held

def Inflight.opens (f : Inflight) : Bool :=
  match f.op with
  | .fsOpen | .openfileTag | .opendirTag | .getattrTag | .createTag | .mknodTag | .mkdirTag => true
  | .unlinkTag => f.phase = .unlinkOpen
  | .renameTag => f.phase = .renameOpen
  | _ => false

def Inflight.owes (f : Inflight) : Bool := f.op ≠ .fsClose ∧ f.op ≠ .fsSetInfo

/-- A request names the device of its node, and the file id of its node unless it
is an OPEN. -/
structure FsReq.ForNode (req : FsReq) (node : Node) : Prop where
  deviceId : req.deviceId = node.deviceId
  notClose : req.op ≠ .fsClose
  unopened : req.op = .fsOpen → req.fileId = 0
  fileId : req.op ≠ .fsOpen → req.fileId = node.fileId
  haveOpen : req.op ≠ .fsOpen → req.op ≠ .fsList → node.haveOpen = true

structure Names (node : Node) (slot : Inflight) (req : FsReq) : Prop where
  forNode : req.ForNode node
  nodeid : slot.nodeid = node.nodeid
  owes : slot.owes = true
  opens : req.op = .fsOpen ↔ slot.opens = true
  lists : req.op = .fsList ↔ slot.op = .fsList

theorem Inflight.owes_of_opens {f : Inflight} (opens : f.opens = true) :
    f.owes = true ∧ f.op ≠ .fsList := by
  cases op : f.op <;> simp_all [Inflight.opens, Inflight.owes]

theorem Names.ofOpen {node : Node} {slot : Inflight} {req : FsReq} (forNode : req.ForNode node)
    (isOpen : req.op = .fsOpen) (nodeid : slot.nodeid = node.nodeid)
    (opens : slot.opens = true) : Names node slot req := by
  obtain ⟨owes, notList⟩ := Inflight.owes_of_opens opens
  refine ⟨forNode, nodeid, owes, ⟨fun _ => opens, fun _ => isOpen⟩, ?_⟩
  rw [isOpen]
  exact ⟨fun other => FsOp.noConfusion other, fun lists => absurd lists notList⟩

variable {op : FsOp}

/-- The operation opens nothing and lists nothing. -/
def FsOp.plain (op : FsOp) : Bool := op ≠ .fsOpen ∧ op ≠ .fsList

def Inflight.plain (f : Inflight) : Bool := f.owes ∧ ¬ f.opens ∧ f.op ≠ .fsList

theorem Names.ofHandle {node : Node} {slot : Inflight} {req : FsReq} (forNode : req.ForNode node)
    (kind : req.op = op) (plain : op.plain = true) (nodeid : slot.nodeid = node.nodeid)
    (waits : slot.plain = true) : Names node slot req := by
  subst kind
  obtain ⟨notOpen, notList⟩ := of_decide_eq_true plain
  obtain ⟨owes, answersOther, listsOther⟩ := of_decide_eq_true waits
  exact ⟨forNode, nodeid, owes, iff_of_false notOpen answersOther, iff_of_false notList listsOther⟩

def Body.opens : Body → Option NodeId
  | .opened fh true => some fh
  | .created nodeid _ _ => some nodeid
  | _ => none

inductive Effect where
  | touched (node after : Node)
  | moved (node : Node) (target : NodeId)
  | made (node : Node)
  | freed (node : Node)
  | granted (node : Node) (fileId : FileId)
  | closed (node : Node)
  | issued (node : Node) (slot : Inflight) (req : FsReq)
  | replied (reply : Reply)
  | listings

namespace FuseDrive

variable {fd : FuseDrive} {n : NodeRef} {f : SlotRef} {node : Node} {slot : Inflight} {req : FsReq}

def issueAt (fd : FuseDrive) (n : NodeRef) (f : SlotRef) (slot : Inflight) (req : FsReq) :
    FuseDrive :=
  { fd with
    inflight := fd.inflight.put f { slot with reqId := fd.nextReqId }
    nextReqId := fd.nextReqId + 1
    sent := fd.sent ++ [{ req := { req with reqId := fd.nextReqId }
                          drive := fd.driveLabel maxNodes n
                          behalf := some slot.fuseUnique }] }

def RenameWithin (fd : FuseDrive) (node : Node) (slot : Inflight) : Prop :=
  slot.phase = .renameOpen → ∃ above below, fd.nodes.Holds above ∧ fd.nodes.Holds below ∧
    above.nodeid = node.parent ∧ below.nodeid = slot.targetParent ∧
      below.deviceId = above.deviceId ∧ above.deviceId ≠ 0

theorem RenameWithin.of_ne (other : slot.phase ≠ .renameOpen) : fd.RenameWithin node slot :=
  fun isRename => absurd isRename other

inductive Acts : FuseDrive → Effect → FuseDrive → Prop where
  | touched {fd : FuseDrive} {n : NodeRef} {node after : Node}
      (here : fd.nodes.entry n = some node) (same : node.Same after) :
      Acts fd (.touched node after) { fd with nodes := fd.nodes.put n after }
  | moved {fd : FuseDrive} {n : NodeRef} {node : Node} (here : fd.nodes.entry n = some node)
      (target : NodeId) (name : Name) (clean : 0 ∉ name) :
      Acts fd (.moved node target)
        { fd with nodes := fd.nodes.put n { node with parent := target, name } }
  | made {fd : FuseDrive} {n : NodeRef} {node : Node} (free : fd.nodes.free = some n)
      (fresh : node.nodeid = fd.nextNodeid) (unopened : node.haveOpen = false)
      (plain : node.isDrive = false) (clean : 0 ∉ node.name)
      (placed : node.parent ≠ rootId ∨ node.deviceId ≠ 0)
      (above : ∃ parent, fd.nodes.Holds parent ∧ parent.nodeid = node.parent ∧
        parent.deviceId = node.deviceId) :
      Acts fd (.made node)
        { fd with nodes := fd.nodes.put n node, nextNodeid := fd.nextNodeid + 1 }
  | freed {fd : FuseDrive} {n : NodeRef} {node : Node} (here : fd.nodes.entry n = some node) :
      Acts fd (.freed node) (fd.freeNode n)
  | granted {fd : FuseDrive} {n : NodeRef} {node : Node} (here : fd.nodes.entry n = some node)
      (fileId : FileId) (access : Access) :
      Acts fd (.granted node fileId)
        { fd with nodes := fd.nodes.put n (node.granted fileId access) }
  | closed {fd : FuseDrive} {n : NodeRef} {node : Node} (here : fd.nodes.entry n = some node)
      (held : node.haveOpen = true) : Acts fd (.closed node) (fd.sendClose n)
  | issued {fd : FuseDrive} {n : NodeRef} {f : SlotRef} {node : Node} {slot : Inflight}
      {req : FsReq} (here : fd.nodes.entry n = some node) (free : fd.inflight.free = some f)
      (names : Names node slot req) (within : fd.RenameWithin node slot) :
      Acts fd (.issued node slot req) (fd.issueAt n f slot req)
  | replied {fd : FuseDrive} (reply : Reply) :
      Acts fd (.replied reply) { fd with replies := fd.replies ++ [reply] }
  | listings {fd : FuseDrive} (dircache : Slots Dircache) (clock : Nat) :
      Acts fd .listings { fd with dircache, dircacheClock := clock }

end FuseDrive

namespace Effect

/-- The request of the kernel that a step replies to, or takes on the reply of. -/
def answers : Effect → Option Unique
  | issued _ slot _ => some slot.fuseUnique
  | replied reply => some reply.unique
  | _ => none

def grants : Effect → Option FileId
  | granted _ fileId => some fileId
  | _ => none

/-- The handle that a step loses track of: the node that had it is freed, or the
handle is overwritten. -/
def leaks : Effect → Option FileId
  | freed node | granted node _ => if node.haveOpen then some node.fileId else none
  | _ => none

/-- A step that leaves the nodes alone and gives the kernel no handle. -/
def Still : Effect → Prop
  | issued _ _ _ | listings => True
  | replied reply => reply.body.opens = none
  | _ => False

end Effect

structure Tally where
  answers : List Unique := []
  grants : List FileId := []
  leaks : List FileId := []

def Tally.append (first second : Tally) : Tally :=
  { answers := first.answers ++ second.answers
    grants := first.grants ++ second.grants
    leaks := first.leaks ++ second.leaks }

namespace FuseDrive

/-- A handler took the drive from one state to another by steps of a scope, and
its steps add up to a tally. -/
def Handled (scope : Effect → Prop) (tally : Tally) (fd after : FuseDrive) : Prop :=
  ∃ es, Chain Acts fd es after ∧ (∀ e ∈ es, scope e) ∧
    tally = { answers := es.filterMap Effect.answers
              grants := es.filterMap Effect.grants
              leaks := es.filterMap Effect.leaks }

variable {fd after last : FuseDrive} {scope : Effect → Prop} {first second tally : Tally}
  {n : NodeRef} {f : SlotRef} {node : Node} {slot : Inflight} {req : FsReq}
  {change : Inflight → Inflight}

namespace Handled

theorem refl (fd : FuseDrive) : Handled scope {} fd fd :=
  ⟨[], .nil fd, fun _ member => absurd member not_mem_nil, rfl⟩

theorem trans (begins : Handled scope first fd after) (ends : Handled scope second after last) :
    Handled scope (first.append second) fd last := by
  obtain ⟨es, chain, inScope, sum⟩ := begins
  obtain ⟨fs, rest, alsoInScope, total⟩ := ends
  refine ⟨es ++ fs, chain.append rest, ?_, ?_⟩
  · intro e member
    rcases mem_append.1 member with before | later
    · exact inScope e before
    · exact alsoInScope e later
  · rw [sum, total, Tally.append, filterMap_append, filterMap_append, filterMap_append]

theorem single {e : Effect} (act : Acts fd e after) (inScope : scope e) :
    Handled scope
      { answers := e.answers.toList, grants := e.grants.toList, leaks := e.leaks.toList }
      fd after := by
  refine ⟨[e], .single act, ?_, ?_⟩
  · intro other member
    rw [mem_singleton.1 member]
    exact inScope
  · rw [Chain.filterMap_label, Chain.filterMap_label, Chain.filterMap_label, filterMap_nil,
      filterMap_nil, filterMap_nil, append_nil, append_nil, append_nil]

end Handled

/-- The files that the kernel has been given handles of, one for each reply. -/
def openings (fd : FuseDrive) : List NodeId := fd.replies.filterMap fun reply => reply.body.opens

structure Quiet (fd after : FuseDrive) : Prop where
  nodes : after.nodes = fd.nodes
  openings : after.openings = fd.openings

theorem Quiet.refl (fd : FuseDrive) : Quiet fd fd := ⟨rfl, rfl⟩

theorem Quiet.trans (first : Quiet fd after) (second : Quiet after last) : Quiet fd last :=
  ⟨second.nodes.trans first.nodes, second.openings.trans first.openings⟩

theorem acts_quiet {e : Effect} (act : Acts fd e after) (still : e.Still) : Quiet fd after := by
  cases act with
  | issued here free names within => exact ⟨rfl, rfl⟩
  | replied reply =>
    refine ⟨rfl, ?_⟩
    have plain : reply.body.opens = none := still
    rw [openings, filterMap_append, Chain.filterMap_label, plain]
    exact append_nil _
  | listings dircache clock => exact ⟨rfl, rfl⟩
  | _ => exact still.elim

theorem Handled.quiet (handled : Handled scope tally fd after)
    (still : ∀ e, scope e → e.Still) : Quiet fd after := by
  obtain ⟨es, chain, inScope, -⟩ := handled
  refine chain.keeps (P := fun later => Quiet fd later) ?_ inScope (.refl fd)
  exact fun act within before => before.trans (acts_quiet act (still _ within))

theorem Handled.mono {wider : Effect → Prop} (handled : Handled scope tally fd after)
    (within : ∀ e, scope e → wider e) : Handled wider tally fd after := by
  obtain ⟨es, chain, inScope, sum⟩ := handled
  exact ⟨es, chain, fun e member => within e (inScope e member), sum⟩

/-- A handler that leaves a reply behind, and the nodes alone. -/
abbrev Rests (scope : Effect → Prop) (unique : Unique) (fd after : FuseDrive) : Prop :=
  Handled (fun e => scope e ∧ e.Still) { answers := [unique] } fd after

theorem Rests.handled {unique : Unique} (rests : Rests scope unique fd after) :
    Handled scope { answers := [unique] } fd after :=
  rests.mono fun _ within => within.1

theorem Rests.quiet {unique : Unique} (rests : Rests scope unique fd after) : Quiet fd after :=
  Handled.quiet rests fun _ within => within.2

theorem nodeAt_of_entry (here : fd.nodes.entry n = some node) : fd.nodeAt n = node := by
  rw [nodeAt, here]
  rfl

theorem entry_of_nodeFind {nodeid : NodeId} (found : fd.nodeFind nodeid = some n) :
    ∃ node, fd.nodes.entry n = some node ∧ node.nodeid = nodeid := by
  obtain ⟨node, here, same⟩ := find_eq_some found
  exact ⟨node, here, beq_iff_eq.1 same⟩

/-- A node that is looked up is gone, or in a slot. -/
@[elab_as_elim]
theorem nodeFind_rule {P : Option NodeRef → Prop} {nodeid : NodeId} (r : Option NodeRef)
    (looks : fd.nodeFind nodeid = r) (gone : P none)
    (there : ∀ n node, fd.nodeFind nodeid = some n → fd.nodes.entry n = some node →
      node.nodeid = nodeid → P (some n)) : P r := by
  cases r with
  | none => exact gone
  | some n =>
    obtain ⟨node, here, self⟩ := entry_of_nodeFind looks
    exact there n node looks here self

theorem entry_of_childFind {parent : NodeId} {name : Name}
    (found : fd.childFind parent name = some n) :
    ∃ node, fd.nodes.entry n = some node ∧ node.parent = parent ∧ node.name = name := by
  unfold childFind at found
  split_ifs at found
  obtain ⟨node, here, same⟩ := find_eq_some found
  rw [Bool.and_eq_true, beq_iff_eq, beq_iff_eq] at same
  exact ⟨node, here, same⟩

theorem updateNode_of_entry (here : fd.nodes.entry n = some node) (change : Node → Node) :
    fd.updateNode n change = { fd with nodes := fd.nodes.put n (change node) } := by
  rw [updateNode, here]

theorem entry_updateNode (here : fd.nodes.entry n = some node) (change : Node → Node) :
    (fd.updateNode n change).nodes.entry n = some (change node) := by
  rw [updateNode_of_entry here]
  exact entry_put_self (inside_of_entry here)

@[simp] theorem updateNode_sent (fd : FuseDrive) (n : NodeRef) (change : Node → Node) :
    (fd.updateNode n change).sent = fd.sent := by
  unfold updateNode
  split <;> rfl

theorem updateNode_sendOk (works : fd.sendOk = true) (here : fd.nodes.entry n = some node)
    (change : Node → Node) : (fd.updateNode n change).sendOk = true := by
  rw [updateNode_of_entry here]
  exact works

theorem zero_not_mem_cString (octets : Bytes) : 0 ∉ cString octets := by
  intro member
  have kept := all_eq_true.1 all_takeWhile 0 member
  cases kept

variable {other : FuseDrive}

theorem lookups_congr (same : other.nodes = fd.nodes) :
    other.nodeAt = fd.nodeAt ∧ other.nodeFind = fd.nodeFind := by
  constructor
  · funext n
    rw [nodeAt, nodeAt, same]
  · funext nodeid
    rw [nodeFind, nodeFind, same]

theorem driveLabel_congr (same : other.nodes = fd.nodes) (fuel : Nat)
    (n : NodeRef) : other.driveLabel fuel n = fd.driveLabel fuel n := by
  obtain ⟨nodes, finds⟩ := lookups_congr same
  induction fuel generalizing n with
  | zero => rw [driveLabel, driveLabel, nodes]
  | succ fuel ih => rw [driveLabel, driveLabel, nodes, finds, funext ih]

theorem nodePath_congr (same : other.nodes = fd.nodes) (n : NodeRef)
    (cap : Nat) : other.nodePath n cap = fd.nodePath n cap := by
  obtain ⟨nodes, finds⟩ := lookups_congr same
  have parts : ∀ fuel n, other.pathParts fuel n = fd.pathParts fuel n := by
    intro fuel
    induction fuel with
    | zero =>
      intro n
      rw [pathParts, pathParts, nodes]
    | succ fuel ih =>
      intro n
      rw [pathParts, pathParts, nodes, finds]
      simp only [ih]
  rw [nodePath, nodePath, parts]

/-- The outcome of a sender of one kind of messages: nothing happened, or the
operation is in flight. -/
inductive Sends (fd : FuseDrive) (n : NodeRef) (node : Node) (op : FsOp) (slot : Inflight) :
    Sending → Prop
  | refused : Sends fd n node op slot { drive := fd }
  | sent (f : SlotRef) (req : FsReq) (free : fd.inflight.free = some f)
      (forNode : req.ForNode node) (kind : req.op = op)
      (path : op = .fsOpen → fd.nodePath n pathCap = some req.payload) :
      Sends fd n node op slot { drive := fd.issueAt n f slot req, slot := some f }

theorem driveLabel_issued (inflight : Slots Inflight) (nextReqId : ReqId) :
    ({ fd with inflight, nextReqId } : FuseDrive).driveLabel maxNodes n =
      fd.driveLabel maxNodes n := driveLabel_congr (by rfl) maxNodes n

theorem issue_eq (works : fd.sendOk = true) : fd.issue n slot req = match fd.inflight.free with
    | none => { drive := fd }
    | some f => { drive := fd.issueAt n f slot req, slot := some f } := by
  unfold issue inflightAlloc
  cases fd.inflight.free with
  | none => rfl
  | some f =>
    simp only [Option.map_some]
    rw [sendFsReq, if_pos (by exact works), if_pos works, driveLabel_issued]
    rfl

theorem issue_sends (works : fd.sendOk = true) (kind : req.op = op)
    (path : op = .fsOpen → fd.nodePath n pathCap = some req.payload) (forNode : req.ForNode node) :
    Sends fd n node op slot (fd.issue n slot req) := by
  rw [issue_eq works]
  cases free : fd.inflight.free with
  | none => exact .refused
  | some f => exact .sent f req free forNode kind path

variable {sending : Sending}

theorem Sends.tag (sends : Sends fd n node op slot sending)
    (apart : ∀ reqId, change { slot with reqId } = { change slot with reqId })
    (same : (change slot).fuseUnique = slot.fuseUnique) :
    Sends fd n node op (change slot) (sending.tag change) := by
  cases sends with
  | refused => exact .refused
  | sent f req free forNode kind path =>
    have held : (fd.issueAt n f slot req).inflight.entry f =
        some { slot with reqId := fd.nextReqId } := entry_put_self (free_eq_some free).1
    have tagged : (fd.issueAt n f slot req).updateSlot f change =
        fd.issueAt n f (change slot) req := by
      rw [updateSlot, held]
      dsimp only
      rw [apart]
      simp only [issueAt, put_put, same]
    rw [Sending.tag]
    dsimp only
    rw [tagged]
    exact .sent f req free forNode kind path

variable {failed : FuseDrive → FuseDrive}

theorem Sends.settles (sends : Sends fd n node op slot sending)
    (here : fd.nodes.entry n = some node)
    (names : ∀ req : FsReq, req.ForNode node → req.op = op → Names node slot req)
    (within : fd.RenameWithin node slot) (inScope : ∀ req, scope (.issued node slot req))
    (otherwise : Handled scope { answers := [slot.fuseUnique] } fd (failed fd)) :
    Handled scope { answers := [slot.fuseUnique] } fd (sending.orElse failed) := by
  cases sends with
  | refused => exact otherwise
  | sent f req free forNode kind _ =>
    exact .single (.issued here free (names req forNode kind) within) (inScope req)

theorem Sends.asks (sends : Sends fd n node op slot sending) (here : fd.nodes.entry n = some node)
    (plain : op.plain = true) (nodeid : slot.nodeid = node.nodeid) (waits : slot.plain = true)
    (phase : slot.phase ≠ .renameOpen) (inScope : ∀ req, scope (.issued node slot req))
    (otherwise : Handled scope { answers := [slot.fuseUnique] } fd (failed fd)) :
    Handled scope { answers := [slot.fuseUnique] } fd (sending.orElse failed) :=
  sends.settles here (fun _ forNode kind => .ofHandle forNode kind plain nodeid waits)
    (.of_ne phase) inScope otherwise

section

variable (works : fd.sendOk = true) (here : fd.nodes.entry n = some node)
include works here

variable (unique : Unique)

theorem sendOpenFull_sends
    (opTag : Tag) (access : Access) (disposition : Disposition)
    (options : UInt32) :
    Sends fd n node .fsOpen
      { fuseUnique := unique, op := opTag, nodeid := node.nodeid, reqAccess := access }
      (fd.sendOpenFull n unique opTag access disposition options) := by
  unfold sendOpenFull
  rw [nodeAt_of_entry here]
  cases found : fd.nodePath n pathCap with
  | none => exact .refused
  | some path =>
    refine issue_sends works rfl (fun _ => found) ?_
    exact ⟨rfl, nofun, fun _ => rfl, fun other => absurd rfl other,
      fun other => absurd rfl other⟩

theorem sendQuery_sends
    (infoClass : InfoClass) (phase : Phase) (acc : AttrAcc) (replyOp : FdOp) :
    Sends fd n node .fsQueryInfo
      { fuseUnique := unique, op := .fsQueryInfo, nodeid := node.nodeid, phase, replyOp, acc }
      (fd.sendQuery n unique infoClass phase acc replyOp) := by
  unfold sendQuery
  rw [nodeAt_of_entry here]
  split_ifs with held
  · refine issue_sends works rfl nofun ?_
    exact ⟨rfl, nofun, nofun, fun _ => rfl, fun _ _ => held⟩
  · exact .refused

theorem sendSetInfo_sends
    (infoClass : InfoClass) (opTag : Tag) (buf : Bytes) :
    Sends fd n node .fsSetInfo
      { fuseUnique := unique, op := opTag, nodeid := node.nodeid }
      (fd.sendSetInfo n unique infoClass opTag buf) := by
  unfold sendSetInfo
  rw [nodeAt_of_entry here]
  split_ifs with held
  · refine issue_sends works rfl nofun ?_
    exact ⟨rfl, nofun, nofun, fun _ => rfl, fun _ _ => held⟩
  · exact .refused

theorem sendRead_sends
    (held : node.haveOpen = true) (unique : Unique) (offset size : Nat) :
    Sends fd n node .fsRead
      { fuseUnique := unique, op := .fsRead, nodeid := node.nodeid, readSize := size }
      (fd.sendRead n unique offset size) := by
  unfold sendRead
  rw [nodeAt_of_entry here]
  refine issue_sends works rfl nofun ?_
  exact ⟨rfl, nofun, nofun, fun _ => rfl, fun _ _ => held⟩

theorem sendWrite_sends
    (offset : Nat) (data : Bytes) :
    Sends fd n node .fsWrite
      { fuseUnique := unique, op := .fsWrite, nodeid := node.nodeid, readSize := data.length }
      (fd.sendWrite n unique offset data) := by
  unfold sendWrite
  rw [nodeAt_of_entry here]
  split_ifs with held
  · refine issue_sends works rfl nofun ?_
    exact ⟨rfl, nofun, nofun, fun _ => rfl, fun _ _ => held⟩
  · exact .refused

theorem sendList_sends
    (cont : Bool) (listOff size slot : Nat) :
    Sends fd n node .fsList
      { fuseUnique := unique, op := .fsList, nodeid := node.nodeid, listOff, readSize := size
        dircache := slot }
      (fd.sendList n unique cont listOff size slot) := by
  unfold sendList
  rw [nodeAt_of_entry here]
  cases fd.nodePath n (pathCap - 2) with
  | none => exact .refused
  | some path =>
    refine issue_sends works rfl nofun ?_
    exact ⟨rfl, nofun, nofun, fun _ => rfl,
      fun _ other => absurd rfl other⟩

end

def closeInflight (fd : FuseDrive) (nodeid : NodeId) : Slots Inflight :=
  match fd.inflight.free with
  | none => fd.inflight
  | some f => fd.inflight.put f { closeSlot nodeid with reqId := fd.nextReqId }

theorem sendClose_of_held (works : fd.sendOk = true) (here : fd.nodes.entry n = some node)
    (held : node.haveOpen = true) :
    fd.sendClose n =
      { fd with
        inflight := fd.closeInflight node.nodeid
        nextReqId := fd.nextReqId + 1
        sent := fd.sent ++ [{ req := closeReq node fd.nextReqId
                              drive := fd.driveLabel maxNodes n
                              behalf := none }]
        nodes := fd.nodes.put n node.closed } := by
  unfold sendClose closeInflight inflightAlloc
  rw [nodeAt_of_entry here, if_pos held]
  cases fd.inflight.free with
  | none | some =>
    simp only [Option.map_none, Option.map_some]
    rw [sendFsReq, if_pos (by exact works), updateNode_of_entry (by exact here), driveLabel_issued]

theorem sendClose_of_unopened (here : fd.nodes.entry n = some node)
    (unopened : node.haveOpen = false) : fd.sendClose n = fd := by
  rw [sendClose, nodeAt_of_entry here, unopened]
  rfl

section

variable (works : fd.sendOk = true) (here : fd.nodes.entry n = some node)
include works here

theorem sendClose_keeps :
    (fd.sendClose n).nodes = fd.nodes.put n node.shut ∧ (fd.sendClose n).sendOk = true ∧
      (fd.sendClose n).dircache = fd.dircache := by
  cases held : node.haveOpen with
  | true =>
    rw [sendClose_of_held works here held, Node.shut, if_pos held]
    exact ⟨rfl, works, rfl⟩
  | false =>
    have same : node.shut = node := by rw [Node.shut, held, if_neg Bool.false_ne_true]
    rw [sendClose_of_unopened here held, same, put_entry here]
    exact ⟨rfl, works, rfl⟩

theorem entry_sendClose : (fd.sendClose n).nodes.entry n = some node.shut := by
  rw [(sendClose_keeps works here).1]
  exact entry_put_self (inside_of_entry here)

theorem holds_sendClose {other : Node} (held : fd.nodes.Holds other) :
    ∃ later, (fd.sendClose n).nodes.Holds later ∧ later.nodeid = other.nodeid ∧
      later.deviceId = other.deviceId := by
  rw [(sendClose_keeps works here).1]
  obtain ⟨m, found⟩ := exists_entry held
  by_cases same : m = n
  · subst same
    rw [here] at found
    cases found
    refine ⟨node.shut, ?_, node.shut_nodeid, node.shut_deviceId⟩
    exact holds_of_entry (entry_put_self (inside_of_entry here))
  · exact ⟨other, holds_of_entry ((entry_put_of_ne same).trans found), rfl, rfl⟩

end

namespace Handled

theorem toList_leak (node : Node) : (if node.haveOpen then some node.fileId else none).toList =
    if node.haveOpen then [node.fileId] else [] := by
  split_ifs <;> rfl

theorem reply {unique : Unique} {body : Body} (inScope : scope (.replied { unique, body })) :
    Handled scope { answers := [unique] } fd (fd.reply unique body) :=
  .single (.replied { unique, body }) inScope

section

variable (here : fd.nodes.entry n = some node)
include here

theorem close (inScope : scope (.closed node)) : Handled scope {} fd (fd.sendClose n) := by
  cases held : node.haveOpen with
  | true => exact .single (.closed here held) inScope
  | false =>
    rw [sendClose_of_unopened here held]
    exact .refl fd

theorem touch {change : Node → Node} (same : node.Same (change node))
    (inScope : scope (.touched node (change node))) :
    Handled scope {} fd (fd.updateNode n change) := by
  rw [updateNode_of_entry here]
  exact .single (.touched here same) inScope

theorem free (inScope : scope (.freed node)) :
    Handled scope { leaks := if node.haveOpen then [node.fileId] else [] } fd
      (fd.freeNode n) := by
  rw [← toList_leak]
  exact .single (.freed here) inScope

theorem grant {fileId : FileId} {access : Access} (inScope : scope (.granted node fileId)) :
    Handled scope
      { grants := [fileId], leaks := if node.haveOpen then [node.fileId] else [] } fd
      (fd.updateNode n fun node => node.granted fileId access) := by
  rw [updateNode_of_entry here, ← toList_leak]
  exact .single (.granted here fileId access) inScope

end

theorem list (inScope : scope .listings) (dircache : Slots Dircache) (clock : Nat) :
    Handled scope {} fd { fd with dircache, dircacheClock := clock } :=
  .single (.listings dircache clock) inScope

theorem before (begins : Handled scope {} fd after) (ends : Handled scope tally after last) :
    Handled scope tally fd last := by
  have both := begins.trans ends
  simpa only [Tally.append, nil_append] using both

theorem andAnswer {uniques : List Unique} (begins : Handled scope tally fd after)
    (ends : Handled scope { answers := uniques } after last) :
    Handled scope { tally with answers := tally.answers ++ uniques } fd last := by
  have both := begins.trans ends
  simpa only [Tally.append, append_nil] using both

theorem andThen (begins : Handled scope tally fd after) (ends : Handled scope {} after last) :
    Handled scope tally fd last := by
  simpa only [append_nil] using begins.andAnswer ends

end Handled

end FuseDrive

end RdpServer.Session
