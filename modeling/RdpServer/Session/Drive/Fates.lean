import RdpServer.Session.Drive.Effects

/-!
# What becomes of a node

An event changes at most one node. `Treats` and `Finishes` list what a request and
an answer can make of it, with the reason, and tell of which file the kernel is
given a handle by a reply of the step. What is proved about the nodes along whole
runs follows from these two.
-/

namespace RdpServer.Session

open Slots Option

variable {nodeid : NodeId}

namespace Node

def released (node : Node) : Node :=
  if node.openRefs - 1 = 0 then ({ node with openRefs := node.openRefs - 1 } : Node).shut
  else { node with openRefs := node.openRefs - 1 }

@[mk_iff]
inductive Displaced (node : Node) (req : FdRequest) : Prop where
  | reopened (op : req.op = .opOpen) (self : node.nodeid = req.nodeid)
      (lacks : ¬ node.access &&& FuseDrive.accessFromOflags req.flags =
        FuseDrive.accessFromOflags req.flags)
  | removed (op : req.op = .opUnlink ∨ req.op = .opRmdir ∨ req.op = .opRename)
      (below : node.parent = req.nodeid) (named : node.name = req.name)

inductive Asked (node : Node) (req : FdRequest) : Option Node → Option NodeId → Prop where
  | counted (op : req.op = .opLookup) (nlookup : Nat) :
      Asked node req (some { node with nlookup }) none
  | opened (op : req.op = .opOpen) (self : node.nodeid = req.nodeid)
      (file : node.isDir = false) (held : node.haveOpen = true) :
      Asked node req (some { node with openRefs := node.openRefs + 1 }) (some node.nodeid)
  | listed (op : req.op = .opOpendir) (self : node.nodeid = req.nodeid) :
      Asked node req (some { node with openRefs := node.openRefs + 1 }) none
  | displaced (why : node.Displaced req) : Asked node req (some node.shut) none
  | released (op : req.op = .opRelease ∨ req.op = .opReleasedir)
      (self : node.nodeid = req.nodeid) : Asked node req (some node.released) none
  | forgotten (op : req.op = .opForget) (self : node.nodeid = req.nodeid)
      (more : node.nlookup - req.nlookup ≠ 0) :
      Asked node req (some { node with nlookup := node.nlookup - req.nlookup }) none
  | freed (op : req.op = .opForget) (self : node.nodeid = req.nodeid)
      (last : node.nlookup - req.nlookup = 0) : Asked node req none none
  | givenUp (unopened : node.haveOpen = false) : Asked node req none none

inductive Answered (node : Node) (f : Inflight) (rsp : FsRsp) :
    Option Node → Option NodeId → Prop where
  | typed (op : f.op = .fsQueryInfo) (phase : f.phase = .getattrBasic) (isDir : Bool)
      (reported : isDir = (FuseDrive.basicInfo f.acc
        (if rsp.status = statusSuccess then fsccOf rsp.payload else [])).isDir) :
      Answered node f rsp (some { node with isDir }) none
  | refused (failed : rsp.status ≠ statusSuccess) :
      Answered node f rsp (some { node with nlookup := node.nlookup - 1 }) none
  | freed (failed : rsp.status ≠ statusSuccess) : Answered node f rsp none none
  | granted (ok : rsp.status = statusSuccess) (access : Access) (openRefs nlookup : Nat)
      (more : node.openRefs ≤ openRefs) :
      Answered node f rsp (some { node.granted rsp.fileId access with openRefs, nlookup }) none
  | opened (op : f.op = .openfileTag ∨ f.op = .createTag) (ok : rsp.status = statusSuccess)
      (access : Access) (nlookup : Nat) :
      Answered node f rsp
        (some { node.granted rsp.fileId access with openRefs := node.openRefs + 1, nlookup })
        (some node.nodeid)
  | closed (op : f.op = .mknodTag ∨ f.op = .mkdirTag ∨ f.op = .unlinkTag ∨ f.op = .renameTag)
      (isDir : Bool) (nlookup : Nat) :
      Answered node f rsp (some { node.closed with isDir, nlookup }) none
  | shut (op : f.op = .unlinkTag ∨ f.op = .renameTag) : Answered node f rsp (some node.shut) none
  | dropped (op : f.op = .unlinkTag) : Answered node f rsp none none
  | moved (op : f.op = .renameTag) (ok : rsp.status = statusSuccess)
      (phase : f.phase ≠ .renameOpen) (named : 0 < (FuseDrive.leafOf f.target).length) :
      Answered node f rsp
        (some { node.shut with parent := f.targetParent, name := FuseDrive.leafOf f.target }) none

theorem Asked.nodeid_of_opened {node : Node} {req : FdRequest} {result : Option Node}
    {opened : Option NodeId} (asked : node.Asked req result opened) (gives : opened = some nodeid) :
    node.nodeid = nodeid := by
  cases asked with
  | opened => exact some.inj gives
  | _ => cases gives

theorem Answered.nodeid_of_opened {node : Node} {f : Inflight} {rsp : FsRsp} {result : Option Node}
    {opened : Option NodeId} (answered : node.Answered f rsp result opened)
    (gives : opened = some nodeid) : node.nodeid = nodeid := by
  cases answered with
  | opened => exact some.inj gives
  | _ => cases gives

end Node

namespace FuseDrive

variable {fd after last : FuseDrive} {req : FdRequest} {n : NodeRef} {node : Node} {f : Inflight}
  {rsp : FsRsp} {failed : FuseDrive → FuseDrive}

structure FreshChild (fd : FuseDrive) (req : FdRequest) (node : Node) : Prop where
  nodeid : node.nodeid = fd.nextNodeid
  parent : node.parent = req.nodeid
  name : node.name = cString req.name
  valid : validName req.name = true
  isDrive : node.isDrive = false
  unopened : node.haveOpen = false
  unused : node.openRefs = 0
  above : ∃ parent, fd.nodes.Holds parent ∧ parent.nodeid = req.nodeid ∧
    parent.deviceId = node.deviceId
  alone : ∀ other, fd.nodes.Holds other → other.parent = req.nodeid → other.name ≠ req.name

/-- What a request makes of the nodes, and the file that it gives a handle of. -/
inductive Treats (fd : FuseDrive) (req : FdRequest) : Slots Node → Option NodeId → Prop where
  | kept : Treats fd req fd.nodes none
  | changed {n : NodeRef} {node after : Node} {opened : Option NodeId}
      (here : fd.nodes.entry n = some node) (asked : node.Asked req (some after) opened) :
      Treats fd req (fd.nodes.put n after) opened
  | freed {n : NodeRef} {node : Node} (here : fd.nodes.entry n = some node)
      (asked : node.Asked req none none) : Treats fd req (fd.nodes.clear n) none
  | made {n : NodeRef} {node : Node} (free : fd.nodes.free = some n)
      (fresh : fd.FreshChild req node) : Treats fd req (fd.nodes.put n node) none

inductive Finishes (fd : FuseDrive) (f : Inflight) (rsp : FsRsp) :
    Slots Node → Option NodeId → Prop where
  | kept : Finishes fd f rsp fd.nodes none
  | changed {n : NodeRef} {node after : Node} {opened : Option NodeId}
      (here : fd.nodes.entry n = some node) (self : node.nodeid = f.nodeid)
      (answered : node.Answered f rsp (some after) opened) :
      Finishes fd f rsp (fd.nodes.put n after) opened
  | freed {n : NodeRef} {node : Node} (here : fd.nodes.entry n = some node)
      (self : node.nodeid = f.nodeid) (answered : node.Answered f rsp none none) :
      Finishes fd f rsp (fd.nodes.clear n) none

def Leaves (does : Slots Node → Option NodeId → Prop) (fd after : FuseDrive) : Prop :=
  ∃ opened, does after.nodes opened ∧ after.openings = fd.openings ++ opened.toList

abbrev Treated (fd : FuseDrive) (req : FdRequest) (after : FuseDrive) : Prop :=
  Leaves (Treats fd req) fd after

abbrev Finished (fd : FuseDrive) (f : Inflight) (rsp : FsRsp) (after : FuseDrive) : Prop :=
  Leaves (Finishes fd f rsp) fd after

theorem openings_reply (fd : FuseDrive) (unique : Unique) (body : Body) :
    (fd.reply unique body).openings = fd.openings ++ body.opens.toList := by
  rw [reply, openings, List.filterMap_append, List.filterMap_cons]
  cases body.opens <;> rfl

theorem quiet_reply (unique : Unique) {body : Body} (plain : body.opens = none) :
    Quiet fd (fd.reply unique body) := by
  refine ⟨rfl, ?_⟩
  rw [openings_reply, plain]
  exact List.append_nil _

theorem quiet_error (unique : Unique) (errno : Errno) :
    Quiet fd (fd.replyError unique errno) := quiet_reply unique rfl

variable {does : Slots Node → Option NodeId → Prop}

theorem Leaves.quiet (left : Leaves does fd after) (quiet : Quiet after last) :
    Leaves does fd last := by
  obtain ⟨opened, done, given⟩ := left
  refine ⟨opened, ?_, quiet.openings.trans given⟩
  rw [quiet.nodes]
  exact done

theorem Leaves.reply {unique : Unique} {body : Body} (done : does after.nodes body.opens)
    (given : after.openings = fd.openings) : Leaves does fd (after.reply unique body) := by
  refine ⟨body.opens, done, ?_⟩
  rw [openings_reply, given]

theorem Sends.leaves {op : FsOp} {slot : Inflight} {sending : Sending}
    (sends : Sends after n node op slot sending) (left : Leaves does fd after)
    (otherwise : Leaves does fd (failed after)) : Leaves does fd (sending.orElse failed) := by
  cases sends with
  | refused => exact otherwise
  | sent _ _ _ _ _ _ => exact left.quiet ⟨rfl, rfl⟩

theorem Treated.of_quiet (quiet : Quiet fd after) : Treated fd req after :=
  Leaves.quiet ⟨none, .kept, (List.append_nil _).symm⟩ quiet

theorem Finished.of_quiet (quiet : Quiet fd after) : Finished fd f rsp after :=
  Leaves.quiet ⟨none, .kept, (List.append_nil _).symm⟩ quiet

theorem Leaves.of_put {changed : Node} (done : does (fd.nodes.put n changed) none)
    (nodes : after.nodes = fd.nodes.put n changed) (given : after.openings = fd.openings) :
    Leaves does fd after := by
  refine ⟨none, ?_, given.trans (List.append_nil _).symm⟩
  rw [nodes]
  exact done

/-- A handler has made this of one node, and has left the others alone. -/
structure Turns (scope : Effect → Prop) (tally : Tally) (fd : FuseDrive) (n : NodeRef)
    (after : FuseDrive) (changed : Node) : Prop where
  works : after.sendOk = true
  here : after.nodes.entry n = some changed
  handled : Handled scope tally fd after
  nodes : after.nodes = fd.nodes.put n changed
  openings : after.openings = fd.openings

namespace Turns

variable {scope : Effect → Prop} {tally : Tally} {changed : Node}

theorem refl (works : fd.sendOk = true) (here : fd.nodes.entry n = some node) :
    Turns scope {} fd n fd node :=
  ⟨works, here, .refl fd, (put_entry here).symm, rfl⟩

theorem first (works : fd.sendOk = true) (here : fd.nodes.entry n = some node)
    {change : Node → Node} (handled : Handled scope tally fd (fd.updateNode n change)) :
    Turns scope tally fd n (fd.updateNode n change) (change node) := by
  refine ⟨updateNode_sendOk works here _, entry_updateNode here _, handled, ?_, ?_⟩
  all_goals rw [updateNode_of_entry here]
  rfl

variable (turns : Turns scope tally fd n after changed)
include turns

theorem andThen {next : Node} (step : Turns scope {} after n last next) :
    Turns scope tally fd n last next := by
  refine ⟨step.works, step.here, turns.handled.andThen step.handled, ?_,
    step.openings.trans turns.openings⟩
  rw [step.nodes, turns.nodes, put_put]

theorem touch (change : Node → Node) (same : changed.Same (change changed))
    (inScope : scope (.touched changed (change changed))) :
    Turns scope tally fd n (after.updateNode n change) (change changed) :=
  turns.andThen (.first turns.works turns.here (.touch turns.here same inScope))

theorem close (inScope : scope (.closed changed)) :
    Turns scope tally fd n (after.sendClose n) changed.shut := by
  obtain ⟨nodes, works, _⟩ := sendClose_keeps turns.works turns.here
  refine turns.andThen ⟨works, entry_sendClose turns.works turns.here, .close turns.here inScope,
    nodes, ?_⟩
  cases held : changed.haveOpen with
  | true =>
    rw [sendClose_of_held turns.works turns.here held]
    rfl
  | false => rw [sendClose_of_unopened turns.here held]

theorem leaves (done : does (fd.nodes.put n changed) none) : Leaves does fd after :=
  .of_put done turns.nodes turns.openings

theorem replies {unique : Unique} {body : Body} (done : does (fd.nodes.put n changed) body.opens) :
    Leaves does fd (after.reply unique body) := by
  refine Leaves.reply ?_ turns.openings
  rw [turns.nodes]
  exact done

end Turns

inductive Child (fd : FuseDrive) (req : FdRequest) (child : NodeRef) :
    FuseDrive → Node → Prop where
  | found (node : Node) (here : fd.nodes.entry child = some node)
      (below : node.parent = req.nodeid) (named : node.name = req.name) :
      Child fd req child fd node
  | made (node : Node) (free : fd.nodes.free = some child) (fresh : fd.FreshChild req node) :
      Child fd req child
        { fd with nodes := fd.nodes.put child node, nextNodeid := fd.nextNodeid + 1 } node

namespace Child

variable {child : NodeRef} {made : FuseDrive}

variable (isChild : Child fd req child made node)
include isChild

theorem entry : made.nodes.entry child = some node := by
  cases isChild with
  | found node here _ _ => exact here
  | made node free _ => exact entry_put_self (free_eq_some free).1

theorem sendOk : made.sendOk = fd.sendOk := by
  cases isChild with
  | found => rfl
  | made => rfl

theorem sent : made.sent = fd.sent := by
  cases isChild with
  | found => rfl
  | made => rfl

theorem inflight : made.inflight = fd.inflight := by
  cases isChild with
  | found => rfl
  | made => rfl

theorem parent : node.parent = req.nodeid := by
  cases isChild with
  | found node _ below _ => exact below
  | made node _ fresh => exact fresh.parent

theorem kept {m : NodeRef} {other : Node} (held : fd.nodes.entry m = some other) :
    made.nodes.entry m = some other := by
  cases isChild with
  | found => exact held
  | made node free _ =>
    refine (entry_put_of_ne ?_).trans held
    rintro rfl
    rw [(free_eq_some free).2] at held
    cases held

theorem treated : Treated fd req made := by
  cases isChild with
  | found => exact .of_quiet (.refl fd)
  | made node free fresh => exact .of_put (.made free fresh) rfl rfl

theorem change {scope : Effect → Prop} {tally : Tally} {changed : Node}
    (turns : Turns scope tally made child after changed)
    (asked : node.parent = req.nodeid → node.name = req.name → node.Asked req (some changed) none)
    (stays : fd.FreshChild req node → fd.FreshChild req changed) : Treated fd req after := by
  cases isChild with
  | found node here below named => exact turns.leaves (.changed here (asked below named))
  | made node free fresh =>
    refine .of_put (.made free (stays fresh)) ?_ turns.openings
    rw [turns.nodes, put_put]

theorem giveUp (unopened : node.haveOpen = false) : Treated fd req (made.freeNode child) := by
  cases isChild with
  | found node here _ _ =>
    exact ⟨none, .freed here (.givenUp unopened), (List.append_nil _).symm⟩
  | made node free _ =>
    refine .of_quiet ⟨?_, rfl⟩
    exact clear_put_free (free_eq_some free).2

end Child

theorem FreshChild.count (fresh : fd.FreshChild req node) (nlookup : Nat) :
    fd.FreshChild req { node with nlookup } :=
  { fresh with }

theorem FreshChild.shut (fresh : fd.FreshChild req node) : fd.FreshChild req node.shut := by
  rw [Node.shut, fresh.unopened]
  exact fresh

variable {nodes : Slots Node} {opened : Option NodeId}

theorem Treats.fate (treats : Treats fd req nodes opened)
    (unique : Slots.KeyUnique Node.nodeid fd.nodes) (held : fd.nodes.Holds node) :
    (nodes.Holds node ∧ opened ≠ some node.nodeid) ∨
      ∃ result, node.Asked req result opened ∧ ∀ after, result = some after →
        nodes.Holds after := by
  cases treats with
  | kept => exact .inl ⟨held, (some_ne_none _).symm⟩
  | changed here asked =>
    rcases unique.holds_set_or here held with ⟨stays, apart⟩ | rfl
    · exact .inl ⟨stays, fun gives => apart (asked.nodeid_of_opened gives).symm⟩
    · refine .inr ⟨_, asked, ?_⟩
      rintro _ ⟨⟩
      exact holds_put_held here
  | freed here asked =>
    rcases unique.holds_set_or here held with ⟨stays, _⟩ | rfl
    · exact .inl ⟨stays, (some_ne_none _).symm⟩
    · exact .inr ⟨none, asked, fun _ missing => nomatch missing⟩
  | made free fresh => exact .inl ⟨holds_put_free free held, (some_ne_none _).symm⟩

theorem Treats.known (treats : Treats fd req nodes opened) (gives : opened = some nodeid) :
    ∃ node, fd.nodes.Holds node ∧ node.nodeid = nodeid := by
  cases treats with
  | changed here asked =>
    exact ⟨_, holds_of_entry here, asked.nodeid_of_opened gives⟩
  | _ => cases gives

theorem Finishes.known (finishes : Finishes fd f rsp nodes opened) (gives : opened = some nodeid) :
    ∃ node, fd.nodes.Holds node ∧ node.nodeid = nodeid := by
  cases finishes with
  | changed here self answered =>
    exact ⟨_, holds_of_entry here, answered.nodeid_of_opened gives⟩
  | _ => cases gives

theorem Finishes.fate (finishes : Finishes fd f rsp nodes opened)
    (unique : Slots.KeyUnique Node.nodeid fd.nodes) (held : fd.nodes.Holds node) :
    (nodes.Holds node ∧ opened ≠ some node.nodeid) ∨ node.nodeid = f.nodeid ∧
      ∃ result, node.Answered f rsp result opened ∧
        ∀ after, result = some after → nodes.Holds after := by
  cases finishes with
  | kept => exact .inl ⟨held, (some_ne_none _).symm⟩
  | changed here self answered =>
    rcases unique.holds_set_or here held with ⟨stays, apart⟩ | rfl
    · exact .inl ⟨stays, fun gives => apart (answered.nodeid_of_opened gives).symm⟩
    · refine .inr ⟨self, _, answered, ?_⟩
      rintro _ ⟨⟩
      exact holds_put_held here
  | freed here self answered =>
    rcases unique.holds_set_or here held with ⟨stays, _⟩ | rfl
    · exact .inl ⟨stays, (some_ne_none _).symm⟩
    · exact .inr ⟨self, none, answered, fun _ missing => nomatch missing⟩

end FuseDrive

end RdpServer.Session
