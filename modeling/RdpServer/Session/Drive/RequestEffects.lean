import RdpServer.Session.Drive.Fates

/-!
# The steps of a request

A request of the kernel works on the node it names and on the children of that
node, and leaves exactly one reply behind, written or owed by an operation in
flight (`dispatch_handled`). A request that names a child is refused, or goes on with the child
that is there or is made (`opLookup_cases` and the like).
-/

namespace RdpServer.Session

open Slots Bool

def Node.About (node : Node) (req : FdRequest) : Prop :=
  node.nodeid = req.nodeid ∨ node.parent = req.nodeid

def Effect.InRequest (req : FdRequest) : Effect → Prop
  | .touched node _ | .freed node | .closed node => node.About req
  | .made node => node.parent = req.nodeid
  | .issued node slot _ => node.About req ∧
      (slot.op = .renameTag → slot.phase = .renameOpen ∧ slot.targetParent = req.newdir) ∧
      (slot.op = .fsList → req.op = .opReaddir)
  | .replied reply => reply.body.lists = true → req.op = .opReaddir
  | .listings => req.op = .opReaddir ∨ req.op = .opRelease ∨ req.op = .opReleasedir
  | .moved _ _ | .granted _ _ => False

namespace FuseDrive

variable {fd after : FuseDrive} {req : FdRequest} {n : NodeRef} {node : Node} {unique : Unique}
  {failed : FuseDrive → FuseDrive} {scope : Effect → Prop}

abbrev Settled (req : FdRequest) (fd after : FuseDrive) : Prop :=
  Handled (Effect.InRequest req) { answers := [req.unique] } fd after

theorem settled_reply (body : Body) (plain : body.lists = false) :
    Settled req fd (fd.reply req.unique body) :=
  .reply fun lists => absurd (plain.symm.trans lists) false_ne_true

/-- A request that leaves the nodes alone. -/
abbrev Stays (req : FdRequest) (fd after : FuseDrive) : Prop :=
  Rests (Effect.InRequest req) req.unique fd after

theorem stays_reply (body : Body) (plain : body.lists = false) (unopened : body.opens = none) :
    Stays req fd (fd.reply req.unique body) :=
  .reply ⟨fun lists => absurd (plain.symm.trans lists) false_ne_true, unopened⟩

theorem About.issued {slot : Inflight} {wire : FsReq} (about : node.About req)
    (notRename : slot.op ≠ .renameTag) (notList : slot.op ≠ .fsList) :
    Effect.InRequest req (.issued node slot wire) :=
  ⟨about, fun isRename => absurd isRename notRename, fun isList => absurd isList notList⟩

theorem startGetattr_settles (works : fd.sendOk = true) (here : fd.nodes.entry n = some node)
    (inScope : ∀ slot wire, slot.op ≠ .renameTag → slot.op ≠ .fsList →
      scope (.issued node slot wire))
    (otherwise : Handled scope { answers := [unique] } fd (failed fd)) (replyOp : FdOp) :
    Handled scope { answers := [unique] } fd
      ((fd.startGetattr n unique replyOp).orElse failed) := by
  unfold startGetattr
  split_ifs
  · exact (sendQuery_sends works here _ _ _ _ _).asks here rfl rfl rfl Phase.noConfusion
      (fun wire => inScope _ _ Tag.noConfusion Tag.noConfusion) otherwise
  · refine ((sendOpenFull_sends works here _ _ _ _ _).tag (fun _ => rfl) rfl).settles here ?_
      (.of_ne Phase.noConfusion) (fun wire => inScope _ _ Tag.noConfusion Tag.noConfusion)
      otherwise
    intro wire forNode kind
    exact .ofOpen forNode kind rfl rfl

theorem opGetattr_stays (works : fd.sendOk = true) : Stays req fd (fd.opGetattr req) := by
  unfold opGetattr
  refine nodeFind_rule (fd.nodeFind req.nodeid) rfl (stays_reply _ rfl rfl)
    fun n node found here same => ?_
  dsimp only
  split_ifs
  · exact stays_reply _ rfl rfl
  · exact startGetattr_settles works here
      (fun slot wire notRename notList => ⟨About.issued (.inl same) notRename notList, trivial⟩)
      (stays_reply _ rfl rfl) _

theorem dircacheServe_handled (inScope : ∀ r : Reply, r.body.opens = none → scope (.replied r))
    (c : Option Dircache) (off size : Nat) :
    Handled scope { answers := [unique] } fd (fd.dircacheServe c unique off size) := by
  cases c with
  | none => exact .reply (inScope _ rfl)
  | some c =>
    unfold dircacheServe
    dsimp only
    split_ifs <;> exact .reply (inScope _ rfl)

theorem startList_stays (works : fd.sendOk = true) (here : fd.nodes.entry n = some node)
    (same : node.nodeid = req.nodeid) (lists : req.op = .opReaddir) :
    Stays req fd (fd.startList n req) := by
  unfold startList
  rw [nodeAt_of_entry here]
  split_ifs
  · exact stays_reply _ rfl rfl
  · cases claims : fd.dircacheClaim node.nodeid with
    | none => exact stays_reply _ rfl rfl
    | some claimed =>
      obtain ⟨i, _, rfl⟩ := Option.map_eq_some_iff.1 claims
      refine .before (.list ⟨.inl lists, trivial⟩ _ _) ((sendList_sends (by exact works)
        (by exact here) _ _ _ _ _).settles here ?_ (.of_ne Phase.noConfusion) ?_ ?_)
      · intro wire forNode kind
        refine ⟨forNode, rfl, rfl, ?_, fun _ => rfl, fun _ => kind⟩
        rw [kind]
        exact ⟨FsOp.noConfusion, Bool.noConfusion⟩
      · exact fun wire => ⟨⟨.inl same, Tag.noConfusion, fun _ => lists⟩, trivial⟩
      · refine .before ?_ (stays_reply _ rfl rfl)
        exact .list ⟨.inl lists, trivial⟩ _ _

section

variable (works : fd.sendOk = true)
include works

theorem opReaddir_stays (lists : req.op = .opReaddir) : Stays req fd (fd.opReaddir req) := by
  unfold opReaddir
  refine nodeFind_rule (fd.nodeFind req.nodeid) rfl (stays_reply _ rfl rfl)
    fun n node found here same => ?_
  dsimp only
  rw [nodeAt_of_entry here]
  split_ifs
  · exact stays_reply _ rfl rfl
  · unfold opReaddirRoot
    split_ifs <;> exact .reply ⟨fun _ => lists, rfl⟩
  · exact startList_stays works here same lists
  · unfold dircacheFind
    generalize List.foldl _ _ _ = newest
    cases newest with
    | none => exact startList_stays works here same lists
    | some found =>
      exact .before (.list ⟨.inl lists, trivial⟩ _ _)
        (dircacheServe_handled (fun _ plain => ⟨fun _ => lists, plain⟩) _ _ _)
  · exact dircacheServe_handled (fun _ plain => ⟨fun _ => lists, plain⟩) _ _ _

theorem opRead_stays : Stays req fd (fd.opRead req) := by
  unfold opRead
  refine nodeFind_rule (fd.nodeFind req.nodeid) rfl (stays_reply _ rfl rfl)
    fun n node found here same => ?_
  dsimp only
  rw [nodeAt_of_entry here]
  split_ifs with refuses
  · exact stays_reply _ rfl rfl
  · have held : node.haveOpen = true := by
      by_contra unopened
      exact refuses (.inr unopened)
    exact (sendRead_sends works here held _ _ _).asks here rfl rfl rfl Phase.noConfusion
      (fun wire => ⟨About.issued (.inl same) Tag.noConfusion Tag.noConfusion, trivial⟩)
      (stays_reply _ rfl rfl)

theorem opWrite_stays : Stays req fd (fd.opWrite req) := by
  unfold opWrite
  refine nodeFind_rule (fd.nodeFind req.nodeid) rfl (stays_reply _ rfl rfl)
    fun n node found here same => ?_
  dsimp only
  split_ifs
  · exact stays_reply _ rfl rfl
  · exact stays_reply _ rfl rfl
  · exact (sendWrite_sends works here _ _ _).asks here rfl rfl rfl Phase.noConfusion
      (fun wire => ⟨About.issued (.inl same) Tag.noConfusion Tag.noConfusion, trivial⟩)
      (stays_reply _ rfl rfl)

theorem sendTimeSet_settles (here : fd.nodes.entry n = some node)
    (inScope : ∀ slot wire, slot.op ≠ .renameTag → slot.op ≠ .fsList → slot.phase ≠ .renameOpen →
      scope (.issued node slot wire))
    (otherwise : Handled scope { answers := [unique] } fd (failed fd)) (ts : TimeSet)
    (acc : AttrAcc) : Handled scope { answers := [unique] } fd
      ((fd.sendTimeSet n unique ts acc).orElse failed) := by
  exact ((sendSetInfo_sends works here _ _ _ _).tag (fun _ => rfl) rfl).asks here rfl rfl rfl
    Phase.noConfusion (fun wire => inScope _ _ Tag.noConfusion Tag.noConfusion Phase.noConfusion)
    otherwise

theorem setattrSize_stays (here : fd.nodes.entry n = some node) (about : node.About req)
    (acc : AttrAcc) : Stays req fd (fd.setattrSize n req acc) := by
  unfold setattrSize
  split_ifs
  · exact ((sendSetInfo_sends works here _ _ _ _).tag (fun _ => rfl) rfl).asks here rfl rfl rfl
      Phase.noConfusion (fun wire =>
        ⟨About.issued about Tag.noConfusion Tag.noConfusion, trivial⟩) (stays_reply _ rfl rfl)
  · exact (sendSetInfo_sends works here _ _ _ _).asks here rfl rfl rfl Phase.noConfusion
      (fun wire => ⟨About.issued about Tag.noConfusion Tag.noConfusion, trivial⟩)
      (stays_reply _ rfl rfl)

theorem opSetattr_stays : Stays req fd (fd.opSetattr req) := by
  unfold opSetattr
  refine nodeFind_rule (fd.nodeFind req.nodeid) rfl (stays_reply _ rfl rfl)
    fun n node found here same => ?_
  have inScope : ∀ slot wire, slot.op ≠ .renameTag → slot.op ≠ .fsList →
      Effect.InRequest req (.issued node slot wire) ∧ Effect.Still (.issued node slot wire) :=
    fun slot wire notRename notList => ⟨About.issued (.inl same) notRename notList, trivial⟩
  dsimp only
  split_ifs
  · exact stays_reply _ rfl rfl
  · exact stays_reply _ rfl rfl
  · exact setattrSize_stays works here (.inl same) _
  · unfold setattrTime
    refine sendTimeSet_settles works here
      (fun slot wire notRename notList _ => inScope slot wire notRename notList) ?_ _ _
    exact stays_reply _ rfl rfl
  · exact startGetattr_settles works here inScope (stays_reply _ rfl rfl) _

end

/-- A request leaves its reply behind, and makes of the nodes what `Treats` lists. -/
structure Serves (req : FdRequest) (fd after : FuseDrive) : Prop where
  settled : Settled req fd after
  treated : Treated fd req after

theorem Stays.serves (stays : Stays req fd after) : Serves req fd after :=
  ⟨stays.handled, .of_quiet stays.quiet⟩

theorem Stays.before {last : FuseDrive} (stays : Stays req after last)
    (silent : Handled (Effect.InRequest req) {} fd after) (treated : Treated fd req after) :
    Serves req fd last :=
  ⟨silent.before stays.handled, treated.quiet stays.quiet⟩

theorem Turns.serves {changed : Node} {body : Body}
    (turns : Turns (Effect.InRequest req) {} fd n after changed) (plain : body.lists = false)
    (treats : Treats fd req (fd.nodes.put n changed) body.opens) :
    Serves req fd (after.reply req.unique body) :=
  ⟨turns.handled.before (settled_reply _ plain), turns.replies treats⟩

/-- The file of a node is opened, or the request is refused. -/
theorem Sends.opening {slot : Inflight} {sending : Sending} {errno : Errno}
    (sends : Sends fd n node .fsOpen slot sending) (here : fd.nodes.entry n = some node)
    (about : node.About req) (asks : slot.fuseUnique = req.unique)
    (nodeid : slot.nodeid = node.nodeid) (opens : slot.opens = true)
    (notRename : slot.op ≠ .renameTag) (phase : slot.phase ≠ .renameOpen) :
    Stays req fd (sending.orElse fun fd => fd.replyError req.unique errno) := by
  have refused : Stays req fd (fd.replyError req.unique errno) := stays_reply _ rfl rfl
  rw [Stays, ← asks] at refused ⊢
  refine sends.settles here ?_ (.of_ne phase) (fun wire => ⟨?_, trivial⟩) refused
  · exact fun wire forNode kind => .ofOpen forNode kind nodeid opens
  · exact About.issued about notRename (Inflight.owes_of_opens opens).2

theorem opOpendir_serves (works : fd.sendOk = true) (op : req.op = .opOpendir) :
    Serves req fd (fd.opOpendir req) := by
  unfold opOpendir
  refine nodeFind_rule (fd.nodeFind req.nodeid) rfl ((stays_reply _ rfl rfl).serves)
    fun n node found here self => ?_
  dsimp only
  split_ifs
  · exact (stays_reply _ rfl rfl).serves
  · exact (stays_reply _ rfl rfl).serves
  · exact Turns.serves (.touch (.refl works here) _ (node.same_counts _ _ _) (.inl self)) rfl
      (.changed here (.listed op self))
  · exact ((sendOpenFull_sends works here _ _ _ _ _).opening here (.inl self) rfl rfl rfl
      Tag.noConfusion Phase.noConfusion).serves

theorem opOpen_serves (works : fd.sendOk = true) (op : req.op = .opOpen) :
    Serves req fd (fd.opOpen req) := by
  unfold opOpen
  refine nodeFind_rule (fd.nodeFind req.nodeid) rfl ((stays_reply _ rfl rfl).serves)
    fun n node found here self => ?_
  dsimp only
  rw [nodeAt_of_entry here]
  split_ifs with isDir granted held
  · exact (stays_reply _ rfl rfl).serves
  · refine Turns.serves (.touch (.refl works here) _ (node.same_counts _ _ _) (.inl self)) rfl ?_
    rw [← self]
    exact .changed here (.opened op self (eq_false_iff.2 isDir) granted.1)
  · have closed : Turns (Effect.InRequest req) {} fd n _ _ :=
      .close (.refl works here) (.inl self)
    have displaced : node.Displaced req :=
      .reopened op self fun grants => granted ⟨held, grants⟩
    exact Stays.before ((sendOpenFull_sends closed.works closed.here _ _ _ _ _).opening
      closed.here (.inl (node.shut_nodeid.trans self)) rfl rfl rfl Tag.noConfusion
      Phase.noConfusion)
      closed.handled (closed.leaves (.changed here (.displaced displaced)))
  · exact ((sendOpenFull_sends works here _ _ _ _ _).opening here (.inl self) rfl rfl rfl
      Tag.noConfusion Phase.noConfusion).serves

/-- A request answered at once, without a handle. -/
inductive Refused (req : FdRequest) (fd : FuseDrive) : FuseDrive → Prop
  | replied (body : Body) (plain : body.lists = false) (unopened : body.opens = none) :
      Refused req fd (fd.reply req.unique body)

theorem Refused.stays (refused : Refused req fd after) : Stays req fd after := by
  cases refused with
  | replied body plain unopened => exact stays_reply body plain unopened

/-- The child that a request names below a node, as it is found or made. -/
structure Below (fd : FuseDrive) (req : FdRequest) (p : NodeRef) (parent : Node) (child : NodeRef)
    (made : FuseDrive) (node : Node) : Prop where
  found : fd.nodeFind req.nodeid = some p
  above : fd.nodes.entry p = some parent
  self : parent.nodeid = req.nodeid
  isChild : Child fd req child made node
  silent : Handled (Effect.InRequest req) {} fd made

@[elab_as_elim]
theorem childMake_rule {p : NodeRef} {parent : Node}
    {motive : Option (NodeRef × FuseDrive) → Prop} (found : fd.nodeFind req.nodeid = some p)
    (above : fd.nodes.entry p = some parent) (self : parent.nodeid = req.nodeid)
    (invalid : ¬ (!validName req.name) = true)
    (placed : parent.nodeid ≠ rootId ∨ parent.deviceId ≠ 0) (isDir : Bool)
    (full : fd.nodes.free = none → motive none)
    (makes : ∀ child made node, Below fd req p parent child made node →
      motive (some (child, made))) :
    motive (fd.childMake parent.nodeid req.name parent.deviceId isDir) := by
  have valid : validName req.name = true := by
    rw [not_eq_true, not_eq_false'] at invalid
    exact invalid
  have long : ¬ req.name.length > nameMax :=
    Nat.not_lt.2 (of_decide_eq_true (and_eq_true_iff.1 valid).2)
  rw [childMake, if_neg long]
  cases finds : fd.childFind parent.nodeid req.name with
  | some n =>
    obtain ⟨node, here, below, named⟩ := entry_of_childFind finds
    exact makes n fd node
      ⟨found, above, self, .found node here (below.trans self) named, .refl fd⟩
  | none =>
    dsimp only [nodeAlloc]
    cases free : fd.nodes.free with
    | none => exact full free
    | some n =>
      have held := holds_of_entry above
      refine makes n _ _ ⟨found, above, self,
        .made _ free ⟨rfl, self, rfl, valid, rfl, rfl, rfl, ⟨parent, held, self, rfl⟩, ?_⟩, ?_⟩
      · intro other held below named
        rw [childFind, if_neg long] at finds
        have missing := find_eq_none finds held
        rw [self, below, named, beq_self_eq_true, beq_self_eq_true] at missing
        cases missing
      · refine .single (.made free rfl rfl rfl (zero_not_mem_cString _) placed
          ⟨parent, held, ?_⟩) self
        exact ⟨rfl, rfl⟩

theorem opLookup_cases (fd : FuseDrive) (req : FdRequest) :
    Refused req fd (fd.opLookup req) ∨ ∃ p parent child made node,
      Below fd req p parent child made node ∧ req.nodeid ≠ rootId ∧
        fd.opLookup req = made.probeChild child req.unique := by
  unfold opLookup
  refine nodeFind_rule (fd.nodeFind req.nodeid) rfl (.inl (.replied _ rfl rfl))
    fun p parent found above self => ?_
  dsimp only
  rw [nodeAt_of_entry above]
  split_ifs with _ invalid top
  · exact .inl (.replied _ rfl rfl)
  · exact .inl (.replied _ rfl rfl)
  · cases fd.childFind rootId req.name <;> exact .inl (.replied _ rfl rfl)
  · refine childMake_rule found above self invalid (.inl (self ▸ top)) _
      (fun _ => .inl (.replied _ rfl rfl)) fun child made node below => ?_
    exact .inr ⟨p, parent, child, made, node, below, top, rfl⟩

theorem onChild_cases (fd : FuseDrive) (req : FdRequest) (isDir : Bool)
    (next : NodeRef → FuseDrive → FuseDrive) :
    Refused req fd (fd.onChild req isDir next) ∨ ∃ p parent child made node,
      Below fd req p parent child made node ∧ parent.deviceId ≠ 0 ∧
        fd.onChild req isDir next = next child made := by
  unfold onChild
  refine nodeFind_rule (fd.nodeFind req.nodeid) rfl (.inl (.replied _ rfl rfl))
    fun p parent found above self => ?_
  dsimp only
  rw [nodeAt_of_entry above]
  split_ifs with onRoot invalid
  · exact .inl (.replied _ rfl rfl)
  · exact .inl (.replied _ rfl rfl)
  · have onDrive : parent.deviceId ≠ 0 := fun zero => onRoot (.inr zero)
    refine childMake_rule found above self invalid (.inr onDrive) _
      (fun _ => .inl (.replied _ rfl rfl)) fun child made node below => ?_
    exact .inr ⟨p, parent, child, made, node, below, onDrive, rfl⟩

theorem opRename_cases (fd : FuseDrive) (req : FdRequest) :
    Refused req fd (fd.opRename req) ∨ ∃ p parent child made node,
      Below fd req p parent child made node ∧ parent.deviceId ≠ 0 ∧
        ∃ q dst, fd.nodeFind req.newdir = some q ∧ fd.nodes.entry q = some dst ∧
          dst.nodeid = req.newdir ∧ dst.deviceId = parent.deviceId ∧
          (Refused req made (fd.opRename req) ∨
            ∃ target, made.renameTarget q req.name2 = some target ∧
              fd.opRename req = made.startRename child req target dst.nodeid) := by
  unfold opRename
  refine nodeFind_rule (fd.nodeFind req.nodeid) rfl (.inl (.replied _ rfl rfl))
    fun p parent found above self => ?_
  dsimp only
  rw [nodeAt_of_entry above]
  split_ifs with onRoot invalid
  · exact .inl (.replied _ rfl rfl)
  · exact .inl (.replied _ rfl rfl)
  · cases finds : fd.nodeFind req.newdir with
    | none => exact .inl (.replied _ rfl rfl)
    | some q =>
      obtain ⟨dst, under, named⟩ := entry_of_nodeFind finds
      dsimp only
      rw [nodeAt_of_entry under]
      split_ifs with _ otherDevice
      · exact .inl (.replied _ rfl rfl)
      · exact .inl (.replied _ rfl rfl)
      · have onDrive : parent.deviceId ≠ 0 := fun zero => onRoot (.inr zero)
        refine childMake_rule found above self (fun bad => invalid (.inl bad)) (.inr onDrive) _
          (fun _ => .inl (.replied _ rfl rfl)) fun child made node below => ?_
        refine .inr ⟨p, parent, child, made, node, below, onDrive, q, dst, rfl, under, named,
          not_not.1 otherDevice, ?_⟩
        dsimp only
        cases made.renameTarget q req.name2 with
        | none => exact .inl (.replied _ rfl rfl)
        | some target => exact .inr ⟨target, rfl, rfl⟩

section

variable {p child : NodeRef} {parent : Node} {made : FuseDrive}

variable (below : Below fd req p parent child made node)
include below

theorem Below.serves {last : FuseDrive} (settled : Settled req made last)
    (treated : Treated fd req last) : Serves req fd last :=
  ⟨below.silent.before settled, treated⟩

theorem Below.probe_serves (works : fd.sendOk = true) (op : req.op = .opLookup) :
    Serves req fd (made.probeChild child req.unique) := by
  have isChild := below.isChild
  have about : node.About req := .inr isChild.parent
  have counted : Turns (Effect.InRequest req) {} made child
      (made.updateNode child fun n => { n with nlookup := n.nlookup + 1 }) _ :=
    .touch (.refl (isChild.sendOk.trans works) isChild.entry) _ (node.same_counts _ _ _) about
  have more := isChild.change counted (fun _ _ => .counted op _) (fun fresh => fresh.count _)
  unfold probeChild
  dsimp only
  generalize (made.updateNode child fun n => { n with nlookup := n.nlookup + 1 }) = probed at *
  have back := counted.touch (fun n => { n with nlookup := n.nlookup - 1 })
    (Node.same_counts _ _ _ _) about
  refine below.serves (counted.handled.before (startGetattr_settles counted.works counted.here
    (fun slot wire notRename notList => About.issued about notRename notList) ?_ _)) ?_
  · split_ifs
    · exact settled_reply _ rfl
    · refine .before ?_ (settled_reply _ rfl)
      exact .touch counted.here (Node.same_counts _ _ _ _) about
  · have otherwise : Treated fd req (replyEntry (if (probed.nodeAt child).haveOpen then probed
          else probed.updateNode child fun n => { n with nlookup := n.nlookup - 1 })
        req.unique child) := by
      refine Leaves.quiet ?_ (quiet_reply _ rfl)
      split_ifs
      · exact more
      · exact isChild.change back (fun _ _ => .counted op _) (fun fresh => fresh.count _)
    unfold startGetattr
    split_ifs
    · exact (sendQuery_sends counted.works counted.here _ _ _ _ _).leaves more otherwise
    · exact ((sendOpenFull_sends counted.works counted.here _ _ _ _ _).tag (fun _ => rfl)
        rfl).leaves more otherwise

/-- The handle of a child is closed before it is opened again for a removal. -/
theorem Below.closes (works : fd.sendOk = true)
    (op : req.op = .opUnlink ∨ req.op = .opRmdir ∨ req.op = .opRename) :
    Turns (Effect.InRequest req) {} made child (made.sendClose child) node.shut ∧
      Treated fd req (made.sendClose child) := by
  have isChild := below.isChild
  have closed : Turns (Effect.InRequest req) {} made child _ _ :=
    .close (.refl (isChild.sendOk.trans works) isChild.entry) (.inr isChild.parent)
  exact ⟨closed, isChild.change closed (fun below named => .displaced (.removed op below named))
    fun fresh => fresh.shut⟩

end

variable (works : fd.sendOk = true)
include works

theorem opLookup_serves (op : req.op = .opLookup) : Serves req fd (fd.opLookup req) := by
  rcases opLookup_cases fd req with refused | ⟨p, parent, child, made, node, below, _, same⟩
  · exact refused.stays.serves
  · rw [same]
    exact below.probe_serves works op

theorem makeChild_serves (isDir : Bool) {opTag : Tag}
    (makes : opTag = .createTag ∨ opTag = .mknodTag ∨ opTag = .mkdirTag) (access : Access)
    (options : UInt32) : Serves req fd (fd.makeChild req isDir opTag access options) := by
  have opens : ∀ slot : Inflight, slot.op = opTag → slot.opens = true := by
    rintro slot rfl
    rcases makes with isTag | isTag | isTag <;> rw [Inflight.opens, isTag]
  have notRename : opTag ≠ .renameTag := by
    rcases makes with rfl | rfl | rfl <;> exact Tag.noConfusion
  rw [makeChild]
  rcases onChild_cases fd req isDir _ with
    refused | ⟨p, parent, child, made, node, below, _, same⟩
  · exact refused.stays.serves
  · have isChild := below.isChild
    have here := isChild.entry
    have sends := sendOpenFull_sends (isChild.sendOk.trans works) here req.unique opTag access
      .fileCreate options
    rw [same]
    refine below.serves (sends.settles here ?_ (.of_ne Phase.noConfusion) ?_ ?_)
      (sends.leaves isChild.treated (Leaves.quiet ?_ (quiet_error _ _)))
    · exact fun wire forNode kind => .ofOpen forNode kind rfl (opens _ rfl)
    · exact fun wire => About.issued (.inr isChild.parent) notRename
        (Inflight.owes_of_opens (opens _ rfl)).2
    · rw [nodeAt_of_entry here]
      cases held : node.haveOpen with
      | true => exact settled_reply _ rfl
      | false =>
        have inScope : Effect.InRequest req (.freed node) := .inr isChild.parent
        have frees := Handled.free here inScope
        rw [held] at frees
        exact .before frees (settled_reply _ rfl)
    · rw [nodeAt_of_entry here]
      cases held : node.haveOpen with
      | true => exact isChild.treated
      | false => exact isChild.giveUp held

theorem opUnlink_serves (op : req.op = .opUnlink ∨ req.op = .opRmdir) :
    Serves req fd (fd.opUnlink req) := by
  rw [opUnlink]
  rcases onChild_cases fd req _ _ with refused | ⟨p, parent, child, made, node, below, _, same⟩
  · exact refused.stays.serves
  · obtain ⟨closed, treated⟩ := below.closes works (op.imp_right .inl)
    rw [same]
    exact Stays.before (Sends.opening ((sendOpenFull_sends closed.works closed.here _ _ _ _ _).tag
      (fun _ => rfl) rfl) closed.here (.inr (node.shut_parent.trans below.isChild.parent))
      rfl rfl rfl Tag.noConfusion Phase.noConfusion) (below.silent.before closed.handled) treated

theorem opRename_serves (op : req.op = .opRename) : Serves req fd (fd.opRename req) := by
  rcases opRename_cases fd req with refused |
    ⟨p, parent, child, made, node, below, onDrive, q, dst, _, under, named, oneDevice, goes⟩
  · exact refused.stays.serves
  · have isChild := below.isChild
    rcases goes with refused | ⟨target, _, same⟩
    · exact refused.stays.before below.silent isChild.treated
    · obtain ⟨closed, treated⟩ := below.closes works (.inr (.inr op))
      have stays : node.shut.parent = req.nodeid := node.shut_parent.trans isChild.parent
      have remains {other : Node} := @holds_sendClose _ _ _ (isChild.sendOk.trans works)
        isChild.entry other
      rw [same]
      refine Stays.before ?_ (below.silent.before closed.handled) treated
      refine ((sendOpenFull_sends closed.works closed.here _ _ _ _ _).tag (fun _ => rfl)
        rfl).settles closed.here ?_ ?_ ?_ (stays_reply _ rfl rfl)
      · exact fun wire forNode kind => .ofOpen forNode kind rfl rfl
      · intro _
        obtain ⟨upper, heldUpper, upperId, upperDevice⟩ :=
          remains (holds_of_entry (isChild.kept below.above))
        obtain ⟨lower, heldLower, lowerId, lowerDevice⟩ :=
          remains (holds_of_entry (isChild.kept under))
        refine ⟨upper, lower, heldUpper, heldLower, ?_, lowerId, ?_⟩
        · rw [upperId, below.self, stays]
        · rw [lowerDevice, upperDevice, oneDevice]
          exact ⟨rfl, onDrive⟩
      · exact fun wire => ⟨⟨.inr stays, fun _ => ⟨rfl, named⟩, Tag.noConfusion⟩, trivial⟩

theorem opRelease_serves (op : req.op = .opRelease ∨ req.op = .opReleasedir) :
    Serves req fd (fd.opRelease req) := by
  unfold opRelease
  refine nodeFind_rule (fd.nodeFind req.nodeid) rfl ((stays_reply _ rfl rfl).serves)
    fun n node found here self => ?_
  have counted : Turns (Effect.InRequest req) {} fd n
      (fd.updateNode n fun n => { n with openRefs := n.openRefs - 1 }) _ :=
    .touch (.refl works here) _ (node.same_counts _ _ _) (.inl self)
  have released := Treats.changed here (.released op self)
  dsimp only
  rw [nodeAt_of_entry counted.here]
  split_ifs with last
  · rw [Node.released, if_pos last] at released
    have closed := counted.close (.inl self)
    refine ⟨closed.handled.before (.before ?_ (settled_reply _ rfl)),
      (closed.leaves released).quiet ⟨rfl, (quiet_reply _ rfl).openings⟩⟩
    exact .list (.inr op) _ _
  · rw [Node.released, if_neg last] at released
    exact counted.serves rfl released

theorem forgetNode_serves (op : req.op = .opForget) :
    Handled (Effect.InRequest req) {} fd (fd.forgetNode req.nodeid req.nlookup) ∧
      Treated fd req (fd.forgetNode req.nodeid req.nlookup) := by
  have still : Handled (Effect.InRequest req) {} fd fd ∧ Treated fd req fd :=
    ⟨.refl fd, .of_quiet (.refl fd)⟩
  unfold forgetNode
  split_ifs
  · exact still
  · refine nodeFind_rule (fd.nodeFind req.nodeid) rfl still fun n node found here self => ?_
    have counted : Turns (Effect.InRequest req) {} fd n
        (fd.updateNode n fun n => { n with nlookup := n.nlookup - req.nlookup }) _ :=
      .touch (.refl works here) _ (node.same_counts _ _ _) (.inl self)
    dsimp only
    rw [nodeAt_of_entry counted.here]
    split_ifs with _ last
    · exact still
    · have closed := counted.close (.inl self)
      have frees : Handled (Effect.InRequest req) _ _ _ :=
        .free closed.here (.inl ((Node.shut_nodeid _).trans self))
      rw [Node.shut_haveOpen] at frees
      refine ⟨closed.handled.before frees, none, ?_, closed.openings.trans
        (List.append_nil _).symm⟩
      rw [freeNode]
      rw [closed.nodes, clear_put]
      exact .freed here (.freed op self last)
    · exact ⟨counted.handled, counted.leaves (.changed here (.forgotten op self last))⟩

theorem dispatch_serves (req : FdRequest) (named : req.op ≠ .opInit) (kept : req.op ≠ .opForget) :
    Serves req fd (fd.dispatch req) := by
  unfold dispatch
  cases op : req.op with
  | opInit => exact absurd op named
  | opForget => exact absurd op kept
  | opGetattr => exact (opGetattr_stays works).serves
  | opSetattr => exact (opSetattr_stays works).serves
  | opLookup => exact opLookup_serves works op
  | opOpendir => exact opOpendir_serves works op
  | opReaddir => exact (opReaddir_stays works op).serves
  | opOpen => exact opOpen_serves works op
  | opRead => exact (opRead_stays works).serves
  | opWrite => exact (opWrite_stays works).serves
  | opCreate => exact makeChild_serves works _ (.inl rfl) _ _
  | opMknod => exact makeChild_serves works _ (.inr (.inl rfl)) _ _
  | opMkdir => exact makeChild_serves works _ (.inr (.inr rfl)) _ _
  | opUnlink => exact opUnlink_serves works (.inl op)
  | opRmdir => exact opUnlink_serves works (.inr op)
  | opRename => exact opRename_serves works op
  | opRelease => exact opRelease_serves works (.inl op)
  | opReleasedir => exact opRelease_serves works (.inr op)
  | opFlush | opNone | opDestroy => exact (stays_reply _ rfl rfl).serves

/-- **Every request but INIT and FORGET leaves exactly one reply behind**, written
or owed by an operation in flight; no handle is recorded and none is lost. -/
theorem dispatch_handled (req : FdRequest) :
    Handled (Effect.InRequest req)
      { answers := if req.op = .opInit ∨ req.op = .opForget then [] else [req.unique] } fd
      (fd.dispatch req) := by
  by_cases init : req.op = .opInit
  · rw [dispatch, init]
    exact .refl fd
  · by_cases forget : req.op = .opForget
    · rw [dispatch, forget]
      exact (forgetNode_serves works forget).1
    · rw [if_neg fun silent => silent.elim init forget]
      exact (dispatch_serves works req init forget).settled

/-- **A request changes at most one node**, as `Treats` lists, and gives the kernel
a handle of at most one. -/
theorem dispatch_treated (req : FdRequest) : Treated fd req (fd.dispatch req) := by
  by_cases init : req.op = .opInit
  · rw [dispatch, init]
    exact .of_quiet (.refl fd)
  · by_cases forget : req.op = .opForget
    · rw [dispatch, forget]
      exact (forgetNode_serves works forget).2
    · exact (dispatch_serves works req init forget).treated

end FuseDrive

end RdpServer.Session
