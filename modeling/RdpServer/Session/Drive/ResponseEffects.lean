import RdpServer.Session.Drive.RequestEffects

/-!
# The steps of an answer

The completion of an operation works on the node of that operation only, and
passes on the reply that the operation owed (`complete_handled`). A handle is
recorded when the answer is to an OPEN that succeeded and the node is still
there; the handle that was there before is lost track of. What becomes of the node
says `handleFsRsp_finished`.
-/

namespace RdpServer.Session

open Slots

def Effect.InResponse (f : Inflight) : Effect → Prop
  | .touched node _ | .freed node | .closed node | .granted node _ => node.nodeid = f.nodeid
  | .moved node target => node.nodeid = f.nodeid ∧ target = f.targetParent ∧ f.op = .renameTag
  | .issued node slot _ => node.nodeid = f.nodeid ∧ slot.phase ≠ .renameOpen ∧
      (slot.op = .renameTag → slot.targetParent = f.targetParent ∧ f.op = .renameTag) ∧
      (slot.op = .fsList → f.op = .fsList)
  | .replied reply => reply.body.lists = true → f.op = .fsList
  | .listings => f.op = .fsList
  | .made _ => False

namespace FuseDrive

variable {fd after : FuseDrive} {f : Inflight} {rsp : FsRsp} {n : NodeRef} {node : Node}
  {failed : FuseDrive → FuseDrive} {second first : Node → Node}

def OpenSucceeds (f : Inflight) (rsp : FsRsp) : Prop :=
  f.opens = true ∧ rsp.status = statusSuccess

instance (f : Inflight) (rsp : FsRsp) : Decidable (OpenSucceeds f rsp) :=
  inferInstanceAs (Decidable (_ ∧ _))

def ProbeFails (f : Inflight) (rsp : FsRsp) (node : Node) : Prop :=
  rsp.status ≠ statusSuccess ∧ (f.op = .fsOpen ∨ f.op = .getattrTag) ∧ f.replyOp = .opLookup ∧
    node.isDrive = false ∧ node.nlookup ≤ 1

instance (f : Inflight) (rsp : FsRsp) (node : Node) : Decidable (ProbeFails f rsp node) :=
  inferInstanceAs (Decidable (_ ∧ _))

def recorded (fd : FuseDrive) (f : Inflight) (rsp : FsRsp) : List FileId :=
  match fd.nodeFind f.nodeid with
  | none => []
  | some _ => if OpenSucceeds f rsp then [rsp.fileId] else []

def dropped (fd : FuseDrive) (f : Inflight) (rsp : FsRsp) : List FileId :=
  match fd.nodeFind f.nodeid with
  | none => []
  | some n =>
    if (OpenSucceeds f rsp ∨ ProbeFails f rsp (fd.nodeAt n)) ∧ (fd.nodeAt n).haveOpen then
      [(fd.nodeAt n).fileId]
    else []

/-- A completion passes on the reply of its operation, and does nothing else to
the accounts. -/
abbrev PassedOn (f : Inflight) (fd after : FuseDrive) : Prop :=
  Handled (Effect.InResponse f) { answers := [f.fuseUnique] } fd after

theorem passedOn_reply (body : Body) (plain : body.lists = false) :
    PassedOn f fd (fd.reply f.fuseUnique body) :=
  .reply fun lists => absurd (plain.symm.trans lists) Bool.false_ne_true

/-- A completion that leaves the nodes alone. -/
abbrev Idles (f : Inflight) (fd after : FuseDrive) : Prop :=
  Rests (Effect.InResponse f) f.fuseUnique fd after

theorem idles_reply (body : Body) (plain : body.lists = false) (unopened : body.opens = none) :
    Idles f fd (fd.reply f.fuseUnique body) :=
  .reply ⟨fun lists => absurd (plain.symm.trans lists) Bool.false_ne_true, unopened⟩

theorem InResponse.issued {slot : Inflight} {wire : FsReq} (same : node.nodeid = f.nodeid)
    (notRename : slot.op ≠ .renameTag) (notList : slot.op ≠ .fsList)
    (phase : slot.phase ≠ .renameOpen) : Effect.InResponse f (.issued node slot wire) :=
  ⟨same, phase, fun isRename => absurd isRename notRename, fun isList => absurd isList notList⟩

structure Target (fd : FuseDrive) (f : Inflight) (n : NodeRef) (node : Node) : Prop where
  works : fd.sendOk = true
  here : fd.nodes.entry n = some node
  self : node.nodeid = f.nodeid

@[elab_as_elim]
theorem Target.rule {P : Option NodeRef → Prop} (works : fd.sendOk = true) (r : Option NodeRef)
    (looks : fd.nodeFind f.nodeid = r) (gone : fd.nodeFind f.nodeid = none → P none)
    (there : ∀ n node, fd.nodeFind f.nodeid = some n → Target fd f n node → P (some n)) : P r := by
  cases r with
  | none => exact gone looks
  | some n =>
    obtain ⟨node, here, self⟩ := entry_of_nodeFind looks
    exact there n node looks ⟨works, here, self⟩

theorem completeRead_idles : Idles f fd (fd.completeRead f rsp) := by
  unfold completeRead
  split_ifs <;> exact idles_reply _ rfl rfl

theorem completeWrite_idles : Idles f fd (fd.completeWrite f rsp) := by
  unfold completeWrite
  split_ifs <;> exact idles_reply _ rfl rfl

theorem getattrReply_idles (acc : AttrAcc) (n : NodeRef) :
    Idles f fd (fd.getattrReply f acc n) := by
  unfold getattrReply
  split_ifs <;> exact idles_reply _ rfl rfl

theorem sendQuery_idles (target : Target fd f n node) (otherwise : Idles f fd (failed fd))
    (infoClass : InfoClass) {phase : Phase} (notRename : phase ≠ .renameOpen) (acc : AttrAcc)
    (replyOp : FdOp) :
    Idles f fd
      ((fd.sendQuery n f.fuseUnique infoClass phase acc replyOp).orElse failed) := by
  exact (sendQuery_sends target.works target.here _ _ _ _ _).asks target.here rfl rfl rfl notRename
    (fun wire => ⟨InResponse.issued target.self Tag.noConfusion Tag.noConfusion notRename, trivial⟩)
    otherwise

theorem completeSetInfo_idles (works : fd.sendOk = true) (sets : f.op = .setattrTag) :
    Idles f fd (fd.completeSetInfo f rsp) := by
  unfold completeSetInfo
  rw [if_neg (not_not.2 sets)]
  refine Target.rule works (fd.nodeFind f.nodeid) rfl (fun _ => idles_reply _ rfl rfl)
    fun n node found target => ?_
  split_ifs
  · exact idles_reply _ rfl rfl
  · refine sendTimeSet_settles works target.here (fun slot wire notRename notList phase =>
      ⟨InResponse.issued target.self notRename notList phase, trivial⟩) ?_ _ _
    exact idles_reply _ rfl rfl
  · exact sendQuery_idles target (idles_reply _ rfl rfl) _ Phase.noConfusion _ _

theorem finishList_idles (lists : f.op = .fsList) (slot : Nat) (c : Dircache) (off size : Nat) :
    Idles f fd (fd.finishList slot c f.fuseUnique off size) := by
  unfold finishList
  refine .before ?_ (dircacheServe_handled (fun _ plain => ⟨fun _ => lists, plain⟩) _ _ _)
  exact .list ⟨lists, trivial⟩ _ _

theorem continueList_idles (target : Target fd f n node) (lists : f.op = .fsList) (c : Dircache)
    (payload : Bytes) : Idles f fd (fd.continueList f n c payload) := by
  unfold continueList
  dsimp only
  generalize fd.decodeDirents f.nodeid _ _ _ = d
  refine .before (.list ⟨lists, trivial⟩ (fd.dircache.put f.dircache d.cache) fd.dircacheClock) ?_
  obtain ⟨works, here, self⟩ := target
  split_ifs
  · refine (sendList_sends (by exact works) (by exact here) _ _ _ _ _).settles (by exact here) ?_
      (.of_ne Phase.noConfusion) ?_ (finishList_idles lists _ _ _ _)
    · intro wire forNode kind
      refine ⟨forNode, rfl, rfl, ?_, fun _ => rfl, fun _ => kind⟩
      rw [kind]
      exact ⟨FsOp.noConfusion, Bool.noConfusion⟩
    · exact fun wire => ⟨⟨self, Phase.noConfusion, Tag.noConfusion, fun _ => lists⟩, trivial⟩
  · exact finishList_idles lists _ _ _ _

theorem completeList_idles (works : fd.sendOk = true) (lists : f.op = .fsList) :
    Idles f fd (fd.completeList f rsp) := by
  unfold completeList
  cases fd.fillingCache f with
  | none => exact idles_reply _ rfl rfl
  | some c =>
    dsimp only
    refine Target.rule works (fd.nodeFind f.nodeid) rfl (fun _ => ?_) fun n node found target => ?_
    · refine .before ?_ (idles_reply _ rfl rfl)
      exact .list ⟨lists, trivial⟩ _ _
    · split_ifs
      · exact continueList_idles target lists _ _
      · refine .before ?_ (idles_reply _ rfl rfl)
        exact .list ⟨lists, trivial⟩ _ _
      · exact finishList_idles lists _ _ _ _

section

variable (found : fd.nodeFind f.nodeid = some n) (here : fd.nodes.entry n = some node)
include found here

theorem accounts_of_refusal (refuses : rsp.status ≠ statusSuccess) :
    fd.recorded f rsp = [] ∧
      fd.dropped f rsp =
        if ProbeFails f rsp node ∧ node.haveOpen then [node.fileId] else [] := by
  have fails : ¬ OpenSucceeds f rsp := fun succeeds => refuses succeeds.2
  rw [recorded, dropped, found]
  dsimp only
  rw [nodeAt_of_entry here, if_neg fails]
  simp only [fails, false_or, true_and]

end

theorem accounts_of_other (answersOther : f.opens = false) :
    fd.recorded f rsp = [] ∧ fd.dropped f rsp = [] := by
  have fails : ¬ OpenSucceeds f rsp := by
    intro succeeds
    rw [succeeds.1] at answersOther
    cases answersOther
  have stays : ∀ node, ¬ ProbeFails f rsp node := by
    rintro node ⟨_, isOpen | isOpen, _⟩ <;>
    · rw [Inflight.opens, isOpen] at answersOther
      cases answersOther
  rw [recorded, dropped]
  cases fd.nodeFind f.nodeid with
  | none => exact ⟨rfl, rfl⟩
  | some n => exact ⟨if_neg fails, if_neg fun both => both.1.elim fails (stays _)⟩

/-- A completion keeps the accounts: the reply is passed on, the handle that came is
recorded, and the one it replaced is lost. It changes the node as `Finishes` lists. -/
structure Completes (f : Inflight) (rsp : FsRsp) (fd after : FuseDrive) : Prop where
  accounted : Handled (Effect.InResponse f)
    { answers := [f.fuseUnique], grants := fd.recorded f rsp, leaks := fd.dropped f rsp } fd after
  finished : Finished fd f rsp after

theorem Idles.completes (rests : Idles f fd after)
    (accounts : fd.recorded f rsp = [] ∧ fd.dropped f rsp = []) : Completes f rsp fd after := by
  refine ⟨?_, .of_quiet rests.quiet⟩
  rw [accounts.1, accounts.2]
  exact rests.handled

theorem completes_of_gone (found : fd.nodeFind f.nodeid = none) (errno : Errno) :
    Completes f rsp fd (fd.replyError f.fuseUnique errno) := by
  refine (idles_reply _ rfl rfl).completes ?_
  rw [recorded, dropped, found]
  exact ⟨rfl, rfl⟩

/-- On its way to the reply a completion keeps the accounts but for that. -/
abbrev OnItsWay (fd : FuseDrive) (f : Inflight) (rsp : FsRsp) (n : NodeRef) (after : FuseDrive)
    (changed : Node) : Prop :=
  Turns (Effect.InResponse f) { grants := fd.recorded f rsp, leaks := fd.dropped f rsp } fd n after
    changed

theorem Target.starts (target : Target fd f n node)
    (accounts : fd.recorded f rsp = [] ∧ fd.dropped f rsp = []) :
    OnItsWay fd f rsp n fd node := by
  rw [OnItsWay, accounts.1, accounts.2]
  exact .refl target.works target.here

theorem Target.grant (target : Target fd f n node) (found : fd.nodeFind f.nodeid = some n)
    (succeeds : OpenSucceeds f rsp) (access : Access) :
    OnItsWay fd f rsp n (fd.updateNode n fun node => node.granted rsp.fileId access)
      (node.granted rsp.fileId access) := by
  refine .first target.works target.here ?_
  rw [recorded, dropped, found]
  dsimp only
  rw [nodeAt_of_entry target.here]
  simp only [succeeds, true_or, true_and]
  exact .grant target.here target.self

section

variable {changed : Node} (way : OnItsWay fd f rsp n after changed) (target : Target fd f n node)
include way target

theorem Turns.ends {body : Body} (plain : body.lists = false)
    (answered : node.Answered f rsp (some changed) body.opens) :
    Completes f rsp fd (after.reply f.fuseUnique body) :=
  ⟨way.handled.andAnswer (passedOn_reply _ plain),
    way.replies (.changed target.here target.self answered)⟩

theorem Turns.idles {last : FuseDrive} (answered : node.Answered f rsp (some changed) none)
    (idles : Idles f after last) : Completes f rsp fd last :=
  ⟨way.handled.andAnswer idles.handled,
    (way.leaves (.changed target.here target.self answered)).quiet idles.quiet⟩

end

theorem completeQuery_completes (works : fd.sendOk = true) (op : f.op = .fsQueryInfo) :
    Completes f rsp fd (fd.completeQuery f rsp) := by
  have accounts : fd.recorded f rsp = [] ∧ fd.dropped f rsp = [] :=
    accounts_of_other (by rw [Inflight.opens, op])
  unfold completeQuery
  refine Target.rule works (fd.nodeFind f.nodeid) rfl (fun gone => completes_of_gone gone _)
    fun n node found target => ?_
  cases phase : f.phase with
  | getattrStd =>
    exact (sendQuery_idles target (getattrReply_idles _ _) _ Phase.noConfusion _ _).completes
      accounts
  | getattrBasic =>
    exact ((target.starts accounts).touch _ (node.same_counts _ _ _) target.self).idles target
      (.typed op phase _ rfl) (getattrReply_idles _ _)
  | _ => exact (idles_reply _ rfl rfl).completes accounts

theorem openFailed_completes (found : fd.nodeFind f.nodeid = some n) (target : Target fd f n node)
    (refuses : rsp.status ≠ statusSuccess) :
    Completes f rsp fd (fd.openFailed f n rsp.status) := by
  obtain ⟨records, drops⟩ := accounts_of_refusal found target.here refuses
  have counted : Turns (Effect.InResponse f) {} fd n
      (fd.updateNode n fun n => { n with nlookup := n.nlookup - 1 }) _ :=
    .touch (.refl target.works target.here) _ (node.same_counts _ _ _) target.self
  unfold openFailed
  dsimp only
  rw [nodeAt_of_entry target.here]
  by_cases probe : (f.op = .fsOpen ∨ f.op = .getattrTag) ∧ f.replyOp = .opLookup ∧
      ¬ node.isDrive = true
  · rw [if_pos probe]
    by_cases last : node.nlookup ≤ 1
    · have fails : ProbeFails f rsp node :=
        ⟨refuses, probe.1, probe.2.1, Bool.eq_false_iff.2 probe.2.2, last⟩
      have frees : Handled (Effect.InResponse f) _ _ _ := .free counted.here target.self
      rw [if_pos last]
      refine ⟨?_, Leaves.quiet ⟨none, ?_, ?_⟩ (quiet_error _ _)⟩
      · rw [records, drops]
        simp only [fails, true_and]
        exact (counted.handled.before frees).andAnswer (passedOn_reply _ rfl)
      · rw [freeNode]
        rw [counted.nodes, clear_put]
        exact .freed target.here target.self (.freed refuses)
      · exact counted.openings.trans (List.append_nil _).symm
    · rw [if_neg last]
      rw [if_neg fun both => last both.1.2.2.2.2] at drops
      exact ((target.starts ⟨records, drops⟩).touch _
        (node.same_counts _ _ _) target.self).ends target rfl
        (.refused refuses)
  · have stays : ¬ ProbeFails f rsp node := fun fails =>
      probe ⟨fails.2.1, fails.2.2.1, Bool.eq_false_iff.1 fails.2.2.2.1⟩
    rw [if_neg fun both => stays both.1] at drops
    split_ifs with create
    · have frees : Handled (Effect.InResponse f) _ _ _ := .free target.here target.self
      rw [if_neg create.2.1] at frees
      refine ⟨?_, Leaves.quiet ?_ (quiet_error _ _)⟩
      · rw [records, drops]
        exact frees.andAnswer (passedOn_reply _ rfl)
      · exact ⟨none, .freed target.here target.self (.freed refuses), (List.append_nil _).symm⟩
    · exact (idles_reply _ rfl rfl).completes ⟨records, drops⟩

theorem completeOpen_completes (works : fd.sendOk = true) (opens : f.opens = true) :
    Completes f rsp fd (fd.completeOpen f rsp) := by
  unfold completeOpen
  refine Target.rule works (fd.nodeFind f.nodeid) rfl (fun gone => completes_of_gone gone _)
    fun n node found target => ?_
  dsimp only
  by_cases ok : rsp.status = statusSuccess
  · rw [if_neg (not_not.2 ok)]
    generalize (if f.reqAccess ≠ 0 then f.reqAccess else fileReadData) = access
    have granted := target.grant found ⟨opens, ok⟩ access
    have unread : node.Answered f rsp (some (node.granted rsp.fileId access)) none :=
      .granted ok access node.openRefs node.nlookup (le_rfl)
    unfold openGranted
    cases op : f.op with
    | getattrTag =>
      exact granted.idles target unread (sendQuery_idles ⟨granted.works, granted.here,
        target.self⟩ (getattrReply_idles _ _)
        _ Phase.noConfusion _ _)
    | fsOpen =>
      exact (granted.touch _ (Node.same_counts _ _ _ _) target.self).ends target rfl
        (.granted ok access node.openRefs _ (le_rfl))
    | openfileTag =>
      rw [nodeAt_of_entry granted.here]
      exact (granted.touch _ (Node.same_counts _ _ _ _) target.self).ends target rfl
        (.opened (.inl op) ok access node.nlookup)
    | opendirTag =>
      exact (granted.touch _ (Node.same_counts _ _ _ _) target.self).ends target rfl
        (.granted ok access _ node.nlookup (Nat.le_succ _))
    | createTag =>
      have counted := granted.touch (fun n =>
        { n with openRefs := n.openRefs + 1, nlookup := n.nlookup + 1 })
          (Node.same_counts _ _ _ _)
        target.self
      refine counted.ends target rfl ?_
      rw [nodeAt_of_entry counted.here]
      exact .opened (.inr op) ok access _
    | mknodTag =>
      refine Turns.ends (.close (.touch granted _ (Node.same_counts _ _ _ _) target.self) ?_)
        target rfl (.closed (.inl op) node.isDir _)
      exact target.self
    | mkdirTag =>
      refine Turns.ends (.close (.touch granted _ (Node.same_counts _ _ _ _) target.self) ?_)
        target rfl (.closed (.inr (.inl op)) true _)
      exact target.self
    | _ => exact granted.idles target unread (idles_reply _ rfl rfl)
  · rw [if_pos ok]
    exact openFailed_completes found target ok

/-- The file of a delete or of a rename is open, and its information is set. -/
theorem Turns.setting {access : Access} {sending : Sending} {slot : Inflight} {errno : Errno}
    (way : OnItsWay fd f rsp n after (node.granted rsp.fileId access))
    (target : Target fd f n node) (op : f.op = .unlinkTag ∨ f.op = .renameTag)
    (ok : rsp.status = statusSuccess)
    (sends : Sends after n (node.granted rsp.fileId access) .fsSetInfo slot sending)
    (asks : slot.fuseUnique = f.fuseUnique) (nodeid : slot.nodeid = node.nodeid)
    (waits : slot.plain = true) (phase : slot.phase ≠ .renameOpen)
    (inScope : ∀ wire, Effect.InResponse f (.issued (node.granted rsp.fileId access) slot wire)) :
    Completes f rsp fd
      (sending.orElse fun fd => (fd.sendClose n).replyError f.fuseUnique errno) := by
  have refused : Completes f rsp fd ((after.sendClose n).replyError f.fuseUnique errno) :=
    (way.close target.self).ends target rfl (.closed (.inr (.inr op)) node.isDir node.nlookup)
  refine ⟨way.handled.andAnswer ?_, sends.leaves (way.leaves (.changed target.here target.self
    (.granted ok access node.openRefs node.nlookup (le_rfl)))) refused.finished⟩
  rw [← asks]
  refine sends.asks way.here rfl nodeid waits phase inScope ?_
  rw [asks]
  exact (Handled.close way.here target.self).before (passedOn_reply _ rfl)

theorem dropNode_completes (target : Target fd f n node) (op : f.op = .unlinkTag)
    (accounts : fd.recorded f rsp = [] ∧ fd.dropped f rsp = []) :
    Completes f rsp fd (((fd.sendClose n).reply f.fuseUnique .ok).dropNode n) := by
  have closed := (target.starts accounts).close target.self
  have replied : Completes f rsp fd ((fd.sendClose n).reply f.fuseUnique .ok) :=
    closed.ends target rfl (.shut (.inl op))
  unfold dropNode
  split_ifs
  · exact replied
  · have frees : Handled (Effect.InResponse f) _ ((fd.sendClose n).reply f.fuseUnique .ok) _ :=
      .free closed.here (node.shut_nodeid.trans target.self)
    rw [if_neg (by simp only [Node.shut_haveOpen, Bool.false_eq_true, not_false_eq_true])] at frees
    refine ⟨replied.accounted.andAnswer frees, none, ?_, ?_⟩
    · have cleared : (((fd.sendClose n).reply f.fuseUnique .ok).freeNode n).nodes =
          fd.nodes.clear n := by
        rw [freeNode, reply]
        rw [closed.nodes, clear_put]
      rw [cleared]
      exact .freed target.here target.self (.dropped op)
    · have same : (((fd.sendClose n).reply f.fuseUnique .ok).freeNode n).openings =
          ((fd.sendClose n).reply f.fuseUnique .ok).openings := rfl
      rw [same, (quiet_reply _ rfl).openings, closed.openings]
      exact (List.append_nil _).symm

theorem denied_completes (found : fd.nodeFind f.nodeid = some n) (target : Target fd f n node)
    (refuses : rsp.status ≠ statusSuccess) (op : f.op = .unlinkTag ∨ f.op = .renameTag)
    (errno : Errno) : Completes f rsp fd (fd.replyError f.fuseUnique errno) := by
  obtain ⟨records, drops⟩ := accounts_of_refusal found target.here refuses
  refine (idles_reply _ rfl rfl).completes ⟨records, drops.trans (if_neg ?_)⟩
  rintro ⟨⟨_, probe, _⟩, _⟩
  rcases op with op | op <;> rw [op] at probe <;> exact probe.elim Tag.noConfusion Tag.noConfusion

theorem completeUnlink_completes (works : fd.sendOk = true) (op : f.op = .unlinkTag) :
    Completes f rsp fd (fd.completeUnlink f rsp) := by
  unfold completeUnlink
  refine Target.rule works (fd.nodeFind f.nodeid) rfl (fun gone => completes_of_gone gone _)
    fun n node found target => ?_
  have opens : f.opens = decide (f.phase = .unlinkOpen) := by rw [Inflight.opens, op]
  split_ifs with opening refuses refuses
  · exact denied_completes found target refuses (.inl op) _
  · have granted := target.grant found
      ⟨opens.trans (decide_eq_true opening), not_not.1 refuses⟩ accessDelete
    refine granted.setting target (.inl op) (not_not.1 refuses)
      ((sendSetInfo_sends granted.works granted.here _ _ _ _).tag (fun _ => rfl) rfl)
      rfl rfl rfl Phase.noConfusion ?_
    exact fun wire => InResponse.issued target.self Tag.noConfusion Tag.noConfusion
      Phase.noConfusion
  · exact Turns.ends (.close (target.starts (accounts_of_other
      (opens.trans (decide_eq_false opening)))) target.self) target rfl (.shut (.inl op))
  · exact dropNode_completes target op
      (accounts_of_other (opens.trans (decide_eq_false opening)))

theorem renameOpened_completes (found : fd.nodeFind f.nodeid = some n)
    (target : Target fd f n node) (op : f.op = .renameTag) (succeeds : OpenSucceeds f rsp) :
    Completes f rsp fd (fd.renameOpened f n rsp.fileId) := by
  have granted := target.grant found succeeds (accessDelete ||| fileWriteData)
  unfold renameOpened
  cases buildRenameInfo f.target with
  | none =>
    exact (granted.close target.self).ends target rfl
      (.closed (.inr (.inr (.inr op))) node.isDir node.nlookup)
  | some info =>
    refine granted.setting target (.inr op) succeeds.2
      ((sendSetInfo_sends granted.works granted.here _ _ _ _).tag (fun _ => rfl) rfl)
      rfl rfl rfl Phase.noConfusion ?_
    exact fun wire => ⟨target.self, Phase.noConfusion, fun _ => ⟨rfl, op⟩, Tag.noConfusion⟩

theorem completeRename_completes (works : fd.sendOk = true) (op : f.op = .renameTag) :
    Completes f rsp fd (fd.completeRename f rsp) := by
  unfold completeRename
  refine Target.rule works (fd.nodeFind f.nodeid) rfl (fun gone => completes_of_gone gone _)
    fun n node found target => ?_
  have opens : f.opens = decide (f.phase = .renameOpen) := by rw [Inflight.opens, op]
  dsimp only
  by_cases opening : f.phase = .renameOpen
  · rw [if_pos opening]
    split_ifs with refuses
    · exact denied_completes found target refuses (.inr op) _
    · exact renameOpened_completes found target op
        ⟨opens.trans (decide_eq_true opening), not_not.1 refuses⟩
  · have closed : OnItsWay fd f rsp n (fd.sendClose n) node.shut :=
      (target.starts (accounts_of_other
        (opens.trans (decide_eq_false opening)))).close target.self
    split_ifs with refuses named
    · exact closed.ends target rfl (.shut (.inr op))
    · refine Turns.ends (.andThen closed (.first closed.works closed.here ?_)) target rfl
        (.moved op (not_not.1 refuses) opening named.1)
      rw [updateNode_of_entry closed.here]
      refine .single (.moved closed.here _ _ (zero_not_mem_cString _)) ?_
      exact ⟨node.shut_nodeid.trans target.self, rfl, op⟩
    · exact closed.ends target rfl (.shut (.inr op))

def freeSlot (fd : FuseDrive) (slot : SlotRef) : FuseDrive :=
  { fd with inflight := fd.inflight.clear slot }

theorem handleFsRsp_cases (fd : FuseDrive) (rsp : FsRsp) :
    (fd.inflightFind rsp.reqId = none ∧ fd.handleFsRsp rsp = fd) ∨
      ∃ slot f, fd.inflightFind rsp.reqId = some (slot, f) ∧ fd.inflight.entry slot = some f ∧
        fd.handleFsRsp rsp = (fd.freeSlot slot).complete f rsp := by
  cases found : fd.inflightFind rsp.reqId with
  | none =>
    refine .inl ⟨rfl, ?_⟩
    rw [handleFsRsp, found]
  | some pair =>
    refine .inr ⟨pair.1, pair.2, rfl, (lookup_eq_some found).1, ?_⟩
    rw [handleFsRsp, found]
    rfl

theorem complete_of_paid (paid : f.owes = false) :
    fd.complete f rsp = fd ∧ f.opens = false := by
  unfold complete
  cases op : f.op with
  | fsClose => exact ⟨rfl, by rw [Inflight.opens, op]⟩
  | fsSetInfo =>
    refine ⟨?_, by rw [Inflight.opens, op]⟩
    rw [completeSetInfo, op, if_pos (by decide)]
  | _ =>
    rw [Inflight.owes, op] at paid
    cases paid

section

variable (works : fd.sendOk = true)
include works

theorem complete_of_owed (owes : f.owes = true) : Completes f rsp fd (fd.complete f rsp) := by
  obtain ⟨notClose, notSet⟩ := of_decide_eq_true owes
  unfold complete
  cases op : f.op with
  | fsClose => exact absurd op notClose
  | fsSetInfo => exact absurd op notSet
  | unlinkTag => exact completeUnlink_completes works op
  | renameTag => exact completeRename_completes works op
  | setattrTag =>
    exact (completeSetInfo_idles works op).completes (accounts_of_other
      (by rw [Inflight.opens, op]))
  | fsList =>
    exact (completeList_idles works op).completes (accounts_of_other (by rw [Inflight.opens, op]))
  | fsRead => exact completeRead_idles.completes (accounts_of_other (by rw [Inflight.opens, op]))
  | fsWrite => exact completeWrite_idles.completes (accounts_of_other (by rw [Inflight.opens, op]))
  | fsQueryInfo => exact completeQuery_completes works op
  | _ => exact completeOpen_completes works (by rw [Inflight.opens, op])

/-- **What an answer does.** Its completion works on the node of the operation,
passes on the reply that the operation owed, and records or loses the handles
that `recorded` and `dropped` say. -/
theorem complete_handled (f : Inflight) (rsp : FsRsp) :
    Handled (Effect.InResponse f)
      { answers := if f.owes then [f.fuseUnique] else []
        grants := fd.recorded f rsp
        leaks := fd.dropped f rsp } fd (fd.complete f rsp) := by
  cases owes : f.owes with
  | true => exact (complete_of_owed works owes).accounted
  | false =>
    obtain ⟨nothing, answersOther⟩ := complete_of_paid owes
    rw [nothing, (accounts_of_other answersOther).1, (accounts_of_other answersOther).2]
    exact .refl fd

theorem complete_finished (f : Inflight) (rsp : FsRsp) : Finished fd f rsp (fd.complete f rsp) := by
  cases owes : f.owes with
  | true => exact (complete_of_owed works owes).finished
  | false =>
    rw [(complete_of_paid owes).1]
    exact .of_quiet (.refl fd)

/-- **An answer changes at most the node of the operation that it completes**, as
`Finishes` lists; one that no operation waits for changes nothing. -/
theorem handleFsRsp_finished (rsp : FsRsp) :
    Quiet fd (fd.handleFsRsp rsp) ∨ ∃ slot f, fd.inflightFind rsp.reqId = some (slot, f) ∧
      Finished fd f rsp (fd.handleFsRsp rsp) := by
  rcases fd.handleFsRsp_cases rsp with ⟨_, ignores⟩ | ⟨slot, f, found, _, takes⟩
  · rw [ignores]
    exact .inl (.refl fd)
  · have freed : (fd.freeSlot slot).sendOk = true := works
    refine .inr ⟨slot, f, found, ?_⟩
    rw [takes]
    obtain ⟨opened, finishes, given⟩ := complete_finished freed f rsp
    refine ⟨opened, ?_, given⟩
    generalize ((fd.freeSlot slot).complete f rsp).nodes = nodes at finishes
    cases finishes with
    | kept => exact .kept
    | changed here self answered => exact .changed here self answered
    | freed here self answered => exact .freed here self answered

end

def driveNode (fd : FuseDrive) (deviceId : DeviceId) (name : Name) : Node :=
  { nodeid := fd.nextNodeid, parent := rootId, deviceId, isDir := true
    name := cString (driveName deviceId name), isDrive := true }

inductive Announces (fd : FuseDrive) (deviceId : DeviceId) (name : Name) :
    Bool → FuseDrive → Prop where
  | withdrawn : Announces fd deviceId name false
      { fd with nodes := fd.nodes.keep fun n => !(n.isDrive && n.deviceId == deviceId) }
  | ignored : Announces fd deviceId name true fd
  | turned (n : NodeRef) (node : Node) (here : fd.nodes.entry n = some node)
      (top : node.parent = rootId) (named : node.name = driveName deviceId name) :
      Announces fd deviceId name true
        { fd with nodes := fd.nodes.put n { node with isDrive := true } }
  | made (n : NodeRef) (free : fd.nodes.free = some n) :
      Announces fd deviceId name true
        { fd with nodes := fd.nodes.put n (fd.driveNode deviceId name)
                  nextNodeid := fd.nextNodeid + 1 }

theorem addDevice_announces (fd : FuseDrive) (deviceId : DeviceId) (name : Name) (added : Bool) :
    Announces fd deviceId name added (fd.addDevice deviceId name added) := by
  cases added with
  | false => exact .withdrawn
  | true =>
    unfold addDevice childMake nodeAlloc
    rw [if_neg (by decide)]
    split_ifs with known long
    · exact .ignored
    · exact .ignored
    · cases found : fd.childFind rootId (driveName deviceId name) with
      | some n =>
        obtain ⟨node, here, top, named⟩ := entry_of_childFind found
        dsimp only
        rw [updateNode_of_entry here]
        exact .turned n node here top named
      | none =>
        cases free : fd.nodes.free with
        | none => exact .ignored
        | some n =>
          dsimp only [Option.map_some]
          rw [updateNode_of_entry (entry_put_self (free_eq_some free).1)]
          rw [put_put]
          exact .made n free

end FuseDrive

end RdpServer.Session
