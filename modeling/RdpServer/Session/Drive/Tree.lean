import RdpServer.Session.Drive.Answers

/-!
# The tree of nodes

Node ids are never used twice, the drives are the children of the root and no
other nodes are, parents are ids that have been given out, names have no zero byte,
and an operation in flight that renames a node is about a file and moves it below a
drive. Every run of the drive keeps
this (`run_wellFormed`).
-/

namespace RdpServer.Session

open Slots

/-- A node is in its place, under ids that are below `next`. -/
structure Node.Valid (next : NodeId) (node : Node) : Prop where
  positive : rootId ≤ node.nodeid
  below : node.nodeid < next
  root : node.nodeid = rootId → node.deviceId = 0 ∧ node.isDrive = false ∧ node.parent = 0
  drive : node.isDrive = true → node.parent = rootId
  file : node.isDrive = false → node.parent ≠ rootId
  clean : 0 ∉ node.name
  above : node.parent < next

theorem Node.Valid.mono {next later : NodeId} {node : Node} (valid : node.Valid next)
    (grows : next ≤ later) : node.Valid later :=
  { valid with
    below := lt_of_lt_of_le valid.below grows
    above := lt_of_lt_of_le valid.above grows }

theorem Node.Valid.congr {next : NodeId} {node after : Node} (valid : node.Valid next)
    (same : node.Same after) : after.Valid next := by
  obtain ⟨nodeid, deviceId, parent, name, isDrive, _, _⟩ := same
  refine ⟨?_, ?_, ?_, ?_, ?_, ?_, ?_⟩
  · rw [nodeid]
    exact valid.positive
  · rw [nodeid]
    exact valid.below
  · rw [nodeid, deviceId, isDrive, parent]
    exact valid.root
  · rw [isDrive, parent]
    exact valid.drive
  · rw [isDrive, parent]
    exact valid.file
  · rw [name]
    exact valid.clean
  · rw [parent]
    exact valid.above

namespace FuseDrive

variable {fd after : FuseDrive} {n : NodeRef} {node : Node} {f : Inflight} {e : Effect}

/-- The nodes of a later state are those of an earlier one, as far as drives go, or
have ids that were not yet used. -/
structure Grows (fd after : FuseDrive) : Prop where
  next : fd.nextNodeid ≤ after.nextNodeid
  nodes : ∀ node, after.nodes.Holds node → fd.nextNodeid ≤ node.nodeid ∨
    ∃ old, fd.nodes.Holds old ∧ old.nodeid = node.nodeid ∧ old.isDrive = node.isDrive

/-- An operation that renames a node is about a file and moves it below a drive. -/
def RenamesFile (fd : FuseDrive) (f : Inflight) : Prop :=
  f.op = .renameTag → (f.targetParent ≠ rootId ∧ f.targetParent < fd.nextNodeid) ∧
    f.nodeid ≠ rootId ∧ f.nodeid < fd.nextNodeid ∧ ∀ node, fd.nodes.Holds node →
      node.nodeid = f.nodeid → node.isDrive = false

theorem RenamesFile.later (renames : fd.RenamesFile f) (grows : Grows fd after) :
    after.RenamesFile f := by
  intro isRename
  obtain ⟨target, source, small, files⟩ := renames isRename
  refine ⟨⟨target.1, lt_of_lt_of_le target.2 grows.next⟩, source,
    lt_of_lt_of_le small grows.next, ?_⟩
  intro node held same
  rcases grows.nodes node held with new | ⟨old, before, nodeid, isDrive⟩
  · rw [same] at new
    exact absurd small (Nat.not_lt.2 new)
  · rw [← isDrive]
    exact files old before (nodeid.trans same)

structure Placed (fd : FuseDrive) : Prop where
  unique : Slots.KeyUnique Node.nodeid fd.nodes
  started : rootId < fd.nextNodeid
  nodes : ∀ node, fd.nodes.Holds node → node.Valid fd.nextNodeid

structure WellFormed (fd : FuseDrive) : Prop extends Placed fd where
  sendOk : fd.sendOk = true
  renames : ∀ f, fd.inflight.Holds f → fd.RenamesFile f

theorem Placed.node_eq {other : Node} (placed : fd.Placed) (held : fd.nodes.Holds node)
    (alsoHeld : fd.nodes.Holds other) (same : node.nodeid = other.nodeid) : node = other := by
  obtain ⟨i, here⟩ := exists_entry held
  obtain ⟨j, there⟩ := exists_entry alsoHeld
  have one := placed.unique i j node other here there same
  subst one
  rw [here] at there
  exact Option.some.inj there

theorem placed_write (changed : Node) (placed : fd.Placed)
    (next : fd.nextNodeid ≤ after.nextNodeid) (valid : changed.Valid after.nextNodeid)
    (others : ∀ j other, fd.nodes.entry j = some other → j ≠ n → other.nodeid ≠ changed.nodeid)
    (known : fd.nextNodeid ≤ changed.nodeid ∨ ∃ old, fd.nodes.Holds old ∧
      old.nodeid = changed.nodeid ∧ old.isDrive = changed.isDrive)
    (puts : after.nodes = fd.nodes.put n changed) : after.Placed ∧ Grows fd after := by
  refine ⟨⟨?_, lt_of_lt_of_le placed.started next, ?_⟩, next, ?_⟩ <;> rw [puts]
  · exact placed.unique.put others
  · intro other there
    rcases holds_put there with rfl | before
    · exact valid
    · exact (placed.nodes other before).mono next
  · intro other there
    rcases holds_put there with rfl | before
    · exact known
    · exact .inr ⟨other, before, rfl, rfl⟩

theorem placed_put (changed : Node) (placed : fd.Placed)
    (here : fd.nodes.entry n = some node) (valid : changed.Valid fd.nextNodeid)
    (nodeid : changed.nodeid = node.nodeid) (isDrive : changed.isDrive = node.isDrive)
    (puts : after.nodes = fd.nodes.put n changed) (next : after.nextNodeid = fd.nextNodeid) :
    after.Placed ∧ Grows fd after := by
  refine placed_write changed placed (le_of_eq next.symm) (next.symm ▸ valid) ?_
    (.inr ⟨node, holds_of_entry here, nodeid.symm, isDrive.symm⟩) puts
  intro j other there apart same
  exact apart (placed.unique j n other node there here (same.trans nodeid))

theorem placed_add {new : Node} (placed : fd.Placed) (fresh : new.nodeid = fd.nextNodeid)
    (valid : new.Valid (fd.nextNodeid + 1)) (puts : after.nodes = fd.nodes.put n new)
    (next : after.nextNodeid = fd.nextNodeid + 1) : after.Placed ∧ Grows fd after := by
  refine placed_write new placed (next.symm ▸ Nat.le_succ _) (next.symm ▸ valid) ?_
    (.inl (le_of_eq fresh.symm)) puts
  intro j other there _ same
  have small := (placed.nodes other (holds_of_entry there)).below
  rw [same, fresh] at small
  exact lt_irrefl _ small

theorem placed_remove (placed : fd.Placed) (unique : Slots.KeyUnique Node.nodeid after.nodes)
    (fewer : ∀ node, after.nodes.Holds node → fd.nodes.Holds node)
    (next : after.nextNodeid = fd.nextNodeid) : after.Placed ∧ Grows fd after := by
  refine ⟨⟨unique, ?_, ?_⟩, ?_, ?_⟩
  · rw [next]
    exact placed.started
  · rw [next]
    exact fun node held => placed.nodes node (fewer node held)
  · exact le_of_eq next.symm
  · exact fun node held => .inr ⟨node, fewer node held, rfl, rfl⟩

theorem placed_same (placed : fd.Placed) (nodes : after.nodes = fd.nodes)
    (next : after.nextNodeid = fd.nextNodeid) : after.Placed ∧ Grows fd after := by
  refine placed_remove placed ?_ ?_ next
  · rw [nodes]
    exact placed.unique
  · rw [nodes]
    exact fun _ held => held

end FuseDrive

def Effect.MovesFile (next : NodeId) : Effect → Prop
  | .moved node target =>
      (target ≠ rootId ∧ target < next) ∧ node.isDrive = false ∧ node.nodeid ≠ rootId
  | .issued node slot _ => slot.op = .renameTag →
      (slot.targetParent ≠ rootId ∧ slot.targetParent < next) ∧ node.isDrive = false ∧
        node.nodeid ≠ rootId
  | _ => True

namespace FuseDrive

variable {fd after : FuseDrive} {n : NodeRef} {node : Node} {f : Inflight} {e : Effect}

theorem acts_placed (act : Acts fd e after) (works : fd.sendOk = true) (placed : fd.Placed)
    (moves : e.MovesFile fd.nextNodeid) : after.Placed ∧ Grows fd after := by
  cases act with
  | @touched n node changed here same =>
    have valid := (placed.nodes node (holds_of_entry here)).congr same
    exact placed_put changed placed here valid same.nodeid same.isDrive rfl rfl
  | @moved n node here target name clean =>
    obtain ⟨notRoot, isFile, notTop⟩ := moves
    have valid := placed.nodes node (holds_of_entry here)
    refine placed_put { node with parent := target, name } placed here ?_ rfl rfl rfl rfl
    refine ⟨valid.positive, valid.below, fun top => absurd top notTop, ?_, fun _ => notRoot.1,
      clean,
      notRoot.2⟩
    intro isDrive
    rw [isFile] at isDrive
    cases isDrive
  | @made n node free fresh unopened plain clean placedBelow above =>
    obtain ⟨parent, held, same, device⟩ := above
    have valid := placed.nodes parent held
    have notRoot : node.parent ≠ rootId := by
      intro top
      rcases placedBelow with apart | onDrive
      · exact apart top
      · rw [← device] at onDrive
        exact onDrive (valid.root (same.trans top)).1
    refine placed_add placed fresh ?_ rfl rfl
    refine ⟨?_, ?_, ?_, ?_, fun _ => notRoot, clean, ?_⟩
    · rw [fresh]
      exact le_of_lt placed.started
    · rw [fresh]
      exact Nat.lt_succ_self _
    · intro top
      rw [fresh] at top
      exact absurd top (ne_of_gt placed.started)
    · intro isDrive
      rw [plain] at isDrive
      cases isDrive
    · rw [← same]
      exact Nat.lt_succ_of_lt valid.below
  | @freed n node here =>
    exact placed_remove placed (placed.unique.clear n) (fun _ held => holds_clear held) rfl
  | @granted n node here brought access =>
    have valid := placed.nodes node (holds_of_entry here)
    exact placed_put (node.granted brought access) placed here { valid with } rfl rfl rfl rfl
  | @closed n node here held =>
    have valid := placed.nodes node (holds_of_entry here)
    have closes := sendClose_of_held works here held
    exact placed_put node.closed placed here { valid with } rfl rfl (by rw [closes])
      (by rw [closes])
  | issued here free names within | replied reply | listings dircache clock =>
    exact placed_same placed rfl rfl

theorem holds_closeInflight {nodeid : NodeId} (waits : (fd.closeInflight nodeid).Holds f) :
    fd.inflight.Holds f ∨ f.op = .fsClose := by
  unfold closeInflight at waits
  cases free : fd.inflight.free with
  | none =>
    rw [free] at waits
    exact .inl waits
  | some slot =>
    rw [free] at waits
    rcases holds_put waits with rfl | before
    · exact .inr rfl
    · exact .inl before

theorem acts_wellFormed (act : Acts fd e after) (moves : e.MovesFile fd.nextNodeid)
    (wf : fd.WellFormed) :
    after.WellFormed ∧ Grows fd after := by
  obtain ⟨placed, grows⟩ := acts_placed act wf.sendOk wf.toPlaced moves
  refine ⟨⟨placed, acts_sendOk act wf.sendOk, ?_⟩, grows⟩
  have later : ∀ f, fd.inflight.Holds f → after.RenamesFile f :=
    fun f waits => (wf.renames f waits).later grows
  cases act with
  | @closed n node here held =>
    intro f waits
    rw [sendClose_of_held wf.sendOk here held] at waits
    rcases holds_closeInflight waits with before | isClose
    · exact later f before
    · exact fun isRename => absurd (isClose.symm.trans isRename) nofun
  | @issued n slotRef node slot req here free names within =>
    intro f waits
    rcases holds_put waits with rfl | before
    · intro isRename
      obtain ⟨target, isFile, notRoot⟩ := moves isRename
      have valid := wf.nodes node (holds_of_entry here)
      refine ⟨⟨target.1, lt_of_lt_of_le target.2 grows.next⟩, ?_, ?_, ?_⟩
      · exact fun top => notRoot (names.nodeid.symm.trans top)
      · exact lt_of_eq_of_lt names.nodeid valid.below
      · intro other held same
        have one := wf.node_eq held (holds_of_entry here) (same.trans names.nodeid)
        rw [one]
        exact isFile
    · exact later f before
  | _ => exact later

theorem movesFile_of_request {req : FdRequest} (act : Acts fd e after) (wf : fd.WellFormed)
    (inScope : Effect.InRequest req e) : e.MovesFile fd.nextNodeid := by
  cases act with
  | moved => exact inScope.elim
  | @issued n slotRef node slot wire here free names within =>
    intro isRename
    obtain ⟨upper, lower, heldUpper, heldLower, isParent, isTarget, oneDevice, onDrive⟩ :=
      within (inScope.2.1 isRename).1
    have valid := wf.nodes node (holds_of_entry here)
    have notTop : ∀ dir, fd.nodes.Holds dir → dir.deviceId ≠ 0 → dir.nodeid ≠ rootId :=
      fun dir held device top => device ((wf.nodes dir held).root top).1
    refine ⟨?_, ?_, ?_⟩
    · rw [← isTarget]
      refine ⟨notTop lower heldLower ?_, (wf.nodes lower heldLower).below⟩
      rw [oneDevice]
      exact onDrive
    · refine Bool.eq_false_iff.2 fun isDrive => notTop upper heldUpper onDrive ?_
      rw [isParent, valid.drive isDrive]
    · intro top
      have positive := (wf.nodes upper heldUpper).positive
      rw [isParent, (valid.root top).2.2] at positive
      exact absurd positive (by decide)
  | _ => exact True.intro

theorem movesFile_of_response (act : Acts fd e after)
    (renames : fd.RenamesFile f) (inScope : Effect.InResponse f e) :
    e.MovesFile fd.nextNodeid := by
  cases act with
  | @moved n node here target name clean =>
    obtain ⟨same, isTarget, isRename⟩ := inScope
    obtain ⟨notRoot, notTop, _, files⟩ := renames isRename
    refine ⟨?_, files node (holds_of_entry here) same, ?_⟩
    · rw [isTarget]
      exact notRoot
    · rw [same]
      exact notTop
  | @issued n slotRef node slot wire here free names within =>
    intro isRename
    obtain ⟨same, _, carries, _⟩ := inScope
    obtain ⟨isTarget, wasRename⟩ := carries isRename
    obtain ⟨notRoot, notTop, _, files⟩ := renames wasRename
    refine ⟨?_, files node (holds_of_entry here) same, ?_⟩
    · rw [isTarget]
      exact notRoot
    · rw [same]
      exact notTop
  | _ => exact True.intro

theorem Handled.wellFormed {req : FdRequest} {tally : Tally}
    (handled : Handled (Effect.InRequest req) tally fd after) (wf : fd.WellFormed) :
    after.WellFormed := by
  obtain ⟨es, chain, inScope, _⟩ := handled
  refine chain.keeps (P := WellFormed) ?_ inScope wf
  exact fun act scope wf => (acts_wellFormed act (movesFile_of_request act wf scope) wf).1

theorem handleFsRsp_wellFormed (wf : fd.WellFormed) (rsp : FsRsp) :
    (fd.handleFsRsp rsp).WellFormed := by
  rcases fd.handleFsRsp_cases rsp with ⟨_, ignores⟩ | ⟨slot, f, _, held, takes⟩
  · rw [ignores]
    exact wf
  · rw [takes]
    have freed : (fd.freeSlot slot).WellFormed :=
      ⟨⟨wf.unique, wf.started, wf.nodes⟩, wf.sendOk,
        fun other waits => wf.renames other (holds_clear waits)⟩
    have renames : (fd.freeSlot slot).RenamesFile f := wf.renames f (holds_of_entry held)
    obtain ⟨es, chain, inScope, _⟩ := complete_handled freed.sendOk f rsp
    have both : ((fd.freeSlot slot).complete f rsp).WellFormed ∧
        ((fd.freeSlot slot).complete f rsp).RenamesFile f := by
      refine chain.keeps (P := fun fd => fd.WellFormed ∧ fd.RenamesFile f) ?_ inScope
        ⟨freed, renames⟩
      rintro before e later act scope ⟨wf, renames⟩
      obtain ⟨kept, grows⟩ := acts_wellFormed act (movesFile_of_response act renames scope) wf
      exact ⟨kept, renames.later grows⟩
    exact both.1

theorem addDevice_wellFormed (wf : fd.WellFormed) (deviceId : DeviceId) (name : Name)
    (added : Bool) : (fd.addDevice deviceId name added).WellFormed := by
  have announces := fd.addDevice_announces deviceId name added
  generalize fd.addDevice deviceId name added = after at announces
  have kept : after.Placed ∧ Grows fd after := by
    cases announces with
    | withdrawn =>
      refine placed_remove wf.toPlaced (wf.unique.keep _) ?_ rfl
      exact fun node held => (holds_keep.1 held).1
    | ignored => exact placed_same wf.toPlaced rfl rfl
    | turned n node here top named =>
      have valid := wf.nodes node (holds_of_entry here)
      have isDrive : node.isDrive = true := by
        by_contra isFile
        exact valid.file (Bool.eq_false_iff.2 isFile) top
      have same : { node with isDrive := true } = node := by rw [← isDrive]
      rw [same, put_entry here]
      exact placed_same wf.toPlaced rfl rfl
    | made n free =>
      refine placed_add wf.toPlaced rfl ?_ rfl rfl
      refine ⟨le_of_lt wf.started, Nat.lt_succ_self _, ?_, fun _ => rfl, nofun,
        zero_not_mem_cString _, Nat.lt_succ_of_lt wf.started⟩
      exact fun top => absurd top (ne_of_gt wf.started)
  obtain ⟨placed, grows⟩ := kept
  refine ⟨placed, ?_, ?_⟩
  · cases announces <;> exact wf.sendOk
  · have later : ∀ f, fd.inflight.Holds f → after.RenamesFile f :=
      fun f waits => (wf.renames f waits).later grows
    cases announces <;> exact later

theorem step_wellFormed (fd : FuseDrive) (event : Event) (wf : fd.WellFormed) :
    (fd.step event).WellFormed := by
  cases event with
  | request req => exact (dispatch_handled wf.sendOk req).wellFormed wf
  | response rsp => exact handleFsRsp_wellFormed wf rsp
  | device deviceId name added => exact addDevice_wellFormed wf deviceId name added

theorem commonInit_wellFormed (indexOffsets : Bool) : (commonInit indexOffsets).WellFormed := by
  refine ⟨⟨?_, Nat.lt_succ_self _, ?_⟩, rfl, ?_⟩
  · refine (keyUnique_empty Node.nodeid maxNodes).put fun j other there => ?_
    rw [entry_empty] at there
    cases there
  · intro node held
    rcases holds_put held with rfl | before
    · exact ⟨le_rfl, Nat.lt_succ_self _, fun _ => ⟨rfl, rfl, rfl⟩, nofun,
        fun _ => by decide, by decide, Nat.succ_pos _⟩
    · exact absurd before (not_holds_empty _ _)
  · exact fun f waits => absurd waits (not_holds_empty _ _)

theorem run_wellFormed (indexOffsets : Bool) (events : List Event) :
    ((commonInit indexOffsets).run events).WellFormed :=
  Runs.invariant step_wellFormed (commonInit_wellFormed indexOffsets) events

end FuseDrive

end RdpServer.Session
