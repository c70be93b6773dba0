import Mathlib.Data.List.Induction
import RdpServer.Session.Drive.Names

/-!
# Client paths

The client splits a path at its backslashes. `components` are the parts it finds;
for the path of a node they are the names from below the drive down to the node,
if no name has a separator in it (`components_pathOf`). A request that names a
child opens the path of its parent with one more component (`opensOf_addresses`),
and so does the target of a rename (`renameTarget_addresses`).
-/

namespace RdpServer.Session

open List Slots Option

def components (path : Name) : List Name :=
  (path.splitOn backslash).filter fun part => !part.isEmpty

def Plain (name : Name) : Prop := name ≠ [] ∧ backslash ∉ name

instance (name : Name) : Decidable (Plain name) := inferInstanceAs (Decidable (_ ∧ _))

def beneath (above name : Name) : Name :=
  (if above = [backslash] then [] else above) ++ backslash :: name

theorem components_append {above name : Name} (plain : Plain name) :
    components (above ++ backslash :: name) = components above ++ [name] := by
  have isPart : [name].filter (fun part => !part.isEmpty) = [name] := by
    refine filter_eq_self.2 fun part member => ?_
    rw [mem_singleton.1 member, Bool.not_eq_true', isEmpty_eq_false_iff]
    exact plain.1
  rw [components, splitOn_append_cons_self, filter_append, splitOn_eq_singleton plain.2, isPart]
  rfl

theorem components_beneath {above name : Name} (plain : Plain name) :
    components (beneath above name) = components above ++ [name] := by
  unfold beneath
  split_ifs with top
  · rw [components_append plain, top]
    rfl
  · exact components_append plain

theorem pathOf_append {parts : List Name} (full : ∀ part ∈ parts, part ≠ []) (name : Name) :
    pathOf (parts ++ [name]) = beneath (pathOf parts) name := by
  cases parts with
  | nil => simp only [pathOf, beneath, nil_append, flatMap_singleton, if_pos]
  | cons first rest =>
    have long : pathOf (first :: rest) ≠ [backslash] := by
      intro same
      rw [pathOf, flatMap_cons, cons_append, cons.injEq, append_eq_nil_iff] at same
      exact full first mem_cons_self same.2.1
    rw [beneath, if_neg long]
    simp [pathOf]

theorem components_pathOf {parts : List Name} (plain : ∀ part ∈ parts, Plain part) :
    components (pathOf parts) = parts := by
  induction parts using reverseRecOn with
  | nil => rfl
  | append_singleton parts last ih =>
    have before : ∀ part ∈ parts, Plain part := fun part member =>
      plain part (mem_append_left _ member)
    rw [pathOf_append (fun part member => (before part member).1),
      components_beneath (plain last (mem_append_right _ mem_cons_self)), ih before]

theorem length_beneath (above name : Name) :
    (beneath above name).length + (if above = [backslash] then 1 else 0) =
      above.length + 1 + name.length := by
  unfold beneath
  split_ifs with top
  · rw [top, nil_append, length_cons, length_singleton]
    omega
  · rw [length_append, length_cons]
    omega

namespace FuseDrive

variable {fd after last made : FuseDrive} {req : FdRequest} {n p child : NodeRef}
  {node parent : Node} {parts : List Name} {name path : Name}

theorem pathParts_mono {fuel : Nat} (found : fd.pathParts fuel n = some parts) :
    fd.pathParts (fuel + 1) n = some parts := by
  induction fuel generalizing n parts with
  | zero =>
    unfold pathParts at found ⊢
    dsimp only at found ⊢
    split_ifs at found ⊢
    exact found
  | succ fuel ih =>
    unfold pathParts at found ⊢
    dsimp only at found ⊢
    split_ifs at found ⊢
    · exact found
    · cases finds : fd.nodeFind (fd.nodeAt n).parent with
      | none =>
        rw [finds] at found
        cases found
      | some up =>
        rw [finds] at found
        obtain ⟨above, walks, same⟩ := map_eq_some_iff.1 found
        dsimp only
        rw [ih walks, map_some, same]

theorem pathParts_above {fuel : Nat} (here : fd.nodes.entry n = some node) (file : node.IsFile)
    (above : fd.nodeFind node.parent = some p) (found : fd.pathParts fuel n = some parts) :
    ∃ before, fd.pathParts fuel p = some before ∧ parts = before ++ [node.name] := by
  obtain ⟨less, q, before, rfl, finds, walks, same⟩ := pathParts_child here file found
  cases above.symm.trans finds
  exact ⟨before, pathParts_mono walks, same⟩

theorem pathParts_add (free : fd.nodes.free = some child)
    (unborn : ∀ other, fd.nodes.Holds other → other.parent ≠ node.nodeid)
    (puts : after.nodes = fd.nodes.put child node) (fuel : Nat) {m : NodeRef} {other : Node}
    (there : fd.nodes.entry m = some other) :
    after.pathParts fuel m = fd.pathParts fuel m := by
  obtain ⟨inside, isFree⟩ := free_eq_some free
  have stays : ∀ {m other}, fd.nodes.entry m = some other → after.nodeAt m = fd.nodeAt m := by
    intro m other there
    have apart : m ≠ child := by
      rintro rfl
      rw [isFree] at there
      cases there
    rw [nodeAt, nodeAt, puts, entry_put_of_ne apart]
  induction fuel generalizing m other with
  | zero => rw [pathParts, pathParts, stays there]
  | succ fuel ih =>
    have finds : after.nodeFind (fd.nodeAt m).parent = fd.nodeFind (fd.nodeAt m).parent := by
      rw [nodeFind, puts]
      refine find_put ?_
      rw [isFree, nodeAt_of_entry there]
      exact (beq_eq_false_iff_ne.2 (unborn other (holds_of_entry there)).symm).symm
    rw [pathParts, pathParts, stays there, finds]
    cases found : fd.nodeFind (fd.nodeAt m).parent with
    | none => rfl
    | some up =>
      obtain ⟨upper, held, _⟩ := entry_of_nodeFind found
      simp only [ih held]

/-- No name has a separator in it. -/
structure PlainNames (fd : FuseDrive) : Prop where
  wf : fd.WellFormed
  names : ∀ node, fd.nodes.Holds node → node.isDrive = false → node.nodeid ≠ rootId →
    Plain node.name

theorem PlainNames.plain_parts (tidy : fd.PlainNames) {fuel : Nat}
    (here : fd.nodes.entry n = some node) (found : fd.pathParts fuel n = some parts) :
    ∀ part ∈ parts, Plain part := by
  intro part member
  obtain ⟨file, held, isFile, rfl⟩ := pathParts_names here found part member
  exact tidy.names file held isFile.1 isFile.2

/-- A path is that of a child: the path of the parent, one separator and one more
component. -/
def Addresses (fd : FuseDrive) (p : NodeRef) (name path : Name) : Prop :=
  ∃ above, fd.nodePath p pathCap = some above ∧ path = beneath above name ∧
    components path = components above ++ [name]

theorem PlainNames.addresses (tidy : fd.PlainNames) (above : fd.nodes.entry p = some parent)
    (found : fd.pathParts maxNodes p = some parts) (plain : Plain name)
    (fits : (pathOf (parts ++ [name])).length < pathCap) :
    fd.Addresses p name (pathOf (parts ++ [name])) := by
  have full : ∀ part ∈ parts, part ≠ [] := fun part member =>
    (tidy.plain_parts above found part member).1
  rw [pathOf_append full] at fits ⊢
  refine ⟨pathOf parts, nodePath_eq_some.2 ⟨parts, found, rfl, ?_⟩, rfl, components_beneath plain⟩
  have longer := length_beneath (pathOf parts) name
  split_ifs at longer
  · omega
  · omega

def ChildPath (fd : FuseDrive) (req : FdRequest) (path : Name) : Prop :=
  ∃ child made node p, Child fd req child made node ∧ made.nodePath child pathCap = some path ∧
    fd.nodeFind req.nodeid = some p ∧ req.nodeid ≠ rootId

theorem PlainNames.unborn (tidy : fd.PlainNames) (fresh : fd.FreshChild req node) (other : Node)
    (held : fd.nodes.Holds other) : other.parent ≠ node.nodeid := by
  rw [fresh.nodeid]
  exact ne_of_lt (tidy.wf.nodes other held).above

theorem PlainNames.nodePath_child {other : Node} (tidy : fd.PlainNames)
    (isChild : Child fd req child made node) (there : fd.nodes.entry p = some other) (cap : Nat) :
    made.nodePath p cap = fd.nodePath p cap := by
  cases isChild with
  | found => rfl
  | made node free fresh =>
    rw [nodePath, nodePath, pathParts_add free (tidy.unborn fresh) rfl maxNodes there]

theorem PlainNames.childPath (tidy : fd.PlainNames) (plain : Plain req.name)
    (clean : 0 ∉ req.name) (isPath : fd.ChildPath req path) :
    ∃ p, fd.nodeFind req.nodeid = some p ∧ fd.Addresses p req.name path := by
  obtain ⟨child, made, node, p, isChild, walks, found, notTop⟩ := isPath
  obtain ⟨parent, above, self⟩ := entry_of_nodeFind found
  refine ⟨p, found, ?_⟩
  obtain ⟨parts, walk, rfl, fits⟩ := nodePath_eq_some.1 walks
  cases isChild with
  | found node here below named =>
    have file := tidy.wf.isFile (holds_of_entry here)
      (holds_of_entry above) (below.trans self.symm) (self.symm ▸ notTop)
    have finds : fd.nodeFind node.parent = some p := by rw [below, found]
    obtain ⟨before, climbs, rfl⟩ := pathParts_above here file finds walk
    rw [named] at fits ⊢
    exact tidy.addresses above climbs plain fits
  | made node free fresh =>
    have here : (fd.nodes.put child node).entry child = some node :=
      entry_put_self (free_eq_some free).1
    have notRoot : node.nodeid ≠ rootId := by
      rw [fresh.nodeid]
      exact ne_of_gt tidy.wf.started
    have finds : FuseDrive.nodeFind { fd with
        nodes := fd.nodes.put child node, nextNodeid := fd.nextNodeid + 1 } node.parent =
          some p := by
      rw [fresh.parent, ← found]
      refine find_put ?_
      rw [(free_eq_some free).2, fresh.nodeid, ← self]
      have older := (tidy.wf.nodes parent (holds_of_entry above)).below
      exact (beq_eq_false_iff_ne.2 (ne_of_gt older)).symm
    obtain ⟨before, climbs, rfl⟩ := pathParts_above here ⟨fresh.isDrive, notRoot⟩ finds walk
    have named : node.name = req.name := fresh.name.trans (cString_of_clean clean)
    rw [pathParts_add free (tidy.unborn fresh) rfl maxNodes above] at climbs
    rw [named] at fits ⊢
    exact tidy.addresses above climbs plain fits

variable {P : Name → Prop} {failed : FuseDrive → FuseDrive} {f : Inflight}

theorem Sends.inflight {op : FsOp} {slot : Inflight} {sending : Sending}
    (sends : Sends fd n node op slot sending) (otherwise : (failed fd).inflight = fd.inflight)
    (waits : (sending.orElse failed).inflight.Holds f) :
    fd.inflight.Holds f ∨ f = { slot with reqId := fd.nextReqId } := by
  cases sends with
  | refused => exact .inl (otherwise ▸ waits)
  | sent _ _ _ _ _ _ => exact (holds_put waits).symm

theorem Refused.inflight (refused : Refused req fd after) : after.inflight = fd.inflight := by
  cases refused with
  | replied => rfl

theorem startRename_inflight {target : Name} {dst : NodeId} (works : fd.sendOk = true)
    (here : fd.nodes.entry child = some node)
    (waits : (fd.startRename child req target dst).inflight.Holds f)
      (isRename : f.op = .renameTag) :
    fd.inflight.Holds f ∨ f.target = target := by
  have sends := sendOpenFull_sends (sendClose_keeps works here).2.1 (entry_sendClose works here)
  rcases ((sends _ _ _ _ _).tag (fun _ => rfl) rfl).inflight rfl waits with before | same
  · left
    cases held : node.haveOpen with
    | true =>
      rw [sendClose_of_held works here held] at before
      refine (holds_closeInflight before).resolve_right fun isClose => ?_
      exact absurd (isClose.symm.trans isRename) nofun
    | false =>
      rw [sendClose_of_unopened here held] at before
      exact before
  · right
    rw [same]

theorem Below.childPath (below : Below fd req p parent child made node)
    (notTop : req.nodeid ≠ rootId) (walks : made.nodePath child pathCap = some path) :
    fd.ChildPath req path :=
  ⟨child, made, node, p, below.isChild, walks, below.found, notTop⟩

theorem Below.ne_root (below : Below fd req p parent child made node) (placed : fd.Placed)
    (onDrive : parent.deviceId ≠ 0) : req.nodeid ≠ rootId := fun top =>
  onDrive ((placed.nodes parent (holds_of_entry below.above)).root (below.self.trans top)).1

theorem makeChild_opensWith (wf : fd.WellFormed) (isDir : Bool) (opTag : Tag)
    (access : Access) (options : UInt32) :
    OpensWith (fd.ChildPath req) fd (fd.makeChild req isDir opTag access options) := by
  rw [makeChild]
  rcases onChild_cases fd req isDir _ with
    refused | ⟨p, parent, child, made, node, below, onDrive, same⟩
  · exact .of_same refused.sent
  · have isChild := below.isChild
    rw [same]
    refine (OpensWith.of_same isChild.sent).trans
      ((sendOpenFull_sends (isChild.sendOk.trans wf.sendOk) isChild.entry _ _ _ _ _).opensWith
        (fun path => below.childPath (below.ne_root wf.toPlaced onDrive)) ?_)
    split_ifs <;> rfl

/-- The child is closed, and opened again under its path. -/
theorem Below.reopens {slot : Inflight} {sending : Sending}
    (below : Below fd req p parent child made node) (wf : fd.WellFormed)
    (onDrive : parent.deviceId ≠ 0)
    (sends : Sends (made.sendClose child) child node.shut .fsOpen slot sending)
    (otherwise : (failed (made.sendClose child)).sent = (made.sendClose child).sent) :
    OpensWith (fd.ChildPath req) fd (sending.orElse failed) := by
  have works := below.isChild.sendOk.trans wf.sendOk
  exact (OpensWith.of_same below.isChild.sent).trans (reopen_opensWith works below.isChild.entry
    sends (fun path => below.childPath (below.ne_root wf.toPlaced onDrive)) otherwise)

theorem opUnlink_opensWith (wf : fd.WellFormed) :
    OpensWith (fd.ChildPath req) fd (fd.opUnlink req) := by
  rw [opUnlink]
  rcases onChild_cases fd req _ _ with
    refused | ⟨p, parent, child, made, node, below, onDrive, same⟩
  · exact .of_same refused.sent
  · have works := below.isChild.sendOk.trans wf.sendOk
    rw [same]
    exact below.reopens wf onDrive ((sendOpenFull_sends (sendClose_keeps works
      below.isChild.entry).2.1 (entry_sendClose works below.isChild.entry) _ _ _ _ _).tag
      (fun _ => rfl) rfl) rfl

theorem opRename_opensWith (wf : fd.WellFormed) :
    OpensWith (fd.ChildPath req) fd (fd.opRename req) := by
  rcases opRename_cases fd req with refused |
    ⟨p, parent, child, made, node, below, onDrive, q, dst, _, _, _, _, goes⟩
  · exact .of_same refused.sent
  · rcases goes with refused | ⟨target, _, same⟩
    · exact .of_same (refused.sent.trans below.isChild.sent)
    · have works := below.isChild.sendOk.trans wf.sendOk
      rw [same]
      exact below.reopens wf onDrive ((sendOpenFull_sends (sendClose_keeps works
        below.isChild.entry).2.1 (entry_sendClose works below.isChild.entry) _ _ _ _ _).tag
        (fun _ => rfl) rfl) rfl

def FdRequest.namesChild (req : FdRequest) : Bool :=
  match req.op with
  | .opLookup | .opCreate | .opMknod | .opMkdir | .opUnlink | .opRmdir | .opRename => true
  | _ => false

theorem PlainNames.opensOf_addresses {message : FsReq} (tidy : fd.PlainNames)
    (names : FdRequest.namesChild req = true) (plain : Plain req.name) (clean : 0 ∉ req.name)
    (sends : message ∈ fd.opensOf req) :
    ∃ p, fd.nodeFind req.nodeid = some p ∧ fd.Addresses p req.name message.payload := by
  have opens : OpensWith (fd.ChildPath req) fd (fd.dispatch req) := by
    unfold FdRequest.namesChild at names
    unfold dispatch
    cases op : req.op <;> rw [op] at names <;> try cases names
    · exact opLookup_opensWith tidy.wf.sendOk Below.childPath
    · exact makeChild_opensWith tidy.wf _ _ _ _
    · exact makeChild_opensWith tidy.wf _ _ _ _
    · exact makeChild_opensWith tidy.wf _ _ _ _
    · exact opUnlink_opensWith tidy.wf
    · exact opUnlink_opensWith tidy.wf
    · exact opRename_opensWith tidy.wf
  exact tidy.childPath plain clean (opens.of_opensOf sends).2

theorem renameTarget_addresses (plain : Plain name) (found : fd.renameTarget p name = some path) :
    fd.Addresses p name path := by
  unfold renameTarget at found
  cases walks : fd.nodePath p pathCap with
  | none =>
    rw [walks] at found
    cases found
  | some above =>
    rw [walks] at found
    dsimp only at found
    have isChild : path = beneath above name := by
      unfold beneath
      split_ifs at found ⊢ <;> cases found <;> rfl
    exact ⟨above, walks, isChild, isChild ▸ components_beneath plain⟩

theorem PlainNames.opRename_target (tidy : fd.PlainNames) (plain : Plain req.name2)
    (waits : (fd.opRename req).inflight.Holds f) (isRename : f.op = .renameTag) :
    fd.inflight.Holds f ∨
      ∃ q, fd.nodeFind req.newdir = some q ∧ fd.Addresses q req.name2 f.target := by
  rcases opRename_cases fd req with refused |
    ⟨p, parent, child, made, node, below, _, q, dst, found, there, _, _, goes⟩
  · exact .inl (refused.inflight ▸ waits)
  · have isChild := below.isChild
    rcases goes with refused | ⟨path, aims, same⟩
    · exact .inl ((refused.inflight.trans isChild.inflight) ▸ waits)
    · rw [same] at waits
      rcases startRename_inflight (isChild.sendOk.trans tidy.wf.sendOk) isChild.entry waits
        isRename with before | aimsThere
      · exact .inl (isChild.inflight ▸ before)
      · refine .inr ⟨q, found, ?_⟩
        obtain ⟨dir, walks, rest⟩ := renameTarget_addresses plain aims
        rw [tidy.nodePath_child isChild there] at walks
        rw [aimsThere]
        exact ⟨dir, walks, rest⟩

end FuseDrive

end RdpServer.Session
