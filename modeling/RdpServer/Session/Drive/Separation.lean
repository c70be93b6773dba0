import RdpServer.Session.Drive.Drives
import RdpServer.Session.Drive.Paths

/-!
# Names stay below their directory

If no name that the kernel passes has a backslash in it, and no rename ends on the
place of another node, then the path of a name is that of its directory with one
more component (`names_stay_below`), and every place has one node (`one_node_per_place`).
-/

namespace RdpServer.Session

open List Slots

theorem Node.At.isFile {node other : Node} (stays : node.At other) (file : other.IsFile) :
    node.IsFile := by
  unfold Node.IsFile at file
  rw [stays.isDrive, stays.nodeid] at file
  exact file

variable {opened : Option NodeId}

theorem Node.Asked.at {node changed : Node} {req : FdRequest}
    (asked : node.Asked req (some changed) opened) : node.At changed := by
  cases asked with
  | displaced => exact node.at_shut
  | released op self =>
    unfold Node.released
    split_ifs
    · have stays := ({ node with openRefs := node.openRefs - 1 } : Node).at_shut
      exact ⟨stays.nodeid, stays.parent, stays.isDrive, stays.name⟩
    · exact ⟨rfl, rfl, rfl, rfl⟩
  | _ => exact ⟨rfl, rfl, rfl, rfl⟩

theorem Node.Answered.at {node changed : Node} {f : Inflight} {rsp : FsRsp}
    (answered : node.Answered f rsp (some changed) opened) :
    node.At changed ∨ f.op = .renameTag ∧ f.phase ≠ .renameOpen ∧ rsp.status = statusSuccess ∧
      0 < (FuseDrive.leafOf f.target).length ∧ changed.nodeid = node.nodeid ∧
      changed.parent = f.targetParent ∧ changed.name = FuseDrive.leafOf f.target := by
  cases answered with
  | shut => exact .inl node.at_shut
  | moved op ok phase named =>
    exact .inr ⟨op, phase, ok, named, node.shut_nodeid, rfl, rfl⟩
  | _ => exact .inl ⟨rfl, rfl, rfl, rfl⟩

structure Separate (nodes : Slots Node) : Prop where
  names : ∀ node, nodes.Holds node → node.IsFile → Plain node.name
  alone : ∀ i j node other, nodes.entry i = some node → nodes.entry j = some other →
    node.IsFile → other.IsFile → node.parent = other.parent → node.name = other.name → i = j

/-- A directory and a name in it. -/
def Node.place (node : Node) : NodeId × Name := (node.parent, node.name)

/-- Every file has a name that is allowed, and every place has one node at most. -/
structure Apart (allowed : Name → Prop) (nodes : Slots Node) : Prop where
  names : ∀ node, nodes.Holds node → node.IsFile → allowed node.name
  places : KeyUnique Node.place nodes

namespace Apart

variable {allowed : Name → Prop} {nodes : Slots Node} {n : NodeRef} {node changed : Node}
  (apart : Apart allowed nodes)
include apart

theorem put (name : changed.IsFile → allowed changed.name)
    (alone : ∀ j other, nodes.entry j = some other → j ≠ n → other.place ≠ changed.place) :
    Apart allowed (nodes.put n changed) := by
  refine ⟨?_, apart.places.put alone⟩
  intro other held file
  rcases holds_put held with rfl | before
  · exact name file
  · exact apart.names other before file

theorem put_at (here : nodes.entry n = some node) (stays : node.At changed) :
    Apart allowed (nodes.put n changed) := by
  refine apart.put ?_ ?_
  · intro file
    rw [stays.name]
    exact apart.names node (holds_of_entry here) (stays.isFile file)
  · intro j other there otherSlot same
    exact otherSlot (apart.places j n other node there here
      (same.trans (Prod.ext stays.parent stays.name)))

theorem clear (n : NodeRef) : Apart allowed (nodes.clear n) :=
  ⟨fun node held => apart.names node (holds_clear held), apart.places.clear n⟩

theorem keep (kept : Node → Bool) : Apart allowed (nodes.keep kept) :=
  ⟨fun node held => apart.names node (holds_keep.1 held).1, apart.places.keep kept⟩

end Apart

namespace FuseDrive

variable {fd after : FuseDrive} {req : FdRequest} {rsp : FsRsp} {f : Inflight} {n p q top : NodeRef}
  {node : Node} {parts : List Name} {name other path : Name}

theorem leafOf_plain {target : Name} (named : 0 < (leafOf target).length) :
    Plain (leafOf target) := by
  refine ⟨length_pos_iff.1 named, ?_⟩
  intro member
  have inside := mem_reverse.1 ((takeWhile_sublist _).subset member)
  have kept := all_eq_true.1 all_takeWhile _ inside
  exact bne_iff_ne.1 kept rfl

theorem FreshChild.plain (fresh : fd.FreshChild req node) (clean : 0 ∉ req.name)
    (flat : backslash ∉ req.name) : Plain node.name := by
  rw [fresh.name, cString_of_clean clean]
  refine ⟨?_, flat⟩
  rintro isEmpty
  have valid := fresh.valid
  rw [isEmpty] at valid
  cases valid

variable {allowed : Name → Prop}

theorem Treats.apart {nodes : Slots Node} (treats : Treats fd req nodes opened)
    (apart : Apart allowed fd.nodes) (clean : 0 ∉ req.name) (name : ∀ node, fd.FreshChild req node →
      allowed node.name) :
    Apart allowed nodes := by
  cases treats with
  | kept => exact apart
  | changed here asked => exact apart.put_at here asked.at
  | freed here asked => exact apart.clear _
  | @made n node free fresh =>
    refine apart.put (fun _ => name node fresh) fun j other there _ same => ?_
    obtain ⟨parent, named⟩ := Prod.mk.inj same
    rw [fresh.name, cString_of_clean clean] at named
    exact fresh.alone other (holds_of_entry there) (parent.trans fresh.parent) named

def EndsApart (fd : FuseDrive) (f : Inflight) (rsp : FsRsp) : Prop :=
  f.op = .renameTag → f.phase ≠ .renameOpen → rsp.status = statusSuccess →
    ∀ other, fd.nodes.Holds other → other.parent = f.targetParent →
      other.name = leafOf f.target → other.nodeid = f.nodeid

instance (fd : FuseDrive) (f : Inflight) (rsp : FsRsp) : Decidable (fd.EndsApart f rsp) :=
  inferInstanceAs (Decidable (_ → _))

theorem Finishes.apart {nodes : Slots Node} (finishes : Finishes fd f rsp nodes opened)
    (apart : Apart allowed fd.nodes) (placed : fd.Placed) (ends : fd.EndsApart f rsp)
    (leaf : ∀ target, 0 < (leafOf target).length → allowed (leafOf target)) :
    Apart allowed nodes := by
  cases finishes with
  | kept => exact apart
  | @changed n node changed opened here self answered =>
    rcases answered.at with stays | ⟨op, phase, ok, named, _, parent, name⟩
    · exact apart.put_at here stays
    · refine apart.put (fun _ => name.symm ▸ leaf _ named) fun j other there otherSlot same => ?_
      obtain ⟨sameParent, sameName⟩ := Prod.mk.inj same
      have one := ends op phase ok other (holds_of_entry there) (sameParent.trans parent)
        (sameName.trans name)
      exact otherSlot (placed.unique j n other node there here (one.trans self.symm))
  | freed here self answered => exact apart.clear _

theorem nextNodeid_addDevice {deviceId : DeviceId}
    (known : fd.childFind rootId (driveName deviceId name) = some n) :
    (fd.addDevice deviceId name true).nextNodeid = fd.nextNodeid := by
  obtain ⟨node, here, _⟩ := entry_of_childFind known
  unfold addDevice childMake
  dsimp only
  rw [known]
  split_ifs
  · rfl
  · rfl
  · rfl
  · dsimp only
    rw [updateNode_of_entry here]

theorem addDevice_apart (apart : Apart allowed fd.nodes) (deviceId : DeviceId) (name : Name)
    (added : Bool) :
    Apart allowed (fd.addDevice deviceId name added).nodes := by
  have announces := fd.addDevice_announces deviceId name added
  generalize announced : fd.addDevice deviceId name added = after at announces
  cases announces with
  | withdrawn => exact apart.keep _
  | ignored => exact apart
  | turned n node here =>
    refine apart.put (fun file => absurd file.1 nofun) ?_
    exact fun j other there otherSlot same =>
      otherSlot (apart.places j n other node there here same)
  | made n free =>
    refine apart.put (fun file => absurd file.1 nofun) fun j other there _ same => ?_
    obtain ⟨top, named⟩ := Prod.mk.inj same
    cases known : fd.childFind rootId (driveName deviceId name) with
    | some n =>
      have grown := (nextNodeid_addDevice known).symm.trans (congrArg nextNodeid announced)
      exact absurd grown (Nat.succ_ne_self _).symm
    | none =>
      exact Drive.absent (d := (deviceId, name)) known (holds_of_entry there) top
        (named.trans (Drive.cString_name (deviceId, name)))

def FromKernel : Event → Prop
  | .request req => 0 ∉ req.name ∧ 0 ∉ req.name2
  | _ => True

/-- No name has a separator in it, and no rename ends on the place of another node. -/
def KeepsApart (fd : FuseDrive) : Event → Prop
  | .request req => backslash ∉ req.name ∧ backslash ∉ req.name2
  | .response rsp => ∀ slot f, fd.inflightFind rsp.reqId = some (slot, f) → fd.EndsApart f rsp
  | .device _ _ _ => True

structure Tidy (fd : FuseDrive) : Prop where
  wf : fd.WellFormed
  separate : Separate fd.nodes

/-- No granted rename ends on the place of another node. -/
def RenamesApart (fd : FuseDrive) : Event → Prop
  | .response rsp => ∀ slot f, fd.inflightFind rsp.reqId = some (slot, f) → fd.EndsApart f rsp
  | _ => True

theorem commonInit_apart (indexOffsets : Bool) : Apart allowed (commonInit indexOffsets).nodes := by
  refine ⟨fun node held file => ?_, (keyUnique_empty _ _).put fun j other there => ?_⟩
  · rcases holds_put held with rfl | before
    · exact absurd rfl file.2
    · exact absurd before (not_holds_empty _ _)
  · rw [entry_empty] at there
    cases there

theorem run_apart {indexOffsets : Bool} {events : List Event} {meets : FuseDrive → Event → Prop}
    (clean : ∀ fd req, meets fd (.request req) → 0 ∉ req.name)
    (name : ∀ fd req node, meets fd (.request req) → FreshChild fd req node → allowed node.name)
    (leaf : ∀ target, 0 < (leafOf target).length → allowed (leafOf target))
    (ends : ∀ fd rsp, meets fd (.response rsp) → fd.RenamesApart (.response rsp))
    (along : Runs.Along step meets (commonInit indexOffsets) events) :
    ((commonInit indexOffsets).run events).WellFormed ∧
      Apart allowed ((commonInit indexOffsets).run events).nodes := by
  refine along.invariant (P := fun fd => fd.WellFormed ∧ Apart allowed fd.nodes)
    (fun fd event met both => ⟨step_wellFormed fd event both.1, ?_⟩)
    ⟨commonInit_wellFormed indexOffsets, commonInit_apart indexOffsets⟩
  obtain ⟨wf, apart⟩ := both
  cases event with
  | request req =>
    obtain ⟨opened, treats, _⟩ := dispatch_treated wf.sendOk req
    exact treats.apart apart (clean fd req met) fun node => name fd req node met
  | response rsp =>
    rcases handleFsRsp_finished wf.sendOk rsp with quiet | ⟨slot, f, found, finished⟩
    · have same : (fd.step (.response rsp)).nodes = fd.nodes := quiet.nodes
      rw [same]
      exact apart
    · obtain ⟨opened, finishes, _⟩ := finished
      exact finishes.apart apart wf.toPlaced (ends fd rsp met slot f found) leaf
  | device deviceId name added => exact addDevice_apart apart deviceId name added

/-- **One node for each place.** In every run in which no granted rename ends on the place
of another node, no two nodes have the same parent and the same name. -/
theorem one_node_per_place (indexOffsets : Bool) (events : List Event)
    (apart : Runs.Along step (fun fd event => FromKernel event ∧ fd.RenamesApart event)
      (commonInit indexOffsets) events) :
    KeyUnique (fun node => (node.parent, node.name))
      ((commonInit indexOffsets).run events).nodes :=
  (@run_apart (fun _ => True) _ _ _ (fun _ _ met => met.1.1) (fun _ _ _ _ _ => True.intro)
    (fun _ _ => True.intro) (fun _ _ met => met.2) apart).2.places

/-- `a` is looked up and renamed to `b`, which nothing else is called. -/
def renameToFree : List Event :=
  [.device 1 [0x43, 0x3A] true, .request (lookupOf [0x61]),
    .request { lookupOf [0x61] with op := .opRename, name2 := [0x62], newdir := 2 },
    .response { reqId := 2, status := 0 }, .response { reqId := 3, status := 0 }]

theorem one_node_per_place_renamed :
    ((commonInit true).run renameToFree).nodes.entries.map Node.name =
        [[], [0x43, 0x3A], [0x62]] ∧
      KeyUnique (fun node => (node.parent, node.name)) ((commonInit true).run renameToFree).nodes :=
  ⟨by decide +kernel, one_node_per_place true _ ⟨⟨True.intro, True.intro⟩,
    ⟨⟨by decide, by decide⟩, True.intro⟩, ⟨⟨by decide, by decide⟩, True.intro⟩,
    ⟨True.intro, by unfold RenamesApart; decide +kernel⟩,
    ⟨True.intro, by unfold RenamesApart; decide +kernel⟩, True.intro⟩⟩

/-- A rename of `a` to `b`, which is in the table: both nodes are then `b`. -/
theorem renamed_onto_known :
    ((commonInit true).run [.device 1 [0x43, 0x3A] true, .request (lookupOf [0x62]),
      .request { lookupOf [0x61] with op := .opRename, name2 := [0x62], newdir := 2 },
      .response { reqId := 2, status := 0 },
      .response { reqId := 3, status := 0 }]).nodes.entries.map
        (fun node => (node.nodeid, node.parent, node.name)) =
      [(1, 0, []), (2, 1, [0x43, 0x3A]), (3, 2, [0x62]), (4, 2, [0x62])] := by
  decide +kernel

theorem Tidy.plainNames (tidy : fd.Tidy) : fd.PlainNames :=
  ⟨tidy.wf, fun node held isFile notRoot => tidy.separate.names node held ⟨isFile, notRoot⟩⟩

def driveOf (fd : FuseDrive) : Nat → NodeRef → Option NodeRef
  | fuel, n =>
    if (fd.nodeAt n).isDrive then some n
    else match fuel with
      | 0 => none
      | fuel + 1 => (fd.nodeFind (fd.nodeAt n).parent).bind (driveOf fd fuel)

theorem Tidy.top_of_nil (tidy : fd.Tidy) {fuel : Nat} (here : fd.nodes.entry n = some node)
    (walks : fd.pathParts fuel n = some []) (under : fd.driveOf fuel n = some top) : n = top := by
  cases isDrive : node.isDrive with
  | true =>
    unfold driveOf at under
    rw [nodeAt_of_entry here, if_pos isDrive] at under
    exact Option.some.inj under
  | false =>
    have held := holds_of_entry here
    by_cases isRoot : node.nodeid = rootId
    · unfold driveOf at under
      rw [nodeAt_of_entry here, isDrive] at under
      cases fuel with
      | zero => cases under
      | succ fuel =>
        obtain ⟨up, found, _⟩ := Option.bind_eq_some_iff.1 under
        obtain ⟨upper, above, self⟩ := entry_of_nodeFind found
        have positive := (tidy.wf.nodes upper (holds_of_entry above)).positive
        rw [self, ((tidy.wf.nodes node held).root isRoot).2.2] at positive
        exact absurd positive (by decide)
    · obtain ⟨_, _, _, _, _, _, same⟩ := pathParts_child here ⟨isDrive, isRoot⟩ walks
      exact absurd same.symm (append_ne_nil_of_right_ne_nil _ (cons_ne_nil _ _))

theorem walk_cases {fuel : Nat} (here : fd.nodes.entry n = some node)
    (walks : fd.pathParts fuel n = some parts) (under : fd.driveOf fuel n = some top) :
    parts = [] ∨ node.IsFile ∧ ∃ less up before, fuel = less + 1 ∧
      fd.nodeFind node.parent = some up ∧ fd.pathParts less up = some before ∧
      fd.driveOf less up = some top ∧ parts = before ++ [node.name] := by
  rcases pathParts_cases here walks with ⟨_, same⟩ | ⟨file, less, up, before, rfl, found, rest⟩
  · exact .inl same
  · unfold driveOf at under
    rw [nodeAt_of_entry here, file.1, found] at under
    exact .inr ⟨file, less, up, before, rfl, found, rest.1, under, rest.2⟩

theorem Tidy.eq_of_parts (tidy : fd.Tidy) {fuel : Nat} {first second : Node}
    (here : fd.nodes.entry p = some first) (there : fd.nodes.entry q = some second)
    (walks : fd.pathParts fuel p = some parts) (alsoWalks : fd.pathParts fuel q = some parts)
    (under : fd.driveOf fuel p = some top) (alsoUnder : fd.driveOf fuel q = some top) :
    p = q := by
  induction fuel using Nat.strong_induction_on generalizing p q first second parts with
  | _ fuel ih =>
    rcases walk_cases here walks under with rfl | ⟨file, less, up, before, rfl, found, climbs,
      goesOn, ends⟩
    · exact (tidy.top_of_nil here walks under).trans
        (tidy.top_of_nil there alsoWalks alsoUnder).symm
    · rcases walk_cases there alsoWalks alsoUnder with rfl | ⟨alsoFile, also, alsoUp, alsoBefore,
        same, alsoFound, alsoClimbs, alsoGoesOn, alsoEnds⟩
      · exact absurd ends.symm (append_ne_nil_of_right_ne_nil _ (cons_ne_nil _ _))
      · cases same
        obtain ⟨rfl, named⟩ := append_inj' (ends.symm.trans alsoEnds) rfl
        obtain ⟨upper, above, self⟩ := entry_of_nodeFind found
        obtain ⟨alsoUpper, alsoAbove, alsoSelf⟩ := entry_of_nodeFind alsoFound
        have one := ih less (Nat.lt_succ_self _) above alsoAbove climbs alsoClimbs goesOn alsoGoesOn
        subst one
        rw [above] at alsoAbove
        cases alsoAbove
        exact tidy.separate.alone p q first second here there file alsoFile
          (self.symm.trans alsoSelf) (singleton_inj.1 named)

theorem Tidy.distinct (tidy : fd.Tidy) {first second : Node}
    (here : fd.nodes.entry p = some first) (there : fd.nodes.entry q = some second)
    (under : fd.driveOf maxNodes p = some top) (alsoUnder : fd.driveOf maxNodes q = some top)
    (addresses : fd.Addresses p name path) (alsoAddresses : fd.Addresses q other path) :
    p = q ∧ name = other := by
  obtain ⟨above, walks, _, parts⟩ := addresses
  obtain ⟨alsoAbove, alsoWalks, _, alsoParts⟩ := alsoAddresses
  obtain ⟨before, found, rfl, _⟩ := nodePath_eq_some.1 walks
  obtain ⟨alsoBefore, alsoFound, rfl, _⟩ := nodePath_eq_some.1 alsoWalks
  obtain ⟨same, named⟩ := append_inj' (parts.symm.trans alsoParts) rfl
  rw [components_pathOf (tidy.plainNames.plain_parts here found),
    components_pathOf (tidy.plainNames.plain_parts there alsoFound)] at same
  subst same
  exact ⟨tidy.eq_of_parts here there found alsoFound under alsoUnder, singleton_inj.1 named⟩

structure KernelName (name : Name) : Prop where
  named : name ≠ []
  clean : 0 ∉ name
  flat : 0x2F ∉ name
  notSelf : name ≠ [0x2E]
  notUp : name ≠ [0x2E, 0x2E]

structure Confined (fd : FuseDrive) : Prop where
  opens : ∀ req message, FdRequest.namesChild req = true → KernelName req.name →
    backslash ∉ req.name → message ∈ fd.opensOf req →
    ∃ p, fd.nodeFind req.nodeid = some p ∧ fd.Addresses p req.name message.payload
  renames : ∀ req f, req.op = .opRename → KernelName req.name2 → backslash ∉ req.name2 →
    (fd.dispatch req).inflight.Holds f → f.op = .renameTag → fd.inflight.Holds f ∨
    ∃ q, fd.nodeFind req.newdir = some q ∧ fd.Addresses q req.name2 f.target
  distinct : ∀ p q first second top name other path, fd.nodes.entry p = some first →
    fd.nodes.entry q = some second → fd.driveOf maxNodes p = some top →
    fd.driveOf maxNodes q = some top → fd.Addresses p name path → fd.Addresses q other path →
    p = q ∧ name = other

/-- **Names stay below their directory.** In every run in which no name has a
backslash and no rename ends on the place of another node, each name without a
backslash that the kernel then passes is opened, created, deleted or renamed to
under the path of its directory with one more component, and different names of a
drive have different paths. -/
theorem names_stay_below (indexOffsets : Bool) (events : List Event)
    (apart : Runs.Along step (fun fd event => FromKernel event ∧ fd.KeepsApart event)
      (commonInit indexOffsets) events) :
    ((commonInit indexOffsets).run events).Confined := by
  have holds := run_apart (fun _ _ met => met.1.1)
    (fun _ _ _ met fresh => fresh.plain met.1.1 met.2.1) (fun _ => leafOf_plain)
    (fun _ _ met => met.2) apart
  have tidy : ((commonInit indexOffsets).run events).Tidy := by
    refine ⟨holds.1, holds.2.names, fun i j node other first second _ _ parent name => ?_⟩
    exact holds.2.places i j node other first second (Prod.ext parent name)
  refine ⟨?_, ?_, ?_⟩
  · intro req message names kernel flat sends
    exact tidy.plainNames.opensOf_addresses names ⟨kernel.named, flat⟩ kernel.clean sends
  · intro req f op kernel flat waits isRename
    rw [dispatch, op] at waits
    exact tidy.plainNames.opRename_target ⟨kernel.named, flat⟩ waits isRename
  · intro p q first second top name other path here there under alsoUnder addresses
    exact tidy.distinct here there under alsoUnder addresses

theorem names_stay_below_renamed : ((commonInit true).run renameToFree).Confined :=
  names_stay_below true renameToFree ⟨⟨True.intro, True.intro⟩,
    ⟨⟨by decide, by decide⟩, by decide, by decide⟩, ⟨⟨by decide, by decide⟩, by decide, by decide⟩,
    ⟨True.intro, by unfold KeepsApart; decide +kernel⟩,
    ⟨True.intro, by unfold KeepsApart; decide +kernel⟩, True.intro⟩

set_option maxRecDepth 4000 in
/-- A name with a backslash leaves its directory: the client is asked for what lies
beside the drive's root, and that is no path of a name below any node. -/
theorem backslash_leaves_directory :
    KernelName [0x2E, 0x2E, 0x5C, 0x78] ∧
    (((commonInit true).run [.device 1 [0x43, 0x3A] true]).opensOf
        (lookupOf [0x2E, 0x2E, 0x5C, 0x78])).map (fun message => components message.payload) =
      [[[0x2E, 0x2E], [0x78]]] ∧
    ∀ fd p path, components path = [[0x2E, 0x2E], [0x78]] →
      ¬ Addresses fd p [0x2E, 0x2E, 0x5C, 0x78] path := by
  refine ⟨⟨?_, ?_, ?_, ?_, ?_⟩, ?_, ?_⟩
  · decide
  · decide
  · decide
  · decide
  · decide
  · decide
  · rintro fd p path found ⟨above, _, _, ends⟩
    have last := congrArg getLast? (found.symm.trans ends)
    rw [getLast?_concat] at last
    exact absurd last (by decide)

end FuseDrive

end RdpServer.Session
