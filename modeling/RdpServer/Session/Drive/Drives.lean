import Mathlib.Data.List.Nodup
import Mathlib.Data.Nat.Digits.Defs
import RdpServer.Session.Drive.Dirents

/-!
# Drives below the mount root

What the announcements of a client make of the mount root. As long as the node table has
room, every drive has a directory of its own, and the requests for it go to the drive, if the
names made of the labels differ, none is `.` or `..` and no device has the id 0
(`own_directories`). Of two drives with one label the second has no directory, and on a
device 0 nothing can be made or deleted.
-/

namespace RdpServer.Session.FuseDrive

open Bytes List Slots

/-- A device with the label that it is announced with. -/
abbrev Drive := DeviceId × Name

def Drive.name (d : Drive) : Name := driveName d.1 d.2

def Drive.announced (d : Drive) : Event := .device d.1 d.2 true

variable {fd : FuseDrive} {d : Drive} {drives more : List Drive}

theorem ne_of_mem_decimal {value : Nat} {octet : UInt8} (member : octet ∈ decimal value) :
    octet ≠ 0x2F ∧ octet ≠ 0 := by
  obtain ⟨digit, shown, rfl⟩ := List.mem_map.1 member
  rw [Nat.toString_eq_ofList_toDigits, String.toList_ofList] at shown
  have isDigit := Nat.isDigit_of_mem_toDigits (by decide) (by decide) shown
  have range : 48 ≤ digit.toNat ∧ digit.toNat ≤ 57 := by
    simpa [Char.isDigit, UInt32.le_iff_toNat_le] using isDigit
  rw [Ne, Ne, ← UInt8.toNat_inj, ← UInt8.toNat_inj]
  simp
  omega

theorem length_decimal (id : DeviceId) : (decimal id.toNat).length ≤ 10 := by
  rw [decimal, length_map, Nat.toString_eq_ofList_toDigits, String.toList_ofList]
  exact Nat.toDigits_length 10 _ 10 (by decide) (lt_trans id.toNat_lt (by decide))

/-- A component, or one of the two names that every directory has. -/
structure Labels (name : Name) : Prop where
  nonempty : name ≠ []
  short : name.length ≤ nameMax
  clean : ∀ octet ∈ name, octet ≠ 0x2F ∧ octet ≠ 0

theorem Drive.labels (d : Drive) : Labels d.name := by
  unfold name driveName
  dsimp only
  split_ifs with empty
  · refine ⟨cons_ne_nil _ _, ?_, ?_⟩
    · have digits := length_decimal d.1
      simp only [length_append, length_cons, length_nil, nameMax]
      omega
    · rw [forall_mem_append]
      exact ⟨by simp, fun _ => ne_of_mem_decimal⟩
  · generalize mapped : List.map _ (takeWhile (· != 0) (d.2.take 8)) = label at empty ⊢
    have kept : (label.reverse.dropWhile fun c => c == 0x20 || c == 0x09).reverse <+ label := by
      simpa using (dropWhile_sublist (l := label.reverse) _).reverse
    refine ⟨mt isEmpty_iff.2 empty, kept.length_le.trans ?_, fun octet member => ?_⟩
    · rw [← mapped, length_map]
      exact (takeWhile_sublist _).length_le.trans ((length_take_le 8 _).trans (by decide))
    · have given := kept.mem member
      rw [← mapped] at given
      obtain ⟨c, read, rfl⟩ := List.mem_map.1 given
      split_ifs with separator
      · decide
      · exact ⟨(separator <| .inl ·), bne_iff_ne.1 (mem_takeWhile_imp (p := (· != 0)) read)⟩

theorem Drive.cString_name (d : Drive) : cString d.name = d.name :=
  cString_of_clean fun zero => (d.labels.clean 0 zero).2 rfl

theorem Drive.absent {node : Node} (missing : fd.childFind rootId d.name = none)
    (held : fd.nodes.Holds node) (top : node.parent = rootId) : node.name ≠ d.name := by
  intro named
  rw [childFind, if_neg (Nat.not_lt.2 d.labels.short)] at missing
  have missed := find_eq_none missing held
  simp [top, named] at missed

/-- All that was sent between two states is a message to open something on a device. -/
def Opens (fd after : FuseDrive) (id : DeviceId) : Prop :=
  ∃ message, after.sent = fd.sent ++ [message] ∧ message.req.op = .fsOpen ∧
    message.req.deviceId = id

/-- A request for a directory that only the client can carry out: OPENDIR, or an operation
on valid names in it. -/
def Asks (req : FdRequest) (dir : NodeId) : Prop :=
  req.nodeid = dir ∧ (req.op = .opOpendir ∨ validName req.name = true ∧
    (req.op ∈ [.opLookup, .opCreate, .opMknod, .opMkdir, .opUnlink, .opRmdir] ∨
      req.op = .opRename ∧ validName req.name2 = true ∧ req.newdir = dir))

def withChild (fd : FuseDrive) (c : NodeRef) (node : Node) : FuseDrive :=
  { fd with nodes := fd.nodes.put c node, nextNodeid := fd.nextNodeid + 1 }

/-- The directory of a drive below which there is no node, with a free node and a free slot
for a message. -/
structure Ready (fd : FuseDrive) (p : NodeRef) (dir : Node) (c : NodeRef) (f : SlotRef) : Prop where
  wf : fd.WellFormed
  here : fd.nodes.entry p = some dir
  isDrive : dir.isDrive = true
  isDir : dir.isDir = true
  unopened : dir.haveOpen = false
  onDrive : dir.deviceId ≠ 0
  childless : ∀ other, fd.nodes.Holds other → other.parent ≠ dir.nodeid
  room : fd.nodes.free = some c
  free : fd.inflight.free = some f

variable {fd made : FuseDrive} {n p c : NodeRef} {f : SlotRef} {dir node : Node} {path : Name}
  {sending : Sending} {id : DeviceId} {req : FdRequest}

theorem nodeFind_of_entry (placed : fd.Placed) (here : fd.nodes.entry p = some dir) :
    fd.nodeFind dir.nodeid = some p := by
  cases found : fd.nodeFind dir.nodeid with
  | none => exact absurd (find_eq_none found (holds_of_entry here)) (by simp)
  | some q =>
    obtain ⟨other, there, same⟩ := entry_of_nodeFind found
    rw [placed.unique q p other dir there here same]

/-- A message to open something went out. -/
def SendsOpen (fd : FuseDrive) (sending : Sending) (id : DeviceId) : Prop :=
  sending.slot ≠ none ∧ Opens fd sending.drive id

theorem SendsOpen.tag (sends : SendsOpen fd sending id) (change : Inflight → Inflight) :
    SendsOpen fd (sending.tag change) id := by
  obtain ⟨waits, opens⟩ := sends
  obtain ⟨slot, isSlot⟩ := Option.ne_none_iff_exists'.1 waits
  have same : (sending.drive.updateSlot slot change).sent = sending.drive.sent := by
    unfold updateSlot
    split <;> rfl
  rw [Sending.tag, isSlot]
  refine ⟨Option.some_ne_none slot, ?_⟩
  rw [Opens, same]
  exact opens

theorem SendsOpen.orElse (sends : SendsOpen fd sending id) (failed : FuseDrive → FuseDrive) :
    Opens fd (sending.orElse failed) id := by
  obtain ⟨slot, isSlot⟩ := Option.ne_none_iff_exists'.1 sends.1
  rw [Sending.orElse, isSlot]
  exact sends.2

theorem sendOpenFull_sendsOpen (works : fd.sendOk = true) (here : fd.nodes.entry n = some node)
    (leads : fd.nodePath n pathCap = some path) (free : fd.inflight.free = some f)
    (unique : Unique) (opTag : Tag) (access : Access) (disposition : Disposition)
    (options : UInt32) :
    SendsOpen fd (fd.sendOpenFull n unique opTag access disposition options) node.deviceId := by
  rw [sendOpenFull, leads, nodeAt_of_entry here]
  dsimp only
  rw [issue_eq works, free]
  exact ⟨nofun, _, rfl, rfl, rfl⟩

namespace Ready

variable (ready : Ready fd p dir c f)
include ready

theorem found : fd.nodeFind dir.nodeid = some p := nodeFind_of_entry ready.wf.toPlaced ready.here

theorem ne_root : dir.nodeid ≠ rootId := fun top => by
  have noDrive := ((ready.wf.nodes dir (holds_of_entry ready.here)).root top).2.1
  rw [ready.isDrive] at noDrive
  cases noDrive

theorem pathParts_self (same : made.nodeAt p = dir) (fuel : Nat) :
    made.pathParts fuel p = some [] := by
  rw [pathParts.eq_def]
  dsimp only
  rw [same, if_pos (.inl ready.isDrive)]

theorem nodePath_self (same : made.nodeAt p = dir) : made.nodePath p pathCap = some [backslash] :=
  nodePath_eq_some.2 ⟨[], ready.pathParts_self same _, rfl, by decide⟩

theorem nodeAt_self : (fd.withChild c node).nodeAt p = dir := by
  have apart : p ≠ c := by
    rintro rfl
    exact absurd (ready.here.symm.trans (free_eq_some ready.room).2) nofun
  rw [nodeAt, withChild, entry_put_of_ne apart, ready.here]
  rfl

theorem entry_child : (fd.withChild c node).nodes.entry c = some node :=
  entry_put_self (free_eq_some ready.room).1

variable (self : req.nodeid = dir.nodeid)
include self

/-- A new child of the directory is opened on the device of the drive. -/
theorem child_opens (fresh : fd.FreshChild req node) (unique : Unique) (opTag : Tag)
    (access : Access) (disposition : Disposition) (options : UInt32) :
    SendsOpen fd ((fd.withChild c node).sendOpenFull c unique opTag access disposition options)
      dir.deviceId := by
  have held := holds_of_entry ready.here
  have device : node.deviceId = dir.deviceId := by
    obtain ⟨parent, alsoHeld, same, device⟩ := fresh.above
    rw [← device, ready.wf.node_eq alsoHeld held (same.trans self)]
  have above : (fd.withChild c node).nodeFind node.parent = some p := by
    rw [fresh.parent, self, ← ready.found]
    refine find_put ?_
    rw [(free_eq_some ready.room).2, fresh.nodeid]
    exact (beq_eq_false_iff_ne.2 (ne_of_gt (ready.wf.nodes dir held).below)).symm
  have walks : (fd.withChild c node).pathParts maxNodes c = some [node.name] := by
    have isFile : ¬ (node.isDrive = true ∨ node.nodeid = rootId) := by
      rw [fresh.isDrive, fresh.nodeid]
      exact not_or.2 ⟨Bool.false_ne_true, ne_of_gt ready.wf.started⟩
    rw [maxNodes, pathParts, nodeAt_of_entry ready.entry_child, if_neg isFile, above]
    dsimp only
    rw [ready.pathParts_self ready.nodeAt_self]
    rfl
  have leads : (fd.withChild c node).nodePath c pathCap = some (backslash :: node.name) := by
    refine nodePath_eq_some.2 ⟨_, walks, by simp [pathOf], ?_⟩
    have short : req.name.length ≤ 255 := of_decide_eq_true (Bool.and_eq_true_iff.1 fresh.valid).2
    have cut : node.name.length ≤ req.name.length := by
      rw [fresh.name]
      exact (takeWhile_sublist _).length_le
    rw [length_cons, pathCap]
    omega
  rw [← device]
  have works : (fd.withChild c node).sendOk = true := ready.wf.sendOk
  exact sendOpenFull_sendsOpen works ready.entry_child leads ready.free unique opTag access
    disposition options

theorem opens_opendir : Opens fd (fd.opOpendir req) dir.deviceId := by
  have same := nodeAt_of_entry ready.here
  rw [opOpendir, self, ready.found]
  simp only [same, ready.isDir, ready.unopened, if_neg ready.ne_root]
  exact (sendOpenFull_sendsOpen ready.wf.sendOk ready.here (ready.nodePath_self same) ready.free
    ..).orElse _

variable (valid : validName req.name = true)
include valid

theorem childMake_eq (isDir : Bool) : ∃ node, fd.FreshChild req node ∧
    fd.childMake dir.nodeid req.name dir.deviceId isDir = some (c, fd.withChild c node) := by
  have found := ready.found
  rw [← self] at found
  refine childMake_rule found ready.here self.symm (by rw [valid]; nofun) (.inl ready.ne_root) isDir
    (fun full => absurd (full.symm.trans ready.room) nofun) fun child made node below => ?_
  cases below.isChild with
  | found node here under _ =>
    exact absurd (under.trans self) (ready.childless node (holds_of_entry here))
  | made node isFree fresh =>
    cases isFree.symm.trans ready.room
    exact ⟨node, fresh, rfl⟩

theorem onChild_eq (isDir : Bool) (next : NodeRef → FuseDrive → FuseDrive) :
    ∃ node, fd.FreshChild req node ∧ fd.onChild req isDir next = next c (fd.withChild c node) := by
  obtain ⟨node, fresh, makes⟩ := ready.childMake_eq self valid isDir
  refine ⟨node, fresh, ?_⟩
  rw [onChild, self, ready.found]
  simp [nodeAt_of_entry ready.here, ready.isDir, ready.onDrive, valid, makes]

theorem opens_makeChild (isDir : Bool) (opTag : Tag) (access : Access) (options : UInt32) :
    Opens fd (fd.makeChild req isDir opTag access options) dir.deviceId := by
  rw [makeChild]
  obtain ⟨node, fresh, same⟩ := ready.onChild_eq self valid isDir _
  rw [same]
  exact (ready.child_opens self fresh ..).orElse _

theorem opens_unlink : Opens fd (fd.opUnlink req) dir.deviceId := by
  rw [opUnlink]
  obtain ⟨node, fresh, same⟩ := ready.onChild_eq self valid _ _
  rw [same, sendClose_of_unopened ready.entry_child fresh.unopened]
  exact ((ready.child_opens self fresh ..).tag _).orElse _

theorem opens_rename (alsoValid : validName req.name2 = true) (stays : req.newdir = dir.nodeid) :
    Opens fd (fd.opRename req) dir.deviceId := by
  obtain ⟨node, fresh, makes⟩ := ready.childMake_eq self valid false
  have target : (fd.withChild c node).renameTarget p req.name2 = some (backslash :: req.name2) := by
    have short : req.name2.length ≤ 255 := of_decide_eq_true (Bool.and_eq_true_iff.1 alsoValid).2
    rw [renameTarget, ready.nodePath_self ready.nodeAt_self]
    simp only [↓reduceIte, length_nil, pathCap]
    exact if_neg (by omega)
  rw [opRename, self, stays, ready.found]
  simp only [nodeAt_of_entry ready.here, ready.isDir, ready.onDrive, valid, alsoValid, makes,
    target, ne_eq]
  rw [startRename, sendClose_of_unopened ready.entry_child fresh.unopened]
  exact ((ready.child_opens self fresh ..).tag _).orElse _

theorem opens_lookup : Opens fd (fd.opLookup req) dir.deviceId := by
  obtain ⟨node, fresh, makes⟩ := ready.childMake_eq self valid false
  have counts : ((fd.withChild c node).updateNode c fun n => { n with nlookup := n.nlookup + 1 }) =
      fd.withChild c { node with nlookup := node.nlookup + 1 } := by
    rw [updateNode_of_entry ready.entry_child, withChild, put_put]
    rfl
  have goes := ready.child_opens self (fresh.count (node.nlookup + 1)) req.unique .getattrTag
    fileReadData .fileOpen 0
  rw [opLookup, self, ready.found]
  simp only [nodeAt_of_entry ready.here, ready.isDir, valid, makes, if_neg ready.ne_root]
  rw [probeChild, counts, startGetattr, nodeAt_of_entry ready.entry_child]
  rw [if_neg (Bool.eq_false_iff.1 fresh.unopened)]
  exact (goes.tag _).orElse _

omit self valid in
theorem opens (asks : Asks req dir.nodeid) : Opens fd (fd.dispatch req) dir.deviceId := by
  obtain ⟨self, op | ⟨valid, op | ⟨op, alsoValid, stays⟩⟩⟩ := asks
  · rw [dispatch, op]
    exact ready.opens_opendir self
  · simp only [mem_cons, not_mem_nil, or_false] at op
    rcases op with op | op | op | op | op | op <;> rw [dispatch, op]
    · exact ready.opens_lookup self valid
    · exact ready.opens_makeChild self valid ..
    · exact ready.opens_makeChild self valid ..
    · exact ready.opens_makeChild self valid ..
    · exact ready.opens_unlink self valid
    · exact ready.opens_unlink self valid
  · rw [dispatch, op]
    exact ready.opens_rename self valid alsoValid stays

end Ready

structure DirectoryOf (d : Drive) (node : Node) : Prop where
  isDrive : node.isDrive = true
  isDir : node.isDir = true
  unopened : node.haveOpen = false
  name : node.name = d.name
  device : node.deviceId = d.1

/-- The nodes of the mount root are those of announced drives, every name has one, and there
are no others. Nothing is in flight. -/
structure Mounts (fd : FuseDrive) (drives : List Drive) : Prop where
  wf : fd.WellFormed
  idle : fd.inflight = Slots.empty inflightMax
  flat : ∀ node, fd.nodes.Holds node → node.parent ≤ rootId
  only : ∀ node, fd.nodes.Holds node → node.parent = rootId → ∃ d ∈ drives, DirectoryOf d node
  all : ∀ d ∈ drives, ∃ node, fd.nodes.Holds node ∧ node.parent = rootId ∧ node.name = d.name

namespace Mounts

variable (mounts : Mounts fd drives)
include mounts

theorem announce (room : fd.nodes.free ≠ none) (d : Drive) :
    Mounts (fd.step d.announced) (drives ++ [d]) := by
  have earlier {node : Node} (held : fd.nodes.Holds node) (top : node.parent = rootId) :
      ∃ e ∈ drives ++ [d], DirectoryOf e node := by
    obtain ⟨e, member, isOf⟩ := mounts.only node held top
    exact ⟨e, mem_append_left _ member, isOf⟩
  have step : fd.step d.announced = fd.addDevice d.1 d.2 true := rfl
  rw [step]
  cases found : fd.childFind rootId d.name with
  | some n =>
    obtain ⟨node, here, top, named⟩ := entry_of_childFind found
    have held := holds_of_entry here
    obtain ⟨_, _, isOf⟩ := mounts.only node held top
    rw [Drive.name] at found
    have same : fd.addDevice d.1 d.2 true = fd := by
      simp [addDevice, found, nodeAt, here, isOf.isDrive]
    rw [same]
    refine ⟨mounts.wf, mounts.idle, mounts.flat, fun _ => earlier, ?_⟩
    rw [forall_mem_append, forall_mem_singleton]
    exact ⟨mounts.all, node, held, top, named⟩
  | none =>
    obtain ⟨n, free⟩ := Option.ne_none_iff_exists'.1 room
    have short := Nat.not_lt.2 d.labels.short
    have named : (fd.driveNode d.1 d.2).name = d.name := d.cString_name
    rw [Drive.name] at found short
    have made : (fd.addDevice d.1 d.2 true).nodes = fd.nodes.put n (fd.driveNode d.1 d.2) := by
      unfold addDevice childMake nodeAlloc
      simp only [found, free, short, Option.map_some, ↓reduceIte]
      rw [updateNode_of_entry (entry_put_self (free_eq_some free).1)]
      exact put_put _ _ _ _
    have idle : (fd.addDevice d.1 d.2 true).inflight = fd.inflight := by
      have announces := fd.addDevice_announces d.1 d.2 true
      generalize fd.addDevice d.1 d.2 true = after at announces
      cases announces <;> rfl
    refine ⟨addDevice_wellFormed mounts.wf _ _ _, idle.trans mounts.idle, ?_, ?_, ?_⟩ <;> rw [made]
    · intro node held
      rcases holds_put held with rfl | before
      · exact Nat.le_refl rootId
      · exact mounts.flat node before
    · intro node held top
      rcases holds_put held with rfl | before
      · exact ⟨d, mem_append_right _ (mem_singleton_self d), rfl, rfl, rfl, named, rfl⟩
      · exact earlier before top
    · rw [forall_mem_append, forall_mem_singleton]
      refine ⟨fun e member => ?_, _, holds_put_self free, rfl, named⟩
      obtain ⟨node, held, below⟩ := mounts.all e member
      exact ⟨node, holds_put_free free held, below⟩

theorem run (room : Runs.Along step (fun fd _ => fd.nodes.free ≠ none) fd
    (more.map Drive.announced)) :
    Mounts (fd.run (more.map Drive.announced)) (drives ++ more) := by
  induction more generalizing fd drives with
  | nil => rwa [append_nil]
  | cons d more ih =>
    have next := ih (mounts.announce room.1 d) room.2
    rwa [append_assoc] at next

theorem found (member : d ∈ drives) : ∃ n node, fd.childFind rootId d.name = some n ∧
    fd.nodes.entry n = some node ∧ ∃ e ∈ drives, e.name = d.name ∧ DirectoryOf e node := by
  obtain ⟨node, held, top, named⟩ := mounts.all d member
  cases found : fd.childFind rootId d.name with
  | none => exact absurd named (Drive.absent found held top)
  | some n =>
    obtain ⟨node, here, top, named⟩ := entry_of_childFind found
    obtain ⟨e, among, isOf⟩ := mounts.only node (holds_of_entry here) top
    exact ⟨n, node, rfl, here, e, among, isOf.name.symm.trans named, isOf⟩

theorem ready {n : NodeRef} {node : Node} (room : fd.nodes.free ≠ none)
    (here : fd.nodes.entry n = some node) (isOf : DirectoryOf d node) (onDrive : d.1 ≠ 0) :
    ∃ c f, Ready fd n node c f := by
  have free : fd.inflight.free ≠ none := by
    rw [mounts.idle]
    decide
  obtain ⟨c, isRoom⟩ := Option.ne_none_iff_exists'.1 room
  obtain ⟨f, isFree⟩ := Option.ne_none_iff_exists'.1 free
  have valid := mounts.wf.nodes node (holds_of_entry here)
  have notRoot : node.nodeid ≠ rootId := fun top =>
    absurd isOf.isDrive (Bool.eq_false_iff.1 (valid.root top).2.1)
  refine ⟨c, f, mounts.wf, here, isOf.isDrive, isOf.isDir, isOf.unopened, isOf.device ▸ onDrive,
    fun other held => ?_, isRoom, isFree⟩
  exact ne_of_lt (lt_of_le_of_lt (mounts.flat other held)
    (Nat.lt_of_le_of_ne valid.positive notRoot.symm))

end Mounts

/-- The directory of a device below the mount root: its name is a component, and the requests
for it go to the device. -/
def OwnDirectory (fd : FuseDrive) (id : DeviceId) : Prop :=
  ∃ name n node, Component name ∧ fd.childFind rootId name = some n ∧
    fd.nodes.entry n = some node ∧ node.isDrive = true ∧ node.deviceId = id ∧
    ∀ req, Asks req node.nodeid → Opens fd (fd.dispatch req) id

/-- **Every drive has a directory of its own**, for announcements with room in the table, if
the names are different and none is `.` or `..`, and no device has the id 0. -/
theorem own_directories (indexOffsets : Bool) (drives : List Drive)
    (room : Runs.Along step (fun fd _ => fd.nodes.free ≠ none) (commonInit indexOffsets)
      (drives.map Drive.announced))
    (left : ((commonInit indexOffsets).run (drives.map Drive.announced)).nodes.free ≠ none)
    (apart : (drives.map Drive.name).Nodup)
    (plain : ∀ d ∈ drives, d.name ≠ [0x2E] ∧ d.name ≠ [0x2E, 0x2E] ∧ d.1 ≠ 0) :
    ∀ d ∈ drives,
      ((commonInit indexOffsets).run (drives.map Drive.announced)).OwnDirectory d.1 := by
  have root {node : Node} (held : (commonInit indexOffsets).nodes.Holds node) : node = rootNode :=
    (holds_put held).resolve_right (not_holds_empty _ _)
  have start : Mounts (commonInit indexOffsets) [] := by
    refine ⟨commonInit_wellFormed indexOffsets, rfl, fun node held => ?_, fun node held top => ?_,
      fun d member => (not_mem_nil member).elim⟩
    · rw [root held]
      exact Nat.zero_le _
    · rw [root held] at top
      cases top
  have mounts := start.run room
  rw [nil_append] at mounts
  intro d member
  obtain ⟨notDot, notDots, onDrive⟩ := plain d member
  have component : Component d.name :=
    ⟨d.labels.nonempty, fun slash => (d.labels.clean _ slash).1 rfl,
      fun zero => (d.labels.clean _ zero).2 rfl, notDot, notDots⟩
  obtain ⟨n, node, found, here, e, among, same, isOf⟩ := mounts.found member
  cases inj_on_of_nodup_map apart among member same
  obtain ⟨_, _, ready⟩ := mounts.ready left here isOf onDrive
  refine ⟨d.name, n, node, component, found, here, isOf.isDrive, isOf.device, fun req asks => ?_⟩
  rw [← isOf.device]
  exact ready.opens asks

theorem own_directories_c_d :
    ((commonInit true).run ([(1, [0x43]), (2, [0x44])].map Drive.announced)).OwnDirectory 2 :=
  own_directories true [(1, [0x43]), (2, [0x44])] (by decide +kernel) (by decide +kernel)
    (by decide) (by decide) (2, [0x44]) (by decide)

/-- Of two drives with the label `C`, the second is nowhere in the table. -/
theorem second_label_ignored :
    ((commonInit true).run ([(1, [0x43]), (2, [0x43])].map Drive.announced)).nodes.entries.map
      Node.deviceId = [0, 1] := by
  decide +kernel

end RdpServer.Session.FuseDrive
