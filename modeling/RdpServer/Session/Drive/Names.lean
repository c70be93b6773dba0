import Mathlib.Data.List.TakeWhile
import RdpServer.Daemon.PrintJobs
import RdpServer.Session.Drive.Tree

/-!
# Names there and back

A name that the client lists reaches the kernel as the low bytes of its UTF-16
units. When the kernel looks it up, the node gets these bytes as its name, the
path of the node goes to the worker, and the worker sends a unit for each byte. So
the client gets back the name it listed exactly if that fits: no unit above 255,
and at most 255 units (`listed_name_opens_iff`).
-/

namespace RdpServer.Session

open Bytes Channels Daemon List Slots Units

structure Reports (fdi : Bytes) (units : List UInt16) : Prop where
  length : ld32 fdi 60 = 2 * units.length
  name : Units.encode units <+: fdi.drop FuseDrive.fdiFixed

/-- The name comes back as it was: its units are bytes and there are not too many. -/
def Fits (units : List UInt16) : Prop := (∀ unit ∈ units, unit < 256) ∧ units.length ≤ nameMax

def Node.IsFile (node : Node) : Prop := node.isDrive = false ∧ node.nodeid ≠ rootId

structure Node.At (node other : Node) : Prop where
  nodeid : other.nodeid = node.nodeid
  parent : other.parent = node.parent
  isDrive : other.isDrive = node.isDrive
  name : other.name = node.name

theorem Node.at_shut (node : Node) : node.At node.shut :=
  ⟨node.shut_nodeid, node.shut_parent, node.shut_isDrive, node.shut_name⟩

def pathOf : List Name → Name
  | [] => [backslash]
  | first :: rest => (first :: rest).flatMap fun part => backslash :: part

namespace FuseDrive

def EndsIn (name path : Name) : Prop :=
  (∃ above, path = above ++ backslash :: name) ∧ 0 ∉ path ∧ path.length < pathCap

variable {fd after last : FuseDrive} {n child : NodeRef} {node : Node} {units : List UInt16}
  {fdi : Bytes} {parts : List Name} {path : Name}

theorem direntName_of_reports (reports : Reports fdi units) :
    direntName fdi = (units.take nameMax).map narrow := by
  have octet : ∀ i, i < units.length →
      fdi.getD (fdiFixed + i * 2) 0 = (units.map narrow).getD i 0 := by
    intro i inside
    obtain ⟨rest, splits⟩ := reports.name
    have there : fdi[fdiFixed + i * 2]? = (encode units)[2 * i]? := by
      rw [← getElem?_drop, ← splits, Nat.mul_comm]
      refine getElem?_append_left ?_
      rw [length_encode]
      omega
    rw [getD_eq_getElem?_getD, there, getElem?_encode, getD_eq_getElem?_getD, getElem?_map]
  rw [direntName, reports.length, Nat.mul_div_cancel_left _ (by decide)]
  refine ext_getElem ?_ ?_
  · simp only [length_map, length_range, length_take]
    exact Nat.min_comm _ _
  · intro i first second
    simp only [length_map, length_range] at first
    have inside : i < units.length := by omega
    rw [getElem_map, getElem_range, octet i inside, getElem_map, getElem_take,
      getD_eq_getElem?_getD, getElem?_map, getElem?_eq_getElem inside]
    rfl

/-- An entry is the record at the head of some bytes, and these are enough for its name. -/
structure Lists (fdi : Bytes) (ent : Dirent) : Prop where
  name : ent.name = direntName fdi
  plain : isDots ent.name = false
  inside : fdiFixed + 2 * ent.name.length ≤ fdi.length

theorem decodeOneDirent_adds (fd : FuseDrive) (fdi : Bytes) (parent : NodeId) (d : Decoded) :
    ∃ added, (fd.decodeOneDirent fdi parent d).2.cache.ents = d.cache.ents ++ added ∧
      ∀ ent ∈ added, Lists fdi ent := by
  unfold decodeOneDirent dircacheAdd
  dsimp only
  split_ifs with short long dots
  · exact ⟨[], by simp⟩
  · exact ⟨[], by simp⟩
  · exact ⟨[], by simp⟩
  · exact ⟨[], by simp⟩
  · refine ⟨_, rfl, forall_mem_singleton.2 ⟨rfl, Bool.eq_false_iff.2 dots, ?_⟩⟩
    rw [direntName, length_map, length_range]
    omega

/-- The walk ends at a drive or at the root, or goes on at the parent. -/
theorem pathParts_cases {fuel : Nat} (here : fd.nodes.entry n = some node)
    (found : fd.pathParts fuel n = some parts) :
    ((node.isDrive = true ∨ node.nodeid = rootId) ∧ parts = []) ∨
      node.IsFile ∧ ∃ less p before, fuel = less + 1 ∧ fd.nodeFind node.parent = some p ∧
        fd.pathParts less p = some before ∧ parts = before ++ [node.name] := by
  unfold pathParts at found
  rw [nodeAt_of_entry here] at found
  dsimp only at found
  split_ifs at found with top
  · exact .inl ⟨top, (Option.some.inj found).symm⟩
  · have file : node.IsFile :=
      ⟨Bool.eq_false_iff.2 fun isDrive => top (.inl isDrive), fun isRoot => top (.inr isRoot)⟩
    cases fuel with
    | zero => cases found
    | succ fuel =>
      cases finds : fd.nodeFind node.parent with
      | none =>
        rw [finds] at found
        cases found
      | some p =>
        rw [finds] at found
        obtain ⟨before, walks, same⟩ := Option.map_eq_some_iff.1 found
        exact .inr ⟨file, fuel, p, before, rfl, rfl, walks, same.symm⟩

theorem pathParts_names {fuel : Nat} (here : fd.nodes.entry n = some node)
    (found : fd.pathParts fuel n = some parts) :
    ∀ part ∈ parts, ∃ file, fd.nodes.Holds file ∧ file.IsFile ∧ part = file.name := by
  induction fuel generalizing n node parts with
  | zero =>
    rcases pathParts_cases here found with ⟨_, rfl⟩ | ⟨_, less, _, _, empty, _⟩
    · exact nofun
    · cases empty
  | succ fuel ih =>
    rcases pathParts_cases here found with ⟨_, rfl⟩ | ⟨file, _, p, before, ⟨⟩, finds, walks, rfl⟩
    · exact nofun
    · obtain ⟨parent, above, _⟩ := entry_of_nodeFind finds
      intro part member
      rcases mem_append.1 member with inside | isLast
      · exact ih above walks part inside
      · exact ⟨node, holds_of_entry here, file, mem_singleton.1 isLast⟩

theorem pathParts_child {fuel : Nat} (here : fd.nodes.entry n = some node) (file : node.IsFile)
    (found : fd.pathParts fuel n = some parts) :
    ∃ less p before, fuel = less + 1 ∧ fd.nodeFind node.parent = some p ∧
      fd.pathParts less p = some before ∧ parts = before ++ [node.name] := by
  rcases pathParts_cases here found with ⟨isDrive | top, _⟩ | ⟨_, goesOn⟩
  · exact absurd isDrive (Bool.eq_false_iff.1 file.1)
  · exact absurd top file.2
  · exact goesOn

theorem nodePath_eq_some :
    fd.nodePath n pathCap = some path ↔
      ∃ parts, fd.pathParts maxNodes n = some parts ∧ path = pathOf parts ∧
        path.length < pathCap := by
  unfold nodePath
  cases fd.pathParts maxNodes n with
  | none => simp only [reduceCtorEq, false_and, exists_false]
  | some parts =>
    cases parts with
    | nil =>
      have fits : [backslash].length < pathCap := by decide
      constructor
      · rintro ⟨⟩
        exact ⟨[], rfl, rfl, fits⟩
      · rintro ⟨_, ⟨⟩, rfl, _⟩
        rfl
    | cons first rest =>
      dsimp only
      constructor
      · intro found
        split_ifs at found with long
        cases found
        refine ⟨_, rfl, rfl, ?_⟩
        omega
      · rintro ⟨_, ⟨⟩, rfl, fits⟩
        rw [pathOf] at fits ⊢
        rw [if_neg (by omega)]

theorem endsIn_nodePath (placed : fd.Placed) (here : fd.nodes.entry n = some node)
    (file : node.IsFile) (found : fd.nodePath n pathCap = some path) :
    EndsIn node.name path := by
  obtain ⟨parts, walks, rfl, fits⟩ := nodePath_eq_some.1 found
  obtain ⟨_, _, before, _, _, _, rfl⟩ := pathParts_child here file walks
  have joined : pathOf (before ++ [node.name]) =
      (before ++ [node.name]).flatMap fun part => backslash :: part := by
    cases before <;> rfl
  rw [joined] at fits ⊢
  refine ⟨⟨before.flatMap fun part => backslash :: part, ?_⟩, ?_, fits⟩
  · rw [flatMap_append, flatMap_singleton]
  · intro member
    obtain ⟨part, inside, zero⟩ := mem_flatMap.1 member
    obtain ⟨other, held, _, rfl⟩ := pathParts_names here walks part inside
    rcases mem_cons.1 zero with isSlash | within
    · exact absurd isSlash (by decide)
    · exact (placed.nodes other held).clean within

theorem pathParts_congr (places : ∀ m, (fd.nodeAt m).At (after.nodeAt m))
    (finds : ∀ nodeid, after.nodeFind nodeid = fd.nodeFind nodeid) (fuel : Nat) (m : NodeRef) :
    after.pathParts fuel m = fd.pathParts fuel m := by
  induction fuel generalizing m with
  | zero => rw [pathParts, pathParts, (places m).isDrive, (places m).nodeid]
  | succ fuel ih =>
    rw [pathParts, pathParts, (places m).isDrive, (places m).nodeid, (places m).parent,
      (places m).name, finds]
    simp only [ih]

theorem pathParts_put {changed : Node} (here : fd.nodes.entry n = some node)
    (stays : node.At changed) (puts : after.nodes = fd.nodes.put n changed) (fuel : Nat)
    (m : NodeRef) : after.pathParts fuel m = fd.pathParts fuel m := by
  refine pathParts_congr ?_ ?_ fuel m
  · intro m
    rw [nodeAt, nodeAt, puts]
    by_cases same : m = n
    · subst same
      rw [here, entry_put_self (inside_of_entry here)]
      exact stays
    · rw [entry_put_of_ne same]
      exact ⟨rfl, rfl, rfl, rfl⟩
  · intro nodeid
    rw [nodeFind, puts]
    refine find_put ?_
    rw [here, Option.any_some, stays.nodeid]

theorem nodePath_put {changed : Node} (here : fd.nodes.entry n = some node)
    (stays : node.At changed) (puts : after.nodes = fd.nodes.put n changed) (m : NodeRef)
    (cap : Nat) : after.nodePath m cap = fd.nodePath m cap := by
  rw [nodePath, nodePath, pathParts_put here stays puts]

variable {P : Name → Prop} {failed : FuseDrive → FuseDrive}

/-- Every OPEN that was sent between two states has a path with a property. -/
def OpensWith (P : Name → Prop) (fd after : FuseDrive) : Prop :=
  ∃ more, after.sent = fd.sent ++ more ∧
    ∀ message ∈ more, message.req.op = .fsOpen → P message.req.payload

theorem OpensWith.of_same (same : after.sent = fd.sent) : OpensWith P fd after :=
  ⟨[], by rw [same, append_nil], nofun⟩

theorem OpensWith.trans (first : OpensWith P fd after) (second : OpensWith P after last) :
    OpensWith P fd last := by
  obtain ⟨more, sends, has⟩ := first
  obtain ⟨rest, sendsRest, hasRest⟩ := second
  refine ⟨more ++ rest, by rw [sendsRest, sends, append_assoc], ?_⟩
  intro message member
  rcases mem_append.1 member with before | later
  · exact has message before
  · exact hasRest message later

theorem Sends.opensWith {op : FsOp} {slot : Inflight} {sending : Sending}
    (sends : Sends fd n node op slot sending)
    (has : ∀ path, fd.nodePath n pathCap = some path → P path)
    (otherwise : (failed fd).sent = fd.sent) : OpensWith P fd (sending.orElse failed) := by
  cases sends with
  | refused => exact .of_same otherwise
  | sent f req free forNode kind walks =>
    refine ⟨_, rfl, ?_⟩
    intro message member isOpen
    rw [mem_singleton.1 member] at isOpen ⊢
    exact has _ (walks (kind.symm.trans isOpen))

theorem sendClose_opensWith (works : fd.sendOk = true) (here : fd.nodes.entry n = some node) :
    OpensWith P fd (fd.sendClose n) := by
  cases held : node.haveOpen with
  | true =>
    rw [sendClose_of_held works here held]
    refine ⟨_, rfl, ?_⟩
    intro message member isOpen
    rw [mem_singleton.1 member] at isOpen
    cases isOpen
  | false =>
    rw [sendClose_of_unopened here held]
    exact .of_same rfl

theorem probeChild_opensWith (works : fd.sendOk = true) (here : fd.nodes.entry child = some node)
    (has : ∀ path, fd.nodePath child pathCap = some path → P path) (unique : Unique) :
    OpensWith P fd (fd.probeChild child unique) := by
  have counted : Turns (fun _ => True) {} fd child
      (fd.updateNode child fun n => { n with nlookup := n.nlookup + 1 }) _ :=
    .touch (.refl works here) _ (node.same_counts _ _ _) trivial
  have unsent := updateNode_sent fd child fun n => { n with nlookup := n.nlookup + 1 }
  have stays : node.At { node with nlookup := node.nlookup + 1 } := ⟨rfl, rfl, rfl, rfl⟩
  have same := nodePath_put here stays counted.nodes child pathCap
  unfold probeChild
  dsimp only
  generalize (fd.updateNode child fun n => { n with nlookup := n.nlookup + 1 }) = probed at *
  rw [← same] at has
  refine (OpensWith.of_same unsent).trans ?_
  unfold startGetattr
  have quiet : (replyEntry (if (probed.nodeAt child).haveOpen then probed
      else probed.updateNode child fun n =>
        { n with nlookup := n.nlookup - 1 }) unique child).sent =
        probed.sent := by
    split_ifs
    · rfl
    · exact updateNode_sent _ _ _
  split_ifs
  · exact (sendQuery_sends counted.works counted.here _ _ _ _ _).opensWith has quiet
  · exact ((sendOpenFull_sends counted.works counted.here _ _ _ _ _).tag (fun _ => rfl)
      rfl).opensWith has quiet

theorem reopen_opensWith {slot : Inflight} {sending : Sending} (works : fd.sendOk = true)
    (here : fd.nodes.entry child = some node)
    (sends : Sends (fd.sendClose child) child node.shut .fsOpen slot sending)
    (has : ∀ path, fd.nodePath child pathCap = some path → P path)
    (otherwise : (failed (fd.sendClose child)).sent = (fd.sendClose child).sent) :
    OpensWith P fd (sending.orElse failed) := by
  refine (sendClose_opensWith works here).trans (sends.opensWith ?_ otherwise)
  intro path found
  rw [nodePath_put here node.at_shut (sendClose_keeps works here).1] at found
  exact has path found

variable {req : FdRequest}

theorem Refused.sent (refused : Refused req fd after) : after.sent = fd.sent := by
  cases refused with
  | replied => rfl

theorem opLookup_opensWith (works : fd.sendOk = true)
    (has : ∀ {p parent child made node path}, Below fd req p parent child made node →
      req.nodeid ≠ rootId → made.nodePath child pathCap = some path → P path) :
    OpensWith P fd (fd.opLookup req) := by
  rcases opLookup_cases fd req with refused | ⟨p, parent, child, made, node, below, notTop, same⟩
  · exact .of_same refused.sent
  · have isChild := below.isChild
    rw [same]
    exact (OpensWith.of_same isChild.sent).trans (probeChild_opensWith
      (isChild.sendOk.trans works) isChild.entry (fun path => has below notTop) _)

theorem Placed.isFile {parent : Node} (placed : fd.Placed) (held : fd.nodes.Holds node)
    (above : fd.nodes.Holds parent) (below : node.parent = parent.nodeid)
    (notRoot : parent.nodeid ≠ rootId) : node.IsFile := by
  have valid := placed.nodes node held
  constructor
  · refine Bool.eq_false_iff.2 fun isDrive => notRoot ?_
    rw [← below]
    exact valid.drive isDrive
  · intro top
    have positive := (placed.nodes parent above).positive
    rw [← below, (valid.root top).2.2] at positive
    exact absurd positive (by decide)

theorem cString_of_clean {name : Name} (clean : 0 ∉ name) : cString name = name := by
  refine takeWhile_eq_self_iff.2 fun octet member => ?_
  rw [bne_iff_ne]
  rintro rfl
  exact clean member

theorem Child.named {made : FuseDrive} (isChild : Child fd req child made node)
    (placed : made.Placed) : node.name = cString req.name := by
  have clean := (placed.nodes node (holds_of_entry isChild.entry)).clean
  cases isChild with
  | found node here below named =>
    rw [named] at clean ⊢
    exact (cString_of_clean clean).symm
  | made node free fresh => exact fresh.name

theorem opLookup_endsIn (wf : fd.WellFormed) (req : FdRequest) :
    OpensWith (EndsIn (cString req.name)) fd (fd.opLookup req) := by
  refine opLookup_opensWith wf.sendOk ?_
  intro p parent child made node path below notTop walks
  have later := below.silent.wellFormed wf
  have isChild := below.isChild
  have file := later.isFile (holds_of_entry isChild.entry)
    (holds_of_entry (isChild.kept below.above)) (isChild.parent.trans below.self.symm)
    (below.self ▸ notTop)
  rw [← isChild.named later.toPlaced]
  exact endsIn_nodePath later.toPlaced isChild.entry file walks

theorem opOpen_endsIn (wf : fd.WellFormed) (req : FdRequest)
    (found : fd.nodeFind req.nodeid = some n) (here : fd.nodes.entry n = some node)
    (file : node.IsFile) : OpensWith (EndsIn node.name) fd (fd.opOpen req) := by
  have ends : ∀ path, fd.nodePath n pathCap = some path → EndsIn node.name path :=
    fun path => endsIn_nodePath wf.toPlaced here file
  unfold opOpen
  rw [found]
  dsimp only
  split_ifs
  · exact .of_same rfl
  · exact .of_same (updateNode_sent _ _ _)
  · exact reopen_opensWith wf.sendOk here (sendOpenFull_sends (sendClose_keeps wf.sendOk here).2.1
      (entry_sendClose wf.sendOk here) _ _ _ _ _) ends rfl
  · exact (sendOpenFull_sends wf.sendOk here _ _ _ _ _).opensWith ends rfl

def opensOf (fd : FuseDrive) (req : FdRequest) : List FsReq :=
  (((fd.dispatch req).sent.drop fd.sent.length).map Sent.req).filter fun message =>
    message.op == .fsOpen

theorem OpensWith.of_opensOf {message : FsReq}
    (opens : OpensWith P fd (fd.dispatch req)) (sends : message ∈ fd.opensOf req) :
    message.op = .fsOpen ∧ P message.payload := by
  obtain ⟨more, grows, has⟩ := opens
  obtain ⟨member, isOpen⟩ := mem_filter.1 sends
  rw [grows, drop_left] at member
  obtain ⟨sent, inside, rfl⟩ := mem_map.1 member
  exact ⟨beq_iff_eq.1 isOpen, has sent inside (beq_iff_eq.1 isOpen)⟩

/-- The kernel looks up a name, or opens a file that it has looked up under the
name. -/
def AsksFor (fd : FuseDrive) (name : Name) (req : FdRequest) : Prop :=
  (req.op = .opLookup ∧ req.name = name) ∨
    (req.op = .opOpen ∧ ∃ n node, fd.nodeFind req.nodeid = some n ∧
      fd.nodes.entry n = some node ∧ node.isDrive = false ∧ node.nodeid ≠ rootId ∧
      node.name = cString name)

def createComponent (irp : Bytes) : List UInt16 :=
  Units.lastPart 0x5C (Rdpdr.createPath irp)

theorem createComponent_endsIn {st : Rdpdr} {message : FsReq} {built : Rdpdr.Built} {name : Name}
    (isOpen : message.op = .fsOpen) (ends : EndsIn name message.payload)
    (builds : wireIrp st (.of message) = some built) :
    createComponent built.irp = lastPart 0x5C (name.map widen) := by
  obtain ⟨⟨above, splits⟩, clean, short⟩ := ends
  have op : (WireFsReq.of message).op = 1 := by rw [WireFsReq.of, isOpen, fsOpCode]
  have payload : (WireFsReq.of message).payload = message.payload := rfl
  rw [wireIrp, if_pos op, payload, cString_of_clean clean] at builds
  have bounded : (message.payload.length + 1) * 2 < 256 ^ 4 := by
    have cap : pathCap = 1024 := rfl
    omega
  have path : Rdpdr.createPath built.irp = message.payload.map widen := by
    unfold Rdpdr.buildIrpCreate Rdpdr.buildIrp at builds
    obtain ⟨_, builds⟩ := Option.ite_none_left_eq_some.1 builds
    obtain ⟨⟨cid, rdpdr⟩, _, made⟩ := Option.map_eq_some_iff.1 builds
    cases made
    dsimp only
    rw [← append_assoc, ← append_assoc]
    refine Rdpdr.createPath_append ?_ bounded clean
    simp only [length_append, Rdpdr.length_irpHeader, length_leBytes, Rdpdr.zeros, length_replicate]
  have slash : widen backslash = 0x5C := by decide
  rw [createComponent, path, splits, map_append, map_cons, slash, lastPart_append]

theorem component_eq_iff (plain : ∀ unit ∈ units, unit ≠ 0 ∧ unit ≠ 0x5C) :
    lastPart 0x5C ((cString ((units.take nameMax).map narrow)).map widen) =
      units ↔ Fits units := by
  constructor
  · intro same
    have part := lastPart_sublist (0x5C : UInt16)
      ((cString ((units.take nameMax).map narrow)).map widen)
    rw [same] at part
    constructor
    · intro unit member
      obtain ⟨octet, _, rfl⟩ := mem_map.1 (part.subset member)
      exact widen_lt octet
    · have shorter := part.length_le
      have cut : (cString ((units.take nameMax).map narrow)).length ≤
          ((units.take nameMax).map narrow).length := (takeWhile_sublist _).length_le
      rw [length_map] at shorter
      rw [length_map, length_take] at cut
      omega
  · rintro ⟨small, short⟩
    have clean : 0 ∉ units.map narrow := by
      intro member
      obtain ⟨unit, inside, zero⟩ := mem_map.1 member
      have apart : unit ≠ widen 0 := (plain unit inside).1
      exact apart (zero ▸ (widen_narrow.2 (small unit inside)).symm)
    rw [take_of_length_le short, cString_of_clean clean, (map_widen_narrow units).2 small]
    exact lastPart_of_plain fun member => (plain _ member).2 rfl

/-- **A listed file can be opened, if its name fits.** Let the client list a name
in UTF-16 without zeros and separators, and the kernel look up or open the bytes
that it got for it, after any run. The path component of the CREATE that reaches
the client is the name that was listed exactly if no unit of it is above 255 and it
has at most 255 units. Two such names never become the same kernel name. -/
theorem listed_name_opens_iff (indexOffsets : Bool) (events : List Event) (lister : FuseDrive)
    (parent : NodeId) (d : Decoded) (ent : Dirent) (reports : Reports fdi units)
    (plain : ∀ unit ∈ units, unit ≠ 0 ∧ unit ≠ 0x5C ∧ unit ≠ 0x2F)
    (listed : (lister.decodeOneDirent fdi parent d).2.cache.ents = d.cache.ents ++ [ent]) :
    (∀ req message st built, ((commonInit indexOffsets).run events).AsksFor ent.name req →
      message ∈ ((commonInit indexOffsets).run events).opensOf req →
      wireIrp st (.of message) = some built → (createComponent built.irp = units ↔ Fits units)) ∧
    (Fits units → ∀ otherFdi other, Reports otherFdi other → Fits other →
      direntName otherFdi = ent.name → other = units) := by
  obtain ⟨added, adds, lists⟩ := lister.decodeOneDirent_adds fdi parent d
  obtain rfl := append_cancel_left (adds.symm.trans listed)
  have named := (lists ent (mem_singleton_self ent)).name.trans (direntName_of_reports reports)
  constructor
  · intro req message st built asks sends builds
    have wf := run_wellFormed indexOffsets events
    obtain ⟨isOpen, ends⟩ : message.op = .fsOpen ∧ EndsIn (cString ent.name) message.payload := by
      refine OpensWith.of_opensOf ?_ sends
      rcases asks with ⟨isLookup, same⟩ | ⟨isOpen, n, node, found, here, isFile, notRoot, same⟩
      · rw [dispatch, isLookup, ← same]
        exact opLookup_endsIn wf req
      · rw [dispatch, isOpen, ← same]
        exact opOpen_endsIn wf req found here ⟨isFile, notRoot⟩
    rw [createComponent_endsIn isOpen ends builds, named]
    exact component_eq_iff fun unit member => ⟨(plain unit member).1, (plain unit member).2.1⟩
  · rintro ⟨small, short⟩ otherFdi other alsoReports ⟨alsoSmall, alsoShort⟩ same
    rw [direntName_of_reports alsoReports, named, take_of_length_le short,
      take_of_length_le alsoShort] at same
    rw [← (map_widen_narrow other).2 alsoSmall, same, (map_widen_narrow units).2 small]

def dirRecord (units : List UInt16) : Bytes :=
  Rdpdr.zeros 60 ++ leBytes 4 (2 * units.length) ++ Rdpdr.zeros 29 ++ Units.encode units

def emptyListing : Decoded := { cache := { filling := true, nodeid := 2, stamp := 0 } }

def lookupOf (name : Name) : FdRequest := { op := .opLookup, unique := 9, nodeid := 2, name }

set_option maxRecDepth 4000 in
theorem listed_name_opens_iff_letter :
    (∃ message ∈ ((commonInit true).run [.device 1 [0x43, 0x3A] true]).opensOf
      (lookupOf [0x61]), (wireIrp {} (.of message)).isSome) ∧
    ∀ message built,
      message ∈ ((commonInit true).run [.device 1 [0x43, 0x3A] true]).opensOf (lookupOf [0x61]) →
      wireIrp {} (.of message) = some built → createComponent built.irp = [0x61] := by
  refine ⟨by decide, fun message built sends builds => ?_⟩
  have fits : Fits [0x61] := ⟨forall_mem_singleton.2 (by decide), by decide⟩
  have reports : Reports (dirRecord [0x61]) [0x61] := ⟨by decide, ⟨[], by decide⟩⟩
  have both := listed_name_opens_iff true [.device 1 [0x43, 0x3A] true] (commonInit true) 2
    emptyListing { ino := unknownIno, name := [0x61], isDir := false } reports
    (forall_mem_singleton.2 (by decide)) (by decide)
  exact (both.1 _ message {} built (.inl ⟨rfl, rfl⟩) sends builds).2 fits

set_option maxRecDepth 4000 in
/-- Two letters that differ above the low byte become one kernel name, and the
client is asked for the other file. -/
theorem stroke_opens_plain :
    (((commonInit true).decodeOneDirent (dirRecord [0x0141]) 2 emptyListing).2.cache.ents.map
        Dirent.name = [[0x41]]) ∧
    (((commonInit true).decodeOneDirent (dirRecord [0x0041]) 2 emptyListing).2.cache.ents.map
        Dirent.name = [[0x41]]) ∧
    (((commonInit true).run [.device 1 [0x43, 0x3A] true]).opensOf (lookupOf [0x41])).map
        (fun message => (wireIrp {} (.of message)).map fun built => createComponent built.irp) =
      [some [0x0041]] := by
  decide

end FuseDrive

end RdpServer.Session
