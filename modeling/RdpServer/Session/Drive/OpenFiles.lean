import RdpServer.Session.Drive.Tree

/-!
# Files that are open stay readable

A node has one handle of the client, whatever the number of handles that the
kernel holds, and several operations close it for reasons of their own. As long as none of
them meets a file that is open, no READ is refused (`read_of_open_file`);
`rename_refuses_read` is a run where one is.
-/

namespace RdpServer.Session

open Slots Option List

instance (node : Node) (req : FdRequest) : Decidable (node.Displaced req) :=
  decidable_of_iff' _ (Node.displaced_iff node req)

def Inflight.closes (f : Inflight) : Bool :=
  f.op = .mknodTag ∨ f.op = .mkdirTag ∨ f.op = .unlinkTag ∨ f.op = .renameTag

def Inflight.reportsDir (f : Inflight) (rsp : FsRsp) : Bool :=
  f.op = .fsQueryInfo ∧ f.phase = .getattrBasic ∧ (FuseDrive.basicInfo f.acc
    (if rsp.status = statusSuccess then fsccOf rsp.payload else [])).isDir

structure OpenFiles where
  drive : FuseDrive
  held : NodeId → Nat := fun _ => 0

namespace OpenFiles

open FuseDrive (Event)

def released : Event → NodeId → Nat
  | .request req, nodeid => if req.op = .opRelease ∧ req.nodeid = nodeid then 1 else 0
  | _, _ => 0

def step (s : OpenFiles) (event : Event) : OpenFiles :=
  { drive := s.drive.step event
    held := fun nodeid => s.held nodeid - released event nodeid +
      ((s.drive.step event).openings.drop s.drive.openings.length).count nodeid }

def run (s : OpenFiles) (events : List Event) : OpenFiles := events.foldl step s

def start (indexOffsets : Bool) : OpenFiles := { drive := FuseDrive.commonInit indexOffsets }

/-- An event spares the files that are open. A request does not close the handle of
one, take it for a directory or forget it. An answer does not refuse an operation
on one, nor is it to an operation that closes the handle, nor does it say that it
is a directory; and a file that it opens is a file. A drive that goes is not
open. -/
def Spares (s : OpenFiles) : Event → Prop
  | .request req => ∀ node, s.drive.nodes.Holds node → 0 < s.held node.nodeid →
      ¬ node.Displaced req ∧ (node.nodeid = req.nodeid → req.op ≠ .opReleasedir ∧
        (req.op = .opForget → req.nlookup < node.nlookup))
  | .response rsp => ∀ slot f, s.drive.inflightFind rsp.reqId = some (slot, f) →
      ∀ node, s.drive.nodes.Holds node → node.nodeid = f.nodeid →
        (f.op = .openfileTag ∨ f.op = .createTag → node.isDir = false) ∧
        (0 < s.held node.nodeid → rsp.status = statusSuccess ∧ f.closes = false ∧
          f.reportsDir rsp = false)
  | .device deviceId _ false => ∀ node, s.drive.nodes.Holds node → node.isDrive = true →
      node.deviceId = deviceId → s.held node.nodeid = 0
  | .device _ _ true => True

instance (s : OpenFiles) : (event : Event) → Decidable (s.Spares event)
  | .request _ => inferInstanceAs (Decidable (∀ _, _ → _))
  | .response _ => inferInstanceAs (Decidable (∀ _ _, _ → _))
  | .device _ _ false => inferInstanceAs (Decidable (∀ _, _ → _))
  | .device _ _ true => isTrue True.intro

structure Serves (node : Node) (count : Nat) : Prop where
  haveOpen : node.haveOpen = true
  isFile : node.isDir = false
  used : count ≤ node.openRefs

structure Usable (s : OpenFiles) : Prop where
  wf : s.drive.WellFormed
  files : ∀ nodeid, 0 < s.held nodeid → ∃ node, s.drive.nodes.Holds node ∧
    node.nodeid = nodeid ∧ Serves node (s.held nodeid)

variable {s : OpenFiles} {req : FdRequest} {rsp : FsRsp} {event : Event} {node : Node}
  {f : Inflight} {result : Option Node} {opened : Option NodeId} {nodeid : NodeId}

section

variable (given : (s.drive.step event).openings = s.drive.openings ++ opened.toList)
include given

theorem held_step (nodeid : NodeId) :
    (s.step event).held nodeid =
      s.held nodeid - released event nodeid + opened.toList.count nodeid := by
  rw [step]
  rw [given, drop_left]

theorem held_le (other : opened ≠ some nodeid) : (s.step event).held nodeid ≤ s.held nodeid := by
  have none : opened.toList.count nodeid = 0 := by
    rw [List.count_eq_zero, mem_toList]
    exact fun member => other member
  rw [held_step given, none]
  exact Nat.sub_le _ _

end

theorem Usable.serves (usable : s.Usable) (held : s.drive.nodes.Holds node)
    (isOpen : 0 < s.held node.nodeid) : Serves node (s.held node.nodeid) := by
  obtain ⟨other, alsoHeld, same, serves⟩ := usable.files node.nodeid isOpen
  rw [usable.wf.node_eq held alsoHeld same.symm]
  rw [← same] at serves
  exact serves

theorem Serves.mono {count less : Nat} (serves : Serves node count) (le : less ≤ count) :
    Serves node less :=
  { serves with used := le_trans le serves.used }

/-- The event gives the kernel no handle of the file. -/
theorem Usable.before (usable : s.Usable) (held : s.drive.nodes.Holds node)
    (given : (s.drive.step event).openings = s.drive.openings ++ (none : Option NodeId).toList)
    (isOpen : 0 < (s.step event).held node.nodeid) :
    0 < s.held node.nodeid ∧ Serves node ((s.step event).held node.nodeid) := by
  have fewer := held_le given (some_ne_none node.nodeid).symm
  have wasOpen := lt_of_lt_of_le isOpen fewer
  exact ⟨wasOpen, (usable.serves held wasOpen).mono fewer⟩

theorem Usable.oneMore (usable : s.Usable) (held : s.drive.nodes.Holds node)
    (given : (s.drive.step event).openings = s.drive.openings ++ (some node.nodeid).toList) :
    (s.step event).held node.nodeid ≤ node.openRefs + 1 := by
  rw [held_step given, toList_some, count_singleton_self]
  refine Nat.succ_le_succ (Nat.le_trans (Nat.sub_le _ _) ?_)
  rcases Nat.eq_zero_or_pos (s.held node.nodeid) with closed | wasOpen
  · rw [closed]
    exact Nat.zero_le _
  · exact (usable.serves held wasOpen).used

theorem Usable.asked (usable : s.Usable) (spares : s.Spares (.request req))
    (held : s.drive.nodes.Holds node) (asked : node.Asked req result opened)
    (given : (s.drive.step (.request req)).openings = s.drive.openings ++ opened.toList)
    (isOpen : 0 < (s.step (.request req)).held node.nodeid) :
    ∃ after, result = some after ∧ after.nodeid = node.nodeid ∧
      Serves after ((s.step (.request req)).held node.nodeid) := by
  cases asked with
  | opened op self file haveOpen =>
    exact ⟨_, rfl, rfl, haveOpen, file, usable.oneMore held given⟩
  | counted op nlookup | forgotten op self more =>
    have serves := (usable.before held given isOpen).2
    exact ⟨_, rfl, rfl, serves.haveOpen, serves.isFile, serves.used⟩
  | listed op self =>
    have serves := (usable.before held given isOpen).2
    exact ⟨_, rfl, rfl, serves.haveOpen, serves.isFile, Nat.le_succ_of_le serves.used⟩
  | displaced why => exact absurd why (spares node held (usable.before held given isOpen).1).1
  | released op self =>
    have wasOpen := (usable.before held given isOpen).1
    have serves := usable.serves held wasOpen
    have notDir := ((spares node held wasOpen).2 self).1
    have once : (s.step (.request req)).held node.nodeid = s.held node.nodeid - 1 := by
      rw [held_step given, OpenFiles.released, if_pos ⟨op.resolve_right notDir, self.symm⟩]
      rfl
    have used := serves.used
    -- the last use of the handle is the last handle of the kernel
    have more : node.openRefs - 1 ≠ 0 := by omega
    refine ⟨_, rfl, ?_, ?_⟩
    · rw [Node.released, if_neg more]
    · rw [Node.released, if_neg more, once]
      exact ⟨serves.haveOpen, serves.isFile, Nat.sub_le_sub_right used 1⟩
  | freed op self last =>
    have more := ((spares node held (usable.before held given isOpen).1).2 self).2 op
    omega
  | givenUp unopened =>
    rw [(usable.before held given isOpen).2.haveOpen] at unopened
    cases unopened

theorem Usable.answered {slot : SlotRef} (usable : s.Usable) (spares : s.Spares (.response rsp))
    (found : s.drive.inflightFind rsp.reqId = some (slot, f)) (held : s.drive.nodes.Holds node)
    (self : node.nodeid = f.nodeid) (answered : node.Answered f rsp result opened)
    (given : (s.drive.step (.response rsp)).openings = s.drive.openings ++ opened.toList)
    (isOpen : 0 < (s.step (.response rsp)).held node.nodeid) :
    ∃ after, result = some after ∧ after.nodeid = node.nodeid ∧
      Serves after ((s.step (.response rsp)).held node.nodeid) := by
  obtain ⟨isFile, inUse⟩ := spares slot f found node held self
  have before : opened = none → 0 < s.held node.nodeid ∧
      Serves node ((s.step (.response rsp)).held node.nodeid) := by
    rintro rfl
    exact usable.before held given isOpen
  have closes : ∀ {other : Prop}, opened = none →
      (f.op = .mknodTag ∨ f.op = .mkdirTag ∨ f.op = .unlinkTag ∨ f.op = .renameTag) → other := by
    intro other quiet op
    have kept := (inUse (before quiet).1).2.1
    rw [Inflight.closes, decide_eq_false_iff_not] at kept
    exact absurd op kept
  cases answered with
  | typed op phase isDir reported =>
    obtain ⟨wasOpen, serves⟩ := before rfl
    have still := (inUse wasOpen).2.2
    rw [Inflight.reportsDir, decide_eq_false_iff_not] at still
    refine ⟨_, rfl, rfl, serves.haveOpen, ?_, serves.used⟩
    exact Bool.eq_false_iff.2 fun isDirectory => still ⟨op, phase, reported ▸ isDirectory⟩
  | refused failed | freed failed => exact absurd (inUse (before rfl).1).1 failed
  | granted ok access openRefs nlookup more =>
    have serves := (before rfl).2
    exact ⟨_, rfl, rfl, rfl, serves.isFile, le_trans serves.used more⟩
  | opened op ok access nlookup =>
    exact ⟨_, rfl, rfl, rfl, isFile op, usable.oneMore held given⟩
  | closed op isDir nlookup => exact closes rfl op
  | shut op => exact closes rfl (.inr (.inr op))
  | dropped op => exact closes rfl (.inr (.inr (.inl op)))
  | moved op ok phase named => exact closes rfl (.inr (.inr (.inr op)))

theorem Usable.step_of_fates (wf : (s.drive.step event).WellFormed)
    (given : (s.drive.step event).openings = s.drive.openings ++ opened.toList)
    (usable : s.Usable)
    (fates : ∀ node, s.drive.nodes.Holds node → 0 < (s.step event).held node.nodeid →
      ((s.drive.step event).nodes.Holds node ∧ opened ≠ some node.nodeid) ∨
        ∃ after, (s.drive.step event).nodes.Holds after ∧ after.nodeid = node.nodeid ∧
          Serves after ((s.step event).held node.nodeid))
    (known : ∀ nodeid, opened = some nodeid →
      ∃ node, s.drive.nodes.Holds node ∧ node.nodeid = nodeid) :
    (s.step event).Usable := by
  refine ⟨wf, ?_⟩
  intro nodeid isOpen
  have exists_node : ∃ node, s.drive.nodes.Holds node ∧ node.nodeid = nodeid := by
    by_cases opens : opened = some nodeid
    · exact known nodeid opens
    · have fewer := held_le given opens
      obtain ⟨node, held, same, _⟩ := usable.files nodeid (lt_of_lt_of_le isOpen fewer)
      exact ⟨node, held, same⟩
  obtain ⟨node, held, rfl⟩ := exists_node
  rcases fates node held isOpen with ⟨stays, other⟩ | ⟨after, stays, same, serves⟩
  · have fewer := held_le given other
    refine ⟨node, stays, rfl, ?_⟩
    exact (usable.serves held (lt_of_lt_of_le isOpen fewer)).mono fewer
  · exact ⟨after, stays, same, serves⟩

theorem request_usable (usable : s.Usable) (spares : s.Spares (.request req)) :
    (s.step (.request req)).Usable := by
  obtain ⟨opened, treats, given⟩ := FuseDrive.dispatch_treated usable.wf.sendOk req
  refine usable.step_of_fates (FuseDrive.step_wellFormed _ _ usable.wf) given ?_
    (fun nodeid => treats.known)
  intro node held isOpen
  rcases treats.fate usable.wf.unique held with stays | ⟨result, asked, left⟩
  · exact .inl stays
  · obtain ⟨after, same, nodeid, serves⟩ := usable.asked spares held asked given isOpen
    exact .inr ⟨after, left after same, nodeid, serves⟩

theorem response_usable (usable : s.Usable) (spares : s.Spares (.response rsp)) :
    (s.step (.response rsp)).Usable := by
  have wf := FuseDrive.step_wellFormed _ (.response rsp) usable.wf
  rcases FuseDrive.handleFsRsp_finished usable.wf.sendOk rsp with
    quiet | ⟨slot, f, found, opened, finishes, given⟩
  · have given : (s.drive.step (.response rsp)).openings =
        s.drive.openings ++ (none : Option NodeId).toList :=
      quiet.openings.trans (append_nil _).symm
    refine usable.step_of_fates wf given ?_ (fun _ missing => nomatch missing)
    intro node held _
    refine .inl ⟨?_, (some_ne_none _).symm⟩
    have same : (s.drive.step (.response rsp)).nodes = s.drive.nodes := quiet.nodes
    rw [same]
    exact held
  · refine usable.step_of_fates wf given ?_ (fun nodeid => finishes.known)
    intro node held isOpen
    rcases finishes.fate usable.wf.unique held with stays | ⟨self, result, answered, left⟩
    · exact .inl stays
    · obtain ⟨after, same, nodeid, serves⟩ :=
        usable.answered spares found held self answered given isOpen
      exact .inr ⟨after, left after same, nodeid, serves⟩

theorem device_usable {deviceId : DeviceId} {name : Name} {added : Bool} (usable : s.Usable)
    (spares : s.Spares (.device deviceId name added)) :
    (s.step (.device deviceId name added)).Usable := by
  have wf := FuseDrive.step_wellFormed _ (.device deviceId name added) usable.wf
  have announces := s.drive.addDevice_announces deviceId name added
  have given : (s.drive.step (.device deviceId name added)).openings =
      s.drive.openings ++ (none : Option NodeId).toList := by
    refine Eq.trans ?_ (append_nil _).symm
    have same : s.drive.step (.device deviceId name added) =
        s.drive.addDevice deviceId name added := rfl
    rw [same]
    generalize s.drive.addDevice deviceId name added = after at announces
    cases announces <;> rfl
  refine usable.step_of_fates wf given ?_ (fun _ missing => nomatch missing)
  intro node held isOpen
  obtain ⟨wasOpen, serves⟩ := usable.before held given isOpen
  have same : (s.drive.step (.device deviceId name added)).nodes =
      (s.drive.addDevice deviceId name added).nodes := rfl
  rw [same]
  generalize s.drive.addDevice deviceId name added = after at announces
  cases announces with
  | withdrawn =>
    refine .inl ⟨?_, (some_ne_none _).symm⟩
    refine holds_keep.2 ⟨held, ?_⟩
    cases isDrive : node.isDrive with
    | false => rfl
    | true =>
      rw [Bool.true_and, Bool.not_eq_true', beq_eq_false_iff_ne]
      intro goes
      rw [spares node held isDrive goes] at wasOpen
      exact absurd wasOpen (lt_irrefl 0)
  | ignored => exact .inl ⟨held, (some_ne_none _).symm⟩
  | turned n other here top named =>
    rcases usable.wf.unique.holds_set_or here held with ⟨stays, _⟩ | rfl
    · exact .inl ⟨stays, (some_ne_none _).symm⟩
    · refine .inr ⟨_, holds_put_held here, rfl, ?_⟩
      exact ⟨serves.haveOpen, serves.isFile, serves.used⟩
  | made n free => exact .inl ⟨holds_put_free free held, (some_ne_none _).symm⟩

theorem step_usable (s : OpenFiles) (event : Event) (spares : s.Spares event)
    (usable : s.Usable) : (s.step event).Usable := by
  cases event with
  | request req => exact request_usable usable spares
  | response rsp => exact response_usable usable spares
  | device deviceId name added => exact device_usable usable spares

theorem start_usable (indexOffsets : Bool) : (start indexOffsets).Usable :=
  ⟨FuseDrive.commonInit_wellFormed indexOffsets, fun _ isOpen => absurd isOpen (lt_irrefl 0)⟩

def Refuses (fd : FuseDrive) (req : FdRequest) : Prop :=
  (fd.dispatch req).replies = fd.replies ++ [{ unique := req.unique, body := .error .ebadf }]

instance (fd : FuseDrive) (req : FdRequest) : Decidable (Refuses fd req) :=
  inferInstanceAs (Decidable (_ = _))

theorem not_refuses (usable : s.Usable) (op : req.op = .opRead)
    (isOpen : 0 < s.held req.nodeid) : ¬ Refuses s.drive req := by
  obtain ⟨node, held, self, serves⟩ := usable.files req.nodeid isOpen
  have reads : s.drive.dispatch req = s.drive.opRead req := by rw [FuseDrive.dispatch, op]
  rw [Refuses, reads, FuseDrive.opRead]
  cases found : s.drive.nodeFind req.nodeid with
  | none =>
    have missing := find_eq_none found held
    rw [self, beq_self_eq_true] at missing
    cases missing
  | some n =>
    obtain ⟨other, here, same⟩ := FuseDrive.entry_of_nodeFind found
    have one := usable.wf.node_eq (holds_of_entry here) held (same.trans self.symm)
    subst one
    have usableNode : ¬ (other.isDir = true ∨ ¬ other.haveOpen = true) := by
      rw [serves.isFile, serves.haveOpen]
      decide
    dsimp only
    rw [FuseDrive.nodeAt_of_entry here, if_neg usableNode]
    have sends := FuseDrive.sendRead_sends usable.wf.sendOk here serves.haveOpen req.unique
      req.offset (min req.size maxRead)
    generalize s.drive.sendRead n req.unique req.offset (min req.size maxRead) = sending at sends
    cases sends with
    | refused =>
      intro same
      have last := append_cancel_left same
      cases last
    | sent f wire free forNode kind path =>
      intro same
      have longer := congrArg length same
      rw [length_append] at longer
      exact absurd longer (ne_of_lt (Nat.lt_succ_self _))

/-- **No READ of an open file is refused, in the runs that spare the open files.** -/
theorem read_of_open_file (indexOffsets : Bool) (events : List Event)
    (spares : Runs.Along step Spares (start indexOffsets) events) (req : FdRequest)
    (op : req.op = .opRead) (isOpen : 0 < ((start indexOffsets).run events).held req.nodeid) :
    ¬ Refuses ((start indexOffsets).run events).drive req := by
  have usable : ((start indexOffsets).run events).Usable :=
    spares.invariant step_usable (start_usable indexOffsets)
  exact not_refuses usable op isOpen

def opening : List Event :=
  [.device 1 [0x43, 0x3A] true,
    .request { op := .opLookup, unique := 10, nodeid := 2, name := [0x61] },
    .response { reqId := 1, status := statusSuccess, fileId := 5 },
    .response { reqId := 2, status := statusSuccess },
    .response { reqId := 3, status := statusSuccess },
    .request { op := .opOpen, unique := 11, nodeid := 3 }]

def reading : FdRequest := { op := .opRead, unique := 13, nodeid := 3, size := 16 }

set_option maxRecDepth 8000 in
/-- The attributes of an open file are asked for, and the file is read. -/
theorem read_of_open_file_getattr :
    Runs.Along step Spares (start true)
        (opening ++ [.request { op := .opGetattr, unique := 12, nodeid := 3 }]) ∧
      0 < ((start true).run
        (opening ++ [.request { op := .opGetattr, unique := 12, nodeid := 3 }])).held 3 ∧
      ¬ Refuses ((start true).run
        (opening ++ [.request { op := .opGetattr, unique := 12, nodeid := 3 }])).drive reading := by
  have spares : Runs.Along step Spares (start true)
      (opening ++ [.request { op := .opGetattr, unique := 12, nodeid := 3 }]) := by decide
  have isOpen : 0 < ((start true).run
      (opening ++ [.request { op := .opGetattr, unique := 12, nodeid := 3 }])).held 3 := by decide
  exact ⟨spares, isOpen, read_of_open_file true _ spares reading rfl isOpen⟩

def succeeds : Event → Bool
  | .response rsp => rsp.status == statusSuccess
  | _ => true

def openedThenRenamed : List Event :=
  opening ++ [.request { op := .opRename, unique := 12, nodeid := 2, newdir := 2, name := [0x61],
                         name2 := [0x62] }]

set_option maxRecDepth 8000 in
/-- The rename closes the handle, and a READ of the file is refused, though the
client has refused nothing. -/
theorem rename_refuses_read :
    openedThenRenamed.all succeeds = true ∧ ((start true).run openedThenRenamed).held 3 = 1 ∧
      Refuses ((start true).run openedThenRenamed).drive reading := by
  decide

end OpenFiles

end RdpServer.Session
