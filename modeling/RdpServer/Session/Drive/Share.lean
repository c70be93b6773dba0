import RdpServer.Session.Drive.Dirents

/-!
# A drive and the directories of its client

The client keeps one cursor for each file id, from which every LIST takes entries. A `Share`
is the drive with the LISTs that are on their way and the cursors; its events leave open when
the client serves a LIST, how many entries it takes, and when the answer arrives. `Frame` and
`Spares` say what most handlers leave alone, and `opReaddir_reads` what a READDIR does.
-/

namespace RdpServer.Session

open Bytes List Bool

structure Mail where
  req : FsReq
  answer : Option FsRsp := none

structure Share where
  drive : FuseDrive
  /-- The LISTs on their way, by the ids under which they will be answered. -/
  mail : ReqId → Option Mail := fun _ => none
  /-- The directory or file that the client last returned a file id for. -/
  opened : FileId → NodeId := fun _ => 0
  /-- The entries that are left at the cursor of a file id. -/
  rest : FileId → List DirEntry := fun _ => []

namespace Share

open FuseDrive

inductive Event where
  /-- The kernel dispatches a request. -/
  | request (req : FdRequest)
  /-- The client announces or withdraws a drive. -/
  | device (deviceId : DeviceId) (name : Name) (added : Bool)
  /-- The client answers anything but a LIST. -/
  | answer (rsp : FsRsp)
  /-- The client serves a LIST, with up to `count + 1` entries. -/
  | serve (reqId : ReqId) (count : Nat)
  /-- The answer to a LIST arrives. -/
  | deliver (reqId : ReqId)

variable (contents : NodeId → List DirEntry) (s : Share)

def post (mail : ReqId → Option Mail) : List Sent → ReqId → Option Mail
  | [] => mail
  | m :: more =>
    if m.req.op = .fsList then
      post (Function.update mail m.req.reqId (some { req := m.req })) more
    else post mail more

def moved (drive : FuseDrive) : Share :=
  { s with drive, mail := post s.mail (drive.sent.drop s.drive.sent.length) }

def listAnswer (reqId : ReqId) (chunk : List DirEntry) : FsRsp :=
  if chunk.isEmpty then { reqId, status := statusNoMoreFiles }
  else { reqId, status := statusSuccess, payload := listPayload chunk }

def cursor (req : FsReq) : List DirEntry :=
  if req.options = fsListContinue then s.rest req.fileId else contents (s.opened req.fileId)

/-- The client serves a LIST. Entries whose records are too long for the length
field cannot be sent. -/
def serve (reqId : ReqId) (count : Nat) : Share :=
  match s.mail reqId with
  | some ⟨req, none⟩ =>
    let left := s.cursor contents req
    let chunk := left.take (count + 1)
    if (encodeEntries chunk).length < 256 ^ 4 then
      { s with
        mail := Function.update s.mail reqId (some { req, answer := listAnswer reqId chunk })
        rest := Function.update s.rest req.fileId (left.drop (count + 1)) }
    else s
  | _ => s

def deliver (reqId : ReqId) : Share :=
  match s.mail reqId with
  | some ⟨_, some rsp⟩ =>
    { s with mail := Function.update s.mail reqId none }.moved (s.drive.handleFsRsp rsp)
  | _ => s

/-- An answer to another operation. A successful OPEN gives its file id a meaning. -/
def answerOther (rsp : FsRsp) : Share :=
  match s.drive.inflightFind rsp.reqId with
  | none => s
  | some (_, f) =>
    if f.op = .fsList then s
    else
      { s with
        opened := if OpenSucceeds f rsp then Function.update s.opened rsp.fileId f.nodeid
          else s.opened }.moved (s.drive.handleFsRsp rsp)

def step : Event → Share
  | .request req => s.moved (s.drive.dispatch req)
  | .device deviceId name added => { s with drive := s.drive.addDevice deviceId name added }
  | .answer rsp => s.answerOther rsp
  | .serve reqId count => s.serve contents reqId count
  | .deliver reqId => s.deliver reqId

def start (indexOffsets : Bool) : Share := { drive := commonInit indexOffsets }

end Share

namespace FuseDrive

variable {fd after last : FuseDrive} {scope : Effect → Prop} {tally : Tally} {e : Effect}
  {req : FdRequest} {n : NodeRef} {node : Node} {i : Nat} {c : Dircache}

structure Frame (fd after : FuseDrive) : Prop where
  slots : ∀ i f, f.op = .fsList →
    (after.inflight.entry i = some f ↔ fd.inflight.entry i = some f)
  sent : ∃ more, after.sent = fd.sent ++ more ∧ ∀ m ∈ more, m.req.op ≠ .fsList

theorem Frame.of_same (inflight : after.inflight = fd.inflight) (sent : after.sent = fd.sent) :
    Frame fd after :=
  ⟨fun _ _ _ => by rw [inflight], [], by rw [sent, append_nil],
    nofun⟩

theorem Frame.trans (first : Frame fd after) (second : Frame after last) : Frame fd last := by
  obtain ⟨more, adds, plain⟩ := first.sent
  obtain ⟨others, alsoAdds, alsoPlain⟩ := second.sent
  refine ⟨fun i f isList => (second.slots i f isList).trans (first.slots i f isList),
    more ++ others, ?_, ?_⟩
  · rw [alsoAdds, adds, append_assoc]
  · intro m member
    exact (mem_append.1 member).elim (plain m) (alsoPlain m)

theorem entry_put_other {slots : Slots Inflight} {j : SlotRef} {f other : Inflight}
    (free : slots.entry j = none) (differs : other.op ≠ .fsList) (isList : f.op = .fsList) :
    (slots.put j other).entry i = some f ↔ slots.entry i = some f := by
  constructor
  · intro held
    rcases Slots.entry_put held with ⟨_, same⟩ | ⟨_, before⟩
    · rw [same] at isList
      exact absurd isList differs
    · exact before
  · intro held
    have apart : i ≠ j := by
      rintro rfl
      rw [free] at held
      cases held
    exact (Slots.entry_put_of_ne apart).trans held

section

variable (act : Acts fd e after) (works : fd.sendOk = true)
include act works

theorem acts_frame (quiet : ∀ node slot req, e = .issued node slot req → slot.op ≠ .fsList) :
    Frame fd after := by
  cases act with
  | @closed n node here held =>
    rw [sendClose_of_held works here held]
    refine ⟨fun i f isList => ?_, [_], rfl, fun m member => ?_⟩
    · unfold closeInflight
      cases free : fd.inflight.free with
      | none => rfl
      | some j =>
        exact entry_put_other (Slots.free_eq_some free).2 Tag.noConfusion isList
    · rw [mem_singleton.1 member]
      exact nofun
  | @issued n j node slot req here free names within =>
    have other := quiet node slot req rfl
    refine ⟨fun i f isList => ?_, [_], rfl, fun m member => ?_⟩
    · exact entry_put_other (Slots.free_eq_some free).2 other isList
    · rw [mem_singleton.1 member]
      exact fun lists => other (names.lists.1 lists)
  | _ => exact .of_same rfl rfl

theorem acts_dircache (quiet : e ≠ .listings) : after.dircache = fd.dircache := by
  cases act with
  | closed here held => rw [sendClose_of_held works here held]
  | listings => exact absurd rfl quiet
  | _ => rfl

theorem acts_replies : ∃ more, after.replies = fd.replies ++ more ∧ ∀ r ∈ more, e = .replied r := by
  have none : ∃ more, fd.replies = fd.replies ++ more ∧ ∀ r ∈ more, e = .replied r :=
    ⟨[], (append_nil _).symm, nofun⟩
  cases act with
  | closed here held =>
    rw [sendClose_of_held works here held]
    exact none
  | replied reply => exact ⟨[reply], rfl, fun r member => by rw [mem_singleton.1 member]⟩
  | _ => exact none

end

section

variable (handled : Handled scope tally fd after) (works : fd.sendOk = true)
include handled works

theorem Handled.frame (quiet : ∀ node slot req, scope (.issued node slot req) → slot.op ≠ .fsList) :
    Frame fd after := by
  refine handled.keeps works (P := Frame fd) (.of_same rfl rfl) fun act works within frame =>
    frame.trans (acts_frame act works ?_)
  rintro node slot req rfl
  exact quiet node slot req within

theorem Handled.dircache (quiet : ¬ scope .listings) : after.dircache = fd.dircache := by
  refine handled.keeps works (P := fun later => later.dircache = fd.dircache) rfl
    fun act works within same => (acts_dircache act works ?_).trans same
  rintro rfl
  exact quiet within

theorem Handled.replies :
    ∃ more, after.replies = fd.replies ++ more ∧ ∀ r ∈ more, scope (.replied r) := by
  refine handled.keeps works (P := fun later => ∃ more, later.replies = fd.replies ++ more ∧
    ∀ r ∈ more, scope (.replied r))
    ⟨[], (append_nil _).symm, nofun⟩ ?_
  rintro before e later act works within ⟨more, adds, all⟩
  obtain ⟨others, alsoAdds, replied⟩ := acts_replies act works
  refine ⟨more ++ others, ?_, ?_⟩
  · rw [alsoAdds, adds, append_assoc]
  · intro r member
    rcases mem_append.1 member with earlier | now
    · exact all r earlier
    · rw [← replied r now]
      exact within

end

/-- Every finished listing of the new table was finished in the old one, and the
ones that are being filled stay. -/
structure Spares (old new : Slots Dircache) : Prop where
  finished : ∀ c, new.Holds c → c.filling = false →
    ∃ d, old.Holds d ∧ d.filling = false ∧ d.nodeid = c.nodeid ∧ d.ents = c.ents
  filling : ∀ i c, old.entry i = some c → c.filling = true → new.entry i = some c

variable (slots : Slots Dircache)

theorem Spares.refl : Spares slots slots :=
  ⟨fun c held finished => ⟨c, held, finished, rfl, rfl⟩, fun _ _ held _ => held⟩

def Spare (slots : Slots Dircache) (i : Nat) : Prop :=
  i < slots.length ∧ ∀ c, slots.entry i = some c → c.filling = false

theorem Spare.ne {slots : Slots Dircache} {j : Nat} (spare : Spare slots i)
    (held : slots.entry j = some c) (filling : c.filling = true) : j ≠ i := by
  rintro rfl
  rw [spare.2 c held] at filling
  cases filling

theorem Spare.put_filling {slots : Slots Dircache} (spare : Spare slots i)
    (filling : c.filling = true) : Spares slots (slots.put i c) := by
  refine ⟨fun d held finished => ?_, fun j d held going => ?_⟩
  · rcases Slots.holds_put held with rfl | before
    · rw [filling] at finished
      cases finished
    · exact ⟨d, before, finished, rfl, rfl⟩
  · rw [Slots.entry_put_of_ne (spare.ne held going)]
    exact held

theorem Spare.clear {slots : Slots Dircache} (spare : Spare slots i) :
    Spares slots (slots.clear i) := by
  refine ⟨fun d held finished => ⟨d, Slots.holds_clear held, finished, rfl, rfl⟩,
    fun j d held going => ?_⟩
  rw [Slots.entry_clear_of_ne (spare.ne held going)]
  exact held

theorem spares_restamp {slots : Slots Dircache} (held : slots.entry i = some c)
    (finished : c.filling = false) (stamp : Nat) :
    Spares slots (slots.put i { c with stamp }) := by
  refine ⟨fun d there ends => ?_, fun j d there going => ?_⟩
  · rcases Slots.holds_put there with rfl | before
    · exact ⟨c, Slots.holds_of_entry held, finished, rfl, rfl⟩
    · exact ⟨d, before, ends, rfl, rfl⟩
  · have apart : j ≠ i := by
      rintro rfl
      rw [held] at there
      cases there
      rw [finished] at going
      cases going
    rw [Slots.entry_put_of_ne apart]
    exact there

theorem spares_drop (nodeid : NodeId) :
    Spares slots (slots.keep fun c => c.filling || c.nodeid != nodeid) := by
  refine ⟨fun d held finished => ⟨d, (Slots.holds_keep.1 held).1, finished, rfl, rfl⟩,
    fun j d held going => ?_⟩
  have kept : (fun c : Dircache => c.filling || c.nodeid != nodeid) d = true := by
    dsimp only
    rw [going, Bool.true_or]
  exact Slots.entry_keep_of held kept

theorem entry_of_search {P : Dircache → Prop} {order : List Nat}
    {pick : Option (Nat × Dircache) → Nat → Option (Nat × Dircache)}
    {best : Option (Nat × Dircache)}
    (found : order.foldl pick best = some (i, c))
    (start : ∀ i c, best = some (i, c) → slots.entry i = some c ∧ P c)
    (each : ∀ best i, pick best i = best ∨
      ∃ c, slots.entry i = some c ∧ P c ∧ pick best i = some (i, c)) :
    slots.entry i = some c ∧ P c := by
  induction order generalizing best with
  | nil => exact start i c found
  | cons j order ih =>
    refine ih found ?_
    intro k d same
    rcases each best j with keeps | ⟨e, held, wanted, takes⟩
    · exact start k d (keeps.symm.trans same)
    · rw [takes] at same
      cases same
      exact ⟨held, wanted⟩

theorem dircachePick_spare {slot : Nat} (picked : fd.dircachePick = some slot) :
    Spare fd.dircache slot := by
  unfold dircachePick at picked
  cases free : fd.dircache.free with
  | some j =>
    rw [free] at picked
    cases picked
    obtain ⟨inside, isFree⟩ := Slots.free_eq_some free
    refine ⟨inside, fun c held => ?_⟩
    rw [isFree] at held
    cases held
  | none =>
    rw [free] at picked
    obtain ⟨⟨j, c⟩, found, same⟩ := Option.map_eq_some_iff.1 picked
    cases same
    have searched := entry_of_search fd.dircache (P := fun c => c.filling = false) found
      fun _ _ none => by cases none
    have ends : fd.dircache.entry j = some c ∧ c.filling = false := by
      refine searched fun best k => ?_
      split
      · exact .inl rfl
      · split_ifs with taken
        · rw [and_eq_true, not_eq_true'] at taken
          exact .inr ⟨_, ‹_›, taken.1, rfl⟩
        · exact .inl rfl
    refine ⟨Slots.inside_of_entry ends.1, fun d there => ?_⟩
    rw [ends.1] at there
    cases there
    exact ends.2

theorem dircacheFind_cases (fd : FuseDrive) (nodeid : NodeId) :
    fd.dircacheFind nodeid = (fd, none) ∨
      ∃ i c, fd.dircache.entry i = some c ∧ c.filling = false ∧ c.nodeid = nodeid ∧
        fd.dircacheFind nodeid =
          ({ fd with dircache := fd.dircache.put i { c with stamp := fd.dircacheClock + 1 }
                     dircacheClock := fd.dircacheClock + 1 },
            some { c with stamp := fd.dircacheClock + 1 }) := by
  unfold dircacheFind
  dsimp only
  split
  · exact .inl rfl
  · rename_i i c found
    have searched := entry_of_search fd.dircache
      (P := fun c => c.filling = false ∧ c.nodeid = nodeid) found fun _ _ none => by cases none
    have ends : fd.dircache.entry i = some c ∧ c.filling = false ∧ c.nodeid = nodeid := by
      refine searched fun best k => ?_
      split
      · exact .inl rfl
      · split_ifs with taken
        · rw [and_eq_true, and_eq_true, not_eq_true', beq_iff_eq] at taken
          exact .inr ⟨_, ‹_›, taken.1, rfl⟩
        · exact .inl rfl
    exact .inr ⟨i, c, ends.1, ends.2.1, ends.2.2, rfl⟩

theorem opRelease_spares (works : fd.sendOk = true) (req : FdRequest) :
    Spares fd.dircache (fd.opRelease req).dircache := by
  unfold opRelease
  refine nodeFind_rule (fd.nodeFind req.nodeid) rfl (.refl _) fun n node found here _ => ?_
  have same : ∀ change, (fd.updateNode n change).dircache = fd.dircache := by
    intro change
    rw [updateNode_of_entry here]
  dsimp only
  split_ifs
  · have kept := (sendClose_keeps (updateNode_sendOk works here _)
      (entry_updateNode here fun n => { n with openRefs := n.openRefs - 1 })).2.2
    rw [dircacheDrop]
    rw [kept, same]
    exact spares_drop _ _
  · rw [reply, same]
    exact .refl _

theorem dispatch_spares (works : fd.sendOk = true) (other : req.op ≠ .opReaddir) :
    Spares fd.dircache (fd.dispatch req).dircache := by
  by_cases releases : req.op = .opRelease ∨ req.op = .opReleasedir
  · have same : fd.dispatch req = fd.opRelease req := by
      unfold dispatch
      rcases releases with op | op <;> rw [op]
    rw [same]
    exact opRelease_spares works req
  · rw [(dispatch_handled works req).dircache works fun within => within.elim other releases]
    exact .refl _

def listSlot (node : Node) (unique : Unique) (listOff size slot : Nat) : Inflight :=
  { fuseUnique := unique, op := .fsList, nodeid := node.nodeid, listOff, readSize := size
    dircache := slot }

def listReq (node : Node) (cont : Bool) (path : Name) : FsReq :=
  { reqId := 0, op := .fsList, deviceId := node.deviceId, fileId := node.fileId
    options := if cont then fsListContinue else 0, payload := listPattern path }

theorem sendList_cases (works : fd.sendOk = true) (here : fd.nodes.entry n = some node)
    (unique : Unique) (cont : Bool) (listOff size slot : Nat) :
    (fd.sendList n unique cont listOff size slot = { drive := fd } ∧
      (fd.nodePath n (pathCap - 2) = none ∨ fd.inflight.free = none)) ∨
      ∃ f path, fd.inflight.free = some f ∧ fd.sendList n unique cont listOff size slot =
          { drive := fd.issueAt n f (listSlot node unique listOff size slot)
              (listReq node cont path), slot := some f } := by
  unfold sendList
  rw [nodeAt_of_entry here]
  cases fd.nodePath n (pathCap - 2) with
  | none => exact .inl ⟨rfl, .inl rfl⟩
  | some path =>
    dsimp only
    rw [issue_eq works]
    cases fd.inflight.free with
    | none => exact .inl ⟨rfl, .inr rfl⟩
    | some f => exact .inr ⟨f, path, rfl, rfl⟩

inductive Reads (fd : FuseDrive) (req : FdRequest) : FuseDrive → Prop where
  | refused (reply : Reply) (plain : reply.body.lists = false) (dircache : Slots Dircache)
      (clock : Nat) (spares : Spares fd.dircache dircache) :
      Reads fd req { fd with dircache, dircacheClock := clock, replies := fd.replies ++ [reply] }
  /-- The root has no listing of the client, and offsets in bytes are not served. -/
  | exempt (reply : Reply)
      (exempt : req.nodeid = rootId ∨ fd.indexOffsets = false ∧ req.offset ≠ 0) :
      Reads fd req { fd with replies := fd.replies ++ [reply] }
  | served (i : Nat) (c : Dircache) (held : fd.dircache.entry i = some c)
      (finished : c.filling = false) (same : c.nodeid = req.nodeid) (stamp : Nat) :
      Reads fd req
        (dircacheServe { fd with dircache := fd.dircache.put i { c with stamp }
                                 dircacheClock := stamp }
          (some { c with stamp }) req.unique req.offset req.size)
  | started (n : NodeRef) (node : Node) (here : fd.nodes.entry n = some node)
      (held : node.haveOpen = true) (same : node.nodeid = req.nodeid) (i stamp : Nat)
      (spare : Spare fd.dircache i) (f : SlotRef) (free : fd.inflight.free = some f)
      (path : Name) :
      Reads fd req
        (issueAt { fd with dircache := fd.dircache.put i
                             { filling := true, nodeid := node.nodeid, stamp }
                           dircacheClock := stamp }
          n f (listSlot node req.unique req.offset req.size i) (listReq node false path))

theorem reads_error (errno : Errno) : Reads fd req (fd.replyError req.unique errno) :=
  .refused ⟨req.unique, .error errno⟩ rfl fd.dircache fd.dircacheClock (.refl _)

theorem startList_reads (works : fd.sendOk = true) (here : fd.nodes.entry n = some node)
    (same : node.nodeid = req.nodeid) : Reads fd req (fd.startList n req) := by
  unfold startList dircacheClaim
  rw [nodeAt_of_entry here]
  cases held : node.haveOpen with
  | false => exact reads_error _
  | true =>
    cases picked : fd.dircachePick with
    | none => exact reads_error _
    | some i =>
      have spare := dircachePick_spare picked
      simp only [Option.map_some]
      generalize claims : ({ fd with dircache := _, dircacheClock := _ } : FuseDrive) = claimed
      have alsoWorks : claimed.sendOk = true := by
        rw [← claims]
        exact works
      have there : claimed.nodes.entry n = some node := by
        rw [← claims]
        exact here
      rcases sendList_cases alsoWorks there req.unique false req.offset req.size i with
        ⟨sends, _⟩ | ⟨f, path, free, sends⟩
      · rw [sends, ← claims]
        refine .refused ⟨req.unique, .error .enomem⟩ rfl _ _ ?_
        have once : ∀ c, (fd.dircache.put i c).clear i = fd.dircache.clear i :=
          fun _ => set_set _
        rw [dircacheRelease, once]
        exact spare.clear
      · rw [sends, ← claims]
        rw [← claims] at free
        exact .started n node here held same i _ spare f free path

theorem opReaddir_reads (works : fd.sendOk = true) : Reads fd req (fd.opReaddir req) := by
  unfold opReaddir
  refine nodeFind_rule (fd.nodeFind req.nodeid) rfl (reads_error _) fun n node found here same => ?_
  dsimp only
  rw [nodeAt_of_entry here]
  split_ifs with _ root first indexed
  · exact reads_error _
  · unfold opReaddirRoot
    split_ifs <;> exact .exempt _ (.inl root)
  · exact startList_reads works here same
  · rcases fd.dircacheFind_cases node.nodeid with missing | ⟨i, c, held, finished, about, finds⟩
    · rw [missing]
      exact startList_reads works here same
    · rw [finds]
      exact .served i c held finished (about.trans same) _
  · exact .exempt _ (.inr ⟨eq_false_iff.2 indexed, first⟩)

end FuseDrive

end RdpServer.Session
