import RdpServer.Session.Drive.Share

/-!
# Listings are whole, one at a time

A READDIR is answered from a listing that is collected with as many LISTs as the
client needs. The LISTs of a directory share its handle, and with it the client's
cursor, so two listings of one directory take entries from each other; otherwise a listing
holds every entry once (`listings_whole_of_calm`).
-/

namespace RdpServer.Session

open FuseDrive List Slots Function

/-- What a listing of a directory is to hold: its entries, apart from the directory
itself and its parent. -/
def listing (dir : List DirEntry) : List (Name × Bool) :=
  (dir.filter fun entry => !entry.isPseudo).map fun entry => (entry.name, entry.isDir)

/-- The directory fits a listing, and no other name in it is taken for the directory
itself or its parent. -/
structure Listable (dir : List DirEntry) : Prop where
  few : (emitted dir).length ≤ dirMaxEntries
  short : ((emitted dir).map fun seen => seen.1.length).sum ≤ dirMaxNames
  plain : ∀ entry ∈ dir, isDots entry.name = true → entry.isPseudo = true

theorem isDots_of_pseudo {entry : DirEntry} (pseudo : entry.isPseudo = true) :
    isDots entry.name = true := by
  rw [DirEntry.isPseudo, Bool.or_eq_true, Bool.or_eq_true, List.isEmpty_iff, beq_iff_eq,
    beq_iff_eq] at pseudo
  rw [DirEntry.name]
  rcases pseudo with (empty | self) | parent
  · rw [empty]
    rfl
  · rw [self]
    rfl
  · rw [parent]
    rfl

theorem Listable.emitted_eq {dir : List DirEntry} (listable : Listable dir) :
    emitted dir = listing dir := by
  have same : ∀ entry ∈ dir, (!isDots entry.name) = !entry.isPseudo := by
    intro entry member
    rw [Bool.not_inj_iff, Bool.eq_iff_iff]
    exact ⟨listable.plain entry member, isDots_of_pseudo⟩
  rw [emitted, listing, filter_congr same]

variable {chunk : List DirEntry}

theorem Listable.room {dir : List DirEntry} {left : List (Name × Bool)} {c : Dircache}
    (listable : Listable dir) (sum : c.ents.map Dirent.seen ++ emitted chunk ++ left =
      emitted dir) :
    Room c chunk := by
  have few := listable.few
  have short := listable.short
  rw [← sum, length_append, length_append, length_map] at few
  rw [← sum, map_append, map_append, sum_append, sum_append, map_map] at short
  have names : c.namesLen = (c.ents.map ((fun seen => seen.1.length) ∘ Dirent.seen)).sum := rfl
  exact ⟨by omega, by omega⟩

def Inflight.listNode (f : Inflight) : Option NodeId :=
  if f.op = .fsList then some f.nodeid else none

theorem Inflight.listNode_of_list {f : Inflight} (isList : f.op = .fsList) :
    f.listNode = some f.nodeid := if_pos isList

namespace Share

variable {contents : NodeId → List DirEntry} {s : Share} {after : FuseDrive} {f g : Inflight}
  {i : SlotRef}

/-- The directory of a LIST on its way has the handle that the LIST was sent under,
and a path. -/
def keepsHandle (s : Share) (f : Inflight) : Bool :=
  (s.mail f.reqId).any fun m => (s.drive.nodeFind f.nodeid).any fun n =>
    (s.drive.nodeAt n).haveOpen && (s.drive.nodeAt n).fileId == m.req.fileId &&
      (s.drive.nodePath n (pathCap - 2)).isSome

/-- **The listings do not get in each other's way.** -/
@[mk_iff]
structure Calm (s : Share) : Prop where
  /-- The request ids in flight are distinct. -/
  ids : (s.drive.inflight.entries.map Inflight.reqId).Nodup
  /-- No two listings of one directory are collected at a time. -/
  single : (s.drive.inflight.entries.filterMap Inflight.listNode).Nodup
  /-- A directory keeps its handle and its path while it is listed. -/
  handles : ∀ f ∈ s.drive.inflight.entries, f.op = .fsList → s.keepsHandle f = true
  /-- A file id that is in use has not been returned for another node. -/
  opened : ∀ node ∈ s.drive.nodes.entries, node.haveOpen = true →
    s.opened node.fileId = node.nodeid

instance (s : Share) : Decidable s.Calm :=
  decidable_of_iff' _ (calm_iff s)

theorem Calm.slot_eq {j : SlotRef} (calm : s.Calm) (first : s.drive.inflight.entry i = some f)
    (second : s.drive.inflight.entry j = some g) (same : f.reqId = g.reqId) : i = j := by
  have ids := calm.ids
  rw [← filterMap_eq_map] at ids
  exact eq_of_nodup ids first second rfl (congrArg some same.symm)

theorem Calm.list_eq {j : SlotRef} (calm : s.Calm) (first : s.drive.inflight.entry i = some f)
    (second : s.drive.inflight.entry j = some g) (isList : f.op = .fsList)
    (alsoList : g.op = .fsList) (same : f.nodeid = g.nodeid) : i = j := by
  refine eq_of_nodup calm.single first second (Inflight.listNode_of_list isList) ?_
  rw [Inflight.listNode_of_list alsoList, same]

theorem Calm.node {m : Mail} (calm : s.Calm) (waits : s.drive.inflight.entry i = some f)
    (isList : f.op = .fsList) (mail : s.mail f.reqId = some m) :
    ∃ n node, s.drive.nodeFind f.nodeid = some n ∧ s.drive.nodes.entry n = some node ∧
      node.nodeid = f.nodeid ∧ node.fileId = m.req.fileId ∧
      s.drive.nodePath n (pathCap - 2) ≠ none ∧ s.opened m.req.fileId = f.nodeid := by
  have keeps := calm.handles f (mem_entries.2 (holds_of_entry waits)) isList
  unfold keepsHandle at keeps
  rw [mail, Option.any_some] at keeps
  obtain ⟨n, found, has⟩ := Option.any_eq_true _ _ |>.1 keeps
  obtain ⟨node, here, same⟩ := entry_of_nodeFind found
  rw [nodeAt_of_entry here, Bool.and_eq_true, Bool.and_eq_true, beq_iff_eq] at has
  refine ⟨n, node, found, here, same, has.1.2, ?_, ?_⟩
  · exact Option.isSome_iff_ne_none.1 has.2
  · rw [← has.1.2, ← same]
    exact calm.opened node (mem_entries.2 (holds_of_entry here)) has.1.1

/-- How far a listing has come: what is collected, what is in the answer on its way
and what is left at the cursor make up the directory. -/
inductive Progress (dir : List DirEntry) (c : Dircache) (left : List DirEntry) (reqId : ReqId) :
    Mail → Prop where
  | first (req : FsReq) (initial : req.options ≠ fsListContinue) (empty : c.ents = []) :
      Progress dir c left reqId { req }
  | next (req : FsReq) (goesOn : req.options = fsListContinue)
      (sum : c.ents.map Dirent.seen ++ emitted left = emitted dir) :
      Progress dir c left reqId { req }
  | answered (req : FsReq) (chunk : List DirEntry)
      (short : (encodeEntries chunk).length < 256 ^ 4)
      (sum : c.ents.map Dirent.seen ++ emitted chunk ++ emitted left = emitted dir)
      (ends : chunk = [] → left = []) :
      Progress dir c left reqId { req, answer := listAnswer reqId chunk }

/-- A LIST in flight is on its way, and its listing has come as far as that. -/
structure Underway (contents : NodeId → List DirEntry) (s : Share) (f : Inflight) : Prop where
  exists_mail : ∃ m c, s.mail f.reqId = some m ∧ s.drive.dircache.entry f.dircache = some c ∧
    c.filling = true ∧ c.nodeid = f.nodeid ∧
    Progress (contents f.nodeid) c (s.rest m.req.fileId) f.reqId m

structure Sound (contents : NodeId → List DirEntry) (s : Share) : Prop where
  wf : s.drive.WellFormed
  finished : ∀ c, s.drive.dircache.Holds c → c.filling = false →
    c.ents.map Dirent.seen = emitted (contents c.nodeid)
  lists : ∀ i f, s.drive.inflight.entry i = some f → f.op = .fsList → Underway contents s f
  mail : ∀ reqId m, s.mail reqId = some m →
    ∃ i f, s.drive.inflight.entry i = some f ∧ f.op = .fsList ∧ f.reqId = reqId

theorem start_sound (indexOffsets : Bool) : Sound contents (start indexOffsets) := by
  refine ⟨commonInit_wellFormed indexOffsets, ?_, ?_, ?_⟩
  · exact fun c held => absurd held (not_holds_empty _ _)
  · exact fun i f held => absurd (holds_of_entry held) (not_holds_empty _ _)
  · exact fun reqId m sent => by cases sent

@[simp] theorem moved_drive (s : Share) (after : FuseDrive) : (s.moved after).drive = after := rfl

theorem post_plain (mail : ReqId → Option Mail) {more : List Sent}
    (plain : ∀ m ∈ more, m.req.op ≠ .fsList) : post mail more = mail := by
  induction more with
  | nil => rfl
  | cons m more ih =>
    rw [post, if_neg (plain m mem_cons_self)]
    exact ih fun m member => plain m (mem_cons_of_mem _ member)

theorem moved_frame (s : Share) (frame : Frame s.drive after) :
    s.moved after = { s with drive := after } := by
  obtain ⟨more, adds, plain⟩ := frame.sent
  rw [moved, adds, drop_left, post_plain _ plain]

/-- A table of listings keeps those that are being collected, and its finished ones are
whole. -/
structure Carries (contents : NodeId → List DirEntry) (s : Share) (dircache : Slots Dircache) :
    Prop where
  finished : ∀ c, dircache.Holds c → c.filling = false →
    c.ents.map Dirent.seen = emitted (contents c.nodeid)
  kept : ∀ i f, s.drive.inflight.entry i = some f → f.op = .fsList →
    dircache.entry f.dircache = s.drive.dircache.entry f.dircache

theorem Sound.frame (sound : Sound contents s) (wf : after.WellFormed)
    (frame : Frame s.drive after) (carries : Carries contents s after.dircache)
    (opened : FileId → NodeId) : Sound contents ({ s with opened }.moved after) := by
  rw [moved_frame { s with opened } frame]
  refine ⟨wf, carries.finished, ?_, ?_⟩
  · intro i f waits isList
    have before := (frame.slots i f isList).1 waits
    obtain ⟨m, c, mail, held, rest⟩ := (sound.lists i f before isList).exists_mail
    exact ⟨m, c, mail, (carries.kept i f before isList).trans held, rest⟩
  · intro reqId m sent
    obtain ⟨i, f, waits, isList, same⟩ := sound.mail reqId m sent
    exact ⟨i, f, (frame.slots i f isList).2 waits, isList, same⟩

theorem Sound.carries (sound : Sound contents s) {dircache : Slots Dircache}
    (spares : Spares s.drive.dircache dircache) : Carries contents s dircache := by
  constructor
  · intro c held ends
    obtain ⟨d, before, finished, same, ents⟩ := spares.finished c held ends
    rw [← ents, ← same]
    exact sound.finished d before finished
  · intro i f waits isList
    obtain ⟨_, c, _, held, filling, _⟩ := (sound.lists i f waits isList).exists_mail
    rw [held]
    exact spares.filling f.dircache c held filling

theorem Sound.spared (sound : Sound contents s) (wf : after.WellFormed)
    (frame : Frame s.drive after)
    (spares : Spares s.drive.dircache after.dircache) (opened : FileId → NodeId) :
    Sound contents ({ s with opened }.moved after) :=
  sound.frame wf frame (sound.carries spares) opened

theorem Sound.ask {dircache : Slots Dircache} {clock : Nat} {n : NodeRef} {j : SlotRef}
    {slot : Inflight} {req : FsReq} {c : Dircache} (sound : Sound contents s)
    (asks : after = issueAt { s.drive with dircache, dircacheClock := clock } n j slot req)
    (wf : after.WellFormed) (calm : (s.moved after).Calm) (isList : slot.op = .fsList)
    (isListReq : req.op = .fsList) (free : s.drive.inflight.free = some j)
    (carries : Carries contents s dircache) (fills : dircache.entry slot.dircache = some c)
    (filling : c.filling = true) (same : c.nodeid = slot.nodeid)
    (progress : Progress (contents slot.nodeid) c (s.rest req.fileId) s.drive.nextReqId
      { req := { req with reqId := s.drive.nextReqId } }) :
    Sound contents (s.moved after) := by
  obtain ⟨inside, isFree⟩ := free_eq_some free
  have mail : (s.moved after).mail = update s.mail s.drive.nextReqId
      (some { req := { req with reqId := s.drive.nextReqId } }) := by
    have sent : after.sent.drop s.drive.sent.length =
        [{ req := { req with reqId := s.drive.nextReqId }
           drive := FuseDrive.driveLabel
             { s.drive with dircache, dircacheClock := clock } maxNodes n
           behalf := some slot.fuseUnique }] := by
      rw [asks]
      exact drop_left
    rw [moved, sent, post, if_pos isListReq, post]
  have inflight : (s.moved after).drive.inflight =
      s.drive.inflight.put j { slot with reqId := s.drive.nextReqId } := by
    rw [moved_drive, asks]
    rfl
  have new : (s.moved after).drive.inflight.entry j =
      some { slot with reqId := s.drive.nextReqId } := by
    rw [inflight]
    exact entry_put_self inside
  have listings : (s.moved after).drive.dircache = dircache := by
    rw [moved_drive, asks]
    rfl
  refine ⟨wf, ?_, ?_, ?_⟩
  · rw [listings]
    exact carries.finished
  · intro i g waits alsoList
    have others := waits
    rw [inflight] at waits
    rcases entry_put waits with ⟨_, rfl⟩ | ⟨apart, before⟩
    · refine ⟨{ req := { req with reqId := s.drive.nextReqId } }, c, ?_, listings ▸ fills, filling,
        same,
        progress⟩
      rw [mail]
      exact update_self _ _ _
    · obtain ⟨m, d, sent, held, rest⟩ := (sound.lists i g before alsoList).exists_mail
      have differs : g.reqId ≠ s.drive.nextReqId := fun equal =>
        apart (calm.slot_eq others new equal)
      refine ⟨m, d, ?_, ?_, rest⟩
      · rw [mail, update_of_ne differs]
        exact sent
      · rw [listings, carries.kept i g before alsoList]
        exact held
  · intro reqId m sent
    rw [mail] at sent
    by_cases isNew : reqId = s.drive.nextReqId
    · exact ⟨j, _, new, isList, isNew.symm⟩
    · rw [update_of_ne isNew] at sent
      obtain ⟨i, g, waits, alsoList, id⟩ := sound.mail reqId m sent
      have apart : i ≠ j := by
        rintro rfl
        rw [isFree] at waits
        cases waits
      refine ⟨i, g, ?_, alsoList, id⟩
      rw [inflight, entry_put_of_ne apart]
      exact waits

/-- The directory that an event may bring a listing of, and the index of its first
entry. -/
def subject (s : Share) : Event → Option (NodeId × Nat)
  | .request req => if req.op = .opReaddir then some (req.nodeid, req.offset) else none
  | .deliver reqId => (s.drive.inflightFind reqId).map fun found =>
        (found.2.nodeid, found.2.listOff)
  | _ => none

/-- Every reply with entries of a directory that is written on the way holds the
whole listing from an index on. The root is not a directory of the client, and an
offset that is not an index is not answered with entries. -/
def Whole (contents : NodeId → List DirEntry) (fd after : FuseDrive)
    (subject : Option (NodeId × Nat)) : Prop :=
  ∀ reply ∈ after.replies.drop fd.replies.length, ∀ ents first size,
    reply.body = .dirents ents first size → ∃ dir off, subject = some (dir, off) ∧
      (dir ≠ rootId → fd.indexOffsets = true ∨ off = 0 →
        ents.map Dirent.seen = (listing (contents dir)).drop off)

def ListsWhole (contents : NodeId → List DirEntry) (s : Share) (e : Event) : Prop :=
  Whole contents s.drive (s.step contents e).drive (s.subject e)

variable {fd : FuseDrive} {about : Option (NodeId × Nat)} {dir : NodeId} {off : Nat}

theorem whole_of_plain {more : List Reply} (adds : after.replies = fd.replies ++ more)
    (plain : ∀ reply ∈ more, reply.body.lists = false) : Whole contents fd after about := by
  intro reply member ents first size isListing
  rw [adds, drop_left] at member
  have none := plain reply member
  rw [isListing] at none
  cases none

theorem whole_of_same (same : after.replies = fd.replies) : Whole contents fd after about :=
  whole_of_plain (same.trans (append_nil _).symm) fun _ member =>
    absurd member not_mem_nil

theorem whole_of_one {new : Reply} (adds : after.replies = fd.replies ++ [new])
    (subject : about = some (dir, off))
    (right : ∀ ents first size, new.body = .dirents ents first size → dir ≠ rootId →
      fd.indexOffsets = true ∨ off = 0 → ents.map Dirent.seen = (listing (contents dir)).drop off) :
    Whole contents fd after about := by
  intro reply member ents first size isListing
  rw [adds, drop_left, mem_singleton] at member
  subst member
  exact ⟨dir, off, subject, right ents first size isListing⟩

theorem dircacheServe_eq (fd : FuseDrive) (c : Dircache) (unique : Unique) (off size : Nat) :
    ∃ first most, fd.dircacheServe (some c) unique off size =
      fd.reply unique (.dirents (c.ents.drop off) first most) := by
  unfold dircacheServe
  dsimp only
  split_ifs with past
  · rw [drop_eq_nil_of_le past]
    exact ⟨0, 0, rfl⟩
  · exact ⟨off, size, rfl⟩

theorem whole_of_serve {c : Dircache} {unique : Unique} {size : Nat} {before : FuseDrive}
    (listable : Listable (contents c.nodeid))
    (finished : c.ents.map Dirent.seen = emitted (contents c.nodeid))
    (same : before.replies = fd.replies) (subject : about = some (c.nodeid, off)) :
    Whole contents fd (before.dircacheServe (some c) unique off size) about := by
  obtain ⟨first, most, serves⟩ := dircacheServe_eq before c unique off size
  have adds : (before.dircacheServe (some c) unique off size).replies =
      fd.replies ++ [{ unique, body := .dirents (c.ents.drop off) first most }] := by
    rw [serves, ← same]
    rfl
  refine whole_of_one adds subject ?_
  intro ents _ _ isListing _ _
  cases isListing
  rw [map_drop, finished, listable.emitted_eq]

theorem Sound.readdir {req : FdRequest} (sound : Sound contents s)
    (listable : ∀ dir, Listable (contents dir)) (wf : after.WellFormed)
    (reads : Reads s.drive req after) (calm : (s.moved after).Calm) :
    Sound contents (s.moved after) ∧
      Whole contents s.drive after (some (req.nodeid, req.offset)) := by
  cases reads with
  | refused reply plain dircache clock spares =>
    refine ⟨sound.spared wf (.of_same rfl rfl) spares s.opened, ?_⟩
    refine whole_of_plain rfl fun r member => ?_
    rw [mem_singleton.1 member]
    exact plain
  | exempt reply exempt =>
    refine ⟨sound.spared wf (.of_same rfl rfl) (.refl _) s.opened, ?_⟩
    refine whole_of_one rfl rfl fun ents first size _ notRoot indexed => ?_
    rcases exempt with root | ⟨bytes, later⟩
    · exact absurd root notRoot
    · rw [bytes] at indexed
      exact absurd indexed (by simp only [Bool.false_eq_true, false_or, later, not_false_eq_true])
  | served i c held ends same stamp =>
    have whole := sound.finished c (holds_of_entry held) ends
    rw [← same]
    refine ⟨?_, whole_of_serve (listable _) whole rfl rfl⟩
    obtain ⟨first, most, serves⟩ := dircacheServe_eq
      { s.drive with dircache := s.drive.dircache.put i { c with stamp }, dircacheClock := stamp }
      { c with stamp } req.unique req.offset req.size
    rw [serves] at wf ⊢
    exact sound.spared wf (.of_same rfl rfl) (spares_restamp held ends stamp) s.opened
  | started n node here held same i stamp spare j free path =>
    refine ⟨?_, whole_of_same rfl⟩
    refine sound.ask rfl wf calm rfl rfl free (sound.carries (spare.put_filling rfl))
      (entry_put_self spare.1) rfl rfl ?_
    have initial : (0 : UInt32) ≠ fsListContinue := by decide
    exact .first _ initial rfl

theorem Sound.request (sound : Sound contents s) (listable : ∀ dir, Listable (contents dir))
    (req : FdRequest) (calm : (s.step contents (.request req)).Calm) :
    Sound contents (s.step contents (.request req)) ∧ ListsWhole contents s (.request req) := by
  have works := sound.wf.sendOk
  have wf : (s.drive.dispatch req).WellFormed := step_wellFormed s.drive (.request req) sound.wf
  have about : s.subject (.request req) =
      if req.op = .opReaddir then some (req.nodeid, req.offset) else none := rfl
  rw [ListsWhole, about]
  by_cases isReaddir : req.op = .opReaddir
  · have same : s.drive.dispatch req = s.drive.opReaddir req := by rw [dispatch, isReaddir]
    rw [if_pos isReaddir]
    refine sound.readdir listable wf ?_ calm
    rw [same]
    exact opReaddir_reads works
  · have handled := dispatch_handled works req
    constructor
    · refine sound.spared wf (handled.frame works ?_) (dispatch_spares works isReaddir) s.opened
      exact fun node slot wire within isList => isReaddir (within.2.2 isList)
    · obtain ⟨more, adds, within⟩ := handled.replies works
      refine whole_of_plain adds fun reply member => ?_
      exact Bool.eq_false_iff.2 fun lists => isReaddir (within reply member lists)

theorem Sound.device (sound : Sound contents s) (deviceId : DeviceId) (name : Name)
    (added : Bool) :
    Sound contents (s.step contents (.device deviceId name added)) ∧
      ListsWhole contents s (.device deviceId name added) := by
  have wf : (s.drive.addDevice deviceId name added).WellFormed :=
    step_wellFormed s.drive (.device deviceId name added) sound.wf
  have announces := s.drive.addDevice_announces deviceId name added
  unfold ListsWhole
  unfold step
  dsimp only
  generalize s.drive.addDevice deviceId name added = after at wf announces
  have same : Frame s.drive after ∧ after.dircache = s.drive.dircache ∧
      after.replies = s.drive.replies := by
    cases announces <;> exact ⟨.of_same rfl rfl, rfl, rfl⟩
  obtain ⟨frame, dircache, replies⟩ := same
  refine ⟨?_, whole_of_same replies⟩
  rw [← moved_frame s frame]
  refine sound.spared wf frame ?_ s.opened
  rw [dircache]
  exact .refl _

theorem frame_freeSlot (waits : fd.inflight.entry i = some f) (other : f.op ≠ .fsList) :
    Frame fd (fd.freeSlot i) := by
  refine ⟨fun j g isList => ⟨fun held => (entry_clear held).2, fun held => ?_⟩, [],
    (append_nil _).symm, nofun⟩
  have apart : j ≠ i := by
    rintro rfl
    rw [waits] at held
    cases held
    exact other isList
  exact (entry_clear_of_ne apart).trans held

theorem Sound.answer (sound : Sound contents s) (rsp : FsRsp) :
    Sound contents (s.step contents (.answer rsp)) ∧ ListsWhole contents s (.answer rsp) := by
  have wf : (s.drive.handleFsRsp rsp).WellFormed :=
    step_wellFormed s.drive (.response rsp) sound.wf
  unfold ListsWhole
  unfold step
  dsimp only
  unfold answerOther
  rcases s.drive.handleFsRsp_cases rsp with ⟨missing, _⟩ | ⟨i, f, found, waits, takes⟩
  · rw [missing]
    exact ⟨sound, whole_of_same rfl⟩
  · rw [found]
    dsimp only
    split_ifs with isList succeeds
    · exact ⟨sound, whole_of_same rfl⟩
    all_goals
      have works : (s.drive.freeSlot i).sendOk = true := sound.wf.sendOk
      have handled := complete_handled works f rsp
      have kept : (s.drive.handleFsRsp rsp).dircache = s.drive.dircache := by
        rw [takes]
        exact handled.dircache works isList
      have frame : Frame s.drive (s.drive.handleFsRsp rsp) := by
        rw [takes]
        refine (frame_freeSlot waits isList).trans (handled.frame works ?_)
        exact fun node slot wire within lists => isList (within.2.2.2 lists)
      constructor
      · refine sound.spared wf frame ?_ _
        rw [kept]
        exact .refl _
      · obtain ⟨more, adds, within⟩ := handled.replies works
        rw [takes]
        refine whole_of_plain adds fun reply member => ?_
        exact Bool.eq_false_iff.2 fun lists => isList (within reply member lists)

theorem Progress.serve {c : Dircache} {left : List DirEntry} {reqId : ReqId} {req : FsReq}
    {entries : List DirEntry} (progress : Progress entries c left reqId { req }) (count : Nat)
    {cursor : List DirEntry}
    (takes : cursor = if req.options = fsListContinue then left else entries)
    (short : (encodeEntries (cursor.take (count + 1))).length < 256 ^ 4) :
    Progress entries c (cursor.drop (count + 1)) reqId
      { req, answer := listAnswer reqId (cursor.take (count + 1)) } := by
  have split : emitted (cursor.take (count + 1)) ++ emitted (cursor.drop (count + 1)) =
      emitted cursor := by
    rw [← emitted_append, take_append_drop]
  have ends : cursor.take (count + 1) = [] → cursor.drop (count + 1) = [] := by
    intro none
    rcases take_eq_nil_iff.1 none with zero | empty
    · cases zero
    · rw [empty]
      rfl
  refine .answered req _ short ?_ ends
  rw [append_assoc, split, takes]
  cases progress with
  | first _ initial empty =>
    rw [if_neg initial, empty]
    rfl
  | next _ goesOn sum =>
    rw [if_pos goesOn]
    exact sum

theorem Sound.served (sound : Sound contents s) (calm : s.Calm) (reqId : ReqId) (count : Nat) :
    Sound contents (s.step contents (.serve reqId count)) ∧
      ListsWhole contents s (.serve reqId count) := by
  rw [ListsWhole, Share.step]
  unfold serve
  split
  rotate_left
  · exact ⟨sound, whole_of_same rfl⟩
  rename_i req sent
  dsimp only
  split_ifs with short
  rotate_left
  · exact ⟨sound, whole_of_same rfl⟩
  obtain ⟨i, f, waits, isList, rfl⟩ := sound.mail reqId _ sent
  obtain ⟨n, node, _, _, _, _, _, opened⟩ := calm.node waits isList sent
  refine ⟨⟨sound.wf, sound.finished, ?_, ?_⟩, whole_of_same rfl⟩
  · intro j g held alsoList
    obtain ⟨m, c, mail, fills, filling, about, progress⟩ :=
      (sound.lists j g held alsoList).exists_mail
    by_cases isThis : j = i
    · subst isThis
      rw [waits] at held
      cases held
      rw [sent] at mail
      cases mail
      refine ⟨_, c, update_self _ _ _, fills, filling, about, ?_⟩
      dsimp only
      rw [update_self]
      refine progress.serve count ?_ short
      rw [cursor, opened]
    · have otherId : g.reqId ≠ f.reqId := fun equal => isThis (calm.slot_eq held waits equal)
      have otherFile : m.req.fileId ≠ req.fileId := by
        intro equal
        obtain ⟨_, _, _, _, _, _, _, alsoOpened⟩ := calm.node held alsoList mail
        rw [equal, opened] at alsoOpened
        exact isThis (calm.list_eq held waits alsoList isList alsoOpened.symm)
      refine ⟨m, c, ?_, fills, filling, about, ?_⟩
      · dsimp only
        rw [update_of_ne otherId]
        exact mail
      · dsimp only
        rw [update_of_ne otherFile]
        exact progress
  · intro id m mail
    by_cases isThis : id = f.reqId
    · exact ⟨i, f, waits, isList, isThis.symm⟩
    · dsimp only at mail
      rw [update_of_ne isThis] at mail
      exact sound.mail id m mail

theorem listAnswer_reqId (reqId : ReqId) (chunk : List DirEntry) :
    (listAnswer reqId chunk).reqId = reqId := by
  unfold listAnswer
  split_ifs <;> rfl

def without (s : Share) (i : SlotRef) (reqId : ReqId) : Share :=
  { s with drive := s.drive.freeSlot i, mail := Function.update s.mail reqId none }

theorem Sound.without (sound : Sound contents s) (calm : s.Calm)
    (waits : s.drive.inflight.entry i = some f) : Sound contents (s.without i f.reqId) := by
  have wf := sound.wf
  refine ⟨⟨⟨wf.unique, wf.started, wf.nodes⟩, wf.sendOk, ?_⟩, sound.finished, ?_, ?_⟩
  · exact fun other held => wf.renames other (holds_clear held)
  · intro j g held isList
    obtain ⟨apart, before⟩ := entry_clear held
    obtain ⟨m, c, mail, rest⟩ := (sound.lists j g before isList).exists_mail
    have otherId : g.reqId ≠ f.reqId := fun equal => apart (calm.slot_eq before waits equal)
    exact ⟨m, c, (update_of_ne otherId _ _).trans mail, rest⟩
  · intro id m mail
    have otherId : id ≠ f.reqId := by
      rintro rfl
      have none := (update_self _ _ _).symm.trans mail
      cases none
    have before := (update_of_ne otherId _ _).symm.trans mail
    obtain ⟨j, g, held, isList, same⟩ := sound.mail id m before
    have apart : j ≠ i := by
      rintro rfl
      rw [waits] at held
      cases held
      exact otherId same.symm
    exact ⟨j, g, (entry_clear_of_ne apart).trans held, isList, same⟩

/-- A LIST in flight collects a listing. -/
structure Collects (s : Share) (i : SlotRef) (f : Inflight) (c : Dircache) : Prop where
  waits : s.drive.inflight.entry i = some f
  isList : f.op = .fsList
  held : s.drive.dircache.entry f.dircache = some c
  filling : c.filling = true
  about : c.nodeid = f.nodeid

variable {c : Dircache}

theorem Sound.carries_put (sound : Sound contents s) (calm : s.Calm) (collects : s.Collects i f c)
    {d : Dircache}
    (whole : d.filling = false → d.ents.map Dirent.seen = emitted (contents d.nodeid)) :
    Carries contents (s.without i f.reqId) (s.drive.dircache.put f.dircache d) := by
  constructor
  · intro e there ends
    rcases holds_put there with rfl | before
    · exact whole ends
    · exact sound.finished e before ends
  · intro j g others alsoList
    refine entry_put_of_ne fun same => ?_
    obtain ⟨differs, before⟩ := entry_clear others
    obtain ⟨_, e, _, there, _, alsoAbout, _⟩ := (sound.lists j g before alsoList).exists_mail
    rw [same, collects.held] at there
    cases there
    exact differs (calm.list_eq before collects.waits alsoList collects.isList
      (alsoAbout.symm.trans collects.about))

theorem Sound.finish (sound : Sound contents s) (calm : s.Calm)
    (listable : Listable (contents c.nodeid)) (collects : s.Collects i f c)
    (whole : c.ents.map Dirent.seen = emitted (contents c.nodeid))
    (finishes : after =
      (s.drive.freeSlot i).finishList f.dircache c f.fuseUnique f.listOff f.readSize)
    (wf : after.WellFormed) :
    Sound contents ((s.without i f.reqId).moved after) ∧
      Whole contents s.drive after (some (f.nodeid, f.listOff)) := by
  subst finishes
  unfold finishList at wf ⊢
  dsimp only at wf ⊢
  generalize same : ({ s.drive.freeSlot i with dircache := _ } : FuseDrive) = filled at wf ⊢
  obtain ⟨first, most, serves⟩ := dircacheServe_eq filled { c with filling := false } f.fuseUnique
    f.listOff f.readSize
  constructor
  · rw [serves] at wf ⊢
    subst same
    exact (sound.without calm collects.waits).frame wf (.of_same rfl rfl)
      (sound.carries_put calm collects fun _ => whole) s.opened
  · refine whole_of_serve listable whole ?_ ?_
    · rw [← same]
      rfl
    · rw [← collects.about]

theorem Sound.goesOn {n : NodeRef} {node : Node} (sound : Sound contents s) (calm : s.Calm)
    (listable : Listable (contents f.nodeid)) (collects : s.Collects i f c)
    (here : s.drive.nodes.entry n = some node)
    (same : node.nodeid = f.nodeid) (path : s.drive.nodePath n (pathCap - 2) ≠ none)
    (more : chunk ≠ []) (short : (encodeEntries chunk).length < 256 ^ 4)
    (sum : c.ents.map Dirent.seen ++ emitted chunk ++ emitted (s.rest node.fileId) =
      emitted (contents f.nodeid))
    (continues : after = (s.drive.freeSlot i).continueList f n c (listPayload chunk))
    (wf : after.WellFormed) (later : ((s.without i f.reqId).moved after).Calm) :
    Sound contents ((s.without i f.reqId).moved after) ∧
      Whole contents s.drive after (some (f.nodeid, f.listOff)) := by
  obtain ⟨added, reads, seen⟩ := decodeDirents_encode (s.drive.freeSlot i) f.nodeid
    (d := { cache := c }) (length_le_encodeEntries chunk) rfl (listable.room sum) short
  have records : 0 < chunk.length := length_pos_iff.2 more
  unfold continueList at continues
  dsimp only at continues
  rw [fsccOf_listPayload short, reads] at continues
  dsimp only at continues
  rw [if_pos ⟨by omega, Bool.false_ne_true⟩] at continues
  generalize filled : ({ s.drive.freeSlot i with dircache := _ } : FuseDrive) = fd at continues
  have works : fd.sendOk = true := by
    rw [← filled]
    exact sound.wf.sendOk
  have nodes : fd.nodes = s.drive.nodes := by rw [← filled, freeSlot]
  have inflight : fd.inflight = s.drive.inflight.clear i := by rw [← filled, freeSlot]
  rcases sendList_cases works (nodes ▸ here) f.fuseUnique true f.listOff f.readSize f.dircache with
    ⟨_, stuck⟩ | ⟨j, name, free, asks⟩
  · exfalso
    rcases stuck with noPath | full
    · rw [nodePath_congr nodes] at noPath
      exact path noPath
    · have inside : i < (s.drive.inflight.clear i).length := by
        rw [length_clear]
        exact inside_of_entry collects.waits
      rw [inflight] at full
      exact free_ne_none inside (entry_clear_self _ _) full
  · rw [asks] at continues
    have issues : after = fd.issueAt n j
      (listSlot node f.fuseUnique f.listOff f.readSize f.dircache)
        (listReq node true name) := continues
    subst filled
    constructor
    · refine (sound.without calm collects.waits).ask issues wf later rfl rfl free
        (sound.carries_put calm collects fun ends => ?_)
        (entry_put_self (inside_of_entry collects.held)) collects.filling
        (collects.about.trans same.symm) (.next _ rfl ?_)
      · exact Bool.noConfusion (collects.filling.symm.trans ends)
      · dsimp only [listSlot]
        rw [same, map_append, seen]
        exact sum
    · refine whole_of_same ?_
      rw [issues]
      rfl

theorem deliver_unserved {reqId : ReqId} (unserved : (s.mail reqId).bind Mail.answer = none) :
    s.deliver reqId = s := by
  unfold deliver
  split
  · rename_i served
    rw [served] at unserved
    cases unserved
  · rfl

theorem Sound.delivered (sound : Sound contents s) (calm : s.Calm)
    (listable : ∀ dir, Listable (contents dir)) (reqId : ReqId)
    (later : (s.step contents (.deliver reqId)).Calm) :
    Sound contents (s.step contents (.deliver reqId)) ∧ ListsWhole contents s (.deliver reqId) := by
  cases served : (s.mail reqId).bind Mail.answer with
  | none =>
    rw [ListsWhole, Share.step, deliver_unserved served]
    exact ⟨sound, whole_of_same rfl⟩
  | some rsp =>
    obtain ⟨m, mail, answer⟩ := Option.bind_eq_some_iff.1 served
    obtain ⟨i, f, waits, isList, rfl⟩ := sound.mail reqId m mail
    obtain ⟨_, c, sent, held, filling, about, progress⟩ :=
      (sound.lists i f waits isList).exists_mail
    have collects : s.Collects i f c := ⟨waits, isList, held, filling, about⟩
    rw [mail] at sent
    cases sent
    cases progress with
    | first req | next req => cases answer
    | answered req chunk short sum ends =>
      obtain ⟨n, node, finds, here, same, file, path, _⟩ := calm.node waits isList mail
      rcases s.drive.handleFsRsp_cases (listAnswer f.reqId chunk) with
        ⟨missing, _⟩ | ⟨j, g, found, taken, takes⟩
      · rw [listAnswer_reqId] at missing
        have other := lookup_eq_none missing (holds_of_entry waits)
        rw [beq_self_eq_true] at other
        cases other
      rw [listAnswer_reqId] at found
      have oneId : f.reqId = g.reqId := (beq_iff_eq.1 (lookup_eq_some found).2).symm
      obtain rfl := calm.slot_eq waits taken oneId
      rw [waits] at taken
      cases taken
      rw [complete, isList] at takes
      have subject : s.subject (.deliver f.reqId) = some (f.nodeid, f.listOff) := by
        rw [Share.subject, found]
        rfl
      have steps : s.step contents (.deliver f.reqId) =
          (s.without i f.reqId).moved (s.drive.handleFsRsp (listAnswer f.reqId chunk)) := by
        rw [step, deliver, mail]
        rfl
      have wf := step_wellFormed s.drive (.response (listAnswer f.reqId chunk)) sound.wf
      have fills : (s.drive.freeSlot i).fillingCache f = some c := by
        have there : (s.drive.freeSlot i).dircache.entry f.dircache = some c := held
        rw [fillingCache, there, Option.filter_some, filling, about, beq_self_eq_true]
        rfl
      have finds : (s.drive.freeSlot i).nodeFind f.nodeid = some n := finds
      rw [steps] at later
      rw [ListsWhole, subject, steps]
      rw [completeList, fills, finds] at takes
      dsimp only at takes
      by_cases empty : chunk = []
      · subst empty
        refine sound.finish calm (listable _) collects ?_ takes wf
        rw [ends rfl] at sum
        rw [about, ← sum]
        exact ((append_nil _).trans (append_nil _)).symm
      · have answer : listAnswer f.reqId chunk =
            { reqId := f.reqId, status := statusSuccess, payload := listPayload chunk } := by
          rw [listAnswer, if_neg]
          rw [List.isEmpty_iff]
          exact empty
        have status : (listAnswer f.reqId chunk).status = statusSuccess := by rw [answer]
        have payload : (listAnswer f.reqId chunk).payload = listPayload chunk := by rw [answer]
        rw [if_pos status, payload] at takes
        rw [← file] at sum
        exact sound.goesOn calm (listable _) collects here same path empty short sum takes wf later

theorem Sound.step (listable : ∀ dir, Listable (contents dir)) (e : Event)
    (later : (s.step contents e).Calm) (sound : Sound contents s) (calm : s.Calm) :
    Sound contents (s.step contents e) ∧ ListsWhole contents s e := by
  cases e with
  | request req => exact sound.request listable req later
  | device deviceId name added => exact sound.device deviceId name added
  | answer rsp => exact sound.answer rsp
  | serve reqId count => exact sound.served calm reqId count
  | deliver reqId => exact sound.delivered calm listable reqId later

/-- **Listings are whole, one at a time.** Let the client serve LISTs from one cursor
for each file id, at any time and with any number of entries. In every run in which
no two listings of one directory are collected at a time, and a directory keeps its
handle while it is listed, every listing that the kernel gets holds every entry of
its directory once and no other entry. -/
theorem listings_whole_of_calm (contents : NodeId → List DirEntry) (indexOffsets : Bool)
    (events : List Event) (listable : ∀ dir, Listable (contents dir))
    (calm : Runs.Along (Share.step contents) (fun s e => (s.step contents e).Calm)
      (start indexOffsets) events) :
    Runs.Along (Share.step contents) (ListsWhole contents) (start indexOffsets) events := by
  have quiet : (start indexOffsets).Calm := by
    cases indexOffsets <;> decide +kernel
  refine calm.entails (P := fun s => Sound contents s ∧ s.Calm) ?_
    ⟨start_sound indexOffsets, quiet⟩
  rintro s e later ⟨sound, calm⟩
  obtain ⟨next, whole⟩ := sound.step listable e later calm
  exact ⟨⟨next, later⟩, whole⟩

def letters (_ : NodeId) : List DirEntry :=
  [{ units := [0x61] }, { units := [0x62] }, { units := [0x63] }]

def twoHandles : List Event :=
  [.device 1 [0x43, 0x3A] true,
    .request { op := .opOpendir, unique := 10, nodeid := 2 },
    .answer { reqId := 1, status := statusSuccess, fileId := 5 },
    .request { op := .opOpendir, unique := 11, nodeid := 2 }]

def oneListing : List Event :=
  twoHandles ++
    [.request { op := .opReaddir, unique := 20, nodeid := 2, size := 4096 },
      .serve 2 0, .deliver 2, .serve 3 1, .deliver 3, .serve 4 0, .deliver 4]

theorem listings_whole_of_calm_one :
    Runs.Along (Share.step letters) (fun s e => (s.step letters e).Calm) (start true) oneListing ∧
      Runs.Along (Share.step letters) (ListsWhole letters) (start true) oneListing := by
  have calm : Runs.Along (Share.step letters) (fun s e => (s.step letters e).Calm) (start true)
      oneListing := by decide +kernel
  have listable : Listable (letters 2) :=
    ⟨by decide +kernel, by decide +kernel, by decide +kernel⟩
  exact ⟨calm, listings_whole_of_calm letters true oneListing (fun _ => listable) calm⟩

def twoListings : List Event :=
  twoHandles ++
    [.request { op := .opReaddir, unique := 20, nodeid := 2, size := 4096 },
      .request { op := .opReaddir, unique := 21, nodeid := 2, size := 4096 },
      .serve 2 0, .serve 3 0, .deliver 2, .deliver 3, .serve 4 0, .serve 5 0, .deliver 4,
      .deliver 5, .serve 6 0, .serve 7 0, .deliver 6, .deliver 7]

def namesListed (s : Share) : List (Unique × List Name) :=
  s.drive.replies.filterMap fun reply =>
    match reply.body with
    | .dirents ents _ _ => some (reply.unique, ents.map Dirent.name)
    | _ => none

/-- Two listings of one directory take entries from each other. -/
theorem twoListings_split :
    namesListed (twoListings.foldl (Share.step letters) (start true)) =
        [(20, [[0x61], [0x62]]), (21, [[0x61], [0x63]])] ∧
      (listing (letters 2)).map Prod.fst = [[0x61], [0x62], [0x63]] := by
  decide +kernel

end Share

end RdpServer.Session
