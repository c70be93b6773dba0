import RdpServer.Session.Clip.Effects

/-!
# Downloads

The entries of a paste are fetched one after the other, each range by range. `Reached` describes
it between two entries and `Fetching` within one. From there the session comes to the next
entry, or to the end of the paste, or it aborts (`dlBegin_outcome`, `dlOnFileData_outcome`).
-/

namespace RdpServer.Session.Clip

open Backend Channels.Cliprdr List

abbrev Replies := List (Nat × Bytes)

/-- The first bytes of a file of a given size are those of the replies to requests: each
request is for the offset that the replies before it reach. -/
inductive Fetched (replies : Replies) (size : Nat) :
    Nat → List (ClipFileReq × Nat) → Bytes → Prop where
  | start : Fetched replies size 0 [] []
  | range {off : Nat} {reqs : List (ClipFileReq × Nat)} {content : Bytes}
      (fetched : Fetched replies size off reqs content) (req : ClipFileReq) (k : Nat)
      (data : Bytes) (there : req.position = off) (more : off < size)
      (replied : (k, data) ∈ replies) :
      Fetched replies size (off + (data.take (size - off)).length) (reqs ++ [(req, k)])
        (content ++ data.take (size - off))

variable {replies : Replies} {size off : Nat} {reqs : List (ClipFileReq × Nat)}
  {content : Bytes} {after : Download}

section

variable (fetched : Fetched replies size off reqs content)
include fetched

theorem Fetched.length_eq : content.length = off := by
  induction fetched with
  | start => rfl
  | range fetched req k data there more replied ih => rw [length_append, ih]

theorem Fetched.more (others : Replies) : Fetched (replies ++ others) size off reqs content := by
  induction fetched with
  | start => exact .start
  | range fetched req k data there more replied ih =>
    exact .range ih req k data there more (mem_append_left _ replied)

theorem Fetched.replied : ∀ r ∈ reqs, r.2 ∈ replies.map Prod.fst := by
  induction fetched with
  | start => exact nofun
  | range fetched req k data there more replied ih =>
    intro r member
    rcases mem_append.1 member with before | last
    · exact ih r before
    · rw [mem_singleton.1 last]
      exact mem_map_of_mem (f := Prod.fst) replied

end

namespace Download

/-- The requests that were sent for a file since a paste began, with their numbers. -/
def requestsFor (d : Download) (since lindex : Nat) : List (ClipFileReq × Nat) :=
  (d.asked.zipIdx.drop since).filter fun r => r.1.lindex == lindex

/-- **A file is complete**: it holds what was replied to its requests, up to its size. -/
def Complete (d : Download) (since : Nat) (replies : Replies) (e : DlEnt) : Prop :=
  ∃ content, d.files e.path = some content ∧ content.length = e.size ∧
    Fetched replies e.size e.size (d.requestsFor since e.lindex) content

/-- The files of a paste have different paths, and all entries different indices. -/
structure Distinct (entries : List DlEnt) : Prop where
  paths : entries.Pairwise fun a b => a.isDir = false → b.isDir = false → a.path ≠ b.path
  indices : entries.Pairwise fun a b => a.lindex ≠ b.lindex

/-- The files before an entry are complete, and nothing was asked for the others. -/
structure Reached (d : Download) (since : Nat) (replies : Replies) (entries : List DlEnt)
    (j : Nat) : Prop where
  complete : ∀ i e, i < j → entries[i]? = some e → e.isDir = false → d.Complete since replies e
  unasked : ∀ i e, j ≤ i → entries[i]? = some e → d.requestsFor since e.lindex = []

structure Fetching (d : Download) (since : Nat) (replies : Replies) (entries : List DlEnt)
    (e : DlEnt) : Prop where
  active : d.active = true
  descs : d.descs = entries
  current : entries[d.idx]? = some e
  file : e.isDir = false
  fd : d.fd = some e.path
  size : d.size = e.size
  more : d.off < d.size
  complete : ∀ i e', i < d.idx → entries[i]? = some e' → e'.isDir = false →
    d.Complete since replies e'
  unasked : ∀ i e', d.idx < i → entries[i]? = some e' → d.requestsFor since e'.lindex = []
  part : ∃ req reqs content, d.requestsFor since e.lindex = reqs ++ [(req, d.asked.length - 1)] ∧
    req.position = d.off ∧ d.files e.path = some content ∧
    Fetched replies e.size d.off reqs content

/-- An entry is being fetched, and the next range of it is to be requested. -/
structure Within (d : Download) (since : Nat) (replies : Replies) (entries : List DlEnt)
    (e : DlEnt) (content : Bytes) : Prop where
  begun : since ≤ d.asked.length
  active : d.active = true
  descs : d.descs = entries
  current : entries[d.idx]? = some e
  file : e.isDir = false
  fd : d.fd = some e.path
  size : d.size = e.size
  complete : ∀ i e', i < d.idx → entries[i]? = some e' → e'.isDir = false →
    d.Complete since replies e'
  unasked : ∀ i e', d.idx < i → entries[i]? = some e' → d.requestsFor since e'.lindex = []
  there : d.files e.path = some content
  fetched : Fetched replies e.size d.off (d.requestsFor since e.lindex) content

variable {d : Download} {since : Nat} {entries : List DlEnt} {e : DlEnt}

theorem pairwise_of_ne {apart : DlEnt → DlEnt → Prop} (distinct : entries.Pairwise apart)
    (symmetric : ∀ a b, apart a b → apart b a) {i j : Nat} {a b : DlEnt}
    (first : entries[i]? = some a) (second : entries[j]? = some b) (differ : i ≠ j) :
      apart a b := by
  obtain ⟨below, rfl⟩ := List.getElem?_eq_some_iff.1 first
  obtain ⟨below', rfl⟩ := List.getElem?_eq_some_iff.1 second
  rcases Nat.lt_or_gt_of_ne differ with before | behind
  · exact List.pairwise_iff_getElem.1 distinct i j below below' before
  · exact symmetric _ _ (pairwise_iff_getElem.1 distinct j i below' below behind)

theorem Distinct.path_ne (distinct : Distinct entries) {i j : Nat} {a b : DlEnt}
    (first : entries[i]? = some a) (second : entries[j]? = some b) (differ : i ≠ j)
    (file : a.isDir = false) (other : b.isDir = false) : a.path ≠ b.path :=
  pairwise_of_ne distinct.paths (fun _ _ apart file other => (apart other file).symm) first second
    differ file other

theorem requestsFor_append (begun : since ≤ d.asked.length) (req : ClipFileReq) (lindex : Nat)
    (asked : after.asked = d.asked ++ [req]) :
    after.requestsFor since lindex = d.requestsFor since lindex ++
        if req.lindex = lindex then [(req, d.asked.length)] else [] := by
  have room : since ≤ d.asked.zipIdx.length := by rwa [length_zipIdx]
  rw [requestsFor, asked, zipIdx_append, drop_append_of_le_length room, filter_append]
  rw [zipIdx_singleton, filter_singleton, Nat.zero_add]
  by_cases same : req.lindex = lindex
  · rw [if_pos same, beq_iff_eq.2 same]
    rfl
  · rw [if_neg same, beq_eq_false_iff_ne.2 same]
    rfl

theorem Complete.keep (complete : d.Complete since replies e)
    (files : after.files e.path = d.files e.path)
    (requests : after.requestsFor since e.lindex = d.requestsFor since e.lindex) :
    after.Complete since replies e := by
  obtain ⟨content, there, length, fetched⟩ := complete
  exact ⟨content, files.trans there, length, requests.symm ▸ fetched⟩

theorem Complete.more (complete : d.Complete since replies e) (others : Replies) :
    d.Complete since (replies ++ others) e := by
  obtain ⟨content, there, length, fetched⟩ := complete
  exact ⟨content, there, length, fetched.more others⟩

theorem Fetching.hear (fetching : d.Fetching since replies entries e) (others : Replies) :
    d.Fetching since (replies ++ others) entries e := by
  obtain ⟨req, reqs, content, requests, position, there, fetched⟩ := fetching.part
  exact { fetching with
    complete := fun i e' below found file => (fetching.complete i e' below found file).more others
    part := ⟨req, reqs, content, requests, position, there, fetched.more others⟩ }

end Download

open Download

variable {c : Clip} {host : Host} {since : Nat} {entries : List DlEnt} {e : DlEnt}

theorem download_answerDeferred (data : Option Bytes) :
    (c.answerDeferred data).download = c.download := by
  unfold answerDeferred
  rw [answerSelectionRequest_eq]
  split_ifs <;> rfl

theorem download_requestRange (c : Clip) (e : DlEnt) :
    ∃ req stream, req.position = c.dlOff ∧ req.lindex = e.lindex ∧ (c.requestRange e).download =
        { c.download with stream := stream, asked := c.download.asked ++ [req] } := by
  refine ⟨{ streamId := (c.dlStream + 1) % 0x100000000, lindex := e.lindex
            flags := filecontentsRange, posLow := c.dlOff % 0x100000000
            posHigh := c.dlOff / 0x100000000
            cbRequested := min (c.dlSize - c.dlOff) fileChunk },
    (c.dlStream + 1) % 0x100000000, Nat.mod_add_div' _ _, rfl, ?_⟩
  simp only [requestRange, sendClipFileRequest, send, download, filterMap_append]
  rfl

inductive Outcome (since : Nat) (replies : Replies) (entries : List DlEnt) (told : List Notify) :
    Clip → Prop where
  | fetching {after : Clip} (e : DlEnt) (silent : after.notified = told)
      (begun : since ≤ after.download.asked.length)
      (fetching : after.download.Fetching since replies entries e) :
      Outcome since replies entries told after
  | finished {after : Clip} (idle : after.dlActive = false)
      (complete : ∀ e ∈ entries, e.isDir = false → after.download.Complete since replies e) :
      Outcome since replies entries told after
  | aborted {after : Clip} (idle : after.dlActive = false)
      (refused : ∀ re octets,
        after.notified ≠ told ++ [{ request := re, answer := .data octets }]) :
      Outcome since replies entries told after

theorem dlAbort_outcome (c : Clip) : Outcome since replies entries c.notified c.dlAbort := by
  have view := view_dlAbort (c := c)
  refine .aborted (congrArg View.active view) fun re octets told => ?_
  have notified : c.dlAbort.notified = c.view.abort.notified := congrArg View.notified view
  rw [notified] at told
  unfold View.abort View.answer at told
  split_ifs at told with pending
  · cases append_cancel_left told
  · have empty := append_cancel_left ((append_nil _).trans told)
    cases empty

theorem fetching_of_requestRange (distinct : Distinct entries)
    (within : c.download.Within since replies entries e content) (more : c.dlOff < c.dlSize) :
    (c.requestRange e).download.Fetching since replies entries e ∧
      since ≤ (c.requestRange e).download.asked.length := by
  obtain ⟨req, stream, position, lindex, after⟩ := download_requestRange c e
  rw [after]
  have asked : ∀ other, ({ c.download with stream := stream, asked := c.download.asked ++ [req] } :
      Download).requestsFor since other = _ :=
    fun other => requestsFor_append within.begun req other rfl
  have others : ∀ i e', i ≠ c.dlIdx → entries[i]? = some e' → req.lindex ≠ e'.lindex :=
    fun i e' apart found => lindex ▸ pairwise_of_ne distinct.indices (fun _ _ => Ne.symm)
      within.current found apart.symm
  have longer : (c.download.asked ++ [req]).length = _ := length_append
  refine ⟨⟨within.active, within.descs, within.current, within.file, within.fd, within.size, more,
    fun i e' below found filed => ?_, fun i e' above found => ?_,
    req, _, content, ?_, position, within.there, within.fetched⟩, ?_⟩
  · refine (within.complete i e' below found filed).keep rfl ?_
    rw [asked, if_neg (others i e' (ne_of_lt below) found), append_nil]
  · rw [asked, if_neg (others i e' (ne_of_gt above) found), append_nil]
    exact within.unasked i e' above found
  · rw [asked, if_pos lindex, longer]
    rfl
  · rw [longer]
    exact Nat.le_add_right_of_le within.begun

theorem Download.Reached.pass {d : Download} {j : Nat} {passed : DlEnt}
    (distinct : Distinct entries) (reached : d.Reached since replies entries j)
    (current : entries[j]? = some passed)
    (files : ∀ path, path ≠ passed.path → after.files path = d.files path)
    (requests : after.requestsFor since = d.requestsFor since)
    (done : passed.isDir = false → after.Complete since replies passed)
    (kept : passed.isDir = true → after.files = d.files) :
    after.Reached since replies entries (j + 1) := by
  refine ⟨fun i e below found file => ?_, fun i e above found => ?_⟩
  · by_cases here : i = j
    · subst here
      rw [current] at found
      cases found
      exact done file
    · have earlier := reached.complete i e (by omega) found file
      refine earlier.keep ?_ (congrFun requests e.lindex)
      cases dir : passed.isDir with
      | true => rw [kept dir]
      | false => exact files _ (distinct.path_ne found current here file dir)
  · rw [requests]
    exact reached.unasked i e (Nat.le_of_succ_le above) found

theorem beginCurrent_outcome (host : Host) (distinct : Distinct entries) (rest : List DlEnt)
    {told : List Notify} (c : Clip) (left : entries.drop c.dlIdx = rest)
    (silent : c.notified = told) (active : c.dlActive = true) (descs : c.dlDescs = entries)
    (begun : since ≤ c.download.asked.length)
    (reached : c.download.Reached since replies entries c.dlIdx) :
    (beginCurrent host rest c).2 = false ∧ (beginCurrent host rest c).1.notified = told ∨
      (beginCurrent host rest c).2 = true ∧
        Outcome since replies entries told (beginCurrent host rest c).1 := by
  induction rest generalizing c with
  | nil =>
    refine .inr ⟨rfl, .finished rfl fun e member file => ?_⟩
    obtain ⟨i, below, rfl⟩ := getElem_of_mem member
    have passed : i < c.dlIdx :=
      lt_of_lt_of_le below (drop_eq_nil_iff.1 left)
    have same := download_answerDeferred (c := c) (some (uriListOf c.dlDescs))
    have requests := congrArg (fun d : Download => d.requestsFor since entries[i].lindex) same
    exact (reached.complete i _ passed (getElem?_eq_getElem below) file).keep
      (congrFun (congrArg Download.files same) _) requests
  | cons e rest ih =>
    have current : entries[c.dlIdx]? = some e := by
      have head := congrArg head? left
      rwa [head?_drop] at head
    have next : entries.drop (c.dlIdx + 1) = rest := by
      rw [← tail_drop, left, tail_cons]
    rw [beginCurrent]
    split_ifs with dir made created empty
    · refine ih { c with dlIdx := c.dlIdx + 1 } next silent active descs begun ?_
      exact reached.pass distinct current (fun _ _ => rfl) rfl
        (fun file => absurd dir (by rw [file]; exact Bool.false_ne_true)) (fun _ => rfl)
    · exact .inl ⟨rfl, silent⟩
    · refine ih { c.truncate e.path with
        dlOff := 0, dlSize := e.size, dlFd := none, dlIdx := c.dlIdx + 1 }
        next silent active descs begun ?_
      refine reached.pass distinct current (fun path other => if_neg other) rfl
        (fun file => ⟨[], if_pos rfl, empty.symm, ?_⟩) (fun isDir => absurd isDir dir)
      have unasked := reached.unasked c.dlIdx e (le_rfl) current
      have nothing : Fetched replies e.size e.size [] [] := by
        rw [empty]
        exact .start
      exact Eq.mpr (congrArg (Fetched replies e.size e.size · []) unasked) nothing
    · have file : e.isDir = false := Bool.eq_false_iff.2 dir
      have unasked := reached.unasked c.dlIdx e (le_rfl) current
      obtain ⟨fetching, more⟩ := fetching_of_requestRange
        (c := { c.truncate e.path with dlOff := 0, dlSize := e.size }) distinct
        ⟨begun, active, descs, current, file, rfl, rfl,
          fun i e' below found filed => (reached.complete i e' below found filed).keep
            (if_neg (distinct.path_ne found current (ne_of_lt below) filed file)) rfl,
          fun i e' above found => reached.unasked i e' (le_of_lt above) found, if_pos rfl,
          Eq.mpr (congrArg (Fetched replies e.size 0 · []) unasked) .start⟩
        (Nat.pos_of_ne_zero empty)
      exact .inr ⟨rfl, .fetching e silent more fetching⟩
    · exact .inl ⟨rfl, silent⟩

/-- **The next entry**: from a state between two entries. -/
theorem dlBegin_outcome (host : Host) (distinct : Distinct entries) (active : c.dlActive = true)
    (descs : c.dlDescs = entries) (begun : since ≤ c.download.asked.length)
    (reached : c.download.Reached since replies entries c.dlIdx) :
    Outcome since replies entries c.notified (c.dlBegin host) := by
  have begins := beginCurrent_outcome host distinct (c.dlDescs.drop c.dlIdx) c
    (descs ▸ rfl) rfl active descs begun reached
  rw [dlBegin_eq]
  rcases begins with ⟨failed, silent⟩ | ⟨done, outcome⟩
  · rw [if_neg (Bool.eq_false_iff.1 failed), ← silent]
    exact dlAbort_outcome _
  · rwa [if_pos done]

theorem dlContinue_outcome (host : Host) (distinct : Distinct entries)
    (within : c.download.Within since replies entries e content) (inside : c.dlOff ≤ c.dlSize) :
    Outcome since replies entries c.notified (c.dlContinue host e) := by
  unfold dlContinue
  by_cases full : c.dlOff ≥ c.dlSize
  · rw [if_pos full]
    have whole : c.dlOff = e.size := (le_antisymm inside full).trans within.size
    refine dlBegin_outcome (c := { c with dlFd := none, dlIdx := c.dlIdx + 1 }) host distinct
      within.active within.descs within.begun
      ⟨fun i e' below found filed => ?_, fun i e' above found => within.unasked i e' above found⟩
    by_cases here : i = c.dlIdx
    · subst here
      have same : some e = some e' := within.current.symm.trans found
      cases same
      have fetched := within.fetched
      exact ⟨content, within.there, fetched.length_eq.trans whole,
        Eq.subst (motive := fun off => Fetched replies e.size off _ content) whole fetched⟩
    · exact within.complete i e' (Nat.lt_of_le_of_ne (Nat.le_of_lt_succ below) here) found filed
  · rw [if_neg full]
    obtain ⟨fetching, more⟩ := fetching_of_requestRange distinct within (Nat.lt_of_not_le full)
    exact .fetching e rfl more fetching

/-- **A reply** to the range request that was sent last. -/
theorem dlOnFileData_outcome (host : Host) (distinct : Distinct entries)
    (begun : since ≤ c.download.asked.length)
    (fetching : c.download.Fetching since replies entries e) (status : Nat) (data : Bytes)
    (replied : status = 0 → (c.download.asked.length - 1, data) ∈ replies) :
    Outcome since replies entries c.notified (c.dlOnFileData host c.dlStream status data) := by
  obtain ⟨active, descs, current, file, fd, size, more, complete, unasked,
    req, reqs, content, requests, position, there, fetched⟩ := fetching
  have active : c.dlActive = true := active
  have descs : c.dlDescs = entries := descs
  have fd : c.dlFd = some e.path := fd
  have more : c.dlOff < c.dlSize := more
  have found : c.dlDescs[c.dlIdx]? = some e := by
    rw [descs]
    exact current
  simp only [dlOnFileData, active, found, fd, Bool.not_true, Bool.false_eq_true, if_false,
    ne_eq, not_true_eq_false]
  by_cases failed : status = 0
  · rw [if_neg (not_not_intro failed)]
    by_cases empty : data.isEmpty
    · rw [if_pos empty, if_pos more]
      exact dlAbort_outcome c
    · split_ifs
      · exact dlAbort_outcome c
      · have next := Fetched.range fetched req _ data position (size ▸ more) (replied failed)
        rw [← requests] at next
        have written : (c.append e.path (data.take (c.dlSize - c.dlOff))).files e.path =
            some (content ++ data.take (c.dlSize - c.dlOff)) := by
          have there : c.files e.path = some content := there
          simp only [append, if_true, there, Option.getD_some]
        have inside : c.dlOff + (data.take (c.dlSize - c.dlOff)).length ≤ c.dlSize := by
          have taken := length_take_le (c.dlSize - c.dlOff) data
          omega
        exact dlContinue_outcome (c := { c.append e.path (data.take (c.dlSize - c.dlOff)) with
            dlOff := c.dlOff + (data.take (c.dlSize - c.dlOff)).length })
          host distinct ⟨begun, active, descs, current, file, fd, size,
            fun i e' below found filed => (complete i e' below found filed).keep
              (if_neg (distinct.path_ne found current (ne_of_lt below) filed file)) rfl,
            unasked, written, size ▸ next⟩ inside
  · rw [if_pos failed]
    exact dlAbort_outcome c

end RdpServer.Session.Clip
