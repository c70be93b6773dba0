import RdpServer.Lib.Runs
import RdpServer.Session.Clip.Download

/-!
# Pasted files are not mixed up

A run of the session together with the replies of the client to its range requests. The
session takes a reply if it carries the stream id of the request sent last. The stream ids
start again with every paste, so that a late reply can be taken for one of the next paste
(`lateReply_mixes_files`); without such replies the files are complete
(`pasted_files_complete`).
-/

namespace RdpServer.Session

open Backend Channels.Cliprdr Clip Clip.Download List

/-- The session with what the client replied, and the paste that was begun last. -/
structure Pasting where
  clip : Clip := {}
  /-- The number of range requests sent before the paste. -/
  since : Nat := 0
  entries : List DlEnt := []
  replies : Replies := []

namespace Pasting

inductive Event where
  /-- An X event or a message of the worker. -/
  | other (event : Clip.Event)
  /-- The reply to a range request, by the number of the request. -/
  | reply (host : Host) (k status : Nat) (data : Bytes)

/-- The entries that `clip_dl_start` makes. -/
def entriesFrom (host : Host) (blob : Bytes) : List DlEnt :=
  match parseFileList blob maxFiles, host.tmpdir with
  | some descs, some dir =>
    match dlEntries host dir descs 0 with
    | .ok entries => entries
    | .error () => []
  | _, _ => []

def pasteIn (c : Clip) (host : Host) : ClipMsg → Option (List DlEnt)
  | .data format status octets =>
    if format = fmtFiles ∧ c.rdpDataPending then
      (dataOf status octets).map (entriesFrom host)
    else none
  | _ => none

def pasteOf (c : Clip) : Clip.Event → Option (List DlEnt)
  | .message host type payload => (ClipMsg.read type payload).bind (pasteIn c host)
  | _ => none

def isFileData : ClipMsg → Bool
  | .fileData _ _ _ => true
  | _ => false

def bringsFileData : Clip.Event → Bool
  | .message _ type payload => (ClipMsg.read type payload).any isFileData
  | _ => false

def step (s : Pasting) : Event → Pasting
  | .other event =>
    if bringsFileData event then s
    else
      match pasteOf s.clip event with
      | none => { s with clip := s.clip.step event }
      | some entries =>
        { s with clip := s.clip.step event, since := s.clip.download.asked.length
                 entries := entries }
  | .reply host k status data =>
    match s.clip.download.asked[k]? with
    | none => s
    | some req =>
      { s with clip := s.clip.handleBeMsg host (.fileData req.streamId status data)
               replies := s.replies ++ if status = 0 then [(k, data)] else [] }

def run (events : List Event) (s : Pasting) : Pasting := events.foldl step s

def Apart (entries : List DlEnt) : Prop :=
  entries.Pairwise fun a b => a.isDir = false → b.isDir = false → a.path ≠ b.path

def takes (s : Pasting) (k : Nat) : Bool :=
  s.clip.dlActive &&
    s.clip.download.asked[k]?.any fun req => req.streamId == s.clip.dlStream

/-- A reply with data that is taken is to the request sent last, and the files of a paste
have different paths. -/
def Orderly (s : Pasting) : Event → Prop
  | .other event => ∀ entries ∈ pasteOf s.clip event, Apart entries
  | .reply _ k status _ =>
    status = 0 → s.takes k = true → k + 1 = s.clip.download.asked.length

instance decidableApart (entries : List DlEnt) : Decidable (Apart entries) :=
  inferInstanceAs (Decidable (entries.Pairwise _))

instance decidableOrderly (s : Pasting) : (event : Event) → Decidable (s.Orderly event)
  | .other event => inferInstanceAs (Decidable (∀ entries ∈ pasteOf s.clip event, Apart entries))
  | .reply _ k status _ => inferInstanceAs
      (Decidable (status = 0 → s.takes k = true → k + 1 = s.clip.download.asked.length))

def advances (s : Pasting) : Event → Bool
  | .other event => !bringsFileData event && (pasteOf s.clip event).isSome
  | .reply _ _ _ _ => true

def Answers (s : Pasting) (event : Event) : Prop :=
  s.advances event = true ∧ ∃ re octets,
    (s.step event).clip.notified =
      s.clip.notified ++ [{ request := re, answer := .data octets }]

/-- **The files of the paste** hold what was replied to the paste's own requests. -/
def Intact (s : Pasting) : Prop :=
  ∀ e ∈ s.entries, e.isDir = false → s.clip.download.Complete s.since s.replies e

def Sound (s : Pasting) : Prop :=
  s.clip.dlActive = true → Distinct s.entries ∧ s.since ≤ s.clip.download.asked.length ∧
    ∃ e, s.clip.download.Fetching s.since s.replies s.entries e

variable {s : Pasting} {c : Clip} {host : Host}

theorem dlEntry_lindex {dir : Path} {desc : Filedesc} {i : Nat} {e : DlEnt}
    (made : dlEntry host dir desc i = .ok (some e)) : e.lindex = i := by
  unfold dlEntry at made
  split at made
  · cases made
  · dsimp only at made
    split_ifs at made <;> cases made <;> rfl

theorem dlEntries_lindex {dir : Path} (descs : List Filedesc) {i : Nat} {entries : List DlEnt}
    (made : dlEntries host dir descs i = .ok entries) :
    (∀ e ∈ entries, i ≤ e.lindex) ∧ entries.Pairwise fun a b => a.lindex ≠ b.lindex := by
  induction descs generalizing i entries with
  | nil =>
    cases made
    exact ⟨nofun, List.Pairwise.nil⟩
  | cons desc rest ih =>
    rw [dlEntries] at made
    split at made
    · cases made
    · obtain ⟨above, apart⟩ := ih made
      exact ⟨fun e member => Nat.le_of_succ_le (above e member), apart⟩
    · rename_i e entered
      have here := dlEntry_lindex entered
      split at made
      · cases made
      · rename_i es others
        cases made
        obtain ⟨above, apart⟩ := ih others
        refine ⟨fun e' member => ?_, pairwise_cons.2 ⟨fun e' member => ?_, apart⟩⟩
        · rcases mem_cons.1 member with rfl | later
          · exact le_of_eq here.symm
          · exact Nat.le_of_succ_le (above e' later)
        · rw [here]
          exact ne_of_lt (above e' member)

/-- **The entries of a paste** are for different descriptors. -/
theorem entriesFrom_distinct {blob : Bytes} (apart : Apart (entriesFrom host blob)) :
    Distinct (entriesFrom host blob) := by
  refine ⟨apart, ?_⟩
  unfold entriesFrom
  split
  · split
    · rename_i made
      exact (dlEntries_lindex _ made).2
    · exact List.Pairwise.nil
  · exact List.Pairwise.nil

theorem dlStart_outcome (c : Clip) (host : Host) (replies : Replies) (blob : Bytes)
    (apart : Apart (entriesFrom host blob)) :
    Outcome c.download.asked.length replies (entriesFrom host blob) c.notified
      (c.dlStart host blob) := by
  have distinct := entriesFrom_distinct apart
  have told : c.dlReset.notified = c.notified := congrArg View.notified view_dlReset
  have asked : c.dlReset.download.asked = c.download.asked :=
    congrArg (filterMap ClipMsg.fileAsk) sent_dlReset
  have starts := dlStart_starts c host blob
  generalize c.dlStart host blob = after at starts ⊢
  rw [← told]
  cases starts with
  | refused dir => exact dlAbort_outcome { c.dlReset with dlTmpdir := dir }
  | begun dir descs e es parsed made entered =>
    have entries : entriesFrom host blob = e :: es := by
      rw [entriesFrom, parsed, made]
      dsimp only
      rw [entered]
    rw [entries] at distinct ⊢
    rw [← asked]
    refine dlBegin_outcome (c := { c.dlReset with
      dlTmpdir := some dir, dlDescs := e :: es, dlActive := true, dlIdx := 0
      dlFd := none }) host distinct rfl rfl (Nat.le_refl _)
      ⟨fun i e' below => absurd below (Nat.not_lt_zero i), fun i e' _ _ => ?_⟩
    have nothing : c.dlReset.download.asked.zipIdx.drop c.dlReset.download.asked.length = [] := by
      rw [drop_eq_nil_iff, length_zipIdx]
    exact congrArg (filter _) nothing

def Leaves (c after : Clip) : Prop :=
  after.download = c.download ∨ after.dlActive = false

theorem download_onSelectionRequest (re : SelectionRequest) :
    (c.onSelectionRequest re).download = c.download := by
  unfold onSelectionRequest
  dsimp only
  split_ifs
  · rfl
  · rfl
  · rfl
  · exact download_send (c := { c with deferred := re, deferFmt := _, rdpDataPending := true }) rfl
  · rfl

theorem onClipData_leaves {format status : Nat} {octets : Bytes}
    (none : pasteIn c host (.data format status octets) = none) :
    Leaves c (c.onClipData host format status octets) := by
  unfold onClipData
  rw [← dataOf]
  by_cases files : format = fmtFiles
  · rw [if_pos files]
    cases pending : c.rdpDataPending with
    | false => exact .inl rfl
    | true =>
      cases data : dataOf status octets with
      | none => exact .inr (congrArg View.active view_dlAbort)
      | some blob =>
        rw [pasteIn, if_pos ⟨files, pending⟩, data] at none
        cases none
  · rw [if_neg files]
    exact .inl (download_answerDeferred _)

theorem handleBeMsg_leaves {msg : ClipMsg} (none : pasteIn c host msg = none)
    (other : isFileData msg = false) : Leaves c (c.handleBeMsg host msg) := by
  cases msg with
  | offer formats => exact .inr (congrArg View.active (view_onClipOffer formats))
  | request format => exact .inl (aside_onClipRequest format).2.1
  | data format status octets => exact onClipData_leaves none
  | fileRequest rq => exact .inl (aside_onClipFileRequest rq).2.1
  | fileData streamId status octets => cases other

theorem step_leaves {event : Clip.Event} (none : pasteOf c event = none)
    (other : bringsFileData event = false) : Leaves c (c.step event) := by
  have steps := step_steps c event
  generalize c.step event = after at steps ⊢
  cases steps with
  | aside asks keeps aside => exact .inl aside.2.1
  | asked re wanted => exact .inl (download_onSelectionRequest re)
  | cleared => exact .inr (congrArg View.active view_onSelectionClear)
  | read host found =>
    rw [pasteOf, found] at none
    rw [bringsFileData, found] at other
    exact handleBeMsg_leaves none other

theorem step_of_pasteOf {event : Clip.Event} {entries : List DlEnt}
    (starts : pasteOf c event = some entries) :
    ∃ host blob, entries = entriesFrom host blob ∧ c.step event = c.dlStart host blob := by
  cases event with
  | message host type payload =>
    rw [pasteOf, Option.bind_eq_some_iff] at starts
    obtain ⟨msg, found, starts⟩ := starts
    cases msg with
    | data format status octets =>
      rw [pasteIn] at starts
      split_ifs at starts with files
      obtain ⟨blob, data, rfl⟩ := Option.map_eq_some_iff.1 starts
      refine ⟨host, blob, rfl, ?_⟩
      rw [Clip.step, found]
      dsimp only [handleBeMsg, onClipData]
      rw [← dataOf, if_pos files.1, files.2, data]
      rfl
    | offer _ | request _ | fileRequest _ | fileData _ _ _ => cases starts
  | selectionRequest _ | selectionClear _ | selectionOwner _ | selectionNotify _ _ _ _
  | propertyNotify _ _ => cases starts

theorem sound_of_outcome {told : List Notify} (distinct : Distinct s.entries)
    (outcome : Outcome s.since s.replies s.entries told s.clip) : s.Sound := by
  intro active
  cases outcome with
  | fetching e silent begun fetching => exact ⟨distinct, begun, e, fetching⟩
  | finished idle complete | aborted idle refused =>
    rw [idle] at active
    cases active

theorem intact_of_outcome {told : List Notify}
    (outcome : Outcome s.since s.replies s.entries told s.clip) {re : SelectionRequest}
    {octets : Bytes}
    (answered : s.clip.notified = told ++ [{ request := re, answer := .data octets }]) :
    s.Intact := by
  cases outcome with
  | fetching e silent begun fetching =>
    rw [silent] at answered
    cases append_cancel_left ((append_nil _).trans answered)
  | finished idle complete => exact complete
  | aborted idle refused => exact absurd answered (refused re octets)

theorem sound_of_leaves {next : Pasting} (sound : s.Sound) (leaves : Leaves s.clip next.clip)
    (since : next.since = s.since) (entries : next.entries = s.entries)
    (replies : next.replies = s.replies) : next.Sound := by
  intro active
  rcases leaves with same | idle
  · have before : s.clip.dlActive = true := (congrArg Download.active same).symm.trans active
    rw [since, entries, replies, same]
    exact sound before
  · rw [idle] at active
    cases active

theorem dlOnFileData_untaken {streamId : Nat}
    (untaken : c.dlActive = true → streamId ≠ c.dlStream) (status : Nat) (data : Bytes) :
    c.dlOnFileData host streamId status data = c := by
  cases active : c.dlActive with
  | false => exact dlOnFileData_idle active streamId status data
  | true =>
    rw [dlOnFileData, active, if_neg (by simp)]
    split
    · rfl
    · rw [if_pos (untaken active)]

/-- **A reply** keeps the paste in order. -/
theorem reply_sound (host : Host) (k status : Nat) (data : Bytes)
    (orderly : s.Orderly (.reply host k status data)) (sound : s.Sound) :
    (s.step (.reply host k status data)).Sound ∧
      (s.Answers (.reply host k status data) → (s.step (.reply host k status data)).Intact) := by
  cases found : s.clip.download.asked[k]? with
  | none =>
    have same : s.step (.reply host k status data) = s := by rw [step, found]
    rw [Answers, same]
    refine ⟨sound, ?_⟩
    rintro ⟨_, re, octets, told⟩
    cases append_cancel_left ((append_nil _).trans told)
  | some req =>
    let others : Replies := if status = 0 then [(k, data)] else []
    let octets := if status = 0 then data else []
    have next : s.step (.reply host k status data) =
        { s with clip := s.clip.dlOnFileData host req.streamId status octets
                 replies := s.replies ++ others } := by
      rw [step, found]
      rfl
    rw [Answers, next]
    by_cases taken : s.clip.dlActive = true ∧ req.streamId = s.clip.dlStream
    · obtain ⟨active, stream⟩ := taken
      obtain ⟨distinct, begun, e, fetching⟩ := sound active
      have outcome := dlOnFileData_outcome host distinct begun (fetching.hear others)
        status octets fun fine => by
          have takes : s.takes k = true := by
            rw [Pasting.takes, active, found, Option.any_some, beq_iff_eq.2 stream]
            rfl
          rw [← orderly fine takes, Nat.add_sub_cancel]
          refine mem_append_right _ ?_
          simp only [others, octets, if_pos fine, mem_singleton]
      rw [← stream] at outcome
      refine ⟨sound_of_outcome distinct outcome, ?_⟩
      rintro ⟨_, re, octets, told⟩
      exact intact_of_outcome outcome told
    · rw [dlOnFileData_untaken fun active same => taken ⟨active, same⟩]
      refine ⟨fun active => ?_, ?_⟩
      · obtain ⟨distinct, begun, e, fetching⟩ := sound active
        exact ⟨distinct, begun, e, fetching.hear others⟩
      · rintro ⟨_, re, octets, told⟩
        cases append_cancel_left ((append_nil _).trans told)

/-- **One event** keeps the paste in order. -/
theorem step_sound (event : Event) (orderly : s.Orderly event) (sound : s.Sound) :
    (s.step event).Sound ∧ (s.Answers event → (s.step event).Intact) := by
  cases event with
  | reply host k status data => exact reply_sound host k status data orderly sound
  | other event =>
    cases brings : bringsFileData event with
    | true =>
      have same : s.step (.other event) = s := by rw [step, if_pos brings]
      rw [same]
      refine ⟨sound, ?_⟩
      rintro ⟨advances, _⟩
      rw [Pasting.advances, brings] at advances
      cases advances
    | false =>
      cases starts : pasteOf s.clip event with
      | none =>
        have next : s.step (.other event) = { s with clip := s.clip.step event } := by
          rw [step, if_neg (Bool.eq_false_iff.1 brings), starts]
        rw [next]
        refine ⟨sound_of_leaves sound (step_leaves starts brings) rfl rfl rfl, ?_⟩
        rintro ⟨advances, _⟩
        rw [Pasting.advances, starts, Option.isSome_none, Bool.and_false] at advances
        cases advances
      | some entries =>
        have next : s.step (.other event) =
            { s with clip := s.clip.step event, since := s.clip.download.asked.length
                     entries := entries } := by
          rw [step, if_neg (Bool.eq_false_iff.1 brings), starts]
        have apart : Apart entries := orderly entries starts
        obtain ⟨host, blob, rfl, begins⟩ := step_of_pasteOf starts
        have outcome := dlStart_outcome s.clip host s.replies blob apart
        rw [← begins] at outcome
        rw [Answers, next]
        refine ⟨sound_of_outcome (entriesFrom_distinct apart) outcome, ?_⟩
        rintro ⟨_, re, octets, told⟩
        exact intact_of_outcome outcome told

/-- **Pasted files** are not mixed up: along a run whose replies with data are taken for
the request they answer, and whose pastes have no path twice, every file of a paste that
is answered with a list of files holds exactly the bytes of the replies to the requests
of this paste for this file, and has its declared size. -/
theorem pasted_files_complete (events : List Event) (orderly : Runs.Along step Orderly {} events) :
    Runs.Along step (fun s event => s.Answers event → (s.step event).Intact) {} events := by
  refine orderly.entails (P := Sound) (fun s event meets sound => ?_) fun active => ?_
  · exact step_sound event meets sound
  · cases active

def fileHost : Host where
  tmpdir := some [slash]
  mkdir _ := true
  create _ := true
  write := true
  stat _ := none
  pread _ _ _ := none

def filesWanted : SelectionRequest where
  serial := 1
  requestor := 7
  selection := .clipboard
  target := .uriList
  property := 3
  time := 0

def oneByteFile (letter : UInt8) : Bytes :=
  [1, 0, 0, 0] ++ List.replicate 68 0 ++ [1, 0, 0, 0, letter, 0] ++ List.replicate 518 0

def pasteOne (letter : UInt8) : List Event :=
  [.other (.message fileHost 6 [8, 0, 0, 0]), .other (.selectionRequest filesWanted),
    .other (.message fileHost 8 ([8, 0, 0, 0, 0, 0, 0, 0] ++ oneByteFile letter))]

def pasted : List Event := pasteOne 0x61 ++ [.reply fileHost 0 0 [5]]

set_option maxRecDepth 8000 in
theorem pasted_files_complete_oneByte :
    (run (pasteOne 0x61) {}).Answers (.reply fileHost 0 0 [5]) ∧ (run pasted {}).Intact := by
  have answers : (run (pasteOne 0x61) {}).Answers (.reply fileHost 0 0 [5]) :=
    ⟨rfl, filesWanted, uriListAppend [] [slash, slash, 0x61], by decide⟩
  have orderly : Runs.Along step Orderly {} pasted := by decide
  exact ⟨answers, Runs.along_iff.1 (pasted_files_complete pasted orderly) 3 _ rfl answers⟩

/-- The client offers another file while the first is on its way; the byte of the first
comes when the second is waited for. -/
def lateReply : List Event := pasteOne 0x61 ++ pasteOne 0x62

set_option maxRecDepth 8000 in
/-- The second file is complete with a byte of the first. -/
theorem lateReply_mixes_files :
    (run lateReply {}).Answers (.reply fileHost 0 0 [5]) ∧
      ¬ ((run lateReply {}).step (.reply fileHost 0 0 [5])).Intact := by
  let last := (run lateReply {}).step (.reply fileHost 0 0 [5])
  let second : DlEnt :=
    { path := [slash, slash, 0x62], size := 1, isDir := false, topLevel := true, lindex := 0 }
  refine ⟨⟨rfl, filesWanted, uriListAppend [] [slash, slash, 0x62], by decide⟩, fun intact => ?_⟩
  have member : second ∈ last.entries := by decide
  obtain ⟨content, _, _, fetched⟩ := intact second member rfl
  have asked : ∃ r ∈ last.clip.download.requestsFor last.since second.lindex, r.2 = 1 := by
    decide
  obtain ⟨r, sent, number⟩ := asked
  have replied := fetched.replied r sent
  rw [number] at replied
  exact absurd replied (by decide)

end Pasting

end RdpServer.Session
