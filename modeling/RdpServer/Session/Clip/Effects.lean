import RdpServer.Session.Clip.State

/-!
# What the handlers do to a conversion

`View` is the part of the session that has to do with answering a SelectionRequest, and
`Download` what has to do with fetching a paste. Every handler is described by what it does to
these parts and by whether it asks the worker for a format (`Quiet`), and every event by its
handler (`Steps`).
-/

namespace RdpServer.Session.Clip

open Backend Channels.Cliprdr List

structure View where
  pending : Bool
  deferred : SelectionRequest
  deferFmt : Nat
  notified : List Notify
  active : Bool
  descs : List DlEnt
  offered : Nat

def view (c : Clip) : View where
  pending := c.rdpDataPending
  deferred := c.deferred
  deferFmt := c.deferFmt
  notified := c.notified
  active := c.dlActive
  descs := c.dlDescs
  offered := c.rdpOffered

def answerOf : Option Bytes → Answer
  | some (octet :: rest) => .data (octet :: rest)
  | _ => .refused

namespace View

variable (v : View)

def notify (re : SelectionRequest) (answer : Answer) : View :=
  { v with notified := v.notified ++ [{ request := re, answer := answer }] }

def answer (data : Option Bytes) : View :=
  if v.pending then { v with pending := false }.notify v.deferred (answerOf data) else v

def reset : View := { v with active := false, descs := [] }

def finish : View := (v.answer (some (uriListOf v.descs))).reset

def abort : View := (v.answer none).reset

/-- The request is put into the `defer_` fields. -/
def defer (re : SelectionRequest) : View :=
  { v with deferred := re, deferFmt := fmtForTarget re.target, pending := true }

def defers (re : SelectionRequest) : Prop :=
  fmtForTarget re.target ≠ 0 ∧ v.offered &&& fmtForTarget re.target ≠ 0 ∧ v.pending = false

inductive Progress : View → Prop where
  | same : Progress v
  | finished : Progress v.finish
  | aborted : Progress v.abort

theorem abort_reset : v.reset.abort = v.abort := by
  unfold abort answer
  cases pending : v.pending <;> simp [reset, notify, pending]

end View

structure Download where
  active : Bool
  descs : List DlEnt
  idx : Nat
  fd : Option Path
  off : Nat
  size : Nat
  stream : Nat
  files : Path → Option Bytes
  /-- The range requests sent so far. -/
  asked : List ClipFileReq

def download (c : Clip) : Download where
  active := c.dlActive
  descs := c.dlDescs
  idx := c.dlIdx
  fd := c.dlFd
  off := c.dlOff
  size := c.dlSize
  stream := c.dlStream
  files := c.files
  asked := c.sent.filterMap ClipMsg.fileAsk

variable {c after : Clip} {host : Host}

def Quiet (c after : Clip) : Prop :=
  ∃ frames, after.sent = c.sent ++ frames ∧ frames.filterMap ClipMsg.wants = []

theorem Quiet.of_eq (same : after.sent = c.sent) : Quiet c after :=
  ⟨[], by rw [same, append_nil], rfl⟩

theorem Quiet.refl (c : Clip) : Quiet c c := .of_eq rfl

theorem Quiet.trans {middle : Clip} (first : Quiet c middle) (second : Quiet middle after) :
    Quiet c after := by
  obtain ⟨frames, sent, none⟩ := first
  obtain ⟨more, sent', none'⟩ := second
  refine ⟨frames ++ more, ?_, ?_⟩
  · rw [sent', sent, append_assoc]
  · rw [filterMap_append, none, none', append_nil]

variable {msg : ClipMsg}

theorem quiet_send (other : msg.wants = none) : Quiet c (c.send msg) :=
  ⟨[msg], rfl, by rw [filterMap_cons_none other, filterMap_nil]⟩

theorem download_send (other : msg.fileAsk = none) :
    (c.send msg).download = c.download := by
  simp [download, send, filterMap_cons_none other]

theorem answerSelectionRequest_eq (re : SelectionRequest) (data : Option Bytes) :
    c.answerSelectionRequest re data = c.notifySelection re (answerOf data) := by
  rcases data with none | _ | ⟨octet, rest⟩ <;> rfl

theorem view_answerDeferred (data : Option Bytes) :
    (c.answerDeferred data).view = c.view.answer data := by
  unfold answerDeferred View.answer
  by_cases pending : c.rdpDataPending = true
  · have seen : c.view.pending = true := pending
    rw [if_pos pending, if_pos seen, answerSelectionRequest_eq]
    rfl
  · have seen : ¬ c.view.pending = true := pending
    rw [if_neg pending, if_neg seen]

theorem sent_answerDeferred (data : Option Bytes) :
    (c.answerDeferred data).sent = c.sent := by
  unfold answerDeferred
  rw [answerSelectionRequest_eq]
  split_ifs <;> rfl

theorem view_dlClearState : c.dlClearState.view = c.view.reset := rfl

theorem view_dlReset : c.dlReset.view = c.view.reset := by
  unfold dlReset
  cases c.dlTmpdir <;> rfl

theorem sent_dlReset : c.dlReset.sent = c.sent := by
  unfold dlReset
  cases c.dlTmpdir <;> rfl

theorem view_dlFinishOk : c.dlFinishOk.view = c.view.finish := by
  rw [dlFinishOk, view_dlClearState, view_answerDeferred]
  rfl

theorem view_dlAbort : c.dlAbort.view = c.view.abort := by
  rw [dlAbort, view_dlReset, view_answerDeferred]
  rfl

/-- The paste goes on, and no format is asked for. -/
def Pastes (c after : Clip) : Prop := c.view.Progress after.view ∧ Quiet c after

theorem Pastes.refl (c : Clip) : Pastes c c := ⟨.same, .refl c⟩

theorem pastes_dlAbort : Pastes c c.dlAbort :=
  ⟨view_dlAbort (c := c) ▸ .aborted, .of_eq (sent_dlReset.trans (sent_answerDeferred _))⟩

theorem pastes_requestRange (e : DlEnt) : Pastes c (c.requestRange e) :=
  ⟨.same, quiet_send (c := { c with dlStream := _ }) rfl⟩

theorem beginCurrent_pastes (host : Host) (entries : List DlEnt) (c : Clip) :
    Quiet c (beginCurrent host entries c).1 ∧
      ((beginCurrent host entries c).1.view = c.view ∨ (beginCurrent host entries c).2 = true ∧
        (beginCurrent host entries c).1.view = c.view.finish) := by
  induction entries generalizing c with
  | nil => exact ⟨.of_eq (sent_answerDeferred _), .inr ⟨rfl, view_dlFinishOk⟩⟩
  | cons e rest ih =>
    rw [beginCurrent]
    split_ifs with dir made created empty
    · exact ih { c with dlIdx := c.dlIdx + 1 }
    · exact ⟨.refl c, .inl rfl⟩
    · exact ih { c.truncate e.path with
        dlOff := 0, dlSize := e.size, dlFd := none, dlIdx := c.dlIdx + 1 }
    · exact ⟨(pastes_requestRange (c := { c.truncate e.path with dlOff := 0, dlSize := _ }) e).2,
        .inl rfl⟩
    · exact ⟨.refl c, .inl rfl⟩

theorem dlBegin_eq (c : Clip) (host : Host) :
    c.dlBegin host = if (beginCurrent host (c.dlDescs.drop c.dlIdx) c).2 then
        (beginCurrent host (c.dlDescs.drop c.dlIdx) c).1
      else (beginCurrent host (c.dlDescs.drop c.dlIdx) c).1.dlAbort := by
  unfold dlBegin
  rcases beginCurrent host (c.dlDescs.drop c.dlIdx) c with ⟨next, _ | _⟩ <;> rfl

theorem dlBegin_pastes (c : Clip) (host : Host) : Pastes c (c.dlBegin host) := by
  obtain ⟨quiet, begun⟩ := beginCurrent_pastes host (c.dlDescs.drop c.dlIdx) c
  rw [dlBegin_eq]
  split_ifs with done
  · rcases begun with same | ⟨_, finished⟩
    · exact ⟨same ▸ .same, quiet⟩
    · exact ⟨finished ▸ .finished, quiet⟩
  · rcases begun with same | ⟨finished, _⟩
    · refine ⟨?_, quiet.trans pastes_dlAbort.2⟩
      rw [view_dlAbort, same]
      exact .aborted
    · exact absurd finished done

/-- What `clip_dl_start` comes to. -/
inductive Starts (c : Clip) (host : Host) (blob : Bytes) : Clip → Prop where
  | refused (dir : Option Path) : Starts c host blob (dlAbort { c.dlReset with dlTmpdir := dir })
  | begun (dir : Path) (descs : List Filedesc) (e : DlEnt) (es : List DlEnt)
      (parsed : parseFileList blob maxFiles = some descs) (made : host.tmpdir = some dir)
      (entered : dlEntries host dir descs 0 = .ok (e :: es)) :
      Starts c host blob (dlBegin { c.dlReset with
        dlTmpdir := some dir, dlDescs := e :: es, dlActive := true, dlIdx := 0
        dlFd := none } host)

theorem dlStart_starts (c : Clip) (host : Host) (blob : Bytes) :
    Starts c host blob (c.dlStart host blob) := by
  have aborted : Starts c host blob c.dlReset.dlAbort := .refused c.dlReset.dlTmpdir
  unfold dlStart
  split
  · exact aborted
  · rename_i descs parsed
    split_ifs
    · exact aborted
    · split
      · exact aborted
      · rename_i dir made
        split
        · exact .refused (some dir)
        · exact .refused (some dir)
        · rename_i e es entered
          exact .begun dir descs e es parsed made entered

def EntriesOf (blob : Bytes) (entries : List DlEnt) : Prop :=
  ∃ host dir descs, parseFileList blob maxFiles = some descs ∧
    dlEntries host dir descs 0 = .ok entries

/-- **A paste** starts with the entries of the descriptors, or is refused. -/
theorem dlStart_view (c : Clip) (host : Host) (blob : Bytes) :
    Quiet c (c.dlStart host blob) ∧
      ((c.dlStart host blob).view = c.view.abort ∨ ∃ entries, EntriesOf blob entries ∧
        View.Progress { c.view with active := true, descs := entries }
          (c.dlStart host blob).view) := by
  have reset : ∀ dir, Quiet c { c.dlReset with dlTmpdir := dir } := fun _ => .of_eq sent_dlReset
  have starts := dlStart_starts c host blob
  generalize c.dlStart host blob = after at starts ⊢
  cases starts with
  | refused dir =>
    have same := congrArg View.abort (view_dlReset (c := c))
    exact ⟨(reset dir).trans pastes_dlAbort.2, .inl
      (view_dlAbort.trans (same.trans (View.abort_reset _)))⟩
  | begun dir descs e es parsed made entered =>
    have begun := dlBegin_pastes { c.dlReset with
      dlTmpdir := some dir, dlDescs := e :: es, dlActive := true, dlIdx := 0, dlFd := none } host
    refine ⟨(reset (some dir)).trans begun.2, .inr ⟨e :: es, ⟨host, dir, descs, parsed, entered⟩,
      ?_⟩⟩
    have same := congrArg (fun v : View => { v with active := true, descs := e :: es })
      (view_dlReset (c := c))
    exact Eq.subst (motive := fun v => View.Progress v _) same begun.1

theorem dlContinue_pastes (e : DlEnt) : Pastes c (c.dlContinue host e) := by
  unfold dlContinue
  split_ifs
  · exact dlBegin_pastes { c with dlFd := none, dlIdx := c.dlIdx + 1 } host
  · exact pastes_requestRange e

theorem dlOnFileData_pastes (streamId status : Nat) (data : Bytes) :
    Pastes c (c.dlOnFileData host streamId status data) := by
  unfold dlOnFileData
  split
  · exact .refl c
  · split
    · exact .refl c
    · split
      · exact .refl c
      · split
        · exact pastes_dlAbort
        · split
          · exact pastes_dlAbort
          · dsimp only
            split_ifs
            · exact pastes_dlAbort
            · exact dlContinue_pastes _
            · exact pastes_dlAbort
            · exact dlContinue_pastes (c := { c.append _ _ with dlOff := _ }) _

theorem dlOnFileData_idle (idle : c.dlActive = false) (streamId status : Nat)
    (data : Bytes) : c.dlOnFileData host streamId status data = c := by
  rw [dlOnFileData, idle]
  rfl

/-- Neither a conversion nor a paste is concerned. -/
def Aside (c after : Clip) : Prop :=
  after.view = c.view ∧ after.download = c.download ∧ Quiet c after

theorem Aside.refl (c : Clip) : Aside c c := ⟨rfl, rfl, .refl c⟩

theorem aside_send (other : msg.wants = none ∧ msg.fileAsk = none) :
    Aside c (c.send msg) :=
  ⟨rfl, download_send other.2, quiet_send other.1⟩

theorem aside_sendFetchedClipData (fmt : Nat) (data : Option Bytes) :
    Aside c (c.sendFetchedClipData host fmt data) := by
  unfold sendFetchedClipData
  split_ifs
  · split
    · exact aside_send ⟨rfl, rfl⟩
    · dsimp only
      split_ifs
      · exact aside_send (c := c.filesReset) ⟨rfl, rfl⟩
      · split
        · exact aside_send (c := c.filesReset) ⟨rfl, rfl⟩
        · exact aside_send (c := { c with filePaths := _ }) ⟨rfl, rfl⟩
  · exact aside_send ⟨rfl, rfl⟩

theorem aside_onClipRequest (format : Nat) : Aside c (c.onClipRequest format) := by
  unfold onClipRequest
  split
  · exact aside_send ⟨rfl, rfl⟩
  · exact .refl c

theorem aside_onClipFileRequest (rq : ClipFileReq) : Aside c (c.onClipFileRequest host rq) := by
  unfold onClipFileRequest
  split
  · exact aside_send ⟨rfl, rfl⟩
  · split_ifs <;> exact aside_send ⟨rfl, rfl⟩

theorem aside_onSelectionNotify (target : Atom) (property : Option Property) :
    Aside c (c.onSelectionNotify host target property) := by
  unfold onSelectionNotify
  split
  · split_ifs <;> exact aside_send ⟨rfl, rfl⟩
  · split_ifs
    · exact aside_send ⟨rfl, rfl⟩
    · exact .refl c
    · exact aside_sendFetchedClipData _ _
    · exact aside_sendFetchedClipData _ _

theorem aside_onIncrProperty (value : Property) : Aside c (c.onIncrProperty host value) := by
  unfold onIncrProperty
  split
  · exact aside_sendFetchedClipData (c := c.incrReset) _ _
  · split_ifs <;> exact .refl c

theorem onSelectionRequest_view (c : Clip) (re : SelectionRequest)
    (wanted : re.selection = .clipboard) :
    (∃ answer, (answer = .refused ∨ answer = .timestamp ∨ ∃ atoms, answer = .targets atoms) ∧
        (c.onSelectionRequest re).view = c.view.notify re answer ∧
        (c.onSelectionRequest re).sent = c.sent) ∨
      c.view.defers re ∧ (c.onSelectionRequest re).view = c.view.defer re ∧
        (c.onSelectionRequest re).sent = c.sent ++ [.request (fmtForTarget re.target)] := by
  unfold onSelectionRequest
  rw [if_neg (not_not_intro wanted)]
  dsimp only
  split_ifs with targets timestamp offered
  · exact .inl ⟨_, .inr (.inr ⟨_, rfl⟩), rfl, rfl⟩
  · exact .inl ⟨_, .inr (.inl rfl), rfl, rfl⟩
  · refine .inr ⟨⟨offered.1, offered.2.1, ?_⟩, rfl, rfl⟩
    have idle := offered.2.2
    rwa [Bool.not_eq_true'] at idle
  · exact .inl ⟨_, .inl rfl, rfl, rfl⟩

theorem view_onClipOffer (formats : Nat) :
    (c.onClipOffer formats).view = { c.view.reset with pending := false, offered := formats } := by
  rw [onClipOffer, view_dlReset]
  rfl

theorem view_onSelectionClear :
    c.onSelectionClear.view = { c.view.reset with pending := false, offered := 0 } := by
  rw [onSelectionClear, view_dlReset]
  rfl

def dataOf (status : Nat) (octets : Bytes) : Option Bytes :=
  if status = 0 ∧ !octets.isEmpty then some octets else none

/-- What the data of a request comes to: descriptors of files start a paste. -/
inductive View.Receives (v : View) (format status : Nat) (octets : Bytes) : View → Prop where
  | answered (other : format ≠ fmtFiles) :
      Receives v format status octets (v.answer (dataOf status octets))
  | ignored (idle : v.pending = false) : Receives v format status octets v
  | refused (waits : v.pending = true) : Receives v format status octets v.abort
  | pastes {after : View} (files : format = fmtFiles) (blob : Bytes) (entries : List DlEnt)
      (data : dataOf status octets = some blob) (parsed : EntriesOf blob entries)
      (goes : Progress { v with active := true, descs := entries } after) :
      Receives v format status octets after

theorem onClipData_receives (c : Clip) (host : Host) (format status : Nat) (octets : Bytes) :
    c.view.Receives format status octets (c.onClipData host format status octets).view ∧
      Quiet c (c.onClipData host format status octets) := by
  unfold onClipData
  rw [← dataOf]
  by_cases files : format = fmtFiles
  · rw [if_pos files]
    cases pending : c.rdpDataPending with
    | false => exact ⟨.ignored pending, .refl c⟩
    | true =>
      cases data : dataOf status octets with
      | none =>
        have ends : c.dlAbort.view = c.view.abort := view_dlAbort
        exact ⟨ends ▸ .refused pending, pastes_dlAbort.2⟩
      | some blob =>
        obtain ⟨quiet, refused | ⟨entries, parsed, goes⟩⟩ := dlStart_view c host blob
        · exact ⟨refused ▸ .refused pending, quiet⟩
        · exact ⟨.pastes files blob entries data parsed goes, quiet⟩
  · rw [if_neg files, view_answerDeferred]
    exact ⟨.answered files, .of_eq (sent_answerDeferred _)⟩

theorem quiet_handleBeMsg (msg : ClipMsg) : Quiet c (c.handleBeMsg host msg) := by
  cases msg with
  | offer formats =>
    exact .of_eq (sent_dlReset (c := { c with rdpOffered := formats, rdpDataPending := false }))
  | request format => exact (aside_onClipRequest format).2.2
  | data format status octets => exact (onClipData_receives c host format status octets).2
  | fileRequest rq => exact (aside_onClipFileRequest rq).2.2
  | fileData streamId status octets => exact (dlOnFileData_pastes _ _ _).2

def Event.asks : Event → Option SelectionRequest
  | .selectionRequest re => if re.selection = .clipboard then some re else none
  | _ => none

def Event.clears : Event → Bool
  | .selectionClear selection => selection == .clipboard
  | .message _ type payload => (ClipMsg.read type payload).any ClipMsg.isOffer
  | _ => false

/-- What an event comes to. -/
inductive Steps (c : Clip) : Event → Clip → Prop where
  | aside {event : Event} {after : Clip} (asks : event.asks = none) (keeps : event.clears = false)
      (aside : Aside c after) : Steps c event after
  | asked (re : SelectionRequest) (wanted : re.selection = .clipboard) :
      Steps c (.selectionRequest re) (c.onSelectionRequest re)
  | cleared : Steps c (.selectionClear .clipboard) c.onSelectionClear
  | read (host : Host) {type : Nat} {payload : Bytes} {msg : ClipMsg}
      (found : ClipMsg.read type payload = some msg) :
      Steps c (.message host type payload) (c.handleBeMsg host msg)

theorem step_steps (c : Clip) (event : Event) : Steps c event (c.step event) := by
  cases event with
  | selectionRequest re =>
    by_cases wanted : re.selection = .clipboard
    · exact .asked re wanted
    · refine .aside (if_neg wanted) rfl ?_
      simp only [step, onSelectionRequest, if_pos wanted]
      exact .refl c
  | selectionClear selection =>
    by_cases lost : selection = .clipboard
    · subst lost
      exact .cleared
    · refine .aside rfl (beq_eq_false_iff_ne.2 lost) ?_
      simp only [step, if_neg lost]
      exact .refl c
  | selectionOwner selection =>
    refine .aside rfl rfl ?_
    rw [step]
    split_ifs <;> exact .refl c
  | selectionNotify host selection target property =>
    refine .aside rfl rfl ?_
    rw [step]
    split_ifs
    · exact aside_onSelectionNotify _ _
    · exact .refl c
  | propertyNotify host value =>
    refine .aside rfl rfl ?_
    rw [step]
    split_ifs
    · exact aside_onIncrProperty _
    · exact .refl c
  | message host type payload =>
    cases found : ClipMsg.read type payload with
    | none =>
      refine .aside rfl ?_ ?_
      · rw [Event.clears, found]
        rfl
      · simp only [step, found]
        exact .refl c
    | some msg =>
      have stepped : c.step (.message host type payload) = c.handleBeMsg host msg := by
        simp only [step, found]
      rw [stepped]
      exact .read host found

end RdpServer.Session.Clip
