import RdpServer.Clipboard.Conversation
import RdpServer.Session.Clip.Conversions

/-!
# Clipboard data answers the right request

The session and the worker with their client, connected by two queues, with events in any
order. Along a run in which the session gives up no request that is on its way every step is
a move of the conversation, so that data answers the request it was asked for
(`data_answers_request`).
-/

namespace RdpServer

open Backend Daemon Session Session.Clip Clipboard List Exchange

/-- Session, worker and client, and the messages between session and worker. -/
structure ClipSystem where
  session : Clip := {}
  worker : Exchange := {}
  /-- The messages that the worker has not read. -/
  up : List ClipMsg := []
  /-- The messages that the session has not read, with the request that the client
  answered when they were sent. -/
  down : List (Option Nat × ClipMsg) := []
  issued : List SelectionRequest := []
  answers : List (Nat × Bytes) := []

namespace ClipSystem

inductive Event where
  /-- An X event. -/
  | display (event : Clip.Event)
  /-- A PDU of the client. -/
  | client (pdu : Bytes)
  /-- The worker reads the next message. -/
  | toWorker
  /-- The session reads the next message. -/
  | toSession (host : Host)

variable (s : ClipSystem)

def fromSession (after : Clip) (re : Option SelectionRequest) : ClipSystem :=
  let frames := after.sent.drop s.session.sent.length
  { s with session := after, up := s.up ++ frames
           issued := s.issued ++ (frames.filterMap ClipMsg.wants).flatMap fun _ => re.toList }

def fromWorker (after : Exchange) (number : Option Nat) : ClipSystem :=
  let frames := after.cs.toSession.drop s.worker.cs.toSession.length
  { s with worker := after, down := s.down ++ frames.map fun msg => (number, msg) }

def answered (pdu : Bytes) : Option Nat :=
  if Exchange.isResponse pdu then s.worker.outstanding.head? else none

def step (s : ClipSystem) : Event → ClipSystem
  | .display event =>
    match event with
    | .message _ _ _ => s
    | event => s.fromSession (s.session.step event) event.asks
  | .client pdu =>
    { s with answers := s.answers ++ (s.answered pdu).toList.map fun i => (i, pdu) }.fromWorker
      (s.worker.client pdu) (s.answered pdu)
  | .toWorker =>
    match s.up with
    | [] => s
    | msg :: rest => { s with up := rest }.fromWorker (s.worker.handle msg) none
  | .toSession host =>
    match s.down with
    | [] => s
    | (_, msg) :: rest => { s with down := rest }.fromSession (s.session.handleBeMsg host msg) none

def run (events : List Event) (s : ClipSystem) : ClipSystem := events.foldl step s

def clears (s : ClipSystem) : Event → Bool
  | .display event => event.clears
  | .toSession _ => s.down.head?.any fun frame => frame.2.isOffer
  | _ => false

def travelling : Bool :=
  s.up.any (fun msg => msg.wants.isSome) || !s.worker.outstanding.isEmpty ||
    s.down.any fun frame => frame.2.isData

def conversation : Conversation where
  view := s.session.view
  requests := s.up.filterMap ClipMsg.wants
  received := s.worker.received
  outstanding := s.worker.outstanding
  format := s.worker.cs.pendingReqFmt
  replies := s.down.filter fun frame => frame.2.isData
  issued := s.issued
  answers := s.answers

variable {s}

theorem landed_of_quiet (quiet : s.travelling = false) : s.conversation.Landed := by
  simp only [travelling, Bool.or_eq_false_iff, Bool.not_eq_false', List.isEmpty_iff] at quiet
  obtain ⟨⟨up, outstanding⟩, down⟩ := quiet
  refine ⟨?_, outstanding, ?_⟩
  · refine List.filterMap_eq_nil_iff.2 fun msg member => ?_
    have none := List.any_eq_false.1 up msg member
    rwa [Bool.not_eq_true, Option.isSome_eq_false_iff, Option.isNone_iff_eq_none] at none
  · exact filter_eq_nil_iff.2 fun frame member => any_eq_false.1 down frame member

variable {after : Clip}

theorem conversation_fromSession (quiet : s.session.Quiet after)
    (re : Option SelectionRequest) :
    (s.fromSession after re).conversation = { s.conversation with view := after.view } := by
  obtain ⟨frames, sent, none⟩ := quiet
  rw [fromSession, sent]
  simp [conversation, none]

theorem conversation_fromWorker {after : Exchange}
    (passive : Exchange.Passive s.worker.cs after.cs) (number : Option Nat) :
    (s.fromWorker after number).conversation =
      { s.conversation with received := after.received, outstanding := after.outstanding } := by
  obtain ⟨frames, told, none⟩ := passive.told
  have silent : (frames.map fun msg => (number, msg)).filter (fun frame => frame.2.isData) =
      [] := by
    rw [filter_map]
    exact map_eq_nil_iff.2 none
  rw [fromWorker, told]
  simp [conversation, silent, passive.pending]

theorem aside_moves (aside : Aside s.session after) (re : Option SelectionRequest) :
    s.conversation.Moves (s.fromSession after re).conversation := by
  rw [conversation_fromSession aside.2.2, aside.1]
  exact .idle

theorem request_moves (re : SelectionRequest) (wanted : re.selection = .clipboard) :
    s.conversation.Moves
      (s.fromSession (s.session.onSelectionRequest re) (some re)).conversation := by
  rcases onSelectionRequest_view s.session re wanted with
    ⟨answer, plain, told, sent⟩ | ⟨defers, held, sent⟩
  · rw [conversation_fromSession (.of_eq sent), told]
    refine .told re answer fun octets => ?_
    rcases plain with rfl | rfl | ⟨atoms, rfl⟩ <;> exact Answer.noConfusion
  · have moved : (s.fromSession (s.session.onSelectionRequest re) (some re)).conversation =
        { s.conversation with
          view := s.session.view.defer re
          requests := s.conversation.requests ++ [fmtForTarget re.target]
          issued := s.conversation.issued ++ [re] } := by
      rw [fromSession, sent, drop_left]
      simp only [conversation, filterMap_append, held]
      rfl
    rw [moved]
    exact .asks re defers

theorem step_display_moves (event : Clip.Event)
    (quiet : event.clears = true → s.travelling = false) :
    s.conversation.Moves (s.step (.display event)).conversation := by
  have steps := step_steps s.session event
  generalize stepped : s.session.step event = after at steps
  cases steps with
  | aside asks keeps aside =>
    rw [← stepped] at aside
    cases event with
    | message host type payload => exact .idle
    | _ => exact aside_moves aside _
  | asked re wanted =>
    have asks : Clip.Event.asks (.selectionRequest re) = some re := if_pos wanted
    have moves := request_moves (s := s) re wanted
    rwa [← asks] at moves
  | cleared =>
    have silent : s.session.Quiet s.session.onSelectionClear := .of_eq sent_dlReset
    have moved := conversation_fromSession silent none
    rw [view_onSelectionClear] at moved
    exact moved ▸ .clears 0 (landed_of_quiet (quiet rfl))
  | read host found => exact .idle

theorem step_client_moves (pdu : Bytes) :
    s.conversation.Moves (s.step (.client pdu)).conversation := by
  rw [step, answered, client]
  cases response : isResponse pdu with
  | false =>
    rw [if_neg Bool.false_ne_true, conversation_fromWorker]
    · simp only [Option.toList_none, map_nil, append_nil]
      exact .idle
    · exact (clipHandlePdu_modest response).toPassive
  | true =>
    rw [if_pos rfl, if_pos rfl]
    cases head : s.worker.outstanding with
    | nil =>
      rw [answer, head, conversation_fromWorker (.refl _)]
      simp only [head?_nil, Option.toList_none, map_nil, append_nil]
      exact .idle
    | cons i rest =>
      rw [answer_of_head head response]
      have told : (responseOf pdu s.worker.cs.pendingReqFmt).isData = true :=
        isData_decodeResponse _ _ _
      have moves := Conversation.Moves.answered (k := s.conversation) pdu i rest head
      simp only [fromWorker, conversation, ClipState.tell, drop_left, map_cons, map_nil,
        filter_append, filter_singleton, told] at moves ⊢
      exact moves

theorem handle_request_moves {sem : Nat} {rest : List ClipMsg} (up : s.up = .request sem :: rest) :
    s.conversation.Moves
      ({ s with up := rest }.fromWorker (s.worker.handle (.request sem)) none).conversation := by
  have head : s.conversation.requests = sem :: rest.filterMap ClipMsg.wants := by
    simp only [conversation, up]
    rfl
  have silent : (s.worker.cs.handleRequest sem).toSession = s.worker.cs.toSession := by
    unfold ClipState.handleRequest
    split_ifs <;> rfl
  have moved : ({ s with up := rest }.fromWorker (s.worker.request sem) none).conversation =
      { s.conversation with
        requests := rest.filterMap ClipMsg.wants
        received := s.worker.received + 1
        outstanding := s.worker.outstanding ++
          if s.worker.cs.clipIdForClient sem = 0 then [] else [s.worker.received]
        format := (s.worker.cs.handleRequest sem).pendingReqFmt } := by
    rw [← request_outstanding]
    simp [fromWorker, request, silent, conversation]
  rw [handle, moved, ClipState.handleRequest]
  by_cases gone : s.worker.cs.clipIdForClient sem = 0
  · rw [if_pos gone, if_pos gone, append_nil]
    exact .dropped sem _ head
  · rw [if_neg gone, if_neg gone]
    exact .passed sem _ head

theorem step_toWorker_moves : s.conversation.Moves (s.step .toWorker).conversation := by
  rw [step]
  cases up : s.up with
  | nil => exact .idle
  | cons msg rest =>
    dsimp only
    cases asks : msg.wants with
    | some sem =>
      rw [ClipMsg.eq_request asks] at up ⊢
      exact handle_request_moves up
    | none =>
      rw [handle_of_other asks, conversation_fromWorker (s := { s with up := rest })
        (clipHandleBe_passive asks)]
      simp only [conversation, up, filterMap_cons_none asks]
      exact .idle

theorem read_moves {number : Option Nat} {msg : ClipMsg} {rest : List (Option Nat × ClipMsg)}
    (down : s.down = (number, msg) :: rest) (other : msg.isData = false)
    (passive : s.session.Quiet after) (moves : s.conversation.Moves
      { s.conversation with view := after.view }) :
    s.conversation.Moves ({ s with down := rest }.fromSession after none).conversation := by
  have skipped : conversation { s with down := rest } = s.conversation := by
    simp only [conversation, down, filter_cons, other, Bool.false_eq_true, if_false]
  rw [conversation_fromSession (s := { s with down := rest }) passive, skipped]
  exact moves

theorem step_toSession_moves (host : Host)
    (quiet : s.clears (.toSession host) = true → s.travelling = false) :
    s.conversation.Moves (s.step (.toSession host)).conversation := by
  rw [step]
  cases down : s.down with
  | nil => exact .idle
  | cons frame rest =>
    obtain ⟨number, msg⟩ := frame
    have passive : s.session.Quiet (s.session.handleBeMsg host msg) := quiet_handleBeMsg msg
    cases msg with
    | offer formats =>
      have landed : s.conversation.Landed := by
        refine landed_of_quiet (quiet ?_)
        rw [clears, down]
        rfl
      refine read_moves down rfl passive ?_
      rw [handleBeMsg, view_onClipOffer]
      exact .clears formats landed
    | request format =>
      refine read_moves down rfl passive ?_
      rw [handleBeMsg, (aside_onClipRequest format).1]
      exact .idle
    | fileRequest rq =>
      refine read_moves down rfl passive ?_
      rw [handleBeMsg, (aside_onClipFileRequest rq).1]
      exact .idle
    | fileData streamId status octets =>
      refine read_moves down rfl passive ?_
      rw [handleBeMsg]
      cases active : s.session.dlActive with
      | false =>
        rw [dlOnFileData_idle active]
        exact .idle
      | true => exact .pasted _ active (dlOnFileData_pastes _ _ _).1
    | data format status octets =>
      have head : s.conversation.replies =
          (number, .data format status octets) :: rest.filter fun frame => frame.2.isData := by
        simp only [conversation, down]
        rfl
      rw [conversation_fromSession (s := { s with down := rest }) passive]
      exact .delivered number format status octets _ _ head
        (onClipData_receives s.session host format status octets).1

/-- **A step** in which no request on its way is given up is a move. -/
theorem step_moves (event : Event) (quiet : s.clears event = true → s.travelling = false) :
    s.conversation.Moves (s.step event).conversation := by
  cases event with
  | display event => exact step_display_moves event quiet
  | client pdu => exact step_client_moves pdu
  | toWorker => exact step_toWorker_moves
  | toSession host => exact step_toSession_moves host quiet

/-- Every SelectionRequest that was answered with data has the data of its own. -/
def AnswersRight (s : ClipSystem) : Prop :=
  ∀ n ∈ s.session.notified, ∀ octets, n.answer = .data octets →
    ∃ i pdu, s.issued[i]? = some n.request ∧ (i, pdu) ∈ s.answers ∧
      Derived (fmtForTarget n.request.target) pdu octets

theorem initial_sound : Conversation.Sound (conversation {}) :=
  Conversation.sound_of_settled rfl ⟨rfl, rfl, rfl⟩ rfl rfl nofun

/-- **Clipboard data**: along a run in which the session makes no new start while a
request is on its way, data answers the request that it was asked for, decoded as the
format that was wanted. -/
theorem data_answers_request (events : List Event)
    (quiet : Runs.Along step (fun s event => s.clears event = true → s.travelling = false) {}
      events) : (run events {}).AnswersRight := by
  have sound : (run events {}).conversation.Sound :=
    quiet.invariant (P := fun s => s.conversation.Sound)
      (fun _ event meets sound => (step_moves event meets).sound sound) initial_sound
  exact sound.right

def textAndHtml : Bytes :=
  [2, 0, 0, 0, 72, 0, 0, 0] ++ ([13, 0, 0, 0] ++ List.replicate 32 0) ++
    ([0, 0xC1, 0, 0] ++ Channels.Cliprdr.fmtNameHtml ++ List.replicate 21 0)

def letterA : Bytes := [5, 0, 1, 0, 2, 0, 0, 0, 65, 0]

def htmlWanted : SelectionRequest := { textWanted with serial := 2, target := .textHtml }

def textPasted : List Event :=
  [.client textAndHtml, .toSession noFiles, .display (.selectionRequest textWanted), .toWorker,
    .client letterA, .toSession noFiles]

theorem data_answers_request_textPasted :
    (run textPasted {}).session.notified = [{ request := textWanted, answer := .data [65] }] ∧
      (run textPasted {}).AnswersRight :=
  ⟨by decide, data_answers_request textPasted (by decide)⟩

/-- The client offers the same again while it owes the text, a program asks for HTML, and
then the text arrives. -/
def lateText : List Event :=
  [.client textAndHtml, .toSession noFiles, .display (.selectionRequest textWanted), .toWorker,
    .client textAndHtml, .toSession noFiles, .display (.selectionRequest htmlWanted), .toWorker,
    .client letterA, .toSession noFiles]

/-- The program that asked for HTML gets the text, in UTF-16. -/
theorem lateText_answers_html :
    (run lateText {}).session.notified = [{ request := htmlWanted, answer := .data [65, 0] }] ∧
      (run lateText {}).issued = [textWanted, htmlWanted] ∧
      (run lateText {}).answers = [(0, letterA)] ∧ ¬ (run lateText {}).AnswersRight := by
  have told : (run lateText {}).session.notified =
      [{ request := htmlWanted, answer := .data [65, 0] }] := by decide
  have issued : (run lateText {}).issued = [textWanted, htmlWanted] := by decide
  have answers : (run lateText {}).answers = [(0, letterA)] := by decide
  refine ⟨told, issued, answers, fun right => ?_⟩
  obtain ⟨i, pdu, request, known, _⟩ :=
    right { request := htmlWanted, answer := .data [65, 0] } (told ▸ mem_cons_self) _ rfl
  rw [answers, mem_singleton] at known
  have first : i = 0 := congrArg Prod.fst known
  rw [issued, first] at request
  exact absurd request (by decide)

end ClipSystem

end RdpServer
