import RdpServer.Daemon.Clip
import RdpServer.Session.Clip.Effects

/-!
# Asking the client for the clipboard

A SelectionRequest that is deferred makes the session ask the worker for a format; the worker
asks the client, or drops the request; the answer is decoded as the format asked for last,
and answers the request that the session holds. None of the messages names the request it
belongs to. `Moves` lists what can happen, and `Moves.sound` shows that the answers are right.
-/

namespace RdpServer.Clipboard

open Backend Daemon Session Session.Clip List

/-- What matters of the three parties. The requests for formats are numbered. -/
structure Conversation where
  view : View
  /-- The formats asked for in messages that the worker has not read. -/
  requests : List Nat
  /-- The number of requests that the worker has read. -/
  received : Nat
  /-- The requests that the client has to answer. -/
  outstanding : List Nat
  /-- The format that the worker asked for last. -/
  format : Nat
  /-- The data that the session has not read, with the request it was sent for. -/
  replies : List (Option Nat × ClipMsg)
  /-- The SelectionRequest behind each request. -/
  issued : List SelectionRequest
  /-- The response of the client to each request that it answered. -/
  answers : List (Nat × Bytes)

/-- The octets are what a response says, decoded as a format: for files, the list of
the entries that are made from the descriptors. -/
def Derived (fmt : Nat) (pdu octets : Bytes) : Prop :=
  if fmt = fmtFiles then
    ∃ blob entries, Exchange.responseOf pdu fmt = .data fmt 0 blob ∧ EntriesOf blob entries ∧
      octets = uriListOf entries
  else Exchange.responseOf pdu fmt = .data fmt 0 octets

namespace Conversation

variable (k : Conversation)

structure Landed : Prop where
  requests : k.requests = []
  outstanding : k.outstanding = []
  replies : k.replies = []

/-- **Data answers the right request**: it was derived, as the format that was asked
for, from the response to the request made for it. -/
def Right : Prop :=
  ∀ n ∈ k.view.notified, ∀ octets, n.answer = .data octets →
    ∃ i pdu, k.issued[i]? = some n.request ∧ (i, pdu) ∈ k.answers ∧
      Derived (fmtForTarget n.request.target) pdu octets

inductive Moves : Conversation → Prop where
  | idle : Moves k
  /-- A request is answered at once, without data. -/
  | told (re : SelectionRequest) (answer : Answer) (plain : ∀ octets, answer ≠ .data octets) :
      Moves { k with view := k.view.notify re answer }
  /-- A request is deferred. -/
  | asks (re : SelectionRequest) (defers : k.view.defers re) :
      Moves { k with view := k.view.defer re
                     requests := k.requests ++ [fmtForTarget re.target]
                     issued := k.issued ++ [re] }
  /-- The session gives up the request that it holds. -/
  | clears (formats : Nat) (landed : k.Landed) :
      Moves { k with view := { k.view.reset with pending := false, offered := formats } }
  /-- The worker drops a request. -/
  | dropped (sem : Nat) (rest : List Nat) (head : k.requests = sem :: rest) :
      Moves { k with requests := rest, received := k.received + 1 }
  /-- The worker asks the client. -/
  | passed (sem : Nat) (rest : List Nat) (head : k.requests = sem :: rest) :
      Moves { k with requests := rest, received := k.received + 1
                     outstanding := k.outstanding ++ [k.received], format := sem }
  /-- The client answers. -/
  | answered (pdu : Bytes) (i : Nat) (rest : List Nat) (head : k.outstanding = i :: rest) :
      Moves { k with outstanding := rest, format := 0
                     replies := k.replies ++ [(some i, Exchange.responseOf pdu k.format)]
                     answers := k.answers ++ [(i, pdu)] }
  /-- The data reaches the session. -/
  | delivered (number : Option Nat) (format status : Nat) (octets : Bytes)
      (rest : List (Option Nat × ClipMsg)) (after : View)
      (head : k.replies = (number, .data format status octets) :: rest)
      (received : k.view.Receives format status octets after) :
      Moves { k with replies := rest, view := after }
  /-- A paste goes on. -/
  | pasted (after : View) (active : k.view.active = true) (goes : k.view.Progress after) :
      Moves { k with view := after }

def last : Nat := k.issued.length - 1

structure Waits : Prop where
  pending : k.view.pending = true
  fetching : k.view.active = false

/-- Where the request is that the session waits for: nowhere, on its way to the worker,
with the client, or on its way back. -/
inductive Flight : Prop where
  | landed (landed : k.Landed)
  | rising (waits : k.Waits) (requests : k.requests = [k.view.deferFmt])
      (outstanding : k.outstanding = []) (replies : k.replies = [])
  | asked (waits : k.Waits) (requests : k.requests = []) (outstanding : k.outstanding = [k.last])
      (format : k.format = k.view.deferFmt) (replies : k.replies = [])
  | falling (waits : k.Waits) (requests : k.requests = []) (outstanding : k.outstanding = [])
      (pdu : Bytes) (known : (k.last, pdu) ∈ k.answers)
      (replies : k.replies = [(some k.last, Exchange.responseOf pdu k.view.deferFmt)])

structure Pastes : Prop where
  pending : k.view.pending = true
  landed : k.Landed
  files : k.view.deferFmt = fmtFiles
  source : ∃ pdu blob, (k.last, pdu) ∈ k.answers ∧
    Exchange.responseOf pdu fmtFiles = .data fmtFiles 0 blob ∧ EntriesOf blob k.view.descs

structure Holds : Prop where
  latest : k.issued[k.last]? = some k.view.deferred
  format : k.view.deferFmt = fmtForTarget k.view.deferred.target
  wanted : k.view.deferFmt ≠ 0

structure Sound : Prop where
  flight : k.Flight
  numbered : k.received + k.requests.length = k.issued.length
  holds : k.view.pending = true → k.Holds
  pasting : k.view.active = true → k.Pastes
  right : k.Right

variable {k} {octets : Bytes} {status : Nat}

theorem Right.more (right : k.Right) (issued : List SelectionRequest)
    (answers : List (Nat × Bytes)) {n : Notify} (old : n ∈ k.view.notified)
    (data : n.answer = .data octets) :
    ∃ i pdu, (k.issued ++ issued)[i]? = some n.request ∧ (i, pdu) ∈ k.answers ++ answers ∧
      Derived (fmtForTarget n.request.target) pdu octets := by
  obtain ⟨i, pdu, request, known, derived⟩ := right n old octets data
  refine ⟨i, pdu, ?_, mem_append_left _ known, derived⟩
  rw [List.getElem?_append_left (List.getElem?_eq_some_iff.1 request).1, request]

theorem right_answer (right : k.Right) (holds : k.Holds) (data : Option Bytes)
    (derives : ∀ octets, answerOf data = .data octets →
      ∃ pdu, (k.last, pdu) ∈ k.answers ∧ Derived k.view.deferFmt pdu octets) :
    ∀ n ∈ (k.view.answer data).notified, ∀ octets, n.answer = .data octets →
      ∃ i pdu, k.issued[i]? = some n.request ∧ (i, pdu) ∈ k.answers ∧
        Derived (fmtForTarget n.request.target) pdu octets := by
  intro n told octets carries
  unfold View.answer at told
  split_ifs at told with pending
  · rcases mem_append.1 told with before | now
    · exact right n before octets carries
    · rw [mem_singleton.1 now] at carries ⊢
      obtain ⟨pdu, known, derived⟩ := derives octets carries
      exact ⟨k.last, pdu, holds.latest, known, holds.format ▸ derived⟩
  · exact right n told octets carries

theorem answerOf_eq_data {data : Option Bytes} (told : answerOf data = .data octets) :
    data = some octets := by
  rcases data with none | _ | ⟨octet, rest⟩
  · cases told
  · cases told
  · cases told
    rfl

theorem answer_pending (v : View) (data : Option Bytes) :
    (v.answer data).pending = false := by
  unfold View.answer
  split_ifs with pending
  · rfl
  · exact Bool.eq_false_iff.2 pending

theorem answer_active (v : View) (data : Option Bytes) :
    (v.answer data).active = v.active := by
  unfold View.answer
  split_ifs <;> rfl

theorem sound_of_settled (numbered : k.received + k.requests.length = k.issued.length)
    (landed : k.Landed) (idle : k.view.pending = false) (fetching : k.view.active = false)
    (right : k.Right) : k.Sound where
  flight := .landed landed
  numbered := numbered
  holds pending := absurd pending (by rw [idle]; exact Bool.false_ne_true)
  pasting active := absurd active (by rw [fetching]; exact Bool.false_ne_true)
  right := right

theorem format_of_response {target : Atom} (wanted : fmtForTarget target ≠ 0) {pdu : Bytes}
    {format : Nat}
    (response : Exchange.responseOf pdu (fmtForTarget target) = .data format status octets) :
    format = fmtForTarget target := by
  have known : fmtForTarget target = fmtFiles ∨ fmtForTarget target = fmtImage ∨
      fmtForTarget target = fmtHtml ∨ fmtForTarget target = fmtText := by
    cases target <;> simp [fmtForTarget] at wanted ⊢
  unfold Exchange.responseOf ClipState.decodeResponse at response
  split_ifs at response with failed files image html
  · cases response
    rfl
  · cases response
    rfl
  · split at response <;> cases response <;> rfl
  · cases response
    rfl
  · cases response
    rcases known with same | same | same | same
    · exact absurd same files
    · exact absurd same image
    · exact absurd same html
    · exact same.symm

theorem dataOf_eq_some {blob : Bytes} (data : dataOf status octets = some blob) :
    status = 0 ∧ octets = blob := by
  unfold dataOf at data
  split_ifs at data with given
  exact ⟨given.1, Option.some.inj data⟩

theorem sound_pasted (sound : k.Sound) (active : k.view.active = true) {after : View}
    (goes : k.view.Progress after) : Sound { k with view := after } := by
  have pastes := sound.pasting active
  have holds := sound.holds pastes.pending
  have landed : ∀ v, Landed { k with view := v } := fun v =>
    ⟨pastes.landed.requests, pastes.landed.outstanding, pastes.landed.replies⟩
  cases goes with
  | same => exact sound
  | finished =>
    refine sound_of_settled sound.numbered (landed _) (answer_pending _ _) rfl ?_
    refine right_answer sound.right holds _ fun octets told => ?_
    obtain ⟨pdu, blob, known, response, parsed⟩ := pastes.source
    have listed := Option.some.inj (answerOf_eq_data told)
    refine ⟨pdu, known, ?_⟩
    rw [pastes.files]
    exact ⟨blob, _, response, parsed, listed.symm⟩
  | aborted =>
    refine sound_of_settled sound.numbered (landed _) (answer_pending _ _) rfl ?_
    exact right_answer sound.right holds _ fun octets told => by cases told

theorem sound_delivered (sound : k.Sound) {number : Option Nat} {format : Nat}
    {rest : List (Option Nat × ClipMsg)} {after : View}
    (head : k.replies = (number, .data format status octets) :: rest)
    (received : k.view.Receives format status octets after) :
    Sound { k with replies := rest, view := after } := by
  cases sound.flight with
  | landed landed =>
    rw [landed.replies] at head
    cases head
  | rising waits requests outstanding replies | asked waits requests outstanding format replies =>
    rw [replies] at head
    cases head
  | falling waits requests outstanding pdu known replies =>
    rw [replies] at head
    obtain ⟨frame, rfl⟩ := cons.inj head
    have response : Exchange.responseOf pdu k.view.deferFmt = .data format status octets :=
      congrArg Prod.snd frame
    have holds := sound.holds waits.pending
    have same : format = k.view.deferFmt := by
      rw [holds.format] at response ⊢
      exact format_of_response (holds.format ▸ holds.wanted) response
    have landed : ∀ v, Landed { k with replies := [], view := v } := fun v =>
      ⟨requests, outstanding, rfl⟩
    cases received with
    | answered other =>
      refine sound_of_settled sound.numbered (landed _) (answer_pending _ _) ?_ ?_
      · exact (answer_active _ _).trans waits.fetching
      · refine right_answer sound.right holds _ fun told carries => ?_
        obtain ⟨rfl, rfl⟩ := dataOf_eq_some (answerOf_eq_data carries)
        refine ⟨pdu, known, ?_⟩
        rw [Derived, if_neg fun files => other (same.trans files), response, same]
    | ignored idle =>
      rw [waits.pending] at idle
      cases idle
    | refused _ =>
      refine sound_of_settled sound.numbered (landed _) (answer_pending _ _) rfl ?_
      exact right_answer sound.right holds _ fun told carries => by cases carries
    | pastes files blob entries data parsed goes =>
      obtain ⟨rfl, rfl⟩ := dataOf_eq_some data
      have fmt : k.view.deferFmt = fmtFiles := same.symm.trans files
      rw [fmt, files] at response
      have begun : Sound { k with
          replies := [], view := { k.view with active := true, descs := entries } } :=
        { flight := .landed (landed _)
          numbered := sound.numbered
          holds := fun _ => ⟨holds.latest, holds.format, holds.wanted⟩
          pasting := fun _ =>
            ⟨waits.pending, landed _, fmt, pdu, octets, known, response, parsed⟩
          right := sound.right }
      exact sound_pasted begun rfl goes

theorem sound_asks (sound : k.Sound) {re : SelectionRequest} (defers : k.view.defers re) :
    Sound { k with view := k.view.defer re, requests := k.requests ++ [fmtForTarget re.target]
                   issued := k.issued ++ [re] } := by
  obtain ⟨wanted, _, idle⟩ := defers
  have busy : ∀ {p : Prop}, k.view.pending = true → p := fun pending => by
    rw [idle] at pending
    cases pending
  have landed : k.Landed := by
    cases sound.flight with
    | landed landed => exact landed
    | rising waits _ _ _ | asked waits _ _ _ _ | falling waits _ _ _ _ _ => exact busy waits.pending
  have fetching : k.view.active = false := by
    refine Bool.eq_false_iff.2 fun active => ?_
    exact busy (sound.pasting active).pending
  refine ⟨.rising ⟨rfl, fetching⟩ ?_ landed.outstanding landed.replies, ?_, fun _ => ?_,
    fun active => ?_, ?_⟩
  · rw [landed.requests]
    rfl
  · rw [length_append, length_append, length_singleton, length_singleton,
      ← Nat.add_assoc, ← sound.numbered]
  · refine ⟨?_, rfl, wanted⟩
    rw [last, length_append]
    exact getElem?_concat_length
  · exact busy (sound.pasting active).pending
  · intro n old octets data
    have more := sound.right.more [re] [] old data
    rwa [append_nil] at more

theorem Waits.idle {P : Prop} (waits : k.Waits) (active : k.view.active = true) : P := by
  rw [show k.view.active = false from waits.fetching] at active
  cases active

theorem sound_answered (sound : k.Sound) (pdu : Bytes) {i : Nat} {rest : List Nat}
    (head : k.outstanding = i :: rest) :
    Sound { k with outstanding := rest, format := 0
                   replies := k.replies ++ [(some i, Exchange.responseOf pdu k.format)]
                   answers := k.answers ++ [(i, pdu)] } := by
  cases sound.flight with
  | landed landed =>
    rw [landed.outstanding] at head
    cases head
  | rising waits requests outstanding replies
  | falling waits requests outstanding pdu known replies =>
    rw [outstanding] at head
    cases head
  | asked waits requests outstanding format replies =>
    rw [outstanding] at head
    obtain ⟨rfl, rfl⟩ := cons.inj head
    refine ⟨.falling ⟨waits.pending, waits.fetching⟩ requests rfl pdu ?_ ?_, sound.numbered,
      fun pending => ?_, waits.idle, ?_⟩
    · exact mem_append_right _ mem_cons_self
    · rw [replies, format]
      rfl
    · have holds := sound.holds pending
      exact ⟨holds.latest, holds.format, holds.wanted⟩
    · intro n old octets data
      have more := sound.right.more [] [(k.last, pdu)] old data
      rwa [append_nil] at more

theorem rising_of_requests (sound : k.Sound) {sem : Nat} {rest : List Nat}
    (head : k.requests = sem :: rest) :
    k.Waits ∧ sem = k.view.deferFmt ∧ rest = [] ∧ k.outstanding = [] ∧ k.replies = [] ∧
      k.received = k.last := by
  cases sound.flight with
  | landed landed =>
    rw [landed.requests] at head
    cases head
  | asked waits requests _ _ _ | falling waits requests _ _ _ _ =>
    rw [requests] at head
    cases head
  | rising waits requests outstanding replies =>
    have numbered := sound.numbered
    rw [requests, length_singleton] at numbered
    rw [requests] at head
    obtain ⟨rfl, rfl⟩ := cons.inj head
    refine ⟨waits, rfl, rfl, outstanding, replies, ?_⟩
    rw [last]
    omega

/-- **Every move keeps the answers right.** -/
theorem Moves.sound {next : Conversation} (moves : k.Moves next) (sound : k.Sound) :
    next.Sound := by
  cases moves with
  | idle => exact sound
  | told re answer plain =>
    refine ⟨?_, sound.numbered, fun pending => ?_, fun active => ?_, ?_⟩
    · cases sound.flight with
      | landed landed => exact .landed ⟨landed.requests, landed.outstanding, landed.replies⟩
      | rising waits requests outstanding replies =>
        exact .rising ⟨waits.pending, waits.fetching⟩ requests outstanding replies
      | asked waits requests outstanding format replies =>
        exact .asked ⟨waits.pending, waits.fetching⟩ requests outstanding format replies
      | falling waits requests outstanding pdu known replies =>
        exact .falling ⟨waits.pending, waits.fetching⟩ requests outstanding pdu known replies
    · have holds := sound.holds pending
      exact ⟨holds.latest, holds.format, holds.wanted⟩
    · have pastes := sound.pasting active
      exact ⟨pastes.pending, ⟨pastes.landed.requests, pastes.landed.outstanding,
        pastes.landed.replies⟩, pastes.files, pastes.source⟩
    · intro n old octets data
      rcases mem_append.1 old with before | now
      · exact sound.right n before octets data
      · rw [mem_singleton.1 now] at data
        exact absurd data (plain octets)
  | asks re defers => exact sound_asks sound defers
  | clears formats landed =>
    exact sound_of_settled sound.numbered
      ⟨landed.requests, landed.outstanding, landed.replies⟩ rfl rfl sound.right
  | dropped sem rest head =>
    obtain ⟨waits, rfl, rfl, outstanding, replies, _⟩ := rising_of_requests sound head
    refine ⟨.landed ⟨rfl, outstanding, replies⟩, ?_, fun pending => ?_, waits.idle, sound.right⟩
    · have numbered := sound.numbered
      rw [head] at numbered
      exact numbered
    · have holds := sound.holds pending
      exact ⟨holds.latest, holds.format, holds.wanted⟩
  | passed sem rest head =>
    obtain ⟨waits, rfl, rfl, outstanding, replies, number⟩ := rising_of_requests sound head
    refine ⟨.asked ⟨waits.pending, waits.fetching⟩ rfl ?_ rfl replies, ?_, fun pending => ?_,
      waits.idle, sound.right⟩
    · rw [outstanding, number]
      rfl
    · have numbered := sound.numbered
      rw [head] at numbered
      exact numbered
    · have holds := sound.holds pending
      exact ⟨holds.latest, holds.format, holds.wanted⟩
  | answered pdu i rest head => exact sound_answered sound pdu head
  | delivered number format status octets rest after head received =>
    exact sound_delivered sound head received
  | pasted after active goes => exact sound_pasted sound active goes

end Conversation

end RdpServer.Clipboard
