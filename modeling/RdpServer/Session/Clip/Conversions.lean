import RdpServer.Lib.Deferral
import RdpServer.Lib.Runs
import RdpServer.Session.Clip.Effects

/-!
# Every conversion is answered once

The `defer_` fields hold one SelectionRequest, and whatever the session does with
them is one of a few acts (`step_acts`): it answers the request that waits, or another one at
once, or it drops the request that waits, upon an offer of the client or the loss of the
selection.
-/

namespace RdpServer.Session.Clip

open Backend Option List

def View.deferral (v : View) : Deferral SelectionRequest Answer where
  waiting := if v.pending then some v.deferred else none
  answered := v.notified.map fun n => (n.request, n.answer)

def deferral (c : Clip) : Deferral SelectionRequest Answer := c.view.deferral

variable {c : Clip} {v after : View} {host : Host} {event : Event} (events : List Event)
  (re : SelectionRequest)

theorem waiting_of_pending (pending : c.rdpDataPending = true) :
    c.deferral.waiting = some c.deferred := if_pos pending

theorem waiting_of_idle (idle : c.rdpDataPending = false) : c.deferral.waiting = none :=
  if_neg (Bool.eq_false_iff.1 idle)

theorem deferral_notify (answer : Answer) :
    (v.notify re answer).deferral = v.deferral.act (.reply re answer) := by
  rw [View.deferral, View.notify, map_append]
  rfl

theorem deferral_answer (data : Option Bytes) :
    (v.answer data).deferral = v.deferral.act (.settle (answerOf data)) := by
  unfold View.answer
  cases pending : v.pending with
  | true => simp [View.deferral, View.notify, Deferral.act, pending]
  | false => simp [View.deferral, Deferral.act, pending]

theorem settles_of_progress (goes : v.Progress after) : v.deferral.Settles after.deferral := by
  cases goes with
  | same => exact .refl _
  | finished =>
    have ends : v.finish.deferral = _ := deferral_answer _
    exact ends ▸ .settle _ _
  | aborted =>
    have ends : v.abort.deferral = _ := deferral_answer _
    exact ends ▸ .settle _ _

theorem onClipData_settles (format status : Nat) (octets : Bytes) :
    c.deferral.Settles (c.onClipData host format status octets).deferral := by
  have received := (onClipData_receives c host format status octets).1
  unfold deferral
  generalize (c.onClipData host format status octets).view = after at received ⊢
  cases received with
  | answered other =>
    rw [deferral_answer]
    exact .settle _ _
  | ignored idle => exact .refl _
  | refused waits => exact settles_of_progress .aborted
  | pastes files blob entries data parsed goes =>
    have settles := settles_of_progress goes
    exact settles

def forgets (c : Clip) (event : Event) : Option SelectionRequest :=
  if event.clears then c.deferral.waiting else none

structure Acts (c : Clip) (event : Event) (a : Deferral.Act SelectionRequest Answer) : Prop where
  free : c.deferral.Defers a
  asks : a.asks = event.asks
  drops : c.deferral.drops a = c.forgets event
  acts : (c.step event).deferral = c.deferral.act a

theorem acts_of_settles (asks : event.asks = none) (keeps : event.clears = false)
    (settles : c.deferral.Settles (c.step event).deferral) : ∃ a, Acts c event a := by
  obtain ⟨a, quiet, acts⟩ := settles
  refine ⟨a, ⟨quiet.defers _, ?_, ?_, acts⟩⟩
  · rw [quiet.asks_eq, asks]
  · rw [quiet.drops_eq, forgets, keeps]
    rfl

theorem acts_of_drop (asks : event.asks = none) (clears : event.clears = true)
    (drops : (c.step event).deferral = c.deferral.act .drop) : ∃ a, Acts c event a := by
  refine ⟨.drop, ⟨True.intro, asks.symm, ?_, drops⟩⟩
  rw [forgets, clears]
  rfl

theorem deferral_drop (idle : after.pending = false) (notified : after.notified = v.notified) :
    after.deferral = v.deferral.act .drop := by
  simp only [View.deferral, Deferral.act, idle, notified, Bool.false_eq_true, if_false]

theorem aside_settles {next : Clip} (aside : Aside c next) : c.deferral.Settles next.deferral := by
  rw [deferral, deferral, aside.1]
  exact .refl _

theorem message_acts {type : Nat} {payload : Bytes} {msg : ClipMsg}
    (found : ClipMsg.read type payload = some msg) : ∃ a, Acts c
      (.message host type payload) a := by
  have asks : Event.asks (.message host type payload) = none := rfl
  have stepped : c.step (.message host type payload) = c.handleBeMsg host msg := by
    simp only [step, found]
  have cleared : Event.clears (.message host type payload) = msg.isOffer := by
    rw [Event.clears, found]
    rfl
  cases msg with
  | offer formats =>
    refine acts_of_drop asks cleared ?_
    rw [stepped, handleBeMsg, deferral, view_onClipOffer]
    exact deferral_drop rfl rfl
  | request format =>
    exact acts_of_settles asks cleared (stepped ▸ aside_settles (aside_onClipRequest format))
  | data format status octets =>
    exact acts_of_settles asks cleared (stepped ▸ onClipData_settles _ _ _)
  | fileRequest rq =>
    exact acts_of_settles asks cleared (stepped ▸ aside_settles (aside_onClipFileRequest rq))
  | fileData streamId status octets =>
    exact acts_of_settles asks cleared (stepped ▸ settles_of_progress (dlOnFileData_pastes _ _ _).1)

/-- **One event**: it makes the request it brings, and drops one only if it clears. -/
theorem step_acts (c : Clip) (event : Event) : ∃ a, Acts c event a := by
  have steps := step_steps c event
  generalize next : c.step event = after at steps
  cases steps with
  | aside asks keeps aside => exact acts_of_settles asks keeps (next ▸ aside_settles aside)
  | asked re wanted =>
    have asks : Event.asks (.selectionRequest re) = some re := if_pos wanted
    rcases onSelectionRequest_view c re wanted with
      ⟨answer, _, told, _⟩ | ⟨⟨_, _, idle⟩, held, _⟩
    · refine ⟨.reply re answer, ⟨True.intro, asks.symm, rfl, ?_⟩⟩
      exact (congrArg View.deferral told).trans (deferral_notify _ _)
    · have none : c.deferral.waiting = none := by
        rw [deferral, View.deferral, idle]
        rfl
      exact ⟨.defer re, ⟨none, asks.symm, rfl, congrArg View.deferral held⟩⟩
  | cleared =>
    refine acts_of_drop rfl rfl ?_
    rw [next, deferral, view_onSelectionClear]
    exact deferral_drop rfl rfl
  | read host found => exact message_acts found

def received (events : List Event) (re : SelectionRequest) : Nat :=
  (events.filterMap Event.asks).count re

def answersTo (c : Clip) (re : SelectionRequest) : Nat :=
  (c.notified.map Notify.request).count re

def forgotten (events : List Event) (re : SelectionRequest) (c : Clip) : Nat :=
  Runs.total step (fun c event => (c.forgets event).toList.count re) c events

theorem answersTo_eq (c : Clip) (re : SelectionRequest) :
    c.answersTo re = c.deferral.answersTo re := by
  rw [answersTo, Deferral.answersTo, deferral, View.deferral, List.map_map]
  rfl

theorem received_eq_total (c : Clip) :
    Runs.total step (fun _ event => event.asks.toList.count re) c events = received events re := by
  induction events generalizing c with
  | nil => rfl
  | cons event rest ih =>
    rw [Runs.total, ih, received, received]
    cases asks : event.asks with
    | none => rw [filterMap_cons_none asks, toList_none, count_nil, Nat.zero_add]
    | some made =>
      rw [filterMap_cons_some asks, toList_some, count_singleton, count_cons, Nat.add_comm]

theorem run_ledger :
    (run events {}).answersTo re + (run events {}).deferral.waiting.toList.count re +
      forgotten events re {} = received events re := by
  have each : ∀ (c : Clip) (event : Event), True →
      (c.step event).deferral.accountedFor re + (c.forgets event).toList.count re =
        c.deferral.accountedFor re + event.asks.toList.count re := by
    intro c event _
    obtain ⟨a, acts⟩ := step_acts c event
    have one := c.deferral.act_accountedFor acts.free re
    rwa [← acts.acts, acts.drops, acts.asks] at one
  have start : ({} : Clip).deferral.accountedFor re = 0 := rfl
  have balance := Runs.balance (s := ({} : Clip)) (fun c => c.deferral.accountedFor re)
    (fun _ _ _ => True.intro) each True.intro events
  rw [received_eq_total, start, Nat.zero_add] at balance
  rw [answersTo_eq]
  exact balance

theorem step_clears (c : Clip) (clears : event.clears = true) :
    (c.step event).rdpDataPending = false := by
  cases event with
  | selectionClear selection =>
    simp only [step, if_pos (beq_iff_eq.1 clears)]
    exact congrArg View.pending (view_onSelectionClear (c := c))
  | message host type payload =>
    obtain ⟨msg, found, offer⟩ := (any_eq_true _ _).1 clears
    cases msg with
    | offer formats =>
      simp only [step, found, handleBeMsg]
      exact congrArg View.pending (view_onClipOffer (c := c) formats)
    | request _ | data _ _ _ | fileRequest _ | fileData _ _ _ => cases offer
  | selectionRequest _ | selectionOwner _ | selectionNotify _ _ _ _ | propertyNotify _ _ =>
    cases clears

theorem answersTo_le : (run events {}).answersTo re ≤ received events re := by
  have ledger := run_ledger events re
  omega

theorem answersTo_eq_iff {events : List Event} (idle : (run events {}).rdpDataPending = false) :
    (∀ re, (run events {}).answersTo re = received events re) ↔
      ∀ re, forgotten events re {} = 0 := by
  refine forall_congr' fun re => ?_
  have ledger := run_ledger events re
  rw [waiting_of_idle idle, toList_none, count_nil] at ledger
  omega

theorem forgotten_eq_zero_iff (c : Clip) :
    (∀ re, forgotten events re c = 0) ↔
      Runs.Along step (fun c event => event.clears = true → c.rdpDataPending = false) c events := by
  induction events generalizing c with
  | nil => exact ⟨fun _ => True.intro, fun _ _ => rfl⟩
  | cons event rest ih =>
    have head : (∀ re, (c.forgets event).toList.count re = 0) ↔
        (event.clears = true → c.rdpDataPending = false) := by
      cases clears : event.clears with
      | false => simp [forgets, clears]
      | true =>
        cases pending : c.rdpDataPending with
        | false => simp [forgets, waiting_of_idle pending]
        | true =>
          simp only [forgets, clears, waiting_of_pending pending, if_true, toList_some]
          refine ⟨fun none => absurd (none c.deferred) ?_, fun idle => absurd (idle True.intro) ?_⟩
          · rw [count_singleton_self]
            exact Nat.one_ne_zero
          · exact nofun
    rw [Runs.Along, ← ih, ← head, ← forall_and]
    refine forall_congr' fun re => ?_
    rw [forgotten, Runs.total, Nat.add_eq_zero_iff]
    rfl

/-- **Conversions**: a request gets no second answer. Whenever no request is outstanding
all requests so far have their answer, exactly if the client makes no offer and the
selection is not lost while a request waits. -/
theorem conversions_settled_iff (events : List Event) :
    (∀ re, (run events {}).answersTo re ≤ received events re) ∧
      ((∀ k, (run (events.take k) {}).rdpDataPending = false →
          ∀ re, (run (events.take k) {}).answersTo re = received (events.take k) re) ↔
        Runs.Along step (fun c event => event.clears = true → c.rdpDataPending = false) {}
          events) := by
  refine ⟨answersTo_le events, fun settled => Runs.along_iff.2 ?_, fun along k idle => ?_⟩
  · -- the state behind an event that clears has nothing outstanding
    intro k event found clears
    have idle : (run (events.take (k + 1)) {}).rdpDataPending = false := by
      rw [run, take_add_one, foldl_append, found]
      exact step_clears _ clears
    have along := (forgotten_eq_zero_iff _ _).1 ((answersTo_eq_iff idle).1 (settled _ idle))
    have here : (events.take (k + 1))[k]? = some event := by
      rw [getElem?_take_of_lt (Nat.lt_succ_self k), found]
    have meets := Runs.along_iff.1 along k event here clears
    rwa [take_take, min_eq_left (Nat.le_succ k)] at meets
  · rw [answersTo_eq_iff idle, forgotten_eq_zero_iff]
    exact along.take k

def noFiles : Host where
  tmpdir := none
  mkdir _ := false
  create _ := false
  write := false
  stat _ := none
  pread _ _ _ := none

def textWanted : SelectionRequest where
  serial := 1
  requestor := 7
  selection := .clipboard
  target := .utf8String
  property := 3
  time := 0

/-- The client offers text, and offers it again while a program waits for it. -/
def offeredTwice : List Event :=
  [.message noFiles 6 [1, 0, 0, 0], .selectionRequest textWanted,
    .message noFiles 6 [1, 0, 0, 0]]

/-- The program that waits is never told anything. -/
theorem offeredTwice_forgets :
    (run offeredTwice {}).rdpDataPending = false ∧
      (run offeredTwice {}).answersTo textWanted = 0 ∧ received offeredTwice textWanted = 1 := by
  decide

end RdpServer.Session.Clip
