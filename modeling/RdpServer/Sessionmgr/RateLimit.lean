import RdpServer.Lib.Window
import RdpServer.Sessionmgr.Handlers

/-!
# The limit on failed logins

The log of a run is the list of logins that reached the authentication backend. The manager
keeps one window and one count for each address (`Tracked`): the failures since its last
success end with the counted ones, and the others are a window's length before the window.
That last part is what a run has to provide (`Aligned`).
-/

namespace RdpServer.Sessionmgr

open Slots Window List

structure Attempt where
  ip : Name
  time : Nat
  accepted : Bool
  deriving DecidableEq

variable {crypto : Crypto} {m : Manager} {table : Slots Throttle} {ip : Name}
  {log stretch : List Attempt} {times : List Nat} {clock now : Nat}

def Act.attempt (now : Nat) : Act → Option Attempt
  | .accepted ip _ => some ⟨ip, now, true⟩
  | .refused ip => some ⟨ip, now, false⟩
  | .launched _ _ => none

def Event.attempts (crypto : Crypto) (m : Manager) : Event → List Attempt
  | .request r => (handleRequest crypto m r).acts.filterMap (Act.attempt r.world.now)
  | .hangUp _ => []

def attempts (crypto : Crypto) : Manager → List Event → List Attempt
  | _, [] => []
  | m, event :: events =>
    event.attempts crypto m ++ attempts crypto (step crypto m event) events

def failures (ip : Name) (log : List Attempt) : List Nat :=
  (log.filter fun a => a.ip = ip ∧ a.accepted = false).map Attempt.time

/-- In every stretch of the log without a success of an address, at most five of
its failures fall into any 60 seconds. -/
def RateLimited (log : List Attempt) : Prop :=
  ∀ ip, ip ≠ [] → ∀ earlier stretch later, log = earlier ++ stretch ++ later →
    (∀ a ∈ stretch, a.ip = ip → a.accepted = false) →
    Rated authFailMax authFailWindow (failures ip stretch)

/-- What an attempt does to the failures of an address since its last success. -/
def Attempt.note (ip : Name) (times : List Nat) (a : Attempt) : List Nat :=
  if a.ip = ip then if a.accepted then [] else times ++ [a.time] else times

def pending (ip : Name) (log : List Attempt) : List Nat := log.foldl (Attempt.note ip) []

theorem pending_concat (ip : Name) (log : List Attempt) (a : Attempt) :
    pending ip (log ++ [a]) = a.note ip (pending ip log) := by
  rw [pending, foldl_append, foldl_cons, foldl_nil, pending]

theorem pending_other {a : Attempt} (other : a.ip ≠ ip) :
    pending ip (log ++ [a]) = pending ip log := by
  rw [pending_concat, Attempt.note, if_neg other]

theorem pending_refused (ip : Name) (log : List Attempt) (now : Nat) :
    pending ip (log ++ [⟨ip, now, false⟩]) = pending ip log ++ [now] := by
  rw [pending_concat, Attempt.note, if_pos rfl]
  rfl

theorem foldl_note_quiet (quiet : ∀ a ∈ stretch, a.ip = ip → a.accepted = false) :
    stretch.foldl (Attempt.note ip) times = times ++ failures ip stretch := by
  induction stretch generalizing times with
  | nil => rw [foldl_nil, failures, filter_nil, map_nil, append_nil]
  | cons a stretch ih =>
    have rest := fun times => @ih times fun b member => quiet b (mem_cons_of_mem _ member)
    rw [foldl_cons, rest, failures, failures]
    by_cases mine : a.ip = ip
    · have failed := quiet a mem_cons_self mine
      rw [Attempt.note, if_pos mine, failed, filter_cons_of_pos (by simp [mine, failed]),
        map_cons, if_neg Bool.false_ne_true, append_assoc, singleton_append]
    · rw [Attempt.note, if_neg mine, filter_cons_of_neg (by simp [mine])]

theorem RateLimited.concat {a : Attempt} (limited : RateLimited log)
    (rated : ∀ ip, ip ≠ [] → Rated authFailMax authFailWindow (pending ip (log ++ [a]))) :
    RateLimited (log ++ [a]) := by
  intro ip named earlier stretch later same quiet
  rcases eq_nil_or_concat later with rfl | ⟨others, last, rfl⟩
  · have bound := rated ip named
    rw [same, append_nil, pending, foldl_append, foldl_note_quiet quiet] at bound
    exact bound.right
  · rw [concat_eq_append, ← append_assoc] at same
    exact limited ip named earlier stretch others (append_inj_left' same rfl) quiet

inductive ThrottleStep (table : Slots Throttle) (now : Nat) : Slots Throttle → List Attempt → Prop
  | idle : ThrottleStep table now table []
  | refused (ip : Name) (passed : overThreshold table ip now = false) :
      ThrottleStep table now (authThrottleFail table ip now) [⟨ip, now, false⟩]
  | accepted (ip : Name) : ThrottleStep table now (authThrottleClear table ip) [⟨ip, now, true⟩]

theorem LogsIn.throttle {m : Manager} {w : World} {out : Outcome} (logs : LogsIn m w out) :
    ThrottleStep m.throttle w.now out.manager.throttle
      (out.acts.filterMap (Act.attempt w.now)) := by
  cases logs with
  | idle => exact .idle
  | refused ip _ passed => exact .refused ip passed
  | accepted ip => exact .accepted ip
  | launched => exact .idle

theorem handleRequest_throttle (crypto : Crypto) (m : Manager) (r : Request) :
    ThrottleStep m.throttle r.world.now (handleRequest crypto m r).manager.throttle
      ((handleRequest crypto m r).acts.filterMap (Act.attempt r.world.now)) := by
  unfold handleRequest
  split_ifs
  · exact (handleAuth_logsIn m r.world r.frame).throttle
  · exact (handleSpawn_logsIn m r.world r.frame).throttle
  · exact (handleSpawn_logsIn m r.world r.frame).throttle
  · obtain ⟨⟨_, throttle, acts⟩, _⟩ := handleSuspend_stores
      { m with conn := { m.conn with retainedFd := none } } r.world r.frame r.recvFd
    rw [throttle, acts]
    exact .idle
  · obtain ⟨⟨_, throttle, acts⟩, _⟩ := handleResume_cases m r.world crypto r.frame
    rw [throttle, acts]
    exact .idle
  · exact .idle

theorem step_throttle (crypto : Crypto) (m : Manager) (event : Event) :
    ThrottleStep m.throttle event.world.now (step crypto m event).throttle
      (event.attempts crypto m) := by
  cases event with
  | request r => exact handleRequest_throttle crypto m r
  | hangUp w =>
    rw [step, (hangUp_stores m w).1]
    exact .idle

def opensWindow (table : Slots Throttle) (ip : Name) (now : Nat) : Bool :=
  (authThrottleFind table ip).all fun found => found.2.windowStart + authFailWindow ≤ now

/-- Failures that open a window come a window's length after every earlier
failure of their address since its last success. -/
def Aligned (crypto : Crypto) : Manager → List Attempt → List Event → Prop
  | _, _, [] => True
  | m, log, event :: events =>
    (∀ a ∈ event.attempts crypto m, a.accepted = false → a.ip ≠ [] →
      opensWindow m.throttle a.ip a.time = true →
      ∀ time ∈ pending a.ip log, time + authFailWindow ≤ a.time) ∧
    Aligned crypto (step crypto m event) (log ++ event.attempts crypto m) events

instance Aligned.decidable (crypto : Crypto) :
    ∀ m log events, Decidable (Aligned crypto m log events)
  | _, _, [] => inferInstanceAs (Decidable True)
  | m, log, event :: events =>
    have := Aligned.decidable crypto (step crypto m event) (log ++ event.attempts crypto m) events
    inferInstanceAs (Decidable (_ ∧ _))

structure Tracked (table : Slots Throttle) (log : List Attempt) (clock : Nat) : Prop where
  unique : KeyUnique Throttle.ip table
  counted : ∀ i s, table.entry i = some s → s.ip ≠ [] ∧ s.windowStart ≤ clock ∧
    Counts authFailWindow s.windowStart s.fails (pending s.ip log)
  rated : ∀ ip, ip ≠ [] → Rated authFailMax authFailWindow (pending ip log)
  limited : RateLimited log

theorem authThrottleFind_some {found : Nat × Throttle}
    (isFound : authThrottleFind table ip = some found) :
    table.entry found.1 = some found.2 ∧ found.2.ip = ip := by
  unfold authThrottleFind at isFound
  split_ifs at isFound
  obtain ⟨held, same⟩ := lookup_eq_some isFound
  exact ⟨held, of_decide_eq_true same⟩

theorem authThrottleFind_none {i : Nat} {s : Throttle} (named : ip ≠ [])
    (missing : authThrottleFind table ip = none) (held : table.entry i = some s) : s.ip ≠ ip := by
  rw [authThrottleFind, if_neg named] at missing
  have other := lookup_eq_none missing (holds_of_entry held)
  exact of_decide_eq_false other

namespace Tracked

variable (tracked : Tracked table log clock)
include tracked

variable {after : Slots Throttle}

/-- An attempt is noted: the entries of other addresses are as before, and those of its own
count its failures. -/
theorem note {a : Attempt} (later : clock ≤ a.time)
    (unique : KeyUnique Throttle.ip after)
    (counted : ∀ i s, after.entry i = some s → table.entry i = some s ∧ s.ip ≠ a.ip ∨
      s.ip ≠ [] ∧ s.windowStart ≤ a.time ∧
        Counts authFailWindow s.windowStart s.fails (pending s.ip (log ++ [a])))
    (own : a.ip ≠ [] → Rated authFailMax authFailWindow (pending a.ip (log ++ [a]))) :
    Tracked after (log ++ [a]) a.time := by
  have rated : ∀ ip, ip ≠ [] → Rated authFailMax authFailWindow (pending ip (log ++ [a])) := by
    intro ip named
    by_cases same : a.ip = ip
    · exact same ▸ own (same ▸ named)
    · rw [pending_other same]
      exact tracked.rated ip named
  refine ⟨unique, fun i s held => ?_, rated, tracked.limited.concat rated⟩
  rcases counted i s held with ⟨before, other⟩ | new
  · obtain ⟨known, started, still⟩ := tracked.counted i s before
    rw [pending_other (Ne.symm other)]
    exact ⟨known, le_trans started later, still⟩
  · exact new

theorem put (later : clock ≤ now) {slot : Nat} (s : Throttle) (named : s.ip ≠ [])
    (begun : s.windowStart ≤ now)
    (counts : Counts authFailWindow s.windowStart s.fails (pending s.ip log ++ [now]))
    (rated : Rated authFailMax authFailWindow (pending s.ip log ++ [now]))
    (others : ∀ j other, table.entry j = some other → j ≠ slot → other.ip ≠ s.ip) :
    Tracked (table.put slot s) (log ++ [⟨s.ip, now, false⟩]) now := by
  rw [← pending_refused] at counts rated
  refine tracked.note later (tracked.unique.put others) (fun i entry held => ?_) fun _ => rated
  rcases entry_put held with ⟨_, rfl⟩ | ⟨away, before⟩
  · exact .inr ⟨named, begun, counts⟩
  · exact .inl ⟨before, others i entry before away⟩

theorem refused (later : clock ≤ now)
    (passed : overThreshold table ip now = false)
    (aligned : ip ≠ [] → opensWindow table ip now = true →
      ∀ time ∈ pending ip log, time + authFailWindow ≤ now) :
    Tracked (authThrottleFail table ip now) (log ++ [⟨ip, now, false⟩]) now := by
  by_cases unnamed : ip = []
  · subst unnamed
    exact tracked.note later tracked.unique
      (fun i s held => .inl ⟨held, (tracked.counted i s held).1⟩) fun named => (named rfl).elim
  · rw [authThrottleFail, if_neg unnamed]
    cases isFound : authThrottleFind table ip with
    | none =>
      have far := aligned unnamed (by rw [opensWindow, isFound]; rfl)
      exact tracked.put later ⟨ip, 1, now⟩ unnamed (Nat.le_refl now)
        (counts_restart far) (rated_restart (tracked.rated ip unnamed) far (by decide))
        fun j other held _ => authThrottleFind_none unnamed isFound held
    | some found =>
      obtain ⟨i, s⟩ := found
      obtain ⟨held, rfl⟩ := authThrottleFind_some isFound
      obtain ⟨named, started, counts⟩ := tracked.counted i s held
      have others : ∀ j other, table.entry j = some other → j ≠ i → other.ip ≠ s.ip :=
        fun j other here apart same => apart (tracked.unique j i other s here held same)
      by_cases expired : s.windowStart + authFailWindow ≤ now
      · have far := aligned unnamed (by
          rw [opensWindow, isFound, Option.all_some, decide_eq_true_eq]
          exact expired)
        simp only [expired]
        exact tracked.put later ⟨s.ip, 1, now⟩ named (Nat.le_refl now)
          (counts_restart far) (rated_restart (tracked.rated s.ip named) far (by decide)) others
      · have room : s.fails < authFailMax := by
          rw [overThreshold, isFound, Option.any_some, decide_eq_false_iff_not] at passed
          simp only at passed
          omega
        simp only [expired]
        exact tracked.put later ⟨s.ip, s.fails + 1, s.windowStart⟩ named
          (le_trans started later) (counts.next now)
          (counts.rated (tracked.rated s.ip named) (le_trans started later) room) others

theorem forget (later : clock ≤ now)
    (unique : KeyUnique Throttle.ip after)
    (left : ∀ i s, after.entry i = some s → table.entry i = some s ∧ s.ip ≠ ip) :
    Tracked after (log ++ [⟨ip, now, true⟩]) now := by
  refine tracked.note later unique (fun i s held => .inl (left i s held)) fun _ => ?_
  rw [pending_concat, Attempt.note, if_pos rfl]
  exact rated_nil _ _

theorem accepted (later : clock ≤ now) (ip : Name) :
    Tracked (authThrottleClear table ip) (log ++ [⟨ip, now, true⟩]) now := by
  unfold authThrottleClear
  cases isFound : authThrottleFind table ip with
  | none =>
    refine tracked.forget later tracked.unique fun i s held => ⟨held, ?_⟩
    by_cases unnamed : ip = []
    · rw [unnamed]
      exact (tracked.counted i s held).1
    · exact authThrottleFind_none unnamed isFound held
  | some found =>
    obtain ⟨i, s⟩ := found
    obtain ⟨here, isIp⟩ := authThrottleFind_some isFound
    refine tracked.forget later (tracked.unique.clear i) fun j other held => ?_
    obtain ⟨apart, before⟩ := entry_clear held
    refine ⟨before, fun same => apart ?_⟩
    exact tracked.unique j i other s before here (same.trans isIp.symm)

theorem step {made : List Attempt}
    (later : clock ≤ now) (taken : ThrottleStep table now after made)
    (aligned : ∀ a ∈ made, a.accepted = false → a.ip ≠ [] → opensWindow table a.ip a.time = true →
      ∀ time ∈ pending a.ip log, time + authFailWindow ≤ a.time) :
    Tracked after (log ++ made) now := by
  cases taken with
  | idle =>
    rw [append_nil]
    refine ⟨tracked.unique, fun i s held => ?_, tracked.rated, tracked.limited⟩
    obtain ⟨known, started, still⟩ := tracked.counted i s held
    exact ⟨known, le_trans started later, still⟩
  | refused ip passed =>
    exact tracked.refused later passed (aligned _ (mem_singleton.2 rfl) rfl)
  | accepted ip => exact tracked.accepted later ip

end Tracked

theorem tracked_start : Tracked (Slots.empty authThrottleMax) [] 0 where
  unique := keyUnique_empty _ _
  counted := by
    intro i s held
    rw [entry_empty] at held
    cases held
  rated := fun _ _ => rated_nil _ _
  limited := by
    intro ip _ earlier stretch later same _
    obtain ⟨within, _⟩ := append_eq_nil_iff.1 same.symm
    rw [(append_eq_nil_iff.1 within).2]
    exact rated_nil _ _

def Ordered (events : List Event) : Prop :=
  events.Pairwise fun a b => a.world.now ≤ b.world.now

theorem run_tracked {events : List Event} (tracked : Tracked m.throttle log clock)
    (later : ∀ event ∈ events, clock ≤ event.world.now) (ordered : Ordered events)
    (aligned : Aligned crypto m log events) :
    ∃ clock, Tracked (run crypto m events).throttle (log ++ attempts crypto m events) clock := by
  induction events generalizing m log clock with
  | nil =>
    rw [attempts, append_nil]
    exact ⟨clock, tracked⟩
  | cons event events ih =>
    obtain ⟨here, rest⟩ := aligned
    obtain ⟨first, others⟩ := pairwise_cons.1 ordered
    have next := tracked.step (later event mem_cons_self) (step_throttle crypto m event) here
    obtain ⟨clock, atEnd⟩ := ih next first others rest
    refine ⟨clock, ?_⟩
    rw [attempts, ← append_assoc]
    exact atEnd

/-- **Failed logins are limited in runs whose windows are aligned**: whatever
connections, addresses and answers of the backend there are, no address fails
more than five times in 60 seconds without a success in between. -/
theorem rateLimited_of_aligned (crypto : Crypto) (events : List Event) (ordered : Ordered events)
    (aligned : Aligned crypto {} [] events) : RateLimited (attempts crypto {} events) := by
  obtain ⟨_, tracked⟩ :=
    run_tracked tracked_start (fun _ _ => Nat.zero_le _) ordered aligned
  exact tracked.limited

/-- A login from address `b` that the backend refuses. -/
def refusedAt (now : Nat) : Event :=
  .request ⟨opAuth, [0, 1, 0, 0, 0, 1, 0, 0x61, 0x62], none,
    { toyWorld with now := now, backend := fun _ _ _ => none }⟩

def alignedRun : List Event :=
  [refusedAt 0, refusedAt 0, refusedAt 0, refusedAt 0, refusedAt 0, refusedAt 30, refusedAt 60]

set_option maxRecDepth 4000 in
theorem rateLimited_alignedRun :
    attempts toyCrypto {} alignedRun = [⟨[0x62], 0, false⟩, ⟨[0x62], 0, false⟩, ⟨[0x62], 0, false⟩,
      ⟨[0x62], 0, false⟩, ⟨[0x62], 0, false⟩, ⟨[0x62], 60, false⟩] ∧
    RateLimited (attempts toyCrypto {} alignedRun) :=
  ⟨by decide, rateLimited_of_aligned toyCrypto alignedRun (by
      simp [Ordered, alignedRun, refusedAt, Event.world]) (by decide)⟩

/-- One failure opens the window, four come at its end and five at the start of
the next one. -/
def misalignedRun : List Event :=
  [refusedAt 0, refusedAt 59, refusedAt 59, refusedAt 59, refusedAt 59,
    refusedAt 60, refusedAt 60, refusedAt 60, refusedAt 60, refusedAt 60]

set_option maxRecDepth 4000 in
theorem not_rateLimited_misalignedRun :
    Ordered misalignedRun ∧ ¬ RateLimited (attempts toyCrypto {} misalignedRun) := by
  refine ⟨by simp [Ordered, misalignedRun, refusedAt, Event.world], fun limited => ?_⟩
  have bound := limited [0x62] (by decide) [] (attempts toyCrypto {} misalignedRun) []
    (by rw [append_nil, nil_append]) (by decide) 59
  exact absurd bound (by decide)

end RdpServer.Sessionmgr
