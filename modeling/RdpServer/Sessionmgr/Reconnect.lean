import RdpServer.Lib.Runs
import RdpServer.Sessionmgr.Handlers

/-!
# Suspended sessions

Where the entries of the suspended table come from, and what gets them out. An
entry is stored by a SUSPEND request (`handleRequest_holds`) or by the end of a
connection that still retains a descriptor (`hangUp_stores`). RESUME searches for the first
entry with the logon id and hands out its descriptor if the verifier is the one of its cookie
(`handleResume_ok_iff`). It clears the slot before the reply is sent, so no live session is
lost in a run exactly if these replies are delivered (`retained_iff_delivered`).
-/

namespace RdpServer.Sessionmgr

open Bytes Slots List Option

variable {crypto : Crypto} {m : Manager} {w : World} {r : Request} {e : Suspended}
  {req : Bytes}

/-- A handler that leaves the suspended sessions alone, and that does not say
whether a SPAWN was answered. -/
def Keeps (m after : Manager) : Prop :=
  after.suspended = m.suspended ∧ after.conn.spawnDone = m.conn.spawnDone

theorem LogsIn.keeps {out : Outcome} (logs : LogsIn m w out) : Keeps m out.manager := by
  cases logs <;> exact ⟨rfl, rfl⟩

def suspendedBy (r : Request) (fd : Fd) : Suspended :=
  ⟨u32At r.frame 4, fd, r.world.now, secretOf r.frame⟩

theorem handleRequest_stores (other : r.op ≠ opResume) :
    Stores m.suspended r.world (fun e => r.op = opSuspend ∧
        ∃ fd, r.recvFd = some fd ∧ 24 ≤ r.frame.length ∧ e = suspendedBy r fd)
      (handleRequest crypto m r).manager.suspended := by
  unfold handleRequest
  split_ifs with isAuth isSpawn delivered isSuspend
  · rw [(handleAuth_logsIn m r.world r.frame).keeps.1]
    exact .same
  · rw [(handleSpawn_logsIn m r.world r.frame).keeps.1]
    exact .same
  · rw [(handleSpawn_logsIn m r.world r.frame).keeps.1]
    exact .same
  · simp only [isSuspend, true_and]
    exact (handleSuspend_stores { m with conn := { m.conn with retainedFd := none } } r.world
      r.frame r.recvFd).2
  · exact .same

theorem handleRequest_holds (held : (handleRequest crypto m r).manager.suspended.Holds e) :
    m.suspended.Holds e ∨ r.op = opSuspend ∧
      ∃ fd, r.recvFd = some fd ∧ 24 ≤ r.frame.length ∧ e = suspendedBy r fd := by
  by_cases isResume : r.op = opResume
  · left
    rw [handleRequest_resume m isResume] at held
    rcases (handleResume_cases m r.world crypto r.frame).2 with
      ⟨slot, _, _, _, _, _, _, _, cleared⟩ | ⟨_, stores⟩
    · rw [cleared] at held
      exact (holds_sweep.1 (holds_clear held)).1
    · exact (stores.holds held).resolve_right id
  · exact (handleRequest_stores isResume).holds held

/-- The entries that a RESUME request may be about, in the order of their
slots. -/
def candidates (m : Manager) (w : World) (logonId : Nat) : List Suspended :=
  (m.suspended.entries.filter (Suspended.fresh w)).filter fun e => e.logonId = logonId

theorem mem_candidates {logonId : Nat} : e ∈ candidates m w logonId ↔
    m.suspended.Holds e ∧ e.fresh w = true ∧ e.logonId = logonId := by
  rw [candidates, mem_filter, mem_filter, mem_entries, decide_eq_true_eq, and_assoc]

theorem handleResume_reply (long : 24 ≤ req.length) :
    (handleResume crypto m w req).reply = (((candidates m w (u32At req 4)).head?.filter fun e =>
        verifies crypto e.arcRandom (secretOf req)).elim { status := .fail } fun e =>
          { status := .ok, attached := some e.beFd }) := by
  have first := lookup_eq_find (sweepExpired m.suspended w) fun e => e.logonId = u32At req 4
  rw [sweepExpired, entries_keep, ← head?_filter, ← candidates, ← sweepExpired] at first
  unfold handleResume
  rw [if_neg (by omega)]
  cases found : (sweepExpired m.suspended w).lookup fun e => e.logonId = u32At req 4 with
  | none =>
    rw [found] at first
    rw [← first]
    rfl
  | some entry =>
    rw [found] at first
    have member := mem_candidates.1 (mem_of_mem_head? first.symm)
    have alive : w.alive entry.2.beFd = true := Suspended.alive_of_fresh member.2.1
    rw [← first]
    simp only [resumeEntry]
    by_cases right : verifies crypto entry.2.arcRandom (secretOf req) = true
    · simp [right, alive, filter_some]
    · simp [right, filter_some]

theorem verifies_iff {cookie verifier : Bytes} (full : verifier.length = 16) :
    verifies crypto cookie verifier = true ↔
      crypto.hmacMd5 cookie arcClientRandom = some verifier := by
  unfold verifies
  cases mac : crypto.hmacMd5 cookie arcClientRandom with
  | none => simp only [any_none, reduceCtorEq]
  | some expected =>
    have same : expected.length = verifier.length :=
      (crypto.hmacMd5_length mac).trans full.symm
    rw [any_some, rdpConsttimeEq_iff same, some.injEq]

theorem length_secretOf (long : 24 ≤ req.length) : (secretOf req).length = 16 := by
  rw [secretOf, length_take, length_drop]
  omega

/-- A SUSPEND request of the run brought the descriptor together with the
cookie. -/
def Supplied (events : List Event) (fd : Fd) (cookie : Bytes) : Prop :=
  ∃ r, .request r ∈ events ∧ r.op = opSuspend ∧ r.recvFd = some fd ∧ 24 ≤ r.frame.length ∧
    secretOf r.frame = cookie

/-- No connection ends while it retains a live descriptor without having
delivered the answer to a SPAWN. -/
def Attended (crypto : Crypto) : Manager → List Event → Prop
  | _, [] => True
  | m, .request r :: events => Attended crypto (step crypto m (.request r)) events
  | m, .hangUp w :: events =>
    m.conn.abandoned w = none ∧ Attended crypto (step crypto m (.hangUp w)) events

theorem Supplied.mono {events more : List Event} {fd : Fd} {cookie : Bytes}
    (supplied : Supplied events fd cookie) (within : events ⊆ more) :
    Supplied more fd cookie := by
  obtain ⟨r, member, rest⟩ := supplied
  exact ⟨r, within member, rest⟩

theorem run_supplied {past events : List Event} (attended : Attended crypto m events)
    (known : ∀ e, m.suspended.Holds e → Supplied past e.beFd e.arcRandom) :
    ∀ e, (run crypto m events).suspended.Holds e →
      Supplied (past ++ events) e.beFd e.arcRandom := by
  induction events generalizing m past with
  | nil =>
    intro e held
    rw [append_nil]
    exact known e held
  | cons event events ih =>
    have within : past ++ event :: events = (past ++ [event]) ++ events := by
      rw [append_assoc, singleton_append]
    rw [within]
    cases event with
    | request r =>
      apply ih attended
      intro e held
      rcases handleRequest_holds held with before | ⟨isSuspend, fd, received, long, rfl⟩
      · exact (known e before).mono (subset_append_left _ _)
      · exact ⟨r, mem_append_right _ (mem_singleton.2 rfl), isSuspend, received, long, rfl⟩
    | hangUp w =>
      obtain ⟨quiet, rest⟩ := attended
      apply ih rest
      intro e held
      rcases (hangUp_stores _ _).2.holds held with before | ⟨fd, left, _⟩
      · exact (known e before).mono (subset_append_left _ _)
      · rw [quiet] at left
        cases left

/-- **A session is released only against its own secret**, in runs without an
abandoned descriptor: the verifier of a RESUME that hands out a descriptor is
the one of a cookie that a SUSPEND request brought with that descriptor. -/
theorem resume_against_cookie (crypto : Crypto) (events : List Event)
    (attended : Attended crypto {} events) (r : Request) (isResume : r.op = opResume) (fd : Fd)
    (handed : (handleRequest crypto (run crypto {} events) r).reply.attached = some fd) :
    ∃ cookie, cookie.length = 16 ∧ Supplied events fd cookie ∧
      crypto.hmacMd5 cookie arcClientRandom = some (secretOf r.frame) := by
  rw [handleRequest_resume _ isResume] at handed
  rcases (handleResume_cases (run crypto {} events) r.world crypto r.frame).2 with
    ⟨slot, e, long, held, _, _, right, reply, _⟩ | ⟨failed, _⟩
  · rw [reply] at handed
    cases handed
    have supplied : Supplied ([] ++ events) e.beFd e.arcRandom :=
      run_supplied attended (fun e held => absurd held (not_holds_empty _ e)) e
        (holds_of_entry held)
    refine ⟨e.arcRandom, ?_, supplied, (verifies_iff (length_secretOf long)).1 right⟩
    obtain ⟨s, _, _, _, enough, same⟩ := supplied
    rw [← same]
    exact length_secretOf enough
  · rw [failed] at handed
    cases handed

def toySuspend (logonId cookie : UInt8) (fd : Fd) : Request :=
  ⟨opSuspend, [0, 0, 0, logonId, 0, 0, 0] ++ List.replicate 16 cookie, some fd, toyWorld⟩

def toyResume (logonId verifier : UInt8) : Request :=
  ⟨opResume, [0, 0, 0, logonId, 0, 0, 0] ++ List.replicate 16 verifier, none, toyWorld⟩

theorem resume_against_cookie_ones :
    (handleRequest toyCrypto (run toyCrypto {} [.request (toySuspend 5 1 7), .hangUp toyWorld])
      (toyResume 5 1)).reply.attached = some 7 ∧
    ∃ cookie, cookie.length = 16 ∧
      Supplied [.request (toySuspend 5 1 7), .hangUp toyWorld] 7 cookie ∧
      toyCrypto.hmacMd5 cookie arcClientRandom = some (secretOf (toyResume 5 1).frame) :=
  ⟨by decide, resume_against_cookie toyCrypto [.request (toySuspend 5 1 7), .hangUp toyWorld]
    ⟨by decide, trivial⟩ (toyResume 5 1) rfl 7 (by decide)⟩

/-- The reply to a SPAWN is lost and the worker goes away: the session is stored
with a cookie of zeros, and handed out although nobody ever suspended it. -/
def abandonedRun : List Event :=
  [.request toyAuth, .request { toySpawn with world := { toyWorld with delivers := false } },
    .hangUp toyWorld]

theorem resume_without_cookie :
    (toyResume 9 0).op = opResume ∧
    (handleRequest toyCrypto (run toyCrypto {} abandonedRun) (toyResume 9 0)).reply.attached =
      some 7 ∧
    ¬ ∃ cookie, cookie.length = 16 ∧ Supplied abandonedRun 7 cookie ∧
      toyCrypto.hmacMd5 cookie arcClientRandom = some (secretOf (toyResume 9 0).frame) := by
  refine ⟨rfl, by decide, ?_⟩
  rintro ⟨cookie, _, ⟨r, member, isSuspend, _⟩, _⟩
  simp only [abandonedRun, mem_cons, Event.request.injEq, reduceCtorEq, not_mem_nil,
    or_false] at member
  rcases member with rfl | rfl
  · exact absurd isSuspend (by decide)
  · exact absurd isSuspend (by decide)

/-- A session that the request asks for: neither expired nor dead, with the
logon id, and with the cookie of the verifier. -/
def Wanted (crypto : Crypto) (m : Manager) (r : Request) (e : Suspended) : Prop :=
  m.suspended.Holds e ∧ r.world.now ≤ e.suspendedAt + suspendTimeout ∧
    r.world.alive e.beFd = true ∧ e.logonId = u32At r.frame 4 ∧
    crypto.hmacMd5 e.arcRandom arcClientRandom = some (secretOf r.frame)

def Shadowed (crypto : Crypto) (m : Manager) (r : Request) : Prop :=
  ∃ first, (candidates m r.world (u32At r.frame 4)).head? = some first ∧
    crypto.hmacMd5 first.arcRandom arcClientRandom ≠ some (secretOf r.frame)

theorem wanted_iff (long : 24 ≤ r.frame.length) : Wanted crypto m r e ↔
    e ∈ candidates m r.world (u32At r.frame 4) ∧
      verifies crypto e.arcRandom (secretOf r.frame) = true := by
  rw [Wanted, mem_candidates, verifies_iff (length_secretOf long), Suspended.fresh,
    Bool.and_eq_true, decide_eq_true_eq]
  tauto

theorem handleResume_ok_iff (long : 24 ≤ req.length) :
    (handleResume crypto m w req).reply.status = .ok ↔
      ∃ first, (candidates m w (u32At req 4)).head? = some first ∧
        verifies crypto first.arcRandom (secretOf req) = true := by
  rw [handleResume_reply long]
  cases (candidates m w (u32At req 4)).head? with
  | none => simp
  | some first =>
    by_cases right : verifies crypto first.arcRandom (secretOf req) = true
    · simp [filter_some, right]
    · simp [filter_some, right]

/-- **Reconnecting is complete unless sessions share a logon id.** In every
state, a well-formed RESUME succeeds exactly if some session is wanted, precisely
when no session is wanted or the first live one with the logon id is. -/
theorem resume_complete_iff_not_shadowed (crypto : Crypto) (m : Manager) (r : Request)
    (isResume : r.op = opResume) (long : 24 ≤ r.frame.length) :
    ((handleRequest crypto m r).reply.status = .ok ↔ ∃ e, Wanted crypto m r e) ↔
      ((∃ e, Wanted crypto m r e) → ¬ Shadowed crypto m r) := by
  have exact16 := length_secretOf long
  rw [handleRequest_resume m isResume, handleResume_ok_iff long]
  constructor
  · rintro complete wanted ⟨first, isFirst, wrong⟩
    obtain ⟨other, isOther, right⟩ := complete.2 wanted
    rw [isFirst, some.injEq] at isOther
    rw [← isOther, verifies_iff exact16] at right
    exact wrong right
  · intro clear
    constructor
    · rintro ⟨first, isFirst, right⟩
      exact ⟨first, (wanted_iff long).2 ⟨mem_of_mem_head? isFirst, right⟩⟩
    · rintro ⟨e, wanted⟩
      cases isFirst : (candidates m r.world (u32At r.frame 4)).head? with
      | none =>
        have member := ((wanted_iff long).1 wanted).1
        rw [head?_eq_none_iff.1 isFirst] at member
        cases member
      | some first =>
        refine ⟨first, rfl, (verifies_iff exact16).2 ?_⟩
        by_contra wrong
        exact clear ⟨e, wanted⟩ ⟨first, isFirst, wrong⟩

def sharedId : List Event := [.request (toySuspend 5 1 7), .request (toySuspend 5 2 8)]

/-- Of two sessions that share an id, the first one is found. -/
theorem resume_complete_first :
    (handleRequest toyCrypto (run toyCrypto {} sharedId) (toyResume 5 1)).reply.status = .ok ∧
    (((handleRequest toyCrypto (run toyCrypto {} sharedId) (toyResume 5 1)).reply.status = .ok ↔
        ∃ e, Wanted toyCrypto (run toyCrypto {} sharedId) (toyResume 5 1) e) ↔
      ((∃ e, Wanted toyCrypto (run toyCrypto {} sharedId) (toyResume 5 1) e) →
        ¬ Shadowed toyCrypto (run toyCrypto {} sharedId) (toyResume 5 1))) :=
  ⟨by decide, resume_complete_iff_not_shadowed toyCrypto (run toyCrypto {} sharedId)
    (toyResume 5 1) rfl (by decide)⟩

theorem resume_shared_id :
    (toyResume 5 2).op = opResume ∧ 24 ≤ (toyResume 5 2).frame.length ∧
    ¬ ((handleRequest toyCrypto (run toyCrypto {} sharedId) (toyResume 5 2)).reply.status = .ok ↔
      ∃ e, Wanted toyCrypto (run toyCrypto {} sharedId) (toyResume 5 2) e) := by
  refine ⟨rfl, by decide, fun complete => ?_⟩
  have failed : (handleRequest toyCrypto (run toyCrypto {} sharedId) (toyResume 5 2)).reply.status ≠
      .ok := by decide
  refine failed (complete.2 ⟨⟨5, 8, 0, replicate 16 2⟩, ?_, by decide, rfl, rfl, rfl⟩)
  exact mem_entries.1 (by decide)

theorem handleRequest_answered (crypto : Crypto) (answered : m.conn.spawnDone = true)
    (other : r.op ≠ opSuspend) :
    (handleRequest crypto m r).manager.conn.spawnDone = true ∧
      ∀ e, (handleRequest crypto m r).manager.suspended.Holds e → m.suspended.Holds e := by
  constructor
  · unfold handleRequest
    split_ifs with isAuth isSpawn delivered isResume
    · exact (handleAuth_logsIn m r.world r.frame).keeps.2.trans answered
    · rfl
    · exact (handleSpawn_logsIn m r.world r.frame).keeps.2.trans answered
    · rw [(handleResume_cases m r.world crypto r.frame).1.conn]
      exact answered
    · exact answered
  · intro e held
    rcases handleRequest_holds held with before | ⟨isSuspend, _⟩
    · exact before
    · exact absurd isSuspend other

theorem serveRequests_answered (crypto : Crypto) {requests : List Request}
    (answered : m.conn.spawnDone = true) (others : ∀ r ∈ requests, r.op ≠ opSuspend) :
    (serveRequests crypto m requests).conn.spawnDone = true ∧
      ∀ e, (serveRequests crypto m requests).suspended.Holds e → m.suspended.Holds e := by
  induction requests generalizing m with
  | nil => exact ⟨answered, fun _ held => held⟩
  | cons r requests ih =>
    obtain ⟨still, older⟩ :=
      handleRequest_answered crypto answered (others r mem_cons_self)
    obtain ⟨atEnd, oldest⟩ := ih still fun s member => others s (mem_cons_of_mem _ member)
    exact ⟨atEnd, fun e held => older e (oldest e held)⟩

theorem handleRequest_delivered (crypto : Crypto) (m : Manager) (isSpawn : r.op = opSpawn)
    (delivered : r.world.delivers = true) :
    (handleRequest crypto m r).manager.conn.spawnDone = true ∧
      (handleRequest crypto m r).manager.suspended = m.suspended := by
  rw [handleRequest, isSpawn, if_neg (by decide), if_pos rfl, if_pos delivered]
  exact ⟨rfl, (handleSpawn_logsIn m r.world r.frame).keeps.1⟩

/-- **No session outlives its worker by itself.** Once a SPAWN was answered with
a new descriptor and no SUSPEND follows, the end of the connection leaves the
descriptor out of the table, alive or not and whatever room there is. -/
theorem spawned_not_suspended (crypto : Crypto) (m : Manager) (before after : List Request)
    (r : Request) (last : World) (fd : Fd) (isSpawn : r.op = opSpawn)
    (delivered : r.world.delivers = true)
    (_spawned : (handleRequest crypto (serveRequests crypto { m with conn := {} } before) r).reply =
      { status := .ok, attached := some fd })
    (isNew : ∀ e, (serveRequests crypto { m with conn := {} } before).suspended.Holds e →
      e.beFd ≠ fd)
    (others : ∀ s ∈ after, s.op ≠ opSuspend) :
    ∀ e, (handleClient crypto m (before ++ r :: after) last).suspended.Holds e → e.beFd ≠ fd := by
  intro e held
  obtain ⟨answered, same⟩ := handleRequest_delivered crypto
    (serveRequests crypto { m with conn := {} } before) isSpawn delivered
  obtain ⟨atEnd, older⟩ := serveRequests_answered crypto answered others
  have served : serveRequests crypto { m with conn := {} } (before ++ r :: after) =
      serveRequests crypto
        (handleRequest crypto (serveRequests crypto { m with conn := {} } before) r).manager
        after := by
    rw [serveRequests, foldl_append, foldl_cons]
    rfl
  rw [handleClient, served] at held
  rcases (hangUp_stores _ _).2.holds held with kept | ⟨left, abandoned, _⟩
  · apply isNew e
    rw [← same]
    exact older e kept
  · rw [Conn.abandoned, atEnd] at abandoned
    cases abandoned

theorem entries_after_toyAuth :
    (serveRequests toyCrypto {} [toyAuth]).suspended.entries = [] := by decide

theorem spawned_not_suspended_toy :
    (handleRequest toyCrypto (serveRequests toyCrypto {} [toyAuth]) toySpawn).reply =
      { status := .ok, attached := some 7 } ∧
    ∀ e, (handleClient toyCrypto {} [toyAuth, toySpawn] toyWorld).suspended.Holds e →
      e.beFd ≠ 7 := by
  refine ⟨by decide, spawned_not_suspended toyCrypto {} [toyAuth] [] toySpawn toyWorld 7 rfl rfl
    (by decide) (fun e held => ?_) (fun _ absurd => (by cases absurd))⟩
  have member := mem_entries.2 held
  rw [entries_after_toyAuth] at member
  cases member

/-- The descriptor is retained and alive and every slot is free, but the end of
the connection stores nothing. -/
theorem spawned_lost :
    (handleRequest toyCrypto (serveRequests toyCrypto {} [toyAuth]) toySpawn).reply =
      { status := .ok, attached := some 7 } ∧
    toySpawn.world.delivers = true ∧
    (serveRequests toyCrypto {} [toyAuth, toySpawn]).conn.retainedFd = some 7 ∧
    toyWorld.alive 7 = true ∧
    (serveRequests toyCrypto {} [toyAuth, toySpawn]).suspended.free = some 0 ∧
    ¬ ∃ e, (handleClient toyCrypto {} [toyAuth, toySpawn] toyWorld).suspended.Holds e ∧
      e.beFd = 7 := by
  refine ⟨by decide, rfl, by decide, rfl, by decide, ?_⟩
  rintro ⟨e, held, _⟩
  have none : (handleClient toyCrypto {} [toyAuth, toySpawn] toyWorld).suspended.entries = [] := by
    decide
  have member := mem_entries.2 held
  rw [none] at member
  cases member

end RdpServer.Sessionmgr

namespace RdpServer.Sessionmgr

open Bytes Slots

variable {crypto : Crypto} {m : Manager} {w : World} {r : Request} {e : Suspended} {i : Nat}

/-- The session of an entry was handed to the requester, who has the verifier of its cookie. -/
def HandedOver (crypto : Crypto) (m : Manager) (event : Event) (e : Suspended) : Prop :=
  ∃ r, event = .request r ∧ r.op = opResume ∧ e.logonId = u32At r.frame 4 ∧
    verifies crypto e.arcRandom (secretOf r.frame) = true ∧
    (handleRequest crypto m r).reply = { status := .ok, attached := some e.beFd } ∧
    r.world.delivers = true

def Stays (crypto : Crypto) (m : Manager) (event : Event) (i : Nat) (e : Suspended) : Prop :=
  m.suspended.entry i = some e → e.fresh event.world = true →
    (step crypto m event).suspended.entry i = some e

/-- The entry of a live session leaves the table only if the session is handed over, and a RESUME
that fails or whose reply is lost leaves every such entry in place. -/
structure Retains (crypto : Crypto) (m : Manager) (event : Event) : Prop where
  leaves : ∀ i e, m.suspended.entry i = some e → e.fresh event.world = true →
    (step crypto m event).suspended.entry i = some e ∨ HandedOver crypto m event e
  stays : ∀ r, event = .request r → r.op = opResume →
    (handleRequest crypto m r).reply.status ≠ .ok ∨ r.world.delivers = false →
      ∀ i e, Stays crypto m event i e

def Delivered (crypto : Crypto) (m : Manager) (event : Event) : Prop :=
  ∀ r, event = .request r → r.op = opResume →
    (handleRequest crypto m r).reply.status = .ok → r.world.delivers = true

theorem Delivered.leaves {event : Event} (delivered : Delivered crypto m event)
    (held : m.suspended.entry i = some e) (fresh : e.fresh event.world = true) :
    (step crypto m event).suspended.entry i = some e ∨ HandedOver crypto m event e := by
  cases event with
  | hangUp w => exact Or.inl ((hangUp_stores m w).2.stays held fresh)
  | request r =>
    by_cases isResume : r.op = opResume
    · rcases (handleResume_cases m r.world crypto r.frame).2 with
        ⟨slot, found, -, there, -, sameId, right, reply, cleared⟩ | ⟨-, stores⟩
      · rw [← handleRequest_resume m isResume] at reply
        by_cases here : i = slot
        · subst here
          obtain rfl := Option.some.inj (there.symm.trans held)
          refine Or.inr ⟨r, rfl, isResume, sameId, right, reply, delivered r rfl isResume ?_⟩
          rw [reply]
        · left
          rw [step, handleRequest_resume m isResume, cleared, entry_clear_of_ne here]
          exact entry_keep_of held fresh
      · left
        rw [step, handleRequest_resume m isResume]
        exact stores.stays held fresh
    · exact Or.inl ((handleRequest_stores isResume).stays held fresh)

theorem retains_iff (m : Manager) (event : Event) :
    Retains crypto m event ↔ Delivered crypto m event := by
  constructor
  · intro retains r isRequest isResume succeeded
    subst isRequest
    rcases (handleResume_cases m r.world crypto r.frame).2 with
      ⟨slot, e, -, held, fresh, -, -, -, cleared⟩ | ⟨failed, -⟩
    · rcases retains.leaves slot e held fresh with stayed | ⟨other, same, -, -, -, -, delivered⟩
      · rw [step, handleRequest_resume m isResume, cleared, entry_clear_self] at stayed
        cases stayed
      · obtain rfl := Event.request.inj same
        exact delivered
    · rw [handleRequest_resume m isResume, failed] at succeeded
      cases succeeded
  · intro delivered
    have leaves := fun i e => @Delivered.leaves crypto m e i event delivered
    refine ⟨leaves, ?_⟩
    rintro r rfl isResume unsettled i e held fresh
    rcases leaves i e held fresh with stayed | ⟨other, same, -, -, -, reply, sent⟩
    · exact stayed
    · obtain rfl := Event.request.inj same
      rcases unsettled with failed | lost
      · rw [reply] at failed
        exact absurd rfl failed
      · rw [sent] at lost
        cases lost

/-- **Suspended sessions.** From every state and for every sequence of requests and hang-ups: live
sessions leave the table only by being handed over exactly if the reply to every RESUME that
succeeds is delivered. -/
theorem retained_iff_delivered (crypto : Crypto) (m : Manager) (events : List Event) :
    Runs.Along (step crypto) (Retains crypto) m events ↔
      Runs.Along (step crypto) (Delivered crypto) m events :=
  Runs.along_congr (P := fun _ => True) (fun _ _ _ => True.intro)
    (fun m event _ => retains_iff m event) True.intro

def lostResume : Request := { toyResume 5 1 with world := { toyWorld with delivers := false } }

/-- The reply to the RESUME of a live session is lost, and the session with it. -/
theorem session_lost_with_reply :
    (run toyCrypto {} [.request (toySuspend 5 1 7)]).suspended.entry 0 =
        some ⟨5, 7, 0, List.replicate 16 1⟩ ∧
      (run toyCrypto {} [.request (toySuspend 5 1 7), .request lostResume]).suspended.entries = [] ∧
      ¬ Runs.Along (step toyCrypto) (Retains toyCrypto) {}
        [.request (toySuspend 5 1 7), .request lostResume] := by
  refine ⟨by decide, by decide, fun retained => ?_⟩
  have stays := retained.2.1.stays lostResume rfl rfl (Or.inr rfl) 0 ⟨5, 7, 0, List.replicate 16 1⟩
  exact absurd (stays (by decide) (by decide)) (by decide)

end RdpServer.Sessionmgr
