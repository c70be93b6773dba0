import RdpServer.Sessionmgr.Handlers

/-!
# Sessions are launched only for a login

On one connection, `spawn_session` is called only for the account that the
backend returned at the most recent successful login, at most once for each
login, and never for the user id 0. `LoggedIn` says how the account name and the
authentication handle belong to what happened so far.
-/

namespace RdpServer.Sessionmgr

open Bytes List Option

variable {crypto : Crypto} {m : Manager} {r : Request} {requests : List Request} {acts : List Act}
  {before after : Conn}

def actsOf (crypto : Crypto) : Manager → List Request → List Act
  | _, [] => []
  | m, r :: rest =>
    (handleRequest crypto m r).acts ++ actsOf crypto (handleRequest crypto m r).manager rest

def Act.isAccepted : Act → Bool
  | .accepted _ _ => true
  | _ => false

def Act.isLaunched : Act → Bool
  | .launched _ _ => true
  | _ => false

inductive LoginStep (before after : Conn) (r : Request) : List Act → Prop where
  /-- Nothing, or a login that was refused. -/
  | idle {acts : List Act} (refusals : ∀ act ∈ acts, ∃ ip, act = .refused ip)
      (user : after.authUser = before.authUser) (auth : after.auth = before.auth) :
      LoginStep before after r acts
  | login (ip name : Name)
      (answered : ∃ user pass, r.world.backend user pass ip = some name)
      (user : after.authUser = name.take userMax) (auth : after.auth = some name) :
      LoginStep before after r [.accepted ip name]
  | launch (launch : Launch) (result : Option Fd) (held : before.auth = some launch.handle)
      (account : launch.account = before.authUser)
      (known : r.world.passwd launch.account = some launch.uid) (mortal : launch.uid ≠ 0)
      (user : after.authUser = before.authUser) (auth : after.auth = none) :
      LoginStep before after r [.launched launch result]

theorem LoginStep.none (user : after.authUser = before.authUser) (auth : after.auth = before.auth) :
    LoginStep before after r [] :=
  .idle nofun user auth

theorem LoginStep.congr {other : Conn} (taken : LoginStep before after r acts)
    (user : other.authUser = after.authUser) (auth : other.auth = after.auth) :
    LoginStep before other r acts := by
  cases taken with
  | idle refusals isUser isAuth => exact .idle refusals (user.trans isUser) (auth.trans isAuth)
  | login ip name answered isUser isAuth =>
    exact .login ip name answered (user.trans isUser) (auth.trans isAuth)
  | launch launch result held account known mortal isUser isAuth =>
    exact .launch launch result held account known mortal (user.trans isUser) (auth.trans isAuth)

theorem LogsIn.login {out : Outcome} (logs : LogsIn m r.world out) :
    LoginStep m.conn out.manager.conn r out.acts := by
  cases logs with
  | idle => exact .none rfl rfl
  | refused ip =>
    refine .idle ?_ rfl rfl
    intro act member
    exact ⟨ip, mem_singleton.1 member⟩
  | accepted ip name _ answered => exact .login ip name answered rfl rfl
  | launched launch result _ _ held account known mortal =>
    exact .launch launch result held account known mortal rfl rfl

theorem handleRequest_login (crypto : Crypto) (m : Manager) (r : Request) :
    LoginStep m.conn (handleRequest crypto m r).manager.conn r (handleRequest crypto m r).acts := by
  unfold handleRequest
  split_ifs with isAuth isSpawn delivered isSuspend isResume
  · exact (handleAuth_logsIn m r.world r.frame).login
  · exact (handleSpawn_logsIn m r.world r.frame).login.congr rfl rfl
  · exact (handleSpawn_logsIn m r.world r.frame).login
  · obtain ⟨⟨conn, _, acts⟩, _⟩ := handleSuspend_stores
      { m with conn := { m.conn with retainedFd := none } } r.world r.frame r.recvFd
    rw [acts, conn]
    exact .none rfl rfl
  · obtain ⟨⟨conn, _, acts⟩, _⟩ := handleResume_cases m r.world crypto r.frame
    rw [acts, conn]
    exact .none rfl rfl
  · exact .none rfl rfl

/-- The login that a handle stands for: the most recent one that the backend
accepted, after which no session was launched. -/
def LatestLogin (acts : List Act) (name : Name) : Prop :=
  ∃ ip earlier later, acts = earlier ++ .accepted ip name :: later ∧
    ∀ act ∈ later, ∃ ip, act = .refused ip

structure LoggedIn (conn : Conn) (acts : List Act) : Prop where
  latest : ∀ name, conn.auth = some name → conn.authUser = name ∧ LatestLogin acts name
  count : acts.countP Act.isLaunched + conn.auth.toList.length ≤ acts.countP Act.isAccepted

def NamesFit (r : Request) : Prop :=
  ∀ user pass ip name, r.world.backend user pass ip = some name → name.length ≤ userMax

theorem LatestLogin.refused {more : List Act} {name : Name} (held : LatestLogin acts name)
    (refusals : ∀ act ∈ more, ∃ ip, act = .refused ip) : LatestLogin (acts ++ more) name := by
  obtain ⟨ip, earlier, later, rfl, quiet⟩ := held
  refine ⟨ip, earlier, later ++ more, by rw [append_assoc, cons_append], ?_⟩
  intro act member
  rcases mem_append.1 member with old | new
  · exact quiet act old
  · exact refusals act new

theorem countP_refused {counted : Act → Bool} (silent : ∀ ip, counted (.refused ip) = false)
    (refusals : ∀ act ∈ acts, ∃ ip, act = .refused ip) : acts.countP counted = 0 := by
  rw [countP_eq_zero]
  intro act member
  obtain ⟨ip, rfl⟩ := refusals act member
  rw [silent]
  exact Bool.false_ne_true

theorem LoggedIn.step {more : List Act} (held : LoggedIn before acts) (fits : NamesFit r)
    (taken : LoginStep before after r more) : LoggedIn after (acts ++ more) := by
  have count := held.count
  cases taken with
  | idle refusals user auth =>
    refine ⟨?_, ?_⟩
    · intro name isAuth
      rw [auth] at isAuth
      obtain ⟨isUser, latest⟩ := held.latest name isAuth
      exact ⟨user.trans isUser, latest.refused refusals⟩
    · rw [countP_append, countP_append, auth,
        countP_refused (fun _ => rfl) refusals, countP_refused (fun _ => rfl) refusals]
      exact count
  | login ip name answered user auth =>
    obtain ⟨login, pass, answered⟩ := answered
    refine ⟨?_, ?_⟩
    · intro other isAuth
      rw [auth, some.injEq] at isAuth
      rw [← isAuth, user, take_of_length_le (fits login pass ip name answered)]
      exact ⟨rfl, ip, acts, [], rfl, nofun⟩
    · rw [countP_append, countP_append, auth]
      simp only [countP_singleton, Act.isLaunched, Act.isAccepted, toList_some,
        length_singleton, Bool.false_eq_true, ↓reduceIte]
      omega
  | launch launch result isHeld account known mortal user auth =>
    refine ⟨?_, ?_⟩
    · intro name isAuth
      rw [auth] at isAuth
      cases isAuth
    · rw [isHeld, toList_some, length_singleton] at count
      rw [countP_append, countP_append, auth]
      simp only [countP_singleton, Act.isLaunched, Act.isAccepted, toList_none,
        length_nil, Bool.false_eq_true, ↓reduceIte]
      omega

theorem serveRequests_loggedIn (held : LoggedIn m.conn acts) (fits : ∀ r ∈ requests, NamesFit r) :
    LoggedIn (serveRequests crypto m requests).conn (acts ++ actsOf crypto m requests) := by
  induction requests generalizing m acts with
  | nil =>
    rw [actsOf, append_nil]
    exact held
  | cons r rest ih =>
    have next := held.step (fits r mem_cons_self) (handleRequest_login crypto m r)
    rw [actsOf, ← append_assoc]
    exact ih next fun other member => fits other (mem_cons_of_mem r member)

theorem loggedIn_start : LoggedIn {} [] :=
  ⟨fun _ absurd => (by cases absurd), Nat.le_refl 0⟩

/-- **Spawning is authorised.** Whatever requests a connection carries and
whatever the backend answers: a request launches a session only for the account
of the most recent successful login on that connection, only if no launch was
attempted since that login, and only for a user id other than 0; and launches
never outnumber successful logins. -/
theorem launch_authorised (crypto : Crypto) (m : Manager) (requests : List Request) (r : Request)
    (fits : ∀ r ∈ requests, NamesFit r) :
    (∀ launch result, .launched launch result ∈ (handleRequest crypto
        (serveRequests crypto { m with conn := {} } requests) r).acts →
      LatestLogin (actsOf crypto { m with conn := {} } requests) launch.account ∧
        launch.handle = launch.account ∧
        r.world.passwd launch.account = some launch.uid ∧ launch.uid ≠ 0) ∧
    (actsOf crypto { m with conn := {} } requests).countP Act.isLaunched ≤
      (actsOf crypto { m with conn := {} } requests).countP Act.isAccepted := by
  have held := @serveRequests_loggedIn crypto { m with conn := {} } requests [] loggedIn_start fits
  rw [nil_append] at held
  refine ⟨?_, ?_⟩
  · intro launch result member
    have taken := handleRequest_login crypto (serveRequests crypto { m with conn := {} } requests) r
    generalize (handleRequest crypto _ r).acts = acts at member taken
    cases taken with
    | idle refusals user auth =>
      obtain ⟨ip, absurd⟩ := refusals _ member
      cases absurd
    | login ip name answered user auth => cases mem_singleton.1 member
    | launch launch' result' isHeld account known mortal user auth =>
      cases mem_singleton.1 member
      obtain ⟨isUser, latest⟩ := held.latest _ isHeld
      rw [account, isUser]
      exact ⟨latest, rfl, by rw [← isUser, ← account]; exact known, mortal⟩
  · exact le_trans (Nat.le_add_right _ _) held.count

/-- A login of user `a` and a SPAWN after it. -/
theorem launch_authorised_login :
    (∃ launch result, Act.launched launch result ∈ (handleRequest toyCrypto
      (serveRequests toyCrypto {} [toyAuth]) toySpawn).acts) ∧
    (∀ launch result, .launched launch result ∈ (handleRequest toyCrypto
        (serveRequests toyCrypto {} [toyAuth]) toySpawn).acts →
      LatestLogin (actsOf toyCrypto {} [toyAuth]) launch.account ∧ launch.handle = launch.account ∧
        toySpawn.world.passwd launch.account = some launch.uid ∧ launch.uid ≠ 0) ∧
    (actsOf toyCrypto {} [toyAuth]).countP Act.isLaunched ≤
      (actsOf toyCrypto {} [toyAuth]).countP Act.isAccepted := by
  refine ⟨⟨⟨[0x61], 1000, [0x61], 1024, 768, 0, []⟩, some 7, by decide⟩, ?_⟩
  refine launch_authorised toyCrypto {} [toyAuth] toySpawn ?_
  intro r member user pass ip name answered
  rw [mem_singleton.1 member] at answered
  rw [← some.inj answered]
  decide

end RdpServer.Sessionmgr
