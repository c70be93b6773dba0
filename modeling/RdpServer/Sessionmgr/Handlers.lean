import RdpServer.Lib.Slots
import RdpServer.Sec.Ntlm

/-!
# The session manager

`rdp-sessionmgr` serves one connection at a time. A connection is a sequence of
request frames; its own state is the account that logged in, the authentication
handle, and the backend descriptor retained at SPAWN. Two tables outlive
connections: the failed logins of source addresses and the suspended sessions.
What the manager takes from its surroundings is a `World`. Each handler says once what it
can do: AUTH and SPAWN work on the logins (`LogsIn`), SUSPEND and RESUME on the suspended
sessions only (`TableOnly`).
-/

namespace RdpServer.Sessionmgr

open Bytes

def opAuth : UInt8 := 0x01
def opSpawn : UInt8 := 0x02
def opSuspend : UInt8 := 0x03
def opResume : UInt8 := 0x04

inductive Status where
  | ok
  | fail
  | enosys
  | eperm
  deriving DecidableEq

def userMax : Nat := 256
def passMax : Nat := 1024
def ipMax : Nat := 64
def tzMax : Nat := 63
def frameMax : Nat := 8 + userMax + passMax + ipMax

def suspendMax : Nat := 16
def suspendTimeout : Nat := 120

def authThrottleMax : Nat := 256
def authFailMax : Nat := 5
def authFailWindow : Nat := 60

abbrev Fd := Nat

abbrev Name := Bytes

structure Reply where
  status : Status
  attached : Option Fd := none
  deriving DecidableEq

/-- What `spawn_session` is called with. -/
structure Launch where
  account : Name
  uid : Nat
  /-- The login name of the authentication handle. -/
  handle : Name
  width : Nat
  height : Nat
  lcid : Nat
  tz : Name
  deriving DecidableEq

structure World where
  now : Nat
  alive : Fd → Bool
  /-- Whether the reply can be delivered. -/
  delivers : Bool
  /-- `rdp_auth_user` for a user, a password and a source address: the login name
  it settled on. -/
  backend : Name → Name → Name → Option Name
  /-- The user id of an account, if there is one. -/
  passwd : Name → Option Nat
  spawn : Launch → Option Fd
  /-- Whether the descriptor of a new session can be duplicated. -/
  dups : Bool
  randomId : Nat

/-- A request frame with the descriptor that came with it, and the surroundings
in which it is served. -/
structure Request where
  op : UInt8
  body : Bytes
  recvFd : Option Fd
  world : World

/-- The octets `recvmsg` puts into the buffer. -/
def Request.frame (r : Request) : Bytes := (r.op :: r.body).take frameMax

/-- `struct auth_throttle`; a slot with an empty address is free. -/
structure Throttle where
  ip : Name
  fails : Nat
  windowStart : Nat
  deriving DecidableEq

/-- `struct suspended_session` of a slot that is in use. -/
structure Suspended where
  logonId : Nat
  beFd : Fd
  suspendedAt : Nat
  arcRandom : Bytes
  deriving DecidableEq

structure Conn where
  authUser : Name := []
  /-- The authentication handle, by the login name it carries. -/
  auth : Option Name := none
  retainedFd : Option Fd := none
  spawnDone : Bool := false
  deriving DecidableEq

structure Manager where
  throttle : Slots Throttle := Slots.empty authThrottleMax
  suspended : Slots Suspended := Slots.empty suspendMax
  resumeFailCount : Nat := 0
  conn : Conn := {}
  deriving DecidableEq

inductive Act where
  /-- The backend accepted a login from an address, as the name it returned. -/
  | accepted (ip name : Name)
  /-- The backend refused a login from an address. -/
  | refused (ip : Name)
  /-- `spawn_session` was called. -/
  | launched (launch : Launch) (result : Option Fd)
  deriving DecidableEq

structure Outcome where
  manager : Manager
  reply : Reply
  acts : List Act := []

def u16At (frame : Bytes) (off : Nat) : Nat := leValue ((frame.drop off).take 2)

def u32At (frame : Bytes) (off : Nat) : Nat := leValue ((frame.drop off).take 4)

def authThrottleFind (table : Slots Throttle) (ip : Name) : Option (Nat × Throttle) :=
  if ip = [] then none else table.lookup fun s => s.ip = ip

/-- The slot for a new address: the first free one, or else the one with the
oldest window. -/
def authThrottleEvict (table : Slots Throttle) : Nat :=
  match table.free with
  | some slot => slot
  | none =>
    (List.range table.length).foldl (fun evict i =>
      if ((table.entry i).elim 0 Throttle.windowStart) <
          (table.entry evict).elim 0 Throttle.windowStart then i else evict) 0

def authThrottleFail (table : Slots Throttle) (ip : Name) (now : Nat) : Slots Throttle :=
  if ip = [] then table
  else
    match authThrottleFind table ip with
    | none => table.put (authThrottleEvict table) ⟨ip, 1, now⟩
    | some (i, s) =>
      if s.windowStart + authFailWindow ≤ now then table.put i ⟨s.ip, 1, now⟩
      else table.put i ⟨s.ip, s.fails + 1, s.windowStart⟩

def authThrottleClear (table : Slots Throttle) (ip : Name) : Slots Throttle :=
  match authThrottleFind table ip with
  | some (i, _) => table.clear i
  | none => table

def overThreshold (table : Slots Throttle) (ip : Name) (now : Nat) : Bool :=
  (authThrottleFind table ip).any fun found =>
    now < found.2.windowStart + authFailWindow ∧ found.2.fails ≥ authFailMax

/-- The lengths announced by an AUTH request are within their limits and within
the frame. -/
def authWellFormed (req : Bytes) : Prop :=
  8 ≤ req.length ∧ u16At req 2 ≤ userMax ∧ u16At req 4 ≤ passMax ∧ u16At req 6 ≤ ipMax ∧
    8 + u16At req 2 + u16At req 4 + u16At req 6 ≤ req.length

instance (req : Bytes) : Decidable (authWellFormed req) :=
  inferInstanceAs (Decidable (_ ∧ _))

def authUserOf (req : Bytes) : Name := cString ((req.drop 8).take (u16At req 2))

def authPassOf (req : Bytes) : Name :=
  cString ((req.drop (8 + u16At req 2)).take (u16At req 4))

def authIpOf (req : Bytes) : Name :=
  cString ((req.drop (8 + u16At req 2 + u16At req 4)).take (u16At req 6))

def login (m : Manager) (w : World) (user pass ip : Name) : Outcome :=
  match w.backend user pass ip with
  | some name =>
    -- the account name is a copy of at most `userMax` octets of the handle's
    ⟨{ m with
        conn := { m.conn with authUser := name.take userMax, auth := some name }
        throttle := authThrottleClear m.throttle ip },
      { status := .ok }, [.accepted ip name]⟩
  | none =>
    ⟨{ m with throttle := authThrottleFail m.throttle ip w.now }, { status := .fail },
      [.refused ip]⟩

def handleAuth (m : Manager) (w : World) (req : Bytes) : Outcome :=
  if authWellFormed req then
    if overThreshold m.throttle (authIpOf req) w.now then ⟨m, { status := .fail }, []⟩
    else login m w (authUserOf req) (authPassOf req) (authIpOf req)
  else ⟨m, { status := .fail }, []⟩

/-- A character that `tz_is_safe` lets pass. -/
def tzCharSafe (c : UInt8) : Bool :=
  (0x41 ≤ c && c ≤ 0x5a) || (0x61 ≤ c && c ≤ 0x7a) || (0x30 ≤ c && c ≤ 0x39) ||
    c ∈ ([0x3c, 0x3e, 0x2b, 0x2d, 0x3a, 0x2e, 0x2c, 0x2f] : Bytes)

def tzIsSafe (s : Name) : Bool := s.head? ≠ some 0x3a && s.head? ≠ some 0x2f && s.all tzCharSafe

def spawnTz (req : Bytes) : Name :=
  let tzLen := u16At req 6
  if 0 < tzLen ∧ tzLen ≤ tzMax ∧ 12 + tzLen ≤ req.length then
    let tz := cString ((req.drop 12).take tzLen)
    if tzIsSafe tz then tz else []
  else []

/-- The call of `spawn_session` for a SPAWN request. -/
def launchOf (req : Bytes) (account handle : Name) (uid : Nat) : Launch :=
  let unsized := u16At req 2 = 0 ∨ u16At req 4 = 0
  { account := account
    uid := uid
    handle := handle
    width := if unsized then 1024 else u16At req 2
    height := if unsized then 768 else u16At req 4
    lcid := u32At req 8
    tz := spawnTz req }

/-- `handle_spawn` for an account that may be launched. The handle is consumed
whatever the outcome. -/
def spawnAs (m : Manager) (w : World) (launch : Launch) : Outcome :=
  match w.spawn launch with
  | none =>
    ⟨{ m with conn := { m.conn with auth := none } }, { status := .fail },
      [.launched launch none]⟩
  | some fd =>
    ⟨{ m with conn := { m.conn with
          auth := none
          retainedFd := if w.dups then some fd else none } },
      { status := .ok, attached := some fd }, [.launched launch (some fd)]⟩

def handleSpawn (m : Manager) (w : World) (req : Bytes) : Outcome :=
  if req.length < 12 then ⟨m, { status := .fail }, []⟩
  else if m.conn.authUser = [] then ⟨m, { status := .eperm }, []⟩
  else
    match m.conn.auth with
    | none => ⟨m, { status := .eperm }, []⟩
    | some handle =>
      match w.passwd m.conn.authUser with
      | none => ⟨m, { status := .fail }, []⟩
      | some uid =>
        if uid = 0 then ⟨m, { status := .eperm }, []⟩
        else spawnAs m w (launchOf req m.conn.authUser handle uid)

def Suspended.fresh (w : World) (e : Suspended) : Bool :=
  w.now ≤ e.suspendedAt + suspendTimeout && w.alive e.beFd

def sweepExpired (table : Slots Suspended) (w : World) : Slots Suspended :=
  table.keep (Suspended.fresh w)

def secretOf (req : Bytes) : Bytes := (req.drop 8).take 16

def handleSuspend (m : Manager) (w : World) (req : Bytes) (recvFd : Option Fd) : Outcome :=
  match recvFd with
  | none => ⟨m, { status := .fail }, []⟩
  | some fd =>
    if req.length < 24 then ⟨m, { status := .fail }, []⟩
    else
      let table := sweepExpired m.suspended w
      match table.free with
      | none => ⟨{ m with suspended := table }, { status := .fail }, []⟩
      | some slot =>
        ⟨{ m with suspended := table.put slot ⟨u32At req 4, fd, w.now, secretOf req⟩ },
          { status := .ok }, []⟩

def arcClientRandom : Bytes := List.replicate 32 0

def verifies (crypto : Crypto) (cookie verifier : Bytes) : Bool :=
  (crypto.hmacMd5 cookie arcClientRandom).any fun expected => rdpConsttimeEq expected verifier

def resumeCount (m : Manager) : Nat := if m.resumeFailCount > 5 then 0 else m.resumeFailCount

/-- `handle_resume` once an entry was found in a slot of the swept table. -/
def resumeEntry (crypto : Crypto) (m : Manager) (w : World) (verifier : Bytes)
    (table : Slots Suspended) (slot : Nat) (e : Suspended) : Outcome :=
  if verifies crypto e.arcRandom verifier = false then
    ⟨{ m with suspended := table, resumeFailCount := resumeCount m + 1 }, { status := .fail }, []⟩
  else if w.alive e.beFd = false then
    ⟨{ m with suspended := table.clear slot, resumeFailCount := resumeCount m },
      { status := .fail }, []⟩
  else
    ⟨{ m with suspended := table.clear slot, resumeFailCount := resumeCount m },
      { status := .ok, attached := some e.beFd }, []⟩

def handleResume (crypto : Crypto) (m : Manager) (w : World) (req : Bytes) : Outcome :=
  if req.length < 24 then ⟨m, { status := .fail }, []⟩
  else
    match (sweepExpired m.suspended w).lookup fun e => e.logonId = u32At req 4 with
    | none =>
      ⟨{ m with
          suspended := sweepExpired m.suspended w
          resumeFailCount := resumeCount m + 1 }, { status := .fail }, []⟩
    | some (slot, e) => resumeEntry crypto m w (secretOf req) (sweepExpired m.suspended w) slot e

/-- One round of `handle_client`. -/
def handleRequest (crypto : Crypto) (m : Manager) (r : Request) : Outcome :=
  if r.op = opAuth then handleAuth m r.world r.frame
  else if r.op = opSpawn then
    let out := handleSpawn m r.world r.frame
    -- the handler returns 0 exactly if its reply, whatever it says, was delivered
    if r.world.delivers then
      { out with manager := { out.manager with
          conn := { out.manager.conn with spawnDone := true } } }
    else out
  else if r.op = opSuspend then
    handleSuspend { m with conn := { m.conn with retainedFd := none } } r.world r.frame r.recvFd
  else if r.op = opResume then handleResume crypto m r.world r.frame
  else ⟨m, { status := .enosys }, []⟩

def autoSuspend (m : Manager) (w : World) (beFd : Fd) : Manager :=
  let table := sweepExpired m.suspended w
  match table.free with
  | none => { m with suspended := table }
  | some slot =>
    { m with suspended := table.put slot ⟨w.randomId, beFd, w.now, List.replicate 16 0⟩ }

def Conn.abandoned (conn : Conn) (w : World) : Option Fd :=
  if conn.spawnDone then none else conn.retainedFd.filter w.alive

def hangUp (m : Manager) (w : World) : Manager :=
  match m.conn.abandoned w with
  | some fd => { autoSuspend m w fd with conn := {} }
  | none => { m with conn := {} }

/-- `handle_client`: the requests of a connection, and its end. -/
def serveRequests (crypto : Crypto) (m : Manager) (requests : List Request) : Manager :=
  requests.foldl (fun m r => (handleRequest crypto m r).manager) m

def handleClient (crypto : Crypto) (m : Manager) (requests : List Request) (last : World) :
    Manager :=
  hangUp (serveRequests crypto { m with conn := {} } requests) last

inductive Event where
  | request (r : Request)
  | hangUp (w : World)

def Event.world : Event → World
  | .request r => r.world
  | .hangUp w => w

def step (crypto : Crypto) (m : Manager) : Event → Manager
  | .request r => (handleRequest crypto m r).manager
  | .hangUp w => hangUp m w

def run (crypto : Crypto) (m : Manager) (events : List Event) : Manager :=
  events.foldl (step crypto) m

/-- The account `a` logs in with any password, its sessions start with
descriptor 7, and everything else works. -/
def toyWorld : World where
  now := 0
  alive := fun _ => true
  delivers := true
  backend := fun _ _ _ => some [0x61]
  passwd := fun _ => some 1000
  spawn := fun _ => some 7
  dups := true
  randomId := 9

def toyAuth : Request := ⟨opAuth, [0, 1, 0, 0, 0, 0, 0, 0x61], none, toyWorld⟩

def toySpawn : Request := ⟨opSpawn, List.replicate 11 0, none, toyWorld⟩

example : (handleRequest toyCrypto (handleRequest toyCrypto {} toyAuth).manager toySpawn).reply =
    { status := .ok, attached := some 7 } := by decide

open Slots

variable {crypto : Crypto} (m : Manager) (w : World)

inductive LogsIn (m : Manager) (w : World) : Outcome → Prop where
  | idle (reply : Reply) : LogsIn m w ⟨m, reply, []⟩
  | refused (ip : Name) (reply : Reply) (passed : overThreshold m.throttle ip w.now = false) :
      LogsIn m w ⟨{ m with throttle := authThrottleFail m.throttle ip w.now }, reply, [.refused ip]⟩
  | accepted (ip name : Name) (reply : Reply)
      (answered : ∃ user pass, w.backend user pass ip = some name) :
      LogsIn m w ⟨{ m with
        conn := { m.conn with authUser := name.take userMax, auth := some name }
        throttle := authThrottleClear m.throttle ip }, reply, [.accepted ip name]⟩
  | launched (launch : Launch) (result retained : Option Fd) (reply : Reply)
      (held : m.conn.auth = some launch.handle) (account : launch.account = m.conn.authUser)
      (known : w.passwd launch.account = some launch.uid) (mortal : launch.uid ≠ 0) :
      LogsIn m w ⟨{ m with conn := { m.conn with auth := none, retainedFd := retained } }, reply,
        [.launched launch result]⟩

theorem handleAuth_logsIn (req : Bytes) : LogsIn m w (handleAuth m w req) := by
  unfold handleAuth
  split_ifs with wellFormed blocked
  · exact .idle _
  · unfold login
    cases answer : w.backend (authUserOf req) (authPassOf req) (authIpOf req) with
    | none => exact .refused _ _ (Bool.eq_false_iff.2 blocked)
    | some name => exact .accepted _ _ _ ⟨_, _, answer⟩
  · exact .idle _

theorem handleSpawn_logsIn (req : Bytes) : LogsIn m w (handleSpawn m w req) := by
  unfold handleSpawn
  split_ifs
  · exact .idle _
  · exact .idle _
  · cases held : m.conn.auth with
    | none => exact .idle _
    | some handle =>
      cases known : w.passwd m.conn.authUser with
      | none => exact .idle _
      | some uid =>
        dsimp only
        split_ifs with root
        · exact .idle _
        · unfold spawnAs
          cases w.spawn (launchOf req m.conn.authUser handle uid) with
          | none => exact .launched _ none _ _ held rfl known root
          | some fd => exact .launched _ (some fd) _ _ held rfl known root

structure TableOnly (m : Manager) (out : Outcome) : Prop where
  conn : out.manager.conn = m.conn
  throttle : out.manager.throttle = m.throttle
  acts : out.acts = []

/-- What storing one of some sessions makes of the table. -/
inductive Stores (table : Slots Suspended) (w : World) (new : Suspended → Prop) :
    Slots Suspended → Prop where
  | same : Stores table w new table
  | sweep : Stores table w new (sweepExpired table w)
  | put {slot : Nat} {e : Suspended} (free : (sweepExpired table w).free = some slot)
      (isNew : new e) : Stores table w new ((sweepExpired table w).put slot e)

theorem holds_sweep {table : Slots Suspended} {w : World} {e : Suspended} :
    (sweepExpired table w).Holds e ↔ table.Holds e ∧ e.fresh w = true :=
  holds_keep

section

variable {table after : Slots Suspended} {w : World} {new : Suspended → Prop} {e : Suspended}
  (stores : Stores table w new after)

include stores

theorem Stores.holds (held : after.Holds e) : table.Holds e ∨ new e := by
  cases stores with
  | same => exact .inl held
  | sweep => exact .inl (holds_sweep.1 held).1
  | put free isNew =>
    rcases holds_put held with rfl | before
    · exact .inr isNew
    · exact .inl (holds_sweep.1 before).1

theorem Stores.stays {i : Nat} (held : table.entry i = some e) (fresh : e.fresh w = true) :
    after.entry i = some e := by
  have swept : (sweepExpired table w).entry i = some e := entry_keep_of held fresh
  cases stores with
  | same => exact held
  | sweep => exact swept
  | @put slot _ free _ =>
    have apart : i ≠ slot := by
      rintro rfl
      rw [(free_eq_some free).2] at swept
      cases swept
    rw [entry_put_of_ne apart]
    exact swept

end

theorem handleSuspend_stores (req : Bytes) (recvFd : Option Fd) :
    TableOnly m (handleSuspend m w req recvFd) ∧
      Stores m.suspended w (fun e => ∃ fd, recvFd = some fd ∧ 24 ≤ req.length ∧
        e = ⟨u32At req 4, fd, w.now, secretOf req⟩)
        (handleSuspend m w req recvFd).manager.suspended := by
  unfold handleSuspend
  cases recvFd with
  | none => exact ⟨⟨rfl, rfl, rfl⟩, .same⟩
  | some fd =>
    dsimp only
    split_ifs with short
    · exact ⟨⟨rfl, rfl, rfl⟩, .same⟩
    · cases free : (sweepExpired m.suspended w).free with
      | none => exact ⟨⟨rfl, rfl, rfl⟩, .sweep⟩
      | some slot => exact ⟨⟨rfl, rfl, rfl⟩, .put free ⟨fd, rfl, Nat.le_of_not_lt short, rfl⟩⟩

theorem hangUp_stores :
    (hangUp m w).throttle = m.throttle ∧
      Stores m.suspended w (fun e => ∃ fd, m.conn.abandoned w = some fd ∧
        e = ⟨w.randomId, fd, w.now, List.replicate 16 0⟩) (hangUp m w).suspended := by
  unfold hangUp
  cases left : m.conn.abandoned w with
  | none => exact ⟨rfl, .same⟩
  | some fd =>
    dsimp only [autoSuspend]
    cases free : (sweepExpired m.suspended w).free with
    | none => exact ⟨rfl, .sweep⟩
    | some slot => exact ⟨rfl, .put free ⟨fd, rfl, rfl⟩⟩

theorem Suspended.alive_of_fresh {w : World} {e : Suspended} (fresh : e.fresh w = true) :
    w.alive e.beFd = true := by
  rw [Suspended.fresh, Bool.and_eq_true] at fresh
  exact fresh.2

/-- RESUME hands out the entry of a slot and clears it, or fails and only sweeps. -/
theorem handleResume_cases (crypto : Crypto) (req : Bytes) :
    TableOnly m (handleResume crypto m w req) ∧
      ((∃ slot e, 24 ≤ req.length ∧ m.suspended.entry slot = some e ∧ e.fresh w = true ∧
        e.logonId = u32At req 4 ∧ verifies crypto e.arcRandom (secretOf req) = true ∧
        (handleResume crypto m w req).reply = { status := .ok, attached := some e.beFd } ∧
        (handleResume crypto m w req).manager.suspended = (sweepExpired m.suspended w).clear slot) ∨
      (handleResume crypto m w req).reply = { status := .fail } ∧
        Stores m.suspended w (fun _ => False) (handleResume crypto m w req).manager.suspended) := by
  unfold handleResume
  split_ifs with short
  · exact ⟨⟨rfl, rfl, rfl⟩, .inr ⟨rfl, .same⟩⟩
  · cases found : (sweepExpired m.suspended w).lookup fun e => e.logonId = u32At req 4 with
    | none => exact ⟨⟨rfl, rfl, rfl⟩, .inr ⟨rfl, .sweep⟩⟩
    | some place =>
      obtain ⟨slot, e⟩ := place
      obtain ⟨swept, wanted⟩ := lookup_eq_some found
      have fresh : e.fresh w = true := (holds_sweep.1 (holds_of_entry swept)).2
      dsimp only [resumeEntry]
      by_cases wrong : verifies crypto e.arcRandom (secretOf req) = false
      · rw [if_pos wrong]
        exact ⟨⟨rfl, rfl, rfl⟩, .inr ⟨rfl, .sweep⟩⟩
      · rw [if_neg wrong, Suspended.alive_of_fresh fresh]
        refine ⟨⟨rfl, rfl, rfl⟩, .inl ⟨slot, e, Nat.le_of_not_lt short, entry_keep swept, fresh,
          of_decide_eq_true wanted, ?_, rfl, rfl⟩⟩
        exact eq_true_of_ne_false wrong

theorem handleRequest_resume {r : Request} (isResume : r.op = opResume) :
    handleRequest crypto m r = handleResume crypto m r.world r.frame := by
  rw [handleRequest, isResume]
  rfl

end RdpServer.Sessionmgr
