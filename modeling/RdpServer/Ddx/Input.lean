import RdpServer.Lib.Bytes
import RdpServer.Lib.Runs

/-!
# The input of the X server

The X server reads the messages of the session from a socket that does not block. It keeps
its place in a header between two calls, but not in a payload. So the events that it posts are
those of the messages, in order, as long as each payload is there when its header has been read
(`input_as_sent`). A payload that comes later is lost or taken for a header
(`late_payload_lost`).
-/

namespace RdpServer.Ddx

open Bytes List

def ddxProtoHeader : Nat := 8

/-- The type of a message and its payload. -/
structure Message where
  type : Nat
  payload : Bytes

inductive Posted where
  | key (keycode : Nat) (down : UInt8)
  | motion (x y : Int)
  | button (button : Nat) (down : Bool)
  | resize (w h : Nat)
deriving DecidableEq

def ld16 (octets : Bytes) (off : Nat) : Nat := leValue ((octets.drop off).take 2)

def ldInt32 (octets : Bytes) (off : Nat) : Int :=
  (BitVec.ofNat 32 (leValue ((octets.drop off).take 4))).toInt

/-- The size of the payload that is read for a message of a known type. -/
def sizeOf : Nat → Option Nat
  | 3 => some 4
  | 4 => some 12
  | 5 => some 4
  | _ => none

def buttonsOf (buttons : Nat) : Nat :=
  (if buttons.testBit 0 then 1 else 0) + (if buttons.testBit 1 then 4 else 0) +
    if buttons.testBit 2 then 2 else 0

/-- What is posted for a message, and the size that a resize leaves behind. -/
def Message.posts (m : Message) : List Posted :=
  match m.type with
  | 3 => [.key (ld16 m.payload 0 + 8) (m.payload.getD 2 0)]
  | 4 =>
    let buttons := ld16 m.payload 8
    .motion (ldInt32 m.payload 0) (ldInt32 m.payload 4) ::
      if (ld16 m.payload 10).testBit 0 then
        [.button (if buttonsOf buttons = 0 then 1 else buttonsOf buttons) (buttons ≠ 0)]
      else []
  | 5 => [.resize (ld16 m.payload 0) (ld16 m.payload 2)]
  | _ => []

/-- Where the reader stands: at a poll, in a header, before a payload, or in one that is
skipped. -/
inductive Place where
  | poll
  | header
  | payload (type size : Nat)
  | skip (len : Nat)
deriving DecidableEq

structure Dev where
  socket : Bytes := []
  ctrlHdr : Bytes := []
  place : Place := .poll
  posted : List Posted := []

def placeOf (hdr : Bytes) : Place :=
  let type := leValue (hdr.take 4)
  let len := leValue ((hdr.drop 4).take 4)
  match sizeOf type with
  | some size => if size ≤ len then .payload type size else .skip len
  | none => .skip len

/-- The next call of `ctrl_handle_input`, a poll or a read. -/
def Dev.call (dev : Dev) : Dev :=
  match dev.place with
  | .poll => if dev.socket = [] then dev else { dev with place := .header }
  | .header =>
    let got := dev.socket.take (ddxProtoHeader - dev.ctrlHdr.length)
    let rest := dev.socket.drop (ddxProtoHeader - dev.ctrlHdr.length)
    let hdr := dev.ctrlHdr ++ got
    if got = [] then { dev with place := .poll }
    else if hdr.length < ddxProtoHeader then { dev with ctrlHdr := hdr, socket := rest }
    else { dev with ctrlHdr := [], socket := rest, place := placeOf hdr }
  | .payload type size =>
    let got := dev.socket.take size
    { dev with
      socket := dev.socket.drop size
      place := .poll
      posted := dev.posted ++ if got.length = size then Message.posts ⟨type, got⟩ else [] }
  | .skip len =>
    let got := dev.socket.take (min len 256)
    if got = [] then { dev with place := .poll }
    else { dev with socket := dev.socket.drop (min len 256), place := .skip (len - got.length) }

inductive Event where
  | arrives (octets : Bytes)
  | call

def Dev.step (dev : Dev) : Event → Dev
  | .arrives octets => { dev with socket := dev.socket ++ octets }
  | .call => dev.call

def Event.octets : Event → Bytes
  | .arrives octets => octets
  | .call => []

/-- What the session writes for a message. -/
def Message.wire (m : Message) : Bytes :=
  leBytes 4 m.type ++ leBytes 4 m.payload.length ++ m.payload

structure Message.Sendable (m : Message) : Prop where
  type : m.type < 256 ^ 4
  length : m.payload.length < 256 ^ 4
  sized : ∀ size, sizeOf m.type = some size → m.payload.length = size

/-- The octets from the reader's place on are the rest of the messages; of a message that is
skipped nothing is posted. -/
def Dev.Ahead (dev : Dev) (octets : Bytes) (rest : List Message) : Prop :=
  match dev.place with
  | .poll | .header =>
    dev.ctrlHdr.length < ddxProtoHeader ∧ dev.ctrlHdr ++ octets = rest.flatMap Message.wire
  | .payload type size => dev.ctrlHdr = [] ∧ ∃ m more, rest = m :: more ∧ m.type = type ∧
      m.payload.length = size ∧ octets = m.payload ++ more.flatMap Message.wire
  | .skip len => dev.ctrlHdr = [] ∧ ∃ left : Bytes, left.length = len ∧
      octets = left ++ rest.flatMap Message.wire

theorem placeOf_wire {m : Message} (sendable : m.Sendable) :
    placeOf (leBytes 4 m.type ++ leBytes 4 m.payload.length) =
      match sizeOf m.type with
      | some _ => .payload m.type m.payload.length
      | none => .skip m.payload.length := by
  have type : leValue ((leBytes 4 m.type ++ leBytes 4 m.payload.length).take 4) = m.type := by
    rw [take_left' (length_leBytes _ _), leValue_leBytes 4 _ sendable.type]
  have length : leValue (((leBytes 4 m.type ++ leBytes 4 m.payload.length).drop 4).take 4) =
      m.payload.length := by
    rw [drop_left' (length_leBytes _ _), take_of_length_le (by simp),
      leValue_leBytes 4 _ sendable.length]
  rw [placeOf, type, length]
  cases known : sizeOf m.type with
  | none => rfl
  | some size =>
    obtain rfl := sendable.sized size known
    exact if_pos (le_rfl)

theorem posts_of_unknown {m : Message} (unknown : sizeOf m.type = none) : m.posts = [] := by
  unfold Message.posts
  split
  all_goals simp_all [sizeOf]

namespace Dev

variable {dev : Dev} {later : Bytes} {rest : List Message}

/-- A payload is there when it is read, and one that is skipped goes on. -/
def Kept (dev : Dev) : Event → Prop
  | .arrives _ => True
  | .call =>
    match dev.place with
    | .payload _ size => size ≤ dev.socket.length
    | .skip len => len ≠ 0 → dev.socket ≠ []
    | _ => True

/-- A header that has been read, and what follows it. -/
theorem header_split {hdr got after : Bytes} (full : (hdr ++ got).length = ddxProtoHeader)
    (octets : hdr ++ (got ++ after) = rest.flatMap Message.wire) :
    ∃ m more, rest = m :: more ∧ hdr ++ got = leBytes 4 m.type ++ leBytes 4 m.payload.length ∧
      after = m.payload ++ more.flatMap Message.wire := by
  rw [← append_assoc] at octets
  cases rest with
  | nil =>
    rw [(append_eq_nil_iff.1 octets).1] at full
    cases full
  | cons m more =>
    exact ⟨m, more, rfl, append_inj octets (full.trans (by simp [ddxProtoHeader]))⟩

theorem Ahead.call (sendable : ∀ m ∈ rest, m.Sendable) (kept : dev.Kept .call)
    (ahead : dev.Ahead (dev.socket ++ later) rest) :
    ∃ now more, rest = now ++ more ∧ dev.call.posted = dev.posted ++ now.flatMap Message.posts ∧
      dev.call.Ahead (dev.call.socket ++ later) more := by
  obtain ⟨socket, hdr, place, posted⟩ := dev
  cases place with
  | poll =>
    refine ⟨[], rest, rfl, ?_⟩
    unfold Dev.call
    dsimp only
    split_ifs <;> exact ⟨(append_nil _).symm, ahead⟩
  | header =>
    obtain ⟨short, octets⟩ := ahead
    have split := take_append_drop (ddxProtoHeader - hdr.length) socket
    have most := length_take_le (ddxProtoHeader - hdr.length) socket
    unfold Dev.call
    dsimp only at *
    generalize socket.take (ddxProtoHeader - hdr.length) = got at *
    generalize socket.drop (ddxProtoHeader - hdr.length) = left at *
    subst split
    split_ifs with none part
    · exact ⟨[], rest, rfl, (append_nil _).symm, short, octets⟩
    · refine ⟨[], rest, rfl, (append_nil _).symm, part, ?_⟩
      rw [append_assoc, ← append_assoc got]
      exact octets
    · have full : (hdr ++ got).length = ddxProtoHeader := by
        rw [length_append] at part ⊢
        omega
      rw [append_assoc] at octets
      obtain ⟨m, more, rfl, same, payload⟩ := header_split full octets
      have able := sendable m (.head _)
      rw [same, placeOf_wire able]
      cases known : sizeOf m.type with
      | some size =>
        exact ⟨[], m :: more, rfl, (append_nil _).symm, rfl, m, more, rfl, rfl, rfl, payload⟩
      | none =>
        refine ⟨[m], more, rfl, ?_, rfl, m.payload, rfl, payload⟩
        simp [posts_of_unknown known]
  | payload type size =>
    obtain ⟨rfl, m, more, rfl, rfl, rfl, octets⟩ := ahead
    refine ⟨[m], more, rfl, ?_⟩
    have there : m.payload.length ≤ socket.length := kept
    have read : socket.take m.payload.length = m.payload ∧
        socket.drop m.payload.length ++ later = more.flatMap Message.wire := by
      refine append_inj ?_ (length_take_of_le there)
      rw [← append_assoc, take_append_drop]
      exact octets
    unfold Dev.call
    dsimp only
    rw [read.1, if_pos rfl, flatMap_singleton]
    exact ⟨rfl, Nat.zero_lt_succ _, read.2⟩
  | skip len =>
    obtain ⟨rfl, left, rfl, octets⟩ := ahead
    refine ⟨[], rest, rfl, ?_⟩
    have split := take_append_drop (min left.length 256) socket
    have most := length_take_le (min left.length 256) socket
    unfold Dev.call
    dsimp only at *
    split_ifs with none
    · have done : left = [] := by
        by_contra some
        rcases take_eq_nil_iff.1 none with zero | empty
        · have positive := length_pos_iff.2 some
          omega
        · exact kept (mt length_eq_zero_iff.1 some) empty
      rw [done] at octets
      exact ⟨(append_nil _).symm, Nat.zero_lt_succ _, octets⟩
    · generalize socket.take (min left.length 256) = got at *
      refine ⟨(append_nil _).symm, rfl, left.drop got.length, length_drop, ?_⟩
      have same := congrArg (drop got.length) octets
      rw [← split, append_assoc, drop_left, drop_append_of_le_length (by omega)] at same
      exact same

def octetsOf (events : List Event) : Bytes := events.flatMap Event.octets

theorem Ahead.run {events : List Event} (sendable : ∀ m ∈ rest, m.Sendable)
    (kept : Runs.Along step Kept dev events)
    (ahead : dev.Ahead (dev.socket ++ (octetsOf events ++ later)) rest) :
    ∃ now more, rest = now ++ more ∧
      (events.foldl step dev).posted = dev.posted ++ now.flatMap Message.posts ∧
      (events.foldl step dev).Ahead ((events.foldl step dev).socket ++ later) more := by
  induction events generalizing dev rest with
  | nil => exact ⟨[], rest, rfl, (append_nil _).symm, ahead⟩
  | cons event events ih =>
    cases event with
    | arrives octets =>
      refine ih sendable kept.2 ?_
      rw [octetsOf, flatMap_cons, append_assoc, ← append_assoc] at ahead
      exact ahead
    | call =>
      obtain ⟨now, more, rfl, posted, ahead⟩ := ahead.call sendable kept.1
      obtain ⟨next, left, rfl, later, ahead⟩ :=
        ih (fun m member => sendable m (mem_append_right _ member)) kept.2 ahead
      refine ⟨now ++ next, left, (append_assoc ..).symm, later.trans ?_, ahead⟩
      rw [step, posted, flatMap_append, append_assoc]

/-- **Input as it was sent.** Let the octets of any messages arrive in any parts, between any
calls. If each payload is there when it is read, what has been posted is at any time what the
first messages ask for, and that of all of them once everything has been read. -/
theorem input_as_sent (messages : List Message) (sendable : ∀ m ∈ messages, m.Sendable)
    (events : List Event) (later : Bytes)
    (arrives : octetsOf events ++ later = messages.flatMap Message.wire)
    (kept : Runs.Along step Kept {} events) :
    ∃ done rest, messages = done ++ rest ∧
      (events.foldl step {}).posted = done.flatMap Message.posts ∧
      ((events.foldl step {}).place = .poll → (events.foldl step {}).socket ++ later = [] →
        rest = []) := by
  obtain ⟨done, rest, split, posted, ahead⟩ :=
    Ahead.run sendable kept ⟨Nat.zero_lt_succ _, arrives⟩
  refine ⟨done, rest, split, posted, fun idle empty => ?_⟩
  rw [Ahead, idle, empty, append_nil] at ahead
  obtain ⟨short, octets⟩ := ahead
  cases rest with
  | nil => rfl
  | cons m more =>
    rw [octets, flatMap_cons, Message.wire] at short
    simp [ddxProtoHeader] at short
    omega

def pressed : Message := ⟨3, [30, 0, 1, 0]⟩

def typed : List Message := [pressed, ⟨3, [30, 0, 0, 0]⟩]

/-- A key goes down and up; the header of the second message is cut. -/
def typedInParts : List Event :=
  [.arrives ((typed.flatMap Message.wire).take 15), .call, .call, .call, .call,
    .arrives ((typed.flatMap Message.wire).drop 15), .call, .call, .call]

theorem input_as_sent_typed : (typedInParts.foldl step {}).posted = [.key 38 1, .key 38 0] ∧
    ∃ done rest, typed = done ++ rest ∧
      (typedInParts.foldl step {}).posted = done.flatMap Message.posts ∧ rest = [] := by
  obtain ⟨done, rest, split, posted, all⟩ := input_as_sent typed
    (forall_mem_cons.2 ⟨⟨by decide, by decide, fun size known => by cases known; rfl⟩,
      forall_mem_singleton.2 ⟨by decide, by decide, fun size known => by cases known; rfl⟩⟩)
    typedInParts [] (by decide) ⟨trivial, trivial, trivial, Nat.le_add_right 4 3, trivial, trivial,
      trivial, Nat.le_refl 4, trivial, trivial⟩
  exact ⟨by decide, done, rest, split, posted, all (by decide) (by decide)⟩

/-- The payload comes after the header has been read: the key is lost. -/
theorem late_payload_lost :
    ([.arrives (pressed.wire.take 8), .call, .call, .call, .arrives pressed.payload, .call, .call,
      .call].foldl step {}).posted = [] ∧ pressed.posts = [.key 38 1] := by
  decide

end Dev
end RdpServer.Ddx
