import RdpServer.Lib.Bytes

/-!
# Audio input

`sndin.c` and its caller in the worker: the server offers one PCM format on the audio
input channel, asks the client to open its microphone, and forwards what the client sends
as data. The handler takes every message in every phase, so audio is forwarded only
behind a completed negotiation exactly if the client sends none before that
(`forwarded_after_negotiation_iff`).
-/

namespace RdpServer.Channels

open Bytes

inductive SndinPhase where
  | init
  | versionSent
  | formatsSent
  | openSent
  | streaming
  deriving DecidableEq

/-- `struct sndin_state`. The capture format in it never changes. -/
structure Sndin where
  phase : SndinPhase := .init
  deriving DecidableEq

structure SndinOutcome where
  code : Int
  out : Bytes := []
  audio : Bytes := []
  deriving DecidableEq

namespace Sndin

/-- `put_pcm_format`: 16 bits, stereo, 44100 Hz. -/
def putPcmFormat : Bytes :=
  leBytes 2 1 ++ leBytes 2 2 ++ leBytes 4 44100 ++ leBytes 4 176400 ++ leBytes 2 4 ++
    leBytes 2 16 ++ leBytes 2 0

/-- `rdp_sndin_build_formats`. -/
def buildFormats (cap : Nat) : Option Bytes :=
  if cap < 1 + 26 then none else some (2 :: (leBytes 4 1 ++ leBytes 4 26 ++ putPcmFormat))

/-- `rdp_sndin_build_open`. -/
def buildOpen (cap framesPerPacket initialFormat : Nat) : Option Bytes :=
  if cap < 9 + 18 then none
  else some (3 :: (leBytes 4 framesPerPacket ++ leBytes 4 initialFormat ++ putPcmFormat))

/-- The walk over the formats, each with as many extra bytes as it declares. -/
def walkFormats : Nat → Bytes → Bool
  | 0, _ => true
  | count + 1, body =>
    let cbSize := leValue ((body.drop 16).take 2)
    decide (18 ≤ body.length) && decide (cbSize ≤ body.length - 18) &&
      walkFormats count (body.drop (18 + cbSize))

/-- `validate_formats`. -/
def validateFormats (body : Bytes) : Bool :=
  let numFormats := leValue (body.take 4)
  decide (8 ≤ body.length) && numFormats != 0 && decide (numFormats ≤ 256) &&
    walkFormats numFormats (body.drop 8)

/-- The next PDU of the server goes out, if it fits the buffer. -/
def advance (st : Sndin) (code : Int) (phase : SndinPhase) (built : Option Bytes) :
    Sndin × SndinOutcome :=
  built.elim (st, { code }) fun out => ({ phase }, { code, out })

/-- `rdp_sndin_handle`. -/
def handle (st : Sndin) (pdu : Bytes) (outCap : Nat) : Sndin × SndinOutcome :=
  match pdu with
  | [] => (st, { code := -1 })
  | msg :: body =>
    if msg = 1 then
      if body.length < 4 then (st, { code := -1 })
      else st.advance 1 .formatsSent (buildFormats outCap)
    else if msg = 2 then
      if !validateFormats body then (st, { code := -1 })
      else st.advance 2 .openSent (buildOpen outCap 0 0)
    else if msg = 4 then
      if body.length < 4 then (st, { code := -1 })
      else if leValue (body.take 4) = 0 then ({ phase := .streaming }, { code := 4 })
      else (st, { code := 4 })
    else if msg = 5 then (st, { code := 5 })
    else if msg = 6 then (st, { code := 6, audio := body })
    else if msg = 7 then
      if body.length < 4 then (st, { code := -1 }) else (st, { code := 7 })
    else (st, { code := -1 })

/-- `RDP_BE_AUDIO_INPUT_MAX`. -/
def beAudioInputMax : Nat := 64 * 1024

/-- The messages to the session that the worker makes of a PDU: its audio in chunks. -/
def forwarded (st : Sndin) (pdu : Bytes) : List Bytes :=
  let audio := (st.handle pdu 64).2.audio
  (List.range ((audio.length + beAudioInputMax - 1) / beAudioInputMax)).map fun i =>
    (audio.drop (i * beAudioInputMax)).take beAudioInputMax

/-- The channel after some PDUs of the client. It was opened with the version of the
server. -/
def after (pdus : List Bytes) : Sndin :=
  pdus.foldl (fun st pdu => (st.handle pdu 64).1) { phase := .versionSent }

def IsVersion (pdu : Bytes) : Prop := pdu.head? = some 1 ∧ 5 ≤ pdu.length

def IsFormats (pdu : Bytes) : Prop := pdu.head? = some 2 ∧ validateFormats pdu.tail = true

/-- The result in an open reply. -/
def openResult (pdu : Bytes) : Option Nat :=
  if pdu.head? = some 4 ∧ 5 ≤ pdu.length then some (leValue (pdu.tail.take 4)) else none

/-- A version, formats that are accepted and a successful open reply, in this order, and
no failed one since. -/
def Negotiated (pdus : List Bytes) : Prop :=
  ∃ before version between formats wait reply since,
    pdus = before ++ version :: between ++ formats :: wait ++ reply :: since ∧
    IsVersion version ∧ IsFormats formats ∧ openResult reply = some 0 ∧
    ∀ pdu ∈ since, openResult pdu = none ∨ openResult pdu = some 0

def CarriesAudio (pdu : Bytes) : Prop := pdu.head? = some 6 ∧ pdu.tail ≠ []

theorem audio_handle (st : Sndin) (pdu : Bytes) (outCap : Nat) :
    (st.handle pdu outCap).2.audio = if pdu.head? = some 6 then pdu.tail else [] := by
  have advanced : ∀ code phase built, (st.advance code phase built).2.audio = [] := by
    intro code phase built
    cases built <;> rfl
  unfold handle
  cases pdu with
  | nil => rfl
  | cons msg body =>
    by_cases data : msg = 6
    · subst data
      rfl
    · have other : ¬ (msg :: body).head? = some 6 := fun same => data (Option.some.inj same)
      rw [if_neg other]
      dsimp only
      split_ifs <;> first | rfl | exact advanced _ _ _

theorem forwarded_ne_nil_iff (st : Sndin) (pdu : Bytes) :
    st.forwarded pdu ≠ [] ↔ CarriesAudio pdu := by
  unfold forwarded CarriesAudio
  dsimp only
  rw [audio_handle, ne_eq, List.map_eq_nil_iff, List.range_eq_nil, Nat.div_eq_zero_iff]
  by_cases data : pdu.head? = some 6
  · have some := List.length_eq_zero_iff (l := pdu.tail)
    have room : 0 < beAudioInputMax := by decide
    rw [if_pos data, and_iff_right data, ne_eq, ← some]
    omega
  · simp [data, beAudioInputMax]

/-- **Microphone data behind the negotiation**: for every sequence of PDUs, audio is
forwarded only after the client has completed the negotiation, exactly if the client
sends no audio before that. -/
theorem forwarded_after_negotiation_iff (pdus : List Bytes) :
    (∀ (k : Nat) (pdu : Bytes), pdus[k]? = some pdu →
        (after (pdus.take k)).forwarded pdu ≠ [] → Negotiated (pdus.take k)) ↔
      ∀ (k : Nat) (pdu : Bytes), pdus[k]? = some pdu → CarriesAudio pdu →
        Negotiated (pdus.take k) := by
  simp only [forwarded_ne_nil_iff]

/-- Audio in the first PDU of the client is forwarded. -/
theorem audio_before_negotiation :
    (after []).forwarded [6, 1, 2] = [[1, 2]] ∧ ¬ Negotiated [] := by
  refine ⟨by decide, ?_⟩
  rintro ⟨before, version, between, formats, wait, reply, since, split, -⟩
  simp at split

end Sndin

end RdpServer.Channels
