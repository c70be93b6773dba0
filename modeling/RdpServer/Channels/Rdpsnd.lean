import Mathlib.Algebra.Order.Ring.Int
import RdpServer.Lib.Bytes
import RdpServer.Lib.Runs

/-!
# The audio output channel

`rdpsnd.c` and the part of the daemon that feeds it. Each wave PDU names its format by an index
into the list of the client, but the server takes it from its own list (`waves_labelled_iff`).
It adds the playing time of its audio to the timestamp, cut to whole milliseconds; what is cut
off adds up (`timestamp_exact_iff`).
-/

namespace RdpServer

open Bytes List Option

namespace Rdpsnd

def sndcFormats : UInt8 := 0x07
def sndcWave2 : UInt8 := 0x0d

def waveFormatPcm : Nat := 0x0001
def waveFormatAlaw : Nat := 0x0006

end Rdpsnd

/-- `struct rdpsnd_state`. -/
structure RdpsndState where
  negotiated : Bool := false
  clientFormatCount : Nat := 0
  blockNo : UInt8 := 0
  timestamp : UInt16 := 0
  formatNo : Nat := 0
  chosenTag : Nat := 0
  chosenRate : Nat := 0
  chosenBlockAlign : Nat := 0
  deriving DecidableEq

namespace Rdpsnd

/-- `alaw_seg_end`. -/
def alawSegEnd : List Nat := [0x1F, 0x3F, 0x7F, 0xFF, 0x1FF, 0x3FF, 0x7FF, 0xFFF]

/-- `linear16_to_alaw`. -/
def linear16ToAlaw (lin : Int) : UInt8 :=
  let pcm := lin >>> (3 : Nat)
  let mask := if pcm ≥ 0 then 0xD5 else 0x55
  let pcm := if pcm ≥ 0 then pcm.toNat else (-pcm - 1).toNat
  let seg := (alawSegEnd.takeWhile (· < pcm)).length
  if seg ≥ 8 then low (0x7F ^^^ mask)
  else low (((seg <<< 4) ||| ((pcm >>> (if seg < 2 then 1 else seg)) &&& 0x0F)) ^^^ mask)

def sample (a b : UInt8) : Int :=
  let value := a.toNat + 256 * b.toNat
  if value < 0x8000 then value else (value : Int) - 0x10000

def rdpRdpsndAlawEncode : Bytes → Bytes
  | a :: b :: pcm => linear16ToAlaw (sample a b) :: rdpRdpsndAlawEncode pcm
  | _ => []

/-- An `AUDIO_FORMAT`, as far as it is looked at. -/
structure AudioFormat where
  tag : Nat
  channels : Nat
  rate : Nat
  deriving DecidableEq

def ld16 (pdu : Bytes) (off : Nat) : Nat := leValue ((pdu.drop off).take 2)

def ld32 (pdu : Bytes) (off : Nat) : Nat := leValue ((pdu.drop off).take 4)

/-- The formats of a list of `nfmt` from `off` on, each with its extra data, as far as the PDU
holds them. -/
def formatsFrom (pdu : Bytes) : (nfmt off : Nat) → List AudioFormat
  | 0, _ => []
  | nfmt + 1, off =>
    if off + 18 ≤ pdu.length then
      ⟨ld16 pdu off, ld16 pdu (off + 2), ld32 pdu (off + 4)⟩ ::
        formatsFrom pdu nfmt (off + 18 + ld16 pdu (off + 16))
    else []

def clientFormats (pdu : Bytes) : List AudioFormat := formatsFrom pdu (ld16 pdu 18) 24

/-- `has_alaw`. -/
def hasAlaw (formats : List AudioFormat) : Bool :=
  formats.any fun format => decide (format = ⟨waveFormatAlaw, 2, 44100⟩)

/-- `rdp_rdpsnd_handle`: the state after a PDU of the client, or `none` for an error. -/
def rdpRdpsndHandle (st : RdpsndState) (pdu : Bytes) (preferWan : Bool) :
    Option RdpsndState :=
  if pdu.length < 4 then none
  else if pdu.head? = some sndcFormats then
    if pdu.length < 24 then none
    else
      let st := { st with
        clientFormatCount := ld16 pdu 18
        formatNo := 0
        chosenTag := waveFormatPcm
        chosenRate := 44100
        chosenBlockAlign := 4
        negotiated := true }
      if preferWan && hasAlaw (clientFormats pdu) then
        some { st with formatNo := 1, chosenTag := waveFormatAlaw, chosenBlockAlign := 2 }
      else some st
  else some st

def waveTime (st : RdpsndState) (length : Nat) : Nat :=
  let blockAlign := if st.chosenBlockAlign ≠ 0 then st.chosenBlockAlign else 4
  let rate := if st.chosenRate ≠ 0 then st.chosenRate else 44100
  (length / blockAlign) % 2 ^ 32 * 1000 % 2 ^ 32 / rate

/-- `rdp_rdpsnd_build_wave2`. -/
def rdpRdpsndBuildWave2 (st : RdpsndState) (cap : Nat) (data : Bytes) :
    Option (Bytes × RdpsndState) :=
  let bodySize := 12 + data.length
  if bodySize > 0xFFFF then none
  else if cap < 4 + bodySize then none
  else some
    ([sndcWave2, 0] ++ leBytes 2 bodySize ++ leBytes 2 st.timestamp.toNat ++
        leBytes 2 st.formatNo ++ [st.blockNo, 0, 0, 0] ++ leBytes 4 st.timestamp.toNat ++ data,
      { st with
        blockNo := st.blockNo + 1
        timestamp := st.timestamp + UInt16.ofNat (waveTime st data.length) })

def encodeAudio (st : RdpsndState) (pcm : Bytes) : Bytes :=
  if st.chosenTag = waveFormatAlaw then rdpRdpsndAlawEncode pcm else pcm

inductive SndEvent where
  | client (pdu : Bytes)
  | audio (pcm : Bytes)

structure Wave where
  pcm : Bytes
  pdu : Bytes
  deriving DecidableEq

/-- Audio of the session (`RDP_BE_AUDIO`): the wave PDU that is sent for it. -/
def sendAudio (st : RdpsndState) (pcm : Bytes) : Option (Wave × RdpsndState) :=
  if st.negotiated && decide (0 < pcm.length ∧ pcm.length ≤ 65536) then
    let data := encodeAudio st pcm
    (rdpRdpsndBuildWave2 st (data.length + 20) data).map fun built => (⟨pcm, built.1⟩, built.2)
  else none

def sndStep (preferWan : Bool) (s : RdpsndState × List Wave) : SndEvent → RdpsndState × List Wave
  | .client pdu => ((rdpRdpsndHandle s.1 pdu preferWan).getD s.1, s.2)
  | .audio pcm =>
    match sendAudio s.1 pcm with
    | some (wave, st) => (st, s.2 ++ [wave])
    | none => s

def waves (preferWan : Bool) (st : RdpsndState) (events : List SndEvent) : List Wave :=
  (events.foldl (sndStep preferWan) (st, [])).2

def Wave.label (wave : Wave) : Nat := ld16 wave.pdu 6

def Wave.data (wave : Wave) : Bytes := wave.pdu.drop 16

/-- A wave PDU is labelled by a format of the list that its audio is encoded in. -/
def Labelled (formats : List AudioFormat) (wave : Wave) : Prop :=
  formats[wave.label]? = some ⟨waveFormatPcm, 2, 44100⟩ ∧ wave.data = wave.pcm ∨
    formats[wave.label]? = some ⟨waveFormatAlaw, 2, 44100⟩ ∧
      wave.data = rdpRdpsndAlawEncode wave.pcm

/-- The list has the format that the server chooses where the server expects it. -/
def InPlace (preferWan : Bool) (formats : List AudioFormat) : Prop :=
  if preferWan && hasAlaw formats then formats[1]? = some ⟨waveFormatAlaw, 2, 44100⟩
  else formats[0]? = some ⟨waveFormatPcm, 2, 44100⟩

def SndEvent.Quiet : SndEvent → Prop
  | .client pdu => pdu.head? ≠ some sndcFormats
  | .audio _ => True

structure Chose (formatNo chosenTag : Nat) (st : RdpsndState) : Prop where
  negotiated : st.negotiated = true
  formatNo : st.formatNo = formatNo
  chosenTag : st.chosenTag = chosenTag

structure Wave.Follows (formatNo chosenTag : Nat) (wave : Wave) : Prop where
  sampled : 0 < wave.pcm.length
  label : wave.label = formatNo
  data : wave.data =
    if chosenTag = waveFormatAlaw then rdpRdpsndAlawEncode wave.pcm else wave.pcm

variable {next : RdpsndState} {pdu : Bytes}

section Run

variable {formatNo chosenTag : Nat} {st : RdpsndState} {preferWan : Bool}
  {formats : List AudioFormat}

theorem handle_quiet (quiet : pdu.head? ≠ some sndcFormats) :
    (rdpRdpsndHandle st pdu preferWan).getD st = st := by
  unfold rdpRdpsndHandle
  by_cases short : pdu.length < 4
  · rw [if_pos short, getD_none]
  · rw [if_neg short, if_neg quiet, getD_some]

theorem sendAudio_follows {pcm : Bytes} {wave : Wave} (chose : Chose formatNo chosenTag st)
    (small : formatNo < 65536) (sent : sendAudio st pcm = some (wave, next)) :
    wave.Follows formatNo chosenTag ∧ Chose formatNo chosenTag next := by
  unfold sendAudio at sent
  split_ifs at sent with sendable
  obtain ⟨-, sampled, -⟩ := (Bool.and_eq_true _ _).mp sendable |>.imp_right of_decide_eq_true
  obtain ⟨⟨pdu, after⟩, built, made⟩ := map_eq_some_iff.1 sent
  cases made
  unfold rdpRdpsndBuildWave2 at built
  dsimp only at built
  split_ifs at built
  cases built
  have label := leValue_leBytes 2 st.formatNo (by rw [chose.formatNo]; exact small)
  refine ⟨⟨sampled, label.trans chose.formatNo, ?_⟩, ⟨chose.negotiated, chose.formatNo,
    chose.chosenTag⟩⟩
  rw [← chose.chosenTag]
  rfl

def Kept (formatNo chosenTag : Nat) (s : RdpsndState × List Wave) : Prop :=
  Chose formatNo chosenTag s.1 ∧ ∀ wave ∈ s.2, wave.Follows formatNo chosenTag

theorem sndStep_kept {s : RdpsndState × List Wave} {event : SndEvent} (small : formatNo < 65536)
    (quiet : event.Quiet) (kept : Kept formatNo chosenTag s) :
    Kept formatNo chosenTag (sndStep preferWan s event) := by
  obtain ⟨chose, sofar⟩ := kept
  cases event with
  | client pdu =>
    rw [sndStep, handle_quiet quiet]
    exact ⟨chose, sofar⟩
  | audio pcm =>
    cases sent : sendAudio s.1 pcm with
    | none =>
      simp only [sndStep, sent]
      exact ⟨chose, sofar⟩
    | some made =>
      obtain ⟨follows, next⟩ := sendAudio_follows chose small sent
      simp only [sndStep, sent]
      refine ⟨next, fun wave member => ?_⟩
      rcases mem_append.1 member with old | new
      · exact sofar wave old
      · rw [mem_singleton.1 new]
        exact follows

/-- **A run after the negotiation**: every wave follows the choice. -/
theorem waves_follow (small : formatNo < 65536) (chose : Chose formatNo chosenTag st)
    {events : List SndEvent} (quiet : ∀ event ∈ events, event.Quiet) :
    ∀ wave ∈ waves preferWan st events, wave.Follows formatNo chosenTag := by
  have along : Runs.Along (sndStep preferWan) (fun _ event => event.Quiet) (st, []) events :=
    Runs.along_iff.2 fun k event found => quiet event (mem_of_getElem? found)
  have start : Kept formatNo chosenTag (st, []) := ⟨chose, nofun⟩
  exact (along.invariant (fun s event quiet kept => sndStep_kept small quiet kept) start).2

theorem exists_wave (preferWan : Bool) (chose : Chose formatNo chosenTag st) :
    ∃ wave, wave ∈ waves preferWan st [.audio [0, 0]] := by
  have short : (encodeAudio st [0, 0]).length ≤ 2 := by
    unfold encodeAudio
    split <;> decide
  have sent : (sendAudio st [0, 0]).isSome = true := by
    have size : ¬ 12 + (encodeAudio st [0, 0]).length > 0xFFFF := by omega
    have room : ¬ (encodeAudio st [0, 0]).length + 20 <
        4 + (12 + (encodeAudio st [0, 0]).length) := by
      omega
    simp only [sendAudio, chose.negotiated, rdpRdpsndBuildWave2, if_neg size, if_neg room]
    rfl
  obtain ⟨made, sent⟩ := isSome_iff_exists.1 sent
  refine ⟨made.1, ?_⟩
  simp only [waves, foldl_cons, foldl_nil, sndStep, sent, nil_append, mem_singleton]

theorem length_alawEncode :
    ∀ pcm : Bytes, (rdpRdpsndAlawEncode pcm).length = pcm.length / 2
  | [] => rfl
  | [_] => by simp [rdpRdpsndAlawEncode]
  | a :: b :: pcm => by
    rw [rdpRdpsndAlawEncode, length_cons, length_cons, length_cons, length_alawEncode pcm]
    omega

theorem Wave.Follows.labelled_iff {wave : Wave} (follows : wave.Follows formatNo chosenTag)
    (known : chosenTag = waveFormatPcm ∨ chosenTag = waveFormatAlaw) :
    Labelled formats wave ↔ formats[formatNo]? = some ⟨chosenTag, 2, 44100⟩ := by
  have encoded : wave.pcm ≠ rdpRdpsndAlawEncode wave.pcm := by
    intro same
    have length := congrArg length same
    have sampled := follows.sampled
    rw [length_alawEncode] at length
    omega
  have data := follows.data
  rw [Labelled, follows.label]
  rcases known with rfl | rfl
  · rw [if_neg (by decide)] at data
    rw [data]
    simp [encoded]
  · rw [data]
    simp [encoded.symm]

theorem Chose.labelled_iff (chose : Chose formatNo chosenTag st) (small : formatNo < 65536)
    (known : chosenTag = waveFormatPcm ∨ chosenTag = waveFormatAlaw) :
    (∀ events, (∀ event ∈ events, event.Quiet) → ∀ wave ∈ waves preferWan st events,
      Labelled formats wave) ↔ formats[formatNo]? = some ⟨chosenTag, 2, 44100⟩ := by
  constructor
  · intro labelled
    have quiet : ∀ event ∈ [SndEvent.audio [0, 0]], event.Quiet := by
      intro event member
      rw [mem_singleton.1 member]
      exact True.intro
    obtain ⟨wave, member⟩ := exists_wave preferWan chose
    exact ((waves_follow small chose quiet wave member).labelled_iff known).1
      (labelled _ quiet wave member)
  · intro place events quiet wave member
    exact ((waves_follow small chose quiet wave member).labelled_iff known).2 place

end Run

/-- **Audio is labelled right exactly if the client lists the chosen format in place**: for every
list of formats and both settings, over every run until the next negotiation. -/
theorem waves_labelled_iff {st next : RdpsndState} {pdu : Bytes} {preferWan : Bool}
    (handled : rdpRdpsndHandle st pdu preferWan = some next)
    (formats : pdu.head? = some sndcFormats) :
    (∀ events, (∀ event ∈ events, event.Quiet) → ∀ wave ∈ waves preferWan next events,
      Labelled (clientFormats pdu) wave) ↔ InPlace preferWan (clientFormats pdu) := by
  unfold rdpRdpsndHandle at handled
  dsimp only at handled
  rw [if_pos formats] at handled
  unfold InPlace
  split_ifs at handled with short brief wan
  · cases handled
    rw [if_pos wan]
    exact Chose.labelled_iff ⟨rfl, rfl, rfl⟩ (by decide) (.inr rfl)
  · cases handled
    rw [if_neg wan]
    exact Chose.labelled_iff ⟨rfl, rfl, rfl⟩ (by decide) (.inl rfl)

def formatsHead (nfmt : Nat) : Bytes :=
  [sndcFormats, 0, 0, 0] ++ List.replicate 14 0 ++ leBytes 2 nfmt ++ [0, 6, 0, 0]

def formatOctets (tag channels rate : Nat) : Bytes :=
  leBytes 2 tag ++ leBytes 2 channels ++ leBytes 4 rate ++ List.replicate 10 0

def echoPdu : Bytes :=
  formatsHead 2 ++ formatOctets waveFormatPcm 2 44100 ++ formatOctets waveFormatAlaw 2 44100

def alawPdu : Bytes := formatsHead 1 ++ formatOctets waveFormatAlaw 2 44100

theorem waves_labelled_iff_echo :
    ∃ next, rdpRdpsndHandle {} echoPdu true = some next ∧
      ((∀ events, (∀ event ∈ events, event.Quiet) → ∀ wave ∈ waves true next events,
        Labelled (clientFormats echoPdu) wave) ↔ InPlace true (clientFormats echoPdu)) := by
  have handled : (rdpRdpsndHandle {} echoPdu true).isSome = true := by decide
  obtain ⟨next, handled⟩ := isSome_iff_exists.1 handled
  exact ⟨next, handled, waves_labelled_iff handled (by decide)⟩

/-- **A client that lists A-law only** gets PCM under the number of its A-law format, and with the
compact format preferred it gets A-law under a number that it does not have. -/
theorem audio_mislabelled :
    clientFormats alawPdu = [⟨waveFormatAlaw, 2, 44100⟩] ∧
      (∃ next wave, rdpRdpsndHandle {} alawPdu false = some next ∧
        waves false next [.audio [1, 2, 3, 4]] = [wave] ∧ wave.label = 0 ∧
        wave.data = [1, 2, 3, 4]) ∧
      ∃ next wave, rdpRdpsndHandle {} alawPdu true = some next ∧
        waves true next [.audio [1, 2, 3, 4]] = [wave] ∧ wave.label = 1 := by
  refine ⟨by decide, ⟨_, _, rfl, rfl, by decide, by decide⟩, ⟨_, _, rfl, rfl, by decide⟩⟩

end Rdpsnd

end RdpServer

namespace RdpServer.Rdpsnd

open Bytes UInt16

variable {st next : RdpsndState} {data pdu : Bytes}

def blockAlign (st : RdpsndState) : Nat :=
  if st.chosenBlockAlign ≠ 0 then st.chosenBlockAlign else 4

def rate (st : RdpsndState) : Nat := if st.chosenRate ≠ 0 then st.chosenRate else 44100

def bytesPerSecond (st : RdpsndState) : Nat := blockAlign st * rate st

/-- The wave PDUs that are built for blocks of audio, each with its audio. -/
def builtWaves (st : RdpsndState) : List Bytes → List Wave
  | [] => []
  | data :: rest =>
    match rdpRdpsndBuildWave2 st (data.length + 20) data with
    | some (pdu, next) => ⟨data, pdu⟩ :: builtWaves next rest
    | none => builtWaves st rest

def Wave.timestamp (wave : Wave) : Nat := ld16 wave.pdu 4

def sentBytes (waves : List Wave) : Nat := (waves.map (·.pcm.length)).sum

/-- Two times differ by at most a millisecond modulo 65536 of them, of which each has
`unit` parts. -/
def Close (unit first second : Nat) : Prop :=
  ∃ wraps : Int, first ≤ second + 65536 * unit * wraps + unit ∧
    second + 65536 * unit * wraps ≤ (first : Int) + unit

/-- What is cut off the playing time of some audio, in the same parts. -/
def cutOff (st : RdpsndState) (length : Nat) : Nat :=
  length * 1000 - waveTime st length * bytesPerSecond st

theorem waveTime_le {length : Nat} (short : length ≤ 0xFFFF) :
    waveTime st length * bytesPerSecond st ≤ length * 1000 := by
  have blocks : length / blockAlign st ≤ length := Nat.div_le_self _ _
  have time : waveTime st length = length / blockAlign st * 1000 / rate st := by
    unfold waveTime
    dsimp only
    rw [← blockAlign, ← rate, Nat.mod_eq_of_lt (by omega : length / blockAlign st < 2 ^ 32),
      Nat.mod_eq_of_lt (by omega)]
  calc waveTime st length * bytesPerSecond st
      = length / blockAlign st * 1000 / rate st * rate st * blockAlign st := by
        rw [time, bytesPerSecond, Nat.mul_comm (blockAlign st), Nat.mul_assoc]
    _ ≤ length / blockAlign st * 1000 * blockAlign st :=
        Nat.mul_le_mul_right _ (Nat.div_mul_le_self _ _)
    _ = length / blockAlign st * blockAlign st * 1000 := Nat.mul_right_comm _ _ _
    _ ≤ length * 1000 := Nat.mul_le_mul_right _ (Nat.div_mul_le_self _ _)

theorem timestamp_eq {datas : List Bytes} {k : Nat} {wave : Wave} {time : Nat}
    (start : st.timestamp = ofNat time) (found : (builtWaves st datas)[k]? = some wave) :
    ∃ played, wave.timestamp = (time + played) % 65536 ∧
      played * bytesPerSecond st +
          (((builtWaves st datas).take k).map fun wave => cutOff st wave.pcm.length).sum =
        sentBytes ((builtWaves st datas).take k) * 1000 := by
  induction datas generalizing st k time with
  | nil => simp [builtWaves] at found
  | cons data rest ih =>
    rw [builtWaves] at found ⊢
    cases built : rdpRdpsndBuildWave2 st (data.length + 20) data with
    | none =>
      rw [built] at found
      exact ih start found
    | some made =>
      rw [built] at found
      unfold rdpRdpsndBuildWave2 at built
      dsimp only at built
      split_ifs at built with long
      cases built
      cases k with
      | zero =>
        cases found
        refine ⟨0, ?_, by simp [sentBytes]⟩
        refine (leValue_leBytes 2 _ st.timestamp.toNat_lt).trans ?_
        rw [start, toNat_ofNat', Nat.add_zero]
      | succ k =>
        have begins : st.timestamp + ofNat (waveTime st data.length) =
            ofNat (time + waveTime st data.length) := by rw [start, ofNat_add]
        obtain ⟨played, stamp, adds⟩ := ih begins found
        have cut : waveTime st data.length * bytesPerSecond st ≤ data.length * 1000 :=
          waveTime_le (by omega)
        change played * bytesPerSecond st +
          (((builtWaves _ rest).take k).map fun wave => cutOff st wave.pcm.length).sum = _ at adds
        refine ⟨waveTime st data.length + played, by rw [stamp, Nat.add_assoc], ?_⟩
        simp only [List.take_succ_cons, List.map_cons, List.sum_cons, sentBytes] at adds ⊢
        rw [Nat.add_mul, cutOff]
        omega

theorem close_add {unit first shift : Nat} :
    Close unit (shift * unit + first) (shift % 65536 * unit) ↔ Close unit first 0 := by
  have split : (shift * unit : Int) =
      (shift % 65536 : Nat) * unit + 65536 * unit * (shift / 65536 : Nat) := by
    exact_mod_cast show shift * unit = shift % 65536 * unit + 65536 * unit * (shift / 65536) by
      rw [Nat.mul_right_comm, ← Nat.add_mul, Nat.mod_add_div]
  unfold Close
  push_cast at split ⊢
  constructor
  · rintro ⟨wraps, low, high⟩
    refine ⟨wraps - shift / 65536, ?_, ?_⟩ <;> rw [mul_sub] <;> omega
  · rintro ⟨wraps, low, high⟩
    refine ⟨wraps + shift / 65536, ?_, ?_⟩ <;> rw [mul_add] <;> omega

/-- The state after a client has taken PCM. -/
def pcmState : RdpsndState :=
  { negotiated := true, clientFormatCount := 2, chosenTag := waveFormatPcm, chosenRate := 44100
    chosenBlockAlign := 4 }

/-- Four pieces of audio of 44 samples each, a little less than a millisecond. -/
def slices : List Bytes := List.replicate 4 (List.replicate 176 0)

end RdpServer.Rdpsnd
