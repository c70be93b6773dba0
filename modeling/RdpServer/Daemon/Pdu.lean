import Mathlib.Data.List.GetD
import Mathlib.Data.List.Induction
import RdpServer.Lib.Bytes
import RdpServer.Lib.Framing

/-!
# Reading client PDUs

The client's stream consists of TPKT and fast-path PDUs. The steady-state loop
of `run_proxy` fills the inbound TLS buffer when the socket is readable and
frames at most one buffered PDU per iteration; the handshake reads one PDU at a
time from the blocking stream. PDUs that are longer than the loop's buffer are dropped.

`frame_one_pdu` is a framer in the sense of `Framing.Framer`, and the loop is a receiver for
it: what it has handed on and what it still holds always frame as the whole stream does. At
the end of the stream the loop leaves at once, and what it still holds is lost.
-/

namespace RdpServer

open Bytes Framing

def rdpTpktVersion : UInt8 := 3
def rdpTpktMinLen : Nat := 7

def rdpTpktParseHdr (hdr : Bytes) : Option Nat :=
  if hdr.getD 0 0 ≠ rdpTpktVersion then none
  else if hdr.getD 1 0 ≠ 0 then none
  else
    let length := (hdr.getD 2 0).toNat * 256 + (hdr.getD 3 0).toNat
    if length < rdpTpktMinLen then none else some length

inductive PduKind where
  | fastpath
  | tpkt
  deriving DecidableEq

def frameOnePdu (p : Bytes) : Verdict PduKind :=
  if p.length < 1 then .more
  else if p.getD 0 0 = 0x03 then
    if p.length < 4 then .more
    else
      match rdpTpktParseHdr p with
      | none => .malformed
      | some length =>
        if length < 4 then .malformed
        else if p.length < length then .more
        else .item .tpkt length
  else if p.length < 2 then .more
  else if (p.getD 1 0).toNat &&& 0x80 = 0 then
    let total := if (p.getD 1 0).toNat < 2 then 2 else (p.getD 1 0).toNat
    if p.length < total then .more else .item .fastpath total
  else if p.length < 3 then .more
  else
    let announced := ((p.getD 1 0).toNat &&& 0x7f) <<< 8 ||| (p.getD 2 0).toNat
    let total := if announced < 3 then 3 else announced
    if p.length < total then .more else .item .fastpath total

/-- The inbound buffer: the octets up to `in_len`, and how many are consumed. -/
structure TlsIn where
  data : Bytes := []
  off : Nat := 0
  deriving DecidableEq

inductive TlsRead where
  | data (chunk : Bytes)
  | eof
  | wouldBlock
  | fatal

def TlsIn.compact (t : TlsIn) : TlsIn :=
  if t.off > 0 then
    if t.off = t.data.length then ⟨[], 0⟩ else ⟨t.data.drop t.off, 0⟩
  else t

/-- The buffer after a fill that read `chunk`. -/
def TlsIn.fill (t : TlsIn) (chunk : Bytes) : TlsIn :=
  { t.compact with data := t.compact.data ++ chunk }

def rdpTlsInData (t : TlsIn) : Bytes := t.data.drop t.off

def rdpTlsInConsume (t : TlsIn) (n : Nat) : TlsIn :=
  { t with off := if t.off + n > t.data.length then t.data.length else t.off + n }

def pduCap : Nat := 0x4000

inductive LoopStatus where
  | running
  | eof
  | fatal
  | malformed
  deriving DecidableEq

/-- The steady-state loop: its buffer, the PDUs it handed on, the position in
the stream that they and the dropped ones reach to, and whether it ended. -/
structure Steady where
  tls : TlsIn := {}
  produced : List (PduKind × Bytes) := []
  position : Nat := 0
  status : LoopStatus := .running

def Steady.frameBuffered (s : Steady) : Steady :=
  match frameOnePdu (rdpTlsInData s.tls) with
  | .malformed => { s with status := .malformed }
  | .more => s
  | .item kind length =>
    { s with
      tls := rdpTlsInConsume s.tls length
      produced :=
        if length > pduCap then s.produced
        else s.produced ++ [(kind, (rdpTlsInData s.tls).take length)]
      position := s.position + length }

/-- One iteration, with what the poll and the fill found: nothing to read, or
the result of the read. -/
def Steady.iterate (s : Steady) (found : Option TlsRead) : Steady :=
  if s.status = .running then
    match found with
    | none => s.frameBuffered
    | some (.data chunk) => { s with tls := s.tls.fill chunk }.frameBuffered
    | some .wouldBlock => { s with tls := s.tls.compact }.frameBuffered
    | some .eof => { s with tls := s.tls.compact, status := .eof }
    | some .fatal => { s with tls := s.tls.compact, status := .fatal }
  else s

def steadyRun (found : List (Option TlsRead)) : Steady := found.foldl Steady.iterate {}

inductive ReadPdu where
  | eof
  | error
  | pdu (kind : PduKind) (bytes buf rest : Bytes)

/-- The end of a read: `count` octets go to `buf` at `off`, fewer if the stream
ends, and the PDU is the first `total` octets of the buffer. -/
def readRest (buf rest : Bytes) (kind : PduKind) (off count total : Nat) : ReadPdu :=
  let buf := writeAt buf off (rest.take count)
  .pdu kind (buf.take total) buf (rest.drop count)

/-- Read one PDU from the blocking stream into `buf`. -/
def readOneRdpPdu (buf stream : Bytes) : ReadPdu :=
  match stream with
  | [] => .eof
  | lead :: stream =>
    let cap := buf.length
    let buf := writeAt buf 0 [lead]
    if lead = 0x03 then
      if stream.length < 3 then .error
      else
        let buf := writeAt buf 1 (stream.take 3)
        match rdpTpktParseHdr buf with
        | none => .error
        | some length =>
          if length > cap then .error
          else readRest buf (stream.drop 3) .tpkt 4 (length - 4) length
    else if stream.length < 1 then .error
    else
      let buf := writeAt buf 1 (stream.take 1)
      if (buf.getD 1 0).toNat &&& 0x80 = 0 then
        let total := if (buf.getD 1 0).toNat < 2 then 2 else (buf.getD 1 0).toNat
        if total > cap then .error
        else readRest buf (stream.drop 1) .fastpath 2 (total - 2) total
      else
        let buf := writeAt buf 2 ((stream.drop 1).take 1)
        let announced := ((buf.getD 1 0).toNat &&& 0x7f) <<< 8 ||| (buf.getD 2 0).toNat
        let total := if announced < 3 then 3 else announced
        if total > cap then .error
        else readRest buf (stream.drop 2) .fastpath 3 (total - 3) total

def readPdus : (count : Nat) → (buf stream : Bytes) → List (PduKind × Bytes)
  | 0, _, _ => []
  | count + 1, buf, stream =>
    match readOneRdpPdu buf stream with
    | .eof => []
    | .error => []
    | .pdu kind bytes buf rest => (kind, bytes) :: readPdus count buf rest

open List

section Framer

variable {front rest : Bytes} {kind : PduKind}

theorem rdpTpktParseHdr_append (long : 4 ≤ front.length) :
    rdpTpktParseHdr (front ++ rest) = rdpTpktParseHdr front := by
  have first : (front ++ rest).getD 0 0 = front.getD 0 0 := getD_append _ _ _ _ (by omega)
  have second : (front ++ rest).getD 1 0 = front.getD 1 0 := getD_append _ _ _ _ (by omega)
  have third : (front ++ rest).getD 2 0 = front.getD 2 0 := getD_append _ _ _ _ (by omega)
  have fourth : (front ++ rest).getD 3 0 = front.getD 3 0 := getD_append _ _ _ _ (by omega)
  simp only [rdpTpktParseHdr, first, second, third, fourth]

/-- The header at the front of a stream: its length, and the PDU that it announces unless it is
malformed. -/
inductive Heads (p : Bytes) : Nat → Option (PduKind × Nat) → Prop where
  | tpkt (lead : p.getD 0 0 = 0x03) : Heads p 4 ((rdpTpktParseHdr p).map (PduKind.tpkt, ·))
  | short (other : p.getD 0 0 ≠ 0x03) (single : (p.getD 1 0).toNat &&& 0x80 = 0) :
      Heads p 2 (some (.fastpath, if (p.getD 1 0).toNat < 2 then 2 else (p.getD 1 0).toNat))
  | long (other : p.getD 0 0 ≠ 0x03) (double : ¬ (p.getD 1 0).toNat &&& 0x80 = 0)
      (announced : Nat)
      (same : announced = ((p.getD 1 0).toNat &&& 0x7f) <<< 8 ||| (p.getD 2 0).toNat) :
      Heads p 3 (some (.fastpath, if announced < 3 then 3 else announced))

theorem exists_heads (p : Bytes) : ∃ header announced, Heads p header announced := by
  by_cases lead : p.getD 0 0 = 0x03
  · exact ⟨_, _, .tpkt lead⟩
  · by_cases single : (p.getD 1 0).toNat &&& 0x80 = 0
    · exact ⟨_, _, .short lead single⟩
    · exact ⟨_, _, .long lead single _ rfl⟩

def announces (p : Bytes) : Option (PduKind × Nat) → Verdict PduKind
  | none => .malformed
  | some (kind, total) => if p.length < total then .more else .item kind total

variable {header : Nat} {announced : Option (PduKind × Nat)}

variable {length : Nat}

theorem le_of_rdpTpktParseHdr (parsed : rdpTpktParseHdr front = some length) :
    7 ≤ length := by
  unfold rdpTpktParseHdr at parsed
  dsimp only at parsed
  split_ifs at parsed with _ _ tiny
  cases parsed
  exact Nat.le_of_not_lt tiny

section

variable (heads : Heads front header announced)
include heads

theorem Heads.le : 2 ≤ header ∧ ∀ kind total, announced = some (kind, total) → header ≤ total := by
  cases heads with
  | tpkt lead =>
    refine ⟨by decide, fun kind total said => ?_⟩
    obtain ⟨length, parsed, same⟩ := Option.map_eq_some_iff.1 said
    cases same
    exact le_trans (by decide) (le_of_rdpTpktParseHdr parsed)
  | short | long =>
    refine ⟨by decide, fun kind total said => ?_⟩
    cases said
    split <;> omega

theorem Heads.append (inside : header ≤ front.length) : Heads (front ++ rest) header announced := by
  have same : ∀ i < header, (front ++ rest).getD i 0 = front.getD i 0 :=
    fun i before => getD_append _ _ _ _ (by omega)
  cases heads with
  | tpkt lead =>
    rw [← rdpTpktParseHdr_append inside]
    exact .tpkt ((same 0 (by decide)).trans lead)
  | short other single =>
    rw [← same 0 (by decide)] at other
    rw [← same 1 (by decide)] at single ⊢
    exact .short other single
  | long other double announced equal =>
    rw [← same 0 (by decide)] at other
    rw [← same 1 (by decide)] at double equal
    rw [← same 2 (by decide)] at equal
    exact .long other double announced equal

theorem frameOnePdu_eq :
    frameOnePdu front = if front.length < header then .more else announces front announced := by
  unfold frameOnePdu
  by_cases empty : front.length < 1
  · have headed := heads.le.1
    rw [if_pos empty, if_pos (by omega)]
  rw [if_neg empty]
  cases heads with
  | tpkt lead =>
    rw [if_pos lead]
    cases parsed : rdpTpktParseHdr front with
    | none => rfl
    | some length =>
      have long := le_of_rdpTpktParseHdr parsed
      dsimp only [Option.map_some, announces]
      rw [if_neg (by omega : ¬ length < 4)]
  | short other single =>
    rw [if_neg other, if_pos single]
    rfl
  | long other double announced equal =>
    subst equal
    rw [if_neg other, if_neg double]
    by_cases two : front.length < 2
    · rw [if_pos two, if_pos (by omega)]
    · rw [if_neg two]
      rfl

end

theorem frameOnePdu_append (decided : frameOnePdu front ≠ .more) :
    frameOnePdu (front ++ rest) = frameOnePdu front := by
  obtain ⟨header, announced, heads⟩ := exists_heads front
  rw [frameOnePdu_eq heads] at decided ⊢
  have enough : ∀ {n : Nat}, ¬ front.length < n → ¬ (front ++ rest).length < n := by
    rw [length_append]
    omega
  by_cases short : front.length < header
  · rw [if_pos short] at decided
    exact absurd rfl decided
  rw [frameOnePdu_eq (heads.append (by omega)), if_neg short, if_neg (enough short)]
  rw [if_neg short] at decided
  rcases announced with _ | ⟨kind, total⟩
  · rfl
  · dsimp only [announces] at decided ⊢
    by_cases more : front.length < total
    · rw [if_pos more] at decided
      exact absurd rfl decided
    · rw [if_neg more, if_neg (enough more)]

theorem heads_of_item (said : frameOnePdu front = .item kind length) :
    ∃ header, Heads front header (some (kind, length)) ∧ header ≤ length ∧
      length ≤ front.length := by
  obtain ⟨header, announced, heads⟩ := exists_heads front
  have le := heads.le.2
  rw [frameOnePdu_eq heads] at said
  rcases announced with _ | ⟨kind', total⟩
  · split_ifs at said
    cases said
  · dsimp only [announces] at said
    split_ifs at said with _ more
    cases said
    exact ⟨header, heads, le kind length rfl, Nat.le_of_not_lt more⟩

theorem frameOnePdu_proper (said : frameOnePdu front = .item kind length) :
    2 ≤ length ∧ length ≤ front.length := by
  obtain ⟨header, heads, shorter, inside⟩ := heads_of_item said
  exact ⟨le_trans heads.le.1 shorter, inside⟩

def pduFramer : Framer UInt8 PduKind where
  verdict := frameOnePdu
  stable := fun _ _ decided => frameOnePdu_append decided
  proper := fun _ _ _ said => ⟨by have := frameOnePdu_proper said; omega,
    (frameOnePdu_proper said).2⟩

def framePdus (stream : Bytes) : Framed UInt8 PduKind := frame pduFramer pduCap stream

end Framer

section Loop

variable {s : Steady} {stream : Bytes}

def Steady.receiver (s : Steady) : Receiver UInt8 PduKind where
  produced := s.produced
  consumed := s.position
  held := rdpTlsInData s.tls
  stopped := s.status == .malformed

def Steady.Sound (s : Steady) : Prop := s.tls.off ≤ s.tls.data.length

theorem rdpTlsInData_compact (t : TlsIn) (inside : t.off ≤ t.data.length) :
    rdpTlsInData t.compact = rdpTlsInData t ∧ t.compact.off ≤ t.compact.data.length := by
  unfold TlsIn.compact rdpTlsInData
  by_cases moved : t.off > 0
  · rw [if_pos moved]
    by_cases drained : t.off = t.data.length
    · rw [if_pos drained, drained, drop_length]
      exact ⟨rfl, Nat.le_refl _⟩
    · rw [if_neg drained]
      exact ⟨rfl, Nat.zero_le _⟩
  · rw [if_neg moved]
    exact ⟨rfl, inside⟩

theorem rdpTlsInData_fill (t : TlsIn) (inside : t.off ≤ t.data.length) (chunk : Bytes) :
    rdpTlsInData (t.fill chunk) = rdpTlsInData t ++ chunk ∧
      (t.fill chunk).off ≤ (t.fill chunk).data.length := by
  obtain ⟨same, within⟩ := rdpTlsInData_compact t inside
  constructor
  · rw [← same]
    exact drop_append_of_le_length within
  · exact le_trans within (by rw [TlsIn.fill, length_append]; exact Nat.le_add_right _ _)

theorem rdpTlsInData_consume (t : TlsIn) {n : Nat} (held : n ≤ (rdpTlsInData t).length)
    (inside : t.off ≤ t.data.length) :
    rdpTlsInData (rdpTlsInConsume t n) = (rdpTlsInData t).drop n ∧
      (rdpTlsInConsume t n).off ≤ (rdpTlsInConsume t n).data.length := by
  rw [rdpTlsInData, length_drop] at held
  have within : ¬ t.off + n > t.data.length := by omega
  simp only [rdpTlsInConsume, rdpTlsInData, within, ↓reduceIte, drop_drop, true_and]
  omega

theorem Steady.frameBuffered_receiver (sound : s.Sound) (running : s.status = .running) :
    s.frameBuffered.receiver = s.receiver.frameStep pduFramer pduCap ∧ s.frameBuffered.Sound ∧
      (s.frameBuffered.status = .running ∨ s.frameBuffered.status = .malformed) := by
  have going : s.receiver.stopped = false := by
    rw [Steady.receiver, running]
    rfl
  unfold Steady.frameBuffered
  cases said : frameOnePdu (rdpTlsInData s.tls) with
  | more => exact ⟨(Receiver.frameStep_idle (.inr said)).symm, sound, .inl running⟩
  | malformed =>
    rw [Receiver.frameStep_malformed going said]
    exact ⟨rfl, sound, .inr rfl⟩
  | item kind length =>
    have held := (frameOnePdu_proper said).2
    obtain ⟨left, within⟩ := rdpTlsInData_consume s.tls held sound
    rw [Receiver.frameStep_item going said]
    refine ⟨?_, within, .inl running⟩
    simp only [Steady.receiver, left, kept, length_take, min_eq_left held]
    by_cases long : length > pduCap
    · simp [long]
    · simp [long]

def received (found : List (Option TlsRead)) : Bytes :=
  found.flatMap fun
    | some (.data chunk) => chunk
    | _ => []

def Open (found : List (Option TlsRead)) : Prop :=
  ∀ read ∈ found, read ≠ some .eof ∧ read ≠ some .fatal

/-- What holds of the loop after any polls and reads of an open connection. -/
structure Steady.Inv (s : Steady) (stream : Bytes) : Prop where
  sound : s.Sound
  status : s.status = .running ∨ s.status = .malformed
  frames : s.receiver.Frames pduFramer pduCap stream

theorem Steady.Inv.stopped (inv : s.Inv stream) (ended : s.status ≠ .running)
    (chunk : Bytes) : s.Inv (stream ++ chunk) := by
  have malformed := inv.status.resolve_left ended
  refine ⟨inv.sound, inv.status, ?_⟩
  have still : s.receiver.stopped = true := by
    rw [Steady.receiver, malformed]
    rfl
  intro future
  have later := inv.frames (chunk ++ future)
  rw [← append_assoc, if_pos still] at later
  rw [later, if_pos still]

theorem Steady.Inv.frameBuffered (inv : s.Inv stream) (running : s.status = .running) :
    s.frameBuffered.Inv stream := by
  obtain ⟨same, sound, status⟩ := s.frameBuffered_receiver inv.sound running
  refine ⟨sound, status, ?_⟩
  rw [same]
  exact inv.frames.frameStep

theorem Steady.iterate_stopped (ended : s.status ≠ .running) (found : Option TlsRead) :
    s.iterate found = s :=
  if_neg ended

theorem Steady.Inv.iterate (inv : s.Inv stream) {found : Option TlsRead}
    (stays : found ≠ some .eof ∧ found ≠ some .fatal) :
    (s.iterate found).Inv (stream ++ received [found]) := by
  by_cases running : s.status = .running
  · unfold Steady.iterate
    rw [if_pos running]
    rcases found with _ | ⟨chunk | _ | _ | _⟩
    · rw [show received [none] = [] from rfl, append_nil]
      exact inv.frameBuffered running
    · obtain ⟨held, within⟩ := rdpTlsInData_fill s.tls inv.sound chunk
      rw [show received [some (.data chunk)] = chunk from append_nil _]
      refine Steady.Inv.frameBuffered ⟨within, inv.status, ?_⟩ running
      have appended : ({ s with tls := s.tls.fill chunk } : Steady).receiver =
          s.receiver.receive chunk := by
        simp only [Steady.receiver, Receiver.receive, held]
      rw [appended]
      exact inv.frames.receive chunk
    · exact absurd rfl stays.1
    · obtain ⟨held, within⟩ := rdpTlsInData_compact s.tls inv.sound
      rw [show received [some .wouldBlock] = [] from rfl, append_nil]
      refine Steady.Inv.frameBuffered ⟨within, inv.status, ?_⟩ running
      have same : ({ s with tls := s.tls.compact } : Steady).receiver = s.receiver := by
        simp only [Steady.receiver, held]
      rw [same]
      exact inv.frames
    · exact absurd rfl stays.2
  · rw [Steady.iterate_stopped running]
    exact inv.stopped running _

theorem received_append (first second : List (Option TlsRead)) :
    received (first ++ second) = received first ++ received second :=
  flatMap_append

theorem steadyRun_inv (found : List (Option TlsRead)) :
    Open found → (steadyRun found).Inv (received found) := by
  induction found using reverseRecOn with
  | nil => intro _; exact ⟨le_rfl, .inl rfl, frames_start⟩
  | append_singleton found read ih =>
    intro stays
    have inv := ih fun earlier member => stays earlier (mem_append_left _ member)
    have here := stays read (mem_append_right _ (mem_singleton_self read))
    rw [received_append, steadyRun, foldl_append]
    exact inv.iterate here

end Loop

open List

section Read

variable {buf : Bytes}

theorem writeAt_zero (buf block : Bytes) :
    writeAt buf 0 block = block ++ buf.drop block.length := by
  rw [writeAt, take_zero, nil_append, Nat.zero_add]

theorem writeAt_next (off : Nat) (buf front block : Bytes) (ends : off = front.length) :
    writeAt (writeAt buf 0 front) off block = writeAt buf 0 (front ++ block) := by
  rw [ends, writeAt_zero, writeAt_zero, writeAt, take_left, drop_append, Nat.add_sub_cancel_left,
    drop_of_length_le (Nat.le_add_right _ _), nil_append, drop_drop, length_append]

theorem getD_writeAt (buf front : Bytes) {i : Nat} (inside : i < front.length) :
    (writeAt buf 0 front).getD i 0 = front.getD i 0 := by
  rw [writeAt_zero, getD_append _ _ _ _ inside]

theorem readRest_whole {off count : Nat} (buf front body rest : Bytes) (kind : PduKind)
    (ends : off = front.length) (left : count = body.length) :
    readRest (writeAt buf 0 front) (body ++ rest) kind off count (front ++ body).length =
      .pdu kind (front ++ body) (writeAt buf 0 (front ++ body)) rest := by
  rw [readRest, left, take_left, drop_left, writeAt_next _ _ _ _ ends, writeAt_zero, take_left]

/-- A complete PDU that fits the buffer is read as it is. -/
theorem readOneRdpPdu_complete {bytes : Bytes} {kind : PduKind}
    (said : frameOnePdu bytes = .item kind bytes.length) (fits : bytes.length ≤ buf.length)
    (rest : Bytes) :
    readOneRdpPdu buf (bytes ++ rest) = .pdu kind bytes (writeAt buf 0 bytes) rest := by
  obtain ⟨header, heads, long, _⟩ := heads_of_item said
  have small : ¬ bytes.length > buf.length := Nat.not_lt.2 fits
  generalize total : bytes.length = length at heads small long
  generalize announced : some (kind, length) = pdu at heads
  cases heads with
  | tpkt lead =>
    obtain ⟨_, parsed, same⟩ := Option.map_eq_some_iff.1 announced.symm
    cases same
    rcases bytes with _ | ⟨a, _ | ⟨b, _ | ⟨c, _ | ⟨d, body⟩⟩⟩⟩
    any_goals (simp only [length_nil, length_cons] at total; omega)
    have lead : a = 0x03 := lead
    have header : rdpTpktParseHdr (writeAt buf 0 [a, b, c, d]) = some length := by
      rw [← parsed]
      rfl
    have whole := readRest_whole buf [a, b, c, d] body rest .tpkt rfl rfl
    simp only [readOneRdpPdu, cons_append, nil_append, lead, ↓reduceIte, length_cons,
      take_succ_cons, take_zero, writeAt_next 1 buf [0x03] _ rfl] at header whole ⊢
    rw [header]
    dsimp only
    rw [if_neg small, ← total]
    exact whole
  | short other single =>
    obtain ⟨rfl, same⟩ := Prod.mk.inj (Option.some.inj announced)
    rcases bytes with _ | ⟨a, _ | ⟨b, body⟩⟩
    any_goals (simp only [length_nil, length_cons] at total; omega)
    have whole := readRest_whole buf [a, b] body rest .fastpath rfl rfl
    simp only [readOneRdpPdu, cons_append, nil_append, length_cons, getD_cons_zero,
      getD_cons_succ, take_succ_cons, take_zero, writeAt_next 1 buf [a] _ rfl,
      getD_writeAt buf [a, b] (by decide : 1 < 2)] at other single same whole ⊢
    rw [if_neg other, if_pos single, ← same, if_neg small, ← total]
    exact whole
  | long other double size equal =>
    obtain ⟨rfl, same⟩ := Prod.mk.inj (Option.some.inj announced)
    rcases bytes with _ | ⟨a, _ | ⟨b, _ | ⟨c, body⟩⟩⟩
    any_goals (simp only [length_nil, length_cons] at total; omega)
    have whole := readRest_whole buf [a, b, c] body rest .fastpath rfl rfl
    simp only [readOneRdpPdu, cons_append, nil_append, length_cons, getD_cons_zero,
      getD_cons_succ, take_succ_cons, take_zero, drop_succ_cons, drop_zero,
      writeAt_next 1 buf [a] _ rfl, writeAt_next 2 buf [a, b] _ rfl,
      getD_writeAt buf [a, b] (by decide : 1 < 2), getD_writeAt buf [a, b, c] (by decide : 1 < 3),
      getD_writeAt buf [a, b, c] (by decide : 2 < 3)] at other double equal whole ⊢
    rw [if_neg other, if_neg double, ← equal, ← same, if_neg small, ← total]
    exact whole

end Read

section Stream

def CompletePdus (pdus : List (PduKind × Bytes)) : Prop :=
  ∀ pdu ∈ pdus, frameOnePdu pdu.2 = .item pdu.1 pdu.2.length ∧ pdu.2.length ≤ pduCap

variable (pdus : List (PduKind × Bytes))

theorem framePdus_complete (complete : CompletePdus pdus) :
    framePdus (pdus.flatMap Prod.snd) = ⟨pdus, none⟩ := by
  induction pdus with
  | nil => exact frame_more pduFramer pduCap rfl
  | cons pdu rest ih =>
    obtain ⟨said, short⟩ := complete pdu (mem_cons_self ..)
    have later := ih fun other member => complete other (mem_cons_of_mem _ member)
    have decided : frameOnePdu pdu.2 ≠ .more := by
      rw [said]
      exact nofun
    have whole : pduFramer.verdict (pdu.2 ++ rest.flatMap Prod.snd) = .item pdu.1 pdu.2.length :=
      (frameOnePdu_append decided).trans said
    rw [flatMap_cons, framePdus, frame_item pduFramer pduCap whole, drop_left, take_left]
    rw [framePdus] at later
    rw [later, kept, if_neg (Nat.not_lt.2 short)]
    rfl

def readAllPdus (buf stream : Bytes) : List (PduKind × Bytes) :=
  readPdus (stream.length + 1) buf stream

theorem readPdus_complete (complete : CompletePdus pdus) :
    ∀ {count : Nat} {buf : Bytes}, pdus.length < count → pduCap ≤ buf.length →
      readPdus count buf (pdus.flatMap Prod.snd) = pdus := by
  induction pdus with
  | nil =>
    intro count buf enough room
    obtain ⟨left, rfl⟩ : ∃ left, count = left + 1 := ⟨count - 1, by omega⟩
    rfl
  | cons pdu rest ih =>
    intro count buf enough room
    obtain ⟨said, short⟩ := complete pdu (mem_cons_self ..)
    obtain ⟨left, rfl⟩ : ∃ left, count = left + 1 := ⟨count - 1, by omega⟩
    rw [length_cons] at enough
    have fits := le_trans short room
    have length : (writeAt buf 0 pdu.2).length = buf.length := length_writeAt (by omega)
    rw [flatMap_cons, readPdus, readOneRdpPdu_complete said fits]
    dsimp only
    rw [ih (fun other member => complete other (mem_cons_of_mem _ member)) (by omega) (by omega)]

theorem length_le_flatMap (complete : CompletePdus pdus) :
    pdus.length ≤ (pdus.flatMap Prod.snd).length := by
  induction pdus with
  | nil => exact le_rfl
  | cons pdu rest ih =>
    have proper := (frameOnePdu_proper (complete pdu (mem_cons_self ..)).1).1
    have later := ih fun other member => complete other (mem_cons_of_mem _ member)
    rw [flatMap_cons, length_append, length_cons]
    omega

end Stream

section End

variable {s : Steady} {stream : Bytes} {found : List (Option TlsRead)}

/-- What the loop made of the stream: the PDUs it handed on, and where it met
malformed framing. -/
def Steady.outcome (s : Steady) : Framed UInt8 PduKind :=
  ⟨s.produced, if s.status = .malformed then some s.position else none⟩

theorem Steady.outcome_receiver (s : Steady) : s.outcome = s.receiver.outcome := by
  simp [Steady.outcome, Receiver.outcome, Steady.receiver]

theorem Steady.Inv.iterate_quiet (inv : s.Inv stream) :
    (s.iterate none).receiver = s.receiver.frameStep pduFramer pduCap := by
  by_cases running : s.status = .running
  · unfold Steady.iterate
    rw [if_pos running]
    exact (s.frameBuffered_receiver inv.sound running).1
  · have malformed := inv.status.resolve_left running
    rw [Steady.iterate_stopped running]
    rw [Steady.receiver, malformed]
    rfl

theorem open_replicate (stays : Open found) (passes : Nat) :
    Open (found ++ List.replicate passes none) := by
  intro read member
  rcases mem_append.1 member with early | late
  · exact stays read early
  · rw [eq_of_mem_replicate late]
    constructor <;> intro absurd <;> cases absurd

theorem steadyRun_quiet (stays : Open found) (passes : Nat) :
    (steadyRun (found ++ List.replicate passes none)).receiver =
      (Receiver.frameStep pduFramer pduCap)^[passes] (steadyRun found).receiver := by
  induction passes with
  | zero => rw [replicate_zero, append_nil, Function.iterate_zero_apply]
  | succ passes ih =>
    have inv := steadyRun_inv _ (open_replicate stays passes)
    rw [Function.iterate_succ_apply', ← ih, replicate_succ', ← append_assoc]
    rw [steadyRun, foldl_append]
    exact inv.iterate_quiet

theorem steadyRun_eof (found : List (Option TlsRead)) :
    (steadyRun (found ++ [some .eof])).outcome =
      if (steadyRun found).status = .running then ⟨(steadyRun found).produced, none⟩
      else (steadyRun found).outcome := by
  have last : steadyRun (found ++ [some .eof]) = (steadyRun found).iterate (some .eof) := by
    rw [steadyRun, foldl_append]
    rfl
  rw [last]
  by_cases running : (steadyRun found).status = .running
  · unfold Steady.iterate
    rw [if_pos running, if_pos running]
    rfl
  · rw [Steady.iterate_stopped running, if_neg running]

/-- **Framing does not depend on how the octets arrive.** Whatever the polls and
reads of a connection were, what the loop has handed on when the stream ends is
the framing of the whole stream, malformed at the same position, exactly if it
met malformed framing or holds nothing more to frame. If the connection stays
open, it gets there after some iterations. For a stream of complete PDUs that
fit the buffer, reading them one by one gives the same PDUs. -/
theorem outcome_eq_framing_iff_drained {found : List (Option TlsRead)} (stays : Open found) :
    ((steadyRun (found ++ [some .eof])).outcome = framePdus (received found) ↔
      (steadyRun found).status = .malformed ∨
        framePdus (rdpTlsInData (steadyRun found).tls) = ⟨[], none⟩) ∧
    (∃ passes, (steadyRun (found ++ List.replicate passes none)).outcome =
      framePdus (received found)) ∧
    ∀ pdus buf, CompletePdus pdus → pduCap ≤ buf.length → received found = pdus.flatMap Prod.snd →
      readAllPdus buf (received found) = (framePdus (received found)).items := by
  have inv := steadyRun_inv found stays
  refine ⟨?_, ?_, ?_⟩
  · have same : (steadyRun (found ++ [some .eof])).outcome =
      (steadyRun found).receiver.outcome := by
      rw [steadyRun_eof, ← Steady.outcome_receiver]
      by_cases running : (steadyRun found).status = .running
      · rw [if_pos running, Steady.outcome, running]
        rfl
      · rw [if_neg running]
    rw [same]
    refine inv.frames.outcome_eq_iff.trans (or_congr_left ?_)
    rw [Steady.receiver]
    exact beq_iff_eq
  · refine ⟨(rdpTlsInData (steadyRun found).tls).length + 1, ?_⟩
    have later := steadyRun_inv _
      (open_replicate stays ((rdpTlsInData (steadyRun found).tls).length + 1))
    rw [Steady.outcome_receiver]
    have drained := (later.frames.outcome_eq_iff).2 (by
      rw [steadyRun_quiet stays]
      exact Receiver.frameStep_drains _ _ (Nat.lt_succ_self _))
    have quiet : received (replicate ((rdpTlsInData (steadyRun found).tls).length + 1) none) =
        [] := by
      rw [received, flatMap_replicate]
      simp
    rw [received_append, quiet, append_nil] at drained
    exact drained
  · intro pdus buf complete room made
    have few := length_le_flatMap pdus complete
    rw [made, framePdus_complete pdus complete]
    exact readPdus_complete pdus complete (by omega) room

def cutReads : List (Option TlsRead) := [some (.data [0, 2, 0]), none, some (.data [3, 9, 0, 2])]

/-- Three fast-path PDUs, one of them cut, over two reads. -/
theorem outcome_eq_framing_cut :
    (framePdus (received cutReads)).items.length = 3 ∧
    ((steadyRun (cutReads ++ [some .eof])).outcome = framePdus (received cutReads) ↔
      (steadyRun cutReads).status = .malformed ∨
        framePdus (rdpTlsInData (steadyRun cutReads).tls) = ⟨[], none⟩) ∧
    (∃ passes, (steadyRun (cutReads ++ List.replicate passes none)).outcome =
      framePdus (received cutReads)) ∧
    ∀ pdus buf, CompletePdus pdus → pduCap ≤ buf.length →
      received cutReads = pdus.flatMap Prod.snd →
      readAllPdus buf (received cutReads) = (framePdus (received cutReads)).items := by
  have stays : Open cutReads := by simp [Open, cutReads]
  exact ⟨by decide, outcome_eq_framing_iff_drained stays⟩

/-- Two fast-path PDUs in one read before the end of the stream: the second one
is lost. -/
theorem outcome_ne_framing_two_pdus :
    (steadyRun ([some (.data [0, 2, 0, 2])] ++ [some .eof])).outcome ≠
      framePdus (received [some (.data [0, 2, 0, 2])]) := by
  decide

end End

end RdpServer
