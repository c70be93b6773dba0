import RdpServer.Channels.Drdynvc
import RdpServer.Lib.Mux

/-!
# The dynamic channels do not mix

A client sends the PDUs of each channel whole or in fragments, with any width for
the id and the total length that holds them, and interleaves the channels as it
likes. Each channel gets its own PDUs that are not empty, complete and in order
(`deliveries_isolated`). The worker passes nothing on for an empty PDU
(`emptyPdu_not_delivered`).
-/

namespace RdpServer.Channels

open Bytes List

/-- A PDU of a channel, as one `DATA` or from a `DATA_FIRST` on. -/
inductive Sending where
  | whole (data : Bytes)
  | split (first : Bytes) (rest : List Bytes)
  deriving DecidableEq

namespace Sending

def pdu : Sending → Bytes
  | whole data => data
  | split first rest => first ++ rest.flatten

def fragments : Sending → List Fragment
  | whole data => [.data data]
  | split first rest => .dataFirst (first ++ rest.flatten).length first :: rest.map .data

/-- A `DATA_FIRST` announces between one byte and 4 MiB. -/
def Sized : Sending → Prop
  | whole _ => True
  | split first rest =>
    1 ≤ (first ++ rest.flatten).length ∧ (first ++ rest.flatten).length ≤ 4 * 1024 * 1024

end Sending

structure Packet where
  cbId : Nat
  sp : Nat
  fragment : Fragment
  deriving DecidableEq

namespace Packet

def header (p : Packet) (cmd : Nat) : UInt8 := low (cmd * 16 + p.sp * 4 + p.cbId)

def encode (p : Packet) (id : Nat) : Bytes :=
  match p.fragment with
  | .dataFirst totalLen data =>
    p.header 2 :: (leBytes (2 ^ p.cbId) id ++ (leBytes (2 ^ p.sp) totalLen ++ data))
  | .data data => p.header 3 :: (leBytes (2 ^ p.cbId) id ++ data)

structure Fits (p : Packet) (id : Nat) : Prop where
  cbId : p.cbId < 3
  sp : p.sp < 4
  id : id < 256 ^ 2 ^ p.cbId
  total : ∀ totalLen data, p.fragment = .dataFirst totalLen data →
    p.sp < 3 ∧ totalLen < 256 ^ 2 ^ p.sp

end Packet

/-- What the worker passes on after an outcome; it skips data of length 0. -/
def DvcOutcome.delivered (outcome : DvcOutcome) : List (Dvc × Bytes) :=
  ((Dvc.all.find? fun c => c.dataCode == outcome.code).map fun c =>
    (outcome.data.toList.filter (· ≠ [])).map fun pdu => (c, pdu)).getD []

namespace Drdynvc

def receive (respCap : Nat) (st : Drdynvc) (pdu : Bytes) :
    Drdynvc × List (Dvc × Bytes) :=
  ((st.handle pdu respCap).1, (st.handle pdu respCap).2.delivered)

def deliveries (respCap : Nat) (st : Drdynvc) (pdus : List Bytes) :
    List (Dvc × Bytes) :=
  Mux.outputs (receive respCap) st pdus

def IsOpen (st : Drdynvc) (c : Dvc) : Prop := c.takes (st.channel c).channelId = true

instance (st : Drdynvc) (c : Dvc) : Decidable (st.IsOpen c) :=
  inferInstanceAs (Decidable (_ = true))

/-- Open channels with distinct ids and nothing in progress, and the fragments of the
PDUs of each channel in some order. -/
structure Interleaves (st : Drdynvc) (id : Dvc → Nat) (sent : Dvc → List Sending)
    (trace : List (Dvc × Packet)) : Prop where
  opened : ∀ c, sent c ≠ [] → st.IsOpen c ∧ signed32 (id c) = (st.channel c).channelId
  distinct : ∀ c d, st.IsOpen c → st.IsOpen d →
    (st.channel c).channelId = (st.channel d).channelId → c = d
  idle : ∀ c, (st.channel c).reasm.total = 0
  fits : ∀ entry ∈ trace, entry.2.Fits (id entry.1)
  sized : ∀ c, ∀ sending ∈ sent c, sending.Sized
  streams : ∀ c, (Mux.only c trace).map Packet.fragment = (sent c).flatMap Sending.fragments

end Drdynvc

def Fed.pdus : Fed → List Bytes
  | complete pdu => [pdu].filter (· ≠ [])
  | _ => []

theorem Fed.eq_of_mem_pdus {data pdu : Bytes} (member : pdu ∈ (complete data).pdus) :
    pdu = data := mem_singleton.1 (mem_filter.1 member).1

namespace DvcReasm

def accept (r : DvcReasm) (fragment : Fragment) : DvcReasm × List Bytes :=
  ((r.feed fragment).1, (r.feed fragment).2.pdus)

variable {r : DvcReasm}

theorem passed {pdu : Bytes} (some : pdu ≠ []) : [pdu].filter (· ≠ []) = [pdu] :=
  filter_cons_of_pos (decide_eq_true some)

/-- Empty fragments with nothing in progress are PDUs that are not passed on. -/
theorem accept_empties {rest : List Bytes} (idle : r.total = 0) (empty : rest.flatten = []) :
    Mux.outputs accept r (rest.map .data) = [] ∧
      (Mux.after accept r (rest.map .data)).total = 0 := by
  induction rest with
  | nil => exact ⟨rfl, idle⟩
  | cons data rest ih =>
    obtain ⟨none, others⟩ := append_eq_nil_iff.1 (flatten_cons.symm.trans empty)
    have fed : r.accept (.data data) = (r, []) := by
      rw [none, accept, feed, if_pos idle]
      rfl
    rw [map_cons, Mux.outputs, Mux.after, foldl_cons, fed]
    exact ih others

/-- The fragment that completes a PDU may have empty ones behind it. -/
theorem accept_rest (rest : List Bytes) (short : r.buf.length < r.total)
    (adds : (r.buf ++ rest.flatten).length = r.total) :
    Mux.outputs accept r (rest.map .data) = [r.buf ++ rest.flatten] ∧
      (Mux.after accept r (rest.map .data)).total = 0 := by
  induction rest generalizing r with
  | nil =>
    rw [flatten_nil, append_nil] at adds
    omega
  | cons data rest ih =>
    have joined : r.buf ++ (data :: rest).flatten = (r.buf ++ data) ++ rest.flatten := by
      rw [flatten_cons, append_assoc]
    rw [joined] at adds ⊢
    have room : r.buf.length + data.length ≤ r.total := by
      rw [length_append, length_append] at adds
      omega
    rw [map_cons, Mux.outputs, Mux.after, foldl_cons, accept, feed, if_neg (by omega), collect,
      take_of_length_le (by omega)]
    by_cases partly : (r.buf ++ data).length < r.total
    · rw [if_pos partly]
      exact ih partly adds
    · have none : rest.flatten = [] := by
        rw [length_append] at adds
        exact length_eq_zero_iff.1 (by omega)
      have some : r.buf ++ data ≠ [] := by
        rintro empty
        rw [empty] at partly
        exact partly (Nat.zero_lt_of_lt short)
      obtain ⟨silent, idle⟩ := accept_empties (r := {}) rfl none
      rw [if_neg partly, none, append_nil]
      rw [silent, Fed.pdus, passed some]
      exact ⟨rfl, idle⟩

theorem accept_fragments {sending : Sending} (idle : r.total = 0) (sized : sending.Sized) :
    Mux.outputs accept r sending.fragments = [sending.pdu].filter (· ≠ []) ∧
      (Mux.after accept r sending.fragments).total = 0 := by
  cases sending with
  | whole data =>
    have fed : r.feed (.data data) = (r, .complete data) := by rw [feed, if_pos idle]
    rw [Sending.fragments, Mux.outputs, Mux.after, foldl_cons, accept, fed]
    exact ⟨append_nil _, idle⟩
  | split first rest =>
    obtain ⟨positive, small⟩ := sized
    -- as if the first fragment came behind an empty one
    have fed : r.accept (.dataFirst (first ++ rest.flatten).length first) =
        accept { buf := [], total := (first ++ rest.flatten).length } (.data first) := by
      have some : (first ++ rest.flatten).length ≠ 0 := by omega
      have within : ¬ (first ++ rest.flatten).length > dvcReasmMax := not_lt.2 small
      rw [accept, accept, feed, if_neg (not_or.2 ⟨some, within⟩), feed, if_neg some]
    have some : first ++ rest.flatten ≠ [] := length_pos_iff.1 positive
    have collected := accept_rest (first :: rest) (r := ⟨[], (first ++ rest.flatten).length⟩)
      positive rfl
    rw [Sending.fragments, Mux.outputs, Mux.after, foldl_cons, fed, Sending.pdu, passed some]
    exact collected

theorem accept_sendings {sendings : List Sending} (idle : r.total = 0)
    (sized : ∀ sending ∈ sendings, sending.Sized) :
    Mux.outputs accept r (sendings.flatMap Sending.fragments) =
      (sendings.map Sending.pdu).filter (· ≠ []) := by
  induction sendings generalizing r with
  | nil => rfl
  | cons sending rest ih =>
    rw [forall_mem_cons] at sized
    obtain ⟨delivered, idle⟩ := accept_fragments idle sized.1
    rw [flatMap_cons, Mux.outputs_append, delivered, ih idle sized.2, ← filter_append]
    rfl

end DvcReasm

theorem readSized_leBytes {width value : Nat} (fits : value < 256 ^ width) (rest : Bytes) :
    readSized (leBytes width value ++ rest) width = some (value, width) := by
  have enough : ¬ (leBytes width value ++ rest).length < width := by
    rw [length_append, length_leBytes]
    omega
  rw [readSized, if_neg enough, take_left' (length_leBytes width value),
    leValue_leBytes width value fits]

theorem readChannelId_leBytes {code id : Nat} (coded : code < 3) (fits : id < 256 ^ 2 ^ code)
    (rest : Bytes) :
    readChannelId (leBytes (2 ^ code) id ++ rest) code = some (id, 2 ^ code) :=
  match code, coded, fits with
  | 0, _, fits => readSized_leBytes fits rest
  | 1, _, fits => readSized_leBytes fits rest
  | 2, _, fits => readSized_leBytes fits rest

theorem readTotalLen_leBytes {code totalLen : Nat} (coded : code < 3)
    (fits : totalLen < 256 ^ 2 ^ code) (rest : Bytes) :
    readTotalLen (leBytes (2 ^ code) totalLen ++ rest) code = some (totalLen, 2 ^ code) :=
  match code, coded, fits with
  | 0, _, fits => readSized_leBytes fits rest
  | 1, _, fits => readSized_leBytes fits rest
  | 2, _, fits => readSized_leBytes fits rest

namespace Packet

variable (p : Packet) {cmd : Nat}

theorem toNat_header {id : Nat} (fits : p.Fits id) (small : cmd < 16) :
    (p.header cmd).toNat = cmd * 16 + p.sp * 4 + p.cbId := by
  have cbId := fits.cbId
  have sp := fits.sp
  rw [header, toNat_low]
  omega

theorem handle_encode (st : Drdynvc) {id : Nat} (fits : p.Fits id) (respCap : Nat) :
    st.handle (p.encode id) respCap = st.handleData id p.fragment := by
  have cbId := fits.cbId
  have sp := fits.sp
  unfold encode
  cases fragment : p.fragment with
  | dataFirst totalLen data =>
    obtain ⟨coded, total⟩ := fits.total _ _ fragment
    have named : (p.header 2).toNat / 16 = 2 := by rw [p.toNat_header fits (by decide)]; omega
    have wide : (p.header 2).toNat % 4 = p.cbId := by rw [p.toNat_header fits (by decide)]; omega
    have long : (p.header 2).toNat / 4 % 4 = p.sp := by rw [p.toNat_header fits (by decide)]; omega
    simp [Drdynvc.handle, named, wide, long, readChannelId_leBytes cbId fits.id,
      readTotalLen_leBytes coded total]
  | data data =>
    have named : (p.header 3).toNat / 16 = 3 := by rw [p.toNat_header fits (by decide)]; omega
    have wide : (p.header 3).toNat % 4 = p.cbId := by rw [p.toNat_header fits (by decide)]; omega
    simp [Drdynvc.handle, named, wide, readChannelId_leBytes cbId fits.id]

end Packet

theorem Fed.delivered_outcome (fed : Fed) (c : Dvc) :
    (fed.outcome c).delivered = fed.pdus.map fun pdu => (c, pdu) := by
  cases c <;> cases fed <;> rfl

namespace Drdynvc

variable {st : Drdynvc} {id : Dvc → Nat}

theorem handleData_of_open {c : Dvc} {wire : Nat} (opened : st.IsOpen c)
    (named : signed32 wire = (st.channel c).channelId)
    (distinct : ∀ d, st.IsOpen d → (st.channel c).channelId = (st.channel d).channelId → c = d)
    (fragment : Fragment) :
    st.handleData wire fragment = (st.setChannel
        { st.channel c with reasm := ((st.channel c).reasm.feed fragment).1 } c,
        ((st.channel c).reasm.feed fragment).2.outcome c) := by
  have found : (Dvc.all.find? fun d =>
      signed32 wire == (st.channel d).channelId && d.takes (st.channel d).channelId) = some c := by
    cases search : Dvc.all.find? fun d =>
        signed32 wire == (st.channel d).channelId && d.takes (st.channel d).channelId with
    | none =>
      have member : c ∈ Dvc.all := by cases c <;> decide
      refine absurd ?_ (find?_eq_none.1 search c member)
      rw [named, beq_self_eq_true, opened]
      rfl
    | some d =>
      have matched := find?_some search
      rw [Bool.and_eq_true, beq_iff_eq, named] at matched
      rw [distinct d matched.2 matched.1]
  simp only [handleData, found]

theorem separates (respCap : Nat) (distinct : ∀ c d, st.IsOpen c → st.IsOpen d →
    (st.channel c).channelId = (st.channel d).channelId → c = d) :
    Mux.Separates (fun s => ∀ c, (s.channel c).channelId = (st.channel c).channelId)
      (fun entry : Dvc × Packet => entry.2.Fits (id entry.1) ∧ st.IsOpen entry.1 ∧
        signed32 (id entry.1) = (st.channel entry.1).channelId)
      (fun s entry => receive respCap s (entry.2.encode (id entry.1)))
      (fun r packet => r.accept packet.fragment)
      (fun s c => (s.channel c).reasm) := by
  have received : ∀ {s : Drdynvc} {c : Dvc} {packet : Packet},
      (∀ d, (s.channel d).channelId = (st.channel d).channelId) →
      packet.Fits (id c) ∧ st.IsOpen c ∧ signed32 (id c) = (st.channel c).channelId →
      receive respCap s (packet.encode (id c)) = (s.setChannel
          { s.channel c with reasm := ((s.channel c).reasm.accept packet.fragment).1 } c,
          ((s.channel c).reasm.accept packet.fragment).2.map fun pdu => (c, pdu)) := by
    intro s c packet same ⟨fits, opened, named⟩
    have openNow : ∀ d, s.IsOpen d ↔ st.IsOpen d := fun d => by rw [IsOpen, IsOpen, same d]
    have handled := handleData_of_open ((openNow c).2 opened) (named.trans (same c).symm)
      (fun d there eq => distinct c d opened ((openNow d).1 there)
        ((same c).symm.trans (eq.trans (same d)))) packet.fragment
    rw [receive, packet.handle_encode s fits respCap, handled, Fed.delivered_outcome]
    rfl
  refine ⟨?_, ?_, ?_, ?_⟩
  · rintro s ⟨c, packet⟩ same may d
    rw [received same may]
    by_cases self : d = c
    · rw [self, channel_setChannel_self]
      exact same c
    · rw [channel_setChannel_of_ne _ _ self]
      exact same d
  · intro s c packet same may
    rw [received same may, channel_setChannel_self]
  · intro s c d packet same may other
    rw [received same may, channel_setChannel_of_ne _ _ other]
  · intro s c packet same may
    rw [received same may]

/-- **The channels are isolated**: however the fragments of different channels are
interleaved, each channel gets its PDUs that are not empty, complete, unmodified and in
order. -/
theorem deliveries_isolated {sent : Dvc → List Sending} {trace : List (Dvc × Packet)}
    (interleaves : st.Interleaves id sent trace) (respCap : Nat) (c : Dvc) :
    Mux.only c (st.deliveries respCap (trace.map fun entry => entry.2.encode (id entry.1))) =
      ((sent c).map Sending.pdu).filter (· ≠ []) := by
  have may : ∀ entry ∈ trace, entry.2.Fits (id entry.1) ∧ st.IsOpen entry.1 ∧
      signed32 (id entry.1) = (st.channel entry.1).channelId := by
    intro entry member
    refine ⟨interleaves.fits entry member, interleaves.opened entry.1 fun none => ?_⟩
    have carried := mem_map_of_mem (f := Packet.fragment) (Mux.mem_only_of_mem member)
    rw [interleaves.streams, none] at carried
    cases carried
  rw [deliveries, Mux.outputs_map,
    (separates respCap interleaves.distinct).only_outputs (fun _ => rfl) may c,
    ← Mux.outputs_map DvcReasm.accept Packet.fragment, interleaves.streams]
  exact DvcReasm.accept_sendings (interleaves.idle c) (interleaves.sized c)

def serverId : Dvc → Nat
  | .gfx => 1
  | .audioin => 3
  | .rdpei => 4
  | .camenum => 5
  | .camdev => 6

def graphicsAndCamera : Drdynvc := { gfx := { channelId := 1 }, camdev := { channelId := 6 } }

theorem graphicsAndCamera_distinct (c d : Dvc) (first : graphicsAndCamera.IsOpen c)
    (second : graphicsAndCamera.IsOpen d)
    (same : (graphicsAndCamera.channel c).channelId = (graphicsAndCamera.channel d).channelId) :
    c = d := by
  cases c <;> cases d <;> first | rfl | exact absurd first (by decide) |
    exact absurd second (by decide) | exact absurd same (by decide)

/-- A PDU in three fragments, of which the last adds nothing, around one of the camera,
and an empty PDU. -/
def sampleBetween : List (Dvc × Packet) :=
  [(.gfx, ⟨0, 0, .dataFirst 3 [1]⟩), (.camdev, ⟨1, 0, .data [9]⟩), (.gfx, ⟨2, 0, .data [2, 3]⟩),
    (.gfx, ⟨0, 0, .data []⟩), (.camdev, ⟨0, 0, .data []⟩)]

def sampleBetweenSent : Dvc → List Sending
  | .gfx => [.split [1] [[2, 3], []]]
  | .camdev => [.whole [9], .whole []]
  | _ => []

theorem sampleBetween_interleaves :
    graphicsAndCamera.Interleaves serverId sampleBetweenSent sampleBetween where
  opened c some := by cases c <;> first | decide | exact absurd rfl some
  distinct := graphicsAndCamera_distinct
  idle c := by cases c <;> rfl
  fits := by
    simp only [sampleBetween, forall_mem_cons]
    refine ⟨⟨by decide, by decide, by decide, ?_⟩, ⟨by decide, by decide, by decide, nofun⟩,
      ⟨by decide, by decide, by decide, nofun⟩, ⟨by decide, by decide, by decide, nofun⟩,
      ⟨by decide, by decide, by decide, nofun⟩, forall_mem_nil _⟩
    rintro totalLen data ⟨⟩
    decide
  sized c := by
    cases c <;> simp [sampleBetweenSent, Sending.Sized]
  streams c := by cases c <;> rfl

theorem deliveries_isolated_sampleBetween :
    Mux.only .gfx (graphicsAndCamera.deliveries 64
        (sampleBetween.map fun entry => entry.2.encode (serverId entry.1))) = [[1, 2, 3]] ∧
      Mux.only .camdev (graphicsAndCamera.deliveries 64
        (sampleBetween.map fun entry => entry.2.encode (serverId entry.1))) = [[9]] :=
  ⟨deliveries_isolated sampleBetween_interleaves 64 .gfx,
    deliveries_isolated sampleBetween_interleaves 64 .camdev⟩

/-- Two PDUs are sent to the camera, and one is delivered. -/
theorem emptyPdu_not_delivered :
    graphicsAndCamera.Interleaves serverId sampleBetweenSent sampleBetween ∧
      (sampleBetweenSent .camdev).map Sending.pdu = [[9], []] ∧
      Mux.only .camdev (graphicsAndCamera.deliveries 64
        (sampleBetween.map fun entry => entry.2.encode (serverId entry.1))) = [[9]] :=
  ⟨sampleBetween_interleaves, rfl, by decide⟩

end Drdynvc

end RdpServer.Channels
