import RdpServer.Channels.Vchan
import Mathlib.Data.List.SplitLengths

/-!
# Splitting PDUs for the channels

`conn.c` sends a PDU of a static channel in chunks of 16000 bytes, each in a frame of
its own. A graphics PDU is put into RDP8 segments of 65535 bytes first, and what comes
of it into a PDU of the dynamic channels. The chunks of a PDU reassemble to it
(`feedAll_clipChunks`). The segments tile a graphics PDU as long as their number fits
its 16 bits (`rdp8_tiles_iff`).
-/

namespace RdpServer.Daemon

open Bytes Channels List Option VcReasm

def vcChunkSize : Nat := 16000

def rdpMcsTypeSendDataInd : UInt8 := 0x68

/-- `rdp_mcs_build_send_data_indication`. -/
def rdpMcsBuildSendDataIndication (cap userId channelId : Nat) (payload : Bytes) :
    Option Bytes :=
  let perLenSize := if payload.length < 128 then 1 else 2
  let initiator := (userId + 2 ^ 16 - 1001) % 2 ^ 16
  let header := [rdpMcsTypeSendDataInd, low (initiator / 256), low initiator,
    low (channelId / 256), low channelId, 0x70]
  if 1 + 2 + 2 + 1 + perLenSize + payload.length > cap then none
  else if payload.length < 128 then some (header ++ [low payload.length] ++ payload)
  else if payload.length < 0x4000 then
    some (header ++ [low (0x80 ||| payload.length / 256), low payload.length] ++ payload)
  else none

/-- `rdp_tpkt_encode_hdr`. -/
def rdpTpktEncodeHdr (length : Nat) : Option Bytes :=
  if length < 7 then none else some [3, 0, low (length / 256), low length]

/-- `rdp_x224_build_dt`. -/
def rdpX224BuildDt : Bytes := [0x02, 0xF0, 0x80]

def channelFrame (userId channelId : Nat) (inner : Bytes) : Option Bytes :=
  (rdpMcsBuildSendDataIndication (vcChunkSize + 128 - 4 - 3) userId channelId inner).bind fun mcs =>
    (rdpTpktEncodeHdr ((4 + 3 + mcs.length) % 2 ^ 16)).map fun hdr => hdr ++ rdpX224BuildDt ++ mcs

/-- The loop of `send_clip_pdu`: the chunks of what is left from `off`, with their
headers. -/
def clipChunks (len off : Nat) (rest : Bytes) : List Bytes :=
  match rest with
  | [] => []
  | octet :: others =>
    let chunk := (octet :: others).take vcChunkSize
    let flags := (if off = 0 then channelFlagFirst else 0) |||
      (if off + chunk.length ≥ len then channelFlagLast else 0)
    (leBytes 4 len ++ leBytes 4 flags ++ chunk) ::
      clipChunks len (off + chunk.length) ((octet :: others).drop vcChunkSize)
termination_by rest.length
decreasing_by
  rw [List.length_drop, List.length_cons, vcChunkSize]
  omega

/-- `send_clip_pdu`: the frames that it sends, unless one of them cannot be built. -/
def sendClipPdu (userId channelId : Nat) (payload : Bytes) : Option (List Bytes) :=
  (clipChunks payload.length 0 payload).mapM (channelFrame userId channelId)

def indicationPayload (mcs : Bytes) : Bytes :=
  let length := (mcs.getD 6 0).toNat
  if length < 0x80 then (mcs.drop 7).take length
  else (mcs.drop 8).take (length % 0x40 * 256 + (mcs.getD 7 0).toNat)

def chunkOf (frame : Bytes) : Bytes := indicationPayload (frame.drop 7)

variable (userId channelId : Nat)

theorem rdpMcsBuildSendDataIndication_carries {payload : Bytes}
    (small : payload.length ≤ vcChunkSize + 8) :
    ∃ mcs, rdpMcsBuildSendDataIndication (vcChunkSize + 128 - 4 - 3) userId channelId payload =
        some mcs ∧
      (7 ≤ mcs.length ∧ mcs.length ≤ vcChunkSize + 16) ∧ indicationPayload mcs = payload := by
  rw [vcChunkSize] at small ⊢
  unfold rdpMcsBuildSendDataIndication
  by_cases short : payload.length < 128
  · have octet : (low payload.length).toNat = payload.length := by
      rw [toNat_low]
      omega
    rw [if_pos short, if_neg (by omega), if_pos short]
    refine ⟨_, rfl, ⟨?_, ?_⟩, ?_⟩
    · simp
    · simp
      omega
    · simp only [indicationPayload, cons_append, nil_append, getD_cons_succ,
        getD_cons_zero, octet, drop_succ_cons, drop_zero]
      rw [if_pos short, take_length]
  · have high : payload.length / 256 < 64 := by omega
    have first : (low (0x80 ||| payload.length / 256)).toNat = 128 + payload.length / 256 := by
      have all : ∀ value < 64, (0x80 ||| value) % 256 = 128 + value := by decide
      rw [toNat_low, all _ high]
    rw [if_neg short, if_neg (by omega), if_neg short, if_pos (by omega)]
    refine ⟨_, rfl, ⟨?_, ?_⟩, ?_⟩
    · simp
    · simp
      omega
    · simp only [indicationPayload, cons_append, nil_append, getD_cons_succ,
        getD_cons_zero, first, toNat_low, drop_succ_cons, drop_zero]
      rw [if_neg (by omega)]
      exact take_of_length_le (by omega)

theorem channelFrame_carries {inner : Bytes}
    (small : inner.length ≤ vcChunkSize + 8) :
    ∃ frame, channelFrame userId channelId inner = some frame ∧ chunkOf frame = inner := by
  obtain ⟨mcs, built, ⟨least, most⟩, found⟩ :=
    rdpMcsBuildSendDataIndication_carries userId channelId small
  rw [vcChunkSize] at most
  rw [channelFrame, built, bind_some, rdpTpktEncodeHdr, if_neg (by omega)]
  exact ⟨_, rfl, found⟩

def feedAll (r : VcReasm) : List Bytes → List Fed
  | [] => []
  | payload :: rest => (r.feedPayload payload).2 :: feedAll (r.feedPayload payload).1 rest

def clipFlags (first last : Bool) : Nat :=
  (if first then channelFlagFirst else 0) ||| (if last then channelFlagLast else 0)

variable {len off : Nat} {rest : Bytes}

theorem clipChunks_last (some : rest ≠ []) (ends : off + rest.length = len)
    (fits : rest.length ≤ vcChunkSize) :
    clipChunks len off rest = [leBytes 4 len ++ leBytes 4 (clipFlags (off = 0) true) ++ rest] := by
  obtain ⟨octet, others, rfl⟩ := exists_cons_of_ne_nil some
  rw [clipChunks, take_of_length_le fits, drop_of_length_le fits, clipChunks, clipFlags,
    if_pos (le_of_eq ends.symm)]
  simp

theorem clipChunks_more (ends : off + rest.length = len) (long : vcChunkSize < rest.length) :
    clipChunks len off rest =
      (leBytes 4 len ++ leBytes 4 (clipFlags (off = 0) false) ++ rest.take vcChunkSize) ::
        clipChunks len (off + vcChunkSize) (rest.drop vcChunkSize) := by
  obtain ⟨octet, others, rfl⟩ := exists_cons_of_ne_nil (ne_nil_of_length_pos
    (Nat.lt_of_le_of_lt (Nat.zero_le _) long))
  have length : ((octet :: others).take vcChunkSize).length = vcChunkSize :=
    length_take_of_le (Nat.le_of_lt long)
  have more : ¬ off + vcChunkSize ≥ len := by omega
  rw [clipChunks, length, clipFlags, if_neg more]
  simp

theorem clipFlags_lt (first last : Bool) : clipFlags first last < 2 ^ 32 := by
  cases first <;> cases last <;> decide

theorem feed_next (r : VcReasm) (frag : Bytes) (total : Nat) (begun : off ≠ 0) (last : Bool) :
    r.feed frag total (clipFlags (off = 0) last) = r.collect frag (clipFlags false last) := by
  have next : ¬ clipFlags false last &&& channelFlagFirst ≠ 0 := by
    cases last <;> decide
  rw [decide_eq_false begun, feed, if_neg (fun both => next both.1), if_neg next]

theorem feedAll_rest (fits : len < 2 ^ 32) (off : Nat) (r : VcReasm) (rest : Bytes)
    (active : r.active = true) (cap : r.cap = len) (collected : r.buf.length = off)
    (begun : off ≠ 0) (some : rest ≠ []) (ends : off + rest.length = len) :
    ∃ count, feedAll r (clipChunks len off rest) =
      List.replicate count .more ++ [.complete (r.buf ++ rest)] := by
  induction length : rest.length using Nat.strong_induction_on generalizing r off rest with
  | _ length ih =>
    by_cases short : rest.length ≤ vcChunkSize
    · refine ⟨0, ?_⟩
      rw [clipChunks_last some ends short, feedAll, feedPayload_header r rest fits
        (clipFlags_lt _ _), feed_next r rest len begun, collect_last active (by omega)
        (by decide)]
      rfl
    · have long : vcChunkSize < rest.length := Nat.not_le.1 short
      have taken : (rest.take vcChunkSize).length = vcChunkSize :=
        length_take_of_le (le_of_lt long)
      have left : (rest.drop vcChunkSize).length = rest.length - vcChunkSize := length_drop
      have size : 0 < vcChunkSize := by decide
      obtain ⟨count, others⟩ := ih (rest.drop vcChunkSize).length (by omega)
        (off + vcChunkSize) { r with buf := r.buf ++ rest.take vcChunkSize }
        (rest.drop vcChunkSize) active cap (by rw [length_append, taken, collected])
        (by omega) (ne_nil_of_length_pos (by omega)) (by omega) rfl
      refine ⟨count + 1, ?_⟩
      rw [clipChunks_more ends long, feedAll, feedPayload_header r _ fits (clipFlags_lt _ _),
        feed_next r _ len begun, collect_more active (by omega) (by decide), others, append_assoc,
        take_append_drop]
      rfl

/-- **The chunks of a PDU** are reassembled to it, and to nothing else. -/
theorem feedAll_clipChunks (r : VcReasm) {payload : Bytes} (some : payload ≠ [])
    (fits : payload.length < 2 ^ 32) (allowed : payload.length ≤ r.maxPdu) :
    ∃ count, feedAll r (clipChunks payload.length 0 payload) =
      List.replicate count .more ++ [.complete payload] := by
  by_cases short : payload.length ≤ vcChunkSize
  · refine ⟨0, ?_⟩
    rw [clipChunks_last some (Nat.zero_add _) short, feedAll,
      feedPayload_header r payload fits (clipFlags_lt _ _)]
    rfl
  · have long : vcChunkSize < payload.length := Nat.not_le.1 short
    have taken : (payload.take vcChunkSize).length = vcChunkSize :=
      length_take_of_le (le_of_lt long)
    have left : (payload.drop vcChunkSize).length = payload.length - vcChunkSize := length_drop
    have size : 0 < vcChunkSize := by decide
    obtain ⟨count, others⟩ := feedAll_rest fits vcChunkSize
      { r.reset with active := true, cap := payload.length, buf := payload.take vcChunkSize }
      (payload.drop vcChunkSize) rfl rfl taken (ne_of_gt size)
      (ne_nil_of_length_pos (by omega)) (by omega)
    refine ⟨count + 1, ?_⟩
    have begun : r.feed (payload.take vcChunkSize) payload.length (clipFlags true false) =
        ({ r.reset with active := true, cap := payload.length, buf := payload.take vcChunkSize },
          .more) := by
      rw [feed, if_neg (by decide), if_pos (by decide), if_neg (by omega),
        collect_more rfl _ (by decide)]
      · rfl
      · exact le_trans (le_of_eq taken) (le_of_lt long)
    rw [clipChunks_more (Nat.zero_add _) long, feedAll, feedPayload_header r _ fits
      (clipFlags_lt _ _), decide_eq_true rfl, begun, Nat.zero_add, others, take_append_drop]
    rfl

theorem length_clipChunks {inner : Bytes} (member : inner ∈ clipChunks len off rest) :
    inner.length ≤ vcChunkSize + 8 := by
  induction off, rest using clipChunks.induct len with
  | case1 off =>
    rw [clipChunks] at member
    exact (not_mem_nil member).elim
  | case2 off octet others chunk ih =>
    rw [clipChunks] at member
    rcases mem_cons.1 member with rfl | member
    · have taken : ((octet :: others).take vcChunkSize).length ≤ vcChunkSize :=
        length_take_le _ _
      simp only [length_append, length_leBytes]
      omega
    · exact ih member

theorem sendClipPdu_chunks (payload : Bytes) :
    ∃ frames, sendClipPdu userId channelId payload = some frames ∧
      frames.map chunkOf = clipChunks payload.length 0 payload := by
  have all (chunks : List Bytes) (small : ∀ inner ∈ chunks, inner.length ≤ vcChunkSize + 8) :
      ∃ frames, chunks.mapM (channelFrame userId channelId) = some frames ∧
        frames.map chunkOf = chunks := by
    induction chunks with
    | nil => exact ⟨[], rfl, rfl⟩
    | cons inner rest ih =>
      obtain ⟨frame, built, found⟩ :=
        channelFrame_carries userId channelId (small inner mem_cons_self)
      obtain ⟨frames, others, carried⟩ := ih fun inner member => small inner (.tail _ member)
      refine ⟨frame :: frames, ?_, ?_⟩
      · rw [mapM_cons, built, others]
        rfl
      · rw [map_cons, found, carried]
  exact all _ fun inner member => length_clipChunks member

def zgfxSegmentedSingle : UInt8 := 0xE0

def zgfxSegmentedMultipart : UInt8 := 0xE1

def zgfxPacketComprTypeRdp8 : UInt8 := 0x04

def zgfxSegMax : Nat := 65535

/-- The loop of `send_gfx_pdu` over the segments of what is left. -/
def rdp8Segments : Nat → Bytes → Bytes
  | 0, _ => []
  | nseg + 1, data =>
    let chunk := data.take zgfxSegMax
    leBytes 4 (chunk.length + 1) ++ [zgfxPacketComprTypeRdp8] ++ chunk ++
      rdp8Segments nseg (data.drop zgfxSegMax)

/-- The framing of `send_gfx_pdu`. -/
def rdp8Frame (data : Bytes) : Bytes :=
  if data.length ≤ zgfxSegMax then [zgfxSegmentedSingle, zgfxPacketComprTypeRdp8] ++ data
  else
    let nseg := (data.length + zgfxSegMax - 1) / zgfxSegMax
    [zgfxSegmentedMultipart] ++ leBytes 2 nseg ++ leBytes 4 data.length ++ rdp8Segments nseg data

/-- What a framed graphics PDU declares: its total size, and the payloads of its
segments. -/
structure Rdp8 where
  total : Nat
  segments : List Bytes
  deriving DecidableEq

/-- A number of segments, each as long as it declares, and what is behind them. -/
def readSegments : Nat → Bytes → Option (List Bytes × Bytes)
  | 0, framed => some ([], framed)
  | count + 1, framed =>
    let size := leValue (framed.take 4)
    if framed.length < 4 + size ∨ size = 0 then none
    else
      (readSegments count (framed.drop (4 + size))).map fun others =>
        (((framed.drop 5).take (size - 1)) :: others.1, others.2)

/-- The framing as its receiver reads it: nothing may be left behind the segments that
it counts. -/
def readRdp8 : Bytes → Option Rdp8
  | [] => none
  | descriptor :: framed =>
    if descriptor = zgfxSegmentedSingle then
      some { total := framed.length - 1, segments := [framed.drop 1] }
    else
      (readSegments (leValue (framed.take 2)) (framed.drop 6)).bind fun read =>
        if read.2 = [] then
          some { total := leValue ((framed.drop 2).take 4), segments := read.1 }
        else none

/-- What a framing declares tiles a PDU: its segments, none larger than a segment may
be, are the PDU, of which it gives the size. -/
def Rdp8.Tiles (pdu : Bytes) (framing : Rdp8) : Prop :=
  framing.total = pdu.length ∧ framing.segments.flatten = pdu ∧
    ∀ segment ∈ framing.segments, segment.length ≤ zgfxSegMax

theorem readSegments_rdp8Segments (count more : Nat) (data : Bytes) :
    readSegments count (rdp8Segments (count + more) data) =
      some ((List.replicate count zgfxSegMax).splitLengths data,
        rdp8Segments more (data.drop (zgfxSegMax * count))) := by
  induction count generalizing data with
  | zero => rw [Nat.zero_add]; rfl
  | succ count ih =>
    have length : (data.take zgfxSegMax).length ≤ zgfxSegMax := length_take_le _ _
    rw [Nat.add_right_comm, rdp8Segments, readSegments]
    generalize chunk : data.take zgfxSegMax = segment at length
    rw [zgfxSegMax] at length
    have header : (leBytes 4 (segment.length + 1) ++ [zgfxPacketComprTypeRdp8]).length = 5 := by
      rfl
    have later := ih (data.drop zgfxSegMax)
    generalize rdp8Segments (count + more) (data.drop zgfxSegMax) = others at later
    generalize bytes : leBytes 4 (segment.length + 1) ++ [zgfxPacketComprTypeRdp8] ++ segment ++
      others = framed
    have declared : leValue (framed.take 4) = segment.length + 1 := by
      rw [← bytes, append_assoc, append_assoc, take_left' (length_leBytes 4 _),
        leValue_leBytes 4 _ (by omega)]
    have rest : framed.drop (4 + (segment.length + 1)) = others := by
      rw [← bytes]
      apply drop_left'
      rw [length_append]
      omega
    have payload : (framed.drop 5).take (segment.length + 1 - 1) = segment := by
      rw [← bytes, append_assoc, drop_left' header, Nat.add_sub_cancel, take_left]
    have inside : ¬ (framed.length < 4 + (segment.length + 1) ∨ segment.length + 1 = 0) := by
      rw [← bytes, length_append, length_append]
      omega
    rw [declared, if_neg inside, rest, payload, later, map_some, replicate_succ,
      splitLengths_cons, chunk, drop_drop, Nat.mul_succ, Nat.add_comm zgfxSegMax]

theorem rdp8Segments_ne_nil {count : Nat} (some : count ≠ 0) (data : Bytes) :
    rdp8Segments count data ≠ [] := by
  obtain ⟨count, rfl⟩ := Nat.exists_eq_succ_of_ne_zero some
  refine ne_nil_of_length_pos ?_
  rw [rdp8Segments, length_append, length_append, length_append, length_leBytes]
  omega

/-- **The framing of a graphics PDU** tiles it exactly as long as 65535 segments are
enough for it. -/
theorem rdp8_tiles_iff {pdu : Bytes} (fits : pdu.length < 2 ^ 32) :
    (∃ framing, readRdp8 (rdp8Frame pdu) = some framing ∧ framing.Tiles pdu) ↔
      pdu.length ≤ zgfxSegMax * zgfxSegMax := by
  rw [rdp8Frame]
  by_cases single : pdu.length ≤ zgfxSegMax
  · rw [if_pos single]
    refine iff_of_true ⟨_, rfl, rfl, flatten_singleton, fun segment member => ?_⟩
      (le_trans single (by decide))
    rw [mem_singleton.1 member]
    exact single
  have enough : (pdu.length + zgfxSegMax - 1) / zgfxSegMax < 2 ^ 16 ↔
      pdu.length ≤ zgfxSegMax * zgfxSegMax := by
    rw [zgfxSegMax]
    omega
  rw [if_neg single, ← enough]
  generalize count : (pdu.length + zgfxSegMax - 1) / zgfxSegMax = nseg
  have read : readRdp8 ([zgfxSegmentedMultipart] ++ leBytes 2 nseg ++ leBytes 4 pdu.length ++
      rdp8Segments nseg pdu) =
        (readSegments (nseg % 2 ^ 16) (rdp8Segments nseg pdu)).bind fun read =>
          if read.2 = [] then some { total := pdu.length, segments := read.1 } else none := by
    rw [append_assoc, append_assoc, singleton_append, readRdp8,
      if_neg (by decide), take_left' (length_leBytes 2 nseg), ← append_assoc,
      drop_left' (by rw [length_append, length_leBytes, length_leBytes]),
      append_assoc, leValue_field (length_leBytes 2 nseg) _ fits, leValue_leBytes_mod]
    rfl
  -- The receiver counts what is left of the number of segments in 16 bits.
  obtain ⟨more, split⟩ : ∃ more, nseg = nseg % 2 ^ 16 + more :=
    ⟨nseg - nseg % 2 ^ 16, (Nat.add_sub_cancel' (Nat.mod_le _ _)).symm⟩
  have segments := readSegments_rdp8Segments (nseg % 2 ^ 16) more pdu
  rw [← split] at segments
  rw [read, segments, bind_some]
  by_cases few : nseg < 2 ^ 16
  · have none : more = 0 := by
      omega
    rw [none]
    refine iff_of_true ⟨_, rfl, rfl, ?_, ?_⟩ few
    · apply flatten_splitLengths
      rw [sum_replicate_nat]
      rw [zgfxSegMax] at count ⊢
      omega
    · exact length_mem_splitLengths _ _ _ fun size member =>
        le_of_eq (eq_of_mem_replicate member)
  · have some : more ≠ 0 := by
      omega
    rw [if_neg (rdp8Segments_ne_nil some _)]
    refine iff_of_false ?_ few
    rintro ⟨framing, absurd, -⟩
    cases absurd

/-- **Chunks and segments lose nothing**: the chunks of a PDU are reassembled to it and to
nothing else, and the segments of a graphics PDU tile it as long as it needs no more
than 65535 of them. -/
theorem segmentation_lossless (userId channelId : Nat) (r : VcReasm) (payload pdu : Bytes)
    (some : payload ≠ []) (fits : payload.length < 2 ^ 32) (allowed : payload.length ≤ r.maxPdu)
    (pduFits : pdu.length < 2 ^ 32) :
    (∃ frames count, sendClipPdu userId channelId payload = .some frames ∧
      feedAll r (frames.map chunkOf) = List.replicate count .more ++ [.complete payload]) ∧
    ((∃ framing, readRdp8 (rdp8Frame pdu) = .some framing ∧ framing.Tiles pdu) ↔
      pdu.length ≤ zgfxSegMax * zgfxSegMax) := by
  obtain ⟨frames, sent, chunks⟩ := sendClipPdu_chunks userId channelId payload
  obtain ⟨count, fed⟩ := feedAll_clipChunks r some fits allowed
  refine ⟨⟨frames, count, sent, ?_⟩, rdp8_tiles_iff pduFits⟩
  rw [chunks, fed]

/-- A payload of two chunks, and a PDU of two segments. -/
theorem segmentation_lossless_split :
    (∃ frames count, sendClipPdu 1007 1004 (List.replicate 2000 7) = some frames ∧
      feedAll { maxPdu := 2000 } (frames.map chunkOf) = List.replicate count .more ++
        [.complete (List.replicate 2000 7)]) ∧
    ∃ framing, readRdp8 (rdp8Frame (List.replicate 70000 7)) = some framing ∧
      framing.Tiles (List.replicate 70000 7) := by
  have long (n : Nat) : (List.replicate n (7 : UInt8)).length = n := List.length_replicate
  have both := segmentation_lossless 1007 1004 { maxPdu := 2000 } (List.replicate 2000 7)
    (List.replicate 70000 7) (List.ne_nil_of_length_pos (by rw [long]; decide))
    (by rw [long]; decide) (long 2000).le (by rw [long]; decide)
  exact ⟨both.1, both.2.2 (by rw [long]; decide)⟩

/-- The shortest graphics PDU that needs 65536 segments: the number of them that the
framing declares is 0. -/
theorem segment_count_wraps :
    (List.replicate (zgfxSegMax * zgfxSegMax + 1) (0 : UInt8)).length < 2 ^ 32 ∧ ¬ ∃ framing,
        readRdp8 (rdp8Frame (List.replicate (zgfxSegMax * zgfxSegMax + 1) 0)) = some framing ∧
          framing.Tiles (List.replicate (zgfxSegMax * zgfxSegMax + 1) 0) := by
  have fits : (replicate (zgfxSegMax * zgfxSegMax + 1) (0 : UInt8)).length < 2 ^ 32 := by
    rw [length_replicate]
    decide
  refine ⟨fits, fun tiles => ?_⟩
  have small := (rdp8_tiles_iff fits).1 tiles
  rw [length_replicate] at small
  exact Nat.not_succ_le_self _ small

end RdpServer.Daemon
