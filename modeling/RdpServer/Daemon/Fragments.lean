import RdpServer.Client.Orders
import RdpServer.Daemon.Pdu
import RdpServer.Daemon.Tiles

/-!
# Fragments of a bitmap update

`send_bitmap_fragments` cuts the body of an update into slices for packets no
longer than the worker's chunk target. Every packet can be built, is framed at
its own length, and the client reads the flags of one sequence of fragments and
the body back from them (`fragments_reassemble`).
-/

namespace RdpServer.Daemon

open Bytes Client Framing List

def rdpFpFragmentSafeSize : Nat := 0x3F80

/-- The largest packet of a bitmap update, from the client's MaxRequestSize. -/
def chunkTarget (clientMaxRequest : Nat) : Nat :=
  let target :=
    if clientMaxRequest ≠ 0 ∧ clientMaxRequest < rdpFpFragmentSafeSize then clientMaxRequest
    else rdpFpFragmentSafeSize
  if target < 512 then 512 else target

theorem chunkTarget_bounds (clientMaxRequest : Nat) :
    512 ≤ chunkTarget clientMaxRequest ∧ chunkTarget clientMaxRequest ≤ 0x3F80 := by
  unfold chunkTarget rdpFpFragmentSafeSize
  by_cases asked : clientMaxRequest ≠ 0 ∧ clientMaxRequest < 0x3F80
  · rw [if_pos asked]
    dsimp only
    split <;> omega
  · rw [if_neg asked]
    decide

/-- What the client reads from a packet of a bitmap update: its fragment flags and its slice. -/
def readFragment (packet : Bytes) : Option (Nat × Bytes) :=
  ((fastpathUpdate packet.length).whole packet).bind fun (header, slice) =>
    if header.toNat % 16 = rdpFpUpdateBitmap then some (header.toNat / 16, slice) else none

/-- The flags of `count + 1` fragments, the first of them at the start of the update or behind
it. -/
def fragmentFlags (first : Bool) : (count : Nat) → List Nat
  | 0 => [if first then rdpFpFragmentSingle else rdpFpFragmentLast]
  | count + 1 => (if first then rdpFpFragmentFirst else rdpFpFragmentNext) ::
      fragmentFlags false count

theorem fragmentFlags_next (count : Nat) : fragmentFlags false count =
    List.replicate count rdpFpFragmentNext ++ [rdpFpFragmentLast] := by
  induction count with
  | zero => rfl
  | succ count ih =>
    rw [fragmentFlags, ih]
    rfl

/-- A packet that is framed at its own length, of at most `target` octets. -/
structure Framed (target : Nat) (packet : Bytes) : Prop where
  small : packet.length ≤ target
  framed : ∀ rest, frameOnePdu (packet ++ rest) = .item .fastpath packet.length

theorem frameOnePdu_updatePacket (code : UInt8) {body : Bytes} (rest : Bytes)
    (short : 6 + body.length ≤ rdpFpMaxPacketSize) :
    frameOnePdu (updatePacket code body ++ rest) =
      .item .fastpath (updatePacket code body).length := by
  rw [rdpFpMaxPacketSize] at short
  obtain ⟨total, chosen, length, least, most⟩ := length_updatePacket code body
  have bounds : 5 ≤ total ∧ total ≤ 0x3FFF := by omega
  have long : ¬ (updatePacket code body ++ rest).length < total := by
    rw [length_append]
    omega
  have enough (few : Nat) (below : few ≤ 5) : ¬ (updatePacket code body ++ rest).length < few := by
    omega
  rw [frameOnePdu, if_neg (enough 1 (by omega)), if_neg (enough 2 (by omega)), length]
  by_cases one : total ≤ 0x7f
  · have clear : ∀ value < 128, value &&& 0x80 = 0 := by decide
    have octet : ((updatePacket code body ++ rest).getD 1 0).toNat = total := by
      simp only [updatePacket, chosen, one, ↓reduceIte, cons_append, getD_cons_succ,
        nil_append, getD_cons_zero, toNat_low]
      omega
    rw [if_neg (by simp [updatePacket]), octet, if_pos (clear total (by omega)),
      if_neg (by omega : ¬ total < 2), if_neg long]
  · have set : ∀ value < 64, (value + 128) &&& 0x80 ≠ 0 ∧ (value + 128) &&& 0x7f = value := by
      decide
    have first : ((updatePacket code body ++ rest).getD 1 0).toNat = total / 256 + 128 := by
      simp only [updatePacket, chosen, one, ↓reduceIte, cons_append, getD_cons_succ,
        getD_cons_zero, toNat_low]
      omega
    have second : ((updatePacket code body ++ rest).getD 2 0).toNat = total % 256 := by
      simp only [updatePacket, chosen, one, ↓reduceIte, cons_append, getD_cons_succ,
        nil_append, getD_cons_zero, toNat_low]
    have announced : (total / 256) <<< 8 ||| total % 256 = total := by
      rw [← Nat.shiftLeft_add_eq_or_of_lt (Nat.mod_lt _ (by decide)), Nat.shiftLeft_eq]
      omega
    obtain ⟨high, bits⟩ := set (total / 256) (by omega)
    rw [if_neg (by simp [updatePacket]), first, second, if_neg high, if_neg (enough 3 (by omega)),
      bits, announced]
    dsimp only
    rw [if_neg (by omega : ¬ total < 3), if_neg long]

theorem readFragment_updatePacket {flag : Nat} {slice : Bytes} (known : flag < 4)
    (short : 6 + slice.length ≤ rdpFpMaxPacketSize) :
    readFragment (updatePacket (low ((rdpFpUpdateBitmap &&& 0x0f) ||| (flag <<< 4))) slice) =
      some (flag, slice) := by
  have codes : ∀ flag < 4,
      (low ((rdpFpUpdateBitmap &&& 0x0f) ||| (flag <<< 4))).toNat % 16 = rdpFpUpdateBitmap ∧
      (low ((rdpFpUpdateBitmap &&& 0x0f) ||| (flag <<< 4))).toNat / 16 = flag := by
    decide
  obtain ⟨bitmap, flags⟩ := codes flag known
  rw [readFragment, whole_updatePacket _ short, Option.bind_some]
  simp only [bitmap, flags, ↓reduceIte]

/-- What the packets from an offset on are for the client. -/
structure CarriesBody (target : Nat) (body : Bytes) (first : Bool)
    (packets : List Bytes) :
    Prop where
  framed : ∀ packet ∈ packets, Framed target packet
  read : ∃ pieces count, packets.mapM readFragment = some pieces ∧
    pieces.map Prod.fst = fragmentFlags first count ∧ (pieces.map Prod.snd).flatten = body

theorem bitmapFragments_carries {frag : Nat} {body : Bytes} (positive : 0 < frag)
    (bounded : 6 + frag ≤ rdpFpMaxPacketSize) (steps : Nat) :
    ∀ off first, off < body.length → body.length - off < steps →
      ∃ packets, bitmapFragments frag body steps off first = some packets ∧
        CarriesBody (6 + frag) (body.drop off) first packets := by
  induction steps with
  | zero =>
    intro off first inside enough
    omega
  | succ steps ih =>
    intro off first inside enough
    have built (flag : Nat) (slice : Bytes) (known : flag < 4) (fits : slice.length ≤ frag) :
        ∃ packet, rdpFpBuildUpdateFrag 0x4000 rdpFpUpdateBitmap flag slice = some packet ∧
          Framed (6 + frag) packet ∧ readFragment packet = some (flag, slice) := by
      have short : 6 + slice.length ≤ rdpFpMaxPacketSize := by omega
      refine ⟨_, rdpFpBuildUpdateFrag_eq _ _ short, ⟨?_, ?_⟩, readFragment_updatePacket known short⟩
      · obtain ⟨_, _, length, _, most⟩ := length_updatePacket _ slice
        rw [length]
        omega
      · exact fun rest => frameOnePdu_updatePacket _ rest short
    rw [bitmapFragments, if_pos inside]
    dsimp only
    by_cases long : body.length - off > frag
    · have more : ¬ off + frag ≥ body.length := by omega
      obtain ⟨packet, accepted, framed, read⟩ := built
        (if first then rdpFpFragmentFirst else rdpFpFragmentNext) ((body.drop off).take frag)
        (by cases first <;> decide) (length_take_le _ _)
      obtain ⟨packets, rest, carried⟩ := ih (off + frag) false (by omega) (by omega)
      obtain ⟨pieces, count, reads, flags, bodies⟩ := carried.read
      rw [if_pos long, if_neg more, accepted, Option.bind_some, rest]
      refine ⟨packet :: packets, rfl, ?_, (if first then rdpFpFragmentFirst else rdpFpFragmentNext,
        (body.drop off).take frag) :: pieces, count + 1, ?_, ?_, ?_⟩
      · exact forall_mem_cons.2 ⟨framed, carried.framed⟩
      · rw [mapM_cons, read, reads]
        rfl
      · rw [map_cons, flags, fragmentFlags]
      · rw [map_cons, flatten_cons, bodies, ← drop_drop, take_append_drop]
    · have last : off + (body.length - off) ≥ body.length := by omega
      have rest : (body.drop off).take (body.length - off) = body.drop off :=
        take_of_length_le (by simp)
      obtain ⟨packet, accepted, framed, read⟩ := built
        (if first then rdpFpFragmentSingle else rdpFpFragmentLast) (body.drop off)
        (by cases first <;> decide) (by rw [length_drop]; omega)
      have done : bitmapFragments frag body steps (off + (body.length - off)) false = some [] := by
        obtain ⟨steps, rfl⟩ := Nat.exists_eq_succ_of_ne_zero (by omega : steps ≠ 0)
        rw [bitmapFragments, if_neg (by omega)]
      rw [if_neg long, if_pos last, rest, accepted, Option.bind_some, done]
      refine ⟨[packet], rfl, ?_, [(if first then rdpFpFragmentSingle else rdpFpFragmentLast,
        body.drop off)], 0, ?_, rfl, ?_⟩
      · simpa using framed
      · rw [mapM_cons, read]
        rfl
      · simp

theorem sendBitmapFragments_carries (clientMaxRequest : Nat) {body : Bytes}
    (nonempty : 1 ≤ body.length) :
    ∃ packets, sendBitmapFragments body (chunkTarget clientMaxRequest) = some packets ∧
      CarriesBody (chunkTarget clientMaxRequest) body true packets := by
  obtain ⟨least, most⟩ := chunkTarget_bounds clientMaxRequest
  generalize chunkTarget clientMaxRequest = target at least most
  have slices : (if target < 6 ∨ target - 6 > 0xffff then 0xffff else target - 6) = target - 6 :=
    if_neg (by omega)
  obtain ⟨packets, sent, carried⟩ := @bitmapFragments_carries (target - 6) body (by omega)
    (by rw [rdpFpMaxPacketSize]; omega) (body.length + 1) 0 true nonempty (by omega)
  rw [Nat.add_sub_cancel' (by omega)] at carried
  refine ⟨packets, ?_, carried⟩
  rw [sendBitmapFragments, slices, sent]

/-- **An update of any body comes back from its fragments**: they are all built, none is longer
than the target, each is framed at its own length, their flags are SINGLE or FIRST NEXT* LAST, and
their slices are the body. -/
theorem fragments_reassemble (clientMaxRequest : Nat) (body : Bytes)
    (nonempty : 1 ≤ body.length) :
    ∃ packets pieces, sendBitmapFragments body (chunkTarget clientMaxRequest) = some packets ∧
      (∀ packet ∈ packets, Framed (chunkTarget clientMaxRequest) packet) ∧
      packets.mapM readFragment = some pieces ∧
      (pieces.map Prod.fst = [rdpFpFragmentSingle] ∨ ∃ count, pieces.map Prod.fst =
        [rdpFpFragmentFirst] ++ List.replicate count rdpFpFragmentNext ++ [rdpFpFragmentLast]) ∧
      (pieces.map Prod.snd).flatten = body := by
  obtain ⟨packets, sent, carried⟩ := sendBitmapFragments_carries clientMaxRequest nonempty
  obtain ⟨pieces, count, reads, flags, bodies⟩ := carried.read
  refine ⟨packets, pieces, sent, carried.framed, reads, ?_, bodies⟩
  rw [flags]
  cases count with
  | zero => exact .inl rfl
  | succ count => exact .inr ⟨count, by rw [fragmentFlags, fragmentFlags_next]; rfl⟩

/-- A body of 700 octets for a client that asks for 600 at most. -/
theorem fragments_reassemble_two : ∃ packets pieces,
    sendBitmapFragments (List.replicate 700 7) (chunkTarget 600) = some packets ∧
    (∀ packet ∈ packets, Framed (chunkTarget 600) packet) ∧
    packets.mapM readFragment = some pieces ∧
    (pieces.map Prod.fst = [rdpFpFragmentSingle] ∨ ∃ count, pieces.map Prod.fst =
      [rdpFpFragmentFirst] ++ List.replicate count rdpFpFragmentNext ++ [rdpFpFragmentLast]) ∧
    (pieces.map Prod.snd).flatten = List.replicate 700 7 :=
  fragments_reassemble 600 (replicate 700 7) (by rw [length_replicate]; decide)

end RdpServer.Daemon
