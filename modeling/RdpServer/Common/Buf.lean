import RdpServer.Lib.Checked

/-!
# Output buffers and BER elements

`struct rdp_buf` on its writing side: a put that does not fit fails and writes nothing.
The BER readers work on the octets left at the cursor and say how many of them they used;
one that would run past what is left refuses (`ensures_berReadHeader`).
-/

namespace RdpServer

open Bytes

structure Buf where
  written : Bytes
  cap : Nat
  inside : written.length ≤ cap

def rdpBufInit (cap : Nat) : Buf := ⟨[], cap, Nat.zero_le _⟩

def rdpBufPut (b : Buf) (src : Bytes) : Option Buf :=
  if fits : src.length ≤ b.cap - b.written.length then
    some ⟨b.written ++ src, b.cap, by
      have inside := b.inside
      rw [List.length_append]
      omega⟩
  else none

def rdpBufPutU8 (b : Buf) (v : Nat) : Option Buf := rdpBufPut b [low v]

def rdpBufPutU16le (b : Buf) (v : Nat) : Option Buf := rdpBufPut b (leBytes 2 v)

def rdpBufPutU32le (b : Buf) (v : Nat) : Option Buf := rdpBufPut b (leBytes 4 v)

def rdpBufPutU16be (b : Buf) (v : Nat) : Option Buf := rdpBufPut b (beBytes 2 v)

def rdpBufPutU32be (b : Buf) (v : Nat) : Option Buf := rdpBufPut b (beBytes 4 v)

section Put

variable {b : Buf} {first second : Bytes}

theorem rdpBufPut_bind : (rdpBufPut b first).bind (rdpBufPut · second) =
    rdpBufPut b (first ++ second) := by
  have inside := b.inside
  by_cases fits : first.length ≤ b.cap - b.written.length
  · rw [rdpBufPut, dif_pos fits, Option.bind_some]
    by_cases both : (first ++ second).length ≤ b.cap - b.written.length
    · have rest : second.length ≤ b.cap - (b.written ++ first).length := by
        rw [List.length_append] at both ⊢
        omega
      rw [rdpBufPut, rdpBufPut, dif_pos both, dif_pos rest]
      simp
    · have rest : ¬ second.length ≤ b.cap - (b.written ++ first).length := by
        rw [List.length_append] at both ⊢
        omega
      rw [rdpBufPut, rdpBufPut, dif_neg both, dif_neg rest]
  · have both : ¬ (first ++ second).length ≤ b.cap - b.written.length := by
      rw [List.length_append]
      omega
    rw [rdpBufPut, rdpBufPut, dif_neg fits, dif_neg both, Option.bind_none]

theorem rdpBufPut_then {α : Type} (next : Buf → Option α) :
    ((rdpBufPut b first).bind fun b => (rdpBufPut b second).bind next) =
      (rdpBufPut b (first ++ second)).bind next := by
  rw [← rdpBufPut_bind, Option.bind_assoc]

theorem rdpBufPut_eq_some {after : Buf} (put : rdpBufPut b first = some after) :
    after.written = b.written ++ first ∧ after.cap = b.cap := by
  unfold rdpBufPut at put
  split at put
  · cases put
    exact ⟨rfl, rfl⟩
  · cases put

theorem rdpBufPut_init {cap : Nat} (fits : first.length ≤ cap) :
    (rdpBufPut (rdpBufInit cap) first).map Buf.written = some first := by
  have room : first.length ≤ (rdpBufInit cap).cap - (rdpBufInit cap).written.length := by
    exact fits
  rw [rdpBufPut, dif_pos room]
  rfl

end Put

namespace Ber

def classUniversal : Nat := 0x00
def primitive : Nat := 0x00
def constructed : Nat := 0x20

def tagInteger : Nat := 0x02
def tagOctetString : Nat := 0x04
def tagSequence : Nat := 0x10

end Ber

/-- A header that was read: the octets it used and the length it announces. -/
structure BerHeader where
  used : Nat
  len : Nat
  deriving DecidableEq

def rdpBerReadLength (p : Bytes) : Checked BerHeader := do
  refuse (p.length < 1)
  let b0 ← load p 0
  if b0.toNat &&& 0x80 = 0 then
    pure ⟨1, b0.toNat⟩
  else do
    let n := b0.toNat &&& 0x7f
    refuse (n = 0 ∨ n > 4 ∨ p.length < 1 + n)
    let octets ← Slice.fetch ⟨1, n⟩ p
    pure ⟨1 + n, beValue octets⟩

/-- A tag octet, its length, and the check that the value lies within what is
left; the common part of the readers of universal and of context tags. -/
def berReadHeader (p : Bytes) (want : Nat) : Checked BerHeader := do
  refuse (p.length < 1)
  let tag ← load p 0
  refuse (tag.toNat ≠ want)
  let h ← rdpBerReadLength (p.drop 1)
  refuse (h.len > p.length - 1 - h.used)
  pure ⟨h.used + 1, h.len⟩

def rdpBerReadUniversalTag (p : Bytes) (pc tag : Nat) : Checked BerHeader :=
  berReadHeader p (Ber.classUniversal ||| pc ||| (tag &&& 0x1f))

def rdpBerReadInteger (p : Bytes) : Checked (Nat × Nat) := do
  let h ← rdpBerReadUniversalTag p Ber.primitive Ber.tagInteger
  refuse (h.len = 0 ∨ h.len > 5)
  let first ← load p h.used
  refuse (h.len = 5 ∧ first ≠ 0)
  let skipped := if h.len = 5 then 1 else 0
  let octets ← Slice.fetch ⟨h.used + skipped, h.len - skipped⟩ p
  pure (h.used + h.len, beValue octets)

def rdpBerReadOctetString (p : Bytes) : Checked (Nat × Slice) := do
  let h ← rdpBerReadUniversalTag p Ber.primitive Ber.tagOctetString
  pure (h.used + h.len, ⟨h.used, h.len⟩)

def rdpBerWriteTag (b : Buf) (cls pc tag : Nat) : Option Buf :=
  rdpBufPutU8 b (cls ||| pc ||| (tag &&& 0x1f))

def rdpBerWriteLength (b : Buf) (length : Nat) : Option Buf :=
  if length ≤ 0x7f then rdpBufPutU8 b length
  else if length ≤ 0xff then do
    let b ← rdpBufPutU8 b 0x81
    rdpBufPutU8 b length
  else if length ≤ 0xffff then do
    let b ← rdpBufPutU8 b 0x82
    rdpBufPutU16be b length
  else if length ≤ 0xffffff then do
    let b ← rdpBufPutU8 b 0x83
    let b ← rdpBufPutU8 b (length >>> 16)
    let b ← rdpBufPutU8 b (length >>> 8)
    rdpBufPutU8 b length
  else do
    let b ← rdpBufPutU8 b 0x84
    rdpBufPutU32be b length

def rdpBerWriteUniversal (b : Buf) (pc tag length : Nat) : Option Buf := do
  let b ← rdpBerWriteTag b Ber.classUniversal pc tag
  rdpBerWriteLength b length

def rdpBerWriteInteger (b : Buf) (v : Nat) : Option Buf :=
  if v ≤ 0x7f then do
    let b ← rdpBerWriteUniversal b Ber.primitive Ber.tagInteger 1
    rdpBufPut b (beBytes 1 v)
  else if v ≤ 0x7fff then do
    let b ← rdpBerWriteUniversal b Ber.primitive Ber.tagInteger 2
    rdpBufPut b (beBytes 2 v)
  else if v ≤ 0x7fffff then do
    let b ← rdpBerWriteUniversal b Ber.primitive Ber.tagInteger 3
    rdpBufPut b (beBytes 3 v)
  else if v ≤ 0x7fffffff then do
    let b ← rdpBerWriteUniversal b Ber.primitive Ber.tagInteger 4
    rdpBufPut b (beBytes 4 v)
  else do
    -- a leading zero keeps the two's complement value positive
    let b ← rdpBerWriteUniversal b Ber.primitive Ber.tagInteger 5
    let b ← rdpBufPutU8 b 0
    rdpBufPutU32be b v

def rdpBerWriteOctetString (b : Buf) (data : Bytes) : Option Buf := do
  let b ← rdpBerWriteUniversal b Ber.primitive Ber.tagOctetString data.length
  rdpBufPut b data

section Bounds

variable (p : Bytes)

theorem ensures_rdpBerReadLength :
    Ensures (rdpBerReadLength p) fun h => 1 ≤ h.used ∧ h.used ≤ p.length := by
  refine (ensures_refuse _).bind fun _ left => (ensures_load (by omega)).bind fun b0 _ => ?_
  split_ifs
  · exact ensures_ok ⟨Nat.le_refl 1, by simp only; omega⟩
  · refine (ensures_refuse _).bind fun _ long => ?_
    refine (Slice.ensures_fetch ?_).bind fun octets _ => ensures_ok ?_
    · unfold Slice.Inside
      simp only
      omega
    · simp only
      omega

theorem ensures_berReadHeader (want : Nat) :
    Ensures (berReadHeader p want) fun h => 2 ≤ h.used ∧ h.used + h.len ≤ p.length := by
  refine (ensures_refuse _).bind fun _ left => (ensures_load (by omega)).bind fun _ _ =>
    (ensures_refuse _).bind fun _ _ => (ensures_rdpBerReadLength _).bind fun h used =>
    (ensures_refuse _).bind fun _ within => ensures_ok ?_
  rw [List.length_drop] at used
  simp only
  omega

theorem ensures_rdpBerReadInteger :
    Ensures (rdpBerReadInteger p) fun _ => True := by
  refine (ensures_berReadHeader _ _).bind fun h bound => (ensures_refuse _).bind fun _ some_left =>
    (ensures_load (by omega)).bind fun _ _ => (ensures_refuse _).bind fun _ _ =>
    (Slice.ensures_fetch ?_).bind fun _ _ => ensures_ok trivial
  unfold Slice.Inside
  dsimp only
  split_ifs <;> omega

theorem ensures_rdpBerReadOctetString :
    Ensures (rdpBerReadOctetString p) fun od => od.2.Inside p.length :=
  (ensures_berReadHeader _ _).bind fun _ bound => ensures_ok bound.2

end Bounds

end RdpServer
