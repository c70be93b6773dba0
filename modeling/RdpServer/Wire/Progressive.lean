import Mathlib.Data.List.TakeWhile
import RdpServer.Lib.Bytes

/-!
# The progressive encoder

`progressive.c`: a frame is cut into tiles of 64 by 64 pixels. The three colour planes
of a tile are transformed by a wavelet in three levels, divided by 32 and entropy
coded, each into a buffer of 8192 bytes; the tiles follow each other in one buffer for
the frame. A code that does not fit its buffer makes the encoder refuse the frame. A bit stream
that took some writes has their bits one after the other (`rlgr1Encode_bits`).
-/

namespace RdpServer.Progressive

open Bytes

def tileSize : Nat := 64

/-- A value that is stored in an `int16_t`. -/
def int16 (value : Int) : Int := (value + 32768) % 65536 - 32768

def clamp (value : Int) : Int :=
  if value < -4096 then -4096 else if value > 4095 then 4095 else value

inductive Plane where
  | y
  | cb
  | cr
  deriving DecidableEq

def Plane.convert (r g b : Int) : Plane → Int
  | y => clamp ((r * 9798 + g * 19235 + b * 3735) / 1024 - 4096)
  | cb => clamp ((r * -5535 + g * -10868 + b * 16403) / 1024)
  | cr => clamp ((r * 16377 + g * -13714 + b * -2663) / 1024)

def octetAt (bgr : Bytes) (offset : Nat) : Int := (bgr.getD offset 0).toNat

/-- `tile_bgr_to_ycbcr`, for one plane of a tile at (`tx`, `ty`). Beyond the frame its
last pixels are repeated. -/
def tilePlane (bgr : Bytes) (rowStride tx ty tw th : Nat) (plane : Plane) : List Int :=
  (List.range tileSize).flatMap fun j =>
    let row := (ty + if j < th then j else th - 1) * rowStride
    (List.range tileSize).map fun i =>
      let px := row + (tx + if i < tw then i else tw - 1) * 3
      plane.convert (octetAt bgr (px + 2)) (octetAt bgr (px + 1)) (octetAt bgr px)

def highBand (src : Nat → Int) (subbandWidth n : Nat) : Int :=
  let next := if n < subbandWidth - 1 then src (2 * n + 2) else src (2 * n)
  int16 ((src (2 * n + 1) - (src (2 * n) + next) / 2) / 2)

def lowBand (src : Nat → Int) (subbandWidth n : Nat) : Int :=
  int16 (src (2 * n) +
    if n = 0 then highBand src subbandWidth n
    else (highBand src subbandWidth (n - 1) + highBand src subbandWidth n) / 2)

/-- A band of a square: `vertical` of each column, then `horizontal` of each row. -/
def band (buffer : List Int) (subbandWidth : Nat)
    (horizontal vertical : (Nat → Int) → Nat → Nat → Int) : List Int :=
  (List.range subbandWidth).flatMap fun y => (List.range subbandWidth).map fun n =>
    horizontal (fun x => vertical (fun row => buffer.getD (row * (subbandWidth * 2) + x) 0)
      subbandWidth y) subbandWidth n

/-- `dwt_2d_encode_block`: the bands HL, LH, HH and LL. -/
def dwt2dEncodeBlock (buffer : List Int) (subbandWidth : Nat) : List Int :=
  band buffer subbandWidth highBand lowBand ++ band buffer subbandWidth lowBand highBand ++
    band buffer subbandWidth highBand highBand ++ band buffer subbandWidth lowBand lowBand

/-- `dwt_2d_encode`: each level works on the last quarter of that before. -/
def dwt2dEncode (buffer : List Int) : List Int :=
  let first := dwt2dEncodeBlock buffer 32
  let second := dwt2dEncodeBlock (first.drop 3072) 16
  let third := dwt2dEncodeBlock (second.drop 768) 8
  first.take 3072 ++ second.take 768 ++ third

def defaultQuant : Bytes := List.replicate 10 6

def quantizeBlock (buf : List Int) (factor : Nat) : List Int :=
  if factor = 0 then buf
  else buf.map fun value => int16 ((value + int16 (2 ^ (factor - 1) : Nat)) / (2 ^ factor : Nat))

/-- The bands in the order of the buffer: how many values they have, and which of the
quantization values is theirs. -/
def subbands : List (Nat × Nat) :=
  [(1024, 8), (1024, 7), (1024, 9), (256, 5), (256, 4), (256, 6), (64, 2), (64, 1), (64, 3),
    (64, 0)]

def quantizeBands (quant : Bytes) : List (Nat × Nat) → List Int → List Int
  | [], buf => buf
  | (count, index) :: rest, buf =>
    quantizeBlock (buf.take count) (quant.getD index 0 - 6).toNat ++
      quantizeBands quant rest (buf.drop count)

/-- `quantize_tile`. -/
def quantizeTile (buf : List Int) (quant : Bytes) : List Int :=
  quantizeBlock (quantizeBands quant subbands buf) 5

/-- `differential_encode_ll3`: each value but the first is replaced by its difference to
the one before. -/
def differentialEncodeLl3 : List Int → List Int
  | [] => []
  | first :: rest => first :: List.zipWith (fun cur prev => int16 (cur - prev)) rest (first :: rest)

def coefficients (samples : List Int) : List Int :=
  let buf := quantizeTile (dwt2dEncode samples) defaultQuant
  buf.take 4032 ++ differentialEncodeLl3 (buf.drop 4032)

/-- `struct bitstream`: `acc` holds the pending bits in its high end. -/
structure Bitstream where
  buf : Bytes := []
  cap : Nat
  acc : Nat := 0
  bits : Nat := 0
  deriving DecidableEq

/-- The loop of `bs_write` that writes out whole bytes. -/
def Bitstream.drain (bs : Bitstream) : Option Bitstream :=
  if bs.bits ≥ 8 then
    if bs.buf.length ≥ bs.cap then none
    else drain { bs with buf := bs.buf ++ [low (bs.acc / 2 ^ 24)], acc := bs.acc * 2 ^ 8 % 2 ^ 32
                         bits := bs.bits - 8 }
  else some bs
termination_by bs.bits

abbrev Write := Nat × Nat

/-- `bs_write`. -/
def bsWrite (bs : Bitstream) (write : Write) : Option Bitstream :=
  if write.2 = 0 then some bs
  else
    Bitstream.drain
      { bs with acc := bs.acc ||| (write.1 % 2 ^ write.2 * 2 ^ (32 - bs.bits - write.2)) % 2 ^ 32
                bits := bs.bits + write.2 }

/-- `bs_flush`. -/
def bsFlush (bs : Bitstream) : Option Bitstream :=
  if bs.bits > 0 then
    if bs.buf.length ≥ bs.cap then none
    else some { bs with buf := bs.buf ++ [low (bs.acc / 2 ^ 24)], acc := 0, bits := 0 }
  else some bs

def rlgrKpmax : Nat := 80

/-- `rlgr_update_param`, up. -/
def raiseParam (param delta : Nat) : Nat := min (param + delta) rlgrKpmax

/-- `rlgr_code_gr`: what it writes, and the parameter after it. -/
def rlgrCodeGr (krp val : Nat) : List Write × Nat :=
  let kr := krp / 8
  let vk := val / 2 ^ kr
  (List.replicate vk (1, 1) ++ [(0, 1)] ++ (if kr > 0 then [(val % 2 ^ kr, kr)] else []),
    if vk = 0 then krp - 2 else if vk > 1 then raiseParam krp vk else krp)

/-- The loop that writes a bit for each full run: what it writes, and the zeros that are
left with the parameter. -/
def rlgrRuns (zeros kp : Nat) : List Write × Nat × Nat :=
  if zeros < 2 ^ (kp / 8) then ([], zeros, kp)
  else
    let rest := rlgrRuns (zeros - 2 ^ (kp / 8)) (raiseParam kp 4)
    ((0, 1) :: rest.1, rest.2)
termination_by zeros
decreasing_by
  have positive := Nat.two_pow_pos (kp / 8)
  omega

def rlgrValue (krp : Nat) (input : Int) : List Write × Nat :=
  let code := rlgrCodeGr krp (if input = 0 then 0 else input.natAbs - 1)
  ((if input < 0 then 1 else 0, 1) :: code.1, code.2)

def twoMs (input : Int) : Nat := if input < 0 then input.natAbs * 2 - 1 else input.natAbs * 2

/-- The loop of `rlgr1_encode`: what it writes for the data that is left. -/
def rlgrLoop (kp krp : Nat) (data : List Int) : List Write :=
  match data with
  | [] => []
  | input :: rest =>
    if kp / 8 ≠ 0 then
      -- the zeros are counted in a `uint32_t`
      let runs := rlgrRuns (((input :: rest).takeWhile (· == 0)).length % 2 ^ 32) kp
      let after := (input :: rest).dropWhile (· == 0)
      match after.head? with
      | none => runs.1 ++ [(1, 1), (runs.2.1, runs.2.2 / 8)]
      | some value =>
        let code := rlgrValue krp value
        runs.1 ++ [(1, 1), (runs.2.1, runs.2.2 / 8)] ++ code.1 ++
          rlgrLoop (runs.2.2 - 6) code.2 after.tail
    else
      let code := rlgrCodeGr krp (twoMs input)
      code.1 ++ rlgrLoop (if twoMs input ≠ 0 then kp - 3 else raiseParam kp 3) code.2 rest
termination_by data.length
decreasing_by
  · have shorter := (List.dropWhile_sublist (· == 0) (l := input :: rest)).length_le
    rw [List.length_cons] at shorter ⊢
    rw [List.length_tail]
    omega
  · exact Nat.lt_succ_self _

/-- What `rlgr1_encode` writes. -/
def rlgrWrites (data : List Int) : List Write := rlgrLoop 8 8 data

/-- `rlgr1_encode`. -/
def rlgr1Encode (data : List Int) (bufferSize : Nat) : Option Bytes :=
  (((rlgrWrites data).foldlM bsWrite { cap := bufferSize }).bind bsFlush).map Bitstream.buf

/-- `put_quant`. -/
def putQuant (q : Bytes) : Bytes :=
  let pair (first second : Nat) : UInt8 :=
    low ((q.getD first 0).toNat % 16 + (q.getD second 0).toNat % 16 * 16)
  [pair 0 2, pair 1 3, pair 5 4, pair 6 8, pair 7 9]

/-- `write_tile_simple`: the bytes behind `off` others. -/
def writeTileSimple (cap off xIdx yIdx : Nat) (yData cbData crData : Bytes) :
    Option Bytes :=
  let need := 22 + yData.length + cbData.length + crData.length
  if off + need > cap then none
  else if yData.length > 0xffff ∨ cbData.length > 0xffff ∨ crData.length > 0xffff then none
  else
    some (leBytes 2 0xCCC5 ++ leBytes 4 need ++ [0, 0, 0] ++ leBytes 2 xIdx ++ leBytes 2 yIdx ++
      [0] ++
      leBytes 2 yData.length ++ leBytes 2 cbData.length ++ leBytes 2 crData.length ++ leBytes 2 0 ++
      yData ++ cbData ++ crData)

def planeCap : Nat := 8192

structure Frame where
  bgr : Bytes
  width : Nat
  height : Nat
  deriving DecidableEq

namespace Frame

variable (frame : Frame)

def tcols : Nat := (frame.width + tileSize - 1) / tileSize

def trows : Nat := (frame.height + tileSize - 1) / tileSize

/-- `numTiles`, a `uint16_t`. -/
def numTiles : Nat := frame.tcols * frame.trows % 2 ^ 16

/-- The coefficients of a plane of the tile in column `xi` and row `yi`. -/
def tileCoefficients (xi yi : Nat) (plane : Plane) : List Int :=
  coefficients (tilePlane frame.bgr (frame.width * 3) (xi * tileSize) (yi * tileSize)
    (min (frame.width - xi * tileSize) tileSize)
      (min (frame.height - yi * tileSize) tileSize) plane)

/-- `encode_tile`. -/
def encodeTile (xi yi cap off : Nat) : Option Bytes :=
  let code (plane : Plane) := rlgr1Encode (frame.tileCoefficients xi yi plane) planeCap
  (code .y).bind fun yData => (code .cb).bind fun cbData => (code .cr).bind fun crData =>
    writeTileSimple cap off xi yi yData cbData crData

/-- The columns and rows of the tiles, in the order in which they are encoded. -/
def tiles : List (Nat × Nat) :=
  (List.range frame.trows).flatMap fun yi => (List.range frame.tcols).map fun xi => (xi, yi)

def preamble (frameIndex : Nat) : Bytes :=
  leBytes 2 0xCCC0 ++ leBytes 4 12 ++ leBytes 4 0xCACCACCA ++ leBytes 2 0x0100 ++
    (leBytes 2 0xCCC3 ++ leBytes 4 10 ++ [0] ++ leBytes 2 64 ++ [0]) ++
    (leBytes 2 0xCCC1 ++ leBytes 4 12 ++ leBytes 4 frameIndex ++ leBytes 2 1)

/-- The header of the region, with the lengths that are patched in when the tiles have
been written. -/
def regionHeader (tileDataSize : Nat) : Bytes :=
  leBytes 2 0xCCC4 ++ leBytes 4 (31 + tileDataSize) ++ [64] ++ leBytes 2 1 ++ [1, 0, 0] ++
    leBytes 2 frame.numTiles ++ leBytes 4 tileDataSize ++
    (leBytes 2 0 ++ leBytes 2 0 ++ leBytes 2 frame.width ++ leBytes 2 frame.height) ++
    putQuant defaultQuant

def tilesOffset : Nat := 65

def encodeTiles (cap : Nat) : Option Bytes :=
  frame.tiles.foldlM
    (fun out tile =>
      (frame.encodeTile tile.1 tile.2 cap (tilesOffset + out.length)).map (out ++ ·)) []

end Frame

/-- `struct rdp_progressive`, without its scratch buffers. -/
structure Encoder where
  frameIndex : Nat := 0
  outCap : Nat := 0
  deriving DecidableEq

/-- `rdp_progressive_encode`. The buffer only grows, also for a frame that is refused. -/
def Encoder.encode (p : Encoder) (frame : Frame) : Encoder × Option Bytes :=
  if frame.width = 0 ∨ frame.height = 0 then (p, none)
  else
    let p := { p with outCap := max p.outCap (64 * 1024 + frame.numTiles * 8 * 1024) }
    match frame.encodeTiles p.outCap with
    | none => (p, none)
    | some tiles =>
      if Frame.tilesOffset + tiles.length + 6 > p.outCap then (p, none)
      else
        ({ p with frameIndex := (p.frameIndex + 1) % 2 ^ 32 },
          some (Frame.preamble p.frameIndex ++ frame.regionHeader tiles.length ++ tiles ++
            (leBytes 2 0xCCC2 ++ leBytes 4 6)))

open List Option Bits

def writeBits (writes : List Write) : List Bool :=
  writes.flatMap fun write => Bits.of write.2 write.1

@[simp] theorem writeBits_nil : writeBits [] = [] := rfl

@[simp] theorem writeBits_cons (write : Write) (writes : List Write) :
    writeBits (write :: writes) = of write.2 write.1 ++ writeBits writes :=
  flatMap_cons

@[simp] theorem writeBits_append (first second : List Write) :
    writeBits (first ++ second) = writeBits first ++ writeBits second :=
  flatMap_append

def runWrites (zeros kp : Nat) : List Write :=
  (rlgrRuns zeros kp).1 ++ [(1, 1), ((rlgrRuns zeros kp).2.1, (rlgrRuns zeros kp).2.2 / 8)]

def countedRuns (kp : Nat) (data : List Int) : List Nat :=
  match data with
  | [] => []
  | input :: rest =>
    if kp / 8 ≠ 0 then
      let zeros := ((input :: rest).takeWhile (· == 0)).length
      let after := (input :: rest).dropWhile (· == 0)
      zeros :: countedRuns ((rlgrRuns (zeros % 2 ^ 32) kp).2.2 - 6) after.tail
    else countedRuns (if twoMs input ≠ 0 then kp - 3 else raiseParam kp 3) rest
termination_by data.length
decreasing_by
  · have shorter := (List.dropWhile_sublist (· == 0) (l := input :: rest)).length_le
    rw [List.length_cons] at shorter ⊢
    rw [List.length_tail]
    omega
  · exact Nat.lt_succ_self _

/-- The data is taken apart into the symbols that the coder writes, with the runs it counts. -/
inductive Coded : Nat → Nat → List Int → List Nat → List Write → Prop
  | nil {kp krp : Nat} : Coded kp krp [] [] []
  | zeros {kp krp n : Nat} (runMode : kp / 8 ≠ 0) :
      Coded kp krp (List.replicate (n + 1) 0) [n + 1] (runWrites ((n + 1) % 2 ^ 32) kp)
  | value {kp krp n : Nat} {value : Int} {data : List Int} {runs : List Nat} {writes : List Write}
      (runMode : kp / 8 ≠ 0) (nonzero : value ≠ 0)
      (rest : Coded ((rlgrRuns (n % 2 ^ 32) kp).2.2 - 6) (rlgrValue krp value).2 data runs writes) :
      Coded kp krp (List.replicate n 0 ++ value :: data) (n :: runs)
        (runWrites (n % 2 ^ 32) kp ++ (rlgrValue krp value).1 ++ writes)
  | code {kp krp : Nat} {input : Int} {data : List Int} {runs : List Nat} {writes : List Write}
      (codeMode : ¬ kp / 8 ≠ 0)
      (rest : Coded (if twoMs input ≠ 0 then kp - 3 else raiseParam kp 3)
        (rlgrCodeGr krp (twoMs input)).2 data runs writes) :
      Coded kp krp (input :: data) runs ((rlgrCodeGr krp (twoMs input)).1 ++ writes)

theorem takeWhile_zero (data : List Int) :
    data.takeWhile (· == 0) = List.replicate (data.takeWhile (· == 0)).length 0 :=
  eq_replicate_of_mem fun input member => by simpa using mem_takeWhile_imp member

theorem rlgrLoop_coded (kp krp : Nat) (data : List Int) :
    Coded kp krp data (countedRuns kp data) (rlgrLoop kp krp data) := by
  induction kp, krp, data using rlgrLoop.induct with
  | case1 kp krp =>
    rw [rlgrLoop, countedRuns]
    exact .nil
  | case2 kp krp input rest runMode after none =>
    have last : (input :: rest).dropWhile (· == 0) = [] := head?_eq_none_iff.1 none
    have zeros := takeWhile_zero (input :: rest)
    have whole := takeWhile_append_dropWhile (p := (· == (0 : Int))) (l := input :: rest)
    rw [last, append_nil] at whole
    rw [whole] at zeros
    rw [rlgrLoop, countedRuns, if_pos runMode, if_pos runMode]
    dsimp only
    rw [last, whole, tail_nil, countedRuns, length_cons, zeros]
    exact .zeros runMode
  | case3 kp krp input rest runMode runs after value head code ih =>
    have first : ((input :: rest).dropWhile (· == 0)).head? = some value := head
    have nonzero : value ≠ 0 := by
      have stop := head?_dropWhile_not (· == (0 : Int)) (input :: rest)
      rw [first] at stop
      simpa using stop
    have split := takeWhile_append_dropWhile (p := (· == (0 : Int))) (l := input :: rest)
    rw [← cons_head?_tail first, takeWhile_zero] at split
    have coded := Coded.value runMode nonzero ih
    rw [show replicate _ 0 ++ value :: after.tail = input :: rest from split] at coded
    rw [rlgrLoop, countedRuns, if_pos runMode, if_pos runMode]
    dsimp only
    rw [first]
    exact coded
  | case4 kp krp input rest codeMode code ih =>
    rw [rlgrLoop, countedRuns, if_neg codeMode, if_neg codeMode]
    exact .code codeMode ih

theorem zeros_eq {n : Nat} (positive : n ≠ 0) :
    rlgrWrites (List.replicate n 0) = runWrites (n % 2 ^ 32) 8 ∧
      countedRuns 8 (List.replicate n 0) = [n] := by
  obtain ⟨n, rfl⟩ := Nat.exists_eq_succ_of_ne_zero positive
  have taken : ((0 : Int) :: replicate n 0).takeWhile (· == 0) = 0 :: replicate n 0 := by
    rw [takeWhile_eq_self_iff, ← replicate_succ]
    intro input member
    rw [eq_of_mem_replicate member]
    rfl
  have dropped : ((0 : Int) :: replicate n 0).dropWhile (· == 0) = [] := by
    rw [dropWhile_eq_nil_iff, ← replicate_succ]
    intro input member
    rw [eq_of_mem_replicate member]
    rfl
  rw [rlgrWrites, replicate_succ, rlgrLoop, countedRuns]
  dsimp only
  rw [taken, dropped, length_cons, length_replicate, tail_nil, countedRuns]
  exact ⟨rfl, rfl⟩

structure Bitstream.Holds (bs : Bitstream) (taken : List Bool) : Prop where
  fits : bs.bits ≤ 32
  pending : ∃ top, bs.acc = top * 2 ^ (32 - bs.bits) ∧
    taken = Bits.ofOctets bs.buf ++ Bits.of bs.bits top

theorem ofOctets_low (value : Nat) : ofOctets [low value] = of 8 value := by
  have octet : ofOctets [low value] = of 8 (low value).toNat := append_nil _
  rw [octet, toNat_low, show 256 = 2 ^ 8 from rfl, of_mod le_rfl]

variable {taken : List Bool} {bs : Bitstream}

theorem Bitstream.Holds.byte (holds : bs.Holds taken) (whole : 8 ≤ bs.bits) :
    Bitstream.Holds { bs with buf := bs.buf ++ [low (bs.acc / 2 ^ 24)]
                              acc := bs.acc * 2 ^ 8 % 2 ^ 32, bits := bs.bits - 8 } taken := by
  obtain ⟨fits, top, same, bits⟩ := holds
  refine ⟨le_trans (Nat.sub_le _ _) fits, top % 2 ^ (bs.bits - 8), ?_, ?_⟩
  · have width : 2 ^ 32 = 2 ^ (bs.bits - 8) * 2 ^ (32 - (bs.bits - 8)) := by
      rw [← Nat.pow_add]
      congr 1
      omega
    have shifted : bs.acc * 2 ^ 8 = top * 2 ^ (32 - (bs.bits - 8)) := by
      rw [same, Nat.mul_assoc, ← Nat.pow_add]
      congr 2
      omega
    rw [shifted, width, Nat.mul_mod_mul_right]
  · have width : 2 ^ 24 = 2 ^ (bs.bits - 8) * 2 ^ (32 - bs.bits) := by
      rw [← Nat.pow_add]
      congr 1
      omega
    have octet : bs.acc / 2 ^ 24 = top / 2 ^ (bs.bits - 8) := by
      rw [same, width, Nat.mul_div_mul_right _ _ (Nat.two_pow_pos _)]
    rw [bits, ofOctets_append, ofOctets_low, octet, of_mod le_rfl, append_assoc,
      ← of_append, Nat.add_sub_cancel' whole]

variable {next : Bitstream}

theorem drain_holds (holds : bs.Holds taken) (drained : bs.drain = some next) :
    next.Holds taken ∧ next.bits < 8 := by
  induction pending : bs.bits using Nat.strong_induction_on generalizing bs with
  | _ pending ih =>
    rw [Bitstream.drain] at drained
    by_cases whole : bs.bits ≥ 8
    · rw [if_pos whole] at drained
      by_cases full : bs.buf.length ≥ bs.cap
      · rw [if_pos full] at drained
        cases drained
      · rw [if_neg full] at drained
        exact ih (bs.bits - 8) (by omega) (holds.byte whole) drained rfl
    · rw [if_neg whole] at drained
      obtain rfl := some.inj drained
      exact ⟨holds, Nat.not_le.1 whole⟩

section

variable (holds : bs.Holds taken) (pending : bs.bits < 8)
include holds pending

theorem bsWrite_holds {write : Write} (narrow : write.2 ≤ 24)
    (written : bsWrite bs write = some next) :
    next.Holds (taken ++ of write.2 write.1) ∧ next.bits < 8 := by
  rw [bsWrite] at written
  by_cases empty : write.2 = 0
  · rw [if_pos empty] at written
    obtain rfl := some.inj written
    rw [empty, of, append_nil]
    exact ⟨holds, pending⟩
  · rw [if_neg empty] at written
    refine drain_holds ⟨?_, ?_⟩ written
    · dsimp only
      omega
    · obtain ⟨fits, top, same, bits⟩ := holds
      refine ⟨top * 2 ^ write.2 + write.1 % 2 ^ write.2, ?_, ?_⟩
      · have width : 2 ^ (32 - bs.bits) = 2 ^ write.2 * 2 ^ (32 - bs.bits - write.2) := by
          rw [← Nat.pow_add]
          congr 1
          omega
        have below : write.1 % 2 ^ write.2 * 2 ^ (32 - bs.bits - write.2) < 2 ^ (32 - bs.bits) := by
          rw [width]
          exact Nat.mul_lt_mul_of_pos_right (Nat.mod_lt _ (Nat.two_pow_pos _)) (Nat.two_pow_pos _)
        have inside : 2 ^ (32 - bs.bits) ≤ 2 ^ 32 := Nat.pow_le_pow_right (by decide) (by omega)
        rw [Nat.mod_eq_of_lt (lt_of_lt_of_le below inside), same, Nat.mul_comm top,
          ← Nat.two_pow_add_eq_or_of_lt below, width, Nat.sub_sub, Nat.mul_comm _ top,
          ← Nat.mul_assoc, ← Nat.add_mul]
      · rw [bits, of_join, append_assoc]

theorem writes_hold {writes : List Write} (narrow : ∀ write ∈ writes, write.2 ≤ 24)
    (written : writes.foldlM bsWrite bs = some next) :
    next.Holds (taken ++ writeBits writes) ∧ next.bits < 8 := by
  induction writes generalizing bs taken with
  | nil =>
    obtain rfl := some.inj written
    rw [writeBits_nil, append_nil]
    exact ⟨holds, pending⟩
  | cons write writes ih =>
    obtain ⟨middle, first, rest⟩ := bind_eq_some_iff.1 written
    obtain ⟨held, short⟩ := bsWrite_holds holds pending (narrow write mem_cons_self) first
    rw [writeBits_cons, ← append_assoc]
    exact ih held short (fun other member => narrow other (mem_cons_of_mem _ member)) rest

theorem bsFlush_holds (flushed : bsFlush bs = some next) :
    ∃ pad, ofOctets next.buf = taken ++ List.replicate pad false := by
  obtain ⟨fits, top, same, bits⟩ := holds
  rw [bsFlush] at flushed
  by_cases left : bs.bits > 0
  · rw [if_pos left] at flushed
    by_cases full : bs.buf.length ≥ bs.cap
    · rw [if_pos full] at flushed
      cases flushed
    · rw [if_neg full] at flushed
      obtain rfl := some.inj flushed
      refine ⟨8 - bs.bits, ?_⟩
      have width : 2 ^ (32 - bs.bits) = 2 ^ (8 - bs.bits) * 2 ^ 24 := by
        rw [← Nat.pow_add]
        congr 1
        omega
      have octet : bs.acc / 2 ^ 24 = top * 2 ^ (8 - bs.bits) + 0 % 2 ^ (8 - bs.bits) := by
        rw [same, width, ← Nat.mul_assoc, Nat.mul_div_cancel _ (by decide), Nat.zero_mod,
          Nat.add_zero]
      have padded : of 8 (bs.acc / 2 ^ 24) =
          of bs.bits top ++ replicate (8 - bs.bits) false := by
        rw [← of_zero, ← of_join, ← octet, Nat.add_sub_cancel' (le_of_lt pending)]
      rw [ofOctets_append, ofOctets_low, padded, bits, append_assoc]
  · rw [if_neg left] at flushed
    obtain rfl := some.inj flushed
    have none : bs.bits = 0 := Nat.eq_zero_of_not_pos left
    refine ⟨0, ?_⟩
    rw [bits, none, of, append_nil, replicate_zero, append_nil]

end

theorem raiseParam_le (param delta : Nat) : raiseParam param delta ≤ rlgrKpmax :=
  min_le_right _ _

theorem rlgrCodeGr_narrow {krp val : Nat} (bounded : krp ≤ rlgrKpmax) :
    (∀ write ∈ (rlgrCodeGr krp val).1, write.2 ≤ 24) ∧ (rlgrCodeGr krp val).2 ≤ rlgrKpmax := by
  have limit : krp ≤ 80 := bounded
  constructor
  · intro write member
    simp only [rlgrCodeGr, mem_append, mem_replicate, mem_singleton] at member
    rcases member with (⟨-, rfl⟩ | rfl) | last
    · decide
    · decide
    · split_ifs at last
      · rw [mem_singleton.1 last]
        omega
      · cases last
  · rw [rlgrCodeGr]
    dsimp only
    split_ifs
    · exact le_trans (Nat.sub_le _ _) bounded
    · exact raiseParam_le _ _
    · exact bounded

theorem rlgrRuns_narrow {zeros kp : Nat} (bounded : kp ≤ rlgrKpmax) :
    (∀ write ∈ (rlgrRuns zeros kp).1, write.2 ≤ 24) ∧ (rlgrRuns zeros kp).2.2 ≤ rlgrKpmax := by
  induction zeros, kp using rlgrRuns.induct with
  | case1 zeros kp short =>
    rw [rlgrRuns, if_pos short]
    refine ⟨fun write member => ?_, bounded⟩
    cases member
  | case2 zeros kp long ih =>
    obtain ⟨narrow, limit⟩ := ih (raiseParam_le _ _)
    rw [rlgrRuns, if_neg long]
    refine ⟨fun write member => ?_, limit⟩
    rcases mem_cons.1 member with rfl | member
    · decide
    · exact narrow write member

theorem runWrites_narrow {zeros kp : Nat} (bounded : kp ≤ rlgrKpmax) :
    ∀ write ∈ runWrites zeros kp, write.2 ≤ 24 := by
  obtain ⟨narrow, limit⟩ := @rlgrRuns_narrow zeros kp bounded
  have limit : (rlgrRuns zeros kp).2.2 ≤ 80 := limit
  intro write member
  rcases mem_append.1 member with inside | behind
  · exact narrow write inside
  · rcases mem_pair.1 behind with rfl | rfl
    · decide
    · omega

theorem Coded.narrow {kp krp : Nat} {data : List Int} {runs : List Nat} {writes : List Write}
    (coded : Coded kp krp data runs writes) (bounded : kp ≤ rlgrKpmax)
    (limited : krp ≤ rlgrKpmax) : ∀ write ∈ writes, write.2 ≤ 24 := by
  induction coded with
  | nil =>
    intro write member
    cases member
  | zeros => exact runWrites_narrow bounded
  | value runMode nonzero _ ih =>
    intro write member
    rw [append_assoc, mem_append, mem_append] at member
    rcases member with inRun | inValue | behind
    · exact runWrites_narrow bounded write inRun
    · rcases mem_cons.1 inValue with rfl | inCode
      · change 1 ≤ 24
        decide
      · exact (rlgrCodeGr_narrow limited).1 write inCode
    · refine ih ?_ (rlgrCodeGr_narrow limited).2 write behind
      exact le_trans (Nat.sub_le _ _) (rlgrRuns_narrow bounded).2
  | code codeMode _ ih =>
    intro write member
    rcases mem_append.1 member with here | behind
    · exact (rlgrCodeGr_narrow limited).1 write here
    · refine ih ?_ (rlgrCodeGr_narrow limited).2 write behind
      split_ifs
      · exact le_trans (Nat.sub_le _ _) bounded
      · exact raiseParam_le _ _

/-- **The bits of a code.** They are those of the writes, with zeros behind them. -/
theorem rlgr1Encode_bits {data : List Int} {cap : Nat} {code : Bytes}
    (encoded : rlgr1Encode data cap = some code) :
    ∃ pad, ofOctets code = writeBits (rlgrWrites data) ++ List.replicate pad false := by
  rw [rlgr1Encode, map_eq_some_iff] at encoded
  obtain ⟨last, flushed, rfl⟩ := encoded
  obtain ⟨bs, written, flushed⟩ := bind_eq_some_iff.1 flushed
  have start : Bitstream.Holds { cap := cap } [] :=
    ⟨Nat.zero_le 32, 0, (Nat.zero_mul _).symm, rfl⟩
  obtain ⟨held, pending⟩ := writes_hold start (Nat.zero_lt_succ 7)
    ((rlgrLoop_coded 8 8 data).narrow (by decide) (by decide)) written
  exact bsFlush_holds held pending flushed

end RdpServer.Progressive
