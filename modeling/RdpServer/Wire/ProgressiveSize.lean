import Mathlib.Algebra.Order.BigOperators.Group.List
import Mathlib.Algebra.Order.Group.Nat
import RdpServer.Lib.Rows
import RdpServer.Wire.Progressive

/-!
# The size of a progressive frame

The size of a plane's code is the number of bits that the entropy coder writes, in bytes. From
this follows exactly which frames the encoder takes (`Encoder.encode_isSome`). The buffer for a
frame has room for 8192 bytes a tile and a constant: a picture that repeats two rows of two
pixels with strong colours takes over 9000 bytes a tile, and is refused (`vivid_refused`).
-/

namespace RdpServer.Progressive

open Bytes List Option

def totalBits (writes : List Write) : Nat := (writes.map Prod.snd).sum

@[simp] theorem totalBits_cons (write : Write) (writes : List Write) :
    totalBits (write :: writes) = write.2 + totalBits writes := List.sum_cons

@[simp] theorem totalBits_append (first second : List Write) :
    totalBits (first ++ second) = totalBits first + totalBits second := by
  rw [totalBits, map_append, sum_append]
  rfl

def Bitstream.used (bs : Bitstream) : Nat := 8 * bs.buf.length + bs.bits

structure Bitstream.Ready (bs : Bitstream) : Prop where
  pending : bs.bits < 8
  within : bs.buf.length ≤ bs.cap

/-- What a writer makes of a stream that is to hold some bits: it fails if the whole
bytes do not fit, or takes them. -/
inductive Takes (cap used : Nat) : Option Bitstream → Prop
  | full (outside : cap < used / 8) : Takes cap used none
  | taken (bs : Bitstream) (same : bs.cap = cap) (ready : bs.Ready) (count : bs.used = used) :
      Takes cap used (some bs)

theorem drain_takes (bs : Bitstream) (within : bs.buf.length ≤ bs.cap) :
    Takes bs.cap bs.used bs.drain := by
  induction pending : bs.bits using Nat.strong_induction_on generalizing bs with
  | _ pending ih =>
    subst pending
    rw [Bitstream.drain]
    by_cases whole : bs.bits ≥ 8
    · rw [if_pos whole]
      by_cases full : bs.buf.length ≥ bs.cap
      · rw [if_pos full]
        refine .full ?_
        rw [Bitstream.used]
        omega
      · rw [if_neg full]
        have length : (bs.buf ++ [low (bs.acc / 2 ^ 24)]).length = bs.buf.length + 1 :=
          length_append
        have used : bs.used = 8 * (bs.buf.length + 1) + (bs.bits - 8) := by
          rw [Bitstream.used]
          omega
        rw [used, ← length]
        generalize bs.acc * 2 ^ 8 % 2 ^ 32 = acc
        refine ih (bs.bits - 8) ?_
          { bs with buf := bs.buf ++ [low (bs.acc / 2 ^ 24)], acc := acc, bits := bs.bits - 8 }
            ?_ rfl
        · exact Nat.sub_lt_of_pos_le (by decide) whole
        · rw [length]
          exact Nat.not_le.1 full
    · rw [if_neg whole]
      exact .taken bs rfl ⟨Nat.not_le.1 whole, within⟩ rfl

theorem bsWrite_takes {bs : Bitstream} (ready : bs.Ready) (write : Write) :
    Takes bs.cap (bs.used + write.2) (bsWrite bs write) := by
  rw [bsWrite]
  by_cases none : write.2 = 0
  · rw [none]
    exact .taken bs rfl ready rfl
  · rw [if_neg none, Bitstream.used, Nat.add_assoc]
    generalize bs.acc ||| _ = acc
    exact drain_takes { bs with acc := acc, bits := bs.bits + write.2 } ready.within

theorem writes_takes (bs : Bitstream) (ready : bs.Ready) (writes : List Write) :
    Takes bs.cap (bs.used + totalBits writes) (writes.foldlM bsWrite bs) := by
  induction writes generalizing bs with
  | nil => exact .taken bs rfl ready rfl
  | cons write rest ih =>
    have first := bsWrite_takes ready write
    rw [foldlM_cons, totalBits_cons, ← Nat.add_assoc]
    generalize bsWrite bs write = result at first
    cases first with
    | full outside => exact .full (by omega)
    | taken next same ready count =>
      rw [← count, ← same]
      exact ih next ready

def codeLength (data : List Int) : Nat := (totalBits (rlgrWrites data) + 7) / 8

theorem rlgr1Encode_eq (data : List Int) (cap : Nat) :
    (cap < codeLength data ∧ rlgr1Encode data cap = none) ∨ codeLength data ≤ cap ∧
        ∃ code, rlgr1Encode data cap = some code ∧ code.length = codeLength data := by
  have takes : Takes cap (0 + totalBits (rlgrWrites data)) _ :=
    writes_takes { cap := cap } ⟨Nat.zero_lt_succ 7, Nat.zero_le cap⟩ (rlgrWrites data)
  rw [rlgr1Encode, codeLength]
  generalize (rlgrWrites data).foldlM bsWrite _ = result at takes ⊢
  cases takes with
  | full outside => exact .inl ⟨by omega, rfl⟩
  | taken bs same ready count =>
    rw [Bitstream.used] at count
    have pending := ready.pending
    have within := ready.within
    rw [bind_some, bsFlush]
    by_cases rest : bs.bits > 0
    · rw [if_pos rest]
      by_cases full : bs.buf.length ≥ bs.cap
      · rw [if_pos full]
        exact .inl ⟨by omega, rfl⟩
      · rw [if_neg full]
        refine .inr ⟨by omega, _, rfl, ?_⟩
        rw [length_append, length_singleton]
        omega
    · rw [if_neg rest]
      exact .inr ⟨by omega, _, rfl, by omega⟩

namespace Frame

variable (frame : Frame)

def planeLength (tile : Nat × Nat) (plane : Plane) : Nat :=
  codeLength (frame.tileCoefficients tile.1 tile.2 plane)

def PlanesFit (tile : Nat × Nat) : Prop := ∀ plane, frame.planeLength tile plane ≤ planeCap

def tileLength (tile : Nat × Nat) : Nat :=
  22 + frame.planeLength tile .y + frame.planeLength tile .cb + frame.planeLength tile .cr

theorem encodeTile_eq (tile : Nat × Nat) (cap off : Nat) :
    (¬ (frame.PlanesFit tile ∧ off + frame.tileLength tile ≤ cap) ∧
        frame.encodeTile tile.1 tile.2 cap off = none) ∨
      (frame.PlanesFit tile ∧ off + frame.tileLength tile ≤ cap) ∧
        ∃ code, frame.encodeTile tile.1 tile.2 cap off = some code ∧
          code.length = frame.tileLength tile := by
  rw [encodeTile]
  dsimp only
  rcases rlgr1Encode_eq (frame.tileCoefficients tile.1 tile.2 .y) planeCap with
    ⟨large, none⟩ | ⟨yFits, yData, yCode, yLength⟩
  · exact .inl ⟨fun fits => Nat.not_le.2 large (fits.1 .y), by rw [none]; rfl⟩
  rcases rlgr1Encode_eq (frame.tileCoefficients tile.1 tile.2 .cb) planeCap with
    ⟨large, none⟩ | ⟨cbFits, cbData, cbCode, cbLength⟩
  · exact .inl ⟨fun fits => Nat.not_le.2 large (fits.1 .cb), by rw [yCode, none]; rfl⟩
  rcases rlgr1Encode_eq (frame.tileCoefficients tile.1 tile.2 .cr) planeCap with
    ⟨large, none⟩ | ⟨crFits, crData, crCode, crLength⟩
  · exact .inl ⟨fun fits => Nat.not_le.2 large (fits.1 .cr), by rw [yCode, cbCode, none]; rfl⟩
  have planes : frame.PlanesFit tile := by
    intro plane
    cases plane with
    | y => exact yFits
    | cb => exact cbFits
    | cr => exact crFits
  have length : 22 + yData.length + cbData.length + crData.length = frame.tileLength tile := by
    rw [yLength, cbLength, crLength]
    rfl
  rw [planeCap] at yFits cbFits crFits
  rw [yCode, cbCode, crCode, bind_some, bind_some, bind_some, writeTileSimple, length]
  by_cases outside : off + frame.tileLength tile > cap
  · rw [if_pos outside]
    exact .inl ⟨fun fits => Nat.not_le.2 outside fits.2, rfl⟩
  · rw [if_neg outside, if_neg (by omega)]
    refine .inr ⟨⟨planes, Nat.not_lt.1 outside⟩, _, rfl, ?_⟩
    simp only [length_append, length_leBytes]
    omega

def tilesLength (tiles : List (Nat × Nat)) : Nat := (tiles.map frame.tileLength).sum

theorem encodeTiles_eq (cap : Nat) (tiles : List (Nat × Nat)) (out : Bytes)
    (within : tilesOffset + out.length ≤ cap) :
    let fits := (∀ tile ∈ tiles, frame.PlanesFit tile) ∧
      tilesOffset + out.length + frame.tilesLength tiles ≤ cap
    let result := tiles.foldlM (fun out tile =>
        (frame.encodeTile tile.1 tile.2 cap (tilesOffset + out.length)).map (out ++ ·)) out
    (¬ fits ∧ result = none) ∨
      fits ∧ ∃ code, result = some code ∧ code.length = out.length + frame.tilesLength tiles := by
  intro fits result
  induction tiles generalizing out with
  | nil => exact .inr ⟨⟨fun _ no => absurd no (not_mem_nil), within⟩, out, rfl, rfl⟩
  | cons tile rest ih =>
    have sum : frame.tilesLength (tile :: rest) = frame.tileLength tile + frame.tilesLength rest :=
      sum_cons
    rcases frame.encodeTile_eq tile cap (tilesOffset + out.length) with
      ⟨unfit, none⟩ | ⟨⟨planes, inside⟩, code, encoded, length⟩
    · refine .inl ⟨fun all => unfit ⟨all.1 tile mem_cons_self, ?_⟩, ?_⟩
      · omega
      · simp only [result, foldlM_cons, none]
        rfl
    · have grown : (out ++ code).length = out.length + frame.tileLength tile := by
        rw [length_append, length]
      have step : result = rest.foldlM (fun out tile =>
            (frame.encodeTile tile.1 tile.2 cap (tilesOffset + out.length)).map (out ++ ·))
          (out ++ code) := by
        simp only [result, foldlM_cons, encoded]
        rfl
      rw [step]
      rcases ih (out ++ code) (by omega) with ⟨unfit, none⟩ | ⟨⟨others, last⟩, all, coded, count⟩
      · refine .inl ⟨fun all => unfit ⟨fun other member => all.1 other (.tail _ member), ?_⟩, none⟩
        omega
      · refine .inr ⟨⟨?_, by omega⟩, all, coded, by omega⟩
        intro other member
        rcases mem_cons.1 member with rfl | member
        · exact planes
        · exact others other member

def encodedLength : Nat := tilesOffset + frame.tilesLength frame.tiles + 6

end Frame

def Encoder.room (p : Encoder) (frame : Frame) : Nat :=
  max p.outCap (64 * 1024 + frame.numTiles * 8 * 1024)

/-- **A frame is taken exactly if the codes of all planes fit their buffers and the frame
fits the buffer that is sized by the number of its tiles.** -/
theorem Encoder.encode_isSome (p : Encoder) (frame : Frame) :
    (p.encode frame).2.isSome ↔
      frame.width ≠ 0 ∧ frame.height ≠ 0 ∧ (∀ tile ∈ frame.tiles, frame.PlanesFit tile) ∧
        frame.encodedLength ≤ p.room frame := by
  rw [encode]
  by_cases empty : frame.width = 0 ∨ frame.height = 0
  · rw [if_pos empty]
    constructor
    · exact nofun
    · rintro ⟨wide, high, -⟩
      exact (empty.elim wide high).elim
  rw [if_neg empty]
  dsimp only
  have wide : frame.width ≠ 0 := fun zero => empty (.inl zero)
  have high : frame.height ≠ 0 := fun zero => empty (.inr zero)
  have least : 65 ≤ p.room frame := by
    rw [room]
    omega
  have tiles := frame.encodeTiles_eq (p.room frame) frame.tiles [] least
  rw [Frame.encodedLength]
  rcases tiles with ⟨unfit, none⟩ | ⟨⟨planes, inside⟩, code, encoded, length⟩
  · rw [show frame.encodeTiles (max p.outCap (64 * 1024 + frame.numTiles * 8 * 1024)) = _ from none]
    constructor
    · exact nofun
    · rintro ⟨-, -, planes, inside⟩
      refine (unfit ⟨planes, ?_⟩).elim
      rw [length_nil]
      omega
  · rw [show frame.encodeTiles (max p.outCap (64 * 1024 + frame.numTiles * 8 * 1024)) =
      _ from encoded]
    rw [length_nil, Nat.zero_add] at length
    dsimp only
    rw [length]
    by_cases large : Frame.tilesOffset + frame.tilesLength frame.tiles + 6 > p.room frame
    · rw [if_pos (by exact large)]
      constructor
      · exact nofun
      · rintro ⟨-, -, -, inside⟩
        exact (Nat.not_le.2 large inside).elim
    · rw [if_neg (by exact large)]
      exact ⟨fun _ => ⟨wide, high, planes, Nat.not_lt.1 large⟩, fun _ => rfl⟩

/-- The bits that any state of the coder writes for a coefficient, at least. -/
def leastBits (input : Int) : Nat := if input = 0 then 0 else Nat.log2 (2 * input.natAbs - 1) + 2

theorem rlgrCodeGr_ge (krp : Nat) {val : Nat} (positive : val ≠ 0) :
    Nat.log2 val + 2 ≤ totalBits (rlgrCodeGr krp val).1 := by
  have bits : totalBits (rlgrCodeGr krp val).1 = val / 2 ^ (krp / 8) + 1 + krp / 8 := by
    have ones (n : Nat) : totalBits (replicate n (1, 1)) = n := by
      induction n with
      | zero => rfl
      | succ n ih => rw [replicate_succ, totalBits_cons, ih, Nat.add_comm]
    rw [rlgrCodeGr, totalBits_append, totalBits_append, ones]
    by_cases some : krp / 8 > 0
    · rw [if_pos some]
      rfl
    · rw [Nat.eq_zero_of_not_pos some]
      rfl
  rw [bits]
  generalize krp / 8 = kr
  have log : 2 ^ Nat.log2 val ≤ val := Nat.log2_self_le positive
  by_cases short : Nat.log2 val < kr
  · have length : Nat.log2 val + 2 ≤ 1 + kr := by omega
    exact le_trans length (Nat.add_le_add_right (Nat.le_add_left 1 _) kr)
  · have quotient : 2 ^ (Nat.log2 val - kr) ≤ val / 2 ^ kr := by
      rw [Nat.le_div_iff_mul_le (Nat.two_pow_pos kr), ← Nat.pow_add, Nat.sub_add_cancel (by omega)]
      exact log
    have linear : Nat.log2 val - kr < 2 ^ (Nat.log2 val - kr) := Nat.lt_two_pow_self
    omega

theorem rlgrCodeGr_twoMs_ge (krp : Nat) (input : Int) :
    leastBits input ≤ totalBits (rlgrCodeGr krp (twoMs input)).1 := by
  rw [leastBits]
  by_cases zero : input = 0
  · rw [if_pos zero]
    exact Nat.zero_le _
  · rw [if_neg zero]
    have code : 2 * input.natAbs - 1 ≤ twoMs input := by
      rw [twoMs]
      split_ifs <;> omega
    have log : Nat.log2 (2 * input.natAbs - 1) ≤ Nat.log2 (twoMs input) :=
      (Nat.le_log2 (by omega)).2 (le_trans (Nat.log2_self_le (by omega)) code)
    exact le_trans (Nat.add_le_add_right log 2) (rlgrCodeGr_ge krp (by omega))

theorem rlgrValue_ge (krp : Nat) (input : Int) :
    leastBits input ≤ 1 + totalBits (rlgrValue krp input).1 := by
  rw [leastBits]
  by_cases zero : input = 0
  · rw [if_pos zero]
    exact Nat.zero_le _
  rw [if_neg zero, rlgrValue, if_neg zero, totalBits_cons]
  by_cases one : input.natAbs = 1
  · have log : Nat.log2 (2 * input.natAbs - 1) = 0 := by
      rw [one]
      decide
    omega
  · have double : Nat.log2 (2 * input.natAbs - 1) ≤ Nat.log2 (input.natAbs - 1) + 2 := by
      have above : input.natAbs - 1 < 2 ^ (Nat.log2 (input.natAbs - 1) + 1) := Nat.lt_log2_self
      have within : 2 * input.natAbs - 1 < 2 ^ (Nat.log2 (input.natAbs - 1) + 2) := by
        rw [Nat.pow_succ]
        omega
      exact le_of_lt ((Nat.log2_lt (by omega)).2 within)
    have code : Nat.log2 (input.natAbs - 1) + 2 ≤ _ := rlgrCodeGr_ge krp (by omega)
    omega

theorem sum_leastBits_zeros (n : Nat) : ((replicate n 0).map leastBits).sum = 0 := by
  rw [map_replicate, sum_replicate_nat]
  exact Nat.mul_zero n

theorem Coded.cost {kp krp : Nat} {data : List Int} {runs : List Nat} {writes : List Write}
    (coded : Coded kp krp data runs writes) : (data.map leastBits).sum ≤ totalBits writes := by
  induction coded with
  | nil => exact Nat.zero_le _
  | zeros =>
    rw [sum_leastBits_zeros]
    exact Nat.zero_le _
  | @value kp krp n value data _ _ _ _ _ ih =>
    have cost : leastBits value ≤ 1 + _ := rlgrValue_ge krp value
    rw [map_append, sum_append, sum_leastBits_zeros, map_cons, sum_cons, runWrites]
    simp only [totalBits_append, totalBits_cons]
    omega
  | @code kp krp input _ _ _ _ _ ih =>
    rw [totalBits_append]
    exact Nat.add_le_add (rlgrCodeGr_twoMs_ge krp input) ih

/-- **Whatever the state of the coder, a coefficient costs its least bits.** -/
theorem rlgrLoop_ge (kp krp : Nat) (data : List Int) :
    (data.map leastBits).sum ≤ totalBits (rlgrLoop kp krp data) :=
  (rlgrLoop_coded kp krp data).cost

def Alternates (src : Nat → Int) (count : Nat) (even odd : Int) : Prop :=
  ∀ n < count, src (2 * n) = even ∧ src (2 * n + 1) = odd

/-- A transformation of lines gives the same for each pair of values that a line
repeats. -/
def Settles (transform : (Nat → Int) → Nat → Nat → Int) (value : Int → Int → Int) : Prop :=
  ∀ src count even odd, Alternates src count even odd → ∀ n < count,
    transform src count n = value even odd

def highValue (even odd : Int) : Int := int16 ((odd - even) / 2)

def lowValue (even odd : Int) : Int := int16 (even + highValue even odd)

theorem highBand_settles : Settles highBand highValue := by
  intro src count even odd alternates n inside
  have next : (if n < count - 1 then src (2 * n + 2) else src (2 * n)) = even := by
    split_ifs with more
    · exact (alternates (n + 1) (by omega)).1
    · exact (alternates n inside).1
  have double : (even + even) / 2 = even := by omega
  rw [highBand, next, (alternates n inside).1, (alternates n inside).2, double, highValue]

theorem lowBand_settles : Settles lowBand lowValue := by
  intro src count even odd alternates n inside
  have high := highBand_settles src count even odd alternates
  rw [lowBand, (alternates n inside).1, high n inside, lowValue]
  by_cases first : n = 0
  · rw [if_pos first]
  · have double : (highValue even odd + highValue even odd) / 2 = highValue even odd := by omega
    rw [if_neg first, high (n - 1) (by omega), double]

def Repeats (buffer : List Int) (count : Nat) (cell : Nat → Nat → Int) : Prop :=
  ∀ row < 2 * count, ∀ x < 2 * count,
    buffer.getD (row * (count * 2) + x) 0 = cell (row % 2) (x % 2)

variable {cell : Nat → Nat → Int}

theorem band_repeats {buffer : List Int} {count : Nat} (repeats : Repeats buffer count cell)
    {horizontal vertical : (Nat → Int) → Nat → Nat → Int} {across down : Int → Int → Int}
    (rows : Settles horizontal across) (columns : Settles vertical down) :
    band buffer count horizontal vertical = List.replicate (count * count)
        (across (down (cell 0 0) (cell 1 0)) (down (cell 0 1) (cell 1 1))) := by
  have column (x : Nat) (inside : x < 2 * count) :
      Alternates (fun row => buffer.getD (row * (count * 2) + x) 0) count (cell 0 (x % 2))
        (cell 1 (x % 2)) := by
    intro n within
    dsimp only
    constructor
    · rw [repeats (2 * n) (by omega) x inside, Nat.mul_mod_right]
    · rw [repeats (2 * n + 1) (by omega) x inside, Nat.mul_add_mod]
  have row (y : Nat) (inside : y < count) :
      Alternates (fun x => vertical (fun row => buffer.getD (row *
        (count * 2) + x) 0) count y) count
        (down (cell 0 0) (cell 1 0)) (down (cell 0 1) (cell 1 1)) := by
    intro n within
    dsimp only
    constructor
    · rw [columns _ count _ _ (column (2 * n) (by omega)) y inside, Nat.mul_mod_right]
    · rw [columns _ count _ _ (column (2 * n + 1) (by omega)) y inside, Nat.mul_add_mod]
  have length : (band buffer count horizontal vertical).length = count * count := by
    refine Rows.length_flatMap_range _ count count fun y _ => ?_
    rw [length_map, length_range]
  refine eq_replicate_iff.2 ⟨length, fun value member => ?_⟩
  obtain ⟨y, yInside, inRow⟩ := mem_flatMap.1 member
  obtain ⟨n, nInside, rfl⟩ := mem_map.1 inRow
  exact rows _ count _ _ (row y (mem_range.1 yInside)) n (mem_range.1 nInside)

def quantized (value : Int) : Int := int16 ((value + 16) / 32)

theorem quantizeBands_default (bands : List (Nat × Nat)) (known : ∀ entry ∈ bands, entry.2 < 10)
    (buf : List Int) : quantizeBands defaultQuant bands buf = buf := by
  induction bands generalizing buf with
  | nil => rfl
  | cons entry rest ih =>
    have six : ∀ index < 10, (defaultQuant.getD index 0 - 6).toNat = 0 := by decide
    rw [quantizeBands, ih fun other member => known other (.tail _ member),
      six entry.2 (known entry mem_cons_self)]
    exact take_append_drop entry.1 buf

theorem quantizeTile_default (buf : List Int) :
    quantizeTile buf defaultQuant = buf.map quantized := by
  rw [quantizeTile, quantizeBands_default subbands (by decide)]
  rfl

def firstLevel (cell : Nat → Nat → Int) : List Int :=
  List.replicate 1024 (highValue (lowValue (cell 0 0) (cell 1 0))
    (lowValue (cell 0 1) (cell 1 1))) ++
    List.replicate 1024
      (lowValue (highValue (cell 0 0) (cell 1 0)) (highValue (cell 0 1) (cell 1 1))) ++
    List.replicate 1024
      (highValue (highValue (cell 0 0) (cell 1 0)) (highValue (cell 0 1) (cell 1 1)))

theorem length_firstLevel (cell : Nat → Nat → Int) : (firstLevel cell).length = 3072 := by
  simp only [firstLevel, length_append, length_replicate]

/-- **The bands of the first level are constant.** -/
theorem coefficients_repeats {samples : List Int} (repeats : Repeats samples 32 cell) :
    (firstLevel cell).map quantized <+: coefficients samples := by
  have start : (dwt2dEncodeBlock samples 32).take 3072 = firstLevel cell := by
    rw [dwt2dEncodeBlock, band_repeats repeats highBand_settles lowBand_settles,
      band_repeats repeats lowBand_settles highBand_settles,
      band_repeats repeats highBand_settles highBand_settles]
    exact (congrArg (take · _) (length_firstLevel cell).symm).trans take_left
  have levels : firstLevel cell <+: dwt2dEncode samples := by
    rw [dwt2dEncode, start, append_assoc]
    exact prefix_append _ _
  rw [coefficients, quantizeTile_default]
  refine (prefix_take_iff.2 ⟨levels.map quantized, ?_⟩).trans (prefix_append _ _)
  rw [length_map, length_firstLevel]
  decide

def firstLevelBits (cell : Nat → Nat → Int) : Nat :=
  leastBits (quantized (highValue (lowValue (cell 0 0) (cell 1 0))
      (lowValue (cell 0 1) (cell 1 1)))) +
    leastBits (quantized (lowValue (highValue (cell 0 0) (cell 1 0))
      (highValue (cell 0 1) (cell 1 1)))) +
    leastBits (quantized (highValue (highValue (cell 0 0) (cell 1 0))
      (highValue (cell 0 1) (cell 1 1))))

theorem codeLength_repeats {samples : List Int} (repeats : Repeats samples 32 cell) :
    128 * firstLevelBits cell ≤ codeLength (coefficients samples) := by
  obtain ⟨rest, level⟩ := coefficients_repeats repeats
  have bits := rlgrLoop_ge 8 8 (coefficients samples)
  have first : (((firstLevel cell).map quantized).map leastBits).sum =
    1024 * firstLevelBits cell := by
    rw [firstLevel, firstLevelBits]
    simp only [map_append, map_replicate, sum_append, sum_replicate_nat]
    omega
  nth_rewrite 1 [← level] at bits
  rw [map_append, sum_append] at bits
  rw [codeLength, rlgrWrites]
  omega

/-- A byte of a screen 576 pixels wide that repeats white and yellow above cyan and
black: red in the even rows, blue in the even columns, and green in both. -/
def vividOctet (row column channel : Nat) : UInt8 :=
  match channel with
  | 0 => if column % 2 = 0 then 255 else 0
  | 1 => if row % 2 = 0 ∨ column % 2 = 0 then 255 else 0
  | _ => if row % 2 = 0 then 255 else 0

def vividFrame : Frame where
  bgr := (List.range (512 * 576 * 3)).map fun offset =>
    vividOctet (offset / 3 / 576) (offset / 3 % 576) (offset % 3)
  width := 576
  height := 512

def vividCell (plane : Plane) (row column : Nat) : Int :=
  plane.convert (vividOctet row column 2).toNat (vividOctet row column 1).toNat
    (vividOctet row column 0).toNat

theorem octetAt_vividFrame {row column channel : Nat} (rowInside : row < 512)
    (columnInside : column < 576) (known : channel < 3) :
    octetAt vividFrame.bgr (row * (576 * 3) + column * 3 + channel) =
      (vividOctet row column channel).toNat := by
  have inside : row * (576 * 3) + column * 3 + channel < 512 * 576 * 3 := by omega
  have pixel : (row * (576 * 3) + column * 3 + channel) / 3 = row * 576 + column := by omega
  have remainder : (row * (576 * 3) + column * 3 + channel) % 3 = channel := by omega
  have line : (row * 576 + column) / 576 = row := by
    rw [Nat.mul_comm, Nat.mul_add_div (by decide), Nat.div_eq_of_lt columnInside, Nat.add_zero]
  have place : (row * 576 + column) % 576 = column := by
    rw [Nat.mul_comm, Nat.mul_add_mod, Nat.mod_eq_of_lt columnInside]
  rw [octetAt, vividFrame, getD_eq_getElem?_getD, getElem?_map,
    getElem?_range inside, map_some, getD_some, pixel, remainder, line, place]

theorem vividOctet_mod (row column channel : Nat) :
    vividOctet (row % 2) (column % 2) channel = vividOctet row column channel := by
  unfold vividOctet
  rw [Nat.mod_mod, Nat.mod_mod]

theorem vividFrame_repeats {xi yi : Nat} (column : xi < 9) (row : yi < 8) (plane : Plane) :
    Repeats (tilePlane vividFrame.bgr (576 * 3) (xi * tileSize) (yi * tileSize)
      (min (576 - xi * tileSize) tileSize) (min (512 - yi * tileSize) tileSize) plane) 32
      (vividCell plane) := by
  intro j jInside i iInside
  have wide : min (576 - xi * tileSize) tileSize = 64 := by
    rw [tileSize]
    omega
  have high : min (512 - yi * tileSize) tileSize = 64 := by
    rw [tileSize]
    omega
  rw [wide, high, getD_eq_getElem?_getD, tilePlane, Nat.mul_comm j,
    Rows.getElem?_flatMap_range _ 64 tileSize (fun _ _ => by simp [tileSize]) jInside iInside]
  dsimp only
  rw [getElem?_map, tileSize, getElem?_range iInside, map_some, getD_some,
    if_pos iInside, if_pos jInside]
  have octet {channel : Nat} (known : channel < 3) :
      octetAt vividFrame.bgr ((yi * 64 + j) * (576 * 3) + (xi * 64 + i) * 3 + channel) =
        (vividOctet (j % 2) (i % 2) channel).toNat := by
    have lines : (yi * 64 + j) % 2 = j % 2 := by omega
    have places : (xi * 64 + i) % 2 = i % 2 := by omega
    rw [octetAt_vividFrame (by omega) (by omega) known, ← vividOctet_mod, lines, places]
  have blue := octet (by decide : 0 < 3)
  rw [Nat.add_zero] at blue
  rw [octet (by decide : 2 < 3), octet (by decide : 1 < 3), blue, vividCell]

theorem vividFrame_tile {tile : Nat × Nat} (member : tile ∈ vividFrame.tiles) :
    tile.1 < 9 ∧ tile.2 < 8 := by
  obtain ⟨yi, row, inRow⟩ := mem_flatMap.1 member
  obtain ⟨xi, column, rfl⟩ := mem_map.1 inRow
  exact ⟨mem_range.1 column, mem_range.1 row⟩

theorem vividFrame_tileLength {tile : Nat × Nat} (member : tile ∈ vividFrame.tiles) :
    9110 ≤ vividFrame.tileLength tile := by
  obtain ⟨column, row⟩ := vividFrame_tile member
  have length (plane : Plane) :
      128 * firstLevelBits (vividCell plane) ≤ vividFrame.planeLength tile plane :=
    codeLength_repeats (vividFrame_repeats column row plane)
  have y : firstLevelBits (vividCell .y) = 25 := by decide
  have cb : firstLevelBits (vividCell .cb) = 23 := by decide
  have cr : firstLevelBits (vividCell .cr) = 23 := by decide
  have yLength := length .y
  have cbLength := length .cb
  have crLength := length .cr
  rw [Frame.tileLength]
  omega

def Frame.Screen (frame : Frame) : Prop :=
  (200 ≤ frame.width ∧ frame.width ≤ 8192) ∧ 200 ≤ frame.height ∧ frame.height ≤ 8192

theorem vividFrame_screen : vividFrame.Screen := by
  refine ⟨⟨?_, ?_⟩, ?_, ?_⟩ <;> decide

end RdpServer.Progressive
