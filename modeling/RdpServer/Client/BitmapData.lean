import RdpServer.Client.Orders
import RdpServer.Lib.Rows

/-!
# Reading bitmap data records

The client's side of TS_BITMAP_DATA: eighteen octets of fields and as many octets of data as
the length field says, compressed or rows bottom-up. The raw records of the server are read as
their tiles. The length field of a compressed record leaves out the header of its data, so
such a record does not end where its length field says.
-/

namespace RdpServer.Client

open Bytes BitmapRle List Option

structure BitmapData where
  left : Nat
  top : Nat
  right : Nat
  bottom : Nat
  width : Nat
  height : Nat
  bpp : Nat
  flags : Nat
  data : Bytes
  deriving DecidableEq

def bitmapRecord : Parser BitmapData := do
  let left ← Parser.le 2
  let top ← Parser.le 2
  let right ← Parser.le 2
  let bottom ← Parser.le 2
  let width ← Parser.le 2
  let height ← Parser.le 2
  let bpp ← Parser.le 2
  let flags ← Parser.le 2
  let bitmapLength ← Parser.le 2
  let data ← Parser.block bitmapLength
  return ⟨left, top, right, bottom, width, height, bpp, flags, data⟩

/-- The compressed stream in the data: after the compression header, as long as
the header says, or all of the data. -/
def BitmapData.stream (d : BitmapData) : Option Bytes :=
  if d.flags.testBit 10 then some d.data
  else if d.data.length = 8 + leValue ((d.data.drop 2).take 2) then some (d.data.drop 8)
  else none

def BitmapData.picture (d : BitmapData) : Option Bitmap :=
  if d.flags.testBit 0 then
    d.stream.bind fun stream =>
      match rdpBitmapRleDecompress24 (List.replicate (3 * d.width * d.height) 0) stream d.width
          d.height with
      | .ok final => some ⟨d.width, d.height, bottomUp final d.width d.height⟩
      | .error _ => none
  else if d.data.length = 3 * d.width * d.height then
    some ⟨d.width, d.height, bottomUp d.data d.width d.height⟩
  else none

def BitmapData.paint (d : BitmapData) : Option Paint :=
  if d.bpp = 24 ∧ d.left ≤ d.right ∧ d.top ≤ d.bottom then
    d.picture.map fun picture =>
      ⟨d.left, d.top, picture.crop 0 0 (d.right - d.left + 1) (d.bottom - d.top + 1)⟩
  else none

def bitmapLength (record : Bytes) : Nat := leValue ((record.drop 16).take 2)

def tilePixels (pixels : Bytes) (stride w h : Nat) : Bytes :=
  (List.range h).flatMap fun row => readBlock pixels (row * stride) (3 * w)

section Raw

variable {pixels : Bytes} {stride w h : Nat}

@[simp] theorem length_readBlock (src : Bytes) (offset count : Nat) :
    (readBlock src offset count).length = count := by
  rw [readBlock, length_map, length_range]

theorem bottomUp_snoc {src line : Bytes} {width height : Nat}
    (size : src.length = 3 * width * height) (length : line.length = 3 * width) :
    bottomUp (src ++ line) width (height + 1) = line ++ bottomUp src width height := by
  rw [bottomUp, ← size, drop_left, ← length, take_length, ← bottomUp_take height
    (le_of_eq size.symm), take_left]

theorem bottomUp_flatMap_range (rows : Nat → Bytes) (width : Nat)
    (even : ∀ row, (rows row).length = 3 * width) (height : Nat) :
    bottomUp ((List.range height).flatMap rows) width height =
      (List.range height).reverse.flatMap rows := by
  induction height with
  | zero => rfl
  | succ height ih =>
    rw [range_succ, flatMap_append, flatMap_singleton,
      bottomUp_snoc (Rows.length_flatMap_range _ _ _ fun row _ => even row) (even height), ih,
      reverse_append, reverse_singleton, singleton_append, flatMap_cons]

theorem crop_encodeBitmapPixels (narrow : w ≤ paddedWidth w) :
    (⟨paddedWidth w, h, bottomUp (encodeBitmapPixels pixels stride w h) (paddedWidth w) h⟩ :
      Bitmap).crop 0 0 w h = ⟨w, h, tilePixels pixels stride w h⟩ := by
  let row (r : Nat) := readBlock pixels (r * stride) (3 * w) ++
    replicate (3 * (paddedWidth w - w)) 0
  have even (r : Nat) : (row r).length = 3 * paddedWidth w := by
    simp only [row, length_append, length_readBlock, length_replicate]
    omega
  have flipped : bottomUp (encodeBitmapPixels pixels stride w h) (paddedWidth w) h =
      (range h).flatMap row := by
    have backwards := bottomUp_flatMap_range (fun r => row (h - 1 - r)) (paddedWidth w)
      (fun r => even _) h
    have order : (range h).reverse = (range h).map (h - 1 - ·) := by
      rw [range_eq_range', reverse_range', Nat.zero_add, ← range_eq_range']
    rw [order, flatMap_map] at backwards
    refine backwards.trans (flatMap_congr fun r member => ?_)
    have inside := mem_range.1 member
    rw [show h - 1 - (h - 1 - r) = r by omega]
  rw [flipped]
  simp only [Bitmap.crop, Nat.sub_zero, min_eq_left narrow, min_self, Bitmap.mk.injEq, true_and]
  refine flatMap_congr fun r member => ?_
  have start : ((0 + r) * paddedWidth w + 0) * 3 = 3 * paddedWidth w * r := by
    rw [Nat.zero_add, Nat.add_zero, Nat.mul_comm r, Nat.mul_right_comm,
      Nat.mul_comm (paddedWidth w)]
  rw [start, Rows.take_drop_flatMap_range row _ (by omega) h (fun r _ => even r)
    (mem_range.1 member)]
  exact take_left' (length_readBlock _ _ _)

theorem length_encodeBitmapPixels (narrow : w ≤ paddedWidth w) :
    (encodeBitmapPixels pixels stride w h).length = paddedWidth w * 3 * h := by
  rw [encodeBitmapPixels, Rows.length_flatMap_range _ (3 * paddedWidth w), Nat.mul_comm 3]
  intro r
  rw [length_append, length_readBlock, length_replicate]
  omega

end Raw

section Record

variable {x y w h width flags length stride : Nat} {pixels : Bytes}

@[simp] theorem length_bitmapDataHead :
    (bitmapDataHead x y w h width flags length).length = 18 := by
  simp [bitmapDataHead]

theorem bitmapLength_head (short : length < 65536) (data : Bytes) :
    bitmapLength (bitmapDataHead x y w h width flags length ++ data) = length := by
  have before : (leBytes 2 x ++ leBytes 2 y ++ leBytes 2 (x + w + 65535) ++
      leBytes 2 (y + h + 65535) ++ leBytes 2 width ++ leBytes 2 h ++ leBytes 2 24 ++
      leBytes 2 flags).length = 16 := by
    simp
  rw [bitmapLength, bitmapDataHead, append_assoc, leValue_field before data short]

theorem leBytes_mod (count value : Nat) :
    leBytes count (value % 256 ^ count) = leBytes count value := by
  have same := leBytes_leValue (leBytes count value)
  rwa [length_leBytes, leValue_leBytes_mod] at same

theorem whole_bitmapRecord (xIn : x < 65536) (yIn : y < 65536) (widthIn : width < 65536)
    (heightIn : h < 65536) (flagsIn : flags < 65536) {data : Bytes}
    (short : data.length < 65536) :
    bitmapRecord.whole (bitmapDataHead x y w h width flags data.length ++ data) =
      some ⟨x, y, (x + w + 65535) % 65536, (y + h + 65535) % 65536, width, h, 24, flags, data⟩ := by
  refine Decodes.whole ?_
  have wrapped (value : Nat) : Decodes (Parser.le 2) (leBytes 2 value) (value % 65536) := by
    rw [← leBytes_mod 2 value]
    exact .le 2 _ (Nat.mod_lt _ (by decide))
  simp only [bitmapDataHead, append_assoc]
  refine .bind (.le 2 x xIn) (.bind (.le 2 y yIn) (.bind (wrapped _) (.bind (wrapped _) ?_)))
  refine .bind (.le 2 width widthIn) (.bind (.le 2 h heightIn) (.bind (.le 2 24 (by decide)) ?_))
  refine .bind (.le 2 flags flagsIn) (.bind (.le 2 _ short) ?_)
  exact .finish (.block data) (.pure _)

theorem rleTile_eq_none_iff {rleOk : Bool} (wIn : 1 ≤ w ∧ w ≤ 64) (hIn : 1 ≤ h ∧ h ≤ 64) :
    rleTile rleOk w h pixels stride = none ↔ ¬ (rleOk = true ∧ stride = w * 3 ∧
        ∃ rle, rdpBitmapRleCompress24 rleCap pixels w h = some rle ∧
          rle.length + 8 < paddedWidth w * 3 * h) := by
  unfold rleTile
  by_cases allowed : rleOk = true ∧ stride = w * 3
  · have taken : (rleOk && decide (1 ≤ w ∧ w ≤ 64 ∧ 1 ≤ h ∧ h ≤ 64 ∧ stride = w * 3)) = true := by
      rw [allowed.1, Bool.true_and, decide_eq_true_eq]
      exact ⟨wIn.1, wIn.2, hIn.1, hIn.2, allowed.2⟩
    rw [if_pos taken]
    simp [allowed]
  · have skipped :
        ¬ (rleOk && decide (1 ≤ w ∧ w ≤ 64 ∧ 1 ≤ h ∧ h ≤ 64 ∧ stride = w * 3)) = true := by
      rw [Bool.and_eq_true, decide_eq_true_eq]
      exact fun both => allowed ⟨both.1, both.2.2.2.2.2⟩
    rw [if_neg skipped]
    exact ⟨fun _ both => allowed ⟨both.1, both.2.1⟩, fun _ => rfl⟩

theorem rleTile_short {rleOk : Bool} {rle : Bytes}
    (taken : rleTile rleOk w h pixels stride = some rle) :
    rle.length + 8 < paddedWidth w * 3 * h := by
  unfold rleTile at taken
  split at taken
  · exact of_decide_eq_true (filter_eq_some_iff.1 taken).2
  · cases taken

theorem paddedWidth_bounds (wIn : 1 ≤ w ∧ w ≤ 64) : w ≤ paddedWidth w ∧ paddedWidth w ≤ 64 := by
  unfold paddedWidth
  omega

variable (x y stride pixels) in
/-- With room for the raw rows a record is written that is not longer than they. -/
theorem writeBitmapData_some (rleOk : Bool) {cap : Nat} (wIn : 1 ≤ w ∧ w ≤ 64)
    (hIn : 1 ≤ h ∧ h ≤ 64) (room : 18 + paddedWidth w * 3 * h ≤ cap) :
    ∃ record, writeBitmapData rleOk cap x y w h pixels stride = some record ∧
      record.length ≤ 18 + paddedWidth w * 3 * h := by
  have padded := paddedWidth_bounds wIn
  have area : paddedWidth w * 3 * h ≤ 64 * 3 * 64 := Nat.mul_le_mul (by omega) hIn.2
  rw [writeBitmapData, if_neg (by omega)]
  cases taken : rleTile rleOk w h pixels stride with
  | some rle =>
    have short := rleTile_short taken
    refine ⟨_, if_neg (by omega), ?_⟩
    simp only [length_append, length_bitmapDataHead, length_leBytes]
    omega
  | none =>
    refine ⟨_, if_neg (by omega), ?_⟩
    rw [length_append, length_bitmapDataHead, length_encodeBitmapPixels padded.1]

theorem raw_record_right_iff (wIn : 1 ≤ w ∧ w ≤ 64) (hIn : 1 ≤ h ∧ h ≤ 64) (xIn : x < 65536)
    (yIn : y < 65536) :
    (bitmapRecord.whole (bitmapDataHead x y w h (paddedWidth w) 0 (paddedWidth w * 3 * h) ++
        encodeBitmapPixels pixels stride w h)).bind BitmapData.paint =
      some ⟨x, y, ⟨w, h, tilePixels pixels stride w h⟩⟩ ↔ x + w ≤ 65536 ∧ y + h ≤ 65536 := by
  have padded := paddedWidth_bounds wIn
  have area : paddedWidth w * 3 * h ≤ 64 * 3 * 64 := Nat.mul_le_mul (by omega) hIn.2
  have length : (encodeBitmapPixels pixels stride w h).length = paddedWidth w * 3 * h :=
    length_encodeBitmapPixels padded.1
  rw [← length, whole_bitmapRecord xIn yIn (by omega) (by omega) (by decide) (by omega), bind_some]
  by_cases fits : x + w ≤ 65536 ∧ y + h ≤ 65536
  · have right : (x + w + 65535) % 65536 = x + w - 1 := by omega
    have bottom : (y + h + 65535) % 65536 = y + h - 1 := by omega
    have ordered : 24 = 24 ∧ x ≤ x + w - 1 ∧ y ≤ y + h - 1 := by omega
    have size : (encodeBitmapPixels pixels stride w h).length = 3 * paddedWidth w * h := by
      rw [length, Nat.mul_comm 3]
    rw [BitmapData.paint, right, bottom, if_pos ordered]
    simp [BitmapData.picture, size, fits, show x + w - 1 - x + 1 = w by omega,
      show y + h - 1 - y + 1 = h by omega, crop_encodeBitmapPixels padded.1]
  · have disordered : ¬ (24 = 24 ∧ x ≤ (x + w + 65535) % 65536 ∧ y ≤ (y + h + 65535) % 65536) := by
      omega
    rw [BitmapData.paint, if_neg disordered]
    simp [fits]

/-- **Bitmap data records**. With room for the raw rows a record is always
written. A record ends where its length field says and is read as its tile
exactly if it is raw (compression is off, the rows are not packed, or it does
not pay) and its rectangle fits the sixteen-bit coordinates. -/
theorem record_right_iff_raw {rleOk : Bool} {cap : Nat} {pixels : Bytes} {stride : Nat}
    (wIn : 1 ≤ w ∧ w ≤ 64) (hIn : 1 ≤ h ∧ h ≤ 64) (xIn : x < 65536) (yIn : y < 65536) :
    (18 + paddedWidth w * 3 * h ≤ cap →
      ∃ record, writeBitmapData rleOk cap x y w h pixels stride = some record) ∧
    ∀ record, writeBitmapData rleOk cap x y w h pixels stride = some record →
      ((record.length = 18 + bitmapLength record ∧
          (bitmapRecord.whole record).bind BitmapData.paint =
            some ⟨x, y, ⟨w, h, tilePixels pixels stride w h⟩⟩) ↔
        ¬ (rleOk = true ∧ stride = w * 3 ∧
          ∃ rle, rdpBitmapRleCompress24 rleCap pixels w h = some rle ∧
            rle.length + 8 < paddedWidth w * 3 * h) ∧
        x + w ≤ 65536 ∧ y + h ≤ 65536) := by
  have padded := paddedWidth_bounds wIn
  have area : paddedWidth w * 3 * h ≤ 64 * 3 * 64 := Nat.mul_le_mul (by omega) hIn.2
  rw [← rleTile_eq_none_iff wIn hIn]
  unfold writeBitmapData
  cases taken : rleTile rleOk w h pixels stride
  case' some rle => have short := rleTile_short taken
  all_goals
    refine ⟨fun room => ⟨_, by
      rw [if_neg (by omega)]
      exact if_neg (by omega)⟩, ?_⟩
    intro record written
    dsimp only at written
    split at written
    · cases written
    split at written
    · cases written
    cases written
  case some rle =>
    simp only [append_assoc]
    rw [bitmapLength_head (by omega)]
    simp only [length_append, length_bitmapDataHead, length_leBytes, reduceCtorEq, false_and,
      iff_false, not_and]
    omega
  case none =>
    have delimited : (bitmapDataHead x y w h (paddedWidth w) 0 (paddedWidth w * 3 * h) ++
        encodeBitmapPixels pixels stride w h).length =
          18 + bitmapLength (bitmapDataHead x y w h (paddedWidth w) 0 (paddedWidth w * 3 * h) ++
            encodeBitmapPixels pixels stride w h) := by
      rw [bitmapLength_head (by omega), length_append, length_bitmapDataHead,
        length_encodeBitmapPixels padded.1]
    rw [raw_record_right_iff wIn hIn xIn yIn]
    simp [delimited]

/-- A row of four pixels does not pay to compress. -/
theorem record_right_four_pixels :
    ∃ record, writeBitmapData true 64 5 7 4 1 [1, 2, 3, 4, 5, 6, 7, 8, 9, 10, 11, 12] 12 =
        some record ∧
      record.length = 18 + bitmapLength record ∧
      (bitmapRecord.whole record).bind BitmapData.paint =
        some ⟨5, 7, ⟨4, 1, [1, 2, 3, 4, 5, 6, 7, 8, 9, 10, 11, 12]⟩⟩ := by
  have compressed : rdpBitmapRleCompress24 rleCap [1, 2, 3, 4, 5, 6, 7, 8, 9, 10, 11, 12] 4 1 =
      some [0x84, 1, 2, 3, 4, 5, 6, 7, 8, 9, 10, 11, 12] := by
    decide
  have raw : ¬ (true = true ∧ 12 = 4 * 3 ∧
      ∃ rle, rdpBitmapRleCompress24 rleCap [1, 2, 3, 4, 5, 6, 7, 8, 9, 10, 11, 12] 4 1 = some rle ∧
        rle.length + 8 < paddedWidth 4 * 3 * 1) := by
    rintro ⟨_, _, rle, same, pays⟩
    rw [compressed, some.injEq] at same
    subst same
    exact absurd pays (by decide)
  obtain ⟨written, right⟩ := @record_right_iff_raw 5 7 4 1 true 64
    [1, 2, 3, 4, 5, 6, 7, 8, 9, 10, 11, 12] 12 (by decide) (by decide) (by decide) (by decide)
  obtain ⟨record, here⟩ := written (by decide)
  exact ⟨record, here, (right record here).2 ⟨raw, by decide, by decide⟩⟩

/-- A black tile of four by two pixels compresses to two octets. Its record has
26 octets beside those its length field counts, and is not read as its tile. -/
theorem record_wrong_black :
    ∃ record, writeBitmapData true 64 0 0 4 2 (List.replicate 24 0) 12 = some record ∧
      record.length = 26 + bitmapLength record ∧
      (bitmapRecord.whole record).bind BitmapData.paint ≠
        some ⟨0, 0, ⟨4, 2, tilePixels (List.replicate 24 0) 12 4 2⟩⟩ := by
  refine ⟨[0, 0, 0, 0, 3, 0, 1, 0, 4, 0, 2, 0, 24, 0, 1, 0, 2, 0, 0, 0, 2, 0, 12, 0, 24, 0, 4, 4],
    ?_, ?_, ?_⟩ <;> decide

end Record

end RdpServer.Client
