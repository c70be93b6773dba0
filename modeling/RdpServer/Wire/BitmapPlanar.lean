import RdpServer.Lib.Bytes

/-!
# Planar bitmaps

`bitmap_planar.c`: a picture of 24-bit pixels is taken apart into a red, a green and
a blue plane. Each row of a plane but the first is replaced by its differences to
the row above, and the rows are run-length coded one by one. A control byte counts
the literals that follow it and the run behind them.
-/

namespace RdpServer.BitmapPlanar

open Bytes

def planarDimMax : Nat := 64

def planarPixMax : Nat := planarDimMax * planarDimMax

def planarFmtRle : UInt8 := 0x10

def planarFmtNa : UInt8 := 0x20

/-- `PLANAR_CB`: the run in the low nibble, the literals in the high one. -/
def planarCb (run raw : Nat) : UInt8 := low (run % 16 + raw % 16 * 16)

def rowAt (plane : Bytes) (width y : Nat) : Bytes := (plane.drop (y * width)).take width

def foldDelta (src prev : UInt8) : UInt8 :=
  let ud := src - prev
  if ud < 128 then low (ud.toNat * 2) else low ((256 - ud.toNat) * 2 - 1)

/-- `delta_encode_plane`. -/
def deltaEncodePlane (plane : Bytes) (width height : Nat) : Bytes :=
  plane.take width ++ (List.range (height - 1)).flatMap fun y =>
    List.zipWith foldDelta (rowAt plane width (y + 1)) (rowAt plane width y)

/-- One round of the loop over the literals: the control byte, and how many literals
and how much of the run are left. -/
def rawControl (cRawBytes nRunLength : Nat) : UInt8 × Nat × Nat :=
  if cRawBytes < 16 then
    if nRunLength > 15 then
      if nRunLength < 18 then (planarCb 13 cRawBytes, 0, nRunLength - 13)
      else (planarCb 15 cRawBytes, 0, nRunLength - 15)
    else (planarCb nRunLength cRawBytes, 0, 0)
  else (planarCb 0 15, cRawBytes - 15, nRunLength)

theorem rawControl_lt {cRawBytes : Nat} (left : cRawBytes ≠ 0) (nRunLength : Nat) :
    (rawControl cRawBytes nRunLength).2.1 < cRawBytes := by
  unfold rawControl
  split_ifs <;> dsimp only <;> omega

def writeRaw (cap : Nat) (bytes : Bytes) (cRawBytes nRunLength : Nat) (out : Bytes) :
    Option (Bytes × Nat) :=
  if cRawBytes = 0 then some (out, nRunLength)
  else
    let round := rawControl cRawBytes nRunLength
    let nraw := round.1.toNat / 16
    if out.length + 1 > cap then none
    else if out.length + 1 + nraw > cap then none
    else writeRaw cap (bytes.drop nraw) round.2.1 round.2.2 (out ++ round.1 :: bytes.take nraw)
termination_by cRawBytes
decreasing_by exact rawControl_lt ‹_› nRunLength

def runControl (nRunLength : Nat) : UInt8 × Nat :=
  if nRunLength > 47 then
    if nRunLength < 50 then (planarCb 2 13, nRunLength - 45) else (planarCb 2 15, nRunLength - 47)
  else if nRunLength > 31 then (planarCb 2 (nRunLength - 32), 0)
  else if nRunLength > 15 then (planarCb 1 (nRunLength - 16), 0)
  else (planarCb nRunLength 0, 0)

theorem runControl_lt {nRunLength : Nat} (left : nRunLength ≠ 0) :
    (runControl nRunLength).2 < nRunLength := by
  unfold runControl
  split_ifs <;> dsimp only <;> omega

def writeRun (cap nRunLength : Nat) (out : Bytes) : Option Bytes :=
  if nRunLength = 0 then some out
  else
    let round := runControl nRunLength
    if out.length + 1 > cap then none else writeRun cap round.2 (out ++ [round.1])
termination_by nRunLength
decreasing_by exact runControl_lt ‹_›

/-- `write_rle_bytes`. A run of one or two would be taken for an escape, so it is
written as literals. -/
def writeRleBytes (bytes : Bytes) (cRawBytes nRunLength cap : Nat) : Option Bytes :=
  if cRawBytes = 0 ∧ nRunLength = 0 then some []
  else
    let short := nRunLength < 3
    (writeRaw cap bytes (if short then cRawBytes + nRunLength else cRawBytes)
      (if short then 0 else nRunLength) []).bind fun (out, rest) => writeRun cap rest out

/-- The state of the scan over a row: `p` is the number of bytes that were read. -/
structure RowScan where
  symbol : UInt8 := 0
  p : Nat := 0
  cRawBytes : Nat := 0
  nRunLength : Nat := 0
  out : Bytes := []
  deriving DecidableEq

/-- One round of the loop of `encode_rle_scanline`. -/
def scanByte (row : Bytes) (cap : Nat) (st : RowScan) (octet : UInt8) : Option RowScan :=
  let hit := st.symbol == octet
  let st := { st with symbol := octet, p := st.p + 1 }
  (if st.nRunLength ≠ 0 ∧ !hit then
    if st.nRunLength < 3 then
      some { st with cRawBytes := st.cRawBytes + st.nRunLength, nRunLength := 0 }
    else
      let bytes := row.drop (st.p - (st.cRawBytes + st.nRunLength + 1))
      (writeRleBytes bytes st.cRawBytes st.nRunLength (cap - st.out.length)).map fun written =>
        { st with out := st.out ++ written, nRunLength := 0, cRawBytes := 0 }
  else some st).map fun st =>
    if hit then { st with nRunLength := st.nRunLength + 1 }
    else { st with cRawBytes := st.cRawBytes + 1 }

/-- `encode_rle_scanline`. -/
def encodeRleScanline (row : Bytes) (cap : Nat) : Option Bytes :=
  (row.foldlM (scanByte row cap) {}).bind fun st =>
    if st.cRawBytes ≠ 0 ∨ st.nRunLength ≠ 0 then
      let bytes := row.drop (st.p - (st.cRawBytes + st.nRunLength))
      (writeRleBytes bytes st.cRawBytes st.nRunLength (cap - st.out.length)).map (st.out ++ ·)
    else some st.out

/-- `compress_plane`. -/
def compressPlane (delta : Bytes) (width height cap : Nat) : Option Bytes :=
  (List.range height).foldlM
    (fun out y =>
      (encodeRleScanline (rowAt delta width y) (cap - out.length)).map (out ++ ·)) []

def planeOf (src : Bytes) (npix off : Nat) : Bytes :=
  (List.range npix).map fun i => src.getD (i * 3 + off) 0

def planeCode (src : Bytes) (width height off : Nat) : Option Bytes :=
  compressPlane (deltaEncodePlane (planeOf src (width * height) off) width height) width height
    (planarPixMax * 2)

/-- `rdp_bitmap_planar_compress_24`. -/
def compress24 (cap : Nat) (src : Bytes) (width height : Nat) : Option Bytes :=
  if width = 0 ∨ height = 0 ∨ width > planarDimMax ∨ height > planarDimMax then none
  else
    (planeCode src width height 2).bind fun red =>
      (planeCode src width height 1).bind fun green =>
        (planeCode src width height 0).bind fun blue =>
          if 1 + red.length + green.length + blue.length > cap then none
          else some ((planarFmtNa ||| planarFmtRle) :: red ++ green ++ blue)

def controlCounts (cb : UInt8) : Nat × Nat :=
  let run := cb.toNat % 16
  let raw := cb.toNat / 16
  if run = 1 then (raw + 16, 0) else if run = 2 then (raw + 32, 0) else (run, raw)

/-- A row of `decode_plane_rle`: `row` is what is there of it, `last` what a run
repeats. The rest of the input is returned with the row. -/
def decodeRow (width : Nat) (input row : Bytes) (last : UInt8) :
    Option (Bytes × Bytes) :=
  if row.length < width then
    match input with
    | [] => none
    | cb :: rest =>
      let (run, raw) := controlCounts cb
      if raw > rest.length then none
      else if row.length + raw > width then none
      else
        let last := (rest.take raw).getLastD last
        if row.length + raw + run > width then none
        else decodeRow width (rest.drop raw) (row ++ rest.take raw ++ List.replicate run last) last
  else some (row, input)
termination_by input.length
decreasing_by
  rw [List.length_drop, List.length_cons]
  omega

/-- `decode_plane_rle`. -/
def decodePlaneRle (input : Bytes) (width height : Nat) : Option (Bytes × Bytes) :=
  (List.range height).foldlM
    (fun (delta, input) _ =>
      (decodeRow width input [] 0).map fun (row, input) => (delta ++ row, input)) ([], input)

def unfoldDelta (prev d : UInt8) : UInt8 :=
  if d &&& 1 ≠ 0 then prev - (d / 2 + 1) else prev + d / 2

def undoDelta (delta : Bytes) (width height : Nat) : Bytes :=
  (List.range (height - 1)).foldl
    (fun plane y =>
      plane ++ List.zipWith unfoldDelta (rowAt plane width y) (rowAt delta width (y + 1)))
    (delta.take width)

def decodePlane (rle : Bool) (input : Bytes) (width height : Nat) :
    Option (Bytes × Bytes) :=
  if rle then
    (decodePlaneRle input width height).map fun (delta, input) =>
      (undoDelta delta width height, input)
  else if input.length < width * height then none
  else some (input.take (width * height), input.drop (width * height))

/-- `rdp_bitmap_planar_decompress_24`. -/
def decompress24 (dstLen : Nat) (src : Bytes) (width height : Nat) : Option Bytes :=
  if width = 0 ∨ height = 0 ∨ width > planarDimMax ∨ height > planarDimMax ∨
    src.length < 1 then none
  else if dstLen < width * height * 3 then none
  else
    let fmt := src.headD 0
    let rle : Bool := fmt &&& planarFmtRle ≠ 0
    if fmt &&& 0x0f ≠ 0 ∨ fmt &&& 0x08 ≠ 0 ∨ fmt &&& planarFmtNa = 0 then none
    else
      (decodePlane rle src.tail width height).bind fun (red, input) =>
        (decodePlane rle input width height).bind fun (green, input) =>
          (decodePlane rle input width height).map fun (blue, _) =>
            (List.range (width * height)).flatMap fun i =>
              [blue.getD i 0, green.getD i 0, red.getD i 0]

end RdpServer.BitmapPlanar
