import RdpServer.Lib.Rows
import RdpServer.Wire.BitmapPlanar

/-!
# The planar round trip

What the encoder writes for a row is the code of chunks, a control byte and its
literals each, and the decoder reads such a code back to the bytes that it stands
for. The code of a row has at most twice its bytes, so that the buffers of the planes
do not overflow. With the differences taken back, the decoder returns the picture
(`planar_lossless`).
-/

namespace RdpServer.BitmapPlanar

open Bytes List Option

variable {width height cap run : Nat} {bytes code rest row out raw plane src : Bytes}
  {before : UInt8}

theorem getLastD_append (first second : Bytes) (before : UInt8) :
    (first ++ second).getLastD before = second.getLastD (first.getLastD before) := by
  simp [getLastD_eq_getLast?]

theorem getLastD_replicate (count : Nat) (octet : UInt8) :
    (List.replicate count octet).getLastD octet = octet := by
  cases count <;> simp [getLast?_replicate]

theorem toNat_planarCb {count : Nat} (short : run < 16) (few : count < 16) :
    (planarCb run count).toNat = run + count * 16 := by
  rw [planarCb, toNat_low]
  omega

theorem controlCounts_planarCb {count : Nat} (short : run < 16) (few : count < 16) :
    controlCounts (planarCb run count) =
      if run = 1 then (count + 16, 0) else if run = 2 then (count + 32, 0) else (run, count) := by
  have runs : (run + count * 16) % 16 = run := by omega
  have counts : (run + count * 16) / 16 = count := by omega
  rw [controlCounts, toNat_planarCb short few, runs, counts]

/-- The code of some bytes that come behind `before`: the decoder of a row reads them and
goes on, and there are at most twice as many bytes in it. -/
structure Codes (before : UInt8) (bytes code : Bytes) : Prop where
  short : code.length ≤ 2 * bytes.length
  read : ∀ {width row} rest, row.length + bytes.length ≤ width →
    decodeRow width (code ++ rest) row before =
      decodeRow width rest (row ++ bytes) (bytes.getLastD before)

theorem Codes.nil (before : UInt8) : Codes before [] [] :=
  ⟨le_rfl, fun rest _ => by simp⟩

theorem Codes.append {more : Bytes} (codes : Codes before bytes code)
    (follows : Codes (bytes.getLastD before) more rest) :
    Codes before (bytes ++ more) (code ++ rest) := by
  have one := codes.short
  have two := follows.short
  refine ⟨?_, fun others fits => ?_⟩
  · simp only [length_append]
    omega
  · rw [length_append] at fits
    rw [append_assoc, codes.read _ (by omega), follows.read, getLastD_append, append_assoc]
    rw [length_append]
    omega

theorem Codes.chunk {cb : UInt8} (counts : controlCounts cb = (run, raw.length))
    (some : 0 < raw.length + run) (before : UInt8) :
    Codes before (raw ++ List.replicate run (raw.getLastD before)) (cb :: raw) := by
  refine ⟨?_, fun rest fits => ?_⟩
  · simp only [length_append, length_cons, length_replicate]
    omega
  · simp only [length_append, length_replicate] at fits
    rw [cons_append, decodeRow, if_pos (by omega), counts]
    dsimp only
    rw [if_neg (by simp), if_neg (by omega), if_neg (by omega), take_left, drop_left,
      getLastD_append, getLastD_replicate, append_assoc]

def Tail (run : Nat) : Prop := run = 0 ∨ 3 ≤ run

theorem runControl_spec (enough : 3 ≤ run) :
    ∃ cb said, runControl run = (cb, run - said) ∧ controlCounts cb = (said, 0) ∧ 0 < said ∧
      said ≤ run ∧ Tail (run - said) := by
  unfold runControl Tail
  split_ifs with long most half more
  · exact ⟨_, 45, rfl, by decide, by omega⟩
  · exact ⟨_, 47, rfl, by decide, by omega⟩
  · refine ⟨_, run, by rw [Nat.sub_self], ?_, by omega⟩
    rw [controlCounts_planarCb (by decide) (by omega), if_neg (by decide), if_pos rfl,
      Nat.sub_add_cancel half]
  · refine ⟨_, run, by rw [Nat.sub_self], ?_, by omega⟩
    rw [controlCounts_planarCb (by decide) (by omega), if_pos rfl, Nat.sub_add_cancel more]
  · refine ⟨_, run, by rw [Nat.sub_self], ?_, by omega⟩
    rw [controlCounts_planarCb (by omega) (by decide), if_neg (by omega), if_neg (by omega)]

theorem writeRun_codes (tail : Tail run) (fits : out.length + 2 * run ≤ cap) (before : UInt8) :
    ∃ code, writeRun cap run out = some (out ++ code) ∧
      Codes before (List.replicate run before) code := by
  induction run using Nat.strong_induction_on generalizing out with
  | _ run ih =>
    by_cases done : run = 0
    · subst done
      refine ⟨[], ?_, .nil before⟩
      rw [writeRun, if_pos rfl, append_nil]
    obtain ⟨cb, said, round, counts, some, within, tail⟩ := runControl_spec (tail.resolve_left done)
    have room : (out ++ [cb]).length + 2 * (run - said) ≤ cap := by
      rw [length_append, length_singleton]
      omega
    obtain ⟨code, writes, codes⟩ := ih (run - said) (by omega) tail room
    refine ⟨cb :: code, ?_, ?_⟩
    · rw [writeRun, if_neg done, round]
      rw [if_neg (by omega), writes, append_assoc, singleton_append]
    · have first : Codes before ([] ++ replicate said before) [cb] :=
        .chunk counts (by simpa using some) before
      rw [← Nat.add_sub_cancel' within, ← replicate_append_replicate]
      refine first.append ?_
      rwa [nil_append, getLastD_replicate]

theorem rawControl_spec {raw : Nat} (some : 0 < raw) (tail : Tail run) :
    ∃ count said, rawControl raw run = (planarCb said count, raw - count, run - said) ∧
      0 < count ∧ count ≤ raw ∧ count < 16 ∧ said < 16 ∧ said ≠ 1 ∧ said ≠ 2 ∧ said ≤ run ∧
      Tail (run - said) ∧ (said = 0 ∨ count = raw) := by
  unfold rawControl Tail at *
  split_ifs with few long most
  · exact ⟨raw, 13, by rw [Nat.sub_self], by omega⟩
  · exact ⟨raw, 15, by rw [Nat.sub_self], by omega⟩
  · exact ⟨raw, run, by rw [Nat.sub_self, Nat.sub_self], by omega⟩
  · exact ⟨15, 0, rfl, by omega⟩

theorem writeRaw_codes (tail : Tail run) (rest : Bytes)
    (fits : out.length + 2 * (raw.length + run) ≤ cap) (before : UInt8) :
    ∃ code left said, writeRaw cap (raw ++ rest) raw.length run out = some (out ++ code, left) ∧
      run = said + left ∧ Tail left ∧
      Codes before (raw ++ List.replicate said (raw.getLastD before)) code := by
  induction n : raw.length using Nat.strong_induction_on generalizing raw run out before with
  | _ n ih =>
    subst n
    by_cases done : raw.length = 0
    · rw [length_eq_zero_iff.1 done]
      refine ⟨[], run, 0, ?_, (Nat.zero_add _).symm, tail, .nil before⟩
      rw [length_nil, writeRaw, if_pos rfl, append_nil]
    obtain ⟨count, said, round, positive, within, few, short, one, two, saidRun, tail, ends⟩ :=
      rawControl_spec (Nat.pos_of_ne_zero done) tail
    have counted : (raw.take count).length = count := length_take_of_le within
    have fewer : (raw.drop count).length = raw.length - count := length_drop
    have room : (out ++ planarCb said count :: raw.take count).length +
        2 * ((raw.drop count).length + (run - said)) ≤ cap := by
      rw [length_append, length_cons]
      omega
    obtain ⟨code, left, later, writes, splits, leftTail, codes⟩ :=
      ih (raw.drop count).length (by omega) tail room ((raw.take count).getLastD before) rfl
    refine ⟨planarCb said count :: raw.take count ++ code, left, said + later, ?_, by omega,
      leftTail, ?_⟩
    · have nraw : (planarCb said count).toNat / 16 = count := by
        rw [toNat_planarCb short few]
        omega
      rw [writeRaw, if_neg done, round]
      dsimp only
      rw [nraw, if_neg (by omega), if_neg (by omega), take_append_of_le_length within,
        drop_append_of_le_length within, ← fewer, writes, append_assoc]
    · have counts : controlCounts (planarCb said count) = (said, (raw.take count).length) := by
        rw [controlCounts_planarCb short few, if_neg one, if_neg two, counted]
      have last : (raw.drop count).getLastD ((raw.take count).getLastD before) =
          raw.getLastD before := by
        rw [← getLastD_append, take_append_drop]
      have joined : raw ++ replicate (said + later) (raw.getLastD before) =
          raw.take count ++ replicate said ((raw.take count).getLastD before) ++
            (raw.drop count ++ replicate later (raw.getLastD before)) := by
        rcases ends with none | all
        · rw [none, Nat.zero_add, replicate_zero, append_nil, ← append_assoc, take_append_drop]
        · rw [all, take_length, drop_length, nil_append, append_assoc, replicate_append_replicate]
      rw [joined, ← last]
      refine (Codes.chunk counts (by omega) before).append ?_
      rw [getLastD_append, getLastD_replicate]
      exact codes

theorem writeRleBytes_codes (rest : Bytes) (fits : 2 * (raw.length + run) ≤ cap)
    (before : UInt8) :
    ∃ code, writeRleBytes (raw ++ List.replicate run (raw.getLastD before) ++ rest) raw.length run
        cap = some code ∧
      Codes before (raw ++ List.replicate run (raw.getLastD before)) code := by
  unfold writeRleBytes
  by_cases none : raw.length = 0 ∧ run = 0
  · obtain ⟨bare, rfl⟩ := none
    rw [length_eq_zero_iff.1 bare]
    exact ⟨[], if_pos ⟨rfl, rfl⟩, .nil before⟩
  rw [if_neg none]
  by_cases short : run < 3
  · have all : (raw ++ replicate run (raw.getLastD before)).length = raw.length + run := by
      rw [length_append, length_replicate]
    have room : ([] : Bytes).length +
        2 * ((raw ++ replicate run (raw.getLastD before)).length + 0) ≤ cap := by
      simpa [all] using fits
    obtain ⟨code, left, said, writes, splits, _, codes⟩ := writeRaw_codes
      (.inl rfl) rest room before
    obtain ⟨rfl, rfl⟩ : left = 0 ∧ said = 0 := by omega
    refine ⟨code, ?_, by simpa using codes⟩
    dsimp only
    rw [if_pos short, if_pos short, ← all, writes, bind_some]
    rw [writeRun, if_pos rfl, nil_append]
  · obtain ⟨code, left, said, writes, splits, tail, codes⟩ :=
      writeRaw_codes (.inr (Nat.not_lt.1 short)) (replicate run (raw.getLastD before) ++ rest)
        (show ([] : Bytes).length + _ ≤ cap by simpa using fits) before
    have space : code.length + 2 * left ≤ cap := by
      have bound := codes.short
      rw [length_append, length_replicate] at bound
      omega
    obtain ⟨others, writesRun, codesRun⟩ := writeRun_codes tail space (raw.getLastD before)
    refine ⟨code ++ others, ?_, ?_⟩
    · dsimp only
      rw [if_neg short, if_neg short, append_assoc, writes]
      exact writesRun
    · rw [splits, ← replicate_append_replicate, ← append_assoc]
      refine codes.append ?_
      rwa [getLastD_append, getLastD_replicate]

/-- What the scan has written stands for the part `done` of the row, and the bytes since
then are literals and a run. -/
structure Scanned (row : Bytes) (count : Nat) (st : RowScan) (done raw : Bytes) :
    Prop where
  read : st.p = count
  literals : raw.length = st.cRawBytes
  symbol : st.symbol = raw.getLastD (done.getLastD 0)
  codes : Codes 0 done st.out
  splits : row.take count = done ++ (raw ++ List.replicate st.nRunLength st.symbol)

variable {count : Nat} {st : RowScan} {done : Bytes}

theorem Scanned.chunk (scanned : Scanned row count st done raw) (inside : count ≤ row.length)
    (fits : 2 * row.length ≤ cap) :
    ∃ code, writeRleBytes (row.drop (count - (st.cRawBytes + st.nRunLength))) st.cRawBytes
        st.nRunLength (cap - st.out.length) = some code ∧
      Codes 0 (row.take count) (st.out ++ code) := by
  have short := scanned.codes.short
  have length := congrArg length scanned.splits
  rw [length_append, length_append, length_replicate, length_take, scanned.literals] at length
  have start : count - (st.cRawBytes + st.nRunLength) = done.length := by omega
  have bytes : row.drop (count - (st.cRawBytes + st.nRunLength)) =
      raw ++ replicate st.nRunLength (raw.getLastD (done.getLastD 0)) ++ row.drop count := by
    rw [start, ← scanned.symbol]
    conv_lhs => rw [← take_append_drop count row, scanned.splits]
    rw [append_assoc, drop_left]
  have room : 2 * (raw.length + st.nRunLength) ≤ cap - st.out.length := by
    rw [scanned.literals]
    omega
  obtain ⟨code, writes, codes⟩ := writeRleBytes_codes (row.drop count) room (done.getLastD 0)
  refine ⟨code, ?_, ?_⟩
  · rw [bytes, ← scanned.literals, writes]
  · rw [scanned.splits, scanned.symbol]
    exact scanned.codes.append codes

theorem scanByte_scanned {octet : UInt8} (scanned : Scanned row count st done raw)
    (inside : count < row.length) (next : row[count]? = some octet)
    (fits : 2 * row.length ≤ cap) :
    ∃ after done raw, scanByte row cap st octet = some after ∧
      Scanned row (count + 1) after done raw := by
  obtain ⟨_, atCount⟩ := List.getElem?_eq_some_iff.1 next
  have grows : row.take (count + 1) = row.take count ++ [octet] := by
    rw [List.take_succ_eq_append_getElem inside, atCount]
  have read : st.p + 1 = count + 1 := congrArg (· + 1) scanned.read
  unfold scanByte
  dsimp only
  cases hit : st.symbol == octet with
  | true =>
    have same : st.symbol = octet := beq_iff_eq.1 hit
    refine ⟨{ st with symbol := octet, p := st.p + 1, nRunLength := st.nRunLength + 1 }, done, raw,
      by simp, read, scanned.literals, same ▸ scanned.symbol, scanned.codes, ?_⟩
    rw [grows, scanned.splits, same, append_assoc, append_assoc, replicate_succ']
  | false =>
    by_cases idle : st.nRunLength = 0
    · refine ⟨{ st with symbol := octet, p := st.p + 1, cRawBytes := st.cRawBytes + 1 }, done,
        raw ++ [octet], by simp [idle], read, ?_, ?_, scanned.codes, ?_⟩
      · rw [length_append, scanned.literals, length_singleton]
      · rw [getLastD_append]
        rfl
      · simp [grows, scanned.splits, idle]
    · rw [if_pos ⟨idle, by decide⟩]
      by_cases short : st.nRunLength < 3
      · rw [if_pos short]
        refine ⟨{ st with symbol := octet, p := st.p + 1, nRunLength := 0
                          cRawBytes := st.cRawBytes + st.nRunLength + 1 }, done,
          raw ++ replicate st.nRunLength st.symbol ++ [octet], rfl, read, ?_, ?_,
          scanned.codes, ?_⟩
        · simp [scanned.literals, Nat.add_assoc]
        · rw [getLastD_append]
          rfl
        · simp [grows, scanned.splits]
      · rw [if_neg short]
        obtain ⟨code, writes, codes⟩ := scanned.chunk (le_of_lt inside) fits
        have start : st.p + 1 - (st.cRawBytes + st.nRunLength + 1) =
            count - (st.cRawBytes + st.nRunLength) := by
          omega
        rw [start, writes]
        refine ⟨{ symbol := octet, p := st.p + 1, cRawBytes := 1, nRunLength := 0
                  out := st.out ++ code }, row.take count, [octet], rfl, read, rfl, rfl, codes, ?_⟩
        rw [grows, replicate_zero, append_nil]

theorem encodeRleScanline_codes (fits : 2 * row.length ≤ cap) :
    ∃ code, encodeRleScanline row cap = some code ∧ Codes 0 row code := by
  have scans : ∀ count, count ≤ row.length → ∃ st done raw,
      (row.take count).foldlM (scanByte row cap) {} = some st ∧ Scanned row count st done raw := by
    intro count
    induction count with
    | zero => exact fun _ => ⟨{}, [], [], rfl, rfl, rfl, rfl, .nil 0, rfl⟩
    | succ count ih =>
      intro inside
      obtain ⟨st, done, raw, folds, scanned⟩ := ih (Nat.le_of_succ_le inside)
      obtain ⟨after, done, raw, steps, scanned⟩ := scanByte_scanned scanned inside
        (getElem?_eq_getElem inside) fits
      refine ⟨after, done, raw, ?_, scanned⟩
      rw [take_succ_eq_append_getElem inside, foldlM_append, folds, bind_eq_bind,
        bind_some, foldlM_cons, steps]
      rfl
  obtain ⟨st, done, raw, folds, scanned⟩ := scans row.length (le_rfl)
  obtain ⟨code, writes, codes⟩ := scanned.chunk (le_rfl) fits
  rw [take_length] at folds codes
  unfold encodeRleScanline
  rw [folds, bind_some, scanned.read]
  by_cases pending : st.cRawBytes ≠ 0 ∨ st.nRunLength ≠ 0
  · rw [if_pos pending]
    refine ⟨st.out ++ code, ?_, codes⟩
    dsimp only
    rw [writes, map_some]
  · rw [if_neg pending]
    rw [not_or, not_not, not_not] at pending
    have splits := scanned.splits
    rw [take_length, pending.2, length_eq_zero_iff.1 (scanned.literals.trans pending.1),
      replicate_zero, append_nil, append_nil] at splits
    exact ⟨st.out, rfl, splits ▸ scanned.codes⟩

theorem length_rowAt {y : Nat} (filled : plane.length = height * width) (inside : y < height) :
    (rowAt plane width y).length = width := by
  have below : (y + 1) * width ≤ height * width := Nat.mul_le_mul_right width inside
  rw [Nat.add_one_mul] at below
  rw [rowAt, length_take, length_drop]
  omega

theorem compressPlane_codes {delta : Bytes} (filled : delta.length = height * width)
    (fits : 2 * (height * width) ≤ cap) :
    ∃ code, compressPlane delta width height cap = some code ∧ code.length ≤ 2 * (height * width) ∧
      ∀ rest, decodePlaneRle (code ++ rest) width height = some (delta, rest) := by
  have rows : ∀ count, count ≤ height → ∃ code, (range count).foldlM (fun out y =>
        (encodeRleScanline (rowAt delta width y) (cap - out.length)).map (out ++ ·)) [] =
          some code ∧
      code.length ≤ 2 * (count * width) ∧
      ∀ rest, decodePlaneRle (code ++ rest) width count =
        some (delta.take (count * width), rest) := by
    intro count
    induction count with
    | zero => exact fun _ => ⟨[], rfl, Nat.zero_le _, fun rest => by simp [decodePlaneRle]⟩
    | succ count ih =>
      intro inside
      obtain ⟨code, writes, short, reads⟩ := ih (Nat.le_of_succ_le inside)
      have length := length_rowAt filled inside
      have below : (count + 1) * width ≤ height * width := Nat.mul_le_mul_right width inside
      rw [Nat.add_one_mul count width] at below ⊢
      obtain ⟨row, encodes, codes⟩ := encodeRleScanline_codes
        (show 2 * (rowAt delta width count).length ≤ cap - code.length by omega)
      have bound := codes.short
      refine ⟨code ++ row, ?_, ?_, fun rest => ?_⟩
      · rw [range_succ, foldlM_append, writes, bind_eq_bind, bind_some, foldlM_cons, encodes]
        rfl
      · rw [length_append]
        omega
      · have before := reads (row ++ rest)
        unfold decodePlaneRle at before ⊢
        rw [range_succ, foldlM_append, append_assoc, before, bind_eq_bind, bind_some, foldlM_cons]
        dsimp only
        rw [codes.read rest (by simp [length]), nil_append, decodeRow.eq_def, if_neg (by omega),
          take_add]
        rfl
  obtain ⟨code, writes, short, reads⟩ := rows height (le_rfl)
  refine ⟨code, writes, short, fun rest => ?_⟩
  rw [reads rest, ← filled, take_length]

def unfolded (d : UInt8) : UInt8 := if d &&& 1 ≠ 0 then -(d / 2 + 1) else d / 2

theorem unfoldDelta_eq (prev d : UInt8) : unfoldDelta prev d = prev + unfolded d := by
  unfold unfoldDelta unfolded
  split_ifs
  · exact UInt8.sub_eq_add_neg _ _
  · rfl

set_option maxRecDepth 4000 in
theorem unfolded_foldDelta (src prev : UInt8) : unfolded (foldDelta src prev) = src - prev := by
  have all : ∀ n < 256, unfolded (if UInt8.ofNat n < 128 then low ((UInt8.ofNat n).toNat * 2)
      else low ((256 - (UInt8.ofNat n).toNat) * 2 - 1)) = UInt8.ofNat n := by decide
  have this := all (src - prev).toNat (UInt8.toNat_lt _)
  rw [UInt8.ofNat_toNat] at this
  exact this

theorem unfoldDelta_foldDelta (src prev : UInt8) : unfoldDelta prev (foldDelta src prev) = src := by
  rw [unfoldDelta_eq, unfolded_foldDelta, UInt8.add_comm, UInt8.sub_add_cancel]

theorem zipWith_unfoldDelta {prev : Bytes} (even : src.length = prev.length) :
    List.zipWith unfoldDelta prev (List.zipWith foldDelta src prev) = src := by
  induction src generalizing prev with
  | nil => cases prev <;> rfl
  | cons first src ih =>
    cases prev with
    | nil => cases even
    | cons above prev =>
      rw [zipWith_cons_cons, zipWith_cons_cons, unfoldDelta_foldDelta, ih (Nat.succ.inj even)]

theorem rowAt_deltaEncodePlane (filled : plane.length = height * width) (some : 0 < height) :
    (deltaEncodePlane plane width height).length = height * width ∧
    (deltaEncodePlane plane width height).take width = plane.take width ∧
    ∀ y, y + 1 < height → rowAt (deltaEncodePlane plane width height) width (y + 1) =
      List.zipWith foldDelta (rowAt plane width (y + 1)) (rowAt plane width y) := by
  have first : (plane.take width).length = width := by
    have row := length_rowAt filled some
    rw [rowAt, Nat.zero_mul] at row
    exact row
  have even : ∀ y < height - 1,
      (zipWith foldDelta (rowAt plane width (y + 1)) (rowAt plane width y)).length = width := by
    intro y inside
    rw [length_zipWith, length_rowAt filled (by omega), length_rowAt filled (by omega), min_self]
  refine ⟨?_, ?_, ?_⟩
  · rw [deltaEncodePlane, length_append, first, Rows.length_flatMap_range _ _ _ even]
    obtain ⟨rows, rfl⟩ := Nat.exists_eq_add_of_lt some
    rw [Nat.add_sub_cancel, Nat.add_one_mul, Nat.mul_comm width, Nat.add_comm]
  · rw [deltaEncodePlane, take_left' first]
  · intro y inside
    have skip : (y + 1) * width = (plane.take width).length + width * y := by
      rw [first, Nat.add_one_mul, Nat.mul_comm, Nat.add_comm]
    rw [rowAt, deltaEncodePlane, skip, drop_length_add_append,
      Rows.take_drop_flatMap_range _ _ (le_rfl) _ even (by omega),
      take_of_length_le (le_of_eq (even y (by omega)))]

theorem undoDelta_deltaEncodePlane (filled : plane.length = height * width) (some : 0 < height) :
    undoDelta (deltaEncodePlane plane width height) width height = plane := by
  obtain ⟨_, first, below⟩ := rowAt_deltaEncodePlane filled some
  unfold undoDelta
  generalize deltaEncodePlane plane width height = delta at *
  have rows : ∀ count, count < height →
      (range count).foldl (fun plane y => plane ++ zipWith unfoldDelta
        (rowAt plane width y) (rowAt delta width (y + 1))) (delta.take width) =
          plane.take ((count + 1) * width) := by
    intro count
    induction count with
    | zero =>
      intro _
      rw [first, Nat.one_mul]
      rfl
    | succ count ih =>
      intro inside
      have earlier : rowAt (plane.take ((count + 1) * width)) width count =
          rowAt plane width count := by
        rw [rowAt, rowAt, Nat.add_one_mul, drop_take, Nat.add_sub_cancel_left, take_take, min_self]
      rw [range_succ, foldl_append, ih (by omega), foldl_cons, foldl_nil,
        earlier, below count inside, zipWith_unfoldDelta (by
          rw [length_rowAt filled inside, length_rowAt filled (by omega)]),
        Nat.add_one_mul (count + 1) width, take_add, rowAt]
  rw [rows (height - 1) (by omega), Nat.sub_add_cancel some, ← filled, take_length]

theorem length_planeOf (src : Bytes) (npix off : Nat) : (planeOf src npix off).length =
    npix := by
  rw [planeOf, length_map, length_range]

theorem getD_planeOf {npix off i : Nat} (inside : i < npix) :
    (planeOf src npix off).getD i 0 = src.getD (i * 3 + off) 0 := by
  rw [planeOf, getD_eq_getElem?_getD, getElem?_map, getElem?_range inside]
  rfl

theorem flatMap_pixels {npix : Nat} (filled : src.length = npix * 3) :
    ((List.range npix).flatMap fun i =>
      [src.getD (i * 3) 0, src.getD (i * 3 + 1) 0, src.getD (i * 3 + 2) 0]) = src := by
  have pixels := Rows.flatMap_take_drop src 3 npix
  rw [← filled, take_length] at pixels
  conv_rhs => rw [← pixels]
  refine flatMap_congr fun i member => ?_
  have inside := mem_range.1 member
  have first : i * 3 < src.length := by omega
  have second : i * 3 + 1 < src.length := by omega
  have third : i * 3 + 2 < src.length := by omega
  rw [drop_eq_getElem_cons first, drop_eq_getElem_cons second, drop_eq_getElem_cons third,
    getD_eq_getElem?_getD, getD_eq_getElem?_getD, getD_eq_getElem?_getD, getElem?_eq_getElem first,
    getElem?_eq_getElem second, getElem?_eq_getElem third]
  rfl

theorem planeCode_codes (src : Bytes) (off : Nat) (dims : 0 < height)
    (wide : width ≤ planarDimMax) (high : height ≤ planarDimMax) :
    ∃ code, planeCode src width height off = some code ∧ code.length ≤ 2 * (width * height) ∧
      ∀ rest, decodePlane true (code ++ rest) width height =
        some (planeOf src (width * height) off, rest) := by
  have filled : (planeOf src (width * height) off).length = height * width := by
    rw [length_planeOf, Nat.mul_comm]
  have small : height * width ≤ planarPixMax := Nat.mul_le_mul high wide
  have room : 2 * (height * width) ≤ planarPixMax * 2 := by omega
  obtain ⟨code, writes, short, reads⟩ :=
    compressPlane_codes (rowAt_deltaEncodePlane filled dims).1 room
  refine ⟨code, writes, by rw [Nat.mul_comm width]; exact short, fun rest => ?_⟩
  rw [decodePlane, if_pos rfl, reads rest, map_some]
  dsimp only
  rw [undoDelta_deltaEncodePlane filled dims]

/-- **Planar compression is lossless.** For every picture of 1 to 64 by 1 to 64 pixels,
the code of each plane has at most twice the bytes of the plane, so that its buffer
does not overflow; the compression fails exactly if the whole does not fit the
capacity that the caller gives; and what it returns is decompressed to the picture. -/
theorem planar_lossless (src : Bytes) (width height cap : Nat) (wide : 1 ≤ width)
    (narrow : width ≤ 64) (high : 1 ≤ height) (low : height ≤ 64)
    (filled : src.length = width * height * 3) :
    ∃ red green blue, planeCode src width height 2 = some red ∧
      planeCode src width height 1 = some green ∧ planeCode src width height 0 = some blue ∧
      red.length ≤ 2 * (width * height) ∧ green.length ≤ 2 * (width * height) ∧
      blue.length ≤ 2 * (width * height) ∧
      (compress24 cap src width height = none ↔ cap < 1 + red.length + green.length + blue.length) ∧
      ∀ out dstLen, compress24 cap src width height = some out → width * height * 3 ≤ dstLen →
        decompress24 dstLen out width height = some src := by
  obtain ⟨red, redCode, redShort, redReads⟩ := planeCode_codes src 2 high narrow low
  obtain ⟨green, greenCode, greenShort, greenReads⟩ := planeCode_codes src 1 high narrow low
  obtain ⟨blue, blueCode, blueShort, blueReads⟩ := planeCode_codes src 0 high narrow low
  have sized : ¬ (width = 0 ∨ height = 0 ∨ width > planarDimMax ∨ height > planarDimMax) := by
    have most : planarDimMax = 64 := rfl
    omega
  have writes : compress24 cap src width height =
      if 1 + red.length + green.length + blue.length > cap then none
      else some ((planarFmtNa ||| planarFmtRle) :: red ++ green ++ blue) := by
    rw [compress24, if_neg sized, redCode, bind_some, greenCode, bind_some, blueCode, bind_some]
  refine ⟨red, green, blue, redCode, greenCode, blueCode, redShort, greenShort, blueShort, ?_, ?_⟩
  · rw [writes]
    split_ifs with long
    · exact ⟨fun _ => long, fun _ => rfl⟩
    · exact ⟨False.elim, fun much => absurd much long⟩
  · intro out dstLen compresses room
    rw [writes] at compresses
    split_ifs at compresses
    have framed : out = 0x30 :: (red ++ (green ++ (blue ++ []))) := by
      rw [append_nil, ← append_assoc]
      exact (Option.some.inj compresses).symm
    have read : ¬ (width = 0 ∨ height = 0 ∨ width > planarDimMax ∨ height > planarDimMax ∨
        out.length < 1) := by
      rw [framed, length_cons]
      omega
    have isRle : decide ((0x30 : UInt8) &&& planarFmtRle ≠ 0) = true := by decide
    unfold decompress24
    rw [if_neg read, if_neg (Nat.not_lt.2 room), framed]
    dsimp only [headD_cons, tail_cons]
    rw [isRle, if_neg (by decide), redReads, bind_some]
    dsimp only
    rw [greenReads, bind_some]
    dsimp only
    rw [blueReads, map_some]
    dsimp only
    refine congrArg some ((flatMap_congr fun i member => ?_).trans (flatMap_pixels filled))
    have inside := mem_range.1 member
    rw [getD_planeOf inside, getD_planeOf inside, getD_planeOf inside]
    rfl

/-- Two pixels side by side, one of them black. -/
theorem planar_lossless_pair :
    ∃ red green blue, planeCode [0, 0, 0, 9, 8, 7] 2 1 2 = some red ∧
      planeCode [0, 0, 0, 9, 8, 7] 2 1 1 = some green ∧
      planeCode [0, 0, 0, 9, 8, 7] 2 1 0 = some blue ∧
      red.length ≤ 2 * (2 * 1) ∧ green.length ≤ 2 * (2 * 1) ∧ blue.length ≤ 2 * (2 * 1) ∧
      (compress24 100 [0, 0, 0, 9, 8, 7] 2 1 = none ↔
        100 < 1 + red.length + green.length + blue.length) ∧
      ∀ out dstLen, compress24 100 [0, 0, 0, 9, 8, 7] 2 1 = some out → 2 * 1 * 3 ≤ dstLen →
        decompress24 dstLen out 2 1 = some [0, 0, 0, 9, 8, 7] :=
  planar_lossless [0, 0, 0, 9, 8, 7] 2 1 100 (by decide) (by decide) (by decide) (by decide) rfl

end RdpServer.BitmapPlanar
