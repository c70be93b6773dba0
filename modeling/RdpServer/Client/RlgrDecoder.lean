import RdpServer.Wire.ProgressiveSize

/-!
# The decoder of the entropy code

The RLGR1 decoder of a client: it is told how many coefficients there are and adapts its
parameters `kp` and `krp` by the same rules as the encoder. Symbol by symbol it reads what the
encoder wrote (`readRun_runWrites`, `readGr_rlgrCodeGr`), so that it reproduces every array in
which no counted run of zeros is longer than a `uint32_t` (`rlgr_decodable_iff`).
-/

namespace RdpServer.Client

open Progressive List Option

def readOnes : List Bool → Option (Nat × List Bool)
  | [] => none
  | false :: bits => some (0, bits)
  | true :: bits => (readOnes bits).map fun found => (found.1 + 1, found.2)

def adaptKrp (krp vk : Nat) : Nat :=
  if vk = 0 then krp - 2 else if vk > 1 then raiseParam krp vk else krp

/-- A Golomb-Rice code: the value, the parameter after it and the bits behind it. -/
def readGr (krp : Nat) (bits : List Bool) : Option (Nat × Nat × List Bool) :=
  (readOnes bits).bind fun ones => (Bits.read (krp / 8) ones.2).map fun found =>
    (ones.1 * 2 ^ (krp / 8) + found.1, adaptKrp krp ones.1, found.2)

/-- A run of zeros: its length, the parameter after it and the bits behind it. -/
def readRun : (kp : Nat) → List Bool → Option (Nat × Nat × List Bool)
  | _, [] => none
  | kp, false :: bits =>
    (readRun (raiseParam kp 4) bits).map fun found => (2 ^ (kp / 8) + found.1, found.2)
  | kp, true :: bits => (Bits.read (kp / 8) bits).map fun found => (found.1, kp, found.2)

def readValue (krp : Nat) : List Bool → Option (Int × Nat × List Bool)
  | [] => none
  | negative :: bits => (readGr krp bits).map fun code =>
    (if negative then -(code.1 + 1 : Int) else code.1 + 1, code.2)

def ofTwoMs (code : Nat) : Int := if code % 2 = 1 then -((code + 1) / 2 : Nat) else (code / 2 : Nat)

def rlgrDecodeLoop : (rounds kp krp : Nat) → List Bool → (left : Nat) → Option (List Int)
  | _, _, _, _, 0 => some []
  | 0, _, _, _, _ + 1 => none
  | rounds + 1, kp, krp, bits, left + 1 =>
    if kp / 8 ≠ 0 then
      (readRun kp bits).bind fun run =>
        if left + 1 ≤ run.1 then some (List.replicate (left + 1) 0)
        else
          (readValue krp run.2.2).bind fun value =>
            (rlgrDecodeLoop rounds (run.2.1 - 6) value.2.1 value.2.2 (left - run.1)).map
              fun more => List.replicate run.1 0 ++ value.1 :: more
    else
      (readGr krp bits).bind fun code =>
        (rlgrDecodeLoop rounds (if code.1 ≠ 0 then kp - 3 else raiseParam kp 3) code.2.1 code.2.2
          left).map fun more => ofTwoMs code.1 :: more

/-- The decoder, told the number of coefficients. A round gives one at least. -/
def rlgrDecode (count : Nat) (code : Bytes) : Option (List Int) :=
  rlgrDecodeLoop count 8 8 (Bits.ofOctets code) count

theorem readOnes_replicate (vk : Nat) (rest : List Bool) :
    readOnes (writeBits (List.replicate vk (1, 1) ++ [(0, 1)]) ++ rest) = some (vk, rest) := by
  induction vk with
  | zero => rfl
  | succ vk ih =>
    rw [replicate_succ, cons_append, writeBits_cons, append_assoc]
    have bit : Bits.of 1 1 = [true] := rfl
    rw [bit, singleton_append, readOnes, ih, map_some]

theorem readGr_rlgrCodeGr (krp val : Nat) (rest : List Bool) :
    readGr krp (writeBits (rlgrCodeGr krp val).1 ++ rest) =
      some (val, (rlgrCodeGr krp val).2, rest) := by
  have tail : writeBits (if krp / 8 > 0 then [(val % 2 ^ (krp / 8), krp / 8)] else []) =
      Bits.of (krp / 8) (val % 2 ^ (krp / 8)) := by
    split_ifs with some
    · rw [writeBits_cons, writeBits_nil, append_nil]
    · rw [Nat.eq_zero_of_not_pos some]
      rfl
  rw [rlgrCodeGr, writeBits_append, tail, append_assoc, readGr, readOnes_replicate,
    bind_some, Bits.read_of, Nat.mod_mod, map_some]
  rw [Nat.mul_comm, Nat.div_add_mod]
  rfl

theorem readRun_runWrites (zeros kp : Nat) (rest : List Bool) :
    readRun kp (writeBits (runWrites zeros kp) ++ rest) =
      some (zeros, (rlgrRuns zeros kp).2.2, rest) := by
  induction zeros, kp using rlgrRuns.induct with
  | case1 zeros kp short =>
    have bits : writeBits [(1, 1), (zeros, kp / 8)] ++ rest =
        true :: (Bits.of (kp / 8) zeros ++ rest) := by
      rw [writeBits_cons, writeBits_cons, writeBits_nil, append_nil]
      rfl
    rw [runWrites, rlgrRuns, if_pos short]
    rw [nil_append, bits, readRun, Bits.read_of, map_some, Nat.mod_eq_of_lt short]
  | case2 zeros kp long ih =>
    have bits : writeBits (runWrites zeros kp) ++ rest =
        false :: (writeBits (runWrites (zeros - 2 ^ (kp / 8)) (raiseParam kp 4)) ++ rest) := by
      rw [runWrites, rlgrRuns, if_neg long]
      rfl
    have after : (rlgrRuns zeros kp).2.2 =
        (rlgrRuns (zeros - 2 ^ (kp / 8)) (raiseParam kp 4)).2.2 := by
      rw [rlgrRuns, if_neg long]
    rw [bits, readRun, ih, map_some, after, Nat.add_sub_cancel' (Nat.not_lt.1 long)]

theorem readValue_rlgrValue {input : Int} (nonzero : input ≠ 0) (krp : Nat) (rest : List Bool) :
    readValue krp (writeBits (rlgrValue krp input).1 ++ rest) =
      some (input, (rlgrValue krp input).2, rest) := by
  have bits : writeBits (rlgrValue krp input).1 ++ rest =
      decide (input < 0) :: (writeBits (rlgrCodeGr krp (input.natAbs - 1)).1 ++ rest) := by
    rw [rlgrValue, if_neg nonzero]
    by_cases negative : input < 0
    · rw [if_pos negative, decide_eq_true negative]
      rfl
    · rw [if_neg negative, decide_eq_false negative]
      rfl
  have after : (rlgrValue krp input).2 = (rlgrCodeGr krp (input.natAbs - 1)).2 := by
    rw [rlgrValue, if_neg nonzero]
  have restored : (if decide (input < 0) = true then -((input.natAbs - 1 : Nat) + 1 : Int)
      else (input.natAbs - 1 : Nat) + 1) = input := by
    simp only [decide_eq_true_eq]
    split_ifs <;> omega
  rw [bits, readValue, readGr_rlgrCodeGr, map_some, after, restored]

theorem ofTwoMs_twoMs (input : Int) : ofTwoMs (twoMs input) = input := by
  unfold ofTwoMs twoMs
  split_ifs <;> omega

theorem readValue_ne_zero {krp : Nat} {bits : List Bool} {found : Int × Nat × List Bool}
    (read : readValue krp bits = some found) : found.1 ≠ 0 := by
  cases bits with
  | nil => cases read
  | cons negative bits =>
    obtain ⟨code, -, rfl⟩ := map_eq_some_iff.1 read
    split_ifs <;> omega

theorem early_ne {m n : Nat} {value : Int} {more rest : List Int} (early : m < n)
    (nonzero : value ≠ 0) :
    List.replicate m 0 ++ value :: more ≠ List.replicate n 0 ++ rest := by
  intro same
  have there : (replicate m 0 ++ value :: more)[m]? = (replicate n 0 ++ rest)[m]? := by
    rw [same]
  rw [getElem?_append_right (by simp), getElem?_append_left (by simpa using early),
    length_replicate, Nat.sub_self, getElem?_replicate_of_lt early] at there
  exact nonzero (some.inj there)

theorem short_run_ne {rounds kp krp n m kp' : Nat} {bits behind : List Bool} {rest : List Int}
    (runMode : kp / 8 ≠ 0) (read : readRun kp bits = some (m, kp', behind)) (short : m < n) :
    rlgrDecodeLoop rounds kp krp bits (List.replicate n 0 ++ rest).length ≠
      some (List.replicate n 0 ++ rest) := by
  intro decoded
  have count : (replicate n (0 : Int) ++ rest).length = n + rest.length - 1 + 1 := by
    rw [length_append, length_replicate]
    omega
  cases rounds with
  | zero =>
    rw [count] at decoded
    cases decoded
  | succ rounds =>
    rw [count, rlgrDecodeLoop, if_pos runMode, read, bind_some, if_neg (by omega)] at decoded
    obtain ⟨value, found, decoded⟩ := bind_eq_some_iff.1 decoded
    obtain ⟨more, -, whole⟩ := map_eq_some_iff.1 decoded
    exact early_ne short (readValue_ne_zero found) whole

variable {data : List Int}

/-- **Encoder and decoder in step.** Symbol by symbol, the decoder has the parameters of the
encoder; it gives the data back exactly if all counted runs fit the counter. -/
theorem decodes_iff {kp krp : Nat} {runs : List Nat} {writes : List Write}
    (coded : Coded kp krp data runs writes) {rounds : Nat} (enough : data.length ≤ rounds)
    (behind : List Bool) :
    rlgrDecodeLoop rounds kp krp (writeBits writes ++ behind) data.length = some data ↔
      ∀ n ∈ runs, n < 2 ^ 32 := by
  induction coded generalizing rounds with
  | nil =>
    rw [length_nil, rlgrDecodeLoop]
    simp
  | @zeros kp krp n runMode =>
    have read := readRun_runWrites ((n + 1) % 2 ^ 32) kp behind
    by_cases fits : n + 1 < 2 ^ 32
    · refine iff_of_true ?_ fun other member => ?_
      · obtain ⟨rounds, rfl⟩ : ∃ more, rounds = more + 1 := ⟨rounds - 1, by
          rw [length_replicate] at enough
          omega⟩
        rw [length_replicate, rlgrDecodeLoop, if_pos runMode, read, bind_some,
          Nat.mod_eq_of_lt fits, if_pos le_rfl]
      · rw [mem_singleton.1 member]
        exact fits
    · have short : (n + 1) % 2 ^ 32 < n + 1 := by omega
      have wrong := @short_run_ne rounds kp krp _ _ _ _ _ [] runMode read short
      rw [append_nil] at wrong
      exact iff_of_false wrong fun all => fits (all _ (mem_singleton_self _))
  | @value kp krp n value data runs writes runMode nonzero rest ih =>
    have read := readRun_runWrites (n % 2 ^ 32) kp
      (writeBits (rlgrValue krp value).1 ++ (writeBits writes ++ behind))
    have bits : writeBits (runWrites (n % 2 ^ 32) kp ++ (rlgrValue krp value).1 ++ writes) ++
        behind = writeBits (runWrites (n % 2 ^ 32) kp) ++
          (writeBits (rlgrValue krp value).1 ++ (writeBits writes ++ behind)) := by
      rw [writeBits_append, writeBits_append, append_assoc, append_assoc]
    rw [bits]
    by_cases fits : n < 2 ^ 32
    · have count : (replicate n 0 ++ value :: data).length = n + data.length + 1 := by
        rw [length_append, length_replicate, length_cons, Nat.add_assoc]
      obtain ⟨rounds, rfl⟩ : ∃ more, rounds = more + 1 := ⟨rounds - 1, by omega⟩
      rw [Nat.mod_eq_of_lt fits] at read ih ⊢
      rw [count, rlgrDecodeLoop, if_pos runMode, read, bind_some, if_neg (by omega),
        readValue_rlgrValue nonzero, bind_some, Nat.add_sub_cancel_left,
        forall_mem_cons, and_iff_right fits, ← @ih rounds (by omega), map_eq_some_iff]
      constructor
      · rintro ⟨more, decoded, same⟩
        have equal := append_cancel_left same
        rw [decoded, (cons.inj equal).2]
      · intro decoded
        exact ⟨data, decoded, rfl⟩
    · have short : n % 2 ^ 32 < n := by omega
      have wrong := @short_run_ne rounds kp krp _ _ _ _ _ (value :: data) runMode read short
      exact iff_of_false wrong fun all => fits (all n mem_cons_self)
  | @code kp krp input data runs writes codeMode rest ih =>
    have enough : data.length + 1 ≤ rounds := enough
    obtain ⟨rounds, rfl⟩ : ∃ more, rounds = more + 1 := ⟨rounds - 1, by omega⟩
    rw [writeBits_append, append_assoc, length_cons, rlgrDecodeLoop, if_neg codeMode,
      readGr_rlgrCodeGr, bind_some, ← @ih rounds (by omega), map_eq_some_iff]
    rw [ofTwoMs_twoMs]
    constructor
    · rintro ⟨more, decoded, same⟩
      rw [decoded, (cons.inj same).2]
    · intro decoded
      exact ⟨data, decoded, rfl⟩

def ShortRuns (data : List Int) : Prop := ∀ n ∈ countedRuns 8 data, n < 2 ^ 32

theorem rlgrDecode_iff {cap : Nat} {code : Bytes}
    (encoded : rlgr1Encode data cap = some code) :
    rlgrDecode data.length code = some data ↔ ShortRuns data := by
  obtain ⟨pad, bits⟩ := rlgr1Encode_bits encoded
  rw [rlgrDecode, bits]
  exact decodes_iff (rlgrLoop_coded 8 8 data) le_rfl _

theorem runs_le_length {kp krp : Nat} {runs : List Nat} {writes : List Write}
    (coded : Coded kp krp data runs writes) : ∀ n ∈ runs, n ≤ data.length := by
  induction coded with
  | nil =>
    intro n member
    cases member
  | zeros =>
    intro n member
    rw [mem_singleton.1 member, length_replicate]
  | value runMode nonzero rest ih =>
    intro n member
    rw [length_append, length_replicate, length_cons]
    rcases mem_cons.1 member with rfl | member
    · exact Nat.le_add_right _ _
    · have within := ih n member
      omega
  | code codeMode rest ih =>
    intro n member
    exact Nat.le_succ_of_le (ih n member)

/-- **Tiles decode**: the 4096 coefficients of a plane of a tile come back from their code. -/
theorem rlgrDecode_rlgr1Encode (plane : Fin 4096 → Int) (cap : Nat) :
    (rlgr1Encode (ofFn plane) cap).bind (rlgrDecode 4096) =
      (rlgr1Encode (ofFn plane) cap).map fun _ => ofFn plane := by
  have length : (ofFn plane).length = 4096 := length_ofFn
  cases encoded : rlgr1Encode (ofFn plane) cap with
  | none => rfl
  | some code =>
    have decodes := (rlgrDecode_iff encoded).2 fun n member => lt_of_le_of_lt
      (runs_le_length (rlgrLoop_coded 8 8 _) n member) (by omega)
    rw [length] at decodes
    exact decodes

def Decodable (data : List Int) : Prop :=
  ∀ cap code, rlgr1Encode data cap = some code → rlgrDecode data.length code = some data

/-- **Decoding.** An array of coefficients of any length is decodable exactly if no counted run of
zeros wraps the counter, and decodable arrays of one length have codes of their own. -/
theorem rlgr_decodable_iff (data : List Int) :
    (Decodable data ↔ ShortRuns data) ∧
      (ShortRuns data → ∀ other, ShortRuns other → other.length = data.length →
        ∀ cap cap' code, rlgr1Encode data cap = some code → rlgr1Encode other cap' = some code →
          other = data) := by
  refine ⟨⟨fun decodable => ?_, fun short cap code encoded => (rlgrDecode_iff encoded).2 short⟩, ?_⟩
  · rcases rlgr1Encode_eq data (codeLength data) with ⟨small, -⟩ | ⟨-, code, encoded, -⟩
    · exact absurd small (lt_irrefl _)
    · exact (rlgrDecode_iff encoded).1 (decodable _ code encoded)
  · intro short other otherShort length cap cap' code encoded otherEncoded
    have first := (rlgrDecode_iff encoded).2 short
    have second := (rlgrDecode_iff otherEncoded).2 otherShort
    rw [length, first] at second
    exact (some.inj second).symm

theorem bsWrite_pending {bs : Bitstream} {write : Write} (nonempty : write.2 ≠ 0)
    (short : bs.bits + write.2 < 8) :
    bsWrite bs write = some { bs with
      acc := bs.acc ||| (write.1 % 2 ^ write.2 * 2 ^ (32 - bs.bits - write.2)) % 2 ^ 32
      bits := bs.bits + write.2 } := by
  rw [bsWrite, if_neg nonempty, Bitstream.drain, if_neg (Nat.not_le.2 short)]

/-- As many zeros as wrap the counter are coded like none, and decoded as something else. -/
theorem wrapped_zeros_not_decoded :
    rlgr1Encode (List.replicate (2 ^ 32) 0) 1 = some [0x80] ∧
      rlgrDecode (2 ^ 32) [0x80] ≠ some (List.replicate (2 ^ 32) 0) := by
  obtain ⟨writes, runs⟩ := @zeros_eq (2 ^ 32) (by decide)
  have encoded : rlgr1Encode (replicate (2 ^ 32) 0) 1 = some [0x80] := by
    rw [rlgr1Encode, writes, Nat.mod_self, runWrites, rlgrRuns, if_pos (by decide)]
    rw [nil_append, foldlM_cons, bsWrite_pending (by decide) (by decide), bind_eq_bind, bind_some,
      foldlM_cons, bsWrite_pending (by decide) (by decide)]
    decide
  refine ⟨encoded, fun decoded => ?_⟩
  have short := (rlgrDecode_iff encoded).1 (by rw [length_replicate]; exact decoded)
  rw [ShortRuns, runs] at short
  exact lt_irrefl _ (short _ (mem_singleton_self _))

end RdpServer.Client
