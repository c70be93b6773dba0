import RdpServer.Lib.Bytes

/-!
# UTF-16LE conversion

Both conversions report the number of octets the whole result takes, whatever
the size of the destination, and `none` for `RDP_UTF_ERR` on malformed input. A
character that does not fit the destination is counted and not stored. `utf16Text`
is the UTF-8 form of UTF-16LE octets, for a destination without an end: the conversion
reports its length, and stores it if it fits.
-/

namespace RdpServer

open Bytes

/-- The lead octet of a UTF-8 sequence: its payload bits and the octets of the
sequence. -/
def utf8Lead (b : Nat) : Option (Nat × Nat) :=
  if b &&& 0x80 = 0 then some (b, 1)
  else if b &&& 0xe0 = 0xc0 then some (b &&& 0x1f, 2)
  else if b &&& 0xf0 = 0xe0 then some (b &&& 0x0f, 3)
  else if b &&& 0xf8 = 0xf0 then some (b &&& 0x07, 4)
  else none

/-- Append the payload of the continuation octets to `cp`. -/
def utf8Continue : Nat → Bytes → Option Nat
  | cp, [] => some cp
  | cp, octet :: rest =>
    if octet.toNat &&& 0xc0 ≠ 0x80 then none
    else utf8Continue (cp <<< 6 ||| (octet.toNat &&& 0x3f)) rest

def utf8Decode (p : Bytes) : Option (Nat × Nat) := do
  let first ← p.head?
  let (lead, need) ← utf8Lead first.toNat
  if p.length < need then none
  else do
    let cp ← utf8Continue lead ((p.drop 1).take (need - 1))
    if 0xd800 ≤ cp ∧ cp ≤ 0xdfff then none
    else if need = 2 ∧ cp < 0x80 then none
    else if need = 3 ∧ cp < 0x800 then none
    else if need = 4 ∧ cp < 0x10000 then none
    else if cp > 0x10ffff then none
    else some (cp, need)

/-- The octets of a code point; a surrogate and a number that is no code point
have none. -/
def utf8Encode (cp : Nat) : Bytes :=
  if cp < 0x80 then [low cp]
  else if cp < 0x800 then [low (0xc0 ||| cp >>> 6), low (0x80 ||| (cp &&& 0x3f))]
  else if cp < 0x10000 then
    if 0xd800 ≤ cp ∧ cp ≤ 0xdfff then []
    else [low (0xe0 ||| cp >>> 12), low (0x80 ||| (cp >>> 6 &&& 0x3f)),
      low (0x80 ||| (cp &&& 0x3f))]
  else if cp ≤ 0x10ffff then
    [low (0xf0 ||| cp >>> 18), low (0x80 ||| (cp >>> 12 &&& 0x3f)),
      low (0x80 ||| (cp >>> 6 &&& 0x3f)), low (0x80 ||| (cp &&& 0x3f))]
  else []

def utf16Units (cp : Nat) : Bytes :=
  if cp ≤ 0xffff then leBytes 2 cp
  else
    let v := cp - 0x10000
    leBytes 2 (0xd800 ||| v >>> 10) ++ leBytes 2 (0xdc00 ||| (v &&& 0x3ff))

/-- Store one character at `w` if it fits. -/
def putChar (dst : Bytes) (dsize w : Nat) (octets : Bytes) : Bytes :=
  if w + octets.length ≤ dsize then writeAt dst w octets else dst

/-- The loop of `rdp_utf8_to_utf16le`; a round takes at least one octet, so that
as many rounds as octets are enough. -/
def utf8ToUtf16Loop (dsize : Nat) : Nat → Bytes → Bytes → Nat → Bytes × Option Nat
  | 0, _, dst, w => (dst, some w)
  | rounds + 1, s, dst, w =>
    if s.isEmpty then (dst, some w)
    else
      match utf8Decode s with
      | none => (dst, none)
      | some (cp, adv) =>
        utf8ToUtf16Loop dsize rounds (s.drop adv) (putChar dst dsize w (utf16Units cp))
          (w + (utf16Units cp).length)

def rdpUtf8ToUtf16le (dst : Bytes) (dsize : Nat) (s : Bytes) :
    Bytes × Option Nat :=
  utf8ToUtf16Loop dsize s.length s dst 0

/-- The loop of `rdp_utf16le_to_utf8`. -/
def utf16ToUtf8Loop (dsize : Nat) : Bytes → Bytes → Nat → Bytes × Option Nat
  | a :: b :: rest, dst, w =>
    let u := leValue [a, b]
    if 0xd800 ≤ u ∧ u ≤ 0xdbff then
      match rest with
      | c :: d :: rest =>
        let lo := leValue [c, d]
        if lo < 0xdc00 ∨ lo > 0xdfff then (dst, none)
        else
          let tmp := utf8Encode (0x10000 + (u - 0xd800) <<< 10 + (lo - 0xdc00))
          if tmp.length = 0 then (dst, none)
          else utf16ToUtf8Loop dsize rest (putChar dst dsize w tmp) (w + tmp.length)
      | _ => (dst, none)
    else if 0xdc00 ≤ u ∧ u ≤ 0xdfff then (dst, none)
    else
      let tmp := utf8Encode u
      if tmp.length = 0 then (dst, none)
      else utf16ToUtf8Loop dsize rest (putChar dst dsize w tmp) (w + tmp.length)
  | _, dst, w => (dst, some w)

def rdpUtf16leToUtf8 (dst : Bytes) (dsize : Nat) (src : Bytes) :
    Bytes × Option Nat :=
  if src.length % 2 ≠ 0 then (dst, none) else utf16ToUtf8Loop dsize src dst 0

open List

def isHigh (u : Nat) : Bool := 0xd800 ≤ u && u ≤ 0xdbff

def isLow (u : Nat) : Bool := 0xdc00 ≤ u && u ≤ 0xdfff

def pairPoint (high low : Nat) : Nat := 0x10000 + (high - 0xd800) * 2 ^ 10 + (low - 0xdc00)

/-- The UTF-8 form of UTF-16LE octets: none for a surrogate that is not in a pair, or
half a unit. -/
def utf16Text : Bytes → Option Bytes
  | [] => some []
  | [_] => none
  | a :: b :: rest =>
    if isHigh (leValue [a, b]) then
      match rest with
      | c :: d :: rest =>
        if isLow (leValue [c, d]) then
          (utf16Text rest).map (utf8Encode (pairPoint (leValue [a, b]) (leValue [c, d])) ++ ·)
        else none
      | _ => none
    else if isLow (leValue [a, b]) then none
    else (utf16Text rest).map (utf8Encode (leValue [a, b]) ++ ·)

section Rounds

variable {a b c d : UInt8} (dsize : Nat) (rest dst : Bytes) (w : Nat)

theorem isHigh_iff {u : Nat} : isHigh u = true ↔ 0xd800 ≤ u ∧ u ≤ 0xdbff := by
  rw [isHigh, Bool.and_eq_true, decide_eq_true_iff, decide_eq_true_iff]

theorem isLow_iff {u : Nat} : isLow u = true ↔ 0xdc00 ≤ u ∧ u ≤ 0xdfff := by
  rw [isLow, Bool.and_eq_true, decide_eq_true_iff, decide_eq_true_iff]

theorem length_utf8Encode_ne_zero {cp : Nat} (point : cp ≤ 0x10ffff)
    (plain : ¬ (0xd800 ≤ cp ∧ cp ≤ 0xdfff)) : (utf8Encode cp).length ≠ 0 := by
  unfold utf8Encode
  split_ifs <;> exact Nat.succ_ne_zero _

theorem utf16ToUtf8Loop_pair (high : isHigh (leValue [a, b])) (low : isLow (leValue [c, d])) :
    utf16ToUtf8Loop dsize (a :: b :: c :: d :: rest) dst w = utf16ToUtf8Loop dsize rest
        (putChar dst dsize w (utf8Encode (pairPoint (leValue [a, b]) (leValue [c, d]))))
        (w + (utf8Encode (pairPoint (leValue [a, b]) (leValue [c, d]))).length) := by
  have above := isHigh_iff.1 high
  have below := isLow_iff.1 low
  have some : (utf8Encode (pairPoint (leValue [a, b]) (leValue [c, d]))).length ≠ 0 := by
    refine length_utf8Encode_ne_zero ?_ ?_ <;> (unfold pairPoint; omega)
  rw [utf16ToUtf8Loop]
  simp only [Nat.shiftLeft_eq]
  rw [if_pos above, if_neg (by omega)]
  exact if_neg some

theorem utf16ToUtf8Loop_plain (notHigh : ¬ isHigh (leValue [a, b]))
    (notLow : ¬ isLow (leValue [a, b])) :
    utf16ToUtf8Loop dsize (a :: b :: rest) dst w =
      utf16ToUtf8Loop dsize rest (putChar dst dsize w (utf8Encode (leValue [a, b])))
        (w + (utf8Encode (leValue [a, b])).length) := by
  have small : leValue [a, b] < 0x10000 := by
    have first := a.toNat_lt
    have second := b.toNat_lt
    simp only [leValue]
    omega
  rw [isHigh_iff] at notHigh
  rw [isLow_iff] at notLow
  have some : (utf8Encode (leValue [a, b])).length ≠ 0 :=
    length_utf8Encode_ne_zero (by omega) (by omega)
  rw [utf16ToUtf8Loop.eq_def]
  dsimp only
  rw [if_neg notHigh, if_neg notLow, if_neg some]

theorem utf16Text_plain (notHigh : ¬ isHigh (leValue [a, b])) (notLow : ¬ isLow (leValue [a, b])) :
    utf16Text (a :: b :: rest) = (utf16Text rest).map (utf8Encode (leValue [a, b]) ++ ·) := by
  rw [utf16Text.eq_def]
  exact (if_neg notHigh).trans (if_neg notLow)

end Rounds

theorem writeAt_append {dst : Bytes} (first second : Bytes) {w : Nat}
    (within : w ≤ dst.length) :
    writeAt (writeAt dst w first) (w + first.length) second = writeAt dst w (first ++ second) := by
  have length : (dst.take w ++ first).length = w + first.length := by
    rw [length_append, length_take, min_eq_left within]
  rw [writeAt, ← length, writeAt, take_left, ← drop_drop, drop_left,
    drop_drop, writeAt, length_append, append_assoc (dst.take w), Nat.add_assoc]

variable {src : Bytes}

theorem utf16ToUtf8Loop_snd (dsize : Nat) (even : src.length % 2 = 0) (dst : Bytes) (w : Nat) :
    (utf16ToUtf8Loop dsize src dst w).2 = (utf16Text src).map (w + ·.length) := by
  induction src using utf16Text.induct generalizing dst w with
  | case1 => rfl
  | case2 => cases even
  | case3 a b high c d rest low ih =>
    have shorter : rest.length % 2 = 0 := by
      simp only [length_cons] at even
      omega
    rw [utf16ToUtf8Loop_pair dsize rest dst w high low, ih shorter,
      utf16Text, if_pos high, if_pos low]
    simp [Function.comp_def, Nat.add_assoc]
  | case4 a b high c d rest low =>
    have outside : leValue [c, d] < 0xdc00 ∨ leValue [c, d] > 0xdfff := by
      rw [isLow_iff] at low
      omega
    rw [utf16ToUtf8Loop, utf16Text, if_pos high, if_neg low]
    rw [if_pos (isHigh_iff.1 high), if_pos outside]
    rfl
  | case5 a b rest high ends =>
    rw [utf16ToUtf8Loop, utf16Text, if_pos high]
    · rw [if_pos (isHigh_iff.1 high)]
      rfl
    · exact ends
    · exact ends
  | case6 a b rest notHigh low =>
    rw [utf16ToUtf8Loop.eq_def, utf16Text.eq_def]
    simp only [notHigh, low, isHigh_iff.not.1 notHigh, isLow_iff.1 low]
    rfl
  | case7 a b rest notHigh notLow ih =>
    have shorter : rest.length % 2 = 0 := by
      simp only [length_cons] at even
      omega
    rw [utf16ToUtf8Loop_plain dsize rest dst w notHigh notLow, ih shorter,
      utf16Text_plain rest notHigh notLow]
    simp [Function.comp_def, Nat.add_assoc]

inductive Spells : Bytes → Bytes → Prop
  | nil : Spells [] []
  | pair {a b c d : UInt8} {rest text : Bytes} (high : isHigh (leValue [a, b]))
      (low : isLow (leValue [c, d])) (later : Spells rest text) :
      Spells (a :: b :: c :: d :: rest)
        (utf8Encode (pairPoint (leValue [a, b]) (leValue [c, d])) ++ text)
  | plain {a b : UInt8} {rest text : Bytes} (notHigh : ¬ isHigh (leValue [a, b]))
      (notLow : ¬ isLow (leValue [a, b])) (later : Spells rest text) :
      Spells (a :: b :: rest) (utf8Encode (leValue [a, b]) ++ text)

variable {text : Bytes}

theorem spells_of_utf16Text (converts : utf16Text src = some text) : Spells src text := by
  induction src using utf16Text.induct generalizing text with
  | case1 =>
    cases converts
    exact .nil
  | case2 => cases converts
  | case3 a b high c d rest low ih =>
    rw [utf16Text, if_pos high, if_pos low] at converts
    obtain ⟨later, convertsLater, rfl⟩ := Option.map_eq_some_iff.1 converts
    exact .pair high low (ih convertsLater)
  | case4 a b high c d rest low =>
    rw [utf16Text, if_pos high, if_neg low] at converts
    cases converts
  | case5 a b rest high ends =>
    rw [utf16Text, if_pos high] at converts
    · cases converts
    · exact ends
  | case6 a b rest notHigh low =>
    rw [utf16Text.eq_def] at converts
    exact nomatch ((if_neg notHigh).trans (if_pos low)).symm.trans converts
  | case7 a b rest notHigh notLow ih =>
    rw [utf16Text_plain rest notHigh notLow] at converts
    obtain ⟨later, convertsLater, rfl⟩ := Option.map_eq_some_iff.1 converts
    exact .plain notHigh notLow (ih convertsLater)

theorem Spells.utf16ToUtf8Loop_fst (spells : Spells src text) {dsize : Nat} {dst : Bytes}
    {w : Nat} (within : w ≤ dst.length) (fits : w + text.length ≤ dsize) :
    (utf16ToUtf8Loop dsize src dst w).1 = writeAt dst w text := by
  induction spells generalizing dst w with
  | nil =>
    rw [utf16ToUtf8Loop, writeAt, append_nil, length_nil, Nat.add_zero, take_append_drop]
    · intro a b rest none
      cases none
  | pair high low _ ih =>
    rw [length_append] at fits
    rw [utf16ToUtf8Loop_pair dsize _ dst w high low, putChar, if_pos (by omega),
      ih (le_length_writeAt dst _ within) (by omega), writeAt_append _ _ within]
  | plain notHigh notLow _ ih =>
    rw [length_append] at fits
    rw [utf16ToUtf8Loop_plain dsize _ dst w notHigh notLow, putChar, if_pos (by omega),
      ih (le_length_writeAt dst _ within) (by omega), writeAt_append _ _ within]

theorem Spells.even (spells : Spells src text) : src.length % 2 = 0 := by
  induction spells with
  | nil => rfl
  | pair _ _ _ ih | plain _ _ _ ih =>
    simp only [length_cons]
    omega

/-- **The conversion** reports the length of the text, or that there is none. -/
theorem rdpUtf16leToUtf8_snd (dst : Bytes) (dsize : Nat) (src : Bytes) :
    (rdpUtf16leToUtf8 dst dsize src).2 = (utf16Text src).map List.length := by
  unfold rdpUtf16leToUtf8
  by_cases odd : src.length % 2 ≠ 0
  · rw [if_pos odd]
    cases converts : utf16Text src with
    | none => rfl
    | some text => exact absurd (spells_of_utf16Text converts).even odd
  · rw [if_neg odd, utf16ToUtf8Loop_snd dsize (not_not.1 odd)]
    simp

theorem rdpUtf16leToUtf8_fst (dst : Bytes) {dsize : Nat} (converts : utf16Text src = some text)
    (fits : text.length ≤ dsize) : (rdpUtf16leToUtf8 dst dsize src).1 = writeAt dst 0 text := by
  rw [rdpUtf16leToUtf8, if_neg (not_not.2 (spells_of_utf16Text converts).even)]
  exact (spells_of_utf16Text converts).utf16ToUtf8Loop_fst (Nat.zero_le _) (by omega)

end RdpServer
