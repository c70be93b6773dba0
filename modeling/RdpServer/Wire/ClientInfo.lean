import Mathlib.Algebra.Order.Ring.Int
import RdpServer.Common.Utf16
import RdpServer.Lib.Checked

/-!
# The Client Info PDU

`rdp_client_info_parse` takes the login data from the PDU; the password is a slice of its buffer.
`rdp_tz_to_posix` turns the biases and transition dates of a client into a POSIX TZ string.
Without a usable daylight rule the string does not name the daylight offset, but the range
check still looks at it (`tzString_eq_iff`).
-/

namespace RdpServer

open Bytes Option

def rdpSecInfoPkt : Nat := 0x40

def rdpInfoUnicode : Nat := 0x10

def rdpSecHdrLen : Nat := 4

/-- `rdp_sec_parse_header`: the flags; the header takes four bytes. -/
def rdpSecParseHeader (p : Bytes) : Option Nat :=
  if p.length < rdpSecHdrLen then none else some (leValue (p.take 2))

/-- `struct rdp_client_info`, without the time zone. -/
structure ClientInfo where
  flags : Nat
  codepage : Nat
  domain : Bytes
  username : Bytes
  havePassword : Bool
  workingDir : Bytes
  altShell : Bytes
  /-- The logon id and the security verifier of the auto-reconnect cookie. -/
  arc : Option (Nat × Bytes)
  deriving DecidableEq

def isUnicode (flags : Nat) : Bool := flags &&& rdpInfoUnicode != 0

/-- `decode_string`: the string that a buffer of `size` zero bytes holds then. -/
def decodeString (unicode : Bool) (octets : Bytes) (size : Nat) : Option Bytes :=
  if unicode then
    let converted := rdpUtf16leToUtf8 (List.replicate size 0) (size - 1) octets
    converted.2.map fun need =>
      (writeAt converted.1 (if need ≥ size then size - 1 else need) [0]).takeWhile (· ≠ 0)
  else some ((octets.take (size - 1)).takeWhile (· ≠ 0))

namespace ClientInfo

def ld16 (p : Bytes) (off : Nat) : Nat := leValue ((p.drop off).take 2)

def ld32 (p : Bytes) (off : Nat) : Nat := leValue ((p.drop off).take 4)

def step (unicode : Bool) : Nat := if unicode then 2 else 1

/-- `READ_STR`: a string and where the next one starts. -/
def readStr (unicode : Bool) (p : Bytes) (off cb size : Nat) :
    Option (Bytes × Nat) :=
  if off + cb + step unicode > p.length then none
  else
    (decodeString unicode (Slice.octets ⟨off, cb⟩ p) size).map fun text =>
      (text, off + cb + step unicode)

/-- The auto-reconnect cookie in the optional part, which the rest may miss. -/
def readArc (p : Bytes) (off : Nat) : Option (Nat × Bytes) :=
  if off + 4 > p.length then none
  else
    let off := off + 4 + ld16 p (off + 2)
    if off + 2 > p.length then none
    else
      let off := off + 2 + ld16 p off
      -- time zone, session id and performance flags
      let off := off + 172 + 4 + 4
      if off > p.length then none
      else if off + 2 > p.length then none
      else if ld16 p off = 28 ∧ off + 2 + 28 ≤ p.length then
        if ld32 p (off + 6) = 1 then
          some (ld32 p (off + 10), Slice.octets ⟨off + 14, 16⟩ p)
        else none
      else none

end ClientInfo

open ClientInfo in
/-- `rdp_client_info_parse`: the fields, and the slice of the PDU that is the
password. -/
def rdpClientInfoParse (p : Bytes) : Option (ClientInfo × Option Slice) :=
  if p.length < 18 then none
  else
    let unicode := isUnicode (ld32 p 4)
    let cbPassword := ld16 p 12
    (readStr unicode p 18 (ld16 p 8) 64).bind fun (domain, off) =>
    (readStr unicode p off (ld16 p 10) 256).bind fun (username, off) =>
    if off + cbPassword + step unicode > p.length then none
    else
      let password : Option Slice := if cbPassword > 0 then some ⟨off, cbPassword⟩ else none
      (readStr unicode p (off + cbPassword + step unicode) (ld16 p 14) 260).bind
        fun (altShell, off) =>
      (readStr unicode p off (ld16 p 16) 260).bind fun (workingDir, off) =>
      some ({ flags := ld32 p 4, codepage := ld32 p 0, domain := domain, username := username
              havePassword := password.isSome, altShell := altShell, workingDir := workingDir
              arc := readArc p off }, password)

theorem rdpClientInfoParse_password {p : Bytes} {info : ClientInfo} {password : Slice}
    (parsed : rdpClientInfoParse p = some (info, some password)) :
    password.Inside p.length ∧ 0 < password.len ∧ info.havePassword = true := by
  unfold rdpClientInfoParse at parsed
  by_cases short : p.length < 18
  · rw [if_pos short] at parsed
    cases parsed
  rw [if_neg short] at parsed
  obtain ⟨⟨domain, off⟩, _, parsed⟩ := bind_eq_some_iff.1 parsed
  obtain ⟨⟨username, off⟩, _, parsed⟩ := bind_eq_some_iff.1 parsed
  dsimp only at parsed
  by_cases long : off + ClientInfo.ld16 p 12 +
      ClientInfo.step (isUnicode (ClientInfo.ld32 p 4)) > p.length
  · rw [if_pos long] at parsed
    cases parsed
  rw [if_neg long] at parsed
  obtain ⟨⟨altShell, next⟩, _, parsed⟩ := bind_eq_some_iff.1 parsed
  obtain ⟨⟨workingDir, last⟩, _, parsed⟩ := bind_eq_some_iff.1 parsed
  obtain ⟨fields, slice⟩ := Prod.mk.inj (some.inj parsed)
  split_ifs at slice with carries
  rw [← fields, ← some.inj slice, if_pos carries]
  refine ⟨?_, carries, rfl⟩
  unfold Slice.Inside
  dsimp only
  omega

open List

/-- `struct rdp_tz_systemtime`. -/
structure TzSystemtime where
  month : Nat := 0
  dow : Nat := 0
  day : Nat := 0
  hour : Nat := 0
  minute : Nat := 0
  deriving DecidableEq

namespace TimeZone

/-- `%u`. -/
def decimal (value : Nat) : Bytes := (Nat.toDigits 10 value).map fun c => low c.toNat

/-- `%02u`. -/
def twoDigits (value : Nat) : Bytes :=
  if value < 10 then 0x30 :: decimal value else decimal value

/-- What `snprintf` leaves in a buffer of `cap` octets. -/
def snprintf (cap : Nat) (text : Bytes) : Bytes := text.take (cap - 1)

/-- The text of `tz_fmt_offset`. -/
def offsetText (min : Int) : Bytes :=
  let hh := min.natAbs / 60
  let mm := min.natAbs % 60
  (if min < 0 then [0x2d] else []) ++ decimal hh ++
    (if mm ≠ 0 then 0x3a :: twoDigits mm else [])

def tzFmtOffset (cap : Nat) (min : Int) : Bytes := snprintf cap (offsetText min)

/-- The text of `tz_fmt_label`. -/
def labelText (utcMin : Int) : Bytes :=
  let hh := utcMin.natAbs / 60
  let mm := utcMin.natAbs % 60
  [0x3c, if utcMin < 0 then 0x2d else 0x2b] ++ twoDigits hh ++
    (if mm ≠ 0 then twoDigits mm else []) ++ [0x3e]

def tzFmtLabel (cap : Nat) (utcMin : Int) : Bytes := snprintf cap (labelText utcMin)

/-- The text of `tz_fmt_time`. -/
def timeText (h m : Nat) : Bytes :=
  decimal h ++ (if m ≠ 0 then 0x3a :: twoDigits m else [])

def tzFmtTime (cap h m : Nat) : Bytes := snprintf cap (timeText h m)

/-- `TZ_OFF_LIMIT`. -/
def tzOffLimit : Int := 14 * 60

def Plausible (off : Int) : Prop := -tzOffLimit ≤ off ∧ off ≤ tzOffLimit

instance (off : Int) : Decidable (Plausible off) := inferInstanceAs (Decidable (_ ∧ _))

def meaningful (bias : Int) (std dst : TzSystemtime) (haveName : Bool) : Bool :=
  haveName || decide (bias ≠ 0) || decide (std.month ≠ 0) || decide (dst.month ≠ 0)

def hasDst (std dst : TzSystemtime) : Bool :=
  decide (std.month ≥ 1 ∧ std.month ≤ 12 ∧ dst.month ≥ 1 ∧ dst.month ≤ 12 ∧ std.dow ≤ 6 ∧
    dst.dow ≤ 6 ∧ std.day ≥ 1 ∧ std.day ≤ 5 ∧ dst.day ≥ 1 ∧ dst.day ≤ 5 ∧ std.hour ≤ 23 ∧
    dst.hour ≤ 23 ∧ std.minute ≤ 59 ∧ dst.minute ≤ 59)

def zoneText (off : Int) : Bytes := tzFmtLabel 16 (-off) ++ tzFmtOffset 12 off

/-- A transition, `,M%u.%u.%u/%s`. -/
def transitionText (date : TzSystemtime) : Bytes :=
  [0x2c, 0x4d] ++ decimal date.month ++ [0x2e] ++ decimal date.day ++ [0x2e] ++
    decimal date.dow ++ [0x2f] ++ tzFmtTime 12 date.hour date.minute

def tzText (stdOff dstOff : Int) (std dst : TzSystemtime) : Bytes :=
  if hasDst std dst then
    zoneText stdOff ++ zoneText dstOff ++ transitionText dst ++ transitionText std
  else zoneText stdOff

end TimeZone

open TimeZone in
/-- `rdp_tz_to_posix`: the return value, and the string in `out` if one was stored. The biases
are 32-bit numbers of the client that are added in 64 bits. -/
def rdpTzToPosix (bias stdBias dstBias : Int) (std dst : TzSystemtime) (haveName : Bool)
    (cap : Nat) : Int × Option Bytes :=
  let stdOff := bias + stdBias
  let dstOff := bias + dstBias
  if cap = 0 then (-1, none)
  else if !meaningful bias std dst haveName then (0, some [])
  else if ¬ Plausible stdOff ∨ ¬ Plausible dstOff then (0, some [])
  else
    let text := tzText stdOff dstOff std dst
    if text.length ≥ cap then (-1, some []) else (text.length, some (snprintf 96 text))

namespace TimeZone

theorem length_decimal {value : Nat} (small : value < 100) : (decimal value).length ≤ 2 := by
  revert value
  decide

theorem length_twoDigits {value : Nat} (small : value < 100) : (twoDigits value).length = 2 := by
  revert value
  decide

theorem length_offsetText {min : Int} (inRange : Plausible min) : (offsetText min).length ≤ 6 := by
  obtain ⟨low, high⟩ := inRange
  unfold tzOffLimit at low high
  have hours := @length_decimal (min.natAbs / 60) (by omega)
  have minutes := @length_twoDigits (min.natAbs % 60) (by omega)
  simp only [offsetText, length_append]
  split <;> split <;> simp only [length_cons, length_nil] <;> omega

theorem length_labelText {utcMin : Int} (inRange : Plausible utcMin) :
    (labelText utcMin).length ≤ 7 := by
  obtain ⟨low, high⟩ := inRange
  unfold tzOffLimit at low high
  have hours := @length_twoDigits (utcMin.natAbs / 60) (by omega)
  have minutes := @length_twoDigits (utcMin.natAbs % 60) (by omega)
  simp only [labelText, length_append, length_cons]
  split <;> simp only [length_nil] <;> omega

theorem snprintf_of_lt {cap : Nat} {text : Bytes} (fits : text.length < cap) :
    snprintf cap text = text :=
  take_of_length_le (by omega)

variable {off : Int}

theorem plausible_neg (inRange : Plausible off) : Plausible (-off) := by
  unfold Plausible at *
  omega

theorem zoneText_eq (inRange : Plausible off) :
    zoneText off = labelText (-off) ++ offsetText off := by
  have label := length_labelText (plausible_neg inRange)
  have offset := length_offsetText inRange
  rw [zoneText, tzFmtLabel, tzFmtOffset, snprintf_of_lt (by omega), snprintf_of_lt (by omega)]

theorem length_zoneText (inRange : Plausible off) : (zoneText off).length ≤ 13 := by
  have label := length_labelText (plausible_neg inRange)
  have offset := length_offsetText inRange
  rw [zoneText_eq inRange, length_append]
  omega

theorem zoneText_ne_nil (inRange : Plausible off) : zoneText off ≠ [] := by
  rw [zoneText_eq inRange]
  exact nofun

/-- Whether there is a string for a zone without a daylight rule, whatever the daylight bias. -/
def HasString (bias stdBias : Int) (std dst : TzSystemtime) (haveName : Bool) (cap : Nat) : Prop :=
  meaningful bias std dst haveName = true ∧ Plausible (bias + stdBias) ∧
    (zoneText (bias + stdBias)).length < cap

instance (bias stdBias : Int) (std dst : TzSystemtime) (haveName : Bool) (cap : Nat) :
    Decidable (HasString bias stdBias std dst haveName cap) :=
  inferInstanceAs (Decidable (_ ∧ _))

theorem tzString_eq {std dst : TzSystemtime} (noRule : hasDst std dst = false)
    (bias stdBias dstBias : Int) (haveName : Bool) (cap : Nat) :
    (rdpTzToPosix bias stdBias dstBias std dst haveName cap).2 = if cap = 0 then none
      else if HasString bias stdBias std dst haveName cap ∧ Plausible (bias + dstBias) then
        some (zoneText (bias + stdBias))
      else some [] := by
  have text : tzText (bias + stdBias) (bias + dstBias) std dst = zoneText (bias + stdBias) := by
    rw [tzText, noRule, if_neg Bool.false_ne_true]
  unfold rdpTzToPosix
  dsimp only
  rw [text]
  by_cases none : cap = 0
  · rw [if_pos none, if_pos none]
  rw [if_neg none, if_neg none]
  by_cases filled : meaningful bias std dst haveName = true
  · rw [filled, Bool.not_true, if_neg Bool.false_ne_true]
    by_cases inRange : Plausible (bias + stdBias) ∧ Plausible (bias + dstBias)
    · obtain ⟨standard, daylight⟩ := inRange
      have whole := length_zoneText standard
      rw [if_neg (fun outside => outside.elim (· standard) (· daylight))]
      by_cases fits : (zoneText (bias + stdBias)).length < cap
      · rw [if_neg (Nat.not_le.2 fits), if_pos ⟨⟨filled, standard, fits⟩, daylight⟩,
          snprintf_of_lt (by omega)]
      · rw [if_pos (Nat.not_lt.1 fits), if_neg fun named => fits named.1.2.2]
    · rw [if_pos (not_and_or.1 inRange), if_neg fun named => inRange ⟨named.1.2.1, named.2⟩]
  · rw [Bool.eq_false_iff.2 filled, Bool.not_false, if_pos rfl,
      if_neg fun named => filled named.1.1]

/-- **The daylight bias of a zone without daylight time**: two biases give the same string exactly
if both daylight offsets are plausible or neither is, or if the zone has no string anyway. -/
theorem tzString_eq_iff {std dst : TzSystemtime} (noRule : hasDst std dst = false)
    (bias stdBias first second : Int) (haveName : Bool) (cap : Nat) :
    (rdpTzToPosix bias stdBias first std dst haveName cap).2 =
        (rdpTzToPosix bias stdBias second std dst haveName cap).2 ↔
      ¬ HasString bias stdBias std dst haveName cap ∨
        (Plausible (bias + first) ↔ Plausible (bias + second)) := by
  rw [tzString_eq noRule, tzString_eq noRule]
  by_cases named : HasString bias stdBias std dst haveName cap
  · have some_cap : cap ≠ 0 := by
      have fits := named.2.2
      omega
    have text := zoneText_ne_nil named.2.1
    simp only [named, some_cap, ↓reduceIte, true_and, not_true_eq_false, false_or]
    by_cases early : Plausible (bias + first) <;> by_cases late : Plausible (bias + second)
    · simp [early, late]
    · simp [early, late, ↓reduceIte, text]
    · simp only [early, late, ↓reduceIte, Option.some.injEq, text.symm, iff_true]
    · simp only [early, late, ↓reduceIte]
  · simp only [named, false_and, ↓reduceIte, not_false_eq_true, true_or]

theorem tzString_eq_iff_line_islands :
    (rdpTzToPosix (-840) 0 (-60) {} {} true 64).2 = (rdpTzToPosix (-840) 0 0 {} {} true 64).2 ↔
      ¬ HasString (-840) 0 {} {} true 64 ∨ (Plausible (-840 + -60) ↔ Plausible (-840 + 0)) :=
  tzString_eq_iff (by decide) (-840) 0 (-60) 0 true 64

/-- **A zone is lost by its daylight bias**: a client fourteen hours ahead of UTC that has no
daylight rule gets its zone if its daylight bias is zero, and none if it is an hour. -/
theorem zone_lost_by_daylight_bias :
    hasDst {} {} = false ∧ rdpTzToPosix (-840) 0 0 {} {} true 64 =
        (8, some [0x3c, 0x2b, 0x31, 0x34, 0x3e, 0x2d, 0x31, 0x34]) ∧
      rdpTzToPosix (-840) 0 (-60) {} {} true 64 = (0, some []) := by
  decide

end TimeZone

end RdpServer
