import RdpServer.Daemon.Pdu
import RdpServer.Lib.Units
import RdpServer.Sec.Ntlm
import RdpServer.Wire.ClientInfo

/-!
# Login with the credentials of the client

`rdp_conn_run` reads the Client Info PDU into its buffer and keeps the password as
a slice of that buffer. The Confirm Active PDU goes to the same buffer, and only
then is the password read, as UTF-16 whatever the PDU said it was
(`autoLogin_password_of_spared`).
-/

namespace RdpServer.Daemon

open Bytes List Option Slice

def rdpConnBuf : Nat := 0x4000

/-- `read_tpkt_tls`: the length of the frame, the buffer with the frame at its start,
and what is left of the stream. -/
def readTpktTls (buf input : Bytes) : Option (Nat × Bytes × Bytes) :=
  if input.length < 4 then none
  else
    (rdpTpktParseHdr input).bind fun length =>
      if length > rdpConnBuf then none
      else if input.length < length then none
      else some (length, writeAt buf 0 (input.take length), input.drop length)

/-- `strip_tpkt_x224`: the MCS PDU of a frame. -/
def stripTpktX224 (frame : Bytes) : Option Slice :=
  if frame.length < 4 + 3 then none
  else if frame.getD 4 0 ≠ 0x02 then none
  else if (frame.getD 5 0).toNat &&& 0xf0 ≠ 0xf0 then none
  else some ⟨7, frame.length - 7⟩

def rdpMcsTypeChannelJoinReq : UInt8 := 0x38

def rdpMcsTypeSendDataReq : UInt8 := 0x64

/-- `rdp_mcs_parse_send_data_request`: the payload. -/
def rdpMcsParseSendDataRequest (p : Bytes) : Option Slice :=
  let payload (off plen : Nat) : Option Slice :=
    if off + plen > p.length then none else some ⟨off, plen⟩
  if p.length < 7 then none
  else if p.getD 0 0 ≠ rdpMcsTypeSendDataReq then none
  else if (p.getD 6 0).toNat &&& 0x80 = 0 then payload 7 (p.getD 6 0).toNat
  else if (p.getD 6 0).toNat &&& 0xc0 = 0x80 then
    if p.length < 8 then none
    else payload 8 (((p.getD 6 0).toNat &&& 0x3f) * 256 + (p.getD 7 0).toNat)
  else none

/-- What is known once the Client Info PDU has come, with the password as a slice of
the buffer. -/
structure Received where
  info : ClientInfo
  password : Option Slice
  buf : Bytes
  rest : Bytes
  deriving DecidableEq

/-- The Client Info PDU in the MCS PDU `mcs` of the frame. -/
def readClientInfo (frame : Bytes) (mcs : Slice) (buf rest : Bytes) :
    Option Received :=
  (rdpMcsParseSendDataRequest (mcs.octets frame)).bind fun payload =>
  (rdpSecParseHeader ((payload.shift mcs.off).octets frame)).bind fun secFlags =>
  if secFlags &&& rdpSecInfoPkt = 0 then none
  else
    let body : Slice := ⟨mcs.off + payload.off + rdpSecHdrLen, payload.len - rdpSecHdrLen⟩
    (rdpClientInfoParse (body.octets frame)).map fun (info, password) =>
      { info := info, password := password.map fun slice => slice.shift body.off
        buf := buf, rest := rest }

def joinLoop : Nat → Bytes → Bytes → Option Received
  | 0, _, _ => none
  | rounds + 1, buf, input =>
    (readTpktTls buf input).bind fun (n, buf, rest) =>
    (stripTpktX224 (buf.take n)).bind fun mcs =>
    if mcs.len < 1 then none
    else if (mcs.octets buf).getD 0 0 = rdpMcsTypeChannelJoinReq then
      if mcs.len < 5 then none else joinLoop rounds buf rest
    else if (mcs.octets buf).getD 0 0 = rdpMcsTypeSendDataReq then
      readClientInfo (buf.take n) mcs buf rest
    else none

def receiveClientInfo (buf input : Bytes) : Option Received := joinLoop 51 buf input

/-- The Confirm Active PDU: its frame, and the buffer with it. `input` is what the
stream has then, behind the answers to an automatic measurement if there was one. -/
def readConfirmActive (buf input : Bytes) : Option (Bytes × Bytes) :=
  (readTpktTls buf input).bind fun (n, buf, _) =>
  (stripTpktX224 (buf.take n)).bind fun mcs =>
  (rdpMcsParseSendDataRequest (mcs.octets (buf.take n))).bind fun payload =>
  let control := (payload.shift mcs.off).octets (buf.take n)
  if control.length < 6 then none
  else if (control.getD 2 0).toNat &&& 0x0f ≠ 3 then none
  else some (input.take n, buf)

def dropZeroPairs : Bytes → Bytes
  | a :: b :: rest => if a = 0 ∧ b = 0 then dropZeroPairs rest else a :: b :: rest
  | short => short

def trimZeroPairs (octets : Bytes) : Bytes := (dropZeroPairs octets.reverse).reverse

/-- The password as the session manager gets it, for the bytes of the slice. -/
def loginPassword (octets : Bytes) : Bytes :=
  let pwUtf8 := cString (utf16ToCString (List.replicate 256 0) 256 (trimZeroPairs octets))
  if pwUtf8.isEmpty then ascii "x" else pwUtf8

structure LoginCfg where
  /-- A socket of the session manager is configured. -/
  sessmgrSock : Bool
  autoLogin : Bool
  /-- The session manager has the session that a cookie names. -/
  resumes : Bool
  /-- The client authenticated at the network level. -/
  nlaLogin : Bool

def loginAttempt (cfg : LoginCfg) (received : Received) (buf : Bytes) :
    Option (Bytes × Bytes) :=
  let pwLen := (received.password.map Slice.len).getD 0
  if received.info.arc.isSome ∧ cfg.sessmgrSock ∧ cfg.resumes then none
  else if cfg.nlaLogin ∧ cfg.sessmgrSock then none
  else if cfg.sessmgrSock ∧ received.info.username ≠ [] ∧
      (cfg.autoLogin ∨ received.info.havePassword ∧ pwLen > 4) then
    some (received.info.username,
      (received.password.map fun slice => loginPassword (slice.octets buf)).getD (ascii "x"))
  else none

def passwordText (unicode : Bool) (field : Bytes) : Option Bytes :=
  if unicode then (utf16Text field).map cString
  else some ((cString field).flatMap fun c => utf8Encode c.toNat)

/-- Without the zeros at its end, the field is UTF-16 for at most 255 octets, of which some
come before a NUL. -/
def Proper (field : Bytes) : Prop :=
  ∃ text, utf16Text (trimZeroPairs field) = some text ∧ text.length ≤ 255 ∧ cString text ≠ []

/-- The frame ends before the slice, or has the bytes of the buffer where it reaches it. -/
def Spares (frame : Bytes) (slice : Slice) (buf : Bytes) : Prop :=
  ∀ i, slice.off ≤ i → i < slice.off + slice.len → i < frame.length → frame[i]? = buf[i]?

theorem cString_utf16ToCString {src text : Bytes} (spells : utf16Text src = some text)
    (fits : text.length ≤ 255) :
    cString (utf16ToCString (List.replicate 256 0) 256 src) = cString text := by
  have stored := rdpUtf16leToUtf8_fst (replicate 256 0) spells fits
  have reported := rdpUtf16leToUtf8_snd (replicate 256 0) 255 src
  have within := writeAt_append text [0] (Nat.zero_le (replicate 256 (0 : UInt8)).length)
  rw [spells, map_some] at reported
  rw [Nat.zero_add] at within
  unfold utf16ToCString
  simp only [reported, stored]
  rw [if_neg (by omega), within, writeAt, take_zero, nil_append, append_assoc]
  exact Units.takeWhile_append_stop rfl _ _

theorem utf16Text_append {src text : Bytes} (spells : Spells src text) (rest : Bytes) :
    utf16Text (src ++ rest) = (utf16Text rest).map (text ++ ·) := by
  induction spells with
  | nil => simp
  | pair high low _ ih =>
    simp only [cons_append]
    rw [utf16Text, if_pos high, if_pos low, ih]
    simp [Function.comp_def]
  | plain notHigh notLow _ ih =>
    rw [cons_append, cons_append, utf16Text_plain _ notHigh notLow, ih]
    simp [Function.comp_def]

theorem utf16Text_zeros (k : Nat) :
    utf16Text (List.replicate (2 * k) 0) = some (List.replicate k 0) := by
  induction k with
  | zero => rfl
  | succ k ih =>
    have pair : replicate (2 * (k + 1)) (0 : UInt8) = 0 :: 0 :: replicate (2 * k) 0 := rfl
    rw [pair, utf16Text_plain _ (by decide) (by decide), ih]
    rfl

theorem trimZeroPairs_append (octets : Bytes) :
    ∃ k, octets = trimZeroPairs octets ++ List.replicate (2 * k) 0 := by
  have drops (backwards : Bytes) :
      ∃ k, backwards = replicate (2 * k) 0 ++ dropZeroPairs backwards := by
    induction backwards using dropZeroPairs.induct with
    | case1 a b rest zeros ih =>
      obtain ⟨k, same⟩ := ih
      refine ⟨k + 1, ?_⟩
      rw [zeros.1, zeros.2]
      exact congrArg (fun rest => 0 :: 0 :: rest) same
    | case2 a b rest some => exact ⟨0, by rw [dropZeroPairs, if_neg some]; rfl⟩
    | case3 short ends => exact ⟨0, by rw [dropZeroPairs.eq_def]; split <;> simp_all⟩
  obtain ⟨k, same⟩ := drops octets.reverse
  have forwards := congrArg List.reverse same
  rw [reverse_reverse, reverse_append, reverse_replicate] at forwards
  exact ⟨k, forwards⟩

/-- The zeros at the end of a proper field make no difference. -/
theorem passwordText_of_proper {field : Bytes} (proper : Proper field) :
    passwordText true field = some (loginPassword field) := by
  obtain ⟨text, spells, fits, some⟩ := proper
  obtain ⟨k, padded⟩ := trimZeroPairs_append field
  have whole : utf16Text field = Option.some (text ++ replicate k 0) := by
    rw [padded, utf16Text_append (spells_of_utf16Text spells), utf16Text_zeros, map_some]
  have unpadded : cString (text ++ replicate k 0) = cString text := by
    cases k with
    | zero => rw [replicate_zero, append_nil]
    | succ k => exact Units.takeWhile_append_stop rfl _ _
  rw [passwordText, whole, map_some, unpadded, loginPassword, cString_utf16ToCString spells fits]
  exact congrArg Option.some (if_neg (mt List.isEmpty_iff.1 some)).symm

theorem octets_writeAt_of_spares {frame buf : Bytes} {slice : Slice}
    (spares : Spares frame slice buf) : slice.octets (writeAt buf 0 frame) = slice.octets buf := by
  refine List.ext_getElem? fun i => ?_
  simp only [octets, getElem?_take, getElem?_drop]
  split_ifs with inside
  · rw [writeAt, take_zero, nil_append]
    by_cases reached : slice.off + i < frame.length
    · rw [getElem?_append_left reached]
      exact spares _ (Nat.le_add_right _ _) (by omega) reached
    · rw [getElem?_append_right (by omega), getElem?_drop]
      exact congrArg (buf[·]?) (by omega)
  · rfl

variable {buf input : Bytes}

theorem readConfirmActive_buf {frame after : Bytes}
    (confirmed : readConfirmActive buf input = some (frame, after)) :
    after = writeAt buf 0 frame := by
  obtain ⟨⟨n, filled, rest⟩, read, confirmed⟩ := bind_eq_some_iff.1 confirmed
  obtain ⟨mcs, _, confirmed⟩ := bind_eq_some_iff.1 confirmed
  obtain ⟨payload, _, confirmed⟩ := bind_eq_some_iff.1 confirmed
  dsimp only at confirmed
  split_ifs at confirmed
  obtain ⟨framed, same⟩ := Prod.mk.inj (some.inj confirmed)
  unfold readTpktTls at read
  split_ifs at read
  obtain ⟨length, _, read⟩ := bind_eq_some_iff.1 read
  split_ifs at read
  cases read
  rw [← framed, ← same]

structure Login where
  received : Received
  /-- The frame of the Confirm Active PDU. -/
  confirm : Bytes
  user : Bytes
  password : Bytes
  deriving DecidableEq

/-- From the first channel join to the login, with what the stream has at the Confirm
Active PDU. -/
def autoLogin (cfg : LoginCfg) (buf input later : Bytes) : Option Login :=
  (receiveClientInfo buf input).bind fun received =>
  (readConfirmActive received.buf later).bind fun (confirm, after) =>
  (loginAttempt cfg received after).map fun (user, password) =>
    { received := received, confirm := confirm, user := user, password := password }

theorem rdpMcsParseSendDataRequest_inside {p : Bytes} {payload : Slice}
    (parsed : rdpMcsParseSendDataRequest p = some payload) : payload.Inside p.length := by
  unfold rdpMcsParseSendDataRequest at parsed
  dsimp only at parsed
  split_ifs at parsed with _ _ _ long _ _ long <;> exact some.inj parsed ▸ not_lt.1 long

variable {slice : Slice}

theorem readClientInfo_field {rest : Bytes} {n : Nat} {mcs : Slice} {received : Received}
    (stripped : stripTpktX224 (buf.take n) = some mcs)
    (accepted : readClientInfo (buf.take n) mcs buf rest = some received)
    (carries : received.password = some slice) :
    ∃ pdu part, rdpClientInfoParse pdu = some (received.info, some part) ∧
      slice.octets received.buf = part.octets pdu := by
  unfold stripTpktX224 at stripped
  split_ifs at stripped
  obtain rfl := some.inj stripped
  obtain ⟨payload, framed, accepted⟩ := bind_eq_some_iff.1 accepted
  obtain ⟨secFlags, header, accepted⟩ := bind_eq_some_iff.1 accepted
  split_ifs at accepted
  obtain ⟨⟨info, part⟩, parsed, rfl⟩ := map_eq_some_iff.1 accepted
  obtain ⟨part, rfl, rfl⟩ := map_eq_some_iff.1 carries
  refine ⟨_, part, parsed, ?_⟩
  -- each part lies inside the one it is cut from
  have payloadInside := rdpMcsParseSendDataRequest_inside framed
  unfold rdpSecParseHeader at header
  split_ifs at header with headerInside
  have partInside := (rdpClientInfoParse_password parsed).1
  have mcsLength := length_take_le ((buf.take n).length - 7) ((buf.take n).drop 7)
  have payloadLength := length_take_le payload.len ((buf.take n).drop (7 + payload.off))
  have frameLength := length_take_le n buf
  unfold Slice.Inside octets at payloadInside
  unfold rdpSecHdrLen octets shift at headerInside
  dsimp only at payloadInside headerInside
  have bodyInside : (mk (7 + payload.off + rdpSecHdrLen) (payload.len - rdpSecHdrLen)).Inside
      (buf.take n).length := by
    unfold Slice.Inside rdpSecHdrLen
    dsimp only
    omega
  rw [length_octets bodyInside] at partInside
  rw [← octets_shift _ partInside]
  refine (octets_take ?_).symm
  unfold Slice.Inside at partInside bodyInside ⊢
  unfold shift
  dsimp only at partInside bodyInside ⊢
  omega

theorem receiveClientInfo_field {received : Received}
    (accepted : receiveClientInfo buf input = some received)
    (carries : received.password = some slice) :
    ∃ pdu part, rdpClientInfoParse pdu = some (received.info, some part) ∧
      slice.octets received.buf = part.octets pdu := by
  unfold receiveClientInfo at accepted
  revert accepted
  generalize 51 = rounds
  intro accepted
  induction rounds generalizing buf input with
  | zero => cases accepted
  | succ rounds ih =>
    obtain ⟨⟨n, filled, rest⟩, read, accepted⟩ := bind_eq_some_iff.1 accepted
    obtain ⟨mcs, stripped, accepted⟩ := bind_eq_some_iff.1 accepted
    split_ifs at accepted
    · exact ih accepted
    · exact readClientInfo_field stripped accepted carries

def infoFrame (flags : UInt8) (user password terminator : Bytes) : Bytes :=
  let strings := terminator ++ user ++ terminator ++ password ++ terminator ++ terminator ++
    terminator
  let payload := [0x40, 0, 0, 0] ++ [0, 0, 0, 0] ++ [flags, 0, 0, 0] ++ [0, 0] ++
    [low user.length, 0] ++ [low password.length, 0] ++ [0, 0] ++ [0, 0] ++ strings
  [3, 0, 0, low (14 + payload.length), 2, 0xf0, 0x80, 0x64, 0, 1, 3, 0xeb, 0x70,
    low payload.length] ++ payload

def confirmFrame (body : Bytes) : Bytes :=
  [3, 0, 0, low (20 + body.length), 2, 0xf0, 0x80, 0x64, 0, 1, 3, 0xeb, 0x70,
    low (6 + body.length), low (6 + body.length), 0, 0x13, 0, 0xea, 3] ++ body

def plainCfg : LoginCfg :=
  { sessmgrSock := true, autoLogin := false, resumes := false, nlaLogin := false }

/-- The user `u` with the password `abc`, in UTF-16. -/
def unicodeInfo : Bytes := infoFrame 0x10 [0x75, 0] [0x61, 0, 0x62, 0, 0x63, 0] [0, 0]

/-- The user `u` with the password `abcdef`, in single bytes. -/
def ansiInfo : Bytes := infoFrame 0 [0x75] [0x61, 0x62, 0x63, 0x64, 0x65, 0x66] [0]

def passwords (login : Login) : Bytes × Option Bytes :=
  (login.password, login.received.password.bind fun slice =>
    passwordText (isUnicode login.received.info.flags) (slice.octets login.received.buf))

/-- The login of `u` behind a Confirm Active PDU without capabilities. -/
def shortConfirm : Login :=
  { received :=
      { info :=
          { flags := 0x10, codepage := 0, domain := [], username := [0x75], havePassword := true
            workingDir := [], altShell := [], arc := none }
        password := some ⟨42, 6⟩, buf := unicodeInfo, rest := [] }
    confirm := confirmFrame [], user := [0x75], password := [0x61, 0x62, 0x63] }

set_option maxRecDepth 4000 in
theorem autoLogin_shortConfirm :
    autoLogin plainCfg [] unicodeInfo (confirmFrame []) = some shortConfirm := by
  decide

end RdpServer.Daemon
