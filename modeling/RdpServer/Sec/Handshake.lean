import RdpServer.Sec.Nla

/-!
# What a CredSSP handshake means

An account of the handshake in terms of the messages themselves, with no buffer
and no pointers. `Handshake` says that a client knew the NT hash of the user it named, that the
messages both sides saw are the same, that its TLS channel ends at this server,
and that the credentials come from the same sealed stream. The slices that the parsers return
denote the same octets in the buffer and in the message (`readTsrequest_front`).
-/

namespace RdpServer

open Bytes

structure TsFields where
  version : Nat
  negoToken : Option Bytes
  authInfo : Option Bytes
  pubKeyAuth : Option Bytes
  clientNonce : Option Bytes
  deriving DecidableEq

def TsRequest.fields (req : TsRequest) (message : Bytes) : TsFields where
  version := req.version
  negoToken := req.negoToken.map (Slice.octets · message)
  authInfo := req.authInfo.map (Slice.octets · message)
  pubKeyAuth := req.pubKeyAuth.map (Slice.octets · message)
  clientNonce := req.clientNonce.map (Slice.octets · message)

def TsMessage (message : Bytes) (fields : TsFields) : Prop :=
  ∃ req, rdpCsspParse message = .ok req ∧ req.fields message = fields

/-- The octets that the length and offset fields at `off` of a message name. -/
def ntlmFieldAt (message : Bytes) (off : Nat) : Bytes :=
  (message.drop (leValue ((message.drop (off + 4)).take 4))).take
    (leValue ((message.drop off).take 2))

def ntResponseOf (authenticate : Bytes) : Bytes := ntlmFieldAt authenticate 20
def domainOf (authenticate : Bytes) : Bytes := ntlmFieldAt authenticate 28
def userOf (authenticate : Bytes) : Bytes := ntlmFieldAt authenticate 36
def encRandomSkeyOf (authenticate : Bytes) : Bytes := ntlmFieldAt authenticate 52
def flagsOf (authenticate : Bytes) : Nat := leValue ((authenticate.drop 60).take 4)

/-- The AV pairs at the front of a byte string, up to the end mark or to a pair
that is cut off. -/
def avPairs (octets : Bytes) : List (Nat × Bytes) :=
  let id := leValue (octets.take 2)
  let len := leValue ((octets.drop 2).take 2)
  if octets.length < 4 ∨ id = Ntlm.msvAvEol ∨ octets.length < 4 + len then []
  else (id, (octets.drop 4).take len) :: avPairs (octets.drop (4 + len))
termination_by octets.length
decreasing_by
  rw [List.length_drop]
  omega

def setMicFlag (pairs : List (Nat × Bytes)) : Bool :=
  (pairs.find? fun pair => pair.1 = Ntlm.msvAvFlags ∧ 4 ≤ pair.2.length).any
    fun pair => leValue (pair.2.take 4) &&& Ntlm.msvAvFlagMicPresent != 0

def micFlagged (response : Bytes) : Bool :=
  setMicFlag (avPairs (response.drop (16 + Ntlm.clientChallengeHdr)))

def withoutMic (authenticate : Bytes) : Bytes :=
  authenticate.take Ntlm.authMicOffset ++ List.replicate 16 0 ++
    authenticate.drop (Ntlm.authMicOffset + 16)

def micOf (authenticate : Bytes) : Bytes := (authenticate.drop Ntlm.authMicOffset).take 16

def HashEntry (nthashes : Option Bytes) (user hash : Bytes) : Prop :=
  ∃ file ∈ nthashes, ∃ line ∈ nthashLines file, ∃ blanks digits rest,
    line = user ++ 0x3a :: (blanks ++ digits ++ rest) ∧ (∀ c ∈ blanks, c = 0x20) ∧
      digits.length = 32 ∧ hexOctets 16 digits = some hash

/-- The NTLMv2 response to a challenge proves knowledge of an NT hash, and gives
a session base key. -/
def ProvesHash (crypto : Crypto) (ntHash challenge authenticate baseKey : Bytes) : Prop :=
  ∃ ntlmv2Hash ntProof,
    crypto.hmacMd5 ntHash (toUtf16Upper (ntlmName (userOf authenticate)) ++
      toUtf16Plain (ntlmName (domainOf authenticate))) = some ntlmv2Hash ∧
    crypto.hmacMd5 ntlmv2Hash (challenge ++ (ntResponseOf authenticate).drop 16) = some ntProof ∧
    (ntResponseOf authenticate).take 16 = ntProof ∧
    crypto.hmacMd5 ntlmv2Hash ntProof = some baseKey

/-- The exported session key: the session base key, or the key that the client
encrypted with it. -/
def exportedKey (crypto : Crypto) (authenticate baseKey : Bytes) : Bytes :=
  if flagsOf authenticate &&& Ntlm.negotiateKeyExch ≠ 0 then
    mask (crypto.rc4Stream baseKey) 0 (encRandomSkeyOf authenticate)
  else baseKey

/-- A sealed message with this sequence number opens to `plain` at a position of
the keystream. -/
def Unseals (crypto : Crypto) (sealKey signKey : Bytes) (pos seqNum : Nat)
    (sealed plain : Bytes) : Prop :=
  ∃ checksum body mac,
    sealed = leBytes 4 1 ++ checksum ++ leBytes 4 seqNum ++ body ∧
    plain = mask (crypto.rc4Stream sealKey) pos body ∧
    crypto.hmacMd5 signKey (leBytes 4 seqNum ++ plain) = some mac ∧
    mask (crypto.rc4Stream sealKey) (pos + body.length) checksum = mac.take 8

/-- The client nonce of a handshake: the one of the first message, or else the
one of the second; 32 octets of one that has them. -/
def handshakeNonce (first second : TsFields) : Option Bytes :=
  ((first.clientNonce.filter (32 ≤ ·.length)).or
    (second.clientNonce.filter (32 ≤ ·.length))).map (·.take 32)

/-- What pubKeyAuth has to hold: the binding hash when the version is at least 5
and there is a nonce, and else the public key. -/
def Binds (host : NlaHost) (version : Nat) (nonce : Option Bytes) (plain : Bytes) :
    Prop :=
  ∃ pubkey, host.pubkey = some pubkey ∧ pubkey ≠ [] ∧
    if 5 ≤ version then
      nonce.elim (plain = pubkey) fun nonce =>
        host.crypto.sha256 (clientToServerMagic ++ [0] ++ nonce ++ pubkey) = some plain
    else plain = pubkey

structure Transcript where
  first : Bytes
  second : Bytes
  third : Bytes
  rest : Bytes
  firstFields : TsFields
  secondFields : TsFields
  thirdFields : TsFields
  negotiate : Bytes
  challenge : Bytes
  authenticate : Bytes
  ntHash : Bytes
  baseKey : Bytes
  pubKeyAuth : Bytes
  binding : Bytes
  authInfo : Bytes
  credentials : Bytes

def Transcript.exported (t : Transcript) (crypto : Crypto) : Bytes :=
  exportedKey crypto t.authenticate t.baseKey

def Decoded (credentials : Bytes) (userSize passSize : Nat) (accepted : NlaAccepted) : Prop :=
  ∃ tc, rdpCsspParseTscredentials credentials = .ok tc ∧
    accepted.user = utf16ToCString (List.replicate userSize 0) userSize
      (tc.userUtf16.elim [] (Slice.octets · credentials)) ∧
    accepted.pass = utf16ToCString (List.replicate passSize 0) passSize
      (tc.passwordUtf16.elim [] (Slice.octets · credentials))

/-- **A sound handshake.** -/
structure Handshake (host : NlaHost) (client : Bytes) (userSize passSize : Nat)
    (accepted : NlaAccepted) (t : Transcript) : Prop where
  stream : client = t.first ++ t.second ++ t.third ++ t.rest
  firstMessage : TsMessage t.first t.firstFields
  secondMessage : TsMessage t.second t.secondFields
  thirdMessage : TsMessage t.third t.thirdFields
  negotiated : t.firstFields.negoToken = some t.negotiate
  challenged : ∃ answer binding, accepted.sent = [answer, binding] ∧ rdpCsspBuild nlaMaxTsreq
    { version := t.firstFields.version, negoToken := t.challenge } = some answer
  fresh : (t.challenge.drop 24).take 8 = host.challenge
  authenticated : t.secondFields.negoToken = some t.authenticate
  known : HashEntry host.nthashes (ntlmName (userOf t.authenticate)) t.ntHash
  proved : ProvesHash host.crypto t.ntHash host.challenge t.authenticate t.baseKey
  intact : micFlagged (ntResponseOf t.authenticate) = true →
    host.crypto.hmacMd5 (t.exported host.crypto)
      (t.negotiate ++ t.challenge ++ withoutMic t.authenticate) = some (micOf t.authenticate)
  sealedBinding : t.secondFields.pubKeyAuth = some t.pubKeyAuth
  boundSeal : Unseals host.crypto (ntlmSealKey host.crypto true (t.exported host.crypto))
    (ntlmSignKey host.crypto true (t.exported host.crypto)) 0 0 t.pubKeyAuth t.binding
  bound : Binds host t.secondFields.version (handshakeNonce t.firstFields t.secondFields) t.binding
  sealedCredentials : t.thirdFields.authInfo = some t.authInfo
  credentialSeal : Unseals host.crypto (ntlmSealKey host.crypto true (t.exported host.crypto))
    (ntlmSignKey host.crypto true (t.exported host.crypto)) (t.binding.length + 8) 1 t.authInfo
    t.credentials
  decoded : Decoded t.credentials userSize passSize accepted

open Option List

section Read

variable {client front rest buf : Bytes} {n cap : Nat}

theorem rdpTlsReadFull_ok (read : rdpTlsReadFull client n = .ok (front, rest)) :
    client = front ++ rest ∧ front.length = n := by
  simp only [rdpTlsReadFull, bind_eq_ok, refuse_eq_ok] at read
  obtain ⟨_, enough, rfl, rfl⟩ := read
  refine ⟨(take_append_drop n client).symm, ?_⟩
  rw [List.length_take]
  omega

structure Front (buf : Bytes) (len : Nat) (message : Bytes) : Prop where
  length : message.length = len
  octets : buf.take len = message

theorem Front.le_length {message : Bytes} {len : Nat} (front : Front buf len message) :
    len ≤ buf.length := by
  have taken := congrArg List.length front.octets
  rw [List.length_take, front.length] at taken
  omega

theorem Front.start (buf : Bytes) : Front buf 0 [] := ⟨rfl, take_zero⟩

theorem Front.store {message : Bytes} {len : Nat} (held : Front buf len message)
    (more : Bytes) :
    Front (writeAt buf len more) (len + more.length) (message ++ more) := by
  refine ⟨?_, ?_⟩
  · rw [length_append, held.length]
  · rw [take_writeAt _ _ held.le_length, held.octets]

theorem readTsrequestHeader_front {h : BerHeader} {read : TsInput}
    (ok : readTsrequestHeader client buf = .ok (h, read)) :
    ∃ message, client = message ++ read.client ∧ Front read.buf h.used message := by
  simp only [readTsrequestHeader, bind_eq_ok] at ok
  obtain ⟨⟨head, after⟩, headRead, first, _, _, _, lb, _, body⟩ := ok
  obtain ⟨split, two⟩ := rdpTlsReadFull_ok headRead
  have headFront : Front (writeAt buf 0 head) 2 head := by
    have stored := (Front.start buf).store head
    rwa [two] at stored
  by_cases short : lb.toNat &&& 0x80 = 0
  · rw [if_pos short] at body
    cases body
    exact ⟨head, split, headFront⟩
  · rw [if_neg short] at body
    simp only [bind_eq_ok] at body
    obtain ⟨_, _, ⟨octets, after'⟩, octetsRead, stored, _, same⟩ := body
    obtain ⟨split', count⟩ := rdpTlsReadFull_ok octetsRead
    cases same
    refine ⟨head ++ octets, by rw [split, split', append_assoc], ?_⟩
    have both := headFront.store octets
    rwa [count] at both

theorem readTsrequest_front {read : TsInput} (ok : readTsrequest client buf cap = .ok read) :
    ∃ message, client = message ++ read.client ∧ Front read.buf read.len message := by
  simp only [readTsrequest, bind_eq_ok, pure_eq_ok] at ok
  obtain ⟨⟨h, header⟩, headerRead, _, _, ⟨body, after⟩, bodyRead, rfl⟩ := ok
  obtain ⟨message, split, front⟩ := readTsrequestHeader_front headerRead
  obtain ⟨split', count⟩ := rdpTlsReadFull_ok bodyRead
  refine ⟨message ++ body, by rw [split, split', append_assoc], ?_⟩
  have both := front.store body
  rwa [count] at both

end Read

section Fields

variable {buf message octets : Bytes} {len : Nat}

theorem Front.slice (front : Front buf len message) {s : Slice} (inside : s.Inside message.length) :
    s.octets buf = s.octets message := by
  rw [front.length] at inside
  rw [← front.octets, Slice.octets_take inside]

theorem Front.parsed (front : Front buf len message) {req : TsRequest}
    (parsed : rdpCsspParse (buf.take len) = .ok req) :
    TsMessage message (req.fields message) ∧ req.Inside message.length := by
  rw [front.octets] at parsed
  exact ⟨⟨req, parsed, rfl⟩, (ensures_rdpCsspParse message).2 req parsed⟩

theorem Front.field (front : Front buf len message) {field : Option Slice} {s : Slice}
    (inside : ∀ s ∈ field, s.Inside message.length) (present : accept field = .ok s)
    (fetched : s.fetch buf = .ok octets) :
    field.map (Slice.octets · message) = some octets ∧ s.len = octets.length := by
  rw [accept_eq_ok] at present
  rw [Slice.fetch_eq_ok] at fetched
  have within := inside s present
  refine ⟨?_, ?_⟩
  · rw [present, map_some, ← fetched.2, front.slice within]
  · rw [← fetched.2, Slice.length_octets fetched.1]

def keptNonce (nonce : Option Bytes) : Option Bytes :=
  (nonce.filter (32 ≤ ·.length)).map (·.take 32)

theorem length_keptNonce {nonce : Option Bytes} {kept : Bytes}
    (held : keptNonce nonce = some kept) : kept.length = 32 := by
  rw [keptNonce, map_eq_some_iff] at held
  obtain ⟨whole, long, rfl⟩ := held
  have enough := (filter_eq_some_iff.1 long).2
  rw [decide_eq_true_eq] at enough
  rw [List.length_take]
  omega

theorem Front.takeNonce (front : Front buf len message) {nonce : Option Slice}
    (inside : ∀ s ∈ nonce, s.Inside message.length) (taken : takeNonce buf nonce = .ok octets) :
    octets = (keptNonce (nonce.map (Slice.octets · message))).getD [] := by
  cases nonce with
  | none =>
    rw [RdpServer.takeNonce, pure_eq_ok] at taken
    rw [← taken]
    rfl
  | some s =>
    have within := inside s rfl
    have count := Slice.length_octets within
    rw [RdpServer.takeNonce] at taken
    rw [keptNonce, map_some]
    by_cases long : s.len ≥ 32
    · rw [if_pos long, Slice.fetch_eq_ok] at taken
      have head : Slice.Inside ⟨s.off, 32⟩ message.length := by
        unfold Slice.Inside at within ⊢
        simp only
        omega
      rw [filter_some_pos (by rw [count]; exact decide_eq_true long), map_some, getD_some,
        ← taken.2, front.slice head, Slice.octets, Slice.octets, take_take, min_eq_left long]
    · rw [if_neg long, pure_eq_ok] at taken
      rw [filter_some_neg (by rw [count]; exact decide_eq_false long), ← taken]
      rfl

end Fields

section NtlmFields

variable {mem message : Bytes} {token : Slice} {off value : Nat}

theorem ld_eq_ok {n : Nat} :
    (Slice.fetch ⟨off, n⟩ message >>= fun octets => (pure (leValue octets) : Checked Nat)) =
        .ok value ↔
      off + n ≤ message.length ∧ leValue ((message.drop off).take n) = value := by
  simp only [bind_eq_ok, pure_eq_ok, Slice.fetch_eq_ok]
  constructor
  · rintro ⟨_, ⟨inside, rfl⟩, rfl⟩
    exact ⟨inside, rfl⟩
  · rintro ⟨inside, rfl⟩
    exact ⟨_, ⟨inside, rfl⟩, rfl⟩

theorem ldU16le_eq_ok : ldU16le message off = .ok value ↔
    off + 2 ≤ message.length ∧ leValue ((message.drop off).take 2) = value := ld_eq_ok

theorem ldU32le_eq_ok : ldU32le message off = .ok value ↔
    off + 4 ≤ message.length ∧ leValue ((message.drop off).take 4) = value := ld_eq_ok

theorem ldU32le_eq (loaded : ldU32le message off = .ok value) :
    value = leValue ((message.drop off).take 4) :=
  (ldU32le_eq_ok.1 loaded).2.symm

theorem parseField_fetch {field : NtlmField} (inside : token.Inside mem.length)
    (parsed : parseField token.off (token.octets mem) off = .ok field) :
    field.fetch mem = .ok (ntlmFieldAt (token.octets mem) off) ∧
      field.len = (ntlmFieldAt (token.octets mem) off).length := by
  simp only [parseField, bind_eq_ok] at parsed
  obtain ⟨_, _, flen, flenRead, foff, foffRead, isField⟩ := parsed
  rw [ntlmFieldAt, (ldU16le_eq_ok.1 flenRead).2, ← ldU32le_eq foffRead]
  by_cases empty : flen = 0
  · rw [if_pos empty, pure_eq_ok] at isField
    rw [← isField, empty]
    exact ⟨rfl, rfl⟩
  · rw [if_neg empty] at isField
    simp only [bind_eq_ok, refuse_eq_ok, pure_eq_ok] at isField
    obtain ⟨_, within, rfl⟩ := isField
    rw [Slice.length_octets inside] at within
    have part : Slice.Inside ⟨foff, flen⟩ token.len := by
      unfold Slice.Inside
      simp only
      omega
    have shifted : Slice.Inside ⟨token.off + foff, flen⟩ mem.length := by
      unfold Slice.Inside at inside ⊢
      simp only
      omega
    have same : Slice.octets ⟨token.off + foff, flen⟩ mem =
        ((token.octets mem).drop foff).take flen := Slice.octets_shift mem part
    refine ⟨Slice.fetch_eq_ok.2 ⟨shifted, same⟩, ?_⟩
    rw [← same, Slice.length_octets shifted]
    rfl

structure AuthenticateIn (mem authenticate : Bytes) (auth : NtlmAuthenticate) : Prop where
  flags : auth.flags = flagsOf authenticate
  ntResponse : auth.ntResponse.fetch mem = .ok (ntResponseOf authenticate)
  ntResponse_len : auth.ntResponse.len = (ntResponseOf authenticate).length
  domain : auth.domainUtf16.fetch mem = .ok (domainOf authenticate)
  user : auth.userUtf16.fetch mem = .ok (userOf authenticate)
  encRandomSkey : auth.encRandomSkey.fetch mem = .ok (encRandomSkeyOf authenticate)

theorem ntlmParseAuthenticate_in {auth : NtlmAuthenticate} (inside : token.Inside mem.length)
    (parsed : ntlmParseAuthenticate token.off (token.octets mem) = .ok auth) :
    AuthenticateIn mem (token.octets mem) auth := by
  simp only [ntlmParseAuthenticate, bind_eq_ok, pure_eq_ok] at parsed
  obtain ⟨_, _, _, _, _, _, _, _, _, _, _, nt, _, domain, _, user, _, _, _, enc, _, flags, rfl⟩ :=
    parsed
  exact
    { flags := ldU32le_eq flags
      ntResponse := (parseField_fetch inside nt).1
      ntResponse_len := (parseField_fetch inside nt).2
      domain := (parseField_fetch inside domain).1
      user := (parseField_fetch inside user).1
      encRandomSkey := (parseField_fetch inside enc).1 }

end NtlmFields

end RdpServer
