import RdpServer.Sec.Cssp
import RdpServer.Sec.Ntlm

/-!
# The CredSSP server

`rdp_nla_server` reads three TSRequests of the client into one buffer. What the parsers return
are slices of that buffer, which the next TSRequest overwrites; the model keeps the buffer and
fetches the slices where the source reads through its pointers. The buffer holds the octets
stored so far, so that reading one that was never stored is a fault.
-/

namespace RdpServer

open Bytes

/-- `NLA_MAX_TSREQ`. -/
def nlaMaxTsreq : Nat := 16 * 1024

/-- `NLA_MAX_NEGOTIATE`. -/
def nlaMaxNegotiate : Nat := 1024

structure NlaHost where
  crypto : Crypto
  /-- The file of NT hashes, if it can be opened. -/
  nthashes : Option Bytes
  time : Nat
  /-- The random server challenge of this run. -/
  challenge : Bytes
  challenge_length : challenge.length = 8
  /-- The public key of the certificate, if there is one. -/
  pubkey : Option Bytes
  /-- Whether a message can be written to the client. -/
  writes : Bytes → Bool
  /-- Whether memory of a size can be allocated. -/
  malloc : Nat → Bool

/-- Take `n` octets from the client; with fewer the caller fails. -/
def rdpTlsReadFull (client : Bytes) (n : Nat) : Checked (Bytes × Bytes) := do
  refuse (client.length < n)
  pure (client.take n, client.drop n)

structure TsInput where
  buf : Bytes
  len : Nat
  client : Bytes

def readTsrequestHeader (client buf : Bytes) : Checked (BerHeader × TsInput) := do
  let (head, client) ← rdpTlsReadFull client 2
  let buf := writeAt buf 0 head
  let first ← load buf 0
  refuse (first ≠ 0x30)
  let lb ← load buf 1
  if lb.toNat &&& 0x80 = 0 then
    pure (⟨2, lb.toNat⟩, ⟨buf, 2, client⟩)
  else do
    let nlen := lb.toNat &&& 0x7f
    refuse (nlen = 0 ∨ nlen > 4)
    let (octets, client) ← rdpTlsReadFull client nlen
    let buf := writeAt buf 2 octets
    let stored ← Slice.fetch ⟨2, nlen⟩ buf
    pure (⟨2 + nlen, beValue stored⟩, ⟨buf, 2 + nlen, client⟩)

def readTsrequest (client buf : Bytes) (cap : Nat) : Checked TsInput := do
  let (h, read) ← readTsrequestHeader client buf
  refuse (h.len > cap - h.used)
  let (body, client) ← rdpTlsReadFull read.client h.len
  pure ⟨writeAt read.buf h.used body, h.used + h.len, client⟩

def hex2byte (c : UInt8) : Option Nat :=
  if 0x30 ≤ c ∧ c ≤ 0x39 then some (c.toNat - 0x30)
  else if 0x61 ≤ c ∧ c ≤ 0x66 then some (10 + c.toNat - 0x61)
  else if 0x41 ≤ c ∧ c ≤ 0x46 then some (10 + c.toNat - 0x41)
  else none

def hexOctets : Nat → Bytes → Option Bytes
  | 0, _ => some []
  | n + 1, a :: b :: rest => do
    let hi ← hex2byte a
    let lo ← hex2byte b
    let tail ← hexOctets n rest
    some (low (hi <<< 4 ||| lo) :: tail)
  | _ + 1, _ => none

/-- The octets `fgets` reads into a buffer of the given size: up to the end of
the line, or as many as fit. -/
def fgetsLength (size : Nat) (file : Bytes) : Nat :=
  min ((file.takeWhile (· ≠ 0x0a)).length + 1) (size - 1)

/-- What successive calls of `fgets` read. -/
def fgetsAll (size : Nat) : Nat → Bytes → List Bytes
  | 0, _ => []
  | rounds + 1, file =>
    if file.isEmpty then []
    else file.take (fgetsLength size file) ::
      fgetsAll size rounds (file.drop (fgetsLength size file))

/-- The lines of the NT hash file, as `lookup_nthash` sees them. -/
def nthashLines (file : Bytes) : List Bytes :=
  (fgetsAll 512 file.length file).map cString

/-- The first line whose name is `user` decides. -/
def lookupLines (user : Bytes) : List Bytes → Option Bytes
  | [] => none
  | line :: rest =>
    let name := line.takeWhile (· ≠ 0x3a)
    if line.drop name.length ≠ [] ∧ name = user then
      hexOctets 16 ((line.drop (name.length + 1)).dropWhile (· = 0x20))
    else lookupLines user rest

def lookupNthash (nthashes : Option Bytes) (user : Bytes) : Option Bytes := do
  let file ← nthashes
  lookupLines user (nthashLines file)

def bindingHash (crypto : Crypto) (magic nonce pubkey : Bytes) : Checked Bytes :=
  accept (crypto.sha256 (magic ++ [0] ++ nonce ++ pubkey))

def clientToServerMagic : Bytes := ascii "CredSSP Client-To-Server Binding Hash"

def serverToClientMagic : Bytes := ascii "CredSSP Server-To-Client Binding Hash"

def clientBinding (crypto : Crypto) (version : Nat) (nonce pubkey : Bytes) :
    Checked Bytes :=
  if version ≥ 5 ∧ nonce.length ≥ 32 then bindingHash crypto clientToServerMagic nonce pubkey
  else pure pubkey

/-- The client's pubKeyAuth must unseal to the binding hash or to the public
key; returns the cipher after it. -/
def verifyClientBinding (crypto : Crypto) (rc4 : Rc4) (signKey : Bytes) (version : Nat)
    (pka : Bytes) (nonce pubkey : Bytes) : Checked Rc4 := do
  let (got, rc4) ← ntlmUnsealMessage crypto rc4 signKey 0 pka 2048
  let want ← clientBinding crypto version nonce pubkey
  refuse (got.length ≠ want.length ∨ rdpConsttimeEq got want = false)
  pure rc4

def rdpTlsGetServerPubkey (host : NlaHost) (cap : Nat) : Checked Bytes := do
  let der ← accept host.pubkey
  refuse (der.length > cap)
  pure der

def serverBinding (crypto : Crypto) (version : Nat) (nonce pubkey : Bytes) :
    Checked Bytes :=
  if version ≥ 5 ∧ nonce.length ≥ 32 then bindingHash crypto serverToClientMagic nonce pubkey
  else do
    let first ← load pubkey 0
    pure (writeAt pubkey 0 [first + 1])

/-- The first 32 octets of a client nonce that is long enough, and else
nothing. -/
def takeNonce (buf : Bytes) (nonce : Option Slice) : Checked Bytes :=
  match nonce with
  | some s => if s.len ≥ 32 then Slice.fetch ⟨s.off, 32⟩ buf else pure []
  | none => pure []

structure NlaChallenged where
  input : TsInput
  negMsg : Bytes
  chal : Bytes
  savedNonce : Bytes
  sent : Bytes

def nlaNegotiate (host : NlaHost) (client : Bytes) : Checked NlaChallenged := do
  let input ← readTsrequest client [] nlaMaxTsreq
  let req ← rdpCsspParse (input.buf.take input.len)
  let token ← accept req.negoToken
  let negMsg ← token.fetch input.buf
  let flags ← ntlmParseNegotiate negMsg
  refuse (token.len > nlaMaxNegotiate)
  let savedNonce ← takeNonce input.buf req.clientNonce
  let chal ← accept (ntlmBuildChallenge 1024 flags (ascii "rdpserver") host.time host.challenge)
  let out ← accept (rdpCsspBuild nlaMaxTsreq { version := req.version, negoToken := chal })
  refuse (host.writes out = false)
  pure ⟨input, negMsg, chal, savedNonce, out⟩

structure NlaVerified where
  input : TsInput
  rc4 : Rc4
  ctsSign : Bytes
  sent : Bytes

/-- The response of the AUTHENTICATE message and its MIC; returns the exported
session key. -/
def nlaVerifyAuthenticate (host : NlaHost) (st : NlaChallenged) (buf : Bytes) (token : Slice) :
    Checked Bytes := do
  let authMsg ← token.fetch buf
  let auth ← ntlmParseAuthenticate token.off authMsg
  let userUtf16 ← auth.userUtf16.fetch buf
  let nthash ← accept (lookupNthash host.nthashes (ntlmName userUtf16))
  let sessionBaseKey ← ntlmVerifyNtlmv2Hash host.crypto buf host.challenge auth nthash
  let exported ← ntlmDeriveExportedKey host.crypto buf auth sessionBaseKey
  let hasMic ← ntlmAuthHasMic buf auth
  if hasMic then do
    let authMsg ← token.fetch buf
    ntlmVerifyMic host.crypto host.malloc exported st.negMsg st.chal authMsg
    pure exported
  else pure exported

def nlaAnswerBinding (host : NlaHost) (version : Nat) (nonce pubkey exported : Bytes) :
    Checked Bytes := do
  let msg ← serverBinding host.crypto version nonce pubkey
  let sealed ← ntlmSealMessage host.crypto (ntlmSealKey host.crypto false exported)
    (ntlmSignKey host.crypto false exported) 0 msg (2048 + 16)
  let out ← accept (rdpCsspBuild nlaMaxTsreq { version := version, pubKeyAuth := sealed })
  refuse (host.writes out = false)
  pure out

/-- What is known once the AUTHENTICATE message and the channel binding are verified. -/
structure NlaChecked where
  input : TsInput
  version : Nat
  nonce : Bytes
  pubkey : Bytes
  exported : Bytes
  rc4 : Rc4

def nlaCheckBinding (host : NlaHost) (st : NlaChallenged) : Checked NlaChecked := do
  let input ← readTsrequest st.input.client st.input.buf nlaMaxTsreq
  let req ← rdpCsspParse (input.buf.take input.len)
  let token ← accept req.negoToken
  let late ← takeNonce input.buf req.clientNonce
  let nonce := if st.savedNonce.length = 0 then late else st.savedNonce
  let exported ← nlaVerifyAuthenticate host st input.buf token
  let pubkey ← rdpTlsGetServerPubkey host 2048
  refuse (pubkey.length = 0)
  let rc4 ← rdpRc4New host.crypto (ntlmSealKey host.crypto true exported)
  let pkaSlice ← accept req.pubKeyAuth
  let pka ← pkaSlice.fetch input.buf
  let rc4 ← verifyClientBinding host.crypto rc4 (ntlmSignKey host.crypto true exported) req.version
    pka nonce pubkey
  pure ⟨input, req.version, nonce, pubkey, exported, rc4⟩

def nlaAuthenticate (host : NlaHost) (st : NlaChallenged) : Checked NlaVerified := do
  let c ← nlaCheckBinding host st
  let out ← nlaAnswerBinding host c.version c.nonce c.pubkey c.exported
  pure ⟨c.input, c.rc4, ntlmSignKey host.crypto true c.exported, out⟩

/-- What a successful handshake leaves: the user and password buffers of the
caller, and the messages sent. -/
structure NlaAccepted where
  user : Bytes
  pass : Bytes
  sent : List Bytes
  deriving DecidableEq

def nlaCredentials (host : NlaHost) (st : NlaVerified) (userSize passSize : Nat) :
    Checked (Bytes × Bytes) := do
  let input ← readTsrequest st.input.client st.input.buf nlaMaxTsreq
  let req ← rdpCsspParse (input.buf.take input.len)
  let authInfo ← accept req.authInfo
  refuse (authInfo.len < 16)
  refuse (host.malloc (authInfo.len - 16) = false)
  let sealed ← authInfo.fetch input.buf
  let (decrypted, _) ← ntlmUnsealMessage host.crypto st.rc4 st.ctsSign 1 sealed (authInfo.len - 16)
  let tc ← rdpCsspParseTscredentials decrypted
  let userUtf16 ← NtlmField.fetch tc.userUtf16 decrypted
  let passUtf16 ← NtlmField.fetch tc.passwordUtf16 decrypted
  pure (utf16ToCString (List.replicate userSize 0) userSize userUtf16,
    utf16ToCString (List.replicate passSize 0) passSize passUtf16)

def rdpNlaServer (host : NlaHost) (client : Bytes) (userSize passSize : Nat) :
    Checked NlaAccepted := do
  let challenged ← nlaNegotiate host client
  let verified ← nlaAuthenticate host challenged
  let (user, pass) ← nlaCredentials host verified userSize passSize
  pure ⟨user, pass, [challenged.sent, verified.sent]⟩

end RdpServer
