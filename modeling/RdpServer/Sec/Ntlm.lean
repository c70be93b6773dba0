import RdpServer.Common.Utf16
import RdpServer.Lib.Checked

/-!
# NTLMSSP messages and NTLMv2

The cryptographic primitives come from the TLS library and are arbitrary here: any functions
with outputs of the right lengths, which may fail where the program checks for it. RC4 is a
keystream that depends on the key. A parsed AUTHENTICATE message holds slices of the buffer
its octets are in; the functions that use it fetch them from that buffer again.
-/

namespace RdpServer

open Bytes

structure Crypto where
  hmacMd5 : Bytes → Bytes → Option Bytes
  hmacMd5_length : ∀ {key data mac}, hmacMd5 key data = some mac → mac.length = 16
  md5 : Bytes → Bytes
  sha256 : Bytes → Option Bytes
  sha256_length : ∀ {data hash}, sha256 data = some hash → hash.length = 32
  /-- Whether the library gives out an RC4 context for the key. -/
  rc4Ready : Bytes → Bool
  rc4Stream : Bytes → Nat → UInt8

/-- Primitives that can be computed by hand: the HMAC is the key, cut to its
length, and the keystream is zero. -/
def toyCrypto : Crypto where
  hmacMd5 := fun key _ => some ((key ++ List.replicate 16 0).take 16)
  hmacMd5_length := by
    intro key _ mac made
    rw [← Option.some.inj made, List.length_take, List.length_append, List.length_replicate]
    omega
  md5 := fun _ => List.replicate 16 0
  sha256 := fun _ => some (List.replicate 32 0)
  sha256_length := by
    intro _ hash made
    rw [← Option.some.inj made, List.length_replicate]
  rc4Ready := fun _ => true
  rc4Stream := fun _ _ => 0

def rdpHmacMd5 (crypto : Crypto) (key data : Bytes) : Checked Bytes :=
  accept (crypto.hmacMd5 key data)

def rdpHmacMd52 (crypto : Crypto) (key a b : Bytes) : Checked Bytes :=
  accept (crypto.hmacMd5 key (a ++ b))

/-- `struct rdp_rc4`: the key and the octets of the keystream used so far. -/
structure Rc4 where
  key : Bytes
  pos : Nat
  deriving DecidableEq

def rdpRc4New (crypto : Crypto) (key : Bytes) : Checked Rc4 := do
  refuse (crypto.rc4Ready key = false)
  pure ⟨key, 0⟩

def rdpRc4Process (crypto : Crypto) (rc4 : Rc4) (input : Bytes) : Bytes × Rc4 :=
  (mask (crypto.rc4Stream rc4.key) rc4.pos input, { rc4 with pos := rc4.pos + input.length })

/-- `rdp_consttime_eq`, true when the octets are equal. -/
def rdpConsttimeEq (a b : Bytes) : Bool :=
  (List.zipWith (· ^^^ ·) a b).foldl (· ||| ·) 0 == 0

theorem foldl_or_eq_zero (octets : Bytes) (acc : UInt8) :
    octets.foldl (· ||| ·) acc = 0 ↔ acc = 0 ∧ ∀ octet ∈ octets, octet = 0 := by
  induction octets generalizing acc with
  | nil => simp
  | cons octet rest ih =>
    rw [List.foldl_cons, ih]
    simp [and_assoc]

theorem rdpConsttimeEq_iff {a b : Bytes} (same : a.length = b.length) :
    rdpConsttimeEq a b = true ↔ a = b := by
  rw [rdpConsttimeEq, beq_iff_eq, foldl_or_eq_zero]
  simp only [true_and]
  induction a generalizing b with
  | nil =>
    cases b with
    | nil => simp
    | cons => cases same
  | cons x a ih =>
    cases b with
    | nil => cases same
    | cons y b =>
      simp only [List.length_cons, Nat.add_right_cancel_iff] at same
      simp [ih same]

namespace Ntlm

def msgNegotiate : Nat := 1
def msgChallenge : Nat := 2
def msgAuthenticate : Nat := 3

def negotiateUnicode : Nat := 0x00000001
def negotiateOem : Nat := 0x00000002
def requestTarget : Nat := 0x00000004
def negotiateSign : Nat := 0x00000010
def negotiateSeal : Nat := 0x00000020
def negotiateNtlm : Nat := 0x00000200
def negotiateAlwaysSign : Nat := 0x00008000
def negotiateExtendedSessionsecurity : Nat := 0x00080000
def negotiateTargetInfo : Nat := 0x00800000
def negotiateVersion : Nat := 0x02000000
def negotiate128 : Nat := 0x20000000
def negotiateKeyExch : Nat := 0x40000000
def negotiate56 : Nat := 0x80000000

def msvAvEol : Nat := 0
def msvAvNbComputerName : Nat := 1
def msvAvNbDomainName : Nat := 2
def msvAvFlags : Nat := 6
def msvAvTimestamp : Nat := 7

def msvAvFlagMicPresent : Nat := 2

/-- `NTLMV2_CLIENT_CHALLENGE_HDR`. -/
def clientChallengeHdr : Nat := 28

/-- `NTLM_AUTH_MIC_OFFSET`. -/
def authMicOffset : Nat := 72

/-- `NTLM_SIG`. -/
def sig : Bytes := [0x4e, 0x54, 0x4c, 0x4d, 0x53, 0x53, 0x50, 0x00]

end Ntlm

def ascii (text : String) : Bytes := text.toList.map fun c => low c.toNat

def cString (buf : Bytes) : Bytes := buf.takeWhile (· ≠ 0)

def ldU16le (buf : Bytes) (off : Nat) : Checked Nat := do
  let octets ← Slice.fetch ⟨off, 2⟩ buf
  pure (leValue octets)

def ldU32le (buf : Bytes) (off : Nat) : Checked Nat := do
  let octets ← Slice.fetch ⟨off, 4⟩ buf
  pure (leValue octets)

/-- `struct ntlm_field`: `none` is the null pointer with length 0. -/
abbrev NtlmField := Option Slice

def NtlmField.len (field : NtlmField) : Nat := field.elim 0 Slice.len

def NtlmField.fetch (field : NtlmField) (mem : Bytes) : Checked Bytes :=
  match field with
  | some s => s.fetch mem
  | none => .ok []

/-- A field of the message `buf`, which starts at `base` of its buffer. -/
def parseField (base : Nat) (buf : Bytes) (off : Nat) : Checked NtlmField := do
  refuse (off + 8 > buf.length)
  let flen ← ldU16le buf off
  let foff ← ldU32le buf (off + 4)
  if flen = 0 then pure none
  else do
    refuse (foff + flen > buf.length)
    pure (some ⟨base + foff, flen⟩)

def ntlmParseNegotiate (buf : Bytes) : Checked Nat := do
  refuse (buf.length < 16)
  refuse (buf.take 8 ≠ Ntlm.sig)
  let kind ← ldU32le buf 8
  refuse (kind ≠ Ntlm.msgNegotiate)
  ldU32le buf 12

structure NtlmAuthenticate where
  flags : Nat
  lmResponse : NtlmField
  ntResponse : NtlmField
  domainUtf16 : NtlmField
  userUtf16 : NtlmField
  workstationUtf16 : NtlmField
  encRandomSkey : NtlmField
  mic : Option Slice
  deriving DecidableEq

def ntlmParseAuthenticate (base : Nat) (buf : Bytes) : Checked NtlmAuthenticate := do
  refuse (buf.length < 64)
  refuse (buf.take 8 ≠ Ntlm.sig)
  let kind ← ldU32le buf 8
  refuse (kind ≠ Ntlm.msgAuthenticate)
  let lm ← parseField base buf 12
  let nt ← parseField base buf 20
  let domain ← parseField base buf 28
  let user ← parseField base buf 36
  let ws ← parseField base buf 44
  let enc ← parseField base buf 52
  let flags ← ldU32le buf 60
  pure
    { flags := flags
      lmResponse := lm
      ntResponse := nt
      domainUtf16 := domain
      userUtf16 := user
      workstationUtf16 := ws
      encRandomSkey := enc
      mic := if buf.length ≥ 72 + 16 then some ⟨base + 72, 16⟩ else none }

/-- The flags of the CHALLENGE: the client's preferences with the bits forced
that the server needs. -/
def ntlmChallengeFlags (clientFlags : Nat) : Nat :=
  let kept := clientFlags &&&
    (Ntlm.negotiateUnicode ||| Ntlm.negotiateOem ||| Ntlm.negotiateSign ||| Ntlm.negotiateSeal |||
      Ntlm.negotiateNtlm ||| Ntlm.negotiateAlwaysSign ||| Ntlm.negotiateExtendedSessionsecurity |||
      Ntlm.negotiate128 ||| Ntlm.negotiateKeyExch ||| Ntlm.negotiate56)
  let forced := kept ||| Ntlm.negotiateUnicode ||| Ntlm.requestTarget ||| Ntlm.negotiateNtlm |||
    Ntlm.negotiateAlwaysSign ||| Ntlm.negotiateExtendedSessionsecurity |||
    Ntlm.negotiateTargetInfo ||| Ntlm.negotiate128
  (forced &&& (0xffffffff ^^^ Ntlm.negotiateOem)) ||| Ntlm.negotiateVersion

def avPair (id : Nat) (value : Bytes) : Bytes :=
  leBytes 2 id ++ leBytes 2 value.length ++ value

/-- `rdp_utf8_to_utf16le` into a buffer of the given size, nothing on an error
or if it does not fit. -/
def utf8ToUtf16Within (size : Nat) (s : Bytes) : Bytes :=
  let converted := rdpUtf8ToUtf16le [] size s
  match converted.2 with
  | some n => if n > size then [] else converted.1.take n
  | none => []

def ntlmAvBlock (target : Bytes) (time : Nat) : Bytes :=
  avPair Ntlm.msvAvNbComputerName target ++ avPair Ntlm.msvAvNbDomainName target ++
    avPair Ntlm.msvAvTimestamp (leBytes 8 ((time + 11644473600) * 10000000)) ++
    avPair Ntlm.msvAvEol []

def ntlmChallengeHead (targetLen flags : Nat) : Bytes :=
  Ntlm.sig ++ leBytes 4 Ntlm.msgChallenge ++ leBytes 2 targetLen ++ leBytes 2 targetLen ++
    leBytes 4 56 ++ leBytes 4 flags

/-- The CHALLENGE message; `challenge` is the random server challenge. -/
def ntlmBuildChallenge (cap clientFlags : Nat) (targetName : Bytes) (time : Nat)
    (challenge : Bytes) : Option Bytes :=
  let target := utf8ToUtf16Within 256 targetName
  let av := ntlmAvBlock target time
  if av.length > 560 ∨ 56 + target.length + av.length > cap then none
  else
    some (ntlmChallengeHead target.length (ntlmChallengeFlags clientFlags) ++ challenge ++
      (List.replicate 8 0 ++ leBytes 2 av.length ++ leBytes 2 av.length ++
        leBytes 4 (56 + target.length) ++ [10, 0, 0, 0, 0, 0, 0, 15] ++ target ++ av))

@[simp] theorem length_ntlmChallengeHead (targetLen flags : Nat) :
    (ntlmChallengeHead targetLen flags).length = 24 := by
  simp [ntlmChallengeHead, Ntlm.sig]

/-- A UTF-16 name as a C string in a buffer of the given size: empty if it is
malformed or does not fit. -/
def utf16ToCString (dst : Bytes) (size : Nat) (src : Bytes) : Bytes :=
  let converted := rdpUtf16leToUtf8 dst (size - 1) src
  let got := match converted.2 with
    | some n => if n ≥ size then 0 else n
    | none => 0
  writeAt converted.1 got [0]

def toUpper (c : UInt8) : UInt8 := if 0x61 ≤ c ∧ c ≤ 0x7a then c - 0x20 else c

def toUtf16Plain (s : Bytes) : Bytes := utf8ToUtf16Within 512 s

def toUtf16Upper (s : Bytes) : Bytes := utf8ToUtf16Within 512 ((s.take 255).map toUpper)

def ntlmName (utf16 : Bytes) : Bytes := cString (utf16ToCString [] 256 utf16)

/-- Check the NTLMv2 response against an NT hash; returns the session base
key. -/
def ntlmVerifyNtlmv2Hash (crypto : Crypto) (mem serverChallenge : Bytes)
    (auth : NtlmAuthenticate) (ntHash : Bytes) : Checked Bytes := do
  refuse (auth.ntResponse.len < 16 + 8)
  let response ← auth.ntResponse.fetch mem
  let userUtf16 ← auth.userUtf16.fetch mem
  let domainUtf16 ← auth.domainUtf16.fetch mem
  let userUp := toUtf16Upper (ntlmName userUtf16)
  let domLe := toUtf16Plain (ntlmName domainUtf16)
  let ntlmv2Hash ← rdpHmacMd52 crypto ntHash userUp domLe
  let ntProof ← rdpHmacMd52 crypto ntlmv2Hash serverChallenge (response.drop 16)
  refuse (rdpConsttimeEq ntProof (response.take 16) = false)
  rdpHmacMd5 crypto ntlmv2Hash ntProof

def ntlmDeriveExportedKey (crypto : Crypto) (mem : Bytes) (auth : NtlmAuthenticate)
    (sessionBaseKey : Bytes) : Checked Bytes :=
  if auth.flags &&& Ntlm.negotiateKeyExch ≠ 0 then do
    refuse (auth.encRandomSkey.len ≠ 16)
    let rc4 ← rdpRc4New crypto sessionBaseKey
    let key ← auth.encRandomSkey.fetch mem
    pure (rdpRc4Process crypto rc4 key).1
  else pure sessionBaseKey

/-- `ntlm_seal_key` and `ntlm_sign_key` hash the exported key and a constant
with its terminator. -/
def ntlmSubKey (crypto : Crypto) (magic exported : Bytes) : Bytes :=
  crypto.md5 (exported ++ magic ++ [0])

def ntlmSealKey (crypto : Crypto) (fromClientToServer : Bool) (exported : Bytes) :
    Bytes :=
  ntlmSubKey crypto
    (if fromClientToServer then ascii "session key to client-to-server sealing key magic constant"
      else ascii "session key to server-to-client sealing key magic constant") exported

def ntlmSignKey (crypto : Crypto) (fromClientToServer : Bool) (exported : Bytes) :
    Bytes :=
  ntlmSubKey crypto
    (if fromClientToServer then ascii "session key to client-to-server signing key magic constant"
      else ascii "session key to server-to-client signing key magic constant") exported

def ntlmSealMessage (crypto : Crypto) (sealKey signKey : Bytes) (seqNum : Nat)
    (msg : Bytes) (outCap : Nat) : Checked Bytes := do
  refuse (outCap < 16 + msg.length ∨ msg.length > 8192)
  let mac ← rdpHmacMd5 crypto signKey (leBytes 4 seqNum ++ msg)
  let rc4 ← rdpRc4New crypto sealKey
  let (body, rc4) := rdpRc4Process crypto rc4 msg
  let (checksum, _) := rdpRc4Process crypto rc4 (mac.take 8)
  pure (leBytes 4 1 ++ checksum ++ leBytes 4 seqNum ++ body)

def ntlmUnsealMessage (crypto : Crypto) (rc4 : Rc4) (signKey : Bytes) (seqNum : Nat)
    (input : Bytes) (outCap : Nat) : Checked (Bytes × Rc4) := do
  refuse (input.length < 16 ∨ input.length - 16 > outCap)
  let out := rdpRc4Process crypto rc4 (input.drop 16)
  let cksum := rdpRc4Process crypto out.2 ((input.drop 4).take 8)
  let mac ← rdpHmacMd52 crypto signKey (leBytes 4 seqNum) out.1
  let version ← ldU32le input 0
  let seq ← ldU32le input 12
  refuse (version ≠ 1 ∨ seq ≠ seqNum ∨ rdpConsttimeEq (mac.take 8) cksum.1 = false)
  pure (out.1, cksum.2)

/-- The loop over the AV pairs; a round takes at least four octets, so that as
many rounds as octets are enough. -/
def hasMicLoop : Nat → Bytes → Checked Bool
  | 0, _ => pure false
  | rounds + 1, p =>
    if p.length < 4 then pure false
    else do
      let id ← ldU16le p 0
      let len ← ldU16le p 2
      if id = Ntlm.msvAvEol ∨ len > p.length - 4 then pure false
      else if id = Ntlm.msvAvFlags ∧ len ≥ 4 then do
        let flags ← ldU32le p 4
        pure (flags &&& Ntlm.msvAvFlagMicPresent != 0)
      else hasMicLoop rounds (p.drop (4 + len))

def ntlmAuthHasMic (mem : Bytes) (auth : NtlmAuthenticate) : Checked Bool :=
  if auth.ntResponse.len < 16 + Ntlm.clientChallengeHdr then pure false
  else do
    let response ← auth.ntResponse.fetch mem
    let p := response.drop (16 + Ntlm.clientChallengeHdr)
    hasMicLoop p.length p

/-- `SIZE_MAX` where sizes have 64 bits. -/
def sizeMax : Nat := 2 ^ 64 - 1

/-- Check the MIC; `malloc` says whether the copy of the messages can be
allocated. -/
def ntlmVerifyMic (crypto : Crypto) (malloc : Nat → Bool)
    (exported negotiate challenge authenticate : Bytes) : Checked Unit := do
  refuse (authenticate.length < Ntlm.authMicOffset + 16 ∨ negotiate.length > sizeMax / 4 ∨
    challenge.length > sizeMax / 4 ∨ authenticate.length > sizeMax / 4)
  refuse (malloc (negotiate.length + challenge.length + authenticate.length) = false)
  let am := writeAt authenticate Ntlm.authMicOffset (List.replicate 16 0)
  let mic ← rdpHmacMd5 crypto exported (negotiate ++ challenge ++ am)
  refuse (rdpConsttimeEq mic ((authenticate.drop Ntlm.authMicOffset).take 16) = false)

end RdpServer
