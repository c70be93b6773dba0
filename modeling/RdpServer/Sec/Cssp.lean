import RdpServer.Common.Buf

/-!
# TSRequest and TSCredentials

The CredSSP messages in DER. Parsing returns slices of the octets it was given;
every slice lies inside them (`ensures_rdpCsspParse`).
-/

namespace RdpServer

open Bytes

/-- `BER_CTX_CONSTRUCTED`. -/
def berCtxConstructed (n : Nat) : Nat := 0xA0 ||| n

structure TsRequest where
  version : Nat := 0
  negoToken : Option Slice := none
  authInfo : Option Slice := none
  pubKeyAuth : Option Slice := none
  clientNonce : Option Slice := none
  deriving DecidableEq

def readCtxTag (p : Bytes) (wireTag : Nat) : Checked BerHeader := berReadHeader p wireTag

def skipElement (p : Bytes) : Checked Nat := do
  refuse (p.length < 1)
  let h ← rdpBerReadLength (p.drop 1)
  refuse (h.len > p.length - 1 - h.used)
  pure (1 + h.used + h.len)

/-- A context tag at `off` around an INTEGER: the offset after it and the
value. -/
def readCtxInteger (p : Bytes) (off wireTag : Nat) : Checked (Nat × Nat) := do
  let h ← readCtxTag (p.drop off) wireTag
  let v ← rdpBerReadInteger ((p.drop (off + h.used)).take h.len)
  pure (off + h.used + h.len, v.2)

/-- A context tag at `off` around an OCTET STRING: the offset after it and the
contents. -/
def readCtxOctetString (p : Bytes) (off wireTag : Nat) : Checked (Nat × Slice) := do
  let h ← readCtxTag (p.drop off) wireTag
  let od ← rdpBerReadOctetString ((p.drop (off + h.used)).take h.len)
  pure (off + h.used + h.len, od.2.shift (off + h.used))

/-- The negoTokens element: a sequence of a sequence with one token. The cursor
is left behind the token, not behind the sequences around it. -/
def readNegoTokens (p : Bytes) (off : Nat) : Checked (Nat × Slice) := do
  let ctx ← readCtxTag (p.drop off) (berCtxConstructed 1)
  let off := off + ctx.used
  let outerSeq ← rdpBerReadUniversalTag ((p.drop off).take ctx.len) Ber.constructed Ber.tagSequence
  let off := off + outerSeq.used
  let innerSeq ←
    rdpBerReadUniversalTag ((p.drop off).take outerSeq.len) Ber.constructed Ber.tagSequence
  let off := off + innerSeq.used
  let blob ← readCtxTag ((p.drop off).take innerSeq.len) (berCtxConstructed 0)
  let off := off + blob.used
  let od ← rdpBerReadOctetString ((p.drop off).take blob.len)
  pure (off + blob.len, od.2.shift off)

def csspRound (p : Bytes) (off : Nat) (out : TsRequest) : Checked (Nat × TsRequest) := do
  let tag ← load p off
  if tag.toNat = berCtxConstructed 0 then do
    let v ← readCtxInteger p off tag.toNat
    pure (v.1, { out with version := v.2 })
  else if tag.toNat = berCtxConstructed 1 then do
    let od ← readNegoTokens p off
    pure (od.1, { out with negoToken := some od.2 })
  else if tag.toNat = berCtxConstructed 2 then do
    let od ← readCtxOctetString p off tag.toNat
    pure (od.1, { out with authInfo := some od.2 })
  else if tag.toNat = berCtxConstructed 3 then do
    let od ← readCtxOctetString p off tag.toNat
    pure (od.1, { out with pubKeyAuth := some od.2 })
  else if tag.toNat = berCtxConstructed 5 then do
    let od ← readCtxOctetString p off tag.toNat
    pure (od.1, { out with clientNonce := some od.2 })
  else do
    let r ← skipElement (p.drop off)
    pure (off + r, out)

def rdpCsspParse (p : Bytes) : Checked TsRequest := do
  let outer ← rdpBerReadUniversalTag p Ber.constructed Ber.tagSequence
  refuse (outer.used + outer.len > p.length)
  scan p.length (csspRound p) outer.used {}

structure TsReply where
  version : Nat
  negoToken : Bytes := []
  authInfo : Bytes := []
  pubKeyAuth : Bytes := []
  deriving DecidableEq

def putCtxTaggedInner (b : Buf) (wireTag : Nat) (inner : Bytes) : Option Buf := do
  let b ← rdpBufPutU8 b wireTag
  let b ← rdpBerWriteLength b inner.length
  if inner.length > 0 then rdpBufPut b inner else some b

def putSequence (cap : Nat) (contents : Bytes) : Option Buf := do
  let b ← rdpBerWriteUniversal (rdpBufInit cap) Ber.constructed Ber.tagSequence contents.length
  rdpBufPut b contents

def putNegoTokens (body : Buf) (token : Bytes) : Option Buf :=
  if token.length > 0 then do
    let io ← rdpBerWriteOctetString (rdpBufInit 4096) token
    let bo ← putCtxTaggedInner (rdpBufInit 4096) (berCtxConstructed 0) io.written
    let is ← putSequence 4096 bo.written
    let os ← putSequence 4096 is.written
    let no ← putCtxTaggedInner (rdpBufInit 8192) (berCtxConstructed 1) os.written
    rdpBufPut body no.written
  else some body

def putCtxOctets (body : Buf) (n : Nat) (octets : Bytes) : Option Buf :=
  if octets.length > 0 then do
    let ob ← rdpBerWriteOctetString (rdpBufInit 4096) octets
    putCtxTaggedInner body (berCtxConstructed n) ob.written
  else some body

def rdpCsspBuild (cap : Nat) (reply : TsReply) : Option Bytes := do
  let vb ← rdpBerWriteInteger (rdpBufInit 8) reply.version
  let body ← putCtxTaggedInner (rdpBufInit 8192) (berCtxConstructed 0) vb.written
  let body ← putNegoTokens body reply.negoToken
  let body ← putCtxOctets body 2 reply.authInfo
  let body ← putCtxOctets body 3 reply.pubKeyAuth
  let out ← putSequence cap body.written
  some out.written

structure TsCredentials where
  domainUtf16 : Option Slice := none
  userUtf16 : Option Slice := none
  passwordUtf16 : Option Slice := none
  deriving DecidableEq

structure TsCredsOuter where
  credType : Nat := 0
  credsBlob : Option Slice := none
  deriving DecidableEq

def tsCredsOuterRound (p : Bytes) (off : Nat) (out : TsCredsOuter) :
    Checked (Nat × TsCredsOuter) := do
  let tag ← load p off
  if tag.toNat = berCtxConstructed 0 then do
    let v ← readCtxInteger p off tag.toNat
    pure (v.1, { out with credType := v.2 })
  else if tag.toNat = berCtxConstructed 1 then do
    let od ← readCtxOctetString p off tag.toNat
    pure (od.1, { out with credsBlob := some od.2 })
  else do
    let r ← skipElement (p.drop off)
    pure (off + r, out)

/-- A round over TSPasswordCreds, which starts at `base` of the whole. -/
def tsPasswordRound (base : Nat) (blob : Bytes) (off : Nat) (out : TsCredentials) :
    Checked (Nat × TsCredentials) := do
  let tag ← load blob off
  refuse (tag.toNat &&& 0xe0 ≠ 0xa0)
  let od ← readCtxOctetString blob off tag.toNat
  let which := tag.toNat &&& 0x1f
  pure (od.1,
    if which = 0 then { out with domainUtf16 := some (od.2.shift base) }
    else if which = 1 then { out with userUtf16 := some (od.2.shift base) }
    else if which = 2 then { out with passwordUtf16 := some (od.2.shift base) }
    else out)

def rdpCsspParseTscredentials (p : Bytes) : Checked TsCredentials := do
  let outer ← rdpBerReadUniversalTag p Ber.constructed Ber.tagSequence
  let found ← scan p.length (tsCredsOuterRound p) outer.used {}
  refuse (found.credType ≠ 1)
  let blob ← accept found.credsBlob
  let octets ← blob.fetch p
  let inner ← rdpBerReadUniversalTag octets Ber.constructed Ber.tagSequence
  scan octets.length (tsPasswordRound blob.off octets) inner.used {}

section Bounds

variable {p : Bytes} {off : Nat}

theorem ensures_skipElement (p : Bytes) : Ensures (skipElement p) fun used => 1 ≤ used :=
  (ensures_refuse _).bind fun _ _ => (ensures_rdpBerReadLength _).bind fun h _ =>
    (ensures_refuse _).bind fun _ _ => ensures_ok (by omega)

theorem ensures_readCtxInteger (p : Bytes) (off wireTag : Nat) :
    Ensures (readCtxInteger p off wireTag) fun v => off < v.1 :=
  (ensures_berReadHeader _ _).bind fun _ bound => (ensures_rdpBerReadInteger _).bind fun _ _ =>
    ensures_ok (by simp only; omega)

theorem ensures_readCtxOctetString (p : Bytes) (off wireTag : Nat) :
    Ensures (readCtxOctetString p off wireTag) fun od => off < od.1 ∧ od.2.Inside p.length := by
  refine (ensures_berReadHeader _ _).bind fun h bound =>
    (ensures_rdpBerReadOctetString _).bind fun _ inside => ensures_ok ?_
  rw [List.length_drop] at bound
  exact ⟨by simp only; omega, inside.shift (s := ⟨_, h.len⟩) (by simp only [Slice.Inside]; omega)⟩

theorem ensures_readNegoTokens (p : Bytes) (off : Nat) :
    Ensures (readNegoTokens p off) fun od => off < od.1 ∧ od.2.Inside p.length := by
  refine (ensures_berReadHeader _ _).bind fun _ ctx =>
    (ensures_berReadHeader _ _).bind fun _ outer =>
    (ensures_berReadHeader _ _).bind fun _ inner => (ensures_berReadHeader _ _).bind fun h blob =>
    (ensures_rdpBerReadOctetString _).bind fun _ inside => ensures_ok ?_
  simp only [List.length_take, List.length_drop] at ctx outer inner blob
  exact ⟨by simp only; omega, inside.shift (s := ⟨_, h.len⟩) (by simp only [Slice.Inside]; omega)⟩

/-- Every slice of a parsed TSRequest lies in the first `size` octets. -/
structure TsRequest.Inside (req : TsRequest) (size : Nat) : Prop where
  negoToken : ∀ s ∈ req.negoToken, s.Inside size
  authInfo : ∀ s ∈ req.authInfo, s.Inside size
  pubKeyAuth : ∀ s ∈ req.pubKeyAuth, s.Inside size
  clientNonce : ∀ s ∈ req.clientNonce, s.Inside size

theorem ensures_csspRound {out : TsRequest} (held : out.Inside p.length) (more : off < p.length) :
    Ensures (csspRound p off out) fun next => off < next.1 ∧ next.2.Inside p.length := by
  have only {s : Slice} (inside : s.Inside p.length) : ∀ t ∈ some s, t.Inside p.length := by
    intro t member
    rw [Option.mem_some_iff] at member
    rwa [← member]
  refine (ensures_load more).bind fun tag _ => ?_
  split_ifs
  · exact (ensures_readCtxInteger _ _ _).bind fun _ forward => ensures_ok
      ⟨forward, held.negoToken, held.authInfo, held.pubKeyAuth, held.clientNonce⟩
  · exact (ensures_readNegoTokens _ _).bind fun _ od => ensures_ok
      ⟨od.1, { held with negoToken := only od.2 }⟩
  · exact (ensures_readCtxOctetString _ _ _).bind fun _ od => ensures_ok
      ⟨od.1, { held with authInfo := only od.2 }⟩
  · exact (ensures_readCtxOctetString _ _ _).bind fun _ od => ensures_ok
      ⟨od.1, { held with pubKeyAuth := only od.2 }⟩
  · exact (ensures_readCtxOctetString _ _ _).bind fun _ od => ensures_ok
      ⟨od.1, { held with clientNonce := only od.2 }⟩
  · exact (ensures_skipElement _).bind fun _ used => ensures_ok ⟨by simp only; omega, held⟩

theorem ensures_rdpCsspParse (p : Bytes) :
    Ensures (rdpCsspParse p) fun req => req.Inside p.length := by
  refine (ensures_berReadHeader _ _).bind fun _ _ => (ensures_refuse _).bind fun _ _ =>
    ensures_scan (fun _ _ more held => ensures_csspRound held more) ?_
  constructor <;> intro s member <;> cases member

end Bounds

end RdpServer
