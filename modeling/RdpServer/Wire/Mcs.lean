import RdpServer.Common.Buf
import RdpServer.Sec.Ntlm

/-!
# The MCS Connect Initial PDU

`rdp_mcs_parse_connect_initial`: a BER envelope around a GCC Conference Create Request, whose
user data is a sequence of client data blocks. The blocks are read by offset, and an access
outside the user data is a fault. The channel list that the parser returns has at most 32
channels, each with a name of eight octets.
-/

namespace RdpServer

open Bytes

namespace Mcs

def csCore : Nat := 0xC001
def csSecurity : Nat := 0xC002
def csNet : Nat := 0xC003
def csCluster : Nat := 0xC004
def csMonitor : Nat := 0xC005
def csMcsMsgchannel : Nat := 0xC006

/-- `RDP_MCS_MAX_CHANNELS`. -/
def maxChannels : Nat := 32

/-- `RDP_MCS_MAX_MONITORS`. -/
def maxMonitors : Nat := 16

end Mcs

/-- `struct rdp_mcs_channel_def`. -/
structure McsChannelDef where
  name : Bytes
  sized : name.length = 8
  options : Nat
  deriving DecidableEq

structure McsMonitor where
  left : Int
  top : Int
  right : Int
  bottom : Int
  flags : Nat
  deriving DecidableEq

/-- The channels of `struct rdp_mcs_connect_initial`. -/
structure McsChannels where
  defs : List McsChannelDef := []
  bounded : defs.length ≤ Mcs.maxChannels := by decide
  deriving DecidableEq

/-- `struct rdp_mcs_connect_initial`. -/
structure McsConnectInitial where
  clientVersion : Nat := 0
  desktopWidth : Nat := 0
  desktopHeight : Nat := 0
  colorDepth : Nat := 0
  keyboardLayout : Nat := 0
  clientBuild : Nat := 0
  clientHostname : Bytes := []
  encryptionMethods : Nat := 0
  extEncryptionMethods : Nat := 0
  channels : McsChannels := {}
  clusterFlags : Nat := 0
  redirectedSessionId : Nat := 0
  earlyCapabilityFlags : Nat := 0
  hasMsgchannel : Bool := false
  monitors : List McsMonitor := []
  deriving DecidableEq

def appTagNumber : Nat → Bytes → Nat × Nat
  | got, [] => (0, got)
  | got, c :: p =>
    let got := (got <<< 7 % 2 ^ 32) ||| (c.toNat &&& 0x7f)
    if c.toNat &&& 0x80 = 0 then (1, got)
    else
      let rest := appTagNumber got p
      (rest.1 + 1, rest.2)

/-- `rdp_ber_read_app_tag`, for a tag of several octets. -/
def rdpBerReadAppTag (p : Bytes) (pc tag : Nat) : Checked BerHeader := do
  refuse (p.length < 1)
  let first ← load p 0
  refuse (first.toNat ≠ 0x40 ||| pc ||| 0x1f)
  let number := appTagNumber 0 (p.drop 1)
  refuse (number.2 ≠ tag)
  let off := 1 + number.1
  let h ← rdpBerReadLength (p.drop off)
  refuse (h.len > p.length - off - h.used)
  pure ⟨off + h.used, h.len⟩

def rdpBerReadBoolean (p : Bytes) : Checked Nat := do
  let h ← rdpBerReadUniversalTag p Ber.primitive 0x01
  refuse (h.len ≠ 1)
  pure (h.used + 1)

/-- `rdp_per_read_length`: the octets used. -/
def rdpPerReadLength (p : Bytes) : Checked Nat := do
  refuse (p.length < 1)
  let first ← load p 0
  if first.toNat &&& 0x80 = 0 then pure 1
  else if first.toNat &&& 0xc0 = 0x80 then do
    refuse (p.length < 2)
    pure 2
  else .error .reject

def ducaEnd (userData : Bytes) : Option Nat :=
  ((List.range (userData.length - 3)).find? fun i =>
    decide (7 ≤ i ∧ (userData.drop i).take 4 = ascii "Duca")).map (· + 4)

/-- The user data of a Connect Initial, and where the client data blocks begin in it. -/
def mcsUserData (p : Bytes) : Checked (Bytes × Nat) := do
  let head ← rdpBerReadAppTag p Ber.constructed 101
  let off := head.used
  let (used, _) ← rdpBerReadOctetString (p.drop off)
  let off := off + used
  let (used, _) ← rdpBerReadOctetString (p.drop off)
  let off := off + used
  let used ← rdpBerReadBoolean (p.drop off)
  let off := off + used
  let first ← rdpBerReadUniversalTag (p.drop off) Ber.constructed 0x10
  let off := off + first.used + first.len
  let second ← rdpBerReadUniversalTag (p.drop off) Ber.constructed 0x10
  let off := off + second.used + second.len
  let third ← rdpBerReadUniversalTag (p.drop off) Ber.constructed 0x10
  let off := off + third.used + third.len
  let (_, slice) ← rdpBerReadOctetString (p.drop off)
  let userData ← slice.fetch (p.drop off)
  refuse (userData.length < 21)
  let udOff ← accept (ducaEnd userData)
  let used ← rdpPerReadLength (userData.drop udOff)
  pure (userData, udOff + used)

/-- A number of `n` octets. -/
def ldAt (buf : Bytes) (off n : Nat) : Checked Nat := do
  let octets ← Slice.fetch ⟨off, n⟩ buf
  pure (leValue octets)

def ldSignedAt (buf : Bytes) (off : Nat) : Checked Int := do
  let value ← ldAt buf off 4
  pure (if value < 0x80000000 then value else (value : Int) - 0x100000000)

def readIf {α : Type} (held : Prop) [Decidable held] (read : Checked α) (kept : α) : Checked α :=
  if held then read else pure kept

/-- `RDP_CS_CORE`, with the body at `body`. -/
def mcsCore (buf : Bytes) (body blen : Nat) (out : McsConnectInitial) :
    Checked McsConnectInitial :=
  if blen ≥ 4 + 16 then do
    let clientVersion ← ldAt buf body 4
    let desktopWidth ← ldAt buf (body + 4) 2
    let desktopHeight ← ldAt buf (body + 6) 2
    let colorDepth ← ldAt buf (body + 8) 2
    let keyboardLayout ← ldAt buf (body + 12) 4
    let clientBuild ← readIf (blen ≥ 4 + 20) (ldAt buf (body + 16) 4) out.clientBuild
    let clientHostname ← readIf (blen ≥ 4 + 50)
      ((List.range 15).mapM fun i => load buf (body + 20 + i * 2)) out.clientHostname
    let earlyCapabilityFlags ← readIf (blen ≥ 4 + 142) (ldAt buf (body + 140) 2)
      out.earlyCapabilityFlags
    pure { out with
      clientVersion := clientVersion, desktopWidth := desktopWidth
      desktopHeight := desktopHeight, colorDepth := colorDepth
      keyboardLayout := keyboardLayout, clientBuild := clientBuild
      clientHostname := clientHostname, earlyCapabilityFlags := earlyCapabilityFlags }
  else pure out

/-- `RDP_CS_SECURITY`. -/
def mcsSecurity (buf : Bytes) (body blen : Nat) (out : McsConnectInitial) :
    Checked McsConnectInitial :=
  if blen ≥ 4 + 8 then do
    let encryptionMethods ← ldAt buf body 4
    let extEncryptionMethods ← ldAt buf (body + 4) 4
    pure { out with
      encryptionMethods := encryptionMethods, extEncryptionMethods := extEncryptionMethods }
  else pure out

/-- `RDP_CS_CLUSTER`. -/
def mcsCluster (buf : Bytes) (body blen : Nat) (out : McsConnectInitial) :
    Checked McsConnectInitial :=
  if blen ≥ 4 + 8 then do
    let clusterFlags ← ldAt buf body 4
    let redirectedSessionId ← ldAt buf (body + 4) 4
    pure { out with clusterFlags := clusterFlags, redirectedSessionId := redirectedSessionId }
  else pure out

def mcsChannel (buf : Bytes) (off : Nat) : Checked McsChannelDef :=
  match fetched : Slice.fetch ⟨off, 8⟩ buf with
  | .ok name => do
    let options ← ldAt buf (off + 8) 4
    pure ⟨name, by
      obtain ⟨inside, rfl⟩ := Slice.fetch_eq_ok.1 fetched
      exact Slice.length_octets inside, options⟩
  | .error failure => .error failure

/-- `RDP_CS_NET`. -/
def mcsNet (buf : Bytes) (body blen : Nat) (out : McsConnectInitial) :
    Checked McsConnectInitial :=
  if blen ≥ 4 + 4 then do
    let cnt ← ldAt buf body 4
    refuse (cnt > Mcs.maxChannels)
    refuse (blen < 4 + 4 + cnt * 12)
    let defs ← (List.range cnt).mapM fun i => mcsChannel buf (body + 4 + i * 12)
    if bounded : defs.length ≤ Mcs.maxChannels then
      pure { out with channels := ⟨defs, bounded⟩ }
    else .error .fault
  else pure out

def mcsMonitor (buf : Bytes) (off : Nat) : Checked McsMonitor := do
  let left ← ldSignedAt buf off
  let top ← ldSignedAt buf (off + 4)
  let right ← ldSignedAt buf (off + 8)
  let bottom ← ldSignedAt buf (off + 12)
  let flags ← ldAt buf (off + 16) 4
  pure ⟨left, top, right, bottom, flags⟩

/-- `RDP_CS_MONITOR`: as many monitors as the block holds. -/
def mcsMonitors (buf : Bytes) (body blen : Nat) (out : McsConnectInitial) :
    Checked McsConnectInitial :=
  if blen < 4 + 8 then pure out
  else do
    let nm ← ldAt buf (body + 4) 4
    let held := (List.range (min nm Mcs.maxMonitors)).takeWhile fun mi =>
      decide (8 + mi * 20 + 20 ≤ blen - 4)
    let monitors ← held.mapM fun mi => mcsMonitor buf (body + 8 + mi * 20)
    pure { out with monitors := monitors }

def mcsBlock (buf : Bytes) (btype body blen : Nat) (out : McsConnectInitial) :
    Checked McsConnectInitial :=
  if btype = Mcs.csCore then mcsCore buf body blen out
  else if btype = Mcs.csSecurity then mcsSecurity buf body blen out
  else if btype = Mcs.csNet then mcsNet buf body blen out
  else if btype = Mcs.csCluster then mcsCluster buf body blen out
  else if btype = Mcs.csMonitor then mcsMonitors buf body blen out
  else if btype = Mcs.csMcsMsgchannel then pure { out with hasMsgchannel := true }
  else pure out

/-- The blocks from `udOff` on. A block takes four octets at least, so that a round for each
octet is enough. -/
def mcsBlocks (buf : Bytes) : (rounds udOff : Nat) → McsConnectInitial →
    Checked McsConnectInitial
  | 0, _, out => pure out
  | rounds + 1, udOff, out =>
    if udOff + 4 ≤ buf.length then do
      let btype ← ldAt buf udOff 2
      let blen ← ldAt buf (udOff + 2) 2
      refuse (blen < 4 ∨ blen > buf.length - udOff)
      let out ← mcsBlock buf btype (udOff + 4) blen out
      mcsBlocks buf rounds (udOff + blen) out
    else pure out

def rdpMcsParseConnectInitial (p : Bytes) : Checked McsConnectInitial := do
  let (userData, udOff) ← mcsUserData p
  mcsBlocks userData userData.length udOff {}

end RdpServer
