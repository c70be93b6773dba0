import RdpServer.Channels.DvcIsolation
import RdpServer.Lib.Runs

/-!
# Dynamic channels that are opened again

The reassembly of a channel is kept per role, not per instance, and neither a close
nor a create touches it. Each byte of a PDU that is delivered is traced to the event that
brought it: none is from before the creation of the channel if nothing was half received then
(`reopened_starts_clean`).
-/

namespace RdpServer.Channels

open Bytes List

/-- What happens to the dynamic channels: a PDU of the client, or a request of the
server. -/
inductive DvcEvent where
  | received (pdu : Bytes) (respCap : Nat)
  | create (c : Dvc) (name : String)
  | createDisp
  | createCam (name : Bytes)
  | closeCam
  deriving DecidableEq

namespace Drdynvc

variable {st after : Drdynvc} {c d : Dvc} {pdu : Bytes} {respCap : Nat}

/-- A run of the server's side: the state after an event, and what it delivers. -/
def step (st : Drdynvc) : DvcEvent → Drdynvc × List (Dvc × Bytes)
  | .received pdu respCap => st.receive respCap pdu
  | .create c name => ((st.buildCreate c name).1, [])
  | .createDisp => (st.buildCreateDisp.1, [])
  | .createCam name => (((st.buildCreateCamDevice name).map Prod.fst).getD st, [])
  | .closeCam => ((st.buildCloseCamDevice.map Prod.fst).getD st, [])

def fragmentOf : Bytes → Option (Nat × Fragment)
  | [] => none
  | hdr :: body =>
    if hdr.toNat / 16 = 3 then
      (readChannelId body (hdr.toNat % 4)).map fun (id, idLen) => (id, .data (body.drop idLen))
    else if hdr.toNat / 16 = 2 then
      (readChannelId body (hdr.toNat % 4)).bind fun (id, idLen) =>
        (readTotalLen (body.drop idLen) (hdr.toNat / 4 % 4)).map fun (totalLen, skip) =>
          (id, .dataFirst totalLen ((body.drop idLen).drop skip))
    else none

def targetOf (st : Drdynvc) (pdu : Bytes) : Option (Dvc × Fragment) :=
  (fragmentOf pdu).bind fun (id, fragment) =>
    (Dvc.all.find? fun c =>
      signed32 id == (st.channel c).channelId && c.takes (st.channel c).channelId).map
        fun c => (c, fragment)

def closeOf : Bytes → Option Nat
  | [] => none
  | hdr :: body =>
    if hdr.toNat / 16 = 4 then (readChannelId body (hdr.toNat % 4)).map Prod.fst else none

def createOf : Bytes → Option (Nat × Bytes)
  | [] => none
  | hdr :: body =>
    if hdr.toNat / 16 = 1 then
      (readChannelId body (hdr.toNat % 4)).map fun (id, idLen) => (id, body.drop idLen)
    else none

/-- What the handler does about a PDU, by the kind of the PDU. -/
inductive Handled (st : Drdynvc) (pdu : Bytes) (respCap : Nat) : Drdynvc × DvcOutcome → Prop
  | fragment {id : Nat} {fragment : Fragment} (read : fragmentOf pdu = some (id, fragment)) :
    Handled st pdu respCap (st.handleData id fragment)
  | create (hdr : UInt8) (idLen : Nat) (idBytes : Bytes) {id : Nat} {rest : Bytes}
    (unread : fragmentOf pdu = none) (unclosed : closeOf pdu = none)
    (read : createOf pdu = some (id, rest)) :
    Handled st pdu respCap (st.handleCreate hdr id idLen idBytes rest respCap)
  | close {id : Nat} (unread : fragmentOf pdu = none) (read : closeOf pdu = some id) :
    Handled st pdu respCap (st.handleClose id)
  | other {caps : Bool} {code : Int} (unread : fragmentOf pdu = none)
    (unclosed : closeOf pdu = none) (silent : DvcOutcome.delivered { code } = []) :
    Handled st pdu respCap ({ st with capsExchanged := caps }, { code })

theorem handled (st : Drdynvc) (pdu : Bytes) (respCap : Nat) :
    Handled st pdu respCap (st.handle pdu respCap) := by
  cases pdu with
  | nil => exact .other rfl rfl rfl
  | cons hdr body =>
    unfold handle
    dsimp only
    by_cases caps : hdr.toNat / 16 = 5
    · rw [if_pos caps]
      exact .other (by simp [fragmentOf, caps]) (by simp [closeOf, caps]) rfl
    by_cases creates : hdr.toNat / 16 = 1
    · rw [if_neg caps, if_pos creates]
      have unread : fragmentOf (hdr :: body) = none := by simp [fragmentOf, creates]
      have unclosed : closeOf (hdr :: body) = none := by simp [closeOf, creates]
      cases read : readChannelId body (hdr.toNat % 4) with
      | none => exact .other unread unclosed rfl
      | some found => exact .create _ _ _ unread unclosed (by simp [createOf, creates, read])
    rw [if_neg caps, if_neg creates]
    by_cases isData : hdr.toNat / 16 = 3
    · rw [if_pos isData]
      cases read : readChannelId body (hdr.toNat % 4) with
      | none =>
        exact .other (by simp [fragmentOf, read]) (by simp [closeOf, isData]) rfl
      | some found => exact .fragment (by simp [fragmentOf, isData, read])
    rw [if_neg isData]
    by_cases first : hdr.toNat / 16 = 2
    · rw [if_pos first]
      have unclosed : closeOf (hdr :: body) = none := by simp [closeOf, first]
      cases read : readChannelId body (hdr.toNat % 4) with
      | none => exact .other (by simp [fragmentOf, read]) unclosed rfl
      | some found =>
        cases sized : readTotalLen (body.drop found.2) (hdr.toNat / 4 % 4) with
        | none =>
          simp only [sized]
          exact .other (by simp [fragmentOf, first, read, sized]) unclosed rfl
        | some total =>
          simp only [sized]
          exact .fragment (by simp [fragmentOf, first, read, sized])
    rw [if_neg first]
    have unread : fragmentOf (hdr :: body) = none := by simp [fragmentOf, isData, first]
    by_cases closes : hdr.toNat / 16 = 4
    · rw [if_pos closes]
      cases read : readChannelId body (hdr.toNat % 4) with
      | none => exact .other unread (by simp [closeOf, read]) rfl
      | some found => exact .close unread (by simp [closeOf, closes, read])
    · rw [if_neg closes]
      exact .other unread (by simp [closeOf, closes]) rfl

/-- A step that delivers nothing and leaves the reassembly of all channels alone. -/
structure Calm (st : Drdynvc) (result : Drdynvc × DvcOutcome) : Prop where
  reasm : ∀ c, (result.1.channel c).reasm = (st.channel c).reasm
  silent : result.2.delivered = []

theorem Calm.of_setChannel {channel : DvcChannel} {outcome : DvcOutcome}
    (same : channel.reasm = (st.channel c).reasm) (silent : outcome.delivered = []) :
    Calm st (st.setChannel channel c, outcome) := by
  refine ⟨fun d => ?_, silent⟩
  by_cases self : d = c
  · rw [self, channel_setChannel_self, same]
  · rw [channel_setChannel_of_ne _ _ self]

theorem delivered_createdCode (c : Dvc) : (DvcOutcome.delivered { code := c.createdCode }) =
    [] := by
  cases c <;> rfl

theorem calm_handleCreate (hdr : UInt8) (id idLen : Nat) (idBytes rest : Bytes)
    (respCap : Nat) : Calm st (st.handleCreate hdr id idLen idBytes rest respCap) := by
  unfold handleCreate
  by_cases disp : st.dispCreatePending = true ∧ signed32 id = st.dispChannelId
  · rw [if_pos disp]
    split_ifs <;> exact ⟨fun c => by cases c <;> rfl, rfl⟩
  rw [if_neg disp]
  cases Dvc.all.find? fun c =>
      (st.channel c).createPending && signed32 id == (st.channel c).channelId with
  | some c =>
    dsimp only
    split_ifs
    · exact .of_setChannel rfl (delivered_createdCode c)
    · exact .of_setChannel rfl rfl
  | none =>
    dsimp only
    split_ifs <;> exact ⟨fun c => by cases c <;> rfl, rfl⟩

theorem calm_handleClose (id : Nat) : Calm st (st.handleClose id) := by
  unfold handleClose
  split_ifs <;> exact ⟨fun c => by cases c <;> rfl, rfl⟩

theorem delivered_displayUpdate (data : Bytes) : (displayUpdate data).delivered = [] := by
  unfold displayUpdate
  dsimp only
  split_ifs <;> rfl

variable {result : Drdynvc × DvcOutcome}

theorem Handled.calm (handled : st.Handled pdu respCap result)
    (unread : fragmentOf pdu = none) : Calm st result := by
  cases handled with
  | fragment read => cases unread.symm.trans read
  | create => exact calm_handleCreate _ _ _ _ _ _
  | close => exact calm_handleClose _
  | other _ _ silent => exact ⟨fun c => by cases c <;> rfl, silent⟩

theorem Handled.eq_handleData {id : Nat} {fragment : Fragment}
    (handled : st.Handled pdu respCap result) (read : fragmentOf pdu = some (id, fragment)) :
    result = st.handleData id fragment := by
  cases handled with
  | fragment found =>
    cases read.symm.trans found
    rfl
  | create _ _ _ unread | close unread | other unread => cases unread.symm.trans read

theorem receive_cases (st : Drdynvc) (pdu : Bytes) (respCap : Nat) :
    (st.targetOf pdu = none ∧ (st.receive respCap pdu).2 = [] ∧
      ∀ c, ((st.receive respCap pdu).1.channel c).reasm = (st.channel c).reasm) ∨
    ∃ c fragment, st.targetOf pdu = some (c, fragment) ∧ st.receive respCap pdu =
        (st.setChannel { st.channel c with reasm := ((st.channel c).reasm.accept fragment).1 } c,
          ((st.channel c).reasm.accept fragment).2.map fun pdu => (c, pdu)) := by
  unfold receive targetOf
  cases read : fragmentOf pdu with
  | none =>
    have calm : Calm st (st.handle pdu respCap) := (st.handled pdu respCap).calm read
    exact .inl ⟨rfl, calm.silent, calm.reasm⟩
  | some found =>
    obtain ⟨id, fragment⟩ := found
    rw [(st.handled pdu respCap).eq_handleData read, Option.bind_some]
    unfold handleData
    dsimp only
    cases search : Dvc.all.find? fun c =>
        signed32 id == (st.channel c).channelId && c.takes (st.channel c).channelId with
    | some c => exact .inr ⟨c, fragment, rfl, by rw [Fed.delivered_outcome]; rfl⟩
    | none =>
      refine .inl ⟨rfl, ?_, ?_⟩
      · split_ifs
        · rfl
        · cases fragment <;> exact delivered_displayUpdate _
      · intro c
        split_ifs
        · rfl
        · cases fragment <;> rfl

end Drdynvc

abbrev Traced := Nat × UInt8

/-- The channels with a record of what happened: the number of the next event, for
each channel whether it has been closed and the event that created it again, and
the bytes that are there of the PDU in progress. -/
structure DvcTrace where
  st : Drdynvc := {}
  now : Nat := 0
  closed : Dvc → Bool := fun _ => false
  born : Dvc → Nat := fun _ => 0
  parts : Dvc → List Traced := fun _ => []

namespace DvcTrace

variable {t : DvcTrace} {e : DvcEvent} {c d : Dvc}

def feeds (t : DvcTrace) (e : DvcEvent) (c : Dvc) : Option Fragment :=
  match e with
  | .received pdu _ => (t.st.targetOf pdu).bind fun (d, fragment) =>
    if d = c then some fragment else none
  | _ => none

def closes (t : DvcTrace) (e : DvcEvent) (c : Dvc) : Bool :=
  match e with
  | .received pdu _ =>
    (Drdynvc.closeOf pdu).any fun id => signed32 id == (t.st.channel c).channelId
  | .closeCam => c == .camdev && t.st.buildCloseCamDevice.isSome
  | _ => false

/-- A channel is created: the server asks for it, or the client gives it an id that
it did not have. -/
def creates (t : DvcTrace) (e : DvcEvent) (c : Dvc) : Bool :=
  match e with
  | .received _ _ => (t.st.channel c).channelId == -1 &&
      ((t.st.step e).1.channel c).channelId != -1
  | .create d _ => c == d
  | .createCam _ => c == .camdev
  | _ => false

def reopens (t : DvcTrace) (e : DvcEvent) (c : Dvc) : Bool := t.closed c && t.creates e c

def sources (t : DvcTrace) (c : Dvc) : Fragment → List Traced
  | .dataFirst totalLen data => (data.take totalLen).map fun octet => (t.now, octet)
  | .data data =>
    let reasm := (t.st.channel c).reasm
    if reasm.total = 0 then data.map fun octet => (t.now, octet)
    else t.parts c ++
      (data.take (reasm.total - reasm.buf.length)).map fun octet => (t.now, octet)

def partsAfter (t : DvcTrace) (e : DvcEvent) (c : Dvc) : List Traced :=
  match t.feeds e c with
  | none => t.parts c
  | some fragment =>
    if ((t.st.step e).1.channel c).reasm.total = 0 then [] else t.sources c fragment

def step (t : DvcTrace) (e : DvcEvent) : DvcTrace :=
  { st := (t.st.step e).1
    now := t.now + 1
    closed := fun c => (t.closed c || t.closes e c) && !t.creates e c
    born := fun c => if t.reopens e c then t.now else t.born c
    parts := t.partsAfter e }

def ReopensIdle (t : DvcTrace) (e : DvcEvent) : Prop :=
  ∀ c, t.reopens e c = true → (t.st.channel c).reasm.total = 0

/-- A PDU that an event delivers is made of bytes that came after its channel was
last created again. -/
def DeliversOwn (t : DvcTrace) (e : DvcEvent) : Prop :=
  ∀ c pdu, (c, pdu) ∈ (t.st.step e).2 → ∃ fragment, t.feeds e c = some fragment ∧
    (t.sources c fragment).map Prod.snd = pdu ∧
    ∀ traced ∈ t.sources c fragment, t.born c ≤ traced.1

structure Sound (t : DvcTrace) : Prop where
  idle : ∀ c, (t.st.channel c).reasm.total = 0 → t.parts c = []
  bytes : ∀ c, (t.st.channel c).reasm.total ≠ 0 →
    (t.parts c).map Prod.snd = (t.st.channel c).reasm.buf
  own : ∀ c, ∀ traced ∈ t.parts c, t.born c ≤ traced.1
  past : ∀ c, t.born c ≤ t.now

theorem step_cases (t : DvcTrace) (e : DvcEvent) (c : Dvc) :
    (t.feeds e c = none ∧ (∀ pdu, (c, pdu) ∉ (t.st.step e).2) ∧
      ((t.st.step e).1.channel c).reasm = (t.st.channel c).reasm) ∨
    ∃ fragment, t.feeds e c = some fragment ∧ t.creates e c = false ∧
      ((t.st.step e).1.channel c).reasm = ((t.st.channel c).reasm.accept fragment).1 ∧
      ∀ pdu, (c, pdu) ∈ (t.st.step e).2 → pdu ∈ ((t.st.channel c).reasm.accept fragment).2 := by
  cases e with
  | received pdu respCap =>
    unfold feeds creates Drdynvc.step
    dsimp only
    rcases t.st.receive_cases pdu respCap with ⟨unread, silent, same⟩ | ⟨d, fragment, read, feeds⟩
    · refine .inl ⟨?_, ?_, same c⟩
      · rw [unread, Option.bind_none]
      · rw [silent]
        exact fun _ => not_mem_nil
    · rw [read, feeds]
      by_cases self : d = c
      · subst self
        refine .inr ⟨fragment, if_pos rfl, ?_, ?_, ?_⟩
        · rw [Drdynvc.channel_setChannel_self]
          cases id : (t.st.channel d).channelId == -1 with
          | false => rfl
          | true => rw [Bool.true_and, bne, id, Bool.not_true]
        · rw [Drdynvc.channel_setChannel_self]
        · intro pdu member
          obtain ⟨_, delivered, same⟩ := mem_map.1 member
          exact (Prod.mk.inj same).2 ▸ delivered
      · refine .inl ⟨if_neg self, ?_, ?_⟩
        · intro pdu member
          obtain ⟨_, _, same⟩ := mem_map.1 member
          exact self (Prod.mk.inj same).1
        · rw [Drdynvc.channel_setChannel_of_ne _ _ (Ne.symm self)]
  | create d name =>
    refine .inl ⟨rfl, fun _ => not_mem_nil, ?_⟩
    cases d <;> cases c <;> rfl
  | createDisp => exact .inl ⟨rfl, fun _ => not_mem_nil, by cases c <;> rfl⟩
  | createCam | closeCam =>
    refine .inl ⟨rfl, fun _ => not_mem_nil, ?_⟩
    simp only [Drdynvc.step, Drdynvc.buildCreateCamDevice, Drdynvc.buildCloseCamDevice]
    split_ifs <;> cases c <;> rfl

theorem map_traced (now : Nat) (octets : Bytes) :
    (octets.map fun octet => ((now, octet) : Traced)).map Prod.snd = octets := by
  rw [map_map]
  exact map_id octets

theorem Sound.accept_sources (sound : t.Sound) (fragment : Fragment) :
    (((t.st.channel c).reasm.accept fragment).1.total ≠ 0 →
      (t.sources c fragment).map Prod.snd = ((t.st.channel c).reasm.accept fragment).1.buf) ∧
    ∀ pdu ∈ ((t.st.channel c).reasm.accept fragment).2,
      (t.sources c fragment).map Prod.snd = pdu := by
  -- both kinds of fragments end in `collect`, with a buffer of traced bytes
  have collected : ∀ (r : DvcReasm) (data : Bytes), ((r.collect data).1.total ≠ 0 →
        r.buf ++ data.take (r.total - r.buf.length) = (r.collect data).1.buf) ∧
      ∀ pdu ∈ (r.collect data).2.pdus, r.buf ++ data.take (r.total - r.buf.length) = pdu := by
    intro r data
    unfold DvcReasm.collect
    dsimp only
    split_ifs
    · exact ⟨fun _ => rfl, nofun⟩
    · exact ⟨fun some => absurd rfl some, fun _ member => (Fed.eq_of_mem_pdus member).symm⟩
  unfold DvcReasm.accept DvcReasm.feed sources
  cases fragment with
  | dataFirst totalLen data =>
    dsimp only
    rw [map_traced]
    split_ifs
    · exact ⟨fun some => absurd rfl some, nofun⟩
    · exact collected { buf := [], total := totalLen } data
  | data data =>
    dsimp only
    split_ifs with idle
    · rw [map_traced]
      exact ⟨fun some => absurd idle some, fun _ member => (Fed.eq_of_mem_pdus member).symm⟩
    · rw [map_append, map_traced, sound.bytes c idle]
      exact collected (t.st.channel c).reasm data

theorem Sound.sources_own (sound : t.Sound) (fragment : Fragment) :
    ∀ traced ∈ t.sources c fragment, t.born c ≤ traced.1 := by
  have fresh : ∀ (octets : Bytes) (traced : Traced),
      traced ∈ octets.map (fun octet => (t.now, octet)) → t.born c ≤ traced.1 := by
    intro octets traced member
    obtain ⟨_, _, rfl⟩ := mem_map.1 member
    exact sound.past c
  unfold sources
  cases fragment with
  | dataFirst totalLen data => exact fresh _
  | data data =>
    dsimp only
    split_ifs
    · exact fresh _
    · intro traced member
      rcases mem_append.1 member with before | last
      · exact sound.own c traced before
      · exact fresh _ traced last

theorem step_sound (t : DvcTrace) (e : DvcEvent) (idle : t.ReopensIdle e) (sound : t.Sound) :
    (t.step e).Sound := by
  refine ⟨?_, ?_, ?_, ?_⟩
  · intro c done
    show t.partsAfter e c = []
    unfold partsAfter
    rcases t.step_cases e c with ⟨unfed, _, same⟩ | ⟨fragment, fed, _⟩
    · rw [unfed]
      exact sound.idle c (by rw [← same]; exact done)
    · rw [fed]
      exact if_pos done
  · intro c running
    have going : ((t.st.step e).1.channel c).reasm.total ≠ 0 := running
    show (t.partsAfter e c).map Prod.snd = ((t.st.step e).1.channel c).reasm.buf
    unfold partsAfter
    rcases t.step_cases e c with ⟨unfed, _, same⟩ | ⟨fragment, fed, _, feeds, _⟩
    · rw [unfed, same]
      exact sound.bytes c (same ▸ going)
    · rw [fed]
      dsimp only
      rw [if_neg going, feeds]
      exact (sound.accept_sources fragment).1 (feeds ▸ going)
  · intro c traced member
    show (if t.reopens e c = true then t.now else t.born c) ≤ traced.1
    have inside : traced ∈ t.partsAfter e c := member
    unfold partsAfter at inside
    rcases t.step_cases e c with ⟨unfed, _, _⟩ | ⟨fragment, fed, kept, _⟩
    · rw [unfed] at inside
      split_ifs with again
      · rw [sound.idle c (idle c again)] at inside
        exact absurd inside not_mem_nil
      · exact sound.own c traced inside
    · have again : ¬ t.reopens e c = true := by
        rw [reopens, kept, Bool.and_false]
        exact Bool.false_ne_true
      rw [if_neg again]
      rw [fed] at inside
      split_ifs at inside
      · exact absurd inside not_mem_nil
      · exact sound.sources_own fragment traced inside
  · intro c
    show (if t.reopens e c = true then t.now else t.born c) ≤ t.now + 1
    split_ifs
    · exact Nat.le_succ _
    · exact Nat.le_succ_of_le (sound.past c)

theorem deliversOwn (sound : t.Sound) : t.DeliversOwn e := by
  intro c pdu delivered
  rcases t.step_cases e c with ⟨_, silent, _⟩ | ⟨fragment, fed, _, _, hands⟩
  · exact absurd delivered (silent pdu)
  · exact ⟨fragment, fed, (sound.accept_sources fragment).2 pdu (hands pdu delivered),
      sound.sources_own fragment⟩

/-- **A channel that is opened again starts clean.** In every run in which nothing was
half received on a channel when it was created again, each PDU that is delivered
on it later is made of bytes that came after that. -/
theorem reopened_starts_clean (events : List DvcEvent)
    (idle : Runs.Along step ReopensIdle {} events) : Runs.Along step DeliversOwn {} events := by
  refine idle.entails (P := Sound) ?_ ⟨fun _ _ => rfl, ?_, ?_, fun _ => le_rfl⟩
  · exact fun t e meets sound => ⟨step_sound t e meets sound, deliversOwn sound⟩
  · exact fun c running => absurd (by cases c <;> rfl) running
  · exact fun _ _ member => absurd member not_mem_nil

instance (t : DvcTrace) (e : DvcEvent) : Decidable (t.ReopensIdle e) :=
  decidable_of_iff (∀ c ∈ Dvc.all, t.reopens e c = true → (t.st.channel c).reasm.total = 0)
    ⟨fun all c => all c (by cases c <;> decide), fun all c _ => all c⟩

/-- The camera channel is created, and gets a fragment; it is closed by the client and
created again. -/
def camAgain (first : Fragment) : List DvcEvent :=
  [.createCam [0x41], .received [0x10, 6, 0, 0, 0, 0] 64,
   .received ((⟨0, 0, first⟩ : Packet).encode 6) 64, .received [0x40, 6] 64,
   .createCam [0x41], .received [0x10, 6, 0, 0, 0, 0] 64]

def camData : DvcEvent := .received ((⟨0, 0, .data [3, 4]⟩ : Packet).encode 6) 64

theorem reopened_starts_clean_whole :
    Runs.Along step ReopensIdle {} (camAgain (.data [1, 2]) ++ [camData]) ∧
      Runs.Along step DeliversOwn {} (camAgain (.data [1, 2]) ++ [camData]) :=
  ⟨by decide, reopened_starts_clean _ (by decide)⟩

/-- A PDU that was half received when the channel was closed is completed by the data
that comes after the channel was created again: its first bytes came with event 2,
the creation is event 4. -/
theorem half_pdu_survives_close :
    ((camAgain (.dataFirst 4 [1, 2])).foldl step {}).born .camdev = 4 ∧
    ((camAgain (.dataFirst 4 [1, 2])).foldl step {}).parts .camdev = [(2, 1), (2, 2)] ∧
    (((camAgain (.dataFirst 4 [1, 2])).foldl step {}).st.step camData).2 =
      [(.camdev, [1, 2, 3, 4])] := by
  decide

end DvcTrace

end RdpServer.Channels
