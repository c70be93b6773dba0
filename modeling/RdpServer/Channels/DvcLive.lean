import RdpServer.Channels.DvcReopen

/-!
# Data for open channels only

Each dynamic channel has one place for its id, with −1 for a channel that is not there,
which the server fills when it asks for a channel, before the client has answered. A
history records which ids are open: those that were created and not closed since. A PDU of
data or a close acts for open ids only, under conditions (`acts_for_live_channels`).
-/

namespace RdpServer.Channels

open List

/-- The channel id of a data or close PDU. -/
def DvcEvent.targetId : DvcEvent → Option Nat
  | .received pdu _ => ((Drdynvc.fragmentOf pdu).map Prod.fst).or (Drdynvc.closeOf pdu)
  | _ => none

/-- Whether a close takes an id out of the channel's place. -/
def Dvc.clears : Dvc → Int → Bool
  | gfx, _ => true
  | camenum, id => id > 0
  | camdev, id => id > 0
  | _, _ => false

/-- The id in a channel's place, and whether the server waits for its response. -/
def DvcChannel.place (channel : DvcChannel) : Int × Bool :=
  (channel.channelId, channel.createPending)

namespace Drdynvc

variable {st : Drdynvc} {e : DvcEvent} {id : Nat} {pdu : Bytes} {respCap : Nat}

def places (st : Drdynvc) : List (Int × Bool) :=
  (st.dispChannelId, st.dispCreatePending) :: Dvc.all.map fun c => (st.channel c).place

theorem mem_all (c : Dvc) : c ∈ Dvc.all := by cases c <;> decide

theorem mem_places {p : Int × Bool} : p ∈ st.places ↔
    p = (st.dispChannelId, st.dispCreatePending) ∨ ∃ c, (st.channel c).place = p := by
  rw [places, mem_cons, mem_map]
  exact or_congr_right ⟨fun ⟨c, _, same⟩ => ⟨c, same⟩,
    fun ⟨c, same⟩ => ⟨c, mem_all c, same⟩⟩

/-- A create of the client with this id answers a request of the server. -/
def Awaits (st : Drdynvc) (id : Nat) : Prop := (signed32 id, true) ∈ st.places

instance (st : Drdynvc) (id : Nat) : Decidable (st.Awaits id) :=
  inferInstanceAs (Decidable (_ ∈ _))

/-- The ids that an event creates: a response of success to a request of the server, or a
request of the client with a name, which the server answers with success. -/
def created (st : Drdynvc) : DvcEvent → List Int
  | .received pdu _ => (createOf pdu).toList.flatMap fun (id, rest) =>
    if st.Awaits id ∧ createdOk rest = true ∨ ¬ st.Awaits id ∧ 0 ∈ rest then [signed32 id] else []
  | _ => []

/-- The ids that an event closes. -/
def closed (st : Drdynvc) : DvcEvent → List Int
  | .received pdu _ => (closeOf pdu).toList.map signed32
  | .closeCam => if st.camdev.channelId ≤ 0 then [] else [st.camdev.channelId]
  | _ => []

/-- An event has an effect: the state changes, or the worker is to take data, a resize or
the end of the graphics channel. -/
def Acts (st : Drdynvc) : DvcEvent → Prop
  | .received pdu respCap =>
    (st.handle pdu respCap).1 ≠ st ∨ 0 < (st.handle pdu respCap).2.code
  | e => (st.step e).1 ≠ st

variable {fragment : Fragment}

theorem place_of_handleData
    (acts : (st.handleData id fragment).1 ≠ st ∨ 0 < (st.handleData id fragment).2.code) :
    ∃ p ∈ st.places, p.1 = signed32 id := by
  unfold handleData at acts
  cases search : Dvc.all.find? fun c =>
      signed32 id == (st.channel c).channelId && c.takes (st.channel c).channelId with
  | some c =>
    have found := find?_some search
    rw [Bool.and_eq_true, beq_iff_eq] at found
    exact ⟨_, mem_places.2 (.inr ⟨c, rfl⟩), found.1.symm⟩
  | none =>
    rw [search] at acts
    by_cases disp : signed32 id = st.dispChannelId
    · exact ⟨_, mem_places.2 (.inl rfl), disp.symm⟩
    · simp [disp] at acts

theorem place_of_handleClose
    (acts : (st.handleClose id).1 ≠ st ∨ 0 < (st.handleClose id).2.code) :
    ∃ p ∈ st.places, p.1 = signed32 id := by
  unfold handleClose at acts
  split_ifs at acts with gfx camdev camenum
  · exact ⟨_, mem_places.2 (.inr ⟨.gfx, rfl⟩), gfx.symm⟩
  · exact ⟨_, mem_places.2 (.inr ⟨.camdev, rfl⟩), camdev.2.symm⟩
  · exact ⟨_, mem_places.2 (.inr ⟨.camenum, rfl⟩), camenum.2.symm⟩
  · simp at acts

theorem place_of_acts (target : e.targetId = some id) (acts : st.Acts e) :
    ∃ p ∈ st.places, p.1 = signed32 id := by
  cases e with
  | received pdu respCap => ?_
  | _ => cases target
  unfold Acts at acts
  unfold DvcEvent.targetId at target
  dsimp only at acts target
  have handled := st.handled pdu respCap
  generalize st.handle pdu respCap = result at *
  cases handled with
  | fragment read =>
    rw [read] at target
    cases target
    exact place_of_handleData acts
  | create _ _ _ unread unclosed =>
    rw [unread, unclosed] at target
    cases target
  | close unread read =>
    rw [unread, read] at target
    cases target
    exact place_of_handleClose acts
  | other unread unclosed =>
    rw [unread, unclosed] at target
    cases target

/-- A place after a step is empty, waits for a response, is as it was, or has an id that the
step creates. -/
def Keeps (st after : Drdynvc) (made : List Int) : Prop :=
  ∀ p ∈ after.places, p.1 = -1 ∨ p.2 = true ∨ p ∈ st.places ∨ p.1 ∈ made

variable {made : List Int}

theorem Keeps.refl (st : Drdynvc) : st.Keeps st made := fun _ member => .inr (.inr (.inl member))

theorem Keeps.trans {mid after : Drdynvc} (first : st.Keeps mid made)
    (second : mid.Keeps after made) : st.Keeps after made := by
  intro p member
  rcases second p member with absent | waits | before | new
  · exact .inl absent
  · exact .inr (.inl waits)
  · exact first p before
  · exact .inr (.inr (.inr new))

theorem keeps_disp {disp : Int} {pending : Bool}
    (place : disp = -1 ∨ pending = true ∨ disp ∈ made) :
    st.Keeps { st with dispChannelId := disp, dispCreatePending := pending } made := by
  intro p member
  rcases mem_places.1 member with rfl | other
  · exact place.imp_right (.imp_right .inr)
  · exact .inr (.inr (.inl (mem_places.2 (.inr other))))

theorem keeps_setChannel {channel : DvcChannel} {c : Dvc}
    (place : channel.channelId = -1 ∨ channel.createPending = true ∨
      channel.place = (st.channel c).place ∨ channel.channelId ∈ made) :
    st.Keeps (st.setChannel channel c) made := by
  intro p member
  rcases mem_places.1 member with disp | ⟨d, rfl⟩
  · exact .inr (.inr (.inl (mem_places.2 (.inl (by cases c <;> exact disp)))))
  · by_cases self : d = c
    · rw [self, channel_setChannel_self]
      refine place.imp_right (.imp_right (.imp_left fun same => ?_))
      exact mem_places.2 (.inr ⟨c, same.symm⟩)
    · rw [channel_setChannel_of_ne _ _ self]
      exact .inr (.inr (.inl (mem_places.2 (.inr ⟨d, rfl⟩))))

theorem keeps_handleCreate (hdr : UInt8) (idLen : Nat) (idBytes rest : Bytes) :
    st.Keeps (st.handleCreate hdr id idLen idBytes rest respCap).1
      (if st.Awaits id ∧ createdOk rest = true ∨ ¬ st.Awaits id ∧ 0 ∈ rest then [signed32 id]
        else []) := by
  unfold handleCreate
  by_cases disp : st.dispCreatePending = true ∧ signed32 id = st.dispChannelId
  · have awaits : st.Awaits id := mem_places.2 (.inl (by rw [disp.1, disp.2]))
    rw [if_pos disp]
    by_cases ok : createdOk rest = true
    · rw [if_pos ok, if_pos (.inl ⟨awaits, ok⟩)]
      exact keeps_disp (.inr (.inr (mem_singleton.2 disp.2.symm)))
    · rw [if_neg ok]
      exact keeps_disp (.inl rfl)
  rw [if_neg disp]
  cases search : Dvc.all.find? fun c =>
      (st.channel c).createPending && signed32 id == (st.channel c).channelId with
  | some c =>
    have found := find?_some search
    rw [Bool.and_eq_true, beq_iff_eq] at found
    have awaits : st.Awaits id :=
      mem_places.2 (.inr ⟨c, by rw [DvcChannel.place, found.1, found.2]⟩)
    dsimp only
    by_cases ok : createdOk rest = true
    · rw [if_pos ok, if_pos (.inl ⟨awaits, ok⟩)]
      exact keeps_setChannel (.inr (.inr (.inr (mem_singleton.2 found.2.symm))))
    · rw [if_neg ok]
      exact keeps_setChannel (.inl rfl)
  | none =>
    have unasked : ¬ st.Awaits id := by
      intro awaits
      rcases mem_places.1 awaits with shown | ⟨c, place⟩
      · exact disp ⟨(Prod.mk.inj shown).2.symm, (Prod.mk.inj shown).1⟩
      · refine find?_eq_none.1 search c (mem_all c) ?_
        rw [(Prod.mk.inj place).1, (Prod.mk.inj place).2, beq_self_eq_true]
        rfl
    by_cases ends : 0 ∈ rest
    · have asks : st.Awaits id ∧ createdOk rest = true ∨ ¬ st.Awaits id ∧ 0 ∈ rest :=
        .inr ⟨unasked, ends⟩
      have new : signed32 id ∈ [signed32 id] := mem_singleton_self _
      rw [if_neg (not_not.2 ends), if_pos asks]
      have draws : ∀ mid : Drdynvc, mid.Keeps (if named "GraphicsPipeline" (rest.takeWhile (· != 0))
          then { mid with gfx := { mid.gfx with channelId := signed32 id } } else mid)
          [signed32 id] := by
        intro mid
        split_ifs
        · exact keeps_setChannel (c := .gfx) (.inr (.inr (.inr new)))
        · exact .refl mid
      by_cases shows : named "DisplayControl" (rest.takeWhile (· != 0)) = true
      · simp only [shows]
        exact (keeps_disp (.inr (.inr new))).trans (draws _)
      · simp only [shows]
        exact draws st
    · rw [if_pos ends]
      exact .refl st

theorem keeps_handleData : st.Keeps (st.handleData id fragment).1 made := by
  unfold handleData
  cases Dvc.all.find? fun c =>
      signed32 id == (st.channel c).channelId && c.takes (st.channel c).channelId with
  | some c => exact keeps_setChannel (.inr (.inr (.inl rfl)))
  | none =>
    split_ifs
    · exact .refl st
    · cases fragment <;> exact .refl st

theorem keeps_handleClose : st.Keeps (st.handleClose id).1 made := by
  unfold handleClose
  split_ifs
  · exact keeps_setChannel (c := .gfx) (.inl rfl)
  · exact keeps_setChannel (c := .camdev) (.inl rfl)
  · exact keeps_setChannel (c := .camenum) (.inl rfl)
  · exact .refl st

theorem keeps_step (st : Drdynvc) (e : DvcEvent) : st.Keeps (st.step e).1 (st.created e) := by
  cases e with
  | received pdu respCap =>
    unfold step receive created
    dsimp only
    have handled := st.handled pdu respCap
    generalize st.handle pdu respCap = result at *
    cases handled with
    | fragment => exact keeps_handleData
    | create hdr idLen idBytes _ _ read =>
      simp only [read, Option.toList_some, flatMap_singleton]
      exact keeps_handleCreate hdr idLen idBytes _
    | close => exact keeps_handleClose
    | other => exact fun _ member => .inr (.inr (.inl member))
  | create c name => exact keeps_setChannel (.inr (.inl rfl))
  | createDisp => exact keeps_disp (.inr (.inl rfl))
  | createCam name =>
    unfold step buildCreateCamDevice
    by_cases refused : name.isEmpty = true ∨ name.length > 250 ∨ 0 ∈ name
    · simp only [refused]
      exact .refl st
    · simp only [refused]
      exact keeps_setChannel (c := .camdev) (.inr (.inl rfl))
  | closeCam =>
    unfold step buildCloseCamDevice
    split_ifs
    · exact .refl st
    · exact keeps_setChannel (c := .camdev) (.inl rfl)

/-- If the id is in a place, it is in one only, and a close clears that one. -/
def Clearable (st : Drdynvc) (id : Int) : Prop :=
  st.dispChannelId ≠ id ∧ ∀ c ∈ Dvc.all, (st.channel c).channelId = id → c.clears id = true ∧
    ∀ d ∈ Dvc.all, (st.channel d).channelId = id → d = c

instance (st : Drdynvc) (id : Int) : Decidable (st.Clearable id) :=
  inferInstanceAs (Decidable (_ ∧ ∀ c ∈ Dvc.all, _ → _ ∧ ∀ d ∈ Dvc.all, _))

theorem Clearable.setChannel {id : Int} (clearable : st.Clearable id) {c : Dvc}
    (held : (st.channel c).channelId = id) {channel : DvcChannel}
    (empty : channel.channelId = -1) :
    ∀ p ∈ (st.setChannel channel c).places, p.1 = -1 ∨ p.1 ≠ id := by
  intro p member
  rcases mem_places.1 member with disp | ⟨d, rfl⟩
  · refine .inr ?_
    rw [disp]
    cases c <;> exact clearable.1
  · by_cases self : d = c
    · rw [self, channel_setChannel_self]
      exact .inl empty
    · rw [channel_setChannel_of_ne _ _ self]
      exact .inr fun same =>
        self ((clearable.2 c (mem_all c) held).2 d (mem_all d) same)

theorem Clearable.handleClose (clearable : st.Clearable (signed32 id)) :
    ∀ p ∈ (st.handleClose id).1.places, p.1 = -1 ∨ p.1 ≠ signed32 id := by
  unfold Drdynvc.handleClose
  split_ifs with gfx camdev camenum
  · exact clearable.setChannel (c := .gfx) gfx.symm rfl
  · exact clearable.setChannel (c := .camdev) camdev.2.symm rfl
  · exact clearable.setChannel (c := .camenum) camenum.2.symm rfl
  · intro p member
    refine .inr fun same => ?_
    rcases mem_places.1 member with rfl | ⟨c, rfl⟩
    · exact clearable.1 same
    · have clears := (clearable.2 c (mem_all c) same).1
      cases c with
      | gfx => exact gfx same.symm
      | audioin | rdpei => cases clears
      | camenum =>
        exact camenum ⟨lt_of_lt_of_eq (of_decide_eq_true clears) same.symm, same.symm⟩
      | camdev =>
        exact camdev ⟨lt_of_lt_of_eq (of_decide_eq_true clears) same.symm, same.symm⟩

theorem closeOf_of_fragmentOf (read : fragmentOf pdu = some (id, fragment)) :
    closeOf pdu = none := by
  cases pdu with
  | nil => rfl
  | cons hdr body =>
    refine if_neg fun closes => ?_
    simp [fragmentOf, closes] at read

/-- What an event closes is in no place after it. -/
theorem closed_step (clearable : ∀ id ∈ st.closed e, st.Clearable id) :
    ∀ p ∈ (st.step e).1.places, p.1 = -1 ∨ p.1 ∉ st.closed e := by
  cases e with
  | received pdu respCap =>
    unfold step receive
    unfold closed at clearable ⊢
    dsimp only at clearable ⊢
    have handled := st.handled pdu respCap
    generalize st.handle pdu respCap = result at *
    cases handled with
    | close _ read =>
      rw [read] at clearable ⊢
      exact fun p member => ((clearable _ (mem_singleton_self _)).handleClose p member).imp_right
        fun other closes => other (mem_singleton.1 closes)
    | fragment read =>
      rw [closeOf_of_fragmentOf read]
      exact fun _ _ => .inr not_mem_nil
    | create _ _ _ _ unclosed | other _ unclosed =>
      rw [unclosed]
      exact fun _ _ => .inr not_mem_nil
  | closeCam =>
    unfold step buildCloseCamDevice
    unfold closed at clearable ⊢
    split_ifs at clearable ⊢
    · exact fun _ _ => .inr not_mem_nil
    · exact fun p member => ((clearable _ (mem_singleton_self _)).setChannel (c := .camdev) rfl rfl
        p member).imp_right fun other closes => other (mem_singleton.1 closes)
  | create | createDisp | createCam => exact fun _ _ => .inr not_mem_nil

end Drdynvc

/-- The channels, and the ids that are open. -/
structure DvcLive where
  st : Drdynvc := {}
  live : List Int := []

namespace DvcLive

variable {t : DvcLive} {e : DvcEvent}

def step (t : DvcLive) (e : DvcEvent) : DvcLive :=
  { st := (t.st.step e).1
    live := (t.live ++ t.st.created e).filter fun id => id ∉ t.st.closed e }

/-- A data or close PDU carries neither the id that stands for an absent channel nor one that
the server waits for, and each id that is closed is where a close clears it. -/
def Clears (t : DvcLive) (e : DvcEvent) : Prop :=
  (∀ id ∈ e.targetId.toList, id ≠ 0xFFFFFFFF ∧ ¬ t.st.Awaits id) ∧
    ∀ id ∈ t.st.closed e, t.st.Clearable id

instance (t : DvcLive) (e : DvcEvent) : Decidable (t.Clears e) :=
  inferInstanceAs (Decidable ((∀ id ∈ _, _) ∧ ∀ id ∈ _, _))

/-- A data or close PDU acts only if its id is open. -/
def ActsLive (t : DvcLive) (e : DvcEvent) : Prop :=
  ∀ id, e.targetId = some id → t.st.Acts e → signed32 id ∈ t.live

/-- Every place is empty, waits for a response or has an id that is open. -/
def Covered (t : DvcLive) : Prop := ∀ p ∈ t.st.places, p.1 = -1 ∨ p.2 = true ∨ p.1 ∈ t.live

theorem step_covered (clears : t.Clears e) (covered : t.Covered) : (t.step e).Covered := by
  intro p member
  rcases Drdynvc.closed_step clears.2 p member with absent | kept
  · exact .inl absent
  have live {id : Int} (known : id ∈ t.live ++ t.st.created e) (kept : id ∉ t.st.closed e) :
      id ∈ (t.step e).live := mem_filter.2 ⟨known, decide_eq_true kept⟩
  rcases t.st.keeps_step e p member with absent | waits | before | new
  · exact .inl absent
  · exact .inr (.inl waits)
  · exact (covered p before).imp_right (.imp_right fun known =>
      live (mem_append_left _ known) kept)
  · exact .inr (.inr (live (mem_append_right _ new) kept))

theorem signed32_eq_neg_one {id : Nat} (absent : signed32 id = -1) : id = 0xFFFFFFFF := by
  unfold signed32 at absent
  omega

/-- **Data reaches open channels only.** In every history in which no data or close PDU
carries 0xFFFFFFFF or the id of a request that is not answered, and each id that is closed is
in one place that a close clears, such a PDU changes the state, delivers data, resizes the
screen or ends the graphics channel only if its id was created and not closed since. -/
theorem acts_for_live_channels (events : List DvcEvent)
    (clears : Runs.Along step Clears {} events) : Runs.Along step ActsLive {} events := by
  refine clears.entails (P := Covered) ?_ (by unfold Covered; decide)
  intro t e clears covered
  refine ⟨step_covered clears covered, ?_⟩
  intro id target acts
  obtain ⟨present, answered⟩ := clears.1 id (by rw [target]; exact mem_singleton_self _)
  obtain ⟨⟨place, waits⟩, member, rfl⟩ := Drdynvc.place_of_acts target acts
  rcases covered _ member with absent | pending | live
  · exact absurd (signed32_eq_neg_one absent) present
  · cases pending
    exact absurd member answered
  · exact live

/-- The audio input and the camera are opened and used, and the camera is closed. -/
def audioAndCamera : List DvcEvent :=
  [.create .audioin "AUDIO_INPUT", .received [0x10, 3, 0, 0, 0, 0] 64,
    .createCam [0x63], .received [0x10, 6, 0, 0, 0, 0] 64, .received [0x30, 3, 7] 64,
    .received [0x30, 6, 9] 64, .received [0x40, 6] 64, .received [0x30, 6, 9] 64]

theorem acts_for_live_channels_audio :
    Runs.Along step Clears {} audioAndCamera ∧ Runs.Along step ActsLive {} audioAndCamera :=
  ⟨by decide, acts_for_live_channels _ (by decide)⟩

/-- A close with the id 0xFFFFFFFF ends a graphics channel that was never there; the audio
input takes data before its channel is there, and after it was closed. -/
theorem absent_channel_acts :
    ¬ Runs.Along step ActsLive {} [.received [0x42, 0xFF, 0xFF, 0xFF, 0xFF] 64] ∧
    ¬ Runs.Along step ActsLive {} [.create .audioin "AUDIO_INPUT", .received [0x30, 3, 7] 64] ∧
    ¬ Runs.Along step ActsLive {} [.create .audioin "AUDIO_INPUT",
      .received [0x10, 3, 0, 0, 0, 0] 64, .received [0x40, 3] 64, .received [0x30, 3, 7] 64] :=
  ⟨fun along => absurd (along.1 0xFFFFFFFF rfl (.inr (by decide))) (by decide),
    fun along => absurd (along.2.1 3 rfl (.inr (by decide))) (by decide),
    fun along => absurd (along.2.2.2.1 3 rfl (.inr (by decide))) (by decide)⟩

end DvcLive

end RdpServer.Channels
