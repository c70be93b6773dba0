import RdpServer.Daemon.GfxProxy

/-!
# Instances of the graphics channel

The client may close the graphics channel and have another one created. The worker then
starts anew with the capabilities, but it keeps its mark that a surface was created and
the counters of the flow control. `channels_initialised` tells when all goes well, and
`second_instance_broken` has two runs that go wrong.
-/

namespace RdpServer.Daemon

open Channels Channels.Rdpgfx History List

def clientCreatesGfx (st : Drdynvc) (pdu : Bytes) : Bool :=
  match pdu with
  | [] => false
  | hdr :: body =>
    if hdr.toNat / 16 = 1 then
      match readChannelId body (hdr.toNat % 4) with
      | none => false
      | some (id, idLen) =>
        let rest := body.drop idLen
        !(st.dispCreatePending && signed32 id == st.dispChannelId) &&
          (Dvc.all.find? fun c =>
            (st.channel c).createPending && signed32 id == (st.channel c).channelId).isNone &&
          rest.contains 0 && Drdynvc.named "GraphicsPipeline" (rest.takeWhile (· != 0))
    else false

/-- The worker asks for a graphics channel, since the capabilities of the dynamic channels
have been exchanged and there is none. -/
def serverCreatesGfx (st : Drdynvc) (pdu : Bytes) : Bool :=
  let handled := st.handle pdu 64
  handled.2.code == 5 && !handled.1.gfx.createPending && handled.1.gfx.channelId < 0

def GfxProxy.opensGfx (p : GfxProxy) : GfxEvent → Bool
  | .dynvc payload _ _ =>
    p.dynvc.enabled && decide (8 ≤ payload.length) &&
      (serverCreatesGfx p.dynvc.dv (payload.drop 8) || clientCreatesGfx p.dynvc.dv (payload.drop 8))
  | _ => false

structure GfxTrace where
  proxy : GfxProxy
  instances : Nat := 0
  log : List (Nat × GfxAct) := []

def GfxTrace.step (t : GfxTrace) (event : GfxEvent) : GfxTrace :=
  let instances := if t.proxy.opensGfx event then t.instances + 1 else t.instances
  { proxy := (t.proxy.step event).1
    instances := instances
    log := t.log ++ (t.proxy.step event).2.map (instances, ·) }

def GfxAct.isFree : GfxAct → Bool
  | frame _ => false
  | withhold => false
  | _ => true

inductive GfxTurn (p p' : GfxProxy) : List GfxAct → Prop
  | quiet {acts : List GfxAct} (free : ∀ act ∈ acts, act.isFree = true)
      (active : p'.active = true → p.active = true)
      (surface : p'.surfaceCreated = true → p.surfaceCreated = true) (flow : p'.flow = p.flow) :
      GfxTurn p p' acts
  | confirms (version flags : UInt32) (active : p.active = false)
      (surface : p'.surfaceCreated = p.surfaceCreated) (flow : p'.flow = p.flow) :
      GfxTurn p p' [.capsConfirm version flags]
  | acks (frameId : UInt32) (active : p'.active = p.active)
      (surface : p'.surfaceCreated = p.surfaceCreated) : GfxTurn p p' [.frameAck frameId]
  | frames {surface acts : List GfxAct} (wasActive : p.active = true)
      (prepared : p.surfaceCreated = true ∧ surface = [] ∨ ∃ w h, surface = surfaceActs w h)
      (frame : (p.flow.maySendFrame = false ∧ acts = [.withhold] ∧ p'.flow = p.flow) ∨
        ∃ picture, (∀ act ∈ picture, act.isFree = true) ∧
          (acts = picture ∧ p'.flow = p.flow ∨
            ∃ frameId size, acts = picture ++ [.frame frameId] ∧
              p'.flow = p.flow.nextFrame.frameSent size)) :
      GfxTurn p p' (surface ++ acts)

variable {acts : List GfxAct}

section Turns

variable {p q p' : GfxProxy} {result : GfxProxy × List GfxAct}

theorem GfxTurn.same (p : GfxProxy) (free : ∀ act ∈ acts, act.isFree = true) :
    GfxTurn p p acts := .quiet free id id rfl

theorem GfxTurn.of_same (active : q.active = p.active)
    (surface : q.surfaceCreated = p.surfaceCreated) (flow : q.flow = p.flow)
    (turn : GfxTurn q p' acts) : GfxTurn p p' acts := by
  cases turn with
  | quiet free isActive isCreated same =>
    exact .quiet free (active ▸ isActive) (surface ▸ isCreated) (same.trans flow)
  | confirms version flags isActive isCreated same =>
    exact .confirms version flags (active ▸ isActive) (isCreated.trans surface) (same.trans flow)
  | acks frameId isActive isCreated =>
    exact .acks frameId (isActive.trans active) (isCreated.trans surface)
  | frames wasActive prepared frame =>
    exact .frames (active ▸ wasActive) (surface ▸ prepared) (flow ▸ frame)

theorem DynvcTurn.gfxTurn (turn : DynvcTurn p result) : GfxTurn p result.1 result.2 := by
  cases turn with
  | nothing => exact .same p nofun
  | closed => exact .quiet nofun nofun id rfl
  | resized avc444 different => exact .quiet nofun id nofun rfl
  | probed h264 avc444 prog inactive => exact .quiet nofun id id rfl
  | confirmed h264 avc444 prog codec version flags inactive =>
    exact .confirms version flags inactive rfl rfl
  | acked queueDepth frameId => exact .acks frameId rfl rfl

theorem FrameTurn.gfxTurn {picture : List GfxAct} {size : Option Nat}
    (turn : FrameTurn p picture size result) (active : p.active = true)
    (free : ∀ act ∈ picture, act.isFree = true) : GfxTurn p result.1 result.2 := by
  have anySize {surface : List GfxAct} (prepared : p.Prepared surface) :
      p.surfaceCreated = true ∧ surface = [] ∨ ∃ w h, surface = surfaceActs w h :=
    prepared.imp_right fun same => ⟨_, _, same⟩
  cases turn with
  | withheld held prepared => exact .frames active (anySize prepared) (.inl ⟨held, rfl, rfl⟩)
  | unencoded passes prepared =>
    exact .frames active (anySize prepared) (.inr ⟨picture, free, .inl ⟨rfl, rfl⟩⟩)
  | @sent _ size passes prepared =>
    exact .frames active (anySize prepared) (.inr ⟨picture, free, .inr ⟨_, size, rfl, rfl⟩⟩)

theorem RegionTurn.gfxTurn {frame : Frame} {outBytes : Nat} {encoded : Option Nat}
    (turn : RegionTurn p frame outBytes encoded result) : GfxTurn p result.1 result.2 := by
  obtain ⟨shadow, composed⟩ := p.compose_eq frame
  have isActive := congrArg GfxProxy.active composed
  have surface := congrArg GfxProxy.surfaceCreated composed
  have flow := congrArg GfxProxy.flow composed
  cases turn with
  | dropped drops => exact .same p nofun
  | bitmaps kept noPipeline =>
    exact .of_same isActive surface flow (.same _ (forall_mem_singleton.2 rfl))
  | pipeline kept isPipeline active turn =>
    refine .of_same isActive surface flow (turn.gfxTurn (isActive.trans active) ?_)
    refine forall_mem_singleton.2 ?_
    rw [GfxProxy.picture]
    split_ifs <;> rfl

/-- **Every step is a turn.** -/
theorem GfxProxy.step_turn (p : GfxProxy) (event : GfxEvent) :
    GfxTurn p (p.step event).1 (p.step event).2 := by
  cases event with
  | dynvc payload opens resizes =>
    refine .of_same (q := { p with dynvc := p.dynvc.dispatch payload }) rfl rfl rfl ?_
    exact (p.onDynvc_turn payload opens resizes).gfxTurn
  | suppressOutput suppress => exact .quiet nofun id id rfl
  | frame frame outBytes encoded => exact (p.onFrame_turn frame outBytes encoded).gfxTurn
  | h264Frame size =>
    change GfxTurn p (p.onH264Frame size).1 (p.onH264Frame size).2
    rcases p.onH264Frame_turn size with ⟨_, nothing⟩ | ⟨_, active, turn⟩
    · rw [nothing]
      exact .same p nofun
    · refine turn.gfxTurn active ?_
      exact nofun

end Turns

/-- An instance is ready: its capabilities have been confirmed, and behind that the graphics
were reset and a surface was created and mapped. -/
def Ready (number : Nat) (log : List (Nat × GfxAct)) : Prop :=
  ∃ version flags w h w' h', [(number, .capsConfirm version flags), (number, .resetGraphics w h),
    (number, .createSurface w' h'), (number, .mapSurface)].Sublist log

def Acknowledged (number : Nat) (log : List (Nat × GfxAct)) : Prop :=
  ∃ frameId, (number, .frameAck frameId) ∈ log

/-- A frame needs an instance that is ready, and to hold one back an acknowledgement. -/
def InOrderOf (before : List (Nat × GfxAct)) : Nat × GfxAct → Prop
  | (number, .frame _) => Ready number before
  | (number, .withhold) => Acknowledged number before
  | _ => True

variable {number : Nat}

variable {log : List (Nat × GfxAct)}

theorem justified_acts (justified : Justified InOrderOf log)
    (free : ∀ act ∈ acts, act.isFree = true) (number : Nat) :
    Justified InOrderOf (log ++ acts.map (number, ·)) := by
  refine justified.append fun before entry member => ?_
  obtain ⟨act, isAct, rfl⟩ := mem_map.1 member
  have isFree := free act isAct
  cases act with
  | frame frameId | withhold => cases isFree
  | _ => exact True.intro

theorem Ready.append (ready : Ready number log) (new : List (Nat × GfxAct)) :
    Ready number (log ++ new) := by
  obtain ⟨version, flags, w, h, w', h', inside⟩ := ready
  exact ⟨version, flags, w, h, w', h', inside.trans (sublist_append_left log new)⟩

theorem Acknowledged.append (acknowledged : Acknowledged number log) (new : List (Nat × GfxAct)) :
    Acknowledged number (log ++ new) :=
  acknowledged.imp fun _ member => mem_append_left new member

/-- What holds on a run that goes well: an active instance has been confirmed, is ready if
the worker thinks so, and is throttled by its own acknowledgements only. -/
structure Sound (t : GfxTrace) : Prop where
  justified : Justified InOrderOf t.log
  confirmed : t.proxy.active = true →
    ∃ version flags, (t.instances, .capsConfirm version flags) ∈ t.log
  ready : t.proxy.active = true → t.proxy.surfaceCreated = true → Ready t.instances t.log
  throttled : t.proxy.active = true → t.proxy.flow.Unthrottled ∨ Acknowledged t.instances t.log

def GfxProxy.confirms (p : GfxProxy) (event : GfxEvent) : Bool :=
  (p.step event).2.any fun act => match act with
    | .capsConfirm _ _ => true
    | _ => false

/-- What a run needs: a new instance begins only when the worker has stopped using the old
one; and when capabilities are confirmed, no surface of an earlier instance is taken for
one of this instance, and no acknowledgement of an earlier one is in force. -/
structure StartsClean (t : GfxTrace) (event : GfxEvent) : Prop where
  opens : t.proxy.opensGfx event = true → t.proxy.active = false
  surface : t.proxy.confirms event = true → t.proxy.surfaceCreated = false
  acks : t.proxy.confirms event = true →
    t.proxy.flow.Unthrottled ∨ Acknowledged (t.step event).instances t.log

/-- A step adds acts to the log, for the same instance if there is one in use. -/
structure Extends (t t' : GfxTrace) (acts : List GfxAct) : Prop where
  log : t'.log = t.log ++ acts.map (t'.instances, ·)
  same : t.proxy.active = true → t'.instances = t.instances

theorem StartsClean.extends {t : GfxTrace} {event : GfxEvent} (clean : StartsClean t event) :
    Extends t (t.step event) (t.proxy.step event).2 := by
  refine ⟨rfl, fun active => if_neg fun opens => ?_⟩
  rw [clean.opens opens] at active
  cases active

section Extends

variable {t t' : GfxTrace}

section

variable (sound : Sound t) (grown : Extends t t' acts) (active : t.proxy.active = true)
include sound grown active

theorem Sound.confirmed_of_extends :
    ∃ version flags, (t'.instances, .capsConfirm version flags) ∈ t'.log := by
  obtain ⟨version, flags, member⟩ := sound.confirmed active
  refine ⟨version, flags, ?_⟩
  rw [grown.log, grown.same active]
  exact mem_append_left _ member

theorem Sound.ready_of_extends (created : t.proxy.surfaceCreated = true) :
    Ready t'.instances t'.log := by
  rw [grown.log, grown.same active]
  exact (sound.ready active created).append _

theorem Sound.throttled_of_extends :
    t.proxy.flow.Unthrottled ∨ Acknowledged t'.instances t'.log := by
  rw [grown.log, grown.same active]
  exact (sound.throttled active).imp_right fun acked => acked.append _

end

variable (sound : Sound t)
include sound

theorem Sound.quiet (grown : Extends t t' acts) (free : ∀ act ∈ acts, act.isFree = true)
    (active : t'.proxy.active = true → t.proxy.active = true)
    (surface : t'.proxy.surfaceCreated = true → t.proxy.surfaceCreated = true)
    (flow : t'.proxy.flow = t.proxy.flow) : Sound t' where
  justified := grown.log ▸ justified_acts sound.justified free _
  confirmed := fun isActive => sound.confirmed_of_extends grown (active isActive)
  ready := fun isActive created =>
    sound.ready_of_extends grown (active isActive) (surface created)
  throttled := fun isActive => flow ▸ sound.throttled_of_extends grown (active isActive)

theorem Sound.confirms {version flags : UInt32} (grown : Extends t t' [.capsConfirm version flags])
    (surface : t'.proxy.surfaceCreated = false)
    (acks : t'.proxy.flow.Unthrottled ∨ Acknowledged t'.instances t.log) : Sound t' where
  justified := grown.log ▸ sound.justified.concat True.intro
  confirmed := fun _ =>
    ⟨version, flags, grown.log ▸ mem_append_right _ (mem_singleton_self _)⟩
  ready := by
    intro _ created
    rw [surface] at created
    cases created
  throttled := fun _ => acks.imp_right fun acked => grown.log ▸ acked.append _

theorem Sound.acks {frameId : UInt32} (grown : Extends t t' [.frameAck frameId])
    (active : t'.proxy.active = t.proxy.active)
    (surface : t'.proxy.surfaceCreated = t.proxy.surfaceCreated) : Sound t' where
  justified := grown.log ▸ sound.justified.concat True.intro
  confirmed := fun isActive => sound.confirmed_of_extends grown (active ▸ isActive)
  ready := fun isActive created => sound.ready_of_extends grown (active ▸ isActive)
    (surface ▸ created)
  throttled := fun _ =>
    .inr ⟨frameId, grown.log ▸ mem_append_right _ (mem_singleton_self _)⟩

theorem Sound.prepared (active : t.proxy.active = true) {surface : List GfxAct}
    (prepared : t.proxy.surfaceCreated = true ∧ surface = [] ∨ ∃ w h, surface = surfaceActs w h) :
    Justified InOrderOf (t.log ++ surface.map (t.instances, ·)) ∧
      Ready t.instances (t.log ++ surface.map (t.instances, ·)) := by
  rcases prepared with ⟨created, rfl⟩ | ⟨w, h, rfl⟩
  · refine ⟨justified_acts sound.justified ?_ _, (sound.ready active created).append _⟩
    exact nofun
  · obtain ⟨version, flags, member⟩ := sound.confirmed active
    refine ⟨justified_acts sound.justified ?_ _, version, flags, w, h, w, h,
      (singleton_sublist.2 member).append (List.Sublist.refl _)⟩
    exact forall_mem_cons.2 ⟨rfl, forall_mem_cons.2 ⟨rfl, forall_mem_singleton.2 rfl⟩⟩

theorem Sound.frames {surface : List GfxAct} (grown : Extends t t' (surface ++ acts))
    (active : t.proxy.active = true)
    (prepared : t.proxy.surfaceCreated = true ∧ surface = [] ∨ ∃ w h, surface = surfaceActs w h)
    (frame : (t.proxy.flow.maySendFrame = false ∧ acts = [.withhold] ∧ t'.proxy.flow =
      t.proxy.flow) ∨ ∃ picture, (∀ act ∈ picture, act.isFree = true) ∧
        (acts = picture ∧ t'.proxy.flow = t.proxy.flow ∨ ∃ frameId size, acts = picture ++
          [.frame frameId] ∧ t'.proxy.flow = t.proxy.flow.nextFrame.frameSent size)) :
    Sound t' := by
  obtain ⟨justified, ready⟩ := sound.prepared active prepared
  have log := grown.log
  rw [grown.same active, map_append, ← append_assoc] at log
  refine ⟨?_, fun _ => sound.confirmed_of_extends grown active, fun _ _ => ?_, fun _ => ?_⟩
  · rw [log]
    rcases frame with ⟨held, rfl, -⟩ | ⟨picture, free, ⟨rfl, -⟩ | ⟨frameId, size, rfl, -⟩⟩
    · refine justified.concat ?_
      rcases sound.throttled active with unthrottled | acked
      · rw [unthrottled.maySendFrame] at held
        cases held
      · exact acked.append _
    · exact justified_acts justified free _
    · rw [map_append, ← append_assoc]
      exact (justified_acts justified free _).concat (ready.append _)
  · rw [grown.same active, log]
    exact ready.append _
  · refine (sound.throttled_of_extends grown active).imp_left fun unthrottled => ?_
    rcases frame with ⟨-, -, flow⟩ | ⟨picture, -, ⟨-, flow⟩ | ⟨frameId, size, -, flow⟩⟩
    · exact flow ▸ unthrottled
    · exact flow ▸ unthrottled
    · exact flow ▸ unthrottled.frameSent size

end Extends

/-- **Every step of a run that goes well.** -/
theorem Sound.step {t : GfxTrace} (sound : Sound t) (event : GfxEvent)
    (clean : StartsClean t event) : Sound (t.step event) := by
  have turn := t.proxy.step_turn event
  have grown := clean.extends
  have surface := clean.surface
  have acks := clean.acks
  unfold GfxProxy.confirms at surface acks
  generalize (t.proxy.step event).2 = acts at *
  cases turn with
  | quiet free active created flow => exact sound.quiet grown free active created flow
  | confirms version flags _ created flow =>
    exact sound.confirms grown (created.trans (surface rfl)) (flow ▸ acks rfl)
  | acks frameId active created => exact sound.acks grown active created
  | frames active prepared frame => exact sound.frames grown active prepared frame

/-- **Each instance is initialised before use**, and only its own acknowledgements hold its
frames back, on every run that starts each instance cleanly. -/
theorem channels_initialised {p : GfxProxy} (begins : p.active = false) {events : List GfxEvent}
    (clean : Runs.Along GfxTrace.step StartsClean { proxy := p } events) :
    (∀ before number frameId after,
      (events.foldl GfxTrace.step { proxy := p }).log = before ++
        (number, .frame frameId) :: after →
        Ready number before) ∧
      ∀ before number after,
        (events.foldl GfxTrace.step { proxy := p }).log = before ++ (number, .withhold) :: after →
          Acknowledged number before := by
  have start : Sound { proxy := p } := by
    refine ⟨justified_nil, ?_, ?_, ?_⟩ <;>
    · intro active
      rw [begins] at active
      cases active
  have sound := clean.invariant (fun _ event ok sound => sound.step event ok) start
  refine ⟨fun before number frameId after split => ?_, fun before number after split => ?_⟩
  · exact sound.justified before (number, .frame frameId) after split
  · exact sound.justified before (number, .withhold) after split

inductive GfxKind where
  | confirm
  | reset
  | create
  | map
  | ack
  | encode
  | frame
  | withhold
  | bitmap
  deriving DecidableEq

def GfxAct.kind : GfxAct → GfxKind
  | capsConfirm _ _ => .confirm
  | resetGraphics _ _ => .reset
  | createSurface _ _ => .create
  | mapSurface => .map
  | frameAck _ => .ack
  | encode _ _ _ => .encode
  | frame _ => .frame
  | withhold => .withhold
  | bitmap _ => .bitmap

def closeInstance : GfxEvent := dynvcChunk [0x40, 1]

def onePixel : GfxEvent :=
  .frame { x := 0, y := 0, w := 1, h := 1, pixels := [9, 9, 9], size := rfl } 0 (some 100)

def kindsOf (events : List GfxEvent) : List (Nat × GfxKind) :=
  (events.foldl GfxTrace.step { proxy := { desktopW := 1, desktopH := 1 } }).log.map fun entry =>
    (entry.1, entry.2.kind)

def secondInUse : List GfxEvent :=
  openInstance ++ closeInstance :: (openInstance ++ [onePixel, ackOf 1, onePixel, onePixel])

/-- The first instance is closed before its first frame; the second one gets two frames, and a
third one is held back. -/
theorem channels_initialised_second :
    kindsOf secondInUse = [(1, .confirm), (2, .confirm), (2, .reset), (2, .create), (2, .map),
        (2, .encode), (2, .frame), (2, .ack), (2, .encode), (2, .frame), (2, .withhold)] ∧
      (∀ before number frameId after, (secondInUse.foldl GfxTrace.step
        { proxy := { desktopW := 1, desktopH := 1 } }).log =
          before ++ (number, .frame frameId) :: after → Ready number before) ∧
      ∀ before number after, (secondInUse.foldl GfxTrace.step
        { proxy := { desktopW := 1, desktopH := 1 } }).log =
          before ++ (number, .withhold) :: after → Acknowledged number before := by
  have clean : Runs.Along GfxTrace.step (fun t event =>
      (t.proxy.opensGfx event = true → t.proxy.active = false) ∧ (t.proxy.confirms event = true →
        t.proxy.surfaceCreated = false ∧ t.proxy.flow.Unthrottled))
      { proxy := { desktopW := 1, desktopH := 1 } } secondInUse := by decide
  exact ⟨by decide, channels_initialised rfl (clean.entails (P := fun _ => True)
    (fun _ _ ok _ => ⟨trivial, ok.1, fun confirms => (ok.2 confirms).1,
      fun confirms => .inl (ok.2 confirms).2⟩) trivial)⟩

/-- **A second instance is not initialised, or never gets a frame**: no surface is created on
it, and when the first one was closed with a frame unacknowledged, its acknowledgements hold
every frame of the second one back. -/
theorem second_instance_broken :
    kindsOf (openInstance ++ onePixel :: closeInstance :: (openInstance ++ [onePixel])) =
        [(1, .confirm), (1, .reset), (1, .create), (1, .map), (1, .encode), (1, .frame),
          (2, .confirm), (2, .encode), (2, .frame)] ∧
      kindsOf (openInstance ++ onePixel :: ackOf 1 :: onePixel :: closeInstance ::
          (openInstance ++ [onePixel])) =
        [(1, .confirm), (1, .reset), (1, .create), (1, .map), (1, .encode), (1, .frame), (1, .ack),
          (1, .encode), (1, .frame), (2, .confirm), (2, .withhold)] := by
  decide

end RdpServer.Daemon
