import RdpServer.Daemon.GfxProxy

/-!
# Progressive frames and the surface

A progressive frame declares the rectangle that the encoder was given. The surface has the
desktop's size. So a frame captured before the desktop shrank, which covers the smaller desktop
and more, is sent beyond the surface, and no other is (`inside_surface_iff`).
-/

namespace RdpServer.Daemon

/-- The rectangles of the frames that are sent, each with the surface created last before it. -/
def sentRects (surface : Option (UInt16 × UInt16)) :
    List GfxAct → List (Option (UInt16 × UInt16) × (UInt16 × UInt16))
  | [] => []
  | .createSurface w h :: rest => sentRects (some (w, h)) rest
  | .encode w h _ :: .frame _ :: rest => (surface, (w, h)) :: sentRects surface rest
  | _ :: rest => sentRects surface rest

def surfaceAfter (surface : Option (UInt16 × UInt16)) : List GfxAct → Option (UInt16 × UInt16)
  | [] => surface
  | .createSurface w h :: rest => surfaceAfter (some (w, h)) rest
  | _ :: rest => surfaceAfter surface rest

/-- The worker, with the surface created last on the graphics channel. -/
structure SurfaceTrace where
  proxy : GfxProxy
  surface : Option (UInt16 × UInt16) := none

namespace SurfaceTrace

def step (t : SurfaceTrace) (event : GfxEvent) : SurfaceTrace where
  proxy := (t.proxy.step event).1
  surface := surfaceAfter t.surface (t.proxy.step event).2

/-- Only the progressive encoder is open. -/
def progressive (t : SurfaceTrace) : Bool := t.proxy.prog && !t.proxy.h264 && !t.proxy.avc444

def Inside (sent : Option (UInt16 × UInt16) × (UInt16 × UInt16)) : Prop :=
  sent.1.any (fun surface => sent.2.1 ≤ surface.1 && sent.2.2 ≤ surface.2) = true

/-- Every progressive frame that a step sends declares a rectangle within the surface. -/
def SendsInside (t : SurfaceTrace) (event : GfxEvent) : Prop :=
  t.progressive = true → ∀ sent ∈ sentRects t.surface (t.proxy.step event).2, Inside sent

instance : DecidablePred Inside := fun _ => inferInstanceAs (Decidable ((_ : Bool) = true))

instance (t : SurfaceTrace) (event : GfxEvent) : Decidable (t.SendsInside event) :=
  let := List.decidableBAll Inside (sentRects t.surface (t.proxy.step event).2)
  inferInstanceAs (Decidable (_ → _))

/-- A progressive frame is made of a frame of the session that is larger than the desktop. -/
def SendsLarger (t : SurfaceTrace) : GfxEvent → Prop
  | .frame frame outBytes encoded =>
    t.progressive = true ∧ t.proxy.drops frame outBytes = false ∧
      (t.proxy.active && t.proxy.encodes && t.proxy.onChannel) = true ∧
      t.proxy.flow.maySendFrame = true ∧ encoded.isSome = true ∧ t.proxy.isFull frame = true ∧
      (t.proxy.desktopW < frame.w ∨ t.proxy.desktopH < frame.h)
  | _ => False

/-- A surface that is there has the desktop's size. -/
def Fitted (t : SurfaceTrace) : Prop :=
  t.proxy.surfaceCreated = true → t.surface = some (t.proxy.desktopW, t.proxy.desktopH)

variable {t : SurfaceTrace}

section

variable (fitted : t.Fitted)
include fitted

theorem Fitted.prepared {surface : List GfxAct} (prepared : t.proxy.Prepared surface)
    (acts : List GfxAct) :
    surfaceAfter t.surface (surface ++ acts) =
        surfaceAfter (some (t.proxy.desktopW, t.proxy.desktopH)) acts ∧
      sentRects t.surface (surface ++ acts) =
        sentRects (some (t.proxy.desktopW, t.proxy.desktopH)) acts := by
  rcases prepared with ⟨created, rfl⟩ | rfl
  · rw [fitted created]
    exact ⟨rfl, rfl⟩
  · exact ⟨rfl, rfl⟩

variable {result : GfxProxy × List GfxAct}

theorem Fitted.dynvc {dynvc : DynvcState}
    (turn : DynvcTurn { t.proxy with dynvc := dynvc } result) :
    Fitted ⟨result.1, surfaceAfter t.surface result.2⟩ ∧ sentRects t.surface result.2 = [] := by
  cases turn with
  | resized avc444 different =>
    refine ⟨?_, rfl⟩
    exact nofun
  | _ => exact ⟨fitted, rfl⟩

/-- What becomes of a picture: a frame is sent in the size it was encoded in, or none is. -/
theorem Fitted.frame {picture : List GfxAct} {size : Option Nat}
    (turn : FrameTurn t.proxy picture size result)
    (pictures : picture = [] ∨ ∃ w h octets, picture = [.encode w h octets]) :
    Fitted ⟨result.1, surfaceAfter t.surface result.2⟩ ∧ sentRects t.surface result.2 =
        if t.proxy.flow.maySendFrame && size.isSome then
          sentRects (some (t.proxy.desktopW, t.proxy.desktopH)) (picture ++ [.frame 0])
        else [] := by
  cases turn with
  | withheld held prepared =>
    obtain ⟨after, rects⟩ := fitted.prepared prepared [.withhold]
    rw [held]
    exact ⟨fun _ => after, rects⟩
  | unencoded passes prepared =>
    obtain ⟨after, rects⟩ := fitted.prepared prepared picture
    rw [passes]
    rcases pictures with rfl | ⟨w, h, octets, rfl⟩
    all_goals exact ⟨fun _ => after, rects⟩
  | sent passes prepared =>
    obtain ⟨after, rects⟩ := fitted.prepared prepared
      (picture ++ [.frame t.proxy.flow.nextFrame.frameId])
    rw [passes]
    rcases pictures with rfl | ⟨w, h, octets, rfl⟩
    all_goals exact ⟨fun _ => after, rects⟩

theorem Fitted.region {frame : Frame} {outBytes : Nat} {encoded : Option Nat}
    (turn : RegionTurn t.proxy frame outBytes encoded result) :
    Fitted ⟨result.1, surfaceAfter t.surface result.2⟩ ∧
      ((t.progressive = true → ∀ sent ∈ sentRects t.surface result.2, Inside sent) ↔
        ¬ t.SendsLarger (.frame frame outBytes encoded)) := by
  obtain ⟨shadow, composed⟩ := t.proxy.compose_eq frame
  have fitted' : Fitted ⟨t.proxy.compose frame, t.surface⟩ := by
    rw [composed]
    exact fitted
  cases turn with
  | dropped drops =>
    refine ⟨fitted, iff_of_true (fun _ sent member => ?_) ?_⟩
    · cases member
    · rintro ⟨-, kept, -⟩
      exact Bool.false_ne_true (kept.symm.trans drops)
  | bitmaps kept noPipeline =>
    refine ⟨fitted', iff_of_true (fun _ sent member => ?_) ?_⟩
    · cases member
    · rintro ⟨-, -, pipeline, -⟩
      exact Bool.false_ne_true (noPipeline.symm.trans pipeline)
  | pipeline kept isPipeline active turn =>
    obtain ⟨w, h, octets, picture, size⟩ : ∃ w h octets,
        (t.proxy.compose frame).picture frame = .encode w h octets ∧
          (w, h) = if t.proxy.isFull frame then (frame.w, frame.h)
            else (t.proxy.desktopW, t.proxy.desktopH) := by
      rw [composed, GfxProxy.picture]
      change ∃ w h octets, (if t.proxy.isFull frame = true then _ else _) = _ ∧ _
      split_ifs
      · exact ⟨_, _, _, rfl, rfl⟩
      · exact ⟨_, _, _, rfl, rfl⟩
    obtain ⟨after, rects⟩ := fitted'.frame turn (.inr ⟨w, h, octets, by rw [picture]⟩)
    refine ⟨after, ?_⟩
    have flow : (t.proxy.compose frame).flow = t.proxy.flow := by rw [composed]
    have desktop : (t.proxy.compose frame).desktopW = t.proxy.desktopW ∧
        (t.proxy.compose frame).desktopH = t.proxy.desktopH := by
      rw [composed]
      exact ⟨rfl, rfl⟩
    rw [rects, picture]
    simp only [flow, desktop]
    cases passes : t.proxy.flow.maySendFrame && encoded.isSome with
    | false =>
      refine iff_of_true (fun _ sent member => ?_) ?_
      · cases member
      · rintro ⟨-, -, -, may, some, -⟩
        rw [may, some] at passes
        cases passes
    | true =>
      rw [Bool.and_eq_true] at passes
      have inside : Inside (some (t.proxy.desktopW, t.proxy.desktopH), (w, h)) ↔
          w ≤ t.proxy.desktopW ∧ h ≤ t.proxy.desktopH := by
        simp [Inside]
      simp only [↓reduceIte, List.singleton_append, sentRects, List.mem_singleton, forall_eq,
        inside, SendsLarger, kept, isPipeline, passes, true_and]
      cases full : t.proxy.isFull frame with
      | false =>
        rw [full] at size
        cases size
        simp
      | true =>
        rw [full] at size
        cases size
        simp [not_or, UInt16.not_lt]


/-- **Which steps send a progressive frame beyond the surface.** -/
theorem Fitted.step (event : GfxEvent) :
    (t.step event).Fitted ∧ (t.SendsInside event ↔ ¬ t.SendsLarger event) := by
  have quiet (none : sentRects t.surface (t.proxy.step event).2 = []) : t.SendsInside event := by
    intro _ sent member
    rw [none] at member
    cases member
  cases event with
  | dynvc payload opens resizes =>
    obtain ⟨after, none⟩ := fitted.dynvc (t.proxy.onDynvc_turn payload opens resizes)
    exact ⟨after, iff_of_true (quiet none) id⟩
  | suppressOutput suppress => exact ⟨fitted, iff_of_true (quiet rfl) id⟩
  | frame frame outBytes encoded =>
    exact fitted.region (t.proxy.onFrame_turn frame outBytes encoded)
  | h264Frame size =>
    rcases t.proxy.onH264Frame_turn size with ⟨_, nothing⟩ | ⟨_, active, turn⟩
    · have same : t.proxy.step (.h264Frame size) = (t.proxy, []) := nothing
      refine ⟨?_, iff_of_true (quiet (by rw [same]; rfl)) id⟩
      rw [SurfaceTrace.step, same]
      exact fitted
    · obtain ⟨after, rects⟩ := fitted.frame turn (.inl rfl)
      refine ⟨after, iff_of_true (quiet (rects.trans ?_)) id⟩
      split_ifs <;> rfl

end

/-- **Progressive frames stay inside the surface exactly as long as none is made of a frame larger
than the desktop.** -/
theorem inside_surface_iff (p : GfxProxy) (fresh : p.surfaceCreated = false)
    (events : List GfxEvent) :
    Runs.Along step SendsInside ⟨p, none⟩ events ↔
      Runs.Along step (fun t event => ¬ t.SendsLarger event) ⟨p, none⟩ events := by
  refine Runs.along_congr (P := Fitted) (fun t event fitted => (fitted.step event).1)
    (fun t event fitted => (fitted.step event).2) ?_
  intro created
  exact absurd created (by rw [fresh]; decide)

/-- The worker of a desktop of 200 by 201 pixels, before the client says anything. -/
def smallDesktop : SurfaceTrace where
  proxy := { desktopW := 200, desktopH := 201 }

/-- The display control channel is created, and asks for 200 by 200 pixels. -/
def shrinks : List GfxEvent :=
  [dynvcChunk [0x10, 2, 0, 0, 0, 0],
    dynvcChunk ([0x30, 2] ++ List.replicate 12 0 ++ [1, 0, 0, 0] ++ List.replicate 12 0 ++
      [200, 0, 0, 0, 200, 0, 0, 0] ++ List.replicate 20 0)]

/-- A frame of the whole desktop of before. -/
def oldFrame : GfxEvent :=
  .frame { x := 0, y := 0, w := 200, h := 201, pixels := List.replicate 120600 0
           size := List.length_replicate } 0 (some 100)

theorem inside_surface_oldFrame :
    Runs.Along step SendsInside smallDesktop (openInstance ++ [oldFrame]) ↔
      Runs.Along step (fun t event => ¬ t.SendsLarger event) smallDesktop
        (openInstance ++ [oldFrame]) :=
  inside_surface_iff smallDesktop.proxy rfl (openInstance ++ [oldFrame])

/-- **A frame of the old size after a resize** is sent beyond the surface, which has the new size;
before it, it is not. -/
theorem oldFrame_outside :
    Runs.Along step SendsInside smallDesktop (openInstance ++ [oldFrame]) ∧
      ¬ Runs.Along step SendsInside smallDesktop (openInstance ++ shrinks ++ [oldFrame]) := by
  decide +kernel

end SurfaceTrace

end RdpServer.Daemon
