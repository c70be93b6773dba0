import Mathlib.Logic.Function.Iterate

/-!
# Framing a stream

A framer looks at the front of a stream and says that it needs more, that the
stream is malformed there, or that an item of some length stands there. Once it
has decided, what follows does not change its mind, and an item is never empty.
A receiver that frames what has arrived so far, in any steps, keeps the framing of the stream
(`Receiver.Frames`).
-/

namespace Framing

open List

inductive Verdict (κ : Type) where
  | more
  | malformed
  | item (kind : κ) (length : Nat)
  deriving DecidableEq

structure Framer (α κ : Type) where
  verdict : List α → Verdict κ
  stable : ∀ front rest, verdict front ≠ .more → verdict (front ++ rest) = verdict front
  proper : ∀ front kind length, verdict front = .item kind length →
    0 < length ∧ length ≤ front.length

structure Framed (α κ : Type) where
  items : List (κ × List α)
  malformed : Option Nat
  deriving DecidableEq

variable {α κ : Type}

/-- The framing of a stream that starts with `items` in `length` octets. -/
def Framed.after (rest : Framed α κ) (items : List (κ × List α)) (length : Nat) : Framed α κ :=
  ⟨items ++ rest.items, rest.malformed.map (length + ·)⟩

@[simp] theorem Framed.after_zero (rest : Framed α κ) : rest.after [] 0 = rest := by
  simp [Framed.after]

theorem Framed.after_after (rest : Framed α κ) (first second : List (κ × List α))
    (front back : Nat) :
    (rest.after second back).after first front = rest.after (first ++ second) (front + back) := by
  simp only [Framed.after, append_assoc, Option.map_map]
  congr 1
  apply congrArg (Option.map · rest.malformed)
  funext position
  exact (Nat.add_assoc front back position).symm

/-- The items that are kept of one that was framed: none if it is too long. -/
def kept (limit : Nat) (kind : κ) (content : List α) : List (κ × List α) :=
  if content.length > limit then [] else [(kind, content)]

variable (F : Framer α κ) (limit : Nat) {stream : List α}

def frameWithin : Nat → List α → Framed α κ
  | 0, _ => ⟨[], none⟩
  | count + 1, stream =>
    match F.verdict stream with
    | .more => ⟨[], none⟩
    | .malformed => ⟨[], some 0⟩
    | .item kind length =>
      (frameWithin count (stream.drop length)).after (kept limit kind (stream.take length)) length

def frame (stream : List α) : Framed α κ := frameWithin F limit (stream.length + 1) stream

theorem frameWithin_enough (count : Nat) :
    ∀ {more : Nat} {stream : List α}, stream.length < count → count ≤ more →
      frameWithin F limit more stream = frameWithin F limit count stream := by
  induction count with
  | zero => intro more stream short; exact (Nat.not_lt_zero _ short).elim
  | succ count ih =>
    intro more stream short le
    obtain ⟨left, rfl⟩ : ∃ left, more = left + 1 := ⟨more - 1, by omega⟩
    simp only [frameWithin]
    cases said : F.verdict stream with
    | more => rfl
    | malformed => rfl
    | item kind length =>
      have proper := F.proper stream kind length said
      have shorter : (stream.drop length).length < count := by
        rw [length_drop]
        omega
      dsimp only
      rw [ih shorter (by omega)]

theorem frame_more (said : F.verdict stream = .more) : frame F limit stream = ⟨[], none⟩ := by
  simp only [frame, frameWithin, said]

theorem frame_malformed (said : F.verdict stream = .malformed) :
    frame F limit stream = ⟨[], some 0⟩ := by
  simp only [frame, frameWithin, said]

theorem frame_item {kind : κ} {length : Nat} (said : F.verdict stream = .item kind length) :
    frame F limit stream =
      (frame F limit (stream.drop length)).after (kept limit kind (stream.take length)) length := by
  have proper := F.proper stream kind length said
  have unfolded : frame F limit stream = (frameWithin F limit stream.length
      (stream.drop length)).after (kept limit kind (stream.take length)) length := by
    simp only [frame, frameWithin, said]
  rw [unfolded, frame, frameWithin_enough F limit ((stream.drop length).length + 1)
    (Nat.lt_succ_self _) (by rw [length_drop]; omega)]

/-- A receiver: what it produced, how many octets that took, what it holds, and
whether it met a malformed stream. -/
structure Receiver (α κ : Type) where
  produced : List (κ × List α) := []
  consumed : Nat := 0
  held : List α := []
  stopped : Bool := false

def Receiver.outcome (r : Receiver α κ) : Framed α κ :=
  ⟨r.produced, if r.stopped then some r.consumed else none⟩

/-- The receiver is on its way to the framing of whatever starts with `stream`. -/
def Receiver.Frames (r : Receiver α κ) (stream : List α) : Prop :=
  ∀ future, frame F limit (stream ++ future) =
    if r.stopped then ⟨r.produced, some r.consumed⟩
    else (frame F limit (r.held ++ future)).after r.produced r.consumed

def Receiver.frameStep (r : Receiver α κ) : Receiver α κ :=
  if r.stopped then r
  else
    match F.verdict r.held with
    | .more => r
    | .malformed => { r with stopped := true }
    | .item kind length =>
      { r with
        produced := r.produced ++ kept limit kind (r.held.take length)
        consumed := r.consumed + length
        held := r.held.drop length }

def Receiver.receive (r : Receiver α κ) (chunk : List α) : Receiver α κ :=
  { r with held := r.held ++ chunk }

variable {F limit} {r : Receiver α κ}

theorem frames_start : ({} : Receiver α κ).Frames F limit [] := by
  intro future
  simp

theorem Receiver.Frames.receive (frames : r.Frames F limit stream) (chunk : List α) :
    (r.receive chunk).Frames F limit (stream ++ chunk) := by
  intro future
  have later := frames (chunk ++ future)
  rw [← append_assoc, ← append_assoc] at later
  exact later

theorem Receiver.Frames.frameStep (frames : r.Frames F limit stream) :
    (r.frameStep F limit).Frames F limit stream := by
  intro future
  rw [frames future]
  unfold Receiver.frameStep
  by_cases stopped : r.stopped = true
  · simp [stopped]
  · simp only [stopped, Bool.false_eq_true, ↓reduceIte]
    cases said : F.verdict r.held with
    | more => simp only [stopped, Bool.false_eq_true, ↓reduceIte]
    | malformed =>
      have final := F.stable r.held future (by rw [said]; intro absurd; cases absurd)
      rw [frame_malformed F limit (final.trans said)]
      simp [Framed.after]
    | item kind length =>
      have final := F.stable r.held future (by rw [said]; intro absurd; cases absurd)
      have proper := F.proper r.held kind length said
      rw [frame_item F limit (final.trans said), Framed.after_after,
        drop_append_of_le_length proper.2, take_append_of_le_length proper.2]
      simp

theorem Receiver.Frames.outcome_eq_iff (frames : r.Frames F limit stream) :
    r.outcome = frame F limit stream ↔ r.stopped = true ∨ frame F limit r.held = ⟨[], none⟩ := by
  have now := frames []
  rw [append_nil, append_nil] at now
  rw [now, Receiver.outcome]
  by_cases stopped : r.stopped = true
  · simp [stopped]
  · simp only [stopped, Bool.false_eq_true, ↓reduceIte, false_or, Framed.after, Framed.mk.injEq]
    generalize frame F limit r.held = rest
    obtain ⟨items, malformed⟩ := rest
    simp only [Framed.mk.injEq, self_eq_append_right]
    exact and_congr_right fun _ => by cases malformed <;> simp

theorem Receiver.frameStep_idle (idle : r.stopped = true ∨ F.verdict r.held = .more) :
    r.frameStep F limit = r := by
  unfold Receiver.frameStep
  rcases idle with stopped | said
  · rw [if_pos stopped]
  · by_cases stopped : r.stopped = true
    · rw [if_pos stopped]
    · rw [if_neg stopped, said]

theorem Receiver.frameStep_malformed (going : r.stopped = false)
    (said : F.verdict r.held = .malformed) : r.frameStep F limit = { r with stopped := true } := by
  rw [frameStep, going, if_neg Bool.false_ne_true, said]

theorem Receiver.frameStep_item {kind : κ} {length : Nat} (going : r.stopped = false)
    (said : F.verdict r.held = .item kind length) :
    r.frameStep F limit = { r with
        produced := r.produced ++ kept limit kind (r.held.take length)
        consumed := r.consumed + length
        held := r.held.drop length } := by
  rw [frameStep, going, if_neg Bool.false_ne_true, said]

theorem Receiver.frameStep_drains (steps : Nat) :
    ∀ r : Receiver α κ, r.held.length < steps →
      ((Receiver.frameStep F limit)^[steps] r).stopped = true ∨
        frame F limit ((Receiver.frameStep F limit)^[steps] r).held = ⟨[], none⟩ := by
  induction steps with
  | zero => intro r short; exact (Nat.not_lt_zero _ short).elim
  | succ steps ih =>
    intro r short
    rw [Function.iterate_succ_apply]
    by_cases stopped : r.stopped = true
    · rw [frameStep_idle (.inl stopped), Function.iterate_fixed (frameStep_idle (.inl stopped))]
      exact .inl stopped
    · have going : r.stopped = false := Bool.not_eq_true _ ▸ stopped
      cases said : F.verdict r.held with
      | more =>
        rw [frameStep_idle (.inr said), Function.iterate_fixed (frameStep_idle (.inr said))]
        exact .inr (frame_more F limit said)
      | malformed =>
        rw [frameStep_malformed going said, Function.iterate_fixed (frameStep_idle (.inl rfl))]
        exact .inl rfl
      | item kind length =>
        have proper := F.proper r.held kind length said
        refine ih _ ?_
        rw [frameStep_item going said, length_drop]
        omega

end Framing
