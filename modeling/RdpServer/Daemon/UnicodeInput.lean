import RdpServer.Common.Utf16

/-!
# Unicode input

A Unicode event of the client carries a UTF-16 code unit. A high surrogate waits in the
context of the worker, over the ends of PDUs too, for the unit that is pressed next. The
session gets the UTF-16 decoding of the pressed units, without the surrogates that stand
alone (`unicode_input_decoded`).
-/

namespace RdpServer.Daemon

open List Option

/-- An event of the type `RDP_FP_INPUT_UNICODE`. -/
structure UnicodeEvent where
  flags : UInt16
  keycode : UInt16
  deriving DecidableEq

/-- `struct proxy_input_ctx`, and the code points that were sent to the session. -/
structure InputCtx where
  pendingHigh : UInt16 := 0
  sent : List Nat := []
  deriving DecidableEq

def UnicodeEvent.press (ev : UnicodeEvent) : Bool := ev.flags &&& 0x01 = 0

/-- `on_input_event`, for a Unicode event. -/
def InputCtx.onInputEvent (ctx : InputCtx) (ev : UnicodeEvent) : InputCtx :=
  let cu := ev.keycode.toNat
  if !ev.press then ctx
  else if isHigh cu then { ctx with pendingHigh := ev.keycode }
  else if isLow cu then
    if ctx.pendingHigh = 0 then ctx
    else { pendingHigh := 0, sent := ctx.sent ++ [pairPoint ctx.pendingHigh.toNat cu] }
  else { pendingHigh := 0, sent := ctx.sent ++ [cu] }

/-- What a unit stands for behind the unit `before`: itself, or the pair that it ends. -/
def decodeUnit (before unit : Nat) : Option Nat :=
  if isHigh unit then none
  else if isLow unit then if isHigh before then some (pairPoint before unit) else none
  else some unit

def decodeUtf16 : Nat → List Nat → List Nat
  | _, [] => []
  | before, unit :: rest => (decodeUnit before unit).toList ++ decodeUtf16 unit rest

def pressedUnits (events : List UnicodeEvent) : List Nat :=
  (events.filter UnicodeEvent.press).map (·.keycode.toNat)

/-- A Unicode scalar value. -/
def IsScalar (c : Nat) : Prop := c < 0x110000 ∧ ¬ isHigh c ∧ ¬ isLow c

theorem isScalar_pairPoint {high low : Nat} (isHi : isHigh high) (isLo : isLow low) :
    IsScalar (pairPoint high low) := by
  rw [isHigh_iff] at isHi
  rw [isLow_iff] at isLo
  rw [IsScalar, isHigh_iff, isLow_iff]
  unfold pairPoint
  omega

theorem isScalar_decodeUtf16 {before : Nat} {units : List Nat} (small : ∀ u ∈ units, u < 0x10000) :
    ∀ c ∈ decodeUtf16 before units, IsScalar c := by
  induction units generalizing before with
  | nil => simp [decodeUtf16]
  | cons unit units ih =>
    rw [forall_mem_cons] at small
    rw [decodeUtf16, forall_mem_append, decodeUnit]
    refine ⟨?_, ih small.2⟩
    split_ifs with notHigh low high
    · simp
    · simpa using isScalar_pairPoint high low
    · simp
    · simpa using ⟨by omega, notHigh, low⟩

variable {ctx : InputCtx} {ev : UnicodeEvent} {before : Nat}

/-- The context behind a unit: only a high surrogate waits. -/
def InputCtx.Behind (ctx : InputCtx) (before : Nat) : Prop :=
  ctx.pendingHigh.toNat = if isHigh before then before else 0

theorem InputCtx.Behind.onInputEvent (behind : ctx.Behind before) (press : ev.press = true) :
    (ctx.onInputEvent ev).Behind ev.keycode.toNat ∧ (ctx.onInputEvent ev).sent =
      ctx.sent ++ (decodeUnit before ev.keycode.toNat).toList := by
  unfold Behind at behind
  have waits : ctx.pendingHigh = 0 ↔ ¬ isHigh before := by
    rw [← UInt16.toNat_inj, behind]
    split_ifs with high
    · exact ⟨fun none => absurd high (by rw [none]; decide), absurd high⟩
    · exact ⟨fun _ => high, fun _ => rfl⟩
  unfold InputCtx.onInputEvent decodeUnit Behind
  simp only [press, Bool.not_true, Bool.false_eq_true, if_false, waits]
  split_ifs with high low none <;> simp_all

theorem sent_foldl (events : List UnicodeEvent) (behind : ctx.Behind before) :
    (events.foldl InputCtx.onInputEvent ctx).sent =
      ctx.sent ++ decodeUtf16 before (pressedUnits events) := by
  induction events generalizing ctx before with
  | nil => simp [pressedUnits, decodeUtf16]
  | cons ev events ih =>
    cases press : ev.press with
    | false =>
      have same : ctx.onInputEvent ev = ctx := by simp [InputCtx.onInputEvent, press]
      simp only [foldl_cons, same, ih behind, pressedUnits, filter_cons, press]
      rfl
    | true =>
      obtain ⟨next, sent⟩ := behind.onInputEvent press
      simp [ih next, sent, pressedUnits, press, decodeUtf16]

/-- **Unicode input is decoded as UTF-16**, and every code point is a scalar value. A high
surrogate is paired with nothing but the unit right behind it (`decodeUnit`). -/
theorem unicode_input_decoded (events : List UnicodeEvent) :
    (events.foldl InputCtx.onInputEvent {}).sent = decodeUtf16 0 (pressedUnits events) ∧
      ∀ c ∈ (events.foldl InputCtx.onInputEvent {}).sent, IsScalar c := by
  have decodes := sent_foldl events (show InputCtx.Behind {} 0 from rfl)
  rw [nil_append] at decodes
  rw [decodes]
  refine ⟨rfl, isScalar_decodeUtf16 fun u member => ?_⟩
  obtain ⟨ev, _, rfl⟩ := mem_map.1 member
  exact ev.keycode.toNat_lt

end RdpServer.Daemon
