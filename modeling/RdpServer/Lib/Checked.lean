import RdpServer.Lib.Bytes

/-!
# Checked memory accesses

A computation over byte buffers either returns, refuses its input, or accesses
a buffer outside its bounds. The last outcome is kept apart from refusal, so
that memory safety is a statement about the computation: it never faults. A pointer into a
buffer with a length is a `Slice`; its octets are fetched from the buffer as it is at that
moment. A loop that moves a cursor forward ends within the size of the buffer.
-/

namespace Bytes

inductive Failure where
  /-- The program refuses the input. -/
  | reject
  /-- The program accesses memory outside a buffer. -/
  | fault
  deriving DecidableEq

abbrev Checked (α : Type) := Except Failure α

def load (buffer : Bytes) (offset : Nat) : Checked UInt8 :=
  match buffer[offset]? with
  | some octet => .ok octet
  | none => .error .fault

def store (buffer : Bytes) (offset : Nat) (block : Bytes) : Checked Bytes :=
  if offset + block.length ≤ buffer.length then .ok (writeAt buffer offset block)
  else .error .fault

theorem load_ok {buffer : Bytes} {offset : Nat} {octet : UInt8}
    (held : buffer[offset]? = some octet) : load buffer offset = .ok octet := by
  simp only [load, held]

def refuse (bad : Prop) [Decidable bad] : Checked Unit :=
  if bad then .error .reject else .ok ()

def accept {α : Type} : Option α → Checked α
  | some value => .ok value
  | none => .error .reject

section Inversion

variable {α β : Type}

theorem bind_eq_ok {first : Checked α} {next : α → Checked β} {result : β} :
    (first >>= next) = .ok result ↔ ∃ value, first = .ok value ∧ next value = .ok result := by
  cases first with
  | ok value =>
    constructor
    · intro continued
      exact ⟨value, rfl, continued⟩
    · rintro ⟨_, same, continued⟩
      cases same
      exact continued
  | error failure =>
    constructor
    · exact nofun
    · rintro ⟨_, absurd, _⟩
      cases absurd

theorem pure_eq_ok {value result : α} : (pure value : Checked α) = .ok result ↔ value = result := by
  constructor
  · intro same
    cases same
    rfl
  · intro same
    rw [same]
    rfl

theorem refuse_eq_ok {bad : Prop} [Decidable bad] {done : Unit} :
    refuse bad = .ok done ↔ ¬ bad := by
  by_cases holds : bad <;> simp [refuse, holds]

theorem accept_eq_ok {value : Option α} {result : α} :
    accept value = .ok result ↔ value = some result := by
  cases value <;> simp [accept]

end Inversion

section Ensures

variable {α β : Type} {P : α → Prop}

/-- The computation does not fault, and what it returns has the property. -/
def Ensures (run : Checked α) (P : α → Prop) : Prop :=
  run ≠ .error .fault ∧ ∀ value, run = .ok value → P value

theorem Ensures.bind {first : Checked α} {next : α → Checked β} {R : β → Prop}
    (ensures : Ensures first P) (later : ∀ value, P value → Ensures (next value) R) :
    Ensures (first >>= next) R := by
  cases first with
  | ok value => exact later value (ensures.2 value rfl)
  | error failure => exact ⟨fun same => ensures.1 (by cases same; rfl), nofun⟩

theorem ensures_ok {value : α} (holds : P value) : Ensures (.ok value) P := by
  constructor
  · exact nofun
  · rintro _ ⟨⟩
    exact holds

theorem ensures_refuse (bad : Prop) [Decidable bad] : Ensures (refuse bad) fun _ => ¬ bad := by
  refine ⟨?_, fun _ => refuse_eq_ok.1⟩
  unfold refuse
  split <;> simp

theorem ensures_accept (value : Option α) :
    Ensures (accept value) fun result => value = some result :=
  ⟨by cases value <;> simp [accept], fun _ => accept_eq_ok.1⟩

theorem ensures_load {buffer : Bytes} {offset : Nat} (inside : offset < buffer.length) :
    Ensures (load buffer offset) fun _ => True := by
  rw [load_ok (List.getElem?_eq_getElem inside)]
  exact ensures_ok trivial

end Ensures

structure Slice where
  off : Nat
  len : Nat
  deriving DecidableEq

namespace Slice

/-- The slice lies within the first `size` octets. -/
def Inside (s : Slice) (size : Nat) : Prop := s.off + s.len ≤ size

instance (s : Slice) (size : Nat) : Decidable (s.Inside size) :=
  inferInstanceAs (Decidable (s.off + s.len ≤ size))

def octets (s : Slice) (buffer : Bytes) : Bytes := (buffer.drop s.off).take s.len

def fetch (s : Slice) (buffer : Bytes) : Checked Bytes :=
  if s.Inside buffer.length then .ok (s.octets buffer) else .error .fault

/-- A slice of a part that starts at `base`, as a slice of the whole. -/
def shift (s : Slice) (base : Nat) : Slice := ⟨base + s.off, s.len⟩

variable {s : Slice} {buffer : Bytes}

theorem fetch_eq_ok {result : Bytes} :
    s.fetch buffer = .ok result ↔ s.Inside buffer.length ∧ s.octets buffer = result := by
  by_cases inside : s.Inside buffer.length <;> simp [fetch, inside]

theorem ensures_fetch (inside : s.Inside buffer.length) :
    Ensures (s.fetch buffer) fun result => s.octets buffer = result := by
  rw [fetch_eq_ok.2 ⟨inside, rfl⟩]
  exact ensures_ok rfl

theorem length_octets (inside : s.Inside buffer.length) : (s.octets buffer).length = s.len := by
  unfold Inside at inside
  rw [octets, List.length_take, List.length_drop]
  omega

theorem Inside.shift {part : Slice} (inside : part.Inside (s.octets buffer).length)
    (within : s.Inside buffer.length) : (part.shift s.off).Inside buffer.length := by
  rw [length_octets within] at inside
  unfold Inside at inside within ⊢
  rw [Slice.shift]
  simp only
  omega

theorem octets_take {size : Nat} (inside : s.Inside size) :
    s.octets (buffer.take size) = s.octets buffer := by
  unfold Inside at inside
  rw [octets, octets, List.drop_take, List.take_take, min_eq_left (by omega)]

theorem octets_shift {part : Slice} (buffer : Bytes) (inside : part.Inside s.len) :
    (part.shift s.off).octets buffer = part.octets (s.octets buffer) := by
  unfold Inside at inside
  rw [octets, octets, octets, shift, List.drop_take, List.take_take, min_eq_left (by omega),
    List.drop_drop]

end Slice

section Scan

variable {σ : Type} (size : Nat) (round : Nat → σ → Checked (Nat × σ))

def scanRounds : Nat → Nat → σ → Checked σ
  | 0, off, state => if off < size then .error .fault else .ok state
  | rounds + 1, off, state =>
    if off < size then do
      let next ← round off state
      scanRounds rounds next.1 next.2
    else .ok state

def scan (off : Nat) (state : σ) : Checked σ := scanRounds size round (size - off) off state

variable {size round}

theorem ensures_scan {Inv : σ → Prop}
    (kept : ∀ off state, off < size → Inv state →
      Ensures (round off state) fun next => off < next.1 ∧ Inv next.2)
    {off : Nat} {state : σ} (holds : Inv state) : Ensures (scan size round off state) Inv := by
  suffices all : ∀ rounds off state, size - off ≤ rounds → Inv state →
      Ensures (scanRounds size round rounds off state) Inv from
    all _ off state (le_rfl) holds
  intro rounds
  induction rounds with
  | zero =>
    intro off state enough holds
    rw [scanRounds, if_neg (by omega)]
    exact ensures_ok holds
  | succ rounds ih =>
    intro off state enough holds
    rw [scanRounds]
    split_ifs with more
    · exact (kept off state more holds).bind fun next both => ih _ _ (by omega) both.2
    · exact ensures_ok holds

end Scan

end Bytes
