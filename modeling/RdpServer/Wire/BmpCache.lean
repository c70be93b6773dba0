import Mathlib.Algebra.Ring.Nat
import Mathlib.Tactic.Common

/-!
# The bitmap cache manager

The server's view of the client's bitmap cache: which key each slot of the
three cells holds. A lookup either finds the key's slot or takes one, an empty
slot while there is one and else the next slot in turn.
-/

namespace RdpServer

open List Option

def cellSlots : List Nat := [120, 120, 336]

structure CacheSlot where
  key : UInt64 := 0
  occupied : Bool := false
  deriving DecidableEq

structure CacheCell where
  slots : Nat
  offset : Nat
  ingest : Nat := 0
  deriving DecidableEq

structure BmpCache where
  slot : List CacheSlot
  total : Nat
  cells : List CacheCell
  next : Nat := 0
  used : Nat := 0
  deriving DecidableEq

def cellsFrom : Nat → List Nat → List CacheCell
  | _, [] => []
  | off, slots :: rest => ⟨slots, off, 0⟩ :: cellsFrom (off + slots) rest

def limitedSlots (max : Option (Fin 3 → UInt32)) (cell : Fin 3) : Nat :=
  let slots := cellSlots.getD cell 0
  match max with
  | none => slots
  | some max => if (max cell).toNat < slots then (max cell).toNat else slots

def layoutCells (max : Option (Fin 3 → UInt32)) : BmpCache :=
  let slots := [limitedSlots max 0, limitedSlots max 1, limitedSlots max 2]
  { slot := List.replicate 576 {}
    total := slots.sum
    cells := cellsFrom 0 slots }

def rdpBmpcacheFit (clientCells : Fin 3 → UInt32) : BmpCache × Nat :=
  let c := layoutCells (some clientCells)
  (c, c.total)

def rdpBmpcacheKey (pixels : List UInt8) : UInt64 :=
  pixels.foldl (fun h pixel => (h ^^^ pixel.toUInt64) * 0x100000001b3) 0xcbf29ce484222325

namespace BmpCache

variable (c : BmpCache)

def cell (i : Nat) : CacheCell := c.cells.getD i ⟨0, 0, 0⟩

def slotToCell (pool : Nat) : UInt8 × UInt16 :=
  let i := ((List.range 3).find? fun i => pool < (c.cell i).offset + (c.cell i).slots).getD 2
  (UInt8.ofNat i, UInt16.ofNat (pool - (c.cell i).offset))

def holds (key : UInt64) (i : Nat) : Bool :=
  match c.slot[i]? with
  | none => false
  | some slot => slot.occupied && slot.key == key

def occupied (i : Nat) : Bool :=
  match c.slot[i]? with
  | none => false
  | some slot => slot.occupied

/-- The search for an empty slot, in turn from `next`. After as many probes as
there are slots the source's loop goes round for ever. -/
def seekEmpty : Nat → Nat → Option Nat
  | 0, _ => none
  | probes + 1, next =>
    if c.occupied next then seekEmpty probes ((next + 1) % c.total) else some next

def fill (key : UInt64) (pool : Nat) : BmpCache :=
  { c with slot := c.slot.set pool ⟨key, true⟩, next := (pool + 1) % c.total }

end BmpCache

/-- Whether the key was found, its place, and the cache afterwards. A cache
without slots leaves the place at the callers' zeros. -/
def rdpBmpcacheLookup (c : BmpCache) (key : UInt64) : Option (Bool × (UInt8 × UInt16) × BmpCache) :=
  if c.total = 0 then some (false, (0, 0), c)
  else
    match (List.range c.total).find? (c.holds key) with
    | some i => some (true, c.slotToCell i, c)
    | none =>
      if c.used < c.total then
        (c.seekEmpty c.total c.next).map fun pool =>
          (false, c.slotToCell pool, { c.fill key pool with used := c.used + 1 })
      else some (false, c.slotToCell c.next, c.fill key c.next)

namespace BmpCache

def keyAt (c : BmpCache) (i : Nat) : Option UInt64 :=
  match c.slot[i]? with
  | none => none
  | some slot => if slot.occupied then some slot.key else none

structure WF (c : BmpCache) : Prop where
  size : c.slot.length = 576
  slots : (c.cell 0).slots ≤ 120 ∧ (c.cell 1).slots ≤ 120 ∧ (c.cell 2).slots ≤ 336
  offset₀ : (c.cell 0).offset = 0
  offset₁ : (c.cell 1).offset = (c.cell 0).slots
  offset₂ : (c.cell 2).offset = (c.cell 0).slots + (c.cell 1).slots
  total : c.total = (c.cell 0).slots + (c.cell 1).slots + (c.cell 2).slots
  next : c.next ≤ c.total - 1
  used : c.used = (c.slot.take c.total).countP CacheSlot.occupied

variable {c : BmpCache} (max : Option (Fin 3 → UInt32))

theorem WF.total_le (wf : c.WF) : c.total ≤ 576 := by
  have total := wf.total
  have slots := wf.slots
  omega

theorem limitedSlots_le (cell : Fin 3) : limitedSlots max cell ≤ cellSlots.getD cell 0 := by
  cases max with
  | none => exact le_rfl
  | some max =>
    simp only [limitedSlots]
    split <;> omega

theorem wf_layoutCells : (layoutCells max).WF where
  size := List.length_replicate
  slots := ⟨limitedSlots_le max 0, limitedSlots_le max 1, limitedSlots_le max 2⟩
  offset₀ := rfl
  offset₁ := Nat.zero_add _
  offset₂ := by
    simp only [layoutCells, cell, cellsFrom, Nat.zero_add, getD_cons_succ, getD_cons_zero]
  total := by
    simp only [layoutCells, cell, cellsFrom, sum_cons, sum_nil, Nat.add_zero,
      Nat.add_assoc, getD_cons_succ, getD_cons_zero]
  next := Nat.zero_le _
  used := by
    change 0 = ((replicate 576 ({} : CacheSlot)).take _).countP CacheSlot.occupied
    rw [take_replicate, countP_replicate]
    rfl

theorem keyAt_layoutCells (i : Nat) : (layoutCells max).keyAt i = none := by
  simp only [keyAt, layoutCells, getElem?_replicate]
  by_cases inside : i < 576
  · rw [if_pos inside]
    rfl
  · rw [if_neg inside]

theorem WF.slotToCell_spec (wf : c.WF) {pool : Nat} (inside : pool < c.total) :
    ∃ i < 3, c.slotToCell pool = (UInt8.ofNat i, UInt16.ofNat (pool - (c.cell i).offset)) ∧
      (c.cell i).offset ≤ pool ∧ pool - (c.cell i).offset < (c.cell i).slots := by
  have offset₀ := wf.offset₀
  have offset₁ := wf.offset₁
  have offset₂ := wf.offset₂
  have total := wf.total
  have range : range 3 = [0, 1, 2] := rfl
  by_cases first : pool < (c.cell 0).offset + (c.cell 0).slots
  · refine ⟨0, by decide, ?_, by omega, by omega⟩
    simp only [slotToCell, range, find?_cons, first, decide_true, getD_some]
  · by_cases second : pool < (c.cell 1).offset + (c.cell 1).slots
    · refine ⟨1, by decide, ?_, by omega, by omega⟩
      simp only [slotToCell, range, find?_cons, first, second, decide_true, decide_false, getD_some]
    · have third : pool < (c.cell 2).offset + (c.cell 2).slots := by omega
      refine ⟨2, by decide, ?_, by omega, by omega⟩
      simp only [slotToCell, range, find?_cons, first, second, third, decide_true,
        decide_false, getD_some]

theorem WF.slotToCell_inj (wf : c.WF) {first second : Nat} (firstIn : first < c.total)
    (secondIn : second < c.total) (same : c.slotToCell first = c.slotToCell second) :
    first = second := by
  have small := wf.total_le
  obtain ⟨i, below, place, le, _⟩ := wf.slotToCell_spec firstIn
  obtain ⟨j, below', place', le', _⟩ := wf.slotToCell_spec secondIn
  rw [place, place', Prod.mk.injEq] at same
  have cellSame := congrArg UInt8.toNat same.1
  have indexSame := congrArg UInt16.toNat same.2
  simp only [UInt8.toNat_ofNat', UInt16.toNat_ofNat'] at cellSame indexSame
  have equal : i = j := by omega
  subst equal
  omega

section Lookup

variable {key : UInt64} {pool : Nat} {after : BmpCache}

theorem holds_iff_keyAt {i : Nat} : c.holds key i = true ↔ c.keyAt i = some key := by
  unfold holds keyAt
  cases c.slot[i]? with
  | none => simp only [reduceCtorEq]
  | some slot =>
    obtain ⟨held, taken⟩ := slot
    cases taken <;>
      simp

theorem keyAt_eq_none {i : Nat} : c.keyAt i = none ↔ c.occupied i = false := by
  unfold keyAt occupied
  cases c.slot[i]? with
  | none => simp
  | some slot => simp

theorem keyAt_set (stored : after.slot = c.slot.set pool ⟨key, true⟩)
    (inside : pool < c.slot.length) (i : Nat) :
    after.keyAt i = if i = pool then some key else c.keyAt i := by
  unfold keyAt
  rw [stored]
  by_cases same : i = pool
  · subst same
    simp [getElem?_set_self inside]
  · rw [getElem?_set_ne (Ne.symm same), if_neg same]

theorem seekEmpty_some (positive : 0 < c.total) (distance : Nat) :
    ∀ {next probes : Nat}, next < c.total → distance < probes →
      c.occupied ((next + distance) % c.total) = false →
      ∃ pool < c.total, c.seekEmpty probes next = some pool ∧ c.occupied pool = false := by
  induction distance with
  | zero =>
    intro next probes inside enough empty
    obtain ⟨left, rfl⟩ : ∃ left, probes = left + 1 := ⟨probes - 1, by omega⟩
    rw [Nat.add_zero, Nat.mod_eq_of_lt inside] at empty
    exact ⟨next, inside, by rw [seekEmpty, empty]; rfl, empty⟩
  | succ distance ih =>
    intro next probes inside enough empty
    obtain ⟨left, rfl⟩ : ∃ left, probes = left + 1 := ⟨probes - 1, by omega⟩
    by_cases taken : c.occupied next = true
    · rw [seekEmpty, if_pos taken]
      refine ih (Nat.mod_lt _ positive) (by omega) ?_
      rw [Nat.mod_add_mod, Nat.add_assoc, Nat.add_comm 1]
      exact empty
    · exact ⟨next, inside, by rw [seekEmpty, if_neg taken], Bool.not_eq_true _ ▸ taken⟩

theorem WF.exists_empty (wf : c.WF) (room : c.used < c.total) :
    ∃ i < c.total, c.occupied i = false := by
  by_contra none
  have all : ∀ slot ∈ c.slot.take c.total, slot.occupied = true := by
    intro slot member
    obtain ⟨i, inside, held⟩ := mem_iff_getElem.1 member
    rw [length_take] at inside
    by_contra empty
    refine none ⟨i, by omega, ?_⟩
    have here : c.slot[i]? = some slot := by
      rw [← held, getElem_take, getElem?_eq_getElem]
    rw [occupied, here]
    exact Bool.not_eq_true _ ▸ empty
  have full := countP_eq_length.2 all
  have used := wf.used
  have size := wf.size
  have small := wf.total_le
  rw [length_take] at full
  omega

theorem WF.seekEmpty_spec (wf : c.WF) (room : c.used < c.total) :
    ∃ pool < c.total, c.seekEmpty c.total c.next = some pool ∧ c.occupied pool = false := by
  obtain ⟨i, inside, empty⟩ := wf.exists_empty room
  have next := wf.next
  have positive : 0 < c.total := by omega
  refine seekEmpty_some positive ((i + c.total - c.next) % c.total) (by omega)
    (Nat.mod_lt _ positive) ?_
  have around : (c.next + (i + c.total - c.next) % c.total) % c.total = i := by
    rw [Nat.add_mod_mod, show c.next + (i + c.total - c.next) = i + c.total by omega,
      Nat.add_mod_right, Nat.mod_eq_of_lt inside]
  rw [around]
  exact empty

theorem countP_set (key : UInt64) (inside : pool < c.total) (size : c.total ≤ c.slot.length) :
    ((c.slot.set pool ⟨key, true⟩).take c.total).countP CacheSlot.occupied =
      (c.slot.take c.total).countP CacheSlot.occupied + (if c.occupied pool then 0 else 1) := by
  have within : pool < (c.slot.take c.total).length := by
    rw [length_take]
    omega
  have here : c.slot[pool]? = some (c.slot.take c.total)[pool] := by
    rw [getElem_take, getElem?_eq_getElem]
  have positive (taken : (c.slot.take c.total)[pool].occupied = true) :
      0 < (c.slot.take c.total).countP CacheSlot.occupied :=
    countP_pos_iff.2 ⟨_, getElem_mem within, taken⟩
  simp only [List.take_set, List.countP_set within, occupied, here]
  cases taken : (c.slot.take c.total)[pool].occupied with
  | false => simp only [Bool.false_eq_true, ↓reduceIte, Nat.sub_zero]
  | true =>
    have := positive taken
    simp only [↓reduceIte]
    omega

theorem WF.fill (wf : c.WF) (inside : pool < c.total) (used : Nat)
    (counted : used = c.used + if c.occupied pool then 0 else 1) :
    ({ c.fill key pool with used } : BmpCache).WF := by
  have size := wf.size
  have small := wf.total_le
  have turned : (pool + 1) % c.total < c.total := Nat.mod_lt _ (by omega)
  refine ⟨length_set.trans size, wf.slots, wf.offset₀, wf.offset₁, wf.offset₂, wf.total,
    Nat.le_sub_one_of_lt turned, ?_⟩
  change used = ((c.slot.set pool ⟨key, true⟩).take c.total).countP CacheSlot.occupied
  rw [counted, wf.used, countP_set key inside (by omega)]

/-- What a lookup finds, or takes: an empty slot while there is one. -/
inductive Looked (c : BmpCache) (key : UInt64) : Bool × (UInt8 × UInt16) × BmpCache → Prop where
  | hit (pool : Nat) (inside : pool < c.total)
      (found : (List.range c.total).find? (c.holds key) = some pool)
      (held : c.keyAt pool = some key) : Looked c key (true, c.slotToCell pool, c)
  | miss (pool used : Nat) (inside : pool < c.total)
      (found : (List.range c.total).find? (c.holds key) = none)
      (wf : ({ c.fill key pool with used } : BmpCache).WF)
      (spare : c.used < c.total → c.keyAt pool = none) :
      Looked c key (false, c.slotToCell pool, { c.fill key pool with used })

theorem WF.lookup_looked (wf : c.WF) (positive : 0 < c.total) (key : UInt64) :
    ∃ result, rdpBmpcacheLookup c key = some result ∧ Looked c key result := by
  have size := wf.size
  have small := wf.total_le
  rw [rdpBmpcacheLookup, if_neg (ne_of_gt positive)]
  cases found : (range c.total).find? (c.holds key) with
  | some i =>
    exact ⟨_, rfl, .hit i (mem_range.1 (mem_of_find?_eq_some found)) found
      (holds_iff_keyAt.1 (find?_some found))⟩
  | none =>
    by_cases room : c.used < c.total
    · obtain ⟨pool, inside, sought, empty⟩ := wf.seekEmpty_spec room
      rw [if_pos room, sought]
      exact ⟨_, rfl, .miss pool (c.used + 1) inside found (wf.fill inside _ (by rw [empty]; rfl))
        fun _ => keyAt_eq_none.2 empty⟩
    · have next := wf.next
      have inside : c.next < c.total := by omega
      have taken : c.occupied c.next = true := by
        by_contra empty
        have counted := countP_set key inside (by omega)
        have bound := countP_le_length (p := CacheSlot.occupied)
          (l := (c.slot.set c.next ⟨key, true⟩).take c.total)
        rw [length_take, counted, ← wf.used, if_neg empty] at bound
        omega
      rw [if_neg room]
      exact ⟨_, rfl, .miss c.next c.used inside found (wf.fill inside _ (by rw [taken]; rfl))
        fun free => absurd free room⟩

end Lookup

end BmpCache

end RdpServer
