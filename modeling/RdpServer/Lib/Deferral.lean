import Mathlib.Tactic.Common

/-!
# One deferred request

A server answers requests. It may defer the answer to one of them at a time, and it
may drop the request that waits. Requests that are answered, that wait and that were
dropped add up to those that were made (`act_accountedFor`).
-/

structure Deferral (ρ α : Type) where
  waiting : Option ρ
  answered : List (ρ × α)

namespace Deferral

open Option

variable {ρ α : Type}

inductive Act (ρ α : Type) where
  | idle
  /-- A request is made and answered at once. -/
  | reply (request : ρ) (answer : α)
  /-- A request is made and has to wait. -/
  | defer (request : ρ)
  /-- The request that waits is answered. -/
  | settle (answer : α)
  /-- The request that waits is dropped. -/
  | drop

def act (d : Deferral ρ α) : Act ρ α → Deferral ρ α
  | .idle => d
  | .reply request answer => { d with answered := d.answered ++ [(request, answer)] }
  | .defer request => { d with waiting := some request }
  | .settle answer =>
    { waiting := none
      answered := d.answered ++ d.waiting.toList.map fun request => (request, answer) }
  | .drop => { d with waiting := none }

def Act.asks : Act ρ α → Option ρ
  | .reply request _ => some request
  | .defer request => some request
  | _ => none

def drops (d : Deferral ρ α) : Act ρ α → Option ρ
  | .drop => d.waiting
  | _ => none

def Act.Quiet (a : Act ρ α) : Prop := a = .idle ∨ ∃ answer, a = .settle answer

def Defers (d : Deferral ρ α) : Act ρ α → Prop
  | .defer _ => d.waiting = none
  | _ => True

variable {a : Act ρ α} (d : Deferral ρ α)

theorem Act.Quiet.asks_eq (quiet : a.Quiet) : a.asks = none := by
  rcases quiet with rfl | ⟨answer, rfl⟩ <;> rfl

theorem Act.Quiet.drops_eq (quiet : a.Quiet) (d : Deferral ρ α) : d.drops a = none := by
  rcases quiet with rfl | ⟨answer, rfl⟩ <;> rfl

theorem Act.Quiet.defers (quiet : a.Quiet) (d : Deferral ρ α) : d.Defers a := by
  rcases quiet with rfl | ⟨answer, rfl⟩ <;> exact True.intro

def Settles (d after : Deferral ρ α) : Prop := ∃ a : Act ρ α, a.Quiet ∧ after = d.act a

theorem Settles.refl : d.Settles d := ⟨.idle, .inl rfl, rfl⟩

theorem Settles.settle (answer : α) : d.Settles (d.act (.settle answer)) :=
  ⟨.settle answer, .inr ⟨answer, rfl⟩, rfl⟩

section Ledger

variable [DecidableEq ρ]

def answersTo (d : Deferral ρ α) (request : ρ) : Nat := (d.answered.map Prod.fst).count request

def accountedFor (d : Deferral ρ α) (request : ρ) : Nat :=
  d.answersTo request + d.waiting.toList.count request

/-- **A request that is made** is accounted for until it is dropped. -/
theorem act_accountedFor (free : d.Defers a) (request : ρ) :
    (d.act a).accountedFor request + (d.drops a).toList.count request =
      d.accountedFor request + a.asks.toList.count request := by
  cases a with
  | idle => rfl
  | reply made answer =>
    simp only [accountedFor, answersTo, act, drops, Act.asks, List.map_append, List.map_cons,
      List.map_nil, List.count_append, toList_none, List.count_nil, toList_some]
    omega
  | defer made =>
    have none : d.waiting = none := free
    simp only [accountedFor, answersTo, act, drops, Act.asks, none, toList_none,
      List.count_nil, toList_some]
    omega
  | settle answer =>
    have same : (d.waiting.toList.map fun request => (request, answer)).map Prod.fst =
        d.waiting.toList := by
      rw [List.map_map]
      exact List.map_id _
    simp [accountedFor, answersTo, act, drops, Act.asks, same]
  | drop =>
    simp only [accountedFor, answersTo, act, drops, Act.asks, toList_none, List.count_nil]
    omega

end Ledger

end Deferral
