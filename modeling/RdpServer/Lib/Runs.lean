import Mathlib.Data.List.Basic
import Mathlib.Tactic.Common

/-!
# Runs of a step function

A run folds a step function over a list of events. `Along` says that every step
of a run meets a condition, and `total` adds up what its steps cost. What a step
keeps under a condition, a run along which the condition holds keeps; a quantity
that each step raises and lowers by given amounts changes over a run by their
totals. `Chain` is the same for a relation with labelled steps, and a history of entries
is `Justified` if each of them is by those before it.
-/

namespace Runs

variable {σ ε : Type} {step : σ → ε → σ} {s : σ} {e : ε} {es : List ε} {meets : σ → ε → Prop}

def Along (step : σ → ε → σ) (meets : σ → ε → Prop) : σ → List ε → Prop
  | _, [] => True
  | s, e :: es => meets s e ∧ Along step meets (step s e) es

instance decidableAlong (step : σ → ε → σ) (meets : σ → ε → Prop)
    [each : ∀ s e, Decidable (meets s e)] : (s : σ) → (es : List ε) →
    Decidable (Along step meets s es)
  | _, [] => isTrue True.intro
  | s, e :: es => @instDecidableAnd _ _ (each s e) (decidableAlong step meets (step s e) es)

def total (step : σ → ε → σ) (cost : σ → ε → Nat) : σ → List ε → Nat
  | _, [] => 0
  | s, e :: es => cost s e + total step cost (step s e) es

theorem invariant {P : σ → Prop} (each : ∀ s e, P s → P (step s e)) (start : P s)
    (es : List ε) : P (es.foldl step s) := by
  induction es generalizing s with
  | nil => exact start
  | cons e es ih => exact ih (each s e start)

theorem Along.invariant {P : σ → Prop} (along : Along step meets s es)
    (each : ∀ s e, meets s e → P s → P (step s e)) (start : P s) : P (es.foldl step s) := by
  induction es generalizing s with
  | nil => exact start
  | cons e es ih => exact ih along.2 (each s e along.1 start)

theorem Along.entails {has : σ → ε → Prop} {P : σ → Prop} (along : Along step meets s es)
    (each : ∀ s e, meets s e → P s → P (step s e) ∧ has s e) (start : P s) :
    Along step has s es := by
  induction es generalizing s with
  | nil => exact True.intro
  | cons e es ih =>
    obtain ⟨next, now⟩ := each s e along.1 start
    exact ⟨now, ih along.2 next⟩

theorem along_iff :
    Along step meets s es ↔ ∀ k e, es[k]? = some e → meets ((es.take k).foldl step s) e := by
  induction es generalizing s with
  | nil => exact ⟨fun _ k e found => by simp at found, fun _ => True.intro⟩
  | cons e es ih =>
    rw [Along, ih]
    constructor
    · rintro ⟨first, rest⟩ k other found
      cases k with
      | zero => exact (Option.some.inj found) ▸ first
      | succ k => exact rest k other found
    · intro all
      exact ⟨all 0 e rfl, fun k other found => all (k + 1) other found⟩

theorem Along.take (along : Along step meets s es) (k : Nat) : Along step meets s (es.take k) := by
  rw [along_iff] at along ⊢
  intro j e found
  rw [List.getElem?_take] at found
  split_ifs at found with inside
  rw [List.take_take, Nat.min_eq_left (Nat.le_of_lt inside)]
  exact along j e found

theorem along_congr {other : σ → ε → Prop} {P : σ → Prop} (safe : ∀ s e, P s → P (step s e))
    (same : ∀ s e, P s → (meets s e ↔ other s e)) (start : P s) :
    Along step meets s es ↔ Along step other s es := by
  induction es generalizing s with
  | nil => exact Iff.rfl
  | cons e es ih => exact and_congr (same s e start) (ih (safe s e start))

theorem holds_iff_along {P holds : σ → Prop} (safe : ∀ s e, P s → P (step s e))
    (each : ∀ s e, P s → (holds (step s e) ↔ holds s ∧ meets s e)) (start : P s) (es : List ε) :
    holds (es.foldl step s) ↔ holds s ∧ Along step meets s es := by
  induction es generalizing s with
  | nil => exact (and_iff_left True.intro).symm
  | cons e es ih => rw [List.foldl_cons, ih (safe s e start), each s e start, Along, and_assoc]

theorem balance (mass : σ → Nat) {P : σ → Prop} {gain loss : σ → ε → Nat}
    (safe : ∀ s e, P s → P (step s e))
    (each : ∀ s e, P s → mass (step s e) + loss s e = mass s + gain s e) (start : P s)
    (es : List ε) :
    mass (es.foldl step s) + total step loss s es = mass s + total step gain s es := by
  induction es generalizing s with
  | nil => rfl
  | cons e es ih =>
    have one := each s e start
    have rest := ih (safe s e start)
    rw [List.foldl_cons, total, total]
    omega

end Runs

variable {σ ε : Type}

inductive Chain (act : σ → ε → σ → Prop) : σ → List ε → σ → Prop where
  | nil (s : σ) : Chain act s [] s
  | cons {s t u : σ} {e : ε} {es : List ε} (first : act s e t) (rest : Chain act t es u) :
      Chain act s (e :: es) u

namespace Chain

open List

variable {act : σ → ε → σ → Prop} {s t u : σ} {e : ε} {es fs : List ε} {P : σ → Prop}

theorem single (step : act s e t) : Chain act s [e] t := .cons step (.nil t)

theorem append (first : Chain act s es t) (second : Chain act t fs u) :
    Chain act s (es ++ fs) u := by
  induction first with
  | nil => exact second
  | cons step _ ih => exact .cons step (ih second)

theorem keeps (chain : Chain act s es t) {allowed : ε → Prop}
    (each : ∀ {s e t}, act s e t → allowed e → P s → P t) (labels : ∀ e ∈ es, allowed e)
    (start : P s) : P t := by
  induction chain with
  | nil => exact start
  | cons step _ ih =>
    refine ih (fun e member => labels e (mem_cons_of_mem _ member)) ?_
    exact each step (labels _ mem_cons_self) start

theorem filterMap_label {κ : Type} (kind : ε → Option κ) (e : ε) (es : List ε) :
    (e :: es).filterMap kind = (kind e).toList ++ es.filterMap kind := by
  cases label : kind e with
  | none => exact filterMap_cons_none label
  | some key => exact filterMap_cons_some label

section Count

variable {κ : Type} [DecidableEq κ] {mass : σ → κ → Nat} {gain loss : ε → Option κ}

theorem count_one (key other : κ) : [key].count other = (key == other).toNat := by
  rw [count_singleton]
  cases key == other <;> rfl

variable (chain : Chain act s es t) (safe : ∀ {s e t}, act s e t → P s → P t)
include chain safe

theorem balance
    (each : ∀ {s e t}, act s e t → P s → ∀ key, mass t key + (loss e).toList.count key =
      mass s key + (gain e).toList.count key)
    (start : P s) (key : κ) :
    mass t key + (es.filterMap loss).count key = mass s key + (es.filterMap gain).count key := by
  induction chain with
  | nil => rfl
  | @cons s t u e es step _ ih =>
    have one := each step start key
    have rest := ih (safe step start)
    rw [filterMap_label, filterMap_label, count_append, count_append]
    omega

theorem count
    (each : ∀ {s e t}, act s e t → P s → ∀ key, mass t key = mass s key + (gain e).toList.count key)
    (start : P s) (key : κ) : mass t key = mass s key + (es.filterMap gain).count key := by
  have both : mass t key + (es.filterMap fun _ => (none : Option κ)).count key =
      mass s key + (es.filterMap gain).count key :=
    chain.balance safe (fun step held key => each step held key) start key
  rwa [filterMap_none, count_nil, Nat.add_zero] at both

end Count

end Chain

namespace History

open List

variable {α : Type} {because : List α → α → Prop} {log new : List α} {x : α}

def Justified (because : List α → α → Prop) (log : List α) : Prop :=
  ∀ before x after, log = before ++ x :: after → because before x

theorem justified_nil : Justified because [] := by
  intro before x after split
  exact (append_ne_nil_of_right_ne_nil before (cons_ne_nil x after) split.symm).elim

theorem Justified.concat (justified : Justified because log) (here : because log x) :
    Justified because (log ++ [x]) := by
  intro before y after split
  rcases append_eq_append_iff.1 split with ⟨middle, rfl, rest⟩ | ⟨middle, rfl, rest⟩
  · cases middle with
    | nil =>
      obtain ⟨rfl, -⟩ := cons.inj rest
      rwa [append_nil]
    | cons z middle =>
      obtain ⟨-, absurd⟩ := cons.inj rest
      exact (append_ne_nil_of_right_ne_nil middle (cons_ne_nil y after) absurd.symm).elim
  · cases middle with
    | nil =>
      obtain ⟨rfl, -⟩ := cons.inj rest
      rwa [append_nil] at here
    | cons z middle =>
      obtain ⟨rfl, -⟩ := cons.inj rest
      exact justified before y middle rfl

theorem Justified.append (justified : Justified because log)
    (free : ∀ before, ∀ x ∈ new, because before x) : Justified because (log ++ new) := by
  induction new generalizing log with
  | nil => rwa [append_nil]
  | cons x new ih =>
    rw [append_cons]
    exact ih (justified.concat (free log x mem_cons_self))
      fun before y later => free before y (.tail _ later)

end History
