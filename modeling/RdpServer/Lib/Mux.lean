import Mathlib.Tactic.Common

/-!
# Several machines behind one

A machine takes inputs that carry a tag and gives outputs that carry one. It
separates its tags if each input changes, and answers from, the part of the state
that belongs to its tag. Then the outputs with a tag are what a machine of its own
gives for the inputs with that tag (`Separates.only_outputs`), however the inputs
of different tags are interleaved.
-/

namespace Mux

open List

variable {σ τ ι ε δ α : Type}

def outputs (step : σ → ε → σ × List δ) : σ → List ε → List δ
  | _, [] => []
  | s, e :: es => (step s e).2 ++ outputs step (step s e).1 es

def after (step : σ → ε → σ × List δ) (s : σ) (es : List ε) : σ :=
  es.foldl (fun s e => (step s e).1) s

theorem outputs_append (step : σ → ε → σ × List δ) (s : σ) (es fs : List ε) :
    outputs step s (es ++ fs) = outputs step s es ++ outputs step (after step s es) fs := by
  induction es generalizing s with
  | nil => rfl
  | cons e es ih => rw [cons_append, outputs, outputs, ih, append_assoc]; rfl

theorem outputs_map (step : σ → ε → σ × List δ) (f : α → ε) (s : σ) (xs : List α) :
    outputs step s (xs.map f) = outputs (fun s x => step s (f x)) s xs := by
  induction xs generalizing s with
  | nil => rfl
  | cons x xs ih => rw [map_cons, outputs, outputs, ih]

section Tags

variable [DecidableEq ι]

def only (i : ι) (tagged : List (ι × α)) : List α :=
  tagged.filterMap fun entry => if entry.1 = i then some entry.2 else none

theorem only_append (i : ι) (first second : List (ι × α)) :
    only i (first ++ second) = only i first ++ only i second :=
  filterMap_append

theorem only_cons_self (i : ι) (carried : α) (tagged : List (ι × α)) :
    only i ((i, carried) :: tagged) = carried :: only i tagged :=
  filterMap_cons_some (if_pos rfl)

theorem only_cons_of_ne {i j : ι} (other : j ≠ i) (carried : α) (tagged : List (ι × α)) :
    only i ((j, carried) :: tagged) = only i tagged :=
  filterMap_cons_none (if_neg other)

theorem only_map_self (i : ι) (carried : List α) :
    only i (carried.map fun one => (i, one)) = carried := by
  induction carried with
  | nil => rfl
  | cons one rest ih => rw [map_cons, only_cons_self, ih]

theorem only_map_of_ne {i j : ι} (other : j ≠ i) (carried : List α) :
    only i (carried.map fun one => (j, one)) = [] := by
  induction carried with
  | nil => rfl
  | cons one rest ih => rw [map_cons, only_cons_of_ne other, ih]

theorem mem_only_of_mem {i : ι} {carried : α} {tagged : List (ι × α)}
    (member : (i, carried) ∈ tagged) : carried ∈ only i tagged :=
  mem_filterMap.2 ⟨_, member, if_pos rfl⟩

/-- Each tag has a part of the state to itself, which `own` describes. -/
structure Separates (ok : σ → Prop) (may : ι × ε → Prop)
    (step : σ → ι × ε → σ × List (ι × δ)) (own : τ → ε → τ × List δ) (view : σ → ι → τ) :
    Prop where
  keeps : ∀ {s e}, ok s → may e → ok (step s e).1
  moves : ∀ {s i e}, ok s → may (i, e) → view (step s (i, e)).1 i = (own (view s i) e).1
  rests : ∀ {s i j e}, ok s → may (i, e) → j ≠ i → view (step s (i, e)).1 j = view s j
  gives : ∀ {s i e}, ok s → may (i, e) →
    (step s (i, e)).2 = (own (view s i) e).2.map fun given => (i, given)

/-- **Isolation**: what comes out under a tag depends on what went in under it. -/
theorem Separates.only_outputs {ok : σ → Prop} {may : ι × ε → Prop}
    {step : σ → ι × ε → σ × List (ι × δ)} {own : τ → ε → τ × List δ} {view : σ → ι → τ}
    (separates : Separates ok may step own view) {s : σ} {es : List (ι × ε)} (start : ok s)
    (all : ∀ e ∈ es, may e) (i : ι) :
    only i (outputs step s es) = outputs own (view s i) (only i es) := by
  induction es generalizing s with
  | nil => rfl
  | cons entry es ih =>
    obtain ⟨j, e⟩ := entry
    obtain ⟨first, rest⟩ := forall_mem_cons.1 all
    rw [outputs, only_append, ih (separates.keeps start first) rest, separates.gives start first]
    by_cases mine : j = i
    · subst mine
      rw [only_map_self, only_cons_self, outputs, separates.moves start first]
    · rw [only_map_of_ne mine, only_cons_of_ne mine,
        separates.rests start first (Ne.symm mine), nil_append]

end Tags

end Mux
