import Mathlib.Tactic.Common

/-!
# Growing a list from predictions

A decoder of a predictive code appends one element after another, each computed
from the elements already there. `grow` is that loop. It reproduces a given list
exactly when every prediction is right on the list itself (`grow_take`), which
is how an encoder knows that what it wrote will be read back.
-/

namespace Predict

open List

variable {α : Type} {whole : List α}

/-- Append `count` elements; element number `index` of the loop is
`next index` of the list so far. -/
def grow (next : Nat → List α → α) : (count index : Nat) → List α → List α
  | 0, _, list => list
  | count + 1, index, list => grow next count (index + 1) (list ++ [next index list])

variable (next : Nat → List α → α)

@[simp] theorem length_grow (count index : Nat) (list : List α) :
    (grow next count index list).length = list.length + count := by
  induction count generalizing index list with
  | zero => rfl
  | succ count ih =>
    simp only [grow, ih, length_append, length_cons, length_nil]
    omega

theorem grow_congr {next other : Nat → List α → α} {count index : Nat} {list : List α}
    (same : ∀ step < count, ∀ longer : List α, longer.length = list.length + step →
      next (index + step) longer = other (index + step) longer) :
    grow next count index list = grow other count index list := by
  induction count generalizing index list with
  | zero => rfl
  | succ count ih =>
    have head := same 0 (Nat.succ_pos count) list rfl
    rw [Nat.add_zero] at head
    rw [grow, grow, head]
    refine ih fun step below longer length => ?_
    have later := same (step + 1) (by omega) longer
      (by rw [length, length_append, length_singleton]; omega)
    rw [show index + 1 + step = index + (step + 1) by omega]
    exact later

theorem grow_take (whole : List α) (count index start : Nat)
    (inside : start + count ≤ whole.length)
    (right : ∀ step, step < count →
      whole[start + step]? = some (next (index + step) (whole.take (start + step)))) :
    grow next count index (whole.take start) = whole.take (start + count) := by
  induction count generalizing index start with
  | zero => rfl
  | succ count ih =>
    have head := right 0 (Nat.succ_pos count)
    simp only [Nat.add_zero] at head
    have extended : whole.take start ++ [next index (whole.take start)] =
        whole.take (start + 1) := by
      rw [take_add_one, head, Option.toList_some]
    rw [grow, extended, ih (index + 1) (start + 1) (by omega), Nat.add_right_comm, Nat.add_assoc]
    intro step below
    have later := right (step + 1) (by omega)
    rw [show start + 1 + step = start + (step + 1) by omega,
      show index + 1 + step = index + (step + 1) by omega]
    exact later

/-- The last `count` elements of a list are predicted from what precedes each
of them. -/
def Predicted (next : Nat → List α → α) (whole : List α) (count : Nat) : Prop :=
  ∀ step, step < count → whole[whole.length - count + step]? =
    some (next step (whole.take (whole.length - count + step)))

theorem Predicted.zero (whole : List α) : Predicted next whole 0 :=
  fun _ below => absurd below (Nat.not_lt_zero _)

theorem Predicted.grow_eq {next : Nat → List α → α} {count : Nat}
    (predicted : Predicted next whole count) (inside : count ≤ whole.length) :
    grow next count 0 (whole.take (whole.length - count)) = whole := by
  rw [grow_take next whole count 0 (whole.length - count) (by omega) (by
    intro step below
    rw [Nat.zero_add]
    exact predicted step below), Nat.sub_add_cancel inside, take_length]

theorem Predicted.snoc {next : Nat → List α → α} {count : Nat} {last : α}
    (predicted : Predicted next whole count) (inside : count ≤ whole.length)
    (right : last = next count whole) : Predicted next (whole ++ [last]) (count + 1) := by
  intro step below
  have length : (whole ++ [last]).length - (count + 1) = whole.length - count := by
    rw [length_append, length_singleton]
    omega
  rw [length]
  rcases Nat.lt_succ_iff_lt_or_eq.mp below with earlier | rfl
  · rw [getElem?_append_left (by omega), take_append_of_le_length (by omega)]
    exact predicted step earlier
  · rw [Nat.sub_add_cancel inside, getElem?_append_right (Nat.le_refl _), Nat.sub_self,
      getElem?_cons_zero, take_left, right]

theorem Predicted.congr {next other : Nat → List α → α} {count : Nat}
    (predicted : Predicted next whole count)
    (same : ∀ step, step < count → ∀ list, next step list = other step list) :
    Predicted other whole count := by
  intro step below
  rw [← same step below]
  exact predicted step below

end Predict
