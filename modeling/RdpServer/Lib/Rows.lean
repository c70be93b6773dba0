import Mathlib.Tactic.Common

/-!
# Rows of equal length

A picture stored row by row is the concatenation of its rows. With rows of
equal length, a row is found at a multiple of that length. Rows that are pasted over
a part of a picture are found at their places, and the rest of it is as before
(`getElem?_paste`).
-/

namespace Rows

open List

variable {α : Type} (rows : Nat → List α) (width : Nat) {row : Nat}

theorem length_flatMap_range (count : Nat) (even : ∀ row < count, (rows row).length = width) :
    ((List.range count).flatMap rows).length = width * count := by
  rw [length_flatMap, map_congr_left fun row inside => even row (mem_range.1 inside), map_const',
    sum_replicate_nat, length_range, Nat.mul_comm]

theorem take_drop_flatMap_range {part : Nat} (within : part ≤ width) (count : Nat)
    (even : ∀ row < count, (rows row).length = width) (inside : row < count) :
    (((List.range count).flatMap rows).drop (width * row)).take part = (rows row).take part := by
  induction count with
  | zero => exact (Nat.not_lt_zero _ inside).elim
  | succ count ih =>
    have evenBefore : ∀ row < count, (rows row).length = width :=
      fun row earlier => even row (Nat.lt_succ_of_lt earlier)
    have length := length_flatMap_range rows width count evenBefore
    rw [range_succ, flatMap_append, flatMap_singleton]
    by_cases earlier : row < count
    · have room : width * row + width ≤ width * count := by
        rw [← Nat.mul_succ]
        exact Nat.mul_le_mul_left width earlier
      rw [drop_append_of_le_length (by omega), take_append_of_le_length
        (by rw [length_drop]; omega), ih evenBefore earlier]
    · have last : row = count := by omega
      rw [last, ← length, drop_left]

theorem getElem?_flatMap_range (count : Nat) (even : ∀ row < count, (rows row).length = width)
    {column : Nat} (inside : row < count) (within : column < width) :
    ((List.range count).flatMap rows)[width * row + column]? = (rows row)[column]? := by
  have found := take_drop_flatMap_range rows width (Nat.le_refl width) count even inside
  rw [← getElem?_drop, ← getElem?_take_of_lt within, found, getElem?_take_of_lt within]

theorem flatMap_take_drop (list : List α) (width count : Nat) :
    ((List.range count).flatMap fun row => (list.drop (row * width)).take width) =
      list.take (count * width) := by
  induction count with
  | zero => rw [Nat.zero_mul, take_zero]; rfl
  | succ count ih =>
    rw [range_succ, flatMap_append, flatMap_singleton, ih, Nat.succ_mul, take_add]

def overwrite {α : Type} (list : List α) (offset : Nat) (block : List α) : List α :=
  list.take offset ++ (block ++ list.drop (offset + block.length))

section Overwrite

variable {list block : List α} {offset : Nat}

theorem length_overwrite (fits : offset + block.length ≤ list.length) :
    (overwrite list offset block).length = list.length := by
  simp only [overwrite, length_append, length_take, length_drop]
  omega

theorem getElem?_overwrite (fits : offset + block.length ≤ list.length) (i : Nat) :
    (overwrite list offset block)[i]? =
      if offset ≤ i ∧ i < offset + block.length then block[i - offset]? else list[i]? := by
  have front : (list.take offset).length = offset := by
    rw [length_take]
    omega
  rw [overwrite]
  by_cases before : i < offset
  · rw [if_neg (by omega), getElem?_append_left (by omega), getElem?_take_of_lt before]
  · rw [getElem?_append_right (by omega), front]
    by_cases inside : i < offset + block.length
    · rw [if_pos (by omega), getElem?_append_left (by omega)]
    · rw [if_neg (by omega), getElem?_append_right (by omega), getElem?_drop]
      congr 1
      omega

end Overwrite

section Paste

variable (stride top left : Nat) (rows : Nat → List α)

def paste (picture : List α) (count : Nat) : List α :=
  (List.range count).foldl
    (fun picture row => overwrite picture ((top + row) * stride + left) (rows row)) picture

theorem paste_succ (picture : List α) (count : Nat) :
    paste stride top left rows picture (count + 1) =
      overwrite (paste stride top left rows picture count) ((top + count) * stride + left)
        (rows count) := by
  rw [paste, range_succ, foldl_append]
  rfl

variable {stride top left rows} {picture : List α} {width count : Nat}

variable (within : left + width ≤ stride)
include within

theorem row_fits {height : Nat} (inside : row < height) (large : height * stride ≤ picture.length) :
    row * stride + left + width ≤ picture.length := by
  have below : (row + 1) * stride ≤ height * stride := Nat.mul_le_mul_right stride inside
  rw [Nat.succ_mul] at below
  omega

variable (even : ∀ row < count, (rows row).length = width)
  (large : (top + count) * stride ≤ picture.length)
include even large

theorem length_paste : (paste stride top left rows picture count).length = picture.length := by
  induction count with
  | zero => rfl
  | succ count ih =>
    have smaller : (top + count) * stride ≤ (top + (count + 1)) * stride :=
      Nat.mul_le_mul_right stride (by omega)
    have before := ih (fun row earlier => even row (Nat.lt_succ_of_lt earlier))
      (Nat.le_trans smaller large)
    rw [paste_succ, length_overwrite, before]
    rw [before, even count (Nat.lt_succ_self _)]
    exact row_fits within (Nat.lt_succ_self _) large

theorem getElem?_paste {column : Nat} (inside : column < stride) :
    (paste stride top left rows picture count)[row * stride + column]? =
      if (top ≤ row ∧ row < top + count) ∧ left ≤ column ∧ column < left + width then
        (rows (row - top))[column - left]?
      else picture[row * stride + column]? := by
  induction count with
  | zero => exact (if_neg (by omega)).symm
  | succ count ih =>
    have smaller : (top + count) * stride ≤ (top + (count + 1)) * stride :=
      Nat.mul_le_mul_right stride (by omega)
    have evenBefore : ∀ row < count, (rows row).length = width :=
      fun row earlier => even row (Nat.lt_succ_of_lt earlier)
    have last := even count (Nat.lt_succ_self _)
    rw [paste_succ, getElem?_overwrite, ih evenBefore (Nat.le_trans smaller large), last]
    · -- a row before, this row, or a row behind
      rcases Nat.lt_trichotomy row (top + count) with before | rfl | behind
      · have above : (row + 1) * stride ≤ (top + count) * stride :=
          Nat.mul_le_mul_right stride before
        rw [Nat.succ_mul] at above
        rw [if_neg (by omega)]
        exact if_congr (by omega) rfl rfl
      · by_cases here : left ≤ column ∧ column < left + width
        · rw [if_pos (by omega), if_pos (by omega), Nat.add_sub_cancel_left]
          congr 1
          omega
        · rw [if_neg (by omega), if_neg (by omega), if_neg (by omega)]
      · have below : (top + count + 1) * stride ≤ row * stride :=
          Nat.mul_le_mul_right stride behind
        rw [Nat.succ_mul] at below
        rw [if_neg (by omega), if_neg (by omega), if_neg (by omega)]
    · rw [length_paste within evenBefore (Nat.le_trans smaller large), last]
      exact row_fits within (Nat.lt_succ_self _) large

end Paste
end Rows
