import Mathlib.Tactic.Common

/-!
# Tables of slots

A table of a fixed number of slots, each free or holding an entry: a list of
options. Entries are found by searching the slots in order, stored in a free
slot, removed one at a time, or removed by a sweep over the whole table. What
the lemmas say about a table is which entries it holds (`Slots.Holds`) and which
slot a search stops at.
-/

abbrev Slots (α : Type) := List (Option α)

namespace Slots

open List Option Bool

variable {α : Type}

def Holds (slots : Slots α) (entry : α) : Prop := some entry ∈ slots

def find (slots : Slots α) (wanted : α → Bool) : Option Nat :=
  slots.findIdx? fun slot => slot.any wanted

def free (slots : Slots α) : Option Nat := slots.findIdx? Option.isNone

def entry (slots : Slots α) (slot : Nat) : Option α := slots[slot]?.join

def lookup (slots : Slots α) (wanted : α → Bool) : Option (Nat × α) :=
  (slots.find wanted).bind fun slot => (slots.entry slot).map fun entry => (slot, entry)

def put (slots : Slots α) (slot : Nat) (entry : α) : Slots α := slots.set slot (some entry)

def clear (slots : Slots α) (slot : Nat) : Slots α := slots.set slot none

def keep (slots : Slots α) (kept : α → Bool) : Slots α := slots.map (Option.filter kept)

def empty (count : Nat) : Slots α := List.replicate count none

section Holds

variable {slots : Slots α} {slot : Nat} {x y : α} {kept wanted : α → Bool}

theorem not_holds_empty (count : Nat) (x : α) : ¬ (empty count).Holds x := by
  intro held
  have none := eq_of_mem_replicate held
  cases none

theorem holds_put (held : (slots.put slot x).Holds y) : y = x ∨ slots.Holds y := by
  rcases mem_or_eq_of_mem_set held with before | same
  · exact .inr before
  · exact .inl (some.inj same)

theorem holds_clear (held : (slots.clear slot).Holds y) : slots.Holds y := by
  rcases mem_or_eq_of_mem_set held with before | absurd
  · exact before
  · cases absurd

theorem holds_keep : (slots.keep kept).Holds x ↔ slots.Holds x ∧ kept x = true := by
  unfold Holds keep
  rw [List.mem_map]
  constructor
  · rintro ⟨_ | before, member, same⟩
    · cases same
    · obtain ⟨isSame, holds⟩ := filter_eq_some_iff.1 same
      rw [isSame] at member
      exact ⟨member, holds⟩
  · rintro ⟨member, holds⟩
    exact ⟨some x, member, by rw [filter_some_pos holds]⟩

theorem holds_of_entry (held : slots.entry slot = some x) : slots.Holds x := by
  rw [entry, join_eq_some_iff] at held
  exact mem_of_getElem? held

theorem exists_entry (held : slots.Holds x) : ∃ slot, slots.entry slot = some x := by
  obtain ⟨slot, inside, same⟩ := getElem_of_mem held
  refine ⟨slot, ?_⟩
  rw [entry, getElem?_eq_getElem inside, same]
  rfl

def entries (slots : Slots α) : List α := slots.filterMap fun slot => slot

theorem mem_entries : x ∈ slots.entries ↔ slots.Holds x := by
  rw [entries, mem_filterMap]
  constructor
  · rintro ⟨slot, member, rfl⟩
    exact member
  · intro member
    exact ⟨some x, member, rfl⟩

instance decidableForallHolds (slots : Slots α) (P : α → Prop) [∀ x, Decidable (P x)] :
    Decidable (∀ x, slots.Holds x → P x) :=
  decidable_of_iff (∀ x ∈ slots.entries, P x)
    (forall_congr' fun _ => imp_congr mem_entries Iff.rfl)

/-- What is asked of the slot that a search finds. -/
instance decidableForallFound {β : Type*} (found : Option (α × β)) (P : α → β → Prop)
    [∀ a b, Decidable (P a b)] : Decidable (∀ a b, found = some (a, b) → P a b) :=
  match found with
  | none => isTrue nofun
  | some (a, b) => decidable_of_iff (P a b) (by simp)

theorem entry_cons_succ (first : Option α) (slots : Slots α) (slot : Nat) :
    entry (first :: slots) (slot + 1) = slots.entry slot := by
  rw [entry, entry, getElem?_cons_succ]

theorem lookup_cons_skip {first : Option α} (skipped : first.any wanted = false) :
    (lookup (first :: slots) wanted).map Prod.snd = (slots.lookup wanted).map Prod.snd := by
  rw [lookup, lookup, find, find, findIdx?_cons, skipped]
  simp only [false_eq_true, ↓reduceIte, bind_map]
  cases findIdx? (fun slot => slot.any wanted) slots with
  | none => rfl
  | some slot =>
    simp only [Option.bind_some, Function.comp_apply, Option.map_map]
    rfl

theorem lookup_eq_find (slots : Slots α) (wanted : α → Bool) :
    (slots.lookup wanted).map Prod.snd = slots.entries.find? wanted := by
  induction slots with
  | nil => rfl
  | cons first slots ih =>
    cases first with
    | none => exact (lookup_cons_skip rfl).trans ih
    | some x =>
      by_cases here : wanted x = true
      · have found : (entries (some x :: slots)).find? wanted = some x :=
          find?_cons_of_pos here
        rw [found, lookup, find, findIdx?_cons]
        simp only [any_some, here]
        rfl
      · have further : (entries (some x :: slots)).find? wanted = (entries slots).find? wanted :=
          find?_cons_of_neg here
        rw [further, ← ih]
        exact lookup_cons_skip (eq_false_iff.2 here)

theorem entries_keep : (slots.keep kept).entries = slots.entries.filter kept := by
  rw [entries, entries, keep, filterMap_map, filter_filterMap]
  rfl

end Holds

section Entry

variable {κ : Type} {slots : Slots α} {slot i : Nat} {x y : α} {wanted : α → Bool} {key : α → κ}

theorem entry_empty (count i : Nat) : (empty count : Slots α).entry i = none := by
  rw [entry, empty, getElem?_replicate]
  split_ifs <;> rfl

theorem entry_put (held : (slots.put slot x).entry i = some y) :
    i = slot ∧ y = x ∨ i ≠ slot ∧ slots.entry i = some y := by
  rw [entry, put, getElem?_set] at held
  split_ifs at held with here inside
  · exact .inl ⟨here.symm, (some.inj held).symm⟩
  · cases held
  · exact .inr ⟨fun same => here same.symm, held⟩

theorem entry_clear (held : (slots.clear slot).entry i = some y) :
    i ≠ slot ∧ slots.entry i = some y := by
  rw [entry, clear, getElem?_set] at held
  split_ifs at held with here inside
  · cases held
  · cases held
  · exact ⟨fun same => here same.symm, held⟩

theorem find_eq_some (found : slots.find wanted = some i) :
    ∃ x, slots.entry i = some x ∧ wanted x = true := by
  obtain ⟨inside, right, _⟩ := findIdx?_eq_some_iff_getElem.1 found
  obtain ⟨x, held, has⟩ := any_eq_true _ _ |>.1 right
  refine ⟨x, ?_, has⟩
  rw [entry, getElem?_eq_getElem inside, held]
  rfl

theorem find_eq_none (missing : slots.find wanted = none) (held : slots.Holds x) :
    wanted x = false :=
  findIdx?_eq_none_iff.1 missing (some x) held

theorem lookup_eq_some (found : slots.lookup wanted = some (i, x)) :
    slots.entry i = some x ∧ wanted x = true := by
  obtain ⟨slot, searched, rest⟩ := bind_eq_some_iff.1 found
  obtain ⟨y, held, same⟩ := map_eq_some_iff.1 rest
  cases same
  obtain ⟨z, here, has⟩ := find_eq_some searched
  rw [here] at held
  cases held
  exact ⟨here, has⟩

theorem lookup_eq_none (missing : slots.lookup wanted = none) (held : slots.Holds x) :
    wanted x = false := by
  have none := lookup_eq_find slots wanted
  rw [missing] at none
  exact eq_false_iff.2 (find?_eq_none.1 none.symm x (mem_entries.2 held))

theorem lookup_of_only (held : slots.entry slot = some x) (has : wanted x = true)
    (only : ∀ i y, slots.entry i = some y → wanted y = true → i = slot) :
    slots.lookup wanted = some (slot, x) := by
  cases searched : slots.find wanted with
  | none =>
    rw [find_eq_none searched (holds_of_entry held)] at has
    cases has
  | some i =>
    obtain ⟨y, here, alsoHas⟩ := find_eq_some searched
    have same := only i y here alsoHas
    rw [lookup, searched, same, Option.bind_some, held]
    rfl

def KeyUnique (key : α → κ) (slots : Slots α) : Prop :=
  ∀ i j x y, slots.entry i = some x → slots.entry j = some y → key x = key y → i = j

theorem keyUnique_empty (key : α → κ) (count : Nat) : KeyUnique key (empty count) := by
  intro i _ x _ held
  rw [entry_empty] at held
  cases held

section

variable (unique : KeyUnique key slots)
include unique

theorem KeyUnique.clear (slot : Nat) :
    KeyUnique key (slots.clear slot) := fun i j x y first second =>
  unique i j x y (entry_clear first).2 (entry_clear second).2

theorem KeyUnique.eq_of_holds (first : slots.Holds x) (second : slots.Holds y)
    (same : key x = key y) : x = y := by
  obtain ⟨i, here⟩ := exists_entry first
  obtain ⟨j, there⟩ := exists_entry second
  rw [unique i j x y here there same, there] at here
  exact (some.inj here).symm

theorem KeyUnique.holds_clear (held : slots.entry slot = some x)
    (left : (slots.clear slot).Holds y) :
    slots.Holds y ∧ key y ≠ key x := by
  obtain ⟨i, here⟩ := exists_entry left
  obtain ⟨other, before⟩ := entry_clear here
  exact ⟨holds_of_entry before, fun same => other (unique i slot y x before held same)⟩

theorem KeyUnique.holds_put {z : α} (held : slots.entry slot = some x)
    (left : (slots.put slot z).Holds y) : y = z ∨ slots.Holds y ∧ key y ≠ key x := by
  obtain ⟨i, here⟩ := exists_entry left
  rcases entry_put here with ⟨_, same⟩ | ⟨other, before⟩
  · exact .inl same
  · exact .inr ⟨holds_of_entry before, fun same => other (unique i slot y x before held same)⟩

end

theorem entry_keep {kept : α → Bool} (held : (slots.keep kept).entry slot = some x) :
    slots.entry slot = some x := by
  unfold entry keep at held
  unfold entry
  rw [getElem?_map] at held
  cases here : slots[slot]? with
  | none =>
    rw [here] at held
    cases held
  | some old =>
    rw [here] at held
    exact (filter_eq_some_iff.1 held).1

theorem entry_keep_of {kept : α → Bool} (held : slots.entry slot = some x)
    (has : kept x = true) : (slots.keep kept).entry slot = some x := by
  unfold entry at held ⊢
  unfold keep
  rw [join_eq_some_iff] at held
  rw [getElem?_map, held]
  simp only [map_some, filter_some, has, if_true, join_some]

theorem KeyUnique.keep (unique : KeyUnique key slots) (kept : α → Bool) :
    KeyUnique key (slots.keep kept) := fun i j x y first second =>
  unique i j x y (entry_keep first) (entry_keep second)

theorem eq_of_nodup {key : α → Option κ} {k : κ} (nodup : (slots.entries.filterMap key).Nodup)
    (first : slots.entry i = some x) (second : slots.entry j = some y) (hasKey : key x = some k)
    (alsoKey : key y = some k) : i = j := by
  rw [entries, filterMap_filterMap, Nodup, pairwise_filterMap, pairwise_iff_getElem] at nodup
  rw [entry, join_eq_some_iff, getElem?_eq_some_iff] at first second
  obtain ⟨below, first⟩ := first
  obtain ⟨alsoBelow, second⟩ := second
  have keyed : slots[i].bind key = some k := by rw [first]; exact hasKey
  have alsoKeyed : slots[j].bind key = some k := by rw [second]; exact alsoKey
  rcases Nat.lt_trichotomy i j with before | same | behind
  · exact absurd rfl (nodup i j below alsoBelow before k keyed k alsoKeyed)
  · exact same
  · exact absurd rfl (nodup j i alsoBelow below behind k alsoKeyed k keyed)

theorem KeyUnique.put (unique : KeyUnique key slots)
    (others : ∀ j y, slots.entry j = some y → j ≠ slot → key y ≠ key x) :
    KeyUnique key (slots.put slot x) := by
  intro i j y z first second same
  rcases entry_put first with ⟨here, rfl⟩ | ⟨away, before⟩
  · rcases entry_put second with ⟨alsoHere, _⟩ | ⟨apart, other⟩
    · exact here.trans alsoHere.symm
    · exact absurd same.symm (others j z other apart)
  · rcases entry_put second with ⟨here, rfl⟩ | ⟨_, other⟩
    · exact absurd same (others i y before away)
    · exact unique i j y z before other same

end Entry

section Write

variable {slots : Slots α} {slot i : Nat} {x y : α} {wanted : α → Bool}

theorem inside_of_entry (held : slots.entry slot = some x) : slot < slots.length := by
  by_contra outside
  rw [entry, getElem?_eq_none (Nat.le_of_not_lt outside)] at held
  cases held

theorem free_eq_some (found : slots.free = some slot) :
    slot < slots.length ∧ slots.entry slot = none := by
  obtain ⟨inside, isNone, _⟩ := findIdx?_eq_some_iff_getElem.1 found
  refine ⟨inside, ?_⟩
  rw [entry, getElem?_eq_getElem inside, isNone_iff_eq_none.1 isNone]
  rfl

theorem free_ne_none (inside : slot < slots.length) (isFree : slots.entry slot = none) :
    slots.free ≠ none := by
  intro full
  have taken := findIdx?_eq_none_iff.1 full (slots[slot]) (getElem_mem inside)
  rw [entry, getElem?_eq_getElem inside, join_some] at isFree
  rw [isFree] at taken
  cases taken

theorem entry_put_self (inside : slot < slots.length) : (slots.put slot x).entry slot = some x := by
  rw [entry, put, getElem?_set_self inside]
  rfl

theorem entry_put_of_ne (apart : i ≠ slot) : (slots.put slot x).entry i = slots.entry i := by
  rw [entry, put, getElem?_set_ne apart.symm, entry]

theorem entry_clear_of_ne (apart : i ≠ slot) : (slots.clear slot).entry i = slots.entry i := by
  rw [entry, clear, getElem?_set_ne apart.symm, entry]

@[simp] theorem entry_clear_self (slots : Slots α) (slot : Nat) :
    (slots.clear slot).entry slot = none := by
  rw [entry, clear, getElem?_set, if_pos rfl]
  split_ifs <;> rfl

variable {new : Option α}

theorem holds_set (held : slots.Holds y) (apart : slots.entry slot ≠ some y) :
    Holds (slots.set slot new) y := by
  obtain ⟨i, here⟩ := exists_entry held
  have other : i ≠ slot := fun same => apart (same ▸ here)
  have kept : entry (slots.set slot new) i = some y := by
    rw [entry, getElem?_set_ne other.symm]
    exact here
  exact holds_of_entry kept

theorem holds_set_of_ne (key : α → κ) (held : slots.entry slot = some x)
    (isHeld : slots.Holds y) (other : key y ≠ key x) : Holds (slots.set slot new) y := by
  refine holds_set isHeld ?_
  rw [held]
  rintro ⟨⟩
  exact other rfl

theorem holds_put_held (held : slots.entry slot = some y) : (slots.put slot x).Holds x :=
  holds_of_entry (entry_put_self (inside_of_entry held))

/-- An entry stays when another slot is set, or is the one whose slot is set. -/
theorem KeyUnique.holds_set_or {key : α → κ} (unique : KeyUnique key slots)
    (here : slots.entry slot = some x) (held : slots.Holds y) :
    (Holds (slots.set slot new) y ∧ key y ≠ key x) ∨ y = x := by
  by_cases same : key y = key x
  · exact .inr (unique.eq_of_holds held (holds_of_entry here) same)
  · exact .inl ⟨holds_set_of_ne key here held same, same⟩

theorem holds_put_free (found : slots.free = some slot) (held : slots.Holds y) :
    (slots.put slot x).Holds y := by
  refine holds_set held ?_
  rw [(free_eq_some found).2]
  exact (some_ne_none y).symm

theorem holds_put_self (found : slots.free = some slot) : (slots.put slot x).Holds x :=
  holds_of_entry (entry_put_self (free_eq_some found).1)

@[simp] theorem length_clear (slots : Slots α) (slot : Nat) :
    (slots.clear slot).length = slots.length := List.length_set

theorem put_entry (held : slots.entry slot = some x) : slots.put slot x = slots := by
  rw [entry, join_eq_some_iff] at held
  obtain ⟨inside, same⟩ := List.getElem?_eq_some_iff.1 held
  rw [put, ← same]
  exact List.set_getElem_self inside

theorem clear_put_free (isFree : slots.entry slot = none) :
    (slots.put slot x).clear slot = slots := by
  rw [put, clear, set_set]
  apply ext_getElem?
  intro i
  by_cases here : i = slot
  · subst here
    rw [getElem?_set_self']
    rw [entry] at isFree
    cases inside : slots[i]? with
    | none => rfl
    | some old =>
      rw [inside, join_some] at isFree
      rw [isFree]
      rfl
  · exact getElem?_set_ne fun same => here same.symm

theorem clear_put (slots : Slots α) (slot : Nat) (x : α) :
    (slots.put slot x).clear slot = slots.clear slot := List.set_set _

theorem find_put (same : (slots.entry slot).any wanted = wanted x) :
    (slots.put slot x).find wanted = slots.find wanted := by
  have searches : ∀ slots : Slots α, slots.find wanted =
      (slots.map fun slot => slot.any wanted).findIdx? id := fun slots => by
    rw [find, findIdx?_map, Function.id_comp]
  rw [searches, searches, put, map_set]
  congr 1
  apply ext_getElem?
  intro i
  by_cases here : i = slot
  · subst here
    rw [getElem?_set_self', getElem?_map]
    rw [entry] at same
    cases inside : slots[i]? with
    | none => rfl
    | some old =>
      rw [inside, join_some] at same
      rw [map_some, same]
      rfl
  · exact getElem?_set_ne fun isSame => here isSame.symm

theorem put_put (slots : Slots α) (slot : Nat) (x y : α) :
    (slots.put slot x).put slot y = slots.put slot y := List.set_set _

def count (slots : Slots α) (wanted : α → Bool) : Nat := slots.countP (Option.any wanted)

theorem count_set (slots : Slots α) (wanted : α → Bool) (new : Option α)
    (inside : slot < slots.length) :
    count (slots.set slot new) wanted + ((slots.entry slot).any wanted).toNat =
      slots.count wanted + (new.any wanted).toNat := by
  have here : slots.entry slot = slots[slot] := by rw [entry, getElem?_eq_getElem inside]; rfl
  have least := boole_getElem_le_countP (p := Option.any wanted) inside
  have value (b : Bool) : b.toNat = if b then 1 else 0 := by cases b <;> rfl
  rw [count, count, countP_set inside, here, value, value]
  omega

theorem count_put_free (found : slots.free = some slot) :
    (slots.put slot x).count wanted = slots.count wanted + (wanted x).toNat := by
  obtain ⟨inside, isFree⟩ := free_eq_some found
  have exchange := count_set slots wanted (some x) inside
  rw [isFree] at exchange
  exact exchange

theorem count_put_held (held : slots.entry slot = some y) :
    (slots.put slot x).count wanted + (wanted y).toNat = slots.count wanted + (wanted x).toNat := by
  have exchange := count_set slots wanted (some x) (inside_of_entry held)
  rw [held] at exchange
  exact exchange

theorem count_clear_held (held : slots.entry slot = some y) :
    (slots.clear slot).count wanted + (wanted y).toNat = slots.count wanted := by
  have exchange := count_set slots wanted none (inside_of_entry held)
  rw [held] at exchange
  exact exchange

theorem count_keep (slots : Slots α) (kept wanted : α → Bool) :
    (slots.keep kept).count wanted + slots.count (fun x => wanted x && !kept x) =
      slots.count wanted := by
  induction slots with
  | nil => rfl
  | cons first slots ih =>
    have one : (if (first.filter kept).any wanted then 1 else 0) +
        (if first.any (fun x => wanted x && !kept x) then 1 else 0) =
          if first.any wanted then 1 else 0 := by
      cases first with
      | none => rfl
      | some x => cases keeps : kept x <;> cases wants : wanted x <;> simp [keeps]
    rw [keep, count, count] at ih
    rw [keep, count, count, count, map_cons, countP_cons, countP_cons, countP_cons]
    rw [count] at ih
    omega

theorem count_empty (size : Nat) (wanted : α → Bool) : (empty size).count wanted = 0 := by
  rw [count, countP_eq_zero]
  intro slot member
  rw [eq_of_mem_replicate member]
  exact false_ne_true

theorem count_eq_zero (slots : Slots α) (wanted : α → Bool) :
    slots.count wanted = 0 ↔ ∀ x, slots.Holds x → wanted x = false := by
  rw [count, countP_eq_zero]
  constructor
  · exact fun none x held => eq_false_iff.2 (none (some x) held)
  · intro none slot member
    cases slot with
    | none => exact false_ne_true
    | some x => exact eq_false_iff.1 (none x member)

end Write

end Slots
