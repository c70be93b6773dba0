import Mathlib.Tactic.Common

/-!
# A directory that mirrors a store

One party keeps a directory of keys by slot, another a store of values by
place. The directory mirrors the store when every key it lists is the key of
the value in the slot's place. Filling a slot on both sides keeps that, however
the slot was chosen.
-/

namespace Mirror

variable {Slot Place Key Value : Type}

/-- Every key in the directory is that of a good value in the slot's place. -/
def Mirrors (inside : Slot → Prop) (place : Slot → Place) (keyOf : Value → Key)
    (good : Value → Prop) (directory : Slot → Option Key) (store : Place → Option Value) : Prop :=
  ∀ slot key, inside slot → directory slot = some key →
    ∃ value, store (place slot) = some value ∧ keyOf value = key ∧ good value

variable {inside : Slot → Prop} {place : Slot → Place} {keyOf : Value → Key} {good : Value → Prop}
  {directory : Slot → Option Key} {store : Place → Option Value}

theorem Mirrors.empty (none : ∀ slot, inside slot → directory slot = none) :
    Mirrors inside place keyOf good directory store := by
  intro slot key within listed
  rw [none slot within] at listed
  cases listed

theorem Mirrors.fill [DecidableEq Place] {filled : Slot → Option Key} {slot : Slot} {value : Value}
    (mirrors : Mirrors inside place keyOf good directory store)
    (distinct : ∀ first second, inside first → inside second → place first = place second →
      first = second)
    (within : inside slot) (wanted : good value) (here : filled slot = some (keyOf value))
    (elsewhere : ∀ other, other ≠ slot → filled other = directory other) :
    Mirrors inside place keyOf good filled (Function.update store (place slot) (some value)) := by
  intro other key otherIn listed
  by_cases same : other = slot
  · subst same
    rw [here] at listed
    cases listed
    exact ⟨value, Function.update_self _ _ _, rfl, wanted⟩
  · rw [elsewhere other same] at listed
    obtain ⟨held, stored, keyed, kept⟩ := mirrors other key otherIn listed
    have apart : place other ≠ place slot := fun equal =>
      same (distinct other slot otherIn within equal)
    exact ⟨held, by rw [Function.update_of_ne apart]; exact stored, keyed, kept⟩

end Mirror
