import Mathlib.Tactic.Common

/-!
# Counting in windows of time

Lists of times, in the order in which something happened, and how many of them
fall into a stretch of a given length. A fixed-window counter knows the start of
its window and how many times it counted since (`Window.Counts`); it bounds every
stretch of time as long as the times before the window are far enough away
(`Window.Counts.rated`).
-/

namespace Window

open List

variable {limit length start count now : Nat} {times old current : List Nat}

/-- How many times fall into the stretch that begins at `first`. -/
def within (length first : Nat) (times : List Nat) : Nat :=
  times.countP fun time => first ≤ time ∧ time < first + length

def Rated (limit length : Nat) (times : List Nat) : Prop :=
  ∀ first, within length first times ≤ limit

theorem rated_nil (limit length : Nat) : Rated limit length [] := fun _ => Nat.zero_le limit

theorem Rated.right (rated : Rated limit length (old ++ current)) : Rated limit length current := by
  intro first
  have bound := rated first
  rw [within, countP_append] at bound
  exact Nat.le_trans (Nat.le_add_left _ _) bound

theorem within_far {first : Nat} (far : ∀ time ∈ old, time + length ≤ now)
    (present : now < first + length) : within length first old = 0 := by
  rw [within, countP_eq_zero]
  intro time member
  have := far time member
  rw [decide_eq_true_eq]
  omega

theorem Rated.snoc (rated : Rated limit length (old ++ current))
    (far : ∀ time ∈ old, time + length ≤ now) (room : current.length < limit) :
    Rated limit length (old ++ current ++ [now]) := by
  intro first
  have before := rated first
  have few : within length first current ≤ current.length := countP_le_length
  rw [within, countP_append, countP_singleton]
  change within length first (old ++ current) + _ ≤ limit
  split_ifs with inside
  · rw [decide_eq_true_eq] at inside
    have none := within_far far inside.2
    rw [within, countP_append]
    change within length first old + within length first current + 1 ≤ limit
    omega
  · exact before

/-- The window of a counter started at `start`, and the last `count` times are in
it: the others are a length away from its start. -/
def Counts (length start count : Nat) (times : List Nat) : Prop :=
  ∃ old current, times = old ++ current ∧ (∀ time ∈ old, time + length ≤ start) ∧
    current.length = count

theorem counts_restart (far : ∀ time ∈ times, time + length ≤ now) :
    Counts length now 1 (times ++ [now]) :=
  ⟨times, [now], rfl, far, rfl⟩

theorem Counts.next (counts : Counts length start count times) (now : Nat) :
    Counts length start (count + 1) (times ++ [now]) := by
  obtain ⟨old, current, rfl, far, rfl⟩ := counts
  exact ⟨old, current ++ [now], append_assoc _ _ _, far, length_append⟩

/-- **A counter below the limit keeps every stretch within the limit.** -/
theorem Counts.rated (counts : Counts length start count times)
    (rated : Rated limit length times) (begun : start ≤ now) (room : count < limit) :
    Rated limit length (times ++ [now]) := by
  obtain ⟨old, current, rfl, far, rfl⟩ := counts
  exact rated.snoc (fun time member => Nat.le_trans (far time member) begun) room

theorem rated_restart (rated : Rated limit length times)
    (far : ∀ time ∈ times, time + length ≤ now) (room : 0 < limit) :
    Rated limit length (times ++ [now]) := by
  have whole : Rated limit length (times ++ []) := by rwa [append_nil]
  have bound := whole.snoc far room
  rwa [append_nil] at bound

end Window
