import Mathlib.Data.List.Induction
import Mathlib.Data.Nat.Notation

/-!
# Counters that are reset

A counter goes up with some events, and others reset it before they count (`used`). It stands for a
property of the past (`spent_iff`): it has come to `n` exactly if there are `n` events that count in
a row, with no event that resets it after the first of the row.
-/

namespace Budget

variable {X : Type*} (resets spends : X → Bool)

/-- The counter after one more event. -/
def next (used : ℕ) (event : X) : ℕ :=
  (if resets event then 0 else used) + if spends event then 1 else 0

/-- The counter after the events. -/
def used (events : List X) : ℕ := events.foldl (next resets spends) 0

/-- The events end in a row with `n` that count, in which none resets the counter after the
first. -/
def Spent (n : ℕ) (events : List X) : Prop :=
  ∃ before row, events = before ++ row ∧ (∀ event ∈ row.tail, resets event = false) ∧
    n ≤ row.countP spends

variable {resets spends} {events : List X}

@[simp]
theorem used_concat (event : X) :
    used resets spends (events ++ [event]) =
      next resets spends (used resets spends events) event := by
  rw [used, List.foldl_append]
  rfl

theorem countP_le_used (before : List X) {row : List X}
    (hrow : ∀ event ∈ row.tail, resets event = false) :
    row.countP spends ≤ used resets spends (before ++ row) := by
  induction row using List.reverseRecOn with
  | nil => exact Nat.zero_le _
  | append_singleton row event ih =>
    rw [← List.append_assoc, used_concat, List.countP_append, List.countP_singleton, next]
    refine Nat.add_le_add_right ?_ _
    rcases row with _ | ⟨first, row⟩
    · exact Nat.zero_le _
    · have hkept : resets event = false := hrow event (by simp)
      rw [hkept]
      exact ih fun other hother => hrow other (List.mem_append_left _ hother)

variable (resets spends) in
theorem exists_row (events : List X) :
    ∃ before row, events = before ++ row ∧ (∀ event ∈ row.tail, resets event = false) ∧
    used resets spends events = row.countP spends := by
  induction events using List.reverseRecOn with
  | nil => exact ⟨[], [], rfl, by simp, rfl⟩
  | append_singleton events event ih =>
    obtain ⟨before, row, rfl, hrow, hused⟩ := ih
    rcases hresets : resets event with _ | _
    · refine ⟨before, row ++ [event], by simp, ?_, ?_⟩
      · rcases row with _ | ⟨first, row⟩
        · simp
        · intro other hother
          rcases List.mem_append.mp hother with hother | hother
          · exact hrow other hother
          · exact List.mem_singleton.mp hother ▸ hresets
      · rw [used_concat, next, hresets, hused, List.countP_append, List.countP_singleton]
        rfl
    · -- The event that resets the counter starts a row of its own.
      refine ⟨before ++ row, [event], rfl, by simp, ?_⟩
      rw [used_concat, next, hresets, List.countP_singleton]
      exact Nat.zero_add _

/-- **What the counter counts**. -/
theorem spent_iff {n : ℕ} : Spent resets spends n events ↔ n ≤ used resets spends events := by
  constructor
  · rintro ⟨before, row, rfl, hrow, hle⟩
    exact Nat.le_trans hle (countP_le_used before hrow)
  · intro hle
    obtain ⟨before, row, heq, hrow, hused⟩ := exists_row resets spends events
    exact ⟨before, row, heq, hrow, hused ▸ hle⟩

end Budget
