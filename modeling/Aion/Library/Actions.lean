import Mathlib.Algebra.GroupWithZero.Nat
import Mathlib.Data.Nat.Notation
import Mathlib.Logic.Relation

/-!
# Systems that take actions

In a state of a system some actions are enabled, and each leads to one state (`step`). The states
that are reached by enabled actions, each of which may be taken, keep every invariant that such
actions keep (`Reachable.invariant`). A list of actions is run by `run`, and what it reaches is
reachable (`reachable_of_run`). A run has no more actions that use up what is left than its actions
cost (`countP_le_costs`).
-/

namespace Actions

variable {σ ι : Type*} {step : σ → ι → Option σ} {may : σ → ι → Prop}

/-- An action that may be taken leads from one state to the other. -/
def Leads (step : σ → ι → Option σ) (may : σ → ι → Prop) (s s' : σ) : Prop :=
  ∃ action, may s action ∧ step s action = some s'

/-- The state is reached by actions that may be taken. -/
abbrev Reachable (step : σ → ι → Option σ) (may : σ → ι → Prop) : σ → σ → Prop :=
  Relation.ReflTransGen (Leads step may)

/-- Every action may be taken. -/
def Always (_ : σ) (_ : ι) : Prop := True

instance : ∀ (s : σ) (action : ι), Decidable (Always s action) := fun _ _ => .isTrue trivial

variable {actions : List ι} {inv : σ → Prop} {s' s : σ}

/-- **The invariant rule**: what every action that may be taken keeps holds of every reachable
state. -/
theorem Reachable.invariant
    (keeps : ∀ {s action s'}, inv s → may s action → step s action = some s' → inv s')
    (h : Reachable step may s s') (hs : inv s) : inv s' := by
  induction h with
  | refl => exact hs
  | tail _ hstep ih =>
    obtain ⟨action, hmay, hstep⟩ := hstep
    exact keeps ih hmay hstep

/-- The invariant rule, with what is known of every reachable state at hand in every step. -/
theorem Reachable.invariant_of_reachable {start : σ}
    (keeps : ∀ {s action s'}, Reachable step may start s → inv s → may s action →
        step s action = some s' → inv s') (h : Reachable step may start s) (hstart : inv start) :
    inv s := by
  induction h with
  | refl => exact hstart
  | tail hrch hstep ih =>
    obtain ⟨action, hmay, hstep⟩ := hstep
    exact keeps hrch ih hmay hstep

/-- Runs a list of actions; there is no result if one of them may not be taken or is not enabled. -/
def run (step : σ → ι → Option σ) (may : σ → ι → Prop) [∀ s action, Decidable (may s action)] :
    σ → List ι → Option σ
  | s, [] => some s
  | s, action :: rest =>
    if may s action then (step s action).bind fun s' => run step may s' rest else none

theorem reachable_of_run [∀ s action, Decidable (may s action)]
    (h : run step may s actions = some s') : Reachable step may s s' := by
  induction actions generalizing s with
  | nil =>
    obtain rfl := Option.some.inj h
    exact .refl
  | cons action rest ih =>
    simp only [run] at h
    split at h
    · rename_i hmay
      obtain ⟨middle, hstep, hrest⟩ := Option.bind_eq_some_iff.mp h
      exact .head ⟨action, hmay, hstep⟩ (ih hrest)
    · cases h

/-- **The rule of costs**: where every action pays for its own part from what is left and from what
it costs, so does a run. -/
theorem countP_le_costs [∀ s action, Decidable (may s action)] {left : σ → ℕ}
    {progresses : ι → Bool} {cost : ι → ℕ}
    (pays : ∀ {s action s'}, step s action = some s' →
        left s' + (if progresses action then 1 else 0) ≤ left s + cost action)
    (h : run step may s actions = some s') :
    left s' + actions.countP progresses ≤ left s + (actions.map cost).sum := by
  induction actions generalizing s with
  | nil =>
    obtain rfl := Option.some.inj h
    exact Nat.le_refl _
  | cons action rest ih =>
    simp only [run] at h
    split at h
    · obtain ⟨middle, hstep, hrest⟩ := Option.bind_eq_some_iff.mp h
      have hpaid := pays hstep
      have hrestPaid := ih hrest
      rw [List.countP_cons, List.map_cons, List.sum_cons]
      omega
    · cases h

end Actions
