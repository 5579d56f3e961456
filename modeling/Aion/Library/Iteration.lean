import Mathlib.Data.DFinsupp.WellFounded
import Mathlib.Logic.Function.Basic
import Mathlib.Order.OrderIsoNat

/-!
# Iteration to a fixpoint

A system of equations gives each node a value from the values of all nodes. It is solved by
visiting: a visit sets a node to the value of its equation, a pass visits every node once in
some order, and passes are made until one changes nothing (`Settles`). The order may differ
from pass to pass.

With monotone equations, values that are nowhere below those of their equations only descend.
In a well-founded order of values they settle, and on the greatest solution below the start
(`exists_limit`), whatever the orders. Turned upside down the theorem is about values that
ascend.
-/

namespace Iteration

variable {ι L : Type*} [DecidableEq ι]

/-- Sets a node to the value of its equation. -/
def visit (step : ι → (ι → L) → L) (values : ι → L) (v : ι) : ι → L :=
  Function.update values v (step v values)

/-- One visit of every node, in order. -/
def pass (step : ι → (ι → L) → L) (nodes : List ι) (values : ι → L) : ι → L :=
  nodes.foldl (visit step) values

/-- The values after some passes, of which each has its own order of the nodes. -/
def passes (step : ι → (ι → L) → L) (nodes : ℕ → List ι) (start : ι → L) : ℕ → ι → L
  | 0 => start
  | k + 1 => pass step (nodes k) (passes step nodes start k)

/-- Passes until one changes nothing. -/
def Settles (step : ι → (ι → L) → L) (nodes : ℕ → List ι) (start result : ι → L) : Prop :=
  ∃ k, passes step nodes start k = result ∧ pass step (nodes k) result = result

/-- Every node has the value of its equation. -/
def Solves (step : ι → (ι → L) → L) (values : ι → L) : Prop := ∀ v, step v values = values v

/-- Orders in which every pass visits every node once. -/
def Covers (nodes : ℕ → List ι) : Prop := ∀ k, (nodes k).Nodup ∧ ∀ v, v ∈ nodes k

section Visits

variable {step : ι → (ι → L) → L} {values : ι → L} {nodes : List ι}

theorem visit_self (v : ι) : visit step values v v = step v values := Function.update_self ..

variable {v : ι}

theorem visit_of_ne {w : ι} (h : w ≠ v) : visit step values v w = values w :=
  Function.update_of_ne h ..

theorem visit_eq_self (h : step v values = values v) : visit step values v = values :=
  Function.update_eq_iff.mpr ⟨h, fun _ _ => rfl⟩

theorem pass_of_notMem (h : v ∉ nodes) : pass step nodes values v = values v := by
  induction nodes generalizing values with
  | nil => rfl
  | cons w rest ih =>
    obtain ⟨hw, hrest⟩ := List.ne_and_not_mem_of_not_mem_cons h
    exact (ih hrest).trans (visit_of_ne hw)

theorem pass_eq_self_iff (hnd : nodes.Nodup) :
    pass step nodes values = values ↔ ∀ v ∈ nodes, step v values = values v := by
  induction nodes with
  | nil => simp [pass]
  | cons v rest ih =>
    obtain ⟨hv, hrest⟩ := List.nodup_cons.mp hnd
    have hcons : pass step (v :: rest) values = pass step rest (visit step values v) := rfl
    rw [hcons, List.forall_mem_cons]
    constructor
    · intro h
      -- The rest of the pass leaves the first node alone.
      have hfst : step v values = values v := by
        have hkept : pass step rest (visit step values v) v = step v values := (pass_of_notMem hv).trans (visit_self v)
        rw [← hkept, h]
      rw [visit_eq_self hfst] at h
      exact ⟨hfst, (ih hrest).mp h⟩
    · rintro ⟨hfst, hlat⟩
      rw [visit_eq_self hfst]
      exact (ih hrest).mpr hlat

theorem Settles.solves {nodes : ℕ → List ι} {start result : ι → L} (hnodes : Covers nodes)
    (h : Settles step nodes start result) : Solves step result := by
  obtain ⟨k, -, hpass⟩ := h
  exact fun v => (pass_eq_self_iff (hnodes k).1).mp hpass v ((hnodes k).2 v)

theorem Solves.pass_eq (h : Solves step values) : pass step nodes values = values := by
  induction nodes with
  | nil => rfl
  | cons v rest ih => exact (congrArg (pass step rest) (visit_eq_self (h v))).trans ih

theorem Solves.passes_eq (h : Solves step values) (nodes : ℕ → List ι) (k : ℕ) :
    passes step nodes values k = values := by
  induction k with
  | zero => rfl
  | succ k ih => exact (congrArg (pass step (nodes k)) ih).trans h.pass_eq

end Visits

/-! ### Values seen through a map -/

section Maps

variable {M : Type*} {step : ι → (ι → L) → L} {step' : ι → (ι → M) → M} {f : L → M}

theorem map_pass (h : ∀ v values, f (step v values) = step' v (f ∘ values)) (nodes : List ι)
    (values : ι → L) : f ∘ pass step nodes values = pass step' nodes (f ∘ values) := by
  induction nodes generalizing values with
  | nil => rfl
  | cons v rest ih =>
    have hvisit : f ∘ visit step values v = visit step' (f ∘ values) v := by
      unfold visit
      rw [Function.comp_update, h]
    exact (ih _).trans (congrArg (pass step' rest) hvisit)

theorem map_passes (h : ∀ v values, f (step v values) = step' v (f ∘ values)) (nodes : ℕ → List ι)
    (start : ι → L) (k : ℕ) : f ∘ passes step nodes start k = passes step' nodes (f ∘ start) k := by
  induction k with
  | zero => rfl
  | succ k ih => exact (map_pass h (nodes k) _).trans (congrArg (pass step' (nodes k)) ih)

end Maps

/-! ### Descending values -/

section Descent

variable [PartialOrder L] {step : ι → (ι → L) → L} {values : ι → L}

/-- No value is below that of its equation. -/
def Descends (step : ι → (ι → L) → L) (values : ι → L) : Prop := ∀ v, step v values ≤ values v

theorem Descends.visit_le (h : Descends step values) (v : ι) : visit step values v ≤ values := by
  intro w
  by_cases hw : w = v
  · subst hw
    rw [visit_self]
    exact h w
  · rw [visit_of_ne hw]

theorem Descends.visit (hmono : ∀ v, Monotone (step v)) (h : Descends step values) (v : ι) :
    Descends step (visit step values v) := by
  intro w
  by_cases hw : w = v
  · subst hw
    rw [visit_self]
    exact hmono w (h.visit_le w)
  · rw [visit_of_ne hw]
    exact (hmono w (h.visit_le v)).trans (h w)

theorem Solves.le_visit {solution : ι → L} (hsolves : Solves step solution)
    (hmono : ∀ v, Monotone (step v)) (hle : solution ≤ values) (v : ι) :
    solution ≤ Iteration.visit step values v := by
  intro w
  by_cases hw : w = v
  · subst hw
    rw [visit_self, ← hsolves w]
    exact hmono w hle
  · rw [visit_of_ne hw]
    exact hle w

/-- A pass over descending values lowers them, no further than to any solution below them. -/
theorem Descends.pass (hmono : ∀ v, Monotone (step v)) (h : Descends step values) (nodes : List ι) :
    Descends step (pass step nodes values) ∧ pass step nodes values ≤ values ∧
      ∀ solution, Solves step solution → solution ≤ values → solution ≤ pass step nodes values := by
  induction nodes generalizing values with
  | nil => exact ⟨h, le_rfl, fun _ _ hle => hle⟩
  | cons v rest ih =>
    obtain ⟨hdescends, hbelow, habove⟩ := ih (h.visit hmono v)
    exact ⟨hdescends, hbelow.trans (h.visit_le v),
      fun solution hsolves hle => habove solution hsolves (hsolves.le_visit hmono hle v)⟩

variable {start : ι → L} {nodes : ℕ → List ι}

theorem Descends.passes (hmono : ∀ v, Monotone (step v)) (h : Descends step start) (k : ℕ) :
    Descends step (passes step nodes start k) ∧ Iteration.passes step nodes start k ≤ start ∧
      ∀ solution, Solves step solution → solution ≤ start →
        solution ≤ Iteration.passes step nodes start k := by
  induction k with
  | zero => exact ⟨h, le_rfl, fun _ _ hle => hle⟩
  | succ k ih =>
    obtain ⟨hdescends, hbelow, habove⟩ := ih
    obtain ⟨hdescends', hbelow', habove'⟩ := hdescends.pass hmono (nodes k)
    exact ⟨hdescends', hbelow'.trans hbelow, fun solution hsolves hle =>
        habove' solution hsolves (habove solution hsolves hle)⟩

/-- Descending values reach the greatest solution below the start, and stay there. -/
theorem exists_limit [Finite ι] [WellFoundedLT L] (hmono : ∀ v, Monotone (step v))
    (h : Descends step start) (hnodes : Covers nodes) :
    ∃ limit, Solves step limit ∧ limit ≤ start ∧
      (∀ solution, Solves step solution → solution ≤ start → solution ≤ limit) ∧
      ∃ settled, ∀ k, settled ≤ k → passes step nodes start k = limit := by
  have hanti : Antitone (passes step nodes start) :=
    antitone_nat_of_succ_le fun k => ((h.passes hmono k).1.pass hmono (nodes k)).2.1
  obtain ⟨settled, hsett⟩ := WellFoundedLT.antitone_chain_condition hanti
  have hstays : ∀ k, settled ≤ k → passes step nodes start k = passes step nodes start settled :=
    fun k hk => (hsett k hk).symm
  have hpass : pass step (nodes settled) (passes step nodes start settled) =
    passes step nodes start settled :=
    hstays (settled + 1) (Nat.le_succ settled)
  obtain ⟨-, hbelow, habove⟩ := h.passes hmono settled
  exact ⟨passes step nodes start settled, fun v =>
      (pass_eq_self_iff (hnodes settled).1).mp hpass v ((hnodes settled).2 v), hbelow, habove,
    settled, hstays⟩

end Descent

end Iteration
