import Mathlib.Data.List.Forall2
import Mathlib.Data.List.Induction
import Mathlib.Order.Basic

/-!
# Deterministic machines and their runs

A machine takes one input at a time: `step s i` is the output and the next state.
A run is the list of its transitions (`trace`). Five rules carry every proof about
runs: what each step keeps holds all along a run (`forall_trace`), what only grows
at each step grows from one transition to every later one (`pairwise_trace`), a fact
stays once reached exactly when each step keeps it (`stable_iff`), two machines that
move in lockstep give related outputs (`forall₂_outputs_iff`, `outputs_eq_of_good`), and a
machine refines another when its steps do (`run_refines`).
-/

namespace Machine

/-- One transition of a run. -/
structure Transition (σ ι ο : Type*) where
  /-- The state before. -/
  before : σ
  /-- The input taken. -/
  input : ι
  /-- The output given. -/
  output : ο
  /-- The state after. -/
  after : σ

variable {σ τ ι ο π : Type*}

/-- The transitions of the run from `s` over `inputs`. -/
def trace (step : σ → ι → ο × σ) : σ → List ι → List (Transition σ ι ο)
  | _, [] => []
  | s, i :: rest => ⟨s, i, (step s i).1, (step s i).2⟩ :: trace step (step s i).2 rest

/-- The outputs of the run from `s` over `inputs`. -/
def outputs (step : σ → ι → ο × σ) (s : σ) (inputs : List ι) : List ο :=
  (trace step s inputs).map Transition.output

/-- The state the run from `s` over `inputs` ends in. -/
def final (step : σ → ι → ο × σ) (s : σ) (inputs : List ι) : σ :=
  inputs.foldl (fun s i => (step s i).2) s

@[simp]
theorem final_nil (step : σ → ι → ο × σ) (s : σ) : final step s [] = s := rfl

@[simp]
theorem final_cons (step : σ → ι → ο × σ) (s : σ) (i : ι) (rest : List ι) :
    final step s (i :: rest) = final step (step s i).2 rest := rfl

@[simp]
theorem outputs_nil (step : σ → ι → ο × σ) (s : σ) : outputs step s [] = [] := rfl

@[simp]
theorem outputs_cons (step : σ → ι → ο × σ) (s : σ) (i : ι) (rest : List ι) :
    outputs step s (i :: rest) = (step s i).1 :: outputs step (step s i).2 rest := rfl

variable {step : σ → ι → ο × σ} {inputs : List ι} {s : σ} {t : τ}

/-- **The invariant rule**: what each step keeps, and what each step from such a
state guarantees, holds at every transition of a run. -/
theorem forall_trace (inv : σ → Prop) (post : σ → ι → ο → σ → Prop)
    (keeps : ∀ s i, inv s → inv (step s i).2 ∧ post s i (step s i).1 (step s i).2) (hs : inv s)
    (inputs : List ι) :
    ∀ t ∈ trace step s inputs, inv t.before ∧ inv t.after ∧
      post t.before t.input t.output t.after := by
  induction inputs generalizing s with
  | nil => simp [trace]
  | cons i rest ih =>
    intro t ht
    obtain ⟨hinv, hpost⟩ := keeps s i hs
    rcases List.mem_cons.mp ht with rfl | ht
    · exact ⟨hs, hinv, hpost⟩
    · exact ih hinv t ht

theorem outputs_append (step : σ → ι → ο × σ) (s : σ) (first second : List ι) :
    outputs step s (first ++ second) = outputs step s first ++ outputs step
      (final step s first) second := by
  induction first generalizing s with
  | nil => rfl
  | cons i rest ih => simp [ih]

/-- The invariant rule for the state a run ends in. -/
theorem final_invariant (inv : σ → Prop) (keeps : ∀ s i, inv s → inv (step s i).2) (hs : inv s)
    (inputs : List ι) : inv (final step s inputs) := by
  induction inputs generalizing s with
  | nil => exact hs
  | cons i rest ih => exact ih (keeps s i hs)

theorem final_append (step : σ → ι → ο × σ) (s : σ) (first second : List ι) :
    final step s (first ++ second) = final step (final step s first) second :=
  List.foldl_append

/-- A transition of a run splits its inputs. -/
theorem mem_trace_iff {t : Transition σ ι ο} :
    t ∈ trace step s inputs ↔ ∃ before i after, inputs = before ++ i :: after ∧
      t = ⟨final step s before, i, (step (final step s before) i).1,
          (step (final step s before) i).2⟩ := by
  induction inputs generalizing s with
  | nil => simp [trace]
  | cons i rest ih =>
    rw [trace, List.mem_cons, ih]
    constructor
    · rintro (rfl | ⟨before, j, after, rfl, rfl⟩)
      · exact ⟨[], i, rest, rfl, rfl⟩
      · exact ⟨i :: before, j, after, rfl, rfl⟩
    · rintro ⟨before, j, after, hinputs, ht⟩
      cases before with
      | nil =>
        obtain ⟨rfl, rfl⟩ := List.cons.inj hinputs
        exact .inl ht
      | cons k before =>
        obtain ⟨rfl, rfl⟩ := List.cons.inj hinputs
        exact .inr ⟨before, j, after, rfl, ht⟩

/-- Along the run from `s` a fact that holds goes on to hold, as long as no input frees it. -/
def Stable {κ : Type*} (step : σ → ι → ο × σ) (fact : κ → σ → Prop) (frees : ι → κ → Prop) (s : σ)
    (inputs : List ι) : Prop :=
  ∀ before mid after, inputs = before ++ mid ++ after → ∀ k, fact k (final step s before) →
    (∀ i ∈ mid, ¬ frees i k) → fact k (final step s (before ++ mid))

/-- **The stability rule**: facts stay along a run exactly when every step of the run
keeps those that its input does not free. -/
theorem stable_iff {κ : Type*} {fact : κ → σ → Prop} {frees : ι → κ → Prop} :
    Stable step fact frees s inputs ↔
      ∀ t ∈ trace step s inputs, ∀ k, ¬ frees t.input k → fact k t.before → fact k t.after := by
  constructor
  · intro stable t ht k hfrees hfact
    obtain ⟨before, i, after, rfl, rfl⟩ := mem_trace_iff.mp ht
    have hafter := stable before [i] after (by simp) k hfact (by simpa using hfrees)
    rwa [final_append, final_cons, final_nil] at hafter
  · intro keeps before mid after hinputs k hfact hfrees
    -- Induction on the inputs between, from the last one: the fact holds up to it.
    induction mid using List.reverseRecOn generalizing after with
    | nil => simpa using hfact
    | append_singleton mid i ih =>
      have hmid : fact k (final step s (before ++ mid)) :=
        ih (i :: after) (by simp [hinputs]) fun j hj => hfrees j (by simp [hj])
      have hstep := keeps _ (mem_trace_iff.mpr ⟨before ++ mid, i, after, by simp [hinputs], rfl⟩) k
        (hfrees i (by simp)) hmid
      rw [← List.append_assoc, final_append]
      exact hstep

/-- **The growth rule**: when no step shrinks the measure `m`, a later transition
starts with at least what an earlier one ended with. -/
theorem pairwise_trace {α : Type*} [Preorder α] (inv : σ → Prop) (m : σ → α)
    (keeps : ∀ s i, inv s → inv (step s i).2 ∧ m s ≤ m (step s i).2) (hs : inv s)
    (inputs : List ι) :
    (∀ t ∈ trace step s inputs, m s ≤ m t.before) ∧
      (trace step s inputs).Pairwise fun t u => m t.after ≤ m u.before := by
  induction inputs generalizing s with
  | nil => simp [trace]
  | cons i rest ih =>
    obtain ⟨hinv, hle⟩ := keeps s i hs
    obtain ⟨above, pairwise⟩ := ih hinv
    refine ⟨fun t ht => ?_, List.pairwise_cons.mpr ⟨above, pairwise⟩⟩
    rcases List.mem_cons.mp ht with rfl | ht
    · exact le_refl _
    · exact hle.trans (above t ht)

/-- **The lockstep rule**: two machines that keep `R` between their states at good
steps, and whose outputs are related by `Q` at these and at no other, give related
outputs along a run exactly when every step of the run is good. -/
theorem forall₂_outputs_iff {step' : τ → ι → π × τ} (R : σ → τ → Prop) (Q : ο → π → Prop)
    (good : σ → ι → Prop)
    (good_step : ∀ s t i, R s t → good s i → R (step s i).2 (step' t i).2 ∧
        Q (step s i).1 (step' t i).1)
    (bad_step : ∀ s t i, R s t → ¬ good s i → ¬ Q (step s i).1 (step' t i).1) (h : R s t)
    (inputs : List ι) :
    List.Forall₂ Q (outputs step s inputs) (outputs step' t inputs) ↔
      ∀ tr ∈ trace step s inputs, good tr.before tr.input := by
  induction inputs generalizing s t with
  | nil => simp [trace]
  | cons i rest ih =>
    rw [outputs_cons, outputs_cons, List.forall₂_cons, trace, List.forall_mem_cons]
    by_cases hgood : good s i
    · obtain ⟨hR, hQ⟩ := good_step s t i h hgood
      rw [ih hR]
      exact and_congr_left fun _ => ⟨fun _ => hgood, fun _ => hQ⟩
    · exact ⟨fun hQ => absurd hQ.1 (bad_step s t i h hgood), fun hg => absurd hg.1 hgood⟩

/-- **The conditional lockstep rule**: as long as the first machine's outputs are
good, the second gives the same ones. -/
theorem outputs_eq_of_good {step' : τ → ι → ο × τ} (R : σ → τ → Prop) (allowed : ι → Prop)
    (good : ο → Prop)
    (lockstep : ∀ s t i, R s t → allowed i → good (step s i).1 → R (step s i).2 (step' t i).2 ∧
        (step' t i).1 = (step s i).1) (h : R s t) (inputs : List ι)
    (hallowed : ∀ i ∈ inputs, allowed i) (hgood : ∀ o ∈ outputs step s inputs, good o) :
    outputs step' t inputs = outputs step s inputs := by
  induction inputs generalizing s t with
  | nil => rfl
  | cons i rest ih =>
    rw [outputs_cons] at hgood ⊢
    obtain ⟨hR, heq⟩ := lockstep s t i h (hallowed i (by simp)) (hgood _ (by simp))
    rw [outputs_cons, heq, ih hR (fun j hj => hallowed j (by simp [hj])) fun o ho =>
      hgood o (by simp [ho])]

/-- **The refinement rule**: a machine whose every allowed step is matched by a step of
another, on the input `g` makes of its own, answers along a run what the other answers and
ends where it ends. -/
theorem run_refines {κ μ : Type*} (step : σ → ι → ο × σ) (step' : τ → κ → π × τ) (R : σ → τ → Prop)
    (g : ι → κ) (m : ο → μ) (m' : π → μ) (allowed : ι → Prop)
    (matched : ∀ s t i, R s t → allowed i → m (step s i).1 = m' (step' t (g i)).1 ∧
        R (step s i).2 (step' t (g i)).2) (h : R s t) (hallowed : ∀ i ∈ inputs, allowed i) :
    (outputs step s inputs).map m = (outputs step' t (inputs.map g)).map m' ∧
      R (final step s inputs) (final step' t (inputs.map g)) := by
  induction inputs generalizing s t with
  | nil => exact ⟨rfl, h⟩
  | cons i rest ih =>
    obtain ⟨hi, hrest⟩ := List.forall_mem_cons.mp hallowed
    obtain ⟨houtput, hR⟩ := matched s t i h hi
    obtain ⟨houts, hfinal⟩ := ih hR hrest
    refine ⟨?_, hfinal⟩
    rw [List.map_cons, outputs_cons, outputs_cons, List.map_cons, List.map_cons, houtput, houts]

end Machine
