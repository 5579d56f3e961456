import Aion.Worker.BackpressureFairness

/-!
# Work left over by the sweep

A sweep that returns fewer rows than its batch may leave rows of a namespace that has headroom:
each pass visits a route once, so what a late route leaves of its share goes to no earlier one, and
the second pass splits what is left over all the routes again (`idle_unevenRoutes`).

It does so exactly when a share caps a route of the second pass in vain (`conserves_iff`); with one
route for each namespace none does (`noneCappedIn_of_oneRoute`).
-/

namespace Aion

open Interleaving OutboxTable

namespace SweepSetting

/-! ### The condition -/

section Condition

variable (setting : SweepSetting) (listed : List ClaimScope)

/-- In the second pass no route is capped in vain. -/
def NoneCappedSecond : Prop :=
  NoneCappedIn listed (fun name => setting.headroom name - setting.firstDealt listed name)
    setting.names (setting.roomLeft listed) (setting.afterFirst listed)

/-- If rows are left of the batch, every namespace has used up its headroom or has nothing left to
claim. -/
def Conserves (rows : List OutboxRow) (table' : OutboxTable) : Prop :=
  rows.length < setting.batchSize → ∀ name ∈ setting.names,
    rows.countP (inNamespace name) = setting.headroom name ∨
      (table'.claimable setting.now setting.held).countP (inNamespace name) = 0

instance : Decidable (setting.NoneCappedSecond listed) :=
  inferInstanceAs (Decidable (NoneCappedIn _ _ _ _ _))

instance (rows : List OutboxRow) (table' : OutboxTable) :
    Decidable (setting.Conserves rows table') :=
  inferInstanceAs (Decidable (_ → ∀ name ∈ setting.names, _))

end Condition

/-! ### What the first pass leaves to the second -/

section Passes

variable {setting : SweepSetting} {history : WorkflowId → List Event} {clock : Instant → Prop}
  {table table' : OutboxTable} {rows : List OutboxRow} {listed : List ClaimScope}
    {names : List String}
  {headroom : String → ℕ}

theorem wellFormed_planWith (hnd : names.Nodup) : (planWith listed headroom names).WellFormed := by
  refine ⟨?_, fun entry hent route hroute => ?_⟩
  · rw [planWith, map_fst_plan]
    exact hnd
  · obtain ⟨name, -, rfl⟩ := List.mem_map.mp hent
    exact namespace_of_mem_listedOf hroute

/-- The first pass keeps to the headroom of each namespace, and lowers it by the rows it claims. -/
theorem plan_of_firstPass {held : List WorkflowId} {budget budget' slice : ℕ} {plan' : SweepPlan}
    (hnd : names.Nodup)
    (h : Fallible.Ends (StoreAnswers history clock)
        (firstPass held slice (planWith listed headroom names) budget) table
      (.ok (plan', budget', rows)) table') :
    (∀ name ∈ names, rows.countP (inNamespace name) ≤ headroom name) ∧
      plan' = planWith listed (fun name => headroom name - rows.countP (inNamespace name))
      names := by
  obtain ⟨rows', -, -, hwithin, hret⟩ := takes_of_firstPass (wellFormed_planWith hnd) h
  obtain ⟨rfl, -, rfl⟩ : plan' = (planWith listed headroom names).lowered rows' ∧
    budget' = budget - rows'.length ∧
      rows = rows' := by simpa using hret _ rfl
  refine ⟨fun name hname => hwithin.headroom _ (List.mem_map_of_mem hname), ?_⟩
  rw [SweepPlan.lowered, planWith, List.map_map]
  rfl

end Passes

end SweepSetting

/-- **Work conservation**: a sweep that returns fewer rows than its batch leaves nothing over that
it could claim exactly when no route of the second pass is capped in vain. -/
theorem conserves_iff (setting : SweepSetting) {history : WorkflowId → List Event}
    {clock : Instant → Prop} {listing : OutboxTable → List ClaimScope} {table' : OutboxTable}
    {rows : List OutboxRow} (hsteady : Steady clock setting.now setting.table)
    (h : Fallible.Ends (Lists listing (StoreAnswers history clock))
        (claimRoundRobin setting.fraction setting.quota setting.batchSize setting.held)
      setting.table (.ok rows) table') :
    setting.Conserves rows table' ↔
      (rows.length < setting.batchSize → setting.NoneCappedSecond (listing setting.table)) := by
  obtain ⟨hlisted, first, second, plan', budget', middle, rfl, hfst, hsnd⟩ :=
    SweepSetting.ends_sweep hsteady h
  have hnames : setting.names.Nodup := nodup_namespacesOf _
  have hnd := nodup_claimable setting.now setting.held setting.table
  obtain ⟨hserves, hbudget, hafter, hroom, hdealt⟩ := SweepSetting.firstPass_dealt hsteady hfst
  obtain ⟨hwithin, rfl⟩ := SweepSetting.plan_of_firstPass hnames hfst
  obtain ⟨hserves', hpass⟩ := serves_of_secondPass hserves.steady hsnd
  have hwithin' : ∀ name ∈ setting.names,
      second.countP (inNamespace name) ≤ setting.headroom name - first.countP (inNamespace name) := by
    obtain ⟨second', -, -, hwithin', hret⟩ :=
      takes_of_secondPass (SweepSetting.wellFormed_planWith hnames) hsnd
    obtain rfl := hret second rfl
    exact fun name hname => hwithin'.headroom _ (List.mem_map_of_mem hname)
  have hcovered : Covered (listing setting.table) (middle.claimable setting.now setting.held) :=
    fun row hrow => by
    rw [hafter] at hrow
    exact SweepSetting.covered_claimable (fun route => (hlisted route).mpr) row
      (passed_sublist.subset hrow)
  refine imp_congr_right fun hleft => ?_
  have hlen := hserves'.length
  rw [List.length_append] at hleft
  rw [hpass] at hlen
  rw [SweepSetting.NoneCappedSecond, ← hafter, ← hroom]
  simp only [← hdealt]
  rw [noneCappedIn_iff (nodup_claimable _ _ _) hnames hcovered (by omega), ← hpass]
  refine forall₂_congr fun name hname => ?_
  -- what the second pass takes of the namespace, beside what it may
  have hmay := hwithin name hname
  have hmay' := hwithin' name hname
  have hleaves := hserves'.leaves name
  rw [List.countP_append]
  omega

/-! ### A sweep that leaves rows over -/

/-- A pending row of the namespace, in a task queue. -/
def queuedRow (queue : String) (workflow : ℕ) : OutboxRow :=
  { dueRow "a" workflow with taskQueue := queue }

/-- One namespace with five rows in one task queue and one in another. -/
def unevenRoutes (batchSize : ℕ) : SweepSetting where
  fraction := .new 1 1
  quota _ := 10
  batchSize := batchSize
  held := []
  table := ⟨[queuedRow "busy" 0, queuedRow "busy" 1, queuedRow "busy" 2, queuedRow "busy" 3,
      queuedRow "busy" 4,
    queuedRow "quiet" 5], by decide⟩
  now := 0

/-- What a sweep of them returns and leaves. -/
def sweptUneven (batchSize : ℕ) : Except StoreError (List OutboxRow) × OutboxTable :=
  (steadyStore (fun _ => []) 0).run (claimRoundRobin (.new 1 1) (fun _ => 10) batchSize [])
    (unevenRoutes batchSize).table

theorem ends_unevenRoutes (batchSize : ℕ) {rows : List OutboxRow}
    (h : (sweptUneven batchSize).1 = .ok rows) :
    Fallible.Ends (Lists (routesAt 0) (StoreAnswers (fun _ => []) (ClockStopped 0)))
      (claimRoundRobin
      (unevenRoutes batchSize).fraction (unevenRoutes batchSize).quota
        (unevenRoutes batchSize).batchSize
      (unevenRoutes batchSize).held) (unevenRoutes batchSize).table (.ok rows)
        (sweptUneven batchSize).2 := by
  rw [← h]
  exact ends_lists (clockStopped 0) _ _

/-- What a sweep of `unevenRoutes 6` claims: three rows and one, and then one. -/
def fiveClaimed : List OutboxRow :=
  [queuedRow "busy" 0, queuedRow "busy" 1, queuedRow "busy" 2, queuedRow "quiet" 5,
      queuedRow "busy" 3].map (OutboxRow.claim · 0)

/-- A batch of six leaves a row over, and the headroom is ten. -/
theorem idle_unevenRoutes :
    ∃ rows table', Fallible.Ends (Lists (routesAt 0) (StoreAnswers (fun _ => []) (ClockStopped 0)))
      (claimRoundRobin
      (unevenRoutes 6).fraction (unevenRoutes 6).quota (unevenRoutes 6).batchSize
        (unevenRoutes 6).held)
      (unevenRoutes 6).table (.ok rows) table' ∧ ¬ (unevenRoutes 6).Conserves rows table' := by
  have hrows : (sweptUneven 6).1 = .ok fiveClaimed := by decide +kernel
  exact ⟨_, _, ends_unevenRoutes 6 hrows, by decide +kernel⟩

/-- So a route of its second pass is capped in vain, and none is where the batch is twelve: that
sweep claims all six rows. -/
theorem conserves_unevenRoutes :
    ¬ (unevenRoutes 6).NoneCappedSecond (routesAt 0 (unevenRoutes 6).table) ∧
      ∃ rows, (sweptUneven 12).1 = .ok rows ∧ rows.length = 6 ∧
        (unevenRoutes 12).Conserves rows (sweptUneven 12).2 := by
  have hsteady : ∀ batchSize, Steady (ClockStopped 0) (unevenRoutes batchSize).now (unevenRoutes batchSize).table := by
    rintro batchSize _ rfl row -
    rfl
  constructor
  · intro hnone
    have hrows : (sweptUneven 6).1 = .ok fiveClaimed := by decide +kernel
    have hiff := conserves_iff (unevenRoutes 6) (hsteady 6) (ends_unevenRoutes 6 hrows)
    exact absurd (hiff.mpr fun _ => hnone) (by decide +kernel)
  · have hrows : ∃ rows : List OutboxRow, rows.length = 6 ∧ (sweptUneven 12).1 = .ok rows :=
      ⟨(unevenRoutes 12).table.rows.map (OutboxRow.claim · 0), rfl, by decide +kernel⟩
    obtain ⟨rows, hlen, hrows⟩ := hrows
    refine ⟨rows, hrows, hlen, (conserves_iff _ (hsteady 12) (ends_unevenRoutes 12 hrows)).mpr fun _ => ?_⟩
    decide +kernel

end Aion
