import Aion.Worker.OutboxCalls
import Mathlib.Algebra.Order.BigOperators.Group.List

/-!
# Backpressure at the claim

The sweep of `backpressure.rs`. It asks for the routes with due rows, counts what each of their
namespaces has claimed, and claims in two passes over the namespaces: first up to a slice of the
batch for each, then up to what is left of the batch. A namespace claims no more than its
headroom, what its ceiling leaves above the count, and spreads it over its routes.

`Takes` says what any number of claims has done to the table: some pending rows are claimed, no
held one, and every other row is as before. Each loop of the sweep takes rows within the bounds
it was given (`takes_of_slice`, `takes_of_firstPass`, `takes_of_secondPass`), whether or not the
store breaks it off, and so does each sweep of a dispatcher (`bounds_of_sweep`).

The ceilings of the nodes round up the shares of a quota, so they add up to at least the quota
and to less than one more for each node (`sum_ceilings`).
-/

namespace Aion

open Interleaving OutboxTable

/-! ### The share of a node -/

theorem UInt32.toNat_max_eq (a b : UInt32) : (max a b).toNat = max a.toNat b.toNat := by
  show (if a ≤ b then b else a).toNat = _
  split <;> rename_i h <;> simp only [UInt32.le_iff_toNat_le] at h <;> omega

theorem UInt32.toNat_min_eq (a b : UInt32) : (min a b).toNat = min a.toNat b.toNat := by
  show (if a ≤ b then a else b).toNat = _
  split <;> rename_i h <;> simp only [UInt32.le_iff_toNat_le] at h <;> omega

/-- The owned shards of a node among all shards. -/
structure OwnedShardFraction where
  owned : UInt32
  total : UInt32
  /-- A node owns a shard. -/
  pos : 1 ≤ owned.toNat
  /-- It owns no more than there are. -/
  le : owned.toNat ≤ total.toNat

namespace OwnedShardFraction

/-- `OwnedShardFraction::new`. -/
def new (owned total : UInt32) : OwnedShardFraction where
  owned := min (max owned 1) (max total 1)
  total := max total 1
  pos := by
    rw [UInt32.toNat_min_eq, UInt32.toNat_max_eq, UInt32.toNat_max_eq]
    exact le_min (le_max_right _ _) (le_max_right _ _)
  le := by
    rw [UInt32.toNat_min_eq]
    exact min_le_right _ _

/-- `per_node_ceiling`, in the `u64` arithmetic it is computed in. -/
def perNodeCeiling (fraction : OwnedShardFraction) (quota : UInt32) : UInt32 :=
  let numerator := quota.toUInt64 * fraction.owned.toUInt64 + fraction.total.toUInt64 - 1
  let ceiling := numerator / fraction.total.toUInt64
  if ceiling ≤ 4294967295 then ceiling.toUInt32 else 4294967295

variable (fraction : OwnedShardFraction) (quota : UInt32)

/-- Nothing on the way to the ceiling overflows. -/
theorem numerator_lt : quota.toNat * fraction.owned.toNat + fraction.total.toNat < 2 ^ 64 := by
  have hquota := quota.toNat_lt
  have howned := fraction.owned.toNat_lt
  have htotal := fraction.total.toNat_lt
  have hmul : quota.toNat * fraction.owned.toNat ≤ (2 ^ 32 - 1) * (2 ^ 32 - 1) :=
    Nat.mul_le_mul (by omega) (by omega)
  omega

theorem ceiling_le :
    (quota.toNat * fraction.owned.toNat + fraction.total.toNat - 1) / fraction.total.toNat ≤
      quota.toNat := by
  have hpos := fraction.pos
  have hle := fraction.le
  have hmul : quota.toNat * fraction.owned.toNat ≤ quota.toNat * fraction.total.toNat :=
    Nat.mul_le_mul_left _ hle
  rw [← Nat.lt_succ_iff, Nat.div_lt_iff_lt_mul (by omega), Nat.succ_mul]
  omega

/-- The ceiling is the share of the quota, rounded up. -/
theorem toNat_perNodeCeiling :
    (fraction.perNodeCeiling quota).toNat =
      (quota.toNat * fraction.owned.toNat + fraction.total.toNat - 1) / fraction.total.toNat := by
  have hfits := fraction.numerator_lt quota
  have hsmall := fraction.ceiling_le quota
  have hquota := quota.toNat_lt
  have hpos := fraction.pos
  have hle := fraction.le
  have hmul : (quota.toUInt64 * fraction.owned.toUInt64).toNat = quota.toNat * fraction.owned.toNat := by
    rw [UInt64.toNat_mul, UInt32.toNat_toUInt64, UInt32.toNat_toUInt64, Nat.mod_eq_of_lt (by omega)]
  have hadd : (quota.toUInt64 * fraction.owned.toUInt64 + fraction.total.toUInt64).toNat =
      quota.toNat * fraction.owned.toNat + fraction.total.toNat := by
    rw [UInt64.toNat_add, hmul, UInt32.toNat_toUInt64, Nat.mod_eq_of_lt hfits]
  have hsub : (quota.toUInt64 * fraction.owned.toUInt64 + fraction.total.toUInt64 - 1).toNat =
      quota.toNat * fraction.owned.toNat + fraction.total.toNat - 1 := by
    rw [UInt64.toNat_sub_of_le _ _ (by rw [UInt64.le_iff_toNat_le, hadd]; simp; omega), hadd]
    rfl
  have hdiv : ((quota.toUInt64 * fraction.owned.toUInt64 +
      fraction.total.toUInt64 - 1) / fraction.total.toUInt64).toNat =
      (quota.toNat * fraction.owned.toNat + fraction.total.toNat - 1) / fraction.total.toNat := by
    rw [UInt64.toNat_div, hsub, UInt32.toNat_toUInt64]
  have hfit : (quota.toUInt64 * fraction.owned.toUInt64 +
        fraction.total.toUInt64 - 1) / fraction.total.toUInt64 ≤ 4294967295 := by
    rw [UInt64.le_iff_toNat_le, hdiv]
    simp
    omega
  unfold perNodeCeiling
  simp only [hfit, if_true]
  rw [UInt64.toNat_toUInt32, hdiv, Nat.mod_eq_of_lt (by omega)]

end OwnedShardFraction

/-- Shares of `quota` in the ratio of `owned` to `total`, rounded up, add up to between the shares
of the sum and these and one for each but the rounding. -/
theorem sum_ceil_bounds (quota : ℕ) {total : ℕ} (hpos : 0 < total) (owned : List ℕ) :
    quota * owned.sum ≤ (owned.map fun share => (quota * share + total - 1) / total).sum * total ∧
      (owned.map fun share => (quota * share + total - 1) / total).sum * total ≤
        quota * owned.sum + owned.length * (total - 1) := by
  induction owned with
  | nil => simp
  | cons share rest ih =>
    obtain ⟨hlower, hupper⟩ := ih
    have hfloor := Nat.div_mul_le_self (quota * share + total - 1) total
    have hceil : quota * share + total - 1 < (quota * share + total - 1) / total * total + total :=
      Nat.lt_div_mul_add hpos
    simp only [List.map_cons, List.sum_cons, List.length_cons, Nat.mul_add, Nat.add_mul,
      Nat.one_mul]
    constructor <;> omega

/-- **The ceilings share the quota**: over any split of the shards, they add up to at least the
quota and to less than one more for each node. -/
theorem sum_ceilings (quota total : UInt32) {owned : List UInt32} (hpos : 0 < total.toNat)
    (howned : ∀ shards ∈ owned, 1 ≤ shards.toNat)
    (hspl : (owned.map UInt32.toNat).sum = total.toNat) :
    quota.toNat ≤ (owned.map fun shards =>
        ((OwnedShardFraction.new shards total).perNodeCeiling quota).toNat).sum ∧
      (owned.map fun shards => ((OwnedShardFraction.new shards total).perNodeCeiling
          quota).toNat).sum <
        quota.toNat + owned.length := by
  have htotal : (OwnedShardFraction.new 1 total).total.toNat = total.toNat := by
    change (max total 1).toNat = _
    rw [UInt32.toNat_max_eq]
    exact max_eq_left hpos
  have hceilings : (owned.map fun shards =>
      ((OwnedShardFraction.new shards total).perNodeCeiling quota).toNat) =
      (owned.map UInt32.toNat).map fun share => (quota.toNat * share + total.toNat - 1) / total.toNat := by
    rw [List.map_map]
    refine List.map_congr_left fun shards hmem => ?_
    have hle : shards.toNat ≤ total.toNat := hspl ▸ List.le_sum_of_mem (List.mem_map_of_mem hmem)
    have hshards : (OwnedShardFraction.new shards total).owned.toNat = shards.toNat := by
      change (min (max shards 1) (max total 1)).toNat = _
      rw [UInt32.toNat_min_eq, UInt32.toNat_max_eq, UInt32.toNat_max_eq]
      exact (min_eq_left ((max_eq_left (howned shards hmem)).le.trans (hle.trans (le_max_left _ _)))).trans
        (max_eq_left (howned shards hmem))
    rw [OwnedShardFraction.toNat_perNodeCeiling, hshards, Function.comp]
    exact congrArg₂ _ (congrArg (_ + · - 1) htotal) htotal
  obtain ⟨hlower, hupper⟩ := sum_ceil_bounds quota.toNat hpos (owned.map UInt32.toNat)
  rw [hspl] at hlower hupper
  rw [hceilings]
  have hlength : 0 < owned.length := by
    rcases owned with _ | ⟨first, rest⟩
    · simp at hspl
      omega
    · simp
  refine ⟨Nat.le_of_mul_le_mul_right hlower hpos, ?_⟩
  refine Nat.lt_of_mul_lt_mul_right (hupper.trans_lt ?_)
  rw [List.length_map, Nat.add_mul]
  have := Nat.mul_lt_mul_of_pos_left (show total.toNat - 1 < total.toNat by omega) hlength
  omega

/-! ### The sweep -/

/-- One namespace's claim plan for a sweep. -/
structure NamespacePlan where
  headroom : ℕ
  routes : List ClaimScope

/-- The plans of a sweep by namespace, in order. -/
abbrev SweepPlan := List (String × NamespacePlan)

/-- `div_ceil`. -/
def divCeil (n d : ℕ) : ℕ := (n + d - 1) / d

/-- The loop of `claim_namespace_slice`: with `left` routes to go, each is asked for its share of
what remains. -/
def claimRoutes (held : List WorkflowId) : List ClaimScope → ℕ → ℕ → WorkerM (List OutboxRow)
  | [], _, _ => return []
  | route :: rest, left, remaining =>
    if remaining = 0 then return []
    else do
      let share := min (max (divCeil remaining left) 1) remaining
      let rows ← WorkerM.outbox (fun now => .claimOutboxRowsScopedExcluding now route share held) OutboxAnswer.toRows
      let later ← claimRoutes held rest (max (left - 1) 1) (remaining - rows.length)
      return rows ++ later

/-- `claim_namespace_slice`. -/
def claimNamespaceSlice (held : List WorkflowId) (routes : List ClaimScope) (allocation : ℕ) :
    WorkerM (List OutboxRow) :=
  claimRoutes held routes (max (min routes.length (UInt32.size - 1)) 1) allocation

/-- The first pass of `execute_plan`: the plans with the headroom that is left, the budget that is
left, and the rows. -/
def firstPass (held : List WorkflowId) (slice : ℕ) :
    SweepPlan → ℕ → WorkerM (SweepPlan × ℕ × List OutboxRow)
  | [], budget => return ([], budget, [])
  | (name, plan) :: rest, budget => do
    let rows ← claimNamespaceSlice held plan.routes (min (min slice plan.headroom) budget)
    let (later, budget', claimed) ← firstPass held slice rest (budget - rows.length)
    return ((name, { plan with headroom := plan.headroom - rows.length }) :: later, budget', rows ++ claimed)

/-- The second pass: the rows. -/
def secondPass (held : List WorkflowId) : SweepPlan → ℕ → WorkerM (List OutboxRow)
  | [], _ => return []
  | (_, plan) :: rest, budget =>
    if budget = 0 then return []
    else do
      let rows ← claimNamespaceSlice held plan.routes (min plan.headroom budget)
      let claimed ← secondPass held rest (budget - rows.length)
      return rows ++ claimed

/-- `execute_plan`. -/
def executePlan (held : List WorkflowId) (plan : SweepPlan) (slice batchSize : ℕ) :
    WorkerM (List OutboxRow) := do
  let (plan, budget, first) ← firstPass held slice plan batchSize
  let second ← secondPass held plan budget
  return first ++ second

/-- The namespaces of the routes, in order. -/
def namespacesOf (routes : List ClaimScope) : List String :=
  (routes.map ClaimScope.namespace_).dedup.insertionSort (· ≤ ·)

/-- What the ceiling leaves above the claimed count, which is read as a `u32`. -/
def headroomOf (ceiling : UInt32) (counts : List (String × ℕ)) (name : String) : ℕ :=
  ceiling.toNat - min ((counts.lookup name).getD 0) (UInt32.size - 1)

/-- The slice of the batch for each of `active` namespaces. -/
def perNamespaceSlice (batchSize active : ℕ) : ℕ :=
  max (divCeil batchSize (max (min active (UInt32.size - 1)) 1)) 1

/-- `plan_sweep`, with the quotas the cache gives. -/
def planSweep (fraction : OwnedShardFraction) (quota : String → UInt32) (routes : List ClaimScope)
    (batchSize : ℕ) : WorkerM (SweepPlan × ℕ) := do
  let names := namespacesOf routes
  let counts ← WorkerM.outbox (fun _ => .countClaimedOutboxRowsByNamespace names)
    OutboxAnswer.toCounts
  return (names.map fun name =>
      (name, ⟨headroomOf (fraction.perNodeCeiling (quota name)) counts name,
          routes.filter fun route => route.namespace_ = name⟩),
    perNamespaceSlice batchSize names.length)

/-- `claim_round_robin`. -/
def claimRoundRobin (fraction : OwnedShardFraction) (quota : String → UInt32) (batchSize : ℕ)
    (held : List WorkflowId) : WorkerM (List OutboxRow) := do
  let routes ← WorkerM.outbox .pendingOutboxRoutes OutboxAnswer.toRoutes
  if routes.isEmpty then return []
  else do
    let (plan, slice) ← planSweep fraction quota routes batchSize
    executePlan held plan slice batchSize

/-! ### What claims do to the table -/

/-- How many rows of a namespace are claimed. -/
def OutboxTable.claimedIn (table : OutboxTable) (name : String) : ℕ :=
  table.rows.countP fun row => row.namespace_ = name ∧ row.status = .claimed

/-- Some pending rows are claimed, none of a held workflow; the others are as before. -/
structure Takes (held : List WorkflowId) (table table' : OutboxTable) (rows : List OutboxRow) :
    Prop where
  /-- The rows taken were pending, and are not of a held workflow. -/
  fresh : ∀ row ∈ rows, row.workflowId ∉ held ∧
    ∃ before now, table.lookup row.dispatchKey = some before ∧ before.status = .pending ∧
      row = before.claim now
  /-- No row is taken twice. -/
  distinct : (rows.map OutboxRow.dispatchKey).Nodup
  /-- The others stay. -/
  leaves : ∀ key, table'.lookup key = (rows.find? fun row => row.dispatchKey = key).or
    (table.lookup key)
  /-- The claimed count of a namespace grows by the rows of it. -/
  counts : ∀ name, table'.claimedIn name = table.claimedIn name + rows.countP fun row =>
    row.namespace_ = name

variable {outcome : Except StoreError (List OutboxRow)} {selected : List OutboxRow}
  {batchSize : ℕ} {row : OutboxRow}

namespace Takes

variable {held : List WorkflowId} {table table' table'' : OutboxTable} {rows rows' : List OutboxRow}

theorem none : Takes held table table [] :=
  ⟨by simp, by simp, by simp, by simp⟩

/-- A row that was taken is claimed. -/
theorem status_of_mem (h : Takes held table table' rows) (hrow : row ∈ rows) :
    row.status = .claimed := by
  obtain ⟨-, before, now, -, -, rfl⟩ := h.fresh row hrow
  rfl

/-- A row that is pending afterwards was there before. -/
theorem lookup_of_pending (h : Takes held table table' rows) {key : String}
    (hrow : table'.lookup key = some row) (hpend : row.status = .pending) :
    (rows.find? fun row => row.dispatchKey = key) = .none ∧ table.lookup key = some row := by
  rw [h.leaves] at hrow
  cases hfind : rows.find? fun row => row.dispatchKey = key with
  | none =>
    rw [hfind] at hrow
    exact ⟨rfl, hrow⟩
  | some taken =>
    rw [hfind] at hrow
    obtain rfl := Option.some.inj hrow
    rw [h.status_of_mem (List.mem_of_find?_eq_some hfind)] at hpend
    cases hpend

theorem trans (h : Takes held table table' rows) (h' : Takes held table' table'' rows') :
    Takes held table table'' (rows ++ rows') := by
  have hnew : ∀ row ∈ rows', (rows.find? fun other => other.dispatchKey = row.dispatchKey) = .none := by
    intro row hrow
    obtain ⟨-, before, now, hbef, hpend, -⟩ := h'.fresh row hrow
    exact (h.lookup_of_pending hbef hpend).1
  refine ⟨fun row hrow => ?_, ?_, fun key => ?_, fun name => ?_⟩
  · rcases List.mem_append.mp hrow with hrow | hrow
    · exact h.fresh row hrow
    · obtain ⟨hheld, before, now, hbef, hpend, heq⟩ := h'.fresh row hrow
      exact ⟨hheld, before, now, (h.lookup_of_pending hbef hpend).2, hpend, heq⟩
  · rw [List.map_append]
    refine h.distinct.append h'.distinct fun key hkey hkey' => ?_
    obtain ⟨row, hrow, rfl⟩ := List.mem_map.mp hkey'
    obtain ⟨other, hother, hsame⟩ := List.mem_map.mp hkey
    exact List.find?_eq_none.mp (hnew row hrow) other hother (by simpa using hsame)
  · rw [h'.leaves, h.leaves, List.find?_append]
    cases hfind : rows'.find? fun row => row.dispatchKey = key with
    | none => simp
    | some row =>
      have hkey : row.dispatchKey = key := by simpa using List.find?_some hfind
      have hnone := hnew row (List.mem_of_find?_eq_some hfind)
      rw [hkey] at hnone
      rw [hnone]
      rfl
  · rw [h'.counts, h.counts, List.countP_append, Nat.add_assoc]

end Takes

/-- The rows that meet a condition: some of the selected ones, and some of the others. -/
theorem countP_split {table : OutboxTable} (hnd : selected.Nodup)
    (hmem : ∀ row ∈ selected, row ∈ table.rows) (p : OutboxRow → Bool) :
    table.rows.countP p = selected.countP p +
      (table.rows.filter fun row => row ∉ selected).countP p := by
  have hperm : (table.rows.filter fun row => row ∈ selected).Perm selected := by
    rw [List.perm_ext_iff_of_nodup (table.nodup_rows.filter _) hnd]
    intro row
    simp only [List.mem_filter, decide_eq_true_eq, and_iff_right_iff_imp]
    exact hmem row
  rw [List.countP_eq_countP_filter_add table.rows _ fun row => decide (row ∈ selected),
    hperm.countP_eq]
  simp

/-- After the selected rows are rewritten: some of the new ones, and some of the others. -/
theorem countP_rewrite {table : OutboxTable} {f : OutboxRow → OutboxRow}
    {keeps : ∀ row, (f row).dispatchKey = row.dispatchKey} (hnd : selected.Nodup)
    (hmem : ∀ row ∈ selected, row ∈ table.rows) (p : OutboxRow → Bool) :
    (table.rewrite selected f keeps).rows.countP p =
      (selected.map f).countP p + (table.rows.filter fun row => row ∉ selected).countP p := by
  change (table.rows.map fun row => if decide (row ∈ selected) = true then f row else
      row).countP p = _
  rw [List.countP_map, countP_split hnd hmem, List.countP_map]
  congr 1
  · exact List.countP_congr fun row hrow => by simp [hrow]
  · refine List.countP_congr fun row hrow => ?_
    have hsel : row ∉ selected := by simpa using (List.mem_filter.mp hrow).2
    simp [hsel]

/-- Claiming some of the pending rows adds them to the claimed count. -/
theorem claimedIn_rewrite {table : OutboxTable} {now : Instant} (hnd : selected.Nodup)
    (hmem : ∀ row ∈ selected, row ∈ table.rows ∧ row.status = .pending) (name : String) :
    (table.rewrite selected (OutboxRow.claim · now) (OutboxRow.claim_dispatchKey now)).claimedIn
      name =
      table.claimedIn name + (selected.map (OutboxRow.claim · now)).countP fun row =>
        row.namespace_ = name := by
  have hrows : ∀ row ∈ selected, row ∈ table.rows := fun row hrow => (hmem row hrow).1
  have htaken : ((selected.map (OutboxRow.claim · now)).countP fun row => row.namespace_ = name ∧
      row.status = .claimed) =
      (selected.map (OutboxRow.claim · now)).countP fun row => row.namespace_ = name := by
    refine List.countP_congr fun taken htaken => ?_
    obtain ⟨row, -, rfl⟩ := List.mem_map.mp htaken
    have hclmd : (row.claim now).status = .claimed := rfl
    simp [hclmd]
  have hbef : (selected.countP fun row => row.namespace_ = name ∧ row.status = .claimed) = 0 := by
    rw [List.countP_eq_zero]
    intro row hrow
    simp [(hmem row hrow).2]
  unfold OutboxTable.claimedIn
  rw [countP_rewrite hnd hrows, countP_split hnd hrows, htaken, hbef]
  omega

/-- A scoped claim takes rows of the scope, no more than its limit. -/
theorem takes_claim (table : OutboxTable) (now : Instant) (scope : ClaimScope) (limit : ℕ)
    (held : List WorkflowId) :
    Takes held table (table.execute (.claimOutboxRowsScopedExcluding now scope limit held)).2
        (table.execute (.claimOutboxRowsScopedExcluding now scope limit held)).1.toRows ∧
      (table.execute (.claimOutboxRowsScopedExcluding now scope limit held)).1.toRows.length ≤
        limit ∧
      ∀ row ∈ (table.execute (.claimOutboxRowsScopedExcluding now scope limit held)).1.toRows,
        scope.admits row := by
  simp only [execute, claim, OutboxAnswer.toRows]
  generalize hselected : table.select
    (fun row => isDue now row && (scope.admits row && !held.contains row.workflowId))
    claimOrder limit = selected
  have hof : ∀ row ∈ selected, row ∈ table.rows ∧ row.status = .pending ∧ scope.admits row ∧ row.workflowId ∉ held := by
    intro row hrow
    rw [← hselected] at hrow
    obtain ⟨hmem, hdue⟩ := of_mem_select hrow
    simp only [isDue, Bool.and_eq_true, decide_eq_true_eq] at hdue
    exact ⟨hmem, hdue.1.1, hdue.2.1, by simpa using hdue.2.2⟩
  have hnd : selected.Nodup := hselected ▸ nodup_select
  have hkeys : ((selected.map (OutboxRow.claim · now)).map OutboxRow.dispatchKey) = selected.map OutboxRow.dispatchKey := by
    rw [List.map_map]
    rfl
  refine ⟨⟨?_, ?_, fun key => ?_, claimedIn_rewrite hnd fun row hrow =>
      ⟨(hof row hrow).1, (hof row hrow).2.1⟩⟩, ?_, ?_⟩
  · rintro _ htaken
    obtain ⟨row, hrow, rfl⟩ := List.mem_map.mp htaken
    obtain ⟨hmem, hpend, -, hheld⟩ := hof row hrow
    exact ⟨hheld, row, now, KeyedTable.lookup_of_mem hmem, hpend, rfl⟩
  · rw [hkeys]
    exact hnd.map_on fun row hrow row' hrow' hkey =>
      KeyedTable.eq_of_key_eq (hof row hrow).1 (hof row' hrow').1 hkey
  · rw [rewrite, KeyedTable.lookup_modify, List.find?_map]
    cases hfind : selected.find? ((fun row =>
      decide (row.dispatchKey = key)) ∘ (OutboxRow.claim · now)) with
    | some row =>
      have hrow := List.mem_of_find?_eq_some hfind
      have hkey : row.dispatchKey = key := by simpa [OutboxRow.claim] using List.find?_some hfind
      rw [← hkey, KeyedTable.lookup_of_mem (hof row hrow).1]
      simp [hrow]
    | none =>
      cases hlook : table.lookup key with
      | none => rfl
      | some row =>
        have hnot : row ∉ selected := fun hrow => by
          have := List.find?_eq_none.mp hfind row hrow
          simp [OutboxRow.claim, KeyedTable.key_of_lookup hlook] at this
        simp [hnot]
  · rw [List.length_map, ← hselected]
    exact List.length_take_le _ _
  · intro _ htaken
    obtain ⟨row, hrow, rfl⟩ := List.mem_map.mp htaken
    exact (hof row hrow).2.2.1

/-! ### What the loops take -/

/-- The rows are of namespaces in the plan, and of each no more than its headroom. -/
structure Within (plan : SweepPlan) (rows : List OutboxRow) : Prop where
  planned : ∀ row ∈ rows, row.namespace_ ∈ plan.map Prod.fst
  headroom : ∀ entry ∈ plan, (rows.countP fun row => row.namespace_ = entry.1) ≤ entry.2.headroom

/-- The plan with the headroom that the rows leave. -/
def SweepPlan.lowered (plan : SweepPlan) (rows : List OutboxRow) : SweepPlan :=
  plan.map fun entry =>
    (entry.1, { entry.2 with headroom := entry.2.headroom - rows.countP fun row => row.namespace_ = entry.1 })

/-- Each namespace is planned once, with routes of its own. -/
structure SweepPlan.WellFormed (plan : SweepPlan) : Prop where
  distinct : (plan.map Prod.fst).Nodup
  own : ∀ entry ∈ plan, ∀ route ∈ entry.2.routes, route.namespace_ = entry.1

theorem SweepPlan.WellFormed.tail {entry : String × NamespacePlan} {rest : SweepPlan}
    (h : SweepPlan.WellFormed (entry :: rest)) : rest.WellFormed :=
  ⟨(List.nodup_cons.mp h.distinct).2, fun other hother =>
      h.own other (List.mem_cons_of_mem _ hother)⟩

theorem SweepPlan.WellFormed.lowered {plan : SweepPlan} (h : plan.WellFormed)
    (rows : List OutboxRow) : (plan.lowered rows).WellFormed := by
  refine ⟨?_, ?_⟩
  · have hnames : (plan.lowered rows).map Prod.fst = plan.map Prod.fst := by
      rw [SweepPlan.lowered, List.map_map]
      rfl
    rw [hnames]
    exact h.distinct
  · intro entry hent
    obtain ⟨other, hother, rfl⟩ := List.mem_map.mp hent
    exact h.own other hother

theorem namespace_of_admits {scope : ClaimScope} (h : scope.admits row = true) :
    row.namespace_ = scope.namespace_ := by
  simp only [ClaimScope.admits, Bool.and_eq_true, beq_iff_eq] at h
  exact h.1.1

section Loops

variable {history : WorkflowId → List Event} {clock : Instant → Prop} {held : List WorkflowId}
  {table table' : OutboxTable}

variable {routes : List ClaimScope} {names : List String} {slice budget : ℕ}

theorem takes_of_claimRoutes {left remaining : ℕ}
    (h : Fallible.Ends (StoreAnswers history clock)
        (claimRoutes held routes left remaining) table outcome table') :
    ∃ rows, Takes held table table' rows ∧ rows.length ≤ remaining ∧
      (∀ row ∈ rows, ∃ route ∈ routes, route.admits row = true) ∧ ∀ returned,
        outcome = .ok returned → returned = rows := by
  induction routes generalizing table left remaining outcome with
  | nil =>
    obtain ⟨rfl, rfl⟩ := Fallible.ends_pure_iff.mp h
    exact ⟨[], .none, Nat.zero_le _, by simp, by rintro _ ⟨⟩; rfl⟩
  | cons route rest ih =>
    unfold claimRoutes at h
    split at h
    · obtain ⟨rfl, rfl⟩ := Fallible.ends_pure_iff.mp h
      exact ⟨[], .none, Nat.zero_le _, by simp, by rintro _ ⟨⟩; rfl⟩
    · rcases Fallible.ends_then_iff.mp h with ⟨failure, rfl, hrefd⟩ | ⟨rows, middle, hclaim, hgo⟩
      · obtain rfl := table_of_ends_outbox_error hrefd
        exact ⟨[], .none, Nat.zero_le _, by simp, by rintro _ ⟨⟩⟩
      · obtain ⟨answer, now, -, hans, rfl, rfl⟩ := ends_outbox_ok_iff.mp hclaim
        rw [OutboxAnswer.toRows_of_meaning hans] at hgo
        obtain ⟨htakes, hlength, hadms⟩ := takes_claim table now route
          (min (max (divCeil remaining left) 1) remaining) held
        have hshare := hlength.trans (min_le_right _ _)
        generalize (table.execute (.claimOutboxRowsScopedExcluding now route
          (min (max (divCeil remaining left) 1) remaining) held)).1.toRows = rows at hgo htakes hshare hadms
        generalize (table.execute (.claimOutboxRowsScopedExcluding now route
          (min (max (divCeil remaining left) 1) remaining) held)).2 = middle at hgo htakes
        have hjoin : ∀ {later}, Takes held middle table' later → later.length ≤ remaining - rows.length →
            (∀ row ∈ later, ∃ other ∈ rest, other.admits row = true) →
            Takes held table table' (rows ++ later) ∧ (rows ++ later).length ≤ remaining ∧
              ∀ row ∈ rows ++ later, ∃ other ∈ route :: rest, other.admits row = true := by
          intro later hlat hcount hof
          refine ⟨htakes.trans hlat, by rw [List.length_append]; omega, fun row hrow => ?_⟩
          rcases List.mem_append.mp hrow with hrow | hrow
          · exact ⟨route, List.mem_cons_self, hadms row hrow⟩
          · obtain ⟨other, hother, hscope⟩ := hof row hrow
            exact ⟨other, List.mem_cons_of_mem _ hother, hscope⟩
        rcases Fallible.ends_then_iff.mp hgo with ⟨failure, rfl, hlat⟩ | ⟨later, last, hlat, hdone⟩
        · obtain ⟨later, htakes', hcount, hof, -⟩ := ih hlat
          obtain ⟨hall, hlen, hscopes⟩ := hjoin htakes' hcount hof
          exact ⟨_, hall, hlen, hscopes, by rintro _ ⟨⟩⟩
        · obtain ⟨rfl, rfl⟩ := Fallible.ends_pure_iff.mp hdone
          obtain ⟨later', htakes', hcount, hof, hret⟩ := ih hlat
          obtain rfl := hret later rfl
          obtain ⟨hall, hlen, hscopes⟩ := hjoin htakes' hcount hof
          exact ⟨_, hall, hlen, hscopes, by rintro _ ⟨⟩; rfl⟩

/-- **The slice of a namespace**: its routes take rows of it, no more than the allocation. -/
theorem takes_of_slice {name : String} {allocation : ℕ}
    (hown : ∀ route ∈ routes, route.namespace_ = name)
    (h : Fallible.Ends (StoreAnswers history clock)
        (claimNamespaceSlice held routes allocation) table outcome table') :
    ∃ rows, Takes held table table' rows ∧ rows.length ≤ allocation ∧
      (∀ row ∈ rows, row.namespace_ = name) ∧
      ∀ returned, outcome = .ok returned → returned = rows := by
  obtain ⟨rows, htakes, hlength, hscopes, hret⟩ := takes_of_claimRoutes h
  refine ⟨rows, htakes, hlength, fun row hrow => ?_, hret⟩
  obtain ⟨route, hroute, hadms⟩ := hscopes row hrow
  exact (namespace_of_admits hadms).trans (hown route hroute)

/-- No row is of a namespace that none of them may have. -/
theorem countP_of_not_mem {rows : List OutboxRow} {name : String}
    (hnames : ∀ row ∈ rows, row.namespace_ ∈ names) (hnot : name ∉ names) :
    (rows.countP fun row => row.namespace_ = name) = 0 := by
  rw [List.countP_eq_zero]
  intro row hrow hsame
  exact hnot (of_decide_eq_true hsame ▸ hnames row hrow)

section Cons

variable {name : String} {plan : NamespacePlan} {rest : SweepPlan} {rows later : List OutboxRow}

theorem SweepPlan.WellFormed.head_not_mem (h : SweepPlan.WellFormed ((name, plan) :: rest)) :
    name ∉ rest.map Prod.fst :=
  (List.nodup_cons.mp h.distinct).1

/-- Rows of the first namespace are of no other in the plan. -/
theorem countP_head (hplan : SweepPlan.WellFormed ((name, plan) :: rest))
    (hname : ∀ row ∈ rows, row.namespace_ = name) {entry : String × NamespacePlan}
    (hent : entry ∈ rest) : (rows.countP fun row => row.namespace_ = entry.1) = 0 := by
  refine countP_of_not_mem (fun row hrow => List.mem_singleton.mpr (hname row hrow)) fun hsame => ?_
  have hmem : entry.1 ∈ rest.map Prod.fst := List.mem_map_of_mem hent
  exact hplan.head_not_mem (List.mem_singleton.mp hsame ▸ hmem)

/-- Rows of a planned namespace, within its headroom, and rows within the rest of the plan. -/
theorem Within.cons (hplan : SweepPlan.WellFormed ((name, plan) :: rest))
    (hname : ∀ row ∈ rows, row.namespace_ = name) (hlength : rows.length ≤ plan.headroom)
    (hrest : Within rest later) : Within ((name, plan) :: rest) (rows ++ later) := by
  refine ⟨fun row hrow => ?_, fun entry hent => ?_⟩
  · rcases List.mem_append.mp hrow with hrow | hrow
    · exact List.mem_cons.mpr (.inl (hname row hrow))
    · exact List.mem_cons_of_mem _ (hrest.planned row hrow)
  · rw [List.countP_append]
    rcases List.mem_cons.mp hent with rfl | hent
    · rw [countP_of_not_mem hrest.planned hplan.head_not_mem, Nat.add_zero]
      exact List.countP_le_length.trans hlength
    · rw [countP_head hplan hname hent, Nat.zero_add]
      exact hrest.headroom entry hent

/-- What rows of the first namespace and of the others leave of the plan. -/
theorem lowered_cons (hplan : SweepPlan.WellFormed ((name, plan) :: rest))
    (hname : ∀ row ∈ rows, row.namespace_ = name) (hrest : Within rest later) :
    SweepPlan.lowered ((name, plan) :: rest) (rows ++ later) =
      (name, { plan with headroom := plan.headroom - rows.length }) :: rest.lowered later := by
  have hall : (rows.countP fun row => row.namespace_ = name) = rows.length := by
    rw [List.countP_eq_length]
    exact fun row hrow => decide_eq_true (hname row hrow)
  unfold SweepPlan.lowered
  rw [List.map_cons, List.countP_append, hall, countP_of_not_mem hrest.planned hplan.head_not_mem,
    Nat.add_zero]
  refine congrArg _ (List.map_congr_left fun entry hent => ?_)
  rw [List.countP_append, countP_head hplan hname hent, Nat.zero_add]

end Cons

theorem within_nil (plan : SweepPlan) : Within plan [] := ⟨by simp, by simp⟩

/-- **The first pass** takes rows within the plan and the budget. -/
theorem takes_of_firstPass {plan : SweepPlan}
    {outcome : Except StoreError (SweepPlan × ℕ × List OutboxRow)} (hplan : plan.WellFormed)
    (h : Fallible.Ends (StoreAnswers history clock)
        (firstPass held slice plan budget) table outcome table') :
    ∃ rows, Takes held table table' rows ∧ rows.length ≤ budget ∧ Within plan rows ∧
      ∀ returned, outcome = .ok returned →
        returned = (plan.lowered rows, budget - rows.length, rows) := by
  induction plan generalizing table budget outcome with
  | nil =>
    obtain ⟨rfl, rfl⟩ := Fallible.ends_pure_iff.mp h
    exact ⟨[], .none, Nat.zero_le _, within_nil _, by rintro _ ⟨⟩; rfl⟩
  | cons entry rest ih =>
    obtain ⟨name, plan⟩ := entry
    rcases Fallible.ends_then_iff.mp h with ⟨failure, rfl, hslice⟩ | ⟨rows, middle, hslice, hgo⟩
    · obtain ⟨rows, htakes, hlength, hname, -⟩ := takes_of_slice (hplan.own _ List.mem_cons_self) hslice
      have hwithin : Within ((name, plan) :: rest) (rows ++ []) :=
        .cons hplan hname (hlength.trans ((min_le_left _ _).trans (min_le_right _ _))) (within_nil rest)
      rw [List.append_nil] at hwithin
      exact ⟨rows, htakes, hlength.trans (min_le_right _ _), hwithin, by rintro _ ⟨⟩⟩
    · obtain ⟨rows', htakes, hlength, hname, hret⟩ := takes_of_slice (hplan.own _ List.mem_cons_self) hslice
      obtain rfl := hret rows rfl
      have hheadroom : rows.length ≤ plan.headroom := hlength.trans ((min_le_left _ _).trans (min_le_right _ _))
      have hbudget : rows.length ≤ budget := hlength.trans (min_le_right _ _)
      rcases Fallible.ends_then_iff.mp hgo with ⟨failure, rfl, hlat⟩ | ⟨⟨plan', budget', later⟩, last, hlat, hdone⟩
      · obtain ⟨later, htakes', hlength', hwithin, -⟩ := ih hplan.tail hlat
        exact ⟨_, htakes.trans htakes', by rw [List.length_append]; omega, .cons hplan hname hheadroom hwithin,
          by rintro _ ⟨⟩⟩
      · obtain ⟨rfl, rfl⟩ := Fallible.ends_pure_iff.mp hdone
        obtain ⟨later', htakes', hlength', hwithin, hret'⟩ := ih hplan.tail hlat
        obtain ⟨rfl, rfl, rfl⟩ : plan' = SweepPlan.lowered rest later' ∧ budget' = budget - rows.length - later'.length ∧
            later = later' := by simpa using hret' _ rfl
        refine ⟨_, htakes.trans htakes', by rw [List.length_append]; omega, .cons hplan hname hheadroom hwithin, ?_⟩
        rintro _ ⟨⟩
        rw [lowered_cons hplan hname hwithin, List.length_append, Nat.sub_sub]

/-- **The second pass** takes rows within the plan and the budget. -/
theorem takes_of_secondPass {plan : SweepPlan} (hplan : plan.WellFormed)
    (h : Fallible.Ends (StoreAnswers history clock)
        (secondPass held plan budget) table outcome table') :
    ∃ rows, Takes held table table' rows ∧ rows.length ≤ budget ∧ Within plan rows ∧
      ∀ returned, outcome = .ok returned → returned = rows := by
  induction plan generalizing table budget outcome with
  | nil =>
    obtain ⟨rfl, rfl⟩ := Fallible.ends_pure_iff.mp h
    exact ⟨[], .none, Nat.zero_le _, within_nil _, by rintro _ ⟨⟩; rfl⟩
  | cons entry rest ih =>
    obtain ⟨name, plan⟩ := entry
    unfold secondPass at h
    split at h
    · obtain ⟨rfl, rfl⟩ := Fallible.ends_pure_iff.mp h
      exact ⟨[], .none, Nat.zero_le _, within_nil _, by rintro _ ⟨⟩; rfl⟩
    · rcases Fallible.ends_then_iff.mp h with ⟨failure, rfl, hslice⟩ | ⟨rows, middle, hslice, hgo⟩
      · obtain ⟨rows, htakes, hlength, hname, -⟩ := takes_of_slice (hplan.own _ List.mem_cons_self) hslice
        have hwithin : Within ((name, plan) :: rest) (rows ++ []) :=
          .cons hplan hname (hlength.trans (min_le_left _ _)) (within_nil rest)
        rw [List.append_nil] at hwithin
        exact ⟨rows, htakes, hlength.trans (min_le_right _ _), hwithin, by rintro _ ⟨⟩⟩
      · obtain ⟨rows', htakes, hlength, hname, hret⟩ := takes_of_slice (hplan.own _ List.mem_cons_self) hslice
        obtain rfl := hret rows rfl
        have hheadroom : rows.length ≤ plan.headroom := hlength.trans (min_le_left _ _)
        have hbudget : rows.length ≤ budget := hlength.trans (min_le_right _ _)
        rcases Fallible.ends_then_iff.mp hgo with ⟨failure, rfl, hlat⟩ | ⟨later, last, hlat, hdone⟩
        · obtain ⟨later, htakes', hlength', hwithin, -⟩ := ih hplan.tail hlat
          exact ⟨_, htakes.trans htakes', by rw [List.length_append]; omega, .cons hplan hname hheadroom hwithin,
            by rintro _ ⟨⟩⟩
        · obtain ⟨rfl, rfl⟩ := Fallible.ends_pure_iff.mp hdone
          obtain ⟨later', htakes', hlength', hwithin, hret'⟩ := ih hplan.tail hlat
          obtain rfl := hret' later rfl
          exact ⟨_, htakes.trans htakes', by rw [List.length_append]; omega, .cons hplan hname hheadroom hwithin,
            by rintro _ ⟨⟩; rfl⟩

/-- Rows within the plan and rows within what they leave of it. -/
theorem Within.append {plan : SweepPlan} {rows later : List OutboxRow} (h : Within plan rows)
    (hlat : Within (plan.lowered rows) later) : Within plan (rows ++ later) := by
  have hnames : (plan.lowered rows).map Prod.fst = plan.map Prod.fst := by
    rw [SweepPlan.lowered, List.map_map]
    rfl
  refine ⟨fun row hrow => ?_, fun entry hent => ?_⟩
  · rcases List.mem_append.mp hrow with hrow | hrow
    · exact h.planned row hrow
    · exact hnames ▸ hlat.planned row hrow
  · have hfst := h.headroom entry hent
    have hsnd := hlat.headroom _ (List.mem_map_of_mem hent)
    rw [List.countP_append]
    change (later.countP fun row => row.namespace_ = entry.1) ≤ entry.2.headroom - _ at hsnd
    omega

theorem takes_of_executePlan {plan : SweepPlan} (hplan : plan.WellFormed)
    (h : Fallible.Ends (StoreAnswers history clock)
        (executePlan held plan slice batchSize) table outcome table') :
    ∃ rows, Takes held table table' rows ∧ rows.length ≤ batchSize ∧ Within plan rows ∧
      ∀ returned, outcome = .ok returned → returned = rows := by
  rcases Fallible.ends_then_iff.mp h with ⟨failure, rfl, hfst⟩ | ⟨⟨plan', budget, first⟩,
    middle, hfst, hgo⟩
  · obtain ⟨rows, htakes, hlength, hwithin, -⟩ := takes_of_firstPass hplan hfst
    exact ⟨rows, htakes, hlength, hwithin, by rintro _ ⟨⟩⟩
  · obtain ⟨first', htakes, hlength, hwithin, hret⟩ := takes_of_firstPass hplan hfst
    obtain ⟨rfl, rfl, rfl⟩ : plan' = plan.lowered first' ∧ budget = batchSize - first'.length ∧ first = first' := by
      simpa using hret _ rfl
    rcases Fallible.ends_then_iff.mp hgo with ⟨failure, rfl, hsnd⟩ | ⟨second, last, hsnd, hdone⟩
    · obtain ⟨second, htakes', hlength', hwithin', -⟩ := takes_of_secondPass (hplan.lowered first) hsnd
      exact ⟨_, htakes.trans htakes', by rw [List.length_append]; omega, hwithin.append hwithin', by rintro _ ⟨⟩⟩
    · obtain ⟨rfl, rfl⟩ := Fallible.ends_pure_iff.mp hdone
      obtain ⟨second', htakes', hlength', hwithin', hret'⟩ := takes_of_secondPass (hplan.lowered first) hsnd
      obtain rfl := hret' second rfl
      exact ⟨_, htakes.trans htakes', by rw [List.length_append]; omega, hwithin.append hwithin', by rintro _ ⟨⟩; rfl⟩

/-! ### The sweep takes within the ceilings -/

theorem nodup_namespacesOf (routes : List ClaimScope) : (namespacesOf routes).Nodup :=
  (List.perm_insertionSort _ _).nodup_iff.mpr (List.nodup_dedup _)

theorem lookup_counts (f : String → ℕ) {name : String} (h : name ∈ names) :
    (names.map fun name => (name, f name)).lookup name = some (f name) := by
  induction names with
  | nil => cases h
  | cons first rest ih =>
    rw [List.map_cons, List.lookup_cons]
    by_cases heq : name = first
    · subst heq
      simp
    · rw [show (name == first) = false by simpa using heq]
      exact ih (List.mem_of_ne_of_mem heq h)

/-- The headroom is what the ceiling leaves above the claimed count. -/
theorem headroomOf_counts (ceiling : UInt32) {name : String} (h : name ∈ names) :
    headroomOf ceiling (table.execute (.countClaimedOutboxRowsByNamespace names)).1.toCounts name =
      ceiling.toNat - table.claimedIn name := by
  have hmem : name ∈ names.dedup.insertionSort (· ≤ ·) :=
    (List.mem_insertionSort _).mpr (List.mem_dedup.mpr h)
  have hceiling := ceiling.toNat_lt
  have hcounts : (table.execute (.countClaimedOutboxRowsByNamespace names)).1.toCounts =
      (names.dedup.insertionSort (· ≤ ·)).map fun name => (name, table.claimedIn name) := rfl
  rw [headroomOf, hcounts, lookup_counts _ hmem, Option.getD_some, UInt32.size]
  omega

/-- The plan of a sweep: each namespace has the headroom of its ceiling. -/
theorem ends_planSweep {fraction : OwnedShardFraction} {quota : String → UInt32} {plan : SweepPlan}
    (h : Fallible.Ends (StoreAnswers history clock)
        (planSweep fraction quota routes batchSize) table (.ok (plan, slice)) table') :
    table' = table ∧ slice = perNamespaceSlice batchSize (namespacesOf routes).length ∧
      plan = (namespacesOf routes).map fun name =>
        (name, ⟨(fraction.perNodeCeiling (quota name)).toNat - table.claimedIn name,
          routes.filter fun route => route.namespace_ = name⟩) := by
  obtain ⟨counts, middle, hcounts, hdone⟩ := Fallible.ends_then_ok_iff.mp h
  obtain ⟨answer, now, -, hans, rfl, rfl⟩ := ends_outbox_ok_iff.mp hcounts
  rw [OutboxAnswer.toCounts_of_meaning hans] at hdone
  obtain ⟨hval, rfl⟩ := Fallible.ends_pure_iff.mp hdone
  obtain ⟨rfl, rfl⟩ := Prod.mk.inj (Except.ok.inj hval)
  refine ⟨rfl, rfl, List.map_congr_left fun name hname => ?_⟩
  rw [headroomOf_counts _ hname]

theorem map_fst_plan (names : List String) (plan : String → NamespacePlan) :
    (names.map fun name => (name, plan name)).map Prod.fst = names := by
  rw [List.map_map]
  exact List.map_id _

theorem wellFormed_plan (headroom : String → ℕ) (routes : List ClaimScope) :
    SweepPlan.WellFormed ((namespacesOf routes).map fun name =>
      (name, ⟨headroom name, routes.filter fun route => route.namespace_ = name⟩)) := by
  refine ⟨?_, ?_⟩
  · rw [map_fst_plan]
    exact nodup_namespacesOf routes
  · intro entry hent route hroute
    obtain ⟨name, -, rfl⟩ := List.mem_map.mp hent
    exact of_decide_eq_true (List.mem_filter.mp hroute).2

/-- What a sweep may do: with `rows` taken, no more than the batch and no namespace's claimed
count is above its ceiling, unless it was. -/
structure SweepBounds (ceiling : String → ℕ) (batchSize : ℕ) (held : List WorkflowId)
    (table table' : OutboxTable) (rows : List OutboxRow) : Prop where
  takes : Takes held table table' rows
  batch : rows.length ≤ batchSize
  ceilings : ∀ name, table'.claimedIn name ≤ max (ceiling name) (table.claimedIn name)

theorem SweepBounds.idle (ceiling : String → ℕ) (batchSize : ℕ) :
    SweepBounds ceiling batchSize held table table [] :=
  ⟨.none, Nat.zero_le _, fun _ => le_max_right _ _⟩

/-- **A sweep keeps its bounds**, and what it returns is what it took. -/
theorem bounds_of_sweep {fraction : OwnedShardFraction} {quota : String → UInt32}
    (h : Fallible.Ends (StoreAnswers history clock)
        (claimRoundRobin fraction quota batchSize held) table outcome table') :
    ∃ rows, SweepBounds (fun name => (fraction.perNodeCeiling (quota name)).toNat) batchSize held
      table table' rows ∧
      ∀ returned, outcome = .ok returned → returned = rows := by
  rcases Fallible.ends_then_iff.mp h with ⟨failure, rfl, hroutes⟩ | ⟨routes, middle, hroutes, hgo⟩
  · obtain rfl := table_of_ends_outbox_error hroutes
    exact ⟨[], .idle _ _, by rintro _ ⟨⟩⟩
  · obtain ⟨answer, now, -, -, rfl, rfl⟩ := ends_outbox_ok_iff.mp hroutes
    split at hgo
    · obtain ⟨rfl, rfl⟩ := Fallible.ends_pure_iff.mp hgo
      exact ⟨[], .idle _ _, by rintro _ ⟨⟩; rfl⟩
    · rcases Fallible.ends_then_iff.mp hgo with ⟨failure, rfl, hplan⟩ | ⟨⟨plan, slice⟩, middle, hplan, hexecute⟩
      · rcases Fallible.ends_then_iff.mp hplan with ⟨_, -, hcounts⟩ | ⟨counts, last, -, hdone⟩
        · obtain rfl := table_of_ends_outbox_error hcounts
          exact ⟨[], .idle _ _, by rintro _ ⟨⟩⟩
        · obtain ⟨hval, -⟩ := Fallible.ends_pure_iff.mp hdone
          cases hval
      · obtain ⟨rfl, -, rfl⟩ := ends_planSweep hplan
        obtain ⟨rows, htakes, hlength, hwithin, hret⟩ :=
          takes_of_executePlan (wellFormed_plan (fun name => (fraction.perNodeCeiling (quota name)).toNat -
            middle.claimedIn name) answer.toRoutes) hexecute
        refine ⟨rows, ⟨htakes, hlength, fun name => ?_⟩, hret⟩
        rw [htakes.counts]
        by_cases hname : name ∈ namespacesOf answer.toRoutes
        · have hheadroom : (rows.countP fun row => row.namespace_ = name) ≤
              (fraction.perNodeCeiling (quota name)).toNat - middle.claimedIn name :=
            hwithin.headroom _ (List.mem_map_of_mem hname)
          omega
        · have hplanned := hwithin.planned
          rw [map_fst_plan] at hplanned
          rw [countP_of_not_mem hplanned hname]
          exact le_max_right _ _

end Loops

/-! ### The sweeps of a dispatcher -/

/-- A sweep that took place, with the quotas and the held workflows it had. -/
structure SweepRecord where
  quota : String → UInt32
  held : List WorkflowId
  before : OutboxTable
  outcome : Except StoreError (List OutboxRow)
  after : OutboxTable

/-- The sweeps of one dispatcher, with any operations on the outbox between them. -/
inductive DispatcherRun (history : WorkflowId → List Event) (fraction : OwnedShardFraction)
    (batchSize : ℕ) (start : OutboxTable) : List SweepRecord → OutboxTable → Prop where
  /-- Nothing yet. -/
  | start : DispatcherRun history fraction batchSize start [] start
  /-- A sweep. -/
  | sweep {sweeps : List SweepRecord} {quota : String → UInt32} {held : List WorkflowId}
    {table table' : OutboxTable}
    {outcome : Except StoreError (List OutboxRow)} (run : DispatcherRun history fraction batchSize start sweeps table)
    (ends : Fallible.Ends (StoreAnswers history AnyReading) (claimRoundRobin fraction quota batchSize held) table outcome
      table') :
    DispatcherRun history fraction batchSize start (sweeps ++ [⟨quota, held, table, outcome, table'⟩]) table'
  /-- An operation between sweeps. -/
  | between {sweeps : List SweepRecord} {table : OutboxTable}
    (run : DispatcherRun history fraction batchSize start sweeps table)
    (operation : OutboxOperation) : DispatcherRun history fraction batchSize start sweeps (table.execute operation).2

/-- The sweep claims `rows`, which it returns unless it fails: no more than the batch, none twice,
none of a held workflow. It leaves no namespace with more claimed rows than its ceiling or than it
had, and every other row as it was. -/
def SweepRecord.Bounded (fraction : OwnedShardFraction) (batchSize : ℕ) (sweep : SweepRecord) :
    Prop :=
  ∃ rows, (∀ returned, sweep.outcome = .ok returned → returned = rows) ∧ rows.length ≤ batchSize ∧
    (rows.map OutboxRow.dispatchKey).Nodup ∧ (∀ row ∈ rows, row.workflowId ∉ sweep.held) ∧
    (∀ name, sweep.after.claimedIn name ≤
      max (fraction.perNodeCeiling (sweep.quota name)).toNat (sweep.before.claimedIn name)) ∧
    ∀ key, (∀ row ∈ rows, row.dispatchKey ≠ key) → sweep.after.lookup key = sweep.before.lookup key

/-- One sweep is bounded, from any table. -/
theorem bounded_of_ends {history : WorkflowId → List Event} {fraction : OwnedShardFraction}
    {quota : String → UInt32} {held : List WorkflowId} {table table' : OutboxTable}
    (h : Fallible.Ends (StoreAnswers history AnyReading)
        (claimRoundRobin fraction quota batchSize held) table outcome table') :
    SweepRecord.Bounded fraction batchSize ⟨quota, held, table, outcome, table'⟩ := by
  obtain ⟨rows, bounds, hret⟩ := bounds_of_sweep h
  refine ⟨rows, hret, bounds.batch, bounds.takes.distinct, fun row hrow =>
      (bounds.takes.fresh row hrow).1,
    bounds.ceilings, fun key hkey => ?_⟩
  have hnone : (rows.find? fun row => row.dispatchKey = key) = none :=
    List.find?_eq_none.mpr fun row hrow => by simpa using hkey row hrow
  change table'.lookup key = table.lookup key
  rw [bounds.takes.leaves, hnone, Option.none_or]

/-- **Backpressure keeps its bounds**: every sweep of every run of a dispatcher is bounded, and the
ceilings of nodes that split the shards add up to at least the quota and less than one more for
each node, with no overflow on the way to any of them. -/
theorem backpressure_bounds :
    (∀ history fraction batchSize table sweeps table',
        DispatcherRun history fraction batchSize table sweeps table' →
      ∀ sweep ∈ sweeps, sweep.Bounded fraction batchSize) ∧
    ∀ (quota total : UInt32) (owned : List UInt32), 0 < total.toNat →
      (∀ shards ∈ owned, 1 ≤ shards.toNat) →
      (owned.map UInt32.toNat).sum = total.toNat →
      (∀ shards ∈ owned, quota.toNat * (OwnedShardFraction.new shards total).owned.toNat +
        (OwnedShardFraction.new shards total).total.toNat < 2 ^ 64) ∧
      quota.toNat ≤ (owned.map fun shards =>
          ((OwnedShardFraction.new shards total).perNodeCeiling quota).toNat).sum ∧
      (owned.map fun shards => ((OwnedShardFraction.new shards total).perNodeCeiling
          quota).toNat).sum <
        quota.toNat + owned.length := by
  refine ⟨fun history fraction batchSize table sweeps table' run =>
      ?_, fun quota total owned hpos howned hspl => ?_⟩
  · induction run with
    | start => simp
    | sweep run ends ih =>
      intro sweep hsweep
      rcases List.mem_append.mp hsweep with hsweep | hsweep
      · exact ih sweep hsweep
      · obtain rfl := List.mem_singleton.mp hsweep
        exact bounded_of_ends ends
    | between run operation ih => exact ih
  · exact ⟨fun shards _ => (OwnedShardFraction.new shards total).numerator_lt quota,
        sum_ceilings quota total hpos howned hspl⟩

/-- A pending row of a namespace. -/
def dueRow (namespace_ : String) (workflow : ℕ) : OutboxRow :=
  { OutboxRow.pending ⟨workflow⟩ 0 "charge" .empty 0 with namespace_ := namespace_ }

/-- The rows of three namespaces, of which two have more than one. -/
def fiveDue : OutboxTable where
  rows := [dueRow "a" 0, dueRow "a" 1, dueRow "b" 2, dueRow "b" 3, dueRow "c" 4]
  unique := by decide

/-- A sweep of a batch of two, where each quota is one and a workflow of `b` is held. -/
def sweptTwo (table : OutboxTable) : Except StoreError (List OutboxRow) × OutboxTable :=
  (steadyStore (fun _ => []) 0).run (claimRoundRobin (.new 1 1) (fun _ => 1) 2 [⟨2⟩]) table

/-- The first sweep claims a row of `a` and the row of `b` that is not held, the second one the row
of `c`; and two of three shards of a quota of ten are seven. -/
theorem backpressure_bounds_fiveDue :
    (∃ first second, first.map OutboxRow.workflowId = [⟨0⟩, ⟨3⟩] ∧
        second.map OutboxRow.workflowId = [⟨4⟩] ∧
      SweepRecord.Bounded (.new 1 1) 2 ⟨fun _ => 1, [⟨2⟩], fiveDue, .ok first,
          (sweptTwo fiveDue).2⟩ ∧
      SweepRecord.Bounded (.new 1 1) 2
        ⟨fun _ => 1, [⟨2⟩], (sweptTwo fiveDue).2, .ok second, (sweptTwo (sweptTwo fiveDue).2).2⟩) ∧
    (10 : UInt32).toNat ≤ ([1, 2].map fun shards =>
        ((OwnedShardFraction.new shards 3).perNodeCeiling 10).toNat).sum := by
  have hends : ∀ table rows, (sweptTwo table).1 = .ok rows →
    Fallible.Ends (StoreAnswers (fun _ => []) AnyReading)
      (claimRoundRobin (.new 1 1) (fun _ => 1) 2 [⟨2⟩]) table (.ok rows) (sweptTwo table).2 := by
    intro table rows hok
    rw [← hok]
    exact ends_steadyStore (anyReading 0) _ _
  have hfst : (sweptTwo fiveDue).1 = .ok ([dueRow "a" 0, dueRow "b" 3].map (OutboxRow.claim · 0)) := by decide +kernel
  have hsnd : (sweptTwo (sweptTwo fiveDue).2).1 = .ok ([dueRow "c" 4].map (OutboxRow.claim · 0)) := by decide +kernel
  have run := (DispatcherRun.start.sweep (hends _ _ hfst)).sweep (hends _ _ hsnd)
  have hbdd := backpressure_bounds.1 _ _ _ _ _ _ run
  exact ⟨⟨_, _, rfl, rfl, hbdd _ (.head _), hbdd _ (.tail _ (.head _))⟩,
    (backpressure_bounds.2 10 3 [1, 2] (by decide) (by simp) (by decide)).2.1⟩

end Aion
