import Aion.Library.KeyedTable
import Aion.Library.Machine
import Aion.Library.Sorting
import Aion.Store.Outbox
import Mathlib.Data.Finset.Dedup

/-!
# What the outbox is for

The outbox as a table of rows, with the operations as its contract has them: no text, no
shards, no loops. Both backends are compared with it. An operation selects rows, in an
order that tells them apart, and rewrites the selected rows.

`AdmissibleRow` is what a row written by the engine satisfies: its key is the key of its
workflow and ordinal, the ordinal fits a signed 64-bit column, the attempt is a 32-bit
number and its instants have a year of four digits.
-/

namespace Aion

open Machine Sorting

/-! ### Answers -/

/-- What an answer says: routes have no promised order and count as a set. -/
def OutboxAnswer.meaning : OutboxAnswer → OutboxAnswer ⊕ Finset ClaimScope
  | .routes scopes => .inr scopes.toFinset
  | answer => .inl answer

/-- What an operation's outcome says. -/
def outcomeMeaning (outcome : Except StoreError OutboxAnswer) :
    Except StoreError (OutboxAnswer ⊕ Finset ClaimScope) :=
  outcome.map OutboxAnswer.meaning

/-! ### What happens to a row -/

theorem OutboxRow.claim_dispatchKey (now : Instant) (row : OutboxRow) :
    (row.claim now).dispatchKey = row.dispatchKey := rfl

theorem OutboxRow.rearm_dispatchKey (visibleAfter : Instant) (row : OutboxRow) :
    (row.rearm visibleAfter).dispatchKey = row.dispatchKey := rfl

/-- The row at an end. -/
def OutboxRow.finish (status : OutboxStatus) (row : OutboxRow) : OutboxRow :=
  { row with status, claimedAt := none }

theorem OutboxRow.finish_dispatchKey (status : OutboxStatus) (row : OutboxRow) :
    (row.finish status).dispatchKey = row.dispatchKey := rfl

/-- The row as a retry leaves it. -/
def OutboxRow.retry (nextAttempt : ℕ) (visibleAfter : Instant) (row : OutboxRow) : OutboxRow :=
  { row with status := .pending, attempt := nextAttempt, visibleAfter, claimedAt := none }

theorem OutboxRow.retry_dispatchKey (nextAttempt : ℕ) (visibleAfter : Instant) (row : OutboxRow) :
    (row.retry nextAttempt visibleAfter).dispatchKey = row.dispatchKey := rfl

/-- A row in flight is cancelled; one at its end is left alone. -/
def OutboxRow.settle (row : OutboxRow) : OutboxRow :=
  if row.status.isInflight then row.finish .cancelled else row

theorem OutboxRow.settle_dispatchKey (row : OutboxRow) :
    row.settle.dispatchKey = row.dispatchKey := by
  unfold OutboxRow.settle
  split <;> rfl

theorem OutboxRow.settle_workflowId (row : OutboxRow) : row.settle.workflowId = row.workflowId := by
  unfold OutboxRow.settle
  split <;> rfl

theorem OutboxRow.settle_runId (row : OutboxRow) : row.settle.runId = row.runId := by
  unfold OutboxRow.settle
  split <;> rfl

/-! ### The table -/

/-- The rows of the outbox. -/
abbrev OutboxTable := KeyedTable OutboxRow.dispatchKey

namespace OutboxTable

/-- The first `limit` of the rows that satisfy `p`, in order. -/
def select (table : OutboxTable) (p : OutboxRow → Bool) (r : OutboxRow → OutboxRow → Prop)
    [DecidableRel r] (limit : ℕ) : List OutboxRow :=
  ((table.rows.filter p).insertionSort r).take limit

section Select

variable {table : OutboxTable} {p : OutboxRow → Bool}
  {r : OutboxRow → OutboxRow → Prop} [DecidableRel r] {limit : ℕ}

theorem of_mem_select {row : OutboxRow} (h : row ∈ table.select p r limit) :
    row ∈ table.rows ∧ p row :=
  List.mem_filter.mp ((List.mem_insertionSort r).mp (List.mem_of_mem_take h))

theorem nodup_select : (table.select p r limit).Nodup :=
  ((List.perm_insertionSort r _).nodup_iff.mpr (table.nodup_rows.filter p)).take

theorem antisymm_rows {β : Type*} [LinearOrder β] (f : OutboxRow → β) (table : OutboxTable) :
    Antisymm (lexBy f OutboxRow.dispatchKey) table.rows :=
  fun _ ha _ hb hab hba => KeyedTable.eq_of_key_eq ha hb (eq_of_lexBy hab hba)

end Select

/-- Rewrites the selected rows. -/
def rewrite (table : OutboxTable) (selected : List OutboxRow) (f : OutboxRow → OutboxRow)
    (keeps : ∀ row, (f row).dispatchKey = row.dispatchKey) : OutboxTable :=
  table.modify (fun row => row ∈ selected) f keeps

@[simp]
theorem rewrite_nil (table : OutboxTable) (f : OutboxRow → OutboxRow)
    (keeps : ∀ row, (f row).dispatchKey = row.dispatchKey) : table.rewrite [] f keeps = table :=
  KeyedTable.modify_eq_self fun row _ => by simp

/-- By visibility, then by key. -/
abbrev claimOrder : OutboxRow → OutboxRow → Prop :=
  lexBy OutboxRow.visibleAfter OutboxRow.dispatchKey

/-- By the instant of the claim, then by key. -/
abbrev staleOrder : OutboxRow → OutboxRow → Prop :=
  lexBy (fun row => optional row.claimedAt) OutboxRow.dispatchKey

/-- The row can be claimed. -/
def isDue (now : Instant) (row : OutboxRow) : Bool := row.status = .pending ∧ row.visibleAfter ≤ now

/-- The row was claimed before an instant. -/
def isStale (olderThan : Instant) (row : OutboxRow) : Bool :=
  row.status = .claimed ∧ row.claimedAt.any fun claimedAt => claimedAt < olderThan

theorem claimedAt_of_isStale {olderThan : Instant} {row : OutboxRow} (h : isStale olderThan row) :
    ∃ claimedAt, row.claimedAt = some claimedAt := by
  cases hclmd : row.claimedAt with
  | none => simp [isStale, hclmd] at h
  | some claimedAt => exact ⟨claimedAt, rfl⟩

/-- Claims the first due rows the claimer admits. -/
def claim (table : OutboxTable) (now : Instant) (limit : ℕ) (admits : OutboxRow → Bool) :
    OutboxAnswer × OutboxTable :=
  let selected := table.select (fun row => isDue now row && admits row) claimOrder limit
  (.rows (selected.map (OutboxRow.claim · now)),
    table.rewrite selected (OutboxRow.claim · now) (OutboxRow.claim_dispatchKey now))

/-- Re-arms a row: back to pending, or staged anew. -/
def rearm (table : OutboxTable) (row : OutboxRow) : OutboxTable :=
  table.upsert (row.finish .pending) (OutboxRow.rearm · row.visibleAfter)
    (OutboxRow.rearm_dispatchKey row.visibleAfter)

/-- Rewrites the row with a key. -/
def transition (table : OutboxTable) (key : String) (f : OutboxRow → OutboxRow)
    (keeps : ∀ row, (f row).dispatchKey = row.dispatchKey) : OutboxTable :=
  table.modify (fun row => row.dispatchKey = key) f keeps

/-- The rows of a workflow in flight. -/
def isLiveOf (workflowId : WorkflowId) (row : OutboxRow) : Bool :=
  row.workflowId = workflowId ∧ row.status.isInflight

/-- The rows in flight are cancelled. -/
theorem settle_live (rows : OutboxTable) (workflowId : WorkflowId) :
    rows.modify (isLiveOf workflowId) OutboxRow.settle OutboxRow.settle_dispatchKey =
      rows.modify (isLiveOf workflowId) (OutboxRow.finish .cancelled)
        (OutboxRow.finish_dispatchKey .cancelled) := by
  refine KeyedTable.modify_congr fun row _ => ?_
  by_cases hrow : isLiveOf workflowId row = true
  · have hinflight : row.status.isInflight = true := (of_decide_eq_true hrow).2
    rw [if_pos hrow, if_pos hrow, OutboxRow.settle, if_pos hinflight]
  · rw [if_neg hrow, if_neg hrow]

/-- What each operation answers and leaves. -/
def execute (table : OutboxTable) : OutboxOperation → OutboxAnswer × OutboxTable
  | .appendOutboxBatch rows => (.done, rows.foldl KeyedTable.insertIfAbsent table)
  | .rearmOutboxPending rows => (.done, rows.foldl rearm table)
  | .claimOutboxRows now limit => table.claim now limit fun _ => true
  | .claimOutboxRowsExcluding now limit held =>
    table.claim now limit fun row => !held.contains row.workflowId
  | .claimOutboxRowsScoped now scope limit => table.claim now limit scope.admits
  | .claimOutboxRowsScopedExcluding now scope limit held =>
    table.claim now limit fun row => scope.admits row && !held.contains row.workflowId
  | .completeOutboxRow key =>
    (.done, table.transition key (OutboxRow.finish .done) (OutboxRow.finish_dispatchKey .done))
  | .retryOutboxRow key nextAttempt visibleAfter =>
    (.done, table.transition key (OutboxRow.retry nextAttempt visibleAfter)
      (OutboxRow.retry_dispatchKey nextAttempt visibleAfter))
  | .failOutboxRow key =>
    (.done, table.transition key (OutboxRow.finish .failed) (OutboxRow.finish_dispatchKey .failed))
  | .settleOutboxRowCancelled key =>
    (.done, table.transition key OutboxRow.settle OutboxRow.settle_dispatchKey)
  | .settleWorkflowOutboxRowsCancelled workflowId =>
    (.keys (((table.rows.filter (isLiveOf workflowId)).map OutboxRow.dispatchKey).insertionSort (· ≤ ·)),
      table.modify (isLiveOf workflowId) OutboxRow.settle OutboxRow.settle_dispatchKey)
  | .listStaleClaimedOutboxRows olderThan limit =>
    (.rows (table.select (isStale olderThan) staleOrder limit), table)
  | .rearmStaleClaimedOutboxRows olderThan visibleAfter limit =>
    let selected := table.select (isStale olderThan) staleOrder limit
    (.rows (selected.map (OutboxRow.rearm · visibleAfter)),
      table.rewrite selected (OutboxRow.rearm · visibleAfter) (OutboxRow.rearm_dispatchKey visibleAfter))
  | .listUnsettledOutboxWorkflowIds =>
    (.workflowIds (((table.rows.filter fun row => row.status.isInflight).map OutboxRow.workflowId).dedup.insertionSort
      fun left right => left.display ≤ right.display), table)
  | .countInflightOutboxRows namespace_ =>
    (.count (table.rows.countP fun row => row.namespace_ = namespace_ ∧ row.status.isInflight), table)
  | .countClaimedOutboxRows namespace_ =>
    (.count (table.rows.countP fun row => row.namespace_ = namespace_ ∧ row.status = .claimed), table)
  | .countClaimedOutboxRowsByNamespace namespaces =>
    (.counts ((namespaces.dedup.insertionSort (· ≤ ·)).map fun namespace_ =>
      (namespace_, table.rows.countP fun row => row.namespace_ = namespace_ ∧ row.status = .claimed)), table)
  | .pendingOutboxRoutes now =>
    (.routes ((table.rows.filter (isDue now)).map fun row =>
      ClaimScope.mk row.namespace_ row.taskQueue row.node).dedup, table)

end OutboxTable

/-! ### What the engine writes -/

/-- A row the engine writes. -/
structure AdmissibleRow (row : OutboxRow) : Prop where
  /-- The key is that of the workflow and the ordinal. -/
  key : row.dispatchKey = OutboxRow.dispatchKeyFor row.workflowId row.ordinal
  /-- The ordinal fits its column. -/
  ordinal : (row.ordinal : ℤ) ≤ Int64.maxValue.toInt
  /-- The attempt is a `u32`. -/
  attempt : row.attempt < UInt32.size
  /-- The visibility instant is in the years 0 to 9999. -/
  visibleAfter : Rfc3339.FourDigitYear row.visibleAfter
  /-- So is the claim instant. -/
  claimedAt : ∀ instant, row.claimedAt = some instant → Rfc3339.FourDigitYear instant

section Readers

variable {Bytes : Type} {codec : OutboxCodec Bytes} (lawful : codec.Lawful)
  {row : OutboxRow} (hrow : AdmissibleRow row)
include lawful hrow

theorem AdmissibleRow.decode_visibleAfter :
    decodeInstant codec (encodeInstant row.visibleAfter) = .ok row.visibleAfter := by
  rw [decodeInstant, lawful.instant _ hrow.visibleAfter]
  rfl

theorem AdmissibleRow.decode_claimedAt :
    transposeOption (decodeInstant codec) (row.claimedAt.map encodeInstant) =
      .ok row.claimedAt := by
  cases hclaimedAt : row.claimedAt with
  | none => rfl
  | some claimedAt =>
    simp only [Option.map_some, transposeOption, decodeInstant,
      lawful.instant _ (hrow.claimedAt _ hclaimedAt)]
    rfl

end Readers

/-- The key of some workflow and ordinal. -/
def AdmissibleKey (key : String) : Prop :=
  ∃ workflowId ordinal, key = OutboxRow.dispatchKeyFor workflowId ordinal

/-- The operation writes admissible rows, names admissible keys and reads the clock in the
years 0 to 9999. -/
def OutboxOperation.Admissible : OutboxOperation → Prop
  | .appendOutboxBatch rows => ∀ row ∈ rows, AdmissibleRow row
  | .rearmOutboxPending rows => ∀ row ∈ rows, AdmissibleRow row
  | .claimOutboxRows now _ => Rfc3339.FourDigitYear now
  | .claimOutboxRowsExcluding now _ _ => Rfc3339.FourDigitYear now
  | .claimOutboxRowsScoped now _ _ => Rfc3339.FourDigitYear now
  | .claimOutboxRowsScopedExcluding now _ _ _ => Rfc3339.FourDigitYear now
  | .completeOutboxRow key => AdmissibleKey key
  | .retryOutboxRow key nextAttempt visibleAfter =>
    AdmissibleKey key ∧ nextAttempt < UInt32.size ∧ Rfc3339.FourDigitYear visibleAfter
  | .failOutboxRow key => AdmissibleKey key
  | .settleOutboxRowCancelled key => AdmissibleKey key
  | .settleWorkflowOutboxRowsCancelled _ => True
  | .listStaleClaimedOutboxRows olderThan _ => Rfc3339.FourDigitYear olderThan
  | .rearmStaleClaimedOutboxRows olderThan visibleAfter _ =>
    Rfc3339.FourDigitYear olderThan ∧ Rfc3339.FourDigitYear visibleAfter
  | .listUnsettledOutboxWorkflowIds => True
  | .countInflightOutboxRows _ => True
  | .countClaimedOutboxRows _ => True
  | .countClaimedOutboxRowsByNamespace _ => True
  | .pendingOutboxRoutes now => Rfc3339.FourDigitYear now

namespace OutboxTable

/-- Every row is admissible. -/
def Admissible (table : OutboxTable) : Prop :=
  ∀ key row, table.lookup key = some row → AdmissibleRow row

theorem admissible_empty : Admissible .empty := by
  intro key row h
  simp at h

variable {table : OutboxTable} {f : OutboxTable → OutboxRow → OutboxTable} {run : Option RunId}
  {operation : OutboxOperation} {key : String} {operations : List OutboxOperation}
  {rows : List OutboxRow} {p : OutboxRow → Bool} {now : Instant}

theorem Admissible.of_mem (h : table.Admissible) {row : OutboxRow} (hmem : row ∈ table.rows) :
    AdmissibleRow row :=
  h _ row (KeyedTable.lookup_of_mem hmem)

theorem Admissible.modify (h : table.Admissible) {f : OutboxRow → OutboxRow}
    (keeps : ∀ row, (f row).dispatchKey = row.dispatchKey)
    (hf : ∀ row, AdmissibleRow row → AdmissibleRow (f row)) :
    Admissible (KeyedTable.modify table p f keeps) := by
  intro key row hrow
  rw [KeyedTable.lookup_modify] at hrow
  obtain ⟨found, hfd, rfl⟩ := Option.map_eq_some_iff.mp hrow
  split
  · exact hf found (h key found hfd)
  · exact h key found hfd

theorem Admissible.insertIfAbsent (h : table.Admissible) {row : OutboxRow}
    (hrow : AdmissibleRow row) : Admissible (KeyedTable.insertIfAbsent table row) := by
  intro key found hfd
  rw [KeyedTable.lookup_insertIfAbsent] at hfd
  split at hfd
  · cases hprior : table.lookup key with
    | none =>
      rw [hprior] at hfd
      cases hfd
      exact hrow
    | some prior =>
      rw [hprior] at hfd
      cases hfd
      exact h key prior hprior
  · exact h key found hfd

theorem Admissible.foldl (h : table.Admissible)
    (hf : ∀ table : OutboxTable, table.Admissible → ∀ row ∈ rows, (f table row).Admissible) :
    (rows.foldl f table).Admissible := by
  induction rows generalizing table with
  | nil => exact h
  | cons row rest ih =>
    exact ih (hf table h row List.mem_cons_self) fun table htable row hrow =>
      hf table htable row (List.mem_cons_of_mem _ hrow)

section Rows

variable {row : OutboxRow} (h : AdmissibleRow row)
include h

theorem admissibleRow_claim (hnow : Rfc3339.FourDigitYear now) : AdmissibleRow (row.claim now) :=
  ⟨h.key, h.ordinal, h.attempt, h.visibleAfter, by rintro instant ⟨⟩; exact hnow⟩

theorem admissibleRow_rearm {visibleAfter : Instant}
    (hvisible : Rfc3339.FourDigitYear visibleAfter) : AdmissibleRow (row.rearm visibleAfter) :=
  ⟨h.key, h.ordinal, h.attempt, hvisible, by rintro instant ⟨⟩⟩

theorem admissibleRow_finish (status : OutboxStatus) : AdmissibleRow (row.finish status) :=
  ⟨h.key, h.ordinal, h.attempt, h.visibleAfter, by rintro instant ⟨⟩⟩

theorem admissibleRow_settle : AdmissibleRow row.settle := by
  unfold OutboxRow.settle
  split
  · exact admissibleRow_finish h .cancelled
  · exact h

end Rows

theorem Admissible.rearm (h : table.Admissible) {row : OutboxRow} (hrow : AdmissibleRow row) :
    (table.rearm row).Admissible := by
  intro key found hfd
  rw [OutboxTable.rearm, KeyedTable.lookup_upsert] at hfd
  split at hfd
  · cases hprior : table.lookup key with
    | none =>
      rw [hprior] at hfd
      cases hfd
      exact admissibleRow_finish hrow .pending
    | some prior =>
      rw [hprior] at hfd
      cases hfd
      exact admissibleRow_rearm (h key prior hprior) hrow.visibleAfter
  · exact h key found hfd

theorem Admissible.claim (h : table.Admissible) {limit : ℕ} {admits : OutboxRow → Bool}
    (hnow : Rfc3339.FourDigitYear now) : (table.claim now limit admits).2.Admissible :=
  h.modify (OutboxRow.claim_dispatchKey now) fun _ hrow => admissibleRow_claim hrow hnow

/-- The table stays one of admissible rows. -/
theorem Admissible.execute (h : table.Admissible)
    (hop : operation.Admissible) : (table.execute operation).2.Admissible := by
  cases operation with
  | appendOutboxBatch rows =>
    exact h.foldl fun table htable row hrow => htable.insertIfAbsent (hop row hrow)
  | rearmOutboxPending rows =>
    exact h.foldl fun table htable row hrow => htable.rearm (hop row hrow)
  | claimOutboxRows now limit => exact h.claim hop
  | claimOutboxRowsExcluding now limit held => exact h.claim hop
  | claimOutboxRowsScoped now scope limit => exact h.claim hop
  | claimOutboxRowsScopedExcluding now scope limit held => exact h.claim hop
  | completeOutboxRow key =>
    exact h.modify (OutboxRow.finish_dispatchKey .done) fun _ hrow =>
      admissibleRow_finish hrow .done
  | retryOutboxRow key nextAttempt visibleAfter =>
    exact h.modify (OutboxRow.retry_dispatchKey nextAttempt visibleAfter) fun _ hrow =>
      ⟨hrow.key, hrow.ordinal, hop.2.1, hop.2.2, by rintro instant ⟨⟩⟩
  | failOutboxRow key =>
    exact h.modify (OutboxRow.finish_dispatchKey .failed) fun _ hrow =>
      admissibleRow_finish hrow .failed
  | settleOutboxRowCancelled key =>
    exact h.modify OutboxRow.settle_dispatchKey fun _ hrow => admissibleRow_settle hrow
  | settleWorkflowOutboxRowsCancelled workflowId =>
    exact h.modify OutboxRow.settle_dispatchKey fun _ hrow => admissibleRow_settle hrow
  | rearmStaleClaimedOutboxRows olderThan visibleAfter limit =>
    exact h.modify (OutboxRow.rearm_dispatchKey visibleAfter) fun _ hrow =>
      admissibleRow_rearm hrow hop.2
  | listStaleClaimedOutboxRows olderThan limit => exact h
  | listUnsettledOutboxWorkflowIds => exact h
  | countInflightOutboxRows namespace_ => exact h
  | countClaimedOutboxRows namespace_ => exact h
  | countClaimedOutboxRowsByNamespace namespaces => exact h
  | pendingOutboxRoutes now => exact h

/-! ### Runs stay -/

/-- The run of the row at a key, once there is a row. -/
def runAt (table : OutboxTable) (key : String) : Option (Option RunId) :=
  (table.lookup key).map OutboxRow.runId

theorem runAt_modify {f : OutboxRow → OutboxRow}
    (keeps : ∀ row, (f row).dispatchKey = row.dispatchKey) (hf : ∀ row, (f row).runId = row.runId)
    (key : String) : runAt (KeyedTable.modify table p f keeps) key = table.runAt key := by
  unfold runAt
  rw [KeyedTable.lookup_modify, Option.map_map]
  refine congrArg (Option.map · (table.lookup key)) (funext fun row => ?_)
  simp only [Function.comp]
  split
  · exact hf row
  · rfl

theorem runAt_insertIfAbsent {row : OutboxRow} (h : table.runAt key = some run) :
    runAt (KeyedTable.insertIfAbsent table row) key = some run := by
  obtain ⟨prior, hprior, rfl⟩ := Option.map_eq_some_iff.mp h
  unfold runAt
  rw [KeyedTable.lookup_insertIfAbsent, hprior]
  split <;> rfl

theorem runAt_rearm {row : OutboxRow}
    (h : table.runAt key = some run) : (table.rearm row).runAt key = some run := by
  obtain ⟨prior, hprior, rfl⟩ := Option.map_eq_some_iff.mp h
  unfold runAt rearm
  rw [KeyedTable.lookup_upsert, hprior]
  split <;> rfl

theorem runAt_foldl
    (hf : ∀ table row, table.runAt key = some run → (f table row).runAt key = some run)
    (h : table.runAt key = some run) : (rows.foldl f table).runAt key = some run := by
  induction rows generalizing table with
  | nil => exact h
  | cons row rest ih => exact ih (hf table row h)

/-- No operation changes the run of a row that is there. -/
theorem runAt_execute (h : table.runAt key = some run)
    (operation : OutboxOperation) : (table.execute operation).2.runAt key = some run := by
  cases operation with
  | appendOutboxBatch rows => exact runAt_foldl (fun _ _ => runAt_insertIfAbsent) h
  | rearmOutboxPending rows => exact runAt_foldl (fun _ _ => runAt_rearm) h
  | claimOutboxRows now limit =>
    exact (runAt_modify (OutboxRow.claim_dispatchKey now) (fun _ => rfl) key).trans h
  | claimOutboxRowsExcluding now limit held =>
    exact (runAt_modify (OutboxRow.claim_dispatchKey now) (fun _ => rfl) key).trans h
  | claimOutboxRowsScoped now scope limit =>
    exact (runAt_modify (OutboxRow.claim_dispatchKey now) (fun _ => rfl) key).trans h
  | claimOutboxRowsScopedExcluding now scope limit held =>
    exact (runAt_modify (OutboxRow.claim_dispatchKey now) (fun _ => rfl) key).trans h
  | completeOutboxRow key' =>
    exact (runAt_modify (OutboxRow.finish_dispatchKey .done) (fun _ => rfl) key).trans h
  | retryOutboxRow key' nextAttempt visibleAfter =>
    exact (runAt_modify (OutboxRow.retry_dispatchKey nextAttempt visibleAfter) (fun _ => rfl) key).trans h
  | failOutboxRow key' =>
    exact (runAt_modify (OutboxRow.finish_dispatchKey .failed) (fun _ => rfl) key).trans h
  | settleOutboxRowCancelled key' =>
    exact (runAt_modify OutboxRow.settle_dispatchKey OutboxRow.settle_runId key).trans h
  | settleWorkflowOutboxRowsCancelled workflowId =>
    exact (runAt_modify OutboxRow.settle_dispatchKey OutboxRow.settle_runId key).trans h
  | rearmStaleClaimedOutboxRows olderThan visibleAfter limit =>
    exact (runAt_modify (OutboxRow.rearm_dispatchKey visibleAfter) (fun _ => rfl) key).trans h
  | listStaleClaimedOutboxRows olderThan limit => exact h
  | listUnsettledOutboxWorkflowIds => exact h
  | countInflightOutboxRows namespace_ => exact h
  | countClaimedOutboxRows namespace_ => exact h
  | countClaimedOutboxRowsByNamespace namespaces => exact h
  | pendingOutboxRoutes now => exact h

theorem runAt_final (h : table.runAt key = some run)
    (operations : List OutboxOperation) : (final execute table operations).runAt key = some run :=
  final_invariant (fun table => runAt table key = some run) (fun _ operation h =>
      runAt_execute h operation) h
    operations

/-! ### Re-arms that lose the run -/

/-- The row with its run left out. -/
def withoutRun (row : OutboxRow) : OutboxRow := { row with runId := none }

/-- The operation with the runs of the rows it re-arms left out. -/
def withoutRuns : OutboxOperation → OutboxOperation
  | .rearmOutboxPending rows => .rearmOutboxPending (rows.map withoutRun)
  | operation => operation

/-- Every row that a re-arm stages anew names no run. The row is new when nothing is at its
key and it is the first of its batch there. -/
def NewRowsNameNoRun (isNew : String → Prop) : OutboxOperation → Prop
  | .rearmOutboxPending rows =>
    ∀ key row, isNew key → rows.find? (fun row => row.dispatchKey = key) = some row →
      row.runId = none
  | _ => True

theorem lookup_rearm_eq_none {row : OutboxRow} :
    (table.rearm row).lookup key = none ↔ row.dispatchKey ≠ key ∧ table.lookup key = none := by
  rw [rearm, KeyedTable.lookup_upsert]
  split <;> simp_all [OutboxRow.finish]

theorem rearm_withoutRun {row : OutboxRow}
    (h : table.lookup row.dispatchKey = none → row.runId = none) :
    table.rearm (withoutRun row) = table.rearm row := by
  by_cases hnew : table.lookup row.dispatchKey = none
  · have hrow : withoutRun row = row := by
      cases row
      cases h hnew
      rfl
    rw [hrow]
  · unfold rearm KeyedTable.upsert
    rw [dif_neg (show ¬ table.lookup ((withoutRun row).finish .pending).dispatchKey =
      none from hnew),
      dif_neg (show ¬ table.lookup (row.finish .pending).dispatchKey = none from hnew)]
    rfl

/-- When the new rows name no run, leaving the runs out changes nothing. -/
theorem execute_withoutRuns (h : NewRowsNameNoRun (fun key => table.lookup key = none) operation) :
    table.execute (withoutRuns operation) = table.execute operation := by
  cases operation with
  | rearmOutboxPending rows =>
    have hfold : (rows.map withoutRun).foldl rearm table = rows.foldl rearm table := by
      -- Induction on the batch; a row of it stands in the way of the later ones of its key.
      induction rows generalizing table with
      | nil => rfl
      | cons row rest ih =>
        have hfst : table.rearm (withoutRun row) = table.rearm row :=
          rearm_withoutRun fun hnew => h row.dispatchKey row hnew (by simp)
        rw [List.map_cons, List.foldl_cons, List.foldl_cons, hfst]
        refine ih fun key later hnew hlat => ?_
        obtain ⟨hkey, hnew⟩ := lookup_rearm_eq_none.mp hnew
        exact h key later hnew (by rw [List.find?_cons_of_neg (by simpa using hkey)]; exact hlat)
    simp only [withoutRuns, execute, hfold]
  | _ => rfl

/-- The run of a row that a batch of re-arms stages anew is that of its first row there. -/
theorem runAt_rearms (hnew : table.lookup key = none)
    {row : OutboxRow} (hrow : rows.find? (fun row => row.dispatchKey = key) = some row) :
    (rows.foldl rearm table).runAt key = some row.runId := by
  induction rows generalizing table with
  | nil => cases hrow
  | cons first rest ih =>
    rw [List.foldl_cons]
    by_cases hkey : first.dispatchKey = key
    · rw [List.find?_cons_of_pos (by simpa using hkey)] at hrow
      obtain rfl := Option.some.inj hrow
      refine runAt_foldl (fun _ _ => runAt_rearm) ?_
      have hstaged : (first.finish .pending).dispatchKey = key := hkey
      unfold runAt rearm
      rw [KeyedTable.lookup_upsert, if_pos hstaged, hnew]
      rfl
    · rw [List.find?_cons_of_neg (by simpa using hkey)] at hrow
      exact ih (lookup_rearm_eq_none.mpr ⟨hkey, hnew⟩) hrow

/-- When a new row names a run, leaving the runs out loses it. -/
theorem runAt_of_not_newRowsNameNoRun
    (h : ¬ NewRowsNameNoRun (fun key => table.lookup key = none) operation) :
    ∃ key run, (table.execute operation).2.runAt key = some (some run) ∧
      (table.execute (withoutRuns operation)).2.runAt key = some none := by
  cases operation with
  | rearmOutboxPending rows =>
    simp only [NewRowsNameNoRun, not_forall] at h
    obtain ⟨key, row, hnew, hrow, hrun⟩ := h
    obtain ⟨run, hrun⟩ := Option.ne_none_iff_exists'.mp hrun
    refine ⟨key, run, ?_, ?_⟩
    · exact hrun ▸ runAt_rearms hnew hrow
    · have hdrop : (rows.map withoutRun).find? (fun row => row.dispatchKey = key) = some (withoutRun row) := by
        rw [List.find?_map]
        exact congrArg (Option.map withoutRun) hrow
      exact runAt_rearms hnew hdrop
  | _ => exact absurd trivial h

/-- As long as the new rows name no run, leaving the runs out changes nothing. -/
theorem run_withoutRuns
    (h : ∀ t ∈ trace execute table operations,
        NewRowsNameNoRun (fun key => t.before.lookup key = none) t.input) :
    outputs execute table (operations.map withoutRuns) = outputs execute table operations ∧
      final execute table (operations.map withoutRuns) = final execute table operations := by
  induction operations generalizing table with
  | nil => exact ⟨rfl, rfl⟩
  | cons operation rest ih =>
    rw [trace, List.forall_mem_cons] at h
    obtain ⟨houts, hfinal⟩ := ih h.2
    rw [List.map_cons, outputs_cons, outputs_cons, final_cons, final_cons, execute_withoutRuns h.1,
      houts, hfinal]
    exact ⟨rfl, rfl⟩

/-- A run that is lost stays lost: tables that agree in the end had no run to lose. -/
theorem newRowsNameNoRun_of_runAt_eq
    (h : ∀ key, (final execute table (operations.map withoutRuns)).runAt key =
        (final execute table operations).runAt key) :
    ∀ t ∈ trace execute table operations,
      NewRowsNameNoRun (fun key => t.before.lookup key = none) t.input := by
  induction operations generalizing table with
  | nil => simp [trace]
  | cons operation rest ih =>
    rw [List.map_cons, final_cons, final_cons] at h
    rw [trace, List.forall_mem_cons]
    by_cases hgood : NewRowsNameNoRun (fun key => table.lookup key = none) operation
    · rw [execute_withoutRuns hgood] at h
      exact ⟨hgood, ih h⟩
    · obtain ⟨key, run, hkept, hlost⟩ := runAt_of_not_newRowsNameNoRun hgood
      have hrun := h key
      rw [runAt_final hkept, runAt_final hlost] at hrun
      cases hrun

end OutboxTable

end Aion
