import Aion.Library.KeyedTable
import Aion.Library.Result
import Aion.Library.Sorting
import Aion.Store.Outbox

/-!
# The libSQL outbox

The `outbox` table of the libSQL store and the statements that work on it
(`aion-store-libsql/src/outbox.rs`, `outbox/transitions.rs`, `append.rs`). Rows are kept as
columns: identifiers, statuses and instants as text, the payload as bytes. Every statement
runs alone or inside one `IMMEDIATE` transaction, so an operation is one step, and an
operation that fails leaves the table as it was.

The claims, the stale re-arm and both settles look at the status of the row they write;
the three reports of a dispatcher (complete, retry, fail) name a row by its key alone.
-/

namespace Aion

open Sorting

/-! ### The table -/

/-- The columns of the `outbox` table. -/
structure OutboxColumns (Bytes : Type) where
  /-- Primary key. -/
  dispatchKey : String
  /-- Text of the workflow identifier. -/
  workflowId : String
  /-- Ordinal, a signed 64-bit integer. -/
  ordinal : ℤ
  /-- Activity type. -/
  activityType : String
  /-- Bytes of the payload. -/
  input : Bytes
  /-- Token of the status. -/
  status : String
  /-- Dispatch attempts so far. -/
  attempt : ℤ
  /-- Text of the instant from which the row is claimable. -/
  visibleAfter : String
  /-- Text of the instant of the claim. -/
  claimedAt : Option String
  /-- Text of the run identifier. -/
  runId : Option String
  /-- Namespace; NULL in rows older than the column. -/
  namespace_ : Option String
  /-- Task queue; NULL in rows older than the column. -/
  taskQueue : Option String
  /-- Node affinity. -/
  node : Option String

/-- The `outbox` table. -/
abbrev LibSqlOutbox (Bytes : Type) :=
  KeyedTable (OutboxColumns.dispatchKey : OutboxColumns Bytes → String)

namespace LibSqlOutbox

variable {Bytes : Type} (codec : OutboxCodec Bytes)

variable (table : LibSqlOutbox Bytes)

/-- `UPDATE outbox SET … WHERE …`, for a `SET` that leaves the key alone. -/
def update (where_ : OutboxColumns Bytes → Bool)
    (set : OutboxColumns Bytes → OutboxColumns Bytes)
    (keeps : ∀ row, (set row).dispatchKey = row.dispatchKey) : LibSqlOutbox Bytes :=
  table.modify where_ set keeps

/-- The columns of a row. -/
def columnsOf (row : OutboxRow) : OutboxColumns Bytes where
  dispatchKey := row.dispatchKey
  workflowId := row.workflowId.display
  ordinal := row.ordinal
  activityType := row.activityType
  input := codec.payloadToVec row.input
  status := row.status.asStr
  attempt := row.attempt
  visibleAfter := encodeInstant row.visibleAfter
  claimedAt := row.claimedAt.map encodeInstant
  runId := row.runId.map RunId.display
  namespace_ := some row.namespace_
  taskQueue := some row.taskQueue
  node := row.node

/-- The columns a row is inserted with; its ordinal must fit. -/
def columns (row : OutboxRow) : Except StoreError (OutboxColumns Bytes) :=
  if row.ordinal ≤ Int64.maxValue.toInt then .ok (columnsOf codec row)
  else .error (.backend ("outbox ordinal overflow: " ++ toString row.ordinal))

/-- `insert_outbox_row`: `INSERT OR IGNORE`. -/
def insertOutboxRow (row : OutboxRow) :
    Except StoreError (LibSqlOutbox Bytes) := do
  return table.insertIfAbsent (← columns codec row)

/-- The row a re-arm inserts: `REARM_OUTBOX_SQL` names no run. -/
def rearmInserted (row : OutboxColumns Bytes) : OutboxColumns Bytes :=
  { row with status := OutboxStatus.pending.asStr, claimedAt := none, runId := none }

/-- `SET status = 'pending', visible_after = …, claimed_at = NULL`. -/
def setPending (visibleAfter : String) (row : OutboxColumns Bytes) : OutboxColumns Bytes :=
  { row with status := "pending", visibleAfter, claimedAt := none }

@[simp]
theorem setPending_dispatchKey (visibleAfter : String) (row : OutboxColumns Bytes) :
    (setPending visibleAfter row).dispatchKey = row.dispatchKey := rfl

/-- `rearm_outbox_row`: an insert, or an update of the row that is there. -/
def rearmOutboxRow (row : OutboxRow) :
    Except StoreError (LibSqlOutbox Bytes) := do
  let inserted ← columns codec row
  return table.upsert (rearmInserted inserted) (setPending (encodeInstant row.visibleAfter))
    (setPending_dispatchKey _)

theorem columns_eq_ok {codec : OutboxCodec Bytes} {row : OutboxRow} {inserted : OutboxColumns Bytes}
    (h : columns codec row = .ok inserted) : inserted = columnsOf codec row := by
  unfold columns at h
  split at h
  · cases h
    rfl
  · cases h

/-- A batch that is inserted is inserted row by row. -/
theorem insertOutboxRows_eq_ok {codec : OutboxCodec Bytes} {rows : List OutboxRow}
    {table table' : LibSqlOutbox Bytes}
    (h : rows.foldlM (insertOutboxRow codec) table = .ok table') :
    table' = (rows.map (columnsOf codec)).foldl KeyedTable.insertIfAbsent table := by
  induction rows generalizing table with
  | nil =>
    cases h
    rfl
  | cons row rest ih =>
    rw [List.foldlM_cons] at h
    obtain ⟨next, hnext, hrest⟩ := Result.bind_eq_ok h
    obtain ⟨inserted, hinsd, hnext⟩ := Result.bind_eq_ok hnext
    obtain rfl := columns_eq_ok hinsd
    cases hnext
    rw [ih hrest, List.map_cons, List.foldl_cons]

/-- `decode_row`. -/
def decodeRow (row : OutboxColumns Bytes) : Except StoreError OutboxRow := do
  let workflowId ← (codec.parseStr row.workflowId).mapError fun error =>
    .serialization ("invalid outbox workflow id: " ++ error)
  let ordinal ← if 0 ≤ row.ordinal then .ok row.ordinal.toNat
    else .error (.backend ("outbox ordinal was negative: " ++ toString row.ordinal))
  let input ← (codec.payloadFromSlice row.input).mapError .serialization
  let status ← OutboxStatus.parseToken row.status
  let attempt ← if 0 ≤ row.attempt ∧ row.attempt < UInt32.size then .ok row.attempt.toNat
    else .error (.backend ("outbox attempt out of range: " ++ toString row.attempt))
  let visibleAfter ← decodeInstant codec row.visibleAfter
  let claimedAt ← transposeOption (decodeInstant codec) row.claimedAt
  let runId ← transposeOption (fun value => (codec.parseStr value).mapError fun error =>
    StoreError.serialization ("invalid outbox run id: " ++ error)) row.runId
  return {
    dispatchKey := row.dispatchKey
    workflowId := ⟨workflowId⟩
    ordinal, input, status, attempt, visibleAfter, claimedAt
    activityType := row.activityType
    runId := runId.map RunId.mk
    namespace_ := row.namespace_.getD defaultOutboxRoute
    taskQueue := row.taskQueue.getD defaultOutboxRoute
    node := row.node }

/-! ### Claims -/

/-- `ORDER BY visible_after ASC, dispatch_key ASC`. -/
abbrev claimOrder : OutboxColumns Bytes → OutboxColumns Bytes → Prop :=
  lexBy OutboxColumns.visibleAfter OutboxColumns.dispatchKey

/-- The claimable rows: pending, due, and what else the `WHERE` asks. -/
def selectClaimable (now : String)
    (where_ : OutboxColumns Bytes → Bool) : List (OutboxColumns Bytes) :=
  (table.rows.filter fun row => row.status = "pending" ∧ row.visibleAfter ≤ now ∧
      where_ row).insertionSort
    claimOrder

/-- The scope's part of the `WHERE`; the node clause depends on the scope's having a node. -/
def inScope (scope : ClaimScope) (row : OutboxColumns Bytes) : Bool :=
  row.namespace_ == some scope.namespace_ && row.taskQueue == some scope.taskQueue &&
    match scope.node with
    | some node => row.node == none || row.node == some node
    | none => row.node == none

/-- `CLAIM_ROW_SQL`. -/
def claimRow (dispatchKey : String) (now : String) :
    LibSqlOutbox Bytes :=
  update table (fun row => row.dispatchKey = dispatchKey ∧ row.status = "pending")
    (fun row => { row with status := "claimed", claimedAt := some now }) fun _ => rfl

/-- The loop of `select_and_claim`. -/
def claimSelected (claimedAt : Instant) :
    LibSqlOutbox Bytes → List (OutboxColumns Bytes) →
      Except StoreError (List OutboxRow × LibSqlOutbox Bytes)
  | table, [] => .ok ([], table)
  | table, row :: rest => do
    let decoded ← decodeRow codec row
    let (claimed, table) ← claimSelected claimedAt
      (claimRow table decoded.dispatchKey (encodeInstant claimedAt)) rest
    return (decoded.claim claimedAt :: claimed, table)

/-- The loop of `select_and_claim_excluding` and of `select_and_claim_scoped`: it stops at
the limit and leaves the rows of held workflows pending. -/
def claimUnheld (claimedAt : Instant) (held : List WorkflowId) :
    ℕ → LibSqlOutbox Bytes → List (OutboxColumns Bytes) →
      Except StoreError (List OutboxRow × LibSqlOutbox Bytes)
  | _, table, [] => .ok ([], table)
  | 0, table, _ => .ok ([], table)
  | limit + 1, table, row :: rest => do
    let decoded ← decodeRow codec row
    if decoded.workflowId ∈ held then claimUnheld claimedAt held (limit + 1) table rest
    else
      let (claimed, table) ← claimUnheld claimedAt held limit
        (claimRow table decoded.dispatchKey (encodeInstant claimedAt)) rest
      return (decoded.claim claimedAt :: claimed, table)

/-- `claim_outbox_rows`. -/
def claimOutboxRows (now : Instant) (limit : ℕ) :
    Except StoreError (List OutboxRow × LibSqlOutbox Bytes) :=
  if limit = 0 then .ok ([], table)
  else claimSelected codec now table
    ((selectClaimable table (encodeInstant now) fun _ => true).take limit)

/-- `claim_outbox_rows_excluding`. -/
def claimOutboxRowsExcluding (now : Instant) (limit : ℕ)
    (held : List WorkflowId) : Except StoreError (List OutboxRow × LibSqlOutbox Bytes) :=
  if limit = 0 then .ok ([], table)
  else if held = [] then claimOutboxRows codec table now limit
  else claimUnheld codec now held limit table
    (selectClaimable table (encodeInstant now) fun _ => true)

/-- `claim_outbox_rows_scoped_excluding`: the limit is the statement's when nothing is
held. -/
def claimOutboxRowsScopedExcluding (now : Instant) (scope : ClaimScope)
    (limit : ℕ) (held : List WorkflowId) :
    Except StoreError (List OutboxRow × LibSqlOutbox Bytes) :=
  if limit = 0 then .ok ([], table)
  else
    let selected := selectClaimable table (encodeInstant now) (inScope scope)
    claimUnheld codec now held limit table (if held = [] then selected.take limit else selected)

/-- `claim_outbox_rows_scoped`. -/
def claimOutboxRowsScoped (now : Instant) (scope : ClaimScope)
    (limit : ℕ) : Except StoreError (List OutboxRow × LibSqlOutbox Bytes) :=
  claimOutboxRowsScopedExcluding codec table now scope limit []

/-! ### Stale claims -/

/-- `ORDER BY claimed_at ASC, dispatch_key ASC`, of rows that have a claim instant. -/
abbrev staleOrder : OutboxColumns Bytes → OutboxColumns Bytes → Prop :=
  lexBy (fun row => row.claimedAt.getD "") OutboxColumns.dispatchKey

/-- `SELECT_STALE_CLAIMED_SQL`. -/
def selectStaleClaimed (olderThan : Instant) (limit : ℕ) :
    List (OutboxColumns Bytes) :=
  ((table.rows.filter fun row =>
      row.status = "claimed" ∧ row.claimedAt.any fun claimedAt => claimedAt < encodeInstant olderThan).insertionSort
    staleOrder).take limit

/-- `REARM_STALE_CLAIMED_ROW_SQL`. -/
def rearmStaleRow (dispatchKey visibleAfter : String) :
    LibSqlOutbox Bytes :=
  update table (fun row => row.dispatchKey = dispatchKey ∧ row.status = "claimed")
    (setPending visibleAfter) (setPending_dispatchKey visibleAfter)

/-- The loop of `select_and_rearm_stale_claimed`. -/
def rearmSelected (visibleAfter : Instant) :
    LibSqlOutbox Bytes → List (OutboxColumns Bytes) →
      Except StoreError (List OutboxRow × LibSqlOutbox Bytes)
  | table, [] => .ok ([], table)
  | table, row :: rest => do
    let decoded ← decodeRow codec row
    let (rearmed, table) ← rearmSelected visibleAfter
      (rearmStaleRow table decoded.dispatchKey (encodeInstant visibleAfter)) rest
    return (decoded.rearm visibleAfter :: rearmed, table)

/-- `rearm_stale_claimed_outbox_rows`. -/
def rearmStaleClaimedOutboxRows (olderThan visibleAfter : Instant)
    (limit : ℕ) : Except StoreError (List OutboxRow × LibSqlOutbox Bytes) :=
  if limit = 0 then .ok ([], table)
  else rearmSelected codec visibleAfter table (selectStaleClaimed table olderThan limit)

/-- `list_stale_claimed_outbox_rows`. -/
def listStaleClaimedOutboxRows (olderThan : Instant) (limit : ℕ) :
    Except StoreError (List OutboxRow) :=
  if limit = 0 then .ok []
  else (selectStaleClaimed table olderThan limit).mapM (decodeRow codec)

/-! ### Transitions -/

/-- `COMPLETE_ROW_SQL`. -/
def completeOutboxRow (dispatchKey : String) : LibSqlOutbox Bytes :=
  update table (fun row => row.dispatchKey = dispatchKey)
    (fun row => { row with status := "done", claimedAt := none }) fun _ => rfl

/-- `RETRY_ROW_SQL`. -/
def retryOutboxRow (dispatchKey : String) (nextAttempt : ℕ)
    (visibleAfter : Instant) : LibSqlOutbox Bytes :=
  update table (fun row => row.dispatchKey = dispatchKey)
    (fun row => { row with status := "pending", attempt := nextAttempt, visibleAfter := encodeInstant visibleAfter,
                           claimedAt := none })
    fun _ => rfl

/-- `FAIL_ROW_SQL`. -/
def failOutboxRow (dispatchKey : String) : LibSqlOutbox Bytes :=
  update table (fun row => row.dispatchKey = dispatchKey)
    (fun row => { row with status := "failed", claimedAt := none }) fun _ => rfl

/-- `status IN ('pending', 'claimed')`. -/
def isLive (row : OutboxColumns Bytes) : Bool := row.status = "pending" ∨ row.status = "claimed"

/-- `SETTLE_CANCELLED_ROW_SQL`. -/
def settleOutboxRowCancelled (dispatchKey : String) :
    LibSqlOutbox Bytes :=
  update table (fun row => row.dispatchKey = dispatchKey ∧ isLive row)
    (fun row => { row with status := "cancelled", claimedAt := none }) fun _ => rfl

/-- `settle_workflow_outbox_rows_cancelled`. -/
def settleWorkflowOutboxRowsCancelled (workflowId : WorkflowId) :
    List String × LibSqlOutbox Bytes :=
  let settled :=
    ((table.rows.filter fun row => row.workflowId = workflowId.display ∧ isLive row).map
    OutboxColumns.dispatchKey).insertionSort (· ≤ ·)
  (settled,
    if settled = [] then table
    else update table (fun row => row.workflowId = workflowId.display ∧ isLive row)
      (fun row => { row with status := "cancelled", claimedAt := none }) fun _ => rfl)

/-! ### Counts and enumerations -/

/-- `COUNT_INFLIGHT_OUTBOX_SQL`. -/
def countInflightOutboxRows (namespace_ : String) : ℕ :=
  table.rows.countP fun row => row.namespace_ = some namespace_ ∧ isLive row

/-- `COUNT_CLAIMED_OUTBOX_SQL`. -/
def countClaimedOutboxRows (namespace_ : String) : ℕ :=
  table.rows.countP fun row => row.namespace_ = some namespace_ ∧ row.status = "claimed"

/-- `COUNT_CLAIMED_OUTBOX_BY_NAMESPACE_SQL`: the groups and their sizes. -/
def claimedGroups : List (Option String × ℕ) :=
  let namespaces :=
    (table.rows.filter fun row => row.status = "claimed").map OutboxColumns.namespace_
  namespaces.dedup.map fun namespace_ => (namespace_, namespaces.count namespace_)

/-- The loop of `count_claimed_outbox_rows_by_namespace` over the groups, from the map with
a zero for each requested namespace. -/
def fillCounts :
    List (String × ℕ) → List (Option String × ℕ) → Except StoreError (List (String × ℕ))
  | counts, [] => .ok counts
  | _, (none, _) :: _ => .error (.backend codec.nullValue)
  | counts, (some namespace_, count) :: rest =>
    fillCounts (counts.map fun entry => if entry.1 = namespace_ then (entry.1, count) else entry) rest

/-- `count_claimed_outbox_rows_by_namespace`. -/
def countClaimedOutboxRowsByNamespace (namespaces : List String) :
    Except StoreError (List (String × ℕ)) :=
  fillCounts codec ((namespaces.dedup.insertionSort (· ≤ ·)).map fun namespace_ => (namespace_, 0))
    (claimedGroups table)

/-- `pending_outbox_routes`. -/
def pendingOutboxRoutes (now : Instant) : List ClaimScope :=
  let due :=
    table.rows.filter fun row => row.status = "pending" ∧ row.visibleAfter ≤ encodeInstant now
  (due.map fun row => (row.namespace_, row.taskQueue, row.node)).dedup.map fun route =>
    ⟨route.1.getD defaultOutboxRoute, route.2.1.getD defaultOutboxRoute, route.2.2⟩

/-- `list_unsettled_outbox_workflow_ids`. -/
def listUnsettledOutboxWorkflowIds :
    Except StoreError (List WorkflowId) :=
  (((table.rows.filter isLive).map OutboxColumns.workflowId).dedup.insertionSort (· ≤ ·)).mapM
    fun value => ((codec.parseStr value).map WorkflowId.mk).mapError fun error =>
      .serialization ("invalid outbox workflow id: " ++ error)

/-! ### The operations -/

/-- The answer and the table of a transaction; one that fails is rolled back. -/
def transaction {α : Type} (answer : α → OutboxAnswer) :
    Except StoreError (α × LibSqlOutbox Bytes) → Except StoreError OutboxAnswer × LibSqlOutbox Bytes
  | .ok (value, table') => (.ok (answer value), table')
  | .error error => (.error error, table)

/-- Runs an operation. -/
def execute :
    OutboxOperation → Except StoreError OutboxAnswer × LibSqlOutbox Bytes
  | .appendOutboxBatch rows =>
    transaction table (fun _ : Unit => .done)
      ((rows.foldlM (insertOutboxRow codec) table).map ((), ·))
  | .rearmOutboxPending rows =>
    transaction table (fun _ : Unit => .done)
      ((rows.foldlM (rearmOutboxRow codec) table).map ((), ·))
  | .claimOutboxRows now limit => transaction table .rows (claimOutboxRows codec table now limit)
  | .claimOutboxRowsExcluding now limit held =>
    transaction table .rows (claimOutboxRowsExcluding codec table now limit held)
  | .claimOutboxRowsScoped now scope limit =>
    transaction table .rows (claimOutboxRowsScoped codec table now scope limit)
  | .claimOutboxRowsScopedExcluding now scope limit held =>
    transaction table .rows (claimOutboxRowsScopedExcluding codec table now scope limit held)
  | .completeOutboxRow dispatchKey => (.ok .done, completeOutboxRow table dispatchKey)
  | .retryOutboxRow dispatchKey nextAttempt visibleAfter =>
    (.ok .done, retryOutboxRow table dispatchKey nextAttempt visibleAfter)
  | .failOutboxRow dispatchKey => (.ok .done, failOutboxRow table dispatchKey)
  | .settleOutboxRowCancelled dispatchKey => (.ok .done, settleOutboxRowCancelled table dispatchKey)
  | .settleWorkflowOutboxRowsCancelled workflowId =>
    let (settled, table') := settleWorkflowOutboxRowsCancelled table workflowId
    (.ok (.keys settled), table')
  | .listStaleClaimedOutboxRows olderThan limit =>
    ((listStaleClaimedOutboxRows codec table olderThan limit).map .rows, table)
  | .rearmStaleClaimedOutboxRows olderThan visibleAfter limit =>
    transaction table .rows (rearmStaleClaimedOutboxRows codec table olderThan visibleAfter limit)
  | .listUnsettledOutboxWorkflowIds =>
    ((listUnsettledOutboxWorkflowIds codec table).map .workflowIds, table)
  | .countInflightOutboxRows namespace_ =>
    (.ok (.count (countInflightOutboxRows table namespace_)), table)
  | .countClaimedOutboxRows namespace_ =>
    (.ok (.count (countClaimedOutboxRows table namespace_)), table)
  | .countClaimedOutboxRowsByNamespace namespaces =>
    ((countClaimedOutboxRowsByNamespace codec table namespaces).map .counts, table)
  | .pendingOutboxRoutes now => (.ok (.routes (pendingOutboxRoutes table now)), table)

end LibSqlOutbox

end Aion
