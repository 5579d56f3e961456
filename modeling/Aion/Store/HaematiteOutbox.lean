import Aion.Library.KeyedTable
import Aion.Library.Sorting
import Aion.Store.Outbox

/-!
# The haematite outbox

The outbox of the haematite store (`aion-store-haematite/src/store.rs`) on one node. A row
is a key-value entry, kept on the shard of its workflow's event stream. haematite itself is
not part of this repository: its database is a parameter (`HaematiteDatabase`), which answers
the calls that the store makes from what it keeps or fails, and so is the shard of a workflow.

An operation is a program that makes these calls, and ends at the first that fails. Run alone it
is one step of a store; several at a time fall between each other's calls, for `blocking` puts
each on a thread of its own and takes no lock.
-/

namespace Aion

open Interleaving Sorting

/-! ### The database -/

/-- The calls on the database; a row's region of the key space is the outbox's. -/
inductive DbCall (Bytes : Type) where
  /-- `range_per_shard` over the outbox region. -/
  | rangePerShard (shard : ℕ)
  /-- `get_routed` on the shard of a workflow. -/
  | getRouted (workflowId : WorkflowId) (key : String)
  /-- `put_routed` on the shard of a workflow. -/
  | putRouted (workflowId : WorkflowId) (key : String) (value : Bytes)
  /-- `commit`. -/
  | commit
  /-- `read_from` the beginning of a workflow's event stream. -/
  | readFrom (workflowId : WorkflowId)
  /-- `append_batch` to a workflow's event stream. -/
  | appendBatch (workflowId : WorkflowId) (events : List Event) (expectedSeq : ℕ)

/-- What each call returns; a refused append returns the head it found. -/
def DbCall.Answer {Bytes : Type} : DbCall Bytes → Type
  | .rangePerShard _ => List (String × Bytes)
  | .getRouted _ _ => Option Bytes
  | .putRouted _ _ _ => Unit
  | .commit => Unit
  | .readFrom _ => List Event
  | .appendBatch _ _ _ => Except ℕ Unit

/-- What the database keeps: the outbox region of each shard, and the event streams. -/
structure Database (Bytes : Type) where
  /-- The entries of each shard. -/
  shards : ℕ → KeyedTable (Prod.fst : String × Bytes → String)
  /-- The event streams. -/
  streams : AList fun _ : WorkflowId => List Event

/-- How haematite spreads event streams over its shards. -/
structure Sharding where
  /-- `shard_count`. -/
  shardCount : ℕ
  /-- There is a shard. -/
  pos : 0 < shardCount
  /-- The hash of a workflow's event-stream key. -/
  hash : WorkflowId → ℕ

/-- One shard. -/
def oneShard : Sharding := ⟨1, Nat.one_pos, fun _ => 0⟩

/-- The shard a workflow's records are on. -/
def Sharding.shardOf (sharding : Sharding) (workflowId : WorkflowId) : ℕ :=
  sharding.hash workflowId % sharding.shardCount

/-- Nothing is kept. -/
def Database.empty {Bytes : Type} : Database Bytes := ⟨fun _ => .empty, ∅⟩

/-- The answer to a call from what is kept, and what is kept after it. -/
def Database.serve {Bytes : Type} (sharding : Sharding) (database : Database Bytes) :
    (call : DbCall Bytes) → call.Answer × Database Bytes
  | .rangePerShard shard =>
    ((database.shards shard).rows.insertionSort (fun left right => left.1 ≤ right.1), database)
  | .getRouted workflowId key =>
    (((database.shards (sharding.shardOf workflowId)).lookup key).map Prod.snd, database)
  | .putRouted workflowId key value =>
    ((), { database with
      shards := Function.update database.shards (sharding.shardOf workflowId)
        ((database.shards (sharding.shardOf workflowId)).upsert (key, value) (fun entry => (entry.1, value))
          fun _ => rfl) })
  | .commit => ((), database)
  | .readFrom workflowId => ((database.streams.lookup workflowId).getD [], database)
  | .appendBatch workflowId events expectedSeq =>
    let stream := (database.streams.lookup workflowId).getD []
    if InMemoryStore.historyHead stream = expectedSeq then
      (.ok (), { database with streams := database.streams.insert workflowId (stream ++ events) })
    else (.error (InMemoryStore.historyHead stream), database)

/-- What a call returns: its answer, or the error of a call that failed. -/
abbrev DbCall.Reply {Bytes : Type} (call : DbCall Bytes) : Type := Except StoreError call.Answer

/-- haematite's database. A call that succeeds is answered from what is kept; one that fails leaves
what is kept as it is, or as the call would have. -/
structure HaematiteDatabase (Bytes : Type) (sharding : Sharding) where
  /-- The states of the database. -/
  State : Type
  /-- What a state keeps. -/
  kept : State → Database Bytes
  /-- What a call returns, and the state after it. -/
  serve : State → (call : DbCall Bytes) → call.Reply × State
  /-- An answer is the one from what is kept. -/
  serve_ok : ∀ {state call answer}, (serve state call).1 = .ok answer →
    (kept state).serve sharding call = (answer, kept (serve state call).2)
  /-- An error changes nothing, or what the call changes. -/
  serve_error : ∀ {state call error}, (serve state call).1 = .error error →
    kept (serve state call).2 = kept state ∨
      kept (serve state call).2 = ((kept state).serve sharding call).2

/-- The database in which no call fails. -/
def HaematiteDatabase.sound (Bytes : Type) (sharding : Sharding) :
    HaematiteDatabase Bytes sharding where
  State := Database Bytes
  kept := id
  serve := fun database call => (.ok (database.serve sharding call).1,
      (database.serve sharding call).2)
  serve_ok := by
    rintro state call _ ⟨⟩
    rfl
  serve_error := by
    rintro state call _ ⟨⟩

/-- A program on the database that may fail. It goes on from the answer to each call, for an error
ends it (`handled`). -/
def DbM (Bytes α : Type) : Type := Prog (DbCall Bytes) DbCall.Answer (Except StoreError α)

namespace DbM

variable {Bytes α : Type}

instance : Monad (DbM Bytes) where
  pure value := .done (.ok value)
  bind first f := Prog.bind first fun outcome =>
    match outcome with
    | .ok value => f value
    | .error error => .done (.error error)

/-- A database call. -/
def call (request : DbCall Bytes) : DbM Bytes request.Answer :=
  Prog.call request fun answer => .done (.ok answer)

/-- The `?` of a result. -/
def lift (result : Except StoreError α) : DbM Bytes α := .done result

/-- `range_per_shard`. -/
def rangePerShard (shard : ℕ) : DbM Bytes (List (String × Bytes)) := call (.rangePerShard shard)

/-- `get_routed`. -/
def getRouted (workflowId : WorkflowId) (key : String) : DbM Bytes (Option Bytes) :=
  call (.getRouted workflowId key)

/-- `put_routed`. -/
def putRouted (workflowId : WorkflowId) (key : String) (value : Bytes) : DbM Bytes Unit :=
  call (.putRouted workflowId key value)

/-- `commit`. -/
def commit : DbM Bytes Unit := call .commit

/-- `read_from`. -/
def readFrom (workflowId : WorkflowId) : DbM Bytes (List Event) := call (.readFrom workflowId)

/-- `append_batch`. -/
def appendBatch (workflowId : WorkflowId) (events : List Event) (expectedSeq : ℕ) :
    DbM Bytes (Except ℕ Unit) :=
  call (.appendBatch workflowId events expectedSeq)

/-- The `?` of a call: its error is the outcome. -/
def handleReply {request : DbCall Bytes}
    (next : request.Answer → Prog (DbCall Bytes) DbCall.Reply (Except StoreError α)) :
    request.Reply → Prog (DbCall Bytes) DbCall.Reply (Except StoreError α)
  | .ok answer => next answer
  | .error error => .done (.error error)

/-- The program with the `?` of its calls. -/
def handled : DbM Bytes α → Prog (DbCall Bytes) DbCall.Reply (Except StoreError α)
  | Prog.done outcome => .done outcome
  | Prog.call request next => .call request (handleReply fun answer => handled (next answer))

end DbM

namespace Haematite

open DbM

variable {Bytes : Type} (codec : OutboxCodec Bytes)

/-! ### Stored rows -/

/-- The stored form of a row. -/
def stored (row : OutboxRow) : StoredOutboxRow where
  dispatchKey := row.dispatchKey
  workflowId := row.workflowId
  ordinal := row.ordinal
  runId := row.runId
  namespace_ := row.namespace_
  taskQueue := row.taskQueue
  node := row.node
  activityType := row.activityType
  input := row.input
  status := row.status.asStr
  attempt := row.attempt
  visibleAfter := encodeInstant row.visibleAfter
  claimedAt := row.claimedAt.map encodeInstant

/-- `encode_outbox`. -/
def encodeOutbox (row : OutboxRow) : Bytes := codec.rowToVec (stored row)

/-- `decode_outbox`. -/
def decodeOutbox (bytes : Bytes) : Except StoreError OutboxRow := do
  let stored ← (codec.rowFromSlice bytes).mapError .serialization
  let status ← OutboxStatus.parseToken stored.status
  let visibleAfter ← decodeInstant codec stored.visibleAfter
  let claimedAt ← transposeOption (decodeInstant codec) stored.claimedAt
  return {
    dispatchKey := stored.dispatchKey
    workflowId := stored.workflowId
    ordinal := stored.ordinal
    runId := stored.runId
    namespace_ := stored.namespace_
    taskQueue := stored.taskQueue
    node := stored.node
    activityType := stored.activityType
    input := stored.input
    status
    attempt := stored.attempt
    visibleAfter, claimedAt }

/-- `scan_prefix_scoped` of the outbox region over the shards in scope. -/
def scanOutbox : List ℕ → DbM Bytes (List OutboxRow)
  | [] => return []
  | shard :: rest => do
    let entries ← rangePerShard shard
    let rows ← lift (entries.mapM fun entry => decodeOutbox codec entry.2)
    let later ← scanOutbox rest
    return rows ++ later

/-- Writes a row to the shard of its workflow. -/
def putRow (row : OutboxRow) : DbM Bytes Unit :=
  putRouted row.workflowId row.dispatchKey (encodeOutbox codec row)

/-- The loop that rewrites the selected rows. -/
def rewriteRows (f : OutboxRow → OutboxRow) : List OutboxRow → DbM Bytes (List OutboxRow)
  | [] => return []
  | row :: rest => do
    putRow codec (f row)
    let later ← rewriteRows f rest
    return f row :: later

/-! ### Inserts -/

/-- The loop of `insert_outbox_rows`. -/
def insertRows : List OutboxRow → DbM Bytes Unit
  | [] => return ()
  | row :: rest => do
    let existing ← getRouted row.workflowId row.dispatchKey
    match existing with
    | none => putRow codec row
    | some _ => pure ()
    insertRows rest

/-- `insert_outbox_rows`. -/
def insertOutboxRows (rows : List OutboxRow) : DbM Bytes Unit := do
  insertRows codec rows
  commit

/-- The row a re-arm leaves. -/
def rearmed (row : OutboxRow) : Option OutboxRow → OutboxRow
  | some prior =>
    { prior with status := .pending, attempt := prior.attempt, visibleAfter := row.visibleAfter,
                               claimedAt := none }
  | none => { row with status := .pending, claimedAt := none }

/-- The loop of `rearm_outbox_pending`. -/
def rearmRows : List OutboxRow → DbM Bytes Unit
  | [] => return ()
  | row :: rest => do
    let existing ← getRouted row.workflowId row.dispatchKey
    let prior ← lift (transposeOption (decodeOutbox codec) existing)
    putRouted row.workflowId row.dispatchKey (encodeOutbox codec (rearmed row prior))
    rearmRows rest

/-- `rearm_outbox_pending`. -/
def rearmOutboxPending (rows : List OutboxRow) : DbM Bytes Unit :=
  if rows = [] then return ()
  else do
    rearmRows codec rows
    commit

/-! ### Claims -/

/-- By `visible_after`, then by `dispatch_key`. -/
abbrev claimOrder : OutboxRow → OutboxRow → Prop :=
  lexBy OutboxRow.visibleAfter OutboxRow.dispatchKey

variable (shards : List ℕ)

/-- The body the four claims share: scan, filter, sort, truncate, rewrite, commit. -/
def claim (now : Instant) (limit : ℕ) (admits : OutboxRow → Bool) :
    DbM Bytes (List OutboxRow) :=
  if limit = 0 then return []
  else do
    let scanned ← scanOutbox codec shards
    let claimable := (scanned.filter fun row =>
      row.status = .pending ∧ row.visibleAfter ≤ now ∧ admits row).insertionSort claimOrder
    let claimed ← rewriteRows codec (OutboxRow.claim · now) (claimable.take limit)
    commit
    return claimed

/-- `claim_outbox_rows`. -/
def claimOutboxRows (now : Instant) (limit : ℕ) : DbM Bytes (List OutboxRow) :=
  claim codec shards now limit fun _ => true

/-- `claim_outbox_rows_excluding`. -/
def claimOutboxRowsExcluding (now : Instant) (limit : ℕ)
    (held : List WorkflowId) : DbM Bytes (List OutboxRow) :=
  claim codec shards now limit fun row => !held.contains row.workflowId

/-- `claim_outbox_rows_scoped`. -/
def claimOutboxRowsScoped (now : Instant) (scope : ClaimScope) (limit : ℕ) :
    DbM Bytes (List OutboxRow) :=
  claim codec shards now limit scope.admits

/-- `claim_outbox_rows_scoped_excluding`. -/
def claimOutboxRowsScopedExcluding (now : Instant) (scope : ClaimScope)
    (limit : ℕ) (held : List WorkflowId) : DbM Bytes (List OutboxRow) :=
  claim codec shards now limit fun row => scope.admits row && !held.contains row.workflowId

/-! ### Stale claims -/

/-- By `claimed_at`, then by `dispatch_key`. -/
abbrev staleOrder : OutboxRow → OutboxRow → Prop :=
  lexBy (fun row => optional row.claimedAt) OutboxRow.dispatchKey

/-- The stale claims among the scanned rows. -/
def selectStale (scanned : List OutboxRow) (olderThan : Instant) (limit : ℕ) : List OutboxRow :=
  ((scanned.filter fun row => row.status = .claimed ∧ row.claimedAt.any fun claimedAt =>
      claimedAt < olderThan).insertionSort
    staleOrder).take limit

/-- `list_stale_claimed_outbox_rows`. -/
def listStaleClaimedOutboxRows (olderThan : Instant) (limit : ℕ) :
    DbM Bytes (List OutboxRow) :=
  if limit = 0 then return []
  else return selectStale (← scanOutbox codec shards) olderThan limit

/-- `rearm_stale_claimed_outbox_rows`. -/
def rearmStaleClaimedOutboxRows (olderThan visibleAfter : Instant) (limit : ℕ) :
    DbM Bytes (List OutboxRow) :=
  if limit = 0 then return []
  else do
    let scanned ← scanOutbox codec shards
    let rearmed ← rewriteRows codec (OutboxRow.rearm · visibleAfter)
      (selectStale scanned olderThan limit)
    commit
    return rearmed

/-! ### Transitions -/

/-- The part of a text before its last colon: `rsplit_once(':')`. -/
def beforeLastColon (text : String) : Option String :=
  match text.toList.reverse.dropWhile (· ≠ ':') with
  | [] => none
  | _ :: reversed => some (String.ofList reversed.reverse)

/-- The workflow a dispatch key names, by which the row is routed. -/
def workflowOf (dispatchKey : String) : Except StoreError WorkflowId :=
  match beforeLastColon dispatchKey with
  | none => .error (.backend ("outbox dispatch_key missing ':' separator: " ++ dispatchKey))
  | some text => ((codec.parseStr text).map WorkflowId.mk).mapError fun error =>
    .serialization ("invalid workflow id index: " ++ error)

/-- `transition_outbox`. -/
def transitionOutbox (dispatchKey : String) (transition : OutboxRow → OutboxRow) : DbM Bytes Unit :=
  do
  let workflowId ← lift (workflowOf codec dispatchKey)
  let existing ← getRouted workflowId dispatchKey
  match existing with
  | none => return ()
  | some bytes =>
    let row ← lift (decodeOutbox codec bytes)
    putRouted workflowId dispatchKey (encodeOutbox codec (transition row))
    commit

/-- `complete_outbox_row`. -/
def completeOutboxRow (dispatchKey : String) : DbM Bytes Unit :=
  transitionOutbox codec dispatchKey fun row => { row with status := .done, claimedAt := none }

/-- `retry_outbox_row`. -/
def retryOutboxRow (dispatchKey : String) (nextAttempt : ℕ) (visibleAfter : Instant) :
    DbM Bytes Unit :=
  transitionOutbox codec dispatchKey fun row =>
    { row with status := .pending, attempt := nextAttempt, visibleAfter, claimedAt := none }

/-- `fail_outbox_row`. -/
def failOutboxRow (dispatchKey : String) : DbM Bytes Unit :=
  transitionOutbox codec dispatchKey fun row => { row with status := .failed, claimedAt := none }

/-- The row as a settle leaves it. -/
def cancelled (row : OutboxRow) : OutboxRow := { row with status := .cancelled, claimedAt := none }

/-- `settle_outbox_row_cancelled`. -/
def settleOutboxRowCancelled (dispatchKey : String) : DbM Bytes Unit :=
  transitionOutbox codec dispatchKey fun row => if row.status.isInflight then cancelled row else row

/-- `settle_workflow_outbox_rows`. -/
def settleWorkflowOutboxRows (workflowId : WorkflowId) :
    DbM Bytes (List String) := do
  let scanned ← scanOutbox codec shards
  let live :=
    (scanned.filter fun row => row.workflowId = workflowId ∧ row.status.isInflight).insertionSort
    fun left right => left.dispatchKey ≤ right.dispatchKey
  let settled ← rewriteRows codec cancelled live
  commit
  return settled.map OutboxRow.dispatchKey

/-! ### Counts and enumerations -/

/-- The loop of `count_claimed_outbox_rows_by_namespace` over the scanned rows. -/
def tally : List (String × ℕ) → List OutboxRow → List (String × ℕ)
  | counts, [] => counts
  | counts, row :: rest =>
    tally (if row.status = .claimed then
      counts.map fun entry => if entry.1 = row.namespace_ then (entry.1, entry.2 + 1) else entry else counts) rest

/-- By namespace, task queue and node, the order of a `BTreeSet` of routes. -/
def routeOrder (left right : ClaimScope) : Prop :=
  left.namespace_ < right.namespace_ ∨ left.namespace_ = right.namespace_ ∧
    (left.taskQueue < right.taskQueue ∨ left.taskQueue = right.taskQueue ∧
      optional left.node ≤ optional right.node)

instance : DecidableRel routeOrder := fun _ _ => inferInstanceAs (Decidable (_ ∨ _))

/-- The routes of the rows that are due. -/
def dueRoutes (scanned : List OutboxRow) (now : Instant) : List ClaimScope :=
  ((scanned.filter fun row => row.status = .pending ∧ row.visibleAfter ≤ now).map fun row =>
    ClaimScope.mk row.namespace_ row.taskQueue row.node).dedup.insertionSort routeOrder

/-- The workflows with a row in flight. -/
def unsettled (scanned : List OutboxRow) : List WorkflowId :=
  ((scanned.filter fun row => row.status.isInflight).map OutboxRow.workflowId).dedup.insertionSort
    fun left right => left.display ≤ right.display

/-! ### Appends -/

/-- The event half of `append_blocking` on one node. -/
def appendEvents (workflowId : WorkflowId) (events : List Event) (expectedSeq : ℕ) :
    DbM Bytes Unit :=
  if events = [] then return ()
  else do
    let answer ← appendBatch workflowId events expectedSeq
    lift (answer.mapError fun found => .sequenceConflict expectedSeq found)

/-- `stream_head`. -/
def streamHead (workflowId : WorkflowId) : DbM Bytes ℕ :=
  return InMemoryStore.historyHead (← readFrom workflowId)

/-- `append_blocking` on one node: the events first, then the outbox rows. -/
def appendBlocking (workflowId : WorkflowId) (events : List Event) (expectedSeq : ℕ)
    (outboxRows : Option (List OutboxRow)) : DbM Bytes Unit := do
  let head ← streamHead workflowId
  if head ≠ expectedSeq then lift (.error (.sequenceConflict expectedSeq head))
  else
    match InMemoryStore.firstGap (expectedSeq + 1) events with
    | some (nextSeq, event) =>
      lift (.error (.backend ("event sequence must be contiguous: expected " ++
        toString nextSeq ++ ", got " ++ toString event.seq)))
    | none =>
      if events = [] ∧ outboxRows.getD [] = [] then return ()
      else do
        appendEvents workflowId events expectedSeq
        match outboxRows with
        | some rows => insertOutboxRows codec rows
        | none => return ()

/-! ### The operations -/

/-- The program of an operation, on a store that scans the given shards. -/
def program : OutboxOperation → DbM Bytes OutboxAnswer
  | .appendOutboxBatch rows =>
    if rows = [] then return .done else (fun _ => .done) <$> insertOutboxRows codec rows
  | .rearmOutboxPending rows => (fun _ => .done) <$> rearmOutboxPending codec rows
  | .claimOutboxRows now limit => .rows <$> claimOutboxRows codec shards now limit
  | .claimOutboxRowsExcluding now limit held =>
    .rows <$> claimOutboxRowsExcluding codec shards now limit held
  | .claimOutboxRowsScoped now scope limit =>
    .rows <$> claimOutboxRowsScoped codec shards now scope limit
  | .claimOutboxRowsScopedExcluding now scope limit held =>
    .rows <$> claimOutboxRowsScopedExcluding codec shards now scope limit held
  | .completeOutboxRow dispatchKey => (fun _ => .done) <$> completeOutboxRow codec dispatchKey
  | .retryOutboxRow dispatchKey nextAttempt visibleAfter =>
    (fun _ => .done) <$> retryOutboxRow codec dispatchKey nextAttempt visibleAfter
  | .failOutboxRow dispatchKey => (fun _ => .done) <$> failOutboxRow codec dispatchKey
  | .settleOutboxRowCancelled dispatchKey =>
    (fun _ => .done) <$> settleOutboxRowCancelled codec dispatchKey
  | .settleWorkflowOutboxRowsCancelled workflowId =>
    .keys <$> settleWorkflowOutboxRows codec shards workflowId
  | .listStaleClaimedOutboxRows olderThan limit =>
    .rows <$> listStaleClaimedOutboxRows codec shards olderThan limit
  | .rearmStaleClaimedOutboxRows olderThan visibleAfter limit =>
    .rows <$> rearmStaleClaimedOutboxRows codec shards olderThan visibleAfter limit
  | .listUnsettledOutboxWorkflowIds => return .workflowIds (unsettled (← scanOutbox codec shards))
  | .countInflightOutboxRows namespace_ =>
    return .count ((← scanOutbox codec shards).countP fun row =>
      row.namespace_ = namespace_ ∧ row.status.isInflight)
  | .countClaimedOutboxRows namespace_ =>
    return .count ((← scanOutbox codec shards).countP fun row =>
      row.namespace_ = namespace_ ∧ row.status = .claimed)
  | .countClaimedOutboxRowsByNamespace namespaces => return .counts (tally
      ((namespaces.dedup.insertionSort (· ≤ ·)).map fun namespace_ => (namespace_, 0)) (← scanOutbox codec shards))
  | .pendingOutboxRoutes now => return .routes (dueRoutes (← scanOutbox codec shards) now)

/-! ### The store -/

/-- The calls as a service that answers from what is kept; nothing is logged. -/
def service (sharding : Sharding) :
    Service (Database Bytes) (DbCall Bytes) DbCall.Answer Empty where
  serve := Database.serve sharding
  added := fun _ _ => []

/-- Runs a program alone on what is kept. -/
def run {α : Type} (sharding : Sharding) (program : DbM Bytes α) (database : Database Bytes) :
    Except StoreError α × Database Bytes :=
  (service sharding).run program database

/-- Runs an operation alone on what is kept, on a store that owns all shards. -/
def execute (sharding : Sharding) (database : Database Bytes) (operation : OutboxOperation) :
    Except StoreError OutboxAnswer × Database Bytes :=
  run sharding (program codec (List.range sharding.shardCount) operation) database

variable {sharding : Sharding}

/-- The database as a service. -/
def databaseService (db : HaematiteDatabase Bytes sharding) :
    Service db.State (DbCall Bytes) DbCall.Reply Empty where
  serve := db.serve
  added := fun _ _ => []

/-- Runs a program alone on the database. -/
def runOn {α : Type} (db : HaematiteDatabase Bytes sharding) (program : DbM Bytes α)
    (state : db.State) : Except StoreError α × db.State :=
  (databaseService db).run (handled program) state

/-- Runs an operation alone on the database, on a store that owns all shards. -/
def executeOn (db : HaematiteDatabase Bytes sharding) (state : db.State)
    (operation : OutboxOperation) : Except StoreError OutboxAnswer × db.State :=
  runOn db (program codec (List.range sharding.shardCount) operation) state

/-- A database and, beside it, the visibility rows. -/
structure Store (db : HaematiteDatabase Bytes sharding) where
  /-- The database. -/
  database : db.State
  /-- The visibility rows. -/
  visibility : VisibilityTable

variable {db : HaematiteDatabase Bytes sharding}

/-- Runs a program on the store's database. -/
def Store.onDatabase {α : Type} (store : Store db) (program : DbM Bytes α) :
    Except StoreError α × Store db :=
  ((runOn db program store.database).1,
      { store with database := (runOn db program store.database).2 })

/-- The store's answer to a recorder's call and the store after it. -/
def serve (store : Store db) : (call : StoreCall) → call.Answer × Store db
  | .append workflowId events expectedSeq =>
    store.onDatabase (appendBlocking codec workflowId events expectedSeq none)
  | .appendWithOutbox workflowId events expectedSeq outboxRows =>
    store.onDatabase (appendBlocking codec workflowId events expectedSeq (some outboxRows))
  | .readHistory workflowId =>
    store.onDatabase (InMemoryStore.historyInSequenceOrder <$> readFrom workflowId)
  | .recordVisibility record =>
    (.ok (), { store with visibility := store.visibility.recordVisibility record })
  | .settleWorkflowOutboxRowsCancelled workflowId =>
    store.onDatabase (settleWorkflowOutboxRows codec (List.range sharding.shardCount) workflowId)
  | .settleOutboxRowCancelled dispatchKey =>
    store.onDatabase (settleOutboxRowCancelled codec dispatchKey)

/-! ### Programs whose calls are answered -/

section Answered

variable {α : Type} {state state' : db.State}

/-- The database answers every call that the program makes. -/
def Answers (db : HaematiteDatabase Bytes sharding) : DbM Bytes α → db.State → Prop
  | Prog.done _, _ => True
  | Prog.call request next, state =>
    ∃ answer, (db.serve state request).1 = .ok answer ∧
      Answers db (next answer) (db.serve state request).2

/-- A program whose calls are answered runs as it does on what is kept. -/
theorem runOn_of_answers {program : DbM Bytes α} (h : Answers db program state) :
    (runOn db program state).1 = (run sharding program (db.kept state)).1 ∧
      db.kept (runOn db program state).2 = (run sharding program (db.kept state)).2 := by
  induction program generalizing state with
  | done outcome => exact ⟨rfl, rfl⟩
  | call request next ih =>
    obtain ⟨answer, hans, hrest⟩ := h
    have hkept := db.serve_ok hans
    have hon : runOn db (Prog.call request next) state = runOn db (next answer) (db.serve state request).2 := by
      simp only [runOn, handled, Service.run, databaseService, hans, handleReply]
    have hrun : run sharding (Prog.call request next) (db.kept state) =
        run sharding (next answer) (db.kept (db.serve state request).2) := by
      simp only [run, Service.run, service, hkept]
    rw [hon, hrun]
    exact ih answer hrest

/-- The calls of a program that succeeds were answered. -/
theorem answers_of_runOn {program : DbM Bytes α} {value : α}
    (h : runOn db program state = (.ok value, state')) : Answers db program state := by
  induction program generalizing state with
  | done outcome => trivial
  | call request next ih =>
    simp only [runOn, handled, Service.run, databaseService] at h
    cases hreply : (db.serve state request).1 with
    | error error =>
      rw [hreply] at h
      cases (Prod.mk.inj h).1
    | ok answer =>
      rw [hreply] at h
      exact ⟨answer, hreply, ih answer h⟩

/-- A program that succeeds does so on what is kept. -/
theorem run_of_runOn {program : DbM Bytes α} {value : α}
    (h : runOn db program state = (.ok value, state')) :
    run sharding program (db.kept state) = (.ok value, db.kept state') := by
  obtain ⟨hout, hkept⟩ := runOn_of_answers (answers_of_runOn h)
  rw [h] at hout hkept
  exact Prod.ext hout.symm hkept.symm

theorem answers_sound {program : DbM Bytes α} {database : Database Bytes} :
    Answers (.sound Bytes sharding) program database := by
  induction program generalizing database with
  | done outcome => trivial
  | call request next ih => exact ⟨_, rfl, ih _⟩

end Answered

/-! ### Rules for programs run alone -/

section Run

variable {database : Database Bytes} {α β : Type}

@[simp]
theorem run_pure (value : α) : run sharding (pure value) database = (.ok value, database) := rfl

@[simp]
theorem run_lift (result : Except StoreError α) :
    run sharding (lift result) database = (result, database) := rfl

/-- A program goes on with the value of the first part, unless that failed. -/
theorem run_bind (first : DbM Bytes α) (f : α → DbM Bytes β) :
    run sharding (first >>= f) database =
      match run sharding first database with
      | (.ok value, database') => run sharding (f value) database'
      | (.error error, database') => (.error error, database') := by
  refine (Service.run_bind (service sharding) first _ database).trans ?_
  change _ = match (service sharding).run first database with
    | (.ok value, database') => run sharding (f value) database'
    | (.error error, database') => (.error error, database')
  cases (service sharding).run first database with
  | mk outcome database' => cases outcome <;> rfl

variable {database' : Database Bytes} {first : DbM Bytes α} {f : α → DbM Bytes β}

/-- A sequence that succeeds does so in both parts. -/
theorem run_bind_eq_ok {value : β}
    (h : run sharding (first >>= f) database = (.ok value, database')) :
    ∃ mid database'', run sharding first database = (.ok mid, database'') ∧
      run sharding (f mid) database'' = (.ok value, database') := by
  rw [run_bind] at h
  split at h
  · rename_i mid database'' hfst
    exact ⟨mid, database'', hfst, h⟩
  · cases (Prod.mk.inj h).1

theorem run_bind_ok {value : α} (h : run sharding first database = (.ok value, database')) :
    run sharding (first >>= f) database = run sharding (f value) database' := by
  rw [run_bind, h]

/-- The entry with a key on the shard of a workflow. -/
def entryAt (sharding : Sharding) (database : Database Bytes) (workflowId : WorkflowId)
    (key : String) : Option Bytes :=
  ((database.shards (sharding.shardOf workflowId)).lookup key).map Prod.snd

/-- The database after a put. -/
def put (sharding : Sharding) (database : Database Bytes) (workflowId : WorkflowId) (key : String)
    (value : Bytes) : Database Bytes :=
  (database.serve sharding (.putRouted workflowId key value)).2

theorem run_getRouted (workflowId : WorkflowId) (key : String) :
    run sharding (getRouted workflowId key) database =
      (.ok (entryAt sharding database workflowId key), database) := rfl

theorem run_putRouted (workflowId : WorkflowId) (key : String) (value : Bytes) :
    run sharding (putRouted workflowId key value) database =
      (.ok (), put sharding database workflowId key value) :=
  rfl

theorem run_commit : run sharding commit database = (.ok (), database) := rfl

theorem entryAt_put {workflowId : WorkflowId} {key key' : String} {value : Bytes} :
    entryAt sharding (put sharding database workflowId key value) workflowId key' =
      if key = key' then some value else entryAt sharding database workflowId key' := by
  unfold entryAt
  simp only [put, Database.serve, Function.update_self, KeyedTable.lookup_upsert]
  split
  · cases (database.shards (sharding.shardOf workflowId)).lookup key' <;> rfl
  · rfl

end Run

end Haematite

end Aion
