import Aion.Durability.Recorder
import Aion.Library.Rfc3339
import Mathlib.Order.WithBot

/-!
# The outbox contract

What the two durable backends of the outbox have in common (`aion-store/src/outbox.rs`):
the tokens a status is stored as, the scope of a claim, the operations and their answers.
An operation that reads the clock has the reading as an argument.

Payloads, stored rows, UUIDs and instants are read back from text by libraries that are
not part of this repository; `OutboxCodec` has these readers as parameters, and
`OutboxCodec.Lawful` says that each reads back what was written.
-/

namespace Aion

/-! ### Statuses -/

/-- `OutboxStatus::as_str`. -/
def OutboxStatus.asStr : OutboxStatus → String
  | .pending => "pending"
  | .claimed => "claimed"
  | .done => "done"
  | .failed => "failed"
  | .cancelled => "cancelled"

/-- `OutboxStatus::parse_token`. -/
def OutboxStatus.parseToken (value : String) : Except StoreError OutboxStatus :=
  if value = "pending" then .ok .pending
  else if value = "claimed" then .ok .claimed
  else if value = "done" then .ok .done
  else if value = "failed" then .ok .failed
  else if value = "cancelled" then .ok .cancelled
  else .error (.serialization ("unknown outbox status: " ++ value))

@[simp]
theorem OutboxStatus.parseToken_asStr (status : OutboxStatus) :
    parseToken status.asStr = .ok status := by
  cases status <;> rfl

theorem OutboxStatus.asStr_injective : Function.Injective OutboxStatus.asStr := by
  intro a b h
  have htok := congrArg parseToken h
  simpa using htok

@[simp]
theorem OutboxStatus.asStr_inj {a b : OutboxStatus} : a.asStr = b.asStr ↔ a = b :=
  OutboxStatus.asStr_injective.eq_iff

/-- `is_inflight`: dispatched or about to be, and not at an end. -/
def OutboxStatus.isInflight : OutboxStatus → Bool
  | .pending | .claimed => true
  | .done | .failed | .cancelled => false

/-! ### Scopes -/

/-- `DEFAULT_OUTBOX_ROUTE`. -/
def defaultOutboxRoute : String := "default"

/-- The pool a claim is for. -/
structure ClaimScope where
  /-- Namespace the pool serves. -/
  namespace_ : String
  /-- Task queue the pool serves. -/
  taskQueue : String
  /-- The claiming node, for a pool that has one. -/
  node : Option String
  deriving DecidableEq

/-- `ClaimScope::admits`. -/
def ClaimScope.admits (scope : ClaimScope) (row : OutboxRow) : Bool :=
  row.namespace_ == scope.namespace_ && row.taskQueue == scope.taskQueue &&
    match scope.node, row.node with
    | _, none => true
    | some scopeNode, some rowNode => scopeNode == rowNode
    | none, some _ => false

/-! ### Operations -/

/-- The operations on the outbox. -/
inductive OutboxOperation where
  /-- `append_outbox_batch`. -/
  | appendOutboxBatch (rows : List OutboxRow)
  /-- `rearm_outbox_pending`. -/
  | rearmOutboxPending (rows : List OutboxRow)
  /-- `claim_outbox_rows`. -/
  | claimOutboxRows (now : Instant) (limit : ℕ)
  /-- `claim_outbox_rows_excluding`. -/
  | claimOutboxRowsExcluding (now : Instant) (limit : ℕ) (held : List WorkflowId)
  /-- `claim_outbox_rows_scoped`. -/
  | claimOutboxRowsScoped (now : Instant) (scope : ClaimScope) (limit : ℕ)
  /-- `claim_outbox_rows_scoped_excluding`. -/
  | claimOutboxRowsScopedExcluding (now : Instant) (scope : ClaimScope) (limit : ℕ)
    (held : List WorkflowId)
  /-- `complete_outbox_row`. -/
  | completeOutboxRow (dispatchKey : String)
  /-- `retry_outbox_row`. -/
  | retryOutboxRow (dispatchKey : String) (nextAttempt : ℕ) (visibleAfter : Instant)
  /-- `fail_outbox_row`. -/
  | failOutboxRow (dispatchKey : String)
  /-- `settle_outbox_row_cancelled`. -/
  | settleOutboxRowCancelled (dispatchKey : String)
  /-- `settle_workflow_outbox_rows_cancelled`, which `cancel_outbox_rows_for_workflow` is too. -/
  | settleWorkflowOutboxRowsCancelled (workflowId : WorkflowId)
  /-- `list_stale_claimed_outbox_rows`. -/
  | listStaleClaimedOutboxRows (olderThan : Instant) (limit : ℕ)
  /-- `rearm_stale_claimed_outbox_rows`. -/
  | rearmStaleClaimedOutboxRows (olderThan visibleAfter : Instant) (limit : ℕ)
  /-- `list_unsettled_outbox_workflow_ids`. -/
  | listUnsettledOutboxWorkflowIds
  /-- `count_inflight_outbox_rows`. -/
  | countInflightOutboxRows (namespace_ : String)
  /-- `count_claimed_outbox_rows`. -/
  | countClaimedOutboxRows (namespace_ : String)
  /-- `count_claimed_outbox_rows_by_namespace`. -/
  | countClaimedOutboxRowsByNamespace (namespaces : List String)
  /-- `pending_outbox_routes`. -/
  | pendingOutboxRoutes (now : Instant)

/-- What the operations return. -/
inductive OutboxAnswer where
  /-- Nothing. -/
  | done
  /-- Rows, in the promised order. -/
  | rows (rows : List OutboxRow)
  /-- Dispatch keys. -/
  | keys (keys : List String)
  /-- Workflows. -/
  | workflowIds (workflowIds : List WorkflowId)
  /-- A count. -/
  | count (count : ℕ)
  /-- A count for each namespace. -/
  | counts (counts : List (String × ℕ))
  /-- Routes with work, in no promised order. -/
  | routes (routes : List ClaimScope)

/-- The row as a claim leaves it. -/
def OutboxRow.claim (row : OutboxRow) (now : Instant) : OutboxRow :=
  { row with status := .claimed, claimedAt := some now }

/-- The row as a re-arm of a stale claim leaves it. -/
def OutboxRow.rearm (row : OutboxRow) (visibleAfter : Instant) : OutboxRow :=
  { row with status := .pending, visibleAfter, claimedAt := none }

/-! ### Readers of stored text -/

/-- `encode_instant`. -/
def encodeInstant (instant : Instant) : String := Rfc3339.toText instant

/-- On-disk form of an outbox row in the haematite store. -/
structure StoredOutboxRow where
  /-- Idempotency key. -/
  dispatchKey : String
  /-- Workflow that scheduled the activity. -/
  workflowId : WorkflowId
  /-- Ordinal of the activity in the fan-out range. -/
  ordinal : ℕ
  /-- Run that dispatched the ordinal. -/
  runId : Option RunId
  /-- Isolation namespace of the workflow. -/
  namespace_ : String
  /-- Pool selector. -/
  taskQueue : String
  /-- Optional node affinity. -/
  node : Option String
  /-- Activity type the worker must execute. -/
  activityType : String
  /-- Activity input. -/
  input : Payload
  /-- Token of the lifecycle state. -/
  status : String
  /-- Dispatch attempts so far. -/
  attempt : ℕ
  /-- Text of the instant from which the row is claimable. -/
  visibleAfter : String
  /-- Text of the instant at which the row was claimed. -/
  claimedAt : Option String
  deriving DecidableEq

/-- The text formats of `serde_json`, `uuid` and `chrono`; a failed reading has the
library's error text. -/
structure OutboxCodec (Bytes : Type) where
  /-- `serde_json::to_vec` of a payload. -/
  payloadToVec : Payload → Bytes
  /-- `serde_json::from_slice` of a payload. -/
  payloadFromSlice : Bytes → Except String Payload
  /-- `serde_json::to_vec` of a stored row. -/
  rowToVec : StoredOutboxRow → Bytes
  /-- `serde_json::from_slice` of a stored row. -/
  rowFromSlice : Bytes → Except String StoredOutboxRow
  /-- `Uuid::parse_str`. -/
  parseStr : String → Except String Uuid
  /-- `DateTime::parse_from_rfc3339`, taken to UTC. -/
  parseFromRfc3339 : String → Except String Instant
  /-- The error of a NULL read as text. -/
  nullValue : String

/-- Every reader reads back what was written; an instant in the years 0 to 9999. -/
structure OutboxCodec.Lawful {Bytes : Type} (codec : OutboxCodec Bytes) : Prop where
  /-- A payload survives JSON. -/
  payload : ∀ payload, codec.payloadFromSlice (codec.payloadToVec payload) = .ok payload
  /-- A stored row survives JSON. -/
  row : ∀ row, codec.rowFromSlice (codec.rowToVec row) = .ok row
  /-- A UUID survives its text. -/
  uuid : ∀ uuid : Uuid, codec.parseStr uuid.display = .ok uuid
  /-- An instant with a year of four digits survives its text. -/
  instant : ∀ instant, Rfc3339.FourDigitYear instant →
    codec.parseFromRfc3339 (encodeInstant instant) = .ok instant

theorem OutboxCodec.Lawful.display_inj {Bytes : Type} {codec : OutboxCodec Bytes}
    (lawful : codec.Lawful) {a b : WorkflowId} : a.display = b.display ↔ a = b := by
  refine ⟨fun h => ?_, fun h => by rw [h]⟩
  have huuid := lawful.uuid a.asUuid
  rw [show a.asUuid.display = b.asUuid.display from h, lawful.uuid b.asUuid] at huuid
  cases a
  cases b
  cases huuid
  rfl

/-- A codec for runs on fixed inputs: values stand for their JSON, and the readers know the
texts of the given UUIDs and instants. -/
def OutboxCodec.known (uuids : List Uuid) (instants : List Instant) :
    OutboxCodec (Payload ⊕ StoredOutboxRow) where
  payloadToVec := .inl
  payloadFromSlice := fun bytes => bytes.elim .ok fun _ => .error "invalid payload"
  rowToVec := .inr
  rowFromSlice := fun bytes => bytes.elim (fun _ => .error "invalid row") .ok
  parseStr := fun text => (uuids.find? fun uuid => uuid.display = text).elim
    (.error "invalid UUID") .ok
  parseFromRfc3339 := fun text =>
    (instants.find? fun instant => encodeInstant instant = text).elim (.error "invalid instant") .ok
  nullValue := "null value"

section Readers

variable {Bytes : Type} (codec : OutboxCodec Bytes)

/-- `decode_instant`. -/
def decodeInstant (value : String) : Except StoreError Instant :=
  (codec.parseFromRfc3339 value).mapError .serialization

/-- The order of an `Option`: an absent value comes first. -/
def optional {α : Type} (value : Option α) : WithBot α := value

/-- `transpose` of an optional reading. -/
def transposeOption {ε α β : Type} (f : α → Except ε β) : Option α → Except ε (Option β)
  | none => .ok none
  | some value => (f value).map some

end Readers

end Aion
