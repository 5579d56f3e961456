import Mathlib.Data.List.AList
import Mathlib.Data.List.Sort

/-!
# Workflow history events

The data model of `aion-core`: identifiers (`ids.rs`), payloads (`payload.rs`),
the two error types (`error.rs`), search attributes (`search.rs`), schedule
configurations (`schedule.rs`) and the events of a workflow history with their
recording envelope (`event.rs`).

Every variant of the source's `Event` begins with its `EventEnvelope`; here the
envelope is a field of the structure `Event` and the variants are the
constructors of `EventBody`. The `u64` numbers (sequence numbers, activity and
timer ordinals) and the `u32` attempts are natural numbers; the places where a
`u64` can overflow check `u64Max` themselves. An instant (`DateTime<Utc>`) is an
integer number of nanoseconds. A 64-bit float is kept as its bits, with the
comparison IEEE 754 gives it.
-/

namespace Aion

/-! ### Identifiers -/

/-- The largest `u64`. -/
def u64Max : ℕ := UInt64.size - 1

/-- `u64::checked_add`. -/
def checkedAdd (a b : ℕ) : Option ℕ := if a + b ≤ u64Max then some (a + b) else none

theorem checkedAdd_eq_some {a b c : ℕ} : checkedAdd a b = some c ↔ a + b ≤ u64Max ∧ c = a + b := by
  unfold checkedAdd
  split_ifs with h
  · simp only [Option.some.injEq, h, true_and, eq_comm]
  · simp [h]

/-- A UUID. -/
abbrev Uuid := BitVec 128

/-- An instant in UTC, in nanoseconds. -/
abbrev Instant := ℤ

/-- The hyphenated lowercase text of a UUID: 8, 4, 4, 4 and 12 hexadecimal digits. -/
def Uuid.display (u : Uuid) : String :=
  let digits := Nat.toDigits 16 u.toNat
  let padded := List.replicate (32 - digits.length) '0' ++ digits
  let part (start count : ℕ) : String := String.ofList ((padded.drop start).take count)
  String.intercalate "-" [part 0 8, part 8 4, part 12 4, part 16 4, part 20 12]

/-- Identifier of a logical workflow. -/
structure WorkflowId where
  /-- The UUID backing this identifier. -/
  asUuid : Uuid
  deriving DecidableEq

/-- Identifier of a concrete run of a logical workflow. -/
structure RunId where
  /-- The UUID backing this identifier. -/
  asUuid : Uuid
  deriving DecidableEq

/-- Identifier of a persisted schedule. -/
structure ScheduleId where
  /-- The UUID backing this identifier. -/
  asUuid : Uuid
  deriving DecidableEq

/-- The text of a workflow identifier. -/
def WorkflowId.display (id : WorkflowId) : String := id.asUuid.display

/-- The text of a run identifier. -/
def RunId.display (id : RunId) : String := id.asUuid.display

/-- The canonical textual content hash of a loaded package version. -/
structure PackageVersion where
  /-- The text. -/
  asStr : String
  deriving DecidableEq

/-- Identifier of an activity, derived from its scheduling sequence position. -/
structure ActivityId where
  /-- `ActivityId::from_sequence_position`. -/
  fromSequencePosition ::
  /-- The scheduling ordinal. -/
  sequencePosition : ℕ
  deriving DecidableEq

/-- Identifier of a timer. -/
inductive TimerId where
  /-- Author-assigned timer name. -/
  | named (name : String)
  /-- Engine-assigned timer sequence position. -/
  | anonymous (sequencePosition : ℕ)
  deriving DecidableEq

/-! ### Payloads and errors -/

/-- The encoding of a payload's bytes. -/
inductive ContentType where
  /-- UTF-8 JSON bytes. -/
  | json
  deriving DecidableEq

/-- Opaque user data with a content type tag. -/
structure Payload where
  /-- The tag. -/
  contentType : ContentType
  /-- The serialized bytes. -/
  bytes : List UInt8
  deriving DecidableEq

/-- The payload without bytes. -/
def Payload.empty : Payload := ⟨.json, []⟩

/-- Classification of an activity failure. -/
inductive ActivityErrorKind where
  /-- May be retried. -/
  | retryable
  /-- Must not be retried. -/
  | terminal
  deriving DecidableEq

/-- Failure reported by an activity execution. -/
structure ActivityError where
  /-- Retryability classification. -/
  kind : ActivityErrorKind
  /-- Human-readable message. -/
  message : String
  /-- Optional structured details. -/
  details : Option Payload
  deriving DecidableEq

/-- `ActivityError::is_retryable`. -/
def ActivityError.isRetryable (error : ActivityError) : Bool :=
  match error.kind with
  | .retryable => true
  | .terminal => false

/-- Terminal failure reported by a workflow execution. -/
structure WorkflowError where
  /-- Human-readable message. -/
  message : String
  /-- Optional structured details. -/
  details : Option Payload
  deriving DecidableEq

/-! ### Search attributes -/

/-- An `f64`, by its bits. -/
structure F64 where
  /-- The IEEE 754 binary64 bits. -/
  bits : BitVec 64
  deriving DecidableEq

/-- Exponent all ones and a nonzero fraction. -/
def F64.isNaN (x : F64) : Bool :=
  x.bits.extractLsb' 52 11 == 0x7FF#11 && x.bits.extractLsb' 0 52 != 0#52

/-- Positive or negative zero. -/
def F64.isZero (x : F64) : Bool := x.bits.extractLsb' 0 63 == 0#63

/-- `f64`'s `==`: a NaN equals nothing, the two zeros are equal. -/
def F64.eq (x y : F64) : Bool :=
  !x.isNaN && !y.isNaN && (x.bits == y.bits || (x.isZero && y.isZero))

/-- The types a search attribute can have. -/
inductive SearchAttributeType where
  | string | int | float | bool | datetime | keywordList
  deriving DecidableEq

/-- A typed search attribute value. -/
inductive SearchAttributeValue where
  /-- UTF-8 string value. -/
  | string (value : String)
  /-- Signed 64-bit integer value. -/
  | int (value : ℤ)
  /-- Double-precision floating point value. -/
  | float (value : F64)
  /-- Boolean value. -/
  | bool (value : Bool)
  /-- UTC timestamp value. -/
  | datetime (value : Instant)
  /-- List of keyword strings. -/
  | keywordList (value : List String)
  deriving DecidableEq

/-- `SearchAttributeValue::attribute_type`. -/
def SearchAttributeValue.attributeType : SearchAttributeValue → SearchAttributeType
  | .string _ => .string
  | .int _ => .int
  | .float _ => .float
  | .bool _ => .bool
  | .datetime _ => .datetime
  | .keywordList _ => .keywordList

/-- The derived `==` of a search attribute value. -/
def SearchAttributeValue.eq : SearchAttributeValue → SearchAttributeValue → Bool
  | .string a, .string b => a == b
  | .int a, .int b => a == b
  | .float a, .float b => a.eq b
  | .bool a, .bool b => a == b
  | .datetime a, .datetime b => a == b
  | .keywordList a, .keywordList b => a == b
  | _, _ => false

/-- `HashMap<String, SearchAttributeValue>`. -/
abbrev SearchAttributes := AList (fun _ : String => SearchAttributeValue)

/-- `==` of two attribute maps: the same number of entries, and every entry of the
first found equal in the second. -/
def searchAttributesEq (m n : SearchAttributes) : Bool :=
  m.entries.length == n.entries.length &&
    m.entries.all fun entry => (n.lookup entry.1).any fun value => entry.2.eq value

/-- A search attribute that does not satisfy the registered schema. -/
inductive SearchAttributeError where
  /-- No type is registered for the name. -/
  | unregisteredAttribute (name : String)
  /-- The value's variant differs from the declared type. -/
  | typeMismatch (name : String) (expected actual : SearchAttributeType)
  deriving DecidableEq

/-- Registry of search attribute names to their declared types. -/
structure SearchAttributeSchema where
  /-- The registered names. -/
  attributes : AList (fun _ : String => SearchAttributeType)

/-- `SearchAttributeSchema::validate`. -/
def SearchAttributeSchema.validate (schema : SearchAttributeSchema) (name : String)
    (value : SearchAttributeValue) : Except SearchAttributeError Unit :=
  match schema.attributes.lookup name with
  | none => .error (.unregisteredAttribute name)
  | some expected =>
    if expected = value.attributeType then .ok ()
    else .error (.typeMismatch name expected value.attributeType)

/-! ### Schedules -/

/-- Trigger of a persisted schedule. -/
inductive TriggerSpec where
  /-- Fire according to a cron expression. -/
  | cron (expression : String)
  /-- Fire at a fixed interval, in nanoseconds. -/
  | interval (period : ℕ)
  deriving DecidableEq

/-- What a tick does while an earlier run is still active. -/
inductive OverlapPolicy where
  | skip | bufferOne | cancelPrevious | allowAll
  deriving DecidableEq

/-- What becomes of ticks missed while the scheduler was unavailable. -/
inductive CatchUpPolicy where
  | all | one | skip
  deriving DecidableEq

/-- Persisted configuration of a schedule. -/
structure ScheduleConfig where
  /-- Trigger used to compute eligible fire times. -/
  trigger : TriggerSpec
  /-- Policy for overlapping firings. -/
  overlapPolicy : OverlapPolicy
  /-- Policy for missed firings. -/
  catchUpPolicy : CatchUpPolicy
  /-- Workflow type started when the schedule fires. -/
  workflowType : String
  /-- Workflow input supplied to triggered executions. -/
  input : Payload
  /-- Search attributes recorded on every triggered execution. -/
  searchAttributes : SearchAttributes
  deriving DecidableEq

/-! ### Events -/

/-- Metadata recorded with every event. -/
structure EventEnvelope where
  /-- Sequence number within the owning workflow history. -/
  seq : ℕ
  /-- Recorded timestamp. -/
  recordedAt : Instant
  /-- Workflow history that owns this event. -/
  workflowId : WorkflowId
  deriving DecidableEq

/-- Terminal outcome of a `with_timeout` operation. -/
inductive WithTimeoutOutcome where
  /-- The operation returned before the deadline. -/
  | operationCompleted
  /-- The deadline fired first. -/
  | timedOut
  deriving DecidableEq

/-- Who retired a durable timer. -/
inductive TimerCancelCause where
  /-- Workflow code retired the timer. -/
  | workflowIntent
  /-- The engine retired the timer while cancelling its run. -/
  | cancelTeardown
  deriving DecidableEq

/-- The variants of a recorded history event, without the envelope. -/
inductive EventBody where
  /-- A workflow execution started. -/
  | workflowStarted (workflowType : String) (input : Payload) (runId : RunId)
    (parentRunId : Option RunId) (packageVersion : PackageVersion)
  /-- A workflow execution completed successfully. -/
  | workflowCompleted (result : Payload)
  /-- A workflow execution failed terminally. -/
  | workflowFailed (error : WorkflowError)
  /-- A workflow execution was cancelled. -/
  | workflowCancelled (reason : String)
  /-- A workflow execution timed out. -/
  | workflowTimedOut (timeout : String)
  /-- A workflow execution continued as a new run. -/
  | workflowContinuedAsNew (input : Payload) (workflowType : Option String) (parentRunId : RunId)
  /-- A failed or cancelled run was reopened; `reopened` names the activities to re-dispatch. -/
  | workflowReopened (runId : RunId) (reopened : List ActivityId)
  /-- A running workflow was paused by an operator. -/
  | workflowPaused (runId : RunId) (reason : Option String) (operator : Option String)
  /-- A paused workflow was resumed by an operator. -/
  | workflowResumed (runId : RunId) (operator : Option String)
  /-- Search attributes were updated. -/
  | searchAttributesUpdated (workflowId : WorkflowId) (attributes : SearchAttributes)
  /-- An activity was scheduled by workflow code. -/
  | activityScheduled (activityId : ActivityId) (activityType : String) (input : Payload)
    (taskQueue : String) (node : Option String)
  /-- A worker started executing an activity attempt. -/
  | activityStarted (activityId : ActivityId) (attempt : ℕ)
  /-- An activity completed successfully. -/
  | activityCompleted (activityId : ActivityId) (result : Payload) (attempt : ℕ)
  /-- An activity attempt failed. -/
  | activityFailed (activityId : ActivityId) (error : ActivityError) (attempt : ℕ)
  /-- An activity was cancelled. -/
  | activityCancelled (activityId : ActivityId) (attempt : ℕ)
  /-- A timer was scheduled. -/
  | timerStarted (timerId : TimerId) (fireAt : Instant)
  /-- A timer fired. -/
  | timerFired (timerId : TimerId)
  /-- A timer was cancelled. -/
  | timerCancelled (timerId : TimerId) (cause : TimerCancelCause)
  /-- A `with_timeout` operation reached a terminal outcome. -/
  | withTimeoutCompleted (timerId : TimerId) (outcome : WithTimeoutOutcome)
    (result : Option Payload)
  /-- A signal was delivered to the workflow. -/
  | signalReceived (name : String) (payload : Payload)
  /-- A signal was sent by this workflow. -/
  | signalSent (targetWorkflowId : WorkflowId) (name : String) (payload : Payload)
  /-- A child workflow was started. -/
  | childWorkflowStarted (childWorkflowId : WorkflowId) (workflowType : String) (input : Payload)
    (packageVersion : PackageVersion)
  /-- A child workflow completed successfully. -/
  | childWorkflowCompleted (childWorkflowId : WorkflowId) (result : Payload)
  /-- A child workflow failed terminally. -/
  | childWorkflowFailed (childWorkflowId : WorkflowId) (error : WorkflowError)
  /-- A child workflow was cancelled. -/
  | childWorkflowCancelled (childWorkflowId : WorkflowId)
  /-- A schedule was created. -/
  | scheduleCreated (scheduleId : ScheduleId) (config : ScheduleConfig)
  /-- A schedule was updated. -/
  | scheduleUpdated (scheduleId : ScheduleId) (config : ScheduleConfig)
  /-- A schedule was paused. -/
  | schedulePaused (scheduleId : ScheduleId)
  /-- A paused schedule was resumed. -/
  | scheduleResumed (scheduleId : ScheduleId)
  /-- A schedule was deleted. -/
  | scheduleDeleted (scheduleId : ScheduleId)
  /-- A schedule tick started a workflow execution. -/
  | scheduleTriggered (scheduleId : ScheduleId) (workflowId : WorkflowId) (runId : RunId)
  deriving DecidableEq

/-- A recorded workflow history event. -/
structure Event where
  /-- Recording metadata. -/
  envelope : EventEnvelope
  /-- The variant and its fields. -/
  body : EventBody
  deriving DecidableEq

/-- `Event::seq`. -/
def Event.seq (event : Event) : ℕ := event.envelope.seq

/-- `Event::recorded_at`. -/
def Event.recordedAt (event : Event) : Instant := event.envelope.recordedAt

/-- `Event::workflow_id`. -/
def Event.workflowId (event : Event) : WorkflowId := event.envelope.workflowId

/-- The variant's name, as diagnostics print it (`event_kind`). -/
def EventBody.kind : EventBody → String
  | .workflowStarted .. => "WorkflowStarted"
  | .workflowCompleted .. => "WorkflowCompleted"
  | .workflowFailed .. => "WorkflowFailed"
  | .workflowCancelled .. => "WorkflowCancelled"
  | .workflowTimedOut .. => "WorkflowTimedOut"
  | .workflowContinuedAsNew .. => "WorkflowContinuedAsNew"
  | .workflowReopened .. => "WorkflowReopened"
  | .workflowPaused .. => "WorkflowPaused"
  | .workflowResumed .. => "WorkflowResumed"
  | .searchAttributesUpdated .. => "SearchAttributesUpdated"
  | .activityScheduled .. => "ActivityScheduled"
  | .activityStarted .. => "ActivityStarted"
  | .activityCompleted .. => "ActivityCompleted"
  | .activityFailed .. => "ActivityFailed"
  | .activityCancelled .. => "ActivityCancelled"
  | .timerStarted .. => "TimerStarted"
  | .timerFired .. => "TimerFired"
  | .timerCancelled .. => "TimerCancelled"
  | .withTimeoutCompleted .. => "WithTimeoutCompleted"
  | .signalReceived .. => "SignalReceived"
  | .signalSent .. => "SignalSent"
  | .childWorkflowStarted .. => "ChildWorkflowStarted"
  | .childWorkflowCompleted .. => "ChildWorkflowCompleted"
  | .childWorkflowFailed .. => "ChildWorkflowFailed"
  | .childWorkflowCancelled .. => "ChildWorkflowCancelled"
  | .scheduleCreated .. => "ScheduleCreated"
  | .scheduleUpdated .. => "ScheduleUpdated"
  | .schedulePaused .. => "SchedulePaused"
  | .scheduleResumed .. => "ScheduleResumed"
  | .scheduleDeleted .. => "ScheduleDeleted"
  | .scheduleTriggered .. => "ScheduleTriggered"

/-- A history with these variants, numbered from 1. -/
def numbered (bodies : List EventBody) : List Event :=
  bodies.mapIdx fun index body => ⟨⟨index + 1, 0, ⟨0⟩⟩, body⟩

/-- A history whose sequence numbers do not decrease. -/
def Ordered (events : List Event) : Prop := events.Pairwise fun a b => a.seq ≤ b.seq

instance (events : List Event) : Decidable (Ordered events) := by
  unfold Ordered; infer_instance

/-- `search_attributes_from_events`: later updates of a name replace earlier ones. -/
def searchAttributesFromEvents (events : List Event) : SearchAttributes :=
  events.foldl (fun attributes event =>
    match event.body with
    | .searchAttributesUpdated _ updates =>
      updates.entries.foldl (fun acc entry => acc.insert entry.1 entry.2) attributes
    | _ => attributes) ∅

end Aion
