import Aion.Durability.FanOut
import Aion.Library.Interleaving
import Aion.Store.Memory

/-!
# The recorder

A `Recorder` (`durability/recorder.rs`, `recorder/fan_out.rs`) appends to one workflow's
history. It tracks the head of the history itself and never reads it back: every append
names the tracked head, and the head advances once the store has accepted (`seq.rs`).

An operation is a program that calls the store (`RecorderM`), so that the calls of
several recorders can fall in any order. It ends with a result and with the recorder as
it is then: an error does not undo what the operation did to the recorder before it.
-/

namespace Aion

open Interleaving

/-! ### The store's calls -/

/-- Lifecycle of an outbox row. -/
inductive OutboxStatus where
  | pending | claimed | done | failed | cancelled
  deriving DecidableEq

/-- A fan-out dispatch staged for the dispatcher. -/
structure OutboxRow where
  /-- Idempotency key. -/
  dispatchKey : String
  /-- Workflow that scheduled the activity. -/
  workflowId : WorkflowId
  /-- Ordinal of the activity in the fan-out range. -/
  ordinal : ℕ
  /-- Run that dispatched the ordinal. -/
  runId : Option RunId
  /-- Isolation namespace of the workflow. -/
  namespace_ : String
  /-- Pool selector. -/
  taskQueue : String
  /-- Optional node affinity. -/
  node : Option String
  /-- Activity type the worker must execute. -/
  activityType : String
  /-- Activity input. -/
  input : Payload
  /-- Lifecycle state. -/
  status : OutboxStatus
  /-- Dispatch attempts so far. -/
  attempt : ℕ
  /-- When the row becomes claimable. -/
  visibleAfter : Instant
  /-- When the row was claimed. -/
  claimedAt : Option Instant
  deriving DecidableEq

/-- `dispatch_key_for`. -/
def OutboxRow.dispatchKeyFor (workflowId : WorkflowId) (ordinal : ℕ) : String :=
  workflowId.display ++ ":" ++ toString ordinal

/-- `OutboxRow::pending`. -/
def OutboxRow.pending (workflowId : WorkflowId) (ordinal : ℕ) (activityType : String)
    (input : Payload) (now : Instant) : OutboxRow where
  dispatchKey := dispatchKeyFor workflowId ordinal
  workflowId := workflowId
  ordinal := ordinal
  runId := none
  namespace_ := "default"
  taskQueue := "default"
  node := none
  activityType := activityType
  input := input
  status := .pending
  attempt := 0
  visibleAfter := now
  claimedAt := none

/-- The calls a recorder makes to the event store and to the visibility store. -/
inductive StoreCall where
  /-- `append`. -/
  | append (workflowId : WorkflowId) (events : List Event) (expectedSeq : ℕ)
  /-- `append_with_outbox`. -/
  | appendWithOutbox (workflowId : WorkflowId) (events : List Event) (expectedSeq : ℕ)
    (outboxRows : List OutboxRow)
  /-- `read_history`. -/
  | readHistory (workflowId : WorkflowId)
  /-- `record_visibility`. -/
  | recordVisibility (record : VisibilityRecord)
  /-- `settle_workflow_outbox_rows_cancelled`. -/
  | settleWorkflowOutboxRowsCancelled (workflowId : WorkflowId)
  /-- `settle_outbox_row_cancelled`. -/
  | settleOutboxRowCancelled (dispatchKey : String)

/-- What each call returns. -/
def StoreCall.Answer : StoreCall → Type
  | .append .. => Except StoreError Unit
  | .appendWithOutbox .. => Except StoreError Unit
  | .readHistory _ => Except StoreError (List Event)
  | .recordVisibility _ => Except StoreError Unit
  | .settleWorkflowOutboxRowsCancelled _ => Except StoreError (List String)
  | .settleOutboxRowCancelled _ => Except StoreError Unit

/-- An append's answer and the store after it. -/
def InMemoryStore.appendAnswer (store : InMemoryStore) (workflowId : WorkflowId)
    (events : List Event) (expectedSeq : ℕ) : Except StoreError Unit × InMemoryStore :=
  match store.append workflowId events expectedSeq with
  | .ok store' => (.ok (), store')
  | .error error => (.error error, store)

/-- The in-memory store's answer to a call and the store after it. It has no outbox: an
append with outbox rows is refused, and there is nothing to settle. -/
def InMemoryStore.serve (store : InMemoryStore) : (call : StoreCall) → call.Answer × InMemoryStore
  | .append workflowId events expectedSeq => store.appendAnswer workflowId events expectedSeq
  | .appendWithOutbox workflowId events expectedSeq outboxRows =>
    if outboxRows = [] then store.appendAnswer workflowId events expectedSeq
    else (.error (.backend ("this event store does not support durable-outbox appends; " ++
      "refusing to drop outbox rows (override WritableEventStore::append_with_outbox)")), store)
  | .readHistory workflowId => (.ok (store.readHistory workflowId), store)
  | .recordVisibility record => (.ok (), store.recordVisibility record)
  | .settleWorkflowOutboxRowsCancelled _ => (.ok [], store)
  | .settleOutboxRowCancelled _ => (.ok (), store)

/-! ### The recorder's state -/

/-- The tracked head of a history. -/
structure SequenceHead where
  /-- Sequence number of the last event. -/
  head : ℕ
  deriving DecidableEq

/-- `SequenceHead::current`. -/
def SequenceHead.current (sequence : SequenceHead) : ℕ := sequence.head

/-- `SequenceHead::next_seq`. -/
def SequenceHead.nextSeq (sequence : SequenceHead) : Option ℕ := checkedAdd sequence.head 1

/-- The error of a sequence number that would not fit. -/
def overflowError (head count : ℕ) : DurabilityError :=
  .historyShape ("sequence head overflow advancing " ++ toString head ++ " by " ++ toString count)

/-- `SequenceHead::mark_append_success`. -/
def SequenceHead.markAppendSuccess (sequence : SequenceHead) (eventCount : ℕ) :
    Except DurabilityError SequenceHead :=
  match checkedAdd sequence.head eventCount with
  | some head => .ok ⟨head⟩
  | none => .error (overflowError sequence.head eventCount)

/-- A recorder: the workflow it appends to, the tracked head, the run whose visibility
row it keeps and the run it records for. -/
structure Recorder where
  /-- The workflow. -/
  workflowId : WorkflowId
  /-- The tracked head. -/
  sequence : SequenceHead
  /-- The run whose visibility row is kept, if any is. -/
  visibility : Option RunId
  /-- The run recorded for, when known. -/
  runId : Option RunId
  deriving DecidableEq

/-- `Recorder::resume_at`. -/
def Recorder.resumeAt (workflowId : WorkflowId) (head : ℕ) : Recorder :=
  ⟨workflowId, ⟨head⟩, none, none⟩

/-- `Recorder::new`. -/
def Recorder.new (workflowId : WorkflowId) : Recorder := resumeAt workflowId 0

/-- `next_envelope`. -/
def Recorder.nextEnvelope (recorder : Recorder) (recordedAt : Instant) :
    Except DurabilityError EventEnvelope :=
  match recorder.sequence.nextSeq with
  | some seq => .ok ⟨seq, recordedAt, recorder.workflowId⟩
  | none => .error (overflowError recorder.sequence.current 1)

/-- `envelope_after`. -/
def Recorder.envelopeAfter (recorder : Recorder) (previous : EventEnvelope) (recordedAt : Instant) :
    Except DurabilityError EventEnvelope :=
  match checkedAdd previous.seq 1 with
  | some seq => .ok ⟨seq, recordedAt, recorder.workflowId⟩
  | none => .error (overflowError previous.seq 1)

/-! ### Operations as programs -/

/-- A recorder operation: a program that calls the store and leaves a result and the
recorder. -/
def RecorderM (α : Type) : Type :=
  Recorder → Prog StoreCall StoreCall.Answer (Except DurabilityError α × Recorder)

namespace RecorderM

instance : Monad RecorderM where
  pure value := fun recorder => .done (.ok value, recorder)
  bind first f := fun recorder => (first recorder).bind fun outcome =>
    match outcome with
    | (.ok value, recorder') => f value recorder'
    | (.error error, recorder') => .done (.error error, recorder')

/-- The recorder as it is. -/
def get : RecorderM Recorder := fun recorder => .done (.ok recorder, recorder)

/-- Changes the recorder. -/
def modify (f : Recorder → Recorder) : RecorderM Unit := fun recorder => .done (.ok (), f recorder)

/-- A store call. -/
def call (request : StoreCall) : RecorderM request.Answer :=
  fun recorder => .call request fun answer => .done (.ok answer, recorder)

/-- The `?` of a result. -/
def lift {α : Type} (result : Except DurabilityError α) : RecorderM α :=
  fun recorder => .done (result, recorder)

/-- The `?` of a store call's answer. -/
def liftStore {α : Type} (answer : Except StoreError α) : RecorderM α :=
  lift (answer.mapError .store)

/-- Goes on whatever the result. -/
def nonfatal (operation : RecorderM Unit) : RecorderM Unit :=
  fun recorder => (operation recorder).bind fun outcome => .done (.ok (), outcome.2)

end RecorderM

open RecorderM

/-- `SequenceHead::mark_append_success` on the recorder's head. -/
def markAppendSuccess (eventCount : ℕ) : RecorderM Unit := do
  let recorder ← get
  let sequence ← lift (recorder.sequence.markAppendSuccess eventCount)
  modify fun recorder => { recorder with sequence }

/-- `append_one`. -/
def appendOne (event : Event) : RecorderM Unit := do
  let recorder ← get
  let answer ← call (.append recorder.workflowId [event] recorder.sequence.current)
  liftStore answer
  markAppendSuccess 1

variable (recordedAt : Instant)

/-- `append_with`: the event's variant is given, its envelope is the next one. -/
def appendWith (body : EventBody) : RecorderM Unit := do
  let recorder ← get
  let envelope ← lift (recorder.nextEnvelope recordedAt)
  appendOne ⟨envelope, body⟩

/-- `settle_terminal_outbox_rows_nonfatal`. -/
def settleTerminalOutboxRowsNonfatal : RecorderM Unit := do
  let recorder ← get
  let _ ← call (.settleWorkflowOutboxRowsCancelled recorder.workflowId)
  return ()

/-- `upsert_visibility_projection`. -/
def upsertVisibilityProjection : RecorderM Unit := do
  let recorder ← get
  match recorder.visibility with
  | none => return ()
  | some runId =>
    let answer ← call (.readHistory recorder.workflowId)
    let history ← liftStore answer
    let record ← lift (projectVisibility
      (.historyShape "workflow history has no WorkflowStarted event for visibility projection") history runId)
    let answer ← call (.recordVisibility record)
    liftStore answer

/-- `upsert_visibility_projection_nonfatal`. -/
def upsertVisibilityProjectionNonfatal : RecorderM Unit := nonfatal upsertVisibilityProjection

/-! ### Recording -/

/-- Identity fields of a start. -/
structure WorkflowStartRecord where
  /-- Workflow type. -/
  workflowType : String
  /-- Workflow input. -/
  input : Payload
  /-- The run that starts. -/
  runId : RunId
  /-- The run it continues, if it does. -/
  parentRunId : Option RunId
  /-- Package version of the run. -/
  packageVersion : PackageVersion

/-- The start event. -/
def WorkflowStartRecord.body (start : WorkflowStartRecord) : EventBody :=
  .workflowStarted start.workflowType start.input start.runId start.parentRunId start.packageVersion

/-- Every attribute against the schema; the first that fails is the error. -/
def validateAttributes (schema : SearchAttributeSchema) (attributes : SearchAttributes) :
    Except DurabilityError Unit :=
  attributes.entries.forM fun entry => (schema.validate entry.1 entry.2).mapError .searchAttribute

/-- `record_workflow_started`. -/
def recordWorkflowStarted (start : WorkflowStartRecord) : RecorderM Unit :=
  do
  appendWith recordedAt start.body
  modify fun recorder => { recorder with runId := some start.runId }

/-- `record_workflow_started_with_attributes`: start and attributes in one batch. -/
def recordWorkflowStartedWithAttributes (start : WorkflowStartRecord)
    (attributes : SearchAttributes) (schema : SearchAttributeSchema) : RecorderM Unit :=
  if attributes.entries = [] then recordWorkflowStarted recordedAt start
  else do
    lift (validateAttributes schema attributes)
    let recorder ← get
    let startedEnvelope ← lift (recorder.nextEnvelope recordedAt)
    let attributesEnvelope ← lift (recorder.envelopeAfter startedEnvelope recordedAt)
    let batch := [⟨startedEnvelope, start.body⟩,
      ⟨attributesEnvelope, .searchAttributesUpdated recorder.workflowId attributes⟩]
    let answer ← call (.append recorder.workflowId batch recorder.sequence.current)
    liftStore answer
    markAppendSuccess batch.length
    modify fun recorder => { recorder with runId := some start.runId }

/-- `record_schedule_created`. -/
def recordScheduleCreated (scheduleId : ScheduleId)
    (config : ScheduleConfig) : RecorderM Unit :=
  appendWith recordedAt (.scheduleCreated scheduleId config)

/-- `record_schedule_updated`. -/
def recordScheduleUpdated (scheduleId : ScheduleId)
    (config : ScheduleConfig) : RecorderM Unit :=
  appendWith recordedAt (.scheduleUpdated scheduleId config)

/-- `record_schedule_paused`. -/
def recordSchedulePaused (scheduleId : ScheduleId) : RecorderM Unit :=
  appendWith recordedAt (.schedulePaused scheduleId)

/-- `record_schedule_resumed`. -/
def recordScheduleResumed (scheduleId : ScheduleId) : RecorderM Unit :=
  appendWith recordedAt (.scheduleResumed scheduleId)

/-- `record_schedule_deleted`. -/
def recordScheduleDeleted (scheduleId : ScheduleId) : RecorderM Unit :=
  appendWith recordedAt (.scheduleDeleted scheduleId)

/-- `record_schedule_triggered`. -/
def recordScheduleTriggered (scheduleId : ScheduleId)
    (workflowId : WorkflowId) (runId : RunId) : RecorderM Unit :=
  appendWith recordedAt (.scheduleTriggered scheduleId workflowId runId)

/-- A terminal event, and then the settlement of the workflow's outbox rows. -/
def appendThenSettle (body : EventBody) : RecorderM Unit := do
  appendWith recordedAt body
  settleTerminalOutboxRowsNonfatal

/-- `record_workflow_completed`. -/
def recordWorkflowCompleted (result : Payload) : RecorderM Unit :=
  appendThenSettle recordedAt (.workflowCompleted result)

/-- `record_workflow_failed`. -/
def recordWorkflowFailed (error : WorkflowError) : RecorderM Unit :=
  appendThenSettle recordedAt (.workflowFailed error)

/-- `record_workflow_cancelled`. -/
def recordWorkflowCancelled (reason : String) : RecorderM Unit :=
  appendThenSettle recordedAt (.workflowCancelled reason)

/-- `record_workflow_timed_out`. -/
def recordWorkflowTimedOut (timeout : String) : RecorderM Unit :=
  appendThenSettle recordedAt (.workflowTimedOut timeout)

/-- An event that changes the workflow's visibility row, and then the row. -/
def appendThenUpsert (body : EventBody) : RecorderM Unit := do
  appendWith recordedAt body
  upsertVisibilityProjectionNonfatal

/-- `record_workflow_continued_as_new`. -/
def recordWorkflowContinuedAsNew (input : Payload)
    (workflowType : Option String) (parentRunId : RunId) : RecorderM Unit :=
  appendThenUpsert recordedAt (.workflowContinuedAsNew input workflowType parentRunId)

/-- `record_workflow_reopened`. -/
def recordWorkflowReopened (runId : RunId) (reopened : List ActivityId) :
    RecorderM Unit :=
  appendThenUpsert recordedAt (.workflowReopened runId reopened)

/-- `record_workflow_paused`. -/
def recordWorkflowPaused (runId : RunId) (reason operator : Option String) :
    RecorderM Unit :=
  appendThenUpsert recordedAt (.workflowPaused runId reason operator)

/-- `record_workflow_resumed`. -/
def recordWorkflowResumed (runId : RunId) (operator : Option String) :
    RecorderM Unit :=
  appendThenUpsert recordedAt (.workflowResumed runId operator)

/-- `record_search_attributes_updated`. -/
def recordSearchAttributesUpdated (attributes : SearchAttributes)
    (schema : SearchAttributeSchema) : RecorderM Unit := do
  lift (validateAttributes schema attributes)
  let recorder ← get
  appendThenUpsert recordedAt (.searchAttributesUpdated recorder.workflowId attributes)

/-- `record_activity_scheduled`. -/
def recordActivityScheduled (activityId : ActivityId) (activityType : String)
    (input : Payload) (taskQueue : String) (node : Option String) : RecorderM Unit :=
  appendWith recordedAt (.activityScheduled activityId activityType input taskQueue node)

/-- `record_activity_started`. -/
def recordActivityStarted (activityId : ActivityId) (attempt : ℕ) :
    RecorderM Unit :=
  appendWith recordedAt (.activityStarted activityId attempt)

/-- `record_activity_completed`. -/
def recordActivityCompleted (activityId : ActivityId) (result : Payload)
    (attempt : ℕ) : RecorderM Unit :=
  appendWith recordedAt (.activityCompleted activityId result attempt)

/-- `record_activity_failed`. -/
def recordActivityFailed (activityId : ActivityId) (error : ActivityError)
    (attempt : ℕ) : RecorderM Unit :=
  appendWith recordedAt (.activityFailed activityId error attempt)

/-- `record_activity_cancelled`. -/
def recordActivityCancelled (activityId : ActivityId) (attempt : ℕ) :
    RecorderM Unit :=
  appendWith recordedAt (.activityCancelled activityId attempt)

/-- `record_activity_cancelled_and_settle_outbox`; here a failed settlement is an error. -/
def recordActivityCancelledAndSettleOutbox (ordinal attempt : ℕ) :
    RecorderM Unit := do
  recordActivityCancelled recordedAt (.fromSequencePosition ordinal) attempt
  let recorder ← get
  let answer ← call (.settleOutboxRowCancelled
      (OutboxRow.dispatchKeyFor recorder.workflowId ordinal))
  liftStore answer

/-- `record_timer_started`. -/
def recordTimerStarted (timerId : TimerId) (fireAt : Instant) :
    RecorderM Unit :=
  appendWith recordedAt (.timerStarted timerId fireAt)

/-- `record_timer_fired`. -/
def recordTimerFired (timerId : TimerId) : RecorderM Unit :=
  appendWith recordedAt (.timerFired timerId)

/-- `record_timer_cancelled`. -/
def recordTimerCancelled (timerId : TimerId) (cause : TimerCancelCause) :
    RecorderM Unit :=
  appendWith recordedAt (.timerCancelled timerId cause)

/-- `record_with_timeout_completed`. -/
def recordWithTimeoutCompleted (timerId : TimerId)
    (outcome : WithTimeoutOutcome) (result : Option Payload) : RecorderM Unit :=
  appendWith recordedAt (.withTimeoutCompleted timerId outcome result)

/-- `record_signal_received`. -/
def recordSignalReceived (name : String) (payload : Payload) :
    RecorderM Unit :=
  appendWith recordedAt (.signalReceived name payload)

/-- `record_signal_sent`. -/
def recordSignalSent (targetWorkflowId : WorkflowId) (name : String)
    (payload : Payload) : RecorderM Unit :=
  appendWith recordedAt (.signalSent targetWorkflowId name payload)

/-- `record_child_workflow_started`. -/
def recordChildWorkflowStarted (childWorkflowId : WorkflowId)
    (workflowType : String) (input : Payload) (packageVersion : PackageVersion) : RecorderM Unit :=
  appendWith recordedAt (.childWorkflowStarted childWorkflowId workflowType input packageVersion)

/-- `record_child_workflow_completed`. -/
def recordChildWorkflowCompleted (childWorkflowId : WorkflowId)
    (result : Payload) : RecorderM Unit :=
  appendWith recordedAt (.childWorkflowCompleted childWorkflowId result)

/-- `record_child_workflow_failed`. -/
def recordChildWorkflowFailed (childWorkflowId : WorkflowId)
    (error : WorkflowError) : RecorderM Unit :=
  appendWith recordedAt (.childWorkflowFailed childWorkflowId error)

/-! ### Fan-out -/

/-- The outbox row of a fan-out item. -/
def FanOutItem.outboxRow (item : FanOutItem) (recorder : Recorder) (recordedAt : Instant) :
    OutboxRow :=
  { OutboxRow.pending recorder.workflowId item.ordinal item.activityType item.input recordedAt with
    runId := recorder.runId, namespace_ := item.namespace_, taskQueue := item.taskQueue
    node := item.node }

/-- The envelope after `previous`, or the recorder's next one. -/
def Recorder.envelopeFrom (recorder : Recorder) (previous : Option EventEnvelope)
    (recordedAt : Instant) : Except DurabilityError EventEnvelope :=
  match previous with
  | some previous => recorder.envelopeAfter previous recordedAt
  | none => recorder.nextEnvelope recordedAt

/-- The events and outbox rows of a fan-out, from the envelope before them. -/
def fanOutBatch (recorder : Recorder) (recordedAt : Instant) :
    List FanOutItem → Option EventEnvelope → Except DurabilityError (List Event × List OutboxRow)
  | [], _ => .ok ([], [])
  | item :: rest, previous => do
    let scheduledEnvelope ← recorder.envelopeFrom previous recordedAt
    let startedEnvelope ← recorder.envelopeAfter scheduledEnvelope recordedAt
    let activityId := ActivityId.fromSequencePosition item.ordinal
    let (events, outboxRows) ← fanOutBatch recorder recordedAt rest (some startedEnvelope)
    return (⟨scheduledEnvelope, .activityScheduled activityId item.activityType item.input item.taskQueue
        item.node⟩ :: ⟨startedEnvelope, .activityStarted activityId item.attempt⟩ :: events,
      item.outboxRow recorder recordedAt :: outboxRows)

/-- `record_fan_out_dispatch`. -/
def recordFanOutDispatch (items : List FanOutItem) : RecorderM Unit :=
  if items = [] then return ()
  else do
    let recorder ← get
    let (events, outboxRows) ← lift (fanOutBatch recorder recordedAt items none)
    let answer ← call (.appendWithOutbox recorder.workflowId events recorder.sequence.current outboxRows)
    liftStore answer
    markAppendSuccess events.length

/-- The event a fan-out outcome is recorded as. -/
def FanOutOutcome.body (activityId : ActivityId) : FanOutOutcome → EventBody
  | .completed result attempt => .activityCompleted activityId result attempt
  | .failed error attempt => .activityFailed activityId error attempt

/-- `record_fan_out_completion`. -/
def recordFanOutCompletion (ordinal : ℕ) (runId : Option RunId)
    (outcome : FanOutOutcome) : RecorderM FanOutCompletionResult := do
  let activityId := ActivityId.fromSequencePosition ordinal
  let recorder ← get
  let answer ← call (.readHistory recorder.workflowId)
  let history ← liftStore answer
  if runIdMismatchesRecorder runId recorder.runId then return .dropped
  else if ordinalIsResolved (completionHistory history runId) activityId then return .dropped
  else
    appendWith recordedAt (outcome.body activityId)
    return .recorded

end Aion
