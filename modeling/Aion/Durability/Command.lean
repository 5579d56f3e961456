import Aion.Core.Event

/-!
# Commands, correlation keys and resolutions

The vocabulary of the durability seam: the deterministic identity of a
world-touching call (`correlation.rs`), the commands workflow code issues and the
resolutions history gives them (`command.rs`), and the errors of recording and
replay (`error.rs`, `aion-store`'s `error.rs`).

The source prints the two sides of a non-determinism into text; here the error
keeps the data those texts are printed from (`ExpectedShape`, `FoundShape`).
-/

namespace Aion

/-! ### Correlation keys -/

/-- Deterministic identity of one world-touching workflow call. -/
inductive CorrelationKey where
  /-- Activity scheduled at the deterministic ordinal. -/
  | activity (ordinal : ℕ)
  /-- Child workflow scheduled at the deterministic spawn ordinal. -/
  | child (ordinal : ℕ)
  /-- Timer selected by workflow code or assigned by the engine. -/
  | timer (timerId : TimerId)
  /-- Signal delivery by name and zero-based occurrence of that name in history order. -/
  | signal (name : String) (index : ℕ)
  deriving DecidableEq

/-- `key_for_positionless_event`. -/
def keyForPositionlessEvent : EventBody → Option CorrelationKey
  | .activityScheduled activityId .. => some (.activity activityId.sequencePosition)
  | .timerStarted timerId _ => some (.timer timerId)
  | _ => none

/-- The event is a signal, received or sent, of this name. -/
def isSignalNamed (name : String) (event : Event) : Bool :=
  match event.body with
  | .signalReceived priorName _ => priorName == name
  | .signalSent _ priorName _ => priorName == name
  | _ => false

/-- The event is a `ChildWorkflowStarted`. -/
def isChildStart (event : Event) : Bool :=
  match event.body with
  | .childWorkflowStarted .. => true
  | _ => false

/-- `key_for_event`: signals count the prior signals of the same name, child starts
the prior child starts. -/
def keyForEvent (events : List Event) (index : ℕ) : Option CorrelationKey :=
  match events[index]? with
  | none => none
  | some event =>
    match event.body with
    | .signalReceived name _ =>
      some (.signal name ((events.take index).countP (isSignalNamed name)))
    | .signalSent _ name _ => some (.signal name ((events.take index).countP (isSignalNamed name)))
    | .childWorkflowStarted .. => some (.child ((events.take index).countP isChildStart))
    | body => keyForPositionlessEvent body

/-- A key is a function of the history up to and including its event. -/
theorem keyForEvent_append {events : List Event} {index : ℕ} (h : index < events.length)
    (extension : List Event) :
    keyForEvent (events ++ extension) index = keyForEvent events index := by
  simp only [keyForEvent, List.getElem?_append_left h, List.take_append_of_le_length h.le]

/-! ### Commands and resolutions -/

/-- Event families that can satisfy world-touching commands during replay. -/
inductive RecordedEventFamily where
  | activity | timer | signal | child
  deriving DecidableEq

/-- Target and content of a workflow-originated signal send. -/
structure SignalDelivery where
  /-- Workflow that should receive the signal. -/
  targetWorkflowId : WorkflowId
  /-- Signal name. -/
  name : String
  /-- Signal payload. -/
  payload : Payload
  deriving DecidableEq

/-- World-touching workflow intent presented to the durability resolver. -/
inductive Command where
  /-- Run an activity. -/
  | runActivity (key : CorrelationKey) (activityType : String) (input : Payload)
  /-- Await the next matching signal delivery. -/
  | awaitSignal (key : CorrelationKey)
  /-- Send a signal to another workflow. -/
  | sendSignal (key : CorrelationKey) (delivery : SignalDelivery)
  /-- Start or await a timer. -/
  | startTimer (key : CorrelationKey) (fireAt : Instant)
  /-- Spawn a child workflow. -/
  | spawnChild (key : CorrelationKey) (workflowType : String) (input : Payload)
  /-- Await a previously spawned child's terminal outcome. -/
  | awaitChild (childWorkflowId : WorkflowId)
  /-- Complete the current workflow. -/
  | completeWorkflow (result : Payload)
  deriving DecidableEq

/-- Recorded outcome produced by resolving a command against history. -/
inductive Resolution where
  /-- A recorded activity completion. -/
  | activityCompleted (result : Payload)
  /-- A recorded terminal activity failure. -/
  | activityFailedTerminal (error : ActivityError)
  /-- A recorded timer firing. -/
  | timerFired
  /-- A recorded timer start without an outcome. -/
  | timerStarted
  /-- A recorded signal delivery. -/
  | signalDelivered (payload : Payload)
  /-- A recorded timer cancellation. -/
  | timerCancelled
  /-- A recorded `with_timeout` outcome. -/
  | withTimeout (outcome : WithTimeoutOutcome) (result : Option Payload)
  /-- A recorded successful signal send. -/
  | signalSent
  /-- A recorded child start. -/
  | childStarted (childWorkflowId : WorkflowId)
  /-- A recorded child completion. -/
  | childCompleted (result : Payload)
  /-- A recorded child failure. -/
  | childFailed (error : WorkflowError)
  deriving DecidableEq

/-- Terminal workflow state recorded in history. -/
inductive ReplayTerminal where
  /-- Completed with a recorded result. -/
  | completed (result : Payload)
  /-- Failed with a recorded error. -/
  | failed (error : WorkflowError)
  /-- Cancelled with a recorded reason. -/
  | cancelled (reason : String)
  /-- Timed out with a recorded descriptor. -/
  | timedOut (timeout : String)
  /-- Continued as a new run with a carried input. -/
  | continuedAsNew (input : Payload)
  deriving DecidableEq

/-! ### Errors -/

/-- `StoreError`. -/
inductive StoreError where
  /-- The history head did not match the caller's optimistic-concurrency guard. -/
  | sequenceConflict (expected found : ℕ)
  /-- A must-exist workflow is absent. -/
  | notFound (workflowId : WorkflowId)
  /-- The targeted shard is owned by a different node. -/
  | notOwner (shard : ℕ)
  /-- Backend-specific failure. -/
  | backend (message : String)
  /-- Serialization or deserialization failure. -/
  | serialization (message : String)
  deriving DecidableEq

/-- The recorded event found at a cursor position. -/
structure FoundEventDescriptor where
  /-- Sequence number of the recorded event. -/
  seq : ℕ
  /-- Replay family, if the event is matchable. -/
  family : Option RecordedEventFamily
  /-- Correlation key, if the event starts a matchable command. -/
  key : Option CorrelationKey
  /-- Event-variant name. -/
  kind : String
  deriving DecidableEq

/-- What a violated command expected. -/
inductive ExpectedShape where
  /-- A recorded event of this family and key. -/
  | recorded (family : RecordedEventFamily) (key : CorrelationKey)
  /-- The terminal outcome of this child. -/
  | childTerminal (childWorkflowId : WorkflowId)
  /-- The command itself, against a terminal history. -/
  | command (command : Command)
  deriving DecidableEq

/-- What a violated command found. -/
inductive FoundShape where
  /-- An event of this kind, family and key. -/
  | event (kind : String) (family : Option RecordedEventFamily) (key : Option CorrelationKey)
  /-- A terminal history. -/
  | terminal (terminal : ReplayTerminal)
  deriving DecidableEq

/-- A mismatch between the workflow command stream and recorded history. -/
structure NonDeterminismError where
  /-- Workflow whose history diverged. -/
  workflowId : WorkflowId
  /-- Sequence position of the recorded event at the mismatch. -/
  seq : ℕ
  /-- What the command expected. -/
  expected : ExpectedShape
  /-- What history holds there. -/
  found : FoundShape
  deriving DecidableEq

/-- Errors of recording, replay and recovery. -/
inductive DurabilityError where
  /-- The event store rejected or failed an operation. -/
  | store (error : StoreError)
  /-- Workflow code no longer matches recorded history. -/
  | nonDeterminism (error : NonDeterminismError)
  /-- Recorded history is malformed. -/
  | historyShape (reason : String)
  /-- A search attribute update did not satisfy the schema. -/
  | searchAttribute (error : SearchAttributeError)
  deriving DecidableEq

end Aion
