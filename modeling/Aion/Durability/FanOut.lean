import Aion.Core.Status

/-!
# Fan-out batches

The data of a durable fan-out and the predicates that decide whether a completion
is a duplicate (`recorder/fan_out.rs`). The recorder's operations on them are in
`Aion.Durability.Recorder`.
-/

namespace Aion

/-- Terminal outcome of a single fan-out activity. -/
inductive FanOutOutcome where
  /-- The activity succeeded. -/
  | completed (result : Payload) (attempt : ℕ)
  /-- The attempt failed. -/
  | failed (error : ActivityError) (attempt : ℕ)
  deriving DecidableEq

/-- Whether a completion was recorded or dropped as a duplicate. -/
inductive FanOutCompletionResult where
  /-- The terminal event was appended. -/
  | recorded
  /-- The ordinal already had a terminal. -/
  | dropped
  deriving DecidableEq

/-- One member of a durable fan-out dispatch. -/
structure FanOutItem where
  /-- Ordinal of the activity in the fan-out range. -/
  ordinal : ℕ
  /-- Isolation namespace of the workflow. -/
  namespace_ : String
  /-- Pool selector. -/
  taskQueue : String
  /-- Optional node affinity. -/
  node : Option String
  /-- Activity type the worker must execute. -/
  activityType : String
  /-- Activity input. -/
  input : Payload
  /-- One-based delivery attempt. -/
  attempt : ℕ
  deriving DecidableEq

/-- `run_id_mismatches_recorder`. -/
def runIdMismatchesRecorder (completion current : Option RunId) : Bool :=
  match completion, current with
  | some completion, some current => completion != current
  | _, _ => false

/-- `completion_history`. -/
def completionHistory (history : List Event) (runId : Option RunId) : List Event :=
  match runId with
  | some runId => runSegment history runId
  | none => history

/-- The event is an outcome of the activity: completed, failed (whether for good or
not) or cancelled. -/
def isActivityOutcome (activityId : ActivityId) (event : Event) : Bool :=
  match event.body with
  | .activityCompleted recorded _ _ => recorded == activityId
  | .activityFailed recorded _ _ => recorded == activityId
  | .activityCancelled recorded _ => recorded == activityId
  | _ => false

/-- `ordinal_is_resolved`. -/
def ordinalIsResolved (history : List Event) (activityId : ActivityId) : Bool :=
  history.any (isActivityOutcome activityId)

end Aion
