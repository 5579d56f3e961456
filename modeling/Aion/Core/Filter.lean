import Aion.Core.Status

/-!
# What failed

The failure fields of a workflow's summary (`filter.rs`): the step that failed in the
current lease, and the message the workflow failed with.
-/

namespace Aion

/-- The activity a completion or cancellation is of. -/
def succeededActivity? (event : Event) : Option ActivityId :=
  match event.body with
  | .activityCompleted activityId _ _ => some activityId
  | .activityCancelled activityId _ => some activityId
  | _ => none

/-- The last failure of a lease, with the type its activity was then scheduled with. -/
def failedStepScan :
    List Event → (AList fun _ : ActivityId => String) → Option (ActivityId × String) →
    Option (ActivityId × String)
  | [], _, latest => latest
  | event :: rest, types, latest =>
    match event.body with
    | .activityScheduled activityId activityType _ _ _ =>
      failedStepScan rest (types.insert activityId activityType) latest
    | .activityFailed activityId _ _ =>
      failedStepScan rest types (some (activityId, (types.lookup activityId).getD ""))
    | _ => failedStepScan rest types latest

/-- `failed_activity_step`. -/
def failedActivityStep (events : List Event) : Option String :=
  let lease := currentLease events
  (failedStepScan lease ∅ none).bind fun (activityId, step) =>
    if activityId ∈ lease.filterMap succeededActivity? ∨ step = "" then none else some step

/-- `failure_projection`. -/
def failureProjection (events : List Event) : Option String × Option String :=
  match currentLeaseTerminal events with
  | some ⟨_, .workflowFailed error⟩ => (failedActivityStep events, some error.message)
  | _ => (none, none)

end Aion
