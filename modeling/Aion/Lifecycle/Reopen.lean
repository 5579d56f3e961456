import Aion.Core.Filter
import Aion.Durability.LiveResolution
import Mathlib.Data.List.Dedup

/-!
# Reopening a run

A failed or cancelled run can be reopened (`lifecycle/reopen.rs`). The reopen
records a `WorkflowReopened` event that names the activities to dispatch again:
those that failed in the current lease and neither completed nor were cancelled in
it. The cursor has its own rule for what a reopen supersedes.

`reopen_agrees_with_replay` says that the two rules agree: after the reopen the
live path resolves every named activity to a live dispatch, and every other
activity exactly as before.
-/

namespace Aion

open HistoryCursor

/-- The `EngineError`s of the lifecycle operations. -/
inductive EngineError where
  /-- A history could not be projected. -/
  | load (reason : String)
  /-- No such workflow or run. -/
  | workflowNotFound (workflowType : String)
  /-- The workflow is not in the state the operation needs. -/
  | invalidState (reason : String)
  /-- The runtime refused the operation. -/
  | runtime (reason : String)
  deriving DecidableEq

/-- The status as diagnostics print it (`status_name`). -/
def WorkflowStatus.debug : WorkflowStatus → String
  | .running => "Running"
  | .completed => "Completed"
  | .failed => "Failed"
  | .cancelled => "Cancelled"
  | .timedOut => "TimedOut"
  | .continuedAsNew => "ContinuedAsNew"
  | .paused => "Paused"

/-- `terminal_status_name`. -/
def terminalStatusName (event : Event) : String :=
  match event.body with
  | .workflowCompleted _ => "Completed"
  | .workflowTimedOut _ => "TimedOut"
  | .workflowContinuedAsNew .. => "ContinuedAsNew"
  | .workflowFailed _ => "Failed"
  | .workflowCancelled _ => "Cancelled"
  | _ => "non-terminal"

/-- The activity a failure is of. -/
def failedActivity? (event : Event) : Option ActivityId :=
  match event.body with
  | .activityFailed activityId _ _ => some activityId
  | _ => none

/-- `reopened_failed_activities`. -/
def reopenedFailedActivities (segment : List Event) : List ActivityId :=
  let lease := currentLease segment
  let failed := (lease.filterMap failedActivity?).dedup
  let succeeded := lease.filterMap succeededActivity?
  (failed.filter fun activityId => activityId ∉ succeeded).insertionSort
    fun a b => a.sequencePosition ≤ b.sequencePosition

/-- `validate_and_compute_reopened`. -/
def validateAndComputeReopened (id : WorkflowId) (run : RunId) (segment : List Event) :
    Except EngineError (List ActivityId) :=
  match currentLeaseTerminal segment with
  | some ⟨_, .workflowFailed _⟩ => .ok (reopenedFailedActivities segment)
  | some ⟨_, .workflowCancelled _⟩ => .ok []
  | some other => .error (.invalidState ("workflow " ++ id.display ++ " run " ++ run.display ++
      " is terminal for a non-reopenable reason (" ++ terminalStatusName other ++
      "); only Failed and Cancelled are reopenable"))
  | none => .error (.invalidState ("workflow " ++ id.display ++ " run " ++ run.display ++ " is " ++
      (statusFromEvents segment).debug ++ ", not a reopenable terminal (Failed or Cancelled)"))

theorem mem_reopenedFailedActivities {segment : List Event} {activityId : ActivityId} :
    activityId ∈ reopenedFailedActivities segment ↔
      (∃ event ∈ currentLease segment, failedActivity? event = some activityId) ∧
        ∀ event ∈ currentLease segment, succeededActivity? event ≠ some activityId := by
  simp [reopenedFailedActivities, List.mem_insertionSort]

theorem exists_append_currentLease (segment : List Event) :
    ∃ before, segment = before ++ currentLease segment := by
  refine ⟨(segment.reverse.dropWhile fun event => !isLeaseStart event).reverse, ?_⟩
  rw [currentLease, ← List.reverse_append, List.takeWhile_append_dropWhile, List.reverse_reverse]

/-- No failure of an activity follows its completion or cancellation. -/
def NoFailureAfterSuccess (segment : List Event) : Prop :=
  segment.Pairwise fun event later =>
    ∀ activityId, succeededActivity? event = some activityId →
      failedActivity? later ≠ some activityId

/-- An activity that is reopened has neither completed nor been cancelled in the whole segment. -/
theorem not_succeeded_of_mem_reopened {segment : List Event}
    (wellFormed : NoFailureAfterSuccess segment) {activityId : ActivityId}
    (reopened : activityId ∈ reopenedFailedActivities segment) :
    ∀ event ∈ segment, succeededActivity? event ≠ some activityId := by
  obtain ⟨⟨failure, hlease, hfail⟩, hnone⟩ := mem_reopenedFailedActivities.mp reopened
  obtain ⟨before, hspl⟩ := exists_append_currentLease segment
  intro event hmem hsucceeded
  rw [hspl] at hmem
  rcases List.mem_append.mp hmem with hbef | hin
  · -- a success before the lease would be followed by the lease's failure
    rw [NoFailureAfterSuccess, hspl, List.pairwise_append] at wellFormed
    exact wellFormed.2.2 event hbef failure hlease activityId hsucceeded hfail
  · exact hnone event hin hsucceeded

variable {index : ℕ}

theorem isLeast_schedulesAt_append {segment : List Event} {activityId : ActivityId}
    (first : IsLeast {j | schedulesAt segment activityId j} index) (extension : List Event) :
    IsLeast {j | schedulesAt (segment ++ extension) activityId j} index := by
  have hlt := (matchable_of_schedulesAt first.1).lt_length
  refine ⟨(keyForEvent_append hlt extension).trans first.1, fun j hj => not_lt.mp fun hji => ?_⟩
  have hj' : schedulesAt segment activityId j :=
    (keyForEvent_append (hji.trans hlt) extension).symm.trans hj
  exact absurd (first.2 hj') (not_le.mpr hji)

section Extended

variable {segment : List Event} {reopen : Event} {runId : RunId} {reopened : List ActivityId}
  {activityId : ActivityId}

/-- A reopen at the end adds only itself to what follows an index. -/
theorem any_drop_concat (hlt : index < segment.length) (read : Event → Bool) :
    ((segment ++ [reopen]).drop (index + 1)).any read =
      ((segment.drop (index + 1)).any read || read reopen) := by
  rw [List.drop_append_of_le_length (by omega), List.any_append]
  simp

theorem belongsAt_reopen (hreopen : reopen.body = .workflowReopened runId reopened) (t : ℕ) :
    belongsAt (segment ++ [reopen]) activityId t = belongsAt segment activityId t := by
  rcases lt_trichotomy t segment.length with hlt | rfl | hgt
  · rw [belongsAt, belongsAt, List.getElem?_append_left hlt]
  · simp [belongsAt, isActivityEvent, hreopen]
  · simp [belongsAt, List.getElem?_eq_none_iff.mpr (show segment.length ≤ t by omega),
      List.getElem?_eq_none_iff.mpr (show (segment ++ [reopen]).length ≤ t by simp; omega)]

/-- What settles an activity after a reopen that does not name it. -/
theorem settlesAt_reopen_of_not_mem (hreopen : reopen.body = .workflowReopened runId reopened)
    (kept : activityId ∉ reopened) (t : ℕ) :
    settlesAt (segment ++ [reopen]) activityId t = settlesAt segment activityId t := by
  rcases lt_or_ge t segment.length with hlt | hge
  · have blind : isReopenOf activityId reopen = false := by simp [isReopenOf, hreopen, kept]
    have attempt : isActivityAttemptOrOutcome activityId reopen = false := by
      simp [isActivityAttemptOrOutcome, hreopen]
    have same : settles (segment ++ [reopen]) activityId t = settles segment activityId t := by
      funext event
      simp [settles, activityReopenedAfter, hasLaterActivityAttemptOrOutcome, any_drop_concat hlt, blind, attempt]
    rw [settlesAt, settlesAt, List.getElem?_append_left hlt, same]
  · have outside : ¬ settlesAt segment activityId t := fun h => by
      have := lt_length_of_settlesAt h
      omega
    have outside' : ¬ settlesAt (segment ++ [reopen]) activityId t := fun h => by
      have := belongsAt_of_settlesAt h
      rw [belongsAt_reopen hreopen, belongsAt, List.getElem?_eq_none_iff.mpr hge] at this
      cases this
    rw [Bool.eq_false_iff.mpr outside, Bool.eq_false_iff.mpr outside']

/-- Nothing settles an activity that a reopen names and that never succeeded. -/
theorem not_settlesAt_reopen_of_mem (hreopen : reopen.body = .workflowReopened runId reopened)
    (named : activityId ∈ reopened)
    (unsucceeded : ∀ event ∈ segment, succeededActivity? event ≠ some activityId) (t : ℕ) :
    ¬ settlesAt (segment ++ [reopen]) activityId t := by
  intro h
  have hb := belongsAt_of_settlesAt h
  rw [belongsAt_reopen hreopen] at hb
  obtain ⟨event, at_index, -⟩ := (Option.any_eq_true _ _).mp hb
  have hlt := (List.getElem?_eq_some_iff.mp at_index).1
  have hnone := unsucceeded event (List.mem_of_getElem? at_index)
  have supersedes : isReopenOf activityId reopen = true := by simp [isReopenOf, hreopen, named]
  simp only [settlesAt, List.getElem?_append_left hlt, at_index, Option.any_some, settles,
    activityReopenedAfter, any_drop_concat hlt, supersedes, Bool.or_true] at h
  obtain ⟨envelope, body⟩ := event
  cases body <;> simp_all [succeededActivity?]

end Extended

/-- **Reopen and replay agree.** After a failed run is reopened, every scheduled
activity that the reopen names is dispatched live, and every other scheduled
activity resolves as it did before. -/
theorem reopen_agrees_with_replay {id : WorkflowId} {run : RunId} {segment : List Event}
    {reopened : List ActivityId} {reopen : Event} {cursor cursor' : HistoryCursor}
    {envelope : EventEnvelope} {error : WorkflowError} {activityId : ActivityId}
    (wellFormed : NoFailureAfterSuccess segment)
    (failed : currentLeaseTerminal segment = some ⟨envelope, .workflowFailed error⟩)
    (computed : validateAndComputeReopened id run segment = .ok reopened)
    (hreopen : reopen.body = .workflowReopened run reopened)
    (before : HistoryCursor.new segment = .ok cursor)
    (after : HistoryCursor.new (segment ++ [reopen]) = .ok cursor')
    (scheduled : ∃ event ∈ segment, ∃ activityType input taskQueue node,
      event.body = .activityScheduled activityId activityType input taskQueue node) :
    reopened = reopenedFailedActivities segment ∧
      (activityId ∈ reopened → resolveActivityLive cursor' activityId = .exhausted) ∧
      (activityId ∉ reopened →
        resolveActivityLive cursor' activityId = resolveActivityLive cursor activityId) := by
  obtain ⟨-, rfl⟩ := (new_eq_ok_iff _ _).mp before
  obtain ⟨-, rfl⟩ := (new_eq_ok_iff _ _).mp after
  have hcomputed : reopened = reopenedFailedActivities segment := by
    simpa only [validateAndComputeReopened, failed, Except.ok.injEq, eq_comm] using computed
  obtain ⟨index, first⟩ := exists_isLeast_schedulesAt scheduled
  have first' := isLeast_schedulesAt_append first [reopen]
  refine ⟨hcomputed, fun named => ?_, fun kept => ?_⟩
  · have unsucceeded := not_succeeded_of_mem_reopened wellFormed (hcomputed ▸ named)
    rw [resolveActivityLive_eq first']
    rcases walkActivity_eq (segment ++ [reopen]) activityId (index + 1) [index] with
      ⟨last, least, -⟩ | ⟨-, hwalk⟩
    · exact absurd least.1.2 (not_settlesAt_reopen_of_mem hreopen named unsucceeded last)
    · rw [hwalk]
  · rw [resolveActivityLive_eq first', resolveActivityLive_eq first,
      walkActivity_congr (index + 1) [index] (settlesAt_reopen_of_not_mem hreopen kept)
        (belongsAt_reopen hreopen)]
    cases hwalk : walkActivity segment activityId (segment.drop (index + 1)) (index + 1) [index] with
    | none => rfl
    | some indices =>
      have hlt := (matchable_of_schedulesAt first.1).lt_length
      have bounds := lt_length_of_mem_walk (fun j hj => List.mem_singleton.mp hj ▸ hlt) hwalk
      simp only [eventsAt_append bounds]

/-- A run whose first activity failed for good and whose second completed. -/
def failedRun : List Event :=
  numbered
    [.workflowStarted "order" .empty ⟨0⟩ none ⟨"v1"⟩,
     .activityScheduled ⟨0⟩ "charge" .empty "default" none,
     .activityScheduled ⟨1⟩ "ship" .empty "default" none,
     .activityCompleted ⟨1⟩ .empty 1,
     .activityFailed ⟨0⟩ ⟨.terminal, "declined", none⟩ 1,
     .workflowFailed ⟨"declined", none⟩]

/-- The reopen of the failed run. -/
def failedRunReopen : Event := ⟨⟨7, 0, ⟨0⟩⟩, .workflowReopened ⟨0⟩ [⟨0⟩]⟩

theorem reopen_agrees_with_replay_failedRun :
    resolveActivityLive (start (failedRun ++ [failedRunReopen])) ⟨0⟩ = .exhausted ∧
      resolveActivityLive (start (failedRun ++ [failedRunReopen])) ⟨1⟩ =
        resolveActivityLive (start failedRun) ⟨1⟩ := by
  have wellFormed : NoFailureAfterSuccess failedRun := by
    simp [NoFailureAfterSuccess, failedRun, numbered, succeededActivity?, failedActivity?]
  have failed : currentLeaseTerminal failedRun = some ⟨⟨6, 0, ⟨0⟩⟩, .workflowFailed ⟨"declined", none⟩⟩ := rfl
  have computed : validateAndComputeReopened ⟨0⟩ ⟨0⟩ failedRun = .ok [⟨0⟩] := rfl
  have before : HistoryCursor.new failedRun = .ok (start failedRun) := rfl
  have after : HistoryCursor.new (failedRun ++ [failedRunReopen]) =
      .ok (start (failedRun ++ [failedRunReopen])) := rfl
  have charge := reopen_agrees_with_replay wellFormed failed computed rfl before after
    ⟨_, .tail _ (.head _), _, _, _, _, rfl⟩
  have ship := reopen_agrees_with_replay wellFormed failed computed rfl before after
    ⟨_, .tail _ (.tail _ (.head _)), _, _, _, _, rfl⟩
  exact ⟨charge.2.1 (by decide), ship.2.2 (by decide)⟩

end Aion
