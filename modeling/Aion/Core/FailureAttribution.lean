import Aion.Core.Filter
import Mathlib.Tactic.Common

/-!
# The failed step of a workflow

`failure_projection` names the step a failed workflow failed at: by its documentation the latest
activity of the current lease that failed for good and did neither complete nor was cancelled
afterwards (`attributedStep`). The scan keeps only the last failure of any kind, though, and drops
it when its activity succeeded at any time in the lease.

`failed_step_iff` says when the two agree. `retried_activity_hides_failure`: an activity that fails
once, is tried again and succeeds hides an earlier one that failed for good.
-/

namespace Aion

open Scan

/-! ### What is to be attributed -/

/-- The activity that a failure is of, and whether it may be retried. -/
def failure? (event : Event) : Option (ActivityId × ActivityErrorKind) :=
  match event.body with
  | .activityFailed activityId error _ => some (activityId, error.kind)
  | _ => none

/-- The type an event schedules the activity with. -/
def scheduledType? (activityId : ActivityId) (event : Event) : Option String :=
  match event.body with
  | .activityScheduled scheduled activityType _ _ _ =>
    if scheduled = activityId then some activityType else none
  | _ => none

/-- The type of the activity that failed for good with this event, unless it succeeded
afterwards. -/
def unsuperseded? (before : List Event) (event : Event) (after : List Event) : Option String :=
  match failure? event with
  | some (activityId, .terminal) =>
    if activityId ∈ after.filterMap succeededActivity? then none
    else newest (scheduledType? activityId) before
  | _ => none

/-- The type of the last activity that failed for good and did not succeed afterwards. -/
def attributedStepFrom (before : List Event) : List Event → Option String
  | [] => none
  | event :: after =>
    (attributedStepFrom (before ++ [event]) after).or (unsuperseded? before event after)

/-- The step to which the failure of a workflow is attributed. -/
def attributedStep (lease : List Event) : Option String := attributedStepFrom [] lease

variable {before lease after : List Event} {activityId : ActivityId} {step : String}
  {event : Event}

/-- Nothing is attributed when no event is to be attributed. -/
theorem attributedStepFrom_eq_none_iff :
    attributedStepFrom before lease = none ↔
      ∀ earlier event after, lease = earlier ++ event :: after →
        unsuperseded? (before ++ earlier) event after = none := by
  induction lease generalizing before with
  | nil => simp [attributedStepFrom]
  | cons first rest ih =>
    rw [attributedStepFrom, Option.or_eq_none_iff, ih]
    constructor
    · rintro ⟨hrest, hfst⟩ earlier event after hspl
      rcases earlier with _ | ⟨head, earlier⟩
      · obtain ⟨rfl, rfl⟩ := List.cons.inj hspl
        simpa using hfst
      · obtain ⟨rfl, rfl⟩ := List.cons.inj hspl
        simpa using hrest earlier event after rfl
    · intro h
      refine ⟨fun earlier event after hspl => ?_, by simpa using h [] first rest rfl⟩
      simpa using h (first :: earlier) event after (by rw [hspl]; rfl)

theorem attributedStepFrom_eq_some_iff :
    attributedStepFrom before lease = some step ↔
      ∃ earlier event after, lease = earlier ++ event :: after ∧
        unsuperseded? (before ++ earlier) event after = some step ∧
        attributedStepFrom (before ++ earlier ++ [event]) after = none := by
  induction lease generalizing before with
  | nil => simp [attributedStepFrom]
  | cons first rest ih =>
    rw [attributedStepFrom, Option.or_eq_some_iff, ih]
    constructor
    · rintro (⟨earlier, event, after, rfl, hev, hafter⟩ | ⟨hrest, hfst⟩)
      · exact ⟨first :: earlier, event, after, rfl, by simpa using hev, by simpa using hafter⟩
      · exact ⟨[], first, rest, rfl, by simpa using hfst, by simpa using hrest⟩
    · rintro ⟨earlier, event, after, hspl, hev, hafter⟩
      rcases earlier with _ | ⟨head, earlier⟩
      · obtain ⟨rfl, rfl⟩ := List.cons.inj hspl
        exact .inr ⟨by simpa using hafter, by simpa using hev⟩
      · obtain ⟨rfl, rfl⟩ := List.cons.inj hspl
        exact .inl ⟨earlier, event, after, rfl, by simpa using hev, by simpa using hafter⟩

/-- What is attributed is an activity's last terminal failure, and no later one is to be
attributed. -/
theorem attributedStep_eq_some_iff :
    attributedStep lease = some step ↔
      ∃ before event after, lease = before ++ event :: after ∧
        unsuperseded? before event after = some step ∧
        ∀ between later rest, after = between ++ later :: rest →
          unsuperseded? (before ++ event :: between) later rest = none := by
  rw [attributedStep, attributedStepFrom_eq_some_iff]
  simp [attributedStepFrom_eq_none_iff]

theorem attributedStep_eq_none_iff :
    attributedStep lease = none ↔
      ∀ before event after, lease = before ++ event :: after →
        unsuperseded? before event after = none := by
  rw [attributedStep, attributedStepFrom_eq_none_iff]
  rfl

theorem unsuperseded?_eq_none (h : failure? event = none) :
    unsuperseded? before event after = none := by
  rw [unsuperseded?, h]

/-! ### What the scan keeps -/

/-- The scan passes over events that are no failures. -/
theorem failedStepScan_of_none {rest : List Event} (h : ∀ event ∈ rest, failure? event = none)
    (types : AList fun _ : ActivityId => String) (latest : Option (ActivityId × String)) :
    failedStepScan rest types latest = latest := by
  induction rest generalizing types with
  | nil => rfl
  | cons event rest ih =>
    obtain ⟨hev, hrest⟩ := List.forall_mem_cons.mp h
    obtain ⟨envelope, body⟩ := event
    cases body with
    | activityFailed activityId error attempt => cases hev
    | _ => exact ih hrest _

/-- Behind some events it knows the type that each activity was scheduled with last. -/
theorem failedStepScan_append (before rest : List Event)
    (types : AList fun _ : ActivityId => String) (latest : Option (ActivityId × String)) :
    ∃ types' latest', failedStepScan (before ++ rest) types latest =
      failedStepScan rest types' latest' ∧
      ∀ activityId, types'.lookup activityId = (newest (scheduledType? activityId) before).or
        (types.lookup activityId) := by
  induction before generalizing types latest with
  | nil => exact ⟨types, latest, rfl, by simp⟩
  | cons event before ih =>
    obtain ⟨envelope, body⟩ := event
    cases body with
    | activityScheduled scheduled activityType input taskQueue node =>
      obtain ⟨types', latest', hscan, htypes⟩ := ih (types.insert scheduled activityType) latest
      refine ⟨types', latest', hscan, fun activityId => ?_⟩
      rw [htypes, newest_cons, Option.or_assoc]
      congr 1
      by_cases heq : activityId = scheduled
      · subst heq
        simp [AList.lookup_insert, scheduledType?]
      · simp [scheduledType?, AList.lookup_insert_ne heq, Ne.symm heq]
    | activityFailed failed error attempt =>
      obtain ⟨types', latest', hscan, htypes⟩ := ih types (some (failed, (types.lookup failed).getD ""))
      exact ⟨types', latest', hscan, fun activityId => by rw [htypes, newest_cons]; simp [scheduledType?]⟩
    | _ =>
      obtain ⟨types', latest', hscan, htypes⟩ := ih types latest
      exact ⟨types', latest', hscan, fun activityId => by rw [htypes, newest_cons]; simp [scheduledType?]⟩

/-- What the scan of a lease gives is its last failure. -/
theorem failedStepScan_of_last {kind : ActivityErrorKind}
    (hev : failure? event = some (activityId, kind))
    (hafter : ∀ later ∈ after, failure? later = none) :
    failedStepScan (before ++ event :: after) ∅ none =
      some (activityId, (newest (scheduledType? activityId) before).getD "") := by
  obtain ⟨types, latest, hscan, htypes⟩ := failedStepScan_append before (event :: after) ∅ none
  obtain ⟨envelope, body⟩ := event
  cases body with
  | activityFailed failed error attempt =>
    obtain ⟨rfl, -⟩ := Prod.mk.inj (Option.some.inj hev)
    rw [hscan]
    refine (failedStepScan_of_none hafter _ _).trans ?_
    simp [htypes]
  | _ => cases hev

/-! ### When the last failure is the one -/

/-- The activity was scheduled with this type, which is none but empty, and does not succeed in the
lease. -/
def Unsettled (lease before : List Event) (activityId : ActivityId) (step : String) : Prop :=
  activityId ∉ lease.filterMap succeededActivity? ∧ newest (scheduledType? activityId) before =
    some step ∧ step ≠ ""

/-- The last failure for good that no success of its activity follows is of an activity of this
type. -/
def LastUnsuperseded (lease : List Event) (step : String) : Prop :=
  ∃ before event after, lease = before ++ event :: after ∧
    unsuperseded? before event after = some step ∧
    ∀ between later rest, after = between ++ later :: rest →
      unsuperseded? (before ++ event :: between) later rest = none

/-- The last failure, with what precedes it. -/
def lastFailure? : List Event → Option (List Event × ActivityId × ActivityErrorKind)
  | [] => none
  | event :: after =>
    match lastFailure? after with
    | some (before, failure) => some (event :: before, failure)
    | none => (failure? event).map fun failure => ([], failure)

/-- The lease's last failure, if there is one, leaves the attribution as it is. Where its activity
has a type and never succeeds in the lease, it is final, or the last final failure that no success
follows is of an activity of that type; else there is no such failure. -/
def LastFailureDecides (lease : List Event) : Prop :=
  ∀ before activityId kind, lastFailure? lease = some (before, activityId, kind) →
    (∀ step, Unsettled lease before activityId step → kind = .terminal ∨ LastUnsuperseded lease step) ∧
      ((∀ step, ¬ Unsettled lease before activityId step) →
        ∀ earlier event after, lease = earlier ++ event :: after → unsuperseded? earlier event after = none)

theorem lastFailure?_eq_none_iff :
    lastFailure? lease = none ↔ ∀ event ∈ lease, failure? event = none := by
  induction lease with
  | nil => simp [lastFailure?]
  | cons event after ih =>
    rw [lastFailure?, List.forall_mem_cons]
    cases hlast : lastFailure? after with
    | none =>
      have hafter := ih.mp hlast
      simpa using fun _ => hafter
    | some last =>
      have hsome : ¬ ∀ later ∈ after, failure? later = none := fun h => by
        rw [ih.mpr h] at hlast
        cases hlast
      simp [hsome]

theorem exists_of_lastFailure? {failure : ActivityId × ActivityErrorKind}
    (h : lastFailure? lease = some (before, failure)) :
    ∃ event after, lease = before ++ event :: after ∧ failure? event = some failure ∧
      ∀ later ∈ after, failure? later = none := by
  induction lease generalizing before with
  | nil => cases h
  | cons event after ih =>
    rw [lastFailure?] at h
    cases hlast : lastFailure? after with
    | none =>
      simp only [hlast, Option.map_eq_some_iff, Prod.mk.injEq] at h
      obtain ⟨found, hfd, rfl, rfl⟩ := h
      exact ⟨event, after, rfl, hfd, lastFailure?_eq_none_iff.mp hlast⟩
    | some last =>
      simp only [hlast, Option.some_inj, Prod.mk.injEq] at h
      obtain ⟨rfl, rfl⟩ := h
      obtain ⟨later, rest, rfl, hlat⟩ := ih hlast
      exact ⟨later, rest, rfl, hlat⟩

/-- A final failure that nothing follows is the one to attribute. -/
theorem attributedStep_of_terminal (hev : failure? event = some (activityId, .terminal))
    (hafter : ∀ later ∈ after, failure? later = none)
    (hstep : Unsettled (before ++ event :: after) before activityId step) :
    attributedStep (before ++ event :: after) = some step := by
  refine attributedStep_eq_some_iff.mpr ⟨before, event, after, rfl, ?_,
      fun between later rest hspl => ?_⟩
  · obtain ⟨hsucceeded, htype, -⟩ := hstep
    have hnot : activityId ∉ after.filterMap succeededActivity? := fun hin =>
      hsucceeded (by simp only [List.filterMap_append, List.mem_append, List.filterMap_cons]; right; split <;> simp_all)
    rw [unsuperseded?, hev]
    simp only [if_neg hnot, htype]
  · exact unsuperseded?_eq_none (hafter later (by simp [hspl]))

/-- **Failed-step attribution.** In a history that ends in a failure, the projection names the
latest activity that failed for good and did not succeed afterwards exactly when the last failure of
the lease decides. -/
theorem failed_step_iff {events : List Event} {envelope : EventEnvelope} {error : WorkflowError}
    (failed : currentLeaseTerminal events = some ⟨envelope, .workflowFailed error⟩) :
    (failureProjection events).1 = attributedStep (currentLease events) ↔
      LastFailureDecides (currentLease events) := by
  have hprojection : (failureProjection events).1 = failedActivityStep events := by
    rw [failureProjection, failed]
  rw [hprojection, failedActivityStep]
  generalize currentLease events = lease
  rw [LastFailureDecides]
  cases hlast : lastFailure? lease with
  | none =>
    have hnone := lastFailure?_eq_none_iff.mp hlast
    have hattributed : attributedStep lease = none :=
      attributedStep_eq_none_iff.mpr fun before event after hspl =>
      unsuperseded?_eq_none (hnone event (by simp [hspl]))
    refine iff_of_true ?_ (by simp)
    rw [hattributed]
    simp [failedStepScan_of_none hnone]
  | some last =>
    obtain ⟨before, activityId, kind⟩ := last
    obtain ⟨event, after, rfl, hev, hafter⟩ := exists_of_lastFailure? hlast
    have hcode : ∀ step, ((failedStepScan (before ++ event :: after) ∅ none).bind fun found =>
        if found.1 ∈ (before ++ event :: after).filterMap succeededActivity? ∨ found.2 = "" then none else some found.2) =
          some step ↔ Unsettled (before ++ event :: after) before activityId step := by
      intro step
      rw [failedStepScan_of_last hev hafter, Option.bind_some, Unsettled]
      cases htype : newest (scheduledType? activityId) before with
      | none => simp
      | some step' => by_cases hemp : step' = "" <;> simp <;> grind
    -- There is one last failure, so that the quantifiers over it fall away.
    have hsingle : ∀ decides : List Event → ActivityId → ActivityErrorKind → Prop,
        (∀ before' id' kind', some (before, activityId, kind) = some (before', id', kind') →
          decides before' id' kind') ↔ decides before activityId kind := fun decides =>
      ⟨fun h => h _ _ _ rfl, fun h before' id' kind' heq => by cases heq; exact h⟩
    rw [hsingle]
    generalize ((failedStepScan (before ++ event :: after) ∅ none).bind _) = found at hcode
    cases found with
    | none =>
      have hnone : ∀ step, ¬ Unsettled (before ++ event :: after) before activityId step := fun step hstep =>
        nomatch (hcode step).mpr hstep
      refine (eq_comm.trans attributedStep_eq_none_iff).trans
        ⟨fun h => ⟨fun step hstep => absurd hstep (hnone step), fun _ => h⟩,
        fun h => h.2 hnone⟩
    | some step =>
      have hstep := (hcode step).mp rfl
      constructor
      · refine fun h => ⟨fun step' hstep' => .inr ?_, fun hnone => absurd hstep (hnone step)⟩
        obtain rfl := Option.some.inj ((hcode step').mpr hstep')
        exact attributedStep_eq_some_iff.mp h.symm
      · intro h
        rcases h.1 step hstep with rfl | hlast
        · exact (attributedStep_of_terminal hev hafter hstep).symm
        · exact (attributedStep_eq_some_iff.mpr hlast).symm

/-- A charge is declined for good; a shipment fails once, is tried again and completes. -/
def declinedOrder : List Event :=
  [⟨⟨1, 0, ⟨7⟩⟩, .workflowStarted "order" .empty ⟨0⟩ none ⟨"v1"⟩⟩,
    ⟨⟨2, 0, ⟨7⟩⟩, .activityScheduled ⟨0⟩ "charge" .empty "default" none⟩,
    ⟨⟨3, 0, ⟨7⟩⟩, .activityScheduled ⟨1⟩ "ship" .empty "default" none⟩,
    ⟨⟨4, 0, ⟨7⟩⟩, .activityFailed ⟨0⟩ ⟨.terminal, "declined", none⟩ 1⟩,
    ⟨⟨5, 0, ⟨7⟩⟩, .activityFailed ⟨1⟩ ⟨.retryable, "no truck", none⟩ 1⟩,
    ⟨⟨6, 0, ⟨7⟩⟩, .activityCompleted ⟨1⟩ .empty 2⟩,
    ⟨⟨7, 0, ⟨7⟩⟩, .workflowFailed ⟨"declined", none⟩⟩]

theorem failed_step_iff_declinedOrder :
    (failureProjection declinedOrder).1 = attributedStep (currentLease declinedOrder) ↔
      LastFailureDecides (currentLease declinedOrder) :=
  failed_step_iff (show currentLeaseTerminal declinedOrder =
      some ⟨⟨7, 0, ⟨7⟩⟩, .workflowFailed ⟨"declined", none⟩⟩ by decide)

/-- The retried shipment hides the declined charge. -/
theorem retried_activity_hides_failure :
    (failureProjection declinedOrder).1 = none ∧ attributedStep (currentLease declinedOrder) =
      some "charge" :=
  ⟨by decide, by decide⟩

end Aion
