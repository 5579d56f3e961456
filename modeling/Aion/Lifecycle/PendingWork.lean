import Aion.Durability.Replay
import Aion.Library.LastWins
import Aion.Lifecycle.Successors
import Aion.Runtime.CollectSettlement

/-!
# The work a continue would leave behind

A run continues as new only when no work of it is pending (`guard_no_pending_work`,
`lifecycle/continue_as_new.rs`). The guard goes through the whole history with two sets: an activity
is pending from an attempt to any outcome, a child from its start to any terminal. The replay cursor
reads the run's own segment, and for it a failed attempt that may be retried, or that a reopen
supersedes, settles nothing.

`guard_exact_iff` says when the two come to the same answer. `retryingMember_passes` is a run whose
activity is between two attempts, and the guard lets it go.
-/

namespace Aion

open HistoryCursor Scan

/-! ### What the guard counts -/

/-- Whether the event opens the activity for the guard or closes it. -/
def activityMark? (activityId : ActivityId) (event : Event) : Option Bool :=
  match event.body with
  | .activityScheduled scheduled .. => if scheduled = activityId then some true else none
  | .activityStarted started _ => if started = activityId then some true else none
  | .activityCompleted completed .. => if completed = activityId then some false else none
  | .activityFailed failed .. => if failed = activityId then some false else none
  | .activityCancelled cancelled _ => if cancelled = activityId then some false else none
  | _ => none

/-- Whether the event starts the child or ends it. -/
def childMark? (child : WorkflowId) (event : Event) : Option Bool :=
  match event.body with
  | .childWorkflowStarted started .. => if started = child then some true else none
  | .childWorkflowCompleted completed _ => if completed = child then some false else none
  | .childWorkflowFailed failed _ => if failed = child then some false else none
  | .childWorkflowCancelled cancelled => if cancelled = child then some false else none
  | _ => none

/-- The last event of the activity opened it. -/
def OpenActivity (events : List Event) (activityId : ActivityId) : Prop :=
  newest (activityMark? activityId) events = some true

/-- The last event of the child started it. -/
def OpenChild (events : List Event) (child : WorkflowId) : Prop :=
  newest (childMark? child) events = some true

/-- One event of the guard's loop. -/
def pendingStep (pending : List ActivityId × List WorkflowId) (event : Event) :
    List ActivityId × List WorkflowId :=
  match event.body with
  | .activityScheduled activityId .. => (pending.1.insert activityId, pending.2)
  | .activityStarted activityId _ => (pending.1.insert activityId, pending.2)
  | .activityCompleted activityId .. => (pending.1.erase activityId, pending.2)
  | .activityFailed activityId .. => (pending.1.erase activityId, pending.2)
  | .activityCancelled activityId _ => (pending.1.erase activityId, pending.2)
  | .childWorkflowStarted childWorkflowId .. => (pending.1, pending.2.insert childWorkflowId)
  | .childWorkflowCompleted childWorkflowId _ => (pending.1, pending.2.erase childWorkflowId)
  | .childWorkflowFailed childWorkflowId _ => (pending.1, pending.2.erase childWorkflowId)
  | .childWorkflowCancelled childWorkflowId => (pending.1, pending.2.erase childWorkflowId)
  | _ => pending

theorem pendingWork_eq (history : List Event) :
    pendingWork history = history.foldl pendingStep ([], []) := rfl

section Guard

variable {history : List Event} {activityId : ActivityId} {child : WorkflowId}
  {pending : List ActivityId × List WorkflowId}

/-- The lists are sets. -/
def NodupPending (pending : List ActivityId × List WorkflowId) : Prop :=
  pending.1.Nodup ∧ pending.2.Nodup

theorem nodupPending_step (pending : List ActivityId × List WorkflowId) (event : Event)
    (h : NodupPending pending) : NodupPending (pendingStep pending event) := by
  obtain ⟨envelope, body⟩ := event
  obtain ⟨hacts, hchildren⟩ := h
  cases body with
  | activityScheduled => exact ⟨hacts.insert, hchildren⟩
  | activityStarted => exact ⟨hacts.insert, hchildren⟩
  | activityCompleted => exact ⟨hacts.erase _, hchildren⟩
  | activityFailed => exact ⟨hacts.erase _, hchildren⟩
  | activityCancelled => exact ⟨hacts.erase _, hchildren⟩
  | childWorkflowStarted => exact ⟨hacts, hchildren.insert⟩
  | childWorkflowCompleted => exact ⟨hacts, hchildren.erase _⟩
  | childWorkflowFailed => exact ⟨hacts, hchildren.erase _⟩
  | childWorkflowCancelled => exact ⟨hacts, hchildren.erase _⟩
  | _ => exact ⟨hacts, hchildren⟩

/-- What an insertion says of a member. -/
theorem mem_insert_eq {α : Type} [DecidableEq α] (a b : α) (l : List α) :
    decide (a ∈ l.insert b) = (if b = a then some true else none).getD (decide (a ∈ l)) := by
  by_cases h : b = a
  · simp [h]
  · simp [h, Ne.symm h]

/-- What an erasure says of a member. -/
theorem mem_erase_eq {α : Type} [DecidableEq α] (a b : α) {l : List α} (hnd : l.Nodup) :
    decide (a ∈ l.erase b) = (if b = a then some false else none).getD (decide (a ∈ l)) := by
  by_cases h : b = a
  · simp [h, hnd.mem_erase_iff]
  · simp [h, Ne.symm h, hnd.mem_erase_iff]

theorem mem_activities_step (pending : List ActivityId × List WorkflowId) (event : Event)
    (h : NodupPending pending) :
    decide (activityId ∈ (pendingStep pending event).1) = (activityMark? activityId event).getD
      (decide (activityId ∈ pending.1)) := by
  obtain ⟨envelope, body⟩ := event
  cases body with
  | activityScheduled => exact mem_insert_eq _ _ _
  | activityStarted => exact mem_insert_eq _ _ _
  | activityCompleted => exact mem_erase_eq _ _ h.1
  | activityFailed => exact mem_erase_eq _ _ h.1
  | activityCancelled => exact mem_erase_eq _ _ h.1
  | _ => rfl

theorem mem_children_step (pending : List ActivityId × List WorkflowId) (event : Event)
    (h : NodupPending pending) :
    decide (child ∈ (pendingStep pending event).2) =
      (childMark? child event).getD (decide (child ∈ pending.2)) := by
  obtain ⟨envelope, body⟩ := event
  cases body with
  | childWorkflowStarted => exact mem_insert_eq _ _ _
  | childWorkflowCompleted => exact mem_erase_eq _ _ h.2
  | childWorkflowFailed => exact mem_erase_eq _ _ h.2
  | childWorkflowCancelled => exact mem_erase_eq _ _ h.2
  | _ => rfl

theorem mem_pendingActivities_iff :
    activityId ∈ (pendingWork history).1 ↔ OpenActivity history activityId := by
  have hread := @read_foldl_of_invariant _ _ _ pendingStep (fun pending => decide (activityId ∈ pending.1)) _ NodupPending
    nodupPending_step mem_activities_step history ([], []) ⟨.nil, .nil⟩
  rw [pendingWork_eq, OpenActivity, ← decide_eq_true_iff (p := activityId ∈ _), hread]
  cases newest (activityMark? activityId) history <;> simp

theorem mem_pendingChildren_iff : child ∈ (pendingWork history).2 ↔ OpenChild history child := by
  have hread := @read_foldl_of_invariant _ _ _ pendingStep (fun pending => decide (child ∈ pending.2)) _ NodupPending
    nodupPending_step mem_children_step history ([], []) ⟨.nil, .nil⟩
  rw [pendingWork_eq, OpenChild, ← decide_eq_true_iff (p := child ∈ _), hread]
  cases newest (childMark? child) history <;> simp

/-- The guard passes when the whole history leaves nothing open. -/
theorem guardNoPendingWork_iff : guardNoPendingWork history = .ok () ↔
    (∀ activityId, ¬ OpenActivity history activityId) ∧ ∀ child, ¬ OpenChild history child := by
  have hguard : guardNoPendingWork history = .ok () ↔ (pendingWork history).1 = [] ∧ (pendingWork history).2 = [] := by
    simp only [guardNoPendingWork]
    split_ifs with hemp
    · exact iff_of_true rfl hemp
    · exact iff_of_false (by simp) hemp
  rw [hguard, List.eq_nil_iff_forall_not_mem, List.eq_nil_iff_forall_not_mem]
  simp only [mem_pendingActivities_iff, mem_pendingChildren_iff]

end Guard

/-! ### What the cursor takes as settled -/

/-- Every scheduled activity of the run is resolved, and every child it started has ended. -/
structure RunSettled (segment : List Event) (cursor : HistoryCursor) : Prop where
  activities : ∀ activityId, (∃ event ∈ segment, isScheduledOf activityId event) →
    ∃ events, resolveActivityLive cursor activityId = .matched events
  children : ∀ before started after child, segment = before ++ started :: after →
    childMark? child started = some true →
    ∃ later ∈ after, childMark? child later = some false

/-- The outcome stands, given what follows it: a completion or a cancellation, or a failure for good
that no later reopen and no later attempt or outcome supersedes. -/
def OutcomeStands (activityId : ActivityId) (outcome : Event) (after : List Event) : Prop :=
  match outcome.body with
  | .activityFailed _ error _ => error.isRetryable = false ∧
      (∀ later ∈ after, isReopenOf activityId later = false) ∧ ∀ later ∈ after,
        isActivityAttemptOrOutcome activityId later = false
  | _ => True

/-- Some outcome of the activity after a scheduling stands. -/
def Settles (segment : List Event) (activityId : ActivityId) : Prop :=
  ∃ before outcome after, segment = before ++ outcome :: after ∧
    (∃ earlier ∈ before, isScheduledOf activityId earlier) ∧
    isActivityOutcome activityId outcome ∧ OutcomeStands activityId outcome after

variable {before after : List Event}

section Cursor

variable {segment : List Event} {activityId : ActivityId}

theorem settlesAt_split_iff {outcome : Event} :
    settlesAt (before ++ outcome :: after) activityId before.length ↔
      isActivityOutcome activityId outcome ∧ OutcomeStands activityId outcome after := by
  rw [settlesAt_split]
  obtain ⟨envelope, body⟩ := outcome
  cases body <;> simp [OutcomeStands]

/-- The cursor resolves a scheduled activity when an outcome of it stands. -/
theorem matched_iff_settles (scheduled : ∃ event ∈ segment, isScheduledOf activityId event) :
    (∃ events, resolveActivityLive (start segment) activityId = .matched events) ↔
      Settles segment activityId := by
  obtain ⟨index, first⟩ := exists_isLeast_schedulesAt scheduled
  constructor
  · rintro ⟨events, hmatch⟩
    obtain ⟨last, hlt, hsets, -⟩ := exists_settlesAt_of_matched first hmatch
    have hlast := lt_length_of_settlesAt hsets
    have hspl : segment = segment.take last ++ segment[last] :: segment.drop (last + 1) := by
      rw [← List.drop_eq_getElem_cons hlast, List.take_append_drop]
    have hlen : (segment.take last).length = last := by
      rw [List.length_take]
      omega
    obtain ⟨hout, hstd⟩ := settlesAt_split_iff.mp (by rw [← hspl, hlen]; exact hsets)
    refine ⟨_, _, _, hspl, ?_, hout, hstd⟩
    obtain ⟨envelope, activityType, input, taskQueue, node, hget⟩ := schedulesAt_iff.mp first.1
    refine ⟨⟨envelope, .activityScheduled activityId activityType input taskQueue node⟩,
        List.mem_of_getElem? (i := index) ?_,
      activityType, input, taskQueue, node, rfl⟩
    rw [List.getElem?_take_of_lt hlt, hget]
  · rintro ⟨before, outcome, after, rfl, ⟨earlier, hmem, hsched⟩, hout, hstd⟩
    have hsets : settlesAt (before ++ outcome :: after) activityId before.length :=
      settlesAt_split_iff.mpr ⟨hout, hstd⟩
    -- the first scheduling is not after this one
    have hindex : index < before.length := by
      obtain ⟨k, hk⟩ := List.getElem?_of_mem hmem
      have hlt := (List.getElem?_eq_some_iff.mp hk).1
      refine (first.2 (schedulesAt_of_get ?_ hsched)).trans_lt hlt
      rwa [List.getElem?_append_left hlt]
    rw [resolveActivityLive_eq first]
    rcases walkActivity_eq (before ++ outcome :: after) activityId (index + 1) [index] with ⟨last,
      -, hwalk⟩ | ⟨hnone, -⟩
    · exact ⟨_, by rw [hwalk]⟩
    · exact absurd hsets (hnone _ hindex)

/-- The run's children have ended when none of it is open. -/
theorem children_settled_iff :
    (∀ before started after child, segment = before ++ started :: after →
        childMark? child started = some true →
      ∃ later ∈ after, childMark? child later = some false) ↔
      ∀ child, ¬ OpenChild segment child := by
  constructor
  · intro h child hopen
    obtain ⟨before, started, after, hspl, hstrt, hafter⟩ := newest_eq_true_iff.mp hopen
    obtain ⟨later, hlat, hended⟩ := h before started after child hspl hstrt
    exact hafter later hlat hended
  · intro h before started after child hspl hstrt
    by_contra hnone
    push Not at hnone
    exact h child (newest_eq_true_iff.mpr ⟨before, started, after, hspl, hstrt, hnone⟩)

/-- The activity is scheduled in the run and nothing settles it there. -/
def Unresolved (segment : List Event) (activityId : ActivityId) : Prop :=
  (∃ event ∈ segment, isScheduledOf activityId event) ∧ ¬ Settles segment activityId

theorem runSettled_iff : RunSettled segment (start segment) ↔
    (∀ activityId, ¬ Unresolved segment activityId) ∧ ∀ child, ¬ OpenChild segment child := by
  constructor
  · refine fun h => ⟨fun activityId hunres => ?_, children_settled_iff.mp h.children⟩
    exact hunres.2 ((matched_iff_settles hunres.1).mp (h.activities activityId hunres.1))
  · refine fun h => ⟨fun activityId hsched => ?_, children_settled_iff.mpr h.2⟩
    by_contra hnone
    exact h.1 activityId ⟨hsched, fun hsets => hnone ((matched_iff_settles hsched).mpr hsets)⟩

end Cursor

/-! ### Where the two part -/

/-- The event completes or cancels the activity. -/
def endsActivity (activityId : ActivityId) (event : Event) : Prop :=
  match event.body with
  | .activityCompleted completed .. => completed = activityId
  | .activityCancelled cancelled _ => cancelled = activityId
  | _ => False

/-- The activity's last event in the run is a failed attempt that may be retried, or that a later
reopen supersedes, and it was not completed or cancelled before. -/
structure AwaitsAttempt (segment : List Event) (activityId : ActivityId) : Prop where
  scheduled : ∃ event ∈ segment, isScheduledOf activityId event
  failed : ∃ before failure after error attempt, segment = before ++ failure :: after ∧
    failure.body = .activityFailed activityId error attempt ∧
      (∀ later ∈ after, activityMark? activityId later = none) ∧
      (error.isRetryable ∨ ∃ later ∈ after, isReopenOf activityId later)
  unended : ∀ before event after, segment = before ++ event :: after →
    (∃ earlier ∈ before, isScheduledOf activityId earlier) →
    ¬ endsActivity activityId event

/-- Work that counts for the guard alone: an activity left open that the run does not schedule or
has settled, or a child left open of which the run has no event. -/
def OpenForGuardAlone (history segment : List Event) : Prop :=
  (∃ activityId, OpenActivity history activityId ∧
    ((∀ event ∈ segment, ¬ isScheduledOf activityId event) ∨ Settles segment activityId)) ∨
  ∃ child, OpenChild history child ∧ ∀ event ∈ segment, childMark? child event = none

/-- Work of the run that counts for both: an activity left open that nothing settles, or a child
left open. -/
def OpenForBoth (history segment : List Event) : Prop :=
  (∃ activityId, OpenActivity history activityId ∧ Unresolved segment activityId) ∨
    ∃ child, OpenChild segment child

section Parting

variable {history earlier segment : List Event} {activityId : ActivityId} {child : WorkflowId}
  {event : Event}

theorem activityMark?_of_scheduled (h : isScheduledOf activityId event) :
    activityMark? activityId event = some true := by
  obtain ⟨activityType, input, taskQueue, node, hbody⟩ := h
  simp [activityMark?, hbody]

theorem activityMark?_eq_false_iff :
    activityMark? activityId event = some false ↔ isActivityOutcome activityId event := by
  obtain ⟨envelope, body⟩ := event
  cases body <;> simp [activityMark?, isActivityOutcome]

theorem activityMark?_isSome_of_attempt (h : isActivityAttemptOrOutcome activityId event) :
    activityMark? activityId event ≠ none := by
  obtain ⟨envelope, body⟩ := event
  cases body <;> simp_all [activityMark?, isActivityAttemptOrOutcome]

/-- What the run schedules is open at the end when the run leaves it open. -/
theorem newest_activityMark?_of_scheduled (earlier : List Event)
    (scheduled : ∃ event ∈ segment, isScheduledOf activityId event) :
    ∃ isOpen, newest (activityMark? activityId) segment = some isOpen ∧
      newest (activityMark? activityId) (earlier ++ segment) = some isOpen := by
  obtain ⟨event, hev, hsched⟩ := scheduled
  cases hmark : newest (activityMark? activityId) segment with
  | none =>
    have hnone := newest_eq_none_iff.mp hmark event hev
    rw [activityMark?_of_scheduled hsched] at hnone
    cases hnone
  | some isOpen => exact ⟨isOpen, rfl, by rw [newest_append, hmark, Option.some_or]⟩

/-- No outcome settles an activity between two attempts. -/
theorem AwaitsAttempt.not_settles (h : AwaitsAttempt segment activityId) :
    ¬ Settles segment activityId := by
  obtain ⟨before, failure, after, error, attempt, hspl, hbody, hquiet, hsuperseded⟩ := h.failed
  rintro ⟨before', outcome, after', hspl', hsched, hout, hstd⟩
  have hunended := h.unended before' outcome after' hspl' hsched
  obtain ⟨envelope, body⟩ := outcome
  cases body with
  | activityCompleted completed result attempt =>
    exact hunended (by simpa [isActivityOutcome, endsActivity] using hout)
  | activityCancelled cancelled attempt =>
    exact hunended (by simpa [isActivityOutcome, endsActivity] using hout)
  | activityFailed failed error' attempt' =>
    obtain ⟨hfinal, hreopen, hlat⟩ := hstd
    rcases compare_splits (hspl.symm.trans hspl') with ⟨rfl, rfl⟩ | hmem | hmem
    · cases hbody
      rcases hsuperseded with hretry | ⟨later, hmem, hreopened⟩
      · rw [hretry] at hfinal
        cases hfinal
      · rw [hreopen later hmem] at hreopened
        cases hreopened
    · have hnone := hquiet _ hmem
      rw [activityMark?_eq_false_iff.mpr hout] at hnone
      cases hnone
    · have hnot := hlat _ hmem
      simp [isActivityAttemptOrOutcome, hbody] at hnot
  | _ => cases hout

/-- The guard has closed it. -/
theorem AwaitsAttempt.not_open (h : AwaitsAttempt segment activityId) (earlier : List Event) :
    ¬ OpenActivity (earlier ++ segment) activityId := by
  obtain ⟨before, failure, after, error, attempt, hspl, hbody, hquiet, -⟩ := h.failed
  have hcl : newest (activityMark? activityId) (earlier ++ segment) = some false := by
    refine newest_eq_some_iff.mpr ⟨earlier ++ before, failure, after, by rw [hspl, List.append_assoc], ?_, hquiet⟩
    simp [activityMark?, hbody]
  rw [OpenActivity, hcl]
  simp

/-- Nothing completes or cancels what is not settled. -/
theorem Unresolved.unended (h : Unresolved segment activityId)
    (hspl : segment = before ++ event :: after)
    (hsched : ∃ earlier ∈ before, isScheduledOf activityId earlier) :
    ¬ endsActivity activityId event := by
  intro hends
  refine h.2 ⟨before, event, after, hspl, hsched, ?_, ?_⟩
  · obtain ⟨envelope, body⟩ := event
    cases body <;> simp_all [endsActivity, isActivityOutcome]
  · obtain ⟨envelope, body⟩ := event
    cases body <;> simp_all [endsActivity, OutcomeStands]

/-- Behind its last outcome the activity is not scheduled again. -/
theorem scheduled_before_outcome (hmark : activityMark? activityId event = some false)
    (hquiet : ∀ later ∈ after, activityMark? activityId later = none)
    (hsched : ∃ scheduled ∈ before ++ event :: after, isScheduledOf activityId scheduled) :
    ∃ scheduled ∈ before, isScheduledOf activityId scheduled := by
  obtain ⟨scheduled, hmem, hev⟩ := hsched
  have hopens := activityMark?_of_scheduled hev
  rcases List.mem_append.mp hmem with hmem | hmem
  · exact ⟨scheduled, hmem, hev⟩
  · rcases List.mem_cons.mp hmem with rfl | hmem
    · rw [hmark] at hopens
      cases hopens
    · rw [hquiet scheduled hmem] at hopens
      cases hopens

/-- What nothing settles and the guard has closed failed last, and may be tried again. -/
theorem Unresolved.awaitsAttempt (h : Unresolved segment activityId)
    (hcl : ¬ OpenActivity (earlier ++ segment) activityId) : AwaitsAttempt segment activityId := by
  obtain ⟨isOpen, hseg, hhist⟩ := newest_activityMark?_of_scheduled earlier h.1
  obtain rfl : isOpen = false := by
    rw [OpenActivity, hhist, Option.some.injEq] at hcl
    exact Bool.not_eq_true _ ▸ hcl
  obtain ⟨before, outcome, after, rfl, hmark, hquiet⟩ := newest_eq_some_iff.mp hseg
  have hout := activityMark?_eq_false_iff.mp hmark
  have hfalls : ¬ OutcomeStands activityId outcome after := fun hstd =>
    h.2 ⟨before, outcome, after, rfl, scheduled_before_outcome hmark hquiet h.1, hout, hstd⟩
  refine ⟨h.1, ?_, fun _ _ _ => h.unended⟩
  obtain ⟨envelope, body⟩ := outcome
  cases body with
  | activityCompleted completed result attempt => exact absurd trivial hfalls
  | activityCancelled cancelled attempt => exact absurd trivial hfalls
  | activityFailed failed error attempt =>
    obtain rfl : failed = activityId := by simpa [isActivityOutcome] using hout
    refine ⟨before, _, after, error, attempt, rfl, rfl, hquiet, ?_⟩
    by_contra hnot
    push Not at hnot
    refine hfalls ⟨by simpa using hnot.1, fun later hlat => by simpa using hnot.2 later hlat, fun later hlat => ?_⟩
    by_contra hatt
    exact activityMark?_isSome_of_attempt (by simpa using hatt) (hquiet later hlat)
  | _ => cases hout

/-- An activity between two attempts is what the cursor goes on for and the guard has closed. -/
theorem awaitsAttempt_iff : AwaitsAttempt segment activityId ↔
    Unresolved segment activityId ∧ ¬ OpenActivity (earlier ++ segment) activityId := by
  constructor
  · exact fun h => ⟨⟨h.scheduled, h.not_settles⟩, h.not_open earlier⟩
  · rintro ⟨hunres, hcl⟩
    exact hunres.awaitsAttempt hcl

/-- A child that a history leaves open is one of the run, or one it has no event of. -/
theorem openChild_iff :
    OpenChild (earlier ++ segment) child ↔
    OpenChild segment child ∨ OpenChild (earlier ++ segment) child ∧ ∀ event ∈ segment,
      childMark? child event = none := by
  constructor
  · intro hopen
    cases hmark : newest (childMark? child) segment with
    | none => exact .inr ⟨hopen, newest_eq_none_iff.mp hmark⟩
    | some isOpen =>
      rw [OpenChild, newest_append, hmark, Option.some_or] at hopen
      exact .inl (hmark.trans hopen)
  · rintro (hopen | ⟨hopen, -⟩)
    · rw [OpenChild, newest_append, hopen, Option.some_or]
    · exact hopen

/-- What is open for the guard is open for both or for it alone. -/
theorem guard_pending_iff : (∃ activityId, OpenActivity (earlier ++ segment) activityId) ∨
      (∃ child, OpenChild (earlier ++ segment) child) ↔
    OpenForBoth (earlier ++ segment) segment ∨ OpenForGuardAlone (earlier ++ segment) segment := by
  constructor
  · rintro (⟨activityId, hopen⟩ | ⟨child, hopen⟩)
    · by_cases hunres : Unresolved segment activityId
      · exact .inl (.inl ⟨activityId, hopen, hunres⟩)
      · refine .inr (.inl ⟨activityId, hopen, ?_⟩)
        by_contra hnot
        push Not at hnot
        exact hunres hnot
    · rcases openChild_iff.mp hopen with hrun | ⟨-, hnone⟩
      · exact .inl (.inr ⟨child, hrun⟩)
      · exact .inr (.inr ⟨child, hopen, hnone⟩)
  · rintro ((⟨activityId, hopen, -⟩ | ⟨child, hopen⟩) | ⟨activityId, hopen, -⟩ | ⟨child, hopen, -⟩)
    · exact .inl ⟨activityId, hopen⟩
    · exact .inr ⟨child, openChild_iff.mpr (.inl hopen)⟩
    · exact .inl ⟨activityId, hopen⟩
    · exact .inr ⟨child, hopen⟩

/-- What is open for the cursor is open for both or between two attempts. -/
theorem run_unsettled_iff :
    (∃ activityId, Unresolved segment activityId) ∨ (∃ child, OpenChild segment child) ↔
    OpenForBoth (earlier ++ segment) segment ∨ ∃ activityId, AwaitsAttempt segment activityId := by
  constructor
  · rintro (⟨activityId, hunres⟩ | hchild)
    · by_cases hopen : OpenActivity (earlier ++ segment) activityId
      · exact .inl (.inl ⟨activityId, hopen, hunres⟩)
      · exact .inr ⟨activityId, awaitsAttempt_iff.mpr ⟨hunres, hopen⟩⟩
    · exact .inl (.inr hchild)
  · rintro ((⟨activityId, -, hunres⟩ | hchild) | ⟨activityId, hawaits⟩)
    · exact .inl ⟨activityId, hunres⟩
    · exact .inr hchild
    · exact .inl ⟨activityId, ((@awaitsAttempt_iff earlier _ _).mp hawaits).1⟩

end Parting

/-- **What the guard lets go.** It passes exactly the runs that are settled for the cursor if and
only if some work is pending for both, or there is an activity between two attempts exactly when
there is work that is pending for the guard alone. -/
theorem guard_exact_iff {history segment : List Event} {run : RunId} {cursor : HistoryCursor}
    (current : currentRunSegment history run = .ok segment)
    (opened : HistoryCursor.new segment = .ok cursor) :
    (guardNoPendingWork history = .ok () ↔ RunSettled segment cursor) ↔
      OpenForBoth history segment ∨ ((∃ activityId, AwaitsAttempt segment activityId) ↔
          OpenForGuardAlone history segment) := by
  obtain ⟨-, rfl⟩ := (new_eq_ok_iff _ _).mp opened
  obtain ⟨earlier, rfl⟩ : ∃ earlier, history = earlier ++ segment :=
    ⟨_, (append_of_currentRunSegment current).symm⟩
  have hguard : ¬ guardNoPendingWork (earlier ++ segment) = .ok () ↔
      OpenForBoth (earlier ++ segment) segment ∨ OpenForGuardAlone (earlier ++ segment) segment := by
    rw [← guard_pending_iff, guardNoPendingWork_iff, not_and_or, not_forall, not_forall]
    simp only [not_not]
  have hrun : ¬ RunSettled segment (start segment) ↔
      OpenForBoth (earlier ++ segment) segment ∨ ∃ activityId, AwaitsAttempt segment activityId := by
    rw [← run_unsettled_iff, runSettled_iff, not_and_or, not_forall, not_forall]
    simp only [not_not]
  rw [← @not_iff_not (guardNoPendingWork (earlier ++ segment) = .ok ()), hguard, hrun]
  by_cases hboth : OpenForBoth (earlier ++ segment) segment
  · simp only [hboth, true_or]
  · simp only [hboth, false_or]
    exact iff_comm

/-- An activity that completed after a retry. -/
def retriedMember : List Event :=
  numbered
    [.workflowStarted "order" .empty ⟨0⟩ none ⟨"v1"⟩,
     .activityScheduled ⟨0⟩ "charge" .empty "default" none,
     .activityStarted ⟨0⟩ 1,
     .activityFailed ⟨0⟩ ⟨.retryable, "timeout", none⟩ 1,
     .activityStarted ⟨0⟩ 2,
     .activityCompleted ⟨0⟩ .empty 2]

/-- It is settled, and the guard lets the run go. -/
theorem guard_exact_iff_retriedMember :
    guardNoPendingWork retriedMember = .ok () ∧ RunSettled retriedMember (start retriedMember) ∧
      (OpenForBoth retriedMember retriedMember ∨
        ((∃ activityId, AwaitsAttempt retriedMember activityId) ↔
            OpenForGuardAlone retriedMember retriedMember)) := by
  have hguard : guardNoPendingWork retriedMember = .ok () := rfl
  have hsett : RunSettled retriedMember (start retriedMember) := by
    refine ⟨?_, ?_⟩
    · rintro activityId ⟨event, hev, activityType, input, taskQueue, node, hbody⟩
      obtain rfl : activityId = ⟨0⟩ := by
        simp only [retriedMember, numbered, List.mapIdx_cons, List.mapIdx_nil, List.mem_cons, List.not_mem_nil, or_false] at hev
        rcases hev with rfl | rfl | rfl | rfl | rfl | rfl <;> cases hbody
        rfl
      exact ⟨_, rfl⟩
    · intro before started after child hspl hstrt
      have hmem : started ∈ retriedMember := by
        rw [hspl]
        exact List.mem_append_right _ List.mem_cons_self
      simp only [retriedMember, numbered, List.mapIdx_cons, List.mapIdx_nil, List.mem_cons,
        List.not_mem_nil, or_false] at hmem
      rcases hmem with rfl | rfl | rfl | rfl | rfl | rfl <;> cases hstrt
  exact ⟨hguard, hsett, (@guard_exact_iff _ _ ⟨0⟩ _ rfl rfl).mp (iff_of_true hguard hsett)⟩

/-- Between the attempts the guard lets the run go as well. -/
theorem retryingMember_passes :
    guardNoPendingWork retryingMember = .ok () ∧
    resolveActivityLive (start retryingMember) ⟨0⟩ = .exhausted ∧
      ¬ (guardNoPendingWork retryingMember = .ok () ↔
          RunSettled retryingMember (start retryingMember)) := by
  have hlive : resolveActivityLive (start retryingMember) ⟨0⟩ = .exhausted := rfl
  refine ⟨rfl, hlive, fun h => ?_⟩
  obtain ⟨events, hmatch⟩ := (h.mp rfl).activities ⟨0⟩ ⟨_, .tail _ (.head _), _, _, _, _, rfl⟩
  rw [hlive] at hmatch
  cases hmatch

end Aion
