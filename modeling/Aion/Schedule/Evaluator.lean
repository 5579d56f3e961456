import Aion.Schedule.Trigger
import Mathlib.Data.Finset.Basic
import Mathlib.Logic.Function.Basic

/-!
# The schedule evaluator

The state of a schedule and its projection from recorded events (`state.rs`), and the
evaluator that handles ticks and completions (`evaluator.rs`). The evaluator keeps its own
states in memory; a start is recorded as an event, a skipped or buffered tick is not.

What the injected dependencies answer in a call is a parameter of the call (`Seams`); a call
that fails leaves what it has done up to there.
-/

namespace Aion.Schedule

/-! ### State and projection -/

/-- Per-schedule projection derived from schedule events. -/
structure ScheduleState where
  /-- Schedule resource identifier. -/
  scheduleId : ScheduleId
  /-- Current configuration. -/
  config : ScheduleConfig
  /-- Whether the schedule is paused. -/
  isPaused : Bool
  /-- Whether the schedule has been deleted. -/
  isDeleted : Bool
  /-- Instant of the latest recorded trigger. -/
  lastTriggeredAt : Option Instant
  /-- Next trigger instant. -/
  nextTriggerAt : Instant
  /-- Latest execution started by this schedule. -/
  currentExecution : Option ScheduleExecution
  deriving DecidableEq

variable {Cron : Type} (library : TimeLibrary Cron)

/-- `ScheduleState::created`. -/
def ScheduleState.created (scheduleId : ScheduleId) (config : ScheduleConfig)
    (recordedAt : Instant) : Except ScheduleError ScheduleState := do
  let nextTriggerAt ← nextFireTime library config.trigger recordedAt
  return {
    scheduleId := scheduleId
    config := config
    isPaused := false
    isDeleted := false
    lastTriggeredAt := none
    nextTriggerAt := nextTriggerAt
    currentExecution := none }

/-- `ScheduleState::apply`. -/
def ScheduleState.apply (state : ScheduleState) (event : Event) :
    Except ScheduleError ScheduleState :=
  match event.body with
  | .scheduleCreated scheduleId config => configure scheduleId config
  | .scheduleUpdated scheduleId config => configure scheduleId config
  | .schedulePaused scheduleId =>
    if scheduleId = state.scheduleId then .ok { state with isPaused := true } else .ok state
  | .scheduleResumed scheduleId =>
    if scheduleId = state.scheduleId then do
      let nextTriggerAt ← nextFireTime library state.config.trigger event.recordedAt
      return { state with isPaused := false, nextTriggerAt := nextTriggerAt }
    else .ok state
  | .scheduleDeleted scheduleId =>
    if scheduleId = state.scheduleId then .ok { state with isDeleted := true } else .ok state
  | .scheduleTriggered scheduleId workflowId runId =>
    if scheduleId = state.scheduleId then do
      let nextTriggerAt ← nextFireTime library state.config.trigger event.recordedAt
      return { state with
        lastTriggeredAt := some event.recordedAt
        currentExecution := some ⟨workflowId, runId⟩
        nextTriggerAt := nextTriggerAt }
    else .ok state
  | _ => .ok state
where
  /-- The configuration of a schedule is set. -/
  configure (scheduleId : ScheduleId)
    (config : ScheduleConfig) : Except ScheduleError ScheduleState :=
    if scheduleId = state.scheduleId then do
      let nextTriggerAt ← nextFireTime library config.trigger event.recordedAt
      return { state with config := config, nextTriggerAt := nextTriggerAt }
    else .ok state

/-- One event of `project_schedule_state`: the first creation of a schedule adds its state,
every other event is applied to all. -/
def projectEvent (states : List ScheduleState) (event : Event) :
    Except ScheduleError (List ScheduleState) :=
  match event.body with
  | .scheduleCreated scheduleId config =>
    if states.any fun state => state.scheduleId = scheduleId then states.mapM fun state =>
      state.apply library event
    else do
      let state ← ScheduleState.created library scheduleId config event.recordedAt
      return states ++ [state]
  | _ => states.mapM fun state => state.apply library event

/-- `project_schedule_state`. -/
def projectScheduleState (events : List Event) : Except ScheduleError (List ScheduleState) :=
  events.foldlM (projectEvent library) []

/-- `is_active`. -/
def ScheduleState.isActive (state : ScheduleState) : Bool := !state.isPaused && !state.isDeleted

/-- `record_triggered`. -/
def ScheduleState.recordTriggered (state : ScheduleState) (execution : ScheduleExecution)
    (recordedAt : Instant) : ScheduleState :=
  { state with lastTriggeredAt := some recordedAt, currentExecution := some execution }

/-! ### The evaluator -/

/-- Errors of the evaluator. -/
inductive ScheduleEvaluatorError where
  /-- Trigger parsing or advancement failed. -/
  | trigger (error : ScheduleError)
  /-- There is no state of the schedule. -/
  | scheduleNotFound (scheduleId : ScheduleId)
  /-- A dependency failed. -/
  | sideEffect (reason : String)
  deriving DecidableEq

/-- What the dependencies of the evaluator answer in a call. -/
structure Seams where
  /-- `arm_schedule_timer`. -/
  armScheduleTimer : ScheduleId → Instant → Except ScheduleEvaluatorError Unit
  /-- `start_scheduled_workflow`. -/
  startScheduledWorkflow : String → Payload → SearchAttributes →
    Except ScheduleEvaluatorError ScheduleExecution
  /-- `cancel_scheduled_workflow`. -/
  cancelScheduledWorkflow : ScheduleExecution → String → Except ScheduleEvaluatorError Unit
  /-- Whether the event is recorded. -/
  recordEvent : Except ScheduleEvaluatorError Unit

/-- What became of a tick. -/
inductive TimerEvaluationOutcome where
  /-- A workflow was started and an event was recorded. -/
  | started (execution : ScheduleExecution)
  /-- The tick was skipped. -/
  | skipped
  /-- The tick was buffered. -/
  | buffered
  /-- The schedule is inactive. -/
  | inactive

/-- The evaluator's states and pending ticks, and the events it has recorded. -/
structure ScheduleEvaluator where
  /-- The state of each schedule. -/
  states : ScheduleId → Option ScheduleState
  /-- The schedules with a buffered tick. -/
  pendingTicks : Finset ScheduleId
  /-- The recorded events. -/
  recorded : List Event

/-- The result of a call and the evaluator after it. -/
abbrev Outcome (α : Type) := Except ScheduleEvaluatorError α × ScheduleEvaluator

/-- The second call follows the first when that succeeds. -/
def Outcome.andThen {α β : Type} (first : Outcome α) (next : α → ScheduleEvaluator → Outcome β) :
    Outcome β :=
  match first with
  | (.error error, evaluator) => (.error error, evaluator)
  | (.ok value, evaluator) => next value evaluator

theorem Outcome.andThen_eq_ok {α β : Type} {first : Outcome α}
    {next : α → ScheduleEvaluator → Outcome β} {value : β} {evaluator : ScheduleEvaluator}
    (h : first.andThen next = (.ok value, evaluator)) :
    ∃ a mid, first = (.ok a, mid) ∧ next a mid = (.ok value, evaluator) := by
  obtain ⟨result, mid⟩ := first
  cases result with
  | error error => cases h
  | ok a => exact ⟨a, mid, rfl, h⟩

namespace ScheduleEvaluator

/-- The evaluator with the state of a schedule replaced. -/
def setState (evaluator : ScheduleEvaluator) (scheduleId : ScheduleId) (state : ScheduleState) :
    ScheduleEvaluator :=
  { evaluator with states := Function.update evaluator.states scheduleId (some state) }

@[simp]
theorem setState_states (evaluator : ScheduleEvaluator) (scheduleId : ScheduleId)
    (state : ScheduleState) :
    (evaluator.setState scheduleId state).states = Function.update evaluator.states scheduleId
      (some state) := rfl

@[simp]
theorem setState_pendingTicks (evaluator : ScheduleEvaluator) (scheduleId : ScheduleId)
    (state : ScheduleState) :
    (evaluator.setState scheduleId state).pendingTicks = evaluator.pendingTicks := rfl

/-- The history the schedule events are recorded in. -/
def coordinatorWorkflowId : WorkflowId := ⟨0xa10a00000000000000000004⟩

/-- The evaluator after an event was recorded. -/
def record (evaluator : ScheduleEvaluator) (recordedAt : Instant) (body : EventBody) :
    ScheduleEvaluator :=
  { evaluator with
    recorded := evaluator.recorded ++
      [⟨⟨evaluator.recorded.length + 1, recordedAt, coordinatorWorkflowId⟩, body⟩] }

/-- `upsert_state`. -/
def upsertState (evaluator : ScheduleEvaluator) (state : ScheduleState) : ScheduleEvaluator :=
  let evaluator :=
    if state.isActive then evaluator
    else { evaluator with pendingTicks := evaluator.pendingTicks.erase state.scheduleId }
  evaluator.setState state.scheduleId state

/-- `arm_state_if_active`. -/
def armStateIfActive (seams : Seams) (state : ScheduleState) (evaluator : ScheduleEvaluator) :
    Outcome Bool :=
  if !state.isActive then (.ok false, evaluator)
  else ((seams.armScheduleTimer state.scheduleId state.nextTriggerAt).map fun _ => true, evaluator)

/-- `start_and_record`. -/
def startAndRecord (seams : Seams) (scheduleId : ScheduleId) (recordedAt : Instant)
    (evaluator : ScheduleEvaluator) : Outcome TimerEvaluationOutcome :=
  match evaluator.states scheduleId with
  | none => (.error (.scheduleNotFound scheduleId), evaluator)
  | some state =>
    match seams.startScheduledWorkflow state.config.workflowType state.config.input
      state.config.searchAttributes with
    | .error error => (.error error, evaluator)
    | .ok execution =>
      match seams.recordEvent with
      | .error error => (.error error, evaluator)
      | .ok _ =>
        (.ok (.started execution),
          (evaluator.record recordedAt (.scheduleTriggered scheduleId execution.workflowId execution.runId)).setState
            scheduleId (state.recordTriggered execution recordedAt))

/-- `process_fire`. -/
def processFire (seams : Seams) (scheduleId : ScheduleId) (fireAt : Instant)
    (evaluator : ScheduleEvaluator) : Outcome TimerEvaluationOutcome :=
  match evaluator.states scheduleId with
  | none => (.error (.scheduleNotFound scheduleId), evaluator)
  | some state =>
    match evaluateOverlap state.config.overlapPolicy state.currentExecution
      (scheduleId ∈ evaluator.pendingTicks) with
    | .start => startAndRecord seams scheduleId fireAt evaluator
    | .skip => (.ok .skipped, evaluator)
    | .bufferPending =>
      (.ok .buffered, { evaluator with pendingTicks := insert scheduleId evaluator.pendingTicks })
    | .cancelThenStart execution =>
      match seams.cancelScheduledWorkflow execution "schedule overlap policy CancelPrevious" with
      | .error error => (.error error, evaluator)
      | .ok _ =>
        startAndRecord seams scheduleId fireAt (evaluator.setState scheduleId { state with currentExecution := none })

/-- `advance_and_arm`. -/
def advanceAndArm (seams : Seams) (scheduleId : ScheduleId) (after : Instant)
    (evaluator : ScheduleEvaluator) : Outcome Unit :=
  match evaluator.states scheduleId with
  | none => (.error (.scheduleNotFound scheduleId), evaluator)
  | some state =>
    match nextFireTime library state.config.trigger after with
    | .error error => (.error (.trigger error), evaluator)
    | .ok next =>
      let state := { state with nextTriggerAt := next }
      (armStateIfActive seams state (evaluator.setState scheduleId state)).andThen fun _ evaluator => (.ok (), evaluator)

/-- `handle_timer_fired`. -/
def handleTimerFired (seams : Seams) (scheduleId : ScheduleId) (fireAt : Instant)
    (evaluator : ScheduleEvaluator) : Outcome TimerEvaluationOutcome :=
  match evaluator.states scheduleId with
  | none => (.error (.scheduleNotFound scheduleId), evaluator)
  | some state =>
    if !state.isActive then (.ok .inactive, evaluator)
    else
      (processFire seams scheduleId fireAt evaluator).andThen fun outcome evaluator =>
        (advanceAndArm library seams scheduleId fireAt evaluator).andThen fun _ evaluator => (.ok outcome, evaluator)

/-- `complete_current_execution`. -/
def completeCurrentExecution (seams : Seams) (scheduleId : ScheduleId) (completedAt : Instant)
    (evaluator : ScheduleEvaluator) : Outcome (Option ScheduleExecution) :=
  match evaluator.states scheduleId with
  | none => (.error (.scheduleNotFound scheduleId), evaluator)
  | some state =>
    let evaluator := evaluator.setState scheduleId { state with currentExecution := none }
    let pending := scheduleId ∈ evaluator.pendingTicks
    let removed := { evaluator with pendingTicks := evaluator.pendingTicks.erase scheduleId }
    if !state.isActive then (.ok none, removed)
    else if ¬ pending then (.ok none, removed)
    else
      (startAndRecord seams scheduleId completedAt removed).andThen fun outcome evaluator =>
        match outcome with
        | .started execution => (.ok (some execution), evaluator)
        | _ => (.error (.sideEffect "buffered schedule tick did not start a workflow"), evaluator)

/-- `create_schedule_inner`: the creation is recorded, then the evaluator takes the state. -/
def createSchedule (seams : Seams) (scheduleId : ScheduleId) (config : ScheduleConfig)
    (recordedAt : Instant) (evaluator : ScheduleEvaluator) : Outcome ScheduleId :=
  match seams.recordEvent with
  | .error error => (.error error, evaluator)
  | .ok _ =>
    let evaluator := evaluator.record recordedAt (.scheduleCreated scheduleId config)
    match ScheduleState.created library scheduleId config recordedAt with
    | .error error => (.error (.trigger error), evaluator)
    | .ok state =>
      (armStateIfActive seams state (evaluator.upsertState state)).andThen fun _ evaluator => (.ok scheduleId, evaluator)

/-- The state of a schedule after `replace_state_from_events`. -/
def recoveredState (events : List Event) (scheduleId : ScheduleId) :
    Except ScheduleError (Option ScheduleState) :=
  (projectScheduleState library events).map fun states => states.find? fun state =>
    state.scheduleId = scheduleId

/-- What `recover_projected_state` fires and arms of an active schedule. -/
def recoveryPlan (state : ScheduleState) (now : Instant) : Except ScheduleError CatchUpPlan :=
  evaluateCatchUp library state.config.catchUpPolicy state.config.trigger state.nextTriggerAt now

/-! ### What a call that succeeds does -/

variable {library} {seams : Seams} {scheduleId : ScheduleId} {evaluator after : ScheduleEvaluator}

variable {outcome : TimerEvaluationOutcome} {state : ScheduleState} {recordedAt fireAt : Instant}

theorem armStateIfActive_eq_ok {armed : Bool}
    (h : armStateIfActive seams state evaluator = (.ok armed, after)) : after = evaluator := by
  unfold armStateIfActive at h
  split at h
  · cases h
    rfl
  · exact (Prod.mk.inj h).2.symm

theorem startAndRecord_eq_ok (hst : evaluator.states scheduleId = some state)
    (h : startAndRecord seams scheduleId recordedAt evaluator = (.ok outcome, after)) :
    ∃ execution, outcome = .started execution ∧
      after = (evaluator.record recordedAt
          (.scheduleTriggered scheduleId execution.workflowId execution.runId)).setState
        scheduleId (state.recordTriggered execution recordedAt) := by
  unfold startAndRecord at h
  rw [hst] at h
  dsimp only at h
  split at h
  · cases h
  · split at h
    · cases h
    · cases h
      exact ⟨_, rfl, rfl⟩

theorem advanceAndArm_eq_ok {instant : Instant} (hst : evaluator.states scheduleId = some state)
    (h : advanceAndArm library seams scheduleId instant evaluator = (.ok (), after)) :
    ∃ next, nextFireTime library state.config.trigger instant = .ok next ∧
      after = evaluator.setState scheduleId { state with nextTriggerAt := next } := by
  unfold advanceAndArm at h
  rw [hst] at h
  dsimp only at h
  split at h
  · cases h
  · rename_i next hnext
    obtain ⟨armed, mid, harm, h⟩ := Outcome.andThen_eq_ok h
    cases h
    exact ⟨next, hnext, armStateIfActive_eq_ok harm⟩

/-- A tick that fires now starts an execution. -/
def Starts (state : ScheduleState) : Prop :=
  state.currentExecution = none ∨ state.config.overlapPolicy = .allowAll ∨
    state.config.overlapPolicy = .cancelPrevious

theorem processFire_eq_ok (hst : evaluator.states scheduleId = some state)
    (h : processFire seams scheduleId fireAt evaluator = (.ok outcome, after)) :
    (Starts state ∧ ∃ execution, after.states = Function.update evaluator.states scheduleId (some
          (state.recordTriggered execution fireAt)) ∧ after.pendingTicks = evaluator.pendingTicks ∧
        after.recorded = (evaluator.record fireAt
            (.scheduleTriggered scheduleId execution.workflowId
          execution.runId)).recorded) ∨
      ¬ Starts state ∧ after.states = evaluator.states ∧ after.recorded = evaluator.recorded := by
  unfold processFire at h
  rw [hst] at h
  dsimp only at h
  cases hcur : state.currentExecution with
  | none =>
    rw [hcur, evaluateOverlap] at h
    obtain ⟨execution, -, rfl⟩ := startAndRecord_eq_ok hst h
    exact .inl ⟨.inl hcur, execution, rfl, rfl, rfl⟩
  | some running =>
    rw [hcur] at h
    cases hpol : state.config.overlapPolicy with
    | skip =>
      rw [hpol] at h
      cases h
      exact .inr ⟨by simp [Starts, hcur, hpol], rfl, rfl⟩
    | bufferOne =>
      rw [hpol, evaluateOverlap] at h
      by_cases hpend : scheduleId ∈ evaluator.pendingTicks
      · rw [if_pos (decide_eq_true hpend)] at h
        cases h
        exact .inr ⟨by simp [Starts, hcur, hpol], rfl, rfl⟩
      · rw [if_neg (by simpa using hpend)] at h
        cases h
        exact .inr ⟨by simp [Starts, hcur, hpol], rfl, rfl⟩
    | cancelPrevious =>
      rw [hpol, evaluateOverlap] at h
      dsimp only at h
      split at h
      · cases h
      · have hcleared : (evaluator.setState scheduleId { state with currentExecution := none }).states scheduleId =
            some { state with currentExecution := none } := by simp
        obtain ⟨execution, -, rfl⟩ := startAndRecord_eq_ok hcleared h
        refine .inl ⟨.inr (.inr hpol), execution, ?_, rfl, rfl⟩
        simp [record, ScheduleState.recordTriggered]
    | allowAll =>
      rw [hpol, evaluateOverlap] at h
      obtain ⟨execution, -, rfl⟩ := startAndRecord_eq_ok hst h
      exact .inl ⟨.inr (.inl hpol), execution, rfl, rfl, rfl⟩

/-- **A tick**: an inactive schedule ignores it. Otherwise the schedule advances, and the
tick starts an execution that is recorded at its instant, or nothing is recorded. -/
theorem handleTimerFired_eq_ok
    (h : handleTimerFired library seams scheduleId fireAt evaluator = (.ok outcome, after)) :
    ∃ state, evaluator.states scheduleId = some state ∧
      ((state.isActive = false ∧ after = evaluator) ∨
        ∃ next, state.isActive ∧ nextFireTime library state.config.trigger fireAt = .ok next ∧
          ((Starts state ∧ ∃ execution, after.states =
              Function.update evaluator.states scheduleId (some
                { state.recordTriggered execution fireAt with nextTriggerAt := next }) ∧
              after.pendingTicks = evaluator.pendingTicks ∧
              after.recorded = (evaluator.record fireAt
                  (.scheduleTriggered scheduleId execution.workflowId
                execution.runId)).recorded) ∨
            ¬ Starts state ∧
              after.states = Function.update evaluator.states scheduleId
                (some { state with nextTriggerAt := next }) ∧
              after.recorded = evaluator.recorded)) := by
  unfold handleTimerFired at h
  cases hst : evaluator.states scheduleId with
  | none =>
    rw [hst] at h
    cases h
  | some state =>
    rw [hst] at h
    refine ⟨state, rfl, ?_⟩
    dsimp only at h
    cases hact : state.isActive with
    | false =>
      rw [hact] at h
      cases h
      exact .inl ⟨rfl, rfl⟩
    | true =>
      rw [hact, Bool.not_true, if_neg Bool.false_ne_true] at h
      obtain ⟨fired, mid, hfire, h⟩ := Outcome.andThen_eq_ok h
      obtain ⟨_, final, hadvance, h⟩ := Outcome.andThen_eq_ok h
      cases h
      rcases processFire_eq_ok hst hfire with ⟨hstarts, execution, hsts, hpend, hrecd⟩ |
        ⟨hstarts, hsts, hrecd⟩
      · have hmid : mid.states scheduleId = some (state.recordTriggered execution fireAt) := by
          rw [hsts, Function.update_self]
        obtain ⟨next, hnext, rfl⟩ := advanceAndArm_eq_ok hmid hadvance
        refine .inr ⟨next, rfl, hnext, .inl ⟨hstarts, execution, ?_, hpend, hrecd⟩⟩
        rw [setState_states, hsts, Function.update_idem]
      · have hmid : mid.states scheduleId = some state := by rw [hsts, hst]
        obtain ⟨next, hnext, rfl⟩ := advanceAndArm_eq_ok hmid hadvance
        refine .inr ⟨next, rfl, hnext, .inr ⟨hstarts, ?_, hrecd⟩⟩
        rw [setState_states, hsts]

/-- **A completion**: the execution is cleared, and nothing is recorded unless a tick was
pending. -/
theorem completeCurrentExecution_eq_ok {completedAt : Instant} {started : Option ScheduleExecution}
    (h : completeCurrentExecution seams scheduleId completedAt evaluator = (.ok started, after)) :
    ∃ state, evaluator.states scheduleId = some state ∧
      after.pendingTicks ⊆ evaluator.pendingTicks ∧
      (∃ state', after.states = Function.update evaluator.states scheduleId (some state') ∧
        state'.nextTriggerAt = state.nextTriggerAt ∧ state'.config = state.config ∧
          state'.isPaused = state.isPaused ∧
        state'.isDeleted = state.isDeleted) ∧
      (scheduleId ∉ evaluator.pendingTicks → after.recorded = evaluator.recorded) := by
  unfold completeCurrentExecution at h
  cases hst : evaluator.states scheduleId with
  | none =>
    rw [hst] at h
    cases h
  | some state =>
    rw [hst] at h
    refine ⟨state, rfl, ?_⟩
    dsimp only at h
    split_ifs at h with hact hpend
    · cases h
      exact ⟨Finset.erase_subset _ _, ⟨_, rfl, rfl, rfl, rfl, rfl⟩, fun _ => rfl⟩
    · obtain ⟨outcome, mid, hstart, h⟩ := Outcome.andThen_eq_ok h
      obtain ⟨execution, rfl, rfl⟩ := startAndRecord_eq_ok (Function.update_self ..) hstart
      cases h
      refine ⟨Finset.erase_subset _ _, ⟨_, Function.update_idem .., rfl, rfl, rfl, rfl⟩, fun hnot => ?_⟩
      exact absurd hpend hnot
    · cases h
      exact ⟨Finset.erase_subset _ _, ⟨_, rfl, rfl, rfl, rfl, rfl⟩, fun _ => rfl⟩

/-- **A creation**: the schedule is active, and its creation is recorded. -/
theorem createSchedule_eq_ok {config : ScheduleConfig} {created : ScheduleId}
    (h : createSchedule library seams scheduleId config recordedAt evaluator =
        (.ok created, after)) :
    ∃ state, ScheduleState.created library scheduleId config recordedAt = .ok state ∧
      after.states = Function.update evaluator.states scheduleId (some state) ∧
      after.pendingTicks = evaluator.pendingTicks ∧
      after.recorded = (evaluator.record recordedAt
        (.scheduleCreated scheduleId config)).recorded := by
  unfold createSchedule at h
  split at h
  · cases h
  · dsimp only at h
    split at h
    · cases h
    · rename_i state hcrtd
      obtain ⟨armed, mid, harm, h⟩ := Outcome.andThen_eq_ok h
      cases h
      cases armStateIfActive_eq_ok harm
      obtain ⟨next, -, hst⟩ := Result.bind_eq_ok hcrtd
      cases hst
      exact ⟨_, hcrtd, rfl, rfl, rfl⟩

end ScheduleEvaluator

end Aion.Schedule
