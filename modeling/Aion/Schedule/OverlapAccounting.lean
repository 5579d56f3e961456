import Aion.Library.Actions
import Aion.Schedule.RestartAgreement
import Mathlib.Data.List.Perm.Basic

/-!
# Overlap accounting

A schedule's ticks are handed to `handle_timer_fired`, and the completions of its executions to
`complete_current_execution`; the starter, the canceller, the event sink and the timer may refuse
in any call. `Account` keeps, beside the evaluator, what has become of each tick and of each
execution the starter has started.

A completion takes the buffered tick out before it starts it, so a start that is refused loses
the tick (`refused_start_loses_the_tick`). An execution that was started but not recorded is not
the current one. Along calls that meet neither (`Sound`) the accounts are in order
(`overlap_accounting`): no tick is lost or started twice, and under `Skip` and `BufferOne` one
execution is uncompleted at most. The invariant is `InOrder`.
-/

namespace Aion.Schedule

open ScheduleEvaluator

/-! ### What a call asks of the starter and the canceller -/

/-- The execution that the starter starts in `start_and_record`. -/
def startAndRecordStarts (seams : Seams) (scheduleId : ScheduleId) (evaluator : ScheduleEvaluator) :
    Option ScheduleExecution :=
  match evaluator.states scheduleId with
  | none => none
  | some state =>
    (seams.startScheduledWorkflow state.config.workflowType state.config.input state.config.searchAttributes).toOption

/-- What the overlap policy decides of a tick now. -/
def decision (scheduleId : ScheduleId) (state : ScheduleState) (evaluator : ScheduleEvaluator) :
    OverlapDecision :=
  evaluateOverlap state.config.overlapPolicy state.currentExecution
    (scheduleId ∈ evaluator.pendingTicks)

/-- The execution that the canceller cancels in `process_fire`. -/
def processFireCancels (seams : Seams) (scheduleId : ScheduleId) (evaluator : ScheduleEvaluator) :
    Option ScheduleExecution :=
  match evaluator.states scheduleId with
  | none => none
  | some state =>
    match decision scheduleId state evaluator with
    | .cancelThenStart execution =>
      (seams.cancelScheduledWorkflow execution "schedule overlap policy CancelPrevious").toOption.map fun _ => execution
    | _ => none

/-- `process_fire` comes to the starter. -/
def processFireAsks (seams : Seams) (scheduleId : ScheduleId) (evaluator : ScheduleEvaluator) :
    Bool :=
  match evaluator.states scheduleId with
  | none => false
  | some state =>
    match decision scheduleId state evaluator with
    | .start => true
    | .cancelThenStart _ => (processFireCancels seams scheduleId evaluator).isSome
    | _ => false

/-- The schedule is there and active. -/
def active (scheduleId : ScheduleId) (evaluator : ScheduleEvaluator) : Bool :=
  (evaluator.states scheduleId).any ScheduleState.isActive

/-! ### Accounts -/

/-- What has become of the ticks and the executions of a schedule. -/
structure Account where
  /-- The executions that were started and are neither completed nor cancelled. -/
  running : List ScheduleExecution
  /-- The completed executions whose completion the evaluator has failed to handle. -/
  unhandled : List ScheduleExecution
  /-- The ticks the evaluator has handled. -/
  handled : List Instant
  /-- The ticks an execution was started for. -/
  started : List Instant
  /-- The ticks that were skipped. -/
  skipped : List Instant
  /-- The ticks that were buffered and not started since. -/
  buffered : List Instant
  deriving DecidableEq

/-- Nothing has happened. -/
def Account.empty : Account := ⟨[], [], [], [], [], []⟩

/-- The evaluator, with the account of each schedule. -/
structure AccountedEvaluator where
  /-- The evaluator. -/
  evaluator : ScheduleEvaluator
  /-- The accounts. -/
  accounts : ScheduleId → Account

/-- A call of the evaluator, with what its dependencies answer. -/
inductive ScheduleCall where
  /-- The timer of a schedule fires. -/
  | tick (seams : Seams) (scheduleId : ScheduleId) (fireAt : Instant)
  /-- An execution of a schedule is completed. -/
  | complete (seams : Seams) (scheduleId : ScheduleId) (execution : ScheduleExecution)
    (completedAt : Instant)

/-- The schedule of a call. -/
def ScheduleCall.scheduleId : ScheduleCall → ScheduleId
  | .tick _ scheduleId _ => scheduleId
  | .complete _ scheduleId _ _ => scheduleId

namespace ScheduleCall

/-- The call comes to the starter. -/
def asksStarter (evaluator : ScheduleEvaluator) : ScheduleCall → Bool
  | .tick seams scheduleId _ =>
    active scheduleId evaluator && processFireAsks seams scheduleId evaluator
  | .complete _ scheduleId _ _ => active scheduleId evaluator && scheduleId ∈ evaluator.pendingTicks

/-- The dependencies of the call. -/
def seams : ScheduleCall → Seams
  | .tick seams _ _ => seams
  | .complete seams _ _ _ => seams

/-- The execution that the starter starts in the call. -/
def starts (evaluator : ScheduleEvaluator) (call : ScheduleCall) : Option ScheduleExecution :=
  if call.asksStarter evaluator then startAndRecordStarts call.seams call.scheduleId evaluator
  else none

/-- The starter is asked in the call, and refuses. -/
def startRefused (evaluator : ScheduleEvaluator) (call : ScheduleCall) : Bool :=
  call.asksStarter evaluator && (startAndRecordStarts call.seams call.scheduleId evaluator).isNone

end ScheduleCall

/-- The tick waits in the buffer of the evaluator. -/
def waiting (scheduleId : ScheduleId) (evaluator : ScheduleEvaluator) (account : Account) :
    List Instant :=
  if scheduleId ∈ evaluator.pendingTicks then account.buffered else []

namespace Account

/-- The account after a tick, with what was started and cancelled for it, what the call
returned, and whether it was buffered. -/
def tick (fireAt : Instant) (starts cancels : Option ScheduleExecution)
    (result : Except ScheduleEvaluatorError TimerEvaluationOutcome) (buffers : Bool)
    (account : Account) : Account where
  running := account.running.diff cancels.toList ++ starts.toList
  unhandled := account.unhandled
  handled :=
    match result with
    | .error _ | .ok .inactive => account.handled
    | .ok _ => account.handled ++ [fireAt]
  started := if starts.isSome then account.started ++ [fireAt] else account.started
  skipped :=
    match result with
    | .ok .skipped => account.skipped ++ [fireAt]
    | _ => account.skipped
  buffered := if buffers then account.buffered ++ [fireAt] else account.buffered

/-- The account after a completion, with what was started in it and whether it was handled. -/
def complete (execution : ScheduleExecution) (starts : Option ScheduleExecution) (ok : Bool)
    (account : Account) : Account where
  running := account.running.erase execution ++ starts.toList
  unhandled := if ok then account.unhandled.erase execution else
    execution :: account.unhandled.erase execution
  handled := account.handled
  started := if starts.isSome then account.started ++ account.buffered.take 1 else account.started
  skipped := account.skipped
  buffered := if starts.isSome then account.buffered.drop 1 else account.buffered

end Account

variable {Cron : Type} (library : TimeLibrary Cron)

namespace AccountedEvaluator

/-- A call of the evaluator. An execution is completed once; the completion is handed in again
when the evaluator has failed to handle it. -/
def step (world : AccountedEvaluator) (call : ScheduleCall) : Option AccountedEvaluator :=
  match call with
  | .tick seams scheduleId fireAt =>
    let (result, evaluator) := handleTimerFired library seams scheduleId fireAt world.evaluator
    let cancels := if active scheduleId world.evaluator then processFireCancels seams scheduleId world.evaluator else none
    let buffers := scheduleId ∉ world.evaluator.pendingTicks ∧ scheduleId ∈ evaluator.pendingTicks
    some ⟨evaluator, Function.update world.accounts scheduleId
      ((world.accounts scheduleId).tick fireAt (call.starts world.evaluator) cancels result buffers)⟩
  | .complete seams scheduleId execution completedAt =>
    let account := world.accounts scheduleId
    if execution ∈ account.running ∨ execution ∈ account.unhandled then
      let (result, evaluator) := completeCurrentExecution seams scheduleId completedAt world.evaluator
      some ⟨evaluator, Function.update world.accounts scheduleId
        (account.complete execution (call.starts world.evaluator) result.isOk)⟩
    else none

end AccountedEvaluator

/-- Whether a call succeeds, and the evaluator after it. -/
def ScheduleCall.ends (evaluator : ScheduleEvaluator) : ScheduleCall → Bool × ScheduleEvaluator
  | .tick seams scheduleId fireAt =>
    let (result, after) := handleTimerFired library seams scheduleId fireAt evaluator
    (result.isOk, after)
  | .complete seams scheduleId _ completedAt =>
    let (result, after) := completeCurrentExecution seams scheduleId completedAt evaluator
    (result.isOk, after)

/-! ### Sound calls -/

/-- The starter starts the schedule's workflow. -/
def startOk (seams : Seams) (state : ScheduleState) : Bool :=
  (seams.startScheduledWorkflow state.config.workflowType state.config.input
      state.config.searchAttributes).isOk

/-- The trigger advances past the tick, and the timer is armed for the next one. -/
def advances (seams : Seams) (fireAt : Instant) (state : ScheduleState) : Bool :=
  match nextFireTime library state.config.trigger fireAt with
  | .error _ => false
  | .ok next => (seams.armScheduleTimer state.scheduleId next).isOk

/-- A tick whose execution is started is recorded, and the schedule advances; so it does when the
tick is buffered, and after a cancellation the start is not refused. -/
def soundTick (seams : Seams) (scheduleId : ScheduleId) (fireAt : Instant) (state : ScheduleState)
    (evaluator : ScheduleEvaluator) : Bool :=
  match decision scheduleId state evaluator with
  | .skip => true
  | .bufferPending => advances library seams fireAt state
  | .start => !startOk seams state || seams.recordEvent.isOk && advances library seams fireAt state
  | .cancelThenStart execution =>
    !(seams.cancelScheduledWorkflow execution "schedule overlap policy CancelPrevious").isOk ||
      startOk seams state && seams.recordEvent.isOk && advances library seams fireAt state

/-- The calls that keep the accounts in order: ticks as in `soundTick`, and completions that start
and record the tick that is buffered, if there is one. -/
def sound (evaluator : ScheduleEvaluator) : ScheduleCall → Bool
  | .tick seams scheduleId fireAt =>
    match evaluator.states scheduleId with
    | none => true
    | some state => !state.isActive || soundTick library seams scheduleId fireAt state evaluator
  | .complete seams scheduleId _ _ =>
    match evaluator.states scheduleId with
    | none => true
    | some state =>
      !(state.isActive && scheduleId ∈ evaluator.pendingTicks) || startOk seams state && seams.recordEvent.isOk

/-- The call is sound. -/
def Sound (world : AccountedEvaluator) (call : ScheduleCall) : Prop :=
  sound library world.evaluator call = true

instance (world : AccountedEvaluator) (call : ScheduleCall) :
    Decidable (Sound library world call) :=
  inferInstanceAs (Decidable (_ = true))

/-! ### How a tick ends -/

variable {library} {seams : Seams} {scheduleId : ScheduleId} {fireAt : Instant}
  {evaluator : ScheduleEvaluator}
  {state : ScheduleState}

/-- How a sound tick of an active schedule ends: with what result and evaluator, and what was
started and cancelled. -/
inductive TickEnds (scheduleId : ScheduleId) (fireAt : Instant) (state : ScheduleState)
    (evaluator : ScheduleEvaluator) :
    Except ScheduleEvaluatorError TimerEvaluationOutcome → ScheduleEvaluator →
      Option ScheduleExecution → Option ScheduleExecution → Prop where
  /-- The starter or the canceller refuses, and nothing has changed. -/
  | refused {error : ScheduleEvaluatorError} :
    TickEnds scheduleId fireAt state evaluator (.error error) evaluator none none
  /-- The tick is skipped, and the schedule has advanced or the call fails. -/
  | skipped {result : Except ScheduleEvaluatorError TimerEvaluationOutcome}
    {after : ScheduleEvaluator} {next : Instant}
    (result_eq : result = .ok .skipped ∨ ∃ error, result = .error error)
    (states : after.states = Function.update evaluator.states scheduleId (some { state with nextTriggerAt := next }))
    (pending : after.pendingTicks = evaluator.pendingTicks) :
    TickEnds scheduleId fireAt state evaluator result after none none
  /-- The tick is buffered. -/
  | buffered {after : ScheduleEvaluator}
    {next : Instant} (overlap : decision scheduleId state evaluator = .bufferPending)
    (states : after.states = Function.update evaluator.states scheduleId (some { state with nextTriggerAt := next }))
    (pending : after.pendingTicks = insert scheduleId evaluator.pendingTicks) :
    TickEnds scheduleId fireAt state evaluator (.ok .buffered) after none none
  /-- An execution is started for the tick, after the current one was cancelled where that is the
  policy. -/
  | started {after : ScheduleEvaluator} {next : Instant} {execution : ScheduleExecution}
    {cancels : Option ScheduleExecution}
    (overlap : decision scheduleId state evaluator = .start ∧ cancels = none ∨
      ∃ current, decision scheduleId state evaluator = .cancelThenStart current ∧ cancels = some current)
    (states : after.states = Function.update evaluator.states scheduleId
      (some { state.recordTriggered execution fireAt with nextTriggerAt := next }))
    (pending : after.pendingTicks = evaluator.pendingTicks) :
    TickEnds scheduleId fireAt state evaluator (.ok (.started execution)) after (some execution) cancels

theorem exists_of_isOk {ε α : Type} {x : Except ε α} (h : x.isOk = true) : ∃ a, x = .ok a := by
  cases x with
  | error error => cases h
  | ok a => exact ⟨a, rfl⟩

theorem error_or_ok {ε α : Type} (x : Except ε α) :
    (∃ error, x = .error error) ∨ ∃ a, x = .ok a := by
  cases x with
  | error error => exact .inl ⟨error, rfl⟩
  | ok a => exact .inr ⟨a, rfl⟩

variable {execution : ScheduleExecution} {completedAt recordedAt : Instant}
  {error : ScheduleEvaluatorError} {world : AccountedEvaluator} {current : ScheduleState}
  {call : ScheduleCall}

/-- A start that is recorded. -/
theorem startAndRecord_of_ok (hstate : evaluator.states scheduleId = some state)
    (hstart : seams.startScheduledWorkflow state.config.workflowType state.config.input
        state.config.searchAttributes = .ok execution) (hrec : seams.recordEvent.isOk = true) :
    startAndRecord seams scheduleId recordedAt evaluator = (.ok (.started execution),
      (evaluator.record recordedAt (.scheduleTriggered scheduleId execution.workflowId
          execution.runId)).setState
        scheduleId (state.recordTriggered execution recordedAt)) := by
  obtain ⟨recorded, hrec⟩ := exists_of_isOk hrec
  simp only [startAndRecord, hstate, hstart, hrec]

/-- A start that is refused changes nothing. -/
theorem startAndRecord_of_error (hstate : evaluator.states scheduleId = some state)
    (hstart : seams.startScheduledWorkflow state.config.workflowType state.config.input
        state.config.searchAttributes = .error error) :
    startAndRecord seams scheduleId recordedAt evaluator = (.error error, evaluator) := by
  simp only [startAndRecord, hstate, hstart]

/-- A schedule advances past a tick. -/
theorem advanceAndArm_of_advances (hcur : evaluator.states scheduleId = some current)
    (hconfig : current.config = state.config) (hid : current.scheduleId = state.scheduleId)
    (hadv : advances library seams fireAt state = true) :
    ∃ next, advanceAndArm library seams scheduleId fireAt evaluator =
      (.ok (), evaluator.setState scheduleId { current with nextTriggerAt := next }) := by
  unfold advances at hadv
  split at hadv
  · cases hadv
  · rename_i next hnext
    obtain ⟨armed, harmed⟩ := exists_of_isOk hadv
    refine ⟨next, ?_⟩
    simp only [advanceAndArm, hcur, hconfig, hnext, armStateIfActive]
    split
    · rfl
    · simp only [hid, harmed, Except.map, Outcome.andThen]

/-- However advancing ends, the schedule changes in its next trigger only. -/
theorem advanceAndArm_cases (library : TimeLibrary Cron) (seams : Seams) (fireAt : Instant)
    (hstate : evaluator.states scheduleId = some state) :
    ∃ result next, advanceAndArm library seams scheduleId fireAt evaluator =
      (result, evaluator.setState scheduleId { state with nextTriggerAt := next }) := by
  have hsame : evaluator.setState scheduleId { state with nextTriggerAt := state.nextTriggerAt } = evaluator := by
    simp [setState, ← hstate]
  simp only [advanceAndArm, hstate]
  split
  · rename_i error _
    exact ⟨.error (.trigger error), state.nextTriggerAt, by rw [hsame]⟩
  · rename_i next _
    unfold armStateIfActive
    split
    · exact ⟨.ok (), next, rfl⟩
    · cases seams.armScheduleTimer state.scheduleId next with
      | error error => exact ⟨.error error, next, rfl⟩
      | ok armed => exact ⟨.ok (), next, rfl⟩

/-- A tick whose execution is started and recorded, from an evaluator in which the schedule is
configured the same. -/
theorem start_then_advance {mid : ScheduleEvaluator} (hcur : mid.states scheduleId = some current)
    (hconfig : current.config = state.config) (hid : current.scheduleId = state.scheduleId)
    (hstart : seams.startScheduledWorkflow state.config.workflowType state.config.input
        state.config.searchAttributes = .ok execution) (hrec : seams.recordEvent.isOk = true)
    (hadv : advances library seams fireAt state = true) :
    ∃ next after, ((startAndRecord seams scheduleId fireAt mid).andThen fun outcome evaluator =>
        (advanceAndArm library seams scheduleId fireAt evaluator).andThen fun _ evaluator =>
          (.ok outcome, evaluator)) =
          (.ok (.started execution), after) ∧
      after.states = Function.update mid.states scheduleId
        (some { current.recordTriggered execution fireAt with nextTriggerAt := next }) ∧
      after.pendingTicks = mid.pendingTicks := by
  rw [startAndRecord_of_ok hcur (hconfig ▸ hstart) hrec]
  simp only [Outcome.andThen]
  have hsts : ((mid.record fireAt (.scheduleTriggered scheduleId execution.workflowId
      execution.runId)).setState
      scheduleId (current.recordTriggered execution fireAt)).states scheduleId =
      some (current.recordTriggered execution fireAt) := by simp
  obtain ⟨next, hadvance⟩ := advanceAndArm_of_advances hsts hconfig hid hadv
  rw [hadvance]
  refine ⟨next, _, rfl, ?_, rfl⟩
  rw [setState_states, setState_states, Function.update_idem]
  rfl

/-- **How a sound tick of an active schedule ends.** -/
theorem tickEnds (hstate : evaluator.states scheduleId = some state) (hact : state.isActive = true)
    (hsound : soundTick library seams scheduleId fireAt state evaluator = true) :
    TickEnds scheduleId fireAt state evaluator
      (handleTimerFired library seams scheduleId fireAt evaluator).1
      (handleTimerFired library seams scheduleId fireAt evaluator).2
      ((ScheduleCall.tick seams scheduleId fireAt).starts evaluator)
        (processFireCancels seams scheduleId evaluator) := by
  have hfire : handleTimerFired library seams scheduleId fireAt evaluator =
      (processFire seams scheduleId fireAt evaluator).andThen fun outcome evaluator =>
        (advanceAndArm library seams scheduleId fireAt evaluator).andThen fun _ evaluator => (.ok outcome, evaluator) := by
    simp [handleTimerFired, hstate, hact]
  have hstarts : (ScheduleCall.tick seams scheduleId fireAt).starts evaluator =
      if processFireAsks seams scheduleId evaluator then startAndRecordStarts seams scheduleId evaluator else none := by
    simp [ScheduleCall.starts, ScheduleCall.asksStarter, active, hstate, hact, ScheduleCall.seams,
      ScheduleCall.scheduleId]
  rw [hfire, hstarts]
  simp only [soundTick] at hsound
  simp only [processFire, processFireAsks, processFireCancels, startAndRecordStarts, hstate, decision] at hsound ⊢
  cases hdecn : evaluateOverlap state.config.overlapPolicy state.currentExecution
      (scheduleId ∈ evaluator.pendingTicks) with
  | skip =>
    obtain ⟨result, next, hadvance⟩ := advanceAndArm_cases library seams fireAt hstate
    simp only [Outcome.andThen, hadvance]
    cases result with
    | error error => exact .skipped (.inr ⟨error, rfl⟩) rfl rfl
    | ok _ => exact .skipped (.inl rfl) rfl rfl
  | bufferPending =>
    rw [hdecn] at hsound
    obtain ⟨next, hadvance⟩ := advanceAndArm_of_advances
      (show ({ evaluator with pendingTicks := insert scheduleId evaluator.pendingTicks } : ScheduleEvaluator).states scheduleId =
        some state from hstate) rfl rfl hsound
    simp only [Outcome.andThen, hadvance]
    exact .buffered hdecn rfl rfl
  | start =>
    rw [hdecn] at hsound
    dsimp only
    cases hstart : seams.startScheduledWorkflow state.config.workflowType state.config.input
        state.config.searchAttributes with
    | error error =>
      rw [startAndRecord_of_error hstate hstart]
      exact .refused
    | ok execution =>
      simp only [startOk, hstart, Except.isOk, Except.toBool, Bool.not_true, Bool.false_or, Bool.and_eq_true] at hsound
      obtain ⟨next, after, hends, hsts, hpend⟩ := start_then_advance hstate rfl rfl hstart hsound.1 hsound.2
      rw [hends]
      exact .started (.inl ⟨hdecn, rfl⟩) hsts hpend
  | cancelThenStart current =>
    rw [hdecn] at hsound
    dsimp only
    rcases error_or_ok (seams.cancelScheduledWorkflow current "schedule overlap policy CancelPrevious") with
      ⟨error, hcanc⟩ | ⟨cancelled, hcanc⟩
    · simp only [hcanc]
      exact .refused
    · simp only [hcanc, Except.isOk, Except.toBool, Bool.not_true, Bool.false_or, Bool.and_eq_true] at hsound
      obtain ⟨⟨hstart, hrec⟩, hadv⟩ := hsound
      obtain ⟨execution, hstart⟩ := exists_of_isOk hstart
      have hcleared : (evaluator.setState scheduleId { state with currentExecution := none }).states scheduleId =
          some { state with currentExecution := none } := by simp
      obtain ⟨next, after, hends, hsts, hpend⟩ := start_then_advance hcleared rfl rfl hstart hrec hadv
      simp only [hcanc, hends, hstart]
      have hfinal : after.states = Function.update evaluator.states scheduleId
          (some { state.recordTriggered execution fireAt with nextTriggerAt := next }) := by
        rw [hsts, setState_states, Function.update_idem]
        rfl
      exact .started (.inr ⟨current, hdecn, rfl⟩) hfinal hpend

/-! ### How a completion ends -/

/-- A sound completion without a buffered tick clears the current execution. -/
theorem complete_of_idle (hstate : evaluator.states scheduleId = some state)
    (hidle : (state.isActive && decide (scheduleId ∈ evaluator.pendingTicks)) = false) :
    completeCurrentExecution seams scheduleId completedAt evaluator =
      (.ok none, { evaluator.setState scheduleId { state with currentExecution := none } with
        pendingTicks := evaluator.pendingTicks.erase scheduleId }) := by
  simp only [completeCurrentExecution, hstate]
  cases hact : state.isActive with
  | false => rfl
  | true =>
    have hpend : scheduleId ∉ evaluator.pendingTicks := by simpa [hact] using hidle
    rw [Bool.not_true, if_neg Bool.false_ne_true, setState_pendingTicks, if_pos hpend]

/-- A sound completion starts the buffered tick. -/
theorem complete_of_buffered (hstate : evaluator.states scheduleId = some state)
    (hact : state.isActive = true) (hpend : scheduleId ∈ evaluator.pendingTicks)
    (hstart : seams.startScheduledWorkflow state.config.workflowType state.config.input
        state.config.searchAttributes = .ok execution) (hrec : seams.recordEvent.isOk = true) :
    ∃ after, completeCurrentExecution seams scheduleId completedAt evaluator =
      (.ok (some execution), after) ∧
      after.states = Function.update evaluator.states scheduleId
        (some (state.recordTriggered execution completedAt)) ∧
      after.pendingTicks = evaluator.pendingTicks.erase scheduleId := by
  have hcleared : ({ evaluator.setState scheduleId { state with currentExecution := none } with
      pendingTicks := evaluator.pendingTicks.erase scheduleId } : ScheduleEvaluator).states scheduleId =
        some { state with currentExecution := none } := by simp
  simp only [completeCurrentExecution, hstate, hact, Bool.not_true, Bool.false_eq_true, if_false,
    setState_pendingTicks, hpend, not_true_eq_false]
  rw [startAndRecord_of_ok hcleared hstart hrec]
  refine ⟨_, rfl, ?_, rfl⟩
  simp [record, ScheduleState.recordTriggered]

/-! ### The invariant -/

/-- The ticks that have come to an end: each started, skipped or waiting in the buffer. -/
def Account.accounted (account : Account) : List Instant :=
  account.started ++ account.skipped ++ account.buffered

/-- The policy allows one execution at a time. -/
def OneAtATime (state : ScheduleState) : Prop :=
  state.config.overlapPolicy = .skip ∨ state.config.overlapPolicy = .bufferOne

/-- The account of a schedule agrees with what the evaluator keeps of it. -/
structure InOrder (scheduleId : ScheduleId) (state : ScheduleState) (evaluator : ScheduleEvaluator)
    (account : Account) : Prop where
  handled : account.unhandled = []
  running : OneAtATime state → account.running = state.currentExecution.toList
  pending : scheduleId ∈ evaluator.pendingTicks →
    state.isActive = true ∧ state.config.overlapPolicy = .bufferOne ∧ state.currentExecution ≠ none
  buffered : account.buffered.length = if scheduleId ∈ evaluator.pendingTicks then 1 else 0
  accounted : account.accounted.Perm account.handled

/-- Every schedule that is there is in order. -/
def AccountedEvaluator.InOrder (world : AccountedEvaluator) : Prop :=
  ∀ scheduleId state, world.evaluator.states scheduleId = some state →
    Schedule.InOrder scheduleId state world.evaluator (world.accounts scheduleId)

/-! ### Every sound call keeps the accounts in order -/

variable {account : Account} {result : Except ScheduleEvaluatorError TimerEvaluationOutcome}
  {after : ScheduleEvaluator}
  {starts cancels : Option ScheduleExecution}

/-- A tick is buffered while an execution is uncompleted and no other tick is. -/
theorem of_bufferPending (h : decision scheduleId state evaluator = .bufferPending) :
    state.config.overlapPolicy = .bufferOne ∧ state.currentExecution ≠ none ∧
      scheduleId ∉ evaluator.pendingTicks := by
  unfold decision evaluateOverlap at h
  cases hcur : state.currentExecution with
  | none =>
    rw [hcur] at h
    cases hpol : state.config.overlapPolicy <;> rw [hpol] at h <;> cases h
  | some current =>
    rw [hcur] at h
    cases hpol : state.config.overlapPolicy <;> rw [hpol] at h <;> dsimp only at h
    case bufferOne =>
      split at h
      · cases h
      · rename_i hpend
        exact ⟨rfl, Option.some_ne_none current, by simpa using hpend⟩
    all_goals cases h

/-- With one execution at a time, a tick is started when none is uncompleted. -/
theorem of_start (hone : OneAtATime state)
    (h : decision scheduleId state evaluator = .start ∧ cancels = none ∨ ∃ current,
        decision scheduleId state evaluator = .cancelThenStart current ∧ cancels = some current) :
    state.currentExecution = none ∧ cancels = none := by
  unfold decision evaluateOverlap at h
  rcases h with ⟨h, hcancels⟩ | ⟨current, h, -⟩
  · refine ⟨?_, hcancels⟩
    by_contra hcur
    obtain ⟨current, hcur⟩ := Option.ne_none_iff_exists'.mp hcur
    rcases hone with hpol | hpol <;> rw [hpol, hcur] at h <;> dsimp only at h
    · cases h
    · split at h <;> cases h
  · exfalso
    rcases hone with hpol | hpol <;> rw [hpol] at h <;> cases hcur : state.currentExecution <;>
      rw [hcur] at h <;> dsimp only at h
    all_goals first | cases h | (split at h <;> cases h)

/-- The account as it stands after a tick that did nothing. -/
@[simp]
theorem Account.tick_nothing : account.tick fireAt none none (.error error) false = account := by
  simp [Account.tick]

/-- One tick more on both sides. -/
theorem perm_of_one_more {accounted handled accounted' : List Instant} {tick : Instant}
    (h : accounted.Perm handled) (hmore : accounted'.Perm (tick :: accounted)) :
    accounted'.Perm (handled ++ [tick]) :=
  hmore.trans ((h.cons tick).trans (List.perm_append_singleton tick handled).symm)

/-- **A sound tick keeps the account in order.** -/
theorem InOrder.tick (h : InOrder scheduleId state evaluator account) (hact : state.isActive = true)
    (hstate : evaluator.states scheduleId = some state)
    (hends : TickEnds scheduleId fireAt state evaluator result after starts cancels)
    {state' : ScheduleState} (hafter : after.states scheduleId = some state') :
    InOrder scheduleId state' after (account.tick fireAt starts cancels result
      (decide (scheduleId ∉ evaluator.pendingTicks ∧ scheduleId ∈ after.pendingTicks))) := by
  cases hends with
  | refused =>
    obtain rfl : state = state' := Option.some.inj (hstate.symm.trans hafter)
    simpa using h
  | @skipped _ _ next result_eq states pending =>
    obtain rfl : { state with nextTriggerAt := next } = state' := by simpa [states] using hafter
    have hbuffers : decide (scheduleId ∉ evaluator.pendingTicks ∧ scheduleId ∈ after.pendingTicks) = false := by
      simp [pending]
    rw [hbuffers]
    rcases result_eq with rfl | ⟨error, rfl⟩
    · refine ⟨h.handled, fun hone => ?_, fun hmem => h.pending (pending ▸ hmem), ?_, ?_⟩
      · simpa [Account.tick] using h.running hone
      · simpa [Account.tick, pending] using h.buffered
      · refine perm_of_one_more h.accounted ?_
        simp only [Account.accounted, Account.tick, Option.isSome_none, Bool.false_eq_true, if_false]
        rw [← List.append_assoc, List.append_assoc, List.singleton_append]
        exact List.perm_middle
    · rw [Account.tick_nothing]
      exact ⟨h.handled, h.running, fun hmem => h.pending (pending ▸ hmem), pending ▸ h.buffered, h.accounted⟩
  | @buffered _ next overlap states pending =>
    obtain rfl : { state with nextTriggerAt := next } = state' := by simpa [states] using hafter
    obtain ⟨hpol, hcur, hnot⟩ := of_bufferPending overlap
    have hbuffers : decide (scheduleId ∉ evaluator.pendingTicks ∧ scheduleId ∈ after.pendingTicks) = true := by
      simp [pending, hnot]
    have hemp : account.buffered = [] := by simpa [hnot] using h.buffered
    rw [hbuffers]
    refine ⟨h.handled, fun hone => ?_, fun _ => ⟨hact, hpol, hcur⟩, ?_, ?_⟩
    · simpa [Account.tick] using h.running hone
    · simp [Account.tick, pending, hemp]
    · refine perm_of_one_more h.accounted ?_
      simp only [Account.accounted, Account.tick, Option.isSome_none, Bool.false_eq_true, if_false, if_true]
      rw [← List.append_assoc]
      exact List.perm_append_singleton fireAt _
  | @started _ next execution _ overlap states pending =>
    obtain rfl : { state.recordTriggered execution fireAt with nextTriggerAt := next } =
        state' := by
      simpa [states] using hafter
    have hbuffers : decide (scheduleId ∉ evaluator.pendingTicks ∧ scheduleId ∈ after.pendingTicks) = false := by
      simp [pending]
    rw [hbuffers]
    refine ⟨h.handled, fun hone => ?_, fun hmem => ?_, ?_, ?_⟩
    · have hone : OneAtATime state := hone
      obtain ⟨hcur, rfl⟩ := of_start hone overlap
      have hrunning : account.running = [] := by rw [h.running hone, hcur]; rfl
      simp [Account.tick, hrunning, ScheduleState.recordTriggered]
    · obtain ⟨-, hpol, -⟩ := h.pending (pending ▸ hmem)
      exact ⟨hact, hpol, Option.some_ne_none execution⟩
    · simpa [Account.tick, pending] using h.buffered
    · refine perm_of_one_more h.accounted ?_
      simp only [Account.accounted, Account.tick, Option.isSome_some, if_true, Bool.false_eq_true, if_false]
      rw [List.append_assoc, List.append_assoc, List.singleton_append, List.append_assoc]
      exact List.perm_middle

/-- **A sound completion keeps the account in order.** -/
theorem InOrder.complete (h : InOrder scheduleId state evaluator account)
    {execution : ScheduleExecution} {completedAt : Instant}
    (hmem : execution ∈ account.running ∨ execution ∈ account.unhandled)
    (hstate : evaluator.states scheduleId = some state)
    (hsound : sound library evaluator (.complete seams scheduleId execution completedAt) = true)
    {state' : ScheduleState}
    (hafter : (completeCurrentExecution seams scheduleId completedAt evaluator).2.states
        scheduleId = some state') :
    InOrder scheduleId state' (completeCurrentExecution seams scheduleId completedAt evaluator).2
      (account.complete execution ((ScheduleCall.complete seams scheduleId execution
          completedAt).starts evaluator)
        (completeCurrentExecution seams scheduleId completedAt evaluator).1.isOk) := by
  have hrunning : execution ∈ account.running := by simpa [h.handled] using hmem
  simp only [sound, hstate] at hsound
  have hstarts : (ScheduleCall.complete seams scheduleId execution completedAt).starts evaluator =
      if state.isActive && scheduleId ∈ evaluator.pendingTicks then
        (seams.startScheduledWorkflow state.config.workflowType state.config.input state.config.searchAttributes).toOption
      else none := by
    simp [ScheduleCall.starts, ScheduleCall.asksStarter, active, hstate, ScheduleCall.seams,
      ScheduleCall.scheduleId,
      startAndRecordStarts]
  rw [hstarts]
  cases hidle : state.isActive && decide (scheduleId ∈ evaluator.pendingTicks) with
  | false =>
    have hnot : scheduleId ∉ evaluator.pendingTicks := fun hpend => by
      simp [(h.pending hpend).1, hpend] at hidle
    rw [complete_of_idle hstate hidle] at hafter ⊢
    obtain rfl : { state with currentExecution := none } = state' := by simpa using hafter
    refine ⟨by simp [Account.complete, h.handled, Except.isOk, Except.toBool], fun hone => ?_, fun hpend => ?_, ?_, ?_⟩
    · have hbef : account.running = state.currentExecution.toList := h.running hone
      rw [hbef, Option.mem_toList] at hrunning
      simp [Account.complete, hbef, Option.mem_def.mp hrunning]
    · exact absurd (Finset.mem_of_mem_erase hpend) hnot
    · simpa [Account.complete, hnot] using h.buffered
    · simpa [Account.complete, Account.accounted] using h.accounted
  | true =>
    rw [hidle] at hsound
    obtain ⟨hact, hpend⟩ := Bool.and_eq_true_iff.mp hidle
    obtain ⟨hstart, hrec⟩ := Bool.and_eq_true_iff.mp hsound
    obtain ⟨started, hstart⟩ := exists_of_isOk hstart
    obtain ⟨after, heq, hsts, hticks⟩ :=
      complete_of_buffered hstate hact (of_decide_eq_true hpend) hstart hrec
    rw [heq] at hafter ⊢
    obtain rfl : state.recordTriggered started completedAt = state' := by simpa [hsts] using hafter
    have hpol := (h.pending (of_decide_eq_true hpend)).2.1
    obtain ⟨tick, hbuffered⟩ :=
      List.length_eq_one_iff.mp (h.buffered.trans (if_pos (of_decide_eq_true hpend)))
    rw [hstart]
    refine ⟨by simp [Account.complete, h.handled, Except.isOk, Except.toBool], fun _ => ?_, fun hmem => ?_, ?_, ?_⟩
    · have hbef : account.running = state.currentExecution.toList := h.running (.inr hpol)
      rw [hbef, Option.mem_toList] at hrunning
      simp [Account.complete, hbef, Option.mem_def.mp hrunning, Except.toOption, ScheduleState.recordTriggered]
    · exact absurd (hticks ▸ hmem) (Finset.notMem_erase scheduleId _)
    · simp [Account.complete, hbuffered, Except.toOption, hticks]
    · refine List.Perm.trans ?_ h.accounted
      simp only [Account.accounted, Account.complete, hbuffered, Except.toOption,
        Option.isSome_some, if_true, List.take_succ_cons,
        List.take_zero, List.drop_succ_cons, List.drop_nil, List.append_nil, List.append_assoc]
      exact (List.perm_append_left_iff _).mpr (List.perm_append_comm)

/-- A call of another schedule keeps the account in order. -/
theorem InOrder.other (h : InOrder scheduleId state evaluator account)
    (hpend : scheduleId ∈ after.pendingTicks ↔ scheduleId ∈ evaluator.pendingTicks) :
    InOrder scheduleId state after account :=
  ⟨h.handled, h.running, fun hmem =>
      h.pending (hpend.mp hmem), by simpa only [hpend] using h.buffered, h.accounted⟩

/-- A call touches no schedule but its own. -/
theorem TickEnds.other
    (hends : TickEnds scheduleId fireAt state evaluator result after starts cancels)
    {other : ScheduleId} (hother : other ≠ scheduleId) :
    after.states other = evaluator.states other ∧
      (other ∈ after.pendingTicks ↔ other ∈ evaluator.pendingTicks) := by
  cases hends with
  | refused => exact ⟨rfl, Iff.rfl⟩
  | skipped result_eq states pending =>
    exact ⟨by rw [states, Function.update_of_ne hother], by rw [pending]⟩
  | buffered overlap states pending =>
    exact ⟨by rw [states, Function.update_of_ne hother], by simp [pending, hother]⟩
  | started overlap states pending =>
    exact ⟨by rw [states, Function.update_of_ne hother], by rw [pending]⟩

theorem complete_other (hstate : evaluator.states scheduleId = some state)
    (hsound : sound library evaluator (.complete seams scheduleId execution completedAt) = true)
    {other : ScheduleId} (hother : other ≠ scheduleId) :
    (completeCurrentExecution seams scheduleId completedAt evaluator).2.states other =
      evaluator.states other ∧
      (other ∈ (completeCurrentExecution seams scheduleId completedAt evaluator).2.pendingTicks ↔
        other ∈ evaluator.pendingTicks) := by
  simp only [sound, hstate] at hsound
  cases hidle : state.isActive && decide (scheduleId ∈ evaluator.pendingTicks) with
  | false =>
    rw [complete_of_idle hstate hidle]
    exact ⟨Function.update_of_ne hother _ _, by simp [hother]⟩
  | true =>
    rw [hidle] at hsound
    obtain ⟨hact, hpend⟩ := Bool.and_eq_true_iff.mp hidle
    obtain ⟨hstart, hrec⟩ := Bool.and_eq_true_iff.mp hsound
    obtain ⟨started, hstart⟩ := exists_of_isOk hstart
    obtain ⟨after, heq, hsts, hticks⟩ :=
      complete_of_buffered hstate hact (of_decide_eq_true hpend) hstart hrec
    rw [heq]
    exact ⟨by rw [hsts, Function.update_of_ne hother], by simp [hticks, hother]⟩

/-- A call keeps every account in order when it keeps its own and touches no other schedule. -/
theorem AccountedEvaluator.InOrder.update (h : world.InOrder)
    (hown : ∀ state', after.states scheduleId = some state' →
        Schedule.InOrder scheduleId state' after account)
    (hother : ∀ other ≠ scheduleId, after.states other = world.evaluator.states other ∧
        (other ∈ after.pendingTicks ↔ other ∈ world.evaluator.pendingTicks)) :
    AccountedEvaluator.InOrder ⟨after, Function.update world.accounts scheduleId account⟩ := by
  intro other state' hafter
  by_cases hid : other = scheduleId
  · subst hid
    simpa using hown state' hafter
  · obtain ⟨hsts, hpend⟩ := hother other hid
    simpa [Function.update_of_ne hid] using (h other state' (hsts ▸ hafter)).other hpend

theorem AccountedEvaluator.InOrder.tick {world : AccountedEvaluator} (h : world.InOrder)
    (hsound : Sound library world (.tick seams scheduleId fireAt)) :
    AccountedEvaluator.InOrder
      ⟨(handleTimerFired library seams scheduleId fireAt world.evaluator).2,
          Function.update world.accounts scheduleId
        ((world.accounts scheduleId).tick fireAt
            ((ScheduleCall.tick seams scheduleId fireAt).starts world.evaluator)
          (if active scheduleId world.evaluator then
              processFireCancels seams scheduleId world.evaluator else none)
          (handleTimerFired library seams scheduleId fireAt world.evaluator).1
          (decide (scheduleId ∉ world.evaluator.pendingTicks ∧
            scheduleId ∈ (handleTimerFired library seams scheduleId fireAt
                world.evaluator).2.pendingTicks)))⟩ := by
  cases hstate : world.evaluator.states scheduleId with
  | none =>
    have hmissing : handleTimerFired library seams scheduleId fireAt world.evaluator =
        (.error (.scheduleNotFound scheduleId), world.evaluator) := by simp [handleTimerFired, hstate]
    rw [hmissing]
    refine h.update (fun state' hafter => ?_) fun other hother => ⟨rfl, Iff.rfl⟩
    rw [hstate] at hafter
    cases hafter
  | some state =>
    simp only [Sound, sound, hstate] at hsound
    cases hact : state.isActive with
    | false =>
      have hinactive : handleTimerFired library seams scheduleId fireAt world.evaluator =
          (.ok .inactive, world.evaluator) := by simp [handleTimerFired, hstate, hact]
      have hnothing : active scheduleId world.evaluator = false := by simp [active, hstate, hact]
      rw [hinactive]
      refine h.update (fun state' hafter => ?_) fun other hother => ⟨rfl, Iff.rfl⟩
      have hsame : Account.tick fireAt ((ScheduleCall.tick seams scheduleId fireAt).starts world.evaluator)
          (if active scheduleId world.evaluator then processFireCancels seams scheduleId world.evaluator else none)
          (.ok .inactive) (decide (scheduleId ∉ world.evaluator.pendingTicks ∧ scheduleId ∈ world.evaluator.pendingTicks))
          (world.accounts scheduleId) = world.accounts scheduleId := by
        simp [Account.tick, ScheduleCall.starts, ScheduleCall.asksStarter, hnothing]
      rw [hsame]
      exact h scheduleId state' hafter
    | true =>
      have hsound : soundTick library seams scheduleId fireAt state world.evaluator = true := by simpa [hact] using hsound
      have hends := tickEnds hstate hact hsound
      have hcancels : active scheduleId world.evaluator = true := by simp [active, hstate, hact]
      rw [if_pos hcancels]
      exact h.update (fun state' hafter => (h scheduleId state hstate).tick hact hstate hends hafter)
        fun other hother => hends.other hother

/-- **The step lemma**: a sound call keeps every account in order. -/
theorem AccountedEvaluator.InOrder.step {world' : AccountedEvaluator} (h : world.InOrder)
    (hsound : Sound library world call) (hstep : world.step library call = some world') :
    world'.InOrder := by
  cases call with
  | tick seams scheduleId fireAt =>
    obtain rfl := Option.some.inj hstep
    exact h.tick hsound
  | complete seams scheduleId execution completedAt =>
    simp only [AccountedEvaluator.step] at hstep
    split at hstep
    · rename_i hmem
      obtain rfl := Option.some.inj hstep
      cases hstate : world.evaluator.states scheduleId with
      | none =>
        have hmissing : completeCurrentExecution seams scheduleId completedAt world.evaluator =
            (.error (.scheduleNotFound scheduleId), world.evaluator) := by simp [completeCurrentExecution, hstate]
        rw [hmissing]
        refine h.update (fun state' hafter => ?_) fun other hother => ⟨rfl, Iff.rfl⟩
        rw [hstate] at hafter
        cases hafter
      | some state =>
        exact h.update (fun state' hafter => (h scheduleId state hstate).complete hmem hstate hsound hafter)
          fun other hother => complete_other hstate hsound hother
    · cases hstep

/-! ### Accounting -/

/-- A sound call whose start is refused fails, and leaves the evaluator as it was. -/
theorem ScheduleCall.ends_of_startRefused (hsound : sound library evaluator call = true)
    (hrefd : call.startRefused evaluator = true) :
    call.ends library evaluator = (false, evaluator) := by
  obtain ⟨hasks, hnone⟩ := Bool.and_eq_true_iff.mp hrefd
  cases call with
  | tick seams scheduleId fireAt =>
    obtain ⟨hact, hfire⟩ := Bool.and_eq_true_iff.mp hasks
    cases hstate : evaluator.states scheduleId with
    | none => simp [active, hstate] at hact
    | some state =>
      have hact : state.isActive = true := by simpa [active, hstate] using hact
      have hstart : ∃ error, seams.startScheduledWorkflow state.config.workflowType state.config.input
          state.config.searchAttributes = .error error := by
        rcases error_or_ok (seams.startScheduledWorkflow state.config.workflowType state.config.input
          state.config.searchAttributes) with herr | ⟨started, hstrt⟩
        · exact herr
        · simp [startAndRecordStarts, ScheduleCall.scheduleId, ScheduleCall.seams, hstate, hstrt, Except.toOption] at hnone
      obtain ⟨error, hstart⟩ := hstart
      have hdecn : decision scheduleId state evaluator = .start := by
        simp only [processFireAsks, processFireCancels, hstate] at hfire
        cases hdecn : decision scheduleId state evaluator with
        | start => rfl
        | skip => simp [hdecn] at hfire
        | bufferPending => simp [hdecn] at hfire
        | cancelThenStart current =>
          rcases error_or_ok (seams.cancelScheduledWorkflow current "schedule overlap policy CancelPrevious") with
            ⟨error, hcanc⟩ | ⟨cancelled, hcanc⟩
          · simp [hdecn, hcanc, Except.toOption] at hfire
          · simp [sound, hstate, hact, soundTick, hdecn, hcanc, startOk, hstart, Except.isOk, Except.toBool] at hsound
      simp only [ScheduleCall.ends, handleTimerFired, hstate, hact, Bool.not_true, Bool.false_eq_true, if_false,
        processFire]
      rw [decision] at hdecn
      rw [hdecn]
      dsimp only
      rw [startAndRecord_of_error hstate hstart]
      rfl
  | complete seams scheduleId execution completedAt =>
    cases hstate : evaluator.states scheduleId with
    | none => simp [ScheduleCall.asksStarter, active, hstate] at hasks
    | some state =>
      simp only [ScheduleCall.asksStarter, active, hstate, Option.any_some] at hasks
      simp only [sound, hstate, hasks, Bool.not_true, Bool.false_or, Bool.and_eq_true] at hsound
      obtain ⟨started, hstrt⟩ := exists_of_isOk hsound.1
      simp [startAndRecordStarts, ScheduleCall.scheduleId, ScheduleCall.seams, hstate, hstrt, Except.toOption] at hnone

/-- In order, the ticks that wait are those that were buffered and not started. -/
theorem InOrder.waiting_eq (h : InOrder scheduleId state evaluator account) :
    waiting scheduleId evaluator account = account.buffered := by
  unfold waiting
  split
  · rfl
  · rename_i hnot
    exact (List.eq_nil_of_length_eq_zero (h.buffered.trans (if_neg hnot))).symm

/-- A sound completion starts the tick that waits. -/
theorem InOrder.complete_starts (h : InOrder scheduleId state evaluator account)
    (hstate : evaluator.states scheduleId = some state)
    (hsound : sound library evaluator (.complete seams scheduleId execution completedAt) = true)
    (ok : Bool) :
    (account.complete execution ((ScheduleCall.complete seams scheduleId execution
        completedAt).starts evaluator) ok).started =
      account.started ++ account.buffered := by
  simp only [Account.complete, ScheduleCall.starts, ScheduleCall.asksStarter, active, hstate,
    Option.any_some]
  cases hidle : state.isActive && decide (scheduleId ∈ evaluator.pendingTicks) with
  | false =>
    have hnot : scheduleId ∉ evaluator.pendingTicks := fun hpend => by
      simp [(h.pending hpend).1, hpend] at hidle
    have hemp : account.buffered = [] := by simpa [hnot] using h.buffered
    simp [hemp]
  | true =>
    simp only [sound, hstate, hidle, Bool.not_true, Bool.false_or, Bool.and_eq_true] at hsound
    obtain ⟨started, hstart⟩ := exists_of_isOk hsound.1
    have hpend := of_decide_eq_true (Bool.and_eq_true_iff.mp hidle).2
    obtain ⟨tick, hbuffered⟩ := List.length_eq_one_iff.mp (h.buffered.trans (if_pos hpend))
    simp [startAndRecordStarts, ScheduleCall.scheduleId, ScheduleCall.seams, hstate, hstart,
      Except.toOption, hbuffered]

/-- Nothing waits after a sound completion. -/
theorem notMem_pendingTicks_of_complete (hstate : evaluator.states scheduleId = some state)
    (hsound : sound library evaluator (.complete seams scheduleId execution completedAt) = true) :
    scheduleId ∉ (completeCurrentExecution seams scheduleId completedAt
        evaluator).2.pendingTicks := by
  cases hidle : state.isActive && decide (scheduleId ∈ evaluator.pendingTicks) with
  | false =>
    rw [complete_of_idle hstate hidle]
    exact Finset.notMem_erase scheduleId _
  | true =>
    simp only [sound, hstate, hidle, Bool.not_true, Bool.false_or, Bool.and_eq_true] at hsound
    obtain ⟨started, hstart⟩ := exists_of_isOk hsound.1
    obtain ⟨hact, hpend⟩ := Bool.and_eq_true_iff.mp hidle
    obtain ⟨after, heq, -, hticks⟩ :=
      complete_of_buffered hstate hact (of_decide_eq_true hpend) hstart hsound.2
    rw [heq, hticks]
    exact Finset.notMem_erase scheduleId _

/-- The schedules of the evaluator have neither an execution nor a buffered tick. -/
def Fresh (evaluator : ScheduleEvaluator) : Prop :=
  ∀ scheduleId state, evaluator.states scheduleId = some state →
    state.currentExecution = none ∧ scheduleId ∉ evaluator.pendingTicks

theorem inOrder_fresh (hfresh : Fresh evaluator) :
    AccountedEvaluator.InOrder ⟨evaluator, fun _ => .empty⟩ := by
  intro scheduleId state hstate
  obtain ⟨hcur, hpend⟩ := hfresh scheduleId state hstate
  refine ⟨rfl, fun _ => ?_, fun hmem => absurd hmem hpend, ?_, List.Perm.refl _⟩
  · rw [hcur]
    rfl
  · exact (if_neg hpend).symm

/-- **Overlap accounting.** After any sound calls, of any schedules in any order: under a policy
that allows one execution at a time, one execution at most is uncompleted; one tick at most waits
in the buffer; and the ticks that were handled are those that were started, skipped or wait, each
once. A further sound call whose start is refused fails and changes nothing, and the next sound
completion starts the tick that waits. -/
theorem overlap_accounting (library : TimeLibrary Cron) {evaluator : ScheduleEvaluator}
    (hfresh : Fresh evaluator) {world : AccountedEvaluator}
    (hrun : Actions.Reachable (AccountedEvaluator.step library) (Sound library) ⟨evaluator, fun _ =>
        .empty⟩ world) {scheduleId : ScheduleId} {state : ScheduleState}
    (hstate : world.evaluator.states scheduleId = some state) :
    (OneAtATime state → (world.accounts scheduleId).running.length ≤ 1) ∧
      (waiting scheduleId world.evaluator (world.accounts scheduleId)).length ≤ 1 ∧
      ((world.accounts scheduleId).started ++ (world.accounts scheduleId).skipped ++
        waiting scheduleId world.evaluator (world.accounts scheduleId)).Perm
          (world.accounts scheduleId).handled ∧
      (∀ call, Sound library world call → call.startRefused world.evaluator = true →
        call.ends library world.evaluator = (false, world.evaluator)) ∧
      ∀ seams execution completedAt world',
        Sound library world (.complete seams scheduleId execution completedAt) →
        world.step library (.complete seams scheduleId execution completedAt) = some world' →
        (world'.accounts scheduleId).started = (world.accounts scheduleId).started ++
            waiting scheduleId world.evaluator (world.accounts scheduleId) ∧
          waiting scheduleId world'.evaluator (world'.accounts scheduleId) = [] := by
  have hinOrder : world.InOrder :=
    hrun.invariant (fun h hsound hstep => h.step hsound hstep) (inOrder_fresh hfresh)
  have h := hinOrder scheduleId state hstate
  refine ⟨fun hone => ?_, ?_, ?_, fun call hsound hrefd =>
      ScheduleCall.ends_of_startRefused hsound hrefd, ?_⟩
  · rw [h.running hone]
    cases state.currentExecution <;> simp
  · rw [h.waiting_eq, h.buffered]
    split <;> simp
  · rw [h.waiting_eq]
    exact h.accounted
  · intro seams execution completedAt world' hsound hstep
    simp only [AccountedEvaluator.step] at hstep
    split at hstep
    · obtain rfl := Option.some.inj hstep
      refine ⟨?_, if_neg (notMem_pendingTicks_of_complete hstate hsound)⟩
      rw [h.waiting_eq]
      simpa using h.complete_starts hstate hsound _
    · cases hstep

/-! ### A start that is refused -/

/-- Everything succeeds, and the starter starts this execution. -/
def starting (execution : ScheduleExecution) : Seams :=
  { willing with startScheduledWorkflow := fun _ _ _ => .ok execution }

/-- The starter refuses. -/
def refusing : Seams :=
  { willing with startScheduledWorkflow := fun _ _ _ => .error (.sideEffect "starter is down") }

/-- Fires every minute and buffers one tick while an execution is running; created at instant 0. -/
def minutelyBuffering : ScheduleEvaluator :=
  (createSchedule intervalLibrary willing ⟨0⟩ { minutely with overlapPolicy :=
      .bufferOne } 0 .empty).2

/-- The first tick starts an execution, and the second is buffered. -/
def bufferedCalls : List ScheduleCall :=
  [.tick (starting ⟨⟨1⟩, ⟨1⟩⟩) ⟨0⟩ 60000000000, .tick willing ⟨0⟩ 120000000000]

/-- The execution completes while the starter refuses. -/
def refusedCompletion : ScheduleCall := .complete refusing ⟨0⟩ ⟨⟨1⟩, ⟨1⟩⟩ 130000000000

/-- The completion is handed in again, and the starter would start an execution. -/
def repeatedCompletion : ScheduleCall := .complete (starting ⟨⟨2⟩, ⟨2⟩⟩) ⟨0⟩ ⟨⟨1⟩, ⟨1⟩⟩ 140000000000

theorem fresh_minutelyBuffering : Fresh minutelyBuffering := by
  intro scheduleId state hstate
  refine ⟨?_, Finset.notMem_empty scheduleId⟩
  by_cases hid : scheduleId = ⟨0⟩
  · subst hid
    obtain rfl := Option.some.inj hstate
    rfl
  · have hnone : minutelyBuffering.states scheduleId = none := Function.update_of_ne hid _ _
    rw [hnone] at hstate
    cases hstate

/-- The buffered tick is lost: the completion fails because the start is refused, and the tick,
which was handled, no longer waits; it is not started when the completion is handed in again. -/
theorem refused_start_loses_the_tick :
    (∃ world, Actions.run (AccountedEvaluator.step intervalLibrary) Actions.Always
        ⟨minutelyBuffering, fun _ => .empty⟩ bufferedCalls = some world ∧
      decide (refusedCompletion.startRefused world.evaluator = true ∧
        (refusedCompletion.ends intervalLibrary world.evaluator).1 = false ∧
          ⟨0⟩ ∈ world.evaluator.pendingTicks ∧
        ⟨0⟩ ∉ (refusedCompletion.ends intervalLibrary world.evaluator).2.pendingTicks) = true) ∧
    ∃ world, Actions.run (AccountedEvaluator.step intervalLibrary) Actions.Always
        ⟨minutelyBuffering, fun _ => .empty⟩
          (bufferedCalls ++ [refusedCompletion, repeatedCompletion]) = some world ∧
      decide ((world.accounts ⟨0⟩).handled = [60000000000, 120000000000] ∧
          (world.accounts ⟨0⟩).started = [60000000000] ∧
        (world.accounts ⟨0⟩).skipped = [] ∧ waiting ⟨0⟩ world.evaluator (world.accounts ⟨0⟩) = []) =
          true :=
  ⟨(Option.any_eq_true _ _).mp (by decide +kernel), (Option.any_eq_true _ _).mp (by decide +kernel)⟩

/-- When the starter does not refuse, the completion starts the buffered tick. -/
theorem overlap_accounting_minutely :
    ∃ world : AccountedEvaluator, (∃ state, world.evaluator.states ⟨0⟩ = some state ∧
        state.config.overlapPolicy = .bufferOne) ∧
      (world.accounts ⟨0⟩).handled = [60000000000, 120000000000] ∧
        (world.accounts ⟨0⟩).running.length ≤ 1 ∧
      ((world.accounts ⟨0⟩).started ++ (world.accounts ⟨0⟩).skipped ++
        waiting ⟨0⟩ world.evaluator (world.accounts ⟨0⟩)).Perm [60000000000, 120000000000] := by
  have hrun : ∃ world, Actions.run (AccountedEvaluator.step intervalLibrary) (Sound intervalLibrary)
      ⟨minutelyBuffering, fun _ => .empty⟩ (bufferedCalls ++ [repeatedCompletion]) = some world ∧
      decide ((world.accounts ⟨0⟩).handled = [60000000000, 120000000000] ∧
        (world.evaluator.states ⟨0⟩).any (fun state => state.config.overlapPolicy = .bufferOne) = true) = true :=
    (Option.any_eq_true _ _).mp (by decide +kernel)
  obtain ⟨world, hrun, hends⟩ := hrun
  obtain ⟨hhandled, hstate⟩ := of_decide_eq_true hends
  obtain ⟨state, hstate, hpol⟩ := (Option.any_eq_true _ _).mp hstate
  obtain ⟨hone, -, hperm, -⟩ :=
    overlap_accounting intervalLibrary fresh_minutelyBuffering
      (Actions.reachable_of_run hrun) hstate
  have hpol := of_decide_eq_true hpol
  exact ⟨world, ⟨state, hstate, hpol⟩, hhandled, hone (.inr hpol), hhandled ▸ hperm⟩

end Aion.Schedule
