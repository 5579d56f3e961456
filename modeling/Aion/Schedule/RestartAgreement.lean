import Aion.Schedule.Evaluator

/-!
# Restarting the schedule evaluator

After a restart the evaluator takes its states from the recorded events. A tick that starts
an execution is recorded at its own instant, so the projection goes on from there as the
live evaluator does. A tick that is skipped or buffered advances the live evaluator and is
not recorded: after a restart it is still to come.

`restart_agrees_iff`: along a run, the recovered schedules agree with the live ones in every
state exactly when every tick of the run starts an execution.
-/

namespace Aion.Schedule

open ScheduleEvaluator

variable {Cron : Type}

/-! ### Runs -/

/-- A call of the evaluator. -/
inductive Call where
  /-- A schedule is created. -/
  | create (scheduleId : ScheduleId)
  /-- The timer of a schedule fires. -/
  | tick (scheduleId : ScheduleId)
  /-- The current execution of a schedule completes. -/
  | complete (scheduleId : ScheduleId)
  deriving DecidableEq

/-- A call that succeeds: a new schedule is created, a timer fires at the instant it is armed
for, or an execution completes at any instant. -/
inductive Succeeds (library : TimeLibrary Cron) :
    ScheduleEvaluator → Call → ScheduleEvaluator → Prop where
  /-- A new schedule is created. -/
  | create {evaluator after : ScheduleEvaluator} {seams : Seams} {scheduleId created : ScheduleId}
    {config : ScheduleConfig} {recordedAt : Instant} (fresh : evaluator.states scheduleId = none)
    (h : createSchedule library seams scheduleId config recordedAt evaluator = (.ok created, after)) :
    Succeeds library evaluator (.create scheduleId) after
  /-- A timer fires. -/
  | tick {evaluator after : ScheduleEvaluator} {seams : Seams} {scheduleId : ScheduleId}
    {state : ScheduleState}
    {outcome : TimerEvaluationOutcome} (armed : evaluator.states scheduleId = some state)
    (h : handleTimerFired library seams scheduleId state.nextTriggerAt evaluator = (.ok outcome, after)) :
    Succeeds library evaluator (.tick scheduleId) after
  /-- An execution completes. -/
  | complete {evaluator after : ScheduleEvaluator} {seams : Seams} {scheduleId : ScheduleId}
    {completedAt : Instant}
    {started : Option ScheduleExecution}
    (h : completeCurrentExecution seams scheduleId completedAt evaluator = (.ok started, after)) :
    Succeeds library evaluator (.complete scheduleId) after

/-- An evaluator without schedules. -/
def ScheduleEvaluator.empty : ScheduleEvaluator := ⟨fun _ => none, ∅, []⟩

/-- Calls that succeed one after another, each with the evaluator before it. -/
inductive EvaluatorRun (library : TimeLibrary Cron) :
    List (ScheduleEvaluator × Call) → ScheduleEvaluator → Prop where
  /-- No call. -/
  | nil : EvaluatorRun library [] .empty
  /-- One call more. -/
  | snoc {steps : List (ScheduleEvaluator × Call)} {evaluator after : ScheduleEvaluator}
    {call : Call}
    (earlier : EvaluatorRun library steps evaluator) (last : Succeeds library evaluator call after) :
    EvaluatorRun library (steps ++ [(evaluator, call)]) after

/-- The schedule decided the tick in one of the steps. -/
def Decided (steps : List (ScheduleEvaluator × Call)) (scheduleId : ScheduleId) (tick : Instant) :
    Prop :=
  ∃ step ∈ steps, step.2 = .tick scheduleId ∧
    ∃ state, step.1.states scheduleId = some state ∧ state.isActive ∧ state.nextTriggerAt = tick

/-- A restart now agrees with the live evaluator: every schedule is recovered with its next
trigger; a recovery plans from it what it would plan from the live state, and fires no tick
that the evaluator has decided. -/
def RestartAgrees (library : TimeLibrary Cron) (steps : List (ScheduleEvaluator × Call))
    (evaluator : ScheduleEvaluator) : Prop :=
  ∀ scheduleId state, evaluator.states scheduleId = some state →
    ∃ recovered, recoveredState library evaluator.recorded scheduleId = .ok (some recovered) ∧
      recovered.nextTriggerAt = state.nextTriggerAt ∧
      (∀ now, recoveryPlan library recovered now = recoveryPlan library state now) ∧
      ∀ now plan, recoveryPlan library recovered now = .ok plan →
        ∀ fire ∈ plan.fireTimes, ¬ Decided steps scheduleId fire

/-- A restart agrees with the live evaluator all along. -/
def AgreesThroughout (library : TimeLibrary Cron) (steps : List (ScheduleEvaluator × Call))
    (final : ScheduleEvaluator) : Prop :=
  (∀ before step after, steps = before ++ step :: after → RestartAgrees library before step.1) ∧
    RestartAgrees library steps final

/-- A tick of the step starts an execution. -/
def TickStarts (step : ScheduleEvaluator × Call) : Prop :=
  ∀ scheduleId state, step.2 = .tick scheduleId → step.1.states scheduleId = some state →
    state.isActive → Starts state

/-! ### Decided ticks are past -/

variable {library : TimeLibrary Cron} {steps : List (ScheduleEvaluator × Call)}
  {evaluator after : ScheduleEvaluator}
  {call : Call}

variable {scheduleId : ScheduleId} {state' : ScheduleState} {event : Event}

/-- What a call does to the trigger of a schedule: only a tick changes it, to a later one. -/
theorem Succeeds.states_cases (h : Succeeds library evaluator call after)
    (hafter : after.states scheduleId = some state') :
    evaluator.states scheduleId = none ∨ ∃ state, evaluator.states scheduleId = some state ∧
      state.nextTriggerAt ≤ state'.nextTriggerAt ∧
      (call = .tick scheduleId → state.isActive → state.nextTriggerAt < state'.nextTriggerAt) := by
  cases h with
  | @create _ _ id _ _ _ fresh h =>
    obtain ⟨created, -, hsts, -⟩ := createSchedule_eq_ok h
    by_cases hid : scheduleId = id
    · subst hid
      exact .inl fresh
    · rw [hsts, Function.update_of_ne hid] at hafter
      exact .inr ⟨state', hafter, le_rfl, by rintro ⟨⟩⟩
  | @tick _ _ id armed _ harmed h =>
    obtain ⟨state, hst, hcases⟩ := handleTimerFired_eq_ok h
    obtain rfl : armed = state := Option.some.inj (harmed.symm.trans hst)
    by_cases hid : scheduleId = id
    · subst hid
      refine .inr ⟨armed, hst, ?_⟩
      rcases hcases with ⟨hinactive, rfl⟩ | ⟨next, -, hnext, ⟨-, execution, hsts, -⟩ | ⟨-, hsts, -⟩⟩
      · obtain rfl : armed = state' := Option.some.inj (hst.symm.trans hafter)
        exact ⟨le_rfl, fun _ hact => absurd hact (by simp [hinactive])⟩
      · rw [hsts, Function.update_self] at hafter
        cases hafter
        have hlt := lt_of_nextFireTime hnext
        exact ⟨hlt.le, fun _ _ => hlt⟩
      · rw [hsts, Function.update_self] at hafter
        cases hafter
        have hlt := lt_of_nextFireTime hnext
        exact ⟨hlt.le, fun _ _ => hlt⟩
    · have hsame : after.states scheduleId = evaluator.states scheduleId := by
        rcases hcases with ⟨-, rfl⟩ | ⟨next, -, -, ⟨-, execution, hsts, -⟩ | ⟨-, hsts, -⟩⟩
        · rfl
        · rw [hsts, Function.update_of_ne hid]
        · rw [hsts, Function.update_of_ne hid]
      exact .inr ⟨state', hsame.symm.trans hafter, le_rfl, fun heq => absurd (Call.tick.inj heq).symm hid⟩
  | @complete _ _ id _ _ h =>
    obtain ⟨state, hst, -, ⟨cleared, hsts, hnext, -⟩, -⟩ := completeCurrentExecution_eq_ok h
    by_cases hid : scheduleId = id
    · subst hid
      rw [hsts, Function.update_self] at hafter
      cases hafter
      exact .inr ⟨state, hst, hnext.ge, by rintro ⟨⟩⟩
    · rw [hsts, Function.update_of_ne hid] at hafter
      exact .inr ⟨state', hafter, le_rfl, by rintro ⟨⟩⟩

/-- A schedule once there stays. -/
theorem Succeeds.states_ne_none (h : Succeeds library evaluator call after)
    (hst : evaluator.states scheduleId ≠ none) : after.states scheduleId ≠ none := by
  have hupdate :
      ∀ id state, Function.update evaluator.states id (some state) scheduleId ≠ none := by
    intro id state
    by_cases hid : scheduleId = id
    · subst hid
      simp
    · rwa [Function.update_of_ne hid]
  cases h with
  | create _ h =>
    obtain ⟨created, -, hsts, -⟩ := createSchedule_eq_ok h
    rw [hsts]
    exact hupdate _ _
  | tick _ h =>
    obtain ⟨state, -, ⟨-, rfl⟩ | ⟨next, -, -, ⟨-, execution, hsts, -⟩ | ⟨-, hsts, -⟩⟩⟩ :=
      handleTimerFired_eq_ok h
    · exact hst
    · rw [hsts]
      exact hupdate _ _
    · rw [hsts]
      exact hupdate _ _
  | complete h =>
    obtain ⟨state, -, -, ⟨cleared, hsts, -⟩, -⟩ := completeCurrentExecution_eq_ok h
    rw [hsts]
    exact hupdate _ _

/-- **Decided ticks are past**: every tick a schedule has decided is before its next. -/
theorem EvaluatorRun.decided_lt (run : EvaluatorRun library steps evaluator) {tick : Instant}
    (hdecd : Decided steps scheduleId tick) :
    ∃ state, evaluator.states scheduleId = some state ∧ tick < state.nextTriggerAt := by
  induction run with
  | nil =>
    obtain ⟨step, hstep, -⟩ := hdecd
    cases hstep
  | @snoc steps evaluator after call earlier last ih =>
    obtain ⟨step, hstep, hcall, state, hst, hact, rfl⟩ := hdecd
    rcases List.mem_append.mp hstep with hstep | hstep
    · obtain ⟨mid, hmid, hlt⟩ := ih ⟨step, hstep, hcall, state, hst, hact, rfl⟩
      obtain ⟨state', hst'⟩ := Option.ne_none_iff_exists'.mp (last.states_ne_none (by rw [hmid]; simp))
      rcases last.states_cases hst' with hnone | ⟨before, hbef, hle, -⟩
      · rw [hmid] at hnone
        cases hnone
      · obtain rfl : mid = before := Option.some.inj (hmid.symm.trans hbef)
        exact ⟨state', hst', hlt.trans_le hle⟩
    · obtain rfl := List.mem_singleton.mp hstep
      dsimp only at hcall hst
      obtain ⟨state', hst'⟩ := Option.ne_none_iff_exists'.mp (last.states_ne_none (by rw [hst]; simp))
      rcases last.states_cases hst' with hnone | ⟨before, hbef, -, hlt⟩
      · rw [hst] at hnone
        cases hnone
      · obtain rfl : state = before := Option.some.inj (hst.symm.trans hbef)
        exact ⟨state', hst', hlt hcall hact⟩

/-! ### The projection mirrors the evaluator -/

/-- What is recorded stands for the live states: every projected schedule has the
configuration and the next trigger of the live one, and every live one is projected. -/
structure Mirrors (evaluator : ScheduleEvaluator) (projected : List ScheduleState) : Prop where
  /-- What is projected is live. -/
  live : ∀ recovered ∈ projected, ∃ state, evaluator.states recovered.scheduleId = some state ∧
    recovered.config = state.config ∧ recovered.nextTriggerAt = state.nextTriggerAt
  /-- What is live is projected. -/
  projected : ∀ scheduleId, evaluator.states scheduleId ≠ none → ∃ recovered ∈ projected,
    recovered.scheduleId = scheduleId

theorem projectScheduleState_concat {events : List Event} {projected : List ScheduleState}
    (h : projectScheduleState library events = .ok projected) :
    projectScheduleState library (events ++ [event]) = projectEvent library projected event := by
  unfold projectScheduleState at h ⊢
  rw [List.foldlM_append, h]
  exact bind_pure (projectEvent library projected event)

/-- The next trigger a restart recovers is the live one, when the projection mirrors the
evaluator. -/
theorem Mirrors.recovered {projected : List ScheduleState} (h : Mirrors evaluator projected)
    (hproj : projectScheduleState library evaluator.recorded = .ok projected)
    {state : ScheduleState} (hst : evaluator.states scheduleId = some state) :
    ∃ recovered, recoveredState library evaluator.recorded scheduleId = .ok (some recovered) ∧
      recovered.config = state.config ∧ recovered.nextTriggerAt = state.nextTriggerAt := by
  obtain ⟨entry, hent, hid⟩ := h.projected scheduleId (by rw [hst]; simp)
  have hsome : (projected.find? fun state => state.scheduleId = scheduleId).isSome := by
    rw [List.find?_isSome]
    exact ⟨entry, hent, by simpa using hid⟩
  obtain ⟨recovered, hfd⟩ := Option.isSome_iff_exists.mp hsome
  obtain ⟨live, hlive, hconfig, hnext⟩ := h.live recovered (List.mem_of_find?_eq_some hfd)
  have hrecov : recovered.scheduleId = scheduleId := by simpa using List.find?_some hfd
  obtain rfl : live = state := Option.some.inj ((hrecov ▸ hlive).symm.trans hst)
  refine ⟨recovered, ?_, hconfig, hnext⟩
  rw [recoveredState, hproj]
  exact congrArg Except.ok hfd

/-- A restart agrees when the projection mirrors the evaluator. -/
theorem Mirrors.restartAgrees {projected : List ScheduleState} (h : Mirrors evaluator projected)
    (hproj : projectScheduleState library evaluator.recorded = .ok projected)
    (run : EvaluatorRun library steps evaluator) : RestartAgrees library steps evaluator := by
  intro scheduleId state hst
  obtain ⟨recovered, hrecov, hconfig, hnext⟩ := h.recovered hproj hst
  have hplan : ∀ now, recoveryPlan library recovered now = recoveryPlan library state now := by
    intro now
    rw [recoveryPlan, recoveryPlan, hconfig, hnext]
  refine ⟨recovered, hrecov, hnext, hplan, fun now plan hok fire hfire hdecd => ?_⟩
  -- A recovery fires from the next trigger on, and what was decided is before it.
  obtain ⟨state', hst', hlt⟩ := run.decided_lt hdecd
  obtain rfl : state = state' := Option.some.inj (hst.symm.trans hst')
  have hle := le_of_mem_fireTimes hok fire hfire
  rw [hnext] at hle
  exact absurd hlt (not_lt.mpr hle)

/-- A creation of a new schedule is projected. -/
theorem Mirrors.create {projected : List ScheduleState} (h : Mirrors evaluator projected)
    {scheduleId : ScheduleId} {config : ScheduleConfig} {recordedAt : Instant}
    {state : ScheduleState} {event : Event} (fresh : evaluator.states scheduleId = none)
    (hcrtd : ScheduleState.created library scheduleId config recordedAt = .ok state)
    (hsts : after.states = Function.update evaluator.states scheduleId (some state))
    (hev : event.recordedAt = recordedAt ∧ event.body = .scheduleCreated scheduleId config) :
    ∃ projected', projectEvent library projected event = .ok projected' ∧
      Mirrors after projected' := by
  have hnot : projected.any (fun state => state.scheduleId = scheduleId) = false := by
    rw [List.any_eq_false]
    intro recovered hmem hid
    obtain ⟨live, hlive, -⟩ := h.live recovered hmem
    rw [of_decide_eq_true hid, fresh] at hlive
    cases hlive
  have hid : state.scheduleId = scheduleId := by
    obtain ⟨next, -, hst⟩ := Result.bind_eq_ok hcrtd
    cases hst
    rfl
  refine ⟨projected ++ [state], ?_, ?_, ?_⟩
  · rw [projectEvent, hev.2, hev.1]
    dsimp only
    rw [if_neg (by simp [hnot]), hcrtd]
    rfl
  · intro recovered hmem
    rcases List.mem_append.mp hmem with hmem | hmem
    · obtain ⟨live, hlive, hsame⟩ := h.live recovered hmem
      refine ⟨live, ?_, hsame⟩
      rw [hsts, Function.update_of_ne, hlive]
      rintro heq
      rw [heq, fresh] at hlive
      cases hlive
    · obtain rfl := List.mem_singleton.mp hmem
      exact ⟨recovered, by rw [hsts, hid, Function.update_self], rfl, rfl⟩
  · intro id hlive
    by_cases heq : id = scheduleId
    · subst heq
      exact ⟨state, by simp, hid⟩
    · rw [hsts, Function.update_of_ne heq] at hlive
      obtain ⟨recovered, hmem, hrecov⟩ := h.projected id hlive
      exact ⟨recovered, List.mem_append_left _ hmem, hrecov⟩

/-- A start that is recorded at the instant of its tick is projected. -/
theorem Mirrors.start {projected : List ScheduleState} (h : Mirrors evaluator projected)
    {fireAt next : Instant} {state : ScheduleState} {workflowId : WorkflowId} {runId : RunId}
    (hst : evaluator.states scheduleId = some state)
    (hnext : nextFireTime library state.config.trigger fireAt = .ok next)
    (hsts : after.states = Function.update evaluator.states scheduleId (some state'))
    (hsame : state'.config = state.config ∧ state'.nextTriggerAt = next)
    (hev : event.recordedAt = fireAt ∧
        event.body = .scheduleTriggered scheduleId workflowId runId) :
    ∃ projected', projectEvent library projected event = .ok projected' ∧
      Mirrors after projected' := by
  let advanced : ScheduleState → ScheduleState := fun recovered =>
    if scheduleId = recovered.scheduleId then
      { recovered with
        lastTriggeredAt := some fireAt
        currentExecution := some ⟨workflowId, runId⟩
        nextTriggerAt := next }
    else recovered
  have hid : ∀ recovered, (advanced recovered).scheduleId = recovered.scheduleId := by
    intro recovered
    simp only [advanced]
    split <;> rfl
  have happly : ∀ recovered ∈ projected, recovered.apply library event =
      .ok (advanced recovered) := by
    intro recovered hmem
    obtain ⟨live, hlive, hconfig, -⟩ := h.live recovered hmem
    simp only [ScheduleState.apply, hev.1, hev.2, advanced]
    split_ifs with heq
    · subst heq
      obtain rfl : live = state := Option.some.inj (hlive.symm.trans hst)
      rw [hconfig, hnext]
      rfl
    · rfl
  refine ⟨projected.map advanced, ?_, ?_, ?_⟩
  · have hmap : (projected.map id).mapM (fun state => state.apply library event) =
      .ok (projected.map advanced) :=
      Result.mapM_map_eq_ok happly
    rw [List.map_id] at hmap
    rw [projectEvent, hev.2]
    exact hmap
  · intro recovered hmem
    obtain ⟨before, hbef, rfl⟩ := List.mem_map.mp hmem
    obtain ⟨live, hlive, hconfig, hlast⟩ := h.live before hbef
    rw [hid, hsts]
    by_cases heq : before.scheduleId = scheduleId
    · subst heq
      obtain rfl : live = state := Option.some.inj (hlive.symm.trans hst)
      refine ⟨state', Function.update_self .., ?_, ?_⟩
      · simpa [advanced, hsame.1] using hconfig
      · simp [advanced, hsame.2]
    · refine ⟨live, by rw [Function.update_of_ne heq, hlive], ?_, ?_⟩
      · simpa [advanced, Ne.symm heq] using hconfig
      · simpa [advanced, Ne.symm heq] using hlast
  · intro id hlive
    have hbef : evaluator.states id ≠ none := by
      by_cases heq : id = scheduleId
      · subst heq
        rw [hst]
        simp
      · rwa [hsts, Function.update_of_ne heq] at hlive
    obtain ⟨recovered, hmem, hrecov⟩ := h.projected id hbef
    exact ⟨advanced recovered, List.mem_map_of_mem hmem, by rw [hid, hrecov]⟩

/-- A change of a state that keeps its configuration and its next trigger needs no event. -/
theorem Mirrors.keep {projected : List ScheduleState} (h : Mirrors evaluator projected)
    {state : ScheduleState} (hst : evaluator.states scheduleId = some state)
    (hsts : after.states = Function.update evaluator.states scheduleId (some state'))
    (hconfig : state'.config = state.config) (hnext : state'.nextTriggerAt = state.nextTriggerAt) :
    Mirrors after projected where
  live := by
    intro recovered hmem
    obtain ⟨live, hlive, hsame⟩ := h.live recovered hmem
    rw [hsts]
    by_cases heq : recovered.scheduleId = scheduleId
    · subst heq
      obtain rfl : live = state := Option.some.inj (hlive.symm.trans hst)
      exact ⟨state', Function.update_self .., by rw [hconfig, hsame.1], by rw [hnext, hsame.2]⟩
    · exact ⟨live, by rw [Function.update_of_ne heq, hlive], hsame⟩
  projected := by
    intro id hlive
    refine h.projected id ?_
    by_cases heq : id = scheduleId
    · subst heq
      rw [hst]
      simp
    · rwa [hsts, Function.update_of_ne heq] at hlive

/-! ### Agreement -/

/-- No tick is pending, and the projection of what is recorded mirrors the evaluator. -/
def Projected (library : TimeLibrary Cron) (evaluator : ScheduleEvaluator) : Prop :=
  evaluator.pendingTicks = ∅ ∧
    ∃ projected, projectScheduleState library evaluator.recorded = .ok projected ∧
      Mirrors evaluator projected

theorem projected_empty : Projected library .empty := by
  refine ⟨rfl, [], rfl, ?_, ?_⟩
  · simp
  · intro scheduleId hlive
    exact absurd rfl hlive

/-- A recorded event is projected when the last step of the projection succeeds. -/
theorem Projected.of_recorded {projected : List ScheduleState} {recordedAt : Instant}
    {body : EventBody} (hpend : after.pendingTicks = ∅)
    (hproj : projectScheduleState library evaluator.recorded = .ok projected)
    (hrecd : after.recorded = (evaluator.record recordedAt body).recorded)
    (hlast : ∀ event : Event, event.recordedAt = recordedAt ∧ event.body = body →
        ∃ projected', projectEvent library projected event = .ok projected' ∧
      Mirrors after projected') : Projected library after := by
  obtain ⟨projected', hev, hmirr⟩ := hlast
    ⟨⟨evaluator.recorded.length + 1, recordedAt, coordinatorWorkflowId⟩, body⟩ ⟨rfl, rfl⟩
  refine ⟨hpend, projected', ?_, hmirr⟩
  rw [hrecd, ← hev]
  exact projectScheduleState_concat hproj

/-- **One call**: where ticks start executions, the projection goes on with the evaluator. -/
theorem Projected.step (h : Projected library evaluator)
    (last : Succeeds library evaluator call after) (hstarts : TickStarts (evaluator, call)) :
    Projected library after := by
  obtain ⟨hpend, projected, hproj, hmirr⟩ := h
  cases last with
  | create fresh h =>
    obtain ⟨state, hcrtd, hsts, hpendingTicks, hrecd⟩ := createSchedule_eq_ok h
    refine .of_recorded (hpendingTicks.trans hpend) hproj hrecd fun event hev => ?_
    exact hmirr.create fresh hcrtd hsts hev
  | @tick _ _ id state _ harmed h =>
    obtain ⟨found, hfd, hcases⟩ := handleTimerFired_eq_ok h
    obtain rfl : state = found := Option.some.inj (harmed.symm.trans hfd)
    rcases hcases with ⟨-, rfl⟩ | ⟨next, hact, hnext,
      ⟨-, execution, hsts, hpendingTicks, hrecd⟩ | ⟨hnot, -⟩⟩
    · exact ⟨hpend, projected, hproj, hmirr⟩
    · refine .of_recorded (hpendingTicks.trans hpend) hproj hrecd fun event hev => ?_
      exact hmirr.start harmed hnext hsts ⟨rfl, rfl⟩ hev
    · exact absurd (hstarts id state rfl harmed hact) hnot
  | complete h =>
    obtain ⟨state, hst, hsubset, ⟨state', hsts, hnext, hconfig, -⟩, hrecd⟩ :=
      completeCurrentExecution_eq_ok h
    rw [hpend] at hsubset hrecd
    refine ⟨Finset.subset_empty.mp hsubset, projected, ?_, hmirr.keep hst hsts hconfig hnext⟩
    rw [hrecd (Finset.notMem_empty _)]
    exact hproj

/-- A tick that starts nothing is still to come after a restart. -/
theorem Projected.tickStarts (h : Projected library evaluator)
    (last : Succeeds library evaluator call after) (hagrees : RestartAgrees library steps after) :
    TickStarts (evaluator, call) := by
  obtain ⟨-, projected, hproj, hmirr⟩ := h
  rintro scheduleId state rfl hst hact
  cases last with
  | tick harmed h =>
    obtain rfl := Option.some.inj (harmed.symm.trans hst)
    obtain ⟨found, hfd, hcases⟩ := handleTimerFired_eq_ok h
    obtain rfl := Option.some.inj (harmed.symm.trans hfd)
    rcases hcases with ⟨hinactive, -⟩ | ⟨next, -, hnext, ⟨hstarts, -⟩ | ⟨-, hsts, hrecd⟩⟩
    · exact absurd hact (by simp [hinactive])
    · exact hstarts
    · -- The live schedule advances, and what is recorded stays.
      obtain ⟨recovered, hrecov, -, hbef⟩ := hmirr.recovered hproj hfd
      obtain ⟨recovered', hrecov', hafter, -⟩ := hagrees scheduleId _ (by rw [hsts, Function.update_self])
      rw [hrecd, hrecov] at hrecov'
      cases hrecov'
      have hlt := lt_of_nextFireTime hnext
      rw [← hbef, hafter] at hlt
      exact absurd hlt (lt_irrefl _)

/-- Where all ticks start executions, the projection is with the evaluator all along. -/
theorem EvaluatorRun.projected (run : EvaluatorRun library steps evaluator)
    (hstarts : ∀ step ∈ steps, TickStarts step) : Projected library evaluator := by
  induction run with
  | nil => exact projected_empty
  | snoc earlier last ih =>
    exact (ih fun step hstep => hstarts step (List.mem_append_left _ hstep)).step last
      (hstarts _ (by simp))

/-- Where a restart agrees all along, all ticks start executions. -/
theorem EvaluatorRun.tickStarts (run : EvaluatorRun library steps evaluator)
    (hagrees : AgreesThroughout library steps evaluator) : ∀ step ∈ steps, TickStarts step := by
  induction run with
  | nil => simp
  | @snoc steps evaluator after call earlier last ih =>
    obtain ⟨hbef, hfinal⟩ := hagrees
    have hearl : ∀ step ∈ steps, TickStarts step := by
      refine ih ⟨fun before step later hsteps => ?_, hbef steps (evaluator, call) [] rfl⟩
      exact hbef before step (later ++ [(evaluator, call)]) (by simp [hsteps])
    intro step hstep
    rcases List.mem_append.mp hstep with hstep | hstep
    · exact hearl step hstep
    · rw [List.mem_singleton.mp hstep]
      exact (earlier.projected hearl).tickStarts last hfinal

/-- Every part of a run is a run. -/
theorem EvaluatorRun.before (run : EvaluatorRun library steps evaluator)
    {before later : List (ScheduleEvaluator × Call)} {step : ScheduleEvaluator × Call}
    (hsteps : steps = before ++ step :: later) : EvaluatorRun library before step.1 := by
  induction run generalizing later with
  | nil => simp at hsteps
  | @snoc steps evaluator after call earlier last ih =>
    rcases List.eq_nil_or_concat later with rfl | ⟨later, final, rfl⟩
    · obtain ⟨rfl, hlast⟩ := List.append_inj' hsteps rfl
      cases hlast
      exact earlier
    · rw [List.concat_eq_append, ← List.cons_append, ← List.append_assoc] at hsteps
      exact ih (List.append_inj' hsteps rfl).1

/-- **Restarts agree exactly where ticks start**: along a run of creations, ticks and
completions, the recovered schedules agree with the live ones in every state if and only if
every tick fires while no execution is current or under a policy that starts one anyway. -/
theorem restart_agrees_iff {Cron : Type} (library : TimeLibrary Cron)
    (steps : List (ScheduleEvaluator × Call)) (final : ScheduleEvaluator)
    (run : EvaluatorRun library steps final) :
    AgreesThroughout library steps final ↔ ∀ step ∈ steps, TickStarts step := by
  refine ⟨run.tickStarts, fun hstarts => ⟨fun before step later hsteps => ?_, ?_⟩⟩
  · have hbef := run.before hsteps
    obtain ⟨-, projected, hproj, hmirr⟩ := hbef.projected fun earlier hmem =>
      hstarts earlier (by rw [hsteps]; exact List.mem_append_left _ hmem)
    exact hmirr.restartAgrees hproj hbef
  · obtain ⟨-, projected, hproj, hmirr⟩ := run.projected hstarts
    exact hmirr.restartAgrees hproj run

/-! ### A schedule that fires every minute -/

/-- The range of `chrono`, without cron expressions. -/
def intervalLibrary : TimeLibrary Empty where
  fromStr := fun _ => .error "no cron expressions"
  nextAfter := fun cron _ => cron.elim
  longest := 9223372036854775807000000
  latest := 8210266876799999999999

/-- Everything succeeds, and every start gives the same execution. -/
def willing : Seams where
  armScheduleTimer := fun _ _ => .ok ()
  startScheduledWorkflow := fun _ _ _ => .ok ⟨⟨1⟩, ⟨1⟩⟩
  cancelScheduledWorkflow := fun _ _ => .ok ()
  recordEvent := .ok ()

/-- Fires every minute and skips ticks while an execution is running. -/
def minutely : ScheduleConfig where
  trigger := .interval 60000000000
  overlapPolicy := .skip
  catchUpPolicy := .one
  workflowType := "checkout"
  input := .empty
  searchAttributes := ∅

/-- A schedule that has been created at instant 0. -/
def minutelyCreated : ScheduleEvaluator :=
  (createSchedule intervalLibrary willing ⟨0⟩ minutely 0 .empty).2

/-- Its first tick has started an execution. -/
def minutelyStarted : ScheduleEvaluator :=
  (handleTimerFired intervalLibrary willing ⟨0⟩ 60000000000 minutelyCreated).2

/-- The tick after that has been skipped. -/
def minutelySkipped : ScheduleEvaluator :=
  (handleTimerFired intervalLibrary willing ⟨0⟩ 120000000000 minutelyStarted).2

/-- The execution has completed before the tick after it. -/
def minutelyCompleted : ScheduleEvaluator :=
  (completeCurrentExecution willing ⟨0⟩ 90000000000 minutelyStarted).2

/-- That tick has started an execution. -/
def minutelyRestarted : ScheduleEvaluator :=
  (handleTimerFired intervalLibrary willing ⟨0⟩ 120000000000 minutelyCompleted).2

theorem run_minutelyStarted :
    EvaluatorRun intervalLibrary [(.empty, .create ⟨0⟩),
        (minutelyCreated, .tick ⟨0⟩)] minutelyStarted := by
  have hcreate : createSchedule intervalLibrary willing ⟨0⟩ minutely 0 .empty = (.ok ⟨0⟩, minutelyCreated) := rfl
  have htick : handleTimerFired intervalLibrary willing ⟨0⟩ 60000000000 minutelyCreated =
      (.ok (.started ⟨⟨1⟩, ⟨1⟩⟩), minutelyStarted) := rfl
  exact .snoc (.snoc .nil (.create rfl hcreate)) (.tick rfl htick)

/-- A tick is skipped while the execution runs, and a restart does not know it. -/
theorem skipped_tick_forgotten : ∃ steps final, EvaluatorRun intervalLibrary steps final ∧
    ¬ AgreesThroughout intervalLibrary steps final := by
  have hrun : EvaluatorRun intervalLibrary [(.empty, .create ⟨0⟩), (minutelyCreated, .tick ⟨0⟩),
      (minutelyStarted, .tick ⟨0⟩)]
      minutelySkipped := by
    have htick : handleTimerFired intervalLibrary willing ⟨0⟩ 120000000000 minutelyStarted =
        (.ok .skipped, minutelySkipped) := rfl
    exact .snoc run_minutelyStarted (.tick rfl htick)
  refine ⟨_, _, hrun, fun hagrees => ?_⟩
  have hstarts := hrun.tickStarts hagrees (minutelyStarted, .tick ⟨0⟩) (by simp) ⟨0⟩ _ rfl rfl rfl
  rcases hstarts with hcur | hpol | hpol
  · cases hcur
  · cases hpol
  · cases hpol

/-- The execution completes before the tick, and a restart agrees all along. -/
theorem completed_ticks_agree : ∃ steps, EvaluatorRun intervalLibrary steps minutelyRestarted ∧
    steps.map Prod.snd = [.create ⟨0⟩, .tick ⟨0⟩, .complete ⟨0⟩, .tick ⟨0⟩] ∧
    AgreesThroughout intervalLibrary steps minutelyRestarted := by
  have hrun : EvaluatorRun intervalLibrary [(.empty, .create ⟨0⟩), (minutelyCreated, .tick ⟨0⟩),
      (minutelyStarted, .complete ⟨0⟩), (minutelyCompleted, .tick ⟨0⟩)] minutelyRestarted := by
    have hcomplete : completeCurrentExecution willing ⟨0⟩ 90000000000 minutelyStarted =
        (.ok none, minutelyCompleted) := rfl
    have htick : handleTimerFired intervalLibrary willing ⟨0⟩ 120000000000 minutelyCompleted =
        (.ok (.started ⟨⟨1⟩, ⟨1⟩⟩), minutelyRestarted) := rfl
    exact .snoc (.snoc run_minutelyStarted (.complete hcomplete)) (.tick rfl htick)
  refine ⟨_, hrun, rfl, (restart_agrees_iff intervalLibrary _ _ hrun).mpr fun step hstep => ?_⟩
  simp only [List.mem_cons, List.not_mem_nil, or_false] at hstep
  rcases hstep with rfl | rfl | rfl | rfl
  · rintro _ _ ⟨⟩
  · rintro _ state ⟨⟩ hst -
    cases hst
    exact .inl rfl
  · rintro _ _ ⟨⟩
  · rintro _ state ⟨⟩ hst -
    cases hst
    exact .inl rfl

end Aion.Schedule
