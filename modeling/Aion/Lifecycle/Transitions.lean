import Aion.Lifecycle.Reopen
import Mathlib.Logic.Relation

/-!
# Lifecycle transitions

A workflow's history grows by the lifecycle transitions of the engine, each behind
its own check, and by events that are none of the lifecycle's business. Pause and
resume ask `status_from_events` (`lifecycle/pause.rs`), the terminal transitions and
reopen ask `current_lease_terminal` (`lifecycle/terminate.rs`, `completion.rs`,
`deadline.rs`, `reopen.rs`), each over the segment of the run it was called for. The
two scans stop at different events.

`lifecycle_projections_agree` says that the checks keep the two scans in agreement
over the whole history: the status is terminal exactly when the current lease has a
terminal event, it names that event, and no lease ever has two. What carries the
induction is that a run that has been continued answers every check with a refusal
(`RunStanding`), so only the run that is last in the history moves.
-/

namespace Aion

open Scan

/-! ### The checks -/

/-- How a run ended. -/
inductive TerminalOutcome where
  /-- It completed with a result. -/
  | completed (result : Payload)
  /-- It failed. -/
  | failed (error : WorkflowError)
  /-- It was cancelled. -/
  | cancelled (reason : String)
  /-- Its deadline elapsed. -/
  | timedOut (timeout : String)
  /-- It was continued as a new run. -/
  | continuedAsNew (input : Payload) (workflowType : Option String) (parentRunId : RunId)
  deriving DecidableEq

/-- `terminal_outcome_from_history`. -/
def terminalOutcomeFromHistory (events : List Event) (runId : RunId) : Option TerminalOutcome :=
  match currentLeaseTerminal (runSegment events runId) with
  | some ⟨_, .workflowCompleted result⟩ => some (.completed result)
  | some ⟨_, .workflowFailed error⟩ => some (.failed error)
  | some ⟨_, .workflowCancelled reason⟩ => some (.cancelled reason)
  | some ⟨_, .workflowTimedOut timeout⟩ => some (.timedOut timeout)
  | some ⟨_, .workflowContinuedAsNew input workflowType parentRunId⟩ =>
    if parentRunId = runId then some (.continuedAsNew input workflowType parentRunId) else none
  | _ => none

/-- `workflow_not_found`. -/
def workflowNotFound (id : WorkflowId) (run : RunId) : EngineError :=
  .workflowNotFound (id.display ++ "/" ++ run.display)

/-- The check `pause` and `resume` make of the run's segment, with the status they need
and the word for what they do. -/
def requireStatus (required : WorkflowStatus) (done : String) (history : List Event)
    (id : WorkflowId) (run : RunId) : Except EngineError Unit :=
  if history = [] then .error (workflowNotFound id run)
  else if runSegment history run = [] then .error (workflowNotFound id run)
  else
    let status := statusFromEvents (runSegment history run)
    if status ≠ required then
      .error (.invalidState ("workflow " ++ id.display ++ " run " ++ run.display ++ " is " ++ status.debug ++
        ", not " ++ required.debug ++ "; only a " ++ required.debug ++ " run can be " ++ done))
    else .ok ()

/-- `pause`: what it records. -/
def pause (history : List Event) (id : WorkflowId) (run : RunId) (reason operator : Option String) :
    Except EngineError EventBody := do
  requireStatus .running "paused" history id run
  return .workflowPaused run reason operator

/-- `resume`: what it records. -/
def resume (history : List Event) (id : WorkflowId) (run : RunId) (operator : Option String) :
    Except EngineError EventBody := do
  requireStatus .paused "resumed" history id run
  return .workflowResumed run operator

/-- `reject_if_recorded_terminal`. -/
def rejectIfRecordedTerminal (history : List Event) (id : WorkflowId) (run : RunId) :
    Except EngineError Unit :=
  if (terminalOutcomeFromHistory history run).isSome then
    .error (.runtime ("workflow " ++ id.display ++ " run " ++ run.display ++
      " already recorded a terminal event"))
  else .ok ()

/-- `complete`: what it records. -/
def complete (history : List Event) (id : WorkflowId) (run : RunId) (result : Payload) :
    Except EngineError EventBody := do
  rejectIfRecordedTerminal history id run
  return .workflowCompleted result

/-- `fail`: what it records. -/
def fail (history : List Event) (id : WorkflowId) (run : RunId) (error : WorkflowError) :
    Except EngineError EventBody := do
  rejectIfRecordedTerminal history id run
  return .workflowFailed error

/-- `cancel`: what it records. -/
def cancel (history : List Event) (id : WorkflowId) (run : RunId) (reason : String) :
    Except EngineError EventBody := do
  rejectIfRecordedTerminal history id run
  return .workflowCancelled reason

/-- What an elapsed deadline does. -/
inductive DeadlineDisposition where
  /-- It appended the timeout. -/
  | appended
  /-- Its own timeout is recorded already; it takes up the teardown again. -/
  | resumeTeardown
  /-- Another terminal won, or the deadline is no longer live. -/
  | loseCleanly
  deriving DecidableEq

/-- `decide_disposition`; `outstanding` says whether the deadline's timer is still live. -/
def decideDisposition (history : List Event) (run : RunId) (outstanding : Bool) :
    DeadlineDisposition :=
  match terminalOutcomeFromHistory history run with
  | some (.timedOut _) => .resumeTeardown
  | some _ => .loseCleanly
  | none => if outstanding then .appended else .loseCleanly

/-- The continue-as-new a workflow asks for: what it records. The engine's own
`continue_as_new` makes the same check and refuses pending work besides; only it may
name a workflow type. -/
def continueAsNew (history : List Event) (run : RunId) (input : Payload)
    (workflowType : Option String) : Except DurabilityError EventBody :=
  if (terminalOutcomeFromHistory history run).isSome then
    .error (.historyShape ("continue_as_new rejected: run " ++ run.display ++
      " already recorded a terminal event"))
  else .ok (.workflowContinuedAsNew input workflowType run)

/-- `reopen`: what it records. -/
def reopen (history : List Event) (id : WorkflowId) (run : RunId) : Except EngineError EventBody :=
  if history = [] then .error (workflowNotFound id run)
  else do
    let reopened ← validateAndComputeReopened id run (runSegment history run)
    return .workflowReopened run reopened

variable {id : WorkflowId} {required status : WorkflowStatus} {body : EventBody} {done : String}

theorem requireStatus_eq_ok {history : List Event}
    {run : RunId} (h : requireStatus required done history id run = .ok ()) :
    runSegment history run ≠ [] ∧ statusFromEvents (runSegment history run) = required := by
  by_contra hnot
  rw [not_and_or, not_not] at hnot
  simp only [requireStatus] at h
  rcases hnot with hseg | hstat
  · simp [hseg] at h
  · rw [if_pos hstat] at h
    split_ifs at h

theorem rejectIfRecordedTerminal_eq_ok {history : List Event} {run : RunId}
    (h : rejectIfRecordedTerminal history id run = .ok ()) :
    terminalOutcomeFromHistory history run = none := by
  unfold rejectIfRecordedTerminal at h
  split_ifs at h with hout
  simpa using hout

theorem no_outcome_of_appended {history : List Event} {run : RunId} {outstanding : Bool}
    (h : decideDisposition history run outstanding = .appended) :
    terminalOutcomeFromHistory history run = none := by
  unfold decideDisposition at h
  split at h
  · cases h
  · cases h
  · assumption

theorem reopen_eq_ok {history : List Event} {run : RunId}
    (h : reopen history id run = .ok body) : ∃ reopened, body = .workflowReopened run reopened := by
  unfold reopen at h
  split_ifs at h
  cases hcomputed : validateAndComputeReopened id run (runSegment history run) with
  | error e =>
    rw [hcomputed] at h
    cases h
  | ok reopened =>
    rw [hcomputed] at h
    exact ⟨reopened, (Except.ok.inj h).symm⟩

/-- A check, and then what is recorded. -/
theorem checked_cases {ε α : Type} {check : Except ε Unit} {recorded body : α}
    (h : (do check; return recorded) = Except.ok body) : check = .ok () ∧ body = recorded := by
  cases check with
  | error e => cases h
  | ok u => exact ⟨rfl, (Except.ok.inj h).symm⟩

/-! ### Histories the transitions produce -/

/-- One transition: the event it records is appended. A terminal transition needs the
run's handle, which is registered only once the run has started. -/
inductive LifecycleStep (id : WorkflowId) : List Event → List Event → Prop where
  /-- The workflow's first start. -/
  | start {history : List Event} {envelope : EventEnvelope} {workflowType : String}
    {input : Payload}
    {runId : RunId} {parentRunId : Option RunId} {packageVersion : PackageVersion}
    (first : ∀ event ∈ history, isWorkflowStarted event = false) :
    LifecycleStep id history (history ++
      [⟨envelope, .workflowStarted workflowType input runId parentRunId packageVersion⟩])
  /-- The start of the run a continue-as-new asked for. -/
  | startContinuation {history : List Event} {envelope terminal : EventEnvelope}
    {workflowType : String}
    {input : Payload} {override : Option String} {runId parentRunId : RunId}
    {packageVersion : PackageVersion}
    (ended : currentLeaseTerminal history =
      some ⟨terminal, .workflowContinuedAsNew input override parentRunId⟩) :
    LifecycleStep id history (history ++
      [⟨envelope, .workflowStarted workflowType input runId (some parentRunId) packageVersion⟩])
  /-- A pause. -/
  | pause {history : List Event} {run : RunId} {reason operator : Option String} {body : EventBody}
    {envelope : EventEnvelope} (checked : pause history id run reason operator = .ok body) :
    LifecycleStep id history (history ++ [⟨envelope, body⟩])
  /-- A resume. -/
  | resume {history : List Event} {run : RunId} {operator : Option String} {body : EventBody}
    {envelope : EventEnvelope} (checked : resume history id run operator = .ok body) :
    LifecycleStep id history (history ++ [⟨envelope, body⟩])
  /-- A completion. -/
  | complete {history : List Event} {run : RunId} {result : Payload} {body : EventBody}
    {envelope : EventEnvelope} (registered : ∃ event ∈ history, startsRun run event)
    (checked : complete history id run result = .ok body) :
    LifecycleStep id history (history ++ [⟨envelope, body⟩])
  /-- A failure. -/
  | fail {history : List Event} {run : RunId} {error : WorkflowError} {body : EventBody}
    {envelope : EventEnvelope} (registered : ∃ event ∈ history, startsRun run event)
    (checked : fail history id run error = .ok body) :
    LifecycleStep id history (history ++ [⟨envelope, body⟩])
  /-- A cancellation. -/
  | cancel {history : List Event} {run : RunId} {reason : String} {body : EventBody}
    {envelope : EventEnvelope} (registered : ∃ event ∈ history, startsRun run event)
    (checked : cancel history id run reason = .ok body) :
    LifecycleStep id history (history ++ [⟨envelope, body⟩])
  /-- An elapsed deadline. -/
  | timeOut {history : List Event} {run : RunId} {outstanding : Bool} {envelope : EventEnvelope}
    (registered : ∃ event ∈ history, startsRun run event)
    (checked : decideDisposition history run outstanding = .appended) :
    LifecycleStep id history (history ++ [⟨envelope, .workflowTimedOut "workflow"⟩])
  /-- A continue-as-new. -/
  | continueAsNew {history : List Event} {run : RunId} {input : Payload}
    {workflowType : Option String}
    {body : EventBody} {envelope : EventEnvelope}
    (registered : ∃ event ∈ history, startsRun run event)
    (checked : continueAsNew history run input workflowType = .ok body) :
    LifecycleStep id history (history ++ [⟨envelope, body⟩])
  /-- A reopen. -/
  | reopen {history : List Event} {run : RunId} {body : EventBody} {envelope : EventEnvelope}
    (checked : reopen history id run = .ok body) :
    LifecycleStep id history (history ++ [⟨envelope, body⟩])
  /-- Any event that is not the lifecycle's. -/
  | other {history : List Event} {event : Event} (hev : statusOfEvent event = none) :
    LifecycleStep id history (history ++ [event])

/-! ### The invariant -/

/-- A stretch of the history without a lease start has at most one terminal event. -/
def OneTerminalPerLease (history : List Event) : Prop :=
  ∀ lease, lease <:+: history → (∀ event ∈ lease, isLeaseStart event = false) →
    lease.countP isWorkflowTerminal ≤ 1

/-- The segment is that of a run that was continued. -/
def IsContinued (run : RunId) (segment : List Event) : Prop :=
  (∃ envelope input workflowType, currentLeaseTerminal segment =
    some ⟨envelope, .workflowContinuedAsNew input workflowType run⟩) ∧
    statusFromEvents segment = .continuedAsNew

/-- The run has a segment, and it was continued unless the segment is the last. -/
def RunStanding (history : List Event) (run : RunId) : Prop :=
  ∃ before start body rest, RunSplit run history before start body rest ∧
    (rest ≠ [] → IsContinued run (start :: body))

/-- What every transition keeps. -/
structure LifecycleInvariant (history : List Event) : Prop where
  /-- Without a terminal in the current lease the status is not terminal. -/
  open_status : currentLeaseTerminal history = none → (statusFromEvents history).isTerminal = false
  /-- The status names the current lease's terminal. -/
  closed_status : ∀ terminal, currentLeaseTerminal history = some terminal →
    statusOfEvent terminal = some (statusFromEvents history)
  /-- No lease has two terminals. -/
  one_terminal : OneTerminalPerLease history
  /-- Only the last run can have been continued last. -/
  owned : ∀ envelope input workflowType parent, currentLeaseTerminal history =
    some ⟨envelope, .workflowContinuedAsNew input workflowType parent⟩ →
      lastRunId? history = some parent
  /-- Every run that started is the last one or was continued. -/
  standing : ∀ run, (∃ event ∈ history, startsRun run event) → RunStanding history run

theorem isTerminal_of_isWorkflowTerminal {event : Event} (hterm : isWorkflowTerminal event)
    (hstat : statusOfEvent event = some status) : status.isTerminal := by
  obtain ⟨envelope, body⟩ := event
  cases body <;> first | (cases hstat; rfl) | cases hterm

theorem isWorkflowTerminal_of_currentLeaseTerminal {history : List Event} {terminal : Event}
    (h : currentLeaseTerminal history = some terminal) : isWorkflowTerminal terminal := by
  obtain ⟨_, _, _, hkind, _⟩ := currentLeaseTerminal_eq_some_iff.mp h
  exact hkind

/-- The current lease is closed when the status is terminal, and only then. -/
theorem LifecycleInvariant.isTerminal_iff {history : List Event}
    (inv : LifecycleInvariant history) :
    (statusFromEvents history).isTerminal = true ↔ (currentLeaseTerminal history).isSome := by
  cases hlease : currentLeaseTerminal history with
  | none => simp [inv.open_status hlease]
  | some terminal =>
    have hkind := isWorkflowTerminal_of_currentLeaseTerminal hlease
    simp [isTerminal_of_isWorkflowTerminal hkind (inv.closed_status terminal hlease)]

theorem lifecycleInvariant_nil : LifecycleInvariant [] where
  open_status _ := rfl
  closed_status _ h := by cases h
  one_terminal lease hlease _ := by simp [List.infix_nil.mp hlease]
  owned _ _ _ _ h := by cases h
  standing _ h := by simp at h

section Steps

variable {history : List Event} {event : Event} {run : RunId}

/-- A check that a continued run refuses has been passed by the last run. -/
theorem LifecycleInvariant.exists_last (inv : LifecycleInvariant history)
    (started : ∃ event ∈ history, startsRun run event)
    (passed : ¬ IsContinued run (runSegment history run)) :
    ∃ before start body, RunSplit run history before start body [] := by
  obtain ⟨before, start, body, rest, hspl, hcontd⟩ := inv.standing run started
  by_cases hrest : rest = []
  · exact ⟨before, start, body, hrest ▸ hspl⟩
  · exact absurd (hcontd hrest) (hspl.runSegment_eq ▸ passed)

/-- Within a lease that has no terminal so far, a further event makes at most one. -/
theorem OneTerminalPerLease.concat (one : OneTerminalPerLease history)
    (fresh : isWorkflowTerminal event → currentLeaseTerminal history = none) :
    OneTerminalPerLease (history ++ [event]) := by
  intro lease hinfix hlease
  rcases List.infix_concat_iff.mp hinfix with hsuffix | hinfix
  · rcases List.suffix_concat_iff.mp hsuffix with rfl | ⟨shorter, rfl, hshorter⟩
    · simp
    · have hopen : ∀ e ∈ shorter, isLeaseStart e = false := fun e he => hlease e (by simp [he])
      by_cases hev : isWorkflowTerminal event
      · -- a terminal in the same lease would be the current lease's terminal
        have hnone : shorter.countP isWorkflowTerminal = 0 := by
          rw [List.countP_eq_zero]
          exact not_terminal_of_open (fresh hev) hshorter hopen
        simp [List.countP_append, hnone, hev]
      · have hcount := one shorter hshorter.isInfix hopen
        simpa [List.countP_append, hev] using hcount
  · exact one lease hinfix hlease

/-- The standing of the runs when no run starts. -/
theorem LifecycleInvariant.standing_concat (inv : LifecycleInvariant history)
    (hev : isWorkflowStarted event = false) (started : ∃ e ∈ history ++ [event], startsRun run e) :
    RunStanding (history ++ [event]) run := by
  have started' : ∃ e ∈ history, startsRun run e := by
    obtain ⟨e, hmem, hstarts⟩ := started
    rcases List.mem_append.mp hmem with hmem | hmem
    · exact ⟨e, hmem, hstarts⟩
    · rw [List.mem_singleton.mp hmem] at hstarts
      rw [isWorkflowStarted_of_startsRun hstarts] at hev
      cases hev
  obtain ⟨before, start, body, rest, hspl, hcontd⟩ := inv.standing run started'
  by_cases hrest : rest = []
  · subst hrest
    exact ⟨before, start, body ++ [event], [], hspl.concat hev, fun h => absurd rfl h⟩
  · exact ⟨before, start, body, rest ++ [event], hspl.concat_rest fun h => absurd h hrest,
      fun _ => hcontd hrest⟩

theorem currentLeaseTerminal_concat :
    currentLeaseTerminal (history ++ [event]) =
      ((leaseMark event).or (newest leaseMark history)).join := by
  rw [currentLeaseTerminal, newest_concat]

theorem statusFromEvents_concat :
    statusFromEvents (history ++ [event]) =
      ((statusOfEvent event).or (newest statusOfEvent history)).getD .running := by
  rw [statusFromEvents, newest_concat]

theorem lastRunId?_concat (hev : isWorkflowStarted event = false) :
    lastRunId? (history ++ [event]) = lastRunId? history := by
  rw [lastRunId?, newest_concat, startedRunId?_eq_none_iff.mpr hev]
  rfl

/-- A lease start puts both scans back to the beginning. -/
theorem projections_of_isLeaseStart (hev : isLeaseStart event) :
    currentLeaseTerminal (history ++ [event]) = none ∧
      statusFromEvents (history ++ [event]) = .running := by
  rw [currentLeaseTerminal_concat, statusFromEvents_concat]
  obtain ⟨envelope, body⟩ := event
  cases body <;> first | exact ⟨rfl, rfl⟩ | cases hev

theorem not_isWorkflowTerminal_of_isLeaseStart (hev : isLeaseStart event) :
    ¬ isWorkflowTerminal event := by
  obtain ⟨envelope, body⟩ := event
  cases body <;> first | exact Bool.false_ne_true | cases hev

/-- A run starts, and no run before it is still open. -/
theorem LifecycleInvariant.started (inv : LifecycleInvariant history) (hev : startsRun run event)
    (closed : ∀ earlier, (∃ e ∈ history, startsRun earlier e) →
      IsContinued earlier (runSegment history earlier)) :
    LifecycleInvariant (history ++ [event]) := by
  have hstart := isWorkflowStarted_of_startsRun hev
  have hlease := isLeaseStart_of_isWorkflowStarted hstart
  obtain ⟨hopen, hrun⟩ := @projections_of_isLeaseStart history _ hlease
  refine ⟨fun _ => by rw [hrun]; rfl, by simp [hopen], ?_, by simp [hopen], ?_⟩
  · exact inv.one_terminal.concat fun h => absurd h (not_isWorkflowTerminal_of_isLeaseStart hlease)
  · intro r hr
    by_cases hearl : ∃ e ∈ history, startsRun r e
    · obtain ⟨before, start, body, rest, hspl, -⟩ := inv.standing r hearl
      have := closed r hearl
      rw [hspl.runSegment_eq] at this
      exact ⟨before, start, body, rest ++ [event], hspl.concat_rest fun _ => hstart, fun _ => this⟩
    · -- the run is the one that starts here
      push Not at hearl
      have hstarts : startsRun r event := by
        obtain ⟨e, hmem, hstarts⟩ := hr
        rcases List.mem_append.mp hmem with hmem | hmem
        · exact absurd hstarts (hearl e hmem)
        · exact List.mem_singleton.mp hmem ▸ hstarts
      exact ⟨history, event, [], [], RunSplit.of_first (by simpa using hearl) hstarts,
        fun h => absurd rfl h⟩

/-- An event the lease scan passes over: the status stays, or an open lease gets
another status that is not terminal. -/
theorem LifecycleInvariant.passed (inv : LifecycleInvariant history)
    (hmark : leaseMark event = none)
    (hstat : ∀ status, statusOfEvent event = some status → status.isTerminal = false ∧
        currentLeaseTerminal history = none) : LifecycleInvariant (history ++ [event]) := by
  obtain ⟨hterm, hlease⟩ := leaseMark_eq_none_iff.mp hmark
  have hstart : isWorkflowStarted event = false := by
    rw [Bool.eq_false_iff]
    exact fun h => by simp [isLeaseStart_of_isWorkflowStarted h] at hlease
  have hsame : currentLeaseTerminal (history ++ [event]) = currentLeaseTerminal history := by
    rw [currentLeaseTerminal_concat, hmark]
    rfl
  have hone := inv.one_terminal.concat fun h => absurd h (Bool.eq_false_iff.mp hterm)
  refine ⟨?_, ?_, hone, ?_, fun r => inv.standing_concat hstart⟩
  · intro hopen
    rw [statusFromEvents_concat]
    cases hread : statusOfEvent event with
    | none => exact inv.open_status (hsame ▸ hopen)
    | some status => exact (hstat status hread).1
  · intro terminal hcl
    rw [hsame] at hcl
    rw [statusFromEvents_concat]
    cases hread : statusOfEvent event with
    | none => exact inv.closed_status terminal hcl
    | some status =>
      rw [(hstat status hread).2] at hcl
      cases hcl
  · intro envelope input workflowType parent hcl
    rw [lastRunId?_concat hstart]
    exact inv.owned envelope input workflowType parent (hsame ▸ hcl)

/-- The last run ends. -/
theorem LifecycleInvariant.ended (inv : LifecycleInvariant history)
    (hterm : isWorkflowTerminal event) (hopen : currentLeaseTerminal history = none)
    (own : ∀ input workflowType parent,
        event.body = .workflowContinuedAsNew input workflowType parent →
      lastRunId? history = some parent) : LifecycleInvariant (history ++ [event]) := by
  have hstart : isWorkflowStarted event = false := by
    obtain ⟨envelope, body⟩ := event
    cases body <;> first | rfl | cases hterm
  have hcl : currentLeaseTerminal (history ++ [event]) = some event := by
    rw [currentLeaseTerminal_concat, leaseMark_eq_some_some_iff.mpr ⟨hterm, rfl⟩]
    rfl
  have hstat : statusOfEvent event = some (statusFromEvents (history ++ [event])) := by
    rw [statusFromEvents_concat]
    obtain ⟨envelope, body⟩ := event
    cases body <;> first | rfl | cases hterm
  refine ⟨by simp [hcl], ?_, inv.one_terminal.concat fun _ => hopen, ?_,
    fun r => inv.standing_concat hstart⟩
  · intro terminal h
    rw [hcl, Option.some.injEq] at h
    exact h ▸ hstat
  · intro envelope input workflowType parent h
    rw [hcl, Option.some.injEq] at h
    rw [lastRunId?_concat hstart]
    exact own input workflowType parent (by rw [h])

/-- A reopen starts a new lease. -/
theorem LifecycleInvariant.reopened (inv : LifecycleInvariant history) {reopened : List ActivityId}
    (hbody : event.body = .workflowReopened run reopened) :
    LifecycleInvariant (history ++ [event]) := by
  have hlease : isLeaseStart event := by simp [isLeaseStart, hbody]
  have hstart : isWorkflowStarted event = false := by simp [isWorkflowStarted, hbody]
  obtain ⟨hopen, hrun⟩ := @projections_of_isLeaseStart history _ hlease
  refine ⟨fun _ => by rw [hrun]; rfl, by simp [hopen], ?_, by simp [hopen],
    fun r => inv.standing_concat hstart⟩
  exact inv.one_terminal.concat fun h => absurd h (not_isWorkflowTerminal_of_isLeaseStart hlease)

/-- What the check of the terminal transitions leaves: the last run, with its lease open. -/
theorem LifecycleInvariant.open_of_no_outcome (inv : LifecycleInvariant history)
    (started : ∃ event ∈ history, startsRun run event)
    (hnone : terminalOutcomeFromHistory history run = none) :
    lastRunId? history = some run ∧ currentLeaseTerminal history = none := by
  have hpass : ¬ IsContinued run (runSegment history run) := by
    rintro ⟨⟨envelope, input, workflowType, hterm⟩, -⟩
    simp [terminalOutcomeFromHistory, hterm] at hnone
  obtain ⟨before, start, body, hspl⟩ := inv.exists_last started hpass
  refine ⟨hspl.lastRunId?_eq, ?_⟩
  have hsame : currentLeaseTerminal (runSegment history run) = currentLeaseTerminal history := by
    rw [hspl.runSegment_eq, hspl.currentLeaseTerminal_eq]
  rw [terminalOutcomeFromHistory, hsame] at hnone
  cases hlease : currentLeaseTerminal history with
  | none => rfl
  | some terminal =>
    obtain ⟨envelope, terminalBody⟩ := terminal
    have hkind := isWorkflowTerminal_of_currentLeaseTerminal hlease
    rw [hlease] at hnone
    cases terminalBody <;> try cases hnone
    case workflowContinuedAsNew input workflowType parent =>
      -- the scan ignores a continue-as-new of another run, and there is none
      have hpar := inv.owned envelope input workflowType parent hlease
      rw [hspl.lastRunId?_eq, Option.some.injEq] at hpar
      simp [hpar] at hnone
    all_goals cases hkind

/-- What the check of `pause` and `resume` leaves: an open lease. -/
theorem LifecycleInvariant.open_of_requireStatus (inv : LifecycleInvariant history)
    (hrequired : required.isTerminal = false)
    (checked : requireStatus required done history id run = .ok ()) :
    currentLeaseTerminal history = none := by
  obtain ⟨hseg, hstat⟩ := requireStatus_eq_ok checked
  have hpass : ¬ IsContinued run (runSegment history run) := by
    rintro ⟨-, hcontd⟩
    rw [← hstat, hcontd] at hrequired
    cases hrequired
  obtain ⟨before, start, body, hspl⟩ :=
    inv.exists_last (exists_startsRun_of_runSegment_ne_nil hseg) hpass
  rw [hspl.runSegment_eq, hspl.statusFromEvents_eq] at hstat
  by_contra hcl
  have hterm := inv.isTerminal_iff.mpr (Option.isSome_iff_ne_none.mpr hcl)
  rw [hstat, hrequired] at hterm
  cases hterm

variable {envelope : EventEnvelope} {recorded : EventBody}

/-- A continuation starts when every run before it was continued. -/
theorem LifecycleInvariant.isContinued (inv : LifecycleInvariant history)
    {input : Payload} {workflowType : Option String} {parent : RunId}
    (hcl : currentLeaseTerminal history =
      some ⟨envelope, .workflowContinuedAsNew input workflowType parent⟩)
    (started : ∃ e ∈ history, startsRun run e) : IsContinued run (runSegment history run) := by
  obtain ⟨before, start, body, rest, hspl, hcontd⟩ := inv.standing run started
  rw [hspl.runSegment_eq]
  by_cases hrest : rest = []
  · subst hrest
    have hpar := inv.owned envelope input workflowType parent hcl
    rw [hspl.lastRunId?_eq, Option.some.injEq] at hpar
    have hstat := inv.closed_status _ hcl
    refine ⟨⟨envelope, input, workflowType, ?_⟩, ?_⟩
    · rw [hspl.currentLeaseTerminal_eq, hcl, hpar]
    · rw [hspl.statusFromEvents_eq]
      exact (Option.some.inj hstat).symm
  · exact hcontd hrest

/-- A pause or a resume, by the status that was checked. -/
theorem LifecycleInvariant.suspended (inv : LifecycleInvariant history)
    (checked : (do requireStatus required done history id run; return recorded) = Except.ok body)
    (hrequired : required.isTerminal = false) (hmark : leaseMark ⟨envelope, recorded⟩ = none)
    (hstat : statusOfEvent ⟨envelope, recorded⟩ = some status) (hopen : status.isTerminal = false) :
    LifecycleInvariant (history ++ [⟨envelope, body⟩]) := by
  obtain ⟨hcheck, rfl⟩ := checked_cases checked
  apply inv.passed hmark
  intro status' hstat'
  rw [hstat, Option.some.injEq] at hstat'
  exact ⟨hstat' ▸ hopen, inv.open_of_requireStatus hrequired hcheck⟩

/-- A completion, failure or cancellation, once no terminal was found recorded. -/
theorem LifecycleInvariant.terminated (inv : LifecycleInvariant history)
    (registered : ∃ event ∈ history, startsRun run event)
    (checked : (do rejectIfRecordedTerminal history id run; return recorded) = Except.ok body)
    (hterm : isWorkflowTerminal ⟨envelope, recorded⟩)
    (hkind : ∀ input workflowType parent, recorded ≠ .workflowContinuedAsNew input workflowType parent) :
    LifecycleInvariant (history ++ [⟨envelope, body⟩]) := by
  obtain ⟨hcheck, rfl⟩ := checked_cases checked
  obtain ⟨-, hopen⟩ := inv.open_of_no_outcome registered (rejectIfRecordedTerminal_eq_ok hcheck)
  apply inv.ended hterm hopen
  intro input workflowType parent hbody
  exact absurd hbody (hkind input workflowType parent)

end Steps

/-- Every transition keeps the invariant. -/
theorem LifecycleInvariant.step {history history' : List Event} (inv : LifecycleInvariant history)
    (h : LifecycleStep id history history') : LifecycleInvariant history' := by
  cases h with
  | start first =>
    apply inv.started (beq_self_eq_true _)
    rintro run ⟨event, hmem, hstarts⟩
    exact absurd (isWorkflowStarted_of_startsRun hstarts) (Bool.eq_false_iff.mp (first event hmem))
  | startContinuation ended =>
    apply inv.started (beq_self_eq_true _)
    intro run started
    exact inv.isContinued ended started
  | pause checked => exact inv.suspended checked rfl rfl rfl rfl
  | resume checked => exact inv.suspended checked rfl rfl rfl rfl
  | complete registered checked => exact inv.terminated registered checked rfl (by simp)
  | fail registered checked => exact inv.terminated registered checked rfl (by simp)
  | cancel registered checked => exact inv.terminated registered checked rfl (by simp)
  | timeOut registered checked =>
    have hopen := inv.open_of_no_outcome registered (no_outcome_of_appended checked)
    exact inv.ended rfl hopen.2 (by rintro _ _ _ ⟨⟩)
  | continueAsNew registered checked =>
    unfold continueAsNew at checked
    split_ifs at checked with hout
    cases checked
    have hopen := inv.open_of_no_outcome registered (by simpa using hout)
    apply inv.ended rfl hopen.2
    rintro _ _ _ ⟨⟩
    exact hopen.1
  | reopen checked =>
    obtain ⟨reopened, rfl⟩ := reopen_eq_ok checked
    exact inv.reopened rfl
  | other hev =>
    apply inv.passed
    · exact leaseMark_eq_none_of_statusOfEvent hev
    · intro status hstat
      rw [hev] at hstat
      cases hstat

/-- **The projections agree.** In every history that the transitions produce, the
status is terminal exactly when the current lease has a terminal event, the status
names that event, and no lease has two terminal events. -/
theorem lifecycle_projections_agree {id : WorkflowId} {history : List Event}
    (reachable : Relation.ReflTransGen (LifecycleStep id) [] history) :
    ((statusFromEvents history).isTerminal = true ↔ (currentLeaseTerminal history).isSome) ∧
      (∀ terminal, currentLeaseTerminal history = some terminal →
        statusOfEvent terminal = some (statusFromEvents history)) ∧
      OneTerminalPerLease history := by
  have inv : LifecycleInvariant history := by
    induction reachable with
    | refl => exact lifecycleInvariant_nil
    | tail _ step ih => exact ih.step step
  exact ⟨inv.isTerminal_iff, inv.closed_status, inv.one_terminal⟩

/-- A run that is paused, resumed and continued, and whose continuation fails, is
reopened and completes. -/
def reopenedContinuation : List Event :=
  numbered
    [.workflowStarted "order" .empty ⟨0⟩ none ⟨"v1"⟩,
     .workflowPaused ⟨0⟩ none none,
     .workflowResumed ⟨0⟩ none,
     .workflowContinuedAsNew .empty none ⟨0⟩,
     .workflowStarted "order" .empty ⟨1⟩ (some ⟨0⟩) ⟨"v1"⟩,
     .workflowFailed ⟨"declined", none⟩,
     .workflowReopened ⟨1⟩ [],
     .workflowCompleted .empty]

theorem lifecycle_projections_agree_reopenedContinuation :
    statusFromEvents reopenedContinuation = .completed ∧
      (currentLeaseTerminal reopenedContinuation).isSome ∧
      OneTerminalPerLease reopenedContinuation := by
  have h1 : LifecycleStep ⟨0⟩ [] (reopenedContinuation.take 1) := .start (by simp)
  have h2 : LifecycleStep ⟨0⟩ (reopenedContinuation.take 1) (reopenedContinuation.take 2) :=
    @LifecycleStep.pause _ _ ⟨0⟩ none none _ _ rfl
  have h3 : LifecycleStep ⟨0⟩ (reopenedContinuation.take 2) (reopenedContinuation.take 3) :=
    @LifecycleStep.resume _ _ ⟨0⟩ none _ _ rfl
  have h4 : LifecycleStep ⟨0⟩ (reopenedContinuation.take 3) (reopenedContinuation.take 4) :=
    @LifecycleStep.continueAsNew _ _ ⟨0⟩ .empty none _ _ ⟨_, .head _, rfl⟩ rfl
  have h5 : LifecycleStep ⟨0⟩ (reopenedContinuation.take 4) (reopenedContinuation.take 5) :=
    .startContinuation rfl
  have registered : ∃ event ∈ reopenedContinuation.take 5, startsRun ⟨1⟩ event :=
    ⟨_, .tail _ (.tail _ (.tail _ (.tail _ (.head _)))), rfl⟩
  have h6 : LifecycleStep ⟨0⟩ (reopenedContinuation.take 5) (reopenedContinuation.take 6) :=
    @LifecycleStep.fail _ _ ⟨1⟩ ⟨"declined", none⟩ _ _ registered rfl
  have h7 : LifecycleStep ⟨0⟩ (reopenedContinuation.take 6) (reopenedContinuation.take 7) :=
    @LifecycleStep.reopen _ _ ⟨1⟩ _ _ rfl
  have h8 : LifecycleStep ⟨0⟩ (reopenedContinuation.take 7) reopenedContinuation :=
    @LifecycleStep.complete _ _ ⟨1⟩ .empty _ _
      ⟨_, .tail _ (.tail _ (.tail _ (.tail _ (.head _)))), rfl⟩ rfl
  have reachable : Relation.ReflTransGen (LifecycleStep ⟨0⟩) [] reopenedContinuation :=
    .tail (.tail (.tail (.tail (.tail (.tail (.tail (.single h1) h2) h3) h4) h5) h6) h7) h8
  have agree := lifecycle_projections_agree reachable
  exact ⟨by decide, agree.1.mp (by decide), agree.2.2⟩

end Aion
