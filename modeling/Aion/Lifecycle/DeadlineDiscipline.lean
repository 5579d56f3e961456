import Aion.Lifecycle.DeadlineActors

/-!
# The discipline of a deadline

What the actors may append to a history, one event at a time (`DeadlineStep`), and what that
keeps of every history (`Disciplined`). A timeout is recorded only while the deadline is
outstanding. From then on only timers are cancelled: first the others, and the deadline itself
when it is the last one live and the row of the run has been refreshed.
-/

namespace Aion

open Scan

/-! ### Scans that go over one more event -/

variable {envelope : EventEnvelope} {timerId : TimerId} {other : RunId}

section Scans

variable {parseUuid : String → Option Uuid} {history : List Event} {event : Event} {run : RunId}

theorem outstandingDeadlineTimer_concat :
    outstandingDeadlineTimer parseUuid (history ++ [event]) run =
    ((deadlineMark parseUuid run event).or (newest (deadlineMark parseUuid run) history)).join := by
  rw [outstandingDeadlineTimer, newest_concat]

/-- An event that is none of the deadline's business leaves it as it is. -/
theorem outstandingDeadlineTimer_of_mark_none (h : deadlineMark parseUuid run event = none) :
    outstandingDeadlineTimer parseUuid (history ++ [event]) run =
      outstandingDeadlineTimer parseUuid history run := by
  rw [outstandingDeadlineTimer_concat, h]
  rfl

theorem outstandingDeadlineTimer_of_mark_some {mark : Option TimerId}
    (h : deadlineMark parseUuid run event = some mark) :
    outstandingDeadlineTimer parseUuid (history ++ [event]) run = mark := by
  rw [outstandingDeadlineTimer_concat, h]
  rfl

/-- The outstanding timer is a deadline's, and the run's. -/
theorem deadlineRunId_of_outstanding
    (h : outstandingDeadlineTimer parseUuid history run = some timerId) :
    isDeadlineTimer timerId = true ∧ deadlineRunId parseUuid timerId = some run := by
  obtain ⟨before, answering, after, -, hmark, -⟩ :=
    newest_eq_some_iff.mp (Option.join_eq_some_iff.mp h)
  obtain ⟨envelope, body⟩ := answering
  cases body with
  | timerStarted started fireAt =>
    simp only [deadlineMark] at hmark
    split_ifs at hmark with hown
    cases hmark
    simpa using hown
  | timerFired fired =>
    simp only [deadlineMark] at hmark
    split_ifs at hmark
    cases hmark
  | timerCancelled cancelled cause =>
    simp only [deadlineMark] at hmark
    split_ifs at hmark
    cases hmark
  | _ => cases hmark

variable {cause : TimerCancelCause}

/-- Cancelling the outstanding timer retires the deadline. -/
theorem outstandingDeadlineTimer_cancelled
    (h : outstandingDeadlineTimer parseUuid history run = some timerId) :
    outstandingDeadlineTimer parseUuid
      (history ++ [⟨envelope, .timerCancelled timerId cause⟩]) run = none := by
  obtain ⟨hdeadline, hrun⟩ := deadlineRunId_of_outstanding h
  refine outstandingDeadlineTimer_of_mark_some ?_
  simp [deadlineMark, hdeadline, hrun]

/-- The deadline of one run is not that of another. -/
theorem deadlineMark_of_other
    (h : deadlineRunId parseUuid timerId = some other) (hne : other ≠ run) :
    deadlineMark parseUuid run ⟨envelope, .timerCancelled timerId cause⟩ = none := by
  simp [deadlineMark, h, hne]

theorem liveTimersInActiveSegment_concat : liveTimersInActiveSegment (history ++ [event]) =
    if isWorkflowStarted event then [] else liveStep (liveTimersInActiveSegment history) event := by
  rw [liveTimersInActiveSegment, fromLast_concat]
  split_ifs with hstart
  · obtain ⟨envelope, body⟩ := event
    cases body <;> first | rfl | cases hstart
  · rw [List.foldl_append]
    rfl

theorem live_cancelled :
    liveTimersInActiveSegment (history ++ [⟨envelope, .timerCancelled timerId cause⟩]) =
      (liveTimersInActiveSegment history).filter (· ≠ timerId) := by
  rw [liveTimersInActiveSegment_concat]
  rfl

/-- An event that neither starts nor ends a timer, nor starts a run. -/
theorem live_of_quiet (hstart : isWorkflowStarted event = false)
    (hstarts : ∀ timerId fireAt, event.body ≠ .timerStarted timerId fireAt)
    (hsets : ∀ timerId, settlesTimer timerId event = false) :
    liveTimersInActiveSegment (history ++ [event]) = liveTimersInActiveSegment history ∧
      deadlineMark parseUuid run event = none := by
  rw [liveTimersInActiveSegment_concat, hstart]
  obtain ⟨envelope, body⟩ := event
  cases body with
  | timerStarted timerId fireAt => exact absurd rfl (hstarts timerId fireAt)
  | timerFired timerId => simpa [settlesTimer] using hsets timerId
  | timerCancelled timerId cause => simpa [settlesTimer] using hsets timerId
  | _ => exact ⟨rfl, rfl⟩

end Scans

/-! ### Runs that timed out -/

/-- The run is the last one, and its lease ended by its deadline. -/
def TimedOut (history : List Event) (run : RunId) : Prop :=
  (∃ before start body, RunSplit run history before start body []) ∧
    ∃ envelope timeout, currentLeaseTerminal history = some ⟨envelope, .workflowTimedOut timeout⟩

section TimedOut

variable {history : List Event} {event : Event} {run : RunId}

theorem TimedOut.outcome (h : TimedOut history run) :
    ∃ timeout, terminalOutcomeFromHistory history run = some (.timedOut timeout) := by
  obtain ⟨⟨before, start, body, hspl⟩, envelope, timeout, hterm⟩ := h
  refine ⟨timeout, ?_⟩
  rw [terminalOutcomeFromHistory, hspl.runSegment_eq, hspl.currentLeaseTerminal_eq, hterm]

theorem TimedOut.lastRunId? (h : TimedOut history run) : lastRunId? history = some run := by
  obtain ⟨⟨before, start, body, hspl⟩, -⟩ := h
  exact hspl.lastRunId?_eq

theorem TimedOut.unique (h : TimedOut history run) (h' : TimedOut history other) : other = run :=
  Option.some.inj (h'.lastRunId?.symm.trans h.lastRunId?)

theorem TimedOut.activeRunHasTerminal (h : TimedOut history run) :
    activeRunHasTerminal history = true := by
  obtain ⟨timeout, hout⟩ := h.outcome
  simp [Aion.activeRunHasTerminal, h.lastRunId?, hout]

/-- Only the last run can have timed out. -/
theorem LifecycleInvariant.timedOut (inv : LifecycleInvariant history) {timeout : String}
    (h : terminalOutcomeFromHistory history run = some (.timedOut timeout)) :
    TimedOut history run := by
  have hterm : ∃ envelope timeout, currentLeaseTerminal (runSegment history run) =
      some ⟨envelope, .workflowTimedOut timeout⟩ := by
    unfold terminalOutcomeFromHistory at h
    split at h
    · cases h
    · cases h
    · cases h
    · exact ⟨_, _, by assumption⟩
    · split_ifs at h
      cases h
    · cases h
  obtain ⟨envelope, timeout', hterm⟩ := hterm
  have hseg : runSegment history run ≠ [] := by
    intro hnil
    rw [hnil] at hterm
    cases hterm
  obtain ⟨before, start, body, hspl⟩ :=
    inv.exists_last (exists_startsRun_of_runSegment_ne_nil hseg) (by
    rintro ⟨⟨envelope', input, workflowType, hcontd⟩, -⟩
    rw [hterm] at hcontd
    cases hcontd)
  rw [hspl.runSegment_eq, hspl.currentLeaseTerminal_eq] at hterm
  exact ⟨⟨before, start, body, hspl⟩, envelope, timeout', hterm⟩

/-- An event that the lease scan passes over changes nothing about it. -/
theorem TimedOut.concat (h : TimedOut history run) (hmark : leaseMark event = none) :
    TimedOut (history ++ [event]) run := by
  obtain ⟨⟨before, start, body, hspl⟩, envelope, timeout, hterm⟩ := h
  have hstart : isWorkflowStarted event = false := by
    rw [Bool.eq_false_iff]
    intro hstrt
    have hlease := isLeaseStart_of_isWorkflowStarted hstrt
    rw [(leaseMark_eq_none_iff.mp hmark).2] at hlease
    cases hlease
  refine ⟨⟨before, start, _, hspl.concat hstart⟩, envelope, timeout, ?_⟩
  rw [currentLeaseTerminal_concat, hmark]
  exact hterm

/-- A run that has started and has no terminal is the last one. -/
theorem LifecycleInvariant.exists_split (inv : LifecycleInvariant history)
    (started : ∃ e ∈ history, startsRun run e)
    (hopen : terminalOutcomeFromHistory history run = none) :
    ∃ before start body, RunSplit run history before start body [] := by
  refine inv.exists_last started ?_
  rintro ⟨⟨envelope, input, workflowType, hcontd⟩, -⟩
  simp [terminalOutcomeFromHistory, hcontd] at hopen

theorem LifecycleInvariant.timedOut_of_recorded (inv : LifecycleInvariant history)
    (started : ∃ e ∈ history, startsRun run e)
    (hopen : terminalOutcomeFromHistory history run = none) (envelope : EventEnvelope)
    (timeout : String) : TimedOut (history ++ [⟨envelope, .workflowTimedOut timeout⟩]) run := by
  obtain ⟨before, start, body, hspl⟩ := inv.exists_split started hopen
  refine ⟨⟨before, start, _, hspl.concat rfl⟩, envelope, timeout, ?_⟩
  rw [currentLeaseTerminal_concat]
  rfl

/-- A terminal is the outcome of the run that it ends. -/
theorem LifecycleInvariant.outcome_of_ended (inv : LifecycleInvariant history)
    (started : ∃ e ∈ history, startsRun run e)
    (hopen : terminalOutcomeFromHistory history run = none) (hterm : isWorkflowTerminal event)
    (own : ∀ input workflowType parent,
        event.body = .workflowContinuedAsNew input workflowType parent → parent = run) :
    ∃ outcome, terminalOutcomeFromHistory (history ++ [event]) run = some outcome ∧
      ∀ timeout, outcome = .timedOut timeout → event.body = .workflowTimedOut timeout := by
  obtain ⟨before, start, body, hspl⟩ := inv.exists_split started hopen
  have hstart : isWorkflowStarted event = false := by
    obtain ⟨envelope, eventBody⟩ := event
    cases eventBody <;> first | rfl | cases hterm
  have hlease : currentLeaseTerminal (runSegment (history ++ [event]) run) = some event := by
    rw [(hspl.concat hstart).runSegment_eq, (hspl.concat hstart).currentLeaseTerminal_eq,
      currentLeaseTerminal_concat,
      leaseMark_eq_some_some_iff.mpr ⟨hterm, rfl⟩]
    rfl
  rw [terminalOutcomeFromHistory, hlease]
  obtain ⟨envelope, eventBody⟩ := event
  cases eventBody with
  | workflowCompleted result => exact ⟨_, rfl, by rintro timeout ⟨⟩⟩
  | workflowFailed error => exact ⟨_, rfl, by rintro timeout ⟨⟩⟩
  | workflowCancelled reason => exact ⟨_, rfl, by rintro timeout ⟨⟩⟩
  | workflowTimedOut timeout' =>
    refine ⟨_, rfl, ?_⟩
    rintro timeout ⟨⟩
    rfl
  | workflowContinuedAsNew input workflowType parent =>
    obtain rfl := own input workflowType parent rfl
    exact ⟨_, if_pos rfl, by rintro timeout ⟨⟩⟩
  | _ => cases hterm

variable {id : WorkflowId}

/-- A run that is reopened failed or was cancelled. -/
theorem reopenable_of_reopen {body : EventBody} (h : reopen history id run = .ok body) :
    ∃ terminal, currentLeaseTerminal (runSegment history run) = some terminal ∧
      (∀ timeout, terminal.body ≠ .workflowTimedOut timeout) ∧
      ∀ input workflowType parent, terminal.body ≠
      .workflowContinuedAsNew input workflowType parent := by
  unfold reopen at h
  split_ifs at h
  cases hterm : currentLeaseTerminal (runSegment history run) with
  | none =>
    rw [validateAndComputeReopened, hterm] at h
    cases h
  | some terminal =>
    refine ⟨terminal, rfl, ?_, ?_⟩
    · rintro timeout hbody
      obtain ⟨envelope, terminalBody⟩ := terminal
      cases hbody
      rw [validateAndComputeReopened, hterm] at h
      cases h
    · rintro input workflowType parent hbody
      obtain ⟨envelope, terminalBody⟩ := terminal
      cases hbody
      rw [validateAndComputeReopened, hterm] at h
      cases h

/-- A run that timed out did so just now, or had before. -/
theorem TimedOut.of_concat (h : TimedOut (history ++ [event]) run) :
    (∃ timeout, event.body = .workflowTimedOut timeout) ∨ TimedOut history run := by
  obtain ⟨⟨before, start, body, hspl⟩, envelope, timeout, hterm⟩ := h
  rw [currentLeaseTerminal_concat] at hterm
  cases hmark : leaseMark event with
  | some mark =>
    rw [hmark] at hterm
    obtain rfl : mark = some ⟨envelope, .workflowTimedOut timeout⟩ := hterm
    obtain ⟨-, rfl⟩ := leaseMark_eq_some_some_iff.mp hmark
    exact .inl ⟨timeout, rfl⟩
  | none =>
    rw [hmark] at hterm
    refine .inr ⟨?_, envelope, timeout, hterm⟩
    obtain ⟨-, hlease⟩ := leaseMark_eq_none_iff.mp hmark
    have hsplits := hspl.split
    rw [List.append_nil] at hsplits
    rcases List.eq_nil_or_concat body with rfl | ⟨earlier, last, rfl⟩
    · obtain ⟨-, heq⟩ := List.append_inj' hsplits rfl
      obtain rfl := List.singleton_inj.mp heq
      rw [isLeaseStart_of_isWorkflowStarted (isWorkflowStarted_of_startsRun hspl.starts)] at hlease
      cases hlease
    · rw [List.concat_eq_append, ← List.cons_append, ← List.append_assoc] at hsplits
      obtain ⟨heq, -⟩ := List.append_inj' hsplits rfl
      refine ⟨before, start, earlier, by simpa using heq, hspl.first, hspl.starts, ?_, by simp⟩
      intro e hmem
      exact hspl.within e (by simp [hmem])

/-- Other writers append nothing of the lifecycle to a run that timed out. -/
theorem TimedOut.quiet_of_regular (h : TimedOut history run) (inv : LifecycleInvariant history)
    (hregular : Regular id history event) : statusOfEvent event = none := by
  obtain ⟨⟨before, start, body, hspl⟩, envelope, timeout, hterm⟩ := h
  have hcl : currentLeaseTerminal history ≠ none := by simp [hterm]
  obtain ⟨hlifecycle, hnotTerminal, -, -⟩ := hregular
  generalize hhist : history ++ [event] = history' at hlifecycle
  cases hlifecycle with
  | start first =>
    have hmem : start ∈ history := by simp [hspl.split]
    have hstrt := isWorkflowStarted_of_startsRun hspl.starts
    rw [first start hmem] at hstrt
    cases hstrt
  | startContinuation ended =>
    rw [hterm] at ended
    cases ended
  | pause checked =>
    exact absurd (inv.open_of_requireStatus rfl (checked_cases checked).1) hcl
  | resume checked =>
    exact absurd (inv.open_of_requireStatus rfl (checked_cases checked).1) hcl
  | complete registered checked =>
    exact absurd (inv.open_of_no_outcome registered (rejectIfRecordedTerminal_eq_ok (checked_cases checked).1)).2 hcl
  | fail registered checked =>
    exact absurd (inv.open_of_no_outcome registered (rejectIfRecordedTerminal_eq_ok (checked_cases checked).1)).2 hcl
  | cancel registered checked =>
    exact absurd (inv.open_of_no_outcome registered (rejectIfRecordedTerminal_eq_ok (checked_cases checked).1)).2 hcl
  | timeOut registered checked =>
    exact absurd (inv.open_of_no_outcome registered (no_outcome_of_appended checked)).2 hcl
  | continueAsNew registered checked =>
    unfold Aion.continueAsNew at checked
    split_ifs at checked with hout
    exact absurd (inv.open_of_no_outcome registered (by simpa using hout)).2 hcl
  | @reopen run' _ _ checked =>
    obtain ⟨terminal, hreopened, htmo, hcontinuation⟩ := reopenable_of_reopen checked
    have hseg : runSegment history run' ≠ [] := by
      intro hnil
      rw [hnil] at hreopened
      cases hreopened
    obtain ⟨before', start', body', hspl'⟩ :=
      inv.exists_last (exists_startsRun_of_runSegment_ne_nil hseg) (by
      rintro ⟨⟨envelope', input, workflowType, hcontd⟩, -⟩
      rw [hreopened] at hcontd
      cases hcontd
      exact hcontinuation input workflowType run' rfl)
    rw [hspl'.runSegment_eq, hspl'.currentLeaseTerminal_eq, hterm] at hreopened
    cases hreopened
    exact absurd rfl (htmo timeout)
  | other hev =>
    obtain ⟨-, heq⟩ := List.append_inj' hhist rfl
    rw [List.singleton_inj.mp heq]
    exact hev

end TimedOut

/-! ### Steps -/

/-- What may be appended to the history of a workflow; `refreshed` says of which runs a row with
the timeout has been written. -/
inductive DeadlineStep (parseUuid : String → Option Uuid) (id : WorkflowId)
    (refreshed : RunId → Prop) (history : List Event) : Event → Prop where
  /-- Another writer's event. -/
  | regular {event : Event} (h : Regular id history event) : DeadlineStep parseUuid id refreshed
      history event
  /-- A terminal that is no timeout, when there is none. -/
  | ended {run : RunId} {event : Event} (started : ∃ e ∈ history, startsRun run e)
    (hopen : terminalOutcomeFromHistory history run = none) (hterm : isWorkflowTerminal event)
    (hkind : ∀ timeout, event.body ≠ .workflowTimedOut timeout)
    (own : ∀ input workflowType parent, event.body = .workflowContinuedAsNew input workflowType parent → parent = run) :
    DeadlineStep parseUuid id refreshed history event
  /-- A timeout, when there is no terminal and the deadline is outstanding. -/
  | timedOut {run : RunId} {envelope : EventEnvelope}
    {timeout : String} (started : ∃ e ∈ history, startsRun run e)
    (hopen : terminalOutcomeFromHistory history run = none)
    (outstanding : (outstandingDeadlineTimer parseUuid history run).isSome) :
    DeadlineStep parseUuid id refreshed history ⟨envelope, .workflowTimedOut timeout⟩
  /-- The end of a timer, through the bridge. -/
  | settled {timerId : TimerId} {cause : Option TimerCancelCause} {envelope : EventEnvelope}
    (hopen : activeRunHasTerminal history = false) :
    DeadlineStep parseUuid id refreshed history ⟨envelope, timerOutcomeBody timerId cause⟩
  /-- The deadline of a run that ended otherwise. -/
  | retired {run : RunId} {timerId : TimerId} {cause : TimerCancelCause} {envelope : EventEnvelope}
    {outcome : TerminalOutcome} (hout : terminalOutcomeFromHistory history run = some outcome)
    (hkind : ∀ timeout, outcome ≠ .timedOut timeout)
    (outstanding : outstandingDeadlineTimer parseUuid history run = some timerId) :
    DeadlineStep parseUuid id refreshed history ⟨envelope, .timerCancelled timerId cause⟩
  /-- Another live timer of a run that timed out. -/
  | stopped {run : RunId} {timerId : TimerId} {cause : TimerCancelCause} {envelope : EventEnvelope}
    (htimed : TimedOut history run) (live : timerId ∈ liveTimersInActiveSegment history)
    (other : outstandingDeadlineTimer parseUuid history run ≠ some timerId) :
    DeadlineStep parseUuid id refreshed history ⟨envelope, .timerCancelled timerId cause⟩
  /-- The deadline of a run that timed out, last of all. -/
  | released {run : RunId} {timerId : TimerId} {cause : TimerCancelCause} {envelope : EventEnvelope}
    (htimed : TimedOut history run) (outstanding : outstandingDeadlineTimer parseUuid history run = some timerId)
    (alone : ∀ live ∈ liveTimersInActiveSegment history, live = timerId) (hfresh : refreshed run) :
    DeadlineStep parseUuid id refreshed history ⟨envelope, .timerCancelled timerId cause⟩

/-- What every step keeps of the history of a workflow. -/
structure Disciplined (parseUuid : String → Option Uuid) (id : WorkflowId)
    (refreshed : RunId → Prop) (history : List Event) : Prop where
  lifecycle : LifecycleInvariant history
  /-- The events are the workflow's. -/
  own : ∀ event ∈ history, event.workflowId = id
  /-- A timeout was recorded while the deadline of the last run was outstanding. -/
  whileOutstanding : ∀ before envelope timeout after,
    history = before ++ ⟨envelope, .workflowTimedOut timeout⟩ :: after →
    ∃ run, lastRunId? before = some run ∧ (outstandingDeadlineTimer parseUuid before run).isSome
  /-- A deadline has the name of its run. -/
  named : ∀ run timerId, outstandingDeadlineTimer parseUuid history run = some timerId →
    timerId = deadlineTimerId run
  /-- A deadline among the live timers is that of the last run. -/
  liveNamed : ∀ timerId ∈ liveTimersInActiveSegment history, isDeadlineTimer timerId →
    ∃ run, lastRunId? history = some run ∧ timerId = deadlineTimerId run
  /-- Once the deadline of a run that timed out is retired, no timer of it is live and its row
  has been refreshed. -/
  anchored : ∀ run, TimedOut history run → outstandingDeadlineTimer parseUuid history run = none →
    liveTimersInActiveSegment history = [] ∧ refreshed run

/-- The run timed out, and no timer of it is live but its deadline. -/
def Stopped (parseUuid : String → Option Uuid) (history : List Event) (run : RunId) : Prop :=
  TimedOut history run ∧ ∀ timerId ∈ liveTimersInActiveSegment history,
    outstandingDeadlineTimer parseUuid history run = some timerId

section Steps

variable {parseUuid : String → Option Uuid} {id : WorkflowId} {refreshed : RunId → Prop}
  {history : List Event}
  {event : Event} {run : RunId}

variable {refreshed' : RunId → Prop}

theorem DeadlineStep.mono (h : DeadlineStep parseUuid id refreshed history event)
    (himp : ∀ run, refreshed run → refreshed' run) :
    DeadlineStep parseUuid id refreshed' history event := by
  cases h with
  | regular h => exact .regular h
  | ended started hopen hterm hkind own => exact .ended started hopen hterm hkind own
  | timedOut started hopen outstanding => exact .timedOut started hopen outstanding
  | settled hopen => exact .settled hopen
  | retired hout hkind outstanding => exact .retired hout hkind outstanding
  | stopped htimed live other => exact .stopped htimed live other
  | released htimed outstanding alone hfresh =>
    exact .released htimed outstanding alone (himp _ hfresh)

theorem statusOfEvent_timerOutcomeBody {cause : Option TimerCancelCause} :
    statusOfEvent ⟨envelope, timerOutcomeBody timerId cause⟩ = none := by
  cases cause <;> rfl

/-- Every step keeps the lifecycle's invariant. -/
theorem DeadlineStep.lifecycle (h : DeadlineStep parseUuid id refreshed history event)
    (inv : LifecycleInvariant history) : LifecycleInvariant (history ++ [event]) := by
  cases h with
  | regular h => exact inv.step h.lifecycle
  | ended started hopen hterm hkind own =>
    obtain ⟨hlast, hlease⟩ := inv.open_of_no_outcome started hopen
    refine inv.ended hterm hlease ?_
    intro input workflowType parent hbody
    rw [own input workflowType parent hbody]
    exact hlast
  | timedOut started hopen outstanding =>
    exact inv.ended rfl (inv.open_of_no_outcome started hopen).2 (by rintro _ _ _ ⟨⟩)
  | settled hopen => exact inv.step (@LifecycleStep.other id _ _ statusOfEvent_timerOutcomeBody)
  | retired hout hkind outstanding => exact inv.step (@LifecycleStep.other id _ _ rfl)
  | stopped htimed live other => exact inv.step (@LifecycleStep.other id _ _ rfl)
  | released htimed outstanding alone hfresh => exact inv.step (@LifecycleStep.other id _ _ rfl)

/-- A timeout is the step of a deadline that is outstanding. -/
theorem DeadlineStep.outstanding {timeout : String}
    (h : DeadlineStep parseUuid id refreshed history ⟨envelope, .workflowTimedOut timeout⟩)
    (inv : LifecycleInvariant history) :
    ∃ run, lastRunId? history = some run ∧
      (outstandingDeadlineTimer parseUuid history run).isSome := by
  generalize hev : (⟨envelope, .workflowTimedOut timeout⟩ : Event) = event at h
  cases h with
  | regular h =>
    have hterm := h.notTerminal
    rw [← hev] at hterm
    cases hterm
  | ended started hopen hterm hkind own =>
    exact absurd (congrArg Event.body hev).symm (hkind timeout)
  | @timedOut run _ _ started hopen outstanding =>
    exact ⟨run, (inv.open_of_no_outcome started hopen).1, outstanding⟩
  | @settled _ cause _ hopen => cases cause <;> cases hev
  | retired hout hkind outstanding => cases hev
  | stopped htimed live other => cases hev
  | released htimed outstanding alone hfresh => cases hev

/-- A timer is started by another writer only. -/
theorem DeadlineStep.regular_of_starts {fireAt : Instant}
    (h : DeadlineStep parseUuid id refreshed history ⟨envelope, .timerStarted timerId fireAt⟩) :
    Regular id history ⟨envelope, .timerStarted timerId fireAt⟩ := by
  generalize hev : (⟨envelope, .timerStarted timerId fireAt⟩ : Event) = event at h
  cases h with
  | regular h => exact h
  | ended started hopen hterm hkind own =>
    rw [← hev] at hterm
    cases hterm
  | timedOut started hopen outstanding => cases hev
  | @settled _ cause _ hopen => cases cause <;> cases hev
  | retired hout hkind outstanding => cases hev
  | stopped htimed live other => cases hev
  | released htimed outstanding alone hfresh => cases hev

/-- After the timeout, an event leaves the timers alone, or it cancels one: the deadline when it
is the last one live and the row was refreshed, or one that is not the deadline. -/
theorem Disciplined.step_of_timedOut (inv : Disciplined parseUuid id refreshed history)
    (htimed : TimedOut history run) (h : DeadlineStep parseUuid id refreshed history event) :
    statusOfEvent event = none ∧
      (liveTimersInActiveSegment (history ++ [event]) = liveTimersInActiveSegment history ∧
          deadlineMark parseUuid run event = none ∨
        ∃ envelope timerId cause, event = ⟨envelope, .timerCancelled timerId cause⟩ ∧
          (deadlineMark parseUuid run event = none ∧
              outstandingDeadlineTimer parseUuid history run ≠ some timerId ∨
            outstandingDeadlineTimer parseUuid history run = some timerId ∧
              (∀ live ∈ liveTimersInActiveSegment history, live = timerId) ∧ refreshed run)) := by
  have hcl : currentLeaseTerminal history ≠ none := by
    obtain ⟨-, envelope, timeout, hterm⟩ := htimed
    simp [hterm]
  obtain ⟨timeout, htmo⟩ := htimed.outcome
  cases h with
  | regular h =>
    have hquiet := htimed.quiet_of_regular inv.lifecycle h
    refine ⟨hquiet, .inl (live_of_quiet ?_ ?_ h.notSettles)⟩
    · obtain ⟨envelope, body⟩ := event
      cases body <;> first | rfl | cases hquiet
    · intro timerId fireAt hbody
      have hopen := (h.starts timerId fireAt hbody).1
      rw [htimed.activeRunHasTerminal] at hopen
      cases hopen
  | ended started hopen hterm hkind own =>
    exact absurd (inv.lifecycle.open_of_no_outcome started hopen).2 hcl
  | timedOut started hopen outstanding =>
    exact absurd (inv.lifecycle.open_of_no_outcome started hopen).2 hcl
  | settled hopen =>
    rw [htimed.activeRunHasTerminal] at hopen
    cases hopen
  | @retired other timerId cause envelope outcome hout hkind outstanding =>
    obtain ⟨-, hrun⟩ := deadlineRunId_of_outstanding outstanding
    have hne : other ≠ run := by
      rintro rfl
      rw [htmo] at hout
      exact hkind timeout (Option.some.inj hout).symm
    refine ⟨rfl, .inr ⟨envelope, timerId, cause, rfl, .inl ⟨deadlineMark_of_other hrun hne, ?_⟩⟩⟩
    intro hown
    exact hne (Option.some.inj (hrun.symm.trans (deadlineRunId_of_outstanding hown).2))
  | @stopped other timerId cause envelope hother live hnot =>
    obtain rfl := htimed.unique hother
    refine ⟨rfl, .inr ⟨envelope, timerId, cause, rfl, .inl ⟨?_, hnot⟩⟩⟩
    by_contra hmark
    have hdeadline : isDeadlineTimer timerId = true := by
      by_contra hdeadline
      simp [deadlineMark, hdeadline] at hmark
    -- Both would have the name of the run's deadline.
    obtain ⟨last, hlast, hname⟩ := inv.liveNamed timerId live hdeadline
    rw [hother.lastRunId?, Option.some.injEq] at hlast
    subst hlast
    cases houtst : outstandingDeadlineTimer parseUuid history other with
    | none =>
      rw [(inv.anchored other hother houtst).1] at live
      cases live
    | some deadline => exact hnot (by rw [houtst, inv.named other deadline houtst, hname])
  | @released other timerId cause envelope hother outstanding alone hfresh =>
    obtain rfl := htimed.unique hother
    exact ⟨rfl, .inr ⟨envelope, timerId, cause, rfl, .inr ⟨outstanding, alone, hfresh⟩⟩⟩

theorem Disciplined.whileOutstanding_step (inv : Disciplined parseUuid id refreshed history)
    (h : DeadlineStep parseUuid id refreshed history event) (before : List Event)
    (envelope : EventEnvelope) (timeout : String) (after : List Event)
    (hspl : history ++ [event] = before ++ ⟨envelope, .workflowTimedOut timeout⟩ :: after) :
    ∃ run, lastRunId? before = some run ∧
      (outstandingDeadlineTimer parseUuid before run).isSome := by
  rcases List.eq_nil_or_concat after with rfl | ⟨earlier, last, rfl⟩
  · obtain ⟨rfl, heq⟩ := List.append_inj' hspl rfl
    obtain rfl := List.singleton_inj.mp heq
    exact h.outstanding inv.lifecycle
  · rw [List.concat_eq_append, ← List.cons_append, ← List.append_assoc] at hspl
    obtain ⟨rfl, -⟩ := List.append_inj' hspl rfl
    exact inv.whileOutstanding before envelope timeout earlier rfl

/-- The name of a run's deadline leads back to the run. -/
def ParsesDeadlines (parseUuid : String → Option Uuid) : Prop :=
  ∀ run, deadlineRunId parseUuid (deadlineTimerId run) = some run

theorem Disciplined.named_step (inv : Disciplined parseUuid id refreshed history)
    (parses : ParsesDeadlines parseUuid) (h : DeadlineStep parseUuid id refreshed history event)
    (run : RunId) (timerId : TimerId)
    (houtst : outstandingDeadlineTimer parseUuid (history ++ [event]) run = some timerId) :
    timerId = deadlineTimerId run := by
  cases hmark : deadlineMark parseUuid run event with
  | none =>
    rw [outstandingDeadlineTimer_of_mark_none hmark] at houtst
    exact inv.named run timerId houtst
  | some mark =>
    rw [outstandingDeadlineTimer_of_mark_some hmark] at houtst
    subst houtst
    obtain ⟨envelope, body⟩ := event
    cases body with
    | timerStarted started fireAt =>
      simp only [deadlineMark] at hmark
      split_ifs at hmark with hown
      cases hmark
      rw [Bool.and_eq_true, decide_eq_true_eq] at hown
      obtain ⟨last, -, rfl⟩ := (h.regular_of_starts.starts timerId fireAt rfl).2 hown.1
      rw [Option.some.inj ((parses last).symm.trans hown.2)]
    | timerFired fired =>
      simp only [deadlineMark] at hmark
      split_ifs at hmark
      cases hmark
    | timerCancelled cancelled cause =>
      simp only [deadlineMark] at hmark
      split_ifs at hmark
      cases hmark
    | _ => cases hmark

theorem Disciplined.liveNamed_step (inv : Disciplined parseUuid id refreshed history)
    (h : DeadlineStep parseUuid id refreshed history event) (timerId : TimerId)
    (hlive : timerId ∈ liveTimersInActiveSegment (history ++ [event]))
    (hdeadline : isDeadlineTimer timerId) :
    ∃ run, lastRunId? (history ++ [event]) = some run ∧ timerId = deadlineTimerId run := by
  rw [liveTimersInActiveSegment_concat] at hlive
  by_cases hstart : isWorkflowStarted event
  · rw [if_pos hstart] at hlive
    cases hlive
  · rw [if_neg hstart] at hlive
    rw [lastRunId?_concat (Bool.eq_false_iff.mpr hstart)]
    obtain ⟨envelope, body⟩ := event
    cases body with
    | timerStarted started fireAt =>
      simp only [liveStep] at hlive
      split_ifs at hlive
      · exact inv.liveNamed timerId hlive hdeadline
      · rcases List.mem_append.mp hlive with hlive | hlive
        · exact inv.liveNamed timerId hlive hdeadline
        · rw [List.mem_singleton] at hlive
          subst hlive
          exact (h.regular_of_starts.starts timerId fireAt rfl).2 hdeadline
    | timerFired fired => exact inv.liveNamed timerId (List.mem_of_mem_filter hlive) hdeadline
    | timerCancelled cancelled cause =>
      exact inv.liveNamed timerId (List.mem_of_mem_filter hlive) hdeadline
    | _ => exact inv.liveNamed timerId hlive hdeadline

theorem Disciplined.anchored_step (inv : Disciplined parseUuid id refreshed history)
    (h : DeadlineStep parseUuid id refreshed history event) (run : RunId)
    (htimed : TimedOut (history ++ [event]) run)
    (hretd : outstandingDeadlineTimer parseUuid (history ++ [event]) run = none) :
    liveTimersInActiveSegment (history ++ [event]) = [] ∧ refreshed run := by
  rcases htimed.of_concat with ⟨timeout, hbody⟩ | hbef
  · -- It timed out just now, and the deadline is outstanding as it was.
    obtain ⟨envelope, body⟩ := event
    cases hbody
    obtain ⟨last, hlast, houtst⟩ := h.outstanding inv.lifecycle
    have hsame : lastRunId? (history ++ [⟨envelope, .workflowTimedOut timeout⟩]) =
      lastRunId? history :=
      lastRunId?_concat rfl
    rw [← hsame, htimed.lastRunId?, Option.some.injEq] at hlast
    subst hlast
    rw [outstandingDeadlineTimer_of_mark_none rfl] at hretd
    rw [hretd] at houtst
    cases houtst
  · obtain ⟨-, ⟨hlive, hmark⟩ | ⟨envelope, timerId, cause, rfl, ⟨hmark, -⟩ | ⟨-, halone, hfresh⟩⟩⟩ :=
      inv.step_of_timedOut hbef h
    · rw [outstandingDeadlineTimer_of_mark_none hmark] at hretd
      rw [hlive]
      exact inv.anchored run hbef hretd
    · rw [outstandingDeadlineTimer_of_mark_none hmark] at hretd
      obtain ⟨hnone, hfresh⟩ := inv.anchored run hbef hretd
      exact ⟨by rw [live_cancelled, hnone]; rfl, hfresh⟩
    · refine ⟨?_, hfresh⟩
      rw [live_cancelled, List.filter_eq_nil_iff]
      intro live hmem
      simp [halone live hmem]

/-- **Every step keeps the discipline.** -/
theorem Disciplined.step (inv : Disciplined parseUuid id refreshed history)
    (parses : ParsesDeadlines parseUuid) (h : DeadlineStep parseUuid id refreshed history event)
    (hown : event.workflowId = id) : Disciplined parseUuid id refreshed (history ++ [event]) where
  lifecycle := h.lifecycle inv.lifecycle
  own := by
    intro e hmem
    rcases List.mem_append.mp hmem with hmem | hmem
    · exact inv.own e hmem
    · rw [List.mem_singleton.mp hmem, hown]
  whileOutstanding := inv.whileOutstanding_step h
  named := inv.named_step parses h
  liveNamed := inv.liveNamed_step h
  anchored := inv.anchored_step h

theorem disciplined_nil : Disciplined parseUuid id refreshed [] where
  lifecycle := lifecycleInvariant_nil
  own := by simp
  whileOutstanding := by simp
  named := by rintro run timerId ⟨⟩
  liveNamed := by simp [liveTimersInActiveSegment, fromLast]
  anchored := by
    rintro run ⟨-, envelope, timeout, hterm⟩
    cases hterm

theorem Disciplined.mono (inv : Disciplined parseUuid id refreshed history)
    (himp : ∀ run, refreshed run → refreshed' run) : Disciplined parseUuid id refreshed' history :=
  { inv with anchored := fun run htimed hretd =>
      ⟨(inv.anchored run htimed hretd).1, himp run (inv.anchored run htimed hretd).2⟩ }

theorem Disciplined.timedOut_step (inv : Disciplined parseUuid id refreshed history)
    (h : DeadlineStep parseUuid id refreshed history event) (htimed : TimedOut history run) :
    TimedOut (history ++ [event]) run :=
  htimed.concat (leaseMark_eq_none_of_statusOfEvent (inv.step_of_timedOut htimed h).1)

/-- Once its other timers are stopped, none is started. -/
theorem Disciplined.stopped_step (inv : Disciplined parseUuid id refreshed history)
    (h : DeadlineStep parseUuid id refreshed history event)
    (hstop : Stopped parseUuid history run) : Stopped parseUuid (history ++ [event]) run := by
  refine ⟨inv.timedOut_step h hstop.1, ?_⟩
  intro timerId hlive
  obtain ⟨-, ⟨hsame, hmark⟩ | ⟨envelope, cancelled, cause, rfl, ⟨hmark, -⟩ | ⟨-, halone, -⟩⟩⟩ :=
    inv.step_of_timedOut hstop.1 h
  · rw [hsame] at hlive
    rw [outstandingDeadlineTimer_of_mark_none hmark]
    exact hstop.2 timerId hlive
  · rw [live_cancelled] at hlive
    rw [outstandingDeadlineTimer_of_mark_none hmark]
    exact hstop.2 timerId (List.mem_of_mem_filter hlive)
  · rw [live_cancelled, List.mem_filter] at hlive
    simp [halone timerId hlive.1] at hlive

end Steps

end Aion
