import Aion.Core.Event
import Aion.Library.Scan
import Mathlib.Data.List.TakeWhile

/-!
# Workflow status

The projections of `status.rs`: the status of a history (`statusFromEvents`), the
terminal event of its current lease (`currentLeaseTerminal`) and the segment of one
run (`runSegment`). The first two scan newest first with different stop sets: pause
and resume answer the first and are passed over by the second.
-/

namespace Aion

open Scan

/-- Projected lifecycle status of a workflow execution. -/
inductive WorkflowStatus where
  | running | completed | failed | cancelled | timedOut | continuedAsNew | paused
  deriving DecidableEq

/-- `WorkflowStatus::is_terminal`. -/
def WorkflowStatus.isTerminal : WorkflowStatus → Bool
  | .running => false
  | .paused => false
  | .completed => true
  | .failed => true
  | .cancelled => true
  | .timedOut => true
  | .continuedAsNew => true

/-- The status a lifecycle event puts the workflow in; `none` for every other event. -/
def statusOfEvent (event : Event) : Option WorkflowStatus :=
  match event.body with
  | .workflowStarted .. => some .running
  | .workflowReopened .. => some .running
  | .workflowResumed .. => some .running
  | .workflowCompleted _ => some .completed
  | .workflowFailed _ => some .failed
  | .workflowCancelled _ => some .cancelled
  | .workflowTimedOut _ => some .timedOut
  | .workflowContinuedAsNew .. => some .continuedAsNew
  | .workflowPaused .. => some .paused
  | _ => none

/-- `status_from_events`. -/
def statusFromEvents (events : List Event) : WorkflowStatus :=
  (newest statusOfEvent events).getD .running

/-- The event is a terminal lifecycle event of a workflow. -/
def isWorkflowTerminal (event : Event) : Bool :=
  match event.body with
  | .workflowCompleted _ => true
  | .workflowFailed _ => true
  | .workflowCancelled _ => true
  | .workflowTimedOut _ => true
  | .workflowContinuedAsNew .. => true
  | _ => false

/-- The event starts a lease: a run start or a reopen. -/
def isLeaseStart (event : Event) : Bool :=
  match event.body with
  | .workflowStarted .. => true
  | .workflowReopened .. => true
  | _ => false

/-- The events of the current lease: those after the last run start or reopen. -/
def currentLease (segment : List Event) : List Event :=
  (segment.reverse.takeWhile fun event => !isLeaseStart event).reverse

/-- What `current_lease_terminal` reads off one event: a terminal answers with
itself, a lease start with "no terminal", every other event not at all. -/
def leaseMark (event : Event) : Option (Option Event) :=
  if isWorkflowTerminal event then some (some event)
  else if isLeaseStart event then some none
  else none

variable {event terminal : Event} {rest : List Event}

theorem leaseMark_eq_none_iff :
    leaseMark event = none ↔ isWorkflowTerminal event = false ∧ isLeaseStart event = false := by
  unfold leaseMark
  split_ifs with hterm hstart
  · simp [hterm]
  · simp [hstart]
  · simp_all

theorem leaseMark_eq_some_some_iff :
    leaseMark event = some (some terminal) ↔ isWorkflowTerminal event ∧ event = terminal := by
  unfold leaseMark
  split_ifs with hterm hstart
  · simp [hterm]
  · simp [hterm]
  · simp [hterm]

theorem leaseMark_eq_some_none_iff :
    leaseMark event = some none ↔ isWorkflowTerminal event = false ∧ isLeaseStart event := by
  unfold leaseMark
  split_ifs with hterm hstart
  · simp [hterm]
  · simp [hterm, hstart]
  · simp [hstart]

theorem leaseMark_eq_none_of_statusOfEvent (h : statusOfEvent event = none) :
    leaseMark event = none := by
  obtain ⟨envelope, body⟩ := event
  cases body <;> first | rfl | cases h

/-- `current_lease_terminal`. -/
def currentLeaseTerminal (events : List Event) : Option Event := (newest leaseMark events).join

/-- The current lease's terminal splits the history: behind it no lease starts and no
other terminal follows. -/
theorem currentLeaseTerminal_eq_some_iff {events : List Event} :
    currentLeaseTerminal events = some terminal ↔
      ∃ before after, events = before ++ terminal :: after ∧ isWorkflowTerminal terminal ∧
        ∀ later ∈ after, isWorkflowTerminal later = false ∧ isLeaseStart later = false := by
  rw [currentLeaseTerminal, Option.join_eq_some_iff, newest_eq_some_iff]
  simp only [leaseMark_eq_some_some_iff, leaseMark_eq_none_iff]
  constructor
  · rintro ⟨before, event, after, rfl, ⟨hkind, rfl⟩, hafter⟩
    exact ⟨before, after, rfl, hkind, hafter⟩
  · rintro ⟨before, after, rfl, hkind, hafter⟩
    exact ⟨before, terminal, after, rfl, ⟨hkind, rfl⟩, hafter⟩

/-- In a lease without a terminal so far there is none. -/
theorem not_terminal_of_open {events lease : List Event}
    (hopen : currentLeaseTerminal events = none) (hlease : lease <:+ events)
    (hstarts : ∀ event ∈ lease, isLeaseStart event = false) :
    ∀ event ∈ lease, ¬ isWorkflowTerminal event := by
  obtain ⟨before, rfl⟩ := hlease
  intro event hmem hterm
  have hmark : newest leaseMark lease ≠ none := by
    intro hnone
    have := newest_eq_none_iff.mp hnone event hmem
    simp [leaseMark_eq_none_iff, hterm] at this
  obtain ⟨mark, hmark⟩ := Option.ne_none_iff_exists'.mp hmark
  obtain ⟨_, answering, _, rfl, hans, _⟩ := newest_eq_some_iff.mp hmark
  rw [currentLeaseTerminal, newest_append, hmark, Option.some_or, Option.join_some] at hopen
  -- the scan stopped within the lease, and not at a lease start
  subst hopen
  rw [leaseMark_eq_some_none_iff, hstarts answering (by simp)] at hans
  exact absurd hans.2 (by simp)

/-- The event starts a run. -/
def isWorkflowStarted (event : Event) : Bool :=
  match event.body with
  | .workflowStarted .. => true
  | _ => false

/-- The run an event starts. -/
def startedRunId? (event : Event) : Option RunId :=
  match event.body with
  | .workflowStarted _ _ runId _ _ => some runId
  | _ => none

/-- The event starts this run. -/
def startsRun (runId : RunId) (event : Event) : Bool :=
  match event.body with
  | .workflowStarted _ _ eventRunId _ _ => eventRunId == runId
  | _ => false

/-- `run_segment`: from the run's start up to the next start; empty when the run is absent. -/
def runSegment (events : List Event) (runId : RunId) : List Event :=
  match events.dropWhile fun event => !startsRun runId event with
  | [] => []
  | start :: rest => start :: rest.takeWhile fun event => !isWorkflowStarted event

theorem isWorkflowStarted_of_startsRun {runId : RunId} (h : startsRun runId event) :
    isWorkflowStarted event := by
  obtain ⟨envelope, body⟩ := event
  cases body <;> first | rfl | cases h

theorem isLeaseStart_of_isWorkflowStarted (h : isWorkflowStarted event) : isLeaseStart event := by
  obtain ⟨envelope, body⟩ := event
  cases body <;> first | rfl | cases h

theorem startedRunId?_eq_some_iff {runId : RunId} :
    startedRunId? event = some runId ↔ startsRun runId event := by
  obtain ⟨envelope, body⟩ := event
  cases body <;> simp [startedRunId?, startsRun]

theorem startedRunId?_eq_none_iff :
    startedRunId? event = none ↔ isWorkflowStarted event = false := by
  obtain ⟨envelope, body⟩ := event
  cases body <;> simp [startedRunId?, isWorkflowStarted]

theorem exists_startsRun_of_runSegment_ne_nil {events : List Event} {runId : RunId}
    (h : runSegment events runId ≠ []) : ∃ event ∈ events, startsRun runId event := by
  by_contra hnone
  push Not at hnone
  apply h
  have hdrop : events.dropWhile (fun event => !startsRun runId event) = [] := by
    rw [List.dropWhile_eq_nil_iff]
    intro event hmem
    simpa using hnone event hmem
  simp only [runSegment, hdrop]

/-- The run started last. -/
def lastRunId? (events : List Event) : Option RunId := newest startedRunId? events

/-- The run starts at `start`, its first start in the history; `body` is what the run
recorded, and what is left begins with the start of another run. -/
structure RunSplit (runId : RunId) (events before : List Event) (start : Event)
    (body rest : List Event) : Prop where
  /-- The pieces make up the history. -/
  split : events = before ++ start :: (body ++ rest)
  /-- No earlier start of the run. -/
  first : ∀ event ∈ before, startsRun runId event = false
  /-- The run's start. -/
  starts : startsRun runId start
  /-- No run starts within the segment. -/
  within : ∀ event ∈ body, isWorkflowStarted event = false
  /-- A run starts right after the segment. -/
  next : ∀ event ∈ rest.head?, isWorkflowStarted event

theorem RunSplit.runSegment_eq {runId : RunId} {events before : List Event} {start : Event}
    {body : List Event} (h : RunSplit runId events before start body rest) :
    runSegment events runId = start :: body := by
  have hdrop : events.dropWhile (fun event => !startsRun runId event) =
      start :: (body ++ rest) := by
    rw [h.split, List.dropWhile_append_of_pos fun event hmem => by simp [h.first event hmem],
      List.dropWhile_cons_of_neg (by simp [h.starts])]
  have htake : (body ++ rest).takeWhile (fun event => !isWorkflowStarted event) = body := by
    rw [List.takeWhile_append_of_pos fun event hmem => by simp [h.within event hmem]]
    cases hrest : rest with
    | nil => simp
    | cons event tail =>
      have := h.next event (by simp [hrest])
      simp [this]
  simp only [runSegment, hdrop, htake]

section RunSplit

variable {runId : RunId} {events before body : List Event} {start : Event}

/-- The segment that reaches the end of the history is that of the last run. -/
theorem RunSplit.lastRunId?_eq (h : RunSplit runId events before start body []) :
    lastRunId? events = some runId := by
  have hbody : newest startedRunId? body = none :=
    newest_eq_none_iff.mpr fun event hmem => startedRunId?_eq_none_iff.mpr (h.within event hmem)
  rw [lastRunId?, h.split, List.append_nil, newest_append, newest_cons, hbody,
    startedRunId?_eq_some_iff.mpr h.starts]
  rfl

/-- Over the last run's segment the two scans read what they read over the whole history. -/
theorem RunSplit.statusFromEvents_eq (h : RunSplit runId events before start body []) :
    statusFromEvents (start :: body) = statusFromEvents events := by
  obtain ⟨envelope, startBody⟩ := start
  have hstart : statusOfEvent ⟨envelope, startBody⟩ = some .running := by
    have := h.starts
    cases startBody <;> first | rfl | cases this
  rw [h.split, List.append_nil, statusFromEvents, statusFromEvents, newest_append,
    newest_cons, hstart]
  cases newest statusOfEvent body <;> rfl

theorem RunSplit.currentLeaseTerminal_eq (h : RunSplit runId events before start body []) :
    currentLeaseTerminal (start :: body) = currentLeaseTerminal events := by
  obtain ⟨envelope, startBody⟩ := start
  have hstart : leaseMark ⟨envelope, startBody⟩ = some none := by
    have := h.starts
    cases startBody <;> first | rfl | cases this
  rw [h.split, List.append_nil, currentLeaseTerminal, currentLeaseTerminal, newest_append,
    newest_cons,
    hstart]
  cases newest leaseMark body <;> rfl

/-- The first start of a run opens its segment. -/
theorem RunSplit.of_first (first : ∀ event ∈ events, startsRun runId event = false)
    (starts : startsRun runId start) : RunSplit runId (events ++ [start]) events start [] [] :=
  ⟨rfl, first, starts, by simp, by simp⟩

/-- An event that starts no run falls to the last segment. -/
theorem RunSplit.concat (h : RunSplit runId events before start body [])
    (hev : isWorkflowStarted event = false) :
    RunSplit runId (events ++ [event]) before start (body ++ [event]) [] := by
  refine ⟨by simp [h.split], h.first, h.starts, ?_, by simp⟩
  intro e he
  rcases List.mem_append.mp he with he | he
  · exact h.within e he
  · rw [List.mem_singleton.mp he, hev]

/-- A start, and whatever follows one, leaves the segment alone. -/
theorem RunSplit.concat_rest (h : RunSplit runId events before start body rest)
    (hnext : rest = [] → isWorkflowStarted event) :
    RunSplit runId (events ++ [event]) before start body (rest ++ [event]) := by
  refine ⟨by simp [h.split], h.first, h.starts, h.within, ?_⟩
  cases rest with
  | nil => simpa using hnext rfl
  | cons next rest => exact h.next

end RunSplit

end Aion
