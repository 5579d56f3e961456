import Aion.Core.Status
import Aion.Durability.Resolver

/-!
# The replay driver

Replay over the recorded history of one run (`replay.rs`): it feeds the workflow's
commands to the resolver, advances the workflow-visible time by the timestamps of
the events consumed, and reports the first command that history cannot satisfy.
-/

namespace Aion

/-- `current_run_segment`: the history from the run's own start on. -/
def currentRunSegment (history : List Event) (runId : RunId) :
    Except DurabilityError (List Event) :=
  match history.dropWhile fun event => !startsRun runId event with
  | [] => .error (.historyShape ("history has no WorkflowStarted for run " ++ runId.display))
  | segment => .ok segment

variable {history segment : List Event}

/-- A run's segment is the end of the history. -/
theorem append_of_currentRunSegment {run : RunId}
    (h : currentRunSegment history run = .ok segment) :
    history.takeWhile (fun event => !startsRun run event) ++ segment = history := by
  have hdrop : history.dropWhile (fun event => !startsRun run event) = segment := by
    unfold currentRunSegment at h
    split at h
    · cases h
    · exact Except.ok.inj h
  rw [← hdrop, List.takeWhile_append_dropWhile]

/-- `workflow_started_at`. -/
def workflowStartedAt (workflowId : WorkflowId) (history : List Event) :
    Except DurabilityError Instant :=
  match history.find? fun event => isWorkflowStarted event && event.workflowId == workflowId with
  | some event => .ok event.recordedAt
  | none => .error (.historyShape
      ("history for workflow " ++ workflowId.display ++ " lacks WorkflowStarted"))

/-- The terminal of a replayed history. -/
structure TerminalRecord where
  /-- Sequence number of the terminal event. -/
  seq : ℕ
  /-- The recorded state. -/
  terminal : ReplayTerminal
  deriving DecidableEq

/-- The terminal state an event records. -/
def replayTerminalOf : EventBody → Option ReplayTerminal
  | .workflowCompleted result => some (.completed result)
  | .workflowFailed error => some (.failed error)
  | .workflowCancelled reason => some (.cancelled reason)
  | .workflowTimedOut timeout => some (.timedOut timeout)
  | .workflowContinuedAsNew input _ _ => some (.continuedAsNew input)
  | _ => none

/-- `terminal_from_history`. -/
def terminalFromHistory (workflowId : WorkflowId) (history : List Event) : Option TerminalRecord :=
  match currentLeaseTerminal history with
  | none => none
  | some event =>
    if event.workflowId ≠ workflowId then none
    else (replayTerminalOf event.body).map fun terminal => ⟨event.seq, terminal⟩

/-- Stateful replay driver of one workflow history. -/
structure Replay where
  /-- The workflow. -/
  workflowId : WorkflowId
  /-- The resolver over the run's segment. -/
  resolver : Resolver
  /-- The workflow-visible time (`DeterminismContext`). -/
  now : Instant
  /-- The terminal of the current lease. -/
  terminal : Option TerminalRecord

/-- Outcome of a single replay step. -/
inductive ReplayStep where
  /-- Satisfied from recorded history. -/
  | recorded (resolution : Resolution)
  /-- This command is the hand-off point. -/
  | resumeLive
  /-- Recorded history is terminal. -/
  | terminal (terminal : ReplayTerminal)
  deriving DecidableEq

namespace Replay

/-- `Replay::new`. -/
def new (workflowId : WorkflowId) (runId : RunId) (history : List Event) :
    Except DurabilityError Replay := do
  let history ← currentRunSegment history runId
  let startedAt ← workflowStartedAt workflowId history
  let terminal := terminalFromHistory workflowId history
  let cursor ← HistoryCursor.new history
  return { workflowId, resolver := ⟨workflowId, cursor⟩, now := startedAt, terminal }

/-- `resume_or_terminal`. -/
def resumeOrTerminal (r : Replay) (command : Command) : Except DurabilityError ReplayStep :=
  match r.terminal with
  | none => .ok .resumeLive
  | some terminal =>
    match command, terminal.terminal with
    | .completeWorkflow result, .completed recordedResult =>
      if result = recordedResult then .ok (.terminal terminal.terminal)
      else .error (violation r command terminal)
    | _, _ => .error (violation r command terminal)
where
  /-- The command does not agree with the recorded terminal. -/
  violation (r : Replay) (command : Command) (terminal : TerminalRecord) : DurabilityError :=
    .nonDeterminism
      { workflowId := r.workflowId
        seq := terminal.seq
        expected := .command command
        found := .terminal terminal.terminal }

/-- `Replay::step`. -/
def step (r : Replay) (command : Command) : Except DurabilityError ReplayStep × Replay :=
  let (resolved, resolver) := r.resolver.resolveWithConsumed command
  let r := { r with resolver }
  match resolved with
  | .error error => (.error error, r)
  | .ok (.recorded resolution recordedAt) =>
    (.ok (.recorded resolution), { r with now := recordedAt })
  | .ok (.resumeLive recordedAt) =>
    let r := { r with now := recordedAt.getD r.now }
    (r.resumeOrTerminal command, r)

/-! ### Starting a replay -/

variable {command : Command} {call : CursorCall} {r : Replay} {runId : RunId}

/-- Without the run's start there is nothing to replay. -/
theorem new_of_absent
    (h : history.dropWhile (fun event => !startsRun runId event) = []) (workflowId : WorkflowId) :
    new workflowId runId history =
      .error (.historyShape ("history has no WorkflowStarted for run " ++ runId.display)) := by
  simp only [new, currentRunSegment, h]
  rfl

/-- Replay of an ordered segment starts at its first start, with nothing consumed. -/
theorem new_of_segment (h : history.dropWhile (fun event => !startsRun runId event) = segment)
    (present : segment ≠ []) (ordered : Ordered segment) (workflowId : WorkflowId) :
    new workflowId runId history =
      (workflowStartedAt workflowId segment).map fun startedAt =>
        { workflowId, resolver := ⟨workflowId, .start segment⟩, now := startedAt,
          terminal := terminalFromHistory workflowId segment } := by
  have hseg : currentRunSegment history runId = .ok segment := by
    rw [currentRunSegment, h]
    cases segment with
    | nil => exact absurd rfl present
    | cons event rest => rfl
  have hcur : HistoryCursor.new segment = .ok (.start segment) :=
    (HistoryCursor.new_eq_ok_iff _ _).mpr ⟨ordered, rfl⟩
  simp only [new, hseg]
  show (workflowStartedAt workflowId segment).bind _ = _
  cases workflowStartedAt workflowId segment with
  | error error => rfl
  | ok startedAt =>
    simp only [Except.bind, hcur]
    rfl

/-! ### What a step does -/

/-- A step touches the cursor and the time only. -/
theorem step_snd (hcall : Resolver.callOf command = some call) (r : Replay) :
    (r.step command).2.workflowId = r.workflowId ∧ (r.step command).2.terminal = r.terminal ∧
      (r.step command).2.resolver = { r.resolver with cursor :=
        (r.resolver.cursor.call call).2 } := by
  simp only [step, Resolver.resolveWithConsumed_of_some hcall]
  split <;> exact ⟨rfl, rfl, rfl⟩

/-- A command that history never resolves hands off or meets the recorded terminal. -/
theorem step_of_none (hcall : Resolver.callOf command = none) (r : Replay) :
    r.step command = (r.resumeOrTerminal command, r) := by
  simp only [step, Resolver.resolveWithConsumed_of_none hcall]
  rfl

/-- The result of a matched command. -/
theorem step_fst_of_matched
    (hcall : Resolver.callOf command = some call) {events : List Event}
    (h : (r.resolver.cursor.call call).1 = call.matched events) :
    (r.step command).1 =
      match resolutionFromMatched events with
      | .error error => .error error
      | .ok (.recorded resolution _) => .ok (.recorded resolution)
      | .ok (.resumeLive _) => r.resumeOrTerminal command := by
  have hans : r.resolver.answer call (call.matched events) = resolutionFromMatched events :=
    Resolver.answer_of_matched (call.matched?_matched events) r.resolver call
  simp only [step, Resolver.resolveWithConsumed_of_some hcall, h, hans]
  split <;> rfl

/-- The result of a command that history is exhausted for. -/
theorem step_fst_of_exhausted (hcall : Resolver.callOf command = some call)
    (h : (r.resolver.cursor.call call).1 = call.exhausted) :
    (r.step command).1 = r.resumeOrTerminal command := by
  simp only [step, Resolver.resolveWithConsumed_of_some hcall, h, Resolver.answer,
    CursorCall.matched?_exhausted, CursorCall.mismatch?_exhausted]
  rfl

/-- The result of a command that history contradicts. -/
theorem step_fst_of_mismatch (hcall : Resolver.callOf command = some call)
    {found : FoundEventDescriptor} (h : (r.resolver.cursor.call call).1 = call.mismatch found) :
    (r.step command).1 = .error (r.resolver.mismatchError (Resolver.expectedShape call) found) := by
  simp only [step, Resolver.resolveWithConsumed_of_some hcall, h, Resolver.answer,
    CursorCall.matched?_mismatch, CursorCall.mismatch?_mismatch]

end Replay

end Aion
