import Aion.Lifecycle.Successors
import Aion.Time.TimerBackends

/-!
# Who acts on the deadline of a run

A run with a declared timeout ends by its terminal and its deadline by a `TimerCancelled`, and
the two are separate writes. Several actors make them: the terminal writers
(`lifecycle/terminate.rs`, `continue_as_new.rs`, `runtime/nif_continue_as_new.rs`), the monitor of
the process that exited (`lifecycle/completion.rs`), the handler of an elapsed deadline
(`lifecycle/deadline.rs`) and the sweep at startup (`engine/startup_sweeps.rs`). Each can stop
after any of its writes, and the others go on from what is recorded.

Each actor is a program that calls the event store (`EngineM`). Its clock reading, the rows of
the timer table and whether a handle is registered come with it. A section that holds the
recorder's lock begins with `lockRecorder`.
-/

namespace Aion

open Interleaving

/-! ### Locked sections -/

/-- `registered_handle`, and the lock of its recorder. A handle is registered after the start of
its run has been recorded. Its recorder appends where the history ends, or its append is refused
and the caller stops; so the recorder is taken at the end of what is read here. -/
def lockRecorder (registered : Bool) (workflowId : WorkflowId) (run : RunId) : EngineM Recorder :=
  do
  let history ← EngineM.readHistory workflowId
  if registered && history.any (startsRun run) then
    return ⟨workflowId, ⟨InMemoryStore.historyHead history⟩, some run, some run⟩
  else EngineM.throw (.engine (workflowNotFound workflowId run))

/-- Goes on whatever the result. -/
def EngineM.attempt {α : Type} (program : EngineM α) : EngineM Unit :=
  Prog.bind program fun _ => .done (.ok ())

/-- A recorder operation, with what is done about its error. -/
def EngineM.recordingElse (recorder : Recorder) (operation : RecorderM Unit)
    (refused : DurabilityError → EngineM Unit) : EngineM Unit :=
  (operation recorder).bind fun outcome =>
    match outcome with
    | (.ok _, _) => .done (.ok ())
    | (.error error, _) => refused error

/-- The `?` of a recorder's check. -/
def EngineM.liftDurability {α : Type} (result : Except DurabilityError α) : EngineM α :=
  .done (result.mapError .durability)

section Programs

variable (parseUuid : String → Option Uuid) (now : Instant)

/-! ### Terminal writers -/

variable (registered : Bool)

variable (id : WorkflowId)

variable (run : RunId)

/-- `complete`, `fail` and `cancel`, with the terminal that each records. -/
def terminateWith (record : RecorderM Unit) :
    EngineM Unit := do
  let recorder ← lockRecorder registered id run
  let history ← EngineM.readHistory id
  EngineM.lift (rejectIfRecordedTerminal history id run)
  let (_, recorder) ← EngineM.recording recorder record
  let _ ← EngineM.recording recorder (retireRunDeadline parseUuid now history run)
  upsertWorkflowVisibility id run

/-- A completion. -/
def completeCall (result : Payload) :
    EngineM Unit :=
  terminateWith parseUuid now registered id run (recordWorkflowCompleted now result)

/-- A failure. -/
def failCall (error : WorkflowError) :
    EngineM Unit :=
  terminateWith parseUuid now registered id run (recordWorkflowFailed now error)

/-- A cancellation. -/
def cancelCall (reason : String) :
    EngineM Unit :=
  terminateWith parseUuid now registered id run (recordWorkflowCancelled now reason)

/-- An outcome of a timer: cancelled for a cause, or fired. -/
def timerOutcomeBody (timerId : TimerId) : Option TimerCancelCause → EventBody
  | some cause => .timerCancelled timerId cause
  | none => .timerFired timerId

/-- `record_workflow_event` of the timer bridge. What the timer service checks before it asks
the bridge can only drop the outcome. -/
def recordTimerOutcome (timerId : TimerId)
    (cause : Option TimerCancelCause) : EngineM Unit := do
  let recorder ← lockRecorder registered id run
  let _ ← EngineM.recording recorder (recordUnlessTerminal id now (timerOutcomeBody timerId cause))
  return ()

/-- The loop of `cancel_inflight_timers`. -/
def cancelInflightTimers (registered : Bool) (id : WorkflowId) (run : RunId) :
    List TimerId → EngineM Unit
  | [] => return ()
  | timerId :: rest => do
    let cause := if isDeadlineTimer timerId then .workflowIntent else .cancelTeardown
    EngineM.attempt (recordTimerOutcome now registered id run timerId (some cause))
    cancelInflightTimers registered id run rest

/-- `Engine::cancel`: the timers first, as far as that goes, and then the run. -/
def engineCancelCall (reason : String) :
    EngineM Unit := do
  let history ← EngineM.readHistory id
  cancelInflightTimers now registered id run (liveTimersInActiveSegment history)
  cancelCall parseUuid now registered id run reason

/-- The continue-as-new of the workflow's own code. -/
def nifContinueAsNewCall (input : Payload) :
    EngineM Unit := do
  let recorder ← lockRecorder registered id run
  let history ← EngineM.readHistory id
  let _ ← EngineM.liftDurability (continueAsNew history run input none)
  let (_, recorder) ← EngineM.recording recorder (recordWorkflowContinuedAsNew now input none run)
  let _ ← EngineM.recording recorder (retireRunDeadline parseUuid now history run)
  return ()

/-! ### The elapsed deadline -/

/-- `decide_disposition`. -/
def decideDispositionCall :
    EngineM DeadlineDisposition := do
  let recorder ← lockRecorder registered id run
  let history ← EngineM.readHistory id
  match terminalOutcomeFromHistory history run with
  | some (.timedOut _) => return .resumeTeardown
  | some _ =>
    let _ ← EngineM.recording recorder (retireRunDeadline parseUuid now history run)
    return .loseCleanly
  | none =>
    if (outstandingDeadlineTimer parseUuid history run).isNone then return .loseCleanly
    else
      let _ ← EngineM.recording recorder (recordWorkflowTimedOut now workflowTimeoutDescriptor)
      return .appended

/-- The loop of `record_ordinary_timer_retirements`. -/
def retireOthers (deadline : Option TimerId) : List TimerId → RecorderM Unit
  | [] => return ()
  | timerId :: rest =>
    if deadline = some timerId then retireOthers deadline rest
    else do
      recordTimerCancelled now timerId .workflowIntent
      retireOthers deadline rest

/-- `record_ordinary_timer_retirements`: every live timer but the deadline. -/
def recordOrdinaryTimerRetirements (history : List Event) (run : RunId) : RecorderM Unit :=
  retireOthers now (outstandingDeadlineTimer parseUuid history run)
    (liveTimersInActiveSegment history)

/-- The error of a teardown that finds no runtime. -/
def runtimeDropped : EngineError :=
  .runtime ("runtime dropped during deadline teardown of " ++ id.display ++ "/" ++ run.display ++
    "; a later re-fire resumes teardown")

/-- `tear_down`: the deadline is retired last. -/
def tearDown (runtime : Bool) (id : WorkflowId) (run : RunId) : EngineM Unit := do
  let recorder ← lockRecorder registered id run
  let history ← EngineM.readHistory id
  let _ ← EngineM.recording recorder (recordOrdinaryTimerRetirements parseUuid now history run)
  EngineM.lift (if runtime then .ok () else .error (runtimeDropped id run))
  upsertWorkflowVisibility id run
  let recorder ← lockRecorder registered id run
  let history ← EngineM.readHistory id
  let _ ← EngineM.recording recorder (retireRunDeadline parseUuid now history run)
  return ()

/-- `finalize_timed_out_without_handle`. -/
def finalizeTimedOutWithoutHandle : EngineM Unit := do
  let history ← EngineM.readHistory id
  match terminalOutcomeFromHistory history run with
  | some (.timedOut _) =>
    let (_, recorder) ← EngineM.recording (Recorder.resumeAt id (InMemoryStore.historyHead history))
      (recordOrdinaryTimerRetirements parseUuid now history run)
    upsertWorkflowVisibility id run
    let _ ← EngineM.recording recorder (retireRunDeadline parseUuid now history run)
    return ()
  | _ => return ()

/-- `drive_timed_out`. -/
def driveTimedOut (runtime : Bool) (id : WorkflowId) (run : RunId) : EngineM Unit :=
  if registered then do
    match ← decideDispositionCall parseUuid now registered id run with
    | .loseCleanly => return ()
    | .appended => tearDown parseUuid now registered runtime id run
    | .resumeTeardown => tearDown parseUuid now registered runtime id run
  else finalizeTimedOutWithoutHandle parseUuid now id run

/-! ### The sweep -/

/-- When a sweep runs. -/
inductive SweepScope where
  /-- Before anything is registered. -/
  | coldBoot
  /-- When shards are taken over by a running engine. -/
  | adoption
  deriving DecidableEq

/-- `is_orphaned_terminal_deadline`. -/
def isOrphanedTerminalDeadline (history : List Event) (run : RunId) : Bool :=
  if (outstandingDeadlineTimer parseUuid history run).isNone then false
  else
    match terminalOutcomeFromHistory history run with
    | none => false
    | some (.timedOut _) => false
    | some _ => true

/-- What the sweep does when its append is refused. -/
def afterRefusal (error : DurabilityError) : EngineM Unit :=
  match error with
  | .store (.sequenceConflict ..) => do
    let history ← EngineM.readHistory id
    if isOrphanedTerminalDeadline parseUuid history run then EngineM.throw (.durability error)
    else return ()
  | _ => EngineM.throw (.durability error)

/-- `retire_orphaned_terminal_deadline_independent`. -/
def retireOrphanedTerminalDeadlineIndependent : EngineM Unit := do
  let history ← EngineM.readHistory id
  if isOrphanedTerminalDeadline parseUuid history run then
    EngineM.recordingElse (Recorder.resumeAt id (InMemoryStore.historyHead history))
      (retireRunDeadline parseUuid now history run) (afterRefusal parseUuid id run)
  else return ()

/-- The error of a sweep that finds a run registered too early. -/
def sweepOrderBroken : EngineError :=
  .runtime ("terminal-deadline sweep found a live registered handle for workflow " ++ id.display ++
    " on cold boot, which must run before repopulation: the sweep ordering invariant is broken")

/-- `repair_orphaned_terminal_deadline`; `live` says whether a workflow has a live handle. -/
def repairOrphanedTerminalDeadline (scope : SweepScope) (live : WorkflowId → Bool) (id : WorkflowId)
    (run : RunId) : EngineM Unit :=
  if live id then
    match scope with
    | .coldBoot => EngineM.throw (.engine (sweepOrderBroken id))
    | .adoption => return ()
  else retireOrphanedTerminalDeadlineIndependent parseUuid now id run

/-- `DateTime::<Utc>::MAX_UTC`. -/
def maxInstant : Instant := 8210266876799999999999

/-- Up to when the sweep asks for rows: 3652500 days from now. -/
def sweepHorizon : Instant :=
  let horizon := now + 3652500 * 86400 * 1000000000
  if horizon ≤ maxInstant then horizon else now

/-- The loop of the sweep. -/
def sweepEntries (scope : SweepScope) (live : WorkflowId → Bool) : List TimerEntry → EngineM Unit
  | [] => return ()
  | entry :: rest =>
    match deadlineRunId parseUuid entry.timerId with
    | none => sweepEntries scope live rest
    | some run => do
      repairOrphanedTerminalDeadline parseUuid now scope live entry.workflowId run
      sweepEntries scope live rest

/-- `sweep_uncancelled_terminal_deadlines`. -/
def sweepUncancelledTerminalDeadlines (backend : TimerBackend) (scope : SweepScope)
    (live : WorkflowId → Bool) (rows : TimerRows) : EngineM Unit :=
  match backend.expiredTimers rows (sweepHorizon now) with
  | .error error => EngineM.throw (.store error)
  | .ok entries => sweepEntries parseUuid now scope live entries

end Programs

/-! ### Actors on one store -/

/-- What another writer appends: the start of a run, a pause, a resume or a reopen, and what the
workflow's own code records. It ends no run, it starts a timer only in a run that has not ended
and under a deadline's name only that of the run, and it leaves the end of a timer to the bridge. -/
structure Regular (id : WorkflowId) (history : List Event) (event : Event) : Prop where
  lifecycle : LifecycleStep id history (history ++ [event])
  notTerminal : isWorkflowTerminal event = false
  starts : ∀ timerId fireAt, event.body = .timerStarted timerId fireAt →
    activeRunHasTerminal history = false ∧
    (isDeadlineTimer timerId → ∃ run, lastRunId? history = some run ∧ timerId = deadlineTimerId run)
  notSettles : ∀ timerId, settlesTimer timerId event = false

/-- An actor, with what it was called with. -/
inductive DeadlineActor where
  /-- `complete`. -/
  | complete (registered : Bool) (id : WorkflowId) (run : RunId) (result : Payload)
  /-- `fail`. -/
  | fail (registered : Bool) (id : WorkflowId) (run : RunId) (error : WorkflowError)
  /-- `Engine::cancel`. -/
  | cancel (registered : Bool) (id : WorkflowId) (run : RunId) (reason : String)
  /-- `continue_as_new`, up to the start of the successor. -/
  | continueAsNew (registered : Bool) (handle : WorkflowHandle) (input : Payload)
    (workflowType : Option String)
  /-- The continue-as-new of the workflow's own code. -/
  | nifContinueAsNew (registered : Bool) (id : WorkflowId) (run : RunId) (input : Payload)
  /-- `handle_process_exit`, up to the start of the successor. -/
  | processExit (handle : WorkflowHandle) (outcome : ProcessOutcome)
  /-- `on_deadline_elapsed`. -/
  | elapsed (registered runtime : Bool) (id : WorkflowId) (run : RunId)
  /-- `sweep_uncancelled_terminal_deadlines`. -/
  | sweep (backend : TimerBackend) (scope : SweepScope) (live : WorkflowId → Bool)
    (rows : TimerRows)
  /-- A timer is fired or cancelled through the bridge. -/
  | settleTimer (registered : Bool) (id : WorkflowId) (run : RunId) (timerId : TimerId)
    (cause : Option TimerCancelCause)
  /-- Another writer, which decides on what it has read. -/
  | writing (id : WorkflowId) (choose : List Event → Option EventBody)
    (regular : ∀ history body envelope, choose history = some body → Regular id history ⟨envelope, body⟩)
  | over

/-- What another writer does. -/
def writeChosen (now : Instant) (id : WorkflowId) (choose : List Event → Option EventBody) :
    EngineM Unit := do
  let history ← EngineM.readHistory id
  match choose history with
  | none => return ()
  | some body =>
    let _ ← EngineM.recording (Recorder.resumeAt id (InMemoryStore.historyHead history))
      (appendWith now body)
    return ()

section Actors

variable (parseUuid : String → Option Uuid) (env : StartEnvironment)

/-- What an actor does. The start of a successor is what another writer appends. -/
def DeadlineActor.call : DeadlineActor → EngineM Unit
  | .complete registered id run result =>
    completeCall parseUuid env.startedAt registered id run result
  | .fail registered id run error => failCall parseUuid env.startedAt registered id run error
  | .cancel registered id run reason =>
    engineCancelCall parseUuid env.startedAt registered id run reason
  | .continueAsNew registered handle input workflowType => do
    let recorder ← lockRecorder registered handle.workflowId handle.runId
    let _ ← continueAsNewCall parseUuid env handle recorder input workflowType
    return ()
  | .nifContinueAsNew registered id run input =>
    nifContinueAsNewCall parseUuid env.startedAt registered id run input
  | .processExit handle outcome => do
    let recorder ← lockRecorder true handle.workflowId handle.runId
    let _ ← processExitCall parseUuid env handle recorder outcome
    return ()
  | .elapsed registered runtime id run =>
    driveTimedOut parseUuid env.startedAt registered runtime id run
  | .sweep backend scope live rows =>
    sweepUncancelledTerminalDeadlines parseUuid env.startedAt backend scope live rows
  | .settleTimer registered id run timerId cause =>
    recordTimerOutcome env.startedAt registered id run timerId cause
  | .writing id choose _ => writeChosen env.startedAt id choose
  | .over => return ()

/-- What is left of an actor's program. -/
abbrev DeadlineProgram := Prog StoreCall StoreCall.Answer (Except StartFailure Unit × DeadlineActor)

/-- The program of an actor. -/
def DeadlineActor.program (actor : DeadlineActor) : DeadlineProgram :=
  Prog.bind (actor.call parseUuid env) fun result => .done (result, .over)

/-- The programs of an actor, in any environment. -/
def deadlinePrograms (actor : DeadlineActor) (program : DeadlineProgram) : Prop :=
  ∃ env, program = actor.program parseUuid env

end Actors

/-- The store, with every row that was ever written to the visibility index: the index itself
keeps the last one of each run. -/
structure DeadlineWorld where
  store : InMemoryStore
  refreshes : List VisibilityRecord

namespace DeadlineWorld

/-- The world before the first call. -/
def empty : DeadlineWorld := ⟨.empty, []⟩

/-- What is recorded of a workflow. -/
def history (world : DeadlineWorld) (id : WorkflowId) : List Event := world.store.history id

/-- The row that a call writes. -/
def refreshOf : StoreCall → List VisibilityRecord
  | .recordVisibility record => [record]
  | _ => []

/-- Serves a call, and notes a refresh it asks for. -/
def serve (world : DeadlineWorld) (call : StoreCall) : call.Answer × DeadlineWorld :=
  ((world.store.serve call).1, ⟨(world.store.serve call).2, world.refreshes ++ refreshOf call⟩)

end DeadlineWorld

/-- The store as a service. -/
def deadlineService : Service DeadlineWorld StoreCall StoreCall.Answer Empty where
  serve := DeadlineWorld.serve
  added _ _ := []

/-- The store and the actors. -/
abbrev DeadlineSystem :=
  System DeadlineWorld DeadlineActor (Except StartFailure Unit) StoreCall StoreCall.Answer Empty

/-- What happens in a step of the actors. -/
abbrev DeadlineLabel :=
  Label DeadlineActor (Except StartFailure Unit) StoreCall StoreCall.Answer Empty

/-- The empty store without actors. -/
def noDeadlineActors : DeadlineSystem := ⟨.empty, fun _ => none⟩

end Aion
