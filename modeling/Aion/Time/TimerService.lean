import Aion.Durability.RecorderSpec
import Aion.Lifecycle.Deadline
import Mathlib.Data.Finset.Basic

/-!
# The timer service

A durable timer is started by the workflow, which records `TimerStarted` and then schedules
the timer: a row in the store and an entry in the live wheel (`time/timer_service.rs`). A
timer ends when it is fired or cancelled. Both record the outcome through the bridge to the
run's recorder (`runtime/nif_timer_bridge.rs`) and both take the timer's slot first, in a set
that all instances of the service share.

A call of the service is a program (`TimerM`) over the steps that can be seen from outside:
each store read, each insert into the set or removal from it, and each recorded event, which
the bridge checks and appends under the recorder's lock, is one step. What the other writers
do is in the steps too, so that a system of any callers can be put together of them.

Of the deadline handler only its answer is here: what it records is what another writer
records. A task can be dropped where it awaits; its slot is then given back.
-/

namespace Aion

open Interleaving

/-! ### Liveness -/

/-- What an event does to the timers that are live. -/
def liveStep (live : List TimerId) (event : Event) : List TimerId :=
  match event.body with
  | .timerStarted timerId _ => if timerId ∈ live then live else live ++ [timerId]
  | .timerFired timerId => live.filter (· ≠ timerId)
  | .timerCancelled timerId _ => live.filter (· ≠ timerId)
  | _ => live

/-- `live_timers_in_active_segment`. -/
def liveTimersInActiveSegment (history : List Event) : List TimerId :=
  (Scan.fromLast isWorkflowStarted history).foldl liveStep []

/-- `active_run_has_terminal`. -/
def activeRunHasTerminal (history : List Event) : Bool :=
  match lastRunId? history with
  | none => false
  | some runId => (terminalOutcomeFromHistory history runId).isSome

/-- The event starts the timer. -/
def startsTimer (timerId : TimerId) (event : Event) : Bool :=
  match event.body with
  | .timerStarted started _ => started = timerId
  | _ => false

/-- The event is an outcome of the timer. -/
def settlesTimer (timerId : TimerId) (event : Event) : Bool :=
  match event.body with
  | .timerFired fired => fired = timerId
  | .timerCancelled cancelled _ => cancelled = timerId
  | _ => false

/-! ### The engine's side -/

/-- A process of the runtime. -/
structure WorkflowProcessHandle where
  pid : ℕ
  deriving DecidableEq

/-- What the bridge reads of a registered handle. The recorder is that of the handle's
workflow. -/
structure RegisteredHandle where
  pid : ℕ
  resident : Bool
  recorder : Recorder
  deriving DecidableEq

/-- The workflow of a handle. -/
def RegisteredHandle.workflowId (handle : RegisteredHandle) : WorkflowId :=
  handle.recorder.workflowId

/-- Where a workflow lives. -/
inductive WorkflowResidency where
  | resident (process : WorkflowProcessHandle)
  | nonResident
  | unknown
  deriving DecidableEq

/-- The errors of the engine seam that the timer service meets. -/
inductive EngineSeamError where
  | unknownWorkflow (workflowId : WorkflowId)
  | delivery (reason : String)
  | timerWheel (reason : String)
  /-- The recorder's error is the reason. -/
  | recorder (error : DurabilityError)
  /-- The bridge records outcomes of timers only. -/
  | cannotRecord (reason : String)
  deriving DecidableEq

/-- Whether the bridge appended an event or refused it. -/
inductive RecordOutcome where
  | recorded | refusedTerminal
  deriving DecidableEq

/-- Why a call of the timer service fails. -/
inductive TimerServiceError where
  | store (error : StoreError)
  | engine (error : EngineSeamError)
  | deadline (reason : String)
  deriving DecidableEq

/-- `Display` of a timer id. -/
def TimerId.display : TimerId → String
  | .named name => "timer:named:" ++ name
  | .anonymous sequencePosition => "timer:anonymous:" ++ toString sequencePosition

/-- A durable timer row. -/
structure TimerEntry where
  workflowId : WorkflowId
  timerId : TimerId
  fireAt : Instant
  deriving DecidableEq

/-- The key of a timer. -/
abbrev TimerKey := WorkflowId × TimerId

/-- A task of the live wheel. -/
structure PendingTimer where
  generation : ℕ
  workflowId : WorkflowId
  fireAt : Instant
  deriving DecidableEq

/-- What the callers of the timer service share. -/
structure TimerWorld where
  /-- The event store. -/
  store : InMemoryStore
  /-- The durable timer rows. -/
  timers : AList fun _ : TimerKey => Instant
  /-- The registered handles, as they are listed. -/
  registry : List RegisteredHandle
  /-- The live wheel: the task of each process and timer. -/
  pendingTimers : AList fun _ : ℕ × TimerId => PendingTimer
  /-- The generation of the task that is armed next. -/
  nextTimerGeneration : ℕ
  /-- The timers whose slot is taken. -/
  terminalUpdates : Finset TimerKey
  /-- The clock. -/
  now : Instant

/-- Nothing is there yet. -/
def TimerWorld.empty : TimerWorld := ⟨.empty, ∅, [], ∅, 0, ∅, 0⟩

/-! ### The bridge -/

/-- The part of `record_workflow_event` that holds the recorder's lock. -/
def recordUnlessTerminal (workflowId : WorkflowId) (recordedAt : Instant) (body : EventBody) :
    RecorderM RecordOutcome := do
  let answer ← RecorderM.call (.readHistory workflowId)
  let history ← RecorderM.liftStore answer
  if activeRunHasTerminal history then return .refusedTerminal
  appendWith recordedAt body
  return .recorded

/-- Replaces the recorder of the first handle of its workflow. -/
def storeRecorder (recorder : Recorder) : List RegisteredHandle → List RegisteredHandle
  | [] => []
  | handle :: rest =>
    if handle.workflowId = recorder.workflowId then { handle with recorder } :: rest
    else handle :: storeRecorder recorder rest

variable (world : TimerWorld)

/-- `record_workflow_event` of an outcome of a timer, through the recorder of the workflow's
handle. -/
def TimerWorld.recordOutcome (workflowId : WorkflowId) (recordedAt : Instant)
    (body : EventBody) : Except EngineSeamError RecordOutcome × TimerWorld :=
  match world.registry.find? (·.workflowId = workflowId) with
  | none => (.error (.unknownWorkflow workflowId), world)
  | some handle =>
    let ((result, recorder), store) :=
      storeService.run (recordUnlessTerminal workflowId recordedAt body handle.recorder) world.store
    (result.mapError .recorder, { world with store, registry := storeRecorder recorder world.registry })

/-- `record_workflow_event`: the outcome, and the world after it. -/
def TimerWorld.recordWorkflowEvent (workflowId : WorkflowId) (event : Event) :
    Except EngineSeamError RecordOutcome × TimerWorld :=
  match event.body with
  | .timerFired timerId => world.recordOutcome workflowId event.recordedAt (.timerFired timerId)
  | .timerCancelled timerId cause =>
    world.recordOutcome workflowId event.recordedAt (.timerCancelled timerId cause)
  | .withTimeoutCompleted .. =>
    (.error (.cannotRecord "timer NIF bridge cannot record WithTimeoutCompleted"), world)
  | _ => (.error (.cannotRecord "timer NIF bridge cannot record non-timer"), world)

/-- `resolve_workflow`. -/
def TimerWorld.resolveWorkflow (workflowId : WorkflowId) : WorkflowResidency :=
  match world.registry.find? (·.workflowId = workflowId) with
  | some handle => if handle.resident then .resident ⟨handle.pid⟩ else .nonResident
  | none => .unknown

/-- `arm_timer`: an entry replaces the one that was armed for the process and timer. -/
def TimerWorld.armTimer (process : WorkflowProcessHandle) (timerId : TimerId)
    (fireAt : Instant) : Except EngineSeamError Unit × TimerWorld :=
  match world.registry.find? (·.pid = process.pid) with
  | none => (.error (.timerWheel ("unknown workflow process " ++ toString process.pid)), world)
  | some handle =>
    (.ok (), { world with
      pendingTimers := world.pendingTimers.insert (process.pid, timerId)
        ⟨world.nextTimerGeneration, handle.workflowId, fireAt⟩
      nextTimerGeneration := world.nextTimerGeneration + 1 })

/-- `disarm_timer`. -/
def TimerWorld.disarmTimer (process : WorkflowProcessHandle)
    (timerId : TimerId) : TimerWorld :=
  { world with pendingTimers := world.pendingTimers.erase (process.pid, timerId) }

/-! ### The store's timers -/

/-- `schedule_timer`: a row replaces the timer's earlier one. -/
def TimerWorld.scheduleTimer (key : TimerKey) (fireAt : Instant) :
    TimerWorld :=
  { world with timers := world.timers.insert key fireAt }

/-- The order of expired rows. -/
def TimerEntry.firesBefore (left right : TimerEntry) : Bool :=
  decide (left.fireAt < right.fireAt) ||
    left.fireAt == right.fireAt && (decide (left.workflowId.display < right.workflowId.display) ||
      left.workflowId.display == right.workflowId.display && decide (left.timerId.display ≤ right.timerId.display))

/-- `expired_timers`. -/
def TimerWorld.expiredTimers (asOf : Instant) : List TimerEntry :=
  ((world.timers.entries.map fun row => (⟨row.1.1, row.1.2, row.2⟩ : TimerEntry)).filter
      (·.fireAt ≤ asOf)).insertionSort
    fun left right => left.firesBefore right

/-- `list_active`. -/
def TimerWorld.listActive : List WorkflowId :=
  ((world.store.histories.entries.filter fun entry =>
    statusFromEvents (InMemoryStore.historyInSequenceOrder entry.2) = .running).map
      (·.1)).insertionSort
      fun a b => a.display ≤ b.display

/-! ### The steps -/

/-- The steps of the service's callers, and of the other writers. -/
inductive TimerCall where
  /-- Takes a slot, unless it is taken. -/
  | insertTerminalUpdate (key : TimerKey)
  /-- Gives a slot back. -/
  | removeTerminalUpdate (key : TimerKey)
  | readHistory (workflowId : WorkflowId)
  | resolveWorkflow (workflowId : WorkflowId)
  | armTimer (process : WorkflowProcessHandle) (timerId : TimerId) (fireAt : Instant)
  | disarmTimer (process : WorkflowProcessHandle) (timerId : TimerId)
  | recordWorkflowEvent (workflowId : WorkflowId) (event : Event)
  /-- Wakes a process for a fired timer. -/
  | deliverWorkflowMessage (process : WorkflowProcessHandle) (timerId : TimerId) (fireAt : Instant)
  | scheduleTimer (key : TimerKey) (fireAt : Instant)
  | expiredTimers (asOf : Instant)
  | listActive
  /-- The wheel's entry for a process and timer. -/
  | pendingTimer (pid : ℕ) (timerId : TimerId)
  /-- Reads the clock. -/
  | clock
  /-- Another writer appends. -/
  | append (workflowId : WorkflowId) (events : List Event) (expectedSeq : ℕ)
  /-- Runs are registered and deregistered. -/
  | setRegistry (registry : List RegisteredHandle)
  /-- Time passes. -/
  | tick (elapsed : ℕ)
  /-- The engine goes down: what is not durable is lost. -/
  | crash

/-- What each step returns. -/
def TimerCall.Answer : TimerCall → Type
  | .insertTerminalUpdate _ => Bool
  | .readHistory _ => List Event
  | .resolveWorkflow _ => WorkflowResidency
  | .armTimer .. => Except EngineSeamError Unit
  | .recordWorkflowEvent .. => Except EngineSeamError RecordOutcome
  | .expiredTimers _ => List TimerEntry
  | .listActive => List WorkflowId
  | .pendingTimer .. => Option PendingTimer
  | .clock => Instant
  | .append .. => Except StoreError Unit
  | _ => Unit

/-- The answer to a step and the world after it. -/
def TimerWorld.serve : (call : TimerCall) → call.Answer × TimerWorld
  | .insertTerminalUpdate key =>
    if key ∈ world.terminalUpdates then (false, world)
    else (true, { world with terminalUpdates := insert key world.terminalUpdates })
  | .removeTerminalUpdate key =>
    ((), { world with terminalUpdates := world.terminalUpdates.erase key })
  | .readHistory workflowId => (world.store.readHistory workflowId, world)
  | .resolveWorkflow workflowId => (world.resolveWorkflow workflowId, world)
  | .armTimer process timerId fireAt => world.armTimer process timerId fireAt
  | .disarmTimer process timerId => ((), world.disarmTimer process timerId)
  | .recordWorkflowEvent workflowId event => world.recordWorkflowEvent workflowId event
  | .deliverWorkflowMessage .. => ((), world)
  | .scheduleTimer key fireAt => ((), world.scheduleTimer key fireAt)
  | .expiredTimers asOf => (world.expiredTimers asOf, world)
  | .listActive => (world.listActive, world)
  | .pendingTimer pid timerId => (world.pendingTimers.lookup (pid, timerId), world)
  | .clock => (world.now, world)
  | .append workflowId events expectedSeq =>
    ((world.store.appendAnswer workflowId events expectedSeq).1,
      { world with store := (world.store.appendAnswer workflowId events expectedSeq).2 })
  | .setRegistry registry => ((), { world with registry })
  | .tick elapsed => ((), { world with now := world.now + elapsed })
  | .crash => ((), { world with registry := [], pendingTimers := ∅, nextTimerGeneration := 0, terminalUpdates := ∅ })

/-- What a caller has seen and done so far. -/
inductive TimerNote where
  | took (key : TimerKey)
  | gaveBack (key : TimerKey)
  | read (workflowId : WorkflowId) (history : List Event)
  | recorded (workflowId : WorkflowId) (event : Event)
  | clock (now : Instant)
  /-- The wheel's task for a timer. -/
  | pending (timerId : TimerId) (task : PendingTimer)
  /-- The rows that have expired. -/
  | expired (due : List TimerEntry)

/-- The note of a step. -/
def TimerNote.of : (call : TimerCall) → call.Answer → List TimerNote
  | .insertTerminalUpdate key, true => [.took key]
  | .removeTerminalUpdate key, _ => [.gaveBack key]
  | .readHistory workflowId, history => [.read workflowId history]
  | .recordWorkflowEvent workflowId event, .ok .recorded => [.recorded workflowId event]
  | .clock, now => [.clock now]
  | .pendingTimer _ timerId, some task => [.pending timerId task]
  | .expiredTimers _, due => [.expired due]
  | _, _ => []

/-- The steps as a service. -/
def timerSteps : Service TimerWorld TimerCall TimerCall.Answer TimerNote where
  serve := TimerWorld.serve
  added := TimerNote.of

/-! ### The service's calls -/

/-- Where a call awaits, and may be dropped. -/
inductive TimerAwait where
  | liveness | envelope
  deriving DecidableEq

/-- What a call finds that the steps do not say. -/
structure TimerEnvironment where
  /-- How often it tries for a taken slot before it is dropped. -/
  patience : ℕ
  /-- Where it is dropped. -/
  dropped : TimerAwait → Bool
  /-- The answer of the deadline handler, when one is registered. -/
  deadlineHandler : Option (Except String Unit)
  /-- The runtime's answer to a wake. -/
  wake : Except String Unit
  /-- `Uuid::parse_str`. -/
  parseUuid : String → Option Uuid

/-- Why a call ends early. -/
inductive TimerStop where
  | failed (error : TimerServiceError)
  | dropped
  deriving DecidableEq

/-- A call of the service: its steps and its result. -/
def TimerM (α : Type) : Type := Prog TimerCall TimerCall.Answer (Except TimerStop α)

variable (env : TimerEnvironment)

namespace TimerM

instance : Monad TimerM where
  pure value := .done (.ok value)
  bind first f := Prog.bind first fun
    | .ok value => f value
    | .error stop => .done (.error stop)

/-- One step. -/
def call (request : TimerCall) : TimerM request.Answer :=
  Prog.call request fun answer => .done (.ok answer)

/-- The call ends here. -/
def stop {α : Type} (reason : TimerStop) : TimerM α := .done (.error reason)

/-- The `?` of the engine seam. -/
def liftEngine {α : Type} : Except EngineSeamError α → TimerM α
  | .ok value => pure value
  | .error error => stop (.failed (.engine error))

/-- An await of the call. -/
def await (point : TimerAwait) : TimerM Unit :=
  if env.dropped point then stop .dropped else pure ()

end TimerM

open TimerM

namespace TimerService

/-- `timer_is_live`. -/
def timerIsLive (workflowId : WorkflowId) (timerId : TimerId) : TimerM Bool := do
  let history ← call (.readHistory workflowId)
  return decide (timerId ∈ liveTimersInActiveSegment history)

/-- `next_envelope`. -/
def nextEnvelope (workflowId : WorkflowId) : TimerM EventEnvelope := do
  let history ← call (.readHistory workflowId)
  let recordedAt ← call .clock
  return ⟨InMemoryStore.historyHead history + 1, recordedAt, workflowId⟩

/-- `wait_for_terminal_update_slot`. -/
def waitForTerminalUpdateSlot (key : TimerKey) : ℕ → TimerM Unit
  | 0 => stop .dropped
  | patience + 1 => do
    let taken : Bool ← call (.insertTerminalUpdate key)
    if taken then return () else waitForTerminalUpdateSlot key patience

/-- The body of a call with the timer's slot, which is given back however the body ends. -/
def withTerminalUpdateSlot (key : TimerKey) (body : TimerM Unit) :
    TimerM Unit := do
  waitForTerminalUpdateSlot key env.patience
  Prog.bind body fun result => .call (.removeTerminalUpdate key) fun _ => .done result

/-- `cancel_guarded`. -/
def cancelGuarded (workflowId : WorkflowId) (timerId : TimerId)
    (cause : TimerCancelCause) : TimerM Unit := do
  await env .liveness
  if !(← timerIsLive workflowId timerId) then return ()
  match ← call (.resolveWorkflow workflowId) with
  | .resident process => call (.disarmTimer process timerId)
  | _ => pure ()
  await env .envelope
  let envelope ← nextEnvelope workflowId
  let _ ← liftEngine (← call (.recordWorkflowEvent workflowId
      ⟨envelope, .timerCancelled timerId cause⟩))
  return ()

/-- `TimerService::cancel`. -/
def cancel (workflowId : WorkflowId) (timerId : TimerId)
    (cause : TimerCancelCause) : TimerM Unit :=
  withTerminalUpdateSlot env (workflowId, timerId) (cancelGuarded env workflowId timerId cause)

/-- `fire_deadline`. -/
def fireDeadline (workflowId : WorkflowId) (timerId : TimerId) :
    TimerM Unit :=
  match env.deadlineHandler, deadlineRunId env.parseUuid timerId with
  | none, _ => stop (.failed (.deadline ("no deadline handler registered for " ++ timerId.display ++ " on workflow " ++
      workflowId.display)))
  | some _, none =>
    stop (.failed (.deadline ("malformed deadline timer " ++ timerId.display ++ " on workflow " ++
      workflowId.display)))
  | some (.error reason), some _ => stop (.failed (.deadline reason))
  | some (.ok ()), some _ => pure ()

/-- `fire_timer_guarded`. -/
def fireTimerGuarded (workflowId : WorkflowId) (timerId : TimerId)
    (fireAt : Instant) : TimerM Unit := do
  await env .liveness
  if !(← timerIsLive workflowId timerId) then return ()
  if isDeadlineTimer timerId then fireDeadline env workflowId timerId
  else do
    await env .envelope
    let envelope ← nextEnvelope workflowId
    let outcome ← liftEngine (← call (.recordWorkflowEvent workflowId ⟨envelope, .timerFired timerId⟩))
    if outcome = .refusedTerminal then return ()
    match ← call (.resolveWorkflow workflowId) with
    | .resident process =>
      call (.deliverWorkflowMessage process timerId fireAt)
      liftEngine (env.wake.mapError .delivery)
    | _ => return ()

/-- `TimerService::fire_timer`. -/
def fireTimer (workflowId : WorkflowId) (timerId : TimerId)
    (fireAt : Instant) : TimerM Unit :=
  withTerminalUpdateSlot env (workflowId, timerId) (fireTimerGuarded env workflowId timerId fireAt)

/-- `TimerService::schedule`. -/
def schedule (workflowId : WorkflowId) (timerId : TimerId) (fireAt : Instant) : TimerM Unit := do
  call (.scheduleTimer (workflowId, timerId) fireAt)
  match ← call (.resolveWorkflow workflowId) with
  | .resident process => liftEngine (← call (.armTimer process timerId fireAt))
  | _ => return ()

end TimerService

/-! ### What the steps do -/

/-- An append under the recorder's lock: refused and nothing done, or accepted. -/
theorem run_appendWith (recordedAt : Instant) (body : EventBody) (recorder : Recorder)
    (store : InMemoryStore) :
    (∃ error, storeService.run (appendWith recordedAt body recorder) store =
        ((.error error, recorder), store)) ∨
      ∃ store', store.append recorder.workflowId
          [⟨⟨recorder.sequence.head + 1, recordedAt, recorder.workflowId⟩, body⟩]
            recorder.sequence.head = .ok store' ∧
        storeService.run (appendWith recordedAt body recorder) store =
          ((.ok (), { recorder with sequence := ⟨recorder.sequence.head + 1⟩ }), store') := by
  cases henv : recorder.nextEnvelope recordedAt with
  | error error =>
    refine .inl ⟨error, ?_⟩
    simp only [appendWith, bind, RecorderM.get, RecorderM.lift, Prog.bind, henv, Service.run]
  | ok envelope =>
    obtain ⟨hfits, rfl⟩ := nextEnvelope_eq_ok henv
    cases happ : store.append recorder.workflowId
        [⟨⟨recorder.sequence.head + 1, recordedAt, recorder.workflowId⟩, body⟩] recorder.sequence.head with
    | error error =>
      refine .inl ⟨.store error, ?_⟩
      simp only [appendWith, appendOne, bind, RecorderM.get, RecorderM.lift, RecorderM.call, RecorderM.liftStore, Prog.bind,
        henv, Service.run, storeService, InMemoryStore.serve, InMemoryStore.appendAnswer, SequenceHead.current, happ,
        Except.mapError]
    | ok store' =>
      refine .inr ⟨store', rfl, ?_⟩
      have hadd : checkedAdd recorder.sequence.head 1 = some (recorder.sequence.head + 1) :=
        checkedAdd_eq_some.mpr ⟨hfits, rfl⟩
      simp only [appendWith, appendOne, markAppendSuccess, bind, RecorderM.get, RecorderM.lift, RecorderM.call,
        RecorderM.liftStore, RecorderM.modify, Prog.bind, henv, Service.run, storeService, InMemoryStore.serve,
        InMemoryStore.appendAnswer, SequenceHead.current, happ, Except.mapError, SequenceHead.markAppendSuccess, hadd]

theorem run_recordUnlessTerminal (workflowId : WorkflowId) (recordedAt : Instant) (body : EventBody)
    (recorder : Recorder) (store : InMemoryStore) :
    storeService.run (recordUnlessTerminal workflowId recordedAt body recorder) store =
      if activeRunHasTerminal (store.readHistory workflowId) then
        ((.ok .refusedTerminal, recorder), store)
      else (((storeService.run (appendWith recordedAt body recorder) store).1.1.map fun _ =>
          RecordOutcome.recorded,
        (storeService.run (appendWith recordedAt body recorder) store).1.2),
        (storeService.run (appendWith recordedAt body recorder) store).2) := by
  have hread : storeService.run (recordUnlessTerminal workflowId recordedAt body recorder) store =
      storeService.run ((if activeRunHasTerminal (store.readHistory workflowId) then pure .refusedTerminal
        else do appendWith recordedAt body; return .recorded : RecorderM RecordOutcome) recorder) store := rfl
  rw [hread]
  split_ifs with hterm
  · rfl
  · change storeService.run (Prog.bind (appendWith recordedAt body recorder) _) store = _
    rw [Service.run_bind]
    generalize storeService.run (appendWith recordedAt body recorder) store = served
    obtain ⟨⟨result, recorder'⟩, store'⟩ := served
    cases result with
    | error error => rfl
    | ok value => rfl

/-- What a recorded event does. -/
inductive RecordedOutcome (world : TimerWorld) (workflowId : WorkflowId) (event : Event) :
    Except EngineSeamError RecordOutcome × TimerWorld → Prop
  /-- Nothing is appended. -/
  | none {result : Except EngineSeamError RecordOutcome} {registry : List RegisteredHandle}
    (hres : result ≠ .ok .recorded) : RecordedOutcome world workflowId event (result, { world with registry })
  /-- The event is appended, with the recorder's number, to a run without a terminal. -/
  | appended {store : InMemoryStore} {registry : List RegisteredHandle} {seq : ℕ}
    (hopen : activeRunHasTerminal (world.store.readHistory workflowId) = false)
    (happ : world.store.append workflowId [⟨⟨seq + 1, event.recordedAt, workflowId⟩, event.body⟩] seq = .ok store) :
    RecordedOutcome world workflowId event (.ok .recorded, { world with store, registry })

theorem recordedOutcome (workflowId : WorkflowId) (event : Event) :
    RecordedOutcome world workflowId event (world.recordWorkflowEvent workflowId event) := by
  have hrec : RecordedOutcome world workflowId event (world.recordOutcome workflowId event.recordedAt event.body) := by
    unfold TimerWorld.recordOutcome
    cases hfind : world.registry.find? (·.workflowId = workflowId) with
    | none => exact .none (by simp)
    | some handle =>
      have hown : handle.workflowId = workflowId := by simpa using List.find?_some hfind
      simp only [run_recordUnlessTerminal]
      cases hterm : activeRunHasTerminal (world.store.readHistory workflowId) with
      | true => exact .none (by simp [Except.mapError])
      | false =>
        simp only [Bool.false_eq_true, if_false]
        rcases run_appendWith event.recordedAt event.body handle.recorder world.store with ⟨error, hrun⟩ | ⟨store, happ, hrun⟩
        · rw [hrun]
          exact .none (by simp [Except.mapError, Except.map])
        · rw [hrun]
          rw [← RegisteredHandle.workflowId, hown] at happ
          exact .appended hterm happ
  unfold TimerWorld.recordWorkflowEvent
  split
  · rename_i timerId hbody
    rw [hbody] at hrec
    exact hrec
  · rename_i timerId cause hbody
    rw [hbody] at hrec
    exact hrec
  · exact .none (by simp)
  · exact .none (by simp)
/-- The histories change by accepted appends only. -/
theorem serve_store_cases (call : TimerCall) :
    (world.serve call).2.store = world.store ∨
      ∃ workflowId events seq, world.store.append workflowId events seq =
        .ok (world.serve call).2.store := by
  cases call with
  | insertTerminalUpdate key =>
    simp only [TimerWorld.serve]
    split_ifs
    · exact .inl rfl
    · exact .inl rfl
  | armTimer process timerId fireAt =>
    simp only [TimerWorld.serve, TimerWorld.armTimer]
    split
    · exact .inl rfl
    · exact .inl rfl
  | recordWorkflowEvent workflowId event =>
    have hout := recordedOutcome world workflowId event
    simp only [TimerWorld.serve]
    generalize world.recordWorkflowEvent workflowId event = served at hout ⊢
    cases hout with
    | none hres => exact .inl rfl
    | appended hopen happ => exact .inr ⟨_, _, _, happ⟩
  | append workflowId events expectedSeq =>
    simp only [TimerWorld.serve, InMemoryStore.appendAnswer]
    split
    · exact .inr ⟨_, _, _, ‹_›⟩
    · exact .inl rfl
  | _ => exact .inl rfl

theorem serve_numbered {world : TimerWorld} (numbered : world.store.Numbered) (call : TimerCall) :
    (world.serve call).2.store.Numbered := by
  rcases serve_store_cases world call with hsame | ⟨workflowId, events, seq, happ⟩
  · rw [hsame]
    exact numbered
  · exact InMemoryStore.append_numbered numbered happ

theorem serve_grows (call : TimerCall) (workflowId : WorkflowId) :
    world.store.history workflowId <+: (world.serve call).2.store.history workflowId := by
  rcases serve_store_cases world call with hsame | ⟨target, events, seq, happ⟩
  · rw [hsame]
  · rw [(InMemoryStore.append_eq_ok happ).2.2 workflowId]
    exact List.prefix_append _ _

/-! ### What live means -/

theorem liveTimers_concat (history : List Event) (event : Event) :
    liveTimersInActiveSegment (history ++ [event]) =
      if isWorkflowStarted event then []
      else liveStep (liveTimersInActiveSegment history) event := by
  rw [liveTimersInActiveSegment, Scan.fromLast_concat]
  split_ifs with hstrt
  · obtain ⟨envelope, body⟩ := event
    cases body <;> first | rfl | exact absurd hstrt (by simp [isWorkflowStarted])
  · rw [List.foldl_append]
    rfl

variable {timerId : TimerId} {history : List Event} {event : Event}

theorem mem_liveStep {live : List TimerId} :
    timerId ∈ liveStep live event ↔ startsTimer timerId event ∨ timerId ∈ live ∧
      settlesTimer timerId event = false := by
  obtain ⟨envelope, body⟩ := event
  cases body with
  | timerStarted started fireAt =>
    simp only [liveStep, startsTimer, settlesTimer]
    split_ifs with hmem
    · constructor
      · exact fun h => .inr ⟨h, trivial⟩
      · rintro (h | ⟨h, -⟩)
        · rwa [← of_decide_eq_true h]
        · exact h
    · simp [or_comm, eq_comm]
  | timerFired fired => simp [liveStep, startsTimer, settlesTimer, ne_comm]
  | timerCancelled cancelled cause => simp [liveStep, startsTimer, settlesTimer, ne_comm]
  | _ => simp [liveStep, startsTimer, settlesTimer]

theorem not_startsTimer_of_settlesTimer (h : settlesTimer timerId event) :
    ¬ startsTimer timerId event := by
  obtain ⟨envelope, body⟩ := event
  cases body <;> simp [startsTimer, settlesTimer] at h ⊢

/-- A position of a longer history that does not hold its last event is one of the shorter. -/
theorem getElem?_of_concat {found : Event} {n : ℕ} (h : (history ++ [event])[n]? = some found)
    (hne : found ≠ event) : history[n]? = some found := by
  rw [List.getElem?_append] at h
  split_ifs at h
  · exact h
  · rw [List.getElem?_singleton] at h
    split_ifs at h
    cases h
    exact absurd rfl hne

/-- A live timer was started after every outcome it has had. -/
theorem started_after_of_live (h : timerId ∈ liveTimersInActiveSegment history) {n : ℕ}
    {settled : Event} (hsett : history[n]? = some settled) (hsets : settlesTimer timerId settled) :
    ∃ k started, n < k ∧ history[k]? = some started ∧ startsTimer timerId started := by
  induction history using List.reverseRecOn with
  | nil => simp at hsett
  | append_singleton history event ih =>
    rw [liveTimers_concat] at h
    split_ifs at h
    · simp at h
    rcases mem_liveStep.mp h with hstarts | ⟨hlive, hnot⟩
    · have hearl : history[n]? = some settled := by
        refine getElem?_of_concat hsett ?_
        rintro rfl
        exact not_startsTimer_of_settlesTimer hsets hstarts
      exact ⟨history.length, event, (List.getElem?_eq_some_iff.mp hearl).1, List.getElem?_concat_length, hstarts⟩
    · have hearl : history[n]? = some settled := by
        refine getElem?_of_concat hsett ?_
        rintro rfl
        rw [hsets] at hnot
        cases hnot
      obtain ⟨k, started, hk, hstrt, hstarts⟩ := ih hlive hearl
      refine ⟨k, started, hk, ?_, hstarts⟩
      rw [List.getElem?_append_left (List.getElem?_eq_some_iff.mp hstrt).1]
      exact hstrt

end Aion
