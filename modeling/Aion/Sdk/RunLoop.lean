import Aion.Core.Event
import Aion.Library.Actions
import Aion.Library.OrderedMap
import Mathlib.Algebra.Group.Nat.Defs
import Mathlib.Data.Prod.Lex

/-!
# The run loop of a worker

`worker.rs`, `runtime/loop_.rs`, `runtime/report.rs` and `protocol/reconnect.rs` of the worker SDK.
A worker establishes a session (`reconnect_with_sleep`), sends again what was not acknowledged
(`re_report_unacked`) and serves tasks (`serve_activity_tasks_until`): each is run by a handler of
its own, and its outcome is tracked and reported. When the session ends the handlers are awaited
(`drain_remaining`), and a dropped session is established anew after a pause
(`run_with_connector_until`).

The loop, its handlers and the clock take turns. What the server does, how long a handler takes,
which sends fail and when the caller shuts the worker down is left open.
-/

namespace Aion

open Actions

/-! ### Errors -/

/-- `tonic::Code`. -/
inductive StatusCode where
  | ok
  | cancelled
  | unknown
  | invalidArgument
  | deadlineExceeded
  | notFound
  | alreadyExists
  | permissionDenied
  | resourceExhausted
  | failedPrecondition
  | aborted
  | outOfRange
  | unimplemented
  | internal
  | unavailable
  | dataLoss
  | unauthenticated
  deriving DecidableEq

/-- `tonic::Status`. -/
structure GrpcStatus where
  code : StatusCode
  message : String
  deriving DecidableEq

/-- The boxed source of an error: the status with which the server refused, or an error of the
worker. -/
inductive ErrorSource where
  | status (status : GrpcStatus)
  | message (text : String)
  deriving DecidableEq

/-- `WorkerError`. -/
inductive WorkerError where
  | connect (source : String)
  | handshake (source : GrpcStatus)
  | registration (source : ErrorSource)
  | decode (source : String)
  | encode (source : String)
  | transport (source : GrpcStatus)
  | cleanCloseExhausted
  deriving DecidableEq

/-- `WorkerError::grpc_status`. -/
def WorkerError.grpcStatus : WorkerError → Option GrpcStatus
  | .handshake source => some source
  | .transport source => some source
  | .registration (.status source) => some source
  | .registration (.message _) => none
  | .connect _ => none
  | .decode _ => none
  | .encode _ => none
  | .cleanCloseExhausted => none

/-- `WorkerError::is_retryable`. -/
def WorkerError.isRetryable (error : WorkerError) : Bool :=
  match error.grpcStatus.map GrpcStatus.code with
  | some .permissionDenied => false
  | some .unauthenticated => false
  | _ => true

/-! ### Settings -/

/-- `ReconnectConfig`, with its pauses in nanoseconds. -/
structure ReconnectConfig where
  initialBackoff : ℕ
  maxBackoff : ℕ
  maxAttempts : ℕ

/-- What the run loop reads of `WorkerConfig`. -/
structure WorkerConfig where
  maxConcurrency : ℕ
  reconnect : ReconnectConfig

/-- `ReconnectBackoff`. -/
structure ReconnectBackoff where
  initial : ℕ
  max : ℕ
  attempts : ℕ
  initial_pos : 0 < initial
  max_pos : 0 < max
  attempts_pos : 0 < attempts

/-- `InvalidReconnectBackoff`. -/
def invalidReconnectBackoff (message : String) : WorkerError := .registration (.message message)

/-- `ReconnectBackoff::from_config`. -/
def ReconnectBackoff.fromConfig (config : WorkerConfig) : Except WorkerError ReconnectBackoff :=
  if hinitial : config.reconnect.initialBackoff = 0 then
    .error (invalidReconnectBackoff "reconnect initial_backoff must be greater than zero")
  else if hmax : config.reconnect.maxBackoff = 0 then
    .error (invalidReconnectBackoff "reconnect max_backoff must be greater than zero")
  else if hattempts : config.reconnect.maxAttempts = 0 then
    .error (invalidReconnectBackoff "reconnect max_attempts must be greater than zero")
  else
    .ok {
      initial := config.reconnect.initialBackoff
      max := config.reconnect.maxBackoff
      attempts := config.reconnect.maxAttempts
      initial_pos := Nat.pos_of_ne_zero hinitial
      max_pos := Nat.pos_of_ne_zero hmax
      attempts_pos := Nat.pos_of_ne_zero hattempts }

/-- `ReconnectBackoff::delay_for_attempt`. No pause is above the cap, so the product need not
saturate. -/
def ReconnectBackoff.delayForAttempt (backoff : ReconnectBackoff) (completedFailures : ℕ) : ℕ :=
  min (backoff.initial * 2 ^ min (completedFailures - 1) 31) backoff.max

/-- A worker whose reconnect settings are valid. -/
structure Worker where
  config : WorkerConfig
  backoff : ReconnectBackoff
  valid : ReconnectBackoff.fromConfig config = .ok backoff

/-- `InvalidMaxConcurrency`. -/
def invalidMaxConcurrency : WorkerError :=
  .registration (.message "worker max_concurrency must be greater than zero")

/-! ### Tasks and reports -/

/-- `ActivityExecutionKey`. -/
structure ActivityExecutionKey where
  workflowId : WorkflowId
  activityId : ActivityId
  deriving DecidableEq

/-- `ActivityTask`, without the labels that are only logged. -/
structure ActivityTask where
  workflowId : WorkflowId
  activityId : ActivityId
  runId : Option RunId
  activityType : String
  attempt : ℕ
  input : Payload
  deriving DecidableEq

/-- The key of a task. -/
def ActivityTask.key (task : ActivityTask) : ActivityExecutionKey :=
  ⟨task.workflowId, task.activityId⟩

/-- `DispatchOutcome`. -/
inductive DispatchOutcome where
  | completed (output : Payload)
  | failed (failure : ActivityError)
  deriving DecidableEq

/-- `DispatchFinished`, with the number of the handler. -/
structure DispatchFinished where
  number : ℕ
  key : ActivityExecutionKey
  runId : Option RunId
  outcome : Except WorkerError DispatchOutcome

/-- `PendingActivityReport`. -/
inductive PendingActivityReport where
  | completed (workflowId : WorkflowId) (activityId : ActivityId) (runId : Option RunId)
    (output : Payload)
  | failed (workflowId : WorkflowId) (activityId : ActivityId) (runId : Option RunId)
    (failure : ActivityError)
  deriving DecidableEq

/-- `PendingActivityReport::workflow_id`. -/
def PendingActivityReport.workflowId : PendingActivityReport → WorkflowId
  | .completed workflowId _ _ _ => workflowId
  | .failed workflowId _ _ _ => workflowId

/-- `PendingActivityReport::activity_id`. -/
def PendingActivityReport.activityId : PendingActivityReport → ActivityId
  | .completed _ activityId _ _ => activityId
  | .failed _ activityId _ _ => activityId

/-- `PendingReportKey`, in lexicographic order, with the identifier of the workflow by its value. -/
abbrev PendingReportKey := ℕ ×ₗ ℕ

/-- `pending_report_key`. -/
def pendingReportKey (workflowId : WorkflowId) (activityId : ActivityId) : PendingReportKey :=
  toLex (workflowId.asUuid.toNat, activityId.sequencePosition)

/-- The key under which a report is tracked. -/
def PendingActivityReport.key (report : PendingActivityReport) : PendingReportKey :=
  pendingReportKey report.workflowId report.activityId

/-- `pending_report`. -/
def pendingReport (key : ActivityExecutionKey) (runId : Option RunId) :
    DispatchOutcome → PendingActivityReport
  | .completed output => .completed key.workflowId key.activityId runId output
  | .failed failure => .failed key.workflowId key.activityId runId failure

/-- `UnackedResultTracker`. -/
abbrev UnackedResultTracker := OrderedMap PendingReportKey PendingActivityReport

namespace UnackedResultTracker

variable (tracker : UnackedResultTracker)

/-- `UnackedResultTracker::record`. -/
def record (report : PendingActivityReport) : UnackedResultTracker :=
  tracker.insert report.key report

/-- `UnackedResultTracker::acknowledge`. -/
def acknowledge (workflowId : WorkflowId) (activityId : ActivityId) : UnackedResultTracker :=
  tracker.erase (pendingReportKey workflowId activityId)

/-- `UnackedResultTracker::snapshot`. -/
def snapshot : List PendingActivityReport := tracker.entries.map Prod.snd

end UnackedResultTracker

/-! ### Sessions -/

/-- `WorkerSessionEvent`. A task frame is decoded when its handler is about to start. -/
inductive WorkerSessionEvent where
  | task (frame : Except WorkerError ActivityTask)
  | drain
  | resultAck (workflowId : WorkflowId) (activityId : ActivityId)
  | cancel (workflowId : WorkflowId) (activityId : ActivityId)

/-- `ServeEnd`. -/
inductive ServeEnd where
  | shutdown
  | streamClosed
  | drained
  deriving DecidableEq

/-- `SessionHealth`. -/
structure SessionHealth where
  tasksReported : ℕ
  streamEndedAt : Option ℕ
  drainReceived : Bool

/-- `SessionHealth::default`. -/
def SessionHealth.default : SessionHealth := ⟨0, none, false⟩

/-- `DropCause`. -/
inductive DropCause where
  | failure (error : WorkerError)
  | cleanClose
  | drain
  deriving DecidableEq

/-- `DropCause::into_exhaustion_error`. -/
def DropCause.intoExhaustionError : DropCause → WorkerError
  | .failure error => error
  | .cleanClose => .cleanCloseExhausted
  | .drain => .cleanCloseExhausted

/-- `DropCause::into_shutdown_result`. -/
def DropCause.intoShutdownResult : DropCause → Except WorkerError Unit
  | .failure error => .error error
  | .cleanClose => .ok ()
  | .drain => .ok ()

/-- `DropCause::into_recovery_error`. -/
def DropCause.intoRecoveryError : DropCause → Option WorkerError
  | .failure error => some error
  | .cleanClose => none
  | .drain => none

/-- `ServeClassification`. -/
inductive ServeClassification where
  | ends (result : Except WorkerError Unit)
  | drops (cause : DropCause)

/-- `classify_serve_outcome`. -/
def classifyServeOutcome (served : Except WorkerError ServeEnd) (health : SessionHealth)
    (shutdownFired : Bool) : ServeClassification :=
  match served with
  | .ok .shutdown => .ends (.ok ())
  | .ok .drained => if shutdownFired then .ends (.ok ()) else .drops .drain
  | .ok .streamClosed => if shutdownFired then .ends (.ok ()) else .drops .cleanClose
  | .error error =>
    if !error.isRetryable then .ends (.error error)
    else if health.drainReceived then
      if shutdownFired then .ends (.ok ()) else .drops .drain
    else if shutdownFired then .ends (.error error)
    else .drops (.failure error)

/-! ### The state of a run -/

/-- A spawned handler, which holds a permit. -/
structure Handler where
  number : ℕ
  session : ℕ
  task : ActivityTask
  cancelled : Bool
  /-- Its outcome is sent, and the permit goes next. -/
  sent : Bool

/-- Where the run loop stands. -/
inductive RunPhase where
  /-- A session is being established, for the given time in a row. -/
  | establishing (attempt : ℕ)
  /-- It was refused. -/
  | pausing (attempt : ℕ) (deadline : ℕ)
  /-- What was not acknowledged is sent again. -/
  | replaying (rest : List PendingActivityReport)
  | serving
  /-- A task waits for its permit. -/
  | acquiring (frame : Except WorkerError ActivityTask)
  | draining (ended : ServeEnd)
  /-- The session is over. -/
  | served (result : Except WorkerError ServeEnd)
  | backingOff (cause : DropCause) (deadline : ℕ)
  /-- The run has returned. -/
  | finished (result : Except WorkerError Unit)

/-- What happens, as far as it is spoken of. -/
inductive RunNote where
  /-- A session could not be established. -/
  | refused (error : WorkerError)
  | established
  /-- A handler is spawned. -/
  | accepted (number : ℕ) (task : ActivityTask)
  /-- The outcome of a handler is tracked. -/
  | recorded (number : ℕ) (report : PendingActivityReport)
  /-- A handler could not compute an outcome. -/
  | failed (number : ℕ) (error : WorkerError)
  | panicked (number : ℕ)
  /-- The session took a report. -/
  | sent (report : PendingActivityReport)
  | acknowledged (key : PendingReportKey)
  /-- The shutdown of the caller is seen. -/
  | shutdown
  | served (result : Except WorkerError ServeEnd)
  | dropped (cause : DropCause) (healthy : Bool)

/-- A run of `run_with_connector_until`, its handlers and what happened so far. -/
structure WorkerRun where
  phase : RunPhase
  now : ℕ
  /-- `SharedShutdown::fired`. -/
  fired : Bool
  /-- `drop_failures`. -/
  dropFailures : ℕ
  /-- `recovery_error`. -/
  recoveryError : Option WorkerError
  tracker : UnackedResultTracker
  /-- The number of sessions that were established. -/
  session : ℕ
  sessionStarted : ℕ
  health : SessionHealth
  /-- The number of handlers that were spawned. -/
  spawned : ℕ
  handlers : List Handler
  /-- The keys in flight, with the number of the handler that is joined. -/
  inFlight : List (ActivityExecutionKey × ℕ)
  results : List DispatchFinished
  /-- `pending_error`. -/
  pendingError : Option WorkerError
  notes : List RunNote

/-- What the loop, its handlers and the clock do. An error is that of a call that fails. -/
inductive RunAction where
  | tick (elapsed : ℕ)
  /-- The caller's shutdown is seen. -/
  | shutdown
  /-- The connector, the handshake and the registration. -/
  | connect (failure : Option WorkerError)
  /-- A pause is over. -/
  | wake
  /-- The next report is sent again. -/
  | replay (failure : Option WorkerError)
  /-- All of them are. -/
  | serve
  /-- The session yields an event, an error or its end. -/
  | receive (event : Option (Except WorkerError WorkerSessionEvent))
  /-- There is a permit. -/
  | acquire
  /-- An outcome is taken from the channel. -/
  | consume (failure : Option WorkerError)
  /-- A heartbeat is sent. -/
  | heartbeat (failure : Option WorkerError)
  /-- Nothing is left to await. -/
  | drained
  /-- The run loop goes by how the session ended. -/
  | settle
  /-- A handler has its outcome. -/
  | finish (number : ℕ) (outcome : Except WorkerError DispatchOutcome)
  /-- A handler that has sent its outcome gives its permit back. -/
  | release (number : ℕ)
  | panic (number : ℕ)

namespace WorkerRun

/-- The state in which a run starts. -/
def start : WorkerRun where
  phase := .establishing 1
  now := 0
  fired := false
  dropFailures := 0
  recoveryError := none
  tracker := .empty
  session := 0
  sessionStarted := 0
  health := .default
  spawned := 0
  handlers := []
  inFlight := []
  results := []
  pendingError := none
  notes := []

variable (s : WorkerRun)

/-- The state with one more note. -/
def note (note : RunNote) : WorkerRun := { s with notes := s.notes ++ [note] }

/-- The state in another phase. -/
def goTo (phase : RunPhase) : WorkerRun := { s with phase := phase }

/-- The run returns. -/
def finish (result : Except WorkerError Unit) : WorkerRun := s.goTo (.finished result)

/-- `serve_activity_tasks_until` runs: its channels are open. -/
def isServing : Bool :=
  match s.phase with
  | .serving => true
  | .acquiring _ => true
  | .draining _ => true
  | _ => false

/-- The stream is left, and what is in flight is awaited. -/
def leaveStream (ended : ServeEnd) : WorkerRun :=
  { s with phase := .draining ended, health := { s.health with streamEndedAt := some s.now } }

/-- `record_first_error`. -/
def recordFirstError (failure : Option WorkerError) : WorkerRun :=
  { s with pendingError := s.pendingError.or failure }

/-- The loop is left with the first error. -/
def leaveOnError : WorkerRun := if s.pendingError.isSome then s.leaveStream .streamClosed else s

/-- The handler that is joined for a key. -/
def inFlightNumber (key : ActivityExecutionKey) : Option ℕ :=
  (s.inFlight.find? fun entry => entry.1 = key).map Prod.snd

/-- Handlers are cancelled. -/
def cancel (numbers : List ℕ) : WorkerRun :=
  { s with handlers := s.handlers.map fun handler =>
      if handler.number ∈ numbers then { handler with cancelled := true } else handler }

/-- `deliver_cancellation`. -/
def deliverCancellation (key : ActivityExecutionKey) : WorkerRun :=
  s.cancel (s.inFlightNumber key).toList

/-- `cancel_all_in_flight`. -/
def cancelAllInFlight : WorkerRun := s.cancel (s.inFlight.map Prod.snd)

/-- `acknowledge_result`. -/
def acknowledgeResult (workflowId : WorkflowId) (activityId : ActivityId) : WorkerRun :=
  { s with tracker := s.tracker.acknowledge workflowId activityId }.note
    (.acknowledged (pendingReportKey workflowId activityId))

/-- `spawn_activity`. -/
def spawnActivity (task : ActivityTask) : WorkerRun :=
  let spawned : WorkerRun := { s with
    handlers := s.handlers ++ [⟨s.spawned, s.session, task, false, false⟩]
    inFlight := s.inFlight.filter (fun entry => entry.1 ≠ task.key) ++ [(task.key, s.spawned)]
    spawned := s.spawned + 1 }
  spawned.note (.accepted s.spawned task)

/-- `handle_task`, in the loop. -/
def handleTask : Except WorkerError ActivityTask → WorkerRun
  | .error error => (s.recordFirstError (some error)).leaveOnError
  | .ok task => (s.spawnActivity task).goTo .serving

/-- A report is sent; the session takes it or fails. -/
def sendReport (report : PendingActivityReport) (failure : Option WorkerError) : WorkerRun :=
  match failure with
  | none => { s with health := { s.health with tasksReported := s.health.tasksReported + 1 } }.note (.sent report)
  | some error => s.recordFirstError (some error)

/-- `report_finished`, once the handler is joined. -/
def reportFinished (finished : DispatchFinished) (failure : Option WorkerError) : WorkerRun :=
  let s := { s with inFlight := s.inFlight.filter fun entry => entry.1 ≠ finished.key }
  match finished.outcome with
  | .ok outcome =>
    let report := pendingReport finished.key finished.runId outcome
    ({ s with tracker := s.tracker.record report }.note (.recorded finished.number report)).sendReport report failure
  | .error error => (s.note (.failed finished.number error)).recordFirstError (some error)

/-- A session stands. -/
def establish : WorkerRun :=
  { s with
    phase := .replaying s.tracker.snapshot
    session := s.session + 1
    sessionStarted := s.now
    health := .default
    inFlight := []
    results := []
    pendingError := none }.note .established

variable (worker : Worker)

/-- An attempt to establish a session has failed. -/
def refuse (attempt : ℕ) (error : WorkerError) : WorkerRun :=
  if !error.isRetryable then (s.note (.refused error)).finish (.error error)
  else if attempt = worker.backoff.attempts then (s.note (.refused error)).finish (.error error)
  else (s.note (.refused error)).goTo
    (.pausing attempt (s.now + worker.backoff.delayForAttempt attempt))

/-- The session proved healthy. -/
def provedHealthy : Bool :=
  s.health.tasksReported > 0 ||
    (s.health.streamEndedAt.getD s.now) - s.sessionStarted > worker.backoff.max

/-- The session dropped. -/
def drop (cause : DropCause) : WorkerRun :=
  let healthy := s.provedHealthy worker
  let failures := if healthy then 0 else s.dropFailures
  let s := s.note (.dropped cause healthy)
  if cause = .drain then { s with dropFailures := failures }.goTo
    (.backingOff cause (s.now + worker.config.reconnect.initialBackoff))
  else if failures + 1 ≥ worker.backoff.attempts then
    { s with dropFailures := failures + 1 }.finish (.error cause.intoExhaustionError)
  else
    { s with dropFailures := failures + 1 }.goTo
      (.backingOff cause (s.now + worker.backoff.delayForAttempt (failures + 1)))

/-- The session has ended, and the run loop goes by how. -/
def settle (served : Except WorkerError ServeEnd) : WorkerRun :=
  let s := s.note (.served served)
  match classifyServeOutcome served s.health s.fired with
  | .ends result => s.finish result
  | .drops cause => s.drop worker cause

/-- The caller's shutdown is seen where the loop waits for it. -/
def seeShutdown : Option WorkerRun :=
  let fired := { s with fired := true }.note .shutdown
  let recovered : Except WorkerError Unit := s.recoveryError.elim (.ok ()) .error
  match s.phase with
  | .establishing _ => some (fired.finish recovered)
  | .pausing _ _ => some (fired.finish recovered)
  | .replaying _ => some (fired.finish (.ok ()))
  | .serving => some (fired.cancelAllInFlight.leaveStream .shutdown)
  | .acquiring _ => some (fired.cancelAllInFlight.leaveStream .shutdown)
  | .backingOff cause _ => some (fired.finish cause.intoShutdownResult)
  | _ => none

/-- The session yields an event. -/
def receive : Option (Except WorkerError WorkerSessionEvent) → WorkerRun
  | none => s.leaveStream .streamClosed
  | some (.error error) => (s.recordFirstError (some error)).leaveOnError
  | some (.ok (.cancel workflowId activityId)) => s.deliverCancellation ⟨workflowId, activityId⟩
  | some (.ok (.resultAck workflowId activityId)) => s.acknowledgeResult workflowId activityId
  | some (.ok .drain) =>
    { s with health := { s.health with drainReceived := true } }.leaveStream .drained
  | some (.ok (.task frame)) => s.goTo (.acquiring frame)

/-- The handlers of the session that hold a permit. -/
def permits : ℕ := s.handlers.countP fun handler => handler.session = s.session

/-- No handler of the session has an outcome to send. -/
def isQuiet : Bool := s.handlers.all fun handler => handler.sent || handler.session ≠ s.session

/-- A handler changes. -/
def updateHandler (number : ℕ) (f : Handler → Handler) : WorkerRun :=
  { s with handlers := s.handlers.map fun handler => if handler.number = number then f handler else handler }

/-- A handler is gone. -/
def removeHandler (number : ℕ) : WorkerRun :=
  { s with handlers := s.handlers.filter fun handler => handler.number ≠ number }

/-- A handler sends its outcome, which is dropped when the channel is closed. -/
def sendOutcome (handler : Handler) (outcome : Except WorkerError DispatchOutcome) : WorkerRun :=
  let s' := s.updateHandler handler.number fun handler => { handler with sent := true }
  if s.isServing ∧ handler.session = s.session then
    { s' with results := s.results ++ [⟨handler.number, handler.task.key, handler.task.runId, outcome⟩] }
  else s'

/-- The handler with this number. -/
def handler (number : ℕ) : Option Handler := s.handlers.find? fun handler => handler.number = number

/-- The outcome may be taken: the handler that is joined for its key is gone. -/
def isJoined (key : ActivityExecutionKey) : Bool :=
  (s.inFlightNumber key).all fun number => (s.handler number).isNone

/-- One step. -/
def step : RunAction → Option WorkerRun
  | .tick elapsed => some { s with now := s.now + elapsed }
  | .shutdown => s.seeShutdown
  | .connect failure =>
    match s.phase, failure with
    | .establishing _, none => some s.establish
    | .establishing attempt, some error => some (s.refuse worker attempt error)
    | _, _ => none
  | .wake =>
    match s.phase with
    | .pausing attempt deadline =>
      if deadline ≤ s.now then some (s.goTo (.establishing (attempt + 1))) else none
    | .backingOff cause deadline =>
      if deadline ≤ s.now then some ({ s with recoveryError := cause.intoRecoveryError }.goTo (.establishing 1)) else none
    | _ => none
  | .replay failure =>
    match s.phase, failure with
    | .replaying (report :: rest), none => some ((s.note (.sent report)).goTo (.replaying rest))
    | .replaying (_ :: _), some error => some (s.goTo (.served (.error error)))
    | _, _ => none
  | .serve =>
    match s.phase with
    | .replaying [] =>
      if worker.config.maxConcurrency = 0 then
        some (s.goTo (.served (.error invalidMaxConcurrency)))
      else some (s.goTo .serving)
    | _ => none
  | .receive event =>
    match s.phase with
    | .serving => some (s.receive event)
    | _ => none
  | .acquire =>
    match s.phase with
    | .acquiring frame =>
      if s.permits < worker.config.maxConcurrency then some (s.handleTask frame) else none
    | _ => none
  | .consume failure =>
    match s.phase, s.results with
    | .serving, finished :: rest =>
      if s.isJoined finished.key then some ({ s with results := rest }.reportFinished finished failure).leaveOnError else none
    | .draining _, finished :: rest =>
      -- With nothing in flight the channel is not looked at any more.
      if s.inFlight ≠ [] ∧ s.isJoined finished.key then
        some ({ s with results := rest }.reportFinished finished failure)
      else none
    | _, _ => none
  | .heartbeat failure =>
    match s.phase with
    | .serving => some (s.recordFirstError failure).leaveOnError
    | .draining _ => some (s.recordFirstError failure)
    | _ => none
  | .drained =>
    match s.phase with
    | .draining ended =>
      if s.inFlight = [] ∨ s.results = [] ∧ s.isQuiet then
        some (s.goTo (.served (s.pendingError.elim (.ok ended) .error)))
      else none
    | _ => none
  | .settle =>
    match s.phase with
    | .served result => some (s.settle worker result)
    | _ => none
  | .finish number outcome =>
    (s.handler number).bind fun handler => if handler.sent then none else
      some (s.sendOutcome handler outcome)
  | .release number => (s.handler number).bind fun handler => if handler.sent then some (s.removeHandler number) else none
  | .panic number =>
    (s.handler number).bind fun handler => if handler.sent then none else
      some ((s.removeHandler number).note (.panicked number))

/-- The states that a run reaches. -/
abbrev Reached : WorkerRun → Prop := Reachable (fun s => s.step worker) Always start

/-! ### What a step does -/

variable {s worker} {s' : WorkerRun}

/-- How the run returns on a shutdown. -/
inductive StopsWith (s : WorkerRun) : Except WorkerError Unit → Prop where
  | establishing {attempt : ℕ} (hph : s.phase = .establishing attempt) :
    StopsWith s (s.recoveryError.elim (.ok ()) .error)
  | pausing {attempt deadline : ℕ} (hph : s.phase = .pausing attempt deadline) :
    StopsWith s (s.recoveryError.elim (.ok ()) .error)
  | replaying {rest : List PendingActivityReport}
    (hph : s.phase = .replaying rest) : StopsWith s (.ok ())
  | backingOff {cause : DropCause} {deadline : ℕ} (hph : s.phase = .backingOff cause deadline) :
    StopsWith s cause.intoShutdownResult

/-- The stream of the session is read. -/
def InStream (s : WorkerRun) : Prop := s.phase = .serving ∨ ∃ frame, s.phase = .acquiring frame

/-- Where the loop is after it took an outcome: it leaves the stream with the first error. -/
inductive Continues (s : WorkerRun) (error : Option WorkerError) : RunPhase → Prop where
  | serving (hph : s.phase = .serving) (herr : error = none) : Continues s error .serving
  | leaving (hph : s.phase = .serving) : Continues s error (.draining .streamClosed)
  | draining {ended : ServeEnd} (hph : s.phase = .draining ended) (hleft : s.inFlight ≠ []) :
    Continues s error (.draining ended)

/-- What a step can be, with the state after it. -/
inductive Moves (worker : Worker) (s : WorkerRun) : WorkerRun → Prop where
  | ticks (elapsed : ℕ) : Moves worker s { s with now := s.now + elapsed }
  | stops {result : Except WorkerError Unit} (hstops : StopsWith s result) :
    Moves worker s { s with phase := .finished result, fired := true, notes := s.notes ++ [.shutdown] }
  | interrupts (numbers : List ℕ) (health : SessionHealth) (hstr : s.InStream) :
    Moves worker s { s.cancel numbers with
      phase := .draining .shutdown, fired := true, health := health, notes := s.notes ++ [.shutdown] }
  | establishes {attempt : ℕ} (hph : s.phase = .establishing attempt) : Moves worker s s.establish
  | refuses {attempt : ℕ} (error : WorkerError) (hph : s.phase = .establishing attempt) :
    Moves worker s (s.refuse worker attempt error)
  | retries {attempt deadline : ℕ} (hph : s.phase = .pausing attempt deadline) :
    Moves worker s { s with phase := .establishing (attempt + 1) }
  | recovers {cause : DropCause} {deadline : ℕ} (hph : s.phase = .backingOff cause deadline) :
    Moves worker s { s with phase := .establishing 1, recoveryError := cause.intoRecoveryError }
  | resends {report : PendingActivityReport} {rest : List PendingActivityReport}
    (hph : s.phase = .replaying (report :: rest)) :
    Moves worker s { s with phase := .replaying rest, notes := s.notes ++ [.sent report] }
  | breaks {rest : List PendingActivityReport} (error : WorkerError)
    (hph : s.phase = .replaying rest) :
    Moves worker s { s with phase := .served (.error error) }
  | serves (hph : s.phase = .replaying []) : Moves worker s { s with phase := .serving }
  | leaves {ended : ServeEnd} (error : Option WorkerError) (health : SessionHealth)
    (hstr : s.InStream)
    (hended : ended ≠ .shutdown) :
    Moves worker s { s with phase := .draining ended, pendingError := error, health := health }
  | waits (frame : Except WorkerError ActivityTask) (hph : s.phase = .serving) :
    Moves worker s { s with phase := .acquiring frame }
  | cancels (numbers : List ℕ) (hph : s.phase = .serving) : Moves worker s (s.cancel numbers)
  | acknowledges (workflowId : WorkflowId) (activityId : ActivityId) (hph : s.phase = .serving) :
    Moves worker s (s.acknowledgeResult workflowId activityId)
  | accepts {task : ActivityTask} (hph : s.phase = .acquiring (.ok task))
    (hpermit : s.permits < worker.config.maxConcurrency) :
    Moves worker s ((s.spawnActivity task).goTo .serving)
  | records {finished : DispatchFinished} {rest : List DispatchFinished} {outcome : DispatchOutcome}
    {phase : RunPhase}
    {error : Option WorkerError} (health : SessionHealth) {sent : List RunNote} (hresults : s.results = finished :: rest)
    (hjoin : s.isJoined finished.key) (hout : finished.outcome = .ok outcome) (hcont : Continues s error phase)
    (hsent : sent = [.sent (pendingReport finished.key finished.runId outcome)] ∨ sent = [] ∧ error ≠ none) :
    Moves worker s { s with
      phase := phase
      health := health
      pendingError := error
      inFlight := s.inFlight.filter fun entry => entry.1 ≠ finished.key
      results := rest
      tracker := s.tracker.record (pendingReport finished.key finished.runId outcome)
      notes := s.notes ++ .recorded finished.number (pendingReport finished.key finished.runId outcome) :: sent }
  | fails {finished : DispatchFinished} {rest : List DispatchFinished} {failure : WorkerError}
    {phase : RunPhase}
    {error : Option WorkerError} (health : SessionHealth) (hresults : s.results = finished :: rest)
    (hjoin : s.isJoined finished.key) (hout : finished.outcome = .error failure) (hcont : Continues s error phase) :
    Moves worker s { s with
      phase := phase
      health := health
      pendingError := error
      inFlight := s.inFlight.filter fun entry => entry.1 ≠ finished.key
      results := rest
      notes := s.notes ++ [.failed finished.number failure] }
  | errs {ended : ServeEnd} (error : Option WorkerError) (hph : s.phase = .draining ended) :
    Moves worker s { s with pendingError := error }
  | drains {ended : ServeEnd} {result : Except WorkerError ServeEnd}
    (hph : s.phase = .draining ended)
    (hdone : s.inFlight = [] ∨ s.results = [] ∧ s.isQuiet) (hres : ∀ ended', result = .ok ended' → ended' = ended) :
    Moves worker s { s with phase := .served result }
  | settles {result : Except WorkerError ServeEnd} (hph : s.phase = .served result) :
    Moves worker s (s.settle worker result)
  | finishes {handler : Handler} (outcome : Except WorkerError DispatchOutcome)
    (hhdlr : handler ∈ s.handlers)
    (hsent : handler.sent = false) :
    Moves worker s (s.sendOutcome handler outcome)
  | releases {handler : Handler} (hhdlr : handler ∈ s.handlers) (hsent : handler.sent) :
    Moves worker s (s.removeHandler handler.number)
  | panics {handler : Handler} (hhdlr : handler ∈ s.handlers) (hsent : handler.sent = false) :
    Moves worker s ((s.removeHandler handler.number).note (.panicked handler.number))

theorem mem_of_handler {number : ℕ} {handler : Handler} (h : s.handler number = some handler) :
    handler ∈ s.handlers ∧ handler.number = number := by
  refine ⟨List.mem_of_find?_eq_some h, ?_⟩
  simpa using List.find?_some h

theorem moves_of_seeShutdown (h : s.seeShutdown = some s') : Moves worker s s' := by
  simp only [seeShutdown] at h
  split at h
  case h_1 _ hph => exact Option.some.inj h ▸ .stops (.establishing hph)
  case h_2 _ _ hph => exact Option.some.inj h ▸ .stops (.pausing hph)
  case h_3 _ hph => exact Option.some.inj h ▸ .stops (.replaying hph)
  case h_4 hph => exact Option.some.inj h ▸ .interrupts _ _ (.inl hph)
  case h_5 _ hph => exact Option.some.inj h ▸ .interrupts _ _ (.inr ⟨_, hph⟩)
  case h_6 _ _ hph => exact Option.some.inj h ▸ .stops (.backingOff hph)
  case h_7 => cases h

variable (worker) in
/-- An error, if there is one, makes the loop leave the stream. -/
theorem moves_leaveOnError (failure : Option WorkerError) (hstr : s.InStream) :
    (s.recordFirstError failure).leaveOnError = s ∨
      Moves worker s (s.recordFirstError failure).leaveOnError := by
  rw [leaveOnError]
  split_ifs with herr
  · exact .inr (.leaves _ _ hstr (by simp))
  · left
    simp only [recordFirstError, Option.isSome_iff_ne_none, not_not] at herr ⊢
    rw [herr, ← (Option.or_eq_none_iff.mp herr).1]

theorem moves_of_receive (event : Option (Except WorkerError WorkerSessionEvent))
    (hph : s.phase = .serving) : Moves worker s (s.receive event) := by
  have hstr : s.InStream := .inl hph
  match event with
  | none => exact .leaves _ _ hstr (by simp)
  | some (.error error) =>
    rcases moves_leaveOnError worker (some error) hstr with heq | hmoves
    · rw [receive, heq]
      exact .ticks 0
    · exact hmoves
  | some (.ok (.cancel workflowId activityId)) => exact .cancels _ hph
  | some (.ok (.resultAck workflowId activityId)) => exact .acknowledges _ _ hph
  | some (.ok .drain) => exact .leaves _ _ hstr (by simp)
  | some (.ok (.task frame)) => exact .waits frame hph

theorem moves_of_handleTask {frame : Except WorkerError ActivityTask}
    (hph : s.phase = .acquiring frame) (hpermit : s.permits < worker.config.maxConcurrency) :
    Moves worker s (s.handleTask frame) := by
  cases frame with
  | ok task => exact .accepts hph hpermit
  | error error =>
    rcases moves_leaveOnError worker (some error) (.inr ⟨_, hph⟩) with heq | hmoves
    · rw [handleTask, heq]
      exact .ticks 0
    · exact hmoves

/-- What `report_finished` leaves behind. -/
theorem reportFinished_cases (finished : DispatchFinished) (failure : Option WorkerError) :
    (∃ outcome error health sent, finished.outcome = .ok outcome ∧
      (sent = [.sent (pendingReport finished.key finished.runId outcome)] ∨ sent = [] ∧
          error ≠ none) ∧
      s.reportFinished finished failure = { s with
        health := health
        pendingError := error
        inFlight := s.inFlight.filter fun entry => entry.1 ≠ finished.key
        tracker := s.tracker.record (pendingReport finished.key finished.runId outcome)
        notes := s.notes ++ .recorded finished.number
          (pendingReport finished.key finished.runId outcome) :: sent }) ∨
    ∃ problem error, finished.outcome = .error problem ∧
      s.reportFinished finished failure = { s with
      pendingError := error
      inFlight := s.inFlight.filter fun entry => entry.1 ≠ finished.key
      notes := s.notes ++ [.failed finished.number problem] } := by
  obtain ⟨number, key, runId, outcome⟩ := finished
  cases outcome with
  | error problem => exact .inr ⟨problem, s.pendingError.or (some problem), rfl, rfl⟩
  | ok outcome =>
    left
    cases failure with
    | none =>
      refine ⟨outcome, s.pendingError, { s.health with tasksReported := s.health.tasksReported + 1 }, _, rfl, .inl rfl, ?_⟩
      simp [reportFinished, sendReport, note]
    | some error =>
      refine ⟨outcome, s.pendingError.or (some error), s.health, [], rfl, .inr ⟨rfl, ?_⟩, ?_⟩
      · cases s.pendingError <;> simp
      · simp [reportFinished, sendReport, note, recordFirstError]

theorem moves_of_consume {finished : DispatchFinished} {rest : List DispatchFinished}
    {failure : Option WorkerError} (hresults : s.results = finished :: rest)
    (hjoin : s.isJoined finished.key) :
    (s.phase = .serving → Moves worker s
        ({ s with results := rest }.reportFinished finished failure).leaveOnError) ∧
      ∀ ended, s.phase = .draining ended → s.inFlight ≠ [] →
        Moves worker s ({ s with results := rest }.reportFinished finished failure) := by
  obtain ⟨outcome, error, health, sent, hout, hsent, hafter⟩ | ⟨problem, error, hout, hafter⟩ :=
    reportFinished_cases (s := { s with results := rest }) finished failure
  · rw [hafter]
    refine ⟨fun hph => ?_, fun ended hph hleft => ?_⟩
    · rw [leaveOnError]
      split_ifs with herr
      · exact .records _ hresults hjoin hout (.leaving hph) hsent
      · have hnone : error = none := by simpa using herr
        simpa only [hph] using Moves.records health hresults hjoin hout (.serving hph hnone) hsent
    · simpa only [hph] using Moves.records health hresults hjoin hout (.draining hph hleft) hsent
  · rw [hafter]
    refine ⟨fun hph => ?_, fun ended hph hleft => ?_⟩
    · rw [leaveOnError]
      split_ifs with herr
      · exact .fails _ hresults hjoin hout (.leaving hph)
      · have hnone : error = none := by simpa using herr
        simpa only [hph] using Moves.fails s.health hresults hjoin hout (.serving hph hnone)
    · simpa only [hph] using Moves.fails s.health hresults hjoin hout (.draining hph hleft)

theorem step_moves {action : RunAction} (h : s.step worker action = some s') :
    Moves worker s s' := by
  cases action with
  | tick elapsed => exact Option.some.inj h ▸ .ticks elapsed
  | shutdown => exact moves_of_seeShutdown h
  | connect failure =>
    simp only [step] at h
    split at h
    case h_1 _ hph => exact Option.some.inj h ▸ .establishes hph
    case h_2 _ hph => exact Option.some.inj h ▸ .refuses _ hph
    case h_3 => cases h
  | wake =>
    simp only [step] at h
    split at h
    case h_1 _ _ hph =>
      split_ifs at h
      exact Option.some.inj h ▸ .retries hph
    case h_2 _ _ hph =>
      split_ifs at h
      exact Option.some.inj h ▸ .recovers hph
    case h_3 => cases h
  | replay failure =>
    simp only [step] at h
    split at h
    case h_1 _ hph => exact Option.some.inj h ▸ .resends hph
    case h_2 _ hph => exact Option.some.inj h ▸ .breaks _ hph
    case h_3 => cases h
  | serve =>
    simp only [step] at h
    split at h
    case h_1 hph =>
      split_ifs at h
      · exact Option.some.inj h ▸ .breaks _ hph
      · exact Option.some.inj h ▸ .serves hph
    case h_2 => cases h
  | receive event =>
    simp only [step] at h
    split at h
    case h_1 hph => exact Option.some.inj h ▸ moves_of_receive event hph
    case h_2 => cases h
  | acquire =>
    simp only [step] at h
    split at h
    case h_1 _ hph =>
      split_ifs at h with hpermit
      exact Option.some.inj h ▸ moves_of_handleTask hph hpermit
    case h_2 => cases h
  | consume failure =>
    simp only [step] at h
    split at h
    case h_1 hph hresults =>
      split_ifs at h with hjoin
      exact Option.some.inj h ▸ (moves_of_consume hresults hjoin).1 hph
    case h_2 _ _ hph hresults =>
      split_ifs at h with hjoin
      exact Option.some.inj h ▸ (moves_of_consume hresults hjoin.2).2 _ hph hjoin.1
    case h_3 => cases h
  | heartbeat failure =>
    simp only [step] at h
    split at h
    case h_1 hph =>
      rcases moves_leaveOnError worker failure (.inl hph) with heq | hmoves
      · exact (heq.symm.trans (Option.some.inj h)) ▸ .ticks 0
      · exact Option.some.inj h ▸ hmoves
    case h_2 _ hph => exact Option.some.inj h ▸ .errs _ hph
    case h_3 => cases h
  | drained =>
    simp only [step] at h
    split at h
    case h_1 _ hph =>
      split_ifs at h with hdone
      refine Option.some.inj h ▸ .drains hph hdone fun ended' hres => ?_
      cases herr : s.pendingError <;> simp_all
    case h_2 => cases h
  | settle =>
    simp only [step] at h
    split at h
    case h_1 _ hph => exact Option.some.inj h ▸ .settles hph
    case h_2 => cases h
  | finish number outcome =>
    obtain ⟨handler, hhdlr, h⟩ := Option.bind_eq_some_iff.mp h
    split_ifs at h with hsent
    exact Option.some.inj h ▸ .finishes outcome (mem_of_handler hhdlr).1 (by simpa using hsent)
  | release number =>
    obtain ⟨handler, hhdlr, h⟩ := Option.bind_eq_some_iff.mp h
    obtain ⟨hmem, rfl⟩ := mem_of_handler hhdlr
    split_ifs at h with hsent
    exact Option.some.inj h ▸ .releases hmem hsent
  | panic number =>
    obtain ⟨handler, hhdlr, h⟩ := Option.bind_eq_some_iff.mp h
    obtain ⟨hmem, rfl⟩ := mem_of_handler hhdlr
    split_ifs at h with hsent
    exact Option.some.inj h ▸ .panics hmem (by simpa using hsent)

end WorkerRun

end Aion
