import Aion.Lifecycle.Continuation
import Aion.Lifecycle.Deadline
import Aion.Lifecycle.Visibility
import Aion.Store.RunChain
import Aion.Durability.SingleWriter

/-!
# One successor for a run that continued

Three callers start the run after a continue-as-new: the API call itself, the monitor of the
process that exited, and the sweep at startup. The last two look first whether a start is
recorded already. Each then starts the run through `start_workflow_with_options`, which reads
the history once more for the head to append at. Nothing serialises the callers but the
store's check of that head.

A caller is a client of the store whose reads and appends are single steps
(`Interleaving.Step`). It goes through its tasks one after the other: `starting` is the call of
`start_workflow_with_options` that the other tasks lead to.

`one_successor`: as long as no start of a successor is recorded when a caller reads its head,
every run has one successor at most. `second_successor`: without that, two callers record two.
-/

namespace Aion

open Interleaving

/-! ### Programs of the engine -/

/-- What ends a call of the engine early. -/
inductive StartFailure where
  | engine (error : EngineError)
  | store (error : StoreError)
  | durability (error : DurabilityError)

/-- A call of the engine, as a program that calls the store. -/
def EngineM (α : Type) : Type := Prog StoreCall StoreCall.Answer (Except StartFailure α)

namespace EngineM

instance : Monad EngineM where
  pure value := .done (.ok value)
  bind first f := Prog.bind first fun outcome =>
    match outcome with
    | .ok value => f value
    | .error failure => .done (.error failure)

/-- Ends a call with a failure. -/
def throw {α : Type} (failure : StartFailure) : EngineM α := .done (.error failure)

/-- The `?` of a result. -/
def lift {α : Type} (result : Except EngineError α) : EngineM α := .done (result.mapError .engine)

/-- `read_history`. -/
def readHistory (workflowId : WorkflowId) : EngineM (List Event) :=
  .call (.readHistory workflowId) fun answer => .done (answer.mapError .store)

/-- A recorder operation; the recorder afterwards comes with the result. -/
def recording {α : Type} (recorder : Recorder) (operation : RecorderM α) : EngineM (α × Recorder) :=
  (operation recorder).bind fun outcome =>
    match outcome with
    | (.ok value, recorder') => .done (.ok (value, recorder'))
    | (.error error, _) => .done (.error (.durability error))

end EngineM

/-- `upsert_workflow_visibility`. -/
def upsertWorkflowVisibility (workflowId : WorkflowId) (runId : RunId) : EngineM Unit := do
  let history ← EngineM.readHistory workflowId
  let record ← EngineM.lift (visibilityRecordFromHistory history runId)
  .call (.recordVisibility record) fun answer => .done (answer.mapError .store)

/-! ### Starting a run -/

/-- A loaded version of a workflow type. -/
structure LoadedWorkflow where
  version : PackageVersion
  /-- The declared timeout, in nanoseconds. -/
  declaredTimeout : Option ℕ

/-- What a start takes from around it: fresh identifiers, the clock, the catalog of loaded
workflows, the schema of attributes and the arithmetic of instants. -/
structure StartEnvironment where
  workflowId : WorkflowId
  runId : RunId
  startedAt : Instant
  resolve : String → Option PackageVersion → Option LoadedWorkflow
  schema : SearchAttributeSchema
  deadlineFireAt : Instant → ℕ → Except EngineError Instant

/-- `record_declared_deadline`. -/
def recordDeclaredDeadline (env : StartEnvironment) (recorder : Recorder)
    (declaredTimeout : Option ℕ) : EngineM Unit :=
  match declaredTimeout with
  | none => return ()
  | some timeout => do
    let fireAt ← EngineM.lift (env.deadlineFireAt env.startedAt timeout)
    let _ ← EngineM.recording recorder
      (recordTimerStarted env.startedAt (deadlineTimerId env.runId) fireAt)
    return ()

/-- `start_workflow_with_options` from the head it appends at: what it records of the start. -/
def recordStart (env : StartEnvironment) (request : StartRequest) (loaded : LoadedWorkflow)
    (workflowId : WorkflowId) (head : ℕ) : EngineM Unit := do
  let start : WorkflowStartRecord :=
    ⟨request.workflowType, request.input, env.runId, request.options.parentRunId, loaded.version⟩
  let (_, recorder) ← EngineM.recording { Recorder.resumeAt workflowId head with visibility := some env.runId }
    (recordWorkflowStartedWithAttributes env.startedAt start request.options.searchAttributes env.schema)
  recordDeclaredDeadline env recorder loaded.declaredTimeout
  upsertWorkflowVisibility workflowId env.runId

/-- `start_workflow_with_options`, as far as it goes to the event store. -/
def startWorkflowWithOptions (env : StartEnvironment) (request : StartRequest) : EngineM Unit :=
  match env.resolve request.workflowType request.options.loadedVersion with
  | none => EngineM.throw (.engine (.workflowNotFound request.workflowType))
  | some loaded =>
    match request.options.workflowId with
    | some workflowId => do
      let history ← EngineM.readHistory workflowId
      recordStart env request loaded workflowId (InMemoryStore.historyHead history)
    | none => recordStart env request loaded env.workflowId 0

/-! ### The callers -/

/-- How a process ended, as its monitor saw it. -/
inductive ProcessOutcome where
  | completed (result : Payload)
  | failed (error : WorkflowError)
  | unobserved (error : String)

/-- What a caller does next. A writer stands for whoever else appends to a history; it starts
no run that continues another. -/
inductive Caller where
  /-- `continue_as_new`. -/
  | continueAsNew (handle : WorkflowHandle) (recorder : Recorder) (input : Payload)
    (workflowType : Option String)
  /-- `handle_process_exit`. -/
  | processExit (handle : WorkflowHandle) (recorder : Recorder) (outcome : ProcessOutcome)
  /-- `sweep_continued_as_new_replacements`, for one workflow. -/
  | sweep (workflowId : WorkflowId)
  /-- `start_workflow_with_options`. -/
  | starting (request : StartRequest)
  | writing (workflowId : WorkflowId) (events : List Event) (expectedSeq : ℕ)
    (quiet : ∀ event ∈ events, ∀ run, startsSuccessor run event = false)
  | over

/-- The activities and children that are pending, one list after the other. -/
def pendingWork (history : List Event) : List ActivityId × List WorkflowId :=
  history.foldl (fun pending event =>
    match event.body with
    | .activityScheduled activityId .. => (pending.1.insert activityId, pending.2)
    | .activityStarted activityId _ => (pending.1.insert activityId, pending.2)
    | .activityCompleted activityId .. => (pending.1.erase activityId, pending.2)
    | .activityFailed activityId .. => (pending.1.erase activityId, pending.2)
    | .activityCancelled activityId _ => (pending.1.erase activityId, pending.2)
    | .childWorkflowStarted childWorkflowId .. => (pending.1, pending.2.insert childWorkflowId)
    | .childWorkflowCompleted childWorkflowId _ => (pending.1, pending.2.erase childWorkflowId)
    | .childWorkflowFailed childWorkflowId _ => (pending.1, pending.2.erase childWorkflowId)
    | .childWorkflowCancelled childWorkflowId => (pending.1, pending.2.erase childWorkflowId)
    | _ => pending) ([], [])

/-- `guard_no_pending_work`; the source prints the pending identifiers as well. -/
def guardNoPendingWork (history : List Event) : Except EngineError Unit :=
  let (activities, children) := pendingWork history
  if activities = [] ∧ children = [] then .ok ()
  else .error (.runtime ("cannot continue as new while pending work exists: " ++
      toString activities.length ++
    " activities, " ++ toString children.length ++ " child workflows"))

/-- What is left of a caller's program. -/
abbrev CallerProgram := Prog StoreCall StoreCall.Answer (Except StartFailure Unit × Caller)

/-- A call that failed is over. -/
def settle : Except StartFailure Caller → CallerProgram
  | .ok next => .done (.ok (), next)
  | .error failure => .done (.error failure, .over)

section Programs

variable (parseUuid : String → Option Uuid) (env : StartEnvironment)

/-- `continue_as_new` up to the start of the successor. -/
def continueAsNewCall (handle : WorkflowHandle) (recorder : Recorder) (input : Payload)
    (override : Option String) : EngineM Caller :=
  let workflowType := override.getD handle.workflowType
  if workflowType ≠ handle.workflowType then
    EngineM.throw (.engine (.runtime ("continue_as_new must restart the same workflow type: current=" ++
      handle.workflowType ++ ", requested=" ++ workflowType)))
  else if (env.resolve workflowType none).isNone then
    EngineM.throw (.engine (.workflowNotFound workflowType))
  else do
    let history ← EngineM.readHistory handle.workflowId
    if (terminalOutcomeFromHistory history handle.runId).isSome then
      EngineM.throw (.engine (.runtime ("continue_as_new rejected: workflow " ++ handle.workflowId.display ++ " run " ++
        handle.runId.display ++ " already recorded a terminal event")))
    else
      EngineM.lift (guardNoPendingWork history)
      let (_, recorder) ← EngineM.recording recorder
        (recordWorkflowContinuedAsNew env.startedAt input override handle.runId)
      let _ ← EngineM.recording recorder (retireRunDeadline parseUuid env.startedAt history handle.runId)
      return .starting (replacementRequest handle input override handle.runId)

/-- The terminal that the monitor records for a process. -/
def recordProcessOutcome (outcome : ProcessOutcome) : RecorderM Unit :=
  match outcome with
  | .completed result => recordWorkflowCompleted env.startedAt result
  | .failed error => recordWorkflowFailed env.startedAt error
  | .unobserved error =>
    recordWorkflowFailed env.startedAt ⟨"workflow process monitor failed: " ++ error, none⟩

/-- `handle_process_exit_async`; `start_continuation_replacement` reads the history anew. -/
def processExitCall (handle : WorkflowHandle) (recorder : Recorder) (outcome : ProcessOutcome) :
    EngineM Caller := do
  let history ← EngineM.readHistory handle.workflowId
  match terminalOutcomeFromHistory history handle.runId with
  | some (.timedOut _) =>
    let _ ← EngineM.readHistory handle.workflowId
    return .over
  | some (.continuedAsNew input workflowType parentRunId) =>
    let _ ← EngineM.recording recorder
      (retireRunDeadline parseUuid env.startedAt history handle.runId)
    let _ ← EngineM.readHistory handle.workflowId
    let current ← EngineM.readHistory handle.workflowId
    match startContinuationReplacement current handle input workflowType parentRunId with
    | some request => return .starting request
    | none => return .over
  | some _ =>
    let _ ← EngineM.recording recorder
      (retireRunDeadline parseUuid env.startedAt history handle.runId)
    let _ ← EngineM.readHistory handle.workflowId
    return .over
  | none =>
    let (_, recorder) ← EngineM.recording recorder (recordProcessOutcome env outcome)
    let _ ← EngineM.recording recorder
      (retireRunDeadline parseUuid env.startedAt history handle.runId)
    upsertWorkflowVisibility handle.workflowId handle.runId
    let _ ← EngineM.readHistory handle.workflowId
    return .over

/-- The sweep of one workflow: the query reads its status, then its history is read. -/
def sweepCall (workflowId : WorkflowId) : EngineM Caller := do
  let queried ← EngineM.readHistory workflowId
  if statusFromEvents queried ≠ .continuedAsNew then return .over
  else
    let history ← EngineM.readHistory workflowId
    match ← EngineM.lift (sweepHistory workflowId history) with
    | some request => return .starting request
    | none => return .over

/-- What a caller does in the state it is in. -/
def Caller.call : Caller → EngineM Caller
  | .continueAsNew handle recorder input workflowType =>
    continueAsNewCall parseUuid env handle recorder input workflowType
  | .processExit handle recorder outcome => processExitCall parseUuid env handle recorder outcome
  | .sweep workflowId => sweepCall workflowId
  | .starting request => do
    startWorkflowWithOptions env request
    return .over
  | .writing workflowId events expectedSeq _ =>
    .call (.append workflowId events expectedSeq) fun answer =>
      .done ((answer.mapError .store).map fun _ => .over)
  | .over => return .over

/-- The program of a caller: its result, and the state it is in then. -/
def Caller.program (caller : Caller) : CallerProgram := Prog.bind (caller.call parseUuid env) settle

end Programs

/-! ### What the callers append -/

/-- The call appends only events of a kind. -/
def Appends (kind : Event → Prop) : StoreCall → Prop
  | .append _ events _ => ∀ event ∈ events, kind event
  | .appendWithOutbox _ events _ _ => ∀ event ∈ events, kind event
  | _ => True

variable {workflowId : WorkflowId} {recorder : Recorder} {call : StoreCall}
  {summaries : List RunSummary} {caller : Caller} {history : List Event} {runId : RunId}

theorem Appends.mono {kind kind' : Event → Prop} (himp : ∀ event, kind event → kind' event)
    (h : Appends kind call) : Appends kind' call := by
  cases call with
  | append => exact fun event hmem => himp event (h event hmem)
  | appendWithOutbox => exact fun event hmem => himp event (h event hmem)
  | _ => trivial

/-- The event neither starts a run nor continues one. -/
def Plain (event : Event) : Prop := isWorkflowStarted event = false ∧ continuation? event = none

/-- The event is no start that continues a run. -/
def StartsNoSuccessor (event : Event) : Prop := ∀ run, startsSuccessor run event = false

theorem startsNoSuccessor_of_not_started {event : Event} (h : isWorkflowStarted event = false) :
    StartsNoSuccessor event := by
  obtain ⟨envelope, body⟩ := event
  intro run
  cases body <;> first | rfl | cases h

/-- The call appends no start that continues a run. -/
abbrev Quiet : StoreCall → Prop := Appends StartsNoSuccessor

/-- The call appends one start that continues `parent` at most, and that one at `head`. -/
def MayStart (workflowId : WorkflowId) (head : ℕ) (parent : Option RunId) : StoreCall → Prop
  | .append id events expectedSeq => ∀ run, (∃ event ∈ events, startsSuccessor run event = true) →
      id = workflowId ∧ expectedSeq = head ∧ parent = some run ∧ events.countP (startsSuccessor run) ≤ 1
  | call => Quiet call

theorem MayStart.of_quiet {head : ℕ} {parent : Option RunId}
    (h : Quiet call) : MayStart workflowId head parent call := by
  cases call with
  | append id events expectedSeq =>
    rintro run ⟨event, hmem, hev⟩
    rw [h event hmem run] at hev
    exact absurd hev Bool.false_ne_true
  | _ => exact h

/-- The calls of a recorder operation, whatever the recorder. -/
def RecorderM.Calls {α : Type} (may : StoreCall → Prop) (operation : RecorderM α) : Prop :=
  ∀ recorder, Prog.Calls may (operation recorder)

section Calls

variable {α β : Type} {may : StoreCall → Prop}

variable {result : Except DurabilityError α} {operation : RecorderM α} {f : α → RecorderM β}

theorem RecorderM.Calls.bind (h : RecorderM.Calls may operation)
    (hf : ∀ value, RecorderM.Calls may (f value)) : RecorderM.Calls may (operation >>= f) := by
  intro recorder
  refine Prog.Calls.bind (h recorder) fun outcome => ?_
  obtain ⟨value | value, recorder'⟩ := outcome
  · trivial
  · exact hf value recorder'

theorem RecorderM.calls_lift : RecorderM.Calls may (RecorderM.lift result) :=
  fun _ => trivial

theorem RecorderM.calls_get : RecorderM.Calls may RecorderM.get := fun _ => trivial

theorem RecorderM.calls_modify {f : Recorder → Recorder} :
    RecorderM.Calls may (RecorderM.modify f) := fun _ => trivial

theorem RecorderM.calls_call {request : StoreCall} (h : may request) :
    RecorderM.Calls may (RecorderM.call request) :=
  fun _ => ⟨h, fun _ => trivial⟩

theorem RecorderM.Calls.nonfatal {operation : RecorderM Unit} (h : RecorderM.Calls may operation) :
    RecorderM.Calls may (RecorderM.nonfatal operation) :=
  fun recorder => Prog.Calls.bind (h recorder) fun _ => trivial

/-- A result that is an error ends the operation; else the recorder is the same. -/
theorem calls_lift_bind (h : ∀ value, Prog.Calls may (f value recorder)) :
    Prog.Calls may ((RecorderM.lift result >>= f : RecorderM β) recorder) := by
  cases result with
  | ok value => exact h value
  | error error => trivial

theorem calls_get_bind {f : Recorder → RecorderM β} (h : Prog.Calls may (f recorder recorder)) :
    Prog.Calls may ((RecorderM.get >>= f : RecorderM β) recorder) := h

/-- After an append has been answered the operation makes no call. -/
theorem calls_answered {answer : Except StoreError Unit} {count : ℕ} :
    RecorderM.Calls may (do RecorderM.liftStore answer; markAppendSuccess count) :=
  RecorderM.calls_lift.bind fun _ => RecorderM.calls_get.bind fun _ =>
    RecorderM.calls_lift.bind fun _ =>
    RecorderM.calls_modify

theorem calls_appendWith {now : Instant} {body : EventBody}
    (h : ∀ envelope, may (.append recorder.workflowId [⟨envelope, body⟩]
        recorder.sequence.current)) : Prog.Calls may (appendWith now body recorder) := by
  exact calls_get_bind (calls_lift_bind fun envelope =>
      ⟨h envelope, fun answer => calls_answered recorder⟩)

theorem EngineM.calls_bind {first : EngineM α} {f : α → EngineM β} (h : Prog.Calls may first)
    (hf : ∀ value, Prog.Calls may (f value)) : Prog.Calls may (first >>= f : EngineM β) := by
  refine Prog.Calls.bind h fun outcome => ?_
  cases outcome with
  | ok value => exact hf value
  | error failure => trivial

theorem EngineM.calls_recording (h : Prog.Calls may (operation recorder)) :
    Prog.Calls may (EngineM.recording recorder operation) := by
  refine Prog.Calls.bind h fun outcome => ?_
  obtain ⟨value | value, recorder'⟩ := outcome
  · trivial
  · trivial

theorem EngineM.calls_readHistory (h : may (.readHistory workflowId)) :
    Prog.Calls may (EngineM.readHistory workflowId) := ⟨h, fun _ => trivial⟩

end Calls

section Kinds

variable {kind : Event → Prop} {now : Instant} {body : EventBody}

theorem appends_appendWith (h : ∀ envelope, kind ⟨envelope, body⟩) :
    RecorderM.Calls (Appends kind) (appendWith now body) :=
  fun _ => calls_appendWith fun envelope event hmem => by
    rw [List.mem_singleton.mp hmem]
    exact h envelope

theorem appends_appendThenSettle (h : ∀ envelope, kind ⟨envelope, body⟩) :
    RecorderM.Calls (Appends kind) (appendThenSettle now body) :=
  (appends_appendWith h).bind fun _ => RecorderM.calls_get.bind fun _ =>
    (RecorderM.calls_call trivial).bind fun _ _ => trivial

theorem appends_upsertVisibilityProjection :
    RecorderM.Calls (Appends kind) upsertVisibilityProjection := by
  refine RecorderM.calls_get.bind fun recorder => ?_
  split
  · exact fun _ => trivial
  · exact (RecorderM.calls_call trivial).bind fun _ => RecorderM.calls_lift.bind fun _ =>
      RecorderM.calls_lift.bind fun _ =>
      (RecorderM.calls_call trivial).bind fun _ => RecorderM.calls_lift

theorem appends_upsertWorkflowVisibility :
    Prog.Calls (Appends kind) (upsertWorkflowVisibility workflowId runId) :=
  EngineM.calls_bind (EngineM.calls_readHistory trivial) fun _ =>
    EngineM.calls_bind trivial fun _ => ⟨trivial, fun _ => trivial⟩

variable (plain : ∀ event, Plain event → kind event)
include plain

theorem appends_retireRunDeadline {parseUuid : String → Option Uuid} {run : RunId} :
    RecorderM.Calls (Appends kind) (retireRunDeadline parseUuid now history run) := by
  unfold retireRunDeadline
  split
  · exact appends_appendWith fun _ => plain _ ⟨rfl, rfl⟩
  · exact fun _ => trivial

theorem appends_recordDeclaredDeadline {env : StartEnvironment} {timeout : Option ℕ} :
    Prog.Calls (Appends kind) (recordDeclaredDeadline env recorder timeout) := by
  unfold recordDeclaredDeadline
  split
  · trivial
  · refine EngineM.calls_bind trivial fun _ =>
      EngineM.calls_bind (EngineM.calls_recording ?_) fun _ => trivial
    exact appends_appendWith (fun _ => plain _ ⟨rfl, rfl⟩) recorder

end Kinds

/-- A start among other events that start no run is one successor. -/
theorem mayStart_append {workflowId : WorkflowId} {head : ℕ} {start : WorkflowStartRecord}
    {envelope : EventEnvelope} {others : List Event}
    (hoths : ∀ event ∈ others, StartsNoSuccessor event) :
    MayStart workflowId head start.parentRunId
      (.append workflowId (⟨envelope, start.body⟩ :: others) head) := by
  rintro run ⟨event, hmem, hev⟩
  have hnone : others.countP (startsSuccessor run) = 0 :=
    List.countP_eq_zero.mpr fun other hother => by simp [hoths other hother run]
  refine ⟨rfl, rfl, ?_, ?_⟩
  · rcases List.mem_cons.mp hmem with rfl | hmem
    · obtain ⟨workflowType, input, runId, parentRunId, packageVersion⟩ := start
      cases parentRunId with
      | none => cases hev
      | some parentRunId => exact congrArg some (beq_iff_eq.mp hev)
    · rw [hoths event hmem run] at hev
      cases hev
  · rw [List.countP_cons, hnone]
    split <;> omega

theorem calls_recordWorkflowStarted {may : StoreCall → Prop} {now : Instant}
    (start : WorkflowStartRecord) {attributes : SearchAttributes} {schema : SearchAttributeSchema}
    (recorder : Recorder)
    (h : ∀ envelope others, (∀ event ∈ others, Plain event) →
        may (.append recorder.workflowId
      (⟨envelope, start.body⟩ :: others) recorder.sequence.current)) :
    Prog.Calls may (recordWorkflowStartedWithAttributes now start attributes schema recorder) := by
  unfold recordWorkflowStartedWithAttributes
  split_ifs with hemp
  · refine Prog.Calls.bind (calls_appendWith fun envelope => h envelope [] (by simp)) fun outcome => ?_
    obtain ⟨value | value, recorder'⟩ := outcome
    · trivial
    · trivial
  · refine calls_lift_bind fun _ => calls_get_bind (calls_lift_bind fun startedEnvelope =>
      calls_lift_bind fun attributesEnvelope => ⟨h _ _ ?_, fun answer => ?_⟩)
    · rintro event hmem
      rw [List.mem_singleton.mp hmem]
      exact ⟨rfl, rfl⟩
    · exact (RecorderM.calls_lift.bind fun _ => (RecorderM.calls_get.bind fun _ => RecorderM.calls_lift.bind fun _ =>
        RecorderM.calls_modify).bind fun _ => RecorderM.calls_modify) recorder

/-- From the head it was given, a start appends its own start there and plain events. -/
theorem calls_recordStart {may : StoreCall → Prop} {env : StartEnvironment} {request : StartRequest}
    {loaded : LoadedWorkflow} {head : ℕ} (hplain : ∀ call, Appends Plain call → may call)
    (hstart : ∀ envelope others, (∀ event ∈ others, Plain event) →
        may (.append workflowId (⟨envelope,
      .workflowStarted request.workflowType request.input env.runId request.options.parentRunId
      loaded.version⟩ :: others) head)) :
    Prog.Calls may (recordStart env request loaded workflowId head) := by
  refine EngineM.calls_bind (EngineM.calls_recording ?_) fun _ =>
    EngineM.calls_bind ((appends_recordDeclaredDeadline fun _ => id).mono hplain) fun _ =>
      appends_upsertWorkflowVisibility.mono hplain
  exact calls_recordWorkflowStarted
    ⟨request.workflowType, request.input, env.runId, request.options.parentRunId, loaded.version⟩
    ⟨workflowId, ⟨head⟩, some env.runId, none⟩ hstart

section Tasks

variable {parseUuid : String → Option Uuid} {env : StartEnvironment} {kind : Event → Prop}
  (plain : ∀ event, Plain event → kind event)
include plain

variable {outcome : ProcessOutcome} {handle : WorkflowHandle}

theorem appends_continueAsNewCall {input : Payload} {override : Option String}
    (hcontd : override.getD handle.workflowType = handle.workflowType →
      ∀ envelope, kind ⟨envelope, .workflowContinuedAsNew input override handle.runId⟩) :
    Prog.Calls (Appends kind) (continueAsNewCall parseUuid env handle recorder input override) := by
  unfold continueAsNewCall
  simp only
  split_ifs with htype
  · trivial
  · trivial
  · refine EngineM.calls_bind (EngineM.calls_readHistory trivial) fun history => ?_
    split_ifs
    · trivial
    · refine EngineM.calls_bind trivial fun _ => EngineM.calls_bind (EngineM.calls_recording ?_) fun recorded => ?_
      · exact ((appends_appendWith (hcontd (not_not.mp htype))).bind fun _ =>
          appends_upsertVisibilityProjection.nonfatal) recorder
      · exact EngineM.calls_bind (EngineM.calls_recording (appends_retireRunDeadline plain _)) fun _ => trivial

theorem appends_recordProcessOutcome :
    RecorderM.Calls (Appends kind) (recordProcessOutcome env outcome) := by
  cases outcome with
  | completed result => exact appends_appendThenSettle fun _ => plain _ ⟨rfl, rfl⟩
  | failed error => exact appends_appendThenSettle fun _ => plain _ ⟨rfl, rfl⟩
  | unobserved error => exact appends_appendThenSettle fun _ => plain _ ⟨rfl, rfl⟩

theorem appends_processExitCall :
    Prog.Calls (Appends kind) (processExitCall parseUuid env handle recorder outcome) := by
  have hread : Prog.Calls (Appends kind) (EngineM.readHistory handle.workflowId) :=
    EngineM.calls_readHistory trivial
  refine EngineM.calls_bind hread fun history => ?_
  have hretire : Prog.Calls (Appends kind)
      (EngineM.recording recorder (retireRunDeadline parseUuid env.startedAt history handle.runId)) :=
    EngineM.calls_recording (appends_retireRunDeadline plain recorder)
  split
  · exact EngineM.calls_bind hread fun _ => trivial
  · refine EngineM.calls_bind hretire fun _ => EngineM.calls_bind hread fun _ =>
      EngineM.calls_bind hread fun current => ?_
    split
    · trivial
    · trivial
  · exact EngineM.calls_bind hretire fun _ => EngineM.calls_bind hread fun _ => trivial
  · exact EngineM.calls_bind (EngineM.calls_recording (appends_recordProcessOutcome plain recorder))
      fun _ =>
      EngineM.calls_bind (EngineM.calls_recording (appends_retireRunDeadline plain _)) fun _ =>
        EngineM.calls_bind appends_upsertWorkflowVisibility fun _ => EngineM.calls_bind hread fun _ => trivial

omit plain in
theorem appends_sweepCall : Prog.Calls (Appends kind) (sweepCall workflowId) := by
  have hread : Prog.Calls (Appends kind) (EngineM.readHistory workflowId) :=
    EngineM.calls_readHistory trivial
  refine EngineM.calls_bind hread fun queried => ?_
  split_ifs
  · trivial
  · refine EngineM.calls_bind hread fun history => EngineM.calls_bind trivial fun request => ?_
    split
    · trivial
    · trivial

omit plain in
/-- A caller that is not starting a run is quiet. -/
theorem quiet_call (h : ∀ request, caller ≠ .starting request) :
    Prog.Calls Quiet (caller.call parseUuid env) := by
  have plain : ∀ event, Plain event → StartsNoSuccessor event :=
    fun _ h => startsNoSuccessor_of_not_started h.1
  cases caller with
  | continueAsNew handle recorder input workflowType =>
    exact appends_continueAsNewCall plain fun _ _ _ => rfl
  | processExit handle recorder outcome => exact appends_processExitCall plain
  | sweep workflowId => exact appends_sweepCall
  | starting request => exact absurd rfl (h request)
  | writing workflowId events expectedSeq quiet => exact ⟨quiet, fun _ => trivial⟩
  | «over» => trivial

end Tasks

/-! ### Callers on one store -/

/-- The history that a read returned. -/
def snapshotOf : (call : StoreCall) → call.Answer → List (List Event)
  | .readHistory _, .ok history => [history]
  | _, _ => []

/-- The in-memory store; a program's log is what it has read. -/
def readService : Service InMemoryStore StoreCall StoreCall.Answer (List Event) where
  serve := InMemoryStore.serve
  added := snapshotOf

/-- The store and the callers. -/
abbrev CallerSystem :=
  System InMemoryStore Caller (Except StartFailure Unit) StoreCall StoreCall.Answer (List Event)

/-- What happens in a step of the callers. -/
abbrev CallerLabel :=
  Label Caller (Except StartFailure Unit) StoreCall StoreCall.Answer (List Event)

/-- The programs of a caller, in any environment. -/
def callerPrograms (parseUuid : String → Option Uuid) (caller : Caller) (program : CallerProgram) :
    Prop :=
  ∃ env, program = caller.program parseUuid env

/-- When a caller that starts a run makes its first read, which is for the head, no start of
a successor of the same parent is recorded. -/
def FreshHead (s : CallerSystem) (label : CallerLabel) : Prop :=
  ∀ i workflowId answer request rest run, label = .called i (.readHistory workflowId) answer →
    s.clients i = some (.busy (.starting request) [] rest) →
      request.options.parentRunId = some run →
    alreadyStarted (s.store.history workflowId) run = false

/-- Every run has one successor at most. -/
def OneSuccessor (history : List Event) : Prop := ∀ run, history.countP (startsSuccessor run) ≤ 1

/-- How far a caller has come. -/
inductive CallerStanding (store : InMemoryStore) (caller : Caller) (log : List (List Event)) (rest : CallerProgram) : Prop
  /-- It starts no run that continues another. -/
  | quiet (h : rest.Calls Quiet)
  /-- It is about to read the head to start a run at. -/
  | begun {request : StartRequest} {workflowId : WorkflowId}
    {next : Except StoreError (List Event) → CallerProgram} (hcall : caller = .starting request) (hlog : log = [])
    (hrest : rest = .call (.readHistory workflowId) next)
    (hnext : ∀ history, (next (.ok history)).Calls
      (MayStart workflowId (InMemoryStore.historyHead history) request.options.parentRunId))
  /-- It has read the head, in a history without a successor of the same parent. -/
  | headed {parent : Option RunId} {workflowId : WorkflowId} {snapshot : List Event}
    (hsnap : snapshot <+: store.history workflowId)
    (hfresh : ∀ run, parent = some run → alreadyStarted snapshot run = false)
    (hrest : rest.Calls (MayStart workflowId snapshot.length parent))

/-- What holds while every head is read in time. -/
structure SuccessorInvariant (s : CallerSystem) : Prop where
  numbered : s.store.Numbered
  one : ∀ workflowId, OneSuccessor (s.store.history workflowId)
  standing : ∀ i caller log rest, s.clients i = some (.busy caller log rest) →
    CallerStanding s.store caller log rest

variable {steps : List (CallerSystem × CallerLabel)}

section Invariant

variable {parseUuid : String → Option Uuid} {s s' : CallerSystem}

theorem calls_settle {may : StoreCall → Prop} (outcome : Except StartFailure Caller) :
    (settle outcome).Calls may := by
  cases outcome with
  | ok next => trivial
  | error failure => trivial

/-- The ways a caller's program begins. -/
theorem standing_program (store : InMemoryStore) (caller : Caller) (env : StartEnvironment) :
    CallerStanding store caller [] (caller.program parseUuid env) := by
  by_cases hstarting : ∃ request, caller = .starting request
  · obtain ⟨request, rfl⟩ := hstarting
    have hrec : ∀ loaded workflowId head,
      Prog.Calls (MayStart workflowId head request.options.parentRunId)
        (do recordStart env request loaded workflowId head; return .over : EngineM Caller) :=
      fun loaded workflowId head => EngineM.calls_bind (calls_recordStart
        (fun _ happends => .of_quiet (Appends.mono (fun _ h => startsNoSuccessor_of_not_started h.1) happends))
        fun envelope others hoths => @mayStart_append _ _
          ⟨request.workflowType, request.input, env.runId, request.options.parentRunId, loaded.version⟩ _ _
          fun event hmem => startsNoSuccessor_of_not_started (hoths event hmem).1) fun _ => trivial
    cases hresv : env.resolve request.workflowType request.options.loadedVersion with
    | none =>
      refine .quiet (Prog.Calls.bind ?_ calls_settle)
      simp only [Caller.call, startWorkflowWithOptions, hresv]
      trivial
    | some loaded =>
      cases hid : request.options.workflowId with
      | none =>
        refine @CallerStanding.headed _ _ _ _ request.options.parentRunId env.workflowId [] List.nil_prefix
          (fun _ _ => rfl) (Prog.Calls.bind ?_ calls_settle)
        simp only [Caller.call, startWorkflowWithOptions, hresv, hid]
        exact hrec loaded env.workflowId 0
      | some workflowId =>
        refine @CallerStanding.begun _ _ _ _ request workflowId (fun answer => Prog.bind (do
          let history ← (.done (answer.mapError .store) : EngineM (List Event))
          recordStart env request loaded workflowId (InMemoryStore.historyHead history)
          return .over : EngineM Caller) settle) rfl rfl ?_ ?_
        · simp only [Caller.program, Caller.call, startWorkflowWithOptions, hresv, hid]
          refine congrArg (Prog.call (StoreCall.readHistory workflowId)) (funext fun answer => ?_)
          cases answer with
          | ok history => rfl
          | error error => rfl
        · exact fun history => Prog.Calls.bind (hrec loaded workflowId _) calls_settle
  · exact .quiet (Prog.Calls.bind (quiet_call fun request heq => hstarting ⟨request, heq⟩) calls_settle)

variable {log : List (List Event)} {store : InMemoryStore}

/-- A history that only grows keeps what was read of it at its beginning. -/
theorem CallerStanding.grow {store' : InMemoryStore}
    {rest : CallerProgram} (h : CallerStanding store caller log rest)
    (hgrows : ∀ workflowId, store.history workflowId <+: store'.history workflowId) :
    CallerStanding store' caller log rest := by
  cases h with
  | quiet h => exact .quiet h
  | begun hcall hlog hrest hnext => exact .begun hcall hlog hrest hnext
  | headed hsnap hfresh hrest => exact .headed (hsnap.trans (hgrows _)) hfresh hrest

/-- The invariant after a step that changes no history and leaves one client. -/
theorem SuccessorInvariant.setClient (h : SuccessorInvariant s) {i : ℕ}
    {client : Option (Client Caller (Except StartFailure Unit) StoreCall StoreCall.Answer
        (List Event))}
    (hcli : ∀ caller log rest, client = some (.busy caller log rest) →
        CallerStanding s.store caller log rest) : SuccessorInvariant (s.setClient i client) where
  numbered := h.numbered
  one := h.one
  standing j caller log rest hj := by
    change Function.update s.clients i client j = _ at hj
    by_cases hij : j = i
    · subst hij
      rw [Function.update_self] at hj
      exact hcli caller log rest hj
    · rw [Function.update_of_ne hij] at hj
      exact h.standing j caller log rest hj

theorem countP_addedTo_of_quiet (hquiet : Quiet call) (answer : call.Answer)
    (workflowId : WorkflowId) (run : RunId) :
    (addedTo workflowId call answer).countP (startsSuccessor run) = 0 := by
  refine List.countP_eq_zero.mpr fun event hmem => ?_
  unfold addedTo at hmem
  split at hmem
  · rename_i id expectedSeq events hacc
    split_ifs at hmem
    · unfold acceptedBatch at hacc
      split at hacc
      · cases hacc
        simp [hquiet event hmem run]
      · cases hacc
        simp [hquiet event hmem run]
      · cases hacc
    · cases hmem
  · cases hmem

/-- What a caller appends leaves one successor of each run. -/
theorem CallerStanding.one {next : call.Answer → CallerProgram}
    (h : CallerStanding store caller log (.call call next)) (numbered : store.Numbered)
    (hone : OneSuccessor (store.history workflowId)) :
    OneSuccessor ((store.serve call).2.history workflowId) := by
  intro run
  have hserves := servesHistories numbered call
  rw [hserves.added workflowId, List.countP_append]
  by_cases hzero : (addedTo workflowId call (store.serve call).1).countP (startsSuccessor run) = 0
  · rw [hzero]
    exact hone run
  have hquiet : ¬ Quiet call :=
    fun hquiet => hzero (countP_addedTo_of_quiet hquiet _ workflowId run)
  cases h with
  | quiet h => exact absurd h.1 hquiet
  | begun hcall hlog hrest hnext =>
    cases hrest
    exact absurd trivial hquiet
  | @headed parent id snapshot hsnap hfresh hrest =>
    have hmay := hrest.1
    cases call with
    | append target events expectedSeq =>
      generalize hans : (store.serve (.append target events expectedSeq)).1 = answer at hzero hserves ⊢
      change Except StoreError Unit at answer
      cases answer with
      | error error => exact absurd rfl hzero
      | ok accepted =>
        have hadd : addedTo workflowId (.append target events expectedSeq) (.ok accepted) =
            if workflowId = target then events else [] := rfl
        rw [hadd] at hzero ⊢
        split_ifs at hzero ⊢ with htgt
        · obtain ⟨event, hmem, hev⟩ := List.countP_pos_iff.mp (Nat.pos_of_ne_zero hzero)
          obtain ⟨hid, hhead, hpar, hcount⟩ := hmay run ⟨event, hmem, hev⟩
          -- The append was accepted at the head that was read, so nothing was appended since.
          have hlen := hserves.atEnd target expectedSeq events rfl
          have hsame : snapshot = store.history workflowId := by
            rw [htgt, hid]
            exact hsnap.eq_of_length (by rw [← hhead, ← hlen, hid])
          have hnone : (store.history workflowId).countP (startsSuccessor run) = 0 := by
            rw [← hsame, List.countP_eq_zero]
            intro earlier hearl
            have := hfresh run hpar
            rw [alreadyStarted, List.any_eq_false] at this
            exact this earlier hearl
          rw [hnone, Nat.zero_add]
          exact hcount
        · exact absurd rfl hzero
    | _ => exact absurd hmay hquiet

theorem SuccessorInvariant.called (h : SuccessorInvariant s) {i : ℕ} {caller : Caller}
    {log : List (List Event)} {call : StoreCall} {next : call.Answer → CallerProgram}
    (client : s.clients i = some (.busy caller log (.call call next)))
    (hfresh : FreshHead s (.called i call (s.store.serve call).1)) :
    SuccessorInvariant ⟨(s.store.serve call).2, Function.update s.clients i
      (some (.busy caller (log ++ snapshotOf call (s.store.serve call).1)
          (next (s.store.serve call).1)))⟩ := by
  have hserves := servesHistories h.numbered call
  have hgrows : ∀ workflowId, s.store.history workflowId <+:
    (s.store.serve call).2.history workflowId :=
    fun workflowId => ⟨_, (hserves.added workflowId).symm⟩
  have hstanding := h.standing i caller log _ client
  refine ⟨hserves.numbered, fun workflowId => hstanding.one h.numbered (h.one workflowId), ?_⟩
  intro j caller' log' rest' hj
  change Function.update s.clients i _ j = _ at hj
  by_cases hij : j = i
  · subst hij
    rw [Function.update_self] at hj
    cases hj
    cases hstanding with
    | quiet hquiet => exact .quiet (hquiet.2 _)
    | @begun request workflowId next' hcall hlog hrest hnext =>
      cases hrest
      subst hcall hlog
      have hread : s.store.readHistory workflowId = s.store.history workflowId :=
        InMemoryStore.readHistory_of_numbered h.numbered workflowId
      refine @CallerStanding.headed _ _ _ _ request.options.parentRunId workflowId (s.store.history workflowId)
        (List.prefix_refl _) (fun run hpar => hfresh j workflowId _ request _ run rfl client hpar) ?_
      have hcalls := hnext (s.store.readHistory workflowId)
      rw [hread, InMemoryStore.historyHead_of_numbered (h.numbered workflowId)] at hcalls
      rw [← hread] at hcalls ⊢
      exact hcalls
    | headed hsnap hfresh' hrest => exact .headed (hsnap.trans (hgrows _)) hfresh' (hrest.2 _)
  · rw [Function.update_of_ne hij] at hj
    exact (h.standing j caller' log' rest' hj).grow hgrows

theorem SuccessorInvariant.step {label : CallerLabel} (h : SuccessorInvariant s)
    (step : Step readService (callerPrograms parseUuid) s label s') (hfresh : FreshHead s label) :
    SuccessorInvariant s' := by
  cases step with
  | opened free => exact h.setClient (by simp)
  | began client hprog =>
    obtain ⟨env, rfl⟩ := hprog
    refine h.setClient ?_
    rintro _ _ _ ⟨⟩
    exact standing_program s.store _ env
  | called client => exact h.called client hfresh
  | finished client => exact h.setClient (by simp)
  | closed => exact h.setClient (by simp)

theorem SuccessorInvariant.run (h : SuccessorInvariant s)
    (run : Run readService (callerPrograms parseUuid) s steps s')
    (hfresh : ∀ step ∈ steps, FreshHead step.1 step.2) : SuccessorInvariant s' := by
  induction run with
  | nil => exact h
  | snoc _ last ih =>
    have hmid := ih fun step hmem => hfresh step (List.mem_append_left _ hmem)
    exact hmid.step last (hfresh (_, _) (List.mem_append_right _ List.mem_cons_self))

end Invariant

/-! ### The chain of runs -/

/-- The run that an event's run continues. -/
def continuedRun? (event : Event) : Option RunId :=
  match event.body with
  | .workflowStarted _ _ _ parentRunId _ => parentRunId
  | _ => none

theorem startsSuccessor_eq (run : RunId) (event : Event) :
    startsSuccessor run event = (continuedRun? event == some run) := by
  obtain ⟨envelope, body⟩ := event
  cases body with
  | workflowStarted workflowType input runId parentRunId packageVersion => cases parentRunId <;> rfl
  | _ => rfl

theorem OneSuccessor.nodup (h : OneSuccessor history) :
    (history.filterMap continuedRun?).Nodup := by
  rw [List.nodup_iff_count_le_one]
  intro run
  rw [List.count_filterMap]
  have hone := h run
  rwa [funext (startsSuccessor_eq run)] at hone

theorem parents_of_summaries {events : List Event}
    (h : (cutAtStarts events).2.mapM projectRunSummary = .ok summaries) :
    summaries.filterMap (·.parentRunId) = events.filterMap continuedRun? := by
  induction events generalizing summaries with
  | nil =>
    cases h
    rfl
  | cons event rest ih =>
    obtain ⟨envelope, body⟩ := event
    cases body with
    | workflowStarted workflowType input runId parentRunId packageVersion =>
      simp only [cutAtStarts, isWorkflowStarted, if_true, List.mapM_cons] at h
      cases hrest : (cutAtStarts rest).2.mapM projectRunSummary with
      | error error =>
        rw [hrest] at h
        cases h
      | ok later =>
        rw [hrest] at h
        cases h
        rw [List.filterMap_cons, List.filterMap_cons, ih hrest]
        rfl
    | _ =>
      rw [List.filterMap_cons]
      exact ih h

/-- With one child for each parent, the children of all runs can be told. -/
theorem childrenByParent_ok (h : (summaries.filterMap (·.parentRunId)).Nodup) :
    ∃ children, childrenByParent summaries = .ok children := by
  unfold childrenByParent
  -- What is left to insert is not there yet.
  have hfresh : ∀ run ∈ summaries.filterMap (·.parentRunId),
    run ∉ (∅ : AList fun _ : RunId => RunSummary) :=
    fun run _ => AList.notMem_empty run
  revert hfresh
  generalize (∅ : AList fun _ : RunId => RunSummary) = children
  induction summaries generalizing children with
  | nil => exact fun _ => ⟨children, rfl⟩
  | cons summary rest ih =>
    intro hfresh
    rw [List.foldlM_cons]
    cases hpar : summary.parentRunId with
    | none =>
      rw [List.filterMap_cons, hpar] at h hfresh
      exact ih h children hfresh
    | some parentRunId =>
      rw [List.filterMap_cons, hpar] at h hfresh
      obtain ⟨hnew, hrest⟩ := List.nodup_cons.mp h
      simp only [if_neg (hfresh parentRunId List.mem_cons_self)]
      refine ih hrest (children.insert parentRunId summary) fun run hmem hinsd => ?_
      rcases (AList.mem_insert _).mp hinsd with rfl | hinsd
      · exact hnew hmem
      · exact hfresh run (List.mem_cons_of_mem _ hmem) hinsd

/-- **One successor.** Whatever the API call, the monitors and the sweeps do, in any order: as
long as no start of a successor is recorded at the moment a caller reads the head it will
append at, every run of every workflow has one successor at most, and no run has two children
in the chain of runs. -/
theorem one_successor {parseUuid : String → Option Uuid} {s s' : CallerSystem}
    {steps : List (CallerSystem × CallerLabel)} (numbered : s.store.Numbered)
    (one : ∀ workflowId, OneSuccessor (s.store.history workflowId))
    (idle : ∀ i caller log rest, s.clients i ≠ some (.busy caller log rest))
    (run : Run readService (callerPrograms parseUuid) s steps s')
    (fresh : ∀ step ∈ steps, FreshHead step.1 step.2) (workflowId : WorkflowId) :
    OneSuccessor (s'.store.history workflowId) ∧
      ∀ summaries, (cutAtStarts (InMemoryStore.historyInSequenceOrder
          (s'.store.history workflowId))).2.mapM
        projectRunSummary = .ok summaries →
      ∃ children, childrenByParent summaries = .ok children := by
  have hinvariant : SuccessorInvariant s :=
    ⟨numbered, one, fun i caller log rest hbusy => absurd hbusy (idle i caller log rest)⟩
  have hone := (hinvariant.run run fresh).one workflowId
  refine ⟨hone, fun summaries hsummaries => childrenByParent_ok ?_⟩
  rw [parents_of_summaries hsummaries]
  exact ((List.perm_insertionSort _ _).filterMap _).nodup_iff.mpr hone.nodup

/-! ### Two callers -/

/-- A store with one workflow, whose first run has just started. -/
def billingStore : InMemoryStore :=
  ⟨(∅ : AList _).insert ⟨7⟩ [⟨⟨1, 0, ⟨7⟩⟩,
      .workflowStarted "billing" Payload.empty ⟨1⟩ none ⟨"v1"⟩⟩], .empty⟩

/-- One version of `billing` is loaded; the run that starts is new. -/
def billingEnvironment (runId : RunId) : StartEnvironment where
  workflowId := ⟨8⟩
  runId := runId
  startedAt := 10
  resolve workflowType _ := if workflowType = "billing" then some ⟨⟨"v1"⟩, none⟩ else none
  schema := ⟨∅⟩
  deadlineFireAt startedAt timeout := .ok (startedAt + timeout)

/-- No run there has a deadline, so no name of a timer is read back. -/
abbrev billingPrograms : Caller → CallerProgram → Prop := callerPrograms fun _ => none

/-- The recorder of the first run, at a head. -/
def billingRecorder (head : ℕ) : Recorder := ⟨⟨7⟩, ⟨head⟩, some ⟨1⟩, some ⟨1⟩⟩

/-- A store with a run that continued as new, and two callers about to start the next. -/
def billingContinues : CallerSystem where
  store := ⟨(∅ : AList _).insert ⟨7⟩ continuedBilling, .empty⟩
  clients i := if i < 2 then
    some (.idle (.starting (replacementRequest (billingHandle "default") Payload.empty none ⟨1⟩))) else none

theorem billingContinues_history (workflowId : WorkflowId) :
    billingContinues.store.history workflowId = if workflowId = ⟨7⟩ then
      continuedBilling else [] := by
  by_cases hid : workflowId = ⟨7⟩
  · subst hid
    rfl
  · rw [if_neg hid, InMemoryStore.history, billingContinues, AList.lookup_insert_ne hid]
    rfl

/-- Both callers read the same head; one starts the successor, and the other is refused. -/
theorem one_successor_billing :
    ∃ steps s, Run readService billingPrograms billingContinues steps s ∧
      (∀ step ∈ steps, FreshHead step.1 step.2) ∧
      (s.store.history ⟨7⟩).countP (startsSuccessor ⟨1⟩) = 1 ∧
      OneSuccessor (s.store.history ⟨7⟩) := by
  have hbegan := @Step.began _ _ _ _ _ _ readService billingPrograms billingContinues 0 _ _ rfl
    ⟨billingEnvironment ⟨2⟩, rfl⟩
  have hbusy := (Run.nil.snoc hbegan).snoc (.began (i := 1) rfl ⟨billingEnvironment ⟨3⟩, rfl⟩)
  have hrun := (((hbusy.snoc (.called (i := 0) rfl)).snoc (.called (i := 1) rfl)).snoc (.called (i := 0) rfl)).snoc
    (.called (i := 1) rfl)
  have hnum : billingContinues.store.Numbered := by
    intro workflowId
    rw [billingContinues_history]
    split_ifs
    · decide
    · rfl
  have hone : ∀ workflowId, OneSuccessor (billingContinues.store.history workflowId) := by
    intro workflowId run
    rw [billingContinues_history]
    split_ifs
    · exact Nat.zero_le 1
    · exact Nat.zero_le 1
  have hidle : ∀ i caller log rest, billingContinues.clients i ≠ some (.busy caller log rest) := by
    intro i caller log rest hbusy
    simp only [billingContinues] at hbusy
    split_ifs at hbusy
    cases hbusy
  have hstrt : ∃ steps s, Run readService billingPrograms billingContinues steps s ∧
      (∀ step ∈ steps, FreshHead step.1 step.2) ∧ (s.store.history ⟨7⟩).countP (startsSuccessor ⟨1⟩) = 1 := by
    refine ⟨_, _, hrun, ?_, by decide +kernel⟩
    intro step hmem
    simp only [List.nil_append, List.mem_append, List.mem_singleton] at hmem
    rcases hmem with ((((rfl | rfl) | rfl) | rfl) | rfl) | rfl <;>
      intro i workflowId answer request rest run hlabel hcli hpar <;> cases hlabel
    · cases hcli
      cases hpar
      rfl
    · cases hcli
      cases hpar
      rfl
  obtain ⟨steps, s, hrun, hfresh, hcount⟩ := hstrt
  exact ⟨steps, s, hrun, hfresh, hcount, (one_successor hnum hone hidle hrun hfresh ⟨7⟩).1⟩

/-- The API call continues the run; then the monitor of its process looks for a successor and
finds none; then the API call starts one. -/
def racingStarts : List (Action Caller) :=
  [.opened 0 (.continueAsNew (billingHandle "default") (billingRecorder 1) Payload.empty none),
      .advance 0, .advance 0,
    .advance 0, .advance 0, .advance 0, .advance 0,
    .opened 1 (.processExit (billingHandle "default") (billingRecorder 2)
        (.completed Payload.empty)), .advance 1, .advance 1,
    .advance 1, .advance 1, .advance 1, .advance 0, .advance 0, .advance 0]

/-- The callers run as scheduled; those that start a run start `runId`. -/
def runCallers (runId : RunId) (s : CallerSystem) (actions : List (Action Caller)) :
    Option (List (CallerSystem × CallerLabel) × CallerSystem) :=
  s.exec readService (fun caller => caller.program (fun _ => none) (billingEnvironment runId)) actions

theorem run_of_runCallers {s s' : CallerSystem} {actions : List (Action Caller)}
    (h : runCallers runId s actions = some (steps, s')) :
    Run readService billingPrograms s steps s' :=
  System.run_of_exec (fun _ => ⟨billingEnvironment runId, rfl⟩) h

/-- The monitor goes on with the start it decided on, at the head it finds then. -/
theorem second_successor :
    ¬ ∀ steps s, Run readService billingPrograms ⟨billingStore, fun _ => none⟩ steps s →
      ∀ workflowId, OneSuccessor (s.store.history workflowId) := by
  intro h
  have hseen : ((runCallers ⟨2⟩ ⟨billingStore, fun _ => none⟩ racingStarts).bind fun first =>
      (runCallers ⟨3⟩ first.2 [.advance 1, .advance 1, .advance 1]).map fun second =>
        (second.2.store.history ⟨7⟩).countP (startsSuccessor ⟨1⟩)) = some 2 := by decide +kernel
  obtain ⟨⟨steps, mid⟩, hfst, hseen⟩ := Option.bind_eq_some_iff.mp hseen
  obtain ⟨⟨later, s⟩, hsnd, hcount⟩ := Option.map_eq_some_iff.mp hseen
  have hone := h _ s ((run_of_runCallers hfst).append (run_of_runCallers hsnd)) ⟨7⟩ ⟨1⟩
  have hcount : (s.store.history ⟨7⟩).countP (startsSuccessor ⟨1⟩) = 2 := hcount
  omega

end Aion
