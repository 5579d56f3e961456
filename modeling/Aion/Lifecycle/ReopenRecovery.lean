import Aion.Lifecycle.FaultyStore
import Aion.Lifecycle.Reopen
import Aion.Lifecycle.ReopenTimers

/-!
# The type a reopen recovers

A reopen appends its marker and then hands the run to recovery under a workflow type
(`lifecycle/reopen.rs`). It takes the type of the first start in the history; recovery reads the
last start, and refuses the run when its type is another (`started_metadata`,
`durability/recovery.rs`). By then the marker is durable.

`reopen_type_iff`: of the runs of a reopen that get as far as recovery, those pass the check whose
first and last start record one type. A workflow keeps the type of its first run: those that
continue it or start its next run record no other (`appends_ofType_call`, `continuation_ofType`,
`sweepHistory_ofType`). So the check passes (`reopen_type`). `migrated_chain_rejected` is a chain
with another type, which none of them writes.

The spawn of the process and its registration come after the check and are left out.
-/

namespace Aion

open Interleaving Scan

/-! ### The two scans -/

/-- The type an event starts a run with. -/
def startedAs? (event : Event) : Option String :=
  match event.body with
  | .workflowStarted workflowType _ _ _ _ => some workflowType
  | _ => none

/-- `started_workflow_type`. -/
def startedWorkflowType (id : WorkflowId) (history : List Event) : Except EngineError String :=
  match history.findSome? startedAs? with
  | some workflowType => .ok workflowType
  | none =>
    .error (.load ("workflow " ++ id.display ++ " has no WorkflowStarted event to reopen from"))

/-- `StartedMetadata`. -/
structure StartedMetadata where
  input : Payload
  runId : RunId
  packageVersion : PackageVersion
  deriving DecidableEq

/-- What an event starts a run with. -/
def started? (event : Event) : Option (String × StartedMetadata) :=
  match event.body with
  | .workflowStarted workflowType input runId _ packageVersion =>
    some (workflowType, ⟨input, runId, packageVersion⟩)
  | _ => none

/-- `started_metadata`. -/
def startedMetadata (workflowId : WorkflowId) (expectedWorkflowType : String)
    (history : List Event) : Except EngineError StartedMetadata :=
  match newest started? history with
  | none => .error (.load ("active workflow `" ++ workflowId.display ++ "` has no WorkflowStarted event in durable history"))
  | some (workflowType, metadata) =>
    if workflowType ≠ expectedWorkflowType then
      .error (.load ("active workflow `" ++ workflowId.display ++ "` started as `" ++ workflowType ++
        "` but recovery was requested for `" ++ expectedWorkflowType ++ "`"))
    else .ok metadata

/-! ### The reopen -/

/-- What a reopen finds around it. -/
structure ReopenEnvironment where
  /-- The readings of the clock. -/
  clock : ℕ → Instant
  /-- The status cached by a handle that is registered for the run. -/
  registered : Option WorkflowStatus
  /-- `ensure_type_supervisor`. -/
  ensureTypeSupervisor : String → Except EngineError Unit

/-- A handle that is not terminal is that of a concurrent reopen. -/
def rejectRegistered (registered : Option WorkflowStatus) (id : WorkflowId) (run : RunId) :
    Except EngineError Unit :=
  match registered with
  | none => .ok ()
  | some status =>
    if status.isTerminal then .ok ()
    else .error (.invalidState ("workflow " ++ id.display ++ " run " ++ run.display ++
      " was already reopened and is Running (concurrent reopen)"))

/-- The starts that a reopen records, one reading of the clock after the other. -/
def recordRestarts (clock : ℕ → Instant) : List RearmTimer → ℕ → RecorderM Unit
  | [], _ => return ()
  | timer :: rest, reading => do
    recordTimerStarted (clock reading) timer.timerId timer.fireAt
    recordRestarts clock rest (reading + 1)

/-- `reopen`, as far as it goes before recovery: the type and the history it hands on. -/
def reopenCall (env : ReopenEnvironment) (id : WorkflowId) (run : RunId) :
    EngineM (String × List Event) := do
  let history ← EngineM.readHistory id
  if history = [] then EngineM.throw (.engine (workflowNotFound id run))
  else
    let segment := runSegment history run
    let reopened ← EngineM.lift (validateAndComputeReopened id run segment)
    EngineM.lift (rejectRegistered env.registered id run)
    let historyHead := (history.getLast?.map Event.seq).getD 0
    let (_, recorder) ← EngineM.recording
      { Recorder.resumeAt id historyHead with visibility := some run }
      (recordWorkflowReopened (env.clock 0) run reopened)
    let _ ← EngineM.recording recorder (recordRestarts env.clock (restartTimers segment) 1)
    let history ← EngineM.readHistory id
    let workflowType ← EngineM.lift (startedWorkflowType id history)
    EngineM.lift (env.ensureTypeSupervisor workflowType)
    return (workflowType, history)

/-! ### What a reopen appends -/

variable {handed : String × List Event} {appended : List Event}

section Reopened

variable {env : ReopenEnvironment} {id : WorkflowId} {run : RunId} {store last : InMemoryStore}

/-- The restarts append a start for each timer. -/
theorem ends_recordRestarts {clock : ℕ → Instant} {timers : List RearmTimer} {reading : ℕ}
    {recorder recorder' : Recorder} (numbered : store.Numbered)
    (h : Prog.Ends FaultyAnswers (recordRestarts clock timers reading recorder) store
        (.ok (), recorder') last) :
    last.Numbered ∧ ∃ starts, last.history recorder.workflowId =
      store.history recorder.workflowId ++ starts ∧
      starts.map Event.body = timers.map fun timer => .timerStarted timer.timerId timer.fireAt := by
  induction timers generalizing reading recorder store with
  | nil =>
    obtain ⟨-, rfl⟩ := ends_done_iff.mp h
    exact ⟨numbered, [], (List.append_nil _).symm, rfl⟩
  | cons timer timers ih =>
    rcases RecorderM.ends_bind_iff.mp h with ⟨error, _, herr, -⟩ | ⟨value, middleRecorder, middle,
      hfst, hrest⟩
    · cases herr
    · rcases ends_appendWith hfst with ⟨-, happd⟩ | ⟨⟨error, herr⟩, -⟩
      · obtain ⟨hnum, starts, hstarts, hbodies⟩ := ih (happd.numbered numbered) hrest
        obtain ⟨envelope, hhist⟩ := happd.histories
        have hid : middleRecorder.workflowId = recorder.workflowId := happd.workflowId_eq
        rw [hid, hhist recorder.workflowId, if_pos rfl, List.append_assoc] at hstarts
        exact ⟨hnum, _, hstarts, by rw [List.map_append, hbodies]; rfl⟩
      · cases herr

/-- **What a reopen hands to recovery**: the history it began with and its own events, and the type
of the first start of these. -/
theorem ends_reopenCall (numbered : store.Numbered)
    (h : Prog.Ends FaultyAnswers (reopenCall env id run) store (.ok handed) last) :
    ∃ appended, IsReopen (runSegment (store.history id) run) appended ∧
      last.history id = store.history id ++ appended ∧
      handed.2 = store.history id ++ appended ∧ startedWorkflowType id handed.2 = .ok handed.1 := by
  obtain ⟨history, middle, hread, h⟩ := EngineM.ends_bind_ok h
  obtain ⟨rfl, rfl⟩ := EngineM.ends_readHistory_ok hread
  rw [InMemoryStore.readHistory_of_numbered numbered] at h
  split_ifs at h
  · cases (ends_done_iff.mp h).1
  · obtain ⟨reopened, middle, hvalidated, h⟩ := EngineM.ends_bind_ok h
    obtain ⟨-, rfl⟩ := EngineM.ends_lift_ok hvalidated
    obtain ⟨_, middle, hreg, h⟩ := EngineM.ends_bind_ok h
    obtain ⟨-, rfl⟩ := EngineM.ends_lift_ok hreg
    obtain ⟨⟨_, recorder⟩, marked, hmarker, h⟩ := EngineM.ends_bind_ok h
    obtain ⟨_, restarted, hrestarts, h⟩ := EngineM.ends_bind_ok h
    obtain ⟨history, middle, hread, h⟩ := EngineM.ends_bind_ok h
    obtain ⟨rfl, rfl⟩ := EngineM.ends_readHistory_ok hread
    obtain ⟨workflowType, middle, htype, h⟩ := EngineM.ends_bind_ok h
    obtain ⟨htyped, rfl⟩ := EngineM.ends_lift_ok htype
    obtain ⟨_, middle, hsupervised, h⟩ := EngineM.ends_bind_ok h
    obtain ⟨-, rfl⟩ := EngineM.ends_lift_ok hsupervised
    obtain ⟨hhanded, rfl⟩ := ends_done_iff.mp h
    cases hhanded
    rcases ends_appendThenUpsert (EngineM.ends_recording_ok hmarker) with ⟨-,
      happd⟩ | ⟨⟨error, herr⟩, -⟩
    · obtain ⟨hnum, starts, hstarts, hbodies⟩ :=
        ends_recordRestarts (happd.numbered numbered) (EngineM.ends_recording_ok hrestarts)
      obtain ⟨envelope, hhist⟩ := happd.histories
      have hid : recorder.workflowId = id := happd.workflowId_eq
      have hlast : last.history id = store.history id ++ (⟨envelope, .workflowReopened run reopened⟩ :: starts) := by
        have hmarked : marked.history id = store.history id ++ [⟨envelope, .workflowReopened run reopened⟩] :=
          (hhist id).trans (congrArg _ (if_pos rfl))
        rw [hid, hmarked, List.append_assoc] at hstarts
        exact hstarts
      rw [InMemoryStore.readHistory_of_numbered hnum] at htyped ⊢
      exact ⟨_, ⟨run, reopened, by rw [List.map_cons, hbodies]⟩, hlast, hlast, htyped⟩
    · cases herr

end Reopened

/-! ### Which runs pass -/

/-- The first and the last start of the history record one type. -/
def StartsAgree (history : List Event) : Prop :=
  history.findSome? startedAs? = newest startedAs? history

instance (history : List Event) : Decidable (StartsAgree history) :=
  inferInstanceAs (Decidable (_ = _))

theorem startedAs?_eq_map (event : Event) : startedAs? event = (started? event).map Prod.fst := by
  obtain ⟨envelope, body⟩ := event
  cases body <;> rfl

theorem newest_startedAs? (history : List Event) :
    newest startedAs? history = (newest started? history).map Prod.fst := by
  rw [show startedAs? = fun event => (started? event).map Prod.fst from funext startedAs?_eq_map]
  induction history with
  | nil => rfl
  | cons event rest ih =>
    rw [newest_cons, newest_cons, ih]
    cases newest started? rest <;> rfl

/-- A reopen appends no start. -/
theorem IsReopen.startedAs?_eq_none {segment : List Event} (h : IsReopen segment appended) :
    ∀ event ∈ appended, startedAs? event = none := by
  obtain ⟨runId, reopened, hbodies⟩ := h
  intro event hev
  have hbody : event.body ∈ appended.map Event.body := List.mem_map_of_mem hev
  rw [hbodies] at hbody
  rcases List.mem_cons.mp hbody with hbody | hbody
  · simp [startedAs?, hbody]
  · obtain ⟨timer, -, hstart⟩ := List.mem_map.mp hbody
    simp [startedAs?, ← hstart]

theorem startsAgree_append {history : List Event}
    (happd : ∀ event ∈ appended, startedAs? event = none) :
    StartsAgree (history ++ appended) ↔ StartsAgree history := by
  have hfst : appended.findSome? startedAs? = none := List.findSome?_eq_none_iff.mpr happd
  rw [StartsAgree, StartsAgree, List.findSome?_append, hfst, Option.or_none, newest_append,
    newest_eq_none_iff.mpr happd, Option.none_or]

theorem startedWorkflowType_eq_ok {id : WorkflowId} {history : List Event} {workflowType : String}
    (h : startedWorkflowType id history = .ok workflowType) :
    history.findSome? startedAs? = some workflowType := by
  unfold startedWorkflowType at h
  split at h
  · next found hfd => rw [hfd, Except.ok.inj h]
  · cases h

/-- Recovery takes the run under the type of the first start when the last start has it too. -/
theorem startedMetadata_iff {id : WorkflowId} {history : List Event} {workflowType : String}
    (h : startedWorkflowType id history = .ok workflowType) :
    (∃ metadata, startedMetadata id workflowType history = .ok metadata) ↔ StartsAgree history := by
  rw [StartsAgree, startedWorkflowType_eq_ok h, newest_startedAs?, startedMetadata]
  cases newest started? history with
  | none => simp
  | some last =>
    obtain ⟨lastType, metadata⟩ := last
    simp only [Option.map_some, Option.some.injEq, ne_eq, ite_not]
    split_ifs with heq
    · simp [heq]
    · simp [Ne.symm heq]

/-- **When a reopened run passes the type check.** A reopen that gets as far as recovery has
appended its marker; the type it hands on is that of the start recovery selects exactly when the
first and the last start of the workflow record one type. -/
theorem reopen_type_iff {env : ReopenEnvironment} {id : WorkflowId} {run : RunId}
    {store last : InMemoryStore} (numbered : store.Numbered)
    (h : Prog.Ends FaultyAnswers (reopenCall env id run) store (.ok handed) last) :
    (∃ appended, IsReopen (runSegment (store.history id) run) appended ∧
        last.history id = store.history id ++ appended ∧
      handed.2 = last.history id) ∧
    ((∃ metadata, startedMetadata id handed.1 handed.2 = .ok metadata) ↔
        StartsAgree (store.history id)) := by
  obtain ⟨appended, hreopen, hlast, hhist, htype⟩ := ends_reopenCall numbered h
  refine ⟨⟨appended, hreopen, hlast, hhist.trans hlast.symm⟩, ?_⟩
  rw [startedMetadata_iff htype, hhist, startsAgree_append hreopen.startedAs?_eq_none]

/-! ### A workflow keeps its type -/

/-- The starts of the history record the type. -/
def StartsOf (workflowType : String) (history : List Event) : Prop :=
  ∀ event ∈ history, ∀ recorded, startedAs? event = some recorded → recorded = workflowType

/-- The event gives no run another type: a start records the type, and a continuation asks for no
other. -/
def OfType (workflowType : String) (event : Event) : Prop :=
  (∀ recorded, startedAs? event = some recorded → recorded = workflowType) ∧
    ∀ continued, continuation? event = some continued →
      continued.2.1.getD workflowType = workflowType

/-- The caller is about to start runs of the type only. -/
def Caller.OfType (workflowType : String) : Caller → Prop
  | .continueAsNew handle _ _ _ => handle.workflowType = workflowType
  | .processExit handle _ _ => handle.workflowType = workflowType
  | .starting request => request.workflowType = workflowType
  | .writing _ events _ _ => ∀ event ∈ events, Aion.OfType workflowType event
  | .sweep _ => True
  | .over => True

section KeepsType

variable {workflowType : String} {history : List Event}

theorem runSegment_subset {run : RunId} : runSegment history run ⊆ history := by
  unfold runSegment
  split
  · exact List.nil_subset _
  · next start rest hdrop =>
    refine List.Subset.trans ?_ (List.dropWhile_suffix fun event => !startsRun run event).subset
    rw [hdrop]
    exact List.cons_subset_cons _ (List.takeWhile_prefix _).subset

theorem Plain.ofType {event : Event} (h : Plain event) : OfType workflowType event := by
  obtain ⟨hstrt, hcontd⟩ := h
  refine ⟨fun recorded hrecd => ?_, by simp [hcontd]⟩
  have hstarts : isWorkflowStarted event := by
    obtain ⟨envelope, body⟩ := event
    cases body <;> first | rfl | cases hrecd
  rw [hstrt] at hstarts
  cases hstarts

/-- **Writers keep the type**: whatever the store answers, a caller of the type appends nothing that
gives a run another. -/
theorem appends_ofType_call {parseUuid : String → Option Uuid} {env : StartEnvironment}
    {caller : Caller} (hcall : caller.OfType workflowType) :
    Prog.Calls (Appends (OfType workflowType)) (caller.call parseUuid env) := by
  have plain : ∀ event, Plain event → OfType workflowType event := fun _ => Plain.ofType
  cases caller with
  | continueAsNew handle recorder input override =>
    obtain rfl := hcall
    refine appends_continueAsNewCall plain fun hoverride envelope => ⟨nofun, ?_⟩
    rintro _ ⟨⟩
    exact hoverride
  | processExit handle recorder outcome => exact appends_processExitCall plain
  | sweep workflowId => exact appends_sweepCall
  | starting request =>
    refine EngineM.calls_bind ?_ fun _ => trivial
    have hrec : ∀ loaded workflowId head,
        Prog.Calls (Appends (OfType workflowType)) (recordStart env request loaded workflowId head) := by
      intro loaded workflowId head
      refine calls_recordStart (fun _ => Appends.mono plain) fun envelope others hoths => ?_
      refine List.forall_mem_cons.mpr ⟨⟨?_, nofun⟩, fun event hmem => (hoths event hmem).ofType⟩
      rintro _ ⟨⟩
      exact hcall
    unfold startWorkflowWithOptions
    split
    · trivial
    · split
      · exact EngineM.calls_bind (EngineM.calls_readHistory trivial) fun _ => hrec _ _ _
      · exact hrec _ _ _
  | writing workflowId events expectedSeq quiet => exact ⟨hcall, fun _ => trivial⟩
  | «over» => trivial

variable {request : StartRequest}

/-- The monitor starts the next run under the type. -/
theorem continuation_ofType (h : ∀ event ∈ history, OfType workflowType event)
    {current : List Event} {handle : WorkflowHandle} (hhandle : handle.workflowType = workflowType)
    {input : Payload} {override : Option String} {run parent : RunId}
    (hended : terminalOutcomeFromHistory history run = some (.continuedAsNew input override parent))
    (hreq : startContinuationReplacement current handle input override parent = some request) :
    request.workflowType = workflowType := by
  have hmem : ∃ event ∈ history, continuation? event = some (input, override, parent) := by
    unfold terminalOutcomeFromHistory at hended
    split at hended <;> try cases hended
    next envelope input' override' parent' hterm =>
    obtain ⟨before, after, hseg, -⟩ := currentLeaseTerminal_eq_some_iff.mp hterm
    split_ifs at hended
    cases hended
    exact ⟨_, runSegment_subset (hseg ▸ List.mem_append_cons_self), rfl⟩
  obtain ⟨event, hev, hcontd⟩ := hmem
  unfold startContinuationReplacement at hreq
  split_ifs at hreq
  obtain rfl := Option.some.inj hreq
  subst hhandle
  exact (h event hev).2 _ hcontd

/-- The sweep starts the next run under the type. -/
theorem sweepHistory_ofType (h : ∀ event ∈ history, OfType workflowType event)
    {workflowId : WorkflowId} (hreq : sweepHistory workflowId history = .ok (some request)) :
    request.workflowType = workflowType := by
  unfold sweepHistory at hreq
  split at hreq
  · cases hreq
  · next input override run hnewest =>
    obtain ⟨before, last, after, hspl, hcontd, -⟩ := newest_eq_some_iff.mp hnewest
    have hoverride : override.getD workflowType = workflowType :=
      (h last (hspl ▸ List.mem_append_cons_self)).2 _ hcontd
    split_ifs at hreq
    · cases hreq
    · cases override with
      | some asked =>
        cases hreq
        exact hoverride
      | none =>
        cases hfd : history.findSome? (startedType? run) with
        | none =>
          simp only [continuedRunWorkflowType, hfd] at hreq
          cases hreq
        | some recorded =>
          simp only [continuedRunWorkflowType, hfd] at hreq
          cases hreq
          obtain ⟨event, hev, hstrt⟩ := List.exists_of_findSome?_eq_some hfd
          refine (h event hev).1 recorded ?_
          obtain ⟨envelope, body⟩ := event
          cases body with
          | workflowStarted => exact (Option.ite_none_right_eq_some.mp hstrt).2
          | _ => cases hstrt

theorem startsAgree_of_startsOf (h : StartsOf workflowType history) : StartsAgree history := by
  unfold StartsAgree newest
  cases hlast : history.reverse.findSome? startedAs? with
  | none =>
    rw [List.findSome?_eq_none_iff] at hlast ⊢
    exact fun event hev => hlast event (List.mem_reverse.mpr hev)
  | some last =>
    obtain ⟨event, hev, hstrt⟩ := List.exists_of_findSome?_eq_some hlast
    have hsome : (history.findSome? startedAs?).isSome :=
      List.findSome?_isSome_iff.mpr ⟨event, List.mem_reverse.mp hev, Option.isSome_iff_exists.mpr ⟨last, hstrt⟩⟩
    obtain ⟨first, hfst⟩ := Option.isSome_iff_exists.mp hsome
    obtain ⟨event', hev', hstrt'⟩ := List.exists_of_findSome?_eq_some hfst
    rw [hfst, h event' hev' first hstrt', h event (List.mem_reverse.mp hev) last hstrt]

end KeepsType

/-- **A reopened run passes the type check**, in a workflow that keeps its type: the reopen hands on
that type, and recovery takes the run. -/
theorem reopen_type {env : ReopenEnvironment} {id : WorkflowId} {run : RunId}
    {store last : InMemoryStore} {handed : String × List Event} {workflowType : String}
    (numbered : store.Numbered) (hstarts : StartsOf workflowType (store.history id))
    (h : Prog.Ends FaultyAnswers (reopenCall env id run) store (.ok handed) last) :
    (∃ appended, IsReopen (runSegment (store.history id) run) appended ∧
        last.history id = store.history id ++ appended ∧
      handed.2 = last.history id) ∧
    handed.1 = workflowType ∧ ∃ metadata, startedMetadata id handed.1 handed.2 = .ok metadata := by
  obtain ⟨appended, hreopen, -, hhist, htype⟩ := ends_reopenCall numbered h
  obtain ⟨happd, hpasses⟩ := reopen_type_iff numbered h
  refine ⟨happd, ?_, hpasses.mpr (startsAgree_of_startsOf hstarts)⟩
  obtain ⟨event, hev, hstrt⟩ := List.exists_of_findSome?_eq_some (startedWorkflowType_eq_ok htype)
  rw [hhist, List.mem_append] at hev
  rcases hev with hev | hev
  · exact hstarts event hev handed.1 hstrt
  · rw [hreopen.startedAs?_eq_none event hev] at hstrt
    cases hstrt

/-! ### A chain that changed its type -/

/-- No handle is registered and the supervisor is there. -/
def quietReopen : ReopenEnvironment := ⟨fun _ => 9, none, fun _ => .ok ()⟩

/-- An order that continued as billing and failed there; no writer records one. -/
def migratedChain : List Event :=
  numbered
    [.workflowStarted "order" .empty ⟨0⟩ none ⟨"v1"⟩,
     .workflowContinuedAsNew .empty (some "billing") ⟨0⟩,
     .workflowStarted "billing" .empty ⟨1⟩ (some ⟨0⟩) ⟨"v1"⟩,
     .workflowFailed ⟨"declined", none⟩]

/-- An order that continued as an order and failed. -/
def renewedChain : List Event :=
  numbered
    [.workflowStarted "order" .empty ⟨0⟩ none ⟨"v1"⟩,
     .workflowContinuedAsNew .empty none ⟨0⟩,
     .workflowStarted "order" .empty ⟨1⟩ (some ⟨0⟩) ⟨"v1"⟩,
     .workflowFailed ⟨"declined", none⟩]

/-- The marker of the reopen. -/
def reopenMarker : Event := ⟨⟨5, 9, ⟨0⟩⟩, .workflowReopened ⟨1⟩ []⟩

/-- The reopen of the billing run is durable when recovery refuses the run. -/
theorem migrated_chain_rejected :
    ∃ handed last, Prog.Ends FaultyAnswers (reopenCall quietReopen ⟨0⟩ ⟨1⟩) (storeOf migratedChain)
      (.ok handed) last ∧
      last.history ⟨0⟩ = migratedChain ++ [reopenMarker] ∧ handed.1 = "order" ∧
      ¬ ∃ metadata, startedMetadata ⟨0⟩ handed.1 handed.2 = .ok metadata := by
  have hends : Prog.Ends FaultyAnswers (reopenCall quietReopen ⟨0⟩ ⟨1⟩) (storeOf migratedChain)
      (.ok ("order", migratedChain ++ [reopenMarker]))
      (storeService.run (reopenCall quietReopen ⟨0⟩ ⟨1⟩) (storeOf migratedChain)).2 :=
    ends_faultless (reopenCall quietReopen ⟨0⟩ ⟨1⟩) (storeOf migratedChain)
  refine ⟨_, _, hends, rfl, rfl, ?_⟩
  rintro ⟨metadata, hmetadata⟩
  cases hmetadata

theorem reopen_type_renewedChain :
    ∃ handed last, Prog.Ends FaultyAnswers (reopenCall quietReopen ⟨0⟩ ⟨1⟩) (storeOf renewedChain)
      (.ok handed) last ∧
      handed.1 = "order" ∧ ∃ metadata, startedMetadata ⟨0⟩ handed.1 handed.2 = .ok metadata := by
  have hends : Prog.Ends FaultyAnswers (reopenCall quietReopen ⟨0⟩ ⟨1⟩) (storeOf renewedChain)
      (.ok ("order", renewedChain ++ [reopenMarker]))
      (storeService.run (reopenCall quietReopen ⟨0⟩ ⟨1⟩) (storeOf renewedChain)).2 :=
    ends_faultless (reopenCall quietReopen ⟨0⟩ ⟨1⟩) (storeOf renewedChain)
  have hstarts : StartsOf "order" ((storeOf renewedChain).history ⟨0⟩) := by
    intro event hev recorded hrecd
    change event ∈ renewedChain at hev
    simp only [renewedChain, numbered, List.mapIdx_cons, List.mapIdx_nil, List.mem_cons,
      List.not_mem_nil, or_false] at hev
    rcases hev with rfl | rfl | rfl | rfl <;> cases hrecd
    · rfl
    · rfl
  exact ⟨_, _, hends, (reopen_type (numbered_storeOf rfl) hstarts hends).2⟩

end Aion
