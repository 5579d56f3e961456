import Aion.Lifecycle.Transitions

/-!
# Starting the run after a continue-as-new

A run that continues as new records that it does, and then another run of the same workflow
has to be started. The live path does this when the process of the run exits
(`start_continuation_replacement`, `lifecycle/completion.rs`). After a crash between the two a
sweep at startup does (`sweep_continued_as_new_replacements`, `engine/startup_sweeps.rs`), from
the recorded history alone.

`repair_agrees_with_live`: the two ask for the same start exactly when the run was started in
the namespace `"default"`. The history does not hold the namespace, and the sweep leaves the
option at its default.
-/

namespace Aion

open Scan

/-! ### Start requests -/

/-- Options of a start. -/
structure StartWorkflowOptions where
  /-- An existing workflow to start a run of. -/
  workflowId : Option WorkflowId
  /-- A key that steers the start to a shard. -/
  routingKey : Option String
  /-- The run that continued into this one. -/
  parentRunId : Option RunId
  /-- The exact version to start; without one, the version that is routed to. -/
  loadedVersion : Option PackageVersion
  /-- Attributes recorded with the start. -/
  searchAttributes : SearchAttributes
  /-- The namespace that owns the run. -/
  namespace_ : Option String

/-- `StartWorkflowOptions::default`. -/
def StartWorkflowOptions.default : StartWorkflowOptions := ⟨none, none, none, none, ∅, none⟩

/-- What `start_workflow_with_options` is called with. -/
structure StartRequest where
  workflowType : String
  input : Payload
  options : StartWorkflowOptions

/-- The namespace of the handle that a start registers. -/
def StartWorkflowOptions.owner (options : StartWorkflowOptions) : String :=
  options.namespace_.getD "default"

/-- The handle of a live run. -/
structure WorkflowHandle where
  workflowId : WorkflowId
  runId : RunId
  workflowType : String
  namespace_ : String

/-- The event starts a run that continues `run`. -/
def startsSuccessor (run : RunId) (event : Event) : Bool :=
  match event.body with
  | .workflowStarted _ _ _ (some parentRunId) _ => parentRunId == run
  | _ => false

/-- The check of both paths for a start that is recorded already. -/
def alreadyStarted (history : List Event) (run : RunId) : Bool := history.any (startsSuccessor run)

/-! ### The live path -/

/-- What `start_continuation_replacement` asks for. -/
def replacementRequest (handle : WorkflowHandle) (input : Payload) (workflowType : Option String)
    (parentRunId : RunId) : StartRequest where
  workflowType := workflowType.getD handle.workflowType
  input := input
  options :=
    { workflowId := some handle.workflowId
      routingKey := none
      parentRunId := some parentRunId
      loadedVersion := none
      searchAttributes := ∅
      namespace_ := some handle.namespace_ }

/-- `start_continuation_replacement`. -/
def startContinuationReplacement (history : List Event) (handle : WorkflowHandle) (input : Payload)
    (workflowType : Option String) (parentRunId : RunId) : Option StartRequest :=
  if alreadyStarted history parentRunId then none
  else some (replacementRequest handle input workflowType parentRunId)

/-- The replacement that the exit of a run's process leads to. -/
def exitReplacement (history : List Event) (handle : WorkflowHandle) : Option StartRequest :=
  match terminalOutcomeFromHistory history handle.runId with
  | some (.continuedAsNew input workflowType parentRunId) =>
    startContinuationReplacement history handle input workflowType parentRunId
  | _ => none

/-! ### The sweep -/

/-- What an event continues with. -/
def continuation? (event : Event) : Option (Payload × Option String × RunId) :=
  match event.body with
  | .workflowContinuedAsNew input workflowType parentRunId =>
    some (input, workflowType, parentRunId)
  | _ => none

/-- The type an event starts the run with. -/
def startedType? (run : RunId) (event : Event) : Option String :=
  match event.body with
  | .workflowStarted workflowType _ runId _ _ => if runId = run then some workflowType else none
  | _ => none

/-- `continued_run_workflow_type`. -/
def continuedRunWorkflowType (workflowId : WorkflowId) (history : List Event) (run : RunId) :
    Except EngineError String :=
  match history.findSome? (startedType? run) with
  | some workflowType => .ok workflowType
  | none =>
    .error (.load ("workflow `" ++ workflowId.display ++ "` continued from run `" ++ run.display ++
      "` but that run has no WorkflowStarted event in durable history"))

/-- What `sweep_continued_as_new_replacements` does about a history it has read: the most
recent continuation is the one that may have lost its successor. -/
def sweepHistory (workflowId : WorkflowId) (history : List Event) :
    Except EngineError (Option StartRequest) :=
  match newest continuation? history with
  | none => .ok none
  | some (input, override, continuedRunId) =>
    if alreadyStarted history continuedRunId then .ok none
    else do
      let workflowType ←
        match override with
        | some workflowType => .ok workflowType
        | none => continuedRunWorkflowType workflowId history continuedRunId
      return some ⟨workflowType, input,
        { StartWorkflowOptions.default with workflowId := some workflowId, parentRunId := some continuedRunId }⟩

/-- The sweep of one workflow: it looks only at those whose status says that they continued. -/
def sweepReplacement (workflowId : WorkflowId) (history : List Event) :
    Except EngineError (Option StartRequest) :=
  if statusFromEvents history = .continuedAsNew then sweepHistory workflowId history else .ok none

/-! ### What the two ask for -/

/-- The last run ended by continuing as new, and no start of a successor is recorded. -/
structure Stranded (history : List Event) (run : RunId) (workflowType : String) (input : Payload)
    (override : Option String) : Prop where
  split : ∃ before envelope first parent version body, RunSplit run history before
    ⟨envelope, .workflowStarted workflowType first run parent version⟩ body []
  ended : ∃ envelope, currentLeaseTerminal history =
    some ⟨envelope, .workflowContinuedAsNew input override run⟩
  status : statusFromEvents history = .continuedAsNew
  fresh : alreadyStarted history run = false

/-- Two requests agree in all that a start depends on. -/
structure SameStart (a b : StartRequest) : Prop where
  workflowType : a.workflowType = b.workflowType
  input : a.input = b.input
  parentRunId : a.options.parentRunId = b.options.parentRunId
  loadedVersion : a.options.loadedVersion = b.options.loadedVersion
  searchAttributes : a.options.searchAttributes = b.options.searchAttributes
  owner : a.options.owner = b.options.owner

theorem continuation?_eq_none_of_not_terminal {event : Event}
    (h : isWorkflowTerminal event = false) : continuation? event = none := by
  obtain ⟨envelope, body⟩ := event
  cases body <;> first | rfl | cases h

section Stranded

variable {history : List Event} {run : RunId} {workflowType : String} {input : Payload}
  {override : Option String}

/-- The sweep finds the continuation of the last run. -/
theorem Stranded.newest_continuation (h : Stranded history run workflowType input override) :
    newest continuation? history = some (input, override, run) := by
  obtain ⟨envelope, hended⟩ := h.ended
  obtain ⟨before, after, hspl, -, hafter⟩ := currentLeaseTerminal_eq_some_iff.mp hended
  refine newest_eq_some_iff.mpr ⟨before, _, after, hspl, rfl, fun event hmem => ?_⟩
  exact continuation?_eq_none_of_not_terminal (hafter event hmem).1

/-- The process exit finds the same one. -/
theorem Stranded.terminalOutcome (h : Stranded history run workflowType input override) :
    terminalOutcomeFromHistory history run = some (.continuedAsNew input override run) := by
  obtain ⟨before, envelope, first, parent, version, body, hspl⟩ := h.split
  obtain ⟨terminal, hended⟩ := h.ended
  rw [terminalOutcomeFromHistory, hspl.runSegment_eq, hspl.currentLeaseTerminal_eq, hended]
  exact if_pos rfl

/-- The recorded type is that of the run's start. -/
theorem Stranded.recordedType (h : Stranded history run workflowType input override)
    (workflowId : WorkflowId) :
    continuedRunWorkflowType workflowId history run = .ok workflowType := by
  obtain ⟨before, envelope, first, parent, version, body, hspl⟩ := h.split
  have hfd : history.findSome? (startedType? run) = some workflowType := by
    rw [List.findSome?_eq_some_iff]
    refine ⟨before, _, body ++ [], hspl.split, if_pos rfl, fun event hmem => ?_⟩
    have hother := hspl.first event hmem
    obtain ⟨envelope', eventBody⟩ := event
    cases eventBody with
    | workflowStarted type' input' runId parent' version' =>
      have hne : runId ≠ run := by
        rintro rfl
        simp [startsRun] at hother
      exact if_neg hne
    | _ => rfl
  rw [continuedRunWorkflowType, hfd]

theorem Stranded.exitReplacement (h : Stranded history run workflowType input override)
    {handle : WorkflowHandle} (hrun : handle.runId = run) :
    exitReplacement history handle = some (replacementRequest handle input override run) := by
  rw [Aion.exitReplacement, hrun, h.terminalOutcome]
  simp [startContinuationReplacement, h.fresh]

theorem Stranded.sweepReplacement (h : Stranded history run workflowType input override) (workflowId : WorkflowId) :
    sweepReplacement workflowId history = .ok (some ⟨override.getD workflowType, input,
      { StartWorkflowOptions.default with workflowId := some workflowId, parentRunId := some run }⟩) := by
  rw [Aion.sweepReplacement, if_pos h.status, sweepHistory, h.newest_continuation]
  simp only [h.fresh, h.recordedType]
  cases override <;> rfl

end Stranded

/-- **Crash repair and the live path.** For every history whose last run continued as new
without a successor, both start one. They agree in type, input, parent run, version and
attributes, and they agree in the owning namespace as well exactly when it is `"default"`. -/
theorem repair_agrees_with_live {history : List Event} {run : RunId} {workflowType : String} {input : Payload}
    {override : Option String} (stranded : Stranded history run workflowType input override) (handle : WorkflowHandle)
    (hrun : handle.runId = run) (htype : handle.workflowType = workflowType) :
    ∃ repair live, sweepReplacement handle.workflowId history = .ok (some repair) ∧
      exitReplacement history handle = some live ∧
      (repair.workflowType = live.workflowType ∧ repair.input = live.input ∧
        repair.options.parentRunId = live.options.parentRunId ∧
        repair.options.loadedVersion = live.options.loadedVersion ∧
        repair.options.searchAttributes = live.options.searchAttributes) ∧
      (SameStart repair live ↔ handle.namespace_ = "default") := by
  refine ⟨_, _, stranded.sweepReplacement handle.workflowId, stranded.exitReplacement hrun, ?_, ?_⟩
  · exact ⟨by rw [replacementRequest, htype], rfl, rfl, rfl, rfl⟩
  · constructor
    · intro same
      exact same.owner.symm
    · intro hdefault
      exact ⟨by rw [replacementRequest, htype], rfl, rfl, rfl, rfl, hdefault.symm⟩

/-- A run of `billing` that continued as new. -/
def continuedBilling : List Event :=
  [⟨⟨1, 0, ⟨7⟩⟩, .workflowStarted "billing" Payload.empty ⟨1⟩ none ⟨"v1"⟩⟩,
    ⟨⟨2, 5, ⟨7⟩⟩, .workflowContinuedAsNew Payload.empty none ⟨1⟩⟩]

theorem continuedBilling_stranded : Stranded continuedBilling ⟨1⟩ "billing" Payload.empty none where
  split := ⟨[], _, _, _, _, [⟨⟨2, 5, ⟨7⟩⟩, .workflowContinuedAsNew Payload.empty none ⟨1⟩⟩],
      rfl, by simp, rfl,
    by decide, by simp⟩
  ended := ⟨⟨2, 5, ⟨7⟩⟩, by decide⟩
  status := by decide
  fresh := by decide

/-- The handle of that run, in a namespace. -/
def billingHandle (namespace_ : String) : WorkflowHandle := ⟨⟨7⟩, ⟨1⟩, "billing", namespace_⟩

theorem repair_agrees_with_live_default :
    ∃ repair live, sweepReplacement ⟨7⟩ continuedBilling = .ok (some repair) ∧
      exitReplacement continuedBilling (billingHandle "default") = some live ∧
      SameStart repair live := by
  obtain ⟨repair, live, hrepair, hlive, -, hsame⟩ :=
    repair_agrees_with_live continuedBilling_stranded (billingHandle "default") rfl rfl
  exact ⟨repair, live, hrepair, hlive, hsame.mpr rfl⟩

/-- Of a run in the namespace `tenant-a`, the repair starts the successor in another. -/
theorem repair_leaves_namespace :
    ¬ ∀ repair live, sweepReplacement ⟨7⟩ continuedBilling = .ok (some repair) →
      exitReplacement continuedBilling (billingHandle "tenant-a") = some live → SameStart repair live := by
  intro h
  have hlive : exitReplacement continuedBilling (billingHandle "tenant-a") =
      some (replacementRequest (billingHandle "tenant-a") Payload.empty none ⟨1⟩) :=
    continuedBilling_stranded.exitReplacement rfl
  have hsame := h _ _ (continuedBilling_stranded.sweepReplacement ⟨7⟩) hlive
  exact absurd hsame.owner (by decide)

end Aion
