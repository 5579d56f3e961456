import Aion.Store.Memory

/-!
# Run chains

A workflow's history holds its runs one after another. `run_chain_from_history`
(`aion-store/src/run_chain.rs`) cuts it at every start, projects each slice and orders
the runs by their parent links; starts that do not form one chain are an error.
-/

namespace Aion

/-- Summary of one run of a workflow's continuation chain. -/
structure RunSummary where
  /-- The run. -/
  runId : RunId
  /-- The run that continued as this one. -/
  parentRunId : Option RunId
  /-- Status of the run's slice. -/
  status : WorkflowStatus
  /-- When the run started. -/
  startedAt : Instant
  /-- When the run closed. -/
  closedAt : Option Instant
  deriving DecidableEq

/-- The events before the first start, and a slice for each start. -/
def cutAtStarts : List Event → List Event × List (List Event)
  | [] => ([], [])
  | event :: rest =>
    let (head, slices) := cutAtStarts rest
    if isWorkflowStarted event then ([], (event :: head) :: slices) else (event :: head, slices)

/-- `project_run_summary`. -/
def projectRunSummary (events : List Event) : Except StoreError RunSummary :=
  match events with
  | ⟨envelope, .workflowStarted _ _ runId parentRunId _⟩ :: _ =>
    .ok { runId, parentRunId, status := statusFromEvents events, startedAt := envelope.recordedAt,
          closedAt := (currentLeaseTerminal events).map Event.recordedAt }
  | _ => .error (.backend "run slice does not begin with WorkflowStarted")

/-- The children of each parent run; two children of one parent are an error. -/
def childrenByParent (summaries : List RunSummary) :
    Except StoreError (AList fun _ : RunId => RunSummary) :=
  summaries.foldlM (fun children summary =>
    match summary.parentRunId with
    | none => .ok children
    | some parentRunId =>
      if parentRunId ∈ children then
        .error (.backend "run chain contains multiple children for the same parent run")
      else .ok (children.insert parentRunId summary)) ∅

variable {before events : List Event} {runId : RunId}

theorem length_erase_lt {children : AList fun _ : RunId => RunSummary} {child : RunSummary}
    (h : children.lookup runId = some child) :
    (children.erase runId).keys.length < children.keys.length := by
  have hmem : runId ∈ children.keys := AList.mem_keys.mp (AList.lookup_isSome.mp (by rw [h]; rfl))
  have hpos := List.length_pos_of_mem hmem
  rw [AList.keys_erase, List.length_erase_of_mem hmem]
  omega

/-- The loop of `order_by_parent_chain`: from run to child, until a run has none. -/
def followChain (current : RunSummary) (seen : List RunId)
    (children : AList fun _ : RunId => RunSummary) : Except StoreError (List RunSummary) :=
  if current.runId ∈ seen then .error (.backend "run chain contains a cycle")
  else
    match _h : children.lookup current.runId with
    | some child =>
      (followChain child (current.runId :: seen) (children.erase current.runId)).map (current :: ·)
    | none =>
      if children.keys ≠ [] then
        .error (.backend "run chain contains parent links that are not reachable from the root")
      else .ok [current]
termination_by children.keys.length
decreasing_by exact length_erase_lt ‹_›

/-- `order_by_parent_chain`. -/
def orderByParentChain (summaries : List RunSummary) : Except StoreError (List RunSummary) :=
  if summaries = [] then .ok []
  else
    let roots := summaries.filter fun summary => summary.parentRunId.isNone
    if roots.length ≠ 1 then
      .error (.backend ("run chain must contain exactly one root, found " ++ toString roots.length))
    else do
      let children ← childrenByParent summaries
      match roots.getLast? with
      | none => .error (.backend "run chain root disappeared during ordering")
      | some root => followChain root [] children

/-- `run_chain_from_history`. -/
def runChainFromHistory (history : List Event) : Except StoreError (List RunSummary) := do
  let summaries ←
    (cutAtStarts (InMemoryStore.historyInSequenceOrder history)).2.mapM projectRunSummary
  orderByParentChain summaries

theorem cutAtStarts_of_none (h : ∀ event ∈ events, isWorkflowStarted event = false) :
    cutAtStarts events = (events, []) := by
  induction events with
  | nil => rfl
  | cons event rest ih =>
    rw [List.forall_mem_cons] at h
    simp [cutAtStarts, ih h.2, h.1]

theorem cutAtStarts_append (h : ∀ event ∈ before, isWorkflowStarted event = false) :
    (cutAtStarts (before ++ events)).2 = (cutAtStarts events).2 := by
  induction before with
  | nil => rfl
  | cons event rest ih =>
    rw [List.forall_mem_cons] at h
    simp [cutAtStarts, ih h.2, h.1]

/-- A history with one start has one slice. -/
theorem cutAtStarts_single {body : List Event} {start : Event}
    (hbef : ∀ event ∈ before, isWorkflowStarted event = false) (hstart : isWorkflowStarted start)
    (hbody : ∀ event ∈ body, isWorkflowStarted event = false) :
    (cutAtStarts (before ++ start :: body)).2 = [start :: body] := by
  rw [cutAtStarts_append hbef]
  simp [cutAtStarts, cutAtStarts_of_none hbody, hstart]

theorem followChain_empty (current : RunSummary) : followChain current [] ∅ = .ok [current] := by
  rw [followChain]
  simp

/-- A run chain of one run is that run's summary. -/
theorem orderByParentChain_single {summary : RunSummary} {chain : List RunSummary}
    (h : orderByParentChain [summary] = .ok chain) : chain = [summary] := by
  cases hpar : summary.parentRunId with
  | some parentRunId => simp [orderByParentChain, hpar] at h
  | none =>
    have hchildren : childrenByParent [summary] = .ok ∅ := by simp [childrenByParent, hpar]
    have hfollow : orderByParentChain [summary] = followChain summary [] ∅ := by
      simp [orderByParentChain, hpar, hchildren]
      rfl
    rw [hfollow, followChain_empty] at h
    exact (Except.ok.inj h).symm

/-- The run chain of a history with one start, before it is ordered. -/
theorem runChainFromHistory_single {history rest : List Event} {envelope : EventEnvelope}
    {workflowType : String} {input : Payload} {parentRunId : Option RunId}
    {packageVersion : PackageVersion} (hord : Ordered history)
    (hspl : history = before ++ ⟨envelope, .workflowStarted workflowType input runId parentRunId
      packageVersion⟩ :: rest)
    (hbef : ∀ event ∈ before, isWorkflowStarted event = false)
    (hrest : ∀ event ∈ rest, isWorkflowStarted event = false) :
    let segment := ⟨envelope, .workflowStarted workflowType input runId parentRunId packageVersion⟩ :: rest
    runChainFromHistory history = orderByParentChain [{
      runId, parentRunId, status := statusFromEvents segment, startedAt := envelope.recordedAt,
      closedAt := (currentLeaseTerminal segment).map Event.recordedAt }] := by
  intro segment
  have hslices : (cutAtStarts (InMemoryStore.historyInSequenceOrder history)).2 = [segment] := by
    rw [InMemoryStore.historyInSequenceOrder, List.Pairwise.insertionSort_eq hord, hspl]
    exact cutAtStarts_single hbef rfl hrest
  rw [runChainFromHistory, hslices]
  rfl

end Aion
