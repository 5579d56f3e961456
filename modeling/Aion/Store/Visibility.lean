import Aion.Core.Filter

/-!
# Visibility rows

The visibility projection has a row for each run (`aion-store/src/visibility.rs`), kept
under its own workflow and run. A row is projected from a workflow's history: run, type
and start time from the first start, status and close time from the end.
-/

namespace Aion

/-- The row of a run in the visibility projection. -/
structure VisibilityRecord where
  /-- Logical workflow identifier. -/
  workflowId : WorkflowId
  /-- Concrete run identifier. -/
  runId : RunId
  /-- Workflow type recorded when the execution started. -/
  workflowType : String
  /-- Current workflow status. -/
  status : WorkflowStatus
  /-- When the execution started. -/
  startTime : Instant
  /-- When the execution closed, if terminal. -/
  closeTime : Option Instant
  /-- The step that failed, for a failed workflow. -/
  failedStep : Option String
  /-- The failure's message, for a failed workflow. -/
  failureReason : Option String
  /-- Search attributes. -/
  searchAttributes : SearchAttributes

/-- What visibility queries return; the same fields as the row. -/
structure WorkflowSummary extends VisibilityRecord

/-- The derived `==` of summaries. -/
def WorkflowSummary.eq (a b : WorkflowSummary) : Bool :=
  a.workflowId == b.workflowId && a.runId == b.runId && a.workflowType == b.workflowType &&
    a.status == b.status && a.startTime == b.startTime && a.closeTime == b.closeTime &&
    a.failedStep == b.failedStep && a.failureReason == b.failureReason &&
    searchAttributesEq a.searchAttributes b.searchAttributes

/-- The visibility rows, each under its own workflow and run. -/
structure VisibilityTable where
  /-- The rows. -/
  rows : AList fun _ : WorkflowId × RunId => VisibilityRecord
  /-- A row's key is its own. -/
  keyed : ∀ key row, rows.lookup key = some row → key = (row.workflowId, row.runId)

/-- No rows. -/
def VisibilityTable.empty : VisibilityTable := ⟨∅, by simp⟩

/-- `record_visibility`. -/
def VisibilityTable.recordVisibility (table : VisibilityTable) (record : VisibilityRecord) :
    VisibilityTable where
  rows := table.rows.insert (record.workflowId, record.runId) record
  keyed := by
    intro key row hrow
    by_cases hkey : key = (record.workflowId, record.runId)
    · subst hkey
      rw [AList.lookup_insert, Option.some.injEq] at hrow
      rw [hrow]
    · rw [AList.lookup_insert_ne hkey] at hrow
      exact table.keyed key row hrow

/-- `list_workflows` with the default filter, which every row matches: ordered by start
time, then by the text of the workflow identifier. -/
def VisibilityTable.listWorkflows (table : VisibilityTable) : List WorkflowSummary :=
  (table.rows.entries.map fun entry => WorkflowSummary.mk entry.2).insertionSort fun left right =>
    left.startTime < right.startTime ∨
      (left.startTime = right.startTime ∧ left.workflowId.display ≤ right.workflowId.display)

/-! ### Projecting a history -/

/-- What the projection reads off a start. -/
def startedFields? (event : Event) : Option (WorkflowId × String × Instant) :=
  match event.body with
  | .workflowStarted workflowType .. => some (event.workflowId, workflowType, event.recordedAt)
  | _ => none

/-- `terminal_recorded_at`. -/
def terminalRecordedAt (history : List Event) : Option Instant :=
  (currentLeaseTerminal history).map Event.recordedAt

/-- The row of a run, projected from a history. The engine and the recorder have it each
under the name `visibility_record_from_history`, with an error of their own for a
history without a start. -/
def projectVisibility {ε : Type} (noStart : ε) (history : List Event) (runId : RunId) :
    Except ε VisibilityRecord :=
  match history.findSome? startedFields? with
  | none => .error noStart
  | some (workflowId, workflowType, startTime) =>
    let (failedStep, failureReason) := failureProjection history
    .ok {
      workflowId, runId, workflowType, startTime, failedStep, failureReason
      status := statusFromEvents history
      closeTime := terminalRecordedAt history
      searchAttributes := searchAttributesFromEvents history }

end Aion
