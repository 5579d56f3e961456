import Aion.Lifecycle.Reopen
import Aion.Store.RunChain

/-!
# Visibility reconciliation

On startup the engine rebuilds the visibility rows from the histories
(`lifecycle/visibility.rs`): one row for each workflow, written when it differs from
the row that is there. The row's run, type and start time are read off the first start
of the history, its status and close time off the end of it.

`reconcile_per_run_iff` says when that is one row for one run: exactly when every
workflow has a single run. After a continue-as-new the row of the first run carries
the status of the last one, and the last run has no row.
-/

namespace Aion

open Scan

/-! ### Projecting a history -/

/-- The error for a history without a start. -/
def noWorkflowStarted : EngineError :=
  .load "workflow history has no WorkflowStarted event for visibility projection"

/-- `started_run_id`. -/
def startedRunId (history : List Event) : Except EngineError RunId :=
  match history.findSome? startedRunId? with
  | some runId => .ok runId
  | none => .error noWorkflowStarted

/-- `visibility_record_from_history`. -/
def visibilityRecordFromHistory (history : List Event) (runId : RunId) :
    Except EngineError VisibilityRecord :=
  projectVisibility noWorkflowStarted history runId

/-! ### Reconciling -/

/-- The rows a reconciliation starts from, by workflow and run. -/
def existingRows (table : VisibilityTable) : AList fun _ : WorkflowId × RunId => WorkflowSummary :=
  table.listWorkflows.foldl (fun rows summary =>
      rows.insert (summary.workflowId, summary.runId) summary) ∅

/-- The row reconciliation projects from a history. -/
def reconciledRecord (history : List Event) : Except EngineError VisibilityRecord := do
  let runId ← startedRunId history
  visibilityRecordFromHistory history runId

/-- What a reconciliation has done when it stops: how it stopped, the rows after it and
the rows it wrote. -/
structure Reconciliation where
  /-- Completed, or the error it stopped at. -/
  result : Except EngineError Unit
  /-- The rows after it. -/
  table : VisibilityTable
  /-- What it wrote, in order. -/
  written : List VisibilityRecord

/-- The loop of `reconcile_visibility` over the histories it reads. -/
def reconcileLoop (existing : AList fun _ : WorkflowId × RunId => WorkflowSummary) :
    List (List Event) → VisibilityTable → Reconciliation
  | [], table => ⟨.ok (), table, []⟩
  | history :: rest, table =>
    match reconciledRecord history with
    | .error error => ⟨.error error, table, []⟩
    | .ok record =>
      if (existing.lookup (record.workflowId, record.runId)).any fun row => row.eq ⟨record⟩ then
        reconcileLoop existing rest table
      else
        let later := reconcileLoop existing rest (table.recordVisibility record)
        { later with written := record :: later.written }

/-- `reconcile_visibility`. -/
def reconcileVisibility (store : InMemoryStore) (table : VisibilityTable) : Reconciliation :=
  reconcileLoop (existingRows table) (store.listWorkflowIds.map store.readHistory) table

/-! ### What a reconciliation leaves -/

variable {history before rest : List Event} {record row : VisibilityRecord}
  {workflowId : WorkflowId} {start : Event} {runId : RunId}

section Loop

variable {existing : AList fun _ : WorkflowId × RunId => WorkflowSummary}
  {histories : List (List Event)}
  {table : VisibilityTable}

/-- What is written is projected from one of the histories. -/
theorem exists_history_of_mem_written (h : row ∈ (reconcileLoop existing histories table).written) :
    ∃ history ∈ histories, reconciledRecord history = .ok row := by
  induction histories generalizing table with
  | nil => simp [reconcileLoop] at h
  | cons history rest ih =>
    unfold reconcileLoop at h
    cases hrec : reconciledRecord history with
    | error error => simp [hrec] at h
    | ok record =>
      simp only [hrec] at h
      split_ifs at h
      · obtain ⟨earlier, hmem, hrow⟩ := ih h
        exact ⟨earlier, .tail _ hmem, hrow⟩
      · rcases List.mem_cons.mp h with rfl | h
        · exact ⟨history, .head _, hrec⟩
        · obtain ⟨earlier, hmem, hrow⟩ := ih h
          exact ⟨earlier, .tail _ hmem, hrow⟩

/-- A row is the one that was there, or the last one written under its key. -/
theorem lookup_reconcileLoop (key : WorkflowId × RunId) :
    ((reconcileLoop existing histories table).table.rows.lookup key = table.rows.lookup key ∧
        ∀ row ∈ (reconcileLoop existing histories table).written,
          key ≠ (row.workflowId, row.runId)) ∨
      ∃ row ∈ (reconcileLoop existing histories table).written, key = (row.workflowId, row.runId) ∧
        (reconcileLoop existing histories table).table.rows.lookup key = some row := by
  induction histories generalizing table with
  | nil => simp [reconcileLoop]
  | cons history rest ih =>
    unfold reconcileLoop
    cases hrec : reconciledRecord history with
    | error error => simp
    | ok record =>
      simp only
      split_ifs
      · exact ih
      · rcases @ih (table.recordVisibility record) with ⟨hkept, hnone⟩ | ⟨row, hmem, hkey, hrow⟩
        · by_cases hkey : key = (record.workflowId, record.runId)
          · refine .inr ⟨record, .head _, hkey, hkept.trans ?_⟩
            rw [hkey]
            exact AList.lookup_insert _
          · refine .inl ⟨hkept.trans (AList.lookup_insert_ne hkey), ?_⟩
            intro row hmem
            rcases List.mem_cons.mp hmem with rfl | hmem
            · exact hkey
            · exact hnone row hmem
        · exact .inr ⟨row, .tail _ hmem, hkey, hrow⟩

/-- A completed reconciliation has projected every history, and wrote the row unless it
found an equal one. -/
theorem written_or_existing (completed : (reconcileLoop existing histories table).result = .ok ())
    (hmem : history ∈ histories) :
    ∃ record, reconciledRecord history = .ok record ∧
      (record ∈ (reconcileLoop existing histories table).written ∨
        ∃ row, existing.lookup (record.workflowId, record.runId) = some row ∧ row.eq ⟨record⟩) := by
  induction histories generalizing table with
  | nil => cases hmem
  | cons head rest ih =>
    unfold reconcileLoop at completed ⊢
    cases hrec : reconciledRecord head with
    | error error => simp [hrec] at completed
    | ok record =>
      simp only [hrec] at completed ⊢
      split_ifs at completed ⊢ with hexisting
      · rcases List.mem_cons.mp hmem with rfl | hmem
        · exact ⟨record, hrec, .inr ((Option.any_eq_true _ _).mp hexisting)⟩
        · exact ih completed hmem
      · rcases List.mem_cons.mp hmem with rfl | hmem
        · exact ⟨record, hrec, .inl (.head _)⟩
        · obtain ⟨row, hrow, hwrit⟩ := ih completed hmem
          exact ⟨row, hrow, hwrit.imp_left (.tail _)⟩

/-- A reconciliation completes when every history can be projected. -/
theorem reconcileLoop_completed
    (h : ∀ history ∈ histories, ∃ record, reconciledRecord history = .ok record) :
    (reconcileLoop existing histories table).result = .ok () := by
  induction histories generalizing table with
  | nil => rfl
  | cons history rest ih =>
    rw [List.forall_mem_cons] at h
    obtain ⟨⟨record, hrec⟩, hrest⟩ := h
    unfold reconcileLoop
    simp only [hrec]
    split_ifs
    · exact ih hrest
    · exact ih hrest

end Loop

theorem lookup_foldl_insert {α κ : Type} [DecidableEq κ] {keyOf : α → κ} {key : κ} {entry : α}
    {entries : List α} {map : AList fun _ : κ => α}
    (h : (entries.foldl (fun m e => m.insert (keyOf e) e) map).lookup key = some entry) :
    (entry ∈ entries ∧ key = keyOf entry) ∨ map.lookup key = some entry := by
  induction entries generalizing map with
  | nil => exact .inr h
  | cons first rest ih =>
    rcases ih h with ⟨hmem, hkey⟩ | hmap
    · exact .inl ⟨.tail _ hmem, hkey⟩
    · by_cases hfst : key = keyOf first
      · rw [hfst, AList.lookup_insert, Option.some.injEq] at hmap
        exact .inl ⟨hmap ▸ .head _, hmap ▸ hfst⟩
      · rw [AList.lookup_insert_ne hfst] at hmap
        exact .inr hmap

/-- The rows a reconciliation compares with are the table's. -/
theorem lookup_of_existingRows {table : VisibilityTable} {key : WorkflowId × RunId}
    {row : WorkflowSummary} (h : (existingRows table).lookup key = some row) :
    table.rows.lookup key = some row.toVisibilityRecord := by
  rcases lookup_foldl_insert h with ⟨hmem, rfl⟩ | hemp
  swap
  · simp at hemp
  rw [VisibilityTable.listWorkflows, List.mem_insertionSort, List.mem_map] at hmem
  obtain ⟨⟨key, record⟩, hent, rfl⟩ := hmem
  have hlook := AList.mem_lookup_iff.mpr hent
  rw [← table.keyed key record hlook]
  exact hlook

theorem exists_first_start (h : ∃ event ∈ history, isWorkflowStarted event) :
    ∃ before envelope workflowType input runId parentRunId packageVersion rest,
      history = before ++ ⟨envelope, .workflowStarted workflowType input runId parentRunId
          packageVersion⟩ :: rest ∧ ∀ event ∈ before, isWorkflowStarted event = false := by
  obtain ⟨before, tail, rfl, hbef, hhead⟩ := exists_first_split isWorkflowStarted history
  cases tail with
  | nil =>
    obtain ⟨event, hmem, hstarts⟩ := h
    rw [List.append_nil] at hmem
    exact absurd hstarts (Bool.eq_false_iff.mp (hbef event hmem))
  | cons start rest =>
    obtain ⟨envelope, body⟩ := start
    have hstart := hhead ⟨envelope, body⟩ rfl
    cases body <;>
      first | exact ⟨before, envelope, _, _, _, _, _, rest, rfl, hbef⟩ | cases hstart

/-- Reading the first start passes over what comes before it. -/
theorem findSome?_of_first {α : Type} {read : Event → Option α}
    {fields : α} (hread : ∀ event, isWorkflowStarted event = false → read event = none)
    (hbef : ∀ event ∈ before, isWorkflowStarted event = false) (hstart : read start = some fields) :
    (before ++ start :: rest).findSome? read = some fields := by
  have hnone : before.findSome? read = none := by
    rw [List.findSome?_eq_none_iff]
    intro event hmem
    exact hread event (hbef event hmem)
  rw [List.findSome?_append, hnone, Option.none_or, List.findSome?_cons, hstart]

theorem startedFields?_eq_none {event : Event} (h : isWorkflowStarted event = false) :
    startedFields? event = none := by
  obtain ⟨envelope, body⟩ := event
  cases body <;> first | rfl | cases h

/-- The row projected from a history whose first start is known. -/
theorem reconciledRecord_of_split {envelope : EventEnvelope}
    {workflowType : String} {input : Payload} {parentRunId : Option RunId}
    {packageVersion : PackageVersion} (hbef : ∀ event ∈ before, isWorkflowStarted event = false) :
    let history := before ++ ⟨envelope, .workflowStarted workflowType input runId parentRunId
      packageVersion⟩ :: rest
    reconciledRecord history = .ok {
      workflowId := envelope.workflowId, runId, workflowType, startTime := envelope.recordedAt
      status := statusFromEvents history, closeTime := terminalRecordedAt history
      failedStep := (failureProjection history).1, failureReason := (failureProjection history).2
      searchAttributes := searchAttributesFromEvents history } := by
  intro history
  have hrun : history.findSome? startedRunId? = some runId :=
    findSome?_of_first (fun event => startedRunId?_eq_none_iff.mpr) hbef rfl
  have hfields : history.findSome? startedFields? =
    some (envelope.workflowId, workflowType, envelope.recordedAt) :=
    findSome?_of_first (fun event => startedFields?_eq_none) hbef rfl
  simp only [reconciledRecord, startedRunId, hrun, visibilityRecordFromHistory,
    projectVisibility, hfields]
  rfl

theorem reconciledRecord_of_none (h : ∀ event ∈ history, isWorkflowStarted event = false) :
    reconciledRecord history = .error noWorkflowStarted := by
  have hrun : history.findSome? startedRunId? = none := by
    rw [List.findSome?_eq_none_iff]
    intro event hmem
    exact startedRunId?_eq_none_iff.mpr (h event hmem)
  simp only [reconciledRecord, startedRunId, hrun]
  rfl

/-- What the projected row says, read off the first start and the whole history. -/
theorem reconciledRecord_eq_ok (h : reconciledRecord history = .ok record) :
    ∃ before envelope input parentRunId packageVersion rest,
      history = before ++ ⟨envelope, .workflowStarted record.workflowType input record.runId
          parentRunId
          packageVersion⟩ :: rest ∧
        (∀ event ∈ before, isWorkflowStarted event = false) ∧
        record.workflowId = envelope.workflowId ∧ record.startTime = envelope.recordedAt ∧
        record.status = statusFromEvents history ∧
      record.closeTime = terminalRecordedAt history := by
  by_cases hstrt : ∃ event ∈ history, isWorkflowStarted event
  · obtain ⟨before, envelope, workflowType, input, runId, parentRunId, packageVersion, rest, rfl, hbef⟩ :=
      exists_first_start hstrt
    rw [reconciledRecord_of_split hbef] at h
    cases h
    exact ⟨before, envelope, input, parentRunId, packageVersion, rest, rfl, hbef, rfl, rfl, rfl, rfl⟩
  · push Not at hstrt
    rw [reconciledRecord_of_none (by simpa using hstrt)] at h
    cases h

/-- A history can be projected when a run has started in it. -/
theorem exists_reconciledRecord_iff :
    (∃ record, reconciledRecord history = .ok record) ↔
      ∃ event ∈ history, isWorkflowStarted event := by
  constructor
  · rintro ⟨record, h⟩
    obtain ⟨before, envelope, input, parentRunId, packageVersion, rest, rfl, -⟩ :=
      reconciledRecord_eq_ok h
    exact ⟨_, List.mem_append_right _ (.head _), rfl⟩
  · intro hstrt
    obtain ⟨before, envelope, workflowType, input, runId, parentRunId, packageVersion, rest, rfl, hbef⟩ :=
      exists_first_start hstrt
    exact ⟨_, reconciledRecord_of_split hbef⟩

/-! ### Rows and runs -/

/-- The row carries the type, start time, status and close time of its own run's
segment, and what the run chain says of the run. -/
structure DescribesRun (history : List Event) (row : VisibilityRecord) : Prop where
  /-- Type and start time are those of the run's start. -/
  start : ∃ envelope input parentRunId packageVersion rest,
    runSegment history row.runId =
        ⟨envelope, .workflowStarted row.workflowType input row.runId parentRunId packageVersion⟩ :: rest ∧
      row.startTime = envelope.recordedAt
  /-- The status is that of the run's segment. -/
  status : row.status = statusFromEvents (runSegment history row.runId)
  /-- The close time is that of the run's segment. -/
  closeTime : row.closeTime = (currentLeaseTerminal (runSegment history row.runId)).map
    Event.recordedAt
  /-- The run chain's summary of the run agrees. -/
  chain : ∀ summaries, runChainFromHistory history = .ok summaries →
    ∃ summary ∈ summaries, summary.runId = row.runId ∧ summary.status = row.status ∧
      summary.startedAt = row.startTime ∧ summary.closedAt = row.closeTime

/-- A row that compares equal describes the same run. -/
theorem DescribesRun.of_eq (h : DescribesRun history record)
    (heq : (WorkflowSummary.mk row).eq ⟨record⟩) : DescribesRun history row := by
  simp only [WorkflowSummary.eq, Bool.and_eq_true, beq_iff_eq] at heq
  obtain ⟨⟨⟨⟨⟨⟨⟨⟨-, hrun⟩, htype⟩, hstat⟩, hstart⟩, hclose⟩, -⟩, -⟩, -⟩ := heq
  obtain ⟨h1, h2, h3, h4⟩ := h
  rw [← hrun] at h1 h2 h3 h4
  rw [← htype, ← hstart] at h1
  rw [← hstat] at h2
  rw [← hclose] at h3
  rw [← hstat, ← hstart, ← hclose] at h4
  exact ⟨h1, h2, h3, h4⟩

/-- The history of a single run, with what the projected row says of it. -/
theorem runSplit_of_single (hrec : reconciledRecord history = .ok record)
    (hsingle : history.countP isWorkflowStarted = 1) :
    ∃ before envelope input parentRunId packageVersion rest,
      RunSplit record.runId history before
          ⟨envelope, .workflowStarted record.workflowType input record.runId parentRunId
              packageVersion⟩
          rest [] ∧
        (∀ event ∈ before, isWorkflowStarted event = false) ∧
          record.startTime = envelope.recordedAt ∧
        record.status = statusFromEvents history ∧
      record.closeTime = terminalRecordedAt history := by
  obtain ⟨before, envelope, input, parentRunId, packageVersion, rest, hspl, hbef, -, hstart, hstat,
    hclose⟩ := reconciledRecord_eq_ok hrec
  refine ⟨before, envelope, input, parentRunId, packageVersion, rest, ?_, hbef, hstart,
      hstat, hclose⟩
  refine ⟨by rw [hspl, List.append_nil], ?_, beq_self_eq_true _, ?_, by simp⟩
  · intro event hmem
    rw [Bool.eq_false_iff]
    intro hstarts
    exact absurd (isWorkflowStarted_of_startsRun hstarts) (Bool.eq_false_iff.mp (hbef event hmem))
  · rw [hspl, List.countP_append, List.countP_cons_of_pos rfl] at hsingle
    have hzero : rest.countP isWorkflowStarted = 0 := by omega
    rw [List.countP_eq_zero] at hzero
    intro event hmem
    exact Bool.eq_false_iff.mpr (hzero event hmem)

/-- The row projected from a history with one start describes that run, the last one. -/
theorem describesRun_of_single (hrec : reconciledRecord history = .ok record)
    (hord : Ordered history) (hsingle : history.countP isWorkflowStarted = 1) :
    DescribesRun history record ∧ lastRunId? history = some record.runId := by
  obtain ⟨before, envelope, input, parentRunId, packageVersion, rest, hrun, hbef, hstart,
      hstat, hclose⟩ :=
    runSplit_of_single hrec hsingle
  have hseg := hrun.runSegment_eq
  refine ⟨⟨⟨envelope, input, parentRunId, packageVersion, rest, hseg, hstart⟩, ?_, ?_, ?_⟩,
    hrun.lastRunId?_eq⟩
  · rw [hseg, hrun.statusFromEvents_eq, hstat]
  · rw [hseg, hrun.currentLeaseTerminal_eq, hclose, terminalRecordedAt]
  · intro summaries hchain
    have hspl := hrun.split
    rw [List.append_nil] at hspl
    rw [runChainFromHistory_single hord hspl hbef hrun.within] at hchain
    rw [orderByParentChain_single hchain]
    refine ⟨_, .head _, rfl, ?_, hstart.symm, ?_⟩
    · rw [hstat, ← hrun.statusFromEvents_eq]
    · rw [hclose, terminalRecordedAt, ← hrun.currentLeaseTerminal_eq]

/-- Reconciling these histories leaves rows for runs, whatever rows were there: every row
it writes describes its own run, and so does a row of each workflow's latest run. -/
def ReconcilesPerRun (store : InMemoryStore) : Prop :=
  ∀ table, (reconcileVisibility store table).result = .ok () →
    (∀ row ∈ (reconcileVisibility store table).written,
      DescribesRun (store.readHistory row.workflowId) row) ∧
    ∀ workflowId ∈ store.listWorkflowIds, ∀ runId, lastRunId? (store.readHistory workflowId) =
      some runId →
      ∃ row, (reconcileVisibility store table).table.rows.lookup (workflowId, runId) = some row ∧
        DescribesRun (store.readHistory workflowId) row

/-- No two runs of the history have the same identifier. -/
def DistinctRuns (history : List Event) : Prop := (history.filterMap startedRunId?).Nodup

/-- With a second start, the last run is another than the first. -/
theorem lastRunId?_ne_of_second_start
    (hdist : DistinctRuns history) (hspl : history = before ++ start :: rest)
    (hstart : startedRunId? start = some runId) (hsnd : ∃ event ∈ rest, isWorkflowStarted event) :
    ∃ last, lastRunId? history = some last ∧ last ≠ runId := by
  cases hlast : newest startedRunId? rest with
  | none =>
    obtain ⟨event, hmem, hstrt⟩ := hsnd
    have := startedRunId?_eq_none_iff.mp (newest_eq_none_iff.mp hlast event hmem)
    rw [hstrt] at this
    cases this
  | some last =>
    refine ⟨last, ?_, ?_⟩
    · rw [lastRunId?, hspl, newest_append, newest_cons, hlast]
      rfl
    · rintro rfl
      obtain ⟨_, event, _, rfl, hev, -⟩ := newest_eq_some_iff.mp hlast
      rw [DistinctRuns, hspl, List.filterMap_append, List.filterMap_cons_some hstart] at hdist
      have hnot := (List.nodup_cons.mp (List.nodup_append.mp hdist).2.1).1
      exact hnot (List.mem_filterMap.mpr ⟨event, by simp, hev⟩)

section Store

variable {store : InMemoryStore}

theorem mem_histories :
    history ∈ store.listWorkflowIds.map store.readHistory ↔
      ∃ workflowId ∈ store.listWorkflowIds, store.readHistory workflowId = history :=
  List.mem_map

/-- The workflow a projected row is of is the one whose history it was projected from. -/
theorem workflowId_of_reconciledRecord
    (own : ∀ event ∈ store.readHistory workflowId, event.workflowId = workflowId)
    (hrec : reconciledRecord (store.readHistory workflowId) = .ok record) :
    record.workflowId = workflowId := by
  obtain ⟨before, envelope, input, parentRunId, packageVersion, rest, hspl, -, hid, -⟩ :=
    reconciledRecord_eq_ok hrec
  rw [hid]
  apply own ⟨envelope, .workflowStarted record.workflowType input record.runId parentRunId
      packageVersion⟩
  rw [hspl]
  exact List.mem_append_right _ (.head _)

/-- The rows written are those of the workflows' own histories. -/
theorem reconciledRecord_of_mem_written {table : VisibilityTable}
    (own : ∀ workflowId, ∀ event ∈ store.readHistory workflowId, event.workflowId = workflowId)
    (h : row ∈ (reconcileVisibility store table).written) :
    row.workflowId ∈ store.listWorkflowIds ∧
      reconciledRecord (store.readHistory row.workflowId) = .ok row := by
  obtain ⟨history, hmem, hrow⟩ := exists_history_of_mem_written h
  obtain ⟨workflowId, hlisted, rfl⟩ := mem_histories.mp hmem
  have hid := workflowId_of_reconciledRecord (own workflowId) hrow
  rw [hid]
  exact ⟨hlisted, hrow⟩

/-- After a completed reconciliation the row of a workflow's first run has the fields
projected from its history. -/
theorem exists_row_of_completed {table : VisibilityTable}
    (own : ∀ workflowId, ∀ event ∈ store.readHistory workflowId, event.workflowId = workflowId)
    (completed : (reconcileVisibility store table).result = .ok ())
    (hlisted : workflowId ∈ store.listWorkflowIds)
    (hrec : reconciledRecord (store.readHistory workflowId) = .ok record) :
    ∃ row, (reconcileVisibility store table).table.rows.lookup
      (workflowId, record.runId) = some row ∧
      (row = record ∨ (WorkflowSummary.mk row).eq ⟨record⟩) := by
  have hid := workflowId_of_reconciledRecord (own workflowId) hrec
  rcases lookup_reconcileLoop (workflowId, record.runId) with ⟨hkept, hnone⟩ | ⟨row, hmem,
    hkey, hrow⟩
  · -- nothing was written under the key, so an equal row was there
    obtain ⟨record', hrec', hcase⟩ :=
      written_or_existing completed (mem_histories.mpr ⟨workflowId, hlisted, rfl⟩)
    obtain rfl : record = record' := Except.ok.inj (hrec.symm.trans hrec')
    rcases hcase with hwrit | ⟨row, hexisting, heq⟩
    · exact absurd (by rw [hid]) (hnone record hwrit)
    · rw [hid] at hexisting
      exact ⟨row.toVisibilityRecord, hkept.trans (lookup_of_existingRows hexisting), .inr heq⟩
  · refine ⟨row, hrow, .inl ?_⟩
    obtain ⟨-, hown⟩ := reconciledRecord_of_mem_written own hmem
    obtain ⟨rfl, -⟩ := Prod.mk.inj hkey
    exact Except.ok.inj (hown.symm.trans hrec)

/-- Once a workflow has a second start, its last run can be left without a row. -/
theorem not_reconcilesPerRun_of_second_start
    (own : ∀ workflowId, ∀ event ∈ store.readHistory workflowId, event.workflowId = workflowId)
    (distinct : ∀ workflowId, DistinctRuns (store.readHistory workflowId))
    (started : ∀ id ∈ store.listWorkflowIds, ∃ event ∈ store.readHistory id,
        isWorkflowStarted event) (hlisted : workflowId ∈ store.listWorkflowIds)
    (hmany : (store.readHistory workflowId).countP isWorkflowStarted ≠ 1) :
    ¬ ReconcilesPerRun store := by
  intro perRun
  have completed : (reconcileVisibility store .empty).result = .ok () := by
    apply reconcileLoop_completed
    intro history hmem
    obtain ⟨id, hid, rfl⟩ := mem_histories.mp hmem
    exact exists_reconciledRecord_iff.mpr (started id hid)
  obtain ⟨record, hrec⟩ := exists_reconciledRecord_iff.mpr (started workflowId hlisted)
  obtain ⟨before, envelope, input, parentRunId, packageVersion, rest, hspl, hbef, -⟩ :=
    reconciledRecord_eq_ok hrec
  have hsnd : ∃ event ∈ rest, isWorkflowStarted event := by
    rw [← List.countP_pos_iff]
    have hzero : before.countP isWorkflowStarted = 0 := by
      rw [List.countP_eq_zero]
      intro event hmem
      exact Bool.eq_false_iff.mp (hbef event hmem)
    rw [hspl, List.countP_append, List.countP_cons_of_pos rfl, hzero] at hmany
    omega
  obtain ⟨last, hlast, hne⟩ := lastRunId?_ne_of_second_start (distinct workflowId) hspl rfl hsnd
  obtain ⟨row, hrow, -⟩ := (perRun .empty completed).2 workflowId hlisted last hlast
  -- the only row written for the workflow is that of its first run
  rcases lookup_reconcileLoop (workflowId, last) with ⟨hkept, -⟩ | ⟨row', hmem, hkey, -⟩
  · rw [reconcileVisibility, hkept] at hrow
    simp [VisibilityTable.empty] at hrow
  · obtain ⟨-, hown⟩ := reconciledRecord_of_mem_written own hmem
    obtain ⟨rfl, rfl⟩ := Prod.mk.inj hkey
    exact hne (congrArg VisibilityRecord.runId (Except.ok.inj (hown.symm.trans hrec)))

/-- Workflows with one run each are reconciled run by run. -/
theorem reconcilesPerRun_of_single
    (own : ∀ workflowId, ∀ event ∈ store.readHistory workflowId, event.workflowId = workflowId)
    (single : ∀ workflowId ∈ store.listWorkflowIds,
      (store.readHistory workflowId).countP isWorkflowStarted = 1) : ReconcilesPerRun store := by
  intro table completed
  refine ⟨?_, ?_⟩
  · intro row hmem
    obtain ⟨hlisted, hrow⟩ := reconciledRecord_of_mem_written own hmem
    exact (describesRun_of_single hrow (store.ordered_readHistory _) (single _ hlisted)).1
  · intro workflowId hlisted runId hlast
    obtain ⟨record, hrec, -⟩ :=
      written_or_existing completed (mem_histories.mpr ⟨workflowId, hlisted, rfl⟩)
    obtain ⟨hdescribes, hrun⟩ :=
      describesRun_of_single hrec (store.ordered_readHistory _) (single _ hlisted)
    obtain ⟨row, hrow, hsame⟩ := exists_row_of_completed own completed hlisted hrec
    obtain rfl : record.runId = runId := Option.some.inj (hrun.symm.trans hlast)
    refine ⟨row, hrow, ?_⟩
    rcases hsame with rfl | heq
    · exact hdescribes
    · exact hdescribes.of_eq heq

/-- **Reconciliation is per run only for single runs.** For histories whose events carry
their workflow and whose runs have different identifiers, reconciling leaves one row for
one run exactly when it stops at a history without a start or every workflow has a
single start. -/
theorem reconcile_per_run_iff
    (own : ∀ workflowId, ∀ event ∈ store.readHistory workflowId, event.workflowId = workflowId)
    (distinct : ∀ workflowId, DistinctRuns (store.readHistory workflowId)) :
    ReconcilesPerRun store ↔
      (∃ workflowId ∈ store.listWorkflowIds,
          (store.readHistory workflowId).countP isWorkflowStarted = 0) ∨
        ∀ workflowId ∈ store.listWorkflowIds,
          (store.readHistory workflowId).countP isWorkflowStarted = 1 := by
  constructor
  · intro perRun
    by_contra hnot
    push Not at hnot
    obtain ⟨hstrt, workflowId, hlisted, hmany⟩ := hnot
    refine not_reconcilesPerRun_of_second_start own distinct ?_ hlisted hmany perRun
    intro id hid
    exact List.countP_pos_iff.mp (Nat.pos_of_ne_zero (hstrt id hid))
  · rintro (⟨workflowId, hlisted, hzero⟩ | hsingle)
    · intro table completed
      obtain ⟨record, hrec, -⟩ :=
        written_or_existing completed (mem_histories.mpr ⟨workflowId, hlisted, rfl⟩)
      have hpos := List.countP_pos_iff.mpr (exists_reconciledRecord_iff.mp ⟨record, hrec⟩)
      omega
    · exact reconcilesPerRun_of_single own hsingle

end Store

/-- A store with one history. -/
def storeOf (history : List Event) : InMemoryStore := ⟨(∅ : AList _).insert ⟨0⟩ history, .empty⟩

theorem readHistory_storeOf_of_ne (h : workflowId ≠ ⟨0⟩) :
    (storeOf history).readHistory workflowId = [] := by
  have hlook : (storeOf history).histories.lookup workflowId = none := AList.lookup_insert_ne h
  simp only [InMemoryStore.readHistory, hlook]

/-- A workflow with one completed run. -/
def singleRunStore : InMemoryStore :=
  storeOf (numbered [.workflowStarted "order" .empty ⟨0⟩ none ⟨"v1"⟩, .workflowCompleted .empty])

theorem reconcile_per_run_singleRunStore : ReconcilesPerRun singleRunStore := by
  have own : ∀ workflowId, ∀ event ∈ singleRunStore.readHistory workflowId, event.workflowId = workflowId := by
    intro workflowId event hmem
    by_cases hid : workflowId = ⟨0⟩
    · subst hid
      revert event
      decide
    · rw [singleRunStore, readHistory_storeOf_of_ne hid] at hmem
      cases hmem
  have distinct : ∀ workflowId, DistinctRuns (singleRunStore.readHistory workflowId) := by
    intro workflowId
    by_cases hid : workflowId = ⟨0⟩
    · subst hid
      unfold DistinctRuns
      decide
    · rw [singleRunStore, readHistory_storeOf_of_ne hid]
      exact List.nodup_nil
  exact (reconcile_per_run_iff own distinct).mpr (.inr (by decide))

/-- A run continued as a new one, which is still running. -/
def continuedStore : InMemoryStore :=
  storeOf (numbered
    [.workflowStarted "order" .empty ⟨0⟩ none ⟨"v1"⟩,
     .workflowContinuedAsNew .empty none ⟨0⟩,
     .workflowStarted "order" .empty ⟨1⟩ (some ⟨0⟩) ⟨"v1"⟩])

/-- The row written for the first run says it is running, which its segment does not. -/
theorem continuedStore_not_per_run : ¬ ReconcilesPerRun continuedStore := by
  intro perRun
  obtain ⟨hwrit, -⟩ := perRun .empty rfl
  have hmem : ∀ row ∈ (reconcileVisibility continuedStore .empty).written,
      row.status = statusFromEvents (runSegment (continuedStore.readHistory row.workflowId) row.runId) :=
    fun row hrow => (hwrit row hrow).status
  exact absurd (hmem _ (.head _)) (by decide)

end Aion
