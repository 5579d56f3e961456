import Aion.Store.LibSqlOutbox
import Aion.Store.OutboxTable

/-!
# The libSQL outbox refines the outbox

The `outbox` table holds the columns of the rows of the outbox, in the same order
(`Encodes`), and every statement does to the columns what the outbox does to the rows:
statuses are compared by their tokens, instants by their texts, which have the order of the
instants in the years 0 to 9999. One thing is lost: `REARM_OUTBOX_SQL` names no run, so a
re-arm works as one of rows without their runs (`execute_refines`).
-/

namespace Aion.LibSqlOutbox

open OutboxTable Sorting

variable {Bytes : Type} {codec : OutboxCodec Bytes}

/-- The table holds the columns of the rows. -/
abbrev Encodes (codec : OutboxCodec Bytes) (table : LibSqlOutbox Bytes) (rows : OutboxTable) :
    Prop :=
  KeyedTable.Encodes (columnsOf codec) table rows

/-! ### Columns -/

theorem columnsOf_dispatchKey (row : OutboxRow) :
    (columnsOf codec row).dispatchKey = row.dispatchKey := rfl

theorem columnsOf_status (row : OutboxRow) : (columnsOf codec row).status = row.status.asStr := rfl

theorem columnsOf_visibleAfter (row : OutboxRow) :
    (columnsOf codec row).visibleAfter = Rfc3339.toText row.visibleAfter := rfl

variable {status : OutboxStatus} {row : OutboxRow}

/-- A row is read back from its columns. -/
theorem decodeRow_columnsOf (lawful : codec.Lawful) (hrow : AdmissibleRow row) :
    decodeRow codec (columnsOf codec row) = .ok row := by
  have hwf : codec.parseStr row.workflowId.display = .ok row.workflowId.asUuid := lawful.uuid _
  have hinput := lawful.payload row.input
  have hrun : transposeOption (fun value => (codec.parseStr value).mapError fun error =>
      StoreError.serialization ("invalid outbox run id: " ++ error)) (row.runId.map RunId.display) =
      .ok (row.runId.map RunId.asUuid) := by
    cases row.runId with
    | none => rfl
    | some runId =>
      have hrunId : codec.parseStr runId.display = .ok runId.asUuid := lawful.uuid _
      simp only [Option.map_some, transposeOption, hrunId]
      rfl
  have hatt : (0 : ℤ) ≤ row.attempt ∧ (row.attempt : ℤ) < UInt32.size :=
    ⟨Int.natCast_nonneg _, by exact_mod_cast hrow.attempt⟩
  unfold decodeRow
  simp only [columnsOf, hwf, hinput, OutboxStatus.parseToken_asStr,
    hrow.decode_visibleAfter lawful, hrow.decode_claimedAt lawful, hrun, if_pos hatt,
    if_pos (Int.natCast_nonneg row.ordinal)]
  simp only [Except.mapError, bind, Except.bind, pure, Except.pure, Int.toNat_natCast,
    Option.getD_some,
    Option.map_map, Function.comp_def, Option.map_id']

theorem mapM_decodeRow (lawful : codec.Lawful) {rows : List OutboxRow}
    (hrows : ∀ row ∈ rows, AdmissibleRow row) :
    (rows.map (columnsOf codec)).mapM (decodeRow codec) = .ok rows := by
  have hdecd :=
    Result.mapM_map_eq_ok (h := id) fun row hrow => decodeRow_columnsOf lawful (hrows row hrow)
  rwa [List.map_id] at hdecd

theorem asStr_eq_pending : status.asStr = "pending" ↔ status = .pending :=
  OutboxStatus.asStr_inj (b := .pending)

theorem asStr_eq_claimed : status.asStr = "claimed" ↔ status = .claimed :=
  OutboxStatus.asStr_inj (b := .claimed)

theorem isLive_columnsOf (row : OutboxRow) :
    isLive (columnsOf codec row) = row.status.isInflight := by
  change decide (row.status.asStr = "pending" ∨ row.status.asStr = "claimed") =
    row.status.isInflight
  cases row.status <;> decide

/-- What the operations read in the columns of a row. -/
structure Reads (codec : OutboxCodec Bytes) (columns : OutboxColumns Bytes) (row : OutboxRow) :
    Prop where
  dispatchKey : columns.dispatchKey = row.dispatchKey
  status : columns.status = row.status.asStr
  visibleAfter : columns.visibleAfter = Rfc3339.toText row.visibleAfter
  claimedAt : columns.claimedAt = row.claimedAt.map Rfc3339.toText
  decode : decodeRow codec columns = .ok row

/-- Every row of the table is read from its columns. -/
def ReadsRows (codec : OutboxCodec Bytes) (code : OutboxRow → OutboxColumns Bytes)
    (rows : OutboxTable) : Prop :=
  ∀ row ∈ rows.rows, Reads codec (code row) row

theorem readsRows_columnsOf (lawful : codec.Lawful) {rows : OutboxTable} (hrows : rows.Admissible) :
    ReadsRows codec (columnsOf codec) rows :=
  fun _ hrow => ⟨rfl, rfl, rfl, rfl, decodeRow_columnsOf lawful (hrows.of_mem hrow)⟩

/-! ### Inserts and re-arms -/

section Changes

variable {table : LibSqlOutbox Bytes} {rows : OutboxTable}

theorem columns_of_admissible (hrow : AdmissibleRow row) :
    columns codec row = .ok (columnsOf codec row) :=
  if_pos hrow.ordinal

variable {selected batch : List OutboxRow} {now olderThan : Instant}
  {where_ : OutboxColumns Bytes → Bool} {p : OutboxRow → Bool} {f : OutboxRow → OutboxRow}

theorem encodes_insertOutboxRows (h : Encodes codec table rows)
    (hbatch : ∀ row ∈ batch, AdmissibleRow row) :
    ∃ table', batch.foldlM (insertOutboxRow codec) table = .ok table' ∧
      Encodes codec table' (batch.foldl KeyedTable.insertIfAbsent rows) := by
  induction batch generalizing table rows with
  | nil => exact ⟨table, rfl, h⟩
  | cons row rest ih =>
    obtain ⟨hrow, hrest⟩ := List.forall_mem_cons.mp hbatch
    have hinsert : insertOutboxRow codec table row = .ok (table.insertIfAbsent (columnsOf codec row)) := by
      rw [insertOutboxRow, columns_of_admissible hrow]
      rfl
    obtain ⟨table', hrun, hencs⟩ := ih (h.insertIfAbsent columnsOf_dispatchKey row) hrest
    exact ⟨table', by rw [List.foldlM_cons, hinsert]; exact hrun, hencs⟩

/-- A re-arm of rows is one of rows without their runs. -/
theorem encodes_rearmOutboxRows (h : Encodes codec table rows)
    (hbatch : ∀ row ∈ batch, AdmissibleRow row) :
    ∃ table', batch.foldlM (rearmOutboxRow codec) table = .ok table' ∧
      Encodes codec table' ((batch.map withoutRun).foldl OutboxTable.rearm rows) := by
  induction batch generalizing table rows with
  | nil => exact ⟨table, rfl, h⟩
  | cons row rest ih =>
    obtain ⟨hrow, hrest⟩ := List.forall_mem_cons.mp hbatch
    have hrearm : rearmOutboxRow codec table row =
        .ok (table.upsert (rearmInserted (columnsOf codec row)) (setPending (encodeInstant row.visibleAfter))
          (setPending_dispatchKey _)) := by
      rw [rearmOutboxRow, columns_of_admissible hrow]
      rfl
    have hnext : Encodes codec (table.upsert (rearmInserted (columnsOf codec row))
        (setPending (encodeInstant row.visibleAfter)) (setPending_dispatchKey _))
        (OutboxTable.rearm rows (withoutRun row)) :=
      h.upsert columnsOf_dispatchKey rfl fun _ _ => rfl
    obtain ⟨table', hrun, hencs⟩ := ih hnext hrest
    exact ⟨table', by rw [List.foldlM_cons, hrearm]; exact hrun, hencs⟩

/-! ### Selections -/

variable {code : OutboxRow → OutboxColumns Bytes}

theorem selectClaimable_eq (h : KeyedTable.Encodes code table rows)
    (hreads : ReadsRows codec code rows) (hrows : rows.Admissible)
    (hnow : Rfc3339.FourDigitYear now) (admits : OutboxRow → Bool)
    (hwhere : ∀ row ∈ rows.rows, where_ (code row) = admits row) :
    selectClaimable table (encodeInstant now) where_ =
      ((rows.rows.filter fun row => isDue now row && admits row).insertionSort
          OutboxTable.claimOrder).map code := by
  unfold selectClaimable
  rw [h.rows_eq]
  refine select_map (fun row hrow => ?_) fun row hrow row' hrow' => ?_
  · have hvisible : Rfc3339.toText row.visibleAfter ≤ encodeInstant now ↔ row.visibleAfter ≤ now :=
      Rfc3339.toText_le_iff (hrows.of_mem hrow).visibleAfter hnow
    rw [Bool.eq_iff_iff]
    simp only [hwhere row hrow, isDue, (hreads row hrow).status, (hreads row hrow).visibleAfter,
      asStr_eq_pending,
      hvisible, decide_eq_true_eq, Bool.and_eq_true, and_assoc]
  · have hmem := List.mem_of_mem_filter hrow
    have hmem' := List.mem_of_mem_filter hrow'
    have hvisible := (hrows.of_mem hmem).visibleAfter
    have hvisible' := (hrows.of_mem hmem').visibleAfter
    refine lexBy_iff_lexBy ?_ ?_ ?_
    · rw [(hreads row hmem).visibleAfter, (hreads row' hmem').visibleAfter]
      exact (Rfc3339.toText_lt_iff hvisible hvisible').symm
    · rw [(hreads row hmem).visibleAfter, (hreads row' hmem').visibleAfter]
      exact (Rfc3339.toText_lt_iff hvisible' hvisible).symm
    · rw [(hreads row hmem).dispatchKey, (hreads row' hmem').dispatchKey]

theorem selectStaleClaimed_eq (h : KeyedTable.Encodes code table rows)
    (hreads : ReadsRows codec code rows) (hrows : rows.Admissible)
    (holder : Rfc3339.FourDigitYear olderThan) (limit : ℕ) :
    selectStaleClaimed table olderThan limit =
      (rows.select (isStale olderThan) OutboxTable.staleOrder limit).map code := by
  unfold selectStaleClaimed select
  rw [h.rows_eq, List.map_take]
  refine congrArg (List.take limit) (select_map (fun row hrow => ?_) fun row hrow row' hrow' => ?_)
  · rw [isStale, decide_eq_decide, (hreads row hrow).status, (hreads row hrow).claimedAt]
    cases hclmd : row.claimedAt with
    | none => simp
    | some claimedAt =>
      have horder := Rfc3339.toText_lt_iff ((hrows.of_mem hrow).claimedAt _ hclmd) holder
      simp only [encodeInstant, asStr_eq_claimed, Option.map_some, Option.any_some, decide_eq_true_eq, horder]
  · obtain ⟨hrow, hstale⟩ := List.mem_filter.mp hrow
    obtain ⟨hrow', hstale'⟩ := List.mem_filter.mp hrow'
    obtain ⟨claimedAt, hclmd⟩ := claimedAt_of_isStale hstale
    obtain ⟨claimedAt', hclmd'⟩ := claimedAt_of_isStale hstale'
    have hyear := (hrows.of_mem hrow).claimedAt _ hclmd
    have hyear' := (hrows.of_mem hrow').claimedAt _ hclmd'
    refine lexBy_iff_lexBy ?_ ?_ ?_
    · simp only [(hreads row hrow).claimedAt, (hreads row' hrow').claimedAt, hclmd, hclmd', optional,
        Option.map_some, Option.getD_some]
      exact WithBot.coe_lt_coe.trans (Rfc3339.toText_lt_iff hyear hyear').symm
    · simp only [(hreads row hrow).claimedAt, (hreads row' hrow').claimedAt, hclmd, hclmd', optional,
        Option.map_some, Option.getD_some]
      exact WithBot.coe_lt_coe.trans (Rfc3339.toText_lt_iff hyear' hyear).symm
    · rw [(hreads row hrow).dispatchKey, (hreads row' hrow').dispatchKey]

/-! ### Loops over a selection -/

/-- The loop over the selected rows claims each of their keys. -/
theorem claimSelected_eq (hsel : ∀ row ∈ selected, decodeRow codec (code row) = .ok row)
    (table : LibSqlOutbox Bytes) :
    claimSelected codec now table (selected.map code) =
      .ok (selected.map (OutboxRow.claim · now),
        (selected.map OutboxRow.dispatchKey).foldl
          (fun table key => claimRow table key (encodeInstant now)) table) := by
  induction selected generalizing table with
  | nil => rfl
  | cons row rest ih =>
    obtain ⟨hrow, hrest⟩ := List.forall_mem_cons.mp hsel
    simp only [List.map_cons, claimSelected, hrow, bind, Except.bind, ih hrest, List.foldl_cons]
    rfl

theorem rearmSelected_eq {visibleAfter : Instant}
    (hsel : ∀ row ∈ selected, decodeRow codec (code row) = .ok row) (table : LibSqlOutbox Bytes) :
    rearmSelected codec visibleAfter table (selected.map code) =
      .ok (selected.map (OutboxRow.rearm · visibleAfter),
        (selected.map OutboxRow.dispatchKey).foldl
          (fun table key => rearmStaleRow table key (encodeInstant visibleAfter))
          table) := by
  induction selected generalizing table with
  | nil => rfl
  | cons row rest ih =>
    obtain ⟨hrow, hrest⟩ := List.forall_mem_cons.mp hsel
    simp only [List.map_cons, rearmSelected, hrow, bind, Except.bind, ih hrest, List.foldl_cons]
    rfl

/-- The loop that leaves the rows of held workflows out is the loop over the first `limit`
of the others. -/
theorem claimUnheld_eq (held : List WorkflowId)
    (hsel : ∀ row ∈ selected, decodeRow codec (code row) = .ok row) (limit : ℕ)
    (table : LibSqlOutbox Bytes) :
    claimUnheld codec now held limit table (selected.map code) =
      claimSelected codec now table
        (((selected.filter fun row => !held.contains row.workflowId).take limit).map code) := by
  induction selected generalizing table limit with
  | nil => simp [claimUnheld, claimSelected]
  | cons row rest ih =>
    obtain ⟨hrow, hrest⟩ := List.forall_mem_cons.mp hsel
    cases limit with
    | zero => simp [claimUnheld, claimSelected]
    | succ limit =>
      simp only [List.map_cons, claimUnheld, hrow, bind, Except.bind]
      by_cases hheld : row.workflowId ∈ held
      · rw [if_pos hheld, ih hrest, List.filter_cons_of_neg (by simpa using hheld)]
      · rw [if_neg hheld, List.filter_cons_of_pos (by simpa using hheld), List.take_succ_cons, List.map_cons, ih hrest]
        simp only [claimSelected, hrow, bind, Except.bind]

/-- Rewrites of rows that are there, one by one in the columns, are one rewrite of the
rows. -/
theorem encodes_foldl (h : KeyedTable.Encodes code table rows)
    {keeps : ∀ row, (f row).dispatchKey = row.dispatchKey}
    {change : LibSqlOutbox Bytes → String → LibSqlOutbox Bytes}
    (hchange : ∀ table (rows : OutboxTable) key, KeyedTable.Encodes code table rows →
        KeyedTable.Encodes code (change table key)
      (rows.modify (fun row => row.dispatchKey = key ∧ p row) f keeps)) (hnd : selected.Nodup)
    (hmem : ∀ row ∈ selected, row ∈ rows.rows) (hp : ∀ row ∈ selected, p row) :
    KeyedTable.Encodes code ((selected.map OutboxRow.dispatchKey).foldl change table)
      (rows.rewrite selected f keeps) := by
  have hfold : ∀ (keys : List String) (table : LibSqlOutbox Bytes) (rows : OutboxTable),
    KeyedTable.Encodes code table rows →
      KeyedTable.Encodes code (keys.foldl change table)
        (keys.foldl (fun rows key => rows.modify (fun row => row.dispatchKey = key ∧ p row) f keeps) rows) := by
    intro keys
    induction keys with
    | nil => exact fun _ _ h => h
    | cons key rest ih => exact fun table rows h => ih _ _ (hchange table rows key h)
  rw [OutboxTable.rewrite, ← KeyedTable.foldl_modify_selected hnd hmem hp]
  exact hfold _ _ _ h

/-- The key and the status of a row are in its columns, which change as the row is claimed and
re-armed. -/
structure Transparent (code : OutboxRow → OutboxColumns Bytes) : Prop where
  dispatchKey : ∀ row, (code row).dispatchKey = row.dispatchKey
  status : ∀ row, (code row).status = row.status.asStr
  claim : ∀ row now, { code row with status := "claimed", claimedAt := some (encodeInstant now) } =
    code (row.claim now)
  rearm : ∀ row visibleAfter, setPending (encodeInstant visibleAfter) (code row) =
    code (row.rearm visibleAfter)

theorem transparent_columnsOf : Transparent (columnsOf codec) :=
  ⟨fun _ => rfl, fun _ => rfl, fun _ _ => rfl, fun _ _ => rfl⟩

/-! ### Claims -/

theorem encodes_claimRow (htransp : Transparent code) (h : KeyedTable.Encodes code table rows)
    (key : String) (now : Instant) :
    KeyedTable.Encodes code (claimRow table key (encodeInstant now))
      (rows.modify (fun row => row.dispatchKey = key ∧ decide (row.status = .pending))
          (OutboxRow.claim · now)
        (OutboxRow.claim_dispatchKey now)) := by
  refine h.modify (OutboxRow.claim_dispatchKey now) (by intro; rfl) (fun row _ => ?_) fun row _ =>
    htransp.claim row now
  simp [htransp.dispatchKey, htransp.status, asStr_eq_pending]

/-- The rows a claim selects from the outbox. -/
def claimable (rows : OutboxTable) (now : Instant) (limit : ℕ) (admits : OutboxRow → Bool) :
    List OutboxRow :=
  rows.select (fun row => isDue now row && admits row) OutboxTable.claimOrder limit

/-- The loop over the selection is the claim of the outbox. -/
theorem claimSelected_refines (htransp : Transparent code) (h : KeyedTable.Encodes code table rows)
    (hreads : ReadsRows codec code rows) (now : Instant) (limit : ℕ) (admits : OutboxRow → Bool) :
    ∃ table', claimSelected codec now table ((claimable rows now limit admits).map code) =
        .ok ((claimable rows now limit admits).map (OutboxRow.claim · now), table') ∧
      KeyedTable.Encodes code table' (rows.claim now limit admits).2 := by
  have hsel : ∀ row ∈ claimable rows now limit admits, decodeRow codec (code row) = .ok row :=
    fun row hrow => (hreads row (of_mem_select hrow).1).decode
  refine ⟨_, claimSelected_eq hsel table, ?_⟩
  refine encodes_foldl h (fun table rows key h => encodes_claimRow htransp h key now) nodup_select
    (fun row hrow => (of_mem_select hrow).1) fun row hrow => ?_
  have hdue := (Bool.and_eq_true_iff.mp (of_mem_select hrow).2).1
  simp only [isDue, decide_eq_true_eq] at hdue
  simpa using hdue.1

theorem claimOutboxRows_eq (h : KeyedTable.Encodes code table rows)
    (hreads : ReadsRows codec code rows) (hrows : rows.Admissible)
    (hnow : Rfc3339.FourDigitYear now) (limit : ℕ) :
    claimOutboxRows codec table now limit =
      claimSelected codec now table ((claimable rows now limit fun _ => true).map code) := by
  unfold claimOutboxRows
  split
  · subst limit
    simp [claimable, select, claimSelected]
  · rw [selectClaimable_eq h hreads hrows hnow (fun _ => true) fun _ _ => rfl, claimable, select,
      List.map_take]

theorem inScope_columnsOf (scope : ClaimScope) (row : OutboxRow) :
    inScope scope (columnsOf codec row) = scope.admits row := by
  unfold inScope ClaimScope.admits columnsOf
  cases scope.node <;> cases row.node <;> simp [Bool.beq_comm]

/-- The claimable rows of workflows that are not held, in the order of the claim. -/
theorem filter_claimable (rows : OutboxTable) (now : Instant) (limit : ℕ) (held : List WorkflowId)
    (admits : OutboxRow → Bool) :
    (((rows.rows.filter fun row => isDue now row && admits row).insertionSort
        OutboxTable.claimOrder).filter
        fun row => !held.contains row.workflowId).take limit =
      claimable rows now limit fun row => admits row && !held.contains row.workflowId := by
  rw [filter_insertionSort ((antisymm_rows _ rows).filter _), List.filter_filter]
  unfold claimable select
  congr 3
  funext row
  rw [Bool.and_comm, Bool.and_assoc]

/-- The rows a statement selects are read from their columns. -/
theorem decode_of_mem_sorted (hreads : ReadsRows codec code rows) :
    ∀ row ∈ (rows.rows.filter p).insertionSort OutboxTable.claimOrder,
      decodeRow codec (code row) = .ok row :=
  fun row hrow => (hreads row (List.mem_of_mem_filter ((List.mem_insertionSort _).mp hrow))).decode

/-- A claim that leaves held workflows out, whether the statement has the limit or not. -/
theorem claimUnheld_selected (h : KeyedTable.Encodes code table rows)
    (hreads : ReadsRows codec code rows) (hrows : rows.Admissible)
    (hnow : Rfc3339.FourDigitYear now) (limit : ℕ) (held : List WorkflowId)
    (admits : OutboxRow → Bool) (hwhere : ∀ row ∈ rows.rows, where_ (code row) = admits row) :
    claimUnheld codec now held limit table (selectClaimable table (encodeInstant now) where_) =
      claimSelected codec now table ((claimable rows now limit fun row =>
        admits row && !held.contains row.workflowId).map code) := by
  rw [selectClaimable_eq h hreads hrows hnow admits hwhere,
    claimUnheld_eq held (decode_of_mem_sorted hreads),
    filter_claimable]

theorem claimOutboxRowsExcluding_eq (h : KeyedTable.Encodes code table rows)
    (hreads : ReadsRows codec code rows) (hrows : rows.Admissible)
    (hnow : Rfc3339.FourDigitYear now) (limit : ℕ) (held : List WorkflowId) :
    claimOutboxRowsExcluding codec table now limit held =
      claimSelected codec now table ((claimable rows now limit fun row =>
        !held.contains row.workflowId).map code) := by
  unfold claimOutboxRowsExcluding
  split
  · subst limit
    simp [claimable, select, claimSelected]
  · split
    · subst held
      exact claimOutboxRows_eq h hreads hrows hnow limit
    · exact claimUnheld_selected h hreads hrows hnow limit held (fun _ => true) fun _ _ => rfl

theorem claimOutboxRowsScopedExcluding_eq (h : KeyedTable.Encodes code table rows)
    (hreads : ReadsRows codec code rows) (hrows : rows.Admissible)
    (hnow : Rfc3339.FourDigitYear now) (scope : ClaimScope) (limit : ℕ) (held : List WorkflowId)
    {admits : OutboxRow → Bool}
    (hwhere : ∀ row ∈ rows.rows, inScope scope (code row) = admits row) :
    claimOutboxRowsScopedExcluding codec table now scope limit held =
      claimSelected codec now table ((claimable rows now limit fun row =>
        admits row && !held.contains row.workflowId).map code) := by
  unfold claimOutboxRowsScopedExcluding
  split
  · subst limit
    simp [claimable, select, claimSelected]
  · rw [← claimUnheld_selected h hreads hrows hnow limit held admits hwhere]
    split
    · -- With nothing held the limit of the statement is that of the loop.
      subst held
      change claimUnheld codec now [] limit table (List.take limit _) = _
      rw [selectClaimable_eq h hreads hrows hnow admits hwhere, ← List.map_take,
        claimUnheld_eq [] fun row hrow => decode_of_mem_sorted hreads row (List.mem_of_mem_take hrow),
        claimUnheld_eq [] (decode_of_mem_sorted hreads)]
      simp [List.take_take]
    · rfl

/-! ### Stale claims -/

theorem encodes_rearmStaleRow (htransp : Transparent code) (h : KeyedTable.Encodes code table rows)
    (key : String) (visibleAfter : Instant) :
    KeyedTable.Encodes code (rearmStaleRow table key (encodeInstant visibleAfter))
      (rows.modify (fun row => row.dispatchKey = key ∧ decide (row.status = .claimed))
          (OutboxRow.rearm · visibleAfter)
        (OutboxRow.rearm_dispatchKey visibleAfter)) := by
  refine h.modify (OutboxRow.rearm_dispatchKey visibleAfter) (setPending_dispatchKey _)
    (fun row _ => ?_)
    fun row _ => htransp.rearm row visibleAfter
  simp [htransp.dispatchKey, htransp.status, asStr_eq_claimed]

theorem rearmStale_refines (htransp : Transparent code) (h : KeyedTable.Encodes code table rows)
    (hreads : ReadsRows codec code rows) (hrows : rows.Admissible)
    (holder : Rfc3339.FourDigitYear olderThan) (visibleAfter : Instant) (limit : ℕ) :
    ∃ table', rearmStaleClaimedOutboxRows codec table olderThan visibleAfter limit =
        .ok ((rows.select (isStale olderThan) OutboxTable.staleOrder limit).map
            (OutboxRow.rearm · visibleAfter),
          table') ∧
      KeyedTable.Encodes code table' (rows.rewrite
          (rows.select (isStale olderThan) OutboxTable.staleOrder limit)
        (OutboxRow.rearm · visibleAfter) (OutboxRow.rearm_dispatchKey visibleAfter)) := by
  have hsel : ∀ row ∈ rows.select (isStale olderThan) OutboxTable.staleOrder limit,
      decodeRow codec (code row) = .ok row :=
    fun row hrow => (hreads row (of_mem_select hrow).1).decode
  have hloop : rearmStaleClaimedOutboxRows codec table olderThan visibleAfter limit =
      rearmSelected codec visibleAfter table
        ((rows.select (isStale olderThan) OutboxTable.staleOrder limit).map code) := by
    unfold rearmStaleClaimedOutboxRows
    split
    · subst limit
      simp [select, rearmSelected]
    · rw [selectStaleClaimed_eq h hreads hrows holder]
  refine ⟨_, hloop.trans (rearmSelected_eq hsel table), ?_⟩
  refine encodes_foldl h (fun table rows key h => encodes_rearmStaleRow htransp h key visibleAfter)
    nodup_select
    (fun row hrow => (of_mem_select hrow).1) fun row hrow => ?_
  have hstale := (of_mem_select hrow).2
  simp only [isStale, decide_eq_true_eq] at hstale
  simpa using hstale.1

theorem listStale_eq (h : KeyedTable.Encodes code table rows) (hreads : ReadsRows codec code rows)
    (hrows : rows.Admissible) (holder : Rfc3339.FourDigitYear olderThan) (limit : ℕ) :
    listStaleClaimedOutboxRows codec table olderThan limit =
      .ok (rows.select (isStale olderThan) OutboxTable.staleOrder limit) := by
  unfold listStaleClaimedOutboxRows
  split
  · subst limit
    simp [select]
  · rw [selectStaleClaimed_eq h hreads hrows holder]
    have hdecd := Result.mapM_map_eq_ok (g := code) (h := id) fun row
        (hrow : row ∈ rows.select (isStale olderThan) OutboxTable.staleOrder limit) =>
      (hreads row (of_mem_select hrow).1).decode
    rwa [List.map_id] at hdecd

/-! ### Transitions -/

theorem encodes_transition (h : Encodes codec table rows) (key : String)
    {set : OutboxColumns Bytes → OutboxColumns Bytes}
    (keeps : ∀ row, (f row).dispatchKey = row.dispatchKey)
    (keeps' : ∀ row, (set row).dispatchKey = row.dispatchKey)
    (hset : ∀ row, set (columnsOf codec row) = columnsOf codec (f row)) :
    Encodes codec (update table (fun row => row.dispatchKey = key) set keeps')
      (rows.transition key f keeps) :=
  h.modify keeps keeps' (fun _ _ => rfl) fun row _ => hset row

theorem encodes_settleOutboxRowCancelled (h : Encodes codec table rows) (key : String) :
    Encodes codec (settleOutboxRowCancelled table key)
      (rows.transition key OutboxRow.settle OutboxRow.settle_dispatchKey) := by
  have hsettle : rows.transition key OutboxRow.settle OutboxRow.settle_dispatchKey =
      rows.modify (fun row => row.dispatchKey = key ∧ row.status.isInflight) (OutboxRow.finish .cancelled)
        (OutboxRow.finish_dispatchKey .cancelled) := by
    refine KeyedTable.modify_congr fun row _ => ?_
    by_cases hkey : row.dispatchKey = key <;> simp [hkey, OutboxRow.settle]
  rw [hsettle]
  refine h.modify (OutboxRow.finish_dispatchKey .cancelled) (by intro; rfl) (fun row _ => ?_)
    fun _ _ => rfl
  simp only [columnsOf_dispatchKey, isLive_columnsOf]

theorem isLiveOf_columnsOf (lawful : codec.Lawful) (workflowId : WorkflowId) (row : OutboxRow) :
    decide ((columnsOf codec row).workflowId = workflowId.display ∧ isLive (columnsOf codec row)) =
      isLiveOf workflowId row := by
  rw [isLive_columnsOf, isLiveOf, decide_eq_decide]
  exact and_congr_left' lawful.display_inj

theorem settled_eq (lawful : codec.Lawful) (h : Encodes codec table rows)
    (workflowId : WorkflowId) :
    (settleWorkflowOutboxRowsCancelled table workflowId).1 =
      ((rows.rows.filter (isLiveOf workflowId)).map OutboxRow.dispatchKey).insertionSort
      (· ≤ ·) := by
  have hlive : table.rows.filter (fun row =>
      decide (row.workflowId = workflowId.display ∧ isLive row)) =
      (rows.rows.filter (isLiveOf workflowId)).map (columnsOf codec) := by
    have hfilter : (fun row => decide (row.workflowId = workflowId.display ∧ isLive row)) ∘
      columnsOf codec =
        isLiveOf workflowId := by
      funext row
      rw [Function.comp_apply, isLiveOf_columnsOf lawful workflowId]
    rw [h.rows_eq, List.filter_map, hfilter]
  have hkeys : OutboxColumns.dispatchKey ∘ columnsOf codec = OutboxRow.dispatchKey :=
    funext columnsOf_dispatchKey
  simp only [settleWorkflowOutboxRowsCancelled, hlive, List.map_map, hkeys]

theorem encodes_settleWorkflow (lawful : codec.Lawful) (h : Encodes codec table rows)
    (workflowId : WorkflowId) :
    Encodes codec (settleWorkflowOutboxRowsCancelled table workflowId).2
      (rows.modify (isLiveOf workflowId) OutboxRow.settle OutboxRow.settle_dispatchKey) := by
  have hsett := settled_eq lawful h workflowId
  unfold settleWorkflowOutboxRowsCancelled at hsett ⊢
  dsimp only at hsett ⊢
  rw [hsett, settle_live]
  split
  · -- Nothing is in flight, so the update that is left out would change nothing.
    rename_i hnone
    have hperm := (List.perm_insertionSort (· ≤ ·) ((rows.rows.filter (isLiveOf workflowId)).map
      OutboxRow.dispatchKey)).symm
    rw [hnone] at hperm
    have hemp := List.map_eq_nil_iff.mp hperm.eq_nil
    rw [KeyedTable.modify_eq_self fun row hrow =>
      Bool.eq_false_iff.mpr (List.filter_eq_nil_iff.mp hemp row hrow)]
    exact h
  · exact h.modify (OutboxRow.finish_dispatchKey .cancelled) (by intro; rfl)
      (fun row _ => isLiveOf_columnsOf lawful workflowId row) fun _ _ => rfl

/-! ### Counts and enumerations -/

theorem countP_rows (h : Encodes codec table rows) {q : OutboxColumns Bytes → Bool}
    (hq : ∀ row, q (columnsOf codec row) = p row) : table.rows.countP q = rows.rows.countP p := by
  have hcomp : q ∘ columnsOf codec = p := funext hq
  rw [h.rows_eq, List.countP_map, hcomp]

/-- Each group sets the count of its namespace. -/
theorem fillCounts_eq (codec : OutboxCodec Bytes) (size : String → ℕ) (counts : List (String × ℕ))
    (namespaces : List String) :
    fillCounts codec counts (namespaces.map fun namespace_ => (some namespace_, size namespace_)) =
      .ok (counts.map fun entry => if entry.1 ∈ namespaces then (entry.1, size entry.1) else
        entry) := by
  induction namespaces generalizing counts with
  | nil => simp [fillCounts]
  | cons namespace_ rest ih =>
    rw [List.map_cons, fillCounts, ih, List.map_map]
    refine congrArg Except.ok (List.map_congr_left fun entry _ => ?_)
    by_cases hent : entry.1 = namespace_
    · subst hent
      simp
    · simp [hent]

theorem claimedGroups_eq (h : Encodes codec table rows) :
    claimedGroups table = (((rows.rows.filter fun row =>
        row.status = .claimed).map OutboxRow.namespace_).dedup.map
      fun namespace_ => (some namespace_,
        rows.rows.countP fun row => row.namespace_ = namespace_ ∧ row.status = .claimed)) := by
  have hclmd : (fun row : OutboxColumns Bytes => decide (row.status = "claimed")) ∘
    columnsOf codec =
      fun row => decide (row.status = .claimed) := by
    funext row
    rw [Function.comp_apply, decide_eq_decide, columnsOf_status, asStr_eq_claimed]
  have hnamespaces : (table.rows.filter fun row =>
      row.status = "claimed").map OutboxColumns.namespace_ =
      ((rows.rows.filter fun row => row.status = .claimed).map OutboxRow.namespace_).map some := by
    rw [h.rows_eq, List.filter_map, hclmd, List.map_map, List.map_map]
    rfl
  unfold claimedGroups
  dsimp only
  rw [hnamespaces, List.dedup_map_of_injective (Option.some_injective _), List.map_map]
  refine List.map_congr_left fun namespace_ _ => ?_
  rw [Function.comp_apply, List.count_map_of_injective _ _ (Option.some_injective _), List.count,
    List.countP_map,
    List.countP_filter]
  refine congrArg (Prod.mk _) (List.countP_congr fun row _ => ?_)
  simp

theorem countByNamespace_eq (h : Encodes codec table rows) (namespaces : List String) :
    countClaimedOutboxRowsByNamespace codec table namespaces =
      .ok ((namespaces.dedup.insertionSort (· ≤ ·)).map fun namespace_ =>
        (namespace_, rows.rows.countP fun row => row.namespace_ = namespace_ ∧
            row.status = .claimed)) := by
  unfold countClaimedOutboxRowsByNamespace
  rw [claimedGroups_eq h, fillCounts_eq codec fun namespace_ =>
    rows.rows.countP fun row => row.namespace_ = namespace_ ∧ row.status = .claimed, List.map_map]
  refine congrArg Except.ok (List.map_congr_left fun namespace_ _ => ?_)
  rw [Function.comp_apply]
  split
  · rfl
  · -- A namespace without a group has no claimed row.
    rename_i hnone
    refine congrArg (Prod.mk _) (Eq.symm (List.countP_eq_zero.mpr fun row hrow => ?_))
    intro hcount
    obtain ⟨rfl, hstat⟩ := of_decide_eq_true hcount
    exact hnone (List.mem_dedup.mpr (List.mem_map_of_mem (List.mem_filter.mpr ⟨hrow, by simpa using hstat⟩)))

theorem routes_eq (h : Encodes codec table rows) (hrows : rows.Admissible)
    (hnow : Rfc3339.FourDigitYear now) :
    (pendingOutboxRoutes table now).toFinset =
      ((rows.rows.filter (isDue now)).map fun row =>
        ClaimScope.mk row.namespace_ row.taskQueue row.node).dedup.toFinset := by
  have hdue : table.rows.filter (fun row =>
      decide (row.status = "pending" ∧ row.visibleAfter ≤ encodeInstant now)) =
      (rows.rows.filter (isDue now)).map (columnsOf codec) := by
    rw [h.rows_eq, List.filter_map]
    refine congrArg (List.map _) (List.filter_congr fun row hrow => ?_)
    have hvisible : Rfc3339.toText row.visibleAfter ≤ encodeInstant now ↔ row.visibleAfter ≤ now :=
      Rfc3339.toText_le_iff (hrows.of_mem hrow).visibleAfter hnow
    rw [Function.comp_apply, isDue, decide_eq_decide, columnsOf_status, columnsOf_visibleAfter,
      asStr_eq_pending,
      hvisible]
  ext scope
  unfold pendingOutboxRoutes
  simp only [hdue, List.map_map, List.mem_toFinset, List.mem_map, List.mem_dedup,
    Function.comp_apply]
  constructor
  · rintro ⟨_, ⟨row, hrow, rfl⟩, rfl⟩
    exact ⟨row, hrow, rfl⟩
  · rintro ⟨row, hrow, rfl⟩
    exact ⟨_, ⟨row, hrow, rfl⟩, rfl⟩

theorem listUnsettled_eq (lawful : codec.Lawful) (h : Encodes codec table rows) :
    listUnsettledOutboxWorkflowIds codec table =
      .ok (((rows.rows.filter fun row =>
          row.status.isInflight).map OutboxRow.workflowId).dedup.insertionSort
        fun left right => left.display ≤ right.display) := by
  have hinjective : Function.Injective WorkflowId.display :=
    fun _ _ hdisplay => lawful.display_inj.mp hdisplay
  have hlive : isLive ∘ columnsOf codec = fun row => row.status.isInflight :=
    funext isLive_columnsOf
  have hids : (table.rows.filter isLive).map OutboxColumns.workflowId =
      ((rows.rows.filter fun row => row.status.isInflight).map OutboxRow.workflowId).map WorkflowId.display := by
    rw [h.rows_eq, List.filter_map, hlive, List.map_map, List.map_map]
    rfl
  unfold listUnsettledOutboxWorkflowIds
  rw [hids, List.dedup_map_of_injective hinjective, ← List.map_insertionSort
    (fun left right : WorkflowId => left.display ≤ right.display) (· ≤ ·) _ _ fun _ _ _ _ =>
      Iff.rfl]
  have hparsed := Result.mapM_map_eq_ok (h := id) (g := WorkflowId.display)
    (f := fun value => ((codec.parseStr value).map WorkflowId.mk).mapError fun error =>
      StoreError.serialization ("invalid outbox workflow id: " ++ error))
    fun (workflowId : WorkflowId) (_ : workflowId ∈ (((rows.rows.filter fun row => row.status.isInflight).map
      OutboxRow.workflowId).dedup.insertionSort fun left right => left.display ≤ right.display)) => by
        rw [show codec.parseStr workflowId.display = .ok workflowId.asUuid from lawful.uuid _]
        rfl
  rwa [List.map_id] at hparsed

/-! ### Every operation -/

/-- **The libSQL outbox refines the outbox**: an operation answers what the outbox
answers, and leaves the columns of what the outbox leaves; re-armed rows lose their run. -/
theorem execute_refines (lawful : codec.Lawful) (h : Encodes codec table rows)
    (hrows : rows.Admissible) {operation : OutboxOperation} (hop : operation.Admissible) :
    outcomeMeaning (execute codec table operation).1 =
        .ok (rows.execute (withoutRuns operation)).1.meaning ∧
      Encodes codec (execute codec table operation).2 (rows.execute (withoutRuns operation)).2 := by
  have hreads := readsRows_columnsOf lawful hrows
  have hscoped :=
    fun (now : Instant) (hnow : Rfc3339.FourDigitYear now) (scope : ClaimScope) (limit : ℕ)
    (held : List WorkflowId) => claimOutboxRowsScopedExcluding_eq h hreads hrows hnow
      scope limit held
      fun row _ => inScope_columnsOf scope row
  cases operation with
  | appendOutboxBatch batch =>
    obtain ⟨table', hrun, hencs⟩ := encodes_insertOutboxRows h hop
    simp only [execute, hrun, Except.map, transaction]
    exact ⟨rfl, hencs⟩
  | rearmOutboxPending batch =>
    obtain ⟨table', hrun, hencs⟩ := encodes_rearmOutboxRows h hop
    simp only [execute, hrun, Except.map, transaction]
    exact ⟨rfl, hencs⟩
  | claimOutboxRows now limit =>
    obtain ⟨table', hrun, hencs⟩ :=
      claimSelected_refines transparent_columnsOf h hreads now limit fun _ => true
    simp only [execute, claimOutboxRows_eq h hreads hrows hop, hrun, transaction]
    exact ⟨rfl, hencs⟩
  | claimOutboxRowsExcluding now limit held =>
    obtain ⟨table', hrun, hencs⟩ := claimSelected_refines transparent_columnsOf h hreads now limit
      fun row => !held.contains row.workflowId
    simp only [execute, claimOutboxRowsExcluding_eq h hreads hrows hop, hrun, transaction]
    exact ⟨rfl, hencs⟩
  | claimOutboxRowsScoped now scope limit =>
    obtain ⟨table', hrun, hencs⟩ := claimSelected_refines transparent_columnsOf h hreads now limit
      fun row => scope.admits row && !List.contains [] row.workflowId
    simp only [execute, claimOutboxRowsScoped, hscoped now hop, hrun,
      transaction]
    simp only [List.contains_nil, Bool.not_false, Bool.and_true] at hencs ⊢
    exact ⟨rfl, hencs⟩
  | claimOutboxRowsScopedExcluding now scope limit held =>
    obtain ⟨table', hrun, hencs⟩ := claimSelected_refines transparent_columnsOf h hreads now limit
      fun row => scope.admits row && !held.contains row.workflowId
    simp only [execute, hscoped now hop, hrun, transaction]
    exact ⟨rfl, hencs⟩
  | completeOutboxRow key =>
    exact ⟨rfl, encodes_transition h key (OutboxRow.finish_dispatchKey .done) (by intro; rfl) fun _ => rfl⟩
  | retryOutboxRow key nextAttempt visibleAfter =>
    exact ⟨rfl, encodes_transition h key (OutboxRow.retry_dispatchKey nextAttempt visibleAfter)
        (by intro; rfl) fun _ => rfl⟩
  | failOutboxRow key =>
    exact ⟨rfl, encodes_transition h key (OutboxRow.finish_dispatchKey .failed) (by intro; rfl) fun _ => rfl⟩
  | settleOutboxRowCancelled key => exact ⟨rfl, encodes_settleOutboxRowCancelled h key⟩
  | settleWorkflowOutboxRowsCancelled workflowId =>
    refine ⟨?_, encodes_settleWorkflow lawful h workflowId⟩
    simp only [execute, settled_eq lawful h workflowId]
    rfl
  | listStaleClaimedOutboxRows olderThan limit =>
    simp only [execute, listStale_eq h hreads hrows hop]
    exact ⟨rfl, h⟩
  | rearmStaleClaimedOutboxRows olderThan visibleAfter limit =>
    obtain ⟨table', hrun, hencs⟩ :=
      rearmStale_refines transparent_columnsOf h hreads hrows hop.1 visibleAfter limit
    simp only [execute, hrun, transaction]
    exact ⟨rfl, hencs⟩
  | listUnsettledOutboxWorkflowIds =>
    simp only [execute, listUnsettled_eq lawful h]
    exact ⟨rfl, h⟩
  | countInflightOutboxRows namespace_ =>
    have hcount :=
      countP_rows h (q := fun row => decide (row.namespace_ = some namespace_ ∧ isLive row))
      (p := fun row => decide (row.namespace_ = namespace_ ∧ row.status.isInflight)) fun row => by
        rw [isLive_columnsOf, decide_eq_decide]
        exact and_congr_left' Option.some_inj
    simp only [execute, countInflightOutboxRows, hcount]
    exact ⟨rfl, h⟩
  | countClaimedOutboxRows namespace_ =>
    have hcount := countP_rows h (q := fun row => decide (row.namespace_ = some namespace_ ∧ row.status = "claimed"))
      (p := fun row => decide (row.namespace_ = namespace_ ∧ row.status = .claimed)) fun row => by
        rw [decide_eq_decide, columnsOf_status, asStr_eq_claimed]
        exact and_congr_left' Option.some_inj
    simp only [execute, countClaimedOutboxRows, hcount]
    exact ⟨rfl, h⟩
  | countClaimedOutboxRowsByNamespace namespaces =>
    simp only [execute, countByNamespace_eq h]
    exact ⟨rfl, h⟩
  | pendingOutboxRoutes now =>
    refine ⟨?_, h⟩
    simp only [execute, outcomeMeaning, Except.map, OutboxAnswer.meaning, routes_eq h hrows hop]
    rfl

end Changes

end Aion.LibSqlOutbox
