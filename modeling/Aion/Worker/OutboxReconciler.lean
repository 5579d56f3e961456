import Aion.Worker.OutboxCalls

/-!
# Re-arming stale claims

The sweep of `outbox_reconciler.rs`. It lists the oldest stale claims, at most `batch_size`,
cancels the rows of the workflows among them whose history has ended, and re-arms at most
`batch_size` stale claims. The second selection is made anew: where cancelled rows drop out of
it, rows come in that the first did not reach, and nobody has looked at the histories of theirs.

A row returns to pending only if its workflow is live, whatever the store refuses, exactly when
every stale claim of an ended workflow is either behind `batch_size` stale claims of live
workflows or of a workflow that the first selection reaches (`rearm_implies_live_iff`).
-/

namespace Aion

open Interleaving OutboxTable Sorting

/-! ### The sweep -/

/-- `is_settle_terminal`. -/
def isSettleTerminal : WorkflowStatus → Bool
  | .completed | .failed | .cancelled | .timedOut => true
  | .running | .continuedAsNew | .paused => false

/-- `OutboxReconcilerConfig`, without the interval between sweeps. -/
structure OutboxReconcilerConfig where
  /-- Claims older than this are stale, in nanoseconds. -/
  staleAfter : ℕ
  /-- How many rows a sweep re-arms at most. -/
  batchSize : ℕ

/-- `chrono::Duration::MAX`, in nanoseconds. -/
def maxDuration : ℕ := 9223372036854775807 * 1000000

/-- `DateTime::<Utc>::MIN_UTC`. -/
def minInstant : Instant := -8334601228800 * 1000000000

/-- Before when a claim is stale; `none` when the age is no `chrono` duration, or the instant
out of range, and the sweep does nothing. -/
def staleThreshold (now : Instant) (staleAfter : ℕ) : Option Instant :=
  if staleAfter ≤ maxDuration ∧ minInstant ≤ now - staleAfter then some (now - staleAfter) else none

/-- The first row of each workflow. -/
def candidatesOf : List WorkflowId → List OutboxRow → List OutboxRow
  | _, [] => []
  | seen, row :: rest =>
    if row.workflowId ∈ seen then candidatesOf seen rest
    else row :: candidatesOf (row.workflowId :: seen) rest

/-- The loop of the liveness gate: the rows of an ended workflow are cancelled. -/
def settleCandidates : List OutboxRow → WorkerM Unit
  | [] => return ()
  | row :: rest => do
    let history ← WorkerM.readHistory row.workflowId
    if isSettleTerminal (statusFromEvents history) then
      let _ ← WorkerM.outbox (fun _ => .settleWorkflowOutboxRowsCancelled row.workflowId) id
      settleCandidates rest
    else settleCandidates rest

/-- `settle_terminal_candidates`. -/
def settleTerminalCandidates (olderThan : Instant) (batchSize : ℕ) : WorkerM Unit := do
  let stale ← WorkerM.outbox (fun _ => .listStaleClaimedOutboxRows olderThan batchSize)
    OutboxAnswer.toRows
  if stale.isEmpty then return ()
  else settleCandidates (candidatesOf [] stale)

/-- `sweep_once`, which read the clock at `now`. An error of the gate ends it; one of the re-arm
is logged. -/
def reconcilerSweepOnce (config : OutboxReconcilerConfig) (now : Instant) :
    Prog WorkerCall WorkerCall.Answer Unit :=
  match staleThreshold now config.staleAfter with
  | none => .done ()
  | some olderThan =>
    Prog.bind (settleTerminalCandidates olderThan config.batchSize) fun gate =>
      match gate with
      | .error _ => .done ()
      | .ok () =>
        Prog.bind (WorkerM.outbox (fun _ => .rearmStaleClaimedOutboxRows olderThan now config.batchSize) OutboxAnswer.toRows)
          fun _ => .done ()

/-! ### What it means -/

/-- The workflow has ended. -/
def HasEnded (history : WorkflowId → List Event) (workflowId : WorkflowId) : Prop :=
  isSettleTerminal (statusFromEvents (history workflowId)) = true

instance (history : WorkflowId → List Event) (workflowId : WorkflowId) :
    Decidable (HasEnded history workflowId) :=
  inferInstanceAs (Decidable (_ = _))

/-- The row was not pending before and is after. -/
def ReturnsToPending (table table' : OutboxTable) (row : OutboxRow) : Prop :=
  row ∈ table.rows ∧ row.status ≠ .pending ∧ ∃ row', table'.lookup row.dispatchKey = some row' ∧
    row'.status = .pending

/-- However the store answers, a row returns to pending only if its workflow has not ended. -/
def RearmImpliesLive (history : WorkflowId → List Event) (table : OutboxTable)
    (config : OutboxReconcilerConfig) (now : Instant) : Prop :=
  ∀ table', (reconcilerSweepOnce config now).Ends (StoreAnswers history AnyReading) table
    () table' →
    ∀ row, ReturnsToPending table table' row → ¬ HasEnded history row.workflowId

/-- The stale claims, oldest first. -/
def staleClaims (table : OutboxTable) (olderThan : Instant) : List OutboxRow :=
  (table.rows.filter (isStale olderThan)).insertionSort staleOrder

/-- Every row of an ended workflow is behind `batchSize` rows of live ones, or has a row of its
workflow among the first `batchSize`. -/
def GateReaches (history : WorkflowId → List Event) (batchSize : ℕ) (stale : List OutboxRow) :
    Prop :=
  ∀ before row after, stale = before ++ row :: after → HasEnded history row.workflowId →
    batchSize ≤ (before.countP fun earlier => ¬ HasEnded history earlier.workflowId) ∨
      ∃ probed ∈ stale.take batchSize, probed.workflowId = row.workflowId

/-! ### Cancelling -/

/-- The table with the rows of some workflows cancelled. -/
def cancelOf (table : OutboxTable) (cancelled : WorkflowId → Prop) [DecidablePred cancelled] :
    OutboxTable :=
  table.modify (fun row => cancelled row.workflowId) OutboxRow.settle OutboxRow.settle_dispatchKey

section Cancel

variable {table : OutboxTable} {cancelled cancelled' : WorkflowId →
    Prop} [DecidablePred cancelled] [DecidablePred cancelled']

theorem cancelOf_none (h : ∀ id, ¬ cancelled id) : cancelOf table cancelled = table :=
  KeyedTable.modify_eq_self fun row _ => by simp [h row.workflowId]

theorem OutboxRow.settle_settle (row : OutboxRow) : row.settle.settle = row.settle := by
  unfold OutboxRow.settle OutboxRow.finish
  split
  · simp [OutboxStatus.isInflight]
  · simp

theorem cancelOf_cancelOf :
    cancelOf (cancelOf table cancelled) cancelled' = cancelOf table fun id => cancelled id ∨
      cancelled' id := by
  refine KeyedTable.eq_of_rows_eq ?_
  simp only [cancelOf, KeyedTable.modify, List.map_map]
  refine List.map_congr_left fun row _ => ?_
  by_cases hfst : cancelled row.workflowId
  · by_cases hsnd : cancelled' row.workflowId <;>
      simp [hfst, hsnd, OutboxRow.settle_workflowId, OutboxRow.settle_settle]
  · simp [hfst]

/-- Cancelling the rows of a workflow in flight is cancelling its rows. -/
theorem execute_settleWorkflow (workflowId : WorkflowId) :
    (table.execute (.settleWorkflowOutboxRowsCancelled workflowId)).2 =
      cancelOf table (· = workflowId) := by
  change table.modify (isLiveOf workflowId) OutboxRow.settle OutboxRow.settle_dispatchKey =
    table.modify (fun row => row.workflowId = workflowId) OutboxRow.settle
      OutboxRow.settle_dispatchKey
  refine KeyedTable.modify_congr fun row _ => ?_
  by_cases hid : row.workflowId = workflowId
  · by_cases hlive : row.status.isInflight = true
    · simp [isLiveOf, hid, hlive]
    · simp [isLiveOf, hlive, OutboxRow.settle]
  · simp [isLiveOf, hid]

/-- What the stale claims are without the cancelled rows. -/
theorem staleClaims_cancelOf (olderThan : Instant) :
    staleClaims (cancelOf table cancelled) olderThan =
      (staleClaims table olderThan).filter fun row => ¬ cancelled row.workflowId := by
  have hrow : ∀ row ∈ table.rows,
      isStale olderThan (if cancelled row.workflowId then row.settle else row) =
        (isStale olderThan row && !decide (cancelled row.workflowId)) := by
    intro row _
    by_cases hcanc : cancelled row.workflowId
    · cases hstat : row.status <;>
        simp [hcanc, isStale, OutboxRow.settle, OutboxRow.finish, hstat, OutboxStatus.isInflight]
    · simp [hcanc]
  have hrows : (cancelOf table cancelled).rows.filter (isStale olderThan) =
      (table.rows.filter (isStale olderThan)).filter fun row => ¬ cancelled row.workflowId := by
    simp only [cancelOf, KeyedTable.modify, List.filter_map, List.filter_filter]
    have hfilter : table.rows.filter (isStale olderThan ∘ fun row =>
        if decide (cancelled row.workflowId) = true then row.settle else row) =
          table.rows.filter fun row => decide (¬ cancelled row.workflowId) && isStale olderThan row := by
      refine List.filter_congr fun row hmem => ?_
      simp [hrow row hmem, Bool.and_comm]
    rw [hfilter]
    refine (List.map_congr_left fun row hmem => ?_).trans (List.map_id _)
    have hkept : ¬ cancelled row.workflowId := by
      have hboth := (List.mem_filter.mp hmem).2
      simp only [Bool.and_eq_true, decide_eq_true_eq] at hboth
      exact hboth.1
    simp [hkept]
  unfold staleClaims
  rw [hrows, filter_insertionSort ((antisymm_rows (fun row =>
    optional row.claimedAt) table).filter _)]

end Cancel

/-! ### What the gate cancels -/

variable {ids : List WorkflowId} {stale : List OutboxRow} {row : OutboxRow} {batchSize limit : ℕ}

section Gate

variable {history : WorkflowId → List Event} {clock : Instant → Prop} {table table' : OutboxTable}
  {rows : List OutboxRow}

theorem mem_candidatesOf {seen : List WorkflowId} {id : WorkflowId} :
    (∃ row ∈ candidatesOf seen rows, row.workflowId = id) ↔ id ∉ seen ∧ ∃ row ∈ rows,
      row.workflowId = id := by
  induction rows generalizing seen with
  | nil => simp [candidatesOf]
  | cons row rest ih =>
    unfold candidatesOf
    split
    · rename_i hseen
      rw [ih, List.exists_mem_cons_iff]
      refine and_congr_right fun hid => ?_
      rw [or_iff_right]
      rintro rfl
      exact hid hseen
    · rename_i hseen
      rw [List.exists_mem_cons_iff, ih, List.exists_mem_cons_iff, List.mem_cons]
      by_cases hrow : row.workflowId = id
      · subst hrow
        simp [hseen]
      · simp [hrow, Ne.symm hrow]

variable {outcome : Except StoreError Unit} {now : Instant}

/-- The gate cancels the rows of ended workflows only; when it comes to its end, of every one. -/
theorem ends_settleCandidates
    (h : Fallible.Ends (StoreAnswers history clock) (settleCandidates rows) table outcome table') :
    ∃ ids : List WorkflowId, table' = cancelOf table (· ∈ ids) ∧
      (outcome = .ok () → ∀ id, id ∈ ids ↔ HasEnded history id ∧ ∃ row ∈ rows,
        row.workflowId = id) := by
  induction rows generalizing table with
  | nil =>
    obtain ⟨-, rfl⟩ := Fallible.ends_pure_iff.mp h
    exact ⟨[], (cancelOf_none fun _ => List.not_mem_nil).symm, by simp⟩
  | cons row rest ih =>
    rcases Fallible.ends_then_iff.mp h with ⟨failure, rfl, hread⟩ | ⟨events, middle, hread, hgo⟩
    · obtain rfl := table_of_ends_readHistory hread
      exact ⟨[], (cancelOf_none fun _ => List.not_mem_nil).symm, by simp⟩
    · obtain ⟨rfl, rfl⟩ := ends_readHistory_ok_iff.mp hread
      split at hgo
      · rename_i hended
        rcases Fallible.ends_then_iff.mp hgo with ⟨failure, rfl, hsettle⟩ | ⟨keys, middle', hsettle, hgo⟩
        · obtain rfl := table_of_ends_outbox_error hsettle
          exact ⟨[], (cancelOf_none fun _ => List.not_mem_nil).symm, by simp⟩
        · obtain ⟨_, _, -, -, -, rfl⟩ := ends_outbox_ok_iff.mp hsettle
          obtain ⟨ids, rfl, hids⟩ := ih hgo
          refine ⟨row.workflowId :: ids, ?_, fun hok id => ?_⟩
          · rw [execute_settleWorkflow, cancelOf_cancelOf]
            simp only [List.mem_cons]
          · rw [List.mem_cons, hids hok, List.exists_mem_cons_iff]
            constructor
            · rintro (rfl | ⟨hid, hrest⟩)
              · exact ⟨hended, .inl rfl⟩
              · exact ⟨hid, .inr hrest⟩
            · rintro ⟨hid, rfl | hrest⟩
              · exact .inl rfl
              · exact .inr ⟨hid, hrest⟩
      · rename_i hlive
        obtain ⟨ids, rfl, hids⟩ := ih hgo
        refine ⟨ids, rfl, fun hok id => ?_⟩
        rw [hids hok, List.exists_mem_cons_iff]
        refine and_congr_right fun hid => ?_
        rw [or_iff_right]
        rintro rfl
        exact hlive hid

theorem rows_of_listStale {olderThan : Instant}
    (h : Fallible.Ends (StoreAnswers history clock)
        (WorkerM.outbox (fun _ => .listStaleClaimedOutboxRows olderThan limit)
      OutboxAnswer.toRows) table (.ok stale) table') :
    stale = (staleClaims table olderThan).take limit ∧ table' = table := by
  obtain ⟨answer, _, -, hans, rfl, rfl⟩ := ends_outbox_ok_iff.mp h
  exact ⟨OutboxAnswer.toRows_of_meaning hans, rfl⟩

theorem ends_settleTerminalCandidates {olderThan : Instant}
    (h : Fallible.Ends (StoreAnswers history clock)
        (settleTerminalCandidates olderThan batchSize) table outcome table') :
    ∃ ids : List WorkflowId, table' = cancelOf table (· ∈ ids) ∧
      (outcome = .ok () → ∀ id, id ∈ ids ↔
        HasEnded history id ∧ ∃ row ∈ (staleClaims table olderThan).take batchSize,
          row.workflowId = id) := by
  rcases Fallible.ends_then_iff.mp h with ⟨failure, rfl, hlist⟩ | ⟨stale, middle, hlist, hgo⟩
  · obtain rfl := table_of_ends_outbox_error hlist
    exact ⟨[], (cancelOf_none fun _ => List.not_mem_nil).symm, by simp⟩
  · obtain ⟨rfl, rfl⟩ := rows_of_listStale hlist
    split at hgo
    · rename_i hemp
      obtain ⟨-, rfl⟩ := Fallible.ends_pure_iff.mp hgo
      refine ⟨[], (cancelOf_none fun _ => List.not_mem_nil).symm, fun _ id => ?_⟩
      rw [List.isEmpty_iff.mp hemp]
      simp
    · obtain ⟨ids, rfl, hids⟩ := ends_settleCandidates hgo
      refine ⟨ids, rfl, fun hok id => ?_⟩
      rw [hids hok, mem_candidatesOf]
      simp

/-- A store that refuses nothing brings the gate to its end. -/
theorem exists_ends_settleCandidates (hclock : clock now) (table : OutboxTable) :
    ∃ table', Fallible.Ends (StoreAnswers history clock) (settleCandidates rows) table
      (.ok ()) table' := by
  induction rows generalizing table with
  | nil => exact ⟨table, Fallible.ends_pure_iff.mpr ⟨rfl, rfl⟩⟩
  | cons row rest ih =>
    by_cases hended : isSettleTerminal (statusFromEvents (history row.workflowId)) = true
    · obtain ⟨table', hrest⟩ := ih (table.execute (.settleWorkflowOutboxRowsCancelled row.workflowId)).2
      refine ⟨table', Fallible.ends_then_ok_iff.mpr ⟨_, table, ends_readHistory_ok_iff.mpr ⟨rfl, rfl⟩, ?_⟩⟩
      rw [if_pos hended]
      exact Fallible.ends_then_ok_iff.mpr ⟨_, _, ends_outbox hclock _ _ _, hrest⟩
    · obtain ⟨table', hrest⟩ := ih table
      refine ⟨table', Fallible.ends_then_ok_iff.mpr ⟨_, table, ends_readHistory_ok_iff.mpr ⟨rfl, rfl⟩, ?_⟩⟩
      rw [if_neg hended]
      exact hrest

theorem exists_ends_settleTerminalCandidates (hclock : clock now) (table : OutboxTable)
    (olderThan : Instant) (batchSize : ℕ) :
    ∃ table', Fallible.Ends (StoreAnswers history clock)
      (settleTerminalCandidates olderThan batchSize) table (.ok ())
      table' := by
  have hlist : Fallible.Ends (StoreAnswers history clock)
      (WorkerM.outbox (fun _ => .listStaleClaimedOutboxRows olderThan batchSize) OutboxAnswer.toRows) table
      (.ok (table.select (isStale olderThan) staleOrder batchSize)) table := ends_outbox hclock _ _ table
  by_cases hemp : (table.select (isStale olderThan) staleOrder batchSize).isEmpty = true
  · refine ⟨table, Fallible.ends_then_ok_iff.mpr ⟨_, _, hlist, ?_⟩⟩
    rw [if_pos hemp]
    exact Fallible.ends_pure_iff.mpr ⟨rfl, rfl⟩
  · obtain ⟨table', hgate⟩ := exists_ends_settleCandidates hclock table
    refine ⟨table', Fallible.ends_then_ok_iff.mpr ⟨_, _, hlist, ?_⟩⟩
    rw [if_neg hemp]
    exact hgate

end Gate

/-! ### What the second selection takes -/

/-- Nothing that has ended is among the first `limit` kept ones exactly when everything that has
ended is dropped or behind `limit` that have not. -/
theorem forall_mem_take_filter_iff {α : Type} {ended kept : α → Prop} [DecidablePred ended]
    [DecidablePred kept] (hkept : ∀ a, ¬ ended a → kept a) (limit : ℕ) (l : List α) :
    (∀ a ∈ (l.filter fun a => kept a).take limit, ¬ ended a) ↔
      ∀ before a after, l = before ++ a :: after → ended a →
        limit ≤ (before.countP fun a => ¬ ended a) ∨ ¬ kept a := by
  induction l generalizing limit with
  | nil => simp
  | cons x rest ih =>
    -- A split of the list is at its head or a split of the rest.
    have hspl : (∀ before a after, x :: rest = before ++ a :: after → ended a →
          limit ≤ (before.countP fun a => ¬ ended a) ∨ ¬ kept a) ↔
        (ended x → limit = 0 ∨ ¬ kept x) ∧ ∀ before a after, rest = before ++ a :: after → ended a →
          limit ≤ ((x :: before).countP fun a => ¬ ended a) ∨ ¬ kept a := by
      constructor
      · intro h
        exact ⟨fun hx => (h [] x rest rfl hx).imp_left Nat.le_zero.mp,
          fun before a after hrest ha => h (x :: before) a after (by rw [hrest]; rfl) ha⟩
      · rintro ⟨hhead, hrest⟩ before a after heq ha
        cases before with
        | nil =>
          obtain ⟨rfl, rfl⟩ := List.cons.inj heq
          exact (hhead ha).imp_left fun hlimit => hlimit.le
        | cons y before =>
          obtain ⟨rfl, rfl⟩ := List.cons.inj heq
          exact hrest before a after rfl ha
    rw [hspl]
    by_cases hx : kept x
    · rw [List.filter_cons_of_pos (by simpa using hx)]
      cases limit with
      | zero => simp
      | succ limit =>
        rw [List.take_succ_cons, List.forall_mem_cons, ih]
        by_cases hended : ended x
        · simp [hended, hx]
        · simp [hended]
    · have hended : ended x := by
        by_contra hlive
        exact hx (hkept x hlive)
      rw [List.filter_cons_of_neg (by simpa using hx), ih]
      simp [hended, hx]

/-- The rows that return to pending are those that the second selection takes. -/
theorem returnsToPending_iff {table : OutboxTable} {olderThan visibleAfter : Instant} :
    ReturnsToPending table ((cancelOf table (· ∈ ids)).execute
        (.rearmStaleClaimedOutboxRows olderThan visibleAfter limit)).2 row ↔
      row ∈ ((staleClaims table olderThan).filter fun row => row.workflowId ∉ ids).take limit := by
  have hsel : (cancelOf table (· ∈ ids)).select (isStale olderThan) staleOrder limit =
      ((staleClaims table olderThan).filter fun row => row.workflowId ∉ ids).take limit :=
    congrArg (List.take limit) (staleClaims_cancelOf olderThan)
  unfold ReturnsToPending
  simp only [execute, rewrite, hsel, KeyedTable.lookup_modify]
  simp only [cancelOf, KeyedTable.lookup_modify]
  generalize htaken : ((staleClaims table olderThan).filter fun row =>
      row.workflowId ∉ ids).take limit = taken
  have hof : ∀ row ∈ taken, row ∈ table.rows ∧ row.status = .claimed ∧ row.workflowId ∉ ids := by
    rintro row hmem
    rw [← htaken] at hmem
    obtain ⟨hstale, hid⟩ := List.mem_filter.mp (List.mem_of_mem_take hmem)
    obtain ⟨hrow, hclmd⟩ := List.mem_filter.mp ((List.mem_insertionSort _).mp hstale)
    exact ⟨hrow, (of_decide_eq_true hclmd).1, by simpa using hid⟩
  constructor
  · rintro ⟨hrow, hstat, row', hlook, hpend⟩
    rw [KeyedTable.lookup_of_mem hrow] at hlook
    simp only [Option.map_some, Option.some.injEq] at hlook
    subst hlook
    by_contra hnot
    by_cases hid : row.workflowId ∈ ids
    · -- A cancelled row is not among those taken, and stays as the gate left it.
      have hsett : row.settle ∉ taken := fun hmem => (hof _ hmem).2.2 (by rwa [OutboxRow.settle_workflowId])
      simp only [hid, decide_true, if_true, hsett, decide_false, Bool.false_eq_true, if_false] at hpend
      unfold OutboxRow.settle at hpend
      split at hpend
      · cases hpend
      · exact hstat hpend
    · simp only [hid, decide_false, Bool.false_eq_true, if_false, hnot] at hpend
      exact hstat hpend
  · intro hmem
    obtain ⟨hrow, hclmd, hid⟩ := hof row hmem
    refine ⟨hrow, by simp [hclmd], row.rearm visibleAfter, ?_, rfl⟩
    rw [KeyedTable.lookup_of_mem hrow]
    simp [hid, hmem]

/-- A gate that is refused something returns no row to pending. -/
theorem not_returnsToPending_cancelOf {table : OutboxTable} :
    ¬ ReturnsToPending table (cancelOf table (· ∈ ids)) row := by
  rintro ⟨hrow, hstat, row', hlook, hpend⟩
  rw [cancelOf, KeyedTable.lookup_modify, KeyedTable.lookup_of_mem hrow] at hlook
  simp only [Option.map_some, Option.some.injEq] at hlook
  subst hlook
  split at hpend
  · unfold OutboxRow.settle at hpend
    split at hpend
    · cases hpend
    · exact hstat hpend
  · exact hstat hpend

/-- The rows that return when the gate cancels the ended workflows among the first `batchSize`
stale claims are all of live workflows exactly when the gate reaches. -/
theorem taken_live_iff {history : WorkflowId → List Event}
    (hids : ∀ id, id ∈ ids ↔ HasEnded history id ∧ ∃ row ∈ stale.take batchSize,
        row.workflowId = id) :
    (∀ row ∈ (stale.filter fun row => row.workflowId ∉ ids).take batchSize,
        ¬ HasEnded history row.workflowId) ↔
      GateReaches history batchSize stale := by
  have hkept : ∀ row : OutboxRow, ¬ HasEnded history row.workflowId → row.workflowId ∉ ids :=
    fun row hlive hmem => hlive ((hids _).mp hmem).1
  rw [forall_mem_take_filter_iff hkept]
  refine forall_congr' fun before => forall_congr' fun row => forall_congr' fun after =>
    forall_congr' fun heq =>
    forall_congr' fun hended => or_congr_right ?_
  rw [not_not, hids, and_iff_right hended]

/-! ### Exactly when only live rows return -/

section Sweep

variable (history : WorkflowId → List Event) (table : OutboxTable) {config : OutboxReconcilerConfig}
  {now olderThan : Instant}

variable {clock : Instant → Prop} {table' : OutboxTable}

variable {history table} in
/-- A sweep re-arms after the gate has cancelled what it reaches, or returns no row to pending. -/
theorem sweep_cases (hthresh : staleThreshold now config.staleAfter = some olderThan)
    (h : (reconcilerSweepOnce config now).Ends (StoreAnswers history clock) table () table') :
    (∀ row, ¬ ReturnsToPending table table' row) ∨
      ∃ ids : List WorkflowId,
        (∀ id, id ∈ ids ↔ HasEnded history id ∧
            ∃ row ∈ (staleClaims table olderThan).take config.batchSize, row.workflowId = id) ∧
        table' = ((cancelOf table (· ∈ ids)).execute
            (.rearmStaleClaimedOutboxRows olderThan now config.batchSize)).2 := by
  unfold reconcilerSweepOnce at h
  rw [hthresh] at h
  obtain ⟨gate, middle, hgate, hrest⟩ := ends_bind_iff.mp h
  obtain ⟨ids, rfl, hids⟩ := ends_settleTerminalCandidates hgate
  cases gate with
  | error failure =>
    obtain ⟨-, rfl⟩ := ends_done_iff.mp hrest
    exact .inl fun row => not_returnsToPending_cancelOf
  | ok =>
    obtain ⟨failure | rows, last, hrearm, hdone⟩ := ends_bind_iff.mp hrest
    · obtain ⟨-, rfl⟩ := ends_done_iff.mp hdone
      rw [table_of_ends_outbox_error hrearm]
      exact .inl fun row => not_returnsToPending_cancelOf
    · obtain ⟨-, rfl⟩ := ends_done_iff.mp hdone
      obtain ⟨_, _, -, -, -, rfl⟩ := ends_outbox_ok_iff.mp hrearm
      exact .inr ⟨ids, hids rfl, rfl⟩

/-- On a store that refuses nothing the sweep comes to its end. -/
theorem exists_ends_sweep (hthresh : staleThreshold now config.staleAfter = some olderThan) :
    ∃ ids : List WorkflowId,
      (∀ id, id ∈ ids ↔ HasEnded history id ∧
          ∃ row ∈ (staleClaims table olderThan).take config.batchSize, row.workflowId = id) ∧
      (reconcilerSweepOnce config now).Ends (StoreAnswers history AnyReading) table ()
        ((cancelOf table (· ∈ ids)).execute
            (.rearmStaleClaimedOutboxRows olderThan now config.batchSize)).2 := by
  obtain ⟨table', hgate⟩ :=
    exists_ends_settleTerminalCandidates (anyReading now) table olderThan config.batchSize
  obtain ⟨ids, rfl, hids⟩ := ends_settleTerminalCandidates hgate
  refine ⟨ids, hids rfl, ?_⟩
  unfold reconcilerSweepOnce
  rw [hthresh]
  have hrearm : Fallible.Ends (StoreAnswers history AnyReading)
      (WorkerM.outbox (fun _ => .rearmStaleClaimedOutboxRows olderThan now config.batchSize) OutboxAnswer.toRows)
      (cancelOf table (· ∈ ids)) _ _ := ends_outbox (anyReading now) _ _ _
  exact ends_bind_iff.mpr ⟨.ok (), _, hgate, ends_bind_iff.mpr ⟨_, _, hrearm, .done _ _⟩⟩

variable {history table} in
/-- Where the gate reaches, only rows of live workflows return. -/
theorem live_of_gateReaches
    (h : ∀ olderThan, staleThreshold now config.staleAfter = some olderThan →
      GateReaches history config.batchSize (staleClaims table olderThan))
    (hends : (reconcilerSweepOnce config now).Ends (StoreAnswers history clock) table () table')
    (hrets : ReturnsToPending table table' row) : ¬ HasEnded history row.workflowId := by
  cases hthresh : staleThreshold now config.staleAfter with
  | none =>
    unfold reconcilerSweepOnce at hends
    rw [hthresh] at hends
    obtain ⟨-, rfl⟩ := ends_done_iff.mp hends
    obtain ⟨hrow, hstat, row', hlook, hpend⟩ := hrets
    rw [KeyedTable.lookup_of_mem hrow, Option.some.injEq] at hlook
    exact absurd (hlook ▸ hpend) hstat
  | some olderThan =>
    rcases sweep_cases hthresh hends with hnone | ⟨ids, hids, rfl⟩
    · exact absurd hrets (hnone row)
    · exact (taken_live_iff hids).mpr (h olderThan hthresh) row (returnsToPending_iff.mp hrets)

variable {history table} in
/-- Where only rows of live workflows return, the gate reaches. -/
theorem RearmImpliesLive.gateReaches (h : RearmImpliesLive history table config now)
    (hthresh : staleThreshold now config.staleAfter = some olderThan) :
    GateReaches history config.batchSize (staleClaims table olderThan) := by
  obtain ⟨ids, hids, hends⟩ := exists_ends_sweep history table hthresh
  refine (taken_live_iff hids).mp fun row hrow => ?_
  exact h _ hends row (returnsToPending_iff.mpr hrow)

end Sweep

/-- **Re-arm implies live, exactly when the gate reaches**: whatever the store refuses, a sweep
returns to pending only rows of workflows that have not ended, if and only if every stale claim
of an ended workflow is behind `batch_size` stale claims of live workflows or has a claim of its
workflow among the `batch_size` oldest. -/
theorem rearm_implies_live_iff (history : WorkflowId → List Event) (table : OutboxTable)
    (config : OutboxReconcilerConfig) (now : Instant) :
    RearmImpliesLive history table config now ↔
      ∀ olderThan, staleThreshold now config.staleAfter = some olderThan →
        GateReaches history config.batchSize (staleClaims table olderThan) :=
  ⟨fun h _ hthresh => h.gateReaches hthresh, fun h _ hends _ hrets =>
      live_of_gateReaches h hends hrets⟩

/-- Two workflows that failed, each with a claim that nobody finished. -/
def strandedTable : OutboxTable where
  rows := [(OutboxRow.pending ⟨0⟩ 0 "charge" .empty 0).claim 0,
      (OutboxRow.pending ⟨1⟩ 0 "charge" .empty 0).claim 1]
  unique := by decide +kernel

/-- Every workflow has failed. -/
def failedHistory (workflowId : WorkflowId) : List Event :=
  [⟨⟨1, 0, workflowId⟩, .workflowFailed ⟨"declined", none⟩⟩]

/-- With `batch_size` one the gate cancels the older row, and the re-arm takes the other. -/
theorem rearm_of_ended_workflow : ¬ RearmImpliesLive failedHistory strandedTable ⟨10, 1⟩ 100 := by
  intro h
  have hreaches : GateReaches failedHistory 1 (staleClaims strandedTable 90) :=
    h.gateReaches (by decide)
  have hstale : staleClaims strandedTable 90 =
      [(OutboxRow.pending ⟨0⟩ 0 "charge" .empty 0).claim 0] ++
        (OutboxRow.pending ⟨1⟩ 0 "charge" .empty 0).claim 1 :: [] := by
    decide +kernel
  rcases hreaches _ _ _ hstale (by decide) with hbehind | ⟨probed, hprobed, hid⟩
  · exact absurd hbehind (by decide)
  · rw [hstale] at hprobed
    obtain rfl : probed = _ := List.mem_singleton.mp hprobed
    exact absurd hid (by decide)

/-! ### On the backends -/

section Backends

variable {Bytes : Type} {codec : OutboxCodec Bytes} {history : WorkflowId → List Event}
  {config : OutboxReconcilerConfig}
  {now : Instant}

theorem calls_settleCandidates (rows : List OutboxRow) :
    Prog.Calls WorkerCall.Admissible (settleCandidates rows) := by
  induction rows with
  | nil => trivial
  | cons row rest ih =>
    refine Prog.Calls.bind ⟨trivial, fun answer => trivial⟩ fun outcome => ?_
    cases outcome with
    | error failure => trivial
    | ok events =>
      by_cases hended : isSettleTerminal (statusFromEvents events) = true
      · simp only [hended, if_true]
        refine Prog.Calls.bind ⟨fun now _ => ⟨trivial, rfl⟩, fun answer => trivial⟩ fun outcome => ?_
        cases outcome with
        | error failure => trivial
        | ok keys => exact ih
      · simp only [hended]
        exact ih

/-- The sweep's calls are well formed while the threshold and the clock are in the years 0 to
9999. -/
theorem calls_reconcilerSweepOnce (hnow : Rfc3339.FourDigitYear now)
    (hthresh : ∀ olderThan, staleThreshold now config.staleAfter = some olderThan →
        Rfc3339.FourDigitYear olderThan) :
    (reconcilerSweepOnce config now).Calls WorkerCall.Admissible := by
  unfold reconcilerSweepOnce
  split
  · trivial
  · rename_i olderThan heq
    have holder := hthresh olderThan heq
    refine Prog.Calls.bind (Prog.Calls.bind ⟨fun _ _ => ⟨holder, rfl⟩, fun answer => trivial⟩
        fun outcome => ?_) fun gate => ?_
    · cases outcome with
      | error failure => trivial
      | ok stale =>
        by_cases hemp : stale.isEmpty = true
        · simp only [hemp, if_true]
          trivial
        · simp only [hemp]
          exact calls_settleCandidates _
    · cases gate with
      | error failure => trivial
      | ok => exact Prog.Calls.bind ⟨fun _ _ => ⟨⟨holder, hnow⟩, rfl⟩, fun answer => trivial⟩ fun outcome => trivial

/-- On libSQL, as over the rows the table holds. -/
theorem rearm_implies_live_libSql (lawful : codec.Lawful) {state last : LibSqlOutbox Bytes}
    {table : OutboxTable} (hencs : LibSqlOutbox.Encodes codec state table)
    (hrows : table.Admissible) (hnow : Rfc3339.FourDigitYear now)
    (hthresh : ∀ olderThan, staleThreshold now config.staleAfter = some olderThan →
        Rfc3339.FourDigitYear olderThan ∧
      GateReaches history config.batchSize (staleClaims table olderThan))
    (hends : (reconcilerSweepOnce config now).Ends
        (BackendAnswers (LibSqlOutbox.execute codec) history) state () last) :
    ∃ table', LibSqlOutbox.Encodes codec last table' ∧
      ∀ row, ReturnsToPending table table' row → ¬ HasEnded history row.workflowId := by
  have hcalls := calls_reconcilerSweepOnce hnow fun olderThan h => (hthresh olderThan h).1
  obtain ⟨table', hends', hlast, -⟩ := ends_of_libSql lawful hcalls hends hencs hrows
  exact ⟨table', hlast, fun row => live_of_gateReaches
      (fun olderThan h => (hthresh olderThan h).2) hends'⟩

/-- On haematite, as over the rows its shards hold. -/
theorem rearm_implies_live_haematite (lawful : codec.Lawful) {sharding : Sharding}
    {state last : Database Bytes} {table : OutboxTable}
    (hrep : Haematite.Represents codec sharding state table.lookup) (hrows : table.Admissible)
    (hnow : Rfc3339.FourDigitYear now)
    (hthresh : ∀ olderThan, staleThreshold now config.staleAfter = some olderThan →
        Rfc3339.FourDigitYear olderThan ∧
      GateReaches history config.batchSize (staleClaims table olderThan))
    (hends : (reconcilerSweepOnce config now).Ends
        (BackendAnswers (Haematite.execute codec sharding) history) state () last) :
    ∃ table', Haematite.Represents codec sharding last table'.lookup ∧
      ∀ row, ReturnsToPending table table' row → ¬ HasEnded history row.workflowId := by
  have hcalls := calls_reconcilerSweepOnce hnow fun olderThan h => (hthresh olderThan h).1
  obtain ⟨table', hends', hlast, -⟩ := ends_of_haematite lawful hcalls hends hrep hrows
  exact ⟨table', hlast, fun row => live_of_gateReaches
      (fun olderThan h => (hthresh olderThan h).2) hends'⟩

end Backends

end Aion
