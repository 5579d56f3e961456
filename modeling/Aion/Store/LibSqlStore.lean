import Aion.Library.Machine
import Aion.Store.LibSqlOutbox

/-!
# The libSQL store

The histories and the outbox of the libSQL store, with the append that writes both in one
transaction (`append.rs`), and the runs of the store over any sequence of outbox
operations.

A row that is done, failed or cancelled is at its end. `terminal_kept_iff` says in which
runs it stays there: in those where no report of a dispatcher (complete, retry, fail) finds
the row it names at an end other than the one it reports.
-/

namespace Aion

open Machine

/-- The store's state. -/
structure LibSqlStore (Bytes : Type) where
  /-- The `events` table: the history of each workflow. -/
  events : AList fun _ : WorkflowId => List Event
  /-- The visibility rows. -/
  visibility : VisibilityTable
  /-- The `outbox` table. -/
  outbox : LibSqlOutbox Bytes

namespace LibSqlStore

variable {Bytes : Type} (codec : OutboxCodec Bytes)

/-- An empty database. -/
def empty : LibSqlStore Bytes := ⟨∅, .empty, .empty⟩

/-- `append_with_outbox`: events and outbox rows, or neither. -/
def appendWithOutbox (store : LibSqlStore Bytes) (workflowId : WorkflowId) (events : List Event)
    (expectedSeq : ℕ) (outboxRows : List OutboxRow) : Except StoreError (LibSqlStore Bytes) :=
  let history := (store.events.lookup workflowId).getD []
  let storedHead := InMemoryStore.historyHead history
  if storedHead ≠ expectedSeq then .error (.sequenceConflict expectedSeq storedHead)
  else if events = [] ∧ outboxRows = [] then .ok store
  else
    match InMemoryStore.firstGap (expectedSeq + 1) events with
    | some (nextSeq, event) =>
      .error (.backend ("event sequence must be contiguous: expected " ++ toString nextSeq ++ ", got " ++
        toString event.seq))
    | none => do
      let outbox ← outboxRows.foldlM (LibSqlOutbox.insertOutboxRow codec) store.outbox
      return { store with events := store.events.insert workflowId (history ++ events), outbox }

/-- The answer of an append and the store after it; an append that fails is rolled back. -/
def appendAnswer (store : LibSqlStore Bytes) (workflowId : WorkflowId) (events : List Event)
    (expectedSeq : ℕ) (outboxRows : List OutboxRow) : Except StoreError Unit × LibSqlStore Bytes :=
  match appendWithOutbox codec store workflowId events expectedSeq outboxRows with
  | .ok store' => (.ok (), store')
  | .error error => (.error error, store)

/-- The store's answer to a recorder's call and the store after it. -/
def serve (store : LibSqlStore Bytes) : (call : StoreCall) → call.Answer × LibSqlStore Bytes
  | .append workflowId events expectedSeq =>
    appendAnswer codec store workflowId events expectedSeq []
  | .appendWithOutbox workflowId events expectedSeq outboxRows =>
    appendAnswer codec store workflowId events expectedSeq outboxRows
  | .readHistory workflowId =>
    (.ok (InMemoryStore.historyInSequenceOrder ((store.events.lookup workflowId).getD [])), store)
  | .recordVisibility record =>
    (.ok (), { store with visibility := store.visibility.recordVisibility record })
  | .settleWorkflowOutboxRowsCancelled workflowId =>
    let (settled, outbox) := store.outbox.settleWorkflowOutboxRowsCancelled workflowId
    (.ok settled, { store with outbox })
  | .settleOutboxRowCancelled dispatchKey =>
    (.ok (), { store with outbox := store.outbox.settleOutboxRowCancelled dispatchKey })

/-- What reaches the outbox table. -/
inductive Operation where
  /-- `append_with_outbox`. -/
  | appendWithOutbox (workflowId : WorkflowId) (events : List Event) (expectedSeq : ℕ)
    (outboxRows : List OutboxRow)
  /-- An operation of the outbox. -/
  | outbox (operation : OutboxOperation)

/-- Runs an operation. -/
def step (store : LibSqlStore Bytes) :
    Operation → Except StoreError OutboxAnswer × LibSqlStore Bytes
  | .appendWithOutbox workflowId events expectedSeq outboxRows =>
    let (answer, store') := appendAnswer codec store workflowId events expectedSeq outboxRows
    (answer.map fun _ => .done, store')
  | .outbox operation =>
    let (answer, outbox) := store.outbox.execute codec operation
    (answer, { store with outbox })

end LibSqlStore

namespace LibSqlOutbox

variable {Bytes : Type} {codec : OutboxCodec Bytes} {table table' : LibSqlOutbox Bytes}
  {key : String}

/-- The status of the row with a key. -/
def statusAt (table : LibSqlOutbox Bytes) (key : String) : Option String :=
  (table.lookup key).map OutboxColumns.status

/-- `Done`, `Failed` and `Cancelled`. -/
def IsTerminal (status : String) : Prop :=
  status = "done" ∨ status = "failed" ∨ status = "cancelled"

instance (status : String) : Decidable (IsTerminal status) := inferInstanceAs (Decidable (_ ∨ _))

/-- The row with a key keeps the status it ended in. -/
def KeptAt (key : String) (table table' : LibSqlOutbox Bytes) : Prop :=
  ∀ status, IsTerminal status → table.statusAt key = some status → table'.statusAt key = some status

theorem KeptAt.refl (key : String) (table : LibSqlOutbox Bytes) : KeptAt key table table :=
  fun _ _ h => h

theorem KeptAt.trans {table'' : LibSqlOutbox Bytes} (h : KeptAt key table table')
    (h' : KeptAt key table' table'') : KeptAt key table table'' :=
  fun status hterm hstat => h' status hterm (h status hterm hstat)

/-! ### What each statement keeps -/

/-- An update whose `WHERE` leaves out the rows at their end keeps these. -/
theorem keptAt_update {where_ : OutboxColumns Bytes → Bool}
    {set : OutboxColumns Bytes → OutboxColumns Bytes}
    {keeps : ∀ row, (set row).dispatchKey = row.dispatchKey}
    (hwhere : ∀ row, where_ row = true → row.dispatchKey = key → ¬ IsTerminal row.status) :
    KeptAt key table (update table where_ set keeps) := by
  intro status hterm hstat
  obtain ⟨found, hfd, rfl⟩ := Option.map_eq_some_iff.mp hstat
  have hout : where_ found = false := by
    by_contra hin
    exact hwhere found (by simpa using hin) (KeyedTable.key_of_lookup hfd) hterm
  rw [statusAt, update, KeyedTable.lookup_modify, hfd]
  simp [hout]

theorem not_terminal_of_isLive {row : OutboxColumns Bytes} (h : isLive row = true) :
    ¬ IsTerminal row.status := by
  simp only [isLive, decide_eq_true_eq] at h
  rcases h with h | h <;> rw [h] <;> decide

theorem keptAt_claimRow {dispatchKey now : String} :
    KeptAt key table (claimRow table dispatchKey now) := by
  refine keptAt_update fun row hwhere _ => not_terminal_of_isLive ?_
  simp only [decide_eq_true_eq] at hwhere
  simp [isLive, hwhere.2]

theorem keptAt_rearmStaleRow {dispatchKey visibleAfter : String} :
    KeptAt key table (rearmStaleRow table dispatchKey visibleAfter) := by
  refine keptAt_update fun row hwhere _ => not_terminal_of_isLive ?_
  simp only [decide_eq_true_eq] at hwhere
  simp [isLive, hwhere.2]

variable {claimed rearmed rows : List OutboxRow} {selected : List (OutboxColumns Bytes)}
  {held : List WorkflowId} {visibleAfter claimedAt now : Instant} {limit : ℕ}

theorem keptAt_claimSelected
    (h : claimSelected codec claimedAt table selected = .ok (claimed, table')) :
    KeptAt key table table' := by
  induction selected generalizing table claimed with
  | nil =>
    cases h
    exact KeptAt.refl key _
  | cons row rest ih =>
    obtain ⟨decoded, -, h⟩ := Result.bind_eq_ok h
    obtain ⟨⟨later, final⟩, hlat, h⟩ := Result.bind_eq_ok h
    cases h
    exact keptAt_claimRow.trans (ih hlat)

theorem keptAt_claimUnheld
    (h : claimUnheld codec claimedAt held limit table selected = .ok (claimed, table')) :
    KeptAt key table table' := by
  induction selected generalizing table limit claimed with
  | nil =>
    cases limit <;> cases h <;> exact KeptAt.refl key _
  | cons row rest ih =>
    cases limit with
    | zero =>
      cases h
      exact KeptAt.refl key _
    | succ limit =>
      rw [claimUnheld] at h
      obtain ⟨decoded, -, h⟩ := Result.bind_eq_ok h
      split at h
      · exact ih h
      · obtain ⟨⟨later, final⟩, hlat, h⟩ := Result.bind_eq_ok h
        cases h
        exact keptAt_claimRow.trans (ih hlat)

theorem keptAt_rearmSelected
    (h : rearmSelected codec visibleAfter table selected = .ok (rearmed, table')) :
    KeptAt key table table' := by
  induction selected generalizing table rearmed with
  | nil =>
    cases h
    exact KeptAt.refl key _
  | cons row rest ih =>
    obtain ⟨decoded, -, h⟩ := Result.bind_eq_ok h
    obtain ⟨⟨later, final⟩, hlat, h⟩ := Result.bind_eq_ok h
    cases h
    exact keptAt_rearmStaleRow.trans (ih hlat)

theorem keptAt_claimOutboxRows (h : claimOutboxRows codec table now limit = .ok (claimed, table')) :
    KeptAt key table table' := by
  unfold claimOutboxRows at h
  split at h
  · cases h
    exact KeptAt.refl key _
  · exact keptAt_claimSelected h

theorem keptAt_claimOutboxRowsExcluding
    (h : claimOutboxRowsExcluding codec table now limit held = .ok (claimed, table')) :
    KeptAt key table table' := by
  unfold claimOutboxRowsExcluding at h
  split at h
  · cases h
    exact KeptAt.refl key _
  · split at h
    · exact keptAt_claimOutboxRows h
    · exact keptAt_claimUnheld h

theorem keptAt_claimOutboxRowsScopedExcluding {scope : ClaimScope}
    (h : claimOutboxRowsScopedExcluding codec table now scope limit held = .ok (claimed, table')) :
    KeptAt key table table' := by
  unfold claimOutboxRowsScopedExcluding at h
  split at h
  · cases h
    exact KeptAt.refl key _
  · exact keptAt_claimUnheld h

theorem keptAt_rearmStaleClaimedOutboxRows {olderThan : Instant}
    (h : rearmStaleClaimedOutboxRows codec table olderThan visibleAfter limit =
        .ok (rearmed, table')) : KeptAt key table table' := by
  unfold rearmStaleClaimedOutboxRows at h
  split at h
  · cases h
    exact KeptAt.refl key _
  · exact keptAt_rearmSelected h

theorem keptAt_insertOutboxRows
    (h : rows.foldlM (insertOutboxRow codec) table = .ok table') : KeptAt key table table' := by
  obtain rfl := insertOutboxRows_eq_ok h
  intro status _ hstat
  obtain ⟨found, hfd, hstat⟩ := Option.map_eq_some_iff.mp hstat
  rw [statusAt, KeyedTable.lookup_insertAll, hfd]
  simpa using hstat

/-- A re-arm touches the rows it names and no other. -/
theorem statusAt_rearmOutboxRow {row : OutboxRow} (h : rearmOutboxRow codec table row = .ok table')
    (hkey : row.dispatchKey ≠ key) : table'.statusAt key = table.statusAt key := by
  obtain ⟨inserted, hinsd, hafter⟩ := Result.bind_eq_ok h
  cases hafter
  obtain rfl := columns_eq_ok hinsd
  have hother : (rearmInserted (columnsOf codec row)).dispatchKey ≠ key := hkey
  rw [statusAt, KeyedTable.lookup_upsert, if_neg hother, statusAt]

theorem keptAt_rearmOutboxRows (h : rows.foldlM (rearmOutboxRow codec) table = .ok table')
    (hkey : ∀ row ∈ rows, row.dispatchKey ≠ key) : KeptAt key table table' := by
  refine Result.foldlM_rel (KeptAt key) (KeptAt.refl key) (fun _ _ _ => KeptAt.trans) ?_ h
  intro before after row hmem hrow status _ hstat
  rw [statusAt_rearmOutboxRow hrow (hkey row hmem)]
  exact hstat

theorem keptAt_settleWorkflow {workflowId : WorkflowId} :
    KeptAt key table (settleWorkflowOutboxRowsCancelled table workflowId).2 := by
  unfold settleWorkflowOutboxRowsCancelled
  dsimp only
  split
  · exact KeptAt.refl key table
  · refine keptAt_update fun row hwhere _ => not_terminal_of_isLive ?_
    simp only [decide_eq_true_eq] at hwhere
    exact hwhere.2

theorem keptAt_settleRow {dispatchKey : String} :
    KeptAt key table (settleOutboxRowCancelled table dispatchKey) := by
  refine keptAt_update fun row hwhere _ => not_terminal_of_isLive ?_
  simp only [decide_eq_true_eq] at hwhere
  exact hwhere.2

/-- A report sets the status of the row it names, whatever it was. -/
theorem statusAt_report {dispatchKey status : String}
    {set : OutboxColumns Bytes → OutboxColumns Bytes}
    {keeps : ∀ row, (set row).dispatchKey = row.dispatchKey}
    (hset : ∀ row, (set row).status = status) :
    statusAt (update table (fun row => row.dispatchKey = dispatchKey) set keeps) key =
      if key = dispatchKey then (table.statusAt key).map fun _ => status
      else table.statusAt key := by
  rw [statusAt, update, KeyedTable.lookup_modify, statusAt]
  cases hfd : KeyedTable.lookup table key with
  | none => simp
  | some found =>
    have hkey : found.dispatchKey = key := KeyedTable.key_of_lookup hfd
    by_cases hnamed : key = dispatchKey
    · simp [hkey, hnamed, hset]
    · simp [hkey, hnamed]

theorem keptAt_report_iff {dispatchKey : String} (reported : String)
    {set : OutboxColumns Bytes → OutboxColumns Bytes}
    {keeps : ∀ row, (set row).dispatchKey = row.dispatchKey}
    (hset : ∀ row, (set row).status = reported) :
    (∀ key, KeptAt key table (update table (fun row => row.dispatchKey = dispatchKey) set keeps)) ↔
      ∀ status, table.statusAt dispatchKey = some status → IsTerminal status →
      status = reported := by
  constructor
  · intro kept status hstat hterm
    have hafter := kept dispatchKey status hterm hstat
    rw [statusAt_report hset, if_pos rfl, hstat] at hafter
    simpa using hafter.symm
  · intro hfits key status hterm hstat
    rw [statusAt_report hset]
    split
    · rename_i hkey
      rw [hkey] at hstat ⊢
      simp [hstat, hfits status hstat hterm]
    · exact hstat

end LibSqlOutbox

/-! ### Runs -/

namespace LibSqlStore

open LibSqlOutbox

variable {Bytes : Type} {codec : OutboxCodec Bytes}

/-- The operation is a `rearm_outbox_pending` that names the key. -/
def Operation.Rearms : Operation → String → Prop
  | .outbox (.rearmOutboxPending rows), key => ∃ row ∈ rows, row.dispatchKey = key
  | _, _ => False

/-- A report of a dispatcher does not find the row it names at an end other than the one
it reports. -/
def ReportFits (store : LibSqlStore Bytes) : Operation → Prop
  | .outbox (.completeOutboxRow key) =>
    ∀ status, store.outbox.statusAt key = some status → IsTerminal status → status = "done"
  | .outbox (.retryOutboxRow key _ _) =>
    ∀ status, store.outbox.statusAt key = some status → ¬ IsTerminal status
  | .outbox (.failOutboxRow key) =>
    ∀ status, store.outbox.statusAt key = some status → IsTerminal status → status = "failed"
  | _ => True

variable {key : String}

theorem keptAt_transaction {α : Type} {table : LibSqlOutbox Bytes} {answer : α → OutboxAnswer}
    {outcome : Except StoreError (α × LibSqlOutbox Bytes)}
    (h : ∀ value table', outcome = .ok (value, table') → KeptAt key table table') :
    KeptAt key table (transaction table answer outcome).2 := by
  cases outcome with
  | error error => exact KeptAt.refl key table
  | ok result => exact h result.1 result.2 rfl

theorem map_eq_ok {table' : LibSqlOutbox Bytes} {outcome : Except StoreError (LibSqlOutbox Bytes)}
    (h : outcome.map (((), ·) : LibSqlOutbox Bytes → Unit × LibSqlOutbox Bytes) =
        .ok ((), table')) : outcome = .ok table' := by
  cases outcome with
  | error error => cases h
  | ok table => cases h; rfl

theorem keptAt_append {store : LibSqlStore Bytes} {workflowId : WorkflowId} {events : List Event}
    {expectedSeq : ℕ} {outboxRows : List OutboxRow} :
    KeptAt key store.outbox
      (step codec store (.appendWithOutbox workflowId events expectedSeq outboxRows)).2.outbox := by
  simp only [step, appendAnswer]
  cases happ : appendWithOutbox codec store workflowId events expectedSeq outboxRows with
  | error error => exact KeptAt.refl key _
  | ok store' =>
    unfold appendWithOutbox at happ
    dsimp only at happ
    split at happ
    · cases happ
    · split at happ
      · cases happ
        exact KeptAt.refl key _
      · split at happ
        · cases happ
        · obtain ⟨outbox, houtbox, happ⟩ := Result.bind_eq_ok happ
          cases happ
          exact keptAt_insertOutboxRows houtbox

/-- **One step**: every row at its end keeps its status, except those a re-arm names,
exactly when a report fits. -/
theorem keptAt_step_iff (codec : OutboxCodec Bytes) {store : LibSqlStore Bytes}
    {operation : Operation} :
    (∀ key, ¬ operation.Rearms key → KeptAt key store.outbox
        (step codec store operation).2.outbox) ↔
      ReportFits store operation := by
  cases operation with
  | appendWithOutbox workflowId events expectedSeq outboxRows =>
    exact iff_of_true (fun key _ => keptAt_append) trivial
  | outbox operation =>
    cases operation with
    | completeOutboxRow dispatchKey =>
      change (∀ key, ¬ False → KeptAt key store.outbox (completeOutboxRow store.outbox dispatchKey)) ↔ _
      simp only [not_false_eq_true, forall_const]
      exact keptAt_report_iff _ fun _ => rfl
    | retryOutboxRow dispatchKey nextAttempt visibleAfter =>
      change (∀ key, ¬ False → KeptAt key store.outbox
        (retryOutboxRow store.outbox dispatchKey nextAttempt visibleAfter)) ↔ _
      simp only [not_false_eq_true, forall_const]
      unfold retryOutboxRow
      rw [keptAt_report_iff "pending" fun _ => rfl]
      refine forall₂_congr fun status _ => ?_
      -- No row is at its end and pending.
      exact imp_congr_right fun hterm => iff_false_intro fun h => absurd hterm (by rw [h]; decide)
    | failOutboxRow dispatchKey =>
      change (∀ key, ¬ False → KeptAt key store.outbox (failOutboxRow store.outbox dispatchKey)) ↔ _
      simp only [not_false_eq_true, forall_const]
      exact keptAt_report_iff _ fun _ => rfl
    | rearmOutboxPending rows =>
      refine iff_of_true (fun key hrearms => keptAt_transaction fun _ table' h => ?_) trivial
      exact keptAt_rearmOutboxRows (map_eq_ok h) fun row hmem hkey => hrearms ⟨row, hmem, hkey⟩
    | appendOutboxBatch rows =>
      exact iff_of_true (fun key _ => keptAt_transaction fun _ table' h => keptAt_insertOutboxRows (map_eq_ok h))
        trivial
    | claimOutboxRows now limit =>
      exact iff_of_true (fun key _ => keptAt_transaction fun _ _ h => keptAt_claimOutboxRows h) trivial
    | claimOutboxRowsExcluding now limit held =>
      exact iff_of_true (fun key _ => keptAt_transaction fun _ _ h => keptAt_claimOutboxRowsExcluding h) trivial
    | claimOutboxRowsScoped now scope limit =>
      exact iff_of_true (fun key _ => keptAt_transaction fun _ _ h => keptAt_claimOutboxRowsScopedExcluding h)
        trivial
    | claimOutboxRowsScopedExcluding now scope limit held =>
      exact iff_of_true (fun key _ => keptAt_transaction fun _ _ h => keptAt_claimOutboxRowsScopedExcluding h)
        trivial
    | rearmStaleClaimedOutboxRows olderThan visibleAfter limit =>
      exact iff_of_true (fun key _ => keptAt_transaction fun _ _ h => keptAt_rearmStaleClaimedOutboxRows h)
        trivial
    | settleOutboxRowCancelled dispatchKey =>
      exact iff_of_true (fun key _ => keptAt_settleRow) trivial
    | settleWorkflowOutboxRowsCancelled workflowId =>
      exact iff_of_true (fun key _ => keptAt_settleWorkflow) trivial
    | listStaleClaimedOutboxRows _ _ => exact iff_of_true (fun key _ => KeptAt.refl key _) trivial
    | listUnsettledOutboxWorkflowIds => exact iff_of_true (fun key _ => KeptAt.refl key _) trivial
    | countInflightOutboxRows _ => exact iff_of_true (fun key _ => KeptAt.refl key _) trivial
    | countClaimedOutboxRows _ => exact iff_of_true (fun key _ => KeptAt.refl key _) trivial
    | countClaimedOutboxRowsByNamespace _ =>
      exact iff_of_true (fun key _ => KeptAt.refl key _) trivial
    | pendingOutboxRoutes _ => exact iff_of_true (fun key _ => KeptAt.refl key _) trivial

/-- Along the run a row that has reached an end keeps its status, as long as no
`rearm_outbox_pending` names its key. -/
def TerminalKept (codec : OutboxCodec Bytes) (store : LibSqlStore Bytes)
    (operations : List Operation) : Prop :=
  ∀ before mid after, operations = before ++ mid ++ after → ∀ key status, IsTerminal status →
    (final (step codec) store before).outbox.statusAt key = some status →
    (∀ operation ∈ mid, ¬ operation.Rearms key) →
    (final (step codec) store (before ++ mid)).outbox.statusAt key = some status

theorem terminalKept_iff_stable {store : LibSqlStore Bytes} {operations : List Operation} :
    TerminalKept codec store operations ↔
      Stable (step codec) (fun (fact : String × String) store =>
          IsTerminal fact.2 ∧ store.outbox.statusAt fact.1 = some fact.2)
        (fun operation fact => operation.Rearms fact.1) store operations := by
  constructor
  · rintro kept before mid after hspl ⟨key, status⟩ ⟨hterm, hstat⟩ hrearms
    exact ⟨hterm, kept before mid after hspl key status hterm hstat hrearms⟩
  · intro stable before mid after hspl key status hterm hstat hrearms
    exact (stable before mid after hspl (key, status) ⟨hterm, hstat⟩ hrearms).2

/-- **No zombie dispatch**: in a run of the libSQL outbox every row that has reached its
end stays there unless it is re-armed, exactly when every report of the run fits. -/
theorem terminal_kept_iff (codec : OutboxCodec Bytes) (store : LibSqlStore Bytes)
    (operations : List Operation) :
    TerminalKept codec store operations ↔
      ∀ t ∈ trace (step codec) store operations, ReportFits t.before t.input := by
  rw [terminalKept_iff_stable, stable_iff]
  refine forall₂_congr fun t ht => ?_
  obtain ⟨before, operation, after, -, rfl⟩ := mem_trace_iff.mp ht
  refine Iff.trans ?_ (keptAt_step_iff codec)
  constructor
  · intro kept key hrearms status hterm hstat
    exact (kept (key, status) hrearms ⟨hterm, hstat⟩).2
  · rintro kept ⟨key, status⟩ hrearms ⟨hterm, hstat⟩
    exact ⟨hterm, kept key hrearms status hterm hstat⟩

/-- A row is staged and claimed, its workflow ends and settles it, and then the
dispatcher's retry arrives. -/
def lateRetry : List Operation :=
  [.outbox (.appendOutboxBatch [OutboxRow.pending ⟨0⟩ 0 "activity" .empty 0]),
    .outbox (.claimOutboxRows 0 1), .outbox (.settleWorkflowOutboxRowsCancelled ⟨0⟩),
    .outbox (.retryOutboxRow (OutboxRow.dispatchKeyFor ⟨0⟩ 0) 1 0)]

/-- The late retry makes the cancelled row pending. -/
theorem lateRetry_revives : ¬ TerminalKept (OutboxCodec.known [0] [0]) empty lateRetry := by
  intro kept
  have hstat :=
    kept (lateRetry.take 3) (lateRetry.drop 3) [] rfl (OutboxRow.dispatchKeyFor ⟨0⟩ 0) "cancelled"
    (by decide) (by decide +kernel) (by simp [lateRetry, Operation.Rearms])
  exact absurd hstat (by decide +kernel)

end LibSqlStore

end Aion
