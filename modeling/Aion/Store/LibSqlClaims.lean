import Aion.Store.BackendAgreement

/-!
# What a libSQL claim picks

Rows written before the routing columns were added have NULL in them, and are read back with
the default route (`storedColumns`). The claims of the libSQL outbox pick the first rows, by
visibility and key, of those that are due, of no held workflow and in the scope, whether the
limit is the statement's or the loop's. A scoped claim asks `namespace = ?` of the column and not
of the row that is read, so it passes over the rows with NULL: it picks the head of the eligible
rows exactly when none of these is stored so (`claims_pick_head_iff`).

Listing the stale claims gives the rows that re-arming them would re-arm.
-/

namespace Aion

open OutboxTable Sorting

namespace LibSqlOutbox

variable {Bytes : Type}

/-! ### Rows older than the routing columns -/

/-- The keys of the rows whose routing columns are NULL. -/
structure NullRoutes where
  /-- Where the namespace is NULL. -/
  namespace_ : String → Bool
  /-- Where the task queue is NULL. -/
  taskQueue : String → Bool

/-- The columns of a row in a table in which these routing columns are NULL. -/
def storedColumns (codec : OutboxCodec Bytes) (nulls : NullRoutes) (row : OutboxRow) :
    OutboxColumns Bytes :=
  { columnsOf codec row with
    namespace_ := if nulls.namespace_ row.dispatchKey then none else some row.namespace_
    taskQueue := if nulls.taskQueue row.dispatchKey then none else some row.taskQueue }

/-- The table stores the rows; those with NULL in a routing column have the default route. -/
structure Stored (codec : OutboxCodec Bytes) (nulls : NullRoutes) (table : LibSqlOutbox Bytes)
    (rows : OutboxTable) : Prop where
  encodes : KeyedTable.Encodes (storedColumns codec nulls) table rows
  namespace_ : ∀ row ∈ rows.rows, nulls.namespace_ row.dispatchKey = true →
    row.namespace_ = defaultOutboxRoute
  taskQueue : ∀ row ∈ rows.rows, nulls.taskQueue row.dispatchKey = true →
    row.taskQueue = defaultOutboxRoute

/-- A routing column of the row is NULL. -/
def NullRoutes.of (nulls : NullRoutes) (row : OutboxRow) : Bool :=
  nulls.namespace_ row.dispatchKey || nulls.taskQueue row.dispatchKey

variable {codec : OutboxCodec Bytes} {nulls : NullRoutes} {table : LibSqlOutbox Bytes}
  {rows : OutboxTable}

theorem decodeRow_storedColumns (lawful : codec.Lawful) {row : OutboxRow} (hrow : AdmissibleRow row)
    (hnamespace : nulls.namespace_ row.dispatchKey = true → row.namespace_ = defaultOutboxRoute)
    (hqueue : nulls.taskQueue row.dispatchKey = true → row.taskQueue = defaultOutboxRoute) :
    decodeRow codec (storedColumns codec nulls row) = .ok row := by
  have hroutes : ∀ columns : OutboxColumns Bytes, ∀ namespace_ taskQueue : Option String,
      decodeRow codec { columns with namespace_, taskQueue } = (decodeRow codec columns).map fun decoded =>
        { decoded with
          namespace_ := namespace_.getD defaultOutboxRoute
          taskQueue := taskQueue.getD defaultOutboxRoute } := by
    intro columns namespace_ taskQueue
    simp only [decodeRow, bind, Except.bind, pure, Except.pure]
    repeat' split
    all_goals rfl
  rw [storedColumns, hroutes, decodeRow_columnsOf lawful hrow]
  have hnamespace' : (if nulls.namespace_ row.dispatchKey then none else
      some row.namespace_).getD defaultOutboxRoute =
      row.namespace_ := by
    split
    · exact (hnamespace ‹_›).symm
    · rfl
  have hqueue' : (if nulls.taskQueue row.dispatchKey then none else
      some row.taskQueue).getD defaultOutboxRoute =
      row.taskQueue := by
    split
    · exact (hqueue ‹_›).symm
    · rfl
  rw [hnamespace', hqueue']
  rfl

theorem Stored.reads (lawful : codec.Lawful) (h : Stored codec nulls table rows)
    (hrows : rows.Admissible) : ReadsRows codec (storedColumns codec nulls) rows :=
  fun row hrow => ⟨rfl, rfl, rfl, rfl,
    decodeRow_storedColumns lawful (hrows.of_mem hrow) (h.namespace_ row hrow)
      (h.taskQueue row hrow)⟩

theorem transparent_storedColumns : Transparent (storedColumns codec nulls) :=
  ⟨fun _ => rfl, fun _ => rfl, fun _ _ => rfl, fun _ _ => rfl⟩

/-- A scope's statement admits a row that it would admit once read, unless its route is NULL. -/
theorem inScope_storedColumns (scope : ClaimScope) (row : OutboxRow) :
    inScope scope (storedColumns codec nulls row) = (scope.admits row && !nulls.of row) := by
  rw [← @inScope_columnsOf _ codec]
  unfold inScope storedColumns NullRoutes.of columnsOf
  cases nulls.namespace_ row.dispatchKey <;> cases nulls.taskQueue row.dispatchKey <;> simp

/-! ### The claims -/

/-- The claims of the outbox. -/
inductive Claim where
  /-- `claim_outbox_rows`. -/
  | all
  /-- `claim_outbox_rows_excluding`. -/
  | excluding (held : List WorkflowId)
  /-- `claim_outbox_rows_scoped`. -/
  | scopedTo (scope : ClaimScope)
  /-- `claim_outbox_rows_scoped_excluding`. -/
  | scopedExcluding (scope : ClaimScope) (held : List WorkflowId)

namespace Claim

/-- What the claim does to the table. -/
def run (codec : OutboxCodec Bytes) (table : LibSqlOutbox Bytes) (now : Instant) (limit : ℕ) :
    Claim → Except StoreError (List OutboxRow × LibSqlOutbox Bytes)
  | .all => claimOutboxRows codec table now limit
  | .excluding held => claimOutboxRowsExcluding codec table now limit held
  | .scopedTo scope => claimOutboxRowsScoped codec table now scope limit
  | .scopedExcluding scope held => claimOutboxRowsScopedExcluding codec table now scope limit held

/-- The rows the claim is for: of no held workflow, and admitted by the scope. -/
def admits (row : OutboxRow) : Claim → Bool
  | .all => true
  | .excluding held => !held.contains row.workflowId
  | .scopedTo scope => scope.admits row
  | .scopedExcluding scope held => scope.admits row && !held.contains row.workflowId

/-- The claim has a scope. -/
def hasScope : Claim → Bool
  | .all | .excluding _ => false
  | .scopedTo _ | .scopedExcluding _ _ => true

/-- The rows the claim picks: those it is for, but for the rows that the scope passes over. -/
def picks (nulls : NullRoutes) (claim : Claim) (row : OutboxRow) : Bool :=
  claim.admits row && !(claim.hasScope && nulls.of row)

end Claim

/-- The claim picks the head of what it is for: the first `limit` of the rows that are pending, due
and admitted are returned as claimed and are claimed in the table, and every other row is left as it
is. -/
def PicksHead (codec : OutboxCodec Bytes) (nulls : NullRoutes) (table : LibSqlOutbox Bytes)
    (rows : OutboxTable) (now : Instant) (limit : ℕ) (claim : Claim) : Prop :=
  ∃ table', claim.run codec table now limit =
      .ok ((claimable rows now limit claim.admits).map (OutboxRow.claim · now), table') ∧
    KeyedTable.Encodes (storedColumns codec nulls) table'
      (rows.rewrite (claimable rows now limit claim.admits) (OutboxRow.claim · now) (OutboxRow.claim_dispatchKey now))

/-- Listing the stale claims gives the rows that re-arming them with the same arguments re-arms. -/
def ListsRearmed (codec : OutboxCodec Bytes) (table : LibSqlOutbox Bytes)
    (olderThan visibleAfter : Instant) (limit : ℕ) : Prop :=
  ∃ stale table', listStaleClaimedOutboxRows codec table olderThan limit = .ok stale ∧
    rearmStaleClaimedOutboxRows codec table olderThan visibleAfter limit =
      .ok (stale.map (OutboxRow.rearm · visibleAfter), table')

/-! ### The head -/

variable {now : Instant}

/-- A claim picks the first of the rows it does not pass over. -/
theorem run_eq (h : Stored codec nulls table rows)
    (hreads : ReadsRows codec (storedColumns codec nulls) rows) (hrows : rows.Admissible)
    (hnow : Rfc3339.FourDigitYear now) (limit : ℕ) (claim : Claim) :
    claim.run codec table now limit =
      claimSelected codec now table ((claimable rows now limit (claim.picks nulls)).map
          (storedColumns codec nulls)) := by
  cases claim with
  | all =>
    have hpicks : Claim.picks nulls .all = fun _ => true := rfl
    rw [hpicks]
    exact claimOutboxRows_eq h.encodes hreads hrows hnow limit
  | excluding held =>
    have hpicks : Claim.picks nulls (.excluding held) =
        fun row => !held.contains row.workflowId := by
      funext row
      simp [Claim.picks, Claim.admits, Claim.hasScope]
    rw [hpicks]
    exact claimOutboxRowsExcluding_eq h.encodes hreads hrows hnow limit held
  | scopedTo scope =>
    have hpicks : Claim.picks nulls (.scopedTo scope) =
        fun row => (scope.admits row && !nulls.of row) && !([] : List WorkflowId).contains row.workflowId := by
      funext row
      simp [Claim.picks, Claim.admits, Claim.hasScope]
    rw [hpicks]
    exact claimOutboxRowsScopedExcluding_eq h.encodes hreads hrows hnow scope limit []
      fun row _ => inScope_storedColumns scope row
  | scopedExcluding scope held =>
    have hpicks : Claim.picks nulls (.scopedExcluding scope held) =
        fun row => (scope.admits row && !nulls.of row) && !held.contains row.workflowId := by
      funext row
      simp only [Claim.picks, Claim.admits, Claim.hasScope, Bool.true_and]
      cases scope.admits row <;> cases nulls.of row <;> cases held.contains row.workflowId <;> rfl
    rw [hpicks]
    exact claimOutboxRowsScopedExcluding_eq h.encodes hreads hrows hnow scope limit held
      fun row _ => inScope_storedColumns scope row

/-- The head of a list is the head of what passes a filter, when all of the head does. -/
theorem take_filter_of_forall {α : Type} {p : α → Bool} {l : List α} {n : ℕ}
    (h : ∀ a ∈ l.take n, p a = true) : (l.filter p).take n = l.take n := by
  induction l generalizing n with
  | nil => rfl
  | cons a rest ih =>
    cases n with
    | zero => rfl
    | succ n =>
      obtain ⟨ha, hrest⟩ := List.forall_mem_cons.mp h
      rw [List.filter_cons_of_pos ha, List.take_succ_cons, List.take_succ_cons, ih hrest]

/-- The rows a claim picks are those of the head, when it passes over none of these. -/
theorem claimable_picks_eq {limit : ℕ} {claim : Claim}
    (h : ∀ row ∈ claimable rows now limit claim.admits, (claim.hasScope && nulls.of row) = false) :
    claimable rows now limit (claim.picks nulls) = claimable rows now limit claim.admits := by
  have hfilter : (rows.rows.filter fun row => isDue now row && claim.picks nulls row) =
      (rows.rows.filter fun row => isDue now row && claim.admits row).filter
        fun row => !(claim.hasScope && nulls.of row) := by
    rw [List.filter_filter]
    refine List.filter_congr fun row _ => ?_
    rw [Claim.picks]
    cases isDue now row <;> cases claim.admits row <;> simp
  unfold claimable select
  rw [hfilter, ← filter_insertionSort ((antisymm_rows _ rows).filter _), take_filter_of_forall]
  intro row hrow
  rw [h row hrow, Bool.not_false]

/-- **What the libSQL claims pick.** From a table that stores the rows, a claim picks the head of
what it is for exactly when no row of the head is in its scope with NULL in a routing column; and
listing the stale claims gives what re-arming them would re-arm. -/
theorem claims_pick_head_iff {Bytes : Type} (codec : OutboxCodec Bytes) (lawful : codec.Lawful)
    (nulls : NullRoutes) (table : LibSqlOutbox Bytes) (rows : OutboxTable)
    (h : Stored codec nulls table rows) (hrows : rows.Admissible)
    (now olderThan visibleAfter : Instant) (hnow : Rfc3339.FourDigitYear now)
    (holder : Rfc3339.FourDigitYear olderThan) (limit : ℕ) (claim : Claim) :
    (PicksHead codec nulls table rows now limit claim ∧
        ListsRearmed codec table olderThan visibleAfter limit) ↔
      ∀ row ∈ claimable rows now limit claim.admits, (claim.hasScope && nulls.of row) = false := by
  have hreads := h.reads lawful hrows
  obtain ⟨table', hrun, hencs⟩ :=
    claimSelected_refines transparent_storedColumns h.encodes hreads now limit (claim.picks nulls)
  rw [← run_eq h hreads hrows hnow limit claim] at hrun
  constructor
  · rintro ⟨⟨_, hhead, -⟩, -⟩ row hrow
    -- a row of the head is returned, so it is one of the rows that were picked
    have hsame : (claimable rows now limit (claim.picks nulls)).map (OutboxRow.claim · now) =
        (claimable rows now limit claim.admits).map (OutboxRow.claim · now) :=
      (Prod.mk.inj (Except.ok.inj (hrun.symm.trans hhead))).1
    have hret : row.claim now ∈ (claimable rows now limit (claim.picks nulls)).map (OutboxRow.claim · now) := by
      rw [hsame]
      exact List.mem_map_of_mem hrow
    obtain ⟨picked, hpicked, hclaim⟩ := List.mem_map.mp hret
    have hkey : (picked.claim now).dispatchKey = (row.claim now).dispatchKey := by rw [hclaim]
    obtain rfl : picked = row :=
      KeyedTable.eq_of_key_eq (of_mem_select hpicked).1 (of_mem_select hrow).1 hkey
    have hpicks := (Bool.and_eq_true_iff.mp (of_mem_select hpicked).2).2
    exact (Bool.not_eq_true' _).mp (Bool.and_eq_true_iff.mp hpicks).2
  · intro hnone
    rw [claimable_picks_eq hnone] at hrun
    obtain ⟨rearmed, hrearm, -⟩ :=
      rearmStale_refines transparent_storedColumns h.encodes hreads hrows holder visibleAfter limit
    refine ⟨⟨table', hrun, ?_⟩, _, rearmed, listStale_eq h.encodes hreads hrows holder limit, hrearm⟩
    have hsame : (rows.claim now limit (claim.picks nulls)).2 =
        rows.rewrite (claimable rows now limit (claim.picks nulls)) (OutboxRow.claim · now)
          (OutboxRow.claim_dispatchKey now) := rfl
    rwa [hsame, claimable_picks_eq hnone] at hencs

/-! ### A row older than the routing columns -/

/-- A row that is due, on the default route. -/
def olderRow : OutboxRow := OutboxRow.pending ⟨0⟩ 0 "activity" .empty 0

/-- The outbox with this row alone. -/
def olderRows : OutboxTable := KeyedTable.empty.insertIfAbsent olderRow

/-- Every routing column is NULL. -/
def allNull : NullRoutes := ⟨fun _ => true, fun _ => true⟩

/-- The table with this row, written before the routing columns were there. -/
def olderTable (codec : OutboxCodec Bytes) : LibSqlOutbox Bytes :=
  KeyedTable.empty.insertIfAbsent (storedColumns codec allNull olderRow)

theorem stored_olderTable (codec : OutboxCodec Bytes) :
    Stored codec allNull (olderTable codec) olderRows := by
  have hone : ∀ row ∈ olderRows.rows, row = olderRow := fun row hrow => List.mem_singleton.mp hrow
  exact ⟨rfl, fun row hrow _ => hone row hrow ▸ rfl, fun row hrow _ => hone row hrow ▸ rfl⟩

/-- The claim for the row's own route, which the routes report as pending, passes over it. -/
theorem older_row_passed_over :
    Stored (OutboxCodec.known [0] [0]) allNull (olderTable (OutboxCodec.known [0] [0])) olderRows ∧
      ⟨"default", "default", none⟩ ∈ pendingOutboxRoutes
        (olderTable (OutboxCodec.known [0] [0])) 0 ∧
      ¬ (PicksHead (OutboxCodec.known [0] [0]) allNull
          (olderTable (OutboxCodec.known [0] [0])) olderRows 0 1
          (.scopedTo ⟨"default", "default", none⟩) ∧
        ListsRearmed (OutboxCodec.known [0] [0])
      (olderTable (OutboxCodec.known [0] [0])) 0 0 1) := by
  refine ⟨stored_olderTable _, by decide +kernel, ?_⟩
  rintro ⟨⟨table', hrun, -⟩, -⟩
  have hhead : claimable olderRows 0 1 (Claim.scopedTo ⟨"default", "default", none⟩).admits = [olderRow] := by
    decide +kernel
  have hnone : (Claim.run (OutboxCodec.known [0] [0]) (olderTable (OutboxCodec.known [0] [0])) 0 1
      (.scopedTo ⟨"default", "default", none⟩)).map Prod.fst = .ok [] := by decide +kernel
  rw [hrun, hhead] at hnone
  cases hnone

theorem older_row_claimed_unscoped :
    PicksHead OutboxCodec.inverse allNull (olderTable OutboxCodec.inverse) olderRows 0 1 .all ∧
      ListsRearmed OutboxCodec.inverse (olderTable OutboxCodec.inverse) 1 1 1 := by
  have hadm : AdmissibleRow olderRow := ⟨rfl, by decide, by decide, by decide, by rintro instant ⟨⟩⟩
  exact (claims_pick_head_iff OutboxCodec.inverse OutboxCodec.inverse_lawful allNull
      (olderTable OutboxCodec.inverse)
    olderRows (stored_olderTable _) (admissible_empty.insertIfAbsent hadm) 0 1 1 (by decide)
      (by decide) 1
    .all).mpr fun row hrow => rfl

end LibSqlOutbox

end Aion
