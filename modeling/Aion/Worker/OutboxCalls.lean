import Aion.Core.Status
import Aion.Library.Serving
import Aion.Store.BackendAgreement

/-!
# Server tasks over the outbox

The background tasks of the server (`aion-server/src/worker`) are programs that call the outbox
and read histories (`WorkerM`). A call of the outbox is an operation that reads the clock when
it is served.

`StoreAnswers` says what a store may answer over a table of rows: any call may be refused, which
leaves the table as it is; the clock may show any of the readings allowed; routes come in any
order. A task on the libSQL or the haematite backend ends only as it can over the rows these hold
(`ends_of_libSql`, `ends_of_haematite`), so what is proved of a task over the rows holds on both.
-/

namespace Aion

open Interleaving

/-- A call of a server task. -/
inductive WorkerCall where
  /-- An operation on the outbox, once the clock is read. -/
  | outbox (operation : Instant → OutboxOperation)
  /-- `read_history`. -/
  | readHistory (workflowId : WorkflowId)

/-- What a call returns. -/
abbrev WorkerCall.Answer : WorkerCall → Type
  | .outbox _ => Except StoreError OutboxAnswer
  | .readHistory _ => Except StoreError (List Event)

/-- A server task. -/
abbrev WorkerM (α : Type) : Type := Fallible WorkerCall WorkerCall.Answer StoreError α

/-! ### What is read off an answer -/

/-- The rows of an answer. -/
def OutboxAnswer.toRows : OutboxAnswer → List OutboxRow
  | .rows found => found
  | _ => []

/-- The counts of an answer. -/
def OutboxAnswer.toCounts : OutboxAnswer → List (String × ℕ)
  | .counts found => found
  | _ => []

/-- The routes of an answer. -/
def OutboxAnswer.toRoutes : OutboxAnswer → List ClaimScope
  | .routes found => found
  | _ => []

namespace OutboxAnswer

variable {answer answer' : OutboxAnswer}

theorem toRows_of_meaning (h : answer.meaning = answer'.meaning) :
    answer.toRows = answer'.toRows := by
  cases answer <;> cases answer' <;> simp_all [meaning, toRows]

theorem toCounts_of_meaning (h : answer.meaning = answer'.meaning) :
    answer.toCounts = answer'.toCounts := by
  cases answer <;> cases answer' <;> simp_all [meaning, toCounts]

theorem mem_toRoutes_of_meaning (h : answer.meaning = answer'.meaning) (scope : ClaimScope) :
    scope ∈ answer.toRoutes ↔ scope ∈ answer'.toRoutes := by
  cases answer with
  | routes routes =>
    cases answer' with
    | routes routes' =>
      have hsets : routes.toFinset = routes'.toFinset := Sum.inr.inj h
      rw [toRoutes, toRoutes, ← List.mem_toFinset, hsets, List.mem_toFinset]
    | _ => cases h
  | _ =>
    cases answer' with
    | routes routes' => cases h
    | _ => exact Iff.rfl

end OutboxAnswer

namespace WorkerM

/-- An operation on the outbox, and what is read off its answer. -/
def outbox {α : Type} (operation : Instant → OutboxOperation) (read : OutboxAnswer → α) :
    WorkerM α :=
  .call (.outbox operation) fun answer => .done (answer.map read)

/-- `read_history`. -/
def readHistory (workflowId : WorkflowId) : WorkerM (List Event) :=
  .call (.readHistory workflowId) .done

end WorkerM

/-! ### What a store may answer -/

/-- The clock may show any instant. -/
def AnyReading (_ : Instant) : Prop := True

theorem anyReading (now : Instant) : AnyReading now := trivial

/-- The answers over a table of rows. -/
def StoreAnswers (history : WorkflowId → List Event) (clock : Instant → Prop) :
    Answers OutboxTable WorkerCall WorkerCall.Answer
  | table, .outbox operation, .ok answer, table' =>
    ∃ now, clock now ∧ answer.meaning = (table.execute (operation now)).1.meaning ∧
      table' = (table.execute (operation now)).2
  | table, .outbox _, .error _, table' => table' = table
  | table, .readHistory workflowId, .ok events, table' =>
    events = history workflowId ∧ table' = table
  | table, .readHistory _, .error _, table' => table' = table

variable {now : Instant}

section Ends

variable {history : WorkflowId → List Event} {clock : Instant → Prop}
  {table table' : OutboxTable} {α : Type}

theorem ends_outbox_ok_iff {operation : Instant → OutboxOperation} {read : OutboxAnswer → α}
    {value : α} :
    Fallible.Ends (StoreAnswers history clock) (WorkerM.outbox operation read) table
      (.ok value) table' ↔
      ∃ answer now, clock now ∧ answer.meaning = (table.execute (operation now)).1.meaning ∧
        value = read answer ∧
        table' = (table.execute (operation now)).2 := by
  refine ends_call_iff.trans ?_
  constructor
  · rintro ⟨failure | answer, middle, served, h⟩
    · obtain ⟨hval, -⟩ := ends_done_iff.mp h
      cases hval
    · obtain ⟨hval, rfl⟩ := ends_done_iff.mp h
      obtain ⟨now, hclock, hans, rfl⟩ := served
      exact ⟨answer, now, hclock, hans, Except.ok.inj hval, rfl⟩
  · rintro ⟨answer, now, hclock, hans, rfl, rfl⟩
    exact ⟨.ok answer, _, ⟨now, hclock, hans, rfl⟩, .done _ _⟩

/-- The answer of the table itself. -/
theorem ends_outbox (hclock : clock now) (operation : Instant → OutboxOperation)
    (read : OutboxAnswer → α) (table : OutboxTable) :
    Fallible.Ends (StoreAnswers history clock) (WorkerM.outbox operation read) table
      (.ok (read (table.execute (operation now)).1)) (table.execute (operation now)).2 :=
  ends_outbox_ok_iff.mpr ⟨_, now, hclock, rfl, rfl, rfl⟩

/-- A refused call changes nothing. -/
theorem table_of_ends_outbox_error {operation : Instant → OutboxOperation} {read : OutboxAnswer → α}
    {failure : StoreError}
    (h : Fallible.Ends (StoreAnswers history clock) (WorkerM.outbox operation read) table
        (.error failure) table') : table' = table := by
  obtain ⟨error | answer, middle, served, h⟩ := ends_call_iff.mp h
  · obtain ⟨-, rfl⟩ := ends_done_iff.mp h
    exact served
  · obtain ⟨hval, -⟩ := ends_done_iff.mp h
    cases hval

variable {workflowId : WorkflowId}

theorem ends_readHistory_ok_iff {events : List Event} :
    Fallible.Ends (StoreAnswers history clock) (WorkerM.readHistory workflowId) table
      (.ok events) table' ↔
      events = history workflowId ∧ table' = table := by
  refine ends_call_iff.trans ?_
  constructor
  · rintro ⟨answer, middle, served, h⟩
    obtain ⟨rfl, rfl⟩ := ends_done_iff.mp h
    exact served
  · rintro ⟨rfl, rfl⟩
    exact ⟨.ok (history workflowId), table', ⟨rfl, rfl⟩, .done _ _⟩

theorem table_of_ends_readHistory {outcome : Except StoreError (List Event)}
    (h : Fallible.Ends (StoreAnswers history clock)
        (WorkerM.readHistory workflowId) table outcome table') : table' = table := by
  obtain ⟨error | events, middle, served, h⟩ := ends_call_iff.mp h
  · obtain ⟨-, rfl⟩ := ends_done_iff.mp h
    exact served
  · obtain ⟨-, rfl⟩ := ends_done_iff.mp h
    exact served.2

end Ends

/-- A store that refuses nothing, at one instant. -/
def steadyStore (history : WorkflowId → List Event) (now : Instant) :
    Service OutboxTable WorkerCall WorkerCall.Answer Unit where
  serve table
    | .outbox operation =>
      (.ok (table.execute (operation now)).1, (table.execute (operation now)).2)
    | .readHistory workflowId => (.ok (history workflowId), table)
  added _ _ := []

/-- What it runs a task to is an end of the task. -/
theorem ends_steadyStore {history : WorkflowId → List Event} {clock : Instant → Prop}
    (hclock : clock now) {α : Type} (program : Prog WorkerCall WorkerCall.Answer α)
    (table : OutboxTable) :
    program.Ends (StoreAnswers history clock) table ((steadyStore history now).run program table).1
      ((steadyStore history now).run program table).2 := by
  induction program generalizing table with
  | done value => exact .done _ _
  | call request next ih =>
    cases request with
    | outbox operation =>
      have hserv : StoreAnswers history clock table (.outbox operation) (.ok (table.execute (operation now)).1)
          (table.execute (operation now)).2 := ⟨now, hclock, rfl, rfl⟩
      exact .call hserv (ih _ _)
    | readHistory workflowId =>
      have hserv : StoreAnswers history clock table (.readHistory workflowId) (.ok (history workflowId)) table := ⟨rfl, rfl⟩
      exact .call hserv (ih _ _)

/-! ### The backends -/

section Backends

variable {Bytes : Type} {codec : OutboxCodec Bytes} {history : WorkflowId → List Event} {α : Type}

/-- The answers over a backend: those of its operations, or a refusal. -/
def BackendAnswers {σ : Type} (execute : σ → OutboxOperation → Except StoreError OutboxAnswer × σ)
    (history : WorkflowId → List Event) : Answers σ WorkerCall WorkerCall.Answer
  | state, .outbox operation, outcome, state' =>
    (∃ now, Rfc3339.FourDigitYear now ∧ execute state (operation now) = (outcome, state')) ∨
      (∃ failure, outcome = .error failure) ∧ state' = state
  | state, .readHistory workflowId, .ok events, state' =>
    events = history workflowId ∧ state' = state
  | state, .readHistory _, .error _, state' => state' = state

/-- The call writes admissible rows and re-arms no batch. -/
def WorkerCall.Admissible : WorkerCall → Prop
  | .outbox operation => ∀ now, Rfc3339.FourDigitYear now →
    (operation now).Admissible ∧ OutboxTable.withoutRuns (operation now) = operation now
  | .readHistory _ => True

/-- A task on a backend that works as the table ends as it can over the table. -/
theorem ends_of_backend {σ : Type}
    {execute : σ → OutboxOperation → Except StoreError OutboxAnswer × σ}
    {stands : σ → OutboxTable → Prop}
    (refines : ∀ {state table operation}, stands state table → operation.Admissible →
        OutboxTable.withoutRuns operation = operation →
      outcomeMeaning (execute state operation).1 = .ok (table.execute operation).1.meaning ∧
      stands (execute state operation).2 (table.execute operation).2)
    {program : Prog WorkerCall WorkerCall.Answer α} (hcalls : program.Calls WorkerCall.Admissible)
    {state last : σ} {value : α}
    (h : program.Ends (BackendAnswers execute history) state value last) {table : OutboxTable}
    (hstd : stands state table) :
    ∃ table', program.Ends (StoreAnswers history Rfc3339.FourDigitYear) table value table' ∧
      stands last table' := by
  refine h.simulates ?_ hcalls hstd
  rintro state table (operation | workflowId) answer middle hadm hstd hserv
  · rcases hserv with ⟨now, hnow, hserv⟩ | ⟨⟨failure, rfl⟩, rfl⟩
    · obtain ⟨hop, hruns⟩ := hadm now hnow
      obtain ⟨hans, hnext⟩ := refines hstd hop hruns
      rw [hserv] at hans hnext
      cases answer with
      | error failure => cases hans
      | ok answer => exact ⟨_, ⟨now, hnow, Except.ok.inj hans, rfl⟩, hnext⟩
    · exact ⟨table, rfl, hstd⟩
  · cases answer with
    | error failure =>
      obtain rfl : middle = state := hserv
      exact ⟨table, rfl, hstd⟩
    | ok events =>
      obtain ⟨hevs, rfl⟩ := hserv
      exact ⟨table, ⟨hevs, rfl⟩, hstd⟩

theorem ends_of_libSql (lawful : codec.Lawful) {program : Prog WorkerCall WorkerCall.Answer α}
    (hcalls : program.Calls WorkerCall.Admissible) {state last : LibSqlOutbox Bytes} {value : α}
    (h : program.Ends (BackendAnswers (LibSqlOutbox.execute codec) history) state value last)
    {table : OutboxTable} (hencs : LibSqlOutbox.Encodes codec state table)
    (hrows : table.Admissible) :
    ∃ table', program.Ends (StoreAnswers history Rfc3339.FourDigitYear) table value table' ∧
      LibSqlOutbox.Encodes codec last table' ∧ table'.Admissible := by
  have hrefines : ∀ {state : LibSqlOutbox Bytes} {table : OutboxTable}
    {operation : OutboxOperation},
      LibSqlOutbox.Encodes codec state table ∧ table.Admissible → operation.Admissible →
      OutboxTable.withoutRuns operation = operation →
      outcomeMeaning (LibSqlOutbox.execute codec state operation).1 = .ok (table.execute operation).1.meaning ∧
        LibSqlOutbox.Encodes codec (LibSqlOutbox.execute codec state operation).2 (table.execute operation).2 ∧
          (table.execute operation).2.Admissible := by
    rintro state table operation ⟨hencs, hrows⟩ hop hruns
    obtain ⟨hans, hnext⟩ := LibSqlOutbox.execute_refines lawful hencs hrows hop
    rw [hruns] at hans hnext
    exact ⟨hans, hnext, hrows.execute hop⟩
  exact ends_of_backend hrefines hcalls h ⟨hencs, hrows⟩

theorem ends_of_haematite (lawful : codec.Lawful) {sharding : Sharding}
    {program : Prog WorkerCall WorkerCall.Answer α} (hcalls : program.Calls WorkerCall.Admissible)
    {state last : Database Bytes} {value : α}
    (h : program.Ends (BackendAnswers (Haematite.execute codec sharding) history) state value last)
    {table : OutboxTable} (hrep : Haematite.Represents codec sharding state table.lookup)
    (hrows : table.Admissible) :
    ∃ table', program.Ends (StoreAnswers history Rfc3339.FourDigitYear) table value table' ∧
      Haematite.Represents codec sharding last table'.lookup ∧ table'.Admissible := by
  have hrefines : ∀ {state : Database Bytes} {table : OutboxTable} {operation : OutboxOperation},
      Haematite.Represents codec sharding state table.lookup ∧ table.Admissible → operation.Admissible →
      OutboxTable.withoutRuns operation = operation →
      outcomeMeaning (Haematite.execute codec sharding state operation).1 = .ok (table.execute operation).1.meaning ∧
        Haematite.Represents codec sharding (Haematite.execute codec sharding state operation).2
            (table.execute operation).2.lookup ∧ (table.execute operation).2.Admissible := by
    rintro state table operation ⟨hrep, hrows⟩ hop -
    obtain ⟨hans, hnext⟩ := Haematite.execute_refines lawful hrows hrep hop
    exact ⟨hans, hnext, hrows.execute hop⟩
  exact ends_of_backend hrefines hcalls h ⟨hrep, hrows⟩

end Backends

end Aion
