import Aion.Core.UuidText
import Aion.Store.HaematiteRefinement
import Aion.Store.LibSqlRefinement

/-!
# The two outbox backends

Both backends refine the outbox, haematite with the operations as they are and libSQL with
the runs of re-armed rows left out. So where haematite's database answers, they agree on every
answer and in the end on every row as long as no re-arm stages a new row that names a run; such a
row keeps its run in haematite and loses it in libSQL for good (`outbox_backends_agree_iff`).
-/

namespace Aion

open Machine OutboxTable

variable {Bytes : Type}

/-- The rows a libSQL table holds. -/
def LibSqlOutbox.contents (codec : OutboxCodec Bytes) (table : LibSqlOutbox Bytes) :
    Except StoreError (List OutboxRow) :=
  table.rows.mapM (decodeRow codec)

/-- The rows a haematite database holds. -/
def Haematite.contents (codec : OutboxCodec Bytes) (sharding : Sharding)
    (database : Database Bytes) : Except StoreError (List OutboxRow) :=
  (run sharding (scanOutbox codec (List.range sharding.shardCount)) database).1

/-- Both are readable and have the same rows. -/
def SameContents (contents contents' : Except StoreError (List OutboxRow)) : Prop :=
  ∃ rows rows', contents = .ok rows ∧ contents' = .ok rows' ∧ rows.Perm rows'

/-- From an empty table and the state of haematite's database, both backends give the same
answer at every step and end with the same rows. -/
def BackendsAgree (codec : OutboxCodec Bytes) {sharding : Sharding}
    (db : HaematiteDatabase Bytes sharding) (state : db.State) (operations : List OutboxOperation) :
    Prop :=
  (outputs (LibSqlOutbox.execute codec) .empty operations).map outcomeMeaning =
      (outputs (Haematite.executeOn codec db) state operations).map outcomeMeaning ∧
    SameContents (LibSqlOutbox.contents codec (final (LibSqlOutbox.execute codec) .empty operations))
      (Haematite.contents codec sharding (db.kept (final (Haematite.executeOn codec db) state operations)))

/-- The database answers every call that the operations make. -/
def AllAnswered (codec : OutboxCodec Bytes) {sharding : Sharding}
    (db : HaematiteDatabase Bytes sharding) (state : db.State) (operations : List OutboxOperation) :
    Prop :=
  ∀ t ∈ trace (Haematite.executeOn codec db) state operations,
    Haematite.Answers db (Haematite.program codec (List.range sharding.shardCount) t.input) t.before

/-! ### Runs of the backends -/

theorem admissible_withoutRuns {operation : OutboxOperation} (h : operation.Admissible) :
    (withoutRuns operation).Admissible := by
  cases operation with
  | rearmOutboxPending rows =>
    intro changed hchg
    obtain ⟨row, hrow, rfl⟩ := List.mem_map.mp hchg
    have hadm := h row hrow
    exact ⟨hadm.key, hadm.ordinal, hadm.attempt, hadm.visibleAfter, hadm.claimedAt⟩
  | _ => exact h

section Runs

variable {codec : OutboxCodec Bytes} (lawful : codec.Lawful) {operations : List OutboxOperation}
  (hops : ∀ operation ∈ operations, operation.Admissible)
include lawful hops

theorem libSql_run :
    (outputs (LibSqlOutbox.execute codec) .empty operations).map outcomeMeaning =
        (outputs execute .empty (operations.map withoutRuns)).map
          (fun answer => .ok answer.meaning) ∧
      LibSqlOutbox.Encodes codec (final (LibSqlOutbox.execute codec) .empty operations)
          (final execute .empty (operations.map withoutRuns)) ∧
        Admissible (final execute .empty (operations.map withoutRuns)) := by
  refine run_refines (LibSqlOutbox.execute codec) execute
    (fun table rows => LibSqlOutbox.Encodes codec table rows ∧ Admissible rows) withoutRuns
    outcomeMeaning (fun answer => .ok answer.meaning) OutboxOperation.Admissible ?_
    ⟨KeyedTable.Encodes.empty, admissible_empty⟩ hops
  rintro table rows operation ⟨hencs, hrows⟩ hop
  obtain ⟨hans, hencs⟩ := LibSqlOutbox.execute_refines lawful hencs hrows hop
  exact ⟨hans, hencs, hrows.execute (admissible_withoutRuns hop)⟩

theorem haematite_run (sharding : Sharding) :
    (outputs (Haematite.execute codec sharding) .empty operations).map outcomeMeaning =
        (outputs execute .empty operations).map (fun answer => .ok answer.meaning) ∧
      Haematite.Represents codec sharding
        (final (Haematite.execute codec sharding) .empty operations)
          (final execute .empty operations).lookup ∧
        Admissible (final execute .empty operations) := by
  have hrun :=
    run_refines (Haematite.execute codec sharding) execute (fun database rows =>
        Haematite.Represents codec sharding database
      (KeyedTable.lookup rows) ∧ Admissible rows) id outcomeMeaning (fun answer => .ok answer.meaning)
    OutboxOperation.Admissible ?_
    (s := .empty) (t := .empty) ⟨fun _ _ => rfl, admissible_empty⟩ hops
  · rwa [List.map_id] at hrun
  · rintro database rows operation ⟨hrep, hrows⟩ hop
    obtain ⟨hans, hrep⟩ := Haematite.execute_refines lawful hrows hrep hop
    exact ⟨hans, hrep, hrows.execute hop⟩

end Runs

variable {sharding : Sharding} {database : Database Bytes}

/-- Operations whose calls are answered go on the database as on what it keeps. -/
theorem executeOn_of_allAnswered {codec : OutboxCodec Bytes}
    {db : HaematiteDatabase Bytes sharding} {state : db.State} {operations : List OutboxOperation}
    (h : AllAnswered codec db state operations) :
    outputs (Haematite.executeOn codec db) state operations =
        outputs (Haematite.execute codec sharding) (db.kept state) operations ∧
      db.kept (final (Haematite.executeOn codec db) state operations) =
        final (Haematite.execute codec sharding) (db.kept state) operations := by
  induction operations generalizing state with
  | nil => exact ⟨rfl, rfl⟩
  | cons operation rest ih =>
    rw [AllAnswered, trace, List.forall_mem_cons] at h
    obtain ⟨hfst, hrest⟩ := h
    obtain ⟨hout, hkept⟩ : (Haematite.executeOn codec db state operation).1 =
        (Haematite.execute codec sharding (db.kept state) operation).1 ∧
          db.kept (Haematite.executeOn codec db state operation).2 =
            (Haematite.execute codec sharding (db.kept state) operation).2 := Haematite.runOn_of_answers hfst
    obtain ⟨houts, hfinal⟩ := ih hrest
    rw [outputs_cons, outputs_cons, final_cons, final_cons, houts, hfinal, hout, hkept]
    exact ⟨rfl, rfl⟩

theorem allAnswered_sound {codec : OutboxCodec Bytes}
    {operations : List OutboxOperation} :
    AllAnswered codec (.sound Bytes sharding) database operations :=
  fun _ _ => Haematite.answers_sound

variable {table : LibSqlOutbox Bytes} {rows : OutboxTable}

/-- The condition on the libSQL table is the one on the rows. -/
theorem newRowsNameNoRun_iff {codec : OutboxCodec Bytes} (lawful : codec.Lawful)
    (hencs : LibSqlOutbox.Encodes codec table rows) (hrows : rows.Admissible)
    {operations : List OutboxOperation} (hops : ∀ operation ∈ operations, operation.Admissible) :
    (∀ t ∈ trace (LibSqlOutbox.execute codec) table operations,
        NewRowsNameNoRun (fun key => t.before.lookup key = none) t.input) ↔
      ∀ t ∈ trace execute rows operations,
        NewRowsNameNoRun (fun key => t.before.lookup key = none) t.input := by
  induction operations generalizing table rows with
  | nil => simp [trace]
  | cons operation rest ih =>
    obtain ⟨hop, hrest⟩ := List.forall_mem_cons.mp hops
    have hnew : (fun key => table.lookup key = none) = fun key => rows.lookup key = none := by
      funext key
      rw [hencs.lookup LibSqlOutbox.columnsOf_dispatchKey, Option.map_eq_none_iff]
    rw [trace, trace, List.forall_mem_cons, List.forall_mem_cons, hnew]
    by_cases hgood : NewRowsNameNoRun (fun key => rows.lookup key = none) operation
    · have hnext := (LibSqlOutbox.execute_refines lawful hencs hrows hop).2
      rw [execute_withoutRuns hgood] at hnext
      rw [ih hnext (hrows.execute hop) hrest]
    · exact ⟨fun h => absurd h.1 hgood, fun h => absurd h.1 hgood⟩

theorem sameContents_iff {codec : OutboxCodec Bytes} (lawful : codec.Lawful)
    {rows' : OutboxTable}
    (hencs : LibSqlOutbox.Encodes codec table rows) (hrows : rows.Admissible)
    (hrep : Haematite.Represents codec sharding database rows'.lookup) (hrows' : rows'.Admissible) :
    SameContents (LibSqlOutbox.contents codec table) (Haematite.contents codec sharding database) ↔
      ∀ key, rows.lookup key = rows'.lookup key := by
  have hcontents : LibSqlOutbox.contents codec table = .ok rows.rows := by
    rw [LibSqlOutbox.contents, hencs.rows_eq]
    exact LibSqlOutbox.mapM_decodeRow lawful fun row hrow => hrows.of_mem hrow
  obtain ⟨scanned, hscan, hperm⟩ := Haematite.run_scanAll lawful hrows' hrep
  rw [SameContents, hcontents, Haematite.contents, hscan]
  constructor
  · rintro ⟨_, _, ⟨⟩, ⟨⟩, hsame⟩
    exact KeyedTable.lookup_eq_of_perm (hsame.trans hperm)
  · intro hlook
    refine ⟨rows.rows, scanned, rfl, rfl, (KeyedTable.rows_perm rows'.nodup_rows fun row => ?_).trans hperm.symm⟩
    rw [KeyedTable.mem_rows_iff, hlook]

/-! ### Agreement -/

/-- **The backends agree** on every answer and on the rows in the end, where haematite's
database starts empty and answers the calls, exactly when every row that a re-arm stages anew
names no run. -/
theorem outbox_backends_agree_iff {Bytes : Type} (codec : OutboxCodec Bytes) (lawful : codec.Lawful)
    {sharding : Sharding} (db : HaematiteDatabase Bytes sharding) (state : db.State)
    (hempty : db.kept state = .empty) (operations : List OutboxOperation)
    (hops : ∀ operation ∈ operations, operation.Admissible)
    (hanswered : AllAnswered codec db state operations) :
    BackendsAgree codec db state operations ↔
      ∀ t ∈ trace (LibSqlOutbox.execute codec) .empty operations,
        NewRowsNameNoRun (fun key => t.before.lookup key = none) t.input := by
  obtain ⟨hlibSql, hencs, hrows⟩ := libSql_run lawful hops
  obtain ⟨hhaematite, hrep, hrows'⟩ := haematite_run lawful hops sharding
  obtain ⟨houts, hfinal⟩ := executeOn_of_allAnswered hanswered
  rw [hempty] at houts hfinal
  rw [← houts] at hhaematite
  rw [← hfinal] at hrep
  rw [newRowsNameNoRun_iff lawful KeyedTable.Encodes.empty admissible_empty hops, BackendsAgree,
    sameContents_iff lawful hencs hrows hrep hrows', hlibSql, hhaematite]
  constructor
  · rintro ⟨-, hsame⟩
    exact newRowsNameNoRun_of_runAt_eq fun key => congrArg (Option.map OutboxRow.runId) (hsame key)
  · intro hgood
    obtain ⟨houts, hfinal⟩ := run_withoutRuns hgood
    rw [houts, hfinal]
    exact ⟨rfl, fun _ => rfl⟩

/-! ### A codec that reads back everything -/

open Classical in
/-- The codec in which values stand for their JSON and each text is read as what it is the
text of. -/
noncomputable def OutboxCodec.inverse : OutboxCodec (Payload ⊕ StoredOutboxRow) :=
  { OutboxCodec.known [] [] with
    parseStr := fun text => if (Uuid.ofText text).display = text then .ok (Uuid.ofText text) else
      .error "invalid UUID"
    parseFromRfc3339 := fun text =>
      if h : ∃ instant, Rfc3339.FourDigitYear instant ∧ encodeInstant instant = text then .ok h.choose
      else .error "invalid instant" }

theorem OutboxCodec.inverse_lawful : OutboxCodec.inverse.Lawful where
  payload _ := rfl
  row _ := rfl
  uuid u := by simp [OutboxCodec.inverse, Uuid.ofText_display]
  instant t ht := by
    have hexists : ∃ instant, Rfc3339.FourDigitYear instant ∧ encodeInstant instant = encodeInstant t := ⟨t, ht, rfl⟩
    obtain ⟨hyear, htext⟩ := hexists.choose_spec
    have hle := (Rfc3339.toText_le_iff hyear ht).mp htext.le
    have hge := (Rfc3339.toText_le_iff ht hyear).mp htext.ge
    simp only [OutboxCodec.inverse, dif_pos hexists]
    rw [le_antisymm hle hge]

/-- A row of workflow 0 that a run staged. -/
def stagedRow : OutboxRow := { OutboxRow.pending ⟨0⟩ 0 "activity" .empty 0 with runId := some ⟨1⟩ }

theorem stagedRow_admissible : AdmissibleRow stagedRow :=
  ⟨rfl, by decide, by decide, by decide, by rintro instant ⟨⟩⟩

/-- A row that is staged by an append, claimed and re-armed has its run in both. -/
theorem staged_claimed_rearmed_agree :
    BackendsAgree OutboxCodec.inverse (.sound _ oneShard) .empty
      [.appendOutboxBatch [stagedRow], .claimOutboxRows 0 1,
        .rearmStaleClaimedOutboxRows 1 1 1] := by
  refine (outbox_backends_agree_iff OutboxCodec.inverse OutboxCodec.inverse_lawful
      (.sound _ oneShard) .empty rfl _ ?_
    allAnswered_sound).mpr ?_
  · simp only [List.forall_mem_cons, OutboxOperation.Admissible]
    exact ⟨⟨stagedRow_admissible, by simp⟩, by decide, by decide, by simp⟩
  · simp [trace, NewRowsNameNoRun]

/-- A row that a re-arm stages has its run in haematite and none in libSQL. -/
theorem rearm_of_new_row_disagrees :
    (OutboxOperation.rearmOutboxPending [stagedRow]).Admissible ∧
      ¬ BackendsAgree (OutboxCodec.known [0, 1] [0]) (.sound _ oneShard) .empty
        [.rearmOutboxPending [stagedRow]] := by
  refine ⟨by simpa [OutboxOperation.Admissible] using stagedRow_admissible, ?_⟩
  rintro ⟨-, rows, rows', hrows, hrows', hperm⟩
  have hlibSql : LibSqlOutbox.contents (OutboxCodec.known [0, 1] [0]) (final (LibSqlOutbox.execute
      (OutboxCodec.known [0, 1] [0])) .empty [.rearmOutboxPending [stagedRow]]) =
      .ok [{ stagedRow with runId := none }] := by decide +kernel
  have hhaematite : Haematite.contents (OutboxCodec.known [0, 1] [0]) oneShard
      (final (Haematite.executeOn (OutboxCodec.known [0, 1] [0]) (.sound _ oneShard)) .empty
        [.rearmOutboxPending [stagedRow]]) = .ok [stagedRow] := by decide +kernel
  obtain rfl := Except.ok.inj (hlibSql.symm.trans hrows)
  obtain rfl := Except.ok.inj (hhaematite.symm.trans hrows')
  exact absurd (List.singleton_perm_singleton.mp hperm) (by decide)

end Aion
