import Aion.Store.HaematiteOutbox
import Aion.Store.LibSqlStore

/-!
# Staging a fan-out

`record_fan_out_dispatch` appends the events of a fan-out and stages one outbox row for each
of its items. A row's key is the workflow and the ordinal, without the run, and both
backends leave a row alone whose key is there. So an item is staged when its key is new, and
else only if the row that is there says the same; a row left behind by an earlier run of
the workflow takes the place of the item's row.
-/

namespace Aion

open Interleaving RecorderM

/-! ### What a dispatch asks of the store -/

variable {workflowId : WorkflowId} {rows : List OutboxRow} {events : List Event}
  {item first : FanOutItem} {expectedSeq : ℕ}

/-- The rows of a batch are those of its items. -/
theorem fanOutBatch_rows {recorder : Recorder} {recordedAt : Instant} {items : List FanOutItem}
    {previous : Option EventEnvelope}
    (h : fanOutBatch recorder recordedAt items previous = .ok (events, rows)) :
    rows = items.map fun item => item.outboxRow recorder recordedAt := by
  induction items generalizing previous events rows with
  | nil =>
    cases h
    rfl
  | cons item rest ih =>
    rw [fanOutBatch] at h
    obtain ⟨scheduled, -, h⟩ := Result.bind_eq_ok h
    obtain ⟨started, -, h⟩ := Result.bind_eq_ok h
    obtain ⟨⟨later, laterRows⟩, hlat, h⟩ := Result.bind_eq_ok h
    cases h
    rw [List.map_cons, ih hlat]

section Dispatch

variable {σ ε : Type} {service : Service σ StoreCall StoreCall.Answer ε} {recordedAt : Instant}
  {items : List FanOutItem} {recorder recorder' : Recorder} {store store' : σ}

/-- A dispatch that succeeds has made one append, which succeeded, with the rows of its
items. -/
theorem run_recordFanOutDispatch (hitems : items ≠ [])
    (h : service.run (recordFanOutDispatch recordedAt items recorder) store =
        ((.ok (), recorder'), store')) :
    ∃ events, service.serve store (.appendWithOutbox recorder.workflowId events
        recorder.sequence.current
      (items.map fun item => item.outboxRow recorder recordedAt)) = (.ok (), store') := by
  unfold recordFanOutDispatch at h
  rw [if_neg hitems] at h
  cases hbatch : fanOutBatch recorder recordedAt items none with
  | error error =>
    simp only [bind, RecorderM.get, RecorderM.lift, Prog.bind, hbatch] at h
    cases h
  | ok batch =>
    obtain ⟨events, rows⟩ := batch
    obtain rfl := fanOutBatch_rows hbatch
    refine ⟨events, ?_⟩
    simp only [bind, RecorderM.get, RecorderM.lift, RecorderM.liftStore, RecorderM.call,
      markAppendSuccess,
      RecorderM.modify, Prog.bind, hbatch, Service.run] at h
    generalize service.serve store _ = served at h ⊢
    obtain ⟨answer, after⟩ := served
    cases (answer : Except StoreError Unit) with
    | error error => cases h
    | ok value =>
      cases hmark : recorder.sequence.markAppendSuccess events.length with
      | error error =>
        simp only [Except.mapError, hmark] at h
        cases h
      | ok sequence =>
        simp only [Except.mapError, hmark] at h
        cases h
        rfl

end Dispatch

/-- A workflow's keys tell its ordinals apart. -/
theorem OutboxRow.dispatchKeyFor_inj {a b : ℕ} :
    dispatchKeyFor workflowId a = dispatchKeyFor workflowId b ↔ a = b := by
  refine ⟨fun h => ?_, fun h => by rw [h]⟩
  unfold dispatchKeyFor at h
  rw [String.append_right_inj] at h
  have hdigits : Nat.toDigits 10 a = Nat.toDigits 10 b := String.ofList_injective h
  rw [← Nat.ofDigitChars_toDigits (b := 10) (n := a) (by decide) (by decide), hdigits,
    Nat.ofDigitChars_toDigits (by decide) (by decide)]

/-- The first row of a batch with an item's key is that of the first item with its ordinal. -/
theorem find?_outboxRow {recorder : Recorder} {recordedAt : Instant} (items : List FanOutItem)
    (ordinal : ℕ) :
    (items.map fun item => item.outboxRow recorder recordedAt).find? (fun row =>
        row.dispatchKey = OutboxRow.dispatchKeyFor recorder.workflowId ordinal) =
      (items.find? fun item => item.ordinal = ordinal).map fun item =>
        item.outboxRow recorder recordedAt := by
  have hkeys : ((fun row : OutboxRow =>
        decide (row.dispatchKey = OutboxRow.dispatchKeyFor recorder.workflowId ordinal)) ∘
          fun item : FanOutItem => item.outboxRow recorder recordedAt) =
      fun item => decide (item.ordinal = ordinal) := by
    funext item
    have hkey : (item.outboxRow recorder recordedAt).dispatchKey =
        OutboxRow.dispatchKeyFor recorder.workflowId item.ordinal := rfl
    rw [Function.comp, hkey, decide_eq_decide]
    exact OutboxRow.dispatchKeyFor_inj
  rw [List.find?_map, hkeys]

/-! ### When an item is staged -/

/-- What is at an item's key does not stand in its way: it is the item's own row, or there
is nothing and the first item of the batch with the ordinal has the item's type and input. -/
def Unobstructed {α : Type} (stages : α → Prop) (existing : Option α) (items : List FanOutItem)
    (item : FanOutItem) : Prop :=
  match existing with
  | some row => stages row
  | none => ∀ first, (items.find? fun other => other.ordinal = item.ordinal) = some first →
      first.activityType = item.activityType ∧ first.input = item.input

/-- Where a batch leaves what is there, and else the row of the first item with the ordinal,
an item is staged exactly when it was unobstructed. -/
theorem staged_iff {α : Type} {stages : α → Prop} {existing after : Option α}
    {items : List FanOutItem} {row : FanOutItem → α} (hmem : item ∈ items)
    (hafter : after = existing.or ((items.find? fun other => other.ordinal = item.ordinal).map row))
    (hrow : ∀ first, stages (row first) ↔ first.activityType = item.activityType ∧
        first.input = item.input) :
    (∃ found, after = some found ∧ stages found) ↔ Unobstructed stages existing items item := by
  cases existing with
  | some found => simp [hafter, Unobstructed]
  | none =>
    obtain ⟨first, hfst⟩ : ∃ first, (items.find? fun other => other.ordinal = item.ordinal) = some first := by
      rw [← Option.isSome_iff_exists, List.find?_isSome]
      exact ⟨item, hmem, by simp⟩
    simp [hafter, Unobstructed, hfst, hrow]

/-! ### libSQL -/

namespace LibSqlStore

variable {Bytes : Type} {codec : OutboxCodec Bytes} {store store' : LibSqlStore Bytes}

/-- The row is the pending dispatch of the item in the recorder's run. -/
def Stages (codec : OutboxCodec Bytes) (recorder : Recorder) (item : FanOutItem)
    (row : OutboxColumns Bytes) : Prop :=
  row.status = "pending" ∧ row.runId = recorder.runId.map RunId.display ∧
    row.activityType = item.activityType ∧ codec.payloadFromSlice row.input = .ok item.input

theorem lookup_appendWithOutbox (hrows : rows ≠ [])
    (h : appendWithOutbox codec store workflowId events expectedSeq rows = .ok store')
    (key : String) :
    store'.outbox.lookup key = (store.outbox.lookup key).or
      ((rows.find? fun row => row.dispatchKey = key).map (LibSqlOutbox.columnsOf codec)) := by
  unfold appendWithOutbox at h
  dsimp only at h
  split at h
  · cases h
  · rw [if_neg (by simp [hrows])] at h
    split at h
    · cases h
    · obtain ⟨outbox, houtbox, h⟩ := Result.bind_eq_ok h
      cases h
      rw [LibSqlOutbox.insertOutboxRows_eq_ok houtbox, KeyedTable.lookup_insertAll, List.find?_map]
      rfl

/-- The store as a service. -/
def service (codec : OutboxCodec Bytes) :
    Service (LibSqlStore Bytes) StoreCall StoreCall.Answer Empty where
  serve := serve codec
  added := fun _ _ => []

theorem stages_outboxRow
    (hpayload : ∀ payload, codec.payloadFromSlice (codec.payloadToVec payload) = .ok payload)
    {recorder : Recorder} {recordedAt : Instant} :
    Stages codec recorder item (LibSqlOutbox.columnsOf codec
        (first.outboxRow recorder recordedAt)) ↔
      first.activityType = item.activityType ∧ first.input = item.input := by
  change ("pending" = "pending" ∧ recorder.runId.map RunId.display =
      recorder.runId.map RunId.display ∧
    first.activityType = item.activityType ∧
      codec.payloadFromSlice (codec.payloadToVec first.input) = .ok item.input) ↔ _
  simp [hpayload]

/-- Every item of the batch is staged. -/
def AllStaged (codec : OutboxCodec Bytes) (recorder : Recorder) (items : List FanOutItem)
    (store : LibSqlStore Bytes) : Prop :=
  ∀ item ∈ items, ∃ row,
    store.outbox.lookup (OutboxRow.dispatchKeyFor recorder.workflowId item.ordinal) = some row ∧
      Stages codec recorder item row

/-- No item of the batch is obstructed by what is at its key. -/
def AllUnobstructed (codec : OutboxCodec Bytes) (recorder : Recorder) (items : List FanOutItem)
    (store : LibSqlStore Bytes) : Prop :=
  ∀ item ∈ items, Unobstructed (Stages codec recorder item)
    (store.outbox.lookup (OutboxRow.dispatchKeyFor recorder.workflowId item.ordinal)) items item

theorem allStaged_iff
    (hpayload : ∀ payload, codec.payloadFromSlice (codec.payloadToVec payload) = .ok payload)
    {recorder recorder' : Recorder} {recordedAt : Instant} {items : List FanOutItem}
    (h : (service codec).run (recordFanOutDispatch recordedAt items recorder) store =
      ((.ok (), recorder'), store')) :
    AllStaged codec recorder items store' ↔ AllUnobstructed codec recorder items store := by
  refine forall₂_congr fun item hmem => ?_
  obtain ⟨events, hserve⟩ := run_recordFanOutDispatch (List.ne_nil_of_mem hmem) h
  have happ : appendWithOutbox codec store recorder.workflowId events recorder.sequence.current
      (items.map fun item => item.outboxRow recorder recordedAt) = .ok store' := by
    change appendAnswer codec store _ _ _ _ = _ at hserve
    unfold appendAnswer at hserve
    split at hserve
    · rename_i happ
      rw [happ, (Prod.mk.inj hserve).2]
    · cases (Prod.mk.inj hserve).1
  have hafter := lookup_appendWithOutbox (by simpa using List.ne_nil_of_mem hmem) happ
    (OutboxRow.dispatchKeyFor recorder.workflowId item.ordinal)
  rw [find?_outboxRow, Option.map_map] at hafter
  exact staged_iff hmem hafter fun first => stages_outboxRow hpayload

end LibSqlStore

/-! ### haematite -/

namespace Haematite

variable {Bytes : Type} {codec : OutboxCodec Bytes} {sharding : Sharding}
  {db : HaematiteDatabase Bytes sharding}

/-- The entry is the pending dispatch of the item in the recorder's run. -/
def Stages (codec : OutboxCodec Bytes) (recorder : Recorder) (item : FanOutItem) (bytes : Bytes) :
    Prop :=
  ∃ row, codec.rowFromSlice bytes = .ok row ∧ row.status = "pending" ∧ row.runId = recorder.runId ∧
    row.activityType = item.activityType ∧ row.input = item.input

/-- The rows of one workflow are inserted where there is none. -/
theorem run_insertRows (hrows : ∀ row ∈ rows, row.workflowId = workflowId)
    (database : Database Bytes) :
    ∃ database', run sharding (insertRows codec rows) database = (.ok (), database') ∧
      ∀ key, entryAt sharding database' workflowId key =
        (entryAt sharding database workflowId key).or
        ((rows.find? fun row => row.dispatchKey = key).map (encodeOutbox codec)) := by
  induction rows generalizing database with
  | nil => exact ⟨database, rfl, by simp⟩
  | cons row rest ih =>
    obtain ⟨rfl, hrest⟩ := List.forall_mem_cons.mp hrows
    rw [insertRows, run_bind_ok (run_getRouted _ _)]
    cases hent : entryAt sharding database row.workflowId row.dispatchKey with
    | none =>
      obtain ⟨database', hrun, hents⟩ := ih hrest
        (put sharding database row.workflowId row.dispatchKey (encodeOutbox codec row))
      refine ⟨database', hrun, fun key => ?_⟩
      rw [hents, entryAt_put, List.find?_cons]
      by_cases hkey : row.dispatchKey = key
      · subst hkey
        simp [hent]
      · simp [hkey]
    | some bytes =>
      obtain ⟨database', hrun, hents⟩ := ih hrest database
      refine ⟨database', hrun, fun key => ?_⟩
      rw [hents, List.find?_cons]
      by_cases hkey : row.dispatchKey = key
      · subst hkey
        simp [hent]
      · simp [hkey]

variable {database' database : Database Bytes}

theorem run_insertOutboxRows (hrows : ∀ row ∈ rows, row.workflowId = workflowId)
    (h : run sharding (insertOutboxRows codec rows) database = (.ok (), database')) (key : String) :
    entryAt sharding database' workflowId key = (entryAt sharding database workflowId key).or
      ((rows.find? fun row => row.dispatchKey = key).map (encodeOutbox codec)) := by
  obtain ⟨inserted, hrun, hents⟩ := run_insertRows hrows database
  rw [insertOutboxRows, run_bind_ok hrun] at h
  obtain rfl : inserted = database' := (Prod.mk.inj h).2
  exact hents key

/-- The event streams are kept apart from the outbox. -/
theorem run_appendEvents {outcome : Except StoreError Unit}
    (h : run sharding (appendEvents workflowId events expectedSeq) database =
        (outcome, database')) : database'.shards = database.shards := by
  unfold appendEvents at h
  split at h
  · rw [← (Prod.mk.inj h).2]
  · rw [run_bind] at h
    have hafter : (database.serve sharding (.appendBatch workflowId events expectedSeq)).2 =
      database' :=
      (Prod.mk.inj h).2
    rw [← hafter]
    simp only [Database.serve]
    split <;> rfl

theorem run_appendBlocking (hne : rows ≠ []) (hrows : ∀ row ∈ rows, row.workflowId = workflowId)
    (h : run sharding (appendBlocking codec workflowId events expectedSeq (some rows)) database =
        (.ok (), database')) (key : String) :
    entryAt sharding database' workflowId key = (entryAt sharding database workflowId key).or
      ((rows.find? fun row => row.dispatchKey = key).map (encodeOutbox codec)) := by
  obtain ⟨head, read, hhead, h⟩ := run_bind_eq_ok h
  obtain rfl : database = read := (Prod.mk.inj hhead).2
  split at h
  · cases (Prod.mk.inj h).1
  · split at h
    · cases (Prod.mk.inj h).1
    · rw [if_neg (by simp [hne])] at h
      obtain ⟨_, appended, happd, h⟩ := run_bind_eq_ok h
      rw [run_insertOutboxRows hrows h, entryAt, run_appendEvents happd]
      rfl

/-- The store as a service. -/
def storeService (codec : OutboxCodec Bytes) (db : HaematiteDatabase Bytes sharding) :
    Service (Store db) StoreCall StoreCall.Answer Empty where
  serve := serve codec
  added := fun _ _ => []

theorem stages_outboxRow (hrow : ∀ row, codec.rowFromSlice (codec.rowToVec row) = .ok row)
    {recorder : Recorder} {recordedAt : Instant} :
    Stages codec recorder item (encodeOutbox codec (first.outboxRow recorder recordedAt)) ↔
      first.activityType = item.activityType ∧ first.input = item.input := by
  unfold Stages encodeOutbox
  rw [hrow]
  constructor
  · rintro ⟨row, hdecd, -, -, htype, hinput⟩
    obtain rfl := Except.ok.inj hdecd
    exact ⟨htype, hinput⟩
  · rintro ⟨htype, hinput⟩
    exact ⟨_, rfl, rfl, rfl, htype, hinput⟩

/-- Every item of the batch is staged. -/
def AllStaged (codec : OutboxCodec Bytes) (recorder : Recorder) (items : List FanOutItem)
    (store : Store db) : Prop :=
  ∀ item ∈ items, ∃ bytes,
    entryAt sharding (db.kept store.database) recorder.workflowId
      (OutboxRow.dispatchKeyFor recorder.workflowId item.ordinal) = some bytes ∧ Stages codec recorder item bytes

/-- No item of the batch is obstructed by what is at its key. -/
def AllUnobstructed (codec : OutboxCodec Bytes) (recorder : Recorder) (items : List FanOutItem)
    (store : Store db) : Prop :=
  ∀ item ∈ items, Unobstructed (Stages codec recorder item)
    (entryAt sharding (db.kept store.database) recorder.workflowId
      (OutboxRow.dispatchKeyFor recorder.workflowId item.ordinal)) items item

theorem allStaged_iff (hrow : ∀ row, codec.rowFromSlice (codec.rowToVec row) = .ok row)
    {store store' : Store db} {recorder recorder' : Recorder} {recordedAt : Instant}
    {items : List FanOutItem}
    (h : (storeService codec db).run (recordFanOutDispatch recordedAt items recorder) store =
      ((.ok (), recorder'), store')) :
    AllStaged codec recorder items store' ↔ AllUnobstructed codec recorder items store := by
  refine forall₂_congr fun item hmem => ?_
  obtain ⟨events, hserve⟩ := run_recordFanOutDispatch (List.ne_nil_of_mem hmem) h
  have happ : run sharding (appendBlocking codec recorder.workflowId events
      recorder.sequence.current
      (some (items.map fun item => item.outboxRow recorder recordedAt))) (db.kept store.database) =
      (.ok (), db.kept store'.database) := by
    have honDatabase : store.onDatabase (appendBlocking codec recorder.workflowId events
        recorder.sequence.current (some (items.map fun item => item.outboxRow recorder recordedAt))) =
        (.ok (), store') := hserve
    obtain ⟨hans, hstore⟩ := Prod.mk.inj honDatabase
    exact run_of_runOn (Prod.ext hans (congrArg Store.database hstore))
  have hrows : ∀ row ∈ items.map fun item => item.outboxRow recorder recordedAt,
      row.workflowId = recorder.workflowId := by
    intro row hrow
    obtain ⟨item, -, rfl⟩ := List.mem_map.mp hrow
    rfl
  have hafter := run_appendBlocking (by simpa using List.ne_nil_of_mem hmem) hrows happ
    (OutboxRow.dispatchKeyFor recorder.workflowId item.ordinal)
  rw [find?_outboxRow, Option.map_map] at hafter
  exact staged_iff hmem hafter fun first => stages_outboxRow hrow

/-- No entries. -/
def Store.empty : Store (.sound Bytes sharding) := ⟨.empty, .empty⟩

end Haematite

/-! ### Both backends -/

/-- **Staging**: on either backend, after a dispatch that succeeds every item of the batch
has the pending row of its own run, type and input exactly when before it no item was
obstructed by a row with its key. -/
theorem fan_out_staged_iff {Bytes : Type} (codec : OutboxCodec Bytes) {sharding : Sharding}
    (db : HaematiteDatabase Bytes sharding)
    (hpayload : ∀ payload, codec.payloadFromSlice (codec.payloadToVec payload) = .ok payload)
    (hrow : ∀ row, codec.rowFromSlice (codec.rowToVec row) = .ok row)
    (recorder recorder' : Recorder) (recordedAt : Instant) (items : List FanOutItem) :
    (∀ store store' : LibSqlStore Bytes,
        (LibSqlStore.service codec).run (recordFanOutDispatch recordedAt items recorder) store =
          ((.ok (), recorder'), store') →
        (LibSqlStore.AllStaged codec recorder items store' ↔
          LibSqlStore.AllUnobstructed codec recorder items store)) ∧
      ∀ store store' : Haematite.Store db,
        (Haematite.storeService codec db).run
          (recordFanOutDispatch recordedAt items recorder) store =
          ((.ok (), recorder'), store') →
        (Haematite.AllStaged codec recorder items store' ↔
            Haematite.AllUnobstructed codec recorder items store) :=
  ⟨fun _ _ h => LibSqlStore.allStaged_iff hpayload h, fun _ _ h => Haematite.allStaged_iff hrow h⟩

/-- One activity of ordinal 0. -/
def soleItem : FanOutItem := ⟨0, "default", "default", none, "activity", .empty, 1⟩

/-- A recorder at the head of a history, in a run. -/
def recorderAt (head : ℕ) (runId : RunId) : Recorder := ⟨⟨0⟩, ⟨head⟩, none, some runId⟩

/-- A workflow starts, dispatches the item and continues as new. -/
def continuedRun : RecorderM Unit := do
  recordWorkflowStarted 0 ⟨"flow", .empty, ⟨1⟩, none, ⟨"v1"⟩⟩
  recordFanOutDispatch 0 [soleItem]
  recordWorkflowContinuedAsNew 0 .empty none ⟨1⟩
  recordWorkflowStarted 0 ⟨"flow", .empty, ⟨2⟩, some ⟨1⟩, ⟨"v1"⟩⟩

/-- The store after the first run, whose row was completed. -/
def afterContinuedRun : LibSqlStore (Payload ⊕ StoredOutboxRow) :=
  (LibSqlStore.step (OutboxCodec.known [] [])
    ((LibSqlStore.service (OutboxCodec.known [] [])).run (continuedRun (.new ⟨0⟩)) .empty).2
    (.outbox (.completeOutboxRow (OutboxRow.dispatchKeyFor ⟨0⟩ 0)))).2

/-- The same store in haematite, where the row is still pending. -/
def afterContinuedRunHaematite : Haematite.Store (.sound (Payload ⊕ StoredOutboxRow) oneShard) :=
  ((Haematite.storeService (OutboxCodec.known [] []) (.sound _ _)).run
      (continuedRun (.new ⟨0⟩)) .empty).2

/-- Two activities that the second run dispatches, with ordinals of their own. -/
def laterItems : List FanOutItem :=
  [{ soleItem with ordinal := 1, activityType := "left" },
      { soleItem with ordinal := 2, activityType := "right" }]

/-- What no row has the key of is unobstructed, if the batch has its ordinal once. -/
theorem unobstructed_laterItems {α : Type} (stages : FanOutItem → α → Prop)
    {existing : FanOutItem → Option α}
    (hnone : (laterItems.all fun item => (existing item).isNone) = true) :
    ∀ item ∈ laterItems, Unobstructed (stages item) (existing item) laterItems item := by
  intro item hmem
  have hexisting := Option.isNone_iff_eq_none.mp (List.all_eq_true.mp hnone item hmem)
  rw [hexisting]
  intro first hfst
  simp only [laterItems, List.mem_cons, List.not_mem_nil, or_false] at hmem
  rcases hmem with rfl | rfl
  · obtain rfl := Option.some.inj hfst
    exact ⟨rfl, rfl⟩
  · obtain rfl := Option.some.inj hfst
    exact ⟨rfl, rfl⟩

/-- Beside the row of the first run, both items of the second are staged by either backend. -/
theorem first_dispatch_staged :
    LibSqlStore.AllStaged (OutboxCodec.known [] []) (recorderAt 5 ⟨2⟩) laterItems
        ((LibSqlStore.service (OutboxCodec.known [] [])).run
          (recordFanOutDispatch 0 laterItems (recorderAt 5 ⟨2⟩)) afterContinuedRun).2 ∧
      Haematite.AllStaged (OutboxCodec.known [] []) (recorderAt 5 ⟨2⟩) laterItems
        ((Haematite.storeService (OutboxCodec.known [] []) (.sound _ _)).run
          (recordFanOutDispatch 0 laterItems (recorderAt 5 ⟨2⟩)) afterContinuedRunHaematite).2 := by
  have hboth :=
    fan_out_staged_iff (OutboxCodec.known [] []) (.sound _ oneShard) (fun _ => rfl) (fun _ => rfl)
    (recorderAt 5 ⟨2⟩) (recorderAt 9 ⟨2⟩) 0 laterItems
  refine ⟨(hboth.1 afterContinuedRun _ (Prod.ext (by decide +kernel) rfl)).mpr ?_,
    (hboth.2 afterContinuedRunHaematite _ (Prod.ext (by decide +kernel) rfl)).mpr ?_⟩
  · exact unobstructed_laterItems (LibSqlStore.Stages _ _) (by decide +kernel)
  · exact unobstructed_laterItems (Haematite.Stages _ _) (by decide +kernel)

/-- The second run's dispatch succeeds, and its item is not staged. -/
theorem second_dispatch_swallowed :
    ((LibSqlStore.service (OutboxCodec.known [] [])).run
        (recordFanOutDispatch 0 [soleItem] (recorderAt 5 ⟨2⟩)) afterContinuedRun).1 =
        (.ok (), recorderAt 7 ⟨2⟩) ∧
      ¬ LibSqlStore.AllStaged (OutboxCodec.known [] []) (recorderAt 5 ⟨2⟩) [soleItem]
        ((LibSqlStore.service (OutboxCodec.known [] [])).run
          (recordFanOutDispatch 0 [soleItem] (recorderAt 5 ⟨2⟩)) afterContinuedRun).2 := by
  refine ⟨by decide +kernel, fun hstaged => ?_⟩
  obtain ⟨row, hrow, hstat, -⟩ := hstaged soleItem (by simp)
  have hdone : LibSqlOutbox.statusAt ((LibSqlStore.service (OutboxCodec.known [] [])).run
      (recordFanOutDispatch 0 [soleItem] (recorderAt 5 ⟨2⟩)) afterContinuedRun).2.outbox
      (OutboxRow.dispatchKeyFor ⟨0⟩ 0) = some "done" := by decide +kernel
  unfold LibSqlOutbox.statusAt at hdone
  rw [show KeyedTable.lookup _ (OutboxRow.dispatchKeyFor ⟨0⟩ 0) = some row from hrow,
    Option.map_some,
    hstat] at hdone
  exact absurd hdone (by decide)

end Aion
