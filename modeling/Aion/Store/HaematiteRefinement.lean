import Aion.Library.Result
import Aion.Store.HaematiteOutbox
import Aion.Store.OutboxTable

/-!
# The haematite outbox refines the outbox

The shards of the database hold the encoded rows of the outbox, each on the shard of its
workflow (`Represents`). A scan of all shards finds the rows in some order, and sorts make
the order not matter; a put rewrites one row. So every operation, run alone, answers what
the outbox answers and leaves what it leaves (`execute_refines`).
-/

namespace Aion.Haematite

open DbM OutboxTable Sorting

variable {Bytes : Type} {codec : OutboxCodec Bytes} {sharding : Sharding}
  {database : Database Bytes}

/-- The shards hold the rows, each on the shard of its workflow. -/
def Represents (codec : OutboxCodec Bytes) (sharding : Sharding) (database : Database Bytes)
    (content : String → Option OutboxRow) : Prop :=
  ∀ shard key, (database.shards shard).lookup key =
    ((content key).filter fun row => sharding.shardOf row.workflowId = shard).map fun row =>
      (key, encodeOutbox codec row)

/-! ### Keys and stored rows -/

variable {f : OutboxRow → OutboxRow} {row : OutboxRow} {operation : OutboxOperation}
  {database' : Database Bytes} {batch : List OutboxRow} {p : OutboxRow → Bool} {key : String}

/-- A row is read back from its stored form. -/
theorem decodeOutbox_encodeOutbox (lawful : codec.Lawful) (hrow : AdmissibleRow row) :
    decodeOutbox codec (encodeOutbox codec row) = .ok row := by
  unfold decodeOutbox encodeOutbox
  rw [lawful.row]
  simp only [stored, Except.mapError, bind, Except.bind, OutboxStatus.parseToken_asStr,
    hrow.decode_visibleAfter lawful, hrow.decode_claimedAt lawful]
  rfl

theorem ne_colon_of_mem_toDigits {n : ℕ} {c : Char} (h : c ∈ Nat.toDigits 10 n) : c ≠ ':' := by
  rintro rfl
  have hdigit := Nat.isDigit_of_mem_toDigits (by decide) (by decide) h
  exact absurd hdigit (by decide)

theorem beforeLastColon_dispatchKeyFor (workflowId : WorkflowId) (ordinal : ℕ) :
    beforeLastColon (OutboxRow.dispatchKeyFor workflowId ordinal) = some workflowId.display := by
  have hlist : (OutboxRow.dispatchKeyFor workflowId ordinal).toList.reverse =
      (Nat.toDigits 10 ordinal).reverse ++ ':' :: workflowId.display.toList.reverse := by
    simp [OutboxRow.dispatchKeyFor, toString, Nat.repr]
  have hdrop : (OutboxRow.dispatchKeyFor workflowId ordinal).toList.reverse.dropWhile (· ≠ ':') =
      ':' :: workflowId.display.toList.reverse := by
    rw [hlist, List.dropWhile_append_of_pos fun c hc => by
      simpa using ne_colon_of_mem_toDigits (List.mem_reverse.mp hc)]
    simp
  unfold beforeLastColon
  rw [hdrop]
  simp

/-- A dispatch key is routed by its workflow. -/
theorem workflowOf_dispatchKeyFor (lawful : codec.Lawful) (workflowId : WorkflowId) (ordinal : ℕ) :
    workflowOf codec (OutboxRow.dispatchKeyFor workflowId ordinal) = .ok workflowId := by
  unfold workflowOf
  rw [beforeLastColon_dispatchKeyFor]
  simp only [show codec.parseStr workflowId.display = .ok workflowId.asUuid from lawful.uuid _]
  rfl

theorem workflowOf_of_lookup (lawful : codec.Lawful) {rows : OutboxTable} (hrows : rows.Admissible)
    (h : rows.lookup key = some row) : workflowOf codec key = .ok row.workflowId := by
  rw [← KeyedTable.key_of_lookup h, (hrows key row h).key]
  exact workflowOf_dispatchKeyFor lawful _ _

/-! ### Reads and writes -/

/-- A get by the workflow a key names. -/
theorem run_get (lawful : codec.Lawful) {rows : OutboxTable} (hrows : rows.Admissible)
    (h : Represents codec sharding database rows.lookup) {workflowId : WorkflowId}
    (hkey : workflowOf codec key = .ok workflowId) :
    run sharding (getRouted workflowId key) database =
      (.ok ((rows.lookup key).map (encodeOutbox codec)), database) := by
  rw [run_getRouted, entryAt, h]
  cases hrow : rows.lookup key with
  | none => rfl
  | some row =>
    have hwf := workflowOf_of_lookup lawful hrows hrow
    rw [hkey] at hwf
    cases hwf
    simp

/-- A put of a row where its workflow's rows are. -/
theorem represents_put {content : String → Option OutboxRow}
    (h : Represents codec sharding database content) (row : OutboxRow) (key : String)
    (hold : ∀ old, content key = some old → old.workflowId = row.workflowId) :
    Represents codec sharding (put sharding database row.workflowId key (encodeOutbox codec row))
      (Function.update content key (some row)) := by
  intro shard key'
  by_cases hshard : shard = sharding.shardOf row.workflowId
  · subst hshard
    simp only [put, Database.serve, Function.update_self, KeyedTable.lookup_upsert]
    by_cases hkey : key = key'
    · subst hkey
      cases hfd : (database.shards (sharding.shardOf row.workflowId)).lookup key with
      | none => simp
      | some entry =>
        have hent : entry.1 = key := KeyedTable.key_of_lookup hfd
        simp [hent]
    · simp [hkey, Function.update_of_ne (Ne.symm hkey), h (sharding.shardOf row.workflowId) key']
  · simp only [put, Database.serve, Function.update_of_ne hshard, h shard key']
    by_cases hkey : key' = key
    · subst hkey
      cases hfd : content key' with
      | none => simp [Ne.symm hshard]
      | some old => simp [Option.filter_some, hold old hfd, Ne.symm hshard]
    · rw [Function.update_of_ne hkey]

/-! ### Scans -/

theorem shard_perm {rows : OutboxTable} (h : Represents codec sharding database rows.lookup)
    (shard : ℕ) :
    (database.shards shard).rows.Perm
      ((rows.rows.filter fun row => sharding.shardOf row.workflowId = shard).map fun row =>
        (row.dispatchKey, encodeOutbox codec row)) := by
  refine KeyedTable.rows_perm ?_ fun entry => ?_
  · refine (rows.nodup_rows.filter _).map_on fun row hrow row' hrow' heq => ?_
    exact KeyedTable.eq_of_key_eq (List.mem_of_mem_filter hrow) (List.mem_of_mem_filter hrow')
      (Prod.mk.inj heq).1
  · rw [h shard entry.1, List.mem_map, Option.map_eq_some_iff]
    constructor
    · rintro ⟨row, hrow, rfl⟩
      obtain ⟨hmem, hshard⟩ := List.mem_filter.mp hrow
      exact ⟨row, by rw [KeyedTable.lookup_of_mem hmem, Option.filter_some, if_pos hshard], rfl⟩
    · rintro ⟨row, hrow, hent⟩
      obtain ⟨hfd, hshard⟩ := Option.filter_eq_some_iff.mp hrow
      obtain ⟨hmem, hkey⟩ := KeyedTable.lookup_eq_some_iff.mp hfd
      exact ⟨row, List.mem_filter.mpr ⟨hmem, hshard⟩, hkey ▸ hent⟩

/-- A scan finds the rows of the shards it reads, in some order. -/
theorem run_scanOutbox (lawful : codec.Lawful) {rows : OutboxTable} (hrows : rows.Admissible)
    (h : Represents codec sharding database rows.lookup) {shards : List ℕ} (hnd : shards.Nodup) :
    ∃ scanned, run sharding (scanOutbox codec shards) database = (.ok scanned, database) ∧
      scanned.Perm (rows.rows.filter fun row => sharding.shardOf row.workflowId ∈ shards) := by
  induction shards with
  | nil => exact ⟨[], rfl, by simp⟩
  | cons shard rest ih =>
    obtain ⟨hshard, hrest⟩ := List.nodup_cons.mp hnd
    obtain ⟨later, hlat, hlaterPerm⟩ := ih hrest
    have hents : run sharding (rangePerShard shard) database =
        (.ok ((database.shards shard).rows.insertionSort fun left right => left.1 ≤ right.1), database) := rfl
    have hdecd := Result.mapM_map_eq_ok (h := id)
      (f := fun entry : String × Bytes => decodeOutbox codec entry.2)
      (g := fun row => (row.dispatchKey, encodeOutbox codec row))
      fun row (hrow : row ∈ rows.rows.filter fun row => sharding.shardOf row.workflowId = shard) =>
        decodeOutbox_encodeOutbox lawful (hrows.of_mem (List.mem_of_mem_filter hrow))
    rw [List.map_id] at hdecd
    obtain ⟨first, hfst, hfirstPerm⟩ :=
      Result.mapM_perm ((List.perm_insertionSort (fun left right : String × Bytes => left.1 ≤ right.1) _).trans
        (shard_perm h shard)) hdecd
    refine ⟨first ++ later, ?_, ?_⟩
    · rw [scanOutbox, run_bind_ok hents, hfst, run_bind_ok (run_lift _), run_bind_ok hlat]
      rfl
    · refine (hfirstPerm.append hlaterPerm).trans ?_
      rw [List.perm_ext_iff_of_nodup]
      · intro row
        simp only [List.mem_append, List.mem_filter, List.mem_cons, decide_eq_true_eq]
        tauto
      · refine (rows.nodup_rows.filter _).append (rows.nodup_rows.filter _) fun row hrow hrow' => ?_
        have hfst := of_decide_eq_true (List.mem_filter.mp hrow).2
        have hlat := of_decide_eq_true (List.mem_filter.mp hrow').2
        exact hshard (hfst ▸ hlat)
      · exact rows.nodup_rows.filter _

/-- A scan of all shards finds the rows, in some order. -/
theorem run_scanAll (lawful : codec.Lawful) {rows : OutboxTable} (hrows : rows.Admissible)
    (h : Represents codec sharding database rows.lookup) :
    ∃ scanned, run sharding (scanOutbox codec (List.range sharding.shardCount)) database =
      (.ok scanned, database) ∧
      scanned.Perm rows.rows := by
  obtain ⟨scanned, hrun, hperm⟩ := run_scanOutbox lawful hrows h List.nodup_range
  refine ⟨scanned, hrun, hperm.trans (List.Perm.of_eq (List.filter_eq_self.mpr fun row _ => ?_))⟩
  simpa [Sharding.shardOf] using Nat.mod_lt _ sharding.pos

/-! ### Loops -/

theorem insertIfAbsent_lookup_of_none {rows : OutboxTable}
    (h : rows.lookup row.dispatchKey = none) :
    (KeyedTable.insertIfAbsent rows row).lookup =
      Function.update rows.lookup row.dispatchKey (some row) := by
  funext key
  rw [KeyedTable.lookup_insertIfAbsent, Function.update_apply]
  by_cases hkey : row.dispatchKey = key
  · subst hkey
    simp [h]
  · simp [hkey, Ne.symm hkey]

theorem insertRows_represents (lawful : codec.Lawful) {rows : OutboxTable} (hrows : rows.Admissible)
    (h : Represents codec sharding database rows.lookup)
    (hbatch : ∀ row ∈ batch, AdmissibleRow row) :
    ∃ database', run sharding (insertRows codec batch) database = (.ok (), database') ∧
      Represents codec sharding database' (batch.foldl KeyedTable.insertIfAbsent rows).lookup := by
  induction batch generalizing database rows with
  | nil => exact ⟨database, rfl, h⟩
  | cons row rest ih =>
    obtain ⟨hrow, hrest⟩ := List.forall_mem_cons.mp hbatch
    have hget := run_get lawful hrows h (hrow.key ▸ workflowOf_dispatchKeyFor lawful row.workflowId row.ordinal)
    rw [insertRows, run_bind_ok hget, List.foldl_cons]
    cases hfd : rows.lookup row.dispatchKey with
    | none =>
      change ∃ database', run sharding (putRow codec row >>= fun _ => insertRows codec rest) database = _ ∧ _
      rw [putRow, run_bind_ok (run_putRouted _ _ _)]
      refine ih (hrows.insertIfAbsent hrow) ?_ hrest
      rw [insertIfAbsent_lookup_of_none hfd]
      refine represents_put h row row.dispatchKey fun old hold => ?_
      rw [hfd] at hold
      cases hold
    | some found =>
      have hsame : KeyedTable.insertIfAbsent rows row = rows := dif_neg (by rw [hfd]; exact Option.some_ne_none _)
      rw [Option.map_some, hsame]
      exact ih hrows h hrest

theorem rearm_lookup (rows : OutboxTable) (row : OutboxRow) :
    (rows.rearm row).lookup =
      Function.update rows.lookup row.dispatchKey
      (some (rearmed row (rows.lookup row.dispatchKey))) := by
  funext key
  rw [OutboxTable.rearm, KeyedTable.lookup_upsert, Function.update_apply]
  by_cases hkey : row.dispatchKey = key
  · subst hkey
    simp only [OutboxRow.finish_dispatchKey, if_true]
    cases rows.lookup row.dispatchKey <;> rfl
  · rw [if_neg (Ne.symm hkey), OutboxRow.finish_dispatchKey, if_neg hkey]

theorem rearmed_workflowId {rows : OutboxTable} (hrows : rows.Admissible) (lawful : codec.Lawful)
    (hrow : AdmissibleRow row) :
    (rearmed row (rows.lookup row.dispatchKey)).workflowId = row.workflowId := by
  cases hfd : rows.lookup row.dispatchKey with
  | none => rfl
  | some prior =>
    have hwf := workflowOf_of_lookup lawful hrows hfd
    rw [hrow.key, workflowOf_dispatchKeyFor lawful] at hwf
    exact (Except.ok.inj hwf).symm

theorem rearmRows_represents (lawful : codec.Lawful) {rows : OutboxTable} (hrows : rows.Admissible)
    (h : Represents codec sharding database rows.lookup)
    (hbatch : ∀ row ∈ batch, AdmissibleRow row) :
    ∃ database', run sharding (rearmRows codec batch) database = (.ok (), database') ∧
      Represents codec sharding database' (batch.foldl OutboxTable.rearm rows).lookup := by
  induction batch generalizing database rows with
  | nil => exact ⟨database, rfl, h⟩
  | cons row rest ih =>
    obtain ⟨hrow, hrest⟩ := List.forall_mem_cons.mp hbatch
    have hkey : workflowOf codec row.dispatchKey = .ok row.workflowId :=
      hrow.key ▸ workflowOf_dispatchKeyFor lawful _ _
    have hget := run_get lawful hrows h hkey
    have hprior : transposeOption (decodeOutbox codec)
      ((rows.lookup row.dispatchKey).map (encodeOutbox codec)) =
        .ok (rows.lookup row.dispatchKey) := by
      cases hfd : rows.lookup row.dispatchKey with
      | none => rfl
      | some prior =>
        simp only [Option.map_some, transposeOption, decodeOutbox_encodeOutbox lawful (hrows _ _ hfd)]
        rfl
    have hwf := rearmed_workflowId hrows lawful hrow
    rw [rearmRows, run_bind_ok hget, hprior, run_bind_ok (run_lift _),
      run_bind_ok (run_putRouted _ _ _),
      List.foldl_cons]
    refine ih (hrows.rearm hrow) ?_ hrest
    rw [rearm_lookup]
    have hput := represents_put h (rearmed row (rows.lookup row.dispatchKey)) row.dispatchKey fun old hold => ?_
    · rwa [hwf] at hput
    · have hold := workflowOf_of_lookup lawful hrows hold
      rw [hkey] at hold
      rw [hwf]
      exact (Except.ok.inj hold).symm

theorem modify_lookup_of_some {rows : OutboxTable} (h : rows.lookup row.dispatchKey = some row)
    (hp : p row) (keeps : ∀ row, (f row).dispatchKey = row.dispatchKey) :
    (rows.modify (fun other => other.dispatchKey = row.dispatchKey ∧ p other) f keeps).lookup =
      Function.update rows.lookup row.dispatchKey (some (f row)) := by
  funext key
  rw [KeyedTable.lookup_modify, Function.update_apply]
  by_cases hkey : key = row.dispatchKey
  · subst hkey
    simp [h, hp]
  · cases hfd : rows.lookup key with
    | none => simp [hkey]
    | some found =>
      have hne : found.dispatchKey ≠ row.dispatchKey := by
        rwa [KeyedTable.key_of_lookup hfd]
      simp [hkey, hne]

/-- The loop over a selection of rows that are there is one rewrite. -/
theorem rewriteRows_represents {rows : OutboxTable}
    (h : Represents codec sharding database rows.lookup)
    (keeps : ∀ row, (f row).dispatchKey = row.dispatchKey)
    (hwf : ∀ row, (f row).workflowId = row.workflowId) {selected : List OutboxRow}
    (hnd : selected.Nodup) (hmem : ∀ row ∈ selected, row ∈ rows.rows) :
    ∃ database', run sharding (rewriteRows codec f selected) database =
      (.ok (selected.map f), database') ∧
      Represents codec sharding database' (rows.rewrite selected f keeps).lookup := by
  rw [OutboxTable.rewrite, ← KeyedTable.foldl_modify_selected (p :=
    fun _ => true) hnd hmem fun _ _ => rfl]
  have hkeys : (selected.map OutboxRow.dispatchKey).Nodup :=
    hnd.map_on fun row hrow row' hrow' hkey =>
      KeyedTable.eq_of_key_eq (hmem row hrow) (hmem row' hrow') hkey
  -- Induction on the selection; the rows still to come are there as they were selected.
  clear hnd
  induction selected generalizing database rows with
  | nil => exact ⟨database, rfl, h⟩
  | cons row rest ih =>
    obtain ⟨hrow, hrest⟩ := List.forall_mem_cons.mp hmem
    obtain ⟨hnew, hkeys⟩ := List.nodup_cons.mp hkeys
    have hlook :=
      modify_lookup_of_some (KeyedTable.lookup_of_mem hrow) (p := fun _ => true) rfl keeps
    have hput : Represents codec sharding
        (put sharding database (f row).workflowId (f row).dispatchKey (encodeOutbox codec (f row)))
        (rows.modify (fun other => other.dispatchKey = row.dispatchKey ∧ true) f keeps).lookup := by
      rw [hlook, keeps]
      refine represents_put h (f row) row.dispatchKey fun old hold => ?_
      rw [KeyedTable.lookup_of_mem hrow] at hold
      cases hold
      exact (hwf row).symm
    have hthere : ∀ later ∈ rest,
        later ∈ (rows.modify (fun other => other.dispatchKey = row.dispatchKey ∧ true) f keeps).rows := by
      intro later hlat
      have hne : later.dispatchKey ≠ row.dispatchKey := fun heq => hnew (heq ▸ List.mem_map_of_mem hlat)
      rw [KeyedTable.mem_rows_iff, hlook, Function.update_of_ne hne]
      exact KeyedTable.lookup_of_mem (hrest later hlat)
    obtain ⟨database', hrun, hrep⟩ := ih hput hthere hkeys
    refine ⟨database', ?_, hrep⟩
    rw [rewriteRows, putRow, run_bind_ok (run_putRouted _ _ _), run_bind_ok hrun]
    rfl

/-! ### Transitions -/

theorem transition_lookup (rows : OutboxTable) (key : String)
    (keeps : ∀ row, (f row).dispatchKey = row.dispatchKey) :
    (rows.transition key f keeps).lookup = Function.update rows.lookup key
      ((rows.lookup key).map f) := by
  funext key'
  rw [OutboxTable.transition, KeyedTable.lookup_modify, Function.update_apply]
  cases hfd : rows.lookup key' with
  | none =>
    split
    · rename_i heq
      rw [← heq, hfd]
      rfl
    · rfl
  | some found =>
    have hkey := KeyedTable.key_of_lookup hfd
    split
    · rename_i heq
      rw [← heq, hfd]
      simp [hkey]
    · rename_i hne
      simp [hkey, hne]

theorem run_transitionOutbox (lawful : codec.Lawful) {rows : OutboxTable} (hrows : rows.Admissible)
    (h : Represents codec sharding database rows.lookup) (hkey : AdmissibleKey key)
    (keeps : ∀ row, (f row).dispatchKey = row.dispatchKey)
    (hwf : ∀ row, (f row).workflowId = row.workflowId) :
    ∃ database', run sharding (transitionOutbox codec key f) database = (.ok (), database') ∧
      Represents codec sharding database' (rows.transition key f keeps).lookup := by
  obtain ⟨workflowId, ordinal, rfl⟩ := hkey
  have hroute := workflowOf_dispatchKeyFor lawful workflowId ordinal
  have hget := run_get lawful hrows h hroute
  rw [transitionOutbox, hroute, run_bind_ok (run_lift _), run_bind_ok hget, transition_lookup]
  cases hfd : rows.lookup (OutboxRow.dispatchKeyFor workflowId ordinal) with
  | none =>
    refine ⟨database, rfl, ?_⟩
    rwa [Option.map_none, ← hfd, Function.update_eq_self]
  | some row =>
    have hrow := workflowOf_of_lookup lawful hrows hfd
    rw [hroute] at hrow
    obtain rfl := Except.ok.inj hrow
    simp only [Option.map_some]
    rw [decodeOutbox_encodeOutbox lawful (hrows _ _ hfd), run_bind_ok (run_lift _),
      run_bind_ok (run_putRouted _ _ _), run_commit]
    refine ⟨_, rfl, ?_⟩
    have hput :=
      represents_put h (f row) (OutboxRow.dispatchKeyFor row.workflowId ordinal) fun old hold => ?_
    · rwa [hwf] at hput
    · rw [hfd] at hold
      cases hold
      exact (hwf row).symm

/-! ### Selections, counts and enumerations -/

/-- The tally adds to each count the claimed rows of its namespace. -/
theorem tally_eq (counts : List (String × ℕ)) (scanned : List OutboxRow) :
    tally counts scanned = counts.map fun entry =>
      (entry.1, entry.2 + scanned.countP fun row => row.namespace_ = entry.1 ∧
          row.status = .claimed) := by
  induction scanned generalizing counts with
  | nil => simp [tally]
  | cons row rest ih =>
    rw [tally, ih]
    by_cases hstat : row.status = .claimed
    · rw [if_pos hstat, List.map_map]
      refine List.map_congr_left fun entry _ => ?_
      by_cases hent : entry.1 = row.namespace_
      · simp [hent, hstat, Nat.add_assoc, Nat.add_comm 1]
      · simp [hent, Ne.symm hent]
    · rw [if_neg hstat]
      refine List.map_congr_left fun entry _ => ?_
      simp [hstat]

section Scanned

variable {rows : OutboxTable} {scanned : List OutboxRow} (hperm : scanned.Perm rows.rows)
include hperm

/-- What is selected from the scanned rows is what is selected from the rows. -/
theorem select_scanned {β : Type*} [LinearOrder β] (f : OutboxRow → β) {q : OutboxRow → Bool}
    (hq : ∀ row, q row = p row) (limit : ℕ) :
    ((scanned.filter q).insertionSort (lexBy f OutboxRow.dispatchKey)).take limit =
      rows.select p (lexBy f OutboxRow.dispatchKey) limit := by
  rw [funext hq, select, insertionSort_eq_of_perm ((antisymm_rows f rows).filter p) (hperm.filter p)]

theorem selectStale_scanned (olderThan : Instant) (limit : ℕ) :
    selectStale scanned olderThan limit =
      rows.select (isStale olderThan) OutboxTable.staleOrder limit :=
  select_scanned hperm (fun row => optional row.claimedAt) (fun _ => rfl) limit

theorem unsettled_scanned (lawful : codec.Lawful) :
    unsettled scanned =
      ((rows.rows.filter fun row => row.status.isInflight).map
          OutboxRow.workflowId).dedup.insertionSort
        fun left right => left.display ≤ right.display := by
  have htotal : Std.Total fun left right : WorkflowId => left.display ≤ right.display :=
    ⟨fun left right => le_total left.display right.display⟩
  have htrans : IsTrans WorkflowId fun left right => left.display ≤ right.display :=
    ⟨fun _ _ _ => le_trans⟩
  refine insertionSort_eq_of_perm ?_ ((hperm.filter _).map _).dedup
  exact fun left _ right _ hle hge => lawful.display_inj.mp (le_antisymm hle hge)

theorem dueRoutes_scanned (now : Instant) :
    (dueRoutes scanned now).toFinset =
      ((rows.rows.filter (isDue now)).map fun row =>
        ClaimScope.mk row.namespace_ row.taskQueue row.node).dedup.toFinset := by
  ext scope
  unfold dueRoutes isDue
  simp [hperm.mem_iff]

theorem tally_scanned (namespaces : List String) :
    tally (namespaces.map fun namespace_ => (namespace_, 0)) scanned =
      namespaces.map fun namespace_ =>
        (namespace_, rows.rows.countP fun row => row.namespace_ = namespace_ ∧
            row.status = .claimed) := by
  rw [tally_eq, List.map_map]
  refine List.map_congr_left fun namespace_ _ => ?_
  simp [hperm.countP_eq]

end Scanned

/-! ### Operations over a scan -/

section Scans

variable (lawful : codec.Lawful) {rows : OutboxTable} (hrows : rows.Admissible)
  (h : Represents codec sharding database rows.lookup)
include lawful hrows h

theorem run_claim (now : Instant) (limit : ℕ) (admits : OutboxRow → Bool) :
    ∃ database', run sharding (claim codec (List.range sharding.shardCount) now limit admits)
      database =
        (.ok ((rows.select (fun row => isDue now row && admits row)
            OutboxTable.claimOrder limit).map
          (OutboxRow.claim · now)), database') ∧
      Represents codec sharding database' (rows.claim now limit admits).2.lookup := by
  unfold claim
  split
  · subst limit
    refine ⟨database, rfl, ?_⟩
    have hnone : (rows.claim now 0 admits).2 = rows :=
      rewrite_nil rows _ (OutboxRow.claim_dispatchKey now)
    rwa [hnone]
  · obtain ⟨scanned, hscan, hperm⟩ := run_scanAll lawful hrows h
    have hfilter : ∀ row, decide (row.status = .pending ∧ row.visibleAfter ≤ now ∧ admits row) =
        (isDue now row && admits row) := fun row => by simp [isDue, Bool.and_assoc]
    have hsel := select_scanned hperm OutboxRow.visibleAfter hfilter limit
    have hmem : ∀ row ∈ rows.select (fun row => isDue now row && admits row) OutboxTable.claimOrder limit,
        row ∈ rows.rows := fun row hrow => (of_mem_select hrow).1
    obtain ⟨database', hrun, hrep⟩ :=
      rewriteRows_represents h (OutboxRow.claim_dispatchKey now) (fun _ => rfl) nodup_select hmem
    refine ⟨database', ?_, hrep⟩
    rw [run_bind_ok hscan]
    dsimp only
    rw [hsel, run_bind_ok hrun, run_bind_ok run_commit, run_pure]

theorem run_listStale (olderThan : Instant) (limit : ℕ) :
    run sharding (listStaleClaimedOutboxRows codec (List.range sharding.shardCount) olderThan limit)
      database =
      (.ok (rows.select (isStale olderThan) OutboxTable.staleOrder limit), database) := by
  unfold listStaleClaimedOutboxRows
  split
  · subst limit
    rfl
  · obtain ⟨scanned, hscan, hperm⟩ := run_scanAll lawful hrows h
    rw [run_bind_ok hscan, run_pure, selectStale_scanned hperm]

theorem run_rearmStale (olderThan visibleAfter : Instant) (limit : ℕ) :
    ∃ database', run sharding (rearmStaleClaimedOutboxRows codec
        (List.range sharding.shardCount) olderThan
        visibleAfter limit) database =
        (.ok ((rows.select (isStale olderThan) OutboxTable.staleOrder limit).map
            (OutboxRow.rearm · visibleAfter)),
          database') ∧
      Represents codec sharding database'
        (rows.rewrite (rows.select (isStale olderThan) OutboxTable.staleOrder limit)
        (OutboxRow.rearm · visibleAfter) (OutboxRow.rearm_dispatchKey visibleAfter)).lookup := by
  unfold rearmStaleClaimedOutboxRows
  split
  · subst limit
    refine ⟨database, rfl, ?_⟩
    have hnone : rows.rewrite (rows.select (isStale olderThan) OutboxTable.staleOrder 0)
      (OutboxRow.rearm · visibleAfter) (OutboxRow.rearm_dispatchKey visibleAfter) = rows := rewrite_nil rows _ _
    rwa [hnone]
  · obtain ⟨scanned, hscan, hperm⟩ := run_scanAll lawful hrows h
    have hmem : ∀ row ∈ rows.select (isStale olderThan) OutboxTable.staleOrder limit,
      row ∈ rows.rows :=
      fun row hrow => (of_mem_select hrow).1
    obtain ⟨database', hrun, hrep⟩ :=
      rewriteRows_represents h (OutboxRow.rearm_dispatchKey visibleAfter) (fun _ => rfl) nodup_select hmem
    refine ⟨database', ?_, hrep⟩
    rw [run_bind_ok hscan, selectStale_scanned hperm, run_bind_ok hrun,
      run_bind_ok run_commit, run_pure]

theorem run_settleWorkflow (workflowId : WorkflowId) :
    ∃ database', run sharding (settleWorkflowOutboxRows codec
        (List.range sharding.shardCount) workflowId) database =
        (.ok (((rows.rows.filter (isLiveOf workflowId)).map OutboxRow.dispatchKey).insertionSort
            (· ≤ ·)), database') ∧
      Represents codec sharding database'
        (rows.modify (isLiveOf workflowId) OutboxRow.settle
        OutboxRow.settle_dispatchKey).lookup := by
  obtain ⟨scanned, hscan, hperm⟩ := run_scanAll lawful hrows h
  have hlive : ((scanned.filter (isLiveOf workflowId)).insertionSort fun left right =>
      left.dispatchKey ≤ right.dispatchKey).Perm (rows.rows.filter (isLiveOf workflowId)) :=
    (List.perm_insertionSort _ _).trans (hperm.filter _)
  obtain ⟨database', hrun, hrep⟩ :=
    rewriteRows_represents h (OutboxRow.finish_dispatchKey .cancelled) (fun _ => rfl)
    (hlive.nodup_iff.mpr (rows.nodup_rows.filter _)) fun row hrow =>
      List.mem_of_mem_filter (hlive.mem_iff.mp hrow)
  refine ⟨database', ?_, ?_⟩
  · have hkeys : ((((scanned.filter (isLiveOf workflowId)).insertionSort fun left right =>
        left.dispatchKey ≤ right.dispatchKey).map (OutboxRow.finish .cancelled)).map OutboxRow.dispatchKey) =
        ((rows.rows.filter (isLiveOf workflowId)).map OutboxRow.dispatchKey).insertionSort (· ≤ ·) := by
      have hfinish : OutboxRow.dispatchKey ∘ OutboxRow.finish .cancelled = OutboxRow.dispatchKey := rfl
      rw [List.map_map, hfinish, List.map_insertionSort (fun left right : OutboxRow =>
        left.dispatchKey ≤ right.dispatchKey) (· ≤ ·) _ _ fun _ _ _ _ => Iff.rfl]
      exact insertionSort_eq_of_perm (fun _ _ _ _ => le_antisymm) ((hperm.filter _).map _)
    rw [settleWorkflowOutboxRows, run_bind_ok hscan]
    change run sharding (rewriteRows codec (OutboxRow.finish .cancelled) ((scanned.filter
      (isLiveOf workflowId)).insertionSort fun left right => left.dispatchKey ≤ right.dispatchKey) >>= _) database = _
    rw [run_bind_ok hrun, run_bind_ok run_commit, run_pure, hkeys]
  · have hsettle : rows.modify (isLiveOf workflowId) OutboxRow.settle OutboxRow.settle_dispatchKey =
        rows.rewrite ((scanned.filter (isLiveOf workflowId)).insertionSort fun left right =>
          left.dispatchKey ≤ right.dispatchKey) (OutboxRow.finish .cancelled)
          (OutboxRow.finish_dispatchKey .cancelled) := by
      rw [settle_live]
      refine KeyedTable.modify_congr fun row hrow => ?_
      simp [hlive.mem_iff, hrow]
    rwa [hsettle]

end Scans

/-! ### Every operation -/

/-- The outcome of a program whose value is made an answer. -/
theorem run_map {α β : Type} {program : DbM Bytes α} {f : α → β} {value : α}
    (h : run sharding program database = (.ok value, database')) :
    run sharding (f <$> program) database = (.ok (f value), database') := by
  change run sharding (program >>= fun value => pure (f value)) database = _
  rw [run_bind_ok h, run_pure]

/-- What a run of the program has to show. -/
theorem refines_of_run {rows : OutboxTable} {answer : OutboxAnswer}
    (hrun : run sharding (program codec (List.range sharding.shardCount) operation) database =
        (.ok answer, database')) (hans : answer.meaning = (rows.execute operation).1.meaning)
    (h : Represents codec sharding database' (rows.execute operation).2.lookup) :
    outcomeMeaning (execute codec sharding database operation).1 =
      .ok (rows.execute operation).1.meaning ∧
      Represents codec sharding (execute codec sharding database operation).2
        (rows.execute operation).2.lookup := by
  rw [execute, hrun, ← hans]
  exact ⟨rfl, h⟩

/-- **The haematite outbox refines the outbox**: an operation run alone answers what the
outbox answers, and leaves the rows the outbox leaves. -/
theorem execute_refines (lawful : codec.Lawful) {rows : OutboxTable} (hrows : rows.Admissible)
    (h : Represents codec sharding database rows.lookup) (hop : operation.Admissible) :
    outcomeMeaning (execute codec sharding database operation).1 =
      .ok (rows.execute operation).1.meaning ∧
      Represents codec sharding (execute codec sharding database operation).2
        (rows.execute operation).2.lookup := by
  cases operation with
  | appendOutboxBatch batch =>
    by_cases hbatch : batch = []
    · subst batch
      exact refines_of_run rfl rfl h
    · obtain ⟨database', hrun, hrep⟩ := insertRows_represents lawful hrows h hop
      have hinsert : run sharding (insertOutboxRows codec batch) database = (.ok (), database') := by
        rw [insertOutboxRows, run_bind_ok hrun, run_commit]
      refine refines_of_run ?_ rfl hrep
      rw [program, if_neg hbatch, run_map hinsert]
      rfl
  | rearmOutboxPending batch =>
    obtain ⟨database', hrun, hrep⟩ := rearmRows_represents lawful hrows h hop
    have hrearm : run sharding (rearmOutboxPending codec batch) database = (.ok (), database') := by
      unfold rearmOutboxPending
      split
      · subst batch
        exact hrun
      · rw [run_bind_ok hrun, run_commit]
    exact refines_of_run (run_map hrearm) rfl hrep
  | claimOutboxRows now limit =>
    obtain ⟨database', hrun, hrep⟩ := run_claim lawful hrows h now limit fun _ => true
    exact refines_of_run (run_map hrun) rfl hrep
  | claimOutboxRowsExcluding now limit held =>
    obtain ⟨database', hrun, hrep⟩ := run_claim lawful hrows h now limit
      fun row => !held.contains row.workflowId
    exact refines_of_run (run_map hrun) rfl hrep
  | claimOutboxRowsScoped now scope limit =>
    obtain ⟨database', hrun, hrep⟩ := run_claim lawful hrows h now limit scope.admits
    exact refines_of_run (run_map hrun) rfl hrep
  | claimOutboxRowsScopedExcluding now scope limit held =>
    obtain ⟨database', hrun, hrep⟩ := run_claim lawful hrows h now limit
      fun row => scope.admits row && !held.contains row.workflowId
    exact refines_of_run (run_map hrun) rfl hrep
  | completeOutboxRow key =>
    obtain ⟨database', hrun, hrep⟩ :=
      run_transitionOutbox lawful hrows h hop (OutboxRow.finish_dispatchKey .done) fun _ => rfl
    exact refines_of_run (run_map hrun) rfl hrep
  | retryOutboxRow key nextAttempt visibleAfter =>
    obtain ⟨database', hrun, hrep⟩ := run_transitionOutbox lawful hrows h hop.1
      (OutboxRow.retry_dispatchKey nextAttempt visibleAfter) fun _ => rfl
    exact refines_of_run (run_map hrun) rfl hrep
  | failOutboxRow key =>
    obtain ⟨database', hrun, hrep⟩ :=
      run_transitionOutbox lawful hrows h hop (OutboxRow.finish_dispatchKey .failed) fun _ => rfl
    exact refines_of_run (run_map hrun) rfl hrep
  | settleOutboxRowCancelled key =>
    obtain ⟨database', hrun, hrep⟩ :=
      run_transitionOutbox lawful hrows h hop OutboxRow.settle_dispatchKey OutboxRow.settle_workflowId
    exact refines_of_run (run_map hrun) rfl hrep
  | settleWorkflowOutboxRowsCancelled workflowId =>
    obtain ⟨database', hrun, hrep⟩ := run_settleWorkflow lawful hrows h workflowId
    exact refines_of_run (run_map hrun) rfl hrep
  | listStaleClaimedOutboxRows olderThan limit =>
    exact refines_of_run (run_map (run_listStale lawful hrows h olderThan limit)) rfl h
  | rearmStaleClaimedOutboxRows olderThan visibleAfter limit =>
    obtain ⟨database', hrun, hrep⟩ := run_rearmStale lawful hrows h olderThan visibleAfter limit
    exact refines_of_run (run_map hrun) rfl hrep
  | listUnsettledOutboxWorkflowIds =>
    obtain ⟨scanned, hscan, hperm⟩ := run_scanAll lawful hrows h
    refine refines_of_run (run_bind_ok hscan) ?_ h
    rw [unsettled_scanned hperm lawful]
    rfl
  | countInflightOutboxRows namespace_ =>
    obtain ⟨scanned, hscan, hperm⟩ := run_scanAll lawful hrows h
    refine refines_of_run (run_bind_ok hscan) ?_ h
    rw [hperm.countP_eq]
    rfl
  | countClaimedOutboxRows namespace_ =>
    obtain ⟨scanned, hscan, hperm⟩ := run_scanAll lawful hrows h
    refine refines_of_run (run_bind_ok hscan) ?_ h
    rw [hperm.countP_eq]
    rfl
  | countClaimedOutboxRowsByNamespace namespaces =>
    obtain ⟨scanned, hscan, hperm⟩ := run_scanAll lawful hrows h
    refine refines_of_run (run_bind_ok hscan) ?_ h
    rw [tally_scanned hperm]
    rfl
  | pendingOutboxRoutes now =>
    obtain ⟨scanned, hscan, hperm⟩ := run_scanAll lawful hrows h
    refine refines_of_run (run_bind_ok hscan) ?_ h
    simp only [OutboxAnswer.meaning, dueRoutes_scanned hperm]
    rfl

end Aion.Haematite
