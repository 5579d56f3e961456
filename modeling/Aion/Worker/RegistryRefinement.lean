import Aion.Library.Sorting
import Aion.Worker.RegistryIndex

/-!
# The registry and its tables

Dispatches are modelled over a registry that says what its tables hold, and not how
(`RegistryState`). Every call of the tables does to it what the call of that name does, and is told
the same (`shows_run`, `registry_refines`): what holds of dispatches over the one holds over the
other.
-/

namespace Aion

open CopyIndex FiniteMaps RegistryTables

/-- The state says of the workers what the tables hold, but for the interventions they support. -/
structure Shows (tables : RegistryTables) (state : RegistryState) : Prop where
  next : state.nextWorkerId = tables.nextWorkerId
  workers : ∀ id, state.workers id = (tables.workers.lookup id).map AdvertisedWorker.toWorkerHandle
  indexed : state.Indexed
  /-- No worker is indexed twice. -/
  distinct : ∀ key, (state.byActivity key).Nodup
  rotation : ∀ key, state.rotation key = tables.cursor key

/-- What a call of the tables does to the state. -/
def RegistryState.after (state : RegistryState) : RegistryCall → RegistryState
  | .registerDelivery namespaces taskQueue node activityTypes delivery _ =>
    (state.registerDelivery (collectSet namespaces) taskQueue node (collectSet activityTypes) delivery).2
  | .deregister workerId => state.removeWorker workerId
  | .setInterventionCapabilities .. => state
  | .workersFor namespace_ taskQueue activityType node =>
    (state.workersFor namespace_ taskQueue activityType node).2
  | .selectWorker .. => state

theorem shows_empty : Shows RegistryTables.empty RegistryState.empty where
  next := rfl
  workers _ := rfl
  indexed := RegistryState.indexed_empty
  distinct _ := List.nodup_nil
  rotation _ := rfl

section Steps

variable {tables : RegistryTables} {state : RegistryState} {registrations : ℕ}

/-! ### Registrations -/

variable {maps : (ActivityKey → List WorkerHandle) × (ActivityKey → ℕ)} {workerId : WorkerId}
  {handle : AdvertisedWorker} {keys : List ActivityKey}

theorem nodup_foldl_indexUnder {handle : WorkerHandle} {index : ActivityKey → List WorkerHandle}
    (h : ∀ key, (index key).Nodup) (key : ActivityKey) :
    (keys.foldl (RegistryState.indexUnder handle) index key).Nodup := by
  induction keys generalizing index with
  | nil => exact h key
  | cons first rest ih =>
    refine ih fun key => ?_
    unfold RegistryState.indexUnder
    by_cases hkey : key = first
    · subst hkey
      rw [Function.update_self]
      refine List.Nodup.append ((h key).filter _) (List.nodup_singleton _) ?_
      rw [List.disjoint_singleton]
      simp
    · rw [Function.update_of_ne hkey]
      exact h key

theorem Shows.registerDelivery (h : Shows tables state)
    (consistent : Consistent registrations tables) (hleft : registrations + 1 < 2 ^ 64)
    (namespaces : List String) (taskQueue : String) (node : Option String)
    (activityTypes : List String) (delivery : WorkerDelivery)
    (capabilities : List InterventionPrimitive) :
    Shows (tables.registerDelivery namespaces taskQueue node activityTypes delivery capabilities).2
      (state.registerDelivery (collectSet namespaces) taskQueue node
          (collectSet activityTypes) delivery).2 := by
  have hfresh : state.workers state.nextWorkerId = none := by
    rw [h.next, h.workers, consistent.lookup_next hleft]
    rfl
  constructor
  case next => exact congrArg (fun next : ℕ => min (next + 1) (2 ^ 64 - 1)) h.next
  case workers =>
    intro id
    change Function.update state.workers state.nextWorkerId _ id = ((AList.insert tables.nextWorkerId _ tables.workers).lookup id).map _
    rw [h.next, Function.update_apply, lookup_insert_eq]
    split_ifs
    · rfl
    · exact h.workers id
  case indexed => exact h.indexed.registerDelivery hfresh (collectSet namespaces) taskQueue node (collectSet activityTypes) delivery
  case distinct => exact nodup_foldl_indexUnder h.distinct
  case rotation => exact h.rotation

/-! ### Removals -/

/-- Under its keys a removal leaves the other workers. -/
theorem index_foldl_unindexUnder (key : ActivityKey) :
    (keys.foldl (RegistryState.unindexUnder workerId) maps).1 key =
      if key ∈ keys then (maps.1 key).filter (fun other => other.id ≠ workerId)
      else maps.1 key := by
  induction keys generalizing maps with
  | nil => simp
  | cons first rest ih =>
    rw [List.foldl_cons, ih]
    by_cases hkey : key = first
    · subst hkey
      simp [RegistryState.unindexUnder]
    · simp [RegistryState.unindexUnder, hkey]

/-- A removal sets back the cursors of the keys that it leaves without workers. -/
theorem rotation_foldl_unindexUnder (key : ActivityKey) :
    (keys.foldl (RegistryState.unindexUnder workerId) maps).2 key =
      if key ∈ keys ∧ (keys.foldl (RegistryState.unindexUnder workerId) maps).1 key = [] then 0
      else maps.2 key := by
  induction keys generalizing maps with
  | nil => simp
  | cons first rest ih =>
    rw [List.foldl_cons, ih]
    by_cases hkey : key = first
    · subst hkey
      -- what is left under the key now is what is left in the end
      have hleft : (rest.foldl (RegistryState.unindexUnder workerId) (RegistryState.unindexUnder workerId maps key)).1 key =
          (maps.1 key).filter fun other => other.id ≠ workerId := by
        rw [index_foldl_unindexUnder]
        simp [RegistryState.unindexUnder]
      rw [hleft]
      by_cases hnone : ((maps.1 key).filter fun other => other.id ≠ workerId) = []
      · simp only [RegistryState.unindexUnder, hnone, if_true, Function.update_self, ite_self, List.mem_cons, true_or, and_self]
      · simp only [RegistryState.unindexUnder, hnone, if_false, and_false]
    · have hsame : (RegistryState.unindexUnder workerId maps first).2 key = maps.2 key := by
        unfold RegistryState.unindexUnder
        simp only
        split_ifs
        · exact Function.update_of_ne hkey _ _
        · rfl
      rw [hsame]
      simp [hkey]

/-- No workers are shown under the keys that have no entry. -/
theorem byActivity_eq_nil_iff (consistent : Consistent registrations tables)
    (indexed : state.Indexed)
    (workers : ∀ id, state.workers id =
        (tables.workers.lookup id).map AdvertisedWorker.toWorkerHandle) {key : ActivityKey} :
    state.byActivity key = [] ↔ key ∉ tables.byActivity := by
  rw [← AList.lookup_eq_none, List.eq_nil_iff_forall_not_mem]
  constructor
  · intro hnone
    by_contra hent
    obtain ⟨copies, hcopies⟩ := Option.ne_none_iff_exists'.mp hent
    obtain ⟨⟨id, copy⟩, hmem⟩ :=
      List.exists_mem_of_ne_nil _ (consistent.trim.filled key copies hcopies)
    have hfd : find tables.byActivity key id = some copy :=
      (find_of_lookup hcopies id).trans (AList.mem_lookup_iff.mpr hmem)
    obtain ⟨hlook, hkey⟩ := (consistent.mirrors key id copy).mp hfd
    refine hnone copy.toWorkerHandle ((indexed key _).mpr ⟨?_, hkey⟩)
    rw [(consistent.named id copy hlook).1, workers, hlook]
    rfl
  · intro hent handle hmem
    obtain ⟨hwk, hkey⟩ := (indexed key handle).mp hmem
    rw [workers] at hwk
    obtain ⟨copy, hlook, rfl⟩ := Option.map_eq_some_iff.mp hwk
    have hfd := (consistent.mirrors key _ copy).mpr ⟨hlook, hkey⟩
    rw [find_of_lookup_none hent] at hfd
    cases hfd

theorem RegistryTables.Consistent.cursor_eq_zero (consistent : Consistent registrations tables)
    {key : ActivityKey} (hkey : key ∉ tables.byActivity) : tables.cursor key = 0 := by
  have hnone : tables.rotation.lookup key = none :=
    AList.lookup_eq_none.mpr fun hhung => hkey (consistent.trim.hung key hhung)
  rw [cursor, hnone]
  rfl

/-- The workers shown after a removal. -/
theorem Shows.workers_removeWorker (h : Shows tables state) (workerId id : WorkerId) :
    (state.removeWorker workerId).workers id =
      ((tables.removeWorker workerId).workers.lookup id).map AdvertisedWorker.toWorkerHandle := by
  rw [RegistryState.workers_removeWorker]
  unfold RegistryTables.removeWorker
  cases hwk : tables.workers.lookup workerId with
  | none =>
    split_ifs with hid
    · rw [hid, hwk]
      rfl
    · exact h.workers id
  | some handle =>
    change _ = ((AList.erase workerId tables.workers).lookup id).map _
    rw [lookup_erase_eq]
    split_ifs
    · rfl
    · exact h.workers id

theorem RegistryTables.removeWorker_of_some (hwk : tables.workers.lookup workerId = some handle) :
    tables.removeWorker workerId =
      { tables with
        workers := tables.workers.erase workerId
        byActivity := (handle.keys.foldl (leave workerId) (tables.byActivity, tables.rotation)).1
        rotation := (handle.keys.foldl (leave workerId) (tables.byActivity, tables.rotation)).2
      } := by
  simp only [RegistryTables.removeWorker, hwk]

theorem Shows.removeWorker_of_some (h : Shows tables state)
    (hwk : tables.workers.lookup workerId = some handle) :
    state.removeWorker workerId =
      { state with
        workers := Function.update state.workers workerId none
        byActivity := (handle.keys.foldl (RegistryState.unindexUnder workerId)
            (state.byActivity, state.rotation)).1
        rotation := (handle.keys.foldl (RegistryState.unindexUnder workerId)
            (state.byActivity, state.rotation)).2 } := by
  simp [RegistryState.removeWorker, h.workers, hwk]

/-- The cursors after a removal. One of a key that nobody is left under is gone, and starts over. -/
theorem Shows.rotation_removeWorker (h : Shows tables state)
    (consistent : Consistent registrations tables)
    (hwk : tables.workers.lookup workerId = some handle) (key : ActivityKey) :
    (state.removeWorker workerId).rotation key = (tables.removeWorker workerId).cursor key := by
  have hleft := @byActivity_eq_nil_iff _ _ _ (consistent.removeWorker workerId) (h.indexed.removeWorker workerId)
    (h.workers_removeWorker workerId) key
  have hcur : key ∉ (tables.removeWorker workerId).byActivity →
    (tables.removeWorker workerId).cursor key = 0 :=
    (consistent.removeWorker workerId).cursor_eq_zero
  rw [h.removeWorker_of_some hwk, RegistryTables.removeWorker_of_some hwk] at hleft
  rw [RegistryTables.removeWorker_of_some hwk] at hcur
  rw [h.removeWorker_of_some hwk, RegistryTables.removeWorker_of_some hwk]
  refine (rotation_foldl_unindexUnder key).trans ?_
  by_cases hent : key ∈ (handle.keys.foldl (leave workerId) (tables.byActivity, tables.rotation)).1
  · rw [if_neg fun hboth => hleft.mp hboth.2 hent]
    refine (h.rotation key).trans ?_
    exact (congrArg (fun cursor : Option ℕ => cursor.getD 0) (lookup_leaveAll hent).2).symm
  · refine Eq.trans ?_ (hcur hent).symm
    by_cases hkey : key ∈ handle.keys
    · rw [if_pos ⟨hkey, hleft.mpr hent⟩]
    · -- nothing of the worker was under the key
      have hnone : state.byActivity key = [] := by
        have hemp := hleft.mpr hent
        change (handle.keys.foldl (RegistryState.unindexUnder workerId) (state.byActivity, state.rotation)).1 key = [] at hemp
        rwa [index_foldl_unindexUnder, if_neg hkey] at hemp
      rw [if_neg fun hboth => hkey hboth.1]
      show state.rotation key = 0
      rw [h.rotation, consistent.cursor_eq_zero ((byActivity_eq_nil_iff consistent h.indexed h.workers).mp hnone)]

theorem Shows.removeWorker (h : Shows tables state) (consistent : Consistent registrations tables)
    (workerId : WorkerId) : Shows (tables.removeWorker workerId) (state.removeWorker workerId) := by
  cases hwk : tables.workers.lookup workerId with
  | none =>
    have htables : tables.removeWorker workerId = tables := by
      simp only [RegistryTables.removeWorker, hwk]
    have hst : state.removeWorker workerId = state := by
      simp [RegistryState.removeWorker, h.workers, hwk]
    rw [htables, hst]
    exact h
  | some handle =>
    constructor
    case next =>
      rw [RegistryTables.removeWorker_of_some hwk, h.removeWorker_of_some hwk]
      exact h.next
    case workers => exact h.workers_removeWorker workerId
    case indexed => exact h.indexed.removeWorker workerId
    case distinct =>
      intro key
      rw [h.removeWorker_of_some hwk]
      show ((handle.keys.foldl (RegistryState.unindexUnder workerId) (state.byActivity, state.rotation)).1 key).Nodup
      rw [index_foldl_unindexUnder]
      split_ifs
      · exact (h.distinct key).filter _
      · exact h.distinct key
    case rotation => exact h.rotation_removeWorker consistent hwk

/-! ### Lookups -/

theorem Shows.setInterventionCapabilities (h : Shows tables state) (workerId : WorkerId)
    (capabilities : List InterventionPrimitive) :
    Shows (tables.setInterventionCapabilities workerId capabilities).2 state := by
  unfold RegistryTables.setInterventionCapabilities
  cases hwk : tables.workers.lookup workerId with
  | none => exact h
  | some handle =>
    refine ⟨h.next, fun id => ?_, h.indexed, h.distinct, h.rotation⟩
    change _ = ((AList.insert workerId _ tables.workers).lookup id).map _
    rw [lookup_insert_eq]
    split_ifs with hid
    · rw [hid, h.workers, hwk]
      rfl
    · exact h.workers id

/-- The same workers match, in the same order. -/
theorem Shows.matching_eq (h : Shows tables state) (consistent : Consistent registrations tables)
    (key : ActivityKey) (node : Option String) :
    (tables.matching key node).map AdvertisedWorker.toWorkerHandle = state.matching key node := by
  have hnd : ((tables.matching key node).map AdvertisedWorker.toWorkerHandle).Nodup := by
    refine List.Nodup.of_map WorkerHandle.id ?_
    rw [List.map_map]
    exact consistent.nodup_matching key node
  have hnd' : (state.matching key node).Nodup :=
    (List.perm_insertionSort _ _).nodup_iff.mpr ((h.distinct key).filter _)
  have hmem : ∀ worker, worker ∈ (tables.matching key node).map AdvertisedWorker.toWorkerHandle ↔
      worker ∈ state.matching key node := by
    intro worker
    rw [h.indexed.mem_matching_iff, List.mem_map, h.workers, Option.map_eq_some_iff]
    constructor
    · rintro ⟨copy, hcopy, rfl⟩
      obtain ⟨hlook, hkey, hnode⟩ := consistent.mem_matching_iff.mp hcopy
      exact ⟨⟨copy, hlook, rfl⟩, hkey, hnode⟩
    · rintro ⟨⟨copy, hlook, rfl⟩, hkey, hnode⟩
      exact ⟨copy, consistent.mem_matching_iff.mpr ⟨hlook, hkey, hnode⟩, rfl⟩
  have hsorted : ((tables.matching key node).map AdvertisedWorker.toWorkerHandle).Pairwise
    fun left right => left.id ≤ right.id :=
    List.pairwise_map.mpr (List.pairwise_insertionSort _ _)
  refine List.Perm.eq_of_pairwise ?_ hsorted (List.pairwise_insertionSort _ _)
    ((List.perm_ext_iff_of_nodup hnd hnd').mpr hmem)
  intro left right hleft hright hle hge
  have hleft' := (h.indexed.mem_matching_iff.mp ((hmem left).mp hleft)).1
  have hright' := (h.indexed.mem_matching_iff.mp hright).1
  rw [le_antisymm hle hge, hright'] at hleft'
  exact (Option.some.inj hleft').symm

/-- A lookup is told the same. -/
theorem Shows.workersFor (h : Shows tables state) (consistent : Consistent registrations tables)
    (namespace_ taskQueue activityType : String) (node : Option String) :
    (tables.workersFor namespace_ taskQueue activityType node).1.map
      AdvertisedWorker.toWorkerHandle =
        (state.workersFor namespace_ taskQueue activityType node).1 ∧
      Shows (tables.workersFor namespace_ taskQueue activityType node).2
        (state.workersFor namespace_ taskQueue activityType node).2 := by
  have hmatch := h.matching_eq consistent ⟨.new namespace_ taskQueue, activityType⟩ node
  have hrotation := h.rotation ⟨.new namespace_ taskQueue, activityType⟩
  unfold RegistryTables.workersFor RegistryState.workersFor
  simp only [← hmatch, List.map_eq_nil_iff, hrotation]
  split_ifs with hnone
  · exact ⟨rfl, h⟩
  · refine ⟨List.map_rotate _ _ _, h.next, h.workers, h.indexed, h.distinct, fun key => ?_⟩
    change Function.update state.rotation _ _ key =
      ((AList.insert _ _ tables.rotation).lookup key).getD 0
    rw [Function.update_apply, lookup_insert_eq]
    split_ifs
    · rfl
    · exact h.rotation key

/-- And so is a selection. -/
theorem Shows.selectWorker (h : Shows tables state) (consistent : Consistent registrations tables)
    (namespace_ taskQueue activityType : String) (node : Option String) :
    (tables.selectWorker namespace_ taskQueue activityType node).map
      AdvertisedWorker.toWorkerHandle =
      state.selectWorker namespace_ taskQueue activityType node := by
  rw [RegistryState.selectWorker, ← h.matching_eq consistent, List.head?_map]
  rfl

/-- **The step**: the state goes on showing the tables. -/
theorem Shows.after (h : Shows tables state) (consistent : Consistent registrations tables)
    (call : RegistryCall)
    (hleft : registrations + [call].countP RegistryCall.isRegistration < 2 ^ 64) :
    Shows (tables.after call) (state.after call) := by
  cases call with
  | registerDelivery namespaces taskQueue node activityTypes delivery capabilities =>
    exact h.registerDelivery consistent hleft namespaces taskQueue node activityTypes delivery
      capabilities
  | deregister workerId => exact h.removeWorker consistent workerId
  | setInterventionCapabilities workerId capabilities =>
    exact h.setInterventionCapabilities workerId capabilities
  | workersFor namespace_ taskQueue activityType node =>
    exact (h.workersFor consistent namespace_ taskQueue activityType node).2
  | selectWorker => exact h

end Steps

/-- **The registry refines the state**: while there are identifiers left, calls lead them to the
same. -/
theorem shows_run {tables : RegistryTables} {state : RegistryState} {registrations : ℕ}
    {calls : List RegistryCall} (h : Shows tables state)
    (consistent : Consistent registrations tables)
    (hleft : registrations + calls.countP RegistryCall.isRegistration < 2 ^ 64) :
    Shows (tables.run calls) (calls.foldl RegistryState.after state) := by
  induction calls generalizing tables state registrations with
  | nil => exact h
  | cons call rest ih =>
    rw [countP_cons_eq call rest, ← Nat.add_assoc] at hleft
    exact ih (h.after consistent call (by omega)) (consistent.after call (by omega)) hleft

/-- **Every call is told the same**: after any calls, among them lookups that have moved the
cursors, the tables have the registered workers of the state, and a lookup or a selection finds the
workers that it finds there, in the same order. -/
theorem registry_refines (calls : List RegistryCall)
    (hleft : calls.countP RegistryCall.isRegistration < 2 ^ 64)
    (namespace_ taskQueue activityType : String) (node : Option String) :
    (∀ id, ((empty.run calls).workers.lookup id).map AdvertisedWorker.toWorkerHandle =
        (calls.foldl RegistryState.after .empty).workers id) ∧
      ((empty.run calls).workersFor namespace_ taskQueue activityType node).1.map
        AdvertisedWorker.toWorkerHandle =
        ((calls.foldl RegistryState.after .empty).workersFor namespace_ taskQueue
            activityType node).1 ∧
      ((empty.run calls).selectWorker namespace_ taskQueue activityType node).map
        AdvertisedWorker.toWorkerHandle =
        (calls.foldl RegistryState.after .empty).selectWorker namespace_ taskQueue
      activityType node := by
  rw [← Nat.zero_add (calls.countP _)] at hleft
  have hshows := shows_run shows_empty consistent_empty hleft
  have hcons := consistent_empty.run hleft
  exact ⟨fun id => (hshows.workers id).symm, (hshows.workersFor hcons ..).1,
      hshows.selectWorker hcons ..⟩

/-- The second lookup starts with the worker that the first one came to second. -/
theorem registry_refines_chargeWorkers :
    (([chargeWorker, chargeWorker, .workersFor "prod" "default" "charge" none].foldl
        RegistryState.after .empty).workersFor "prod" ""
      "charge" (some "rack-1")).1.map WorkerHandle.id = [2, 1] := by
  rw [← (registry_refines [chargeWorker, chargeWorker,
    .workersFor "prod" "default" "charge" none] (by decide) "prod" "" "charge"
    (some "rack-1")).2.1]
  decide +kernel

end Aion
