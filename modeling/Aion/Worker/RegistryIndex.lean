import Aion.Library.CopyIndex
import Aion.Worker.Registry
import Mathlib.Data.List.Count
import Mathlib.Data.List.Dedup

/-!
# The tables of the worker registry

`registry.rs` keeps the workers in one table by identifier, and a copy of each in an index, under
every pool and activity type it serves. Lookups go through the index alone, and turn what they find
by a cursor that is kept for each key of the index.

`registry_index`: after any calls the lookups find the workers of the table, every copy is the one
of the table, and no entry or cursor is left over; and lookups in a row start with each worker once.
An identifier and a cursor have 64 bits, so that holds for fewer than `2 ^ 64` registrations, and
for as long as the cursor does not start again in the middle of a round (`identifier_reused`).
-/

namespace Aion

open CopyIndex FiniteMaps

/-! ### The tables -/

/-- `InterventionPrimitive`. -/
inductive InterventionPrimitive where
  | injectMessage
  | cancel
  | pauseResume
  | updateBudget
  | respondToApproval
  deriving DecidableEq

/-- A worker with the interventions it supports. -/
structure AdvertisedWorker extends WorkerHandle where
  interventionCapabilities : List InterventionPrimitive
  deriving DecidableEq

/-- What a list collects to as a `BTreeSet`. -/
def collectSet (values : List String) : List String := values.dedup.insertionSort (· ≤ ·)

/-- `RegistryState`, with every entry of its maps. -/
structure RegistryTables where
  nextWorkerId : ℕ
  workers : Map WorkerId AdvertisedWorker
  byActivity : Index ActivityKey WorkerId AdvertisedWorker
  rotation : Map ActivityKey ℕ

namespace RegistryTables

/-- The default. -/
def empty : RegistryTables := ⟨1, ∅, ∅, ∅⟩

/-- `register_delivery_with_capabilities`: the identifier that is assigned. -/
def registerDelivery (tables : RegistryTables) (namespaces : List String) (taskQueue : String)
    (node : Option String) (activityTypes : List String) (delivery : WorkerDelivery)
    (capabilities : List InterventionPrimitive) : WorkerId × RegistryTables :=
  let handle : AdvertisedWorker :=
    ⟨⟨tables.nextWorkerId, collectSet namespaces, taskQueue, node, collectSet activityTypes, delivery⟩, capabilities⟩
  (handle.id, { tables with
    nextWorkerId := min (tables.nextWorkerId + 1) (2 ^ 64 - 1)
    workers := tables.workers.insert handle.id handle
    byActivity := handle.keys.foldl (enter handle.id handle) tables.byActivity })

/-- `remove_worker`. -/
def removeWorker (tables : RegistryTables) (workerId : WorkerId) : RegistryTables :=
  match tables.workers.lookup workerId with
  | none => tables
  | some handle =>
    let maps := handle.keys.foldl (leave workerId) (tables.byActivity, tables.rotation)
    { tables with workers := tables.workers.erase workerId, byActivity := maps.1, rotation := maps.2 }

/-- `set_intervention_capabilities`. -/
def setInterventionCapabilities (tables : RegistryTables) (workerId : WorkerId)
    (capabilities : List InterventionPrimitive) : Bool × RegistryTables :=
  match tables.workers.lookup workerId with
  | none => (false, tables)
  | some handle =>
    (true, { tables with
      workers := tables.workers.insert workerId { handle with interventionCapabilities := capabilities }
      byActivity := rewrite workerId (fun copy => { copy with interventionCapabilities := capabilities }) tables.byActivity })

/-- The copies under a key that match the node, by identifier. -/
def matching (tables : RegistryTables) (key : ActivityKey) (node : Option String) :
    List AdvertisedWorker :=
  let copies :=
    ((tables.byActivity.lookup key).map fun copies => copies.entries.map Sigma.snd).getD []
  (copies.filter fun worker => workerMatchesNode worker.toWorkerHandle node).insertionSort
    fun left right => left.id ≤ right.id

/-- `workers_for`. -/
def workersFor (tables : RegistryTables) (namespace_ taskQueue activityType : String)
    (node : Option String) : List AdvertisedWorker × RegistryTables :=
  let key : ActivityKey := ⟨.new namespace_ taskQueue, activityType⟩
  let workers := tables.matching key node
  if workers = [] then ([], tables)
  else
    let idx := (tables.rotation.lookup key).getD 0
    (workers.rotate idx, { tables with rotation := tables.rotation.insert key ((idx + 1) % 2 ^ 64) })

/-- `select_worker`: the worker with the least identifier. -/
def selectWorker (tables : RegistryTables) (namespace_ taskQueue activityType : String)
    (node : Option String) : Option AdvertisedWorker :=
  (tables.matching ⟨.new namespace_ taskQueue, activityType⟩ node).head?

end RegistryTables

/-- A call of the registry. -/
inductive RegistryCall where
  | registerDelivery (namespaces : List String) (taskQueue : String) (node : Option String)
    (activityTypes : List String)
    (delivery : WorkerDelivery) (capabilities : List InterventionPrimitive)
  | deregister (workerId : WorkerId)
  | setInterventionCapabilities (workerId : WorkerId) (capabilities : List InterventionPrimitive)
  | workersFor (namespace_ taskQueue activityType : String) (node : Option String)
  | selectWorker (namespace_ taskQueue activityType : String) (node : Option String)
  deriving DecidableEq

/-- The call registers a worker. -/
def RegistryCall.isRegistration : RegistryCall → Bool
  | .registerDelivery .. => true
  | _ => false

variable {handle : AdvertisedWorker}

namespace RegistryTables

/-- The tables after a call. -/
def after (tables : RegistryTables) : RegistryCall → RegistryTables
  | .registerDelivery namespaces taskQueue node activityTypes delivery capabilities =>
    (tables.registerDelivery namespaces taskQueue node activityTypes delivery capabilities).2
  | .deregister workerId => tables.removeWorker workerId
  | .setInterventionCapabilities workerId capabilities =>
    (tables.setInterventionCapabilities workerId capabilities).2
  | .workersFor namespace_ taskQueue activityType node =>
    (tables.workersFor namespace_ taskQueue activityType node).2
  | .selectWorker .. => tables

/-- The tables after calls. -/
def run (tables : RegistryTables) (calls : List RegistryCall) : RegistryTables :=
  calls.foldl after tables

/-- The identifier that a call assigns. -/
def assigns (tables : RegistryTables) : RegistryCall → Option WorkerId
  | .registerDelivery namespaces taskQueue node activityTypes delivery capabilities =>
    some (tables.registerDelivery namespaces taskQueue node activityTypes delivery capabilities).1
  | _ => none

/-- The identifiers that calls assign. -/
def assigned (tables : RegistryTables) : List RegistryCall → List WorkerId
  | [] => []
  | call :: rest => (tables.assigns call).toList ++ (tables.after call).assigned rest

/-- What a call is told, if it looks the key up. -/
def turn (tables : RegistryTables) (key : ActivityKey) :
    RegistryCall → Option (List AdvertisedWorker)
  | .workersFor namespace_ taskQueue activityType node =>
    if (⟨.new namespace_ taskQueue, activityType⟩ : ActivityKey) = key then
      some (tables.workersFor namespace_ taskQueue activityType node).1
    else none
  | _ => none

/-- What the lookups of a key among the calls are told. -/
def turns (tables : RegistryTables) (key : ActivityKey) :
    List RegistryCall → List (List AdvertisedWorker)
  | [] => []
  | call :: rest => (tables.turn key call).toList ++ (tables.after call).turns key rest

/-! ### What holds of the tables -/

/-- The tables after so many registrations. -/
structure Consistent (registrations : ℕ) (tables : RegistryTables) : Prop where
  /-- The next identifier, until there is none left. -/
  next : tables.nextWorkerId = min (registrations + 1) (2 ^ 64 - 1)
  /-- A worker is there by its own identifier, and that has been assigned. -/
  named : ∀ (id : ℕ) handle, tables.workers.lookup id = some handle → handle.id = id ∧
    id ≤ registrations
  /-- The copies are those of the table. -/
  mirrors : Mirrors (fun handle => handle.keys) tables.workers tables.byActivity
  /-- No entry and no cursor is left over. -/
  trim : Trim (tables.byActivity, tables.rotation)

section Steps

variable {tables : RegistryTables} {registrations : ℕ} {key : ActivityKey} {node : Option String}

theorem consistent_empty : Consistent 0 empty where
  next := rfl
  named id handle h := by cases h
  mirrors := mirrors_empty
  trim := trim_empty

theorem Consistent.nextWorkerId_eq (h : Consistent registrations tables)
    (hleft : registrations + 1 < 2 ^ 64) : tables.nextWorkerId = registrations + 1 := by
  rw [h.next]
  omega

/-- The next identifier is no worker's. -/
theorem Consistent.lookup_next (h : Consistent registrations tables)
    (hleft : registrations + 1 < 2 ^ 64) : tables.workers.lookup tables.nextWorkerId = none := by
  rw [← Option.not_isSome_iff_eq_none, Option.isSome_iff_exists]
  rintro ⟨handle, hlook⟩
  have hle := (h.named _ _ hlook).2
  rw [h.nextWorkerId_eq hleft] at hle
  omega

theorem Consistent.registerDelivery (h : Consistent registrations tables)
    (hleft : registrations + 1 < 2 ^ 64) (namespaces : List String) (taskQueue : String)
    (node : Option String) (activityTypes : List String) (delivery : WorkerDelivery)
    (capabilities : List InterventionPrimitive) :
    Consistent (registrations + 1) (tables.registerDelivery namespaces taskQueue node activityTypes
        delivery capabilities).2 := by
  have hnext := h.nextWorkerId_eq hleft
  constructor
  case next => exact congrArg (min · _) (congrArg (· + 1) hnext)
  case named =>
    intro id handle hlook
    change (AList.insert _ _ tables.workers).lookup id = some handle at hlook
    rw [lookup_insert_eq] at hlook
    split_ifs at hlook with hid
    · cases hlook
      exact ⟨hid.symm, by rw [hid]; exact hnext.le⟩
    · obtain ⟨hname, hle⟩ := h.named id handle hlook
      exact ⟨hname, by omega⟩
  case mirrors => exact h.mirrors.enter (h.lookup_next hleft)
  case trim => exact h.trim.enterAll

theorem Consistent.removeWorker (h : Consistent registrations tables) (workerId : WorkerId) :
    Consistent registrations (tables.removeWorker workerId) := by
  unfold RegistryTables.removeWorker
  cases hwk : tables.workers.lookup workerId with
  | none => exact h
  | some worker =>
    constructor
    case next => exact h.next
    case named =>
      intro id handle hlook
      change (AList.erase _ tables.workers).lookup id = some handle at hlook
      rw [lookup_erase_eq] at hlook
      split_ifs at hlook
      exact h.named id handle hlook
    case mirrors => exact h.mirrors.leave hwk _
    case trim => exact h.trim.leaveAll

theorem Consistent.setInterventionCapabilities (h : Consistent registrations tables)
    (workerId : WorkerId) (capabilities : List InterventionPrimitive) :
    Consistent registrations (tables.setInterventionCapabilities workerId capabilities).2 := by
  unfold RegistryTables.setInterventionCapabilities
  cases hwk : tables.workers.lookup workerId with
  | none => exact h
  | some worker =>
    constructor
    case next => exact h.next
    case named =>
      intro id handle hlook
      change (AList.insert _ _ tables.workers).lookup id = some handle at hlook
      rw [lookup_insert_eq] at hlook
      split_ifs at hlook with hid
      · cases hlook
        rw [hid]
        exact h.named workerId worker hwk
      · exact h.named id handle hlook
    case mirrors => exact h.mirrors.rewrite hwk rfl
    case trim => exact h.trim.rewrite

/-- A worker is among those that match when its copy is under the key. -/
theorem mem_matching_iff :
    handle ∈ tables.matching key node ↔
      (∃ id, find tables.byActivity key id = some handle) ∧
        workerMatchesNode handle.toWorkerHandle node = true := by
  rw [matching, List.mem_insertionSort, List.mem_filter]
  refine and_congr_left fun _ => ?_
  cases hkey : tables.byActivity.lookup key with
  | none => simp [find_of_lookup_none hkey]
  | some copies =>
    simp only [Option.map_some, Option.getD_some, List.mem_map, find_of_lookup hkey]
    constructor
    · rintro ⟨⟨id, copy⟩, hmem, rfl⟩
      exact ⟨id, AList.mem_lookup_iff.mpr hmem⟩
    · rintro ⟨id, hlook⟩
      exact ⟨⟨id, handle⟩, AList.mem_lookup_iff.mp hlook, rfl⟩

theorem mem_byActivity_of_matching (h : tables.matching key node ≠ []) :
    key ∈ tables.byActivity := by
  obtain ⟨handle, hmem⟩ := List.exists_mem_of_ne_nil _ h
  obtain ⟨⟨id, hfd⟩, -⟩ := mem_matching_iff.mp hmem
  exact mem_of_find hfd

theorem Consistent.workersFor (h : Consistent registrations tables)
    (namespace_ taskQueue activityType : String) (node : Option String) :
    Consistent registrations (tables.workersFor namespace_ taskQueue activityType node).2 := by
  unfold RegistryTables.workersFor
  simp only
  split_ifs with hnone
  · exact h
  · exact ⟨h.next, h.named, h.mirrors, h.trim.hang (mem_byActivity_of_matching hnone) _⟩

/-- **The step**: what holds of the tables holds after a call, while there are identifiers left. -/
theorem Consistent.after (h : Consistent registrations tables) (call : RegistryCall)
    (hleft : registrations + [call].countP RegistryCall.isRegistration < 2 ^ 64) :
    Consistent (registrations + [call].countP RegistryCall.isRegistration) (tables.after call) := by
  cases call with
  | registerDelivery namespaces taskQueue node activityTypes delivery capabilities =>
    exact h.registerDelivery hleft ..
  | deregister workerId => exact h.removeWorker workerId
  | setInterventionCapabilities workerId capabilities =>
    exact h.setInterventionCapabilities workerId capabilities
  | workersFor namespace_ taskQueue activityType node =>
    exact h.workersFor namespace_ taskQueue activityType node
  | selectWorker => exact h

theorem countP_cons_eq (call : RegistryCall) (rest : List RegistryCall) :
    (call :: rest).countP RegistryCall.isRegistration =
      [call].countP RegistryCall.isRegistration + rest.countP RegistryCall.isRegistration := by
  rw [← List.countP_append, List.singleton_append]

variable {calls : List RegistryCall}

theorem Consistent.run (h : Consistent registrations tables)
    (hleft : registrations + calls.countP RegistryCall.isRegistration < 2 ^ 64) :
    Consistent (registrations + calls.countP RegistryCall.isRegistration) (tables.run calls) := by
  induction calls generalizing tables registrations with
  | nil => exact h
  | cons call rest ih =>
    rw [countP_cons_eq call rest, ← Nat.add_assoc] at hleft ⊢
    exact ih (h.after call (by omega)) hleft

/-- The identifiers are assigned in order. -/
theorem Consistent.assigned (h : Consistent registrations tables)
    (hleft : registrations + calls.countP RegistryCall.isRegistration < 2 ^ 64) :
    tables.assigned calls = List.range' (registrations + 1)
      (calls.countP RegistryCall.isRegistration) := by
  induction calls generalizing tables registrations with
  | nil => rfl
  | cons call rest ih =>
    rw [countP_cons_eq call rest, ← Nat.add_assoc] at hleft
    rw [RegistryTables.assigned, ih (h.after call (by omega)) hleft, countP_cons_eq call rest]
    cases call with
    | registerDelivery namespaces taskQueue node activityTypes delivery capabilities =>
      have hnext : tables.nextWorkerId = registrations + 1 := by
        change registrations + 1 + _ < _ at hleft
        exact h.nextWorkerId_eq (by omega)
      change [tables.nextWorkerId] ++ List.range' (registrations + 1 + 1) _ = List.range' _ (1 + _)
      rw [hnext, Nat.add_comm 1, List.range'_succ]
      rfl
    | _ => simp [assigns, RegistryCall.isRegistration]

end Steps

/-! ### What the lookups find -/

section Lookups

variable {tables : RegistryTables} {registrations : ℕ} {key : ActivityKey} {node : Option String}

/-- A lookup returns every worker that matches. -/
theorem workersFor_perm (namespace_ taskQueue activityType : String) (node : Option String) :
    ((tables.workersFor namespace_ taskQueue activityType node).1).Perm
      (tables.matching ⟨.new namespace_ taskQueue, activityType⟩ node) := by
  unfold workersFor
  simp only
  split_ifs with hnone
  · rw [hnone]
  · exact List.rotate_perm ..

theorem Consistent.mem_matching_iff (h : Consistent registrations tables) :
    handle ∈ tables.matching key node ↔
      tables.workers.lookup handle.id = some handle ∧ key ∈ handle.keys ∧
        workerMatchesNode handle.toWorkerHandle node = true := by
  rw [RegistryTables.mem_matching_iff, ← and_assoc]
  refine and_congr_left fun _ => ?_
  constructor
  · rintro ⟨id, hfd⟩
    obtain ⟨hlook, hkey⟩ := (h.mirrors key id handle).mp hfd
    rw [(h.named id handle hlook).1]
    exact ⟨hlook, hkey⟩
  · rintro ⟨hlook, hkey⟩
    exact ⟨handle.id, (h.mirrors key handle.id handle).mpr ⟨hlook, hkey⟩⟩

theorem mem_keys_iff {handle : WorkerHandle} {namespace_ taskQueue activityType : String} :
    (⟨.new namespace_ taskQueue, activityType⟩ : ActivityKey) ∈ handle.keys ↔
      namespace_ ∈ handle.namespaces ∧ activityType ∈ handle.activityTypes ∧
        (PoolAddress.new namespace_ handle.taskQueue).taskQueue =
          (PoolAddress.new namespace_ taskQueue).taskQueue := by
  simp only [WorkerHandle.keys, PoolAddress.new, List.mem_flatMap, List.mem_map,
    ActivityKey.mk.injEq, PoolAddress.mk.injEq]
  constructor
  · rintro ⟨served, hserv, type, htype, ⟨rfl, hqueue⟩, rfl⟩
    exact ⟨hserv, htype, hqueue⟩
  · rintro ⟨hserv, htype, hqueue⟩
    exact ⟨namespace_, hserv, activityType, htype, ⟨rfl, hqueue⟩, rfl⟩

/-- The workers that match differ in their identifiers. -/
theorem Consistent.nodup_matching (h : Consistent registrations tables) (key : ActivityKey)
    (node : Option String) : ((tables.matching key node).map fun worker => worker.id).Nodup := by
  unfold matching
  cases hkey : tables.byActivity.lookup key with
  | none => exact List.nodup_nil
  | some copies =>
    simp only [Option.map_some, Option.getD_some]
    have hnames : (copies.entries.map Sigma.snd).map (fun worker => worker.id) = copies.keys := by
      rw [List.map_map]
      refine List.map_congr_left fun entry hent => ?_
      have hfd : find tables.byActivity key entry.1 = some entry.2 :=
        (find_of_lookup hkey _).trans (AList.mem_lookup_iff.mpr hent)
      exact (h.named _ _ ((h.mirrors _ _ _).mp hfd).1).1
    have hcopies : ((copies.entries.map Sigma.snd).map fun worker => worker.id).Nodup := by
      rw [hnames]
      exact copies.keys_nodup
    refine ((List.perm_insertionSort _ _).map _).nodup_iff.mpr ?_
    exact hcopies.sublist (List.filter_sublist.map _)

end Lookups

/-! ### Turns -/

/-- While the calls are made the workers that match are these, and the key is looked up for the node
only. -/
def Steady (key : ActivityKey) (node : Option String) (ids : List WorkerId)
    (tables : RegistryTables) : List RegistryCall → Prop
  | [] => True
  | call :: rest =>
    (tables.matching key node).map (fun worker => worker.id) = ids ∧
      (∀ namespace_ taskQueue activityType node', call = .workersFor namespace_ taskQueue activityType node' →
        (⟨.new namespace_ taskQueue, activityType⟩ : ActivityKey) = key → node' = node) ∧
      (tables.after call).Steady key node ids rest

section Turns

variable {tables : RegistryTables} {key : ActivityKey} {node : Option String} {ids : List WorkerId}
  {calls : List RegistryCall}

/-- Where the next lookup of a key starts. -/
def cursor (tables : RegistryTables) (key : ActivityKey) : ℕ := (tables.rotation.lookup key).getD 0

variable {call : RegistryCall}

/-- A call that does not look the key up leaves its cursor, if there are workers under the key
then. -/
theorem cursor_after (hturn : tables.turn key call = none)
    (hkey : key ∈ (tables.after call).byActivity) :
    (tables.after call).cursor key = tables.cursor key := by
  cases call with
  | registerDelivery => rfl
  | selectWorker => rfl
  | setInterventionCapabilities workerId capabilities =>
    change (tables.setInterventionCapabilities workerId capabilities).2.cursor key = _
    unfold setInterventionCapabilities
    cases tables.workers.lookup workerId <;> rfl
  | deregister workerId =>
    change key ∈ (tables.removeWorker workerId).byActivity at hkey
    change (tables.removeWorker workerId).cursor key = _
    unfold removeWorker at hkey ⊢
    cases hwk : tables.workers.lookup workerId with
    | none => rfl
    | some handle =>
      simp only [hwk] at hkey
      exact congrArg (fun cursor : Option ℕ => cursor.getD 0) (lookup_leaveAll hkey).2
  | workersFor namespace_ taskQueue activityType node =>
    have hne : (⟨.new namespace_ taskQueue, activityType⟩ : ActivityKey) ≠ key := by
      intro heq
      simp [turn, heq] at hturn
    change (tables.workersFor namespace_ taskQueue activityType node).2.cursor key = _
    unfold workersFor
    simp only
    split_ifs
    · rfl
    · exact congrArg (fun cursor : Option ℕ => cursor.getD 0) (AList.lookup_insert_ne hne.symm)

/-- A lookup of the key starts where the cursor is, and moves it on. -/
theorem turn_of_steady {found : List AdvertisedWorker} (hturn : tables.turn key call = some found)
    (steady : tables.Steady key node ids [call]) (hids : ids ≠ []) :
    found.map (fun worker => worker.id) = ids.rotate (tables.cursor key) ∧
      (tables.after call).cursor key = (tables.cursor key + 1) % 2 ^ 64 := by
  obtain ⟨hmatch, hnode, -⟩ := steady
  cases call with
  | workersFor namespace_ taskQueue activityType node' =>
    simp only [turn] at hturn
    split_ifs at hturn with hkey
    obtain rfl := Option.some.inj hturn
    obtain rfl := hnode _ _ _ _ rfl hkey
    subst hkey
    have hne : tables.matching ⟨.new namespace_ taskQueue, activityType⟩ node' ≠ [] := by
      intro hnone
      rw [hnone] at hmatch
      exact hids hmatch.symm
    have hlook : tables.workersFor namespace_ taskQueue activityType node' = (_, _) := if_neg hne
    change (tables.workersFor _ _ _ _).1.map _ = _ ∧ (tables.workersFor _ _ _ _).2.cursor _ = _
    rw [hlook]
    refine ⟨?_, ?_⟩
    · rw [List.map_rotate, hmatch]
      rfl
    · change ((AList.insert _ _ tables.rotation).lookup _).getD 0 = _
      rw [AList.lookup_insert]
      rfl
  | _ => cases hturn

/-- **The turns**: as long as the cursor does not start again in the middle of a round, the lookups
of a key find the same workers, each time from the next one on. -/
theorem turns_of_steady (hids : ids ≠ []) (steady : tables.Steady key node ids calls)
    (hround : tables.cursor key + (tables.turns key calls).length ≤ 2 ^ 64 ∨ ids.length ∣ 2 ^ 64) :
    (tables.turns key calls).map (fun found => found.map fun worker => worker.id) =
      (List.range (tables.turns key calls).length).map fun i =>
      ids.rotate (tables.cursor key + i) := by
  induction calls generalizing tables with
  | nil => rfl
  | cons call rest ih =>
    obtain ⟨hmatch, hnode, hrest⟩ := steady
    cases hturn : tables.turn key call with
    | none =>
      have hturns : tables.turns key (call :: rest) = (tables.after call).turns key rest := by rw [turns, hturn]; rfl
      rw [hturns] at hround ⊢
      cases rest with
      | nil => rfl
      | cons next rest =>
        -- the workers are there for the next call, so the cursor has not been pruned
        have hne : (tables.after call).matching key node ≠ [] := by
          intro hnone
          rw [Steady, hnone] at hrest
          exact hids hrest.1.symm
        rw [← cursor_after hturn (mem_byActivity_of_matching hne)] at hround ⊢
        exact ih hrest hround
    | some found =>
      obtain ⟨hfd, hcur⟩ := turn_of_steady hturn ⟨hmatch, hnode, trivial⟩ hids
      have hturns : tables.turns key (call :: rest) = found :: (tables.after call).turns key rest := by rw [turns, hturn]; rfl
      rw [hturns, List.length_cons] at hround
      have hlat := ih hrest (by rw [hcur]; omega)
      rw [hturns, List.map_cons, List.length_cons, List.range_succ_eq_map, List.map_cons, List.map_map, hfd, hlat]
      congr 1
      refine List.map_congr_left fun i hi => ?_
      rw [hcur, rotate_mod_add (by omega) (List.mem_range.mp hi)]
      exact congrArg ids.rotate (by change _ = tables.cursor key + (i + 1); omega)

end Turns

end RegistryTables

/-! ### The registry -/

open RegistryTables

/-- What is promised of the registry after these calls. -/
structure KeepsIndex (calls : List RegistryCall) : Prop where
  /-- A lookup finds the workers that are registered and serve what is asked for. -/
  found : ∀ namespace_ taskQueue activityType node handle,
    handle ∈ ((empty.run calls).workersFor namespace_ taskQueue activityType node).1 ↔
      (empty.run calls).workers.lookup handle.id = some handle ∧ namespace_ ∈ handle.namespaces ∧
        activityType ∈ handle.activityTypes ∧
        (PoolAddress.new namespace_ handle.taskQueue).taskQueue = (PoolAddress.new namespace_ taskQueue).taskQueue ∧
        workerMatchesNode handle.toWorkerHandle node = true
  /-- And a selection the first of them. -/
  selected : ∀ namespace_ taskQueue activityType node handle,
    (empty.run calls).selectWorker namespace_ taskQueue activityType node = some handle ↔
      handle ∈ ((empty.run calls).workersFor namespace_ taskQueue activityType node).1 ∧
        ∀ other ∈ ((empty.run calls).workersFor namespace_ taskQueue activityType node).1, handle.id ≤ other.id
  /-- A copy is what the table has. -/
  copies : ∀ key id handle, find (empty.run calls).byActivity key id = some handle →
    (empty.run calls).workers.lookup id = some handle
  /-- No entry of the index is empty. -/
  filled : ∀ key copies, (empty.run calls).byActivity.lookup key = some copies → copies.entries ≠ []
  /-- No cursor is without an entry. -/
  hung : ∀ key, key ∈ (empty.run calls).rotation → key ∈ (empty.run calls).byActivity
  /-- No identifier is assigned twice. -/
  unique : (empty.assigned calls).Nodup
  /-- When the same workers match all the while, as many lookups return all of them each, and start
  with each of them once. -/
  turns : ∀ key node ids during, (empty.run calls).Steady key node ids during →
    ((empty.run calls).turns key during).length = ids.length →
    ((empty.run calls).cursor key + ids.length ≤ 2 ^ 64 ∨ ids.length ∣ 2 ^ 64) →
      (∀ found ∈ (empty.run calls).turns key during, (found.map fun worker => worker.id).Perm ids) ∧
        ∀ id ∈ ids, (((empty.run calls).turns key during).map fun found =>
            found.head?.map fun worker => worker.id).count (some id) = 1

section Kept

variable {tables : RegistryTables} {registrations : ℕ}

variable {node : Option String} {key : ActivityKey}

theorem RegistryTables.Consistent.selected (h : Consistent registrations tables) :
    (tables.matching key node).head? = some handle ↔
      handle ∈ tables.matching key node ∧ ∀ other ∈ tables.matching key node,
      handle.id ≤ other.id := by
  have hsorted : (tables.matching key node).Pairwise fun left right => left.id ≤ right.id :=
    List.pairwise_insertionSort _ _
  have hnd := h.nodup_matching key node
  cases hmatch : tables.matching key node with
  | nil => simp
  | cons first rest =>
    rw [hmatch] at hsorted hnd
    have hleast : ∀ other ∈ first :: rest, first.id ≤ other.id := by
      intro other hother
      rcases List.mem_cons.mp hother with rfl | hother
      · exact le_rfl
      · exact (List.pairwise_cons.mp hsorted).1 other hother
    rw [List.head?_cons, Option.some_inj]
    constructor
    · rintro rfl
      exact ⟨List.mem_cons_self, hleast⟩
    · rintro ⟨hmem, hfst⟩
      exact List.inj_on_of_nodup_map hnd List.mem_cons_self hmem
        (le_antisymm (hleast handle hmem) (hfst first List.mem_cons_self))

theorem RegistryTables.Consistent.turns (h : Consistent registrations tables) {ids : List WorkerId}
    {during : List RegistryCall} (steady : tables.Steady key node ids during)
    (hlen : (tables.turns key during).length = ids.length)
    (hround : tables.cursor key + ids.length ≤ 2 ^ 64 ∨ ids.length ∣ 2 ^ 64) :
    (∀ found ∈ tables.turns key during, (found.map fun worker => worker.id).Perm ids) ∧
      ∀ id ∈ ids, ((tables.turns key during).map fun found => found.head?.map fun worker =>
          worker.id).count (some id) = 1 := by
  by_cases hids : ids = []
  · subst hids
    rw [List.length_eq_zero_iff.mp hlen]
    simp
  · have hturns := turns_of_steady hids steady (by rw [hlen]; exact hround)
    rw [hlen] at hturns
    have hnd : ids.Nodup := by
      cases during with
      | nil => exact absurd (List.length_eq_zero_iff.mp hlen.symm) hids
      | cons call rest =>
        rw [← steady.1]
        exact h.nodup_matching key node
    constructor
    · intro found hfd
      have hmem := List.mem_map_of_mem (f := fun found => found.map fun worker : AdvertisedWorker => worker.id) hfd
      rw [hturns] at hmem
      obtain ⟨i, -, hi⟩ := List.mem_map.mp hmem
      rw [← hi]
      exact List.rotate_perm ids _
    · intro id hid
      have hheads : (tables.turns key during).map (fun found => found.head?.map fun worker => worker.id) =
          (ids.rotate (tables.cursor key)).map some := by
        rw [← heads_of_turns]
        have := congrArg (List.map List.head?) hturns
        simpa only [List.map_map, Function.comp_def, List.head?_map] using this
      rw [hheads, List.count_map_of_injective _ _ (Option.some_injective _), (List.rotate_perm ids _).count_eq]
      exact List.count_eq_one_of_mem hnd hid

end Kept

/-- **The index of the registry**: while there are identifiers left, it is kept through any
calls. -/
theorem registry_index (calls : List RegistryCall)
    (hleft : calls.countP RegistryCall.isRegistration < 2 ^ 64) : KeepsIndex calls := by
  have h : Consistent (0 + calls.countP RegistryCall.isRegistration) (empty.run calls) :=
    consistent_empty.run (by omega)
  constructor
  case found =>
    intro namespace_ taskQueue activityType node handle
    rw [(workersFor_perm ..).mem_iff, h.mem_matching_iff, mem_keys_iff, and_assoc, and_assoc]
  case selected =>
    intro namespace_ taskQueue activityType node handle
    have hperm := @workersFor_perm (empty.run calls) namespace_ taskQueue activityType node
    simp only [hperm.mem_iff]
    exact h.selected
  case copies => exact fun key id handle hfd => ((h.mirrors key id handle).mp hfd).1
  case filled => exact h.trim.filled
  case hung => exact h.trim.hung
  case unique =>
    rw [consistent_empty.assigned (by omega)]
    exact List.nodup_range'
  case turns => exact fun key node ids during => h.turns

/-- A worker of one namespace that names no queue. -/
def chargeWorker : RegistryCall := .registerDelivery ["prod"] "" (some "rack-1") ["charge"] .grpc []

/-- It is found in the default pool while it is registered. -/
theorem registry_index_chargeWorkers :
    KeepsIndex [chargeWorker, chargeWorker, .setInterventionCapabilities 2 [.cancel],
        .deregister 1] ∧
      ((empty.run [chargeWorker, chargeWorker, .setInterventionCapabilities 2 [.cancel],
          .deregister 1]).workersFor "prod" "default"
        "charge" none).1.map (fun worker => (worker.id, worker.interventionCapabilities)) =
          [(2, [.cancel])] :=
  ⟨registry_index _ (by decide), by decide +kernel⟩

/-! ### At the limits -/

namespace RegistryTables

/-- A worker that serves nothing. -/
def idleWorker : RegistryCall := .registerDelivery [] "" none [] .grpc []

theorem run_append (tables : RegistryTables) (calls calls' : List RegistryCall) :
    tables.run (calls ++ calls') = (tables.run calls).run calls' := List.foldl_append

theorem assigned_append (tables : RegistryTables) (calls calls' : List RegistryCall) :
    tables.assigned (calls ++ calls') = tables.assigned calls ++
      (tables.run calls).assigned calls' := by
  induction calls generalizing tables with
  | nil => rfl
  | cons call rest ih =>
    rw [List.cons_append, assigned, assigned, ih, List.append_assoc]
    rfl

theorem nextWorkerId_idleWorkers (count : ℕ) :
    (empty.run (List.replicate count idleWorker)).nextWorkerId = min (count + 1) (2 ^ 64 - 1) := by
  induction count with
  | zero => rfl
  | succ count ih =>
    rw [List.replicate_succ', run_append]
    change min ((empty.run (List.replicate count idleWorker)).nextWorkerId + 1) (2 ^ 64 - 1) = _
    rw [ih]
    omega

/-- With no identifier left the last one is assigned once more. -/
theorem not_nodup_assigned {count : ℕ} (hcount : 2 ^ 64 ≤ count + 2) :
    ¬ (empty.assigned (List.replicate (count + 2) idleWorker)).Nodup := by
  have hspl : List.replicate (count + 2) idleWorker = List.replicate count idleWorker ++
    [idleWorker, idleWorker] :=
    List.replicate_add count 2 idleWorker
  have hlast : (empty.run (List.replicate count idleWorker)).assigned [idleWorker, idleWorker] = [2 ^ 64 - 1, 2 ^ 64 - 1] := by
    change [(empty.run (List.replicate count idleWorker)).nextWorkerId,
      min ((empty.run (List.replicate count idleWorker)).nextWorkerId + 1) (2 ^ 64 - 1)] = _
    rw [nextWorkerId_idleWorkers, min_eq_right (by omega)]
    rfl
  rw [hspl, assigned_append, hlast]
  intro hnd
  have hpair := (List.nodup_append.mp hnd).2.1
  simp at hpair

/-- The lookup of a charge, and its key. -/
def chargeLookup : RegistryCall := .workersFor "prod" "" "charge" none

/-- The pool of the activity `charge`. -/
def chargeKey : ActivityKey := ⟨.new "prod" "", "charge"⟩

/-- The first lookups of a key move its cursor, and nothing else. -/
theorem run_chargeLookups {tables : RegistryTables} (hfd : tables.matching chargeKey none ≠ [])
    (hnew : tables.rotation.lookup chargeKey = none) (count : ℕ) :
    tables.run (List.replicate (count + 1) chargeLookup) =
      { tables with rotation := tables.rotation.insert chargeKey ((count + 1) % 2 ^ 64) } := by
  induction count with
  | zero =>
    change (tables.workersFor "prod" "" "charge" none).2 = _
    refine (congrArg Prod.snd (if_neg hfd)).trans ?_
    change { tables with rotation := tables.rotation.insert chargeKey (((tables.rotation.lookup chargeKey).getD 0 + 1) % 2 ^ 64) } = _
    rw [hnew]
    rfl
  | succ count ih =>
    rw [List.replicate_succ', run_append, ih]
    refine (congrArg Prod.snd (if_neg hfd)).trans ?_
    change { tables with
      rotation := (tables.rotation.insert chargeKey ((count + 1) % 2 ^ 64)).insert chargeKey
        ((((tables.rotation.insert chargeKey ((count + 1) % 2 ^ 64)).lookup chargeKey).getD 0 + 1) % 2 ^ 64) } = _
    rw [AList.lookup_insert, AList.insert_insert, Option.getD_some, Nat.mod_add_mod]

end RegistryTables

/-- After `2 ^ 64` registrations an identifier is assigned twice; after `2 ^ 64 - 1` lookups among
three workers the next three start with one of them twice. -/
theorem identifier_reused :
    ¬ (empty.assigned (List.replicate (2 ^ 64) idleWorker)).Nodup ∧
      (((empty.run ([chargeWorker, chargeWorker, chargeWorker] ++ List.replicate
          (2 ^ 64 - 1) chargeLookup)).turns chargeKey
        (List.replicate 3 chargeLookup)).map fun found => found.head?.map fun worker => worker.id) =
          [some 1, some 1, some 2] := by
  refine ⟨@not_nodup_assigned (2 ^ 64 - 2) (by omega), ?_⟩
  have hwrapped :=
    @run_chargeLookups (empty.run [chargeWorker, chargeWorker, chargeWorker])
      (by decide +kernel) rfl (2 ^ 64 - 2)
  rw [run_append, show 2 ^ 64 - 1 = 2 ^ 64 - 2 + 1 from rfl, hwrapped]
  decide +kernel

end Aion
