import Mathlib.Data.List.Sort
import Mathlib.Logic.Function.Basic
import Mathlib.Data.String.Basic

/-!
# The registry of connected workers

`registry.rs`: a worker is found under each pool and activity type it serves. A worker that
registers gets the next identifier and enters the index under its keys (`registerDelivery`); one
that is deregistered leaves it (`removeWorker`). Dispatches look workers up by key and node
(`workersFor`, `selectWorker`).
-/

namespace Aion

/-- `DEFAULT_TASK_QUEUE`. -/
def defaultTaskQueue : String := "default"

/-- The address of a worker pool. -/
structure PoolAddress where
  namespace_ : String
  taskQueue : String
  deriving DecidableEq

/-- `PoolAddress::new`: no task queue is the default one. -/
def PoolAddress.new (namespace_ taskQueue : String) : PoolAddress :=
  ⟨namespace_, if taskQueue = "" then defaultTaskQueue else taskQueue⟩

/-- What dispatches look workers up by. -/
structure ActivityKey where
  pool : PoolAddress
  activityType : String
  deriving DecidableEq

/-- Assigned to a worker when it registers. -/
abbrev WorkerId : Type := ℕ

/-- The transport to a worker. -/
inductive WorkerDelivery where
  | grpc
  | liminal
  deriving DecidableEq

/-- A registered worker. -/
structure WorkerHandle where
  id : WorkerId
  namespaces : List String
  taskQueue : String
  node : Option String
  activityTypes : List String
  delivery : WorkerDelivery
  deriving DecidableEq

/-- The keys a worker is indexed under. -/
def WorkerHandle.keys (handle : WorkerHandle) : List ActivityKey :=
  handle.namespaces.flatMap fun namespace_ =>
    handle.activityTypes.map fun activityType => ⟨.new namespace_ handle.taskQueue, activityType⟩

/-- `worker_matches_node`. -/
def workerMatchesNode (worker : WorkerHandle) : Option String → Bool
  | none => true
  | some node => worker.node = some node

/-- The state of the registry. An index without workers under a key has no entry for it, and a key
without a cursor is at the start. -/
structure RegistryState where
  nextWorkerId : WorkerId
  workers : WorkerId → Option WorkerHandle
  byActivity : ActivityKey → List WorkerHandle
  rotation : ActivityKey → ℕ

/-- `ConnectedWorkerRegistry`, as it starts. -/
def RegistryState.empty : RegistryState := ⟨1, fun _ => none, fun _ => [], fun _ => 0⟩

namespace RegistryState

/-- The index with a worker under a key, in place of any of its identifier. -/
def indexUnder (handle : WorkerHandle) (index : ActivityKey → List WorkerHandle)
    (key : ActivityKey) : ActivityKey → List WorkerHandle :=
  Function.update index key ((index key).filter (fun other => other.id ≠ handle.id) ++ [handle])

/-- `register_delivery_with_capabilities`, up to the wakeup: the worker that registered. -/
def registerDelivery (state : RegistryState) (namespaces : List String) (taskQueue : String)
    (node : Option String) (activityTypes : List String) (delivery : WorkerDelivery) :
    WorkerHandle × RegistryState :=
  let handle : WorkerHandle :=
    ⟨state.nextWorkerId, namespaces, taskQueue, node, activityTypes, delivery⟩
  (handle, { state with
    nextWorkerId := min (state.nextWorkerId + 1) (2 ^ 64 - 1)
    workers := Function.update state.workers handle.id (some handle)
    byActivity := handle.keys.foldl (indexUnder handle) state.byActivity })

/-- The index and the cursors without a worker under a key. -/
def unindexUnder (workerId : WorkerId)
    (maps : (ActivityKey → List WorkerHandle) × (ActivityKey → ℕ)) (key : ActivityKey) :
    (ActivityKey → List WorkerHandle) × (ActivityKey → ℕ) :=
  let left := (maps.1 key).filter fun other => other.id ≠ workerId
  (Function.update maps.1 key left, if left = [] then Function.update maps.2 key 0 else maps.2)

/-- `remove_worker`. -/
def removeWorker (state : RegistryState) (workerId : WorkerId) : RegistryState :=
  match state.workers workerId with
  | none => state
  | some handle =>
    let maps := handle.keys.foldl (unindexUnder workerId) (state.byActivity, state.rotation)
    { state with workers := Function.update state.workers workerId none, byActivity := maps.1, rotation := maps.2 }

/-- `is_registered`. -/
def isRegistered (state : RegistryState) (workerId : WorkerId) : Bool :=
  (state.workers workerId).isSome

/-- The workers under a key that match the node, by identifier. -/
def matching (state : RegistryState) (key : ActivityKey) (node : Option String) :
    List WorkerHandle :=
  ((state.byActivity key).filter fun worker => workerMatchesNode worker node).insertionSort
    fun left right => left.id ≤ right.id

/-- `workers_for`: the workers that match, from the next one on. -/
def workersFor (state : RegistryState) (namespace_ taskQueue activityType : String)
    (node : Option String) : List WorkerHandle × RegistryState :=
  let key : ActivityKey := ⟨.new namespace_ taskQueue, activityType⟩
  let workers := state.matching key node
  if workers = [] then ([], state)
  else (workers.rotate (state.rotation key),
    { state with rotation := Function.update state.rotation key ((state.rotation key + 1) % 2 ^ 64) })

/-- `select_worker`: the first worker that matches. -/
def selectWorker (state : RegistryState) (namespace_ taskQueue activityType : String)
    (node : Option String) : Option WorkerHandle :=
  (state.matching ⟨.new namespace_ taskQueue, activityType⟩ node).head?

/-! ### What registering and removing does -/

variable {state : RegistryState}

variable {key : ActivityKey} {other handle : WorkerHandle} {node : Option String}
  {activityTypes namespaces : List String} {delivery : WorkerDelivery} {keys : List ActivityKey}
  {workerId : WorkerId} {taskQueue : String}

theorem mem_foldl_indexUnder {index : ActivityKey → List WorkerHandle} :
    other ∈ keys.foldl (indexUnder handle) index key ↔
      (key ∈ keys ∧ other = handle) ∨ other ∈ index key ∧ (key ∈ keys → other.id ≠ handle.id) := by
  induction keys generalizing index with
  | nil => simp
  | cons first rest ih =>
    rw [List.foldl_cons, ih]
    by_cases hkey : key = first
    · subst hkey
      by_cases hsame : other = handle <;> simp [indexUnder, hsame] <;> tauto
    · simp [indexUnder, hkey]

/-- The index after a worker has registered. -/
theorem mem_byActivity_registerDelivery {state' : RegistryState}
    (h : state.registerDelivery namespaces taskQueue node activityTypes delivery =
        (handle, state')) :
    other ∈ state'.byActivity key ↔
      (key ∈ handle.keys ∧ other = handle) ∨ other ∈ state.byActivity key ∧
        (key ∈ handle.keys → other.id ≠ handle.id) := by
  obtain ⟨rfl, rfl⟩ := Prod.mk.inj h
  exact mem_foldl_indexUnder

theorem mem_foldl_unindexUnder {maps : (ActivityKey → List WorkerHandle) × (ActivityKey → ℕ)} :
    other ∈ (keys.foldl (unindexUnder workerId) maps).1 key ↔ other ∈ maps.1 key ∧
      (key ∈ keys → other.id ≠ workerId) := by
  induction keys generalizing maps with
  | nil => simp
  | cons first rest ih =>
    rw [List.foldl_cons, ih]
    by_cases hkey : key = first
    · subst hkey
      simp [unindexUnder]
      tauto
    · simp [unindexUnder, hkey]

theorem workers_removeWorker (workerId other : WorkerId) :
    (state.removeWorker workerId).workers other = if other = workerId then none else
      state.workers other := by
  unfold removeWorker
  cases hwk : state.workers workerId with
  | none =>
    split_ifs with hother
    · rw [hother, hwk]
    · rfl
  | some handle => exact Function.update_apply ..

theorem isRegistered_removeWorker {other : WorkerId} (h : other ≠ workerId) :
    (state.removeWorker workerId).isRegistered other = state.isRegistered other := by
  rw [isRegistered, isRegistered, workers_removeWorker, if_neg h]

theorem isRegistered_registerDelivery {other : WorkerId} (h : state.isRegistered other = true) :
    (state.registerDelivery namespaces taskQueue node activityTypes delivery).2.isRegistered other =
      true := by
  by_cases hother : other = state.nextWorkerId <;> simp_all [isRegistered, registerDelivery]

/-- Each registered worker is indexed under its keys, and nothing else is. -/
def Indexed (state : RegistryState) : Prop :=
  ∀ key other, other ∈ state.byActivity key ↔ state.workers other.id = some other ∧ key ∈ other.keys

theorem indexed_empty : empty.Indexed := by
  simp [Indexed, empty]

theorem Indexed.registerDelivery (h : state.Indexed)
    (hfresh : state.workers state.nextWorkerId = none) (namespaces : List String)
    (taskQueue : String) (node : Option String) (activityTypes : List String)
    (delivery : WorkerDelivery) :
    (state.registerDelivery namespaces taskQueue node activityTypes delivery).2.Indexed := by
  intro key other
  refine (mem_byActivity_registerDelivery rfl).trans ?_
  rw [h key other]
  change _ ↔ Function.update state.workers state.nextWorkerId _ other.id = some other ∧ _
  by_cases hid : other.id = state.nextWorkerId
  · rw [hid, Function.update_self, hfresh, Option.some_inj]
    constructor
    · rintro (⟨hkey, rfl⟩ | ⟨⟨hnone, -⟩, -⟩)
      · exact ⟨rfl, hkey⟩
      · cases hnone
    · rintro ⟨rfl, hkey⟩
      exact .inl ⟨hkey, rfl⟩
  · rw [Function.update_of_ne hid]
    constructor
    · rintro (⟨-, rfl⟩ | ⟨hother, -⟩)
      · exact absurd rfl hid
      · exact hother
    · exact fun hother => .inr ⟨hother, fun _ => hid⟩

theorem Indexed.removeWorker (h : state.Indexed) (workerId : WorkerId) :
    (state.removeWorker workerId).Indexed := by
  intro key other
  rw [workers_removeWorker]
  unfold RegistryState.removeWorker
  cases hwk : state.workers workerId with
  | none =>
    change other ∈ state.byActivity key ↔ _
    rw [h key other]
    split_ifs with hid
    · rw [hid, hwk]
      simp
    · rfl
  | some handle =>
    refine mem_foldl_unindexUnder.trans ?_
    rw [h key other]
    split_ifs with hid
    · rw [hid, hwk, Option.some_inj]
      constructor
      · rintro ⟨⟨rfl, hkey⟩, hnot⟩
        exact absurd rfl (hnot hkey)
      · rintro ⟨hnone, -⟩
        cases hnone
    · exact and_iff_left fun _ => hid

/-- What a lookup finds: the registered workers of the key that match the node. -/
theorem Indexed.mem_matching_iff (h : state.Indexed) {worker : WorkerHandle} :
    worker ∈ state.matching key node ↔
      state.workers worker.id = some worker ∧ key ∈ worker.keys ∧
        workerMatchesNode worker node = true := by
  rw [matching, List.mem_insertionSort, List.mem_filter, h key worker, and_assoc]

/-- A lookup changes no more than the cursors. -/
theorem workersFor_workers (namespace_ taskQueue activityType : String) (node : Option String) :
    (state.workersFor namespace_ taskQueue activityType node).2.workers = state.workers ∧
      (state.workersFor namespace_ taskQueue activityType node).2.byActivity =
      state.byActivity := by
  unfold workersFor
  simp only
  split_ifs
  · exact ⟨rfl, rfl⟩
  · exact ⟨rfl, rfl⟩

end RegistryState

end Aion
