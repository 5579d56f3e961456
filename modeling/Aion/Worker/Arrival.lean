import Aion.Library.Actions
import Aion.Worker.Registry

/-!
# Waiting for a worker

A dispatch that finds no worker waits for one to register. It looks the workers up in one step
and begins to wait in another, and a registration enters the index in one step and wakes the
dispatches that wait in another (`Notify::notify_waiters`, which leaves nothing for those that
do not wait yet). A wakeup that comes between the two steps of a dispatch is lost on it
(`lost_wakeup`). None is lost in runs where no registration wakes the others in such a
moment of a dispatch that the worker matches (`no_lost_wakeup`).

The dispatches are those of `dispatch.rs` and `bridge.rs`, which differ in the nodes they look up
(`DispatchRoute`): `dispatch_requiring` looks up each node that is required, and
`dispatch_over_tiers` tries the nodes before the spill once, and then does as `dispatch_to_node`.
-/

namespace Aion

open Actions

/-! ### Dispatches -/

/-- How a dispatch looks for a worker: the nodes it tries once, then those it tries before each
wait. -/
structure DispatchRoute where
  tiers : List (Option String)
  pass : List (Option String)
  /-- Whether workers that are all gone end the dispatch. -/
  endsWhenClosed : Bool
  /-- Whether a worker that is found ends it, before anything is sent. -/
  endsWhenFound : Bool
  deriving DecidableEq

/-- `dispatch_to_node`. -/
def dispatchToNode (node : Option String) : DispatchRoute := ⟨[], [node], true, false⟩

/-- `select_worker_or_wait`. -/
def selectWorkerOrWait (node : Option String) : DispatchRoute := ⟨[], [node], false, true⟩

/-- What a dispatch is doing. -/
inductive DispatchPhase where
  /-- Trying the nodes that are tried once. -/
  | tiers
  /-- In a pass over its nodes. -/
  | pass
  /-- In `wait_for_worker`. -/
  | waiting
  /-- Returned. -/
  | done
  deriving DecidableEq

/-- A dispatch. -/
structure Dispatch where
  namespace_ : String
  taskQueue : String
  activityType : String
  route : DispatchRoute
  phase : DispatchPhase
  /-- The nodes to look up yet. -/
  todo : List (Option String)
  /-- The workers found by the last lookup and not tried yet. -/
  candidates : List WorkerHandle
  /-- The nodes looked up in this pass, and when. -/
  looked : List (Option String × ℕ)
  deriving DecidableEq

namespace Dispatch

/-- What it looks workers up by. -/
def key (dispatch : Dispatch) : ActivityKey :=
  ⟨.new dispatch.namespace_ dispatch.taskQueue, dispatch.activityType⟩

/-- A dispatch as it begins. -/
def begin (namespace_ taskQueue activityType : String) (route : DispatchRoute) : Dispatch :=
  ⟨namespace_, taskQueue, activityType, route, .tiers, route.tiers, [], []⟩

/-- The next pass. -/
def restart (dispatch : Dispatch) : Dispatch :=
  { dispatch with phase := .pass, todo := dispatch.route.pass, looked := [] }

/-- It returns. -/
def finish (dispatch : Dispatch) : Dispatch :=
  { dispatch with phase := .done, todo := [], candidates := [], looked := [] }

/-- A worker serves the dispatch on a node. -/
def Matches (dispatch : Dispatch) (worker : WorkerHandle) (node : Option String) : Prop :=
  dispatch.key ∈ worker.keys ∧ workerMatchesNode worker node = true

instance (dispatch : Dispatch) (worker : WorkerHandle) (node : Option String) :
    Decidable (dispatch.Matches worker node) :=
  inferInstanceAs (Decidable (_ ∧ _))

end Dispatch

/-! ### The system -/

/-- The registry, the registrations under way and the dispatches. -/
structure ArrivalState where
  registry : RegistryState
  /-- The workers in the index whose registration has not woken the waiting dispatches yet. -/
  registering : List WorkerHandle
  /-- When the registration of the worker with an identifier was finished. -/
  finishedAt : WorkerId → Option ℕ
  dispatches : List Dispatch
  /-- The steps so far. -/
  now : ℕ

/-- Nothing has happened. -/
def ArrivalState.start : ArrivalState := ⟨.empty, [], fun _ => none, [], 0⟩

/-- The steps of registrations and dispatches. -/
inductive ArrivalAction where
  /-- A worker enters the index. -/
  | insert (namespaces : List String) (taskQueue : String) (node : Option String)
    (activityTypes : List String)
    (delivery : WorkerDelivery)
  /-- The registration at this place wakes the dispatches that wait. -/
  | notify (registration : ℕ)
  /-- `deregister`. -/
  | deregister (workerId : WorkerId)
  /-- A dispatch begins. -/
  | begin (namespace_ taskQueue activityType : String) (route : DispatchRoute)
  /-- The dispatch at this place looks up the next node, unless the server drains. -/
  | lookup (dispatch : ℕ) (accepting : Bool)
  /-- It pushes the task to the next candidate, unless the server drains; the stream may be
  closed. -/
  | send (dispatch : ℕ) (accepting delivered : Bool)
  /-- With its tiers tried, it goes over to the nodes it waits for. -/
  | spill (dispatch : ℕ)
  /-- It calls `wait_for_worker`, which waits from now on. -/
  | wait (dispatch : ℕ)
  /-- Without a runtime to wait on, it sleeps and looks again. -/
  | sleep (dispatch : ℕ)
  /-- It is dropped. -/
  | cancel (dispatch : ℕ)
  deriving DecidableEq

namespace ArrivalState

/-- What a step does to the dispatch it is of, and to the registry. -/
def dispatchStep (registry : RegistryState) (now : ℕ) (dispatch : Dispatch) :
    ArrivalAction → Option (Dispatch × RegistryState)
  | .lookup _ accepting =>
    match dispatch.todo, dispatch.candidates with
    | node :: rest, [] =>
      let next (found : List WorkerHandle) : Dispatch := { dispatch with
        todo := rest
        candidates := found
        looked := if dispatch.phase = .pass then dispatch.looked ++ [(node, now)] else [] }
      if dispatch.route.endsWhenFound then
        match registry.selectWorker dispatch.namespace_ dispatch.taskQueue dispatch.activityType node with
        | some _ => some (dispatch.finish, registry)
        | none => some (if accepting then next [] else dispatch.finish, registry)
      else if accepting then
        let (found, registry') := registry.workersFor dispatch.namespace_ dispatch.taskQueue dispatch.activityType node
        some (next found, registry')
      else some (dispatch.finish, registry)
    | _, _ => none
  | .send _ accepting delivered =>
    match dispatch.candidates with
    | worker :: rest =>
      if !accepting || delivered then some (dispatch.finish, registry)
      else if rest = [] ∧ dispatch.route.endsWhenClosed ∧ dispatch.phase = .pass then
        some (dispatch.finish, registry.removeWorker worker.id)
      else some ({ dispatch with candidates := rest }, registry.removeWorker worker.id)
    | [] => none
  | .spill _ =>
    if dispatch.phase = .tiers ∧ dispatch.todo = [] ∧ dispatch.candidates = [] then
      some (dispatch.restart, registry)
    else none
  | .wait _ =>
    if dispatch.phase = .pass ∧ dispatch.todo = [] ∧ dispatch.candidates = [] then
      some ({ dispatch with phase := .waiting }, registry)
    else none
  | .sleep _ =>
    if dispatch.phase = .pass ∧ dispatch.todo = [] ∧ dispatch.candidates = [] then
      some (dispatch.restart, registry)
    else none
  | .cancel _ => some (dispatch.finish, registry)
  | _ => none

/-- A step of the dispatch at this place. -/
def onDispatch (s : ArrivalState) (place : ℕ) (action : ArrivalAction) : Option ArrivalState :=
  (s.dispatches[place]?).bind fun dispatch =>
    (dispatchStep s.registry s.now dispatch action).map fun (dispatch', registry') =>
      { s with registry := registry', dispatches := s.dispatches.set place dispatch', now := s.now + 1 }

/-- One step. -/
def step (s : ArrivalState) : ArrivalAction → Option ArrivalState
  | .insert namespaces taskQueue node activityTypes delivery =>
    let (handle, registry') :=
      s.registry.registerDelivery namespaces taskQueue node activityTypes delivery
    some { s with
      registry := registry'
      registering := s.registering ++ [handle]
      finishedAt := Function.update s.finishedAt handle.id none
      now := s.now + 1 }
  | .notify registration =>
    (s.registering[registration]?).map fun handle => { s with
      registering := s.registering.eraseIdx registration
      finishedAt := if s.registry.workers handle.id = some handle then Function.update s.finishedAt handle.id (some s.now)
        else s.finishedAt
      dispatches := s.dispatches.map fun dispatch => if dispatch.phase = .waiting then dispatch.restart else dispatch
      now := s.now + 1 }
  | .deregister workerId =>
    some { s with registry := s.registry.removeWorker workerId, now := s.now + 1 }
  | .begin namespace_ taskQueue activityType route =>
    some { s with dispatches := s.dispatches ++ [.begin namespace_ taskQueue activityType route], now := s.now + 1 }
  | .lookup place accepting => s.onDispatch place (.lookup place accepting)
  | .send place accepting delivered => s.onDispatch place (.send place accepting delivered)
  | .spill place => s.onDispatch place (.spill place)
  | .wait place => s.onDispatch place (.wait place)
  | .sleep place => s.onDispatch place (.sleep place)
  | .cancel place => s.onDispatch place (.cancel place)

/-- The place between the two steps of a dispatch: a registration does not wake the others while
one that its worker serves has looked the node up and does not wait yet. -/
def Timely (s : ArrivalState) : ArrivalAction → Prop
  | .notify registration =>
    ∀ worker ∈ s.registering[registration]?, s.registry.workers worker.id = some worker →
      ∀ dispatch ∈ s.dispatches, dispatch.phase = .pass → ∀ entry ∈ dispatch.looked, ¬ dispatch.Matches worker entry.1
  | _ => True

instance (s : ArrivalState) : ∀ action, Decidable (s.Timely action)
  | .notify _ => inferInstanceAs (Decidable (∀ _ ∈ _, _))
  | .insert .. | .deregister .. | .begin .. | .lookup .. | .send .. | .spill .. | .wait .. | .sleep .. | .cancel .. =>
    .isTrue trivial

/-- No dispatch waits while a worker that serves it on a node it looked up is registered, and the
registration was finished after the lookup. -/
def NoLostWakeup (s : ArrivalState) : Prop :=
  ∀ dispatch ∈ s.dispatches, dispatch.phase = .waiting → ∀ worker finished,
    s.registry.workers worker.id = some worker → s.finishedAt worker.id = some finished →
    ∀ entry ∈ dispatch.looked, entry.2 < finished → ¬ dispatch.Matches worker entry.1

/-! ### What each step keeps -/

/-- What holds between the dispatches and the registrations that were finished. -/
structure Quiet (s : ArrivalState) : Prop where
  finished_lt : ∀ workerId finished, s.finishedAt workerId = some finished → finished < s.now
  looked_lt : ∀ dispatch ∈ s.dispatches, ∀ entry ∈ dispatch.looked, entry.2 < s.now
  /-- Outside a pass and its wait nothing has been looked up. -/
  idle : ∀ dispatch ∈ s.dispatches, dispatch.phase = .tiers ∨ dispatch.phase = .done →
    dispatch.looked = []
  /-- A worker that was registered after a lookup does not serve it. -/
  unserved : ∀ dispatch ∈ s.dispatches, ∀ worker finished, s.registry.workers worker.id =
    some worker →
    s.finishedAt worker.id = some finished → ∀ entry ∈ dispatch.looked, entry.2 < finished →
      ¬ dispatch.Matches worker entry.1

theorem quiet_start : start.Quiet :=
  ⟨by simp [start], by simp [start], by simp [start], by simp [start]⟩

/-- What a step of a dispatch does: it looks up what it looks up now, and no worker is registered by
it. -/
structure DispatchSpec (registry registry' : RegistryState) (now : ℕ)
    (dispatch dispatch' : Dispatch) : Prop where
  key : dispatch'.key = dispatch.key
  workers : ∀ workerId worker, registry'.workers workerId = some worker →
    registry.workers workerId = some worker
  looked : ∀ entry ∈ dispatch'.looked, entry ∈ dispatch.looked ∨ entry.2 = now
  idle : (dispatch.phase = .tiers ∨ dispatch.phase = .done → dispatch.looked = []) →
    dispatch'.phase = .tiers ∨ dispatch'.phase = .done → dispatch'.looked = []

namespace DispatchSpec

variable {registry registry' : RegistryState} {now : ℕ} {dispatch : Dispatch}

theorem finish
    (hworkers : ∀ workerId worker, registry'.workers workerId = some worker →
        registry.workers workerId = some worker) :
    DispatchSpec registry registry' now dispatch dispatch.finish :=
  ⟨rfl, hworkers, by simp [Dispatch.finish], fun _ _ => rfl⟩

theorem restart : DispatchSpec registry registry now dispatch dispatch.restart :=
  ⟨rfl, fun _ _ h => h, by simp [Dispatch.restart], fun _ _ => rfl⟩

theorem lookup (hworkers : registry'.workers = registry.workers) (node : Option String)
    (rest : List (Option String)) (found : List WorkerHandle) :
    DispatchSpec registry registry' now dispatch { dispatch with
      todo := rest
      candidates := found
      looked := if dispatch.phase = .pass then dispatch.looked ++ [(node, now)] else [] } := by
  refine ⟨rfl, fun _ _ h => hworkers ▸ h, fun entry hent => ?_, fun _ hph => ?_⟩
  · simp only at hent
    split_ifs at hent
    · rcases List.mem_append.mp hent with hent | hent
      · exact .inl hent
      · obtain rfl := List.mem_singleton.mp hent
        exact .inr rfl
    · cases hent
  · rcases hph with hph | hph <;> simp only at hph <;> simp [hph]

end DispatchSpec

theorem removed_workers {registry : RegistryState} (removed workerId : WorkerId)
    (worker : WorkerHandle) (h : (registry.removeWorker removed).workers workerId = some worker) :
    registry.workers workerId = some worker := by
  rw [RegistryState.workers_removeWorker] at h
  split_ifs at h
  exact h

variable {action : ArrivalAction} {s' s : ArrivalState}

theorem dispatchStep_spec {registry registry' : RegistryState} {now : ℕ}
    {dispatch dispatch' : Dispatch}
    (h : dispatchStep registry now dispatch action = some (dispatch', registry')) :
    DispatchSpec registry registry' now dispatch dispatch' := by
  cases action with
  | lookup place accepting =>
    simp only [dispatchStep] at h
    split at h
    · split at h
      · split at h
        · cases h
          exact .finish fun _ _ hwk => hwk
        · cases h
          split
          · exact .lookup rfl _ _ _
          · exact .finish fun _ _ hwk => hwk
      · split at h
        · cases h
          exact .lookup (RegistryState.workersFor_workers ..).1 _ _ _
        · cases h
          exact .finish fun _ _ hwk => hwk
    · cases h
  | send place accepting delivered =>
    simp only [dispatchStep] at h
    split at h
    · split at h
      · cases h
        exact .finish fun _ _ hwk => hwk
      · split at h
        · cases h
          exact .finish (removed_workers _)
        · cases h
          exact ⟨rfl, removed_workers _, fun _ => .inl, fun hidle => hidle⟩
    · cases h
  | spill place =>
    simp only [dispatchStep] at h
    split at h
    · cases h
      exact .restart
    · cases h
  | wait place =>
    simp only [dispatchStep] at h
    split at h
    · cases h
      exact ⟨rfl, fun _ _ hwk => hwk, fun _ => .inl, by rintro - (hph | hph) <;> cases hph⟩
    · cases h
  | sleep place =>
    simp only [dispatchStep] at h
    split at h
    · cases h
      exact .restart
    · cases h
  | cancel place =>
    cases h
    exact .finish fun _ _ hwk => hwk
  | _ => cases h

/-- A step of one dispatch keeps the state quiet. -/
theorem Quiet.onDispatch (hquiet : s.Quiet) {place : ℕ}
    (h : s.onDispatch place action = some s') : s'.Quiet := by
  obtain ⟨dispatch, hdisp, h⟩ := Option.bind_eq_some_iff.mp h
  obtain ⟨⟨dispatch', registry'⟩, hstep, rfl⟩ := Option.map_eq_some_iff.mp h
  have hmem : dispatch ∈ s.dispatches := List.mem_of_getElem? hdisp
  have spec := dispatchStep_spec hstep
  refine ⟨fun workerId finished hfin => ?_, fun other hother entry hent =>
      ?_, fun other hother hph => ?_, ?_⟩
  · exact (hquiet.finished_lt workerId finished hfin).trans (Nat.lt_succ_self _)
  · rcases List.mem_or_eq_of_mem_set hother with hother | rfl
    · exact (hquiet.looked_lt other hother entry hent).trans (Nat.lt_succ_self _)
    · rcases spec.looked entry hent with hent | hent
      · exact (hquiet.looked_lt dispatch hmem entry hent).trans (Nat.lt_succ_self _)
      · exact hent ▸ Nat.lt_succ_self _
  · rcases List.mem_or_eq_of_mem_set hother with hother | rfl
    · exact hquiet.idle other hother hph
    · exact spec.idle (hquiet.idle dispatch hmem) hph
  · intro other hother worker finished hwk hfin entry hent hlt
    have hbef := spec.workers _ _ hwk
    rcases List.mem_or_eq_of_mem_set hother with hother | rfl
    · exact hquiet.unserved other hother worker finished hbef hfin entry hent hlt
    · rcases spec.looked entry hent with hent | hent
      · unfold Dispatch.Matches
        rw [spec.key]
        exact hquiet.unserved dispatch hmem worker finished hbef hfin entry hent hlt
      · -- A lookup of now comes after every registration that was finished.
        have := hquiet.finished_lt worker.id finished hfin
        omega

/-- A wakeup at the right time keeps the state quiet. -/
theorem Quiet.notify (hquiet : s.Quiet) {registration : ℕ}
    (htimely : s.Timely (.notify registration)) (h : s.step (.notify registration) = some s') :
    s'.Quiet := by
  obtain ⟨handle, hhandle, rfl⟩ := Option.map_eq_some_iff.mp h
  have hold : ∀ dispatch ∈ s.dispatches.map fun dispatch => if dispatch.phase = .waiting then
    dispatch.restart else dispatch,
      dispatch.looked = [] ∨ dispatch ∈ s.dispatches ∧ dispatch.phase = .pass := by
    intro woken hwoken
    obtain ⟨dispatch, hdisp, rfl⟩ := List.mem_map.mp hwoken
    split_ifs with hph
    · exact .inl rfl
    · cases hpass : dispatch.phase with
      | pass => exact .inr ⟨hdisp, rfl⟩
      | waiting => exact absurd hpass hph
      | tiers => exact .inl (hquiet.idle dispatch hdisp (.inl hpass))
      | done => exact .inl (hquiet.idle dispatch hdisp (.inr hpass))
  refine ⟨fun workerId finished hfin => ?_, fun dispatch hdisp entry hent => ?_,
    fun dispatch hdisp hph => ?_, ?_⟩
  · simp only at hfin
    split_ifs at hfin
    · by_cases hwk : workerId = handle.id
      · subst hwk
        rw [Function.update_self, Option.some_inj] at hfin
        exact hfin ▸ Nat.lt_succ_self _
      · rw [Function.update_of_ne hwk] at hfin
        exact (hquiet.finished_lt workerId finished hfin).trans (Nat.lt_succ_self _)
    · exact (hquiet.finished_lt workerId finished hfin).trans (Nat.lt_succ_self _)
  · rcases hold dispatch hdisp with hnil | ⟨hdisp, -⟩
    · rw [hnil] at hent
      cases hent
    · exact (hquiet.looked_lt dispatch hdisp entry hent).trans (Nat.lt_succ_self _)
  · rcases hold dispatch hdisp with hnil | ⟨hdisp, -⟩
    · exact hnil
    · exact hquiet.idle dispatch hdisp hph
  · intro dispatch hdisp worker finished hwk hfin entry hent hlt
    rcases hold dispatch hdisp with hnil | ⟨hmem, hpass⟩
    · rw [hnil] at hent
      cases hent
    · simp only at hfin hwk
      by_cases hsame : worker.id = handle.id
      · by_cases hreg : s.registry.workers handle.id = some handle
        · obtain rfl : worker = handle := Option.some.inj (hwk.symm.trans (hsame ▸ hreg))
          exact htimely worker hhandle hreg dispatch hmem hpass entry hent
        · rw [if_neg hreg] at hfin
          exact hquiet.unserved dispatch hmem worker finished hwk hfin entry hent hlt
      · have hbef : s.finishedAt worker.id = some finished := by
          split_ifs at hfin
          · rwa [Function.update_of_ne hsame] at hfin
          · exact hfin
        exact hquiet.unserved dispatch hmem worker finished hwk hbef entry hent hlt

/-- Every step of a timely run keeps the state quiet. -/
theorem Quiet.step (hquiet : s.Quiet) (htimely : s.Timely action)
    (h : s.step action = some s') : s'.Quiet := by
  cases action with
  | insert namespaces taskQueue node activityTypes delivery =>
    cases h
    refine ⟨fun workerId finished hfin => ?_, fun dispatch hdisp entry hent => ?_, hquiet.idle, ?_⟩
    · simp only [Function.update_apply] at hfin
      split_ifs at hfin
      exact (hquiet.finished_lt workerId finished hfin).trans (Nat.lt_succ_self _)
    · exact (hquiet.looked_lt dispatch hdisp entry hent).trans (Nat.lt_succ_self _)
    · intro dispatch hdisp worker finished hwk hfin
      simp only [Function.update_apply] at hfin
      split_ifs at hfin with hnew
      refine hquiet.unserved dispatch hdisp worker finished ?_ hfin
      exact (Function.update_of_ne hnew _ _).symm.trans hwk
  | notify registration => exact hquiet.notify htimely h
  | deregister workerId =>
    cases h
    refine ⟨fun other finished hfin => ?_, fun dispatch hdisp entry hent => ?_, hquiet.idle, ?_⟩
    · exact (hquiet.finished_lt other finished hfin).trans (Nat.lt_succ_self _)
    · exact (hquiet.looked_lt dispatch hdisp entry hent).trans (Nat.lt_succ_self _)
    · intro dispatch hdisp worker finished hwk
      exact hquiet.unserved dispatch hdisp worker finished (removed_workers _ _ _ hwk)
  | begin namespace_ taskQueue activityType route =>
    cases h
    have hnew : ∀ dispatch ∈ s.dispatches ++ [.begin namespace_ taskQueue activityType route],
        dispatch ∈ s.dispatches ∨ dispatch.looked = [] := by
      intro dispatch hdisp
      rcases List.mem_append.mp hdisp with hdisp | hdisp
      · exact .inl hdisp
      · exact .inr (List.mem_singleton.mp hdisp ▸ rfl)
    refine ⟨fun other finished hfin => ?_, fun dispatch hdisp entry hent => ?_,
      fun dispatch hdisp hph => ?_, ?_⟩
    · exact (hquiet.finished_lt other finished hfin).trans (Nat.lt_succ_self _)
    · rcases hnew dispatch hdisp with hdisp | hnil
      · exact (hquiet.looked_lt dispatch hdisp entry hent).trans (Nat.lt_succ_self _)
      · rw [hnil] at hent
        cases hent
    · rcases hnew dispatch hdisp with hdisp | hnil
      · exact hquiet.idle dispatch hdisp hph
      · exact hnil
    · intro dispatch hdisp worker finished hwk hfin entry hent
      rcases hnew dispatch hdisp with hdisp | hnil
      · exact hquiet.unserved dispatch hdisp worker finished hwk hfin entry hent
      · rw [hnil] at hent
        cases hent
  | lookup place accepting => exact hquiet.onDispatch h
  | send place accepting delivered => exact hquiet.onDispatch h
  | spill place => exact hquiet.onDispatch h
  | wait place => exact hquiet.onDispatch h
  | sleep place => exact hquiet.onDispatch h
  | cancel place => exact hquiet.onDispatch h

end ArrivalState

open ArrivalState

/-- **No wakeup is lost** in a run in which each registration wakes the others at the right time. -/
theorem no_lost_wakeup {s : ArrivalState} (h : Reachable step Timely start s) : s.NoLostWakeup := by
  have hquiet : s.Quiet :=
    h.invariant (fun hquiet htimely hstep => hquiet.step htimely hstep) quiet_start
  exact fun dispatch hdisp _ => hquiet.unserved dispatch hdisp

/-- A registration that comes between the two steps of a dispatch. -/
def arrivalBetween : List ArrivalAction :=
  [.begin "default" "default" "charge" (dispatchToNode none), .spill 0, .lookup 0 true,
    .insert ["default"] "default" none ["charge"] .grpc, .notify 0, .wait 0]

/-- **A wakeup is lost**: the dispatch waits with a worker that serves it registered since its
lookup. -/
theorem lost_wakeup : ∃ s, Reachable step Always start s ∧ ¬ s.NoLostWakeup := by
  obtain ⟨s, hs⟩ : ∃ s, run step Always start arrivalBetween = some s := ⟨_, rfl⟩
  refine ⟨s, reachable_of_run hs, fun hnone => ?_⟩
  obtain rfl := Option.some.inj hs
  exact hnone _ List.mem_cons_self rfl ⟨1, ["default"], "default", none, ["charge"],
      .grpc⟩ 4 rfl rfl (none, 2)
    (by decide) (by decide) (by decide)

/-- A dispatch that already waits is woken, and one of another activity goes on to wait. -/
theorem no_lost_wakeup_waiting :
    ∃ s : ArrivalState, s.NoLostWakeup ∧ s.dispatches.map Dispatch.phase = [.pass, .waiting] := by
  obtain ⟨s, hs⟩ : ∃ s, run step Timely start [.begin "default" "default" "charge"
      (dispatchToNode none), .spill 0,
      .lookup 0 true, .wait 0, .begin "default" "default" "refund" (selectWorkerOrWait none), .spill 1, .lookup 1 true,
      .insert ["default"] "default" none ["charge"] .grpc, .notify 0, .wait 1] = some s := ⟨_, rfl⟩
  refine ⟨s, no_lost_wakeup (reachable_of_run hs), ?_⟩
  obtain rfl := Option.some.inj hs
  rfl

end Aion
