import Aion.Core.Event
import Aion.Library.Actions
import Aion.Worker.Registry

/-!
# Dispatches that block on a worker

`bridge.rs` and `heartbeat.rs`. A dispatch enters the map of pending activities, tracks its task,
sends it, checks that the worker is still registered and then blocks on its channel
(`dispatch_blocking`, `await_activity_result`). A sweep of a lost worker deregisters it, takes its
tasks out of the tracker and then resolves each through the map (`fail_lost_worker`,
`park_lost_worker`); a result that a worker reports takes its task out of the tracker and then
resolves it. Each of these is a step, and the steps come in any order; the engine has one dispatch
of an activity in flight at a time.
-/

namespace Aion

open Actions

/-- `PendingActivityKey`. -/
structure PendingActivityKey where
  workflowId : WorkflowId
  activityId : ActivityId
  deriving DecidableEq

/-! ### Completions -/

/-- What a completion reports. -/
inductive ActivityCompletionOutcome where
  | succeeded (payload : Payload)
  | failed (error : ActivityError)
  deriving DecidableEq

/-- `lost_worker_error`. -/
def lostWorkerError (workerId : WorkerId) : ActivityError where
  kind := .retryable
  message := "worker WorkerId(" ++ toString workerId ++ ") lost before reporting activity result"
  details := none

/-- `PARKED_ACTIVITY_REASON`. -/
def parkedActivityReason : String := "parked:server-draining"

/-- The result that `complete_activity` sends, unless the payload is no text. -/
def ActivityCompletionOutcome.result : ActivityCompletionOutcome → Option (Except String String)
  | .succeeded payload => (String.fromUTF8? ⟨payload.bytes.toArray⟩).map .ok
  | .failed error =>
    some (.error ((if error.isRetryable then "retryable" else "terminal") ++ ":" ++ error.message))

/-- What a result was made of. -/
inductive MessageSource where
  /-- The loss of a worker. -/
  | lost (workerId : WorkerId)
  /-- The drain. -/
  | parked
  /-- The report of a worker. -/
  | reported
  deriving DecidableEq

/-- A result on its way to a dispatch. -/
structure Message where
  source : MessageSource
  result : Except String String
  deriving DecidableEq

/-! ### Dispatches -/

/-- Where a dispatch stands. -/
inductive BridgePhase where
  /-- It has selected its worker. -/
  | selected
  /-- It is in the map of pending activities. -/
  | inserted
  /-- Its task is tracked. -/
  | tracked
  /-- The task is sent. -/
  | sent
  /-- The worker was not registered any more. -/
  | lost
  /-- It blocks on its channel. -/
  | waiting
  /-- It has received from its channel. -/
  | delivering (message : Message)
  /-- It gives up. -/
  | cleaning (reason : String)
  /-- It has returned. -/
  | returned (result : Except String String)
  deriving DecidableEq

/-- A dispatch, with what is in its channel. -/
structure BridgeDispatch where
  key : PendingActivityKey
  worker : WorkerId
  phase : BridgePhase
  channel : Option Message
  deriving DecidableEq

/-- It has not returned. -/
def BridgeDispatch.inFlight (dispatch : BridgeDispatch) : Bool :=
  match dispatch.phase with
  | .returned _ => false
  | _ => true

/-! ### Those that take tasks out of the tracker -/

/-- What is done with the tasks. -/
inductive TakerKind where
  /-- `fail_lost_worker`, and a reply router whose connection is lost. -/
  | fail
  /-- `park_lost_worker`. -/
  | park
  /-- A reported completion. -/
  | report (outcome : ActivityCompletionOutcome)
  deriving DecidableEq

/-- How far it is. -/
inductive TakerStage where
  /-- The worker is deregistered. -/
  | deregistered
  /-- These tasks are out of the tracker. -/
  | holding (keys : List PendingActivityKey)
  deriving DecidableEq

/-- A sweep of a worker, or the completion of a task of it. -/
structure Taker where
  worker : WorkerId
  kind : TakerKind
  stage : TakerStage
  deriving DecidableEq

/-- What it sends for each task. -/
def Taker.message (taker : Taker) : Option Message :=
  match taker.kind with
  | .fail =>
    (ActivityCompletionOutcome.failed (lostWorkerError taker.worker)).result.map fun result =>
      ⟨.lost taker.worker, result⟩
  | .park => some ⟨.parked, .error parkedActivityReason⟩
  | .report outcome => outcome.result.map fun result => ⟨.reported, result⟩

/-- Whether a task is in its hands. -/
def Taker.Holds (taker : Taker) (key : PendingActivityKey) : Prop :=
  ∃ keys, taker.stage = .holding keys ∧ key ∈ keys

/-! ### The system -/

/-- The registry, the tracker, the pending activities and those that work on them. -/
structure BridgeState where
  registry : RegistryState
  tasks : List (WorkerId × PendingActivityKey)
  /-- The dispatch, by its place, whose channel an entry sends to. -/
  pending : PendingActivityKey → Option ℕ
  dispatches : List BridgeDispatch
  takers : List Taker

/-- Nothing has happened. -/
def BridgeState.start : BridgeState := ⟨.empty, [], fun _ => none, [], []⟩

/-- The steps; a dispatch or a taker is named by its place. -/
inductive BridgeAction where
  /-- A worker registers. -/
  | register (namespaces : List String) (taskQueue : String) (node : Option String)
    (activityTypes : List String)
    (delivery : WorkerDelivery)
  /-- A dispatch selects a registered worker, while no other dispatch of the key is in flight. -/
  | begin (key : PendingActivityKey) (worker : WorkerId)
  /-- The server drains. -/
  | reject (dispatch : ℕ) (reason : String)
  /-- `PendingActivities::insert`. -/
  | insert (dispatch : ℕ)
  /-- `track_worker_task`. -/
  | track (dispatch : ℕ)
  /-- `send_activity_task`, which may fail. -/
  | send (dispatch : ℕ) (failure : Option String)
  /-- `is_registered`. -/
  | check (dispatch : ℕ)
  /-- `try_recv`, once the worker was found lost. -/
  | poll (dispatch : ℕ)
  /-- `recv`. -/
  | recv (dispatch : ℕ)
  /-- `deliver_result` or `cleanup_activity`, and the return. -/
  | finish (dispatch : ℕ)
  /-- A sweep deregisters a worker. -/
  | sweep (worker : WorkerId) (parks : Bool)
  /-- `remove_worker_tasks`. -/
  | collect (taker : ℕ)
  /-- The report of a result takes the task out of the tracker. -/
  | report (worker : WorkerId) (key : PendingActivityKey) (outcome : ActivityCompletionOutcome)
  /-- A reply router whose connection is lost takes the task out of the tracker, if it is there. -/
  | replyLost (worker : WorkerId) (key : PendingActivityKey)
  /-- The next task is resolved: `complete_activity` or `park_activity`. -/
  | resolve (taker : ℕ)
  deriving DecidableEq

namespace BridgeState

variable (s : BridgeState)

/-- The state with this dispatch in place. -/
def setDispatch (place : ℕ) (dispatch : BridgeDispatch) : BridgeState :=
  { s with dispatches := s.dispatches.set place dispatch }

/-- The state without a task in the tracker. -/
def untrack (worker : WorkerId) (key : PendingActivityKey) : BridgeState :=
  { s with tasks := s.tasks.filter fun task => task ≠ (worker, key) }

/-- The state without an entry for the key. -/
def unpend (key : PendingActivityKey) : BridgeState :=
  { s with pending := Function.update s.pending key none }

/-- One more that takes tasks. -/
def addTaker (taker : Taker) : BridgeState := { s with takers := s.takers ++ [taker] }

/-- A step of the dispatch at this place. -/
def dispatchStep (place : ℕ) (dispatch : BridgeDispatch) : BridgeAction → Option BridgeState
  | .reject _ reason =>
    if dispatch.phase = .selected then
      some (s.setDispatch place { dispatch with phase := .returned (.error reason) })
    else none
  | .insert _ =>
    if dispatch.phase = .selected then
      some { s.setDispatch place { dispatch with phase := .inserted } with
        pending := Function.update s.pending dispatch.key (some place) }
    else none
  | .track _ =>
    if dispatch.phase = .inserted then
      some { (s.untrack dispatch.worker dispatch.key).setDispatch place { dispatch with phase := .tracked } with
        tasks := (s.untrack dispatch.worker dispatch.key).tasks ++ [(dispatch.worker, dispatch.key)] }
    else none
  | .send _ failure =>
    if dispatch.phase = .tracked then
      match failure with
      | none => some (s.setDispatch place { dispatch with phase := .sent })
      | some error =>
        some (s.setDispatch place { dispatch with phase := .cleaning ("worker task channel full or closed: " ++ error) })
    else none
  | .check _ =>
    if dispatch.phase = .sent then
      if s.registry.isRegistered dispatch.worker then some (s.setDispatch place { dispatch with phase := .waiting })
      else some (s.setDispatch place { dispatch with phase := .lost })
    else none
  | .poll _ =>
    if dispatch.phase = .lost then
      match dispatch.channel with
      | some message => some (s.setDispatch place { dispatch with phase := .delivering message })
      | none =>
        let reason := "retryable:" ++ (lostWorkerError dispatch.worker).message
        some (s.setDispatch place { dispatch with phase := .cleaning reason })
    else none
  | .recv _ =>
    if dispatch.phase = .waiting then
      match dispatch.channel with
      | some message => some (s.setDispatch place { dispatch with phase := .delivering message })
      | none =>
        -- With its entry gone no one can send any more.
        if s.pending dispatch.key = some place then none
        else some (s.setDispatch place { dispatch with phase := .cleaning "activity response channel dropped" })
    else none
  | .finish _ =>
    match dispatch.phase with
    | .delivering message =>
      some ((s.unpend dispatch.key).setDispatch place { dispatch with phase := .returned message.result })
    | .cleaning reason =>
      some (((s.unpend dispatch.key).untrack dispatch.worker dispatch.key).setDispatch place
        { dispatch with phase := .returned (.error reason) })
    | _ => none
  | _ => none

/-- A step of the taker at this place. -/
def takerStep (place : ℕ) (taker : Taker) : BridgeAction → Option BridgeState
  | .collect _ =>
    if taker.stage = .deregistered then
      some { s with
        tasks := s.tasks.filter fun task => task.1 ≠ taker.worker
        takers := s.takers.set place { taker with
          stage := .holding ((s.tasks.filter fun task => task.1 = taker.worker).map Prod.snd) } }
    else none
  | .resolve _ =>
    match taker.stage with
    | .holding (key :: keys) =>
      let s' := { s with takers := s.takers.set place { taker with stage := .holding keys } }
      match taker.message with
      -- A payload that does not decode is an error before the map is touched.
      | none => some s'
      | some message =>
        match (s.pending key).bind fun dispatch => (s.dispatches[dispatch]?).map fun found => (dispatch, found) with
        | some (dispatch, found) => some ((s'.unpend key).setDispatch dispatch { found with channel := some message })
        | none => some s'
    | _ => none
  | _ => none

/-- One step. -/
def step : BridgeAction → Option BridgeState
  | .register namespaces taskQueue node activityTypes delivery =>
    some { s with registry := (s.registry.registerDelivery namespaces taskQueue node activityTypes delivery).2 }
  | .begin key worker =>
    if s.registry.isRegistered worker ∧ ∀ dispatch ∈ s.dispatches, dispatch.inFlight = true →
      dispatch.key ≠ key then
      some { s with dispatches := s.dispatches ++ [⟨key, worker, .selected, none⟩] }
    else none
  | .sweep worker parks =>
    some ({ s with registry := s.registry.removeWorker worker }.addTaker
      ⟨worker, if parks then .park else .fail, .deregistered⟩)
  | .report worker key outcome =>
    some ((s.untrack worker key).addTaker ⟨worker, .report outcome, .holding [key]⟩)
  | .replyLost worker key =>
    if (worker, key) ∈ s.tasks then some ((s.untrack worker key).addTaker ⟨worker, .fail, .holding [key]⟩) else none
  | .collect place => (s.takers[place]?).bind fun taker => s.takerStep place taker (.collect place)
  | .resolve place => (s.takers[place]?).bind fun taker => s.takerStep place taker (.resolve place)
  | .reject place reason =>
    (s.dispatches[place]?).bind fun dispatch => s.dispatchStep place dispatch (.reject place reason)
  | .insert place =>
    (s.dispatches[place]?).bind fun dispatch => s.dispatchStep place dispatch (.insert place)
  | .track place =>
    (s.dispatches[place]?).bind fun dispatch => s.dispatchStep place dispatch (.track place)
  | .send place failure =>
    (s.dispatches[place]?).bind fun dispatch => s.dispatchStep place dispatch (.send place failure)
  | .check place =>
    (s.dispatches[place]?).bind fun dispatch => s.dispatchStep place dispatch (.check place)
  | .poll place =>
    (s.dispatches[place]?).bind fun dispatch => s.dispatchStep place dispatch (.poll place)
  | .recv place =>
    (s.dispatches[place]?).bind fun dispatch => s.dispatchStep place dispatch (.recv place)
  | .finish place =>
    (s.dispatches[place]?).bind fun dispatch => s.dispatchStep place dispatch (.finish place)

/-! ### What a step of a dispatch does -/

variable {s : BridgeState}

variable {dispatch dispatch' found : BridgeDispatch} {action : BridgeAction} {s' : BridgeState}
  {key other : PendingActivityKey} {place : ℕ}

theorem dispatches_set_iff {other : ℕ} (h : s.dispatches[place]? = some dispatch) :
    (s.dispatches.set place dispatch')[other]? = some found ↔
      (other = place ∧ found = dispatch') ∨
      (other ≠ place ∧ s.dispatches[other]? = some found) := by
  have hlt : place < s.dispatches.length := (List.getElem?_eq_some_iff.mp h).1
  rw [List.getElem?_set]
  by_cases hplace : place = other
  · subst hplace
    simp [hlt, eq_comm]
  · simp [hplace, Ne.symm hplace]

theorem dispatches_append_iff :
    (s.dispatches ++ [dispatch])[place]? = some found ↔
      s.dispatches[place]? = some found ∨ place = s.dispatches.length ∧ found = dispatch := by
  rcases Nat.lt_trichotomy place s.dispatches.length with hlt | rfl | hlt
  · rw [List.getElem?_append_left hlt]
    exact (or_iff_left fun h => absurd h.1 (by omega)).symm
  · simp [eq_comm]
  · simp [List.getElem?_eq_none (show (s.dispatches ++ [dispatch]).length ≤ place by simp; omega),
      List.getElem?_eq_none (show s.dispatches.length ≤ place by omega), show place ≠ s.dispatches.length by omega]

theorem pending_unpend_iff :
    (s.unpend key).pending other = some place ↔ other ≠ key ∧ s.pending other = some place := by
  by_cases hkey : other = key <;> simp [unpend, hkey]

theorem pending_insert_iff {found : ℕ} :
    Function.update s.pending key (some place) other = some found ↔
      (other = key ∧ found = place) ∨ (other ≠ key ∧ s.pending other = some found) := by
  by_cases hkey : other = key <;> simp [hkey, eq_comm]

/-- The phase a dispatch goes to by itself. -/
inductive GoesTo (s : BridgeState) (place : ℕ) (dispatch : BridgeDispatch) :
    BridgePhase → Prop where
  | rejected (h : dispatch.phase = .selected) (reason : String) :
    GoesTo s place dispatch (.returned (.error reason))
  | sent (h : dispatch.phase = .tracked) : GoesTo s place dispatch .sent
  | waiting (h : dispatch.phase = .sent) (hreg : s.registry.isRegistered dispatch.worker = true) :
    GoesTo s place dispatch .waiting
  | lost (h : dispatch.phase = .sent) : GoesTo s place dispatch .lost
  | delivering (h : dispatch.phase = .lost ∨ dispatch.phase = .waiting) {message : Message}
    (hchan : dispatch.channel = some message) : GoesTo s place dispatch (.delivering message)
  | cleaning (h : dispatch.phase = .tracked ∨ dispatch.phase = .lost ∨
      dispatch.phase = .waiting ∧ dispatch.channel = none ∧ s.pending dispatch.key ≠ some place) (reason : String) :
    GoesTo s place dispatch (.cleaning reason)

/-- The state a step of a dispatch leads to. -/
inductive DispatchMove (s : BridgeState) (place : ℕ) (dispatch : BridgeDispatch) :
    BridgeState → Prop where
  | goes {phase : BridgePhase} (h : GoesTo s place dispatch phase) :
    DispatchMove s place dispatch (s.setDispatch place { dispatch with phase := phase })
  | inserts (h : dispatch.phase = .selected) :
    DispatchMove s place dispatch { s.setDispatch place { dispatch with phase := .inserted } with
      pending := Function.update s.pending dispatch.key (some place) }
  | tracks (h : dispatch.phase = .inserted) {tasks : List (WorkerId × PendingActivityKey)}
    (htasks : ∀ task, task ∈ tasks ↔ task ∈ s.tasks ∨ task = (dispatch.worker, dispatch.key)) :
    DispatchMove s place dispatch { s.setDispatch place { dispatch with phase := .tracked } with tasks := tasks }
  | finishes (h : (∃ message, dispatch.phase = .delivering message) ∨ ∃ reason, dispatch.phase = .cleaning reason)
    {tasks : List (WorkerId × PendingActivityKey)} (hless : ∀ task ∈ tasks, task ∈ s.tasks)
    (hoths : ∀ task ∈ s.tasks, task.2 ≠ dispatch.key → task ∈ tasks) (result : Except String String) :
    DispatchMove s place dispatch { (s.unpend dispatch.key).setDispatch place { dispatch with phase := .returned result } with
      tasks := tasks }

theorem dispatchStep_move
    (h : s.dispatchStep place dispatch action = some s') : DispatchMove s place dispatch s' := by
  cases action with
  | reject _ reason =>
    simp only [dispatchStep] at h
    split at h
    · rename_i hph
      cases h
      exact .goes (.rejected hph reason)
    · cases h
  | insert _ =>
    simp only [dispatchStep] at h
    split at h
    · rename_i hph
      cases h
      exact .inserts hph
    · cases h
  | track _ =>
    simp only [dispatchStep] at h
    split at h
    · rename_i hph
      cases h
      refine .tracks hph fun task => ?_
      simp only [untrack, List.mem_append, List.mem_filter, List.mem_singleton, ne_eq, decide_not, Bool.not_eq_eq_eq_not,
        Bool.not_true, decide_eq_false_iff_not]
      tauto
    · cases h
  | send _ failure =>
    simp only [dispatchStep] at h
    split at h
    · rename_i hph
      cases failure with
      | none =>
        cases h
        exact .goes (.sent hph)
      | some error =>
        cases h
        exact .goes (.cleaning (.inl hph) _)
    · cases h
  | check _ =>
    simp only [dispatchStep] at h
    split at h
    · rename_i hph
      split at h
      · rename_i hreg
        cases h
        exact .goes (.waiting hph hreg)
      · cases h
        exact .goes (.lost hph)
    · cases h
  | poll _ =>
    simp only [dispatchStep] at h
    split at h
    · rename_i hph
      split at h
      · rename_i message hchan
        cases h
        exact .goes (.delivering (.inl hph) hchan)
      · cases h
        exact .goes (.cleaning (.inr (.inl hph)) _)
    · cases h
  | recv _ =>
    simp only [dispatchStep] at h
    split at h
    · rename_i hph
      split at h
      · rename_i message hchan
        cases h
        exact .goes (.delivering (.inr hph) hchan)
      · rename_i hchan
        split at h
        · cases h
        · rename_i hgone
          cases h
          exact .goes (.cleaning (.inr (.inr ⟨hph, hchan, hgone⟩)) _)
    · cases h
  | finish _ =>
    simp only [dispatchStep] at h
    split at h
    · rename_i message hph
      cases h
      exact .finishes (.inl ⟨message, hph⟩) (fun _ htask => htask) (fun _ htask _ => htask) _
    · rename_i reason hph
      cases h
      refine .finishes (.inr ⟨reason, hph⟩) (fun _ htask => List.mem_of_mem_filter htask) (fun task htask hkey => ?_) _
      refine List.mem_filter.mpr ⟨htask, decide_eq_true fun heq => hkey ?_⟩
      rw [heq]
    · cases h
  | _ => cases h

/-- The state with a taker in place. -/
def setTaker (s : BridgeState) (place : ℕ) (taker : Taker) : BridgeState :=
  { s with takers := s.takers.set place taker }

/-- The state a step of a taker leads to. -/
inductive TakerMove (s : BridgeState) (place : ℕ) (taker : Taker) : BridgeState → Prop where
  | collects (h : taker.stage = .deregistered) :
    TakerMove s place taker { s.setTaker place { taker with
        stage := .holding ((s.tasks.filter fun task => task.1 = taker.worker).map Prod.snd) } with
      tasks := s.tasks.filter fun task => task.1 ≠ taker.worker }
  | sends {key : PendingActivityKey} {keys : List PendingActivityKey}
    (h : taker.stage = .holding (key :: keys))
    {message : Message} (hmsg : taker.message = some message) {dispatch : ℕ} {found : BridgeDispatch}
    (hpend : s.pending key = some dispatch) (hfd : s.dispatches[dispatch]? = some found) :
    TakerMove s place taker (((s.setTaker place { taker with stage := .holding keys }).unpend key).setDispatch dispatch
      { found with channel := some message })
  | passes {key : PendingActivityKey} {keys : List PendingActivityKey}
    (h : taker.stage = .holding (key :: keys))
    (hnone : taker.message = none ∨ ∀ dispatch found, s.pending key = some dispatch → s.dispatches[dispatch]? ≠ some found) :
    TakerMove s place taker (s.setTaker place { taker with stage := .holding keys })

theorem takerStep_move {taker : Taker}
    (h : s.takerStep place taker action = some s') : TakerMove s place taker s' := by
  cases action with
  | collect _ =>
    simp only [takerStep] at h
    split at h
    · rename_i hstg
      cases h
      exact .collects hstg
    · cases h
  | resolve _ =>
    simp only [takerStep] at h
    split at h
    · rename_i key keys hstg
      split at h
      · rename_i hmsg
        cases h
        exact .passes hstg (.inl hmsg)
      · rename_i message hmsg
        split at h
        · rename_i dispatch found hfd
          cases h
          obtain ⟨place', hpend, hmap⟩ := Option.bind_eq_some_iff.mp hfd
          obtain ⟨other, hother, heq⟩ := Option.map_eq_some_iff.mp hmap
          obtain ⟨rfl, rfl⟩ := Prod.mk.inj heq
          exact .sends hstg hmsg hpend hother
        · rename_i hnone
          cases h
          refine .passes hstg (.inr fun dispatch found hpend hfd => ?_)
          simp [hpend, hfd] at hnone
    · cases h
  | _ => cases h

/-- What a step does, by what takes it. -/
inductive Moves (s : BridgeState) : BridgeAction → BridgeState → Prop where
  | registers {namespaces : List String} {taskQueue : String} {node : Option String}
    {activityTypes : List String}
    {delivery : WorkerDelivery} : Moves s (.register namespaces taskQueue node activityTypes delivery) { s with
      registry := (s.registry.registerDelivery namespaces taskQueue node activityTypes delivery).2 }
  | begins {key : PendingActivityKey}
    {worker : WorkerId} (hreg : s.registry.isRegistered worker = true)
    (hnone : ∀ dispatch ∈ s.dispatches, dispatch.inFlight = true → dispatch.key ≠ key) :
    Moves s (.begin key worker) { s with dispatches := s.dispatches ++ [⟨key, worker, .selected, none⟩] }
  | sweeps {worker : WorkerId} {parks : Bool} : Moves s (.sweep worker parks)
    ({ s with registry := s.registry.removeWorker worker }.addTaker ⟨worker, if parks then .park else .fail, .deregistered⟩)
  | reports {worker : WorkerId} {key : PendingActivityKey} {outcome : ActivityCompletionOutcome} :
    Moves s (.report worker key outcome) ((s.untrack worker key).addTaker ⟨worker, .report outcome, .holding [key]⟩)
  | replyLost {worker : WorkerId} {key : PendingActivityKey} (h : (worker, key) ∈ s.tasks) :
    Moves s (.replyLost worker key) ((s.untrack worker key).addTaker ⟨worker, .fail, .holding [key]⟩)
  | taker {place : ℕ} {taker : Taker} {action : BridgeAction}
    {s' : BridgeState} (h : s.takers[place]? = some taker)
    (hmove : TakerMove s place taker s') : Moves s action s'
  | dispatch {place : ℕ} {dispatch : BridgeDispatch} {action : BridgeAction} {s' : BridgeState}
    (h : s.dispatches[place]? = some dispatch) (hmove : DispatchMove s place dispatch s') : Moves s action s'

theorem step_moves (h : s.step action = some s') : Moves s action s' := by
  cases action with
  | register namespaces taskQueue node activityTypes delivery =>
    cases h
    exact .registers
  | begin key worker =>
    simp only [step] at h
    split at h
    · rename_i hguard
      cases h
      exact .begins hguard.1 hguard.2
    · cases h
  | sweep worker parks =>
    cases h
    exact .sweeps
  | report worker key outcome =>
    cases h
    exact .reports
  | replyLost worker key =>
    simp only [step] at h
    split at h
    · rename_i htracked
      cases h
      exact .replyLost htracked
    · cases h
  | collect place =>
    obtain ⟨taker, htaker, h⟩ := Option.bind_eq_some_iff.mp h
    exact .taker htaker (takerStep_move h)
  | resolve place =>
    obtain ⟨taker, htaker, h⟩ := Option.bind_eq_some_iff.mp h
    exact .taker htaker (takerStep_move h)
  | _ =>
    obtain ⟨dispatch, hdisp, h⟩ := Option.bind_eq_some_iff.mp h
    exact .dispatch hdisp (dispatchStep_move h)

/-! ### One dispatch of a key -/

/-- One dispatch of a key is in flight at a time, and every entry is of one in flight. -/
structure Ordered (s : BridgeState) : Prop where
  alone : ∀ (place other : ℕ) (dispatch found : BridgeDispatch),
    s.dispatches[place]? = some dispatch →
    s.dispatches[other]? = some found → dispatch.inFlight = true → found.inFlight = true →
      dispatch.key = found.key →
    place = other
  entry : ∀ (key : PendingActivityKey) (place : ℕ), s.pending key = some place →
    ∃ dispatch : BridgeDispatch,
    s.dispatches[place]? = some dispatch ∧ dispatch.key = key ∧ dispatch.inFlight = true ∧
      dispatch.phase ≠ .selected

theorem ordered_start : start.Ordered := ⟨by simp [start], by simp [start]⟩

/-- Nothing changes for the dispatches and the entries. -/
theorem Ordered.of_eq (h : s.Ordered) (hdispatches : s'.dispatches = s.dispatches)
    (hpend : s'.pending = s.pending) : s'.Ordered := by
  refine ⟨?_, ?_⟩
  · rw [hdispatches]
    exact h.alone
  · rw [hdispatches, hpend]
    exact h.entry

/-- A dispatch of the same key, in flight only if it was, in place of one. -/
theorem Ordered.alone_set (h : s.Ordered) (hdisp : s.dispatches[place]? = some dispatch)
    (hkey : dispatch'.key = dispatch.key)
    (hflight : dispatch'.inFlight = true → dispatch.inFlight = true) :
    ∀ (place' other : ℕ) (found found' : BridgeDispatch),
      (s.dispatches.set place dispatch')[place']? = some found →
      (s.dispatches.set place dispatch')[other]? = some found' → found.inFlight = true →
        found'.inFlight = true →
      found.key = found'.key → place' = other := by
  intro place' other found found' hfd hfd' hin hin' hsame
  rcases (dispatches_set_iff hdisp).mp hfd with ⟨rfl, rfl⟩ | ⟨-, hold⟩
  · rcases (dispatches_set_iff hdisp).mp hfd' with ⟨rfl, rfl⟩ | ⟨-, hold'⟩
    · rfl
    · exact h.alone _ _ _ _ hdisp hold' (hflight hin) hin' (hkey ▸ hsame)
  · rcases (dispatches_set_iff hdisp).mp hfd' with ⟨rfl, rfl⟩ | ⟨-, hold'⟩
    · exact h.alone _ _ _ _ hold hdisp hin (hflight hin') (hsame.trans hkey)
    · exact h.alone _ _ _ _ hold hold' hin hin' hsame

/-- A step of a dispatch keeps its key and its worker, and it is in flight only if it was. -/
theorem GoesTo.inFlight {phase : BridgePhase} (h : GoesTo s place dispatch phase) :
    dispatch.inFlight = true := by
  unfold BridgeDispatch.inFlight
  cases h with
  | rejected h => rw [h]
  | sent h => rw [h]
  | waiting h => rw [h]
  | lost h => rw [h]
  | delivering h => rcases h with h | h <;> rw [h]
  | cleaning h => rcases h with h | h | ⟨h, -⟩ <;> rw [h]

/-- A step of the dispatch of an entry: the entry stays with it, and others stay where they are. -/
theorem Ordered.entry_set (h : s.Ordered) (hdisp : s.dispatches[place]? = some dispatch)
    (hkey : dispatch'.key = dispatch.key) {found : ℕ} (hpend : s.pending key = some found)
    (hstays : found = place → dispatch'.inFlight = true ∧ dispatch'.phase ≠ .selected) :
    ∃ other : BridgeDispatch, (s.dispatches.set place dispatch')[found]? = some other ∧
      other.key = key ∧
      other.inFlight = true ∧ other.phase ≠ .selected := by
  obtain ⟨other, hother, hsame, hin, hph⟩ := h.entry key found hpend
  by_cases hplace : found = place
  · subst hplace
    obtain rfl : dispatch = other := Option.some.inj (hdisp.symm.trans hother)
    exact ⟨dispatch', (dispatches_set_iff hdisp).mpr (.inl ⟨rfl, rfl⟩), hkey.trans hsame, hstays rfl⟩
  · exact ⟨other, (dispatches_set_iff hdisp).mpr (.inr ⟨hplace, hother⟩), hsame, hin, hph⟩

theorem Ordered.step (hord : s.Ordered) (h : s.step action = some s') : s'.Ordered := by
  cases step_moves h with
  | registers => exact hord.of_eq rfl rfl
  | begins hreg hnone =>
    refine ⟨fun place other dispatch found hdisp hfd hin hin' hsame => ?_, fun key place hpend => ?_⟩
    · rcases dispatches_append_iff.mp hdisp with hdisp | ⟨rfl, rfl⟩
      · rcases dispatches_append_iff.mp hfd with hfd | ⟨rfl, rfl⟩
        · exact hord.alone _ _ _ _ hdisp hfd hin hin' hsame
        · exact absurd hsame (hnone dispatch (List.mem_of_getElem? hdisp) hin)
      · rcases dispatches_append_iff.mp hfd with hfd | ⟨rfl, rfl⟩
        · exact absurd hsame.symm (hnone found (List.mem_of_getElem? hfd) hin')
        · rfl
    · obtain ⟨dispatch, hdisp, hrest⟩ := hord.entry key place hpend
      exact ⟨dispatch, dispatches_append_iff.mpr (.inl hdisp), hrest⟩
  | sweeps => exact hord.of_eq rfl rfl
  | reports => exact hord.of_eq rfl rfl
  | replyLost => exact hord.of_eq rfl rfl
  | taker htaker hmove =>
    cases hmove with
    | collects => exact hord.of_eq rfl rfl
    | passes => exact hord.of_eq rfl rfl
    | @sends key keys hstg message hmsg place found hpend hfd =>
      obtain ⟨other, hother, hsame, hin, hph⟩ := hord.entry key place hpend
      obtain rfl : found = other := Option.some.inj (hfd.symm.trans hother)
      refine ⟨hord.alone_set hfd rfl fun h => h, fun key' place' hpend' => ?_⟩
      obtain ⟨-, hbef⟩ := pending_unpend_iff.mp hpend'
      exact hord.entry_set hfd (by rfl) hbef fun _ => ⟨hin, hph⟩
  | @dispatch place dispatch _ _ hdisp hmove =>
    cases hmove with
    | @goes phase hgoes =>
      refine ⟨hord.alone_set hdisp rfl fun _ => hgoes.inFlight, fun key found hpend => ?_⟩
      refine hord.entry_set hdisp (by rfl) hpend fun hplace => ?_
      obtain ⟨other, hother, -, -, hph⟩ := hord.entry key found hpend
      subst hplace
      obtain rfl : dispatch = other := Option.some.inj (hdisp.symm.trans hother)
      cases hgoes with
      | rejected hsel => exact absurd hsel hph
      | _ => exact ⟨rfl, by simp⟩
    | inserts hph =>
      have hin : dispatch.inFlight = true := by rw [BridgeDispatch.inFlight, hph]
      refine ⟨hord.alone_set hdisp rfl fun _ => hin, fun key found hpend => ?_⟩
      rcases pending_insert_iff.mp hpend with ⟨rfl, rfl⟩ | ⟨-, hbef⟩
      · exact ⟨_, (dispatches_set_iff hdisp).mpr (.inl ⟨rfl, rfl⟩), rfl, rfl, by simp⟩
      · exact hord.entry_set hdisp (by rfl) hbef fun _ => ⟨rfl, by simp⟩
    | tracks hph htasks =>
      have hin : dispatch.inFlight = true := by rw [BridgeDispatch.inFlight, hph]
      refine ⟨hord.alone_set hdisp rfl fun _ => hin, fun key found hpend => ?_⟩
      exact hord.entry_set hdisp (by rfl) hpend fun _ => ⟨rfl, by simp⟩
    | finishes hph hless hoths result =>
      refine ⟨hord.alone_set hdisp rfl (fun hin => by cases hin), fun key found hpend => ?_⟩
      obtain ⟨hne, hbef⟩ := pending_unpend_iff.mp hpend
      refine hord.entry_set hdisp (by rfl) hbef fun hplace => absurd ?_ hne
      obtain ⟨other, hother, hsame, -, -⟩ := hord.entry key found hbef
      subst hplace
      obtain rfl : dispatch = other := Option.some.inj (hdisp.symm.trans hother)
      exact hsame.symm

end BridgeState

end Aion
