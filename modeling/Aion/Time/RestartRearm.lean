import Aion.Core.TimerMarks
import Aion.Library.FiniteMaps
import Aion.Time.TimerRecovery

/-!
# The timers a restart arms

At startup the recovery schedules the timers of the active workflows that are still to come
(`rearm_future_from_active_histories`, `time/recovery.rs`). It goes through whole histories, where
the liveness that fires and cancellations ask for is that of the active run
(`live_timers_in_active_segment`). In both scans the last event of a timer decides.

They part on chains: a timer that an earlier run left outstanding is armed again, unless the active
run has an event of it. `rearmed_exact_iff` says that this is the only difference, and
`continued_sleep_rearmed` is such a chain.
-/

namespace Aion

open Interleaving Scan FiniteMaps

/-! ### What the scans find -/

/-- The active run's events. -/
def activeSegment (history : List Event) : List Event := fromLast isWorkflowStarted history

/-- The events before the active run. -/
def earlierRuns (history : List Event) : List Event :=
  history.take ((rposition isWorkflowStarted history).getD 0)

theorem earlierRuns_append_activeSegment (history : List Event) :
    earlierRuns history ++ activeSegment history = history :=
  List.take_append_drop _ _

/-- The instant a mark leaves a timer armed for. -/
def TimerMark.armedFor? : TimerMark → Option Instant
  | .started fireAt => some fireAt
  | _ => none

theorem TimerMark.armedFor?_eq_some_iff {mark : TimerMark} {fireAt : Instant} :
    mark.armedFor? = some fireAt ↔ mark = .started fireAt := by
  cases mark <;> simp [armedFor?]

section Scans

variable {timerId : TimerId} {fireAt now : Instant} {events history : List Event}

theorem lookup_outstandingStep (outstanding : Map TimerId Instant) (event : Event) :
    (outstandingStep outstanding event).lookup timerId =
      ((timerMark? timerId event).map TimerMark.armedFor?).getD (outstanding.lookup timerId) := by
  obtain ⟨envelope, body⟩ := event
  cases body with
  | timerStarted started fireAt =>
    rw [outstandingStep, lookup_insert_eq]
    by_cases hid : started = timerId
    · simp [timerMark?, hid, TimerMark.armedFor?]
    · simp [timerMark?, hid, Ne.symm hid]
  | timerFired fired =>
    rw [outstandingStep, lookup_erase_eq]
    by_cases hid : fired = timerId
    · simp [timerMark?, hid, TimerMark.armedFor?]
    · simp [timerMark?, hid, Ne.symm hid]
  | timerCancelled cancelled cause =>
    rw [outstandingStep, lookup_erase_eq]
    by_cases hid : cancelled = timerId
    · simp [timerMark?, hid, TimerMark.armedFor?]
    · simp [timerMark?, hid, Ne.symm hid]
  | _ => rfl

theorem mem_liveStep_eq (live : List TimerId) (event : Event) :
    decide (timerId ∈ liveStep live event) =
      ((timerMark? timerId event).map fun mark => mark.armedFor?.isSome).getD
        (decide (timerId ∈ live)) := by
  rw [Bool.eq_iff_iff, decide_eq_true_iff, mem_liveStep]
  obtain ⟨envelope, body⟩ := event
  cases body with
  | timerStarted started fireAt =>
    by_cases hid : started = timerId <;> simp [timerMark?, startsTimer, settlesTimer, hid, TimerMark.armedFor?]
  | timerFired fired =>
    by_cases hid : fired = timerId <;> simp [timerMark?, startsTimer, settlesTimer, hid, TimerMark.armedFor?]
  | timerCancelled cancelled cause =>
    by_cases hid : cancelled = timerId <;> simp [timerMark?, startsTimer, settlesTimer, hid, TimerMark.armedFor?]
  | _ => simp [timerMark?, startsTimer, settlesTimer]

theorem newest_map {β : Type} (f : TimerMark → β) (events : List Event) :
    newest (fun event => (timerMark? timerId event).map f) events =
      (newest (timerMark? timerId) events).map f := by
  induction events using List.reverseRecOn with
  | nil => rfl
  | append_singleton events event ih =>
    rw [newest_concat, newest_concat, ih]
    cases timerMark? timerId event <;> rfl

/-- A timer is outstanding when its last event is a start, and for the instant of that start. -/
theorem lookup_outstanding_iff :
    (events.foldl outstandingStep ∅).lookup timerId = some fireAt ↔
      newest (timerMark? timerId) events = some (.started fireAt) := by
  have hread := @read_foldl _ _ _ outstandingStep (fun outstanding : Map TimerId Instant => outstanding.lookup timerId) _
    lookup_outstandingStep events ∅
  rw [newest_map, AList.lookup_empty] at hread
  rw [hread]
  cases newest (timerMark? timerId) events with
  | none => simp
  | some mark => exact TimerMark.armedFor?_eq_some_iff.trans (by simp)

/-- A timer is live when its last event in the active run is a start. -/
theorem mem_liveTimers_iff_newest : timerId ∈ liveTimersInActiveSegment history ↔
    ∃ fireAt, newest (timerMark? timerId) (activeSegment history) = some (.started fireAt) := by
  have hread := @read_foldl _ _ _ liveStep (fun live : List TimerId => decide (timerId ∈ live)) _ mem_liveStep_eq
    (activeSegment history) []
  rw [newest_map] at hread
  show timerId ∈ (activeSegment history).foldl liveStep [] ↔ _
  rw [← decide_eq_true_iff (p := timerId ∈ (activeSegment history).foldl liveStep []), hread]
  cases newest (timerMark? timerId) (activeSegment history) with
  | none => simp
  | some mark => cases mark <;> simp [TimerMark.armedFor?]

theorem mem_outstandingFutureTimers_iff : (timerId, fireAt) ∈ outstandingFutureTimers history now ↔
    newest (timerMark? timerId) history = some (.started fireAt) ∧ now < fireAt := by
  rw [outstandingFutureTimers, List.mem_filter, decide_eq_true_iff, ← lookup_outstanding_iff]
  apply and_congr_left
  intro _
  constructor
  · intro hmem
    obtain ⟨⟨started, instant⟩, hent, heq⟩ := List.mem_map.mp hmem
    cases heq
    exact AList.mem_lookup_iff.mpr hent
  · intro hlook
    exact List.mem_map.mpr ⟨⟨timerId, fireAt⟩, AList.mem_lookup_iff.mp hlook, rfl⟩

theorem nodup_outstandingFutureTimers (history : List Event) (now : Instant) :
    ((outstandingFutureTimers history now).map Prod.fst).Nodup := by
  have hkeys : (((history.foldl outstandingStep ∅).entries.map fun entry => (entry.1, entry.2)).map Prod.fst).Nodup := by
    rw [List.map_map]
    exact (history.foldl outstandingStep ∅).nodupKeys
  exact hkeys.sublist (List.filter_sublist.map _)

end Scans

/-! ### What the recovery schedules -/

/-- The timer a call schedules, and for when. -/
def scheduledTimer? : TimerCall → Option (TimerKey × Instant)
  | .scheduleTimer key fireAt => some (key, fireAt)
  | _ => none

/-- Run alone, the call succeeds with this value and schedules these timers. -/
structure Schedules {α : Type} (program : TimerM α) (world : TimerWorld) (value : α)
    (scheduled : List (TimerKey × Instant)) (last : TimerWorld) : Prop where
  run : timerSteps.run program world = (.ok value, last)
  scheduled : (timerSteps.requests program world).filterMap scheduledTimer? = scheduled

namespace Schedules

variable {α β : Type} {world middle last : TimerWorld} {scheduled later : List (TimerKey × Instant)}

theorem pure (value : α) (world : TimerWorld) : Schedules (Pure.pure value) world value [] world :=
  ⟨rfl, rfl⟩

theorem call (request : TimerCall) (world : TimerWorld) :
    Schedules (TimerM.call request) world (world.serve request).1 (scheduledTimer? request).toList
      (world.serve request).2 where
  run := rfl
  scheduled := by
    show [request].filterMap scheduledTimer? = _
    cases hsched : scheduledTimer? request <;> simp [hsched]

theorem bind {first : TimerM α} {f : α → TimerM β} {value : α} {value' : β}
    (h : Schedules first world value scheduled middle)
    (hf : Schedules (f value) middle value' later last) :
    Schedules (first >>= f) world value' (scheduled ++ later) last where
  run := by
    refine (timerSteps.run_bind first _ world).trans ?_
    rw [h.run]
    exact hf.run
  scheduled := by
    refine (congrArg (List.filterMap scheduledTimer?) (timerSteps.requests_bind first _ world)).trans ?_
    rw [List.filterMap_append, h.scheduled, h.run]
    exact congrArg (scheduled ++ ·) hf.scheduled

end Schedules

/-- The same histories and the same handles. -/
def SameRuns (world world' : TimerWorld) : Prop :=
  world'.store = world.store ∧ world'.registry = world.registry

theorem SameRuns.trans {world world' world'' : TimerWorld} (h : SameRuns world world')
    (h' : SameRuns world' world'') : SameRuns world world'' := ⟨h'.1.trans h.1, h'.2.trans h.2⟩

/-- A timer is scheduled once; the process of a registered handle is there to be armed. -/
theorem schedules_schedule (world : TimerWorld) (workflowId : WorkflowId) (timerId : TimerId)
    (fireAt : Instant) :
    ∃ last, Schedules (TimerService.schedule workflowId timerId fireAt) world
      () [((workflowId, timerId), fireAt)] last ∧
      SameRuns world last := by
  have hrow := Schedules.call (.scheduleTimer (workflowId, timerId) fireAt) world
  have hresv : Schedules (TimerM.call (.resolveWorkflow workflowId))
    (world.scheduleTimer (workflowId, timerId) fireAt)
      (world.resolveWorkflow workflowId) [] (world.scheduleTimer (workflowId, timerId) fireAt) := Schedules.call _ _
  cases hfind : world.registry.find? (·.workflowId = workflowId) with
  | none =>
    have hunk : world.resolveWorkflow workflowId = .unknown := by
      rw [TimerWorld.resolveWorkflow, hfind]
    rw [hunk] at hresv
    exact ⟨_, hrow.bind (hresv.bind (.pure () _)), rfl, rfl⟩
  | some handle =>
    by_cases hres : handle.resident
    · have hfd : world.resolveWorkflow workflowId = .resident ⟨handle.pid⟩ := by
        rw [TimerWorld.resolveWorkflow, hfind]
        exact if_pos hres
      rw [hfd] at hresv
      -- the handle it was resolved to is one with its pid
      obtain ⟨armed, harmed⟩ : ∃ armed, (world.scheduleTimer (workflowId, timerId) fireAt).registry.find?
          (·.pid = handle.pid) = some armed := by
        rw [← Option.isSome_iff_exists, List.find?_isSome]
        exact ⟨handle, List.mem_of_find?_eq_some hfind, by simp⟩
      have harm := Schedules.call (.armTimer ⟨handle.pid⟩ timerId fireAt) (world.scheduleTimer (workflowId, timerId) fireAt)
      have hserve : (world.scheduleTimer (workflowId, timerId) fireAt).armTimer ⟨handle.pid⟩ timerId fireAt =
          (.ok (), { world.scheduleTimer (workflowId, timerId) fireAt with
            pendingTimers := world.pendingTimers.insert (handle.pid, timerId)
              ⟨world.nextTimerGeneration, armed.workflowId, fireAt⟩
            nextTimerGeneration := world.nextTimerGeneration + 1 }) := by
        rw [TimerWorld.armTimer, harmed]
        rfl
      change Schedules _ _ (TimerWorld.armTimer _ _ _ _).1 [] (TimerWorld.armTimer _ _ _ _).2 at harm
      rw [hserve] at harm
      exact ⟨_, hrow.bind (hresv.bind (harm.bind (.pure () _))), rfl, rfl⟩
    · have hnonResident : world.resolveWorkflow workflowId = .nonResident := by
        rw [TimerWorld.resolveWorkflow, hfind]
        exact if_neg hres
      rw [hnonResident] at hresv
      exact ⟨_, hrow.bind (hresv.bind (.pure () _)), rfl, rfl⟩

/-- What a loop schedules, when each round only schedules. -/
theorem schedules_forM {ι : Type} {f : ι → TimerM Unit} {timers : ι → List (TimerKey × Instant)}
    {base : TimerWorld}
    (hf : ∀ item world, SameRuns base world →
        ∃ last, Schedules (f item) world () (timers item) last ∧ SameRuns world last)
    (items : List ι) {world : TimerWorld} (hworld : SameRuns base world) :
    ∃ last, Schedules (items.forM f) world () (items.flatMap timers) last ∧
      SameRuns world last := by
  induction items generalizing world with
  | nil => exact ⟨world, .pure () world, rfl, rfl⟩
  | cons item items ih =>
    obtain ⟨middle, hfst, hmid⟩ := hf item world hworld
    obtain ⟨last, hrest, hlast⟩ := ih (hworld.trans hmid)
    exact ⟨last, hfst.bind hrest, hmid.trans hlast⟩

/-- What the recovery schedules. -/
def rescheduled (env : RecoveryEnvironment) (now : Instant) (world : TimerWorld) :
    List (TimerKey × Instant) :=
  (timerSteps.requests (rearmFutureFromActiveHistories env now) world).filterMap scheduledTimer?

/-- What it schedules for a workflow. -/
def rescheduledFor (env : RecoveryEnvironment) (now : Instant) (world : TimerWorld)
    (workflowId : WorkflowId) : List (TimerId × Instant) :=
  (rescheduled env now world).filterMap fun timer => if timer.1.1 = workflowId then
    some (timer.1.2, timer.2) else none

section Rearm

variable {env : RecoveryEnvironment} {now : Instant} {world : TimerWorld} {workflowId : WorkflowId}

/-- The recovery goes through the active workflows, and for each through its outstanding timers. -/
theorem rescheduled_eq (env : RecoveryEnvironment) (now : Instant) (world : TimerWorld) :
    rescheduled env now world = world.listActive.flatMap fun workflowId =>
      (env.arrange (outstandingFutureTimers (world.store.readHistory workflowId) now)).map
        fun timer => ((workflowId, timer.1), timer.2) := by
  have hround : ∀ workflowId middle, SameRuns world middle → ∃ last,
      Schedules (do
        let history ← TimerM.call (.readHistory workflowId)
        (env.arrange (outstandingFutureTimers history now)).forM fun timer => TimerService.schedule workflowId timer.1 timer.2)
        middle () ((env.arrange (outstandingFutureTimers (world.store.readHistory workflowId) now)).map fun timer =>
          ((workflowId, timer.1), timer.2)) last ∧ SameRuns middle last := by
    intro workflowId middle hmid
    have hread : Schedules (TimerM.call (.readHistory workflowId)) middle (world.store.readHistory workflowId) [] middle := by
      rw [← hmid.1]
      exact .call _ middle
    obtain ⟨last, htimers, hlast⟩ := schedules_forM
      (fun timer world _ => schedules_schedule world workflowId timer.1 timer.2)
      (env.arrange (outstandingFutureTimers (world.store.readHistory workflowId) now)) (⟨rfl, rfl⟩ : SameRuns middle middle)
    rw [← List.map_eq_flatMap] at htimers
    exact ⟨last, hread.bind htimers, hlast⟩
  obtain ⟨last, hall, -⟩ := schedules_forM hround world.listActive ⟨rfl, rfl⟩
  exact ((Schedules.call .listActive world).bind hall).scheduled

theorem nodup_listActive (world : TimerWorld) : world.listActive.Nodup := by
  rw [TimerWorld.listActive, (List.perm_insertionSort _ _).nodup_iff]
  have hkeys : (world.store.histories.entries.map (·.1)).Nodup := world.store.histories.nodupKeys
  exact hkeys.sublist (List.filter_sublist.map _)

/-- Of what is listed under the keys of several workflows, a workflow finds its own again. -/
theorem filterMap_flatMap_tagged (timers : WorkflowId → List (TimerId × Instant))
    {ids : List WorkflowId} (hnd : ids.Nodup) (workflowId : WorkflowId) :
    (ids.flatMap fun id => (timers id).map fun timer =>
        (((id, timer.1), timer.2) : TimerKey × Instant)).filterMap
        (fun timer => if timer.1.1 = workflowId then some (timer.1.2, timer.2) else none) =
      if workflowId ∈ ids then timers workflowId else [] := by
  induction ids with
  | nil => rfl
  | cons id ids ih =>
    obtain ⟨hid, hids⟩ := List.nodup_cons.mp hnd
    rw [List.flatMap_cons, List.filterMap_append, ih hids, List.filterMap_map]
    by_cases heq : id = workflowId
    · subst heq
      rw [if_neg hid, if_pos List.mem_cons_self, List.append_nil]
      simp
    · simp [heq, Ne.symm heq]

theorem rescheduledFor_eq :
    rescheduledFor env now world workflowId =
    if workflowId ∈ world.listActive then
      env.arrange (outstandingFutureTimers (world.store.readHistory workflowId) now)
    else [] := by
  rw [rescheduledFor, rescheduled_eq]
  exact filterMap_flatMap_tagged (fun id =>
      env.arrange (outstandingFutureTimers (world.store.readHistory id) now))
    (nodup_listActive world) workflowId

/-- Each live timer of the active run that is still to come is armed once, for the instant of its
last start, and nothing else is. -/
structure RearmsLive (history : List Event) (now : Instant) (timers : List (TimerId × Instant)) :
    Prop where
  once : (timers.map Prod.fst).Nodup
  live : ∀ timerId fireAt, (timerId, fireAt) ∈ timers ↔
    timerId ∈ liveTimersInActiveSegment history ∧
      newest (startedFor? timerId) (activeSegment history) = some fireAt ∧ now < fireAt

/-- A timer that the earlier runs leave outstanding for an instant to come has an event in the
active run. -/
def TakenUp (history : List Event) (now : Instant) : Prop :=
  ∀ timerId fireAt, newest (timerMark? timerId) (earlierRuns history) = some (.started fireAt) →
    now < fireAt →
    ∃ event ∈ activeSegment history, (timerMark? timerId event).isSome

/-- **The timers a restart arms.** For an active workflow they are the live ones of its run if and
only if that run has taken up what the earlier ones left; for any other workflow there are none. -/
theorem rearmed_exact_iff (arranged : ∀ timers, (env.arrange timers).Perm timers)
    (world : TimerWorld) (workflowId : WorkflowId) :
    (workflowId ∈ world.listActive →
      (RearmsLive (world.store.readHistory workflowId) now
          (rescheduledFor env now world workflowId) ↔
        TakenUp (world.store.readHistory workflowId) now)) ∧
    (workflowId ∉ world.listActive → rescheduledFor env now world workflowId = []) := by
  rw [rescheduledFor_eq]
  refine ⟨fun active => ?_, fun inactive => if_neg inactive⟩
  rw [if_pos active]
  generalize world.store.readHistory workflowId = history
  have hperm := arranged (outstandingFutureTimers history now)
  have hmem : ∀ timerId fireAt, (timerId, fireAt) ∈ env.arrange
    (outstandingFutureTimers history now) ↔
      (newest (timerMark? timerId) (activeSegment history)).or (newest (timerMark? timerId) (earlierRuns history)) =
        some (.started fireAt) ∧ now < fireAt := by
    intro timerId fireAt
    rw [hperm.mem_iff, mem_outstandingFutureTimers_iff, ← newest_append,
      earlierRuns_append_activeSegment]
  constructor
  · intro h timerId fireAt hleft hfuture
    by_contra hnone
    push Not at hnone
    -- no event of the active run speaks of the timer, so the whole history has it outstanding
    have hquiet : newest (timerMark? timerId) (activeSegment history) = none :=
      newest_eq_none_iff.mpr fun event hev => Option.not_isSome_iff_eq_none.mp (hnone event hev)
    have harmed : (timerId, fireAt) ∈ env.arrange (outstandingFutureTimers history now) := by
      rw [hmem, hquiet, Option.none_or]
      exact ⟨hleft, hfuture⟩
    obtain ⟨instant, hlive⟩ := mem_liveTimers_iff_newest.mp ((h.live timerId fireAt).mp harmed).1
    rw [hquiet] at hlive
    cases hlive
  · intro htaken
    refine ⟨(hperm.map Prod.fst).nodup_iff.mpr (nodup_outstandingFutureTimers history now), fun timerId fireAt => ?_⟩
    rw [hmem]
    constructor
    · rintro ⟨hmark, hfuture⟩
      cases hact : newest (timerMark? timerId) (activeSegment history) with
      | none =>
        rw [hact, Option.none_or] at hmark
        obtain ⟨event, hev, hspeaks⟩ := htaken timerId fireAt hmark hfuture
        rw [newest_eq_none_iff.mp hact event hev] at hspeaks
        cases hspeaks
      | some mark =>
        rw [hact, Option.some_or] at hmark
        cases hmark
        exact ⟨mem_liveTimers_iff_newest.mpr ⟨fireAt, hact⟩, newest_startedFor?_of_started hact, hfuture⟩
    · rintro ⟨hlive, hstrt, hfuture⟩
      obtain ⟨instant, hact⟩ := mem_liveTimers_iff_newest.mp hlive
      rw [newest_startedFor?_of_started hact] at hstrt
      cases hstrt
      rw [hact, Option.some_or]
      exact ⟨rfl, hfuture⟩

end Rearm

/-- A world with this workflow alone. -/
def soleWorkflow (bodies : List EventBody) : TimerWorld :=
  { TimerWorld.empty with store := ⟨(∅ : Map WorkflowId (List Event)).insert ⟨0⟩ (numbered bodies),
      .empty⟩ }

/-- A run that sleeps until 100. -/
def pendingSleep : List EventBody :=
  [.workflowStarted "billing" .empty ⟨1⟩ none ⟨"v1"⟩, .timerStarted (.anonymous 0) 100]

/-- The sleep is armed again. -/
theorem rearmed_exact_iff_pendingSleep :
    rescheduledFor quickRecovery 7 (soleWorkflow pendingSleep) ⟨0⟩ = [(.anonymous 0, 100)] ∧
      RearmsLive ((soleWorkflow pendingSleep).store.readHistory ⟨0⟩) 7
        (rescheduledFor quickRecovery 7 (soleWorkflow pendingSleep) ⟨0⟩) := by
  have hearl : earlierRuns ((soleWorkflow pendingSleep).store.readHistory ⟨0⟩) = [] := by
    decide +kernel
  refine ⟨by decide +kernel, ((rearmed_exact_iff (fun _ => .refl _) _ _).1
      (by decide +kernel)).mpr ?_⟩
  rintro timerId fireAt hleft
  rw [hearl] at hleft
  cases hleft

/-- A run that does not wait for its sleep and continues as new. -/
def continuedSleep : List EventBody :=
  pendingSleep ++ [.workflowContinuedAsNew .empty none ⟨1⟩,
      .workflowStarted "billing" .empty ⟨2⟩ (some ⟨1⟩) ⟨"v1"⟩]

/-- The sleep of the first run is armed for the second, which has no timer. -/
theorem continued_sleep_rearmed :
    (⟨0⟩ : WorkflowId) ∈ (soleWorkflow continuedSleep).listActive ∧
      rescheduledFor quickRecovery 7 (soleWorkflow continuedSleep) ⟨0⟩ = [(.anonymous 0, 100)] ∧
      liveTimersInActiveSegment ((soleWorkflow continuedSleep).store.readHistory ⟨0⟩) = [] ∧
      ¬ RearmsLive ((soleWorkflow continuedSleep).store.readHistory ⟨0⟩) 7
        (rescheduledFor quickRecovery 7 (soleWorkflow continuedSleep) ⟨0⟩) := by
  have harmed : rescheduledFor quickRecovery 7 (soleWorkflow continuedSleep) ⟨0⟩ = [(.anonymous 0, 100)] := by decide +kernel
  have hlive : liveTimersInActiveSegment ((soleWorkflow continuedSleep).store.readHistory ⟨0⟩) = [] := by decide +kernel
  refine ⟨by decide +kernel, harmed, hlive, fun h => ?_⟩
  have hmem := ((h.live (.anonymous 0) 100).mp (by rw [harmed]; exact List.mem_cons_self)).1
  rw [hlive] at hmem
  cases hmem

end Aion
