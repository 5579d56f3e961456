import Aion.Worker.BridgeDispatch

/-!
# The failure of a lost worker

A sweep resolves the tasks of a lost worker by their key. The entry of the key in the map of pending
activities says neither which worker nor which attempt it is of, so a task that is still in the
hands of a sweep when the next attempt begins on another worker fails that attempt
(`failure_crosses`). The failures of a worker stay with its own dispatches in runs where an attempt
begins only when no task of the key is left over from another worker (`failure_reaches_its_own`);
the invariant is `Separated`.
-/

namespace Aion

open Actions

instance (taker : Taker) (key : PendingActivityKey) : Decidable (taker.Holds key) :=
  match hstg : taker.stage with
  | .deregistered => .isFalse fun ⟨_, hkeys, _⟩ => by rw [hstg] at hkeys; cases hkeys
  | .holding keys =>
    decidable_of_iff (key ∈ keys) ⟨fun hmem => ⟨keys, hstg, hmem⟩, fun ⟨_, hkeys, hmem⟩ => by
      rw [hstg] at hkeys
      exact TakerStage.holding.inj hkeys ▸ hmem⟩

namespace BridgeState

variable (s : BridgeState)

/-- When an attempt begins, no other worker has a task of the key, and no failure of one is under
way. -/
def Separate : BridgeAction → Prop
  | .begin key worker =>
    (∀ taker ∈ s.takers, taker.kind = .fail → taker.Holds key → taker.worker = worker) ∧
      ∀ task ∈ s.tasks, task.2 = key → task.1 = worker
  | _ => True

instance (action : BridgeAction) : Decidable (s.Separate action) := by
  cases action <;> simp only [Separate] <;> infer_instance

/-- What a dispatch receives, or is about to, for the loss of a worker. -/
def Receives (dispatch : BridgeDispatch) (worker : WorkerId) : Prop :=
  ∃ message : Message, message.source = .lost worker ∧
    (dispatch.channel = some message ∨ dispatch.phase = .delivering message)

/-- The failure of a worker is received by its own dispatches, and the next task of a sweep neither
resolves the entry of an attempt on another worker nor goes to the workflow while there is one. -/
structure ReachesItsOwn : Prop where
  received : ∀ dispatch ∈ s.dispatches, ∀ worker, Receives dispatch worker →
    dispatch.worker = worker
  resolved : ∀ taker ∈ s.takers, taker.kind = .fail →
    ∀ key keys, taker.stage = .holding (key :: keys) →
    ∀ place, s.pending key = some place → ∀ dispatch, s.dispatches[place]? = some dispatch →
      dispatch.worker = taker.worker
  delivered : ∀ taker ∈ s.takers, taker.kind = .fail →
    ∀ key keys, taker.stage = .holding (key :: keys) →
    s.pending key = none → ∀ dispatch ∈ s.dispatches, dispatch.inFlight = true →
      dispatch.key = key →
      dispatch.worker = taker.worker

/-! ### The invariant -/

/-- What holds of one dispatch. -/
structure Apart (dispatch : BridgeDispatch) : Prop where
  tasks : dispatch.inFlight = true → ∀ task ∈ s.tasks, task.2 = dispatch.key →
    task.1 = dispatch.worker
  takers : dispatch.inFlight = true → ∀ taker ∈ s.takers, taker.kind = .fail →
    taker.Holds dispatch.key →
    taker.worker = dispatch.worker
  received : ∀ worker, Receives dispatch worker → dispatch.worker = worker

/-- No dispatch has to do with the loss of another worker. -/
structure Separated : Prop where
  ordered : s.Ordered
  apart : ∀ (place : ℕ) (dispatch : BridgeDispatch), s.dispatches[place]? = some dispatch →
    s.Apart dispatch

variable {s}

theorem separated_start : start.Separated := ⟨ordered_start, by simp [start]⟩

theorem Separated.reachesItsOwn (h : s.Separated) : s.ReachesItsOwn := by
  refine ⟨fun dispatch hdisp => ?_, fun taker htaker hfail key keys hstg place hpend dispatch
      hdisp => ?_,
    fun taker htaker hfail key keys hstg _ dispatch hdisp hin hkey => ?_⟩
  · obtain ⟨place, hplace⟩ := List.mem_iff_getElem?.mp hdisp
    exact (h.apart place dispatch hplace).received
  · obtain ⟨other, hother, hkey, hin, -⟩ := h.ordered.entry key place hpend
    obtain rfl : dispatch = other := Option.some.inj (hdisp.symm.trans hother)
    exact ((h.apart place dispatch hdisp).takers hin taker htaker hfail
      ⟨_, hstg, hkey ▸ List.mem_cons_self⟩).symm
  · obtain ⟨place, hplace⟩ := List.mem_iff_getElem?.mp hdisp
    exact ((h.apart place dispatch hplace).takers hin taker htaker hfail ⟨_, hstg, hkey ▸ List.mem_cons_self⟩).symm

variable {key : PendingActivityKey} {worker : WorkerId}

/-- The message of a taker that says a worker is lost is of a sweep of that worker. -/
theorem message_lost {taker : Taker} {message : Message} (h : taker.message = some message)
    (hsrc : message.source = .lost worker) : taker.kind = .fail ∧ taker.worker = worker := by
  obtain ⟨_, kind, _⟩ := taker
  cases kind with
  | fail =>
    simp only [Taker.message, Option.map_eq_some_iff] at h
    obtain ⟨result, -, rfl⟩ := h
    exact ⟨rfl, MessageSource.lost.inj hsrc⟩
  | park =>
    obtain rfl := Option.some.inj h
    cases hsrc
  | report outcome =>
    simp only [Taker.message, Option.map_eq_some_iff] at h
    obtain ⟨result, -, rfl⟩ := h
    cases hsrc

/-- With no more tasks, and nothing more in the hands of sweeps than was there. -/
theorem Apart.mono {s' : BridgeState} {dispatch : BridgeDispatch} (h : s.Apart dispatch)
    (htasks : dispatch.inFlight = true → ∀ task ∈ s'.tasks, task.2 = dispatch.key →
        task.1 = dispatch.worker ∨ task ∈ s.tasks)
    (htakers : ∀ taker ∈ s'.takers, taker.kind = .fail → taker.Holds dispatch.key →
        (taker.worker, dispatch.key) ∈ s.tasks ∨ ∃ other ∈ s.takers, other.kind = .fail ∧
      other.worker = taker.worker ∧ other.Holds dispatch.key) : s'.Apart dispatch := by
  refine ⟨fun hin task htask hkey => ?_, fun hin taker htaker hfail hholds => ?_, h.received⟩
  · exact (htasks hin task htask hkey).elim (fun hwk => hwk) fun hbef => h.tasks hin task hbef hkey
  · rcases htakers taker htaker hfail hholds with htask | ⟨other, hother, hkind, hwk, hheld⟩
    · exact h.tasks hin _ htask rfl
    · exact hwk ▸ h.takers hin other hother hkind hheld

/-- A dispatch that goes on receives nothing but what is in its channel. -/
theorem Apart.moves {dispatch : BridgeDispatch} (h : s.Apart dispatch) {phase : BridgePhase}
    (hin : dispatch.inFlight = true)
    (hreceives : ∀ message, phase = .delivering message → dispatch.channel = some message) :
    s.Apart { dispatch with phase := phase } := by
  refine ⟨fun _ => h.tasks hin, fun _ => h.takers hin, fun worker hreceived => ?_⟩
  obtain ⟨message, hsrc, hmsg⟩ := hreceived
  refine h.received worker ⟨message, hsrc, .inl ?_⟩
  exact hmsg.elim (fun hchan => hchan) (hreceives message)

/-- The moves of a dispatch keep all of them apart. -/
theorem Separated.dispatch {s' : BridgeState} {place : ℕ} {dispatch : BridgeDispatch}
    (h : s.Separated) (hdisp : s.dispatches[place]? = some dispatch)
    (hmove : DispatchMove s place dispatch s') :
    ∀ (other : ℕ) (found : BridgeDispatch), s'.dispatches[other]? = some found →
      s'.Apart found := by
  intro other found hfd
  have hsame := h.apart place dispatch hdisp
  cases hmove with
  | @goes phase hgoes =>
    rcases (dispatches_set_iff hdisp).mp hfd with ⟨rfl, rfl⟩ | ⟨-, hfd⟩
    · refine (hsame.moves hgoes.inFlight fun message hph => ?_).mono (fun _ _ htask _ => .inr htask)
        fun taker htaker hfail hholds => .inr ⟨taker, htaker, hfail, rfl, hholds⟩
      subst hph
      cases hgoes with
      | delivering _ hchan => exact hchan
    · exact (h.apart other found hfd).mono (fun _ _ htask _ => .inr htask)
        fun taker htaker hfail hholds => .inr ⟨taker, htaker, hfail, rfl, hholds⟩
  | inserts hph =>
    have hin : dispatch.inFlight = true := by rw [BridgeDispatch.inFlight, hph]
    rcases (dispatches_set_iff hdisp).mp hfd with ⟨rfl, rfl⟩ | ⟨-, hfd⟩
    · exact (hsame.moves hin fun message hph => by cases hph).mono (fun _ _ htask _ => .inr htask)
        fun taker htaker hfail hholds => .inr ⟨taker, htaker, hfail, rfl, hholds⟩
    · exact (h.apart other found hfd).mono (fun _ _ htask _ => .inr htask)
        fun taker htaker hfail hholds => .inr ⟨taker, htaker, hfail, rfl, hholds⟩
  | tracks hph htasks =>
    have hin : dispatch.inFlight = true := by rw [BridgeDispatch.inFlight, hph]
    rcases (dispatches_set_iff hdisp).mp hfd with ⟨rfl, rfl⟩ | ⟨hne, hfd⟩
    · refine (hsame.moves hin fun message hph => by cases hph).mono (fun _ task htask _ => ?_)
        fun taker htaker hfail hholds => .inr ⟨taker, htaker, hfail, rfl, hholds⟩
      exact ((htasks task).mp htask).symm.imp (fun heq => by rw [heq]) fun hbef => hbef
    · refine (h.apart other found hfd).mono (fun hflight task htask hkey => .inr ?_)
        fun taker htaker hfail hholds => .inr ⟨taker, htaker, hfail, rfl, hholds⟩
      refine ((htasks task).mp htask).resolve_right fun heq => hne ?_
      exact h.ordered.alone _ _ _ _ hfd hdisp hflight hin (by rw [← hkey, heq])
  | finishes hph hless hoths result =>
    rcases (dispatches_set_iff hdisp).mp hfd with ⟨rfl, rfl⟩ | ⟨-, hfd⟩
    · refine (hsame.moves ?_ fun message hph => by cases hph).mono (fun _ task htask _ => .inr (hless task htask))
        fun taker htaker hfail hholds => .inr ⟨taker, htaker, hfail, rfl, hholds⟩
      rcases hph with ⟨_, hph⟩ | ⟨_, hph⟩ <;> rw [BridgeDispatch.inFlight, hph]
    · exact (h.apart other found hfd).mono (fun _ task htask _ => .inr (hless task htask))
        fun taker htaker hfail hholds => .inr ⟨taker, htaker, hfail, rfl, hholds⟩

/-- Once a taker is through with its next task, it holds no more than before. -/
theorem holds_of_pop {index : ℕ} {taker : Taker} (htaker : s.takers[index]? = some taker)
    {keys : List PendingActivityKey} (hstg : taker.stage = .holding (key :: keys))
    {key' : PendingActivityKey} {other : Taker}
    (hother : other ∈ s.takers.set index { taker with stage := .holding keys })
    (hfail : other.kind = .fail) (hholds : other.Holds key') :
    ∃ before ∈ s.takers, before.kind = .fail ∧ before.worker = other.worker ∧
      before.Holds key' := by
  rcases List.mem_or_eq_of_mem_set hother with hother | rfl
  · exact ⟨other, hother, hfail, rfl, hholds⟩
  · obtain ⟨held, hheld, hmem⟩ := hholds
    obtain rfl := TakerStage.holding.inj hheld
    exact ⟨taker, List.mem_of_getElem? htaker, hfail, rfl, _, hstg, List.mem_cons_of_mem _ hmem⟩

/-- The moves of a taker keep them apart. -/
theorem Separated.taker {s' : BridgeState} {index : ℕ} {taker : Taker} (h : s.Separated)
    (htaker : s.takers[index]? = some taker) (hmove : TakerMove s index taker s') :
    ∀ (other : ℕ) (found : BridgeDispatch), s'.dispatches[other]? = some found →
      s'.Apart found := by
  intro other found hfd
  cases hmove with
  | collects hstg =>
    refine (h.apart other found hfd).mono (fun _ task htask _ => .inr (List.mem_of_mem_filter htask)) ?_
    intro taken htaken hfail hholds
    rcases List.mem_or_eq_of_mem_set htaken with htaken | rfl
    · exact .inr ⟨taken, htaken, hfail, rfl, hholds⟩
    · obtain ⟨keys, hkeys, hmem⟩ := hholds
      obtain rfl := TakerStage.holding.inj hkeys
      obtain ⟨⟨worker, key⟩, htask, rfl⟩ := List.mem_map.mp hmem
      obtain ⟨htask, hwk⟩ := List.mem_filter.mp htask
      obtain rfl : worker = taker.worker := of_decide_eq_true hwk
      exact .inl htask
  | @sends key keys hstg message hmsg place dispatch hpend hdisp =>
    rcases (dispatches_set_iff hdisp).mp hfd with ⟨rfl, rfl⟩ | ⟨-, hfd⟩
    · have hsame := h.apart other dispatch hdisp
      obtain ⟨entered, hentered, hkey, hin, -⟩ := h.ordered.entry key other hpend
      obtain rfl : dispatch = entered := Option.some.inj (hdisp.symm.trans hentered)
      refine ⟨hsame.tasks, fun hflight taken htaken hfail hholds => ?_, fun worker hreceived => ?_⟩
      · obtain ⟨before, hbef, hkind, hwk, hheld⟩ := holds_of_pop htaker hstg htaken hfail hholds
        exact hwk ▸ hsame.takers hflight before hbef hkind hheld
      · obtain ⟨received, hsrc, hchan | hph⟩ := hreceived
        · obtain rfl : message = received := Option.some.inj hchan
          obtain ⟨hkind, hwk⟩ := message_lost hmsg hsrc
          refine ((hsame.takers hin taker (List.mem_of_getElem? htaker) hkind ⟨_, hstg, ?_⟩).symm).trans hwk
          exact hkey ▸ List.mem_cons_self
        · exact hsame.received worker ⟨received, hsrc, .inr hph⟩
    · exact (h.apart other found hfd).mono (fun _ _ htask _ => .inr htask)
        fun taken htaken hfail hholds => .inr (holds_of_pop htaker hstg htaken hfail hholds)
  | passes hstg hnone =>
    exact (h.apart other found hfd).mono (fun _ _ htask _ => .inr htask)
      fun taken htaken hfail hholds => .inr (holds_of_pop htaker hstg htaken hfail hholds)

/-- A new taker, of a task that was in the tracker. -/
theorem Apart.addTaker {dispatch : BridgeDispatch} (h : s.Apart dispatch)
    {kind : TakerKind} (htask : kind = .fail → (worker, key) ∈ s.tasks) :
    ((s.untrack worker key).addTaker ⟨worker, kind, .holding [key]⟩).Apart dispatch := by
  refine h.mono (fun _ task htask _ => .inr (List.mem_of_mem_filter htask))
    fun taker htaker hfail hholds => ?_
  rcases List.mem_append.mp htaker with htaker | htaker
  · exact .inr ⟨taker, htaker, hfail, rfl, hholds⟩
  · obtain rfl := List.mem_singleton.mp htaker
    obtain ⟨keys, hkeys, hmem⟩ := hholds
    obtain rfl := TakerStage.holding.inj hkeys
    exact .inl (List.mem_singleton.mp hmem ▸ htask hfail)

/-- **Every step** keeps the dispatches apart from the losses of other workers. -/
theorem Separated.step {s' : BridgeState} {action : BridgeAction} (h : s.Separated)
    (hseparate : s.Separate action) (hstep : s.step action = some s') : s'.Separated := by
  refine ⟨h.ordered.step hstep, fun place dispatch hdisp => ?_⟩
  cases step_moves hstep with
  | registers =>
    exact (h.apart place dispatch hdisp).mono (fun _ _ htask _ => .inr htask)
      fun taker htaker hfail hholds => .inr ⟨taker, htaker, hfail, rfl, hholds⟩
  | begins hreg hnone =>
    rcases dispatches_append_iff.mp hdisp with hdisp | ⟨-, rfl⟩
    · exact (h.apart place dispatch hdisp).mono (fun _ _ htask _ => .inr htask)
        fun taker htaker hfail hholds => .inr ⟨taker, htaker, hfail, rfl, hholds⟩
    · refine ⟨fun _ => hseparate.2, fun _ => hseparate.1, ?_⟩
      rintro worker ⟨message, -, hchan | hph⟩
      · cases hchan
      · cases hph
  | sweeps =>
    refine (h.apart place dispatch hdisp).mono (fun _ _ htask _ => .inr htask)
      fun taker htaker hfail hholds => ?_
    rcases List.mem_append.mp htaker with htaker | htaker
    · exact .inr ⟨taker, htaker, hfail, rfl, hholds⟩
    · obtain rfl := List.mem_singleton.mp htaker
      obtain ⟨keys, hkeys, -⟩ := hholds
      cases hkeys
  | reports => exact (h.apart place dispatch hdisp).addTaker fun hfail => by cases hfail
  | replyLost htask => exact (h.apart place dispatch hdisp).addTaker fun _ => htask
  | taker htaker hmove => exact h.taker htaker hmove place dispatch hdisp
  | dispatch hfd hmove => exact h.dispatch hfd hmove place dispatch hdisp

end BridgeState

open BridgeState

/-- **The failure of a lost worker reaches only its own dispatches**, in runs in which an attempt
begins only when no task of the key is left over from another worker. -/
theorem failure_reaches_its_own {s : BridgeState} (h : Reachable step Separate start s) :
    s.ReachesItsOwn := by
  have hsep : s.Separated :=
    h.invariant (fun hsep hseparate hstep => hsep.step hseparate hstep) separated_start
  exact hsep.reachesItsOwn

/-- An activity that is dispatched to a second worker while the sweep of the first one has its
task. -/
def retriedDuringSweep : List BridgeAction :=
  let key : PendingActivityKey := ⟨⟨⟨1⟩⟩, ⟨0⟩⟩
  [.register ["default"] "default" none ["charge"] .grpc,
      .register ["default"] "default" none ["charge"] .grpc,
    .begin key 1, .insert 0, .track 0, .send 0 none, .sweep 1 false, .collect 0, .check 0,
      .poll 0, .finish 0,
    .begin key 2, .insert 1, .track 1, .send 1 none, .check 1, .resolve 0, .recv 1]

/-- **A failure crosses over**: the second attempt is failed for the loss of the first worker. -/
theorem failure_crosses : ∃ s, Reachable step Always start s ∧ ¬ s.ReachesItsOwn := by
  obtain ⟨s, hs⟩ : ∃ s, run step Always start retriedDuringSweep = some s := ⟨_, rfl⟩
  refine ⟨s, reachable_of_run hs, fun hown => ?_⟩
  obtain rfl := Option.some.inj hs
  have hwk :=
    hown.received _ (List.mem_cons_of_mem _ List.mem_cons_self) 1 (by exact ⟨_, by rfl, .inr rfl⟩)
  cases hwk

/-- With the sweep done first, the second attempt waits, and the first one has received the
failure. -/
theorem failure_reaches_its_own_retried :
    ∃ s : BridgeState, s.ReachesItsOwn ∧ s.dispatches.map BridgeDispatch.inFlight =
      [false, true] := by
  obtain ⟨s, hs⟩ : ∃ s, run step Separate
    start [.register ["default"] "default" none ["charge"] .grpc,
      .register ["default"] "default" none ["charge"] .grpc, .begin ⟨⟨⟨1⟩⟩, ⟨0⟩⟩ 1, .insert 0, .track 0, .send 0 none,
      .sweep 1 false, .collect 0, .check 0, .resolve 0, .poll 0, .finish 0, .begin ⟨⟨⟨1⟩⟩, ⟨0⟩⟩ 2, .insert 1, .track 1,
      .send 1 none, .check 1] = some s := ⟨_, rfl⟩
  refine ⟨s, failure_reaches_its_own (reachable_of_run hs), ?_⟩
  obtain rfl := Option.some.inj hs
  rfl

end Aion
