import Aion.Worker.BridgeDispatch

/-!
# No dispatch is stranded

A dispatch that blocks on its channel waits without a bound, so someone must still send to it. That
rests on two orders: a sweep deregisters the worker before it takes the tasks out of the tracker,
and a dispatch tracks its task before it checks that the worker is registered. The invariant is
`Attended`. Between its two steps a sweep holds no task yet, and then it is the sweep to come that
covers the dispatch (`not_covered_before_collect`, `no_stranded_dispatch`).
-/

namespace Aion

open Actions

/-- In the map of pending activities, with the channel not read yet. -/
def BridgePhase.Entered : BridgePhase → Prop
  | .inserted | .tracked | .sent | .lost | .waiting => True
  | _ => False

/-- Past the tracking of the task, with the channel not read yet. -/
def BridgePhase.Tracks : BridgePhase → Prop
  | .tracked | .sent | .lost | .waiting => True
  | _ => False

theorem BridgePhase.Tracks.entered {phase : BridgePhase} (h : phase.Tracks) : phase.Entered := by
  cases phase <;> trivial

theorem BridgeDispatch.inFlight_of_entered {dispatch : BridgeDispatch}
    (h : dispatch.phase.Entered) : dispatch.inFlight = true := by
  obtain ⟨_, _, phase, _⟩ := dispatch
  cases phase <;> first | rfl | cases h

namespace BridgeState

variable (s : BridgeState)

/-- The payload of a reported result is text. -/
def Decodes (_ : BridgeState) : BridgeAction → Prop
  | .report _ _ outcome => outcome.result ≠ none
  | _ => True

instance (action : BridgeAction) : Decidable (s.Decodes action) :=
  match action with
  | .report _ _ outcome => inferInstanceAs (Decidable (outcome.result ≠ none))
  | .register .. | .begin .. | .reject .. | .insert _ | .track _ | .send .. | .check _ | .poll
      _ | .recv _ | .finish _
  | .sweep .. | .collect _ | .replyLost .. | .resolve _ => .isTrue trivial

/-- Someone has taken the task out of the tracker and sends to this dispatch. -/
def Sends (place : ℕ) (dispatch : BridgeDispatch) : Prop :=
  s.pending dispatch.key = some place ∧ ∃ taker ∈ s.takers, taker.Holds dispatch.key ∧
    taker.message ≠ none

/-- A result is there, or the worker is registered and has the task, or someone sends. -/
def Covered (place : ℕ) (dispatch : BridgeDispatch) : Prop :=
  dispatch.channel ≠ none ∨
    (s.registry.isRegistered dispatch.worker = true ∧ (dispatch.worker, dispatch.key) ∈ s.tasks) ∨
      s.Sends place dispatch

/-- A sweep has deregistered the worker and is to take the task out of the tracker. -/
def SweepComes (place : ℕ) (dispatch : BridgeDispatch) : Prop :=
  s.pending dispatch.key = some place ∧ (dispatch.worker, dispatch.key) ∈ s.tasks ∧
    ∃ taker ∈ s.takers, taker.worker = dispatch.worker ∧ taker.stage = .deregistered ∧
      taker.message ≠ none

/-! ### The invariant -/

/-- What holds of a dispatch whose channel is empty. -/
structure Attends (place : ℕ) (dispatch : BridgeDispatch) : Prop where
  entered : dispatch.channel = none → dispatch.phase.Entered → s.pending dispatch.key = some place
  tracked : dispatch.channel = none → dispatch.phase.Tracks →
    (dispatch.worker, dispatch.key) ∈ s.tasks ∨ ∃ taker ∈ s.takers, taker.Holds dispatch.key
  swept : dispatch.channel = none → dispatch.phase = .waiting →
    (dispatch.worker, dispatch.key) ∈ s.tasks →
    s.registry.isRegistered dispatch.worker = true ∨
      ∃ taker ∈ s.takers, taker.worker = dispatch.worker ∧ taker.stage = .deregistered

/-- Every dispatch is attended, by takers that all have something to send. -/
structure Attended : Prop where
  ordered : s.Ordered
  messages : ∀ taker ∈ s.takers, taker.message ≠ none
  attends : ∀ (place : ℕ) (dispatch : BridgeDispatch), s.dispatches[place]? = some dispatch →
    s.Attends place dispatch

variable {s}

theorem attended_start : start.Attended := ⟨ordered_start, by simp [start], by simp [start]⟩

/-- The invariant covers a dispatch that waits. -/
theorem Attended.covered (h : s.Attended) {place : ℕ} {dispatch : BridgeDispatch}
    (hdispatch : s.dispatches[place]? = some dispatch) (hwaiting : dispatch.phase = .waiting) :
    s.Covered place dispatch ∨ s.SweepComes place dispatch := by
  by_cases hchan : dispatch.channel = none
  · have hatt := h.attends place dispatch hdispatch
    have hpend := hatt.entered hchan (by rw [hwaiting]; trivial)
    rcases hatt.tracked hchan (by rw [hwaiting]; trivial) with htask | ⟨taker, htaker, hholds⟩
    · rcases hatt.swept hchan hwaiting htask with hreg | ⟨taker, htaker, hwk, hstg⟩
      · exact .inl (.inr (.inl ⟨hreg, htask⟩))
      · exact .inr ⟨hpend, htask, taker, htaker, hwk, hstg, h.messages taker htaker⟩
    · exact .inl (.inr (.inr ⟨hpend, taker, htaker, hholds, h.messages taker htaker⟩))
  · exact .inl (.inl hchan)

/-! ### What keeps it -/

theorem Attends.of_entered {place : ℕ} {dispatch : BridgeDispatch}
    (h : dispatch.channel = none → dispatch.phase.Entered → s.Attends place dispatch) :
    s.Attends place dispatch :=
  ⟨fun hchan hph => (h hchan hph).entered hchan hph,
    fun hchan hph => (h hchan hph.entered).tracked hchan hph,
    fun hchan hph => (h hchan (by rw [hph]; trivial)).swept hchan hph⟩

/-- A step that keeps the entry of a dispatch and who has its task. -/
theorem Attends.keep {s' : BridgeState} {place : ℕ} {dispatch : BridgeDispatch}
    (h : s.Attends place dispatch)
    (hpend : s.pending dispatch.key = some place → s'.pending dispatch.key = some place)
    (htasks : (dispatch.worker, dispatch.key) ∈ s'.tasks ↔
        (dispatch.worker, dispatch.key) ∈ s.tasks) (htakers : ∀ taker ∈ s.takers, taker ∈ s'.takers)
    (hreg : s.registry.isRegistered dispatch.worker = true →
        s'.registry.isRegistered dispatch.worker = true ∨ ∃ taker ∈ s'.takers,
      taker.worker = dispatch.worker ∧ taker.stage = .deregistered) :
    s'.Attends place dispatch := by
  refine ⟨fun hchan hph => hpend (h.entered hchan hph), fun hchan hph => ?_,
    fun hchan hph htask => ?_⟩
  · refine (h.tracked hchan hph).imp htasks.mpr ?_
    rintro ⟨taker, htaker, hholds⟩
    exact ⟨taker, htakers taker htaker, hholds⟩
  · rcases h.swept hchan hph (htasks.mp htask) with hbef | ⟨taker, htaker, hrest⟩
    · exact hreg hbef
    · exact .inr ⟨taker, htakers taker htaker, hrest⟩

/-- A task goes from the tracker into the hands of a new taker. -/
theorem Attends.take {place : ℕ} {dispatch : BridgeDispatch} (h : s.Attends place dispatch)
    {worker : WorkerId} {key : PendingActivityKey} {kind : TakerKind} :
    ((s.untrack worker key).addTaker ⟨worker, kind, .holding [key]⟩).Attends place dispatch := by
  by_cases htask : (dispatch.worker, dispatch.key) = (worker, key)
  · obtain ⟨rfl, rfl⟩ := Prod.mk.inj htask
    refine ⟨h.entered, fun _ _ => .inr ⟨_, List.mem_append_right _ (List.mem_singleton_self _), _, rfl, List.mem_cons_self⟩,
      fun _ _ hmem => ?_⟩
    simp [addTaker, untrack] at hmem
  · refine h.keep (fun hpend => hpend) ?_ (fun taker htaker => List.mem_append_left _ htaker) .inl
    simp [addTaker, untrack, List.mem_filter, htask]

/-- A taker other than the one that moves stays. -/
theorem mem_takers_set {place : ℕ} {taker taker' other : Taker}
    (htaker : s.takers[place]? = some taker) (hother : other ∈ s.takers) (hne : other ≠ taker) :
    other ∈ s.takers.set place taker' := by
  obtain ⟨index, hindex⟩ := List.mem_iff_getElem?.mp hother
  refine List.mem_iff_getElem?.mpr ⟨index, ?_⟩
  rw [List.getElem?_set_ne, hindex]
  rintro rfl
  exact hne (Option.some.inj (hindex.symm.trans htaker))

theorem mem_takers_set_self {place : ℕ} {taker taker' : Taker}
    (htaker : s.takers[place]? = some taker) : taker' ∈ s.takers.set place taker' :=
  List.mem_set (List.getElem?_eq_some_iff.mp htaker).1 taker'

/-- A sweep takes the tasks of its worker. -/
theorem Attends.collect {place index : ℕ} {dispatch : BridgeDispatch} (h : s.Attends place dispatch)
    {taker : Taker} (htaker : s.takers[index]? = some taker) (hstg : taker.stage = .deregistered) :
    Attends { s.setTaker index { taker with
        stage := .holding ((s.tasks.filter fun task => task.1 = taker.worker).map Prod.snd) } with
      tasks := s.tasks.filter fun task => task.1 ≠ taker.worker } place dispatch := by
  have hheld : ∀ other ∈ s.takers, other.Holds dispatch.key → other ≠ taker := by
    rintro _ - ⟨keys, hkeys, -⟩ rfl
    rw [hstg] at hkeys
    cases hkeys
  refine ⟨h.entered, fun hchan hph => ?_, fun hchan hph hmem => ?_⟩
  · rcases h.tracked hchan hph with htask | ⟨other, hother, hholds⟩
    · by_cases hwk : dispatch.worker = taker.worker
      · refine .inr ⟨_, mem_takers_set_self htaker, _, rfl, List.mem_map.mpr ⟨_, List.mem_filter.mpr ⟨htask, ?_⟩, rfl⟩⟩
        exact decide_eq_true hwk
      · exact .inl (List.mem_filter.mpr ⟨htask, decide_eq_true hwk⟩)
    · exact .inr ⟨other, mem_takers_set htaker hother (hheld other hother hholds), hholds⟩
  · obtain ⟨htask, hwk⟩ := List.mem_filter.mp hmem
    refine (h.swept hchan hph htask).imp (fun hreg => hreg) ?_
    rintro ⟨other, hother, hsame, hrest⟩
    refine ⟨other, mem_takers_set htaker hother ?_, hsame, hrest⟩
    rintro rfl
    exact of_decide_eq_true hwk hsame.symm

/-- A taker is through with a task that no one waits for. -/
theorem Attends.pop {s' : BridgeState} {place index : ℕ} {dispatch : BridgeDispatch}
    (h : s.Attends place dispatch) {taker : Taker} (htaker : s.takers[index]? = some taker)
    {key : PendingActivityKey} {keys : List PendingActivityKey}
    (hstg : taker.stage = .holding (key :: keys)) (hkey : dispatch.key ≠ key)
    (hpend : s'.pending dispatch.key = s.pending dispatch.key) (htasks : s'.tasks = s.tasks)
    (hregistry : s'.registry = s.registry)
    (htakers : s'.takers = s.takers.set index { taker with stage := .holding keys }) :
    s'.Attends place dispatch := by
  refine ⟨fun hchan hph => hpend ▸ h.entered hchan hph, fun hchan hph => ?_,
    fun hchan hph hmem => ?_⟩
  · rw [htasks, htakers]
    refine (h.tracked hchan hph).imp (fun htask => htask) ?_
    rintro ⟨other, hother, held, hheld, hmem⟩
    by_cases hsame : other = taker
    · subst hsame
      obtain rfl : key :: keys = held := TakerStage.holding.inj (hstg.symm.trans hheld)
      exact ⟨_, mem_takers_set_self htaker, keys, rfl, (List.mem_cons.mp hmem).resolve_left hkey⟩
    · exact ⟨other, mem_takers_set htaker hother hsame, held, hheld, hmem⟩
  · rw [hregistry, htakers]
    refine (h.swept hchan hph (htasks ▸ hmem)).imp (fun hreg => hreg) ?_
    rintro ⟨other, hother, hsame, hrest⟩
    refine ⟨other, mem_takers_set htaker hother ?_, hsame, hrest⟩
    rintro rfl
    rw [hstg] at hrest
    cases hrest

/-- A dispatch that moves by itself leaves the others attended. -/
theorem Attends.other {s' : BridgeState} {place other : ℕ} {dispatch found : BridgeDispatch}
    (hord : s.Ordered) (h : s.Attends other found)
    (hdispatch : s.dispatches[place]? = some dispatch) (hin : dispatch.inFlight = true)
    (hfd : s.dispatches[other]? = some found) (hne : other ≠ place)
    (hpend : ∀ key, key ≠ dispatch.key → s'.pending key = s.pending key)
    (htasks : ∀ task : WorkerId × PendingActivityKey, task.2 ≠ dispatch.key →
        (task ∈ s'.tasks ↔ task ∈ s.tasks)) (htakers : s'.takers = s.takers)
    (hregistry : s'.registry = s.registry) : s'.Attends other found := by
  refine .of_entered fun _ hentered => ?_
  have hkey : found.key ≠ dispatch.key := fun hkey =>
    hne (hord.alone _ _ _ _ hfd hdispatch (BridgeDispatch.inFlight_of_entered hentered) hin hkey)
  refine h.keep (fun hbef => (hpend _ hkey).trans hbef) (htasks _ hkey) (fun taker htaker =>
      htakers ▸ htaker) ?_
  rw [hregistry]
  exact .inl

/-- The moves of a dispatch keep the invariant. -/
theorem Attended.dispatch {s' : BridgeState} {place : ℕ} {dispatch : BridgeDispatch}
    (h : s.Attended) (hdispatch : s.dispatches[place]? = some dispatch)
    (hmove : DispatchMove s place dispatch s') :
    (∀ taker ∈ s'.takers, taker.message ≠ none) ∧
      ∀ (other : ℕ) (found : BridgeDispatch), s'.dispatches[other]? = some found →
        s'.Attends other found := by
  have hatt := h.attends place dispatch hdispatch
  cases hmove with
  | @goes phase hgoes =>
    refine ⟨h.messages, fun other found hfd => ?_⟩
    rcases (dispatches_set_iff hdispatch).mp hfd with ⟨rfl, rfl⟩ | ⟨hne, hfd⟩
    · cases hgoes with
      | sent hph =>
        exact ⟨fun hchan _ => hatt.entered hchan (by rw [hph]; trivial),
          fun hchan _ => hatt.tracked hchan (by rw [hph]; trivial), fun _ hwaiting => by cases hwaiting⟩
      | waiting hph hreg =>
        exact ⟨fun hchan _ => hatt.entered hchan (by rw [hph]; trivial),
          fun hchan _ => hatt.tracked hchan (by rw [hph]; trivial), fun _ _ _ => .inl hreg⟩
      | lost hph =>
        exact ⟨fun hchan _ => hatt.entered hchan (by rw [hph]; trivial),
          fun hchan _ => hatt.tracked hchan (by rw [hph]; trivial), fun _ hwaiting => by cases hwaiting⟩
      | _ => exact .of_entered fun _ hentered => hentered.elim
    · exact (h.attends other found hfd).other h.ordered hdispatch hgoes.inFlight hfd hne (fun _ _ => rfl)
        (fun _ _ => .rfl) rfl rfl
  | inserts hph =>
    have hin : dispatch.inFlight = true := by rw [BridgeDispatch.inFlight, hph]
    refine ⟨h.messages, fun other found hfd => ?_⟩
    rcases (dispatches_set_iff hdispatch).mp hfd with ⟨rfl, rfl⟩ | ⟨hne, hfd⟩
    · exact ⟨fun _ _ => Function.update_self .., fun _ htracks => htracks.elim, fun _ hwaiting => by cases hwaiting⟩
    · exact (h.attends other found hfd).other h.ordered hdispatch hin hfd hne
        (fun key hkey => Function.update_of_ne hkey ..) (fun _ _ => .rfl) rfl rfl
  | tracks hph htasks =>
    have hin : dispatch.inFlight = true := by rw [BridgeDispatch.inFlight, hph]
    refine ⟨h.messages, fun other found hfd => ?_⟩
    rcases (dispatches_set_iff hdispatch).mp hfd with ⟨rfl, rfl⟩ | ⟨hne, hfd⟩
    · exact ⟨fun hchan _ => hatt.entered hchan (by rw [hph]; trivial),
        fun _ _ => .inl ((htasks _).mpr (.inr rfl)), fun _ hwaiting => by cases hwaiting⟩
    · refine (h.attends other found hfd).other h.ordered hdispatch hin hfd hne (fun _ _ => rfl)
        (fun task hkey => ?_) rfl rfl
      exact (htasks task).trans (or_iff_left fun heq => hkey (by rw [heq]))
  | finishes hph hless hoths result =>
    have hin : dispatch.inFlight = true := by
      rcases hph with ⟨_, hph⟩ | ⟨_, hph⟩ <;> rw [BridgeDispatch.inFlight, hph]
    refine ⟨h.messages, fun other found hfd => ?_⟩
    rcases (dispatches_set_iff hdispatch).mp hfd with ⟨rfl, rfl⟩ | ⟨hne, hfd⟩
    · exact .of_entered fun _ hentered => hentered.elim
    · exact (h.attends other found hfd).other h.ordered hdispatch hin hfd hne
        (fun key hkey => Function.update_of_ne hkey ..)
          (fun task hkey => ⟨hless task, fun hmem => hoths task hmem hkey⟩) rfl rfl

/-- Those that are not the one that moves have something to send, and so has it. -/
theorem Attended.messages_set (h : s.Attended) {index : ℕ} {taker : Taker}
    (htaker : s.takers[index]? = some taker) (stage : TakerStage) :
    ∀ other ∈ s.takers.set index { taker with stage := stage }, other.message ≠ none := by
  intro other hother
  rcases List.mem_or_eq_of_mem_set hother with hother | rfl
  · exact h.messages other hother
  · exact h.messages taker (List.mem_of_getElem? htaker)

/-- The moves of a taker keep the invariant. -/
theorem Attended.taker {s' : BridgeState} {index : ℕ} {taker : Taker} (h : s.Attended)
    (htaker : s.takers[index]? = some taker) (hmove : TakerMove s index taker s') :
    (∀ taker ∈ s'.takers, taker.message ≠ none) ∧
      ∀ (place : ℕ) (dispatch : BridgeDispatch), s'.dispatches[place]? = some dispatch →
        s'.Attends place dispatch := by
  cases hmove with
  | collects hstg =>
    exact ⟨h.messages_set htaker _, fun place dispatch hdispatch =>
        (h.attends place dispatch hdispatch).collect htaker hstg⟩
  | @sends key keys hstg message hmsg place found hpend hfd =>
    refine ⟨h.messages_set htaker _, fun other dispatch hdispatch => ?_⟩
    refine .of_entered fun hchan hentered => ?_
    rcases (dispatches_set_iff hfd).mp hdispatch with ⟨rfl, rfl⟩ | ⟨hne, hdispatch⟩
    · cases hchan
    · have hatt := h.attends other dispatch hdispatch
      have hkey : dispatch.key ≠ key := by
        rintro rfl
        exact hne (Option.some.inj ((hatt.entered hchan hentered).symm.trans hpend))
      exact hatt.pop htaker hstg hkey (Function.update_of_ne hkey ..) rfl rfl rfl
  | @passes key keys hstg hnone =>
    refine ⟨h.messages_set htaker _, fun place dispatch hdispatch => ?_⟩
    refine .of_entered fun hchan hentered => ?_
    have hatt := h.attends place dispatch hdispatch
    have hkey : dispatch.key ≠ key := by
      rintro rfl
      rcases hnone with hnone | hnone
      · exact h.messages taker (List.mem_of_getElem? htaker) hnone
      · exact hnone place dispatch (hatt.entered hchan hentered) hdispatch
    exact hatt.pop htaker hstg hkey rfl rfl rfl rfl

/-- A new taker that has something to send. -/
theorem Attended.messages_append (h : s.Attended) {taker : Taker} (hmsg : taker.message ≠ none) :
    ∀ other ∈ s.takers ++ [taker], other.message ≠ none := by
  intro other hother
  rcases List.mem_append.mp hother with hother | hother
  · exact h.messages other hother
  · exact List.mem_singleton.mp hother ▸ hmsg

/-- **Every step** keeps the dispatches attended. -/
theorem Attended.step {s' : BridgeState} {action : BridgeAction} (h : s.Attended)
    (hdecodes : s.Decodes action) (hstep : s.step action = some s') : s'.Attended := by
  suffices hrest : (∀ taker ∈ s'.takers, taker.message ≠ none) ∧
      ∀ (place : ℕ) (dispatch : BridgeDispatch), s'.dispatches[place]? = some dispatch → s'.Attends place dispatch from
    ⟨h.ordered.step hstep, hrest.1, hrest.2⟩
  cases step_moves hstep with
  | registers =>
    refine ⟨h.messages, fun place dispatch hdispatch => (h.attends place dispatch hdispatch).keep (fun hpend => hpend)
      .rfl (fun _ htaker => htaker) fun hreg => .inl ?_⟩
    exact RegistryState.isRegistered_registerDelivery hreg
  | begins hreg hnone =>
    refine ⟨h.messages, fun place dispatch hdispatch => ?_⟩
    rcases dispatches_append_iff.mp hdispatch with hdispatch | ⟨-, rfl⟩
    · exact (h.attends place dispatch hdispatch).keep (fun hpend => hpend) .rfl (fun _ htaker => htaker) .inl
    · exact .of_entered fun _ hentered => hentered.elim
  | @sweeps worker parks =>
    refine ⟨h.messages_append ?_, fun place dispatch hdispatch => (h.attends place dispatch hdispatch).keep
      (fun hpend => hpend) .rfl (fun _ htaker => List.mem_append_left _ htaker) fun hreg => ?_⟩
    · cases parks <;> simp [Taker.message, ActivityCompletionOutcome.result]
    · by_cases hwk : dispatch.worker = worker
      · exact .inr ⟨_, List.mem_append_right _ (List.mem_singleton_self _), hwk.symm, rfl⟩
      · exact .inl ((RegistryState.isRegistered_removeWorker hwk).trans hreg)
  | reports =>
    refine ⟨h.messages_append ?_, fun place dispatch hdispatch => (h.attends place dispatch hdispatch).take⟩
    simpa [Taker.message] using (show _ ≠ none from hdecodes)
  | replyLost htask =>
    refine ⟨h.messages_append ?_, fun place dispatch hdispatch => (h.attends place dispatch hdispatch).take⟩
    simp [Taker.message, ActivityCompletionOutcome.result]
  | taker htaker hmove => exact h.taker htaker hmove
  | dispatch hdispatch hmove => exact h.dispatch hdispatch hmove

end BridgeState

open BridgeState

/-- **No dispatch is stranded**: one that waits is covered, or a sweep that is to take its task
covers it. -/
theorem no_stranded_dispatch {s : BridgeState} (h : Reachable step Decodes start s) {place : ℕ}
    {dispatch : BridgeDispatch} (hdispatch : s.dispatches[place]? = some dispatch)
    (hwaiting : dispatch.phase = .waiting) :
    s.Covered place dispatch ∨ s.SweepComes place dispatch := by
  have hattended : s.Attended :=
    h.invariant (fun hattended hdecodes hstep => hattended.step hdecodes hstep) attended_start
  exact hattended.covered hdispatch hwaiting

/-- A dispatch of an activity. -/
def chargeKey : PendingActivityKey := ⟨⟨1⟩, ⟨0⟩⟩

/-- It waits for the first worker. -/
def chargeWaits : List BridgeAction :=
  [.register ["default"] "default" none ["charge"] .grpc, .begin chargeKey 1, .insert 0, .track 0,
      .send 0 none, .check 0]

/-- **Not covered**: the worker is deregistered, and its tasks are still in the tracker. -/
theorem not_covered_before_collect :
    ∃ s, Reachable step Decodes start s ∧ ∃ dispatch, s.dispatches[0]? = some dispatch ∧
    dispatch.phase = .waiting ∧ ¬ s.Covered 0 dispatch := by
  obtain ⟨s, hs⟩ : ∃ s, run step Decodes start (chargeWaits ++ [.sweep 1 false]) = some s :=
    ⟨_, rfl⟩
  refine ⟨s, reachable_of_run hs, ?_⟩
  obtain rfl := Option.some.inj hs
  refine ⟨_, rfl, rfl, ?_⟩
  rintro (hchan | ⟨hreg, -⟩ | ⟨-, taker, htaker, ⟨keys, hkeys, -⟩, -⟩)
  · exact hchan rfl
  · cases hreg
  · obtain rfl := List.mem_singleton.mp htaker
    cases hkeys

/-- With the tasks taken, the sweep covers the dispatch. -/
theorem no_stranded_dispatch_swept :
    ∃ s : BridgeState, ∃ dispatch, s.dispatches[0]? = some dispatch ∧
    dispatch.phase = .waiting ∧ s.tasks = [] ∧
      (s.Covered 0 dispatch ∨ s.SweepComes 0 dispatch) := by
  obtain ⟨s, hs⟩ : ∃ s, run step Decodes start (chargeWaits ++ [.sweep 1 false, .collect 0]) = some s := ⟨_, rfl⟩
  have hserv := @no_stranded_dispatch s (reachable_of_run hs) 0
  obtain rfl := Option.some.inj hs
  exact ⟨_, _, rfl, rfl, rfl, hserv rfl rfl⟩

end Aion
