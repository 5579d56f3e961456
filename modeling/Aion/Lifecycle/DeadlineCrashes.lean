import Aion.Lifecycle.DeadlineDiscipline

/-!
# Deadlines across crashes

Whatever the actors do, in whatever order, and wherever they stop, each of their appends is a
step of the discipline. An actor decides on the history it has read, and its append is accepted
only where that history ends, so what it decided on is still the whole history
(`writes_appendWith`). What it has learned in an earlier section stays true while the others keep
to the discipline (`Later`).
-/

namespace Aion

open Interleaving Relation

/-! ### What an actor relies on -/

/-- A row with the timeout of the run has been written. -/
def DeadlineWorld.Refreshed (world : DeadlineWorld) (id : WorkflowId) (run : RunId) : Prop :=
  ∃ record ∈ world.refreshes, record.workflowId = id ∧ record.runId = run ∧
    record.status = .timedOut

/-- One event is appended as it may be. -/
def HistoryStep (parseUuid : String → Option Uuid) (id : WorkflowId) (refreshed : RunId → Prop)
    (history history' : List Event) : Prop :=
  ∃ event, history' = history ++ [event] ∧ event.workflowId = id ∧
    DeadlineStep parseUuid id refreshed history event

/-- The histories have grown by steps of the discipline. -/
structure Later (parseUuid : String → Option Uuid) (world world' : DeadlineWorld) : Prop where
  numbered : world.store.Numbered → world'.store.Numbered
  refreshes : world.refreshes ⊆ world'.refreshes
  histories : ∀ id, ReflTransGen (HistoryStep parseUuid id (world'.Refreshed id)) (world.history id)
    (world'.history id)

/-- Every history keeps to the discipline. -/
structure Sound (parseUuid : String → Option Uuid) (world : DeadlineWorld) : Prop where
  numbered : world.store.Numbered
  disciplined : ∀ id, Disciplined parseUuid id (world.Refreshed id) (world.history id)

/-- The history was this at some time, and has grown from it. -/
structure Known (parseUuid : String → Option Uuid) (world : DeadlineWorld) (id : WorkflowId)
    (known : List Event) : Prop where
  disciplined : Disciplined parseUuid id (world.Refreshed id) known
  grown : ReflTransGen (HistoryStep parseUuid id (world.Refreshed id)) known (world.history id)

variable {recorder : Recorder} {now : Instant} {run : RunId} {registered : Bool}
  {body : EventBody} {history : List Event} {refreshed : RunId → Prop} {envelope : EventEnvelope}
  {call : StoreCall} {timers : List TimerId}

section Rely

variable {parseUuid : String → Option Uuid} {world world' : DeadlineWorld} {id : WorkflowId}

variable {history' : List Event}

theorem HistoryStep.mono {refreshed' : RunId → Prop}
    (h : ReflTransGen (HistoryStep parseUuid id refreshed) history history')
    (himp : ∀ run, refreshed run → refreshed' run) :
    ReflTransGen (HistoryStep parseUuid id refreshed') history history' := by
  induction h with
  | refl => exact .refl
  | tail _ step ih =>
    obtain ⟨event, hhist, hown, hstep⟩ := step
    exact ih.tail ⟨event, hhist, hown, hstep.mono himp⟩

theorem HistoryStep.isPrefix
    (h : ReflTransGen (HistoryStep parseUuid id refreshed) history history') :
    history <+: history' := by
  induction h with
  | refl => exact List.prefix_refl _
  | tail _ step ih =>
    obtain ⟨event, rfl, -, -⟩ := step
    exact ih.trans (List.prefix_append _ _)

/-- What every step keeps of a disciplined history stays true of it. -/
theorem HistoryStep.keeps {refreshed : RunId → Prop} {history history' : List Event}
    {P : List Event → Prop} (parses : ParsesDeadlines parseUuid)
    (h : ReflTransGen (HistoryStep parseUuid id refreshed) history history')
    (inv : Disciplined parseUuid id refreshed history)
    (keeps : ∀ history event, Disciplined parseUuid id refreshed history →
        DeadlineStep parseUuid id refreshed history event → P history → P (history ++ [event]))
    (hP : P history) : Disciplined parseUuid id refreshed history' ∧ P history' := by
  induction h with
  | refl => exact ⟨inv, hP⟩
  | tail _ step ih =>
    obtain ⟨event, rfl, hown, hstep⟩ := step
    exact ⟨ih.1.step parses hstep hown, keeps _ event ih.1 hstep ih.2⟩

theorem DeadlineWorld.Refreshed.mono (h : world.refreshes ⊆ world'.refreshes) (run : RunId)
    (hfresh : world.Refreshed id run) : world'.Refreshed id run := by
  obtain ⟨record, hmem, hrec⟩ := hfresh
  exact ⟨record, h hmem, hrec⟩

theorem Later.refl (world : DeadlineWorld) : Later parseUuid world world :=
  ⟨id, List.Subset.refl _, fun _ => .refl⟩

theorem Later.trans {world'' : DeadlineWorld} (h : Later parseUuid world world')
    (h' : Later parseUuid world' world'') : Later parseUuid world world'' where
  numbered hnum := h'.numbered (h.numbered hnum)
  refreshes := List.Subset.trans h.refreshes h'.refreshes
  histories id := (HistoryStep.mono (h.histories id)
      (DeadlineWorld.Refreshed.mono h'.refreshes)).trans (h'.histories id)

theorem Later.sound (parses : ParsesDeadlines parseUuid) (h : Later parseUuid world world')
    (sound : Sound parseUuid world) : Sound parseUuid world' where
  numbered := h.numbered sound.numbered
  disciplined id := by
    have inv := (sound.disciplined id).mono (DeadlineWorld.Refreshed.mono h.refreshes)
    exact (@HistoryStep.keeps _ id _ _ _ (fun _ => True) parses (h.histories id) inv (fun _ _ _ _ _ => trivial) trivial).1

theorem Sound.known (sound : Sound parseUuid world) (id : WorkflowId) :
    Known parseUuid world id (world.history id) :=
  ⟨sound.disciplined id, .refl⟩

theorem Known.later {known : List Event} (h : Known parseUuid world id known)
    (hlat : Later parseUuid world world') : Known parseUuid world' id known where
  disciplined := h.disciplined.mono (DeadlineWorld.Refreshed.mono hlat.refreshes)
  grown := (HistoryStep.mono h.grown (DeadlineWorld.Refreshed.mono hlat.refreshes)).trans
    (hlat.histories id)

theorem Known.isPrefix {known : List Event} (h : Known parseUuid world id known) :
    known <+: world.history id :=
  HistoryStep.isPrefix h.grown

theorem Known.timedOut {known : List Event} {run : RunId} (parses : ParsesDeadlines parseUuid)
    (h : Known parseUuid world id known) (htimed : TimedOut known run) :
    TimedOut (world.history id) run :=
  (@HistoryStep.keeps _ id _ _ _ (TimedOut · run) parses h.grown h.disciplined
    (fun _ _ inv hstep => inv.timedOut_step hstep) htimed).2

theorem Known.stopped {known : List Event} {run : RunId} (parses : ParsesDeadlines parseUuid)
    (h : Known parseUuid world id known) (hstop : Stopped parseUuid known run) :
    Stopped parseUuid (world.history id) run :=
  (@HistoryStep.keeps _ id _ _ _ (Stopped parseUuid · run) parses h.grown h.disciplined
    (fun _ _ inv hstep => inv.stopped_step hstep) hstop).2

end Rely

/-! ### What an actor guarantees -/

/-- A sweep appends nothing but the end of an orphaned deadline. -/
def DeadlineActor.Spares (parseUuid : String → Option Uuid) (actor : DeadlineActor)
    (history : List Event) (event : Event) : Prop :=
  match actor with
  | .sweep .. =>
    ∃ envelope run timerId, event = ⟨envelope, .timerCancelled timerId .workflowIntent⟩ ∧
      isOrphanedTerminalDeadline parseUuid history run = true ∧
      outstandingDeadlineTimer parseUuid history run = some timerId
  | _ => True

/-- A call keeps to the discipline, and a sweep's to its own. -/
structure Guarantee (parseUuid : String → Option Uuid) (actor : DeadlineActor)
    (world : DeadlineWorld) (call : StoreCall) : Prop where
  later : Later parseUuid world (world.serve call).2
  spares : ∀ id expectedSeq events, acceptedBatch call (world.serve call).1 =
    some (id, expectedSeq, events) →
    ∀ event ∈ events, actor.Spares parseUuid (world.history id) event

section Guarantee

variable {parseUuid : String → Option Uuid} {actor : DeadlineActor} {world : DeadlineWorld}

/-- What a call does to the histories and the rows. -/
theorem later_serve (numbered : world.store.Numbered)
    (hstep : ∀ id expectedSeq events, acceptedBatch call (world.serve call).1 =
        some (id, expectedSeq, events) →
      ReflTransGen (HistoryStep parseUuid id (world.Refreshed id)) (world.history id)
      (world.history id ++ events)) : Later parseUuid world (world.serve call).2 where
  numbered _ := (servesHistories numbered call).numbered
  refreshes := List.subset_append_left _ _
  histories id := by
    have hadded := (servesHistories numbered call).added id
    change ReflTransGen _ _ ((world.store.serve call).2.history id)
    rw [hadded, addedTo]
    refine HistoryStep.mono ?_ (DeadlineWorld.Refreshed.mono (List.subset_append_left _ _))
    split
    · rename_i target expectedSeq events hacc
      split_ifs with htgt
      · subst htgt
        exact hstep _ expectedSeq events hacc
      · rw [List.append_nil]
        exact .refl
    · rw [List.append_nil]
      exact .refl

/-- A call that appends nothing. -/
theorem guarantee_of_none (numbered : world.store.Numbered) {call : StoreCall}
    (hnone : acceptedBatch call (world.serve call).1 = none) :
    Guarantee parseUuid actor world call where
  later := by
    refine later_serve numbered ?_
    intro id expectedSeq events hacc
    rw [hnone] at hacc
    cases hacc
  spares := by
    intro id expectedSeq events hacc
    rw [hnone] at hacc
    cases hacc

end Guarantee

/-! ### Programs -/

/-- From the world it last saw, the program keeps the actor's guarantee as long as the others do;
when it returns a value, `post` holds. -/
def Meets {α : Type} (parseUuid : String → Option Uuid) (actor : DeadlineActor)
    (world : DeadlineWorld) (program : EngineM α) (post : DeadlineWorld → α → Prop) : Prop :=
  deadlineService.Guards (Later parseUuid) (Guarantee parseUuid actor)
    (fun world' result => Later parseUuid world world' ∧ ∀ value, result = .ok value → post world' value) world program

/-- The same of a recorder's operation, with the recorder it leaves. -/
def Writes {α : Type} (parseUuid : String → Option Uuid) (actor : DeadlineActor)
    (world : DeadlineWorld) (recorder : Recorder) (operation : RecorderM α)
    (post : DeadlineWorld → Recorder → α → Prop) : Prop :=
  deadlineService.Guards (Later parseUuid) (Guarantee parseUuid actor)
    (fun world' outcome => Later parseUuid world world' ∧ ∀ value, outcome.1 = .ok value → post world' outcome.2 value)
    world (operation recorder)

/-- What the recorder appends next is appended to this history, or refused. -/
structure StandsAt (parseUuid : String → Option Uuid) (world : DeadlineWorld) (recorder : Recorder)
    (id : WorkflowId) (known : List Event) : Prop where
  workflowId : recorder.workflowId = id
  head : recorder.sequence.head ≤ known.length
  known : Known parseUuid world id known

section Rules

variable {parseUuid : String → Option Uuid} {actor : DeadlineActor} {world : DeadlineWorld}
  {α β : Type}

theorem StandsAt.later {id : WorkflowId} {known : List Event} {world' : DeadlineWorld}
    (h : StandsAt parseUuid world recorder id known) (hlat : Later parseUuid world world') :
    StandsAt parseUuid world' recorder id known :=
  ⟨h.workflowId, h.head, h.known.later hlat⟩

theorem Meets.bind {first : EngineM α} {f : α → EngineM β} {mid : DeadlineWorld → α → Prop}
    {post : DeadlineWorld → β → Prop} (h : Meets parseUuid actor world first mid)
    (hf : ∀ world' value, Later parseUuid world world' → mid world' value →
        Meets parseUuid actor world' (f value) post) :
    Meets parseUuid actor world (first >>= f) post := by
  refine Service.Guards.bind h ?_
  rintro world' (failure | value) ⟨hlat, hmid⟩
  · refine ⟨hlat, ?_⟩
    rintro value ⟨⟩
  · refine (hf world' value hlat (hmid value rfl)).mono ?_
    rintro world'' result ⟨hlat', hpost⟩
    exact ⟨hlat.trans hlat', hpost⟩

theorem meets_pure {value : α} {post : DeadlineWorld → α → Prop} (h : post world value) :
    Meets parseUuid actor world (pure value) post := by
  refine ⟨Later.refl world, ?_⟩
  rintro _ ⟨⟩
  exact h

theorem meets_throw {failure : StartFailure} {post : DeadlineWorld → α → Prop} :
    Meets parseUuid actor world (EngineM.throw failure) post := by
  refine ⟨Later.refl world, ?_⟩
  rintro _ ⟨⟩

theorem meets_lift {result : Except EngineError α} :
    Meets parseUuid actor world (EngineM.lift result) fun world' value => world' = world ∧
      result = .ok value := by
  refine ⟨Later.refl world, ?_⟩
  intro value hval
  cases result with
  | error error => cases hval
  | ok value' =>
    cases hval
    exact ⟨rfl, rfl⟩

variable {post : DeadlineWorld → Recorder → α → Prop} {operation : RecorderM α}
  {result : Except DurabilityError α} {program : EngineM α} {f : α → RecorderM β} {event : Event}

theorem meets_liftDurability :
    Meets parseUuid actor world (EngineM.liftDurability result) fun world' value => world' = world ∧
      result = .ok value := by
  refine ⟨Later.refl world, ?_⟩
  intro value hval
  cases result with
  | error error => cases hval
  | ok value' =>
    cases hval
    exact ⟨rfl, rfl⟩

theorem Meets.attempt {post : DeadlineWorld → α → Prop}
    (h : Meets parseUuid actor world program post) :
    Meets parseUuid actor world (EngineM.attempt program) fun _ _ => True := by
  refine Service.Guards.bind h ?_
  rintro world' result ⟨hlat, -⟩
  exact ⟨hlat, fun _ _ => trivial⟩

theorem Meets.mono {post post' : DeadlineWorld → α → Prop}
    (h : Meets parseUuid actor world program post)
    (himp : ∀ world' value, Later parseUuid world world' → post world' value → post' world' value) :
    Meets parseUuid actor world program post' := by
  refine Service.Guards.mono h ?_
  rintro world' result ⟨hlat, hpost⟩
  exact ⟨hlat, fun value hval => himp world' value hlat (hpost value hval)⟩

variable (parses : ParsesDeadlines parseUuid) (sound : Sound parseUuid world)

include parses sound in
/-- A call that appends nothing, and then what is done with its answer. -/
theorem guards_call {γ : Type} {next : call.Answer → Prog StoreCall StoreCall.Answer γ}
    {post : DeadlineWorld → γ → Prop} (hnone : ∀ answer, acceptedBatch call answer = none)
    (h : ∀ world', Later parseUuid world world' →
        deadlineService.Guards (Later parseUuid) (Guarantee parseUuid actor) post
      (world'.serve call).2 (next (world'.serve call).1)) :
    deadlineService.Guards (Later parseUuid) (Guarantee parseUuid actor) post world
      (.call call next) := by
  intro later hlat
  exact ⟨guarantee_of_none (hlat.sound parses sound).numbered (hnone _), h later hlat⟩

theorem serve_readHistory (id : WorkflowId) : (world.serve (.readHistory id)).2 = world := by
  simp [DeadlineWorld.serve, DeadlineWorld.refreshOf, InMemoryStore.serve]

include parses sound in
theorem meets_readHistory {id : WorkflowId} :
    Meets parseUuid actor world (EngineM.readHistory id) fun world' history =>
      history = world'.history id := by
  refine guards_call parses sound (fun _ => rfl) ?_
  intro world' hlat
  rw [serve_readHistory]
  refine ⟨hlat, ?_⟩
  intro value hval
  cases hval
  exact InMemoryStore.readHistory_of_numbered (hlat.sound parses sound).numbered id

theorem Writes.recording (h : Writes parseUuid actor world recorder operation post) :
    Meets parseUuid actor world (EngineM.recording recorder operation) fun world' outcome =>
      post world' outcome.2 outcome.1 := by
  refine Service.Guards.bind h ?_
  rintro world' ⟨error | value, recorder'⟩ ⟨hlat, hpost⟩
  · refine ⟨hlat, ?_⟩
    rintro _ ⟨⟩
  · refine ⟨hlat, ?_⟩
    rintro _ ⟨⟩
    exact hpost value rfl

theorem Writes.recordingElse {operation : RecorderM Unit} {refused : DurabilityError → EngineM Unit}
    (h : Writes parseUuid actor world recorder operation fun _ _ _ => True)
    (hrefd : ∀ world' error, Later parseUuid world world' →
        Meets parseUuid actor world' (refused error) fun _ _ => True) :
    Meets parseUuid actor world (EngineM.recordingElse recorder operation refused) fun _ _ =>
      True := by
  refine Service.Guards.bind h ?_
  rintro world' ⟨error | value, recorder'⟩ ⟨hlat, -⟩
  · refine Service.Guards.mono (hrefd world' error hlat) ?_
    rintro world'' result ⟨hlat', hpost⟩
    exact ⟨hlat.trans hlat', hpost⟩
  · exact ⟨hlat, fun _ _ => trivial⟩

theorem Writes.bind
    {mid : DeadlineWorld → Recorder → α → Prop} {post : DeadlineWorld → Recorder → β → Prop}
    (h : Writes parseUuid actor world recorder operation mid)
    (hf : ∀ world' recorder' value, Later parseUuid world world' → mid world' recorder' value →
      Writes parseUuid actor world' recorder' (f value) post) :
    Writes parseUuid actor world recorder (operation >>= f) post := by
  refine Service.Guards.bind h ?_
  rintro world' ⟨error | value, recorder'⟩ ⟨hlat, hmid⟩
  · refine ⟨hlat, ?_⟩
    rintro _ ⟨⟩
  · refine (hf world' recorder' value hlat (hmid value rfl)).mono ?_
    rintro world'' result ⟨hlat', hpost⟩
    exact ⟨hlat.trans hlat', hpost⟩

theorem writes_pure {value : α}
    (h : post world recorder value) : Writes parseUuid actor world recorder (pure value) post := by
  refine ⟨Later.refl world, ?_⟩
  rintro _ ⟨⟩
  exact h

theorem writes_lift :
    Writes parseUuid actor world recorder (RecorderM.lift result) fun world' recorder' value =>
      world' = world ∧ recorder' = recorder ∧ result = .ok value :=
  ⟨Later.refl world, fun _ hval => ⟨rfl, rfl, hval⟩⟩

/-- Every event is one that the actor may append. -/
def DeadlineActor.Free (parseUuid : String → Option Uuid) (actor : DeadlineActor) : Prop :=
  ∀ history event, actor.Spares parseUuid history event

/-- The recorder's operations on the history as it is. -/
theorem writes_answered {answer : Except StoreError Unit} {post : DeadlineWorld → Recorder → Unit → Prop}
    (h : ∀ sequence, answer = .ok () → recorder.sequence.markAppendSuccess 1 = .ok sequence →
      post world { recorder with sequence } ()) :
    Writes parseUuid actor world recorder (do RecorderM.liftStore answer; markAppendSuccess 1) post := by
  cases answer with
  | error error =>
    refine ⟨Later.refl world, ?_⟩
    rintro _ ⟨⟩
  | ok accepted =>
    cases hmarked : recorder.sequence.markAppendSuccess 1 with
    | error error =>
      have hprog : (do RecorderM.liftStore (.ok accepted); markAppendSuccess 1 : RecorderM Unit) recorder =
          .done (.error error, recorder) := by
        change (markAppendSuccess 1) recorder = _
        simp only [markAppendSuccess, bind, RecorderM.get, RecorderM.lift, Prog.bind, hmarked]
      rw [Writes, hprog]
      refine ⟨Later.refl world, ?_⟩
      rintro _ ⟨⟩
    | ok sequence =>
      have hprog : (do RecorderM.liftStore (.ok accepted); markAppendSuccess 1 : RecorderM Unit) recorder =
          .done (.ok (), { recorder with sequence }) := by
        change (markAppendSuccess 1) recorder = _
        simp only [markAppendSuccess, bind, RecorderM.get, RecorderM.lift, RecorderM.modify, Prog.bind, hmarked]
      rw [Writes, hprog]
      refine ⟨Later.refl world, ?_⟩
      rintro _ ⟨⟩
      exact h sequence rfl hmarked

/-- The append of one event by a recorder. -/
def Recorder.appending (recorder : Recorder) (event : Event) : StoreCall :=
  .append recorder.workflowId [event] recorder.sequence.current

/-- An append that is accepted was made to the history that the recorder stands at. -/
theorem StandsAt.eq_of_accepted {id : WorkflowId} {known : List Event}
    (hstd : StandsAt parseUuid world recorder id known) (numbered : world.store.Numbered)
    (hacc : (world.serve (recorder.appending event)).1 = .ok ()) : world.history id = known := by
  have hserves := servesHistories numbered (recorder.appending event)
  have hend := hserves.atEnd recorder.workflowId recorder.sequence.current [event] (by
    change acceptedBatch _ (world.serve (recorder.appending event)).1 = _
    rw [hacc]
    rfl)
  rw [hstd.workflowId] at hend
  refine (hstd.known.isPrefix.eq_of_length_le ?_).symm
  change (world.store.history id).length ≤ known.length
  rw [hend]
  exact hstd.head

/-- The guarantee of an append, and the history after it when it is accepted. -/
theorem StandsAt.guarantee {id : WorkflowId} {known : List Event}
    (hstd : StandsAt parseUuid world recorder id known) (numbered : world.store.Numbered)
    (hown : event.workflowId = id)
    (hstep : world.history id = known →
        DeadlineStep parseUuid id (world.Refreshed id) known event ∧
      actor.Spares parseUuid known event) :
    Guarantee parseUuid actor world (recorder.appending event) ∧
      ((world.serve (recorder.appending event)).1 = .ok () →
        (world.serve (recorder.appending event)).2.history id = known ++ [event]) := by
  have hacc : ∀ target expectedSeq events, acceptedBatch (recorder.appending event)
      (world.serve (recorder.appending event)).1 = some (target, expectedSeq, events) →
      target = id ∧ events = [event] ∧ world.history id = known := by
    intro target expectedSeq events hacc
    unfold Recorder.appending acceptedBatch at hacc
    split at hacc
    · rename_i heq hans
      cases heq
      cases hacc
      exact ⟨hstd.workflowId, rfl, hstd.eq_of_accepted numbered hans⟩
    · rename_i heq hans
      cases heq
    · cases hacc
  refine ⟨⟨later_serve numbered ?_, ?_⟩, ?_⟩
  · intro target expectedSeq events h
    obtain ⟨rfl, rfl, hknown⟩ := hacc target expectedSeq events h
    rw [hknown]
    exact .single ⟨event, rfl, hown, (hstep hknown).1⟩
  · intro target expectedSeq events h other hmem
    obtain ⟨rfl, rfl, hknown⟩ := hacc target expectedSeq events h
    rw [List.mem_singleton.mp hmem, hknown]
    exact (hstep hknown).2
  · intro hok
    have hadded := (servesHistories numbered (recorder.appending event)).added id
    rw [← hstd.eq_of_accepted numbered hok]
    refine hadded.trans ?_
    change _ ++ addedTo id _ (world.serve (recorder.appending event)).1 = _
    rw [hok]
    exact congrArg _ (if_pos hstd.workflowId.symm)

/-- Appending is an envelope, the append and the advance of the head. -/
theorem appendWith_eq
    (henv : recorder.nextEnvelope now = .ok envelope) :
    appendWith now body recorder = .call (recorder.appending ⟨envelope, body⟩)
      fun answer => (do RecorderM.liftStore answer; markAppendSuccess 1 : RecorderM Unit) recorder := by
  simp only [appendWith, bind, RecorderM.get, RecorderM.lift, Prog.bind, henv]
  rfl

theorem head_of_markAppendSuccess {sequence sequence' : SequenceHead}
    (h : sequence.markAppendSuccess 1 = .ok sequence') : sequence'.head = sequence.head + 1 := by
  unfold SequenceHead.markAppendSuccess at h
  split at h
  · rename_i head hadd
    cases h
    exact (checkedAdd_eq_some.mp hadd).2
  · cases h

theorem workflowId_of_nextEnvelope
    (h : recorder.nextEnvelope now = .ok envelope) : envelope.workflowId = recorder.workflowId := by
  unfold Recorder.nextEnvelope at h
  split at h
  · cases h
    rfl
  · cases h

include parses sound in
/-- **Appending**: it is enough that the event may be appended to the history that the recorder
stands at, and afterwards the recorder stands after the event. -/
theorem writes_appendWith {id : WorkflowId} {known : List Event}
    (hstd : StandsAt parseUuid world recorder id known)
    (hstep : ∀ envelope world', Later parseUuid world world' → world'.history id = known →
        DeadlineStep parseUuid id (world'.Refreshed id) known ⟨envelope, body⟩ ∧
      actor.Spares parseUuid known ⟨envelope, body⟩) :
    Writes parseUuid actor world recorder (appendWith now body) fun world' recorder' _ =>
      ∃ envelope, StandsAt parseUuid world' recorder' id (known ++ [⟨envelope, body⟩]) := by
  cases henv : recorder.nextEnvelope now with
  | error error =>
    have hprog : appendWith now body recorder = .done (.error error, recorder) := by
      simp only [appendWith, bind, RecorderM.get, RecorderM.lift, Prog.bind, henv]
    rw [Writes, hprog]
    refine ⟨Later.refl world, ?_⟩
    rintro _ ⟨⟩
  | ok envelope =>
    have hown : (⟨envelope, body⟩ : Event).workflowId = id :=
      (workflowId_of_nextEnvelope henv).trans hstd.workflowId
    rw [Writes, appendWith_eq henv]
    intro later hlat
    have hsound := hlat.sound parses sound
    have hstd' := hstd.later hlat
    obtain ⟨hguarantee, hhist⟩ := hstd'.guarantee hsound.numbered hown (hstep envelope later hlat)
    have hafter : Writes parseUuid actor
      (later.serve (recorder.appending ⟨envelope, body⟩)).2 recorder
        (do RecorderM.liftStore (later.serve (recorder.appending ⟨envelope, body⟩)).1; markAppendSuccess 1)
        fun world' recorder' _ => ∃ envelope, StandsAt parseUuid world' recorder' id (known ++ [⟨envelope, body⟩]) := by
      refine writes_answered ?_
      intro sequence hok hmarked
      have hstep' := (hstep envelope later hlat (hstd'.eq_of_accepted hsound.numbered hok)).1
      refine ⟨envelope, hstd.workflowId, ?_, ?_, ?_⟩
      · change sequence.head ≤ _
        rw [head_of_markAppendSuccess hmarked, List.length_append]
        exact Nat.add_le_add_right hstd.head 1
      · exact (hstd'.known.disciplined.step parses hstep' hown).mono (DeadlineWorld.Refreshed.mono hguarantee.later.refreshes)
      · rw [hhist hok]
    refine ⟨hguarantee, Service.Guards.mono hafter ?_⟩
    rintro world'' outcome ⟨hlat', hpost⟩
    exact ⟨(hlat.trans hguarantee.later).trans hlat', hpost⟩

theorem Writes.mono {post' : DeadlineWorld → Recorder → α → Prop}
    (h : Writes parseUuid actor world recorder operation post)
    (himp : ∀ world' recorder' value, Later parseUuid world world' → post world' recorder' value →
        post' world' recorder' value) : Writes parseUuid actor world recorder operation post' := by
  refine Service.Guards.mono h ?_
  rintro world' outcome ⟨hlat, hpost⟩
  exact ⟨hlat, fun value hval => himp world' outcome.2 value hlat (hpost value hval)⟩

/-- The operation leaves the recorder as it was, however it ends. -/
def Leaves (parseUuid : String → Option Uuid) (actor : DeadlineActor) (world : DeadlineWorld)
    (recorder : Recorder) (operation : RecorderM α) : Prop :=
  deadlineService.Guards (Later parseUuid) (Guarantee parseUuid actor)
    (fun world' outcome => Later parseUuid world world' ∧ outcome.2 = recorder) world
      (operation recorder)

theorem Leaves.bind (h : Leaves parseUuid actor world recorder operation)
    (hf : ∀ world' value, Later parseUuid world world' →
        Leaves parseUuid actor world' recorder (f value)) :
    Leaves parseUuid actor world recorder (operation >>= f) := by
  refine Service.Guards.bind h ?_
  rintro world' ⟨error | value, recorder'⟩ ⟨hlat, rfl⟩
  · exact ⟨hlat, rfl⟩
  · refine (hf world' value hlat).mono ?_
    rintro world'' outcome ⟨hlat', hout⟩
    exact ⟨hlat.trans hlat', hout⟩

theorem leaves_lift : Leaves parseUuid actor world recorder (RecorderM.lift result) :=
  ⟨Later.refl world, rfl⟩

theorem leaves_get : Leaves parseUuid actor world recorder RecorderM.get :=
  ⟨Later.refl world, rfl⟩

include parses sound in
theorem leaves_call (hnone : ∀ answer, acceptedBatch call answer = none) :
    Leaves parseUuid actor world recorder (RecorderM.call call) := by
  refine guards_call parses sound hnone ?_
  intro world' hlat
  have hkept :=
    (@guarantee_of_none parseUuid actor _ (hlat.sound parses sound).numbered call (hnone _)).later
  exact ⟨hlat.trans hkept, rfl⟩

theorem Leaves.writes (h : Leaves parseUuid actor world recorder operation) :
    Writes parseUuid actor world recorder operation fun _ recorder' _ => recorder' = recorder := by
  refine Service.Guards.mono h ?_
  rintro world' outcome ⟨hlat, hout⟩
  exact ⟨hlat, fun _ _ => hout⟩

theorem Leaves.nonfatal {operation : RecorderM Unit}
    (h : Leaves parseUuid actor world recorder operation) :
    Leaves parseUuid actor world recorder (RecorderM.nonfatal operation) :=
  Service.Guards.bind h fun _ _ hended => hended

include parses sound in
theorem leaves_settleTerminalOutboxRowsNonfatal :
    Leaves parseUuid actor world recorder settleTerminalOutboxRowsNonfatal := by
  refine leaves_get.bind ?_
  intro world' value hlat
  exact (leaves_call parses (hlat.sound parses sound) fun _ => rfl).bind fun _ _ _ => leaves_lift

include parses sound in
theorem leaves_upsertVisibilityProjection :
    Leaves parseUuid actor world recorder upsertVisibilityProjection := by
  refine leaves_get.bind ?_
  intro world₁ value hlat₁
  have sound₁ := hlat₁.sound parses sound
  split
  · exact leaves_lift
  · refine (leaves_call parses sound₁ fun _ => rfl).bind ?_
    intro world₂ answer hlat₂
    refine leaves_lift.bind ?_
    intro world₃ history hlat₃
    refine leaves_lift.bind ?_
    intro world₄ record hlat₄
    have sound₄ := ((hlat₂.trans hlat₃).trans hlat₄).sound parses sound₁
    exact (leaves_call parses sound₄ fun _ => rfl).bind fun _ _ _ => leaves_lift

/-- What follows an append leaves the recorder where it stands. -/
theorem Writes.thenLeaves {id : WorkflowId} {operation after : RecorderM Unit}
    {known : List Event}
    (h : Writes parseUuid actor world recorder operation fun world' recorder' _ =>
      ∃ envelope, StandsAt parseUuid world' recorder' id (known ++ [⟨envelope, body⟩]))
    (hafter : ∀ world' recorder', Later parseUuid world world' → Leaves parseUuid actor world' recorder' after) :
    Writes parseUuid actor world recorder (do operation; after) fun world' recorder' _ =>
      ∃ envelope, StandsAt parseUuid world' recorder' id (known ++ [⟨envelope, body⟩]) := by
  refine h.bind ?_
  rintro world' recorder' - hlat ⟨envelope, hstd⟩
  refine (hafter world' recorder' hlat).writes.mono ?_
  rintro world'' _ - hlat' rfl
  exact ⟨envelope, hstd.later hlat'⟩

include parses sound in
theorem writes_appendThenSettle {id : WorkflowId} {known : List Event}
    (h : Writes parseUuid actor world recorder (appendWith now body) fun world' recorder' _ =>
      ∃ envelope, StandsAt parseUuid world' recorder' id (known ++ [⟨envelope, body⟩])) :
    Writes parseUuid actor world recorder (appendThenSettle now body) fun world' recorder' _ =>
      ∃ envelope, StandsAt parseUuid world' recorder' id (known ++ [⟨envelope, body⟩]) :=
  h.thenLeaves fun _ _ hlat => leaves_settleTerminalOutboxRowsNonfatal parses
    (hlat.sound parses sound)

include parses sound in
theorem writes_appendThenUpsert {id : WorkflowId} {known : List Event}
    (h : Writes parseUuid actor world recorder (appendWith now body) fun world' recorder' _ =>
      ∃ envelope, StandsAt parseUuid world' recorder' id (known ++ [⟨envelope, body⟩])) :
    Writes parseUuid actor world recorder (appendThenUpsert now body) fun world' recorder' _ =>
      ∃ envelope, StandsAt parseUuid world' recorder' id (known ++ [⟨envelope, body⟩]) :=
  h.thenLeaves fun _ _ hlat => (leaves_upsertVisibilityProjection parses
      (hlat.sound parses sound)).nonfatal

include parses sound in
/-- The deadline's own operation, with the step that it is when the deadline is outstanding. -/
theorem writes_retireRunDeadline {id : WorkflowId} {known : List Event}
    (hstd : StandsAt parseUuid world recorder id known)
    (hstep : ∀ timerId, outstandingDeadlineTimer parseUuid history run = some timerId →
        ∀ envelope world', Later parseUuid world world' → world'.history id = known →
      DeadlineStep parseUuid id (world'.Refreshed id) known
      ⟨envelope, .timerCancelled timerId .workflowIntent⟩ ∧
      actor.Spares parseUuid known ⟨envelope, .timerCancelled timerId .workflowIntent⟩) :
    Writes parseUuid actor world recorder (retireRunDeadline parseUuid now history run) fun _ _ _ =>
      True := by
  unfold retireRunDeadline
  split
  · rename_i timerId houtst
    exact (writes_appendWith parses sound hstd (hstep timerId houtst)).mono fun _ _ _ _ _ => trivial
  · exact writes_pure trivial

end Rules

/-! ### Terminal writers -/

section Terminals

variable {parseUuid : String → Option Uuid} {actor : DeadlineActor} {world : DeadlineWorld}
  (parses : ParsesDeadlines parseUuid) (sound : Sound parseUuid world)

/-- A run that has started and has no terminal. -/
structure OpenRun (history : List Event) (run : RunId) : Prop where
  started : ∃ event ∈ history, startsRun run event
  noOutcome : terminalOutcomeFromHistory history run = none

/-- A terminal that ends the run, and not by its deadline. -/
structure Ends (run : RunId) (body : EventBody) : Prop where
  terminal : ∀ envelope, isWorkflowTerminal ⟨envelope, body⟩
  kind : ∀ timeout, body ≠ .workflowTimedOut timeout
  own : ∀ input workflowType parent, body = .workflowContinuedAsNew input workflowType parent →
    parent = run

include parses sound in
/-- The terminal of a run that is open. -/
theorem writes_terminal {id : WorkflowId} {known : List Event} (hfree : actor.Free parseUuid)
    (hstd : StandsAt parseUuid world recorder id known) (hopen : OpenRun known run)
    (hends : Ends run body) :
    Writes parseUuid actor world recorder (appendWith now body) fun world' recorder' _ =>
      ∃ envelope, StandsAt parseUuid world' recorder' id (known ++ [⟨envelope, body⟩]) := by
  refine writes_appendWith parses sound hstd ?_
  intro envelope world' hlat hknown
  exact ⟨.ended hopen.started hopen.noOutcome (hends.terminal envelope) hends.kind hends.own,
      hfree _ _⟩

include parses sound in
/-- The deadline after the terminal of the same section: what was read before it still says
whether the deadline is outstanding. -/
theorem meets_retireAfter {id : WorkflowId} (hfree : actor.Free parseUuid)
    (hstd : StandsAt parseUuid world recorder id (history ++ [⟨envelope, body⟩]))
    (inv : LifecycleInvariant history) (hopen : OpenRun history run) (hends : Ends run body) :
    Meets parseUuid actor world (EngineM.recording recorder
        (retireRunDeadline parseUuid now history run)) fun _ _ => True := by
  refine (writes_retireRunDeadline parses sound hstd ?_).recording
  intro timerId houtst envelope' world' hlat hknown
  obtain ⟨outcome, hout, htmo⟩ :=
    inv.outcome_of_ended hopen.started hopen.noOutcome (hends.terminal envelope) hends.own
  have hmark : deadlineMark parseUuid run ⟨envelope, body⟩ = none := by
    have hterm := hends.terminal envelope
    cases body <;> first | rfl | cases hterm
  refine ⟨.retired hout ?_ ?_, hfree _ _⟩
  · intro timeout heq
    exact hends.kind timeout (htmo timeout heq)
  · rw [outstandingDeadlineTimer_of_mark_none hmark]
    exact houtst

include parses sound in
/-- A locked recorder stands at the end of the history, and its run has started. -/
theorem meets_lockRecorder {id : WorkflowId} :
    Meets parseUuid actor world (lockRecorder registered id run) fun world' recorder =>
      StandsAt parseUuid world' recorder id (world'.history id) ∧ ∃ event ∈ world'.history id,
        startsRun run event := by
  refine (meets_readHistory parses sound).bind ?_
  rintro world' history hlat rfl
  have hsound := hlat.sound parses sound
  split_ifs with hstrt
  · rw [Bool.and_eq_true, List.any_eq_true] at hstrt
    refine meets_pure ⟨⟨rfl, ?_, hsound.known id⟩, hstrt.2⟩
    exact (InMemoryStore.historyHead_of_numbered (hsound.numbered id)).le
  · exact meets_throw

include parses sound in
/-- **A locked section**: what it reads under the lock is what its recorder stands at. -/
theorem meets_locked {β : Type} {id : WorkflowId} {body : Recorder → List Event → EngineM β}
    {post : DeadlineWorld → β → Prop}
    (h : ∀ world' recorder, Later parseUuid world world' → StandsAt parseUuid world' recorder id (world'.history id) →
      (∃ event ∈ world'.history id, startsRun run event) →
      Meets parseUuid actor world' (body recorder (world'.history id)) post) :
    Meets parseUuid actor world (do
      let recorder ← lockRecorder registered id run
      let history ← EngineM.readHistory id
      body recorder history) post := by
  refine (meets_lockRecorder parses sound).bind ?_
  rintro world₁ recorder hlat₁ ⟨hstd, started⟩
  have sound₁ := hlat₁.sound parses sound
  refine (meets_readHistory parses sound₁).bind ?_
  rintro world₂ history hlat₂ rfl
  have hgrown := HistoryStep.isPrefix (hlat₂.histories id)
  refine h world₂ recorder (hlat₁.trans hlat₂)
    ⟨hstd.workflowId, ?_, (hlat₂.sound parses sound₁).known id⟩ ?_
  · exact hstd.head.trans hgrown.length_le
  · obtain ⟨event, hmem, hstarts⟩ := started
    exact ⟨event, hgrown.subset hmem, hstarts⟩

/-- The row of a run that timed out says so. -/
theorem Disciplined.visibilityRecord {id : WorkflowId} {record : VisibilityRecord}
    (inv : Disciplined parseUuid id refreshed history) (htimed : TimedOut history run)
    (h : visibilityRecordFromHistory history run = .ok record) :
    record.workflowId = id ∧ record.runId = run ∧ record.status = .timedOut := by
  unfold visibilityRecordFromHistory projectVisibility at h
  split at h
  · cases h
  · rename_i workflowId workflowType startTime hfields
    cases h
    obtain ⟨-, envelope, timeout, hterm⟩ := htimed
    refine ⟨?_, rfl, (Option.some.inj (inv.lifecycle.closed_status _ hterm)).symm⟩
    obtain ⟨event, hmem, hev⟩ := List.exists_of_findSome?_eq_some hfields
    rw [← inv.own event hmem]
    obtain ⟨envelope', body⟩ := event
    cases body <;> first | (cases hev; rfl) | cases hev

include parses sound in
/-- Refreshing the row of a run that timed out. -/
theorem meets_upsertWorkflowVisibility {id : WorkflowId} :
    Meets parseUuid actor world (upsertWorkflowVisibility id run) fun world' _ =>
      TimedOut (world.history id) run → world'.Refreshed id run := by
  refine (meets_readHistory parses sound).bind ?_
  rintro world₁ history hlat₁ rfl
  have sound₁ := hlat₁.sound parses sound
  refine meets_lift.bind ?_
  rintro _ record - ⟨rfl, hrec⟩
  refine guards_call parses sound₁ (fun _ => rfl) ?_
  intro world₂ hlat₂
  have hkept := (@guarantee_of_none parseUuid actor _ (hlat₂.sound parses sound₁).numbered (.recordVisibility record) rfl).later
  refine ⟨hlat₂.trans hkept, ?_⟩
  intro value hval htimed
  have htimed₁ := ((sound.known id).later hlat₁).timedOut parses htimed
  exact ⟨record, List.mem_append_right _ (List.mem_singleton_self record),
    (sound₁.disciplined id).visibilityRecord htimed₁ hrec⟩

include parses sound in
/-- Recording a terminal and retiring the deadline, as every terminal writer does. -/
theorem meets_endRun {β : Type} {id : WorkflowId}
    {record : RecorderM Unit} {next : EngineM β} (hfree : actor.Free parseUuid)
    (hopen : OpenRun (world.history id) run) (hends : Ends run body)
    (hrec : Writes parseUuid actor world recorder record fun world' recorder' _ =>
      ∃ envelope, StandsAt parseUuid world' recorder' id (world.history id ++ [⟨envelope, body⟩]))
    (hnext : ∀ world', Sound parseUuid world' → Meets parseUuid actor world' next fun _ _ => True) :
    Meets parseUuid actor world (do
      let (_, recorder) ← EngineM.recording recorder record
      let _ ← EngineM.recording recorder (retireRunDeadline parseUuid now (world.history id) run)
      next) fun _ _ => True := by
  refine hrec.recording.bind ?_
  rintro world₁ ⟨_, recorder₁⟩ hlat₁ ⟨envelope, hstd₁⟩
  have sound₁ := hlat₁.sound parses sound
  refine (meets_retireAfter parses sound₁ hfree hstd₁
      (sound.disciplined id).lifecycle hopen hends).bind ?_
  intro world₂ _ hlat₂ _
  exact hnext world₂ (hlat₂.sound parses sound₁)

include parses sound in
theorem meets_terminateWith {id : WorkflowId} (hfree : actor.Free parseUuid)
    (hends : Ends run body) :
    Meets parseUuid actor world (terminateWith parseUuid now registered id run
        (appendThenSettle now body)) fun _ _ => True := by
  refine meets_locked parses sound ?_
  intro world₁ recorder hlat₁ hstd started
  have sound₁ := hlat₁.sound parses sound
  refine meets_lift.bind ?_
  rintro world₁ _ - ⟨rfl, hchecked⟩
  have hopen : OpenRun (world₁.history id) run := ⟨started, rejectIfRecordedTerminal_eq_ok hchecked⟩
  refine meets_endRun parses sound₁ hfree hopen hends
    (writes_appendThenSettle parses sound₁ (writes_terminal parses sound₁ hfree hstd hopen hends))
      ?_
  intro world₂ sound₂
  exact (meets_upsertWorkflowVisibility parses sound₂).mono fun _ _ _ _ => trivial

include parses sound in
theorem writes_readHistory {id : WorkflowId} :
    Writes parseUuid actor world recorder (RecorderM.call (.readHistory id))
      fun world' recorder' answer => recorder' = recorder ∧ answer = .ok (world'.history id) := by
  refine guards_call parses sound (fun _ => rfl) ?_
  intro world' hlat
  rw [serve_readHistory]
  refine ⟨hlat, ?_⟩
  rintro _ ⟨⟩
  exact ⟨rfl, congrArg Except.ok (InMemoryStore.readHistory_of_numbered
      (hlat.sound parses sound).numbered id)⟩

/-- A recorder that stands somewhere stands at the end of what is read later. -/
theorem StandsAt.reread {id : WorkflowId} {world' : DeadlineWorld}
    (hstd : StandsAt parseUuid world recorder id (world.history id))
    (hlat : Later parseUuid world world') (sound' : Sound parseUuid world') :
    StandsAt parseUuid world' recorder id (world'.history id) :=
  ⟨hstd.workflowId, hstd.head.trans (HistoryStep.isPrefix (hlat.histories id)).length_le,
      sound'.known id⟩

variable {cause : Option TimerCancelCause} {outcome : ProcessOutcome} {handle : WorkflowHandle}
  {env : StartEnvironment} {input : Payload} {timerId : TimerId}

include parses sound in
theorem writes_recordUnlessTerminal {id : WorkflowId} (hfree : actor.Free parseUuid)
    (hstd : StandsAt parseUuid world recorder id (world.history id)) :
    Writes parseUuid actor world recorder
      (recordUnlessTerminal id now (timerOutcomeBody timerId cause)) fun _ _ _ => True := by
  refine (writes_readHistory parses sound).bind ?_
  rintro world₁ recorder _ hlat₁ ⟨rfl, rfl⟩
  have sound₁ := hlat₁.sound parses sound
  have hstd₁ := hstd.reread hlat₁ sound₁
  refine writes_lift.bind ?_
  rintro world₁ recorder history - ⟨rfl, rfl, hread⟩
  obtain rfl : world₁.history id = history := Except.ok.inj hread
  by_cases hopen : activeRunHasTerminal (world₁.history id) = true
  · simp only [hopen, if_true]
    exact writes_pure trivial
  · simp only [hopen]
    refine Writes.bind (writes_appendWith parses sound₁ hstd₁ ?_) fun _ _ _ _ _ =>
      writes_pure trivial
    intro envelope world' hlat hknown
    exact ⟨.settled (Bool.eq_false_iff.mpr hopen), hfree _ _⟩

include parses sound in
theorem meets_recordTimerOutcome {id : WorkflowId} (hfree : actor.Free parseUuid) :
    Meets parseUuid actor world (recordTimerOutcome now registered id run timerId cause) fun _ _ =>
      True := by
  refine (meets_lockRecorder parses sound).bind ?_
  rintro world₁ recorder hlat₁ ⟨hstd, -⟩
  have sound₁ := hlat₁.sound parses sound
  exact (writes_recordUnlessTerminal parses sound₁ hfree hstd).recording.bind fun _ _ _ _ =>
    meets_pure trivial

include parses sound in
theorem meets_cancelInflightTimers {id : WorkflowId} (hfree : actor.Free parseUuid) :
    Meets parseUuid actor world (cancelInflightTimers now registered id run timers) fun _ _ =>
      True := by
  induction timers generalizing world with
  | nil => exact meets_pure trivial
  | cons timerId rest ih =>
    refine (meets_recordTimerOutcome parses sound hfree).attempt.bind ?_
    intro world₁ _ hlat₁ _
    exact ih (hlat₁.sound parses sound)

include parses sound in
theorem meets_engineCancelCall {id : WorkflowId} {reason : String} (hfree : actor.Free parseUuid) :
    Meets parseUuid actor world (engineCancelCall parseUuid now registered id run reason) fun _ _ =>
      True := by
  refine (meets_readHistory parses sound).bind ?_
  rintro world₁ _ hlat₁ rfl
  have sound₁ := hlat₁.sound parses sound
  refine (meets_cancelInflightTimers parses sound₁ hfree).bind ?_
  intro world₂ _ hlat₂ _
  exact meets_terminateWith parses (hlat₂.sound parses sound₁) hfree
    ⟨fun _ => rfl, by simp, by simp⟩

/-- A continue-as-new ends its own run. -/
theorem ends_continueAsNew {workflowType : Option String} :
    Ends run (.workflowContinuedAsNew input workflowType run) := by
  refine ⟨fun _ => rfl, by simp, ?_⟩
  rintro _ _ _ ⟨⟩
  rfl

include parses sound in
theorem meets_nifContinueAsNewCall {id : WorkflowId} (hfree : actor.Free parseUuid) :
    Meets parseUuid actor world (nifContinueAsNewCall parseUuid now registered id run input)
      fun _ _ => True := by
  refine meets_locked parses sound ?_
  intro world₁ recorder hlat₁ hstd started
  have sound₁ := hlat₁.sound parses sound
  refine meets_liftDurability.bind ?_
  rintro world₁ _ - ⟨rfl, hchecked⟩
  have hopen : OpenRun (world₁.history id) run := by
    refine ⟨started, ?_⟩
    unfold continueAsNew at hchecked
    split_ifs at hchecked with hout
    simpa using hout
  refine meets_endRun parses sound₁ hfree hopen ends_continueAsNew
    (writes_appendThenUpsert parses sound₁ (writes_terminal parses sound₁ hfree hstd hopen ends_continueAsNew)) ?_
  exact fun _ _ => meets_pure trivial

include parses sound in
/-- The deadline of a run that has ended otherwise, by whoever comes upon it. -/
theorem meets_retireEnded {id : WorkflowId} {outcome : TerminalOutcome}
    (hfree : actor.Free parseUuid) (hstd : StandsAt parseUuid world recorder id (world.history id))
    (hout : terminalOutcomeFromHistory (world.history id) run = some outcome)
    (hkind : ∀ timeout, outcome ≠ .timedOut timeout) :
    Meets parseUuid actor world (EngineM.recording recorder
        (retireRunDeadline parseUuid now (world.history id) run))
      fun _ _ => True := by
  refine (writes_retireRunDeadline parses sound hstd ?_).recording
  intro timerId houtst envelope world' hlat hknown
  exact ⟨.retired hout hkind houtst, hfree _ _⟩

include parses sound in
theorem meets_continueAsNewCall {override : Option String} (hfree : actor.Free parseUuid)
    (hstd : StandsAt parseUuid world recorder handle.workflowId (world.history handle.workflowId))
    (started : ∃ event ∈ world.history handle.workflowId, startsRun handle.runId event) :
    Meets parseUuid actor world (continueAsNewCall parseUuid env handle recorder input override)
      fun _ _ => True := by
  unfold continueAsNewCall
  simp only
  split_ifs
  · exact meets_throw
  · exact meets_throw
  · refine (meets_readHistory parses sound).bind ?_
    rintro world₁ _ hlat₁ rfl
    have sound₁ := hlat₁.sound parses sound
    have hstd₁ := hstd.reread hlat₁ sound₁
    split_ifs with hout
    · exact meets_throw
    · refine meets_lift.bind ?_
      rintro world₁ _ - ⟨rfl, -⟩
      obtain ⟨event, hmem, hstarts⟩ := started
      have hopen : OpenRun (world₁.history handle.workflowId) handle.runId :=
        ⟨⟨event, (HistoryStep.isPrefix (hlat₁.histories _)).subset hmem, hstarts⟩, by simpa using hout⟩
      refine meets_endRun parses sound₁ hfree hopen ends_continueAsNew
        (writes_appendThenUpsert parses sound₁ (writes_terminal parses sound₁ hfree hstd₁ hopen ends_continueAsNew)) ?_
      exact fun _ _ => meets_pure trivial

/-- The terminal that the monitor records. -/
def processOutcomeBody : ProcessOutcome → EventBody
  | .completed result => .workflowCompleted result
  | .failed error => .workflowFailed error
  | .unobserved error => .workflowFailed ⟨"workflow process monitor failed: " ++ error, none⟩

theorem recordProcessOutcome_eq (env : StartEnvironment) (outcome : ProcessOutcome) :
    recordProcessOutcome env outcome = appendThenSettle env.startedAt
      (processOutcomeBody outcome) := by
  cases outcome <;> rfl

theorem ends_processOutcomeBody : Ends run (processOutcomeBody outcome) := by
  cases outcome with
  | completed result =>
    exact ⟨fun _ => rfl, by simp [processOutcomeBody], by simp [processOutcomeBody]⟩
  | failed error => exact ⟨fun _ => rfl, by simp [processOutcomeBody], by simp [processOutcomeBody]⟩
  | unobserved error =>
    exact ⟨fun _ => rfl, by simp [processOutcomeBody], by simp [processOutcomeBody]⟩

include parses sound in
theorem meets_processExitCall (hfree : actor.Free parseUuid)
    (hstd : StandsAt parseUuid world recorder handle.workflowId (world.history handle.workflowId))
    (started : ∃ event ∈ world.history handle.workflowId, startsRun handle.runId event) :
    Meets parseUuid actor world (processExitCall parseUuid env handle recorder outcome) fun _ _ =>
      True := by
  -- What is left after the section only reads.
  have hread : ∀ {β : Type} {next : List Event → EngineM β} (world' : DeadlineWorld),
    Sound parseUuid world' →
      (∀ world'' history, Sound parseUuid world'' → Meets parseUuid actor world'' (next history) fun _ _ => True) →
      Meets parseUuid actor world' (EngineM.readHistory handle.workflowId >>= next) fun _ _ => True := by
    intro β next world' sound' hnext
    refine (meets_readHistory parses sound').bind ?_
    rintro world'' history hlat -
    exact hnext world'' history (hlat.sound parses sound')
  refine (meets_readHistory parses sound).bind ?_
  rintro world₁ _ hlat₁ rfl
  have sound₁ := hlat₁.sound parses sound
  have hstd₁ := hstd.reread hlat₁ sound₁
  split
  · exact hread world₁ sound₁ fun _ _ _ => meets_pure trivial
  · rename_i input workflowType parentRunId hout
    refine (meets_retireEnded parses sound₁ hfree hstd₁ hout (by simp)).bind ?_
    intro world₂ _ hlat₂ _
    refine hread world₂ (hlat₂.sound parses sound₁) fun world₃ _ sound₃ =>
      hread world₃ sound₃ fun _ current _ => ?_
    split
    · exact meets_pure trivial
    · exact meets_pure trivial
  · rename_i existing htimed hcontd hout
    refine (meets_retireEnded parses sound₁ hfree hstd₁ hout ?_).bind ?_
    · rintro timeout rfl
      exact htimed timeout rfl
    · intro world₂ _ hlat₂ _
      exact hread world₂ (hlat₂.sound parses sound₁) fun _ _ _ => meets_pure trivial
  · rename_i hout
    obtain ⟨event, hmem, hstarts⟩ := started
    have hopen : OpenRun (world₁.history handle.workflowId) handle.runId :=
      ⟨⟨event, (HistoryStep.isPrefix (hlat₁.histories _)).subset hmem, hstarts⟩, hout⟩
    rw [recordProcessOutcome_eq]
    refine meets_endRun parses sound₁ hfree hopen ends_processOutcomeBody
      (writes_appendThenSettle parses sound₁ (writes_terminal parses sound₁ hfree hstd₁ hopen ends_processOutcomeBody)) ?_
    intro world₂ sound₂
    refine (meets_upsertWorkflowVisibility parses sound₂).bind ?_
    intro world₃ _ hlat₃ _
    exact hread world₃ (hlat₃.sound parses sound₂) fun _ _ _ => meets_pure trivial

end Terminals

/-! ### The elapsed deadline -/

theorem nodup_liveTimersInActiveSegment (history : List Event) :
    (liveTimersInActiveSegment history).Nodup := by
  induction history using List.reverseRecOn with
  | nil => exact List.nodup_nil
  | append_singleton history event ih =>
    rw [liveTimersInActiveSegment_concat]
    split_ifs
    · exact List.nodup_nil
    · obtain ⟨envelope, body⟩ := event
      cases body with
      | timerStarted timerId fireAt =>
        simp only [liveStep]
        split_ifs with hmem
        · exact ih
        · rw [← List.concat_eq_append]
          exact List.Nodup.concat hmem ih
      | timerFired timerId => exact ih.filter _
      | timerCancelled timerId cause => exact ih.filter _
      | _ => exact ih

section Elapsed

variable {parseUuid : String → Option Uuid} {actor : DeadlineActor} {world : DeadlineWorld}
  (parses : ParsesDeadlines parseUuid) (sound : Sound parseUuid world)

include parses sound in
/-- Stopping the timers one by one: what is left to stop is live, and nothing else but the
deadline is. -/
theorem writes_retireOthers {id : WorkflowId} {known : List Event} (hfree : actor.Free parseUuid)
    (hstd : StandsAt parseUuid world recorder id known) (htimed : TimedOut known run)
    (hnd : timers.Nodup) (hlive : ∀ timerId ∈ timers, timerId ∈ liveTimersInActiveSegment known)
    (hrest : ∀ timerId ∈ liveTimersInActiveSegment known, timerId ∈ timers ∨
        outstandingDeadlineTimer parseUuid known run = some timerId) :
    Writes parseUuid actor world recorder
      (retireOthers now (outstandingDeadlineTimer parseUuid known run) timers)
      fun world' recorder' _ => ∃ stopped, StandsAt parseUuid world' recorder' id stopped ∧
        Stopped parseUuid stopped run ∧
        outstandingDeadlineTimer parseUuid stopped run =
          outstandingDeadlineTimer parseUuid known run := by
  induction timers generalizing world recorder known with
  | nil =>
    refine writes_pure ⟨known, hstd, ⟨htimed, ?_⟩, rfl⟩
    intro timerId hmem
    exact (hrest timerId hmem).resolve_left (by simp)
  | cons timerId rest ih =>
    obtain ⟨hfst, hnd'⟩ := List.nodup_cons.mp hnd
    unfold retireOthers
    split_ifs with hdeadline
    · refine ih sound hstd htimed hnd' (fun t hmem => hlive t (List.mem_cons_of_mem _ hmem)) ?_
      intro t hmem
      rcases hrest t hmem with hmem' | hown
      · rcases List.mem_cons.mp hmem' with rfl | hmem'
        · exact .inr hdeadline
        · exact .inl hmem'
      · exact .inr hown
    · have hmem := hlive timerId List.mem_cons_self
      refine (writes_appendWith parses sound hstd ?_).bind ?_
      · intro envelope world' hlat hknown
        exact ⟨.stopped htimed hmem hdeadline, hfree _ _⟩
      · rintro world₁ recorder₁ - hlat₁ ⟨envelope, hstd₁⟩
        have hstep : DeadlineStep parseUuid id (world.Refreshed id) known ⟨envelope, .timerCancelled timerId .workflowIntent⟩ :=
          .stopped htimed hmem hdeadline
        have hmark : deadlineMark parseUuid run ⟨envelope, .timerCancelled timerId .workflowIntent⟩ = none := by
          obtain ⟨-, ⟨-, hmark⟩ | ⟨_, _, _, heq, ⟨hmark, -⟩ | ⟨hown, -⟩⟩⟩ :=
            hstd.known.disciplined.step_of_timedOut htimed hstep
          · exact hmark
          · exact hmark
          · cases heq
            exact absurd hown hdeadline
        have hsame := @outstandingDeadlineTimer_of_mark_none parseUuid known _ run hmark
        rw [← hsame]
        refine ih (hlat₁.sound parses sound) hstd₁ (hstd.known.disciplined.timedOut_step hstep htimed) hnd' ?_ ?_
        · intro t ht
          rw [live_cancelled, List.mem_filter]
          refine ⟨hlive t (List.mem_cons_of_mem _ ht), decide_eq_true ?_⟩
          rintro rfl
          exact hfst ht
        · intro t ht
          rw [live_cancelled, List.mem_filter, decide_eq_true_eq] at ht
          rw [hsame]
          rcases hrest t ht.1 with ht' | hown
          · exact .inl ((List.mem_cons.mp ht').resolve_left ht.2)
          · exact .inr hown

include parses sound in
theorem writes_recordOrdinaryTimerRetirements {id : WorkflowId} {known : List Event}
    (hfree : actor.Free parseUuid) (hstd : StandsAt parseUuid world recorder id known)
    (htimed : TimedOut known run) :
    Writes parseUuid actor world recorder (recordOrdinaryTimerRetirements parseUuid now known run)
      fun world' recorder' _ => ∃ stopped, StandsAt parseUuid world' recorder' id stopped ∧
        Stopped parseUuid stopped run ∧
        outstandingDeadlineTimer parseUuid stopped run =
          outstandingDeadlineTimer parseUuid known run :=
  writes_retireOthers parses sound hfree hstd htimed (nodup_liveTimersInActiveSegment known)
    (fun _ hmem => hmem)
    fun _ hmem => .inl hmem

/-- The deadline may be retired once the others are stopped and the row is refreshed. -/
theorem Stopped.released {history : List Event} {run : RunId} {id : WorkflowId}
    {refreshed : RunId → Prop} {timerId : TimerId} {envelope : EventEnvelope}
    (hstop : Stopped parseUuid history run) (hfresh : refreshed run)
    (houtst : outstandingDeadlineTimer parseUuid history run = some timerId) :
    DeadlineStep parseUuid id refreshed history
      ⟨envelope, .timerCancelled timerId .workflowIntent⟩ := by
  refine .released hstop.1 houtst ?_ hfresh
  intro live hmem
  exact Option.some.inj ((hstop.2 live hmem).symm.trans houtst)

variable {runtime : Bool}

include parses sound in
theorem meets_tearDown {id : WorkflowId} (hfree : actor.Free parseUuid)
    (htimed : TimedOut (world.history id) run) :
    Meets parseUuid actor world (tearDown parseUuid now registered runtime id run) fun _ _ =>
      True := by
  refine meets_locked parses sound ?_
  intro world₁ recorder₁ hlat₁ hstd₁ _
  have sound₁ := hlat₁.sound parses sound
  have htimed₁ := ((sound.known id).later hlat₁).timedOut parses htimed
  refine (writes_recordOrdinaryTimerRetirements parses sound₁ hfree hstd₁ htimed₁).recording.bind ?_
  rintro world₂ ⟨_, recorder₂⟩ hlat₂ ⟨stopped, hstd₂, hstop, -⟩
  have sound₂ := hlat₂.sound parses sound₁
  have hstop₂ := hstd₂.known.stopped parses hstop
  refine meets_lift.bind ?_
  rintro world₂ _ - ⟨rfl, -⟩
  refine (meets_upsertWorkflowVisibility parses sound₂).bind ?_
  intro world₃ _ hlat₃ hfresh
  have sound₃ := hlat₃.sound parses sound₂
  refine meets_locked parses sound₃ ?_
  intro world₄ recorder₄ hlat₄ hstd₄ _
  have sound₄ := hlat₄.sound parses sound₃
  have hstop₄ := ((sound₂.known id).later (hlat₃.trans hlat₄)).stopped parses hstop₂
  refine (writes_retireRunDeadline parses sound₄ hstd₄ ?_).recording.bind fun _ _ _ _ =>
    meets_pure trivial
  intro timerId houtst envelope world₅ hlat₅ _
  refine ⟨hstop₄.released ?_ houtst, hfree _ _⟩
  exact DeadlineWorld.Refreshed.mono (hlat₄.trans hlat₅).refreshes run (hfresh hstop₂.1)

include parses sound in
theorem meets_finalizeTimedOutWithoutHandle {id : WorkflowId} (hfree : actor.Free parseUuid) :
    Meets parseUuid actor world (finalizeTimedOutWithoutHandle parseUuid now id run) fun _ _ =>
      True := by
  refine (meets_readHistory parses sound).bind ?_
  rintro world₁ _ hlat₁ rfl
  have sound₁ := hlat₁.sound parses sound
  split
  · rename_i timeout hout
    have htimed := (sound₁.disciplined id).lifecycle.timedOut hout
    have hstd₁ : StandsAt parseUuid world₁
      (Recorder.resumeAt id (InMemoryStore.historyHead (world₁.history id))) id
        (world₁.history id) :=
      ⟨rfl, (InMemoryStore.historyHead_of_numbered (sound₁.numbered id)).le, sound₁.known id⟩
    refine (writes_recordOrdinaryTimerRetirements parses sound₁ hfree hstd₁ htimed).recording.bind
      ?_
    rintro world₂ ⟨_, recorder₂⟩ hlat₂ ⟨stopped, hstd₂, hstop, hsame⟩
    have sound₂ := hlat₂.sound parses sound₁
    refine (meets_upsertWorkflowVisibility parses sound₂).bind ?_
    intro world₃ _ hlat₃ hfresh
    have sound₃ := hlat₃.sound parses sound₂
    -- The deadline was read before the others were stopped; that left it alone.
    refine (writes_retireRunDeadline parses sound₃ (hstd₂.later hlat₃) ?_).recording.bind
      fun _ _ _ _ => meets_pure trivial
    intro timerId houtst envelope world₄ hlat₄ _
    refine ⟨hstop.released ?_ (hsame.trans houtst), hfree _ _⟩
    exact DeadlineWorld.Refreshed.mono hlat₄.refreshes run
      (hfresh (hstd₂.known.timedOut parses hstop.1))
  · exact meets_pure trivial

include parses sound in
/-- When the deadline does not lose, the run has timed out. -/
theorem meets_decideDispositionCall {id : WorkflowId} (hfree : actor.Free parseUuid) :
    Meets parseUuid actor world (decideDispositionCall parseUuid now registered id run)
      fun world' disposition => disposition ≠ .loseCleanly → TimedOut (world'.history id) run := by
  refine meets_locked parses sound ?_
  intro world₁ recorder hlat₁ hstd started
  have sound₁ := hlat₁.sound parses sound
  split
  · rename_i timeout hout
    exact meets_pure fun _ => (sound₁.disciplined id).lifecycle.timedOut hout
  · rename_i existing htimed hout
    refine (meets_retireEnded parses sound₁ hfree hstd hout ?_).bind fun _ _ _ _ =>
      meets_pure fun h => absurd rfl h
    rintro timeout rfl
    exact htimed timeout rfl
  · rename_i hout
    split_ifs with houtst
    · exact meets_pure fun h => absurd rfl h
    · refine (writes_appendThenSettle parses sound₁ (writes_appendWith parses sound₁ hstd ?_)).recording.bind ?_
      · intro envelope world' hlat hknown
        refine ⟨.timedOut started hout ?_, hfree _ _⟩
        exact Option.isSome_iff_ne_none.mpr fun hnone => houtst (Option.isNone_iff_eq_none.mpr hnone)
      · rintro world₂ ⟨_, recorder₂⟩ hlat₂ ⟨envelope, hstd₂⟩
        refine meets_pure fun _ => ?_
        exact hstd₂.known.timedOut parses
          ((sound₁.disciplined id).lifecycle.timedOut_of_recorded started hout envelope workflowTimeoutDescriptor)

include parses sound in
theorem meets_driveTimedOut {id : WorkflowId} (hfree : actor.Free parseUuid) :
    Meets parseUuid actor world (driveTimedOut parseUuid now registered runtime id run) fun _ _ =>
      True := by
  unfold driveTimedOut
  split_ifs
  · refine (meets_decideDispositionCall parses sound hfree).bind ?_
    rintro world₁ disposition hlat₁ htimed
    have sound₁ := hlat₁.sound parses sound
    cases disposition with
    | loseCleanly => exact meets_pure trivial
    | appended => exact meets_tearDown parses sound₁ hfree (htimed (by simp))
    | resumeTeardown => exact meets_tearDown parses sound₁ hfree (htimed (by simp))
  · exact meets_finalizeTimedOutWithoutHandle parses sound hfree

end Elapsed

/-! ### The sweep and the other writers -/

section Sweep

variable {parseUuid : String → Option Uuid} {actor : DeadlineActor} {world : DeadlineWorld}
  (parses : ParsesDeadlines parseUuid) (sound : Sound parseUuid world)

/-- An orphaned deadline is outstanding, and its run ended otherwise. -/
theorem isOrphanedTerminalDeadline_eq_true :
    isOrphanedTerminalDeadline parseUuid history run = true ↔
      (∃ timerId, outstandingDeadlineTimer parseUuid history run = some timerId) ∧
        ∃ outcome, terminalOutcomeFromHistory history run = some outcome ∧ ∀ timeout,
          outcome ≠ .timedOut timeout := by
  unfold isOrphanedTerminalDeadline
  cases houtst : outstandingDeadlineTimer parseUuid history run with
  | none => simp
  | some timerId =>
    cases hout : terminalOutcomeFromHistory history run with
    | none => simp
    | some outcome => cases outcome <;> simp

variable {live : WorkflowId → Bool} {backend : TimerBackend} {scope : SweepScope}
  {rows : TimerRows}

include parses sound in
theorem meets_retireOrphaned {id : WorkflowId} :
    Meets parseUuid (.sweep backend scope live rows) world
      (retireOrphanedTerminalDeadlineIndependent parseUuid now id run)
      fun _ _ => True := by
  refine (meets_readHistory parses sound).bind ?_
  rintro world₁ _ hlat₁ rfl
  have sound₁ := hlat₁.sound parses sound
  split_ifs with horph
  · obtain ⟨-, outcome, hout, hkind⟩ := isOrphanedTerminalDeadline_eq_true.mp horph
    have hstd : StandsAt parseUuid world₁
      (Recorder.resumeAt id (InMemoryStore.historyHead (world₁.history id))) id
        (world₁.history id) :=
      ⟨rfl, (InMemoryStore.historyHead_of_numbered (sound₁.numbered id)).le, sound₁.known id⟩
    refine (writes_retireRunDeadline parses sound₁ hstd ?_).recordingElse ?_
    · intro timerId houtst envelope world' hlat hknown
      exact ⟨.retired hout hkind houtst, envelope, run, timerId, rfl, horph, houtst⟩
    · intro world₂ error hlat₂
      unfold afterRefusal
      split
      · refine (meets_readHistory parses (hlat₂.sound parses sound₁)).bind ?_
        rintro world₃ _ hlat₃ rfl
        split_ifs
        · exact meets_throw
        · exact meets_pure trivial
      · exact meets_throw
  · exact meets_pure trivial

include parses sound in
theorem meets_sweepEntries {scope' : SweepScope} {live' : WorkflowId → Bool}
    {entries : List TimerEntry} :
    Meets parseUuid (.sweep backend scope live rows) world
      (sweepEntries parseUuid now scope' live' entries) fun _ _ => True := by
  induction entries generalizing world with
  | nil => exact meets_pure trivial
  | cons entry rest ih =>
    unfold sweepEntries
    split
    · exact ih sound
    · rename_i run hrun
      have hrepair : Meets parseUuid (.sweep backend scope live rows) world
          (repairOrphanedTerminalDeadline parseUuid now scope' live' entry.workflowId run) fun _ _ => True := by
        unfold repairOrphanedTerminalDeadline
        split_ifs
        · split
          · exact meets_throw
          · exact meets_pure trivial
        · exact meets_retireOrphaned parses sound
      refine hrepair.bind ?_
      intro world₁ _ hlat₁ _
      exact ih (hlat₁.sound parses sound)

include parses sound in
theorem meets_writeChosen {id : WorkflowId} {choose : List Event → Option EventBody}
    (hfree : actor.Free parseUuid)
    (regular : ∀ history body envelope, choose history = some body →
        Regular id history ⟨envelope, body⟩) :
    Meets parseUuid actor world (writeChosen now id choose) fun _ _ => True := by
  refine (meets_readHistory parses sound).bind ?_
  rintro world₁ _ hlat₁ rfl
  have sound₁ := hlat₁.sound parses sound
  split
  · exact meets_pure trivial
  · rename_i body hchosen
    have hstd : StandsAt parseUuid world₁
      (Recorder.resumeAt id (InMemoryStore.historyHead (world₁.history id))) id
        (world₁.history id) :=
      ⟨rfl, (InMemoryStore.historyHead_of_numbered (sound₁.numbered id)).le, sound₁.known id⟩
    refine (writes_appendWith parses sound₁ hstd ?_).recording.bind fun _ _ _ _ =>
      meets_pure trivial
    intro envelope world' hlat hknown
    exact ⟨.regular (regular _ body envelope hchosen), hfree _ _⟩

include parses sound in
/-- Every actor keeps to the discipline, wherever it begins. -/
theorem meets_call (actor : DeadlineActor) (env : StartEnvironment) :
    Meets parseUuid actor world (actor.call parseUuid env) fun _ _ => True := by
  cases actor with
  | complete registered id run result =>
    exact meets_terminateWith parses sound (fun _ _ => trivial) ⟨fun _ => rfl, by simp, by simp⟩
  | fail registered id run error =>
    exact meets_terminateWith parses sound (fun _ _ => trivial) ⟨fun _ => rfl, by simp, by simp⟩
  | cancel registered id run reason => exact meets_engineCancelCall parses sound fun _ _ => trivial
  | continueAsNew registered handle input workflowType =>
    have hfree : (DeadlineActor.continueAsNew registered handle input workflowType).Free parseUuid := fun _ _ => trivial
    refine (meets_lockRecorder parses sound).bind ?_
    rintro world₁ recorder hlat₁ ⟨hstd, started⟩
    have sound₁ := hlat₁.sound parses sound
    exact (meets_continueAsNewCall parses sound₁ hfree hstd started).bind fun _ _ _ _ =>
      meets_pure trivial
  | nifContinueAsNew registered id run input =>
    exact meets_nifContinueAsNewCall parses sound fun _ _ => trivial
  | processExit handle outcome =>
    have hfree : (DeadlineActor.processExit handle outcome).Free parseUuid := fun _ _ => trivial
    refine (meets_lockRecorder parses sound).bind ?_
    rintro world₁ recorder hlat₁ ⟨hstd, started⟩
    have sound₁ := hlat₁.sound parses sound
    exact (meets_processExitCall parses sound₁ hfree hstd started).bind fun _ _ _ _ =>
      meets_pure trivial
  | elapsed registered runtime id run => exact meets_driveTimedOut parses sound fun _ _ => trivial
  | sweep backend scope live rows =>
    change Meets parseUuid _ world (sweepUncancelledTerminalDeadlines parseUuid env.startedAt backend scope live rows) _
    unfold sweepUncancelledTerminalDeadlines
    split
    · exact meets_throw
    · exact meets_sweepEntries parses sound
  | settleTimer registered id run timerId cause =>
    exact meets_recordTimerOutcome parses sound fun _ _ => trivial
  | writing id choose regular => exact meets_writeChosen parses sound (fun _ _ => trivial) regular
  | «over» => exact meets_pure trivial

end Sweep

end Aion
