import Aion.Library.Serving
import Aion.Lifecycle.Successors

/-!
# A store that may refuse

A lifecycle operation goes to the store several times, and any of these calls can fail
(`FaultyAnswers`): the store then stays as it is. The lemmas say how the parts of an operation
end on such a store. A recorder operation appends its event or fails and appends nothing; what it
does besides, for the outbox and the visibility rows, leaves every history alone.
-/

namespace Aion

open Interleaving

/-! ### Refused calls -/

/-- The answer is an error. -/
def StoreCall.Refusal : (call : StoreCall) → call.Answer → Prop
  | .append .., .error _ => True
  | .appendWithOutbox .., .error _ => True
  | .readHistory _, .error _ => True
  | .recordVisibility _, .error _ => True
  | .settleWorkflowOutboxRowsCancelled _, .error _ => True
  | .settleOutboxRowCancelled _, .error _ => True
  | _, _ => False

/-- The store serves the call, or refuses it and stays as it is. -/
def FaultyAnswers : Answers InMemoryStore StoreCall StoreCall.Answer :=
  fun store call answer store' =>
  store.serve call = (answer, store') ∨ call.Refusal answer ∧ store' = store

/-- Without faults a program ends the way it runs. -/
theorem ends_faultless {α : Type} (program : Prog StoreCall StoreCall.Answer α)
    (store : InMemoryStore) :
    program.Ends FaultyAnswers store (storeService.run program store).1
      (storeService.run program store).2 :=
  (ends_run storeService program store).mono fun h => .inl h

variable {answer : Except StoreError Unit} {events history : List Event} {expectedSeq : ℕ}

/-- An append is accepted, or refused and the store stays as it is. -/
theorem appendAnswer_cases {store store' : InMemoryStore} {workflowId : WorkflowId}
    (h : store.appendAnswer workflowId events expectedSeq = (answer, store')) :
    answer = .ok () ∧ store.append workflowId events expectedSeq = .ok store' ∨
      (∃ error, answer = .error error) ∧ store' = store := by
  unfold InMemoryStore.appendAnswer at h
  split at h
  · next accepted happ =>
    cases h
    exact .inl ⟨rfl, happ⟩
  · next error happ =>
    cases h
    exact .inr ⟨⟨error, rfl⟩, rfl⟩

/-- An append with outbox rows is an append, or is refused. -/
theorem appendWithOutbox_cases {store store' : InMemoryStore} {workflowId : WorkflowId}
    {rows : List OutboxRow}
    (h : store.serve (.appendWithOutbox workflowId events expectedSeq rows) = (answer, store')) :
    store.append workflowId events expectedSeq = .ok store' ∨ store' = store := by
  by_cases hrows : rows = []
  · subst hrows
    exact (appendAnswer_cases h).imp And.right And.right
  · have hserve : store.serve (.appendWithOutbox workflowId events expectedSeq rows) =
        (.error (.backend ("this event store does not support durable-outbox appends; " ++
          "refusing to drop outbox rows (override WritableEventStore::append_with_outbox)")), store) :=
      if_neg hrows
    rw [hserve] at h
    cases h
    exact .inr rfl

/-- Both stores hold the same histories. -/
def SameHistories (store store' : InMemoryStore) : Prop := store'.histories = store.histories

namespace SameHistories

variable {store store' store'' : InMemoryStore}

theorem refl (store : InMemoryStore) : SameHistories store store := rfl

theorem trans (h : SameHistories store store') (h' : SameHistories store' store'') :
    SameHistories store store'' :=
  Eq.trans h' h

theorem history_eq (h : SameHistories store store') (workflowId : WorkflowId) :
    store'.history workflowId = store.history workflowId := by
  rw [InMemoryStore.history, InMemoryStore.history, h]

theorem numbered (h : SameHistories store store') (numbered : store.Numbered) :
    store'.Numbered := by
  intro workflowId
  rw [h.history_eq]
  exact numbered workflowId

end SameHistories

/-- The call appends nothing. -/
def StoreCall.Reads : StoreCall → Prop
  | .append .. => False
  | .appendWithOutbox .. => False
  | _ => True

/-- A program that appends nothing leaves the histories alone. -/
theorem sameHistories_of_reads {α : Type} {program : Prog StoreCall StoreCall.Answer α}
    (hreads : program.Calls StoreCall.Reads) {store last : InMemoryStore} {value : α}
    (h : program.Ends FaultyAnswers store value last) : SameHistories store last := by
  have hkeeps : ∀ {state call answer middle}, call.Reads → FaultyAnswers state call answer middle →
    SameHistories store state →
      SameHistories store middle := by
    rintro state call answer middle hcall (hserv | ⟨-, rfl⟩) hst
    · refine hst.trans ?_
      cases call with
      | append workflowId events expectedSeq => exact absurd hcall id
      | appendWithOutbox workflowId events expectedSeq rows => exact absurd hcall id
      | _ => cases hserv; rfl
    · exact hst
  exact h.keeps hkeeps hreads (.refl store)

/-- Every event the call appends is one that the workflow may get. -/
def StoreCall.AppendsOnly (may : WorkflowId → Event → Prop) : StoreCall → Prop
  | .append workflowId events _ => ∀ event ∈ events, may workflowId event
  | .appendWithOutbox workflowId events _ _ => ∀ event ∈ events, may workflowId event
  | _ => True

/-- Every history has grown by events that its workflow may get. -/
structure GrownBy (may : WorkflowId → Event → Prop) (store store' : InMemoryStore) : Prop where
  numbered : store.Numbered → store'.Numbered
  added : ∀ workflowId, ∃ added, store'.history workflowId = store.history workflowId ++ added ∧
    ∀ event ∈ added, may workflowId event

namespace GrownBy

variable {may : WorkflowId → Event → Prop} {store store' store'' : InMemoryStore}

theorem of_sameHistories (h : SameHistories store store') : GrownBy may store store' where
  numbered := h.numbered
  added workflowId := ⟨[], by rw [h.history_eq, List.append_nil], by simp⟩

theorem refl (store : InMemoryStore) : GrownBy may store store := of_sameHistories (.refl store)

theorem trans (h : GrownBy may store store') (h' : GrownBy may store' store'') :
    GrownBy may store store'' where
  numbered numbered := h'.numbered (h.numbered numbered)
  added workflowId := by
    obtain ⟨added, hadded, hmay⟩ := h.added workflowId
    obtain ⟨added', hadded', hmay'⟩ := h'.added workflowId
    refine ⟨added ++ added', by rw [hadded', hadded, List.append_assoc], fun event hev => ?_⟩
    rcases List.mem_append.mp hev with hev | hev
    · exact hmay event hev
    · exact hmay' event hev

theorem of_append {workflowId : WorkflowId} (hmay : ∀ event ∈ events, may workflowId event)
    (h : store.append workflowId events expectedSeq = .ok store') : GrownBy may store store' where
  numbered numbered := InMemoryStore.append_numbered numbered h
  added id := by
    refine ⟨_, (InMemoryStore.append_eq_ok h).2.2 id, fun event hev => ?_⟩
    split_ifs at hev with hid
    · rw [hid]
      exact hmay event hev
    · cases hev

end GrownBy

/-- A program that appends only such events lets the histories grow by such events. -/
theorem grownBy_of_appendsOnly {α : Type} {may : WorkflowId → Event → Prop}
    {program : Prog StoreCall StoreCall.Answer α}
    (hcalls : program.Calls (StoreCall.AppendsOnly may)) {store last : InMemoryStore} {value : α}
    (h : program.Ends FaultyAnswers store value last) : GrownBy may store last := by
  have hkeeps : ∀ {state call answer middle}, call.AppendsOnly may →
    FaultyAnswers state call answer middle →
      GrownBy may store state → GrownBy may store middle := by
    rintro state call answer middle hcall (hserv | ⟨-, rfl⟩) hst
    · refine hst.trans ?_
      cases call with
      | append workflowId events expectedSeq =>
        rcases appendAnswer_cases hserv with ⟨-, happ⟩ | ⟨-, rfl⟩
        · exact .of_append hcall happ
        · exact .refl _
      | appendWithOutbox workflowId events expectedSeq rows =>
        rcases appendWithOutbox_cases hserv with happ | rfl
        · exact .of_append hcall happ
        · exact .refl _
      | _ => cases hserv; exact .of_sameHistories rfl
    · exact hst
  exact h.keeps hkeeps hcalls (.refl store)

theorem numbered_storeOf (h : history.map Event.seq = List.range' 1 history.length) :
    (storeOf history).Numbered := by
  intro workflowId
  by_cases hid : workflowId = ⟨0⟩
  · subst hid
    rw [InMemoryStore.history, storeOf, AList.lookup_insert]
    exact h
  · rw [InMemoryStore.history, storeOf, AList.lookup_insert_ne hid]
    rfl

/-! ### The parts of an operation -/

section Parts

variable {α β : Type} {store last : InMemoryStore} {workflowId : WorkflowId}

variable {operation : RecorderM α} {recorder' : Recorder} {f : α → RecorderM β}
  {first : EngineM α}

theorem EngineM.ends_bind_iff {f : α → EngineM β} {outcome : Except StartFailure β} :
    Prog.Ends FaultyAnswers (first >>= f : EngineM β) store outcome last ↔
      (∃ failure, outcome = .error failure ∧
          Prog.Ends FaultyAnswers first store (.error failure) last) ∨
        ∃ value middle, Prog.Ends FaultyAnswers first store (.ok value) middle ∧
          Prog.Ends FaultyAnswers (f value) middle outcome last := by
  constructor
  · intro h
    obtain ⟨(failure | value), middle, hfst, h⟩ := Interleaving.ends_bind_iff.mp h
    · obtain ⟨rfl, rfl⟩ := ends_done_iff.mp h
      exact .inl ⟨failure, rfl, hfst⟩
    · exact .inr ⟨value, middle, hfst, h⟩
  · rintro (⟨failure, rfl, h⟩ | ⟨value, middle, hfst, h⟩)
    · exact Interleaving.ends_bind_iff.mpr ⟨_, _, h, .done _ _⟩
    · exact Interleaving.ends_bind_iff.mpr ⟨_, _, hfst, h⟩

/-- An operation that succeeds has a first part that does. -/
theorem EngineM.ends_bind_ok {f : α → EngineM β} {value : β}
    (h : Prog.Ends FaultyAnswers (first >>= f : EngineM β) store (.ok value) last) :
    ∃ mid middle, Prog.Ends FaultyAnswers first store (.ok mid) middle ∧
      Prog.Ends FaultyAnswers (f mid) middle (.ok value) last := by
  rcases EngineM.ends_bind_iff.mp h with ⟨failure, hfail, -⟩ | h
  · cases hfail
  · exact h

theorem EngineM.ends_lift_ok {result : Except EngineError α} {value : α}
    (h : Prog.Ends FaultyAnswers (EngineM.lift result) store (.ok value) last) :
    result = .ok value ∧ store = last := by
  obtain ⟨hval, rfl⟩ := ends_done_iff.mp h
  cases result with
  | error error => cases hval
  | ok found =>
    cases hval
    exact ⟨rfl, rfl⟩

theorem EngineM.ends_readHistory_ok
    (h : Prog.Ends FaultyAnswers (EngineM.readHistory workflowId) store (.ok history) last) :
    history = store.readHistory workflowId ∧ store = last := by
  obtain ⟨answer, middle, hserv, hrest⟩ := ends_call_iff.mp h
  obtain ⟨hans, rfl⟩ := ends_done_iff.mp hrest
  cases answer with
  | error error => cases hans
  | ok found =>
    cases hans
    rcases hserv with hserv | ⟨hrefd, -⟩
    · cases hserv
      exact ⟨rfl, rfl⟩
    · exact absurd hrefd id

theorem RecorderM.ends_bind_iff {first : RecorderM α} {recorder : Recorder}
    {outcome : Except DurabilityError β × Recorder} :
    Prog.Ends FaultyAnswers ((first >>= f : RecorderM β) recorder) store outcome last ↔
      (∃ error recorder', outcome = (.error error, recorder') ∧
        Prog.Ends FaultyAnswers (first recorder) store (.error error, recorder') last) ∨
      ∃ value recorder' middle, Prog.Ends FaultyAnswers (first recorder) store
        (.ok value, recorder') middle ∧
        Prog.Ends FaultyAnswers (f value recorder') middle outcome last :=
  ends_bind_except_iff (by intro _ _; rfl)

/-- The recorder's event has been appended, and the recorder has moved behind it. -/
structure Appended (recorder : Recorder) (store : InMemoryStore) (body : EventBody)
    (recorder' : Recorder) (last : InMemoryStore) : Prop where
  accepted : ∃ envelope store', store.append recorder.workflowId [⟨envelope, body⟩]
    recorder.sequence.head = .ok store' ∧
    SameHistories store' last
  workflowId_eq : recorder'.workflowId = recorder.workflowId

theorem Appended.histories {recorder : Recorder} {body : EventBody}
    (h : Appended recorder store body recorder' last) :
    ∃ envelope, ∀ id, last.history id = store.history id ++ if id = recorder.workflowId then
      [⟨envelope, body⟩] else [] := by
  obtain ⟨envelope, store', happ, hsame⟩ := h.accepted
  exact ⟨envelope, fun id => (hsame.history_eq id).trans ((InMemoryStore.append_eq_ok happ).2.2 id)⟩

theorem Appended.numbered {recorder : Recorder} {body : EventBody}
    (h : Appended recorder store body recorder' last) (numbered : store.Numbered) :
    last.Numbered := by
  obtain ⟨envelope, store', happ, hsame⟩ := h.accepted
  exact hsame.numbered (InMemoryStore.append_numbered numbered happ)

theorem Appended.later {recorder : Recorder} {body : EventBody} {last' : InMemoryStore}
    (h : Appended recorder store body recorder' last) (hsame : SameHistories last last') :
    Appended recorder store body recorder' last' := by
  obtain ⟨⟨envelope, store', happ, hsame'⟩, hid⟩ := h
  exact ⟨⟨envelope, store', happ, hsame'.trans hsame⟩, hid⟩

/-- The operation either records its event or fails, and then it has appended nothing. -/
def RecordsOrFails (recorder : Recorder) (store : InMemoryStore) (body : EventBody)
    (outcome : Except DurabilityError Unit × Recorder) (last : InMemoryStore) : Prop :=
  (outcome.1 = .ok () ∧ Appended recorder store body outcome.2 last) ∨
    (∃ error, outcome.1 = .error error) ∧ SameHistories store last

theorem ends_markAppendSuccess {recorder : Recorder} {count : ℕ}
    (hfits : recorder.sequence.head + count ≤ u64Max) {outcome}
    (h : Prog.Ends FaultyAnswers (markAppendSuccess count recorder) store outcome last) :
    outcome = (.ok (), { recorder with sequence := ⟨recorder.sequence.head + count⟩ }) ∧
      last = store := by
  have hmark : recorder.sequence.markAppendSuccess count =
      .ok ⟨recorder.sequence.head + count⟩ := by
    have hadd : checkedAdd recorder.sequence.head count = some (recorder.sequence.head + count) :=
      checkedAdd_eq_some.mpr ⟨hfits, rfl⟩
    simp only [SequenceHead.markAppendSuccess, hadd]
  have hprog : markAppendSuccess count recorder =
      .done (.ok (), { recorder with sequence := ⟨recorder.sequence.head + count⟩ }) := by
    simp only [markAppendSuccess, bind, RecorderM.lift, RecorderM.get, RecorderM.modify,
      Prog.bind, hmark]
  rw [hprog] at h
  exact ends_done_iff.mp h

theorem ends_appendWith {recorder : Recorder} {now : Instant} {body : EventBody} {outcome}
    (h : Prog.Ends FaultyAnswers (appendWith now body recorder) store outcome last) :
    RecordsOrFails recorder store body outcome last := by
  cases henv : recorder.nextEnvelope now with
  | error error =>
    have hprog : appendWith now body recorder = .done (.error error, recorder) := by
      simp only [appendWith, bind, RecorderM.get, RecorderM.lift, Prog.bind, henv]
    rw [hprog] at h
    obtain ⟨rfl, rfl⟩ := ends_done_iff.mp h
    exact .inr ⟨⟨error, rfl⟩, .refl _⟩
  | ok envelope =>
    obtain ⟨hfits, -⟩ := nextEnvelope_eq_ok henv
    have hprog : appendWith now body recorder =
        .call (.append recorder.workflowId [⟨envelope, body⟩] recorder.sequence.current) fun answer =>
          (do RecorderM.liftStore answer; markAppendSuccess 1 : RecorderM Unit) recorder := by
      simp only [appendWith, appendOne, bind, RecorderM.get, RecorderM.lift, RecorderM.call, Prog.bind, henv]
    rw [hprog] at h
    obtain ⟨answer, middle, hserv, hrest⟩ := ends_call_iff.mp h
    change Except StoreError Unit at answer
    cases answer with
    | error error =>
      -- the append was refused, by the store or on the way
      obtain ⟨rfl, rfl⟩ := ends_done_iff.mp hrest
      refine .inr ⟨⟨.store error, rfl⟩, ?_⟩
      rcases hserv with hserv | ⟨-, rfl⟩
      · rcases appendAnswer_cases hserv with ⟨hacc, -⟩ | ⟨-, rfl⟩
        · cases hacc
        · exact .refl _
      · exact .refl _
    | ok accepted =>
      obtain ⟨rfl, rfl⟩ := ends_markAppendSuccess hfits hrest
      rcases hserv with hserv | ⟨hrefd, -⟩
      · rcases appendAnswer_cases hserv with ⟨-, happ⟩ | ⟨⟨error, herr⟩, -⟩
        · exact .inl ⟨rfl, ⟨envelope, _, happ, .refl _⟩, rfl⟩
        · cases herr
      · exact absurd hrefd id

/-- The operation goes on with the same recorder, whatever its result. -/
def KeepsRecorder (operation : RecorderM α) : Prop :=
  ∀ recorder store outcome last, Prog.Ends FaultyAnswers (operation recorder) store outcome last →
    outcome.2 = recorder

theorem KeepsRecorder.bind (h : KeepsRecorder operation)
    (hf : ∀ value, KeepsRecorder (f value)) : KeepsRecorder (operation >>= f) := by
  intro recorder store outcome last hends
  rcases RecorderM.ends_bind_iff.mp hends with ⟨error, recorder', rfl, hfst⟩ | ⟨value, recorder',
    middle, hfst, hrest⟩
  · exact h recorder store _ last hfst
  · obtain rfl : recorder' = recorder := h recorder store _ middle hfst
    exact hf value recorder' middle outcome last hrest

theorem keepsRecorder_done {result : Except DurabilityError α} :
    KeepsRecorder (RecorderM.lift result) := by
  intro recorder store outcome last h
  obtain ⟨rfl, -⟩ := ends_done_iff.mp h
  rfl

theorem keepsRecorder_get : KeepsRecorder RecorderM.get := by
  intro recorder store outcome last h
  obtain ⟨rfl, -⟩ := ends_done_iff.mp h
  rfl

theorem keepsRecorder_call (request : StoreCall) : KeepsRecorder (RecorderM.call request) := by
  intro recorder store outcome last h
  obtain ⟨answer, middle, -, hrest⟩ := ends_call_iff.mp h
  obtain ⟨rfl, -⟩ := ends_done_iff.mp hrest
  rfl

theorem keepsRecorder_upsertVisibilityProjection : KeepsRecorder upsertVisibilityProjection := by
  refine keepsRecorder_get.bind fun recorder => ?_
  split
  · exact keepsRecorder_done
  · exact (keepsRecorder_call _).bind fun _ => keepsRecorder_done.bind fun _ =>
      keepsRecorder_done.bind fun _ =>
      (keepsRecorder_call _).bind fun _ => keepsRecorder_done

theorem reads_upsertVisibilityProjection :
    RecorderM.Calls StoreCall.Reads upsertVisibilityProjection := by
  refine RecorderM.calls_get.bind fun recorder => ?_
  split
  · exact fun _ => trivial
  · exact (RecorderM.calls_call trivial).bind fun _ => RecorderM.calls_lift.bind fun _ =>
      RecorderM.calls_lift.bind fun _ =>
      (RecorderM.calls_call trivial).bind fun _ => RecorderM.calls_lift

/-- What follows an append: it touches no history and does not fail. -/
structure FollowsUp (operation : RecorderM Unit) : Prop where
  reads : RecorderM.Calls StoreCall.Reads operation
  ends : ∀ recorder store outcome last,
    Prog.Ends FaultyAnswers (operation recorder) store outcome last →
    outcome = (.ok (), recorder)

theorem followsUp_settleTerminalOutboxRowsNonfatal :
    FollowsUp settleTerminalOutboxRowsNonfatal where
  reads _ := ⟨trivial, fun _ => trivial⟩
  ends recorder store outcome last h := by
    obtain ⟨answer, middle, -, hrest⟩ := ends_call_iff.mp h
    exact (ends_done_iff.mp hrest).1

theorem followsUp_upsertVisibilityProjectionNonfatal :
    FollowsUp upsertVisibilityProjectionNonfatal where
  reads := reads_upsertVisibilityProjection.nonfatal
  ends recorder store outcome last h := by
    obtain ⟨upserted, middle, hupsert, hrest⟩ := Interleaving.ends_bind_iff.mp h
    obtain ⟨rfl, -⟩ := ends_done_iff.mp hrest
    rw [keepsRecorder_upsertVisibilityProjection recorder store upserted middle hupsert]

theorem ends_appendThen {recorder : Recorder} {now : Instant} {body : EventBody} {later : RecorderM Unit}
    (hlat : FollowsUp later) {outcome}
    (h : Prog.Ends FaultyAnswers ((do appendWith now body; later : RecorderM Unit) recorder) store outcome last) :
    RecordsOrFails recorder store body outcome last := by
  rcases RecorderM.ends_bind_iff.mp h with ⟨error, recorder', rfl, hfst⟩ | ⟨value, recorder',
    middle, hfst, hrest⟩
  · exact ends_appendWith hfst
  · have hsame := sameHistories_of_reads (hlat.reads recorder') hrest
    obtain rfl := hlat.ends recorder' middle outcome last hrest
    rcases ends_appendWith hfst with ⟨-, happd⟩ | ⟨⟨error, herr⟩, -⟩
    · exact .inl ⟨rfl, happd.later hsame⟩
    · cases herr

theorem ends_appendThenSettle {recorder : Recorder} {now : Instant} {body : EventBody} {outcome}
    (h : Prog.Ends FaultyAnswers (appendThenSettle now body recorder) store outcome last) :
    RecordsOrFails recorder store body outcome last :=
  ends_appendThen followsUp_settleTerminalOutboxRowsNonfatal h

theorem ends_appendThenUpsert {recorder : Recorder} {now : Instant} {body : EventBody} {outcome}
    (h : Prog.Ends FaultyAnswers (appendThenUpsert now body recorder) store outcome last) :
    RecordsOrFails recorder store body outcome last :=
  ends_appendThen followsUp_upsertVisibilityProjectionNonfatal h

/-- The engine goes on from a recorder operation that succeeds, and ends with one that fails. -/
theorem EngineM.ends_recording {recorder : Recorder} {outcome : Except StartFailure (α × Recorder)}
    (h : Prog.Ends FaultyAnswers (EngineM.recording recorder operation) store outcome last) :
    (∃ error recorder', outcome = .error (.durability error) ∧
      Prog.Ends FaultyAnswers (operation recorder) store (.error error, recorder') last) ∨
    ∃ value recorder', outcome = .ok (value, recorder') ∧
      Prog.Ends FaultyAnswers (operation recorder) store (.ok value, recorder') last := by
  obtain ⟨⟨(error | found), recorder'⟩, middle, hop, hrest⟩ := Interleaving.ends_bind_iff.mp h
  · obtain ⟨rfl, rfl⟩ := ends_done_iff.mp hrest
    exact .inl ⟨error, recorder', rfl, hop⟩
  · obtain ⟨rfl, rfl⟩ := ends_done_iff.mp hrest
    exact .inr ⟨found, recorder', rfl, hop⟩

/-- A recorder operation that the engine goes on from has recorded its event. -/
theorem EngineM.ends_recording_ok {recorder : Recorder} {value : α × Recorder}
    (h : Prog.Ends FaultyAnswers (EngineM.recording recorder operation) store (.ok value) last) :
    Prog.Ends FaultyAnswers (operation recorder) store (.ok value.1, value.2) last := by
  rcases EngineM.ends_recording h with ⟨error, _, herr, -⟩ | ⟨found, recorder', hval, hop⟩
  · cases herr
  · cases hval
    exact hop

/-- A read gives the history or fails, and leaves the store as it is. -/
theorem EngineM.ends_readHistory {outcome : Except StartFailure (List Event)}
    (h : Prog.Ends FaultyAnswers (EngineM.readHistory workflowId) store outcome last) :
    store = last ∧ (outcome = .ok (store.readHistory workflowId) ∨ ∃ failure,
        outcome = .error failure) := by
  cases outcome with
  | ok history =>
    obtain ⟨rfl, rfl⟩ := EngineM.ends_readHistory_ok h
    exact ⟨rfl, .inl rfl⟩
  | error failure =>
    obtain ⟨answer, middle, hserv, hrest⟩ := ends_call_iff.mp h
    obtain ⟨-, rfl⟩ := ends_done_iff.mp hrest
    rcases hserv with hserv | ⟨-, rfl⟩
    · cases hserv
      exact ⟨rfl, .inr ⟨failure, rfl⟩⟩
    · exact ⟨rfl, .inr ⟨failure, rfl⟩⟩

end Parts

/-! ### The start of a run -/

/-- The event starts a timer. -/
def isTimerStarted (event : Event) : Prop :=
  ∃ timerId fireAt, event.body = .timerStarted timerId fireAt

/-- A run of the workflow has been started: its start is appended, and after it timer starts at
most. -/
structure RunStarted (store : InMemoryStore) (workflowId : WorkflowId) (body : EventBody)
    (last : InMemoryStore) : Prop where
  numbered : store.Numbered → last.Numbered
  started : ∃ envelope added, last.history workflowId = store.history workflowId ++
    ⟨envelope, body⟩ :: added ∧
    ∀ event ∈ added, isTimerStarted event
  others : ∀ id, id ≠ workflowId → last.history id = store.history id

section Start

variable {store last : InMemoryStore} {workflowId : WorkflowId} {env : StartEnvironment}

theorem ends_recordWorkflowStarted {recorder : Recorder} {now : Instant}
    {start : WorkflowStartRecord} {outcome}
    (h : Prog.Ends FaultyAnswers (recordWorkflowStarted now start recorder) store outcome last) :
    RecordsOrFails recorder store start.body outcome last := by
  rcases RecorderM.ends_bind_iff.mp h with ⟨error, recorder', rfl, hfst⟩ | ⟨value, recorder',
    middle, hfst, hrest⟩
  · exact ends_appendWith hfst
  · obtain ⟨rfl, rfl⟩ := ends_done_iff.mp hrest
    rcases ends_appendWith hfst with ⟨-, happd⟩ | ⟨⟨error, herr⟩, -⟩
    · exact .inl ⟨rfl, ⟨happd.accepted, happd.workflowId_eq⟩⟩
    · cases herr

/-- A deadline appends a timer start to its own workflow. -/
theorem appendsOnly_recordDeclaredDeadline {recorder : Recorder} {timeout : Option ℕ} :
    Prog.Calls (StoreCall.AppendsOnly fun id event => id = recorder.workflowId ∧
        isTimerStarted event)
      (recordDeclaredDeadline env recorder timeout) := by
  unfold recordDeclaredDeadline
  split
  · trivial
  · refine EngineM.calls_bind trivial fun fireAt =>
      EngineM.calls_bind (EngineM.calls_recording ?_) fun _ => trivial
    refine calls_appendWith fun envelope event hev => ?_
    rw [List.mem_singleton.mp hev]
    exact ⟨rfl, _, _, rfl⟩

theorem reads_upsertWorkflowVisibility {runId : RunId} :
    Prog.Calls StoreCall.Reads (upsertWorkflowVisibility workflowId runId) :=
  EngineM.calls_bind (EngineM.calls_readHistory trivial) fun _ =>
    EngineM.calls_bind trivial fun _ => ⟨trivial, fun _ => trivial⟩

/-- **What a start does.** It fails and appends nothing, or the run is started; then it can still
fail. -/
theorem ends_recordStart {request : StartRequest} {loaded : LoadedWorkflow} {head : ℕ}
    (noAttributes : request.options.searchAttributes.entries = [])
    {outcome : Except StartFailure Unit}
    (h : Prog.Ends FaultyAnswers (recordStart env request loaded workflowId head) store
        outcome last) :
    ((∃ failure, outcome = .error failure) ∧ SameHistories store last) ∨
      RunStarted store workflowId
        (.workflowStarted request.workflowType request.input env.runId request.options.parentRunId
            loaded.version) last := by
  rcases EngineM.ends_bind_iff.mp h with ⟨failure, rfl, hrecording⟩ | ⟨⟨value, recorder⟩, middle,
    hrecording, hrest⟩
  · refine .inl ⟨⟨failure, rfl⟩, ?_⟩
    rcases EngineM.ends_recording hrecording with ⟨error, recorder', -, hstart⟩ | ⟨_, _, hok, -⟩
    · rw [recordWorkflowStartedWithAttributes, if_pos noAttributes] at hstart
      rcases ends_recordWorkflowStarted hstart with ⟨hok, -⟩ | ⟨-, hsame⟩
      · cases hok
      · exact hsame
    · cases hok
  · right
    have hstart := EngineM.ends_recording_ok hrecording
    rw [recordWorkflowStartedWithAttributes, if_pos noAttributes] at hstart
    rcases ends_recordWorkflowStarted hstart with ⟨-, happd⟩ | ⟨⟨error, herr⟩, -⟩
    · obtain ⟨envelope, hhist⟩ := happd.histories
      have hid : recorder.workflowId = workflowId := happd.workflowId_eq
      -- what follows the start is the deadline, and a read for the visibility row
      have hgrown : GrownBy (fun id event => id = workflowId ∧ isTimerStarted event) middle last := by
        refine grownBy_of_appendsOnly (EngineM.calls_bind ?_ fun _ => ?_) hrest
        · rw [← hid]
          exact appendsOnly_recordDeclaredDeadline
        · refine reads_upsertWorkflowVisibility.mono fun call hreads => ?_
          cases call with
          | append => exact absurd hreads id
          | appendWithOutbox => exact absurd hreads id
          | _ => trivial
      refine ⟨fun hnum => hgrown.numbered (happd.numbered hnum), ?_, fun other hother => ?_⟩
      · obtain ⟨added, hadded, hmay⟩ := hgrown.added workflowId
        refine ⟨envelope, added, ?_, fun event hev => (hmay event hev).2⟩
        have hmid := (hhist workflowId).trans (congrArg (store.history workflowId ++ ·) (if_pos rfl))
        rw [hadded, hmid, List.append_assoc]
        rfl
      · obtain ⟨added, hadded, hmay⟩ := hgrown.added other
        obtain rfl : added = [] := List.eq_nil_iff_forall_not_mem.mpr fun event hev => hother (hmay event hev).1
        have hmid := (hhist other).trans (congrArg (store.history other ++ ·) (if_neg hother))
        rw [hadded, hmid, List.append_nil, List.append_nil]
    · cases herr

/-- A start of a given workflow fails and appends nothing, or the run is started with a loaded
version. -/
theorem ends_startWorkflowWithOptions {request : StartRequest}
    (hid : request.options.workflowId = some workflowId)
    (noAttributes : request.options.searchAttributes.entries = [])
    {outcome : Except StartFailure Unit}
    (h : Prog.Ends FaultyAnswers (startWorkflowWithOptions env request) store outcome last) :
    ((∃ failure, outcome = .error failure) ∧ SameHistories store last) ∨
      ∃ loaded, env.resolve request.workflowType request.options.loadedVersion = some loaded ∧
        RunStarted store workflowId
          (.workflowStarted request.workflowType request.input env.runId request.options.parentRunId
              loaded.version) last := by
  unfold startWorkflowWithOptions at h
  split at h
  · obtain ⟨rfl, rfl⟩ := ends_done_iff.mp h
    exact .inl ⟨⟨_, rfl⟩, .refl _⟩
  · next loaded hresv =>
    rw [hid] at h
    rcases EngineM.ends_bind_iff.mp h with ⟨failure, rfl, hread⟩ | ⟨history, middle, hread, hrest⟩
    · obtain ⟨rfl, -⟩ := EngineM.ends_readHistory hread
      exact .inl ⟨⟨failure, rfl⟩, .refl _⟩
    · obtain ⟨-, rfl⟩ := EngineM.ends_readHistory_ok hread
      exact (ends_recordStart noAttributes hrest).imp_right fun hstrt => ⟨loaded, hresv, hstrt⟩

end Start

end Aion
