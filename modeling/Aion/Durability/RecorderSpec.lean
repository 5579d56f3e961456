import Aion.Durability.Recorder
import Aion.Library.Result

/-!
# What a recorder's operation may do

Every append operation of a recorder makes at most one append, at the head the recorder
had when it began, with a batch numbered from there on. When the operation ends well, its
own events were appended and the head has advanced by them; after an error nothing was.

`Holds` says this of one program, with the usual rules for sequencing; `Records` is the
specification, and `RecorderOperation.records` proves it of every operation.
-/

namespace Aion

open Interleaving

/-! ### Recorder operations -/

/-- The workflow, expected head and batch of an append that the store accepted. -/
def acceptedBatch : (call : StoreCall) → call.Answer → Option (WorkflowId × ℕ × List Event)
  | .append workflowId events expectedSeq, .ok () => some (workflowId, expectedSeq, events)
  | .appendWithOutbox workflowId events expectedSeq _, .ok () =>
    some (workflowId, expectedSeq, events)
  | _, _ => none

/-- The in-memory store as a service; an operation's log is what was accepted from it. -/
def storeService : Service InMemoryStore StoreCall StoreCall.Answer Event where
  serve := InMemoryStore.serve
  added call answer := ((acceptedBatch call answer).map fun batch => batch.2.2).getD []

/-- A batch that goes on from the recorder's head, in the recorder's workflow. -/
structure OwnBatch (start : Recorder) (events : List Event) : Prop where
  /-- There is something to append. -/
  nonempty : events ≠ []
  /-- The numbers go on from the head. -/
  numbered : events.map Event.seq = List.range' (start.sequence.head + 1) events.length
  /-- The last number fits. -/
  fits : start.sequence.head + events.length ≤ u64Max
  /-- The events are the workflow's. -/
  own : ∀ event ∈ events, event.workflowId = start.workflowId

/-- The appends an operation may make: one, at the head it began with. -/
def MayCall (start : Recorder) (log : List Event) : StoreCall → Prop
  | .append workflowId events expectedSeq =>
    log = [] ∧ workflowId = start.workflowId ∧ expectedSeq = start.sequence.head ∧
      OwnBatch start events
  | .appendWithOutbox workflowId events expectedSeq _ =>
    log = [] ∧ workflowId = start.workflowId ∧ expectedSeq = start.sequence.head ∧
      OwnBatch start events
  | _ => True

/-- Nothing was appended, and workflow and head are those of the beginning. -/
def Untouched (start : Recorder) (log : List Event) (recorder : Recorder) : Prop :=
  log = [] ∧ recorder.workflowId = start.workflowId ∧ recorder.sequence = start.sequence

/-- The head has advanced by what was appended. -/
def InStep (start : Recorder) (log : List Event) (recorder : Recorder) : Prop :=
  recorder.workflowId = start.workflowId ∧
    recorder.sequence.head = start.sequence.head + log.length

variable {items : List FanOutItem} {body : EventBody} {event : Event} {log : List Event}

theorem Untouched.inStep {start recorder : Recorder} (h : Untouched start log recorder) :
    InStep start log recorder := by
  obtain ⟨rfl, hid, hseq⟩ := h
  exact ⟨hid, by rw [hseq]; rfl⟩

/-- The batch was appended and nothing else, and the head has advanced by it. -/
def Advanced (start : Recorder) (batch log : List Event) (recorder : Recorder) : Prop :=
  InStep start log recorder ∧ log = batch

theorem Untouched.advanced {start recorder : Recorder} (h : Untouched start log recorder) :
    Advanced start [] log recorder :=
  ⟨h.inStep, h.1⟩

/-! ### Batches -/

/-- Events recorded at one time, numbered on from a head. -/
def eventsAfter (workflowId : WorkflowId) (recordedAt : Instant) : ℕ → List EventBody → List Event
  | _, [] => []
  | head, body :: bodies =>
    ⟨⟨head + 1, recordedAt, workflowId⟩, body⟩ ::
      eventsAfter workflowId recordedAt (head + 1) bodies

/-- The events of an operation that begins with the recorder and records the bodies. -/
def Recorder.batch (recorder : Recorder) (recordedAt : Instant) (bodies : List EventBody) :
    List Event :=
  eventsAfter recorder.workflowId recordedAt recorder.sequence.head bodies

section Batches

variable {workflowId : WorkflowId} {recordedAt : Instant} {head : ℕ} {bodies : List EventBody}

@[simp] theorem length_eventsAfter :
    (eventsAfter workflowId recordedAt head bodies).length = bodies.length := by
  induction bodies generalizing head with
  | nil => rfl
  | cons body bodies ih => exact congrArg (· + 1) ih

theorem map_seq_eventsAfter :
    (eventsAfter workflowId recordedAt head bodies).map Event.seq =
      List.range' (head + 1) bodies.length := by
  induction bodies generalizing head with
  | nil => rfl
  | cons body bodies ih =>
    rw [eventsAfter, List.map_cons, ih]
    rfl

theorem workflowId_of_mem_eventsAfter (h : event ∈ eventsAfter workflowId recordedAt head bodies) :
    event.workflowId = workflowId := by
  induction bodies generalizing head with
  | nil => cases h
  | cons body bodies ih =>
    rcases List.mem_cons.mp h with rfl | h
    · rfl
    · exact ih h

theorem body_of_mem_eventsAfter (h : event ∈ eventsAfter workflowId recordedAt head bodies) :
    event.body ∈ bodies := by
  induction bodies generalizing head with
  | nil => cases h
  | cons body bodies ih =>
    rcases List.mem_cons.mp h with rfl | h
    · exact List.mem_cons_self
    · exact List.mem_cons_of_mem _ (ih h)

theorem ownBatch_batch {start : Recorder} (hbodies : bodies ≠ [])
    (hfits : start.sequence.head + bodies.length ≤ u64Max) :
    OwnBatch start (start.batch recordedAt bodies) := by
  have hlen : (start.batch recordedAt bodies).length = bodies.length := length_eventsAfter
  refine ⟨?_, ?_, ?_, fun _ => workflowId_of_mem_eventsAfter⟩
  · rwa [← List.length_pos_iff_ne_nil, hlen, List.length_pos_iff_ne_nil]
  · rw [hlen]
    exact map_seq_eventsAfter
  · rwa [hlen]

end Batches

/-- How an operation may end: with a value and `post`, or with an error and `fails`. -/
def Ended {α : Type} (post : List Event → Recorder → α → Prop)
    (fails : List Event → Recorder → Prop) (log : List Event)
    (outcome : Except DurabilityError α × Recorder) : Prop :=
  match outcome with
  | (.ok value, recorder) => post log recorder value
  | (.error _, recorder) => fails log recorder

/-- From `pre`, the operation makes only the appends it may make, and ends with a value
and `post` or with an error and `fails`. -/
def Holds {α : Type} (start : Recorder) (pre : List Event → Recorder → Prop)
    (operation : RecorderM α) (post : List Event → Recorder → α → Prop)
    (fails : List Event → Recorder → Prop) : Prop :=
  ∀ log recorder, pre log recorder →
    storeService.Obeys (MayCall start) (Ended post fails) log (operation recorder)

section Rules

variable {α β : Type} {start : Recorder} {pre fails : List Event → Recorder → Prop}
  {post : List Event → Recorder → α → Prop} {operation : RecorderM α}

variable {after : List Event → Recorder → β → Prop} {f : α → RecorderM β}

theorem Holds.bind (h : Holds start pre operation post fails)
    (hf : ∀ value, Holds start (fun log recorder => post log recorder value)
        (f value) after fails) : Holds start pre (operation >>= f) after fails := by
  intro log recorder hpre
  apply (h log recorder hpre).bind
  rintro log' ⟨result, recorder'⟩ hended
  cases result with
  | ok value => exact hf value log' recorder' hended
  | error error => exact hended

theorem Holds.mono {post' : List Event → Recorder → α → Prop}
    (h : Holds start pre operation post fails)
    (himp : ∀ log recorder value, post log recorder value → post' log recorder value) :
    Holds start pre operation post' fails := by
  intro log recorder hpre
  apply (h log recorder hpre).mono
  rintro log' ⟨result, recorder'⟩ hended
  cases result with
  | ok value => exact himp log' recorder' value hended
  | error error => exact hended

/-- What is known of the first value, whatever the state, may be assumed in what follows. -/
theorem Holds.bind_fact {mid : List Event → Recorder → Prop} {fact : α → Prop}
    (h : Holds start pre operation (fun log recorder value => mid log recorder ∧ fact value) fails)
    (hf : ∀ value, fact value → Holds start mid (f value) after fails) :
    Holds start pre (operation >>= f) after fails :=
  h.bind fun value log recorder hmid => hf value hmid.2 log recorder hmid.1

theorem holds_pure {value : α} (h : ∀ log recorder, pre log recorder → post log recorder value) :
    Holds start pre (pure value) post fails :=
  fun log recorder hpre => h log recorder hpre

theorem holds_get {fact : Recorder → Prop} (h : ∀ log recorder, pre log recorder → fact recorder) :
    Holds start pre RecorderM.get (fun log recorder value => pre log recorder ∧ fact value) fails :=
  fun log recorder hpre => ⟨hpre, h log recorder hpre⟩

theorem holds_modify {f : Recorder → Recorder} {after : List Event → Recorder → Prop}
    (h : ∀ log recorder, pre log recorder → after log (f recorder)) :
    Holds start pre (RecorderM.modify f) (fun log recorder _ => after log recorder) fails :=
  fun log recorder hpre => h log recorder hpre

theorem holds_lift {result : Except DurabilityError α} :
    Holds start pre (RecorderM.lift result) (fun log recorder value => pre log recorder ∧
        result = .ok value)
      pre := by
  intro log recorder hpre
  cases result with
  | ok value => exact ⟨hpre, rfl⟩
  | error error => exact hpre

theorem holds_liftStore {answer : Except StoreError α}
    (hfails : ∀ log recorder, pre log recorder → (∃ error, answer = .error error) →
        fails log recorder) :
    Holds start pre (RecorderM.liftStore answer) (fun log recorder value => pre log recorder ∧
        answer = .ok value)
      fails := by
  intro log recorder hpre
  cases answer with
  | ok value => exact ⟨hpre, rfl⟩
  | error error => exact hfails log recorder hpre ⟨error, rfl⟩

/-- A call that is no append changes nothing; the answer is one the store gives. -/
theorem holds_call {request : StoreCall} (allowed : ∀ log, MayCall start log request)
    (silent : ∀ answer, acceptedBatch request answer = none) :
    Holds start pre (RecorderM.call request) (fun log recorder answer =>
      pre log recorder ∧ ∃ store, answer = (InMemoryStore.serve store request).1) fails := by
  intro log recorder hpre
  refine ⟨allowed log, ?_⟩
  intro store
  have hadded : storeService.added request (storeService.serve store request).1 = [] := by
    simp only [storeService, silent]
    rfl
  rw [hadded, List.append_nil]
  exact ⟨hpre, store, rfl⟩

theorem holds_nonfatal {operation : RecorderM Unit} {after : List Event → Recorder → Prop}
    (h : Holds start pre operation (fun log recorder _ => after log recorder) after) :
    Holds start pre (RecorderM.nonfatal operation) (fun log recorder _ =>
        after log recorder) fails := by
  intro log recorder hpre
  apply (h log recorder hpre).bind
  rintro log' ⟨result, recorder'⟩ hended
  cases result with
  | ok value => exact hended
  | error error => exact hended

end Rules

/-- The operation records: it makes at most one append, an error leaves nothing touched, and
otherwise its own events were appended and the head has advanced by them. -/
def Records {α : Type} (start : Recorder) (own : α → List Event) (operation : RecorderM α) : Prop :=
  Holds start (Untouched start) operation (fun log recorder value =>
      Advanced start (own value) log recorder)
    (Untouched start)

/-! ### Appending -/

section Append

variable {start recorder : Recorder} {batch : List Event}

/-- The recorder an operation gets before it has appended. -/
theorem holds_get_untouched :
    Holds start (Untouched start) RecorderM.get (fun log recorder value =>
    Untouched start log recorder ∧ value.workflowId = start.workflowId ∧
      value.sequence = start.sequence)
    (Untouched start) :=
  holds_get fun _ _ hpre => hpre.2

/-- Where an operation stands once an append was answered. -/
def Answered (start : Recorder) (batch : List Event) (log : List Event) (recorder : Recorder)
    (answer : Except StoreError Unit) : Prop :=
  recorder.workflowId = start.workflowId ∧ recorder.sequence = start.sequence ∧
    match answer with
    | .ok () => log = batch
    | .error _ => log = []

theorem holds_call_append (hbatch : OwnBatch start batch)
    (hid : recorder.workflowId = start.workflowId) (hseq : recorder.sequence = start.sequence) :
    Holds start (Untouched start)
      (RecorderM.call (.append recorder.workflowId batch recorder.sequence.current))
      (Answered start batch) (Untouched start) := by
  rintro log recorder' ⟨rfl, hid', hseq'⟩
  refine ⟨⟨rfl, hid, congrArg SequenceHead.head hseq, hbatch⟩, ?_⟩
  intro store
  refine ⟨hid', hseq', ?_⟩
  generalize storeService.serve store
    (.append recorder.workflowId batch recorder.sequence.current) = served
  obtain ⟨answer | answer, store'⟩ := served
  · rfl
  · rfl

variable {recordedAt : Instant} {envelope : EventEnvelope} {rows : List OutboxRow}

theorem holds_call_appendWithOutbox (hbatch : OwnBatch start batch)
    (hid : recorder.workflowId = start.workflowId) (hseq : recorder.sequence = start.sequence) :
    Holds start (Untouched start)
      (RecorderM.call (.appendWithOutbox recorder.workflowId batch recorder.sequence.current rows))
      (Answered start batch) (Untouched start) := by
  rintro log recorder' ⟨rfl, hid', hseq'⟩
  refine ⟨⟨rfl, hid, congrArg SequenceHead.head hseq, hbatch⟩, ?_⟩
  intro store
  refine ⟨hid', hseq', ?_⟩
  generalize storeService.serve store
    (.appendWithOutbox recorder.workflowId batch recorder.sequence.current rows) = served
  obtain ⟨answer | answer, store'⟩ := served
  · rfl
  · rfl

/-- The batch was accepted, and the head is still that of the beginning. -/
def Accepted (start : Recorder) (batch log : List Event) (recorder : Recorder) : Prop :=
  recorder.workflowId = start.workflowId ∧ recorder.sequence = start.sequence ∧ log = batch

theorem holds_liftStore_answered {answer : Except StoreError Unit} :
    Holds start (fun log recorder => Answered start batch log recorder answer)
      (RecorderM.liftStore answer)
      (fun log recorder _ => Accepted start batch log recorder) (Untouched start) := by
  rintro log recorder ⟨hid, hseq, hlog⟩
  cases answer with
  | error error => exact ⟨hlog, hid, hseq⟩
  | ok value => exact ⟨hid, hseq, hlog⟩

/-- Once accepted, the head advances by the batch. It cannot overflow there, because the
batch's own numbers fit. -/
theorem holds_markAppendSuccess (hbatch : OwnBatch start batch) :
    Holds start (Accepted start batch) (markAppendSuccess batch.length)
      (fun log recorder _ => Advanced start batch log recorder) (Untouched start) := by
  rintro log recorder ⟨hid, hseq, rfl⟩
  have hadd : checkedAdd start.sequence.head log.length = some (start.sequence.head + log.length) :=
    checkedAdd_eq_some.mpr ⟨hbatch.fits, rfl⟩
  have hmark : recorder.sequence.markAppendSuccess log.length =
      .ok ⟨start.sequence.head + log.length⟩ := by
    simp only [SequenceHead.markAppendSuccess, hseq, hadd]
  have hprog : markAppendSuccess log.length recorder =
      .done (.ok (), { recorder with sequence := ⟨start.sequence.head + log.length⟩ }) := by
    simp only [markAppendSuccess, bind, RecorderM.lift, RecorderM.get, RecorderM.modify,
      Prog.bind, hmark]
  rw [hprog]
  exact ⟨⟨hid, rfl⟩, rfl⟩

theorem nextEnvelope_eq_ok (h : recorder.nextEnvelope recordedAt = .ok envelope) :
    recorder.sequence.head + 1 ≤ u64Max ∧
      envelope = ⟨recorder.sequence.head + 1, recordedAt, recorder.workflowId⟩ := by
  unfold Recorder.nextEnvelope at h
  cases hnext : recorder.sequence.nextSeq with
  | none => simp [hnext] at h
  | some seq =>
    obtain ⟨hfits, rfl⟩ := checkedAdd_eq_some.mp hnext
    simp only [hnext, Except.ok.injEq] at h
    exact ⟨hfits, h.symm⟩

theorem envelopeAfter_eq_ok {previous : EventEnvelope}
    (h : recorder.envelopeAfter previous recordedAt = .ok envelope) :
    previous.seq + 1 ≤ u64Max ∧ envelope = ⟨previous.seq + 1, recordedAt, recorder.workflowId⟩ := by
  unfold Recorder.envelopeAfter at h
  cases hnext : checkedAdd previous.seq 1 with
  | none => simp [hnext] at h
  | some seq =>
    obtain ⟨hfits, rfl⟩ := checkedAdd_eq_some.mp hnext
    simp only [hnext, Except.ok.injEq] at h
    exact ⟨hfits, h.symm⟩

theorem appendOne_records (hbatch : OwnBatch start [event]) :
    Records start (fun _ => [event]) (appendOne event) := by
  refine Holds.bind_fact holds_get_untouched ?_
  rintro recorder ⟨hid, hseq⟩
  refine Holds.bind (holds_call_append hbatch hid hseq) ?_
  intro answer
  exact Holds.bind holds_liftStore_answered fun _ => holds_markAppendSuccess hbatch

theorem appendWith_records :
    Records start (fun _ => start.batch recordedAt [body]) (appendWith recordedAt body) := by
  refine Holds.bind_fact holds_get_untouched ?_
  rintro recorder ⟨hid, hseq⟩
  refine Holds.bind_fact holds_lift ?_
  intro envelope henv
  obtain ⟨hfits, rfl⟩ := nextEnvelope_eq_ok henv
  rw [hid, hseq]
  rw [hseq] at hfits
  have hbatch : OwnBatch start (start.batch recordedAt [body]) := ownBatch_batch (by simp) hfits
  exact appendOne_records hbatch

/-- The events a fan-out item is recorded as. -/
def FanOutItem.bodies (item : FanOutItem) : List EventBody :=
  let activityId := ActivityId.fromSequencePosition item.ordinal
  [.activityScheduled activityId item.activityType item.input item.taskQueue item.node,
    .activityStarted activityId item.attempt]

/-- The batch of a fan-out goes on from the envelope before it. -/
theorem fanOutBatch_eq_ok {previous : Option EventEnvelope}
    {events : List Event}
    (h : fanOutBatch recorder recordedAt items previous = .ok (events, rows)) :
    let base := (previous.map EventEnvelope.seq).getD recorder.sequence.head
    let bodies := items.flatMap FanOutItem.bodies
    events = eventsAfter recorder.workflowId recordedAt base bodies ∧
      (items ≠ [] → bodies ≠ [] ∧ base + bodies.length ≤ u64Max) := by
  induction items generalizing previous events rows with
  | nil =>
    cases h
    exact ⟨rfl, absurd rfl⟩
  | cons item rest ih =>
    intro base bodies
    rw [fanOutBatch] at h
    obtain ⟨scheduled, hsched, h⟩ := Result.bind_eq_ok h
    obtain ⟨started, hstrt, h⟩ := Result.bind_eq_ok h
    obtain ⟨⟨later, laterRows⟩, hlat, h⟩ := Result.bind_eq_ok h
    cases h
    have hfst : scheduled = ⟨base + 1, recordedAt, recorder.workflowId⟩ := by
      cases previous with
      | none => exact (nextEnvelope_eq_ok hsched).2
      | some previous => exact (envelopeAfter_eq_ok hsched).2
    obtain ⟨hfits, hsnd⟩ := envelopeAfter_eq_ok hstrt
    subst hfst hsnd
    obtain ⟨rfl, hlast⟩ := ih hlat
    refine ⟨rfl, fun _ => ⟨nofun, ?_⟩⟩
    by_cases hrest : rest = []
    · subst hrest
      exact hfits
    · have hlast := (hlast hrest).2
      simp only [Option.map_some, Option.getD_some] at hlast
      simp only [bodies, List.flatMap_cons, List.length_append, FanOutItem.bodies, List.length_cons, List.length_nil]
      omega

end Append

/-! ### Every operation records -/

section Operations

variable {α β : Type} {start : Recorder} {recordedAt : Instant} {batch : List Event}
  {own : α → List Event}

/-- What comes after the append leaves the recorder in step. -/
theorem Records.andThen {operation : RecorderM β} {f : β → RecorderM α}
    (h : Records start (fun _ => batch) operation)
    (hf : ∀ value, Holds start (Advanced start batch) (f value)
      (fun log recorder value => Advanced start (own value) log recorder) (Untouched start)) :
    Records start own (operation >>= f) :=
  Holds.bind h hf

theorem holds_setRunId {runId : RunId} :
    Holds start (Advanced start batch) (RecorderM.modify fun recorder =>
        { recorder with runId := some runId })
      (fun log recorder _ => Advanced start batch log recorder) (Untouched start) :=
  holds_modify fun _ _ hpre => hpre

variable {schema : SearchAttributeSchema} {attributes : SearchAttributes}
  {record : WorkflowStartRecord} {ordinal : ℕ}

theorem recordWorkflowStarted_records :
    Records start (fun _ => start.batch recordedAt [record.body])
      (recordWorkflowStarted recordedAt record) :=
  appendWith_records.andThen fun _ => holds_setRunId

/-- The events a start with attributes is recorded as. -/
def WorkflowStartRecord.bodies (record : WorkflowStartRecord) (workflowId : WorkflowId)
    (attributes : SearchAttributes) : List EventBody :=
  if attributes.entries = [] then [record.body]
  else [record.body, .searchAttributesUpdated workflowId attributes]

theorem recordWorkflowStartedWithAttributes_records :
    Records start (fun _ => start.batch recordedAt (record.bodies start.workflowId attributes))
      (recordWorkflowStartedWithAttributes recordedAt record attributes schema) := by
  unfold recordWorkflowStartedWithAttributes WorkflowStartRecord.bodies
  split_ifs with hemp
  · exact recordWorkflowStarted_records
  · refine Holds.bind_fact holds_lift ?_
    intro _ _
    refine Holds.bind_fact holds_get_untouched ?_
    rintro recorder ⟨hid, hseq⟩
    refine Holds.bind_fact holds_lift ?_
    intro startedEnvelope hstrt
    refine Holds.bind_fact holds_lift ?_
    intro attributesEnvelope hattributes
    obtain ⟨-, rfl⟩ := nextEnvelope_eq_ok hstrt
    obtain ⟨hfits, rfl⟩ := envelopeAfter_eq_ok hattributes
    rw [hseq] at hfits
    have hbatch : OwnBatch start
        (start.batch recordedAt [record.body, .searchAttributesUpdated start.workflowId attributes]) :=
      ownBatch_batch (by simp) hfits
    have hgot : start.batch recordedAt [record.body, .searchAttributesUpdated start.workflowId attributes] =
        [⟨⟨recorder.sequence.head + 1, recordedAt, recorder.workflowId⟩, record.body⟩,
         ⟨⟨recorder.sequence.head + 1 + 1, recordedAt, recorder.workflowId⟩,
          .searchAttributesUpdated recorder.workflowId attributes⟩] := by
      rw [hid, hseq]
      rfl
    rw [hgot] at hbatch ⊢
    refine Holds.bind (holds_call_append hbatch hid hseq) ?_
    intro answer
    refine Holds.bind holds_liftStore_answered ?_
    intro _
    exact Holds.bind (holds_markAppendSuccess hbatch) fun _ => holds_setRunId

theorem appendThenSettle_records :
    Records start (fun _ => start.batch recordedAt [body]) (appendThenSettle recordedAt body) := by
  refine appendWith_records.andThen ?_
  intro _
  refine Holds.bind_fact (holds_get fun _ _ _ => trivial) ?_
  intro recorder _
  refine Holds.bind (holds_call (fun _ => trivial) fun answer => by cases answer <;> rfl) ?_
  intro _
  exact holds_pure fun _ _ hpre => hpre.1

/-- The visibility row is read and written without touching the recorder. -/
theorem holds_upsertVisibilityProjection {pre : List Event → Recorder → Prop} :
    Holds start pre upsertVisibilityProjection (fun log recorder _ => pre log recorder) pre := by
  refine Holds.bind_fact (holds_get fun _ _ _ => trivial) ?_
  intro recorder _
  cases recorder.visibility with
  | none => exact holds_pure fun _ _ hpre => hpre
  | some runId =>
    refine Holds.bind_fact (holds_call (fun _ => trivial) fun answer => by cases answer <;> rfl) ?_
    intro answer _
    refine Holds.bind_fact (holds_liftStore fun _ _ hpre _ => hpre) ?_
    intro history _
    refine Holds.bind_fact holds_lift ?_
    intro record _
    refine Holds.bind_fact (holds_call (fun _ => trivial) fun answer => by cases answer <;> rfl) ?_
    intro answer _
    exact (holds_liftStore fun _ _ hpre _ => hpre).mono fun _ _ _ h => h.1

theorem appendThenUpsert_records :
    Records start (fun _ => start.batch recordedAt [body]) (appendThenUpsert recordedAt body) :=
  appendWith_records.andThen fun _ => holds_nonfatal holds_upsertVisibilityProjection

theorem recordSearchAttributesUpdated_records :
    Records start (fun _ => start.batch
        recordedAt [.searchAttributesUpdated start.workflowId attributes])
      (recordSearchAttributesUpdated recordedAt attributes schema) := by
  refine Holds.bind_fact holds_lift ?_
  intro _ _
  refine Holds.bind_fact holds_get_untouched ?_
  rintro recorder ⟨hid, -⟩
  rw [hid]
  exact appendThenUpsert_records

/-- The settlement's answer is never an error here, so no error follows the append. -/
theorem recordActivityCancelledAndSettleOutbox_records {attempt : ℕ} :
    Records start (fun _ => start.batch recordedAt [.activityCancelled
        (.fromSequencePosition ordinal) attempt])
      (recordActivityCancelledAndSettleOutbox recordedAt ordinal attempt) := by
  refine appendWith_records.andThen ?_
  intro _
  refine Holds.bind_fact (holds_get fun _ _ _ => trivial) ?_
  intro recorder _
  refine Holds.bind_fact (holds_call (fun _ => trivial) fun answer => by cases answer <;> rfl) ?_
  rintro answer ⟨store, rfl⟩
  refine (holds_liftStore ?_).mono fun _ _ _ h => h.1
  rintro _ _ _ ⟨error, herr⟩
  cases herr

theorem recordFanOutDispatch_records :
    Records start (fun _ => start.batch recordedAt (items.flatMap FanOutItem.bodies))
      (recordFanOutDispatch recordedAt items) := by
  unfold recordFanOutDispatch
  split_ifs with hemp
  · subst hemp
    exact holds_pure fun _ _ hpre => hpre.advanced
  · refine Holds.bind_fact holds_get_untouched ?_
    rintro recorder ⟨hid, hseq⟩
    refine Holds.bind_fact holds_lift ?_
    rintro ⟨events, rows⟩ hevs
    obtain ⟨rfl, hown⟩ := fanOutBatch_eq_ok hevs
    obtain ⟨hbodies, hfits⟩ := hown hemp
    rw [Option.map_none, Option.getD_none, hseq] at hfits
    have hbatch : OwnBatch start (start.batch recordedAt (items.flatMap FanOutItem.bodies)) :=
      ownBatch_batch hbodies hfits
    rw [Recorder.batch, ← hid, ← hseq] at hbatch ⊢
    refine Holds.bind (holds_call_appendWithOutbox hbatch hid hseq) ?_
    intro answer
    exact Holds.bind holds_liftStore_answered fun _ => holds_markAppendSuccess hbatch

/-- The events a fan-out completion is recorded as; a duplicate is dropped. -/
def FanOutOutcome.bodies (outcome : FanOutOutcome) (ordinal : ℕ) :
    FanOutCompletionResult → List EventBody
  | .recorded => [outcome.body (.fromSequencePosition ordinal)]
  | .dropped => []

theorem recordFanOutCompletion_records {runId : Option RunId} {outcome : FanOutOutcome} :
    Records start (fun result => start.batch recordedAt (outcome.bodies ordinal result))
      (recordFanOutCompletion recordedAt ordinal runId outcome) := by
  refine Holds.bind_fact holds_get_untouched ?_
  intro recorder _
  refine Holds.bind_fact (holds_call (fun _ => trivial) fun answer => by cases answer <;> rfl) ?_
  intro answer _
  refine Holds.bind_fact (holds_liftStore fun _ _ hpre _ => hpre) ?_
  intro history _
  split_ifs
  · exact holds_pure fun _ _ hpre => hpre.advanced
  · exact holds_pure fun _ _ hpre => hpre.advanced
  · exact Records.andThen appendWith_records fun _ => holds_pure fun _ _ hpre => hpre

end Operations

/-- An operation's result, for those that return one. -/
abbrev RecordResult := Option FanOutCompletionResult

/-- An operation that returns nothing. -/
def withoutResult (operation : RecorderM Unit) : RecorderM RecordResult := do
  operation
  return none

/-- The append operations of a recorder. -/
inductive RecorderOperation where
  | workflowStarted (record : WorkflowStartRecord)
  | workflowStartedWithAttributes (record : WorkflowStartRecord) (attributes : SearchAttributes)
    (schema : SearchAttributeSchema)
  | scheduleCreated (scheduleId : ScheduleId) (config : ScheduleConfig)
  | scheduleUpdated (scheduleId : ScheduleId) (config : ScheduleConfig)
  | schedulePaused (scheduleId : ScheduleId)
  | scheduleResumed (scheduleId : ScheduleId)
  | scheduleDeleted (scheduleId : ScheduleId)
  | scheduleTriggered (scheduleId : ScheduleId) (workflowId : WorkflowId) (runId : RunId)
  | workflowCompleted (result : Payload)
  | workflowFailed (error : WorkflowError)
  | workflowCancelled (reason : String)
  | workflowTimedOut (timeout : String)
  | workflowContinuedAsNew (input : Payload) (workflowType : Option String) (parentRunId : RunId)
  | workflowReopened (runId : RunId) (reopened : List ActivityId)
  | workflowPaused (runId : RunId) (reason operator : Option String)
  | workflowResumed (runId : RunId) (operator : Option String)
  | searchAttributesUpdated (attributes : SearchAttributes) (schema : SearchAttributeSchema)
  | activityScheduled (activityId : ActivityId) (activityType : String) (input : Payload)
    (taskQueue : String) (node : Option String)
  | activityStarted (activityId : ActivityId) (attempt : ℕ)
  | activityCompleted (activityId : ActivityId) (result : Payload) (attempt : ℕ)
  | activityFailed (activityId : ActivityId) (error : ActivityError) (attempt : ℕ)
  | activityCancelled (activityId : ActivityId) (attempt : ℕ)
  | activityCancelledAndSettleOutbox (ordinal attempt : ℕ)
  | timerStarted (timerId : TimerId) (fireAt : Instant)
  | timerFired (timerId : TimerId)
  | timerCancelled (timerId : TimerId) (cause : TimerCancelCause)
  | withTimeoutCompleted (timerId : TimerId) (outcome : WithTimeoutOutcome)
    (result : Option Payload)
  | signalReceived (name : String) (payload : Payload)
  | signalSent (targetWorkflowId : WorkflowId) (name : String) (payload : Payload)
  | childWorkflowStarted (childWorkflowId : WorkflowId) (workflowType : String) (input : Payload)
    (packageVersion : PackageVersion)
  | childWorkflowCompleted (childWorkflowId : WorkflowId) (result : Payload)
  | childWorkflowFailed (childWorkflowId : WorkflowId) (error : WorkflowError)
  | fanOutDispatch (items : List FanOutItem)
  | fanOutCompletion (ordinal : ℕ) (runId : Option RunId) (outcome : FanOutOutcome)

/-- The operation's program. -/
def RecorderOperation.run (recordedAt : Instant) : RecorderOperation → RecorderM RecordResult
  | .workflowStarted record => withoutResult (recordWorkflowStarted recordedAt record)
  | .workflowStartedWithAttributes record attributes schema =>
    withoutResult (recordWorkflowStartedWithAttributes recordedAt record attributes schema)
  | .scheduleCreated scheduleId config =>
    withoutResult (recordScheduleCreated recordedAt scheduleId config)
  | .scheduleUpdated scheduleId config =>
    withoutResult (recordScheduleUpdated recordedAt scheduleId config)
  | .schedulePaused scheduleId => withoutResult (recordSchedulePaused recordedAt scheduleId)
  | .scheduleResumed scheduleId => withoutResult (recordScheduleResumed recordedAt scheduleId)
  | .scheduleDeleted scheduleId => withoutResult (recordScheduleDeleted recordedAt scheduleId)
  | .scheduleTriggered scheduleId workflowId runId =>
    withoutResult (recordScheduleTriggered recordedAt scheduleId workflowId runId)
  | .workflowCompleted result => withoutResult (recordWorkflowCompleted recordedAt result)
  | .workflowFailed error => withoutResult (recordWorkflowFailed recordedAt error)
  | .workflowCancelled reason => withoutResult (recordWorkflowCancelled recordedAt reason)
  | .workflowTimedOut timeout => withoutResult (recordWorkflowTimedOut recordedAt timeout)
  | .workflowContinuedAsNew input workflowType parentRunId =>
    withoutResult (recordWorkflowContinuedAsNew recordedAt input workflowType parentRunId)
  | .workflowReopened runId reopened =>
    withoutResult (recordWorkflowReopened recordedAt runId reopened)
  | .workflowPaused runId reason operator =>
    withoutResult (recordWorkflowPaused recordedAt runId reason operator)
  | .workflowResumed runId operator =>
    withoutResult (recordWorkflowResumed recordedAt runId operator)
  | .searchAttributesUpdated attributes schema =>
    withoutResult (recordSearchAttributesUpdated recordedAt attributes schema)
  | .activityScheduled activityId activityType input taskQueue node =>
    withoutResult (recordActivityScheduled recordedAt activityId activityType input taskQueue node)
  | .activityStarted activityId attempt =>
    withoutResult (recordActivityStarted recordedAt activityId attempt)
  | .activityCompleted activityId result attempt =>
    withoutResult (recordActivityCompleted recordedAt activityId result attempt)
  | .activityFailed activityId error attempt =>
    withoutResult (recordActivityFailed recordedAt activityId error attempt)
  | .activityCancelled activityId attempt =>
    withoutResult (recordActivityCancelled recordedAt activityId attempt)
  | .activityCancelledAndSettleOutbox ordinal attempt =>
    withoutResult (recordActivityCancelledAndSettleOutbox recordedAt ordinal attempt)
  | .timerStarted timerId fireAt => withoutResult (recordTimerStarted recordedAt timerId fireAt)
  | .timerFired timerId => withoutResult (recordTimerFired recordedAt timerId)
  | .timerCancelled timerId cause => withoutResult (recordTimerCancelled recordedAt timerId cause)
  | .withTimeoutCompleted timerId outcome result =>
    withoutResult (recordWithTimeoutCompleted recordedAt timerId outcome result)
  | .signalReceived name payload => withoutResult (recordSignalReceived recordedAt name payload)
  | .signalSent targetWorkflowId name payload =>
    withoutResult (recordSignalSent recordedAt targetWorkflowId name payload)
  | .childWorkflowStarted childWorkflowId workflowType input packageVersion =>
    withoutResult (recordChildWorkflowStarted recordedAt childWorkflowId workflowType input packageVersion)
  | .childWorkflowCompleted childWorkflowId result =>
    withoutResult (recordChildWorkflowCompleted recordedAt childWorkflowId result)
  | .childWorkflowFailed childWorkflowId error =>
    withoutResult (recordChildWorkflowFailed recordedAt childWorkflowId error)
  | .fanOutDispatch items => withoutResult (recordFanOutDispatch recordedAt items)
  | .fanOutCompletion ordinal runId outcome =>
    some <$> recordFanOutCompletion recordedAt ordinal runId outcome

/-- The events an operation is recorded as when it ends with the result. -/
def RecorderOperation.bodies (workflowId : WorkflowId) (result : RecordResult) :
    RecorderOperation → List EventBody
  | .workflowStarted record => [record.body]
  | .workflowStartedWithAttributes record attributes _ => record.bodies workflowId attributes
  | .scheduleCreated scheduleId config => [.scheduleCreated scheduleId config]
  | .scheduleUpdated scheduleId config => [.scheduleUpdated scheduleId config]
  | .schedulePaused scheduleId => [.schedulePaused scheduleId]
  | .scheduleResumed scheduleId => [.scheduleResumed scheduleId]
  | .scheduleDeleted scheduleId => [.scheduleDeleted scheduleId]
  | .scheduleTriggered scheduleId workflowId runId =>
    [.scheduleTriggered scheduleId workflowId runId]
  | .workflowCompleted result => [.workflowCompleted result]
  | .workflowFailed error => [.workflowFailed error]
  | .workflowCancelled reason => [.workflowCancelled reason]
  | .workflowTimedOut timeout => [.workflowTimedOut timeout]
  | .workflowContinuedAsNew input workflowType parentRunId =>
    [.workflowContinuedAsNew input workflowType parentRunId]
  | .workflowReopened runId reopened => [.workflowReopened runId reopened]
  | .workflowPaused runId reason operator => [.workflowPaused runId reason operator]
  | .workflowResumed runId operator => [.workflowResumed runId operator]
  | .searchAttributesUpdated attributes _ => [.searchAttributesUpdated workflowId attributes]
  | .activityScheduled activityId activityType input taskQueue node =>
    [.activityScheduled activityId activityType input taskQueue node]
  | .activityStarted activityId attempt => [.activityStarted activityId attempt]
  | .activityCompleted activityId result attempt => [.activityCompleted activityId result attempt]
  | .activityFailed activityId error attempt => [.activityFailed activityId error attempt]
  | .activityCancelled activityId attempt => [.activityCancelled activityId attempt]
  | .activityCancelledAndSettleOutbox ordinal attempt =>
    [.activityCancelled (.fromSequencePosition ordinal) attempt]
  | .timerStarted timerId fireAt => [.timerStarted timerId fireAt]
  | .timerFired timerId => [.timerFired timerId]
  | .timerCancelled timerId cause => [.timerCancelled timerId cause]
  | .withTimeoutCompleted timerId outcome result => [.withTimeoutCompleted timerId outcome result]
  | .signalReceived name payload => [.signalReceived name payload]
  | .signalSent targetWorkflowId name payload => [.signalSent targetWorkflowId name payload]
  | .childWorkflowStarted childWorkflowId workflowType input packageVersion =>
    [.childWorkflowStarted childWorkflowId workflowType input packageVersion]
  | .childWorkflowCompleted childWorkflowId result =>
    [.childWorkflowCompleted childWorkflowId result]
  | .childWorkflowFailed childWorkflowId error => [.childWorkflowFailed childWorkflowId error]
  | .fanOutDispatch items => items.flatMap FanOutItem.bodies
  | .fanOutCompletion ordinal _ outcome => result.elim [] (outcome.bodies ordinal)

/-- Some operation records such an event. -/
def RecorderWrites (body : EventBody) : Prop :=
  ∃ (operation : RecorderOperation) (workflowId : WorkflowId) (result : RecordResult),
    body ∈ operation.bodies workflowId result

/-- No operation records that a child was cancelled. -/
theorem not_recorderWrites_childWorkflowCancelled {child : WorkflowId} :
    ¬ RecorderWrites (.childWorkflowCancelled child) := by
  rintro ⟨operation, workflowId, result, hmem⟩
  cases operation with
  | workflowStartedWithAttributes record attributes =>
    simp only [RecorderOperation.bodies, WorkflowStartRecord.bodies] at hmem
    split_ifs at hmem <;> simp [WorkflowStartRecord.body] at hmem
  | fanOutDispatch items => simp [RecorderOperation.bodies, FanOutItem.bodies] at hmem
  | fanOutCompletion ordinal runId outcome =>
    rcases result with _ | _ | _ <;> cases outcome <;>
      simp [RecorderOperation.bodies, FanOutOutcome.bodies, FanOutOutcome.body] at hmem
  | _ => simp [RecorderOperation.bodies, WorkflowStartRecord.body] at hmem

theorem withoutResult_records {start : Recorder} {batch : List Event} {operation : RecorderM Unit}
    (h : Records start (fun _ => batch) operation) :
    Records start (fun _ => batch) (withoutResult operation) :=
  h.andThen fun _ => holds_pure fun _ _ hpre => hpre

/-- Every operation records its events. -/
theorem RecorderOperation.records {start : Recorder} {recordedAt : Instant}
    (operation : RecorderOperation) :
    Records start (fun result => start.batch recordedAt (operation.bodies start.workflowId result))
      (operation.run recordedAt) := by
  cases operation with
  | workflowStarted => exact withoutResult_records recordWorkflowStarted_records
  | workflowStartedWithAttributes =>
    exact withoutResult_records recordWorkflowStartedWithAttributes_records
  | searchAttributesUpdated => exact withoutResult_records recordSearchAttributesUpdated_records
  | activityCancelledAndSettleOutbox =>
    exact withoutResult_records recordActivityCancelledAndSettleOutbox_records
  | fanOutDispatch => exact withoutResult_records recordFanOutDispatch_records
  | fanOutCompletion =>
    exact Holds.bind recordFanOutCompletion_records fun _ => holds_pure fun _ _ hpre => hpre
  | _ =>
    -- one event, and then nothing, the settlement or the visibility row
    first
    | exact withoutResult_records appendWith_records
    | exact withoutResult_records appendThenSettle_records
    | exact withoutResult_records appendThenUpsert_records

end Aion
