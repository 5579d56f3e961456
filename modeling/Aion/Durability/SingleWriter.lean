import Aion.Durability.RecorderSpec

/-!
# Single-writer histories

Any number of recorders may be open on a workflow, at any heads, and their operations
may interleave call by call. The store alone keeps the numbers: it accepts a batch only
at its head and only when the batch goes on from there. The recorders keep their heads
in step (`RecorderOperation.records`).

`single_writer` puts both together for every state the recorders reach.
-/

namespace Aion

open Interleaving

/-! ### Recorders on one store -/

/-- A call of an append operation. -/
structure Recording where
  /-- The operation. -/
  operation : RecorderOperation
  /-- The time its events carry. -/
  recordedAt : Instant

/-- The recording's own events, when it begins with the recorder and ends with the result. -/
def Recording.events (recording : Recording) (start : Recorder) (result : RecordResult) :
    List Event :=
  start.batch recording.recordedAt (recording.operation.bodies start.workflowId result)

/-- What a recording leaves: which it was, and its result. -/
abbrev RecordingResult := Recording × Except DurabilityError RecordResult

/-- The store and the recorders that are open on it. -/
abbrev RecorderSystem :=
  System InMemoryStore Recorder RecordingResult StoreCall StoreCall.Answer Event

/-- What happens in a step of the recorders. -/
abbrev RecorderLabel := Label Recorder RecordingResult StoreCall StoreCall.Answer Event

/-- The recording's program. -/
def Recording.program (recording : Recording) (recorder : Recorder) :
    Prog StoreCall StoreCall.Answer (RecordingResult × Recorder) :=
  (recording.operation.run recording.recordedAt recorder).bind fun outcome =>
    .done ((recording, outcome.1), outcome.2)

/-- The programs of a recorder: its append operations. -/
def recorderPrograms (recorder : Recorder)
    (program : Prog StoreCall StoreCall.Answer (RecordingResult × Recorder)) : Prop :=
  ∃ recording : Recording, program = recording.program recorder

/-- One step of one recorder. -/
abbrev RecorderStep : RecorderSystem → RecorderLabel → RecorderSystem → Prop :=
  Step storeService recorderPrograms

/-- Steps of any recorders, one after another. -/
abbrev RecorderSteps : RecorderSystem → RecorderSystem → Prop := Steps storeService recorderPrograms

/-- The empty store without recorders. -/
def noRecorders : RecorderSystem := ⟨.empty, fun _ => none⟩

/-- What an answered call adds to a workflow's history. -/
def addedTo (workflowId : WorkflowId) (call : StoreCall) (answer : call.Answer) : List Event :=
  match acceptedBatch call answer with
  | some (id, _, events) => if workflowId = id then events else []
  | none => []

/-- What holds of the recorders and the store in every state they reach. -/
structure SingleWriter (s : RecorderSystem) : Prop where
  /-- Every history carries exactly the numbers from 1 on, in order. -/
  numbered : s.store.Numbered
  /-- An accepted append adds its batch at the end, any other call nothing. -/
  called : ∀ i call answer s', RecorderStep s (.called i call answer) s' → ∀ workflowId,
    s'.store.history workflowId = s.store.history workflowId ++ addedTo workflowId call answer
  /-- Nothing but a call changes the store. -/
  others : ∀ label s', RecorderStep s label s' → (∀ i call answer, label ≠ .called i call answer) →
    s'.store = s.store
  /-- An accepted append is its operation's first, at the head the recorder stands at. -/
  issued : ∀ i call answer s', RecorderStep s (.called i call answer) s' →
    ∀ workflowId expectedSeq batch, acceptedBatch call answer =
      some (workflowId, expectedSeq, batch) →
      ∃ start rest, s.clients i = some (.busy start [] rest) ∧ start.workflowId = workflowId ∧
        start.sequence.head = expectedSeq ∧ OwnBatch start batch
  /-- When an operation ends, the head has advanced by what was accepted from it. If it ends well,
  that is just its own events, and after an error it is nothing. -/
  finished : ∀ i start log recording result recorder s',
    RecorderStep s (.finished i start log (recording, result) recorder) s' →
      recorder.workflowId = start.workflowId ∧
      recorder.sequence.head = start.sequence.head + log.length ∧
      (∀ value, result = .ok value → log = recording.events start value) ∧
      ∀ error, result = .error error → log = [] ∧ recorder.sequence = start.sequence
  /-- The heads at which appends to a workflow are accepted only increase, so of the
  recorders standing at one head at most one appends. -/
  exclusive : ∀ i call answer s₁, RecorderStep s (.called i call answer) s₁ →
    ∀ s₂, RecorderSteps s₁ s₂ →
    ∀ j call' answer' s₃, RecorderStep s₂ (.called j call' answer') s₃ →
    ∀ workflowId expectedSeq batch, acceptedBatch call answer =
      some (workflowId, expectedSeq, batch) →
    ∀ expectedSeq' batch', acceptedBatch call' answer' = some (workflowId, expectedSeq', batch') →
      expectedSeq < expectedSeq'

/-- What a call does to the histories. -/
structure ServesHistories (store : InMemoryStore) (call : StoreCall) (answer : call.Answer)
    (store' : InMemoryStore) : Prop where
  /-- An accepted append adds its batch, any other call nothing. -/
  added : ∀ workflowId, store'.history workflowId = store.history workflowId ++
    addedTo workflowId call answer
  /-- An accepted append stood at the end of its history. -/
  atEnd : ∀ workflowId expectedSeq batch,
    acceptedBatch call answer = some (workflowId, expectedSeq, batch) →
    (store.history workflowId).length = expectedSeq
  /-- The numbers stay in order. -/
  numbered : store'.Numbered

section Serve

variable {store : InMemoryStore}

/-- A call that is no accepted append and leaves the histories alone. -/
theorem servesHistories_of_kept (numbered : store.Numbered) {call : StoreCall}
    {answer : call.Answer} {store' : InMemoryStore} (hnone : acceptedBatch call answer = none)
    (hkept : store'.histories = store.histories) : ServesHistories store call answer store' := by
  have hhist : ∀ workflowId, store'.history workflowId = store.history workflowId := by
    intro workflowId
    rw [InMemoryStore.history, hkept]
    rfl
  refine ⟨?_, ?_, ?_⟩
  · intro workflowId
    rw [hhist, addedTo, hnone, List.append_nil]
  · intro workflowId expectedSeq batch h
    rw [hnone] at h
    cases h
  · intro workflowId
    rw [hhist]
    exact numbered workflowId

/-- A call answered by an append, accepted or not. -/
theorem servesHistories_appendAnswer (numbered : store.Numbered) {call : StoreCall}
    {workflowId : WorkflowId} {events : List Event} {expectedSeq : ℕ}
    (answerOf : Except StoreError Unit → call.Answer)
    (hacc : acceptedBatch call (answerOf (.ok ())) = some (workflowId, expectedSeq, events))
    (hrejected : ∀ error, acceptedBatch call (answerOf (.error error)) = none) :
    ServesHistories store call (answerOf (store.appendAnswer workflowId events expectedSeq).1)
      (store.appendAnswer workflowId events expectedSeq).2 := by
  unfold InMemoryStore.appendAnswer
  cases happ : store.append workflowId events expectedSeq with
  | error error => exact servesHistories_of_kept numbered (hrejected error) rfl
  | ok store' =>
    obtain ⟨hhead, -, hhist⟩ := InMemoryStore.append_eq_ok happ
    refine ⟨?_, ?_, InMemoryStore.append_numbered numbered happ⟩
    · intro id
      rw [hhist, addedTo, hacc]
    · intro id expectedSeq' batch h
      rw [hacc] at h
      cases h
      rw [← hhead, InMemoryStore.historyHead_of_numbered (numbered workflowId)]

/-- Every call of the in-memory store. -/
theorem servesHistories (numbered : store.Numbered) (call : StoreCall) :
    ServesHistories store call (store.serve call).1 (store.serve call).2 := by
  cases call with
  | append workflowId events expectedSeq =>
    exact @servesHistories_appendAnswer _ numbered (.append workflowId events expectedSeq) _ _ _
      (fun answer => answer) rfl fun _ => rfl
  | appendWithOutbox workflowId events expectedSeq rows =>
    by_cases hrows : rows = []
    · subst hrows
      exact @servesHistories_appendAnswer _ numbered (.appendWithOutbox workflowId events expectedSeq []) _ _ _
        (fun answer => answer) rfl fun _ => rfl
    · have hserve : store.serve (.appendWithOutbox workflowId events expectedSeq rows) =
          (.error (.backend ("this event store does not support durable-outbox appends; " ++
            "refusing to drop outbox rows (override WritableEventStore::append_with_outbox)")), store) :=
        if_neg hrows
      rw [hserve]
      exact servesHistories_of_kept numbered rfl rfl
  | readHistory workflowId => exact servesHistories_of_kept numbered rfl rfl
  | recordVisibility record => exact servesHistories_of_kept numbered rfl rfl
  | settleWorkflowOutboxRowsCancelled workflowId => exact servesHistories_of_kept numbered rfl rfl
  | settleOutboxRowCancelled dispatchKey => exact servesHistories_of_kept numbered rfl rfl

end Serve

section System

variable {s s' : RecorderSystem}

theorem numbered_of_reachable (reachable : RecorderSteps s s') (hs : s.store.Numbered) :
    s'.store.Numbered :=
  store_of_reachable InMemoryStore.Numbered
    (fun _ call h => (servesHistories h call).numbered) reachable hs

variable {workflowId : WorkflowId} {batch : List Event} {expectedSeq i : ℕ}

/-- What a step that is a call does to the histories. -/
theorem RecorderStep.servesHistories {call : StoreCall} {answer : call.Answer}
    (h : RecorderStep s (.called i call answer) s') (numbered : s.store.Numbered) :
    ServesHistories s.store call answer s'.store := by
  cases h with
  | called client => exact servesHistories numbered call

/-- Histories do not shrink. -/
theorem length_le_of_steps (hsteps : RecorderSteps s s') (numbered : s.store.Numbered)
    (workflowId : WorkflowId) :
    (s.store.history workflowId).length ≤ (s'.store.history workflowId).length := by
  induction hsteps with
  | refl => exact Nat.le_refl _
  | tail hbef step ih =>
    obtain ⟨label, step⟩ := step
    refine Nat.le_trans ih ?_
    rcases step.store_cases with hsame | ⟨i, call, -, hserv⟩
    · rw [hsame]
    · rw [hserv]
      have hadd := (Aion.servesHistories (numbered_of_reachable hbef numbered) call).added workflowId
      change _ ≤ (InMemoryStore.history (InMemoryStore.serve _ call).2 workflowId).length
      rw [hadd, List.length_append]
      exact Nat.le_add_right _ _

/-- How a recording that begins with the recorder may end. -/
def Recorder.Leaves (start : Recorder) (log : List Event) (outcome : RecordingResult × Recorder) :
    Prop :=
  Ended (fun log recorder result => Advanced start (outcome.1.1.events start result) log recorder)
    (Untouched start) log (outcome.1.2, outcome.2)

/-- Every operation under way obeys its specification. -/
theorem obeys_of_steps (reachable : RecorderSteps noRecorders s) :
    AllObey storeService MayCall Recorder.Leaves s := by
  refine obeys_of_reachable ?_ reachable ?_
  · rintro start program ⟨recording, rfl⟩
    exact (recording.operation.records [] start ⟨rfl, rfl, rfl⟩).bind fun _ _ hended => hended
  · intro i start log rest h
    cases h

/-- What recorders append are events that their operations record. -/
theorem recorderWrites_of_steps (reachable : RecorderSteps noRecorders s)
    (workflowId : WorkflowId) :
    ∀ event ∈ s.store.history workflowId, RecorderWrites event.body := by
  induction reachable with
  | refl =>
    intro event hev
    cases hev
  | @tail before after hbef hstep ih =>
    obtain ⟨label, hstep⟩ := hstep
    cases hstep with
    | @called i start log request next client =>
      have numbered := numbered_of_reachable hbef InMemoryStore.numbered_empty
      have hadd := (servesHistories numbered request).added workflowId
      intro event hev
      change event ∈ (before.store.serve request).2.history workflowId at hev
      rw [hadd, List.mem_append] at hev
      rcases hev with hev | hev
      · exact ih event hev
      -- the program can go on to its end, and then has appended just its own events
      obtain ⟨log', ⟨⟨recording, result⟩, recorder⟩, hlog, hleaves⟩ :=
        ((obeys_of_steps hbef i start log _ client).2 before.store).exists_done before.store
      have hmem : event ∈ log' := by
        refine hlog (List.mem_append_right _ ?_)
        simp only [addedTo] at hev
        split at hev
        · next id expectedSeq events hacc =>
          split_ifs at hev
          · simpa [storeService, hacc] using hev
          · cases hev
        · cases hev
      cases result with
      | error error =>
        rw [hleaves.1] at hmem
        cases hmem
      | ok value =>
        rw [hleaves.2, Recording.events, Recorder.batch] at hmem
        exact ⟨recording.operation, _, value, body_of_mem_eventsAfter hmem⟩
    | _ => exact ih

/-- An accepted append is one that its operation may make. -/
theorem issued_of_mayCall {start : Recorder} {log : List Event} {call : StoreCall}
    {answer : call.Answer} (hmay : MayCall start log call)
    (hacc : acceptedBatch call answer = some (workflowId, expectedSeq, batch)) :
    log = [] ∧ start.workflowId = workflowId ∧ start.sequence.head = expectedSeq ∧
      OwnBatch start batch := by
  unfold acceptedBatch at hacc
  split at hacc
  · cases hacc
    obtain ⟨hlog, hid, hhead, hbatch⟩ := hmay
    exact ⟨hlog, hid.symm, hhead.symm, hbatch⟩
  · cases hacc
    obtain ⟨hlog, hid, hhead, hbatch⟩ := hmay
    exact ⟨hlog, hid.symm, hhead.symm, hbatch⟩
  · cases hacc

theorem issued_of_step (reachable : RecorderSteps noRecorders s) {call : StoreCall}
    {answer : call.Answer} (h : RecorderStep s (.called i call answer) s')
    (hacc : acceptedBatch call answer = some (workflowId, expectedSeq, batch)) :
    ∃ start rest, s.clients i = some (.busy start [] rest) ∧ start.workflowId = workflowId ∧
      start.sequence.head = expectedSeq ∧ OwnBatch start batch := by
  cases h with
  | called client =>
    obtain ⟨hmay, -⟩ := obeys_of_steps reachable _ _ _ _ client
    obtain ⟨rfl, hid, hhead, hbatch⟩ := issued_of_mayCall hmay hacc
    exact ⟨_, _, client, hid, hhead, hbatch⟩

/-- An accepted append leaves its history longer than the head it named, so no later one
is accepted at that head. -/
theorem exclusive_of_step (reachable : RecorderSteps noRecorders s) (numbered : s.store.Numbered)
    {call : StoreCall} {answer : call.Answer} {s₁ : RecorderSystem}
    (h : RecorderStep s (.called i call answer) s₁) {s₂ : RecorderSystem}
    (hsteps : RecorderSteps s₁ s₂) {j : ℕ} {call' : StoreCall} {answer' : call'.Answer}
    {s₃ : RecorderSystem} (h' : RecorderStep s₂ (.called j call' answer') s₃)
    (hacc : acceptedBatch call answer = some (workflowId, expectedSeq, batch)) {expectedSeq' : ℕ}
    {batch' : List Event}
    (hacc' : acceptedBatch call' answer' = some (workflowId, expectedSeq', batch')) :
    expectedSeq < expectedSeq' := by
  obtain ⟨_, _, _, _, _, hbatch⟩ := issued_of_step reachable h hacc
  have hfst := RecorderStep.servesHistories h numbered
  have numbered₂ := numbered_of_reachable hsteps hfst.numbered
  have hat := hfst.atEnd workflowId expectedSeq batch hacc
  have hat' :=
    (RecorderStep.servesHistories h' numbered₂).atEnd workflowId expectedSeq' batch' hacc'
  have hadd : s₁.store.history workflowId = s.store.history workflowId ++ batch := by
    rw [hfst.added workflowId, addedTo, hacc]
    exact congrArg _ (if_pos rfl)
  have hpos := List.length_pos_of_ne_nil hbatch.nonempty
  have hlen := congrArg List.length hadd
  rw [List.length_append] at hlen
  have hgrown := length_le_of_steps hsteps hfst.numbered workflowId
  omega

end System

/-- **Single-writer history.** Whatever recorders are opened on the in-memory store, at
whatever heads, and however their append operations interleave, every state they reach
has its histories numbered from 1 on without gap or duplicate; each accepted append adds
exactly its batch at the end; an operation that ends well has appended just its own events,
one that ends with an error nothing, and left its recorder's head; and at one head at most
one append is accepted. -/
theorem single_writer {s : RecorderSystem} (reachable : RecorderSteps noRecorders s) :
    SingleWriter s := by
  have numbered := numbered_of_reachable reachable InMemoryStore.numbered_empty
  refine ⟨numbered, ?_, ?_, ?_, ?_, ?_⟩
  · intro i call answer s' h workflowId
    exact (RecorderStep.servesHistories h numbered).added workflowId
  · intro label s' h hlabel
    rcases h.store_cases with hsame | ⟨i, call, rfl, -⟩
    · exact hsame
    · exact absurd rfl (hlabel i call _)
  · intro i call answer s' h workflowId expectedSeq batch hacc
    exact issued_of_step reachable h hacc
  · intro i start log recording result recorder s' h
    cases h with
    | finished client =>
      have hended : start.Leaves log ((recording, result), recorder) := obeys_of_steps reachable _ _ _ _ client
      cases result with
      | ok value =>
        obtain ⟨⟨hid, hhead⟩, hlog⟩ := hended
        exact ⟨hid, hhead, by rintro _ ⟨⟩; exact hlog, by simp⟩
      | error error => exact ⟨hended.inStep.1, hended.inStep.2, by simp, fun _ _ => ⟨hended.1, hended.2.2⟩⟩
  · intro i call answer s₁ h s₂ hsteps j call' answer' s₃ h' workflowId expectedSeq batch hacc
      expectedSeq' batch' hacc'
    exact exclusive_of_step reachable numbered h hsteps h' hacc hacc'

/-- Two recorders are opened on a fresh workflow; both record a timer, call by call in turns. -/
def twoRecorders : List (Action Recorder) :=
  [.opened 0 (.new ⟨0⟩), .opened 1 (.new ⟨0⟩), .advance 0, .advance 1, .advance 0, .advance 1,
      .advance 0, .advance 1]

/-- The recorder of a client that is idle. -/
def writerAt (s : RecorderSystem) (i : ℕ) : Option Recorder :=
  match s.clients i with
  | some (.idle recorder) => some recorder
  | _ => none

/-- The first append is accepted, the second finds the head moved. -/
theorem single_writer_twoRecorders :
    ∃ s, RecorderSteps noRecorders s ∧ SingleWriter s ∧ (s.store.history ⟨0⟩).map Event.seq = [1] ∧
      writerAt s 0 = some (.resumeAt ⟨0⟩ 1) ∧ writerAt s 1 = some (.new ⟨0⟩) := by
  have hseen : (noRecorders.exec storeService
      (Recording.program ⟨.timerFired (.named "reminder"), 0⟩) twoRecorders).map
      (fun run => ((run.2.store.history ⟨0⟩).map Event.seq, writerAt run.2 0, writerAt run.2 1)) =
        some ([1], some (.resumeAt ⟨0⟩ 1), some (.new ⟨0⟩)) := by decide +kernel
  obtain ⟨⟨steps, s⟩, hexec, hseen⟩ := Option.map_eq_some_iff.mp hseen
  obtain ⟨hseqs, hrecorders⟩ := Prod.mk.inj hseen
  obtain ⟨hfst, hsnd⟩ := Prod.mk.inj hrecorders
  have hsteps : RecorderSteps noRecorders s :=
    (System.run_of_exec (fun _ => ⟨_, rfl⟩) hexec).reachable
  exact ⟨s, hsteps, single_writer hsteps, hseqs, hfst, hsnd⟩

end Aion
