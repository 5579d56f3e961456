import Aion.Durability.Command
import Aion.Store.Visibility

/-!
# The in-memory event store

`InMemoryStore` (`aion-store/src/memory.rs`) keeps one history for each workflow and a
visibility row for each run. An append names the head it expects; the store takes the
batch only at that head and only when its sequence numbers go on from there. Reads
give a history in sequence order.

`append_eq_ok` says what an accepted append is and does; by it every history keeps the
numbers from 1 on (`append_numbered`).
-/

namespace Aion

/-- The store's state. -/
structure InMemoryStore where
  /-- The history of each workflow, in the order of appending. -/
  histories : AList fun _ : WorkflowId => List Event
  /-- The visibility rows. -/
  visibility : VisibilityTable

namespace InMemoryStore

/-- `history_head`. -/
def historyHead (history : List Event) : ℕ := (history.map Event.seq).max?.getD 0

/-- `history_in_sequence_order`: a stable sort by sequence number. -/
def historyInSequenceOrder (history : List Event) : List Event :=
  history.insertionSort fun a b => a.seq ≤ b.seq

/-- `read_history`. -/
def readHistory (store : InMemoryStore) (workflowId : WorkflowId) : List Event :=
  match store.histories.lookup workflowId with
  | none => []
  | some history => historyInSequenceOrder history

/-- `list_workflow_ids`. -/
def listWorkflowIds (store : InMemoryStore) : List WorkflowId :=
  store.histories.keys.insertionSort fun a b => a.display ≤ b.display

/-- The first event of a batch that does not carry the next sequence number, with the
number it should have had. -/
def firstGap : ℕ → List Event → Option (ℕ × Event)
  | _, [] => none
  | nextSeq, event :: rest =>
    if event.seq ≠ nextSeq then some (nextSeq, event) else firstGap (nextSeq + 1) rest

/-- `append`; an error leaves the store as it was. -/
def append (store : InMemoryStore) (workflowId : WorkflowId) (events : List Event)
    (expectedSeq : ℕ) : Except StoreError InMemoryStore :=
  let history := (store.histories.lookup workflowId).getD []
  let currentHead := historyHead history
  if currentHead ≠ expectedSeq then .error (.sequenceConflict expectedSeq currentHead)
  else if events = [] then .ok store
  else
    match firstGap (expectedSeq + 1) events with
    | some (nextSeq, event) =>
      .error (.backend ("event sequence must be contiguous: expected " ++ toString nextSeq ++ ", got " ++
        toString event.seq))
    | none => .ok { store with histories := store.histories.insert workflowId (history ++ events) }

/-- `record_visibility`. -/
def recordVisibility (store : InMemoryStore) (record : VisibilityRecord) : InMemoryStore :=
  { store with visibility := store.visibility.recordVisibility record }

/-- A history is read in sequence order. -/
theorem ordered_readHistory (store : InMemoryStore) (workflowId : WorkflowId) :
    Ordered (store.readHistory workflowId) := by
  unfold readHistory
  cases store.histories.lookup workflowId with
  | none => exact List.Pairwise.nil
  | some history => exact List.pairwise_insertionSort _ history

/-! ### Appending -/

/-- The stored history of a workflow. -/
def history (store : InMemoryStore) (workflowId : WorkflowId) : List Event :=
  (store.histories.lookup workflowId).getD []

/-- Every history carries the numbers from 1 on, in order. -/
def Numbered (store : InMemoryStore) : Prop :=
  ∀ workflowId, (store.history workflowId).map Event.seq =
    List.range' 1 (store.history workflowId).length

/-- The empty store. -/
def empty : InMemoryStore := ⟨∅, .empty⟩

theorem numbered_empty : empty.Numbered := by
  intro workflowId
  simp [empty, history]

variable {events : List Event} {store store' : InMemoryStore} {workflowId : WorkflowId}
  {expectedSeq : ℕ}

/-- The head of a numbered history is its length. -/
theorem historyHead_of_numbered (h : events.map Event.seq = List.range' 1 events.length) :
    historyHead events = events.length := by
  rw [historyHead, h]
  cases hlen : events.length with
  | zero => rfl
  | succ n =>
    have hmax : (List.range' 1 (n + 1)).max? = some (n + 1) := by
      rw [List.max?_eq_some_iff]
      simp only [List.mem_range'_1]
      refine ⟨by omega, ?_⟩
      intro seq hseq
      omega
    rw [hmax]
    rfl

/-- A numbered history is read as it is. -/
theorem readHistory_of_numbered (numbered : store.Numbered) (workflowId : WorkflowId) :
    store.readHistory workflowId = store.history workflowId := by
  have hord := numbered workflowId
  unfold readHistory history at *
  cases hlook : store.histories.lookup workflowId with
  | none => rfl
  | some history =>
    simp only [hlook, Option.getD_some] at hord ⊢
    refine List.Pairwise.insertionSort_eq (List.pairwise_map.mp ?_)
    rw [hord]
    exact List.pairwise_le_range'

theorem firstGap_eq_none_iff {nextSeq : ℕ} :
    firstGap nextSeq events = none ↔ events.map Event.seq = List.range' nextSeq events.length := by
  induction events generalizing nextSeq with
  | nil => simp [firstGap]
  | cons event rest ih =>
    rw [firstGap, List.map_cons, List.length_cons, List.range'_succ, List.cons.injEq]
    by_cases hseq : event.seq = nextSeq
    · simp [hseq, ih]
    · simp [hseq]

/-- An accepted append stands at the head and goes on from there, and adds its batch to
its workflow's history and nothing to any other. -/
theorem append_eq_ok (h : store.append workflowId events expectedSeq = .ok store') :
    historyHead (store.history workflowId) = expectedSeq ∧
      events.map Event.seq = List.range' (expectedSeq + 1) events.length ∧
      ∀ id, store'.history id = store.history id ++ if id = workflowId then events else [] := by
  unfold append at h
  simp only at h
  split_ifs at h with hhead hemp
  · cases h
    rw [not_not] at hhead
    exact ⟨hhead, by simp [hemp], by simp [hemp]⟩
  · rw [not_not] at hhead
    split at h
    · cases h
    · rename_i hgap
      cases h
      refine ⟨hhead, firstGap_eq_none_iff.mp hgap, ?_⟩
      intro id
      by_cases hid : id = workflowId
      · subst hid
        simp [history]
      · simp [history, AList.lookup_insert_ne hid, hid]

theorem append_numbered (numbered : store.Numbered)
    (h : store.append workflowId events expectedSeq = .ok store') : store'.Numbered := by
  obtain ⟨hhead, hseqs, hhist⟩ := append_eq_ok h
  intro id
  rw [hhist id]
  by_cases hid : id = workflowId
  · subst hid
    rw [historyHead_of_numbered (numbered id)] at hhead
    subst hhead
    rw [if_pos rfl, List.map_append, numbered id, hseqs, List.length_append, Nat.add_comm _ 1,
      List.range'_append_1]
  · rw [if_neg hid, List.append_nil]
    exact numbered id

end InMemoryStore

end Aion
