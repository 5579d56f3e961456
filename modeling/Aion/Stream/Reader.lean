import Aion.Core.Event
import Mathlib.Algebra.Group.Nat.Defs

/-!
# The reader of a resumed stream

`resume.rs` and `socket.rs`. A subscription to one workflow that resumes at a sequence number
replays the history it has read from that number on (`splice`) and then goes on with what is
broadcast. The reader checks that the numbers follow each other (`ContiguityGuard`), encodes each
event and queues its frame; it is done after the first event that ends the workflow (`process`).
-/

namespace Aion

/-! ### Errors on the wire -/

/-- `WireErrorCode`, as far as streams use it. -/
inductive WireErrorCode where
  | invalidInput
  | lagged
  | backend
  deriving DecidableEq

/-- `WireError`. -/
structure WireError where
  code : WireErrorCode
  message : String
  errorType : Option String := none
  deriving DecidableEq

/-- What a subscriber is told that has fallen behind. -/
def laggedStream : WireError := ⟨.lagged, "subscriber lagged behind", none⟩

/-- `u64::saturating_add` of one. -/
def saturatingSucc (seq : ℕ) : ℕ := min (seq + 1) (2 ^ 64 - 1)

/-! ### The splice -/

/-- `RESUME_CURSOR_AHEAD_OF_HISTORY`. -/
def resumeCursorAheadOfHistory : String := "ResumeCursorAheadOfHistory"

/-- The last sequence number of a history. -/
def resumeHead (history : List Event) : ℕ := (history.getLast?.map Event.seq).getD 0

/-- `splice`: the events to replay, and the number up to which the broadcast is dropped. -/
def splice (history : List Event) (resumeFromSeq : ℕ) : Except WireError (List Event × ℕ) :=
  if resumeFromSeq = 0 then .error ⟨.invalidInput, "resume_from_seq must be >= 1", none⟩
  else
    let head := resumeHead history
    if saturatingSucc head < resumeFromSeq then
      .error ⟨.invalidInput, "resume_from_seq " ++ toString resumeFromSeq ++ " is ahead of recorded history (head seq " ++
        toString head ++ "); the largest valid cursor is " ++ toString (saturatingSucc head), some resumeCursorAheadOfHistory⟩
    else
      -- The history is in order, so the partition point is the first event from the cursor on.
      .ok (history.dropWhile fun event => event.seq < resumeFromSeq, head)

/-! ### The reader -/

/-- `is_terminal_workflow_event`. -/
def isTerminalWorkflowEvent (event : Event) : Bool :=
  match event.body with
  | .workflowCompleted .. | .workflowFailed .. | .workflowCancelled .. | .workflowTimedOut ..
  | .workflowContinuedAsNew .. => true
  | _ => false

/-- `SEQUENCE_CONTIGUITY_VIOLATION`. -/
def sequenceContiguityViolation : String := "SequenceContiguityViolation"

/-- `ContiguityGuard::check`, by the number that was delivered last. -/
def checkContiguity (lastDelivered : Option ℕ) (event : Event) : Except WireError Unit :=
  match lastDelivered with
  | none => .ok ()
  | some last =>
    let expected := saturatingSucc last
    let observed := event.seq
    if observed = expected then .ok ()
    else .error ⟨.lagged, "per-workflow stream contiguity violated: expected seq " ++ toString expected ++
      ", observed seq " ++ toString observed ++ "; reconnect with resume_from_seq = " ++ toString expected ++
      " to resume gap-free from recorded history", some sequenceContiguityViolation⟩

/-- A subscription to one workflow that carries a cursor. -/
structure ResumeSubscription (Frame : Type) where
  target : WorkflowId
  resumeFromSeq : ℕ
  /-- It is a `u64`. -/
  resumeFromSeq_lt : resumeFromSeq < 2 ^ 64
  /-- Whether the resolver finds another workflow in the namespace. -/
  attributed : WorkflowId → Bool
  /-- `encode_frame`. -/
  encodeFrame : Event → Except WireError Frame

/-- What becomes of a frame that is sent. -/
inductive FrameChannel where
  | free
  | full
  | closed
  deriving DecidableEq

/-- `FrameOutcome`, with the frame, or an error. -/
inductive FrameOutcome (Frame : Type) where
  | delivered (frame : Frame)
  | filtered
  | stop
  | failed (error : WireError)

/-- `ReaderStep`. -/
inductive ReaderStep where
  | continue
  | stop
  deriving DecidableEq

/-- `SubscriptionReader`, with the frames it has queued and the error it has reported. -/
structure SubscriptionReader (Frame : Type) where
  lastDelivered : Option ℕ
  frames : List Frame
  error : Option WireError

/-- A reader that has read nothing. -/
def SubscriptionReader.new {Frame : Type} : SubscriptionReader Frame := ⟨none, [], none⟩

variable {Frame : Type}

/-- `send_terminal`: only the first error is sent. -/
def SubscriptionReader.sendTerminal (reader : SubscriptionReader Frame) (error : WireError) :
    SubscriptionReader Frame :=
  { reader with error := some (reader.error.getD error) }

namespace ResumeSubscription

variable (sub : ResumeSubscription Frame)

/-- `NamespaceEventGate::admit`: the workflow of the subscription is seeded as allowed. -/
def admits (event : Event) : Bool :=
  event.workflowId = sub.target || sub.attributed event.workflowId

/-- `SubscriptionReader::queue`; a subscription to one workflow selects every event. -/
def queue (event : Event) (channel : FrameChannel) : FrameOutcome Frame :=
  if sub.admits event then
    match sub.encodeFrame event with
    | .error error => .failed error
    | .ok frame =>
      match channel with
      | .free => .delivered frame
      | .full => .failed laggedStream
      | .closed => .stop
  else .filtered

/-- `SubscriptionReader::process`. -/
def process (reader : SubscriptionReader Frame) (event : Event) (channel : FrameChannel) :
    ReaderStep × SubscriptionReader Frame :=
  let isTarget : Bool := event.workflowId = sub.target
  match if isTarget then checkContiguity reader.lastDelivered event else .ok () with
  | .error error => (.stop, reader.sendTerminal error)
  | .ok () =>
    match sub.queue event channel with
    | .delivered frame =>
      if isTarget then
        (if isTerminalWorkflowEvent event then .stop else .continue,
          { reader with frames := reader.frames ++ [frame], lastDelivered := some event.seq })
      else (.continue, { reader with frames := reader.frames ++ [frame] })
    | .filtered => (.continue, reader)
    | .stop => (.stop, reader)
    | .failed error => (.stop, reader.sendTerminal error)

end ResumeSubscription

/-! ### Histories that are numbered -/

/-- The events of a history, up to the first that ends the workflow. -/
def upToTerminal : List Event → List Event
  | [] => []
  | event :: rest => event :: if isTerminalWorkflowEvent event then [] else upToTerminal rest

theorem upToTerminal_append {events rest : List Event}
    (h : ∀ event ∈ events, isTerminalWorkflowEvent event = false) :
    upToTerminal (events ++ rest) = events ++ upToTerminal rest := by
  induction events with
  | nil => rfl
  | cons event events ih =>
    obtain ⟨hev, hevs⟩ := List.forall_mem_cons.mp h
    rw [List.cons_append, upToTerminal, hev, ih hevs]
    rfl

/-- The sequence numbers of a history are those from 1 on. -/
def NumberedFromOne (history : List Event) : Prop :=
  history.map Event.seq = List.range' 1 history.length

variable {history : List Event} {resumeFromSeq : ℕ} {event : Event}

theorem NumberedFromOne.seq (h : NumberedFromOne history) {index : ℕ}
    (hev : history[index]? = some event) : event.seq = index + 1 := by
  obtain ⟨hlt, rfl⟩ := List.getElem?_eq_some_iff.mp hev
  have hmap : (history.map Event.seq)[index]? = some history[index].seq := by simp [hlt]
  rw [h, List.getElem?_range' hlt] at hmap
  have := Option.some.inj hmap
  omega

theorem NumberedFromOne.head (h : NumberedFromOne history) :
    resumeHead history = history.length := by
  rw [resumeHead, List.getLast?_eq_getElem?]
  cases hlast : history[history.length - 1]? with
  | none =>
    have hle := List.getElem?_eq_none_iff.mp hlast
    have hzero : history.length = 0 := by omega
    rw [hzero]
    rfl
  | some event =>
    have hlt := (List.getElem?_eq_some_iff.mp hlast).1
    have := h.seq hlast
    simp only [Option.map_some, Option.getD_some]
    omega

/-- The events from a sequence number on are what is left of a numbered history. -/
theorem NumberedFromOne.drop_eq_dropWhile (h : NumberedFromOne history) {from_ : ℕ} :
    history.dropWhile (fun event => event.seq < from_) = history.drop (from_ - 1) := by
  have hnum : ∀ (events : List Event) (start : ℕ),
    events.map Event.seq = List.range' start events.length →
      events.dropWhile (fun event => event.seq < from_) = events.drop (from_ - start) := by
    intro events
    induction events with
    | nil => simp
    | cons event events ih =>
      intro start hevs
      rw [List.map_cons, List.length_cons, List.range'_succ, List.cons.injEq] at hevs
      by_cases hlt : event.seq < from_
      · have hsub : from_ - start = from_ - (start + 1) + 1 := by omega
        rw [List.dropWhile_cons_of_pos (by simpa using hlt), ih (start + 1) hevs.2, hsub, List.drop_succ_cons]
      · rw [List.dropWhile_cons_of_neg (by simpa using hlt), show from_ - start = 0 by omega, List.drop_zero]
  exact hnum history 1 h

/-- `splice` refuses a cursor exactly when it is zero or beyond the next event. -/
theorem splice_error_iff (hlt : resumeFromSeq < 2 ^ 64) :
    (∃ error, splice history resumeFromSeq = .error error) ↔
      resumeFromSeq = 0 ∨ resumeHead history + 1 < resumeFromSeq := by
  unfold splice saturatingSucc
  by_cases hzero : resumeFromSeq = 0
  · simp [hzero]
  · by_cases hahead : min (resumeHead history + 1) (2 ^ 64 - 1) < resumeFromSeq
    · simp only [hzero, hahead, if_true, if_false, false_or]
      exact ⟨fun _ => by omega, fun _ => ⟨_, rfl⟩⟩
    · simp only [hzero, hahead, if_false, false_or, reduceCtorEq, exists_false, false_iff]
      omega

/-- What an accepted cursor replays. -/
theorem splice_ok (hnum : NumberedFromOne history) {replay : List Event} {head : ℕ}
    (h : splice history resumeFromSeq = .ok (replay, head)) :
    0 < resumeFromSeq ∧ resumeFromSeq ≤ history.length + 1 ∧ head = history.length ∧
      replay = history.drop (resumeFromSeq - 1) := by
  unfold splice at h
  split at h
  · cases h
  · rename_i hzero
    simp only at h
    split at h
    · cases h
    · rename_i hahead
      obtain ⟨rfl, rfl⟩ := Prod.mk.inj (Except.ok.inj h)
      rw [hnum.head] at hahead ⊢
      unfold saturatingSucc at hahead
      exact ⟨by omega, by omega, rfl, hnum.drop_eq_dropWhile⟩

namespace ResumeSubscription

variable {sub : ResumeSubscription Frame}

/-- The next event of the workflow that is processed. -/
theorem process_next {reader : SubscriptionReader Frame} {frame : Frame} (channel : FrameChannel)
    (htgt : event.workflowId = sub.target) (hcontiguous : checkContiguity reader.lastDelivered event = .ok ())
    (henc : sub.encodeFrame event = .ok frame) :
    sub.process reader event channel = match channel with
      | .free => (if isTerminalWorkflowEvent event then .stop else .continue,
          { reader with frames := reader.frames ++ [frame], lastDelivered := some event.seq })
      | .full => (.stop, reader.sendTerminal laggedStream)
      | .closed => (.stop, reader) := by
  cases channel <;> simp [process, queue, admits, htgt, hcontiguous, henc]

end ResumeSubscription

end Aion
