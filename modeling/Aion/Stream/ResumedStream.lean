import Aion.Library.Actions
import Aion.Stream.Reader

/-!
# Streams that resume

An append commits a batch and then broadcasts its events one by one (`publish/store.rs`); the
appends of one workflow come one after the other. A subscription that resumes attaches to the
broadcast, then reads the history and splices the two (`subscribe.rs`), and its reader goes on from
there. The steps of all of these come in any order.

Whatever the order, the frames the reader queues are the events from its cursor on, each once, up to
the first that ends the workflow (`resumed_stream_exact`), and once the appends pause they are all
queued after a bounded number of steps (`stream_drains`). The invariant (`Spliced`) is that what the
receiver still holds of the workflow and what is still to be broadcast are together the end of the
history, and that everything before the later of that point and the head of the snapshot is
delivered.
-/

namespace Aion

open Actions

/-- What a receiver gets from the broadcast. -/
inductive BroadcastItem where
  | event (event : Event)
  /-- `EventStreamLagged`. -/
  | lagged (skipped : ℕ)
  deriving DecidableEq

/-- How far a subscription is. -/
inductive SubscriptionPhase where
  | detached
  /-- Attached to the broadcast, with the history not read yet. -/
  | attached
  | rejected (error : WireError)
  /-- Replaying these events; the broadcast is dropped up to the head. -/
  | replaying (events : List Event) (head : ℕ)
  /-- Reading the broadcast. -/
  | live (head : ℕ)
  | ended
  deriving DecidableEq

/-- Whether it has a receiver. -/
def SubscriptionPhase.listens : SubscriptionPhase → Bool
  | .attached | .replaying .. | .live _ => true
  | _ => false

/-- The store, the broadcast and the subscription. -/
structure StreamState (Frame : Type) where
  histories : WorkflowId → List Event
  /-- What an append in progress has committed and not broadcast yet. -/
  unpublished : WorkflowId → List Event
  receiver : List BroadcastItem
  phase : SubscriptionPhase
  reader : SubscriptionReader Frame
  /-- Whether the socket is gone. -/
  closed : Bool

/-- The steps. -/
inductive StreamAction where
  /-- An append commits a batch. -/
  | commit (workflowId : WorkflowId) (events : List Event)
  /-- It broadcasts the next event. -/
  | publish (workflowId : WorkflowId)
  /-- `Engine::subscribe`. -/
  | attach
  /-- `read_history`, and the splice. -/
  | snapshot
  /-- The reader replays the next event, or is through with them. -/
  | replay
  /-- The reader takes the next item of the broadcast; the queue of frames may be full. -/
  | take (full : Bool)
  /-- The receiver falls behind and loses what it has not taken. -/
  | lag (skipped : ℕ)
  /-- The socket goes. -/
  | close
  deriving DecidableEq

variable {Frame : Type}

namespace StreamState

/-- Nothing has happened. -/
def start : StreamState Frame := ⟨fun _ => [], fun _ => [], [], .detached, .new, false⟩

/-- A batch goes on with the numbers of the history it is appended to. -/
def Continues (workflowId : WorkflowId) (history events : List Event) : Prop :=
  (∀ event ∈ events, event.workflowId = workflowId) ∧
    events.map Event.seq = List.range' (history.length + 1) events.length ∧
      history.length + events.length < 2 ^ 64

instance (workflowId : WorkflowId) (history events : List Event) :
    Decidable (Continues workflowId history events) := by
  unfold Continues; infer_instance

variable (sub : ResumeSubscription Frame) (s : StreamState Frame)

/-- The reader processes an event and goes on in a phase, unless it stops. -/
def process (event : Event) (full : Bool) (next : SubscriptionPhase) : StreamState Frame :=
  match sub.process s.reader event
      (if s.closed then .closed else if full then .full else .free) with
  | (.continue, reader) => { s with reader := reader, phase := next }
  | (.stop, reader) => { s with reader := reader, phase := .ended, receiver := [] }

/-- One step. -/
def step : StreamAction → Option (StreamState Frame)
  | .commit workflowId events =>
    if s.unpublished workflowId = [] ∧ Continues workflowId (s.histories workflowId) events then
      some { s with
        histories := Function.update s.histories workflowId (s.histories workflowId ++ events)
        unpublished := Function.update s.unpublished workflowId events }
    else none
  | .publish workflowId =>
    match s.unpublished workflowId with
    | [] => none
    | event :: rest =>
      some { s with
        unpublished := Function.update s.unpublished workflowId rest
        receiver := if s.phase.listens then s.receiver ++ [.event event] else s.receiver }
  | .attach => if s.phase = .detached then some { s with phase := .attached } else none
  | .snapshot =>
    if s.phase = .attached then
      match splice (s.histories sub.target) sub.resumeFromSeq with
      | .error error => some { s with phase := .rejected error, receiver := [] }
      | .ok (replay, head) => some { s with phase := .replaying replay head }
    else none
  | .replay =>
    match s.phase with
    | .replaying [] head => some { s with phase := .live head }
    -- A replay waits for room in the queue.
    | .replaying (event :: events) head => some (s.process sub event false (.replaying events head))
    | _ => none
  | .take full =>
    match s.phase, s.receiver with
    | .live head, .event event :: items =>
      let taken := { s with receiver := items }
      -- `EventFilter::matches`, and the filter of the splice.
      if event.workflowId = sub.target ∧ head < event.seq then
        some (taken.process sub event full (.live head))
      else some taken
    | .live _, .lagged _ :: _ =>
      some { s with reader := s.reader.sendTerminal laggedStream, phase := .ended, receiver := [] }
    | _, _ => none
  | .lag skipped =>
    if s.phase.listens then some { s with receiver := .lagged skipped :: s.receiver.drop skipped } else none
  | .close => some { s with closed := true }

/-- The broadcast does not lag and the queue of frames does not fill. -/
def KeepsUp (_ : StreamState Frame) : StreamAction → Prop
  | .lag _ => False
  | .take full => full = false
  | _ => True

instance (s : StreamState Frame) (action : StreamAction) : Decidable (s.KeepsUp action) := by
  cases action <;> simp only [KeepsUp] <;> infer_instance

/-- The events a subscription is to deliver of a history. -/
def expected (history : List Event) : List Event :=
  upToTerminal (history.filter fun event => sub.resumeFromSeq ≤ event.seq)

/-- Nothing is left to deliver: all is broadcast and taken, or the reader has ended. -/
def Drained : Prop :=
  (s.unpublished sub.target = [] ∧ s.receiver = [] ∧ ∃ head, s.phase = .live head) ∨
    s.phase = .ended

/-- A stream that resumes without a gap and without a repetition. -/
structure Exact : Prop where
  /-- The splice refuses a cursor that is zero or beyond the next event. -/
  rejects : ∀ s', s.phase = .attached → s.step sub .snapshot = some s' →
    ((∃ error, s'.phase = .rejected error) ↔
      sub.resumeFromSeq = 0 ∨ resumeHead (s.histories sub.target) + 1 < sub.resumeFromSeq)
  /-- What is queued are the first of the events from the cursor on. -/
  queued : s.reader.frames.map Except.ok <+:
    (expected sub (s.histories sub.target)).map sub.encodeFrame
  /-- Once nothing is left they are all queued, while there is a socket. -/
  complete : s.closed = false → s.Drained sub →
    s.reader.frames.map Except.ok = (expected sub (s.histories sub.target)).map sub.encodeFrame
  /-- Neither the contiguity guard nor anything else ends the stream with an error. -/
  quiet : s.reader.error = none

/-! ### The invariant -/

/-- An event of the workflow. -/
def ofTarget : BroadcastItem → Option Event
  | .event event => if event.workflowId = sub.target then some event else none
  | .lagged _ => none

/-- What the receiver holds of the workflow. -/
def held : List Event := s.receiver.filterMap (ofTarget sub)

/-- How much of the history has gone through the receiver. -/
def passed : ℕ := (s.histories sub.target).length - (s.held sub ++ s.unpublished sub.target).length

/-- The events from the cursor up to a place are delivered, and none of them ends the workflow. -/
structure Delivered (place : ℕ) : Prop where
  from_le : sub.resumeFromSeq ≤ place + 1
  le : place ≤ (s.histories sub.target).length
  frames : s.reader.frames.map Except.ok =
    (((s.histories sub.target).take place).drop (sub.resumeFromSeq - 1)).map sub.encodeFrame
  running : ∀ event ∈ ((s.histories sub.target).take place).drop (sub.resumeFromSeq - 1),
    isTerminalWorkflowEvent event = false
  last : s.reader.lastDelivered = if place + 1 = sub.resumeFromSeq then none else some place

/-- The event at a place ends the workflow, and it is the last that is delivered. -/
structure DeliveredLast (place : ℕ) (event : Event) : Prop where
  from_le : sub.resumeFromSeq ≤ place + 1
  event_at : (s.histories sub.target)[place]? = some event
  terminal : isTerminalWorkflowEvent event = true
  frames : s.reader.frames.map Except.ok =
    ((((s.histories sub.target).take place).drop (sub.resumeFromSeq - 1)) ++ [event]).map
      sub.encodeFrame
  running : ∀ event ∈ ((s.histories sub.target).take place).drop (sub.resumeFromSeq - 1),
    isTerminalWorkflowEvent event = false

/-- What holds of the reader in each phase. -/
def ReaderHolds : Prop :=
  match s.phase with
  | .detached | .attached | .rejected _ => s.reader = .new
  | .replaying events head =>
    0 < sub.resumeFromSeq ∧ head ≤ (s.histories sub.target).length ∧ s.passed sub ≤ head ∧
      ∃ place, place ≤ head ∧ events = ((s.histories sub.target).take head).drop place ∧ s.Delivered sub place
  | .live head => 0 < sub.resumeFromSeq ∧ head ≤ (s.histories sub.target).length ∧ s.Delivered sub (max (s.passed sub) head)
  | .ended => 0 < sub.resumeFromSeq ∧
      ((∃ place event, s.DeliveredLast sub place event) ∨ s.closed = true ∧ ∃ place, s.Delivered sub place)

/-- What holds whatever the reader does. -/
structure Coherent : Prop where
  numbered : NumberedFromOne (s.histories sub.target)
  short : (s.histories sub.target).length < 2 ^ 64
  owned : ∀ event ∈ s.histories sub.target, event.workflowId = sub.target
  batches : ∀ workflowId, ∀ event ∈ s.unpublished workflowId, event.workflowId = workflowId
  /-- What the receiver holds and what is to be broadcast are the end of the history. -/
  rest : s.held sub ++ s.unpublished sub.target <:+ s.histories sub.target
  unlagged : ∀ item ∈ s.receiver, ∃ event, item = .event event
  silent : s.phase.listens = false → s.receiver = []
  quiet : s.reader.error = none

/-- The invariant. -/
structure Spliced : Prop extends s.Coherent sub where
  reader : s.ReaderHolds sub

variable {sub} {s}

theorem spliced_start : (start : StreamState Frame).Spliced sub :=
  ⟨⟨rfl, by simp [start], by simp [start], by simp [start], List.suffix_rfl, by simp [start],
      fun _ => rfl, rfl⟩, rfl⟩

variable {s' : StreamState Frame} {event : Event} {history events rest : List Event}
  {place head : ℕ} {workflowId : WorkflowId} {action : StreamAction}

theorem splice_length_le {replay : List Event} {from_ : ℕ}
    (hsplice : splice history from_ = .ok (replay, head)) : replay.length ≤ history.length := by
  unfold splice at hsplice
  split at hsplice
  · cases hsplice
  · dsimp only at hsplice
    split at hsplice <;> cases hsplice
    exact (List.dropWhile_sublist _).length_le

/-! ### What is delivered -/

theorem filter_from (h : NumberedFromOne history) :
    (history.filter fun event => sub.resumeFromSeq ≤ event.seq) =
      history.drop (sub.resumeFromSeq - 1) := by
  have hnum : ∀ (events : List Event) (first : ℕ),
    events.map Event.seq = List.range' first events.length →
      (events.filter fun event => sub.resumeFromSeq ≤ event.seq) = events.drop (sub.resumeFromSeq - first) := by
    intro events
    induction events with
    | nil => simp
    | cons event events ih =>
      intro first hevs
      rw [List.map_cons, List.length_cons, List.range'_succ, List.cons.injEq] at hevs
      by_cases hle : sub.resumeFromSeq ≤ event.seq
      · rw [List.filter_cons_of_pos (by simpa using hle), ih (first + 1) hevs.2,
          show sub.resumeFromSeq - first = 0 by omega, show sub.resumeFromSeq - (first + 1) = 0 by omega, List.drop_zero,
          List.drop_zero]
      · have hsub : sub.resumeFromSeq - first = sub.resumeFromSeq - (first + 1) + 1 := by omega
        rw [List.filter_cons_of_neg (by simpa using hle), ih (first + 1) hevs.2, hsub, List.drop_succ_cons]
  exact hnum history 1 h

/-- From a place on, as long as nothing before it ends the workflow. -/
theorem expected_split (h : NumberedFromOne history) (hfrom : sub.resumeFromSeq ≤ place + 1)
    (hle : place ≤ history.length)
    (hrunning : ∀ event ∈ (history.take place).drop (sub.resumeFromSeq - 1),
        isTerminalWorkflowEvent event = false) :
    expected sub history =
      (history.take place).drop (sub.resumeFromSeq - 1) ++ upToTerminal (history.drop place) := by
  rw [expected, filter_from h, ← upToTerminal_append hrunning]
  congr 1
  have hlen : sub.resumeFromSeq - 1 ≤ (history.take place).length := by
    rw [List.length_take]
    omega
  rw [← List.drop_append_of_le_length hlen, List.take_append_drop]

theorem Delivered.expected (hnum : NumberedFromOne (s.histories sub.target))
    (h : s.Delivered sub place) :
    expected sub (s.histories sub.target) =
      ((s.histories sub.target).take place).drop (sub.resumeFromSeq - 1) ++ upToTerminal
        ((s.histories sub.target).drop place) :=
  expected_split hnum h.from_le h.le h.running

theorem DeliveredLast.expected (hnum : NumberedFromOne (s.histories sub.target))
    (h : s.DeliveredLast sub place event) :
    StreamState.expected sub (s.histories sub.target) =
      ((s.histories sub.target).take place).drop (sub.resumeFromSeq - 1) ++ [event] := by
  obtain ⟨hlt, hev⟩ := List.getElem?_eq_some_iff.mp h.event_at
  rw [expected_split hnum h.from_le hlt.le h.running, List.drop_eq_getElem_cons hlt, hev,
    upToTerminal, h.terminal]
  rfl

/-- What is delivered stays so when the history grows. -/
theorem Delivered.keep (h : s.Delivered sub place) (hrdr : s'.reader = s.reader)
    (hhist : s.histories sub.target <+: s'.histories sub.target) : s'.Delivered sub place := by
  obtain ⟨batch, hbatch⟩ := hhist
  have htake : (s'.histories sub.target).take place = (s.histories sub.target).take place := by
    rw [← hbatch, List.take_append_of_le_length h.le]
  refine ⟨h.from_le, h.le.trans ?_, ?_, ?_, ?_⟩
  · rw [← hbatch, List.length_append]
    omega
  · rw [hrdr, htake]
    exact h.frames
  · rw [htake]
    exact h.running
  · rw [hrdr]
    exact h.last

theorem DeliveredLast.keep (h : s.DeliveredLast sub place event)
    (hrdr : s'.reader = s.reader) (hhist : s.histories sub.target <+: s'.histories sub.target) :
    s'.DeliveredLast sub place event := by
  obtain ⟨batch, hbatch⟩ := hhist
  have hlt := (List.getElem?_eq_some_iff.mp h.event_at).1
  have htake : (s'.histories sub.target).take place = (s.histories sub.target).take place := by
    rw [← hbatch, List.take_append_of_le_length hlt.le]
  refine ⟨h.from_le, ?_, h.terminal, ?_, ?_⟩
  · rw [← hbatch, List.getElem?_append_left hlt]
    exact h.event_at
  · rw [hrdr, htake]
    exact h.frames
  · rw [htake]
    exact h.running

/-- A step that leaves the subscription where it is. -/
theorem ReaderHolds.keep (h : s.ReaderHolds sub) (hph : s'.phase = s.phase)
    (hrdr : s'.reader = s.reader) (hhist : s.histories sub.target <+: s'.histories sub.target)
    (hpass : s.phase.listens = true → s'.passed sub = s.passed sub)
    (hcl : s.closed = true → s'.closed = true) : s'.ReaderHolds sub := by
  unfold ReaderHolds at h ⊢
  rw [hph]
  cases hcase : s.phase with
  | replaying events head =>
    rw [hcase] at h hpass
    obtain ⟨hpos, hhead, hle, place, hplace, hevs, hdeliv⟩ := h
    refine ⟨hpos, hhead.trans hhist.length_le, (hpass rfl).trans_le hle, place, hplace, ?_, hdeliv.keep hrdr hhist⟩
    obtain ⟨batch, hbatch⟩ := hhist
    rw [hevs, ← hbatch, List.take_append_of_le_length hhead]
  | live head =>
    rw [hcase] at h hpass
    obtain ⟨hpos, hhead, hdeliv⟩ := h
    refine ⟨hpos, hhead.trans hhist.length_le, ?_⟩
    rw [hpass rfl]
    exact hdeliv.keep hrdr hhist
  | ended =>
    rw [hcase] at h
    obtain ⟨hpos, ⟨place, event, hlast⟩ | ⟨hgone, place, hdeliv⟩⟩ := h
    · exact ⟨hpos, .inl ⟨place, event, hlast.keep hrdr hhist⟩⟩
    · exact ⟨hpos, .inr ⟨hcl hgone, place, hdeliv.keep hrdr hhist⟩⟩
  | _ =>
    rw [hcase] at h
    exact hrdr.trans h

/-! ### What the reader does -/

theorem take_succ_drop (hev : history[place]? = some event)
    (hfrom : sub.resumeFromSeq ≤ place + 1) :
    (history.take (place + 1)).drop (sub.resumeFromSeq - 1) =
      (history.take place).drop (sub.resumeFromSeq - 1) ++ [event] := by
  have hlt := (List.getElem?_eq_some_iff.mp hev).1
  have hlen : sub.resumeFromSeq - 1 ≤ (history.take place).length := by
    rw [List.length_take]
    omega
  rw [List.take_add_one, hev, Option.toList_some, List.drop_append_of_le_length hlen]

/-- The guard passes the event that comes next. -/
theorem Delivered.contiguous (h : s.Coherent sub) (hdeliv : s.Delivered sub place)
    (hev : (s.histories sub.target)[place]? = some event) :
    checkContiguity s.reader.lastDelivered event = .ok () := by
  rw [hdeliv.last]
  have hseq := h.numbered.seq hev
  have hlt := (List.getElem?_eq_some_iff.mp hev).1
  have hshort := h.short
  split
  · rfl
  · refine if_pos ?_
    unfold saturatingSucc
    omega

/-- The reader's next event: the socket is gone, the event ends the stream, or the reader goes on
after it. -/
theorem process_delivered (h : s.Coherent sub) (hencode : ∀ event, ∃ frame, sub.encodeFrame event = .ok frame)
    (hdeliv : s.Delivered sub place) (hev : (s.histories sub.target)[place]? = some event)
    (next : SubscriptionPhase) :
    (s.closed = true ∧ s.process sub event false next = { s with phase := .ended, receiver := [] }) ∨
      ∃ reader, reader.error = none ∧
        ((s.process sub event false next = { s with reader := reader, phase := .ended, receiver := [] } ∧
            DeliveredLast sub { s with reader := reader, phase := .ended, receiver := [] } place event) ∨
          (s.process sub event false next = { s with reader := reader, phase := next } ∧
            Delivered sub { s with reader := reader, phase := next } (place + 1))) := by
  obtain ⟨frame, hframe⟩ := hencode event
  have htgt := h.owned event (List.mem_of_getElem? hev)
  have hcontiguous := hdeliv.contiguous h hev
  have hlt := (List.getElem?_eq_some_iff.mp hev).1
  have hprocess := fun channel => ResumeSubscription.process_next channel htgt hcontiguous hframe
  have hframes : (s.reader.frames ++ [frame]).map Except.ok =
      (((s.histories sub.target).take place).drop (sub.resumeFromSeq - 1) ++ [event]).map sub.encodeFrame := by
    rw [List.map_append, List.map_append, hdeliv.frames, List.map_singleton,
      List.map_singleton, hframe]
  unfold process
  cases hcl : s.closed with
  | true =>
    rw [if_pos rfl, hprocess]
    exact .inl ⟨rfl, rfl⟩
  | false =>
    rw [if_neg Bool.false_ne_true, if_neg Bool.false_ne_true, hprocess]
    refine .inr ⟨{ s.reader with frames := s.reader.frames ++ [frame], lastDelivered := some event.seq }, h.quiet, ?_⟩
    cases hterm : isTerminalWorkflowEvent event with
    | true => exact .inl ⟨rfl, hdeliv.from_le, hev, hterm, hframes, hdeliv.running⟩
    | false =>
      refine .inr ⟨rfl, Nat.le_succ_of_le hdeliv.from_le, hlt, ?_, ?_, ?_⟩
      · rw [take_succ_drop hev hdeliv.from_le]
        exact hframes
      · rw [take_succ_drop hev hdeliv.from_le]
        intro other hother
        rcases List.mem_append.mp hother with hother | hother
        · exact hdeliv.running other hother
        · exact List.mem_singleton.mp hother ▸ hterm
      · have := hdeliv.from_le
        rw [if_neg (by omega)]
        exact congrArg some (h.numbered.seq hev)

/-- The reader has ended. -/
theorem Coherent.end (h : s.Coherent sub) {reader : SubscriptionReader Frame}
    (hquiet : reader.error = none)
    (hends : ReaderHolds sub { s with reader := reader, phase := .ended, receiver := [] }) :
    Spliced sub { s with reader := reader, phase := .ended, receiver := [] } :=
  ⟨⟨h.numbered, h.short, h.owned, h.batches, (List.suffix_append _ _).trans h.rest, by simp,
      fun _ => rfl, hquiet⟩, hends⟩

/-- The reader processes the event of a place and goes on, or ends. -/
theorem Coherent.process (h : s.Coherent sub) (hencode : ∀ event, ∃ frame, sub.encodeFrame event = .ok frame)
    (hpos : 0 < sub.resumeFromSeq) (hdeliv : s.Delivered sub place)
    (hev : (s.histories sub.target)[place]? = some event) {next : SubscriptionPhase} (hlistens : next.listens = true)
    (hnext : ∀ reader, Delivered sub { s with reader := reader, phase := next } (place + 1) →
      ReaderHolds sub { s with reader := reader, phase := next }) : (s.process sub event false next).Spliced sub := by
  rcases process_delivered h hencode hdeliv hev next with ⟨hcl, heq⟩ | ⟨reader, hquiet,
    ⟨heq, hlast⟩ | ⟨heq, hmore⟩⟩
  · rw [heq]
    exact h.end h.quiet ⟨hpos, .inr ⟨hcl, place, hdeliv.keep rfl List.prefix_rfl⟩⟩
  · rw [heq]
    exact h.end hquiet ⟨hpos, .inl ⟨place, event, hlast⟩⟩
  · rw [heq]
    have hsilent : ∀ hsilent : next.listens = false, s.receiver = [] := fun hsilent => by
      rw [hlistens] at hsilent
      cases hsilent
    exact ⟨⟨h.numbered, h.short, h.owned, h.batches, h.rest, h.unlagged, hsilent, hquiet⟩, hnext reader hmore⟩

/-! ### Steps -/

theorem readerHolds_live_iff (hph : s.phase = .live head) :
    s.ReaderHolds sub ↔
    0 < sub.resumeFromSeq ∧ head ≤ (s.histories sub.target).length ∧
      s.Delivered sub (max (s.passed sub) head) := by
  unfold ReaderHolds
  rw [hph]

theorem readerHolds_replaying_iff (hph : s.phase = .replaying events head) :
    s.ReaderHolds sub ↔ 0 < sub.resumeFromSeq ∧ head ≤ (s.histories sub.target).length ∧
      s.passed sub ≤ head ∧
      ∃ place, place ≤ head ∧ events = ((s.histories sub.target).take head).drop place ∧
        s.Delivered sub place := by
  unfold ReaderHolds
  rw [hph]

/-- The first event of the end of a history. -/
theorem getElem?_of_suffix (h : event :: rest <:+ history) :
    history[history.length - (event :: rest).length]? = some event := by
  obtain ⟨before, rfl⟩ := h
  rw [List.length_append, Nat.add_sub_cancel_right, List.getElem?_append_right le_rfl, Nat.sub_self]
  rfl

/-- The reader takes an event from the broadcast. -/
theorem Spliced.take (h : s.Spliced sub)
    (hencode : ∀ event, ∃ frame, sub.encodeFrame event = .ok frame) (hph : s.phase = .live head)
    {items : List BroadcastItem} (hrecv : s.receiver = .event event :: items) :
    Spliced sub (if event.workflowId = sub.target ∧ head < event.seq then
      process sub { s with receiver := items } event false (.live head) else
        { s with receiver := items }) := by
  obtain ⟨hpos, hhead, hdeliv⟩ := (readerHolds_live_iff hph).mp h.reader
  have hunlagged : ∀ item ∈ items, ∃ event, item = .event event := fun item hitem =>
    h.unlagged item (hrecv ▸ List.mem_cons_of_mem _ hitem)
  have hsilent : s.phase.listens = false → items = [] := fun hsilent => by rw [hph] at hsilent; cases hsilent
  by_cases htgt : event.workflowId = sub.target
  · have hheld : s.held sub = event :: held sub { s with receiver := items } := by
      simp only [held, hrecv]
      exact List.filterMap_cons_some (show ofTarget sub (.event event) = some event from if_pos htgt)
    have hrest : event :: (held sub { s with receiver := items } ++ s.unpublished sub.target) <:+ s.histories sub.target := by
      rw [← List.cons_append, ← hheld]
      exact h.rest
    have hev : (s.histories sub.target)[s.passed sub]? = some event := by
      have := getElem?_of_suffix hrest
      rwa [← List.cons_append, ← hheld] at this
    have hpass : passed sub { s with receiver := items } = s.passed sub + 1 := by
      have hlength := hrest.length_le
      simp only [passed, hheld, List.cons_append, List.length_cons] at hlength ⊢
      omega
    have hseq := h.numbered.seq hev
    have hcoherent : Coherent sub { s with receiver := items } :=
      ⟨h.numbered, h.short, h.owned, h.batches, (List.suffix_cons _ _).trans hrest, hunlagged, hsilent, h.quiet⟩
    by_cases hahead : head < event.seq
    · rw [if_pos ⟨htgt, hahead⟩]
      rw [max_eq_left (by omega)] at hdeliv
      refine hcoherent.process hencode hpos (hdeliv.keep rfl List.prefix_rfl) hev rfl fun reader hmore => ⟨hpos, hhead, ?_⟩
      have hmax : max (passed sub { s with receiver := items, reader := reader, phase := .live head }) head = s.passed sub + 1 :=
        (congrArg (max · head) hpass).trans (max_eq_left (by omega))
      rw [hmax]
      exact hmore
    · rw [if_neg fun hboth => hahead hboth.2]
      refine ⟨hcoherent, (readerHolds_live_iff (s := { s with receiver := items }) hph).mpr ⟨hpos, hhead, ?_⟩⟩
      rw [hpass, max_eq_right (by omega)]
      rw [max_eq_right (by omega)] at hdeliv
      exact hdeliv.keep rfl List.prefix_rfl
  · rw [if_neg fun hboth => htgt hboth.1]
    have hheld : held sub { s with receiver := items } = s.held sub := by
      simp only [held, hrecv]
      exact (List.filterMap_cons_none (show ofTarget sub (.event event) = none from if_neg htgt)).symm
    refine ⟨⟨h.numbered, h.short, h.owned, h.batches, ?_, hunlagged, hsilent, h.quiet⟩,
      h.reader.keep rfl rfl List.prefix_rfl (fun _ => ?_) fun hcl => hcl⟩
    · rw [hheld]
      exact h.rest
    · simp only [passed, hheld]

/-- The reader replays an event, or is through. -/
theorem Spliced.replay (h : s.Spliced sub) (hencode : ∀ event, ∃ frame, sub.encodeFrame event = .ok frame)
    (hph : s.phase = .replaying events head) :
    Spliced sub (match events with
      | [] => { s with phase := .live head }
      | event :: rest => s.process sub event false (.replaying rest head)) := by
  obtain ⟨hpos, hhead, hpass, place, hplace, hevs, hdeliv⟩ :=
    (readerHolds_replaying_iff hph).mp h.reader
  cases events with
  | nil =>
    have hend : place = head := by
      have hlength := List.drop_eq_nil_iff.mp hevs.symm
      rw [List.length_take, min_eq_left hhead] at hlength
      omega
    subst hend
    refine ⟨⟨h.numbered, h.short, h.owned, h.batches, h.rest, h.unlagged, fun hsilent => (by cases hsilent), h.quiet⟩,
      hpos, hhead, ?_⟩
    have hmax : max (passed sub { s with phase := .live place }) place = place := max_eq_right hpass
    rw [hmax]
    exact hdeliv.keep rfl List.prefix_rfl
  | cons event rest =>
    have hlt : place < head := by
      have hlength := congrArg List.length hevs
      rw [List.length_drop, List.length_take, min_eq_left hhead, List.length_cons] at hlength
      omega
    have hplace' : place < ((s.histories sub.target).take head).length := by
      rw [List.length_take, min_eq_left hhead]
      exact hlt
    rw [List.drop_eq_getElem_cons hplace', List.cons.injEq] at hevs
    obtain ⟨rfl, hrest⟩ := hevs
    have hev : (s.histories sub.target)[place]? = some ((s.histories sub.target).take head)[place] := by
      rw [List.getElem_take]
      exact List.getElem?_eq_getElem _
    exact h.process hencode hpos hdeliv hev rfl fun reader hmore =>
      ⟨hpos, hhead, hpass, place + 1, hlt, hrest, hmore⟩

/-- An append commits a batch. -/
theorem Spliced.commit (h : s.Spliced sub) (hidle : s.unpublished workflowId = [])
    (hcont : Continues workflowId (s.histories workflowId) events) :
    Spliced sub { s with
      histories := Function.update s.histories workflowId (s.histories workflowId ++ events)
      unpublished := Function.update s.unpublished workflowId events } := by
  obtain ⟨howned, hnumbers, hshort⟩ := hcont
  have hbatches : ∀ other, ∀ event ∈ Function.update s.unpublished workflowId events other, event.workflowId = other := by
    intro other event hev
    by_cases hother : other = workflowId
    · subst hother
      rw [Function.update_self] at hev
      exact howned event hev
    · rw [Function.update_of_ne hother] at hev
      exact h.batches other event hev
  by_cases htgt : sub.target = workflowId
  · subst htgt
    have hrest : s.held sub <:+ s.histories sub.target := by
      have hrest := h.rest
      rwa [hidle, List.append_nil] at hrest
    have hpass : passed sub { s with
        histories := Function.update s.histories sub.target (s.histories sub.target ++ events)
        unpublished := Function.update s.unpublished sub.target events } = s.passed sub := by
      simp only [passed, Function.update_self, List.length_append, hidle, List.length_nil]
      exact Nat.add_sub_add_right ..
    refine ⟨⟨?_, ?_, ?_, hbatches, ?_, h.unlagged, h.silent, h.quiet⟩,
      h.reader.keep rfl rfl ?_ (fun _ => hpass) fun hcl => hcl⟩
    · simp only [Function.update_self]
      rw [NumberedFromOne, List.map_append, h.numbered, hnumbers, List.length_append,
        Nat.add_comm _ 1, List.range'_append_1]
    · simp only [Function.update_self, List.length_append]
      exact hshort
    · simp only [Function.update_self]
      intro event hev
      rcases List.mem_append.mp hev with hev | hev
      · exact h.owned event hev
      · exact howned event hev
    · simp only [Function.update_self]
      exact List.suffix_append_self_iff.mpr hrest
    · simp only [Function.update_self]
      exact List.prefix_append ..
  · have hhist : Function.update s.histories workflowId
      (s.histories workflowId ++ events) sub.target = s.histories sub.target :=
      Function.update_of_ne htgt ..
    have hunpub : Function.update s.unpublished workflowId events sub.target =
      s.unpublished sub.target :=
      Function.update_of_ne htgt ..
    refine ⟨⟨?_, ?_, ?_, hbatches, ?_, h.unlagged, h.silent, h.quiet⟩,
      h.reader.keep rfl rfl ?_ (fun _ => ?_) fun hcl => hcl⟩
    · simp only [hhist]
      exact h.numbered
    · simp only [hhist]
      exact h.short
    · simp only [hhist]
      exact h.owned
    · simp only [hhist, hunpub]
      exact h.rest
    · simp only [hhist]
      exact List.prefix_rfl
    · simp only [passed, hhist, hunpub]
      rfl

/-- An append broadcasts its next event. -/
theorem Spliced.publish (h : s.Spliced sub) (hunpub : s.unpublished workflowId = event :: rest) :
    Spliced sub { s with
      unpublished := Function.update s.unpublished workflowId rest
      receiver := if s.phase.listens then s.receiver ++ [.event event] else s.receiver } := by
  have howned : event.workflowId = workflowId :=
    h.batches workflowId event (hunpub ▸ List.mem_cons_self)
  have hbatches : ∀ other, ∀ event ∈ Function.update s.unpublished workflowId rest other, event.workflowId = other := by
    intro other event' hev
    by_cases hother : other = workflowId
    · subst hother
      rw [Function.update_self] at hev
      exact h.batches other event' (hunpub ▸ List.mem_cons_of_mem _ hev)
    · rw [Function.update_of_ne hother] at hev
      exact h.batches other event' hev
  have hheld : ∀ receiver, receiver = s.receiver ++ [BroadcastItem.event event] →
      held sub { s with receiver := receiver } = s.held sub ++ if workflowId = sub.target then [event] else [] := by
    rintro _ rfl
    simp only [held, List.filterMap_append]
    congr 1
    by_cases htgt : workflowId = sub.target <;> simp [ofTarget, howned, htgt]
  cases hlistens : s.phase.listens with
  | false =>
    rw [if_neg Bool.false_ne_true]
    refine ⟨⟨h.numbered, h.short, h.owned, hbatches, ?_, h.unlagged, h.silent, h.quiet⟩,
      h.reader.keep rfl rfl List.prefix_rfl (fun hlistens' => ?_) fun hcl => hcl⟩
    · by_cases htgt : sub.target = workflowId
      · subst htgt
        have hrest := h.rest
        simp only [held, h.silent hlistens] at hrest ⊢
        simp only [Function.update_self]
        rw [hunpub] at hrest
        exact (List.suffix_cons _ _).trans hrest
      · simp only [Function.update_of_ne htgt]
        exact h.rest
    · rw [hlistens] at hlistens'
      cases hlistens'
  | true =>
    rw [if_pos rfl]
    have hsame : held sub { s with receiver := s.receiver ++ [.event event] } ++
      Function.update s.unpublished workflowId rest sub.target =
        s.held sub ++ s.unpublished sub.target := by
      rw [hheld _ rfl]
      by_cases htgt : workflowId = sub.target
      · subst htgt
        simp [hunpub]
      · simp [htgt, Function.update_of_ne (Ne.symm htgt)]
    refine ⟨⟨h.numbered, h.short, h.owned, hbatches, hsame ▸ h.rest, fun item hitem => ?_, fun hsilent => ?_, h.quiet⟩,
      h.reader.keep rfl rfl List.prefix_rfl (fun _ => ?_) fun hcl => hcl⟩
    · rcases List.mem_append.mp hitem with hitem | hitem
      · exact h.unlagged item hitem
      · exact ⟨event, List.mem_singleton.mp hitem⟩
    · rw [hlistens] at hsilent
      cases hsilent
    · exact congrArg (fun events => (s.histories sub.target).length - List.length events) hsame

/-- The history is read, and spliced with the broadcast. -/
theorem Spliced.snapshot (h : s.Spliced sub) (hph : s.phase = .attached) :
    Spliced sub (match splice (s.histories sub.target) sub.resumeFromSeq with
      | .error error => { s with phase := .rejected error, receiver := [] }
      | .ok (replay, head) => { s with phase := .replaying replay head }) := by
  have hrdr : s.reader = .new := by
    have hrdr := h.reader
    unfold ReaderHolds at hrdr
    rwa [hph] at hrdr
  cases hsplice : splice (s.histories sub.target) sub.resumeFromSeq with
  | error error =>
    exact ⟨⟨h.numbered, h.short, h.owned, h.batches, (List.suffix_append _ _).trans h.rest, by simp, fun _ => rfl, h.quiet⟩,
      hrdr⟩
  | ok spliced =>
    obtain ⟨replay, head⟩ := spliced
    obtain ⟨hpos, hle, rfl, rfl⟩ := splice_ok h.numbered hsplice
    have hnone : ((s.histories sub.target).take (sub.resumeFromSeq - 1)).drop
      (sub.resumeFromSeq - 1) = [] :=
      List.drop_eq_nil_of_le (List.length_take_le ..)
    refine ⟨⟨h.numbered, h.short, h.owned, h.batches, h.rest, h.unlagged, fun hsilent => (by cases hsilent), h.quiet⟩,
      hpos, le_rfl, Nat.sub_le .., sub.resumeFromSeq - 1, by omega, ?_, ?_⟩
    · rw [List.take_length]
    · refine ⟨by omega, Nat.sub_le_iff_le_add.mpr hle, ?_, ?_, ?_⟩
      · simp only [hrdr]
        rw [hnone]
        rfl
      · rw [hnone]
        exact fun _ hev => nomatch hev
      · simp only [hrdr]
        rw [if_pos (by omega)]
        rfl

/-- **Every step** keeps the stream spliced. -/
theorem Spliced.step (h : s.Spliced sub)
    (hencode : ∀ event, ∃ frame, sub.encodeFrame event = .ok frame) (hkeeps : s.KeepsUp action)
    (hstep : s.step sub action = some s') : s'.Spliced sub := by
  cases action with
  | commit workflowId events =>
    simp only [StreamState.step] at hstep
    split at hstep
    · rename_i hguard
      cases hstep
      exact h.commit hguard.1 hguard.2
    · cases hstep
  | publish workflowId =>
    simp only [StreamState.step] at hstep
    split at hstep
    · cases hstep
    · rename_i event rest hunpub
      cases hstep
      exact h.publish hunpub
  | attach =>
    simp only [StreamState.step] at hstep
    split at hstep
    · rename_i hph
      cases hstep
      refine ⟨⟨h.numbered, h.short, h.owned, h.batches, h.rest, h.unlagged, fun hsilent => (by cases hsilent), h.quiet⟩, ?_⟩
      have hrdr := h.reader
      unfold ReaderHolds at hrdr
      rwa [hph] at hrdr
    · cases hstep
  | snapshot =>
    simp only [StreamState.step] at hstep
    split at hstep
    · rename_i hph
      have hspliced := h.snapshot hph
      split at hstep <;> rename_i hsplice <;> cases hstep <;> rwa [hsplice] at hspliced
    · cases hstep
  | replay =>
    simp only [StreamState.step] at hstep
    split at hstep
    · rename_i head hph
      cases hstep
      exact h.replay hencode hph
    · rename_i event events head hph
      cases hstep
      exact h.replay hencode hph
    · cases hstep
  | take full =>
    obtain rfl : full = false := hkeeps
    simp only [StreamState.step] at hstep
    split at hstep
    · rename_i head event items hph hrecv
      have hspliced := h.take hencode hph hrecv
      split at hstep <;> rename_i hboth <;> cases hstep
      · rwa [if_pos hboth] at hspliced
      · rwa [if_neg hboth] at hspliced
    · rename_i skipped items _ hrecv
      obtain ⟨event, heq⟩ := h.unlagged (.lagged skipped) (hrecv ▸ List.mem_cons_self)
      cases heq
    · cases hstep
  | lag skipped => exact hkeeps.elim
  | close =>
    cases hstep
    exact ⟨⟨h.numbered, h.short, h.owned, h.batches, h.rest, h.unlagged, h.silent, h.quiet⟩,
      h.reader.keep rfl rfl List.prefix_rfl (fun _ => rfl) fun _ => rfl⟩

/-! ### What the invariant gives -/

theorem Spliced.exact (h : s.Spliced sub) : s.Exact sub := by
  have hrdr := h.reader
  unfold ReaderHolds at hrdr
  have hdeliv : ∀ place, s.Delivered sub place →
      s.reader.frames.map Except.ok <+: (expected sub (s.histories sub.target)).map sub.encodeFrame := by
    intro place hdeliv
    rw [hdeliv.expected h.numbered, List.map_append, hdeliv.frames]
    exact List.prefix_append ..
  have hlast : ∀ place event, s.DeliveredLast sub place event →
      s.reader.frames.map Except.ok = (expected sub (s.histories sub.target)).map sub.encodeFrame := by
    intro place event hlast
    rw [hlast.expected h.numbered, hlast.frames]
  refine ⟨fun s' hph hstep => ?_, ?_, fun hopen hdrained => ?_, h.quiet⟩
  · simp only [StreamState.step, hph, if_true] at hstep
    rw [← splice_error_iff sub.resumeFromSeq_lt]
    split at hstep <;> rename_i hsplice <;> cases hstep <;> simp [hsplice]
  · cases hph : s.phase with
    | replaying events head =>
      rw [hph] at hrdr
      obtain ⟨-, -, -, place, -, -, hplace⟩ := hrdr
      exact hdeliv place hplace
    | live head =>
      rw [hph] at hrdr
      exact hdeliv _ hrdr.2.2
    | ended =>
      rw [hph] at hrdr
      obtain ⟨-, ⟨place, event, hplace⟩ | ⟨-, place, hplace⟩⟩ := hrdr
      · exact ⟨[], (List.append_nil _).trans (hlast place event hplace)⟩
      · exact hdeliv place hplace
    | _ =>
      rw [hph] at hrdr
      simp [show s.reader = .new from hrdr, SubscriptionReader.new]
  · rcases hdrained with ⟨hunpub, hrecv, head, hph⟩ | hph
    · rw [hph] at hrdr
      obtain ⟨-, hhead, hplace⟩ := hrdr
      have hpass : s.passed sub = (s.histories sub.target).length := by
        simp [passed, held, hunpub, hrecv]
      rw [hpass, max_eq_left hhead] at hplace
      rw [hplace.expected h.numbered, hplace.frames, List.drop_length]
      simp [upToTerminal]
    · rw [hph] at hrdr
      obtain ⟨-, ⟨place, event, hplace⟩ | ⟨hcl, -⟩⟩ := hrdr
      · exact hlast place event hplace
      · rw [hopen] at hcl
        cases hcl

/-! ### Draining -/

/-- The steps that bring committed events to the queue. -/
@[simp]
def progresses (sub : ResumeSubscription Frame) : StreamAction → Bool
  | .publish workflowId => workflowId = sub.target
  | .attach | .snapshot | .replay | .take _ => true
  | _ => false

/-- What a step adds at most to what is left to do. -/
@[simp]
def cost (sub : ResumeSubscription Frame) : StreamAction → ℕ
  | .commit workflowId events => if workflowId = sub.target then 3 * events.length else 0
  | .publish workflowId => if workflowId = sub.target then 0 else 1
  | .lag _ => 1
  | _ => 0

/-- The steps that the reader has before it, besides those for what it receives. -/
@[simp]
def rank (history : List Event) : SubscriptionPhase → ℕ
  | .detached => history.length + 3
  | .attached => history.length + 2
  | .replaying events _ => events.length + 1
  | _ => 0

/-- What is left to do. -/
def left (sub : ResumeSubscription Frame) (s : StreamState Frame) : ℕ :=
  2 * (s.unpublished sub.target).length + s.receiver.length + rank (s.histories sub.target) s.phase

theorem rank_append (history events : List Event) (phase : SubscriptionPhase) :
    rank (history ++ events) phase ≤ rank history phase + events.length := by
  cases phase <;> simp only [rank, List.length_append] <;> omega

theorem left_process (event : Event) (full : Bool) (next : SubscriptionPhase) :
    left sub (s.process sub event full next) ≤
      2 * (s.unpublished sub.target).length + s.receiver.length +
      rank (s.histories sub.target) next := by
  unfold process
  split
  · exact le_rfl
  · simp only [left, rank, List.length_nil]
    omega

/-- **Every step** that progresses uses up what is left, and no step adds more than it costs. -/
theorem left_step (hstep : s.step sub action = some s') :
    left sub s' + (if progresses sub action then 1 else 0) ≤ left sub s + cost sub action := by
  cases action with
  | commit workflowId events =>
    simp only [step] at hstep
    split at hstep
    · rename_i hguard
      cases hstep
      by_cases htgt : workflowId = sub.target
      · subst htgt
        have hrank := rank_append (s.histories sub.target) events s.phase
        simp [left, hguard.1, -rank]
        omega
      · simp [left, htgt, Function.update_of_ne (Ne.symm htgt)]
    · cases hstep
  | publish workflowId =>
    simp only [step] at hstep
    split at hstep
    · cases hstep
    · rename_i event rest hunpub
      cases hstep
      have hrecv : (if s.phase.listens then s.receiver ++ [.event event] else s.receiver).length ≤ s.receiver.length + 1 := by
        split_ifs <;> simp
      by_cases htgt : workflowId = sub.target
      · subst htgt
        simp [left, hunpub]
        omega
      · simp [left, htgt, Function.update_of_ne (Ne.symm htgt)]
        omega
  | attach | lag =>
    simp only [step] at hstep
    split at hstep <;> cases hstep
    simp only [left, progresses, cost, rank, *, reduceIte, Bool.false_eq_true, List.length_cons,
      List.length_drop]
    omega
  | snapshot =>
    simp only [step] at hstep
    split at hstep
    · rename_i hph
      split at hstep <;> rename_i hsplice <;> cases hstep
      · simp [left, hph]
        omega
      · have hreplay := splice_length_le hsplice
        simp [left, hph]
        omega
    · cases hstep
  | replay =>
    simp only [step] at hstep
    split at hstep
    · rename_i hph
      cases hstep
      simp [left, hph]
    · rename_i event events head hph
      cases hstep
      have hprocess : left sub (s.process sub event false (.replaying events head)) ≤ _ := left_process ..
      simp [left, hph] at hprocess ⊢
      omega
    · cases hstep
  | take full =>
    simp only [step] at hstep
    split at hstep
    · rename_i head event items hph hrecv
      split at hstep <;> cases hstep
      · have hprocess : left sub (process sub { s with receiver := items } event full (.live head)) ≤ _ := left_process ..
        simp [left, hph, hrecv] at hprocess ⊢
        omega
      · simp only [left, progresses, cost, rank, hph, hrecv, reduceIte, List.length_cons]
        omega
    · rename_i hph hrecv
      cases hstep
      simp [left, hph, hrecv]
    · cases hstep
  | close =>
    cases hstep
    exact le_rfl

/-- A stream that can not progress is refused, or has nothing left. -/
theorem drained_of_stuck
    (hstuck : ∀ action, progresses sub action = true → s.step sub action = none) :
    (∃ error, s.phase = .rejected error) ∨ s.Drained sub := by
  cases hph : s.phase with
  | detached => simpa [step, hph] using hstuck .attach rfl
  | attached =>
    have hsnap := hstuck .snapshot rfl
    simp only [step, hph, if_true] at hsnap
    split at hsnap <;> cases hsnap
  | rejected error => exact .inl ⟨error, rfl⟩
  | replaying events head =>
    have hreplay := hstuck .replay rfl
    cases events <;> simp [step, hph] at hreplay
  | live head =>
    have hpub := hstuck (.publish sub.target) (by simp [progresses])
    have htake := hstuck (.take false) rfl
    refine .inr (.inl ⟨?_, ?_, head, hph⟩)
    · cases hunpub : s.unpublished sub.target with
      | nil => rfl
      | cons event rest => simp [step, hunpub] at hpub
    · cases hrecv : s.receiver with
      | nil => rfl
      | cons item items =>
        cases item <;> simp [step, hph, hrecv, ite_eq_iff] at htake
  | ended => exact .inr (.inr hph)

end StreamState

open StreamState

/-- **Resumed streams are exact**: whatever the order of appends, broadcasts, the attachment, the
snapshot and the reader, the frames that are queued are the events from the cursor on, each once and
in order, up to the first that ends the workflow. -/
theorem resumed_stream_exact {sub : ResumeSubscription Frame}
    (hencode : ∀ event, ∃ frame, sub.encodeFrame event = .ok frame) {s : StreamState Frame}
    (h : Reachable (fun s action => s.step sub action) KeepsUp start s) : s.Exact sub := by
  have hspliced : s.Spliced sub :=
    h.invariant (fun hspliced hkeeps hstep => hspliced.step hencode hkeeps hstep) spliced_start
  exact hspliced.exact

/-- A subscription from the second event on. -/
def secondOn : ResumeSubscription Event where
  target := ⟨0⟩
  resumeFromSeq := 2
  resumeFromSeq_lt := by decide
  attributed _ := false
  encodeFrame := .ok

/-- A batch straddles the snapshot, and the workflow ends in the next one. -/
def batchStraddlesSnapshot : List StreamAction :=
  let events :=
    numbered [.signalReceived "a" .empty, .signalReceived "b" .empty, .signalReceived "c" .empty,
    .workflowCompleted .empty]
  [.commit ⟨0⟩ (events.take 3), .publish ⟨0⟩, .attach, .publish ⟨0⟩, .snapshot,
      .publish ⟨0⟩, .replay,
    .commit ⟨0⟩ (events.drop 3), .replay, .replay, .take false, .publish ⟨0⟩, .take false,
      .take false]

/-- The second and the third event are replayed, and the last one is taken from the broadcast. -/
theorem resumed_stream_exact_straddling : ∃ s : StreamState Event, s.Exact secondOn ∧
    s.phase = .ended ∧ s.reader.frames.map Event.seq = [2, 3, 4] := by
  obtain ⟨s, hs⟩ : ∃ s, run (fun s action => step secondOn s action) KeepsUp start batchStraddlesSnapshot = some s := ⟨_, rfl⟩
  refine ⟨s, resumed_stream_exact (fun event => ⟨event, rfl⟩) (reachable_of_run hs), ?_⟩
  obtain rfl := Option.some.inj hs
  exact ⟨rfl, rfl⟩

/-- **Streams drain**: whatever the order of the steps, there are no more that progress than what is
committed and what else is broadcast pay for, and once there are none left, everything from the
cursor on is queued, unless the cursor was refused. -/
theorem stream_drains {sub : ResumeSubscription Frame}
    (hencode : ∀ event, ∃ frame, sub.encodeFrame event = .ok frame) {actions : List StreamAction}
    {s : StreamState Frame}
    (hrun : run (fun s action => s.step sub action) KeepsUp start actions = some s) :
    actions.countP (progresses sub) ≤ (actions.map (cost sub)).sum + 3 ∧
      (s.closed = false → (∀ action, progresses sub action = true → s.step sub action = none) →
        (∃ error, s.phase = .rejected error) ∨
          s.reader.frames.map Except.ok =
            (expected sub (s.histories sub.target)).map sub.encodeFrame) := by
  have hpaid : left sub s + actions.countP (progresses sub) ≤ 3 + (actions.map (cost sub)).sum :=
    countP_le_costs left_step hrun
  have hspliced : s.Spliced sub :=
    (reachable_of_run hrun).invariant (fun hspliced hkeeps hstep => hspliced.step hencode hkeeps hstep) spliced_start
  exact ⟨by omega, fun hopen hstuck =>
      (drained_of_stuck hstuck).imp_right (hspliced.exact.complete hopen)⟩

/-- The stream has replayed two events, and waits for the next broadcast. -/
theorem stream_drains_waiting :
    ∃ s : StreamState Event, s.phase = .live 3 ∧
    s.reader.frames.map Except.ok = (expected secondOn (s.histories ⟨0⟩)).map
      secondOn.encodeFrame := by
  obtain ⟨s, hs⟩ : ∃ s, run (fun s action => step secondOn s action) KeepsUp start
      (batchStraddlesSnapshot.take 7 ++ [.replay, .replay, .take false, .take false]) = some s := ⟨_, rfl⟩
  obtain ⟨hph, hopen, hrecv, hunpub⟩ :
      s.phase = .live 3 ∧ s.closed = false ∧ s.receiver = [] ∧ s.unpublished secondOn.target = [] := by
    obtain rfl := Option.some.inj hs
    exact ⟨rfl, rfl, rfl, rfl⟩
  refine ⟨s, hph, ((stream_drains (fun event => ⟨event, rfl⟩) hs).2 hopen fun action hprogresses =>
      ?_).resolve_left ?_⟩
  · cases action <;> simp_all [step]
  · simp [hph]

end Aion
