import Aion.Durability.Command

/-!
# The history cursor

The ordered cursor over a workflow's recorded history (`cursor.rs`). A command
consumes only its own events: a resolved command marks exactly those consumed, and
what lies between stays matchable for the commands it belongs to. `position` is a
low-water mark from which the scans resume.

The slices of the source are lists, its `while` loops recursions over the part of
the history that is left. The consumption bits have the length of the history;
the cursor carries the proof.
-/

namespace Aion

/-! ### Event classification -/

/-- `family_for_event`: the family of a matchable event. -/
def familyForEvent (event : Event) : Option RecordedEventFamily :=
  match event.body with
  | .activityScheduled .. => some .activity
  | .timerStarted .. => some .timer
  | .withTimeoutCompleted .. => some .timer
  | .signalReceived .. => some .signal
  | .signalSent .. => some .signal
  | .childWorkflowStarted .. => some .child
  | .childWorkflowCompleted .. => some .child
  | .childWorkflowFailed .. => some .child
  | _ => none

/-- `is_child_terminal_for`. -/
def isChildTerminalFor (event : Event) (childWorkflowId : WorkflowId) : Bool :=
  match event.body with
  | .childWorkflowCompleted terminalChild _ => terminalChild == childWorkflowId
  | .childWorkflowFailed terminalChild _ => terminalChild == childWorkflowId
  | _ => false

/-! ### The cursor -/

/-- Ordered cursor over a workflow's recorded history. -/
structure HistoryCursor where
  /-- The ordered history. -/
  events : List Event
  /-- Which events a resolved command has consumed. -/
  consumed : List Bool
  /-- The first index that is neither consumed nor already skipped past. -/
  position : ℕ
  /-- One bit for each event. -/
  length_consumed : consumed.length = events.length

/-- Outcome of asking the cursor to resolve the next recorded command outcome. -/
inductive CursorResolveResult where
  /-- The command matched; its events were consumed in order. -/
  | matched (events : List Event)
  /-- No remaining recorded event to consider. -/
  | exhausted
  /-- The next recorded event's family or key differs from the command's. -/
  | mismatch (expectedKey : CorrelationKey) (found : FoundEventDescriptor)
  deriving DecidableEq

/-- Outcome of asking the cursor for one awaited child's recorded terminal. -/
inductive ChildTerminalResolveResult where
  /-- The awaited child's terminal event was consumed. -/
  | matched (events : List Event)
  /-- No remaining recorded event to consider. -/
  | exhausted
  /-- The next matchable event is not the awaited child's terminal. -/
  | mismatch (found : FoundEventDescriptor)
  deriving DecidableEq

/-- The first pair of neighbours whose sequence numbers decrease. -/
def firstDecrease : List Event → Option (ℕ × ℕ)
  | prior :: next :: rest =>
    if next.seq < prior.seq then some (prior.seq, next.seq) else firstDecrease (next :: rest)
  | _ => none

theorem firstDecrease_eq_none_iff (events : List Event) :
    firstDecrease events = none ↔ Ordered events := by
  have chain : firstDecrease events = none ↔ events.IsChain fun a b => a.seq ≤ b.seq := by
    induction events with
    | nil => simp [firstDecrease]
    | cons a rest ih =>
      cases rest with
      | nil => simp [firstDecrease]
      | cons b rest =>
        rw [firstDecrease, List.isChain_cons_cons, ← ih]
        split_ifs with h
        · simp [not_le.mpr h]
        · simp [not_lt.mp h]
  have : IsTrans Event fun a b => a.seq ≤ b.seq := ⟨fun _ _ _ => le_trans⟩
  rw [chain, Ordered, List.isChain_iff_pairwise]

namespace HistoryCursor

/-- The cursor at the start of a history, nothing consumed. -/
def start (events : List Event) : HistoryCursor :=
  ⟨events, List.replicate events.length false, 0, List.length_replicate⟩

/-- `HistoryCursor::new`. -/
def new (events : List Event) : Except DurabilityError HistoryCursor :=
  match firstDecrease events with
  | some (prior, next) =>
    .error (.historyShape s!"history sequence order decreased from {prior} to {next}")
  | none => .ok (start events)

theorem new_eq_ok_iff (events : List Event) (cursor : HistoryCursor) :
    new events = .ok cursor ↔ Ordered events ∧ cursor = start events := by
  rw [← firstDecrease_eq_none_iff, new]
  cases firstDecrease events <;> simp [eq_comm]

variable (c : HistoryCursor)

/-- `next_matchable_index`: the first unconsumed matchable event at or after `position`. -/
def nextMatchableIndex : Option ℕ :=
  (((c.events.drop c.position).zip (c.consumed.drop c.position)).findIdx?
    fun slot => !slot.2 && (familyForEvent slot.1).isSome).map (c.position + ·)

/-- `descriptor_at`. -/
def descriptorAt (index : ℕ) (event : Event) : FoundEventDescriptor where
  seq := event.seq
  family := familyForEvent event
  key := keyForEvent c.events index
  kind := event.body.kind

/-- `fast_forward_to_key`'s loop; each turn moves the position on, so `fuel` turns
are enough when there are at most `fuel` events. -/
def fastForwardLoop (stop : List Event → ℕ → Bool) : ℕ → HistoryCursor → HistoryCursor
  | 0, c => c
  | fuel + 1, c =>
    match c.nextMatchableIndex with
    | none => c
    | some index =>
      if stop c.events index then c else fastForwardLoop stop fuel { c with position := index + 1 }

/-- `fast_forward_to_key`. -/
def fastForwardToKey (key : CorrelationKey) : HistoryCursor :=
  fastForwardLoop (fun events index => keyForEvent events index == some key) (c.events.length + 1) c

/-- `fast_forward_to_child_terminal`. -/
def fastForwardToChildTerminal (childWorkflowId : WorkflowId) : HistoryCursor :=
  fastForwardLoop
    (fun events index => events[index]?.any fun event => isChildTerminalFor event childWorkflowId)
    (c.events.length + 1) c

/-! ### Consuming -/

/-- `advance_past_consumed`'s loop, over the bits from the position on. -/
def pastConsumed : List Bool → ℕ → ℕ
  | true :: rest, position => pastConsumed rest (position + 1)
  | _, position => position

/-- `advance_past_consumed`. -/
def advancePastConsumed : HistoryCursor :=
  { c with position := pastConsumed (c.consumed.drop c.position) c.position }

/-- Set the bits of `indices`; an index outside the history sets nothing. -/
def setConsumed (indices : List ℕ) (consumed : List Bool) : List Bool :=
  indices.foldl (fun bits index => bits.set index true) consumed

theorem length_setConsumed (indices : List ℕ) (consumed : List Bool) :
    (setConsumed indices consumed).length = consumed.length := by
  induction indices generalizing consumed with
  | nil => rfl
  | cons index rest ih => rw [setConsumed, List.foldl_cons, ← setConsumed, ih, List.length_set]

/-- Mark `indices` consumed and move the position past what is consumed. -/
def markConsumed (indices : List ℕ) : HistoryCursor :=
  advancePastConsumed { c with
    consumed := setConsumed indices c.consumed
    length_consumed := (length_setConsumed indices c.consumed).trans c.length_consumed }

/-- `take_range`: the events of `start..stop`, consumed. -/
def takeRange (start stop : ℕ) : List Event × HistoryCursor :=
  ((c.events.drop start).take (stop - start), c.markConsumed (List.range' start (stop - start)))

/-- `consume_indices`: the events at `indices`, consumed. -/
def consumeIndices (indices : List ℕ) : CursorResolveResult × HistoryCursor :=
  (.matched (indices.filterMap fun index => c.events[index]?), c.markConsumed indices)

/-- `consume_one`. -/
def consumeOne : CursorResolveResult × HistoryCursor :=
  let (events, c') := c.takeRange c.position (c.position + 1)
  (.matched events, c')

/-- `mismatch_at_current`. -/
def mismatchAtCurrent (expectedKey : CorrelationKey) : CursorResolveResult :=
  match c.events[c.position]? with
  | some event => .mismatch expectedKey (c.descriptorAt c.position event)
  | none => .exhausted

/-! ### Activities -/

/-- The event is an attempt or an outcome of the activity. -/
def isActivityAttemptOrOutcome (activityId : ActivityId) (event : Event) : Bool :=
  match event.body with
  | .activityStarted eventActivityId _ => eventActivityId == activityId
  | .activityFailed eventActivityId _ _ => eventActivityId == activityId
  | .activityCompleted eventActivityId _ _ => eventActivityId == activityId
  | _ => false

/-- `has_later_activity_attempt_or_outcome`. -/
def hasLaterActivityAttemptOrOutcome (events : List Event) (start : ℕ) (activityId : ActivityId) :
    Bool :=
  (events.drop start).any (isActivityAttemptOrOutcome activityId)

/-- The event is a reopen that names the activity. -/
def isReopenOf (activityId : ActivityId) (event : Event) : Bool :=
  match event.body with
  | .workflowReopened _ reopened => reopened.contains activityId
  | _ => false

/-- `activity_reopened_after`. -/
def activityReopenedAfter (events : List Event) (start : ℕ) (activityId : ActivityId) : Bool :=
  (events.drop start).any (isReopenOf activityId)

/-- The `while` loop of `resolve_activity` over what is left of the history: the
indices to consume, or `none` when the walk exhausts. -/
def walkActivity (events : List Event) (activityId : ActivityId) :
    List Event → ℕ → List ℕ → Option (List ℕ)
  | [], _, _ => none
  | event :: rest, index, matched =>
    match event.body with
    | .activityStarted eventActivityId _ =>
      if eventActivityId = activityId then walkActivity events activityId rest (index + 1) (matched ++ [index])
      else walkActivity events activityId rest (index + 1) matched
    | .activityScheduled eventActivityId .. =>
      if eventActivityId = activityId then walkActivity events activityId rest (index + 1) (matched ++ [index])
      else walkActivity events activityId rest (index + 1) matched
    | .activityFailed eventActivityId error _ =>
      if eventActivityId = activityId then
        -- a retryable failure, or one a reopen supersedes, is an attempt and not a terminal
        if !error.isRetryable && !activityReopenedAfter events (index + 1) activityId &&
            !hasLaterActivityAttemptOrOutcome events (index + 1) activityId then
          some (matched ++ [index])
        else walkActivity events activityId rest (index + 1) (matched ++ [index])
      else walkActivity events activityId rest (index + 1) matched
    | .activityCompleted eventActivityId _ _ =>
      if eventActivityId = activityId then some (matched ++ [index])
      else walkActivity events activityId rest (index + 1) matched
    | .activityCancelled eventActivityId _ =>
      if eventActivityId = activityId then some (matched ++ [index])
      else walkActivity events activityId rest (index + 1) matched
    | _ => walkActivity events activityId rest (index + 1) matched

/-- `resolve_activity`. -/
def resolveActivity (expectedKey : CorrelationKey) :
    CursorResolveResult × HistoryCursor :=
  match c.events[c.position]? with
  | some ⟨_, .activityScheduled activityId ..⟩ =>
    match walkActivity c.events activityId (c.events.drop (c.position + 1)) (c.position + 1)
        [c.position] with
    | some matched => c.consumeIndices matched
    | none => (.exhausted, c)
  | _ => (c.mismatchAtCurrent expectedKey, c)

/-! ### Timers, children and the resolve operations -/

/-- `is_outcome_for_start_key`. -/
def isOutcomeForStartKey (events : List Event) (position : ℕ) (event : Event)
    (expectedKey : CorrelationKey) : Bool :=
  match event.body, expectedKey with
  | .timerFired timerId, .timer expectedTimerId => timerId == expectedTimerId
  | .withTimeoutCompleted timerId _ _, .timer expectedTimerId => timerId == expectedTimerId
  -- a teardown cancellation is engine bookkeeping, never an outcome an await observes
  | .timerCancelled timerId cause, .timer expectedTimerId =>
    cause == .workflowIntent && timerId == expectedTimerId
  | .childWorkflowCompleted childWorkflowId _, .child _ => startedHere childWorkflowId
  | .childWorkflowFailed childWorkflowId _, .child _ => startedHere childWorkflowId
  | .childWorkflowCancelled childWorkflowId, .child _ => startedHere childWorkflowId
  | _, _ => false
where
  /-- The event at the position starts this child. -/
  startedHere (childWorkflowId : WorkflowId) : Bool :=
    events[position]?.any fun start =>
      match start.body with
      | .childWorkflowStarted startChildWorkflowId .. => startChildWorkflowId == childWorkflowId
      | _ => false

/-- `resolve_started_with_immediate_outcome`: the outcome is taken only when it is
the very next event. -/
def resolveStartedWithImmediateOutcome (expectedKey : CorrelationKey) :
    CursorResolveResult × HistoryCursor :=
  let next := c.position + 1
  if c.events[next]?.any fun event =>
    isOutcomeForStartKey c.events c.position event expectedKey then
    let (events, c') := c.takeRange c.position (next + 1)
    (.matched events, c')
  else c.consumeOne

/-- `resolve_child`. -/
def resolveChild (expectedKey : CorrelationKey) :
    CursorResolveResult × HistoryCursor :=
  match c.events[c.position]? with
  | some ⟨_, .childWorkflowStarted ..⟩ => c.consumeOne
  | _ => (c.mismatchAtCurrent expectedKey, c)

/-- `resolve_next`. -/
def resolveNext (family : RecordedEventFamily) (expectedKey : CorrelationKey) :
    CursorResolveResult × HistoryCursor :=
  match c.nextMatchableIndex with
  | none => (.exhausted, c)
  | some foundIndex =>
    let c := { c with position := foundIndex }
    match c.events[foundIndex]? with
    | none => (.exhausted, c)
    | some event =>
      let found := c.descriptorAt foundIndex event
      if found.family ≠ some family ∨ found.key ≠ some expectedKey then (.mismatch expectedKey found, c)
      else
        match family with
        | .activity => c.resolveActivity expectedKey
        | .timer => c.resolveStartedWithImmediateOutcome expectedKey
        | .child => c.resolveChild expectedKey
        | .signal =>
          match expectedKey with
          | .signal .. => c.consumeOne
          | _ => (c.mismatchAtCurrent expectedKey, c)

/-- `resolve_child_terminal`. -/
def resolveChildTerminal (childWorkflowId : WorkflowId) :
    ChildTerminalResolveResult × HistoryCursor :=
  match c.nextMatchableIndex with
  | none => (.exhausted, c)
  | some foundIndex =>
    let c := { c with position := foundIndex }
    match c.events[foundIndex]? with
    | some event =>
      if isChildTerminalFor event childWorkflowId then
        let (events, c') := c.takeRange foundIndex (foundIndex + 1)
        (.matched events, c')
      else (.mismatch (c.descriptorAt foundIndex event), c)
    | none => (.exhausted, c)

end HistoryCursor

end Aion
