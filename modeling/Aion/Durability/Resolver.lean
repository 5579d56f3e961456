import Aion.Durability.Ledger

/-!
# The resolver

The single point that resolves a workflow command against recorded history
(`resolver.rs`): a command becomes a call of the cursor, and the cursor's answer
becomes a recorded resolution, a hand-off to live execution, or an error.
-/

namespace Aion

/-- `ResolveOutcome`. -/
inductive ResolveOutcome where
  /-- Satisfied from recorded history. -/
  | recorded (resolution : Resolution)
  /-- History is exhausted; ownership hands off to live execution. -/
  | resumeLive
  deriving DecidableEq

/-- `ResolvedCommand`: the outcome with the timestamp replay advances to. -/
inductive ResolvedCommand where
  /-- Satisfied from recorded history; `recordedAt` is the last consumed event's. -/
  | recorded (resolution : Resolution) (recordedAt : Instant)
  /-- Hand off to live execution. -/
  | resumeLive (recordedAt : Option Instant)
  deriving DecidableEq

/-- `ResolvedCommand::into_outcome`. -/
def ResolvedCommand.intoOutcome : ResolvedCommand → ResolveOutcome
  | .recorded resolution _ => .recorded resolution
  | .resumeLive _ => .resumeLive

/-- `resolution_from_matched`: the last event of the match decides. -/
def resolutionFromMatched (events : List Event) : Except DurabilityError ResolvedCommand :=
  match events.getLast? with
  | none => .error (.historyShape "cursor returned an empty matched event range")
  | some last =>
    match last.body with
    | .activityCompleted _ result _ => .ok (.recorded (.activityCompleted result) last.recordedAt)
    | .activityFailed _ error _ =>
      match error.kind with
      | .terminal => .ok (.recorded (.activityFailedTerminal error) last.recordedAt)
      | .retryable => .error (.historyShape ("matched activity failure is not terminal and is not " ++
          "representable by AD-004 resolution: Retryable"))
    | .timerFired _ => .ok (.recorded .timerFired last.recordedAt)
    | .timerCancelled .. => .ok (.recorded .timerCancelled last.recordedAt)
    | .withTimeoutCompleted _ outcome result =>
      .ok (.recorded (.withTimeout outcome result) last.recordedAt)
    | .timerStarted .. => .ok (.recorded .timerStarted last.recordedAt)
    | .signalReceived _ payload => .ok (.recorded (.signalDelivered payload) last.recordedAt)
    | .signalSent .. => .ok (.recorded .signalSent last.recordedAt)
    | .childWorkflowCompleted _ result => .ok (.recorded (.childCompleted result) last.recordedAt)
    | .childWorkflowFailed _ error => .ok (.recorded (.childFailed error) last.recordedAt)
    | .childWorkflowStarted childWorkflowId .. =>
      .ok (.recorded (.childStarted childWorkflowId) last.recordedAt)
    | .activityCancelled .. => .error (cancellation last.body)
    | .childWorkflowCancelled .. => .error (cancellation last.body)
    | body => .error (.historyShape
        ("matched history ended without a recorded command outcome: " ++ body.kind))
where
  /-- The error of a cancellation outcome. -/
  cancellation (body : EventBody) : DurabilityError :=
    .historyShape ("recorded cancellation outcome is not representable by AD-004 resolution: " ++ body.kind)

/-- A match gives a recorded resolution or is malformed. -/
theorem resolutionFromMatched_cases (events : List Event) :
    (∃ resolution recordedAt, resolutionFromMatched events =
        .ok (.recorded resolution recordedAt)) ∨
      ∃ reason, resolutionFromMatched events = .error (.historyShape reason) := by
  unfold resolutionFromMatched
  cases events.getLast? with
  | none => exact .inr ⟨_, rfl⟩
  | some last =>
    obtain ⟨envelope, body⟩ := last
    cases body <;> try first | exact .inl ⟨_, _, rfl⟩ | exact .inr ⟨_, rfl⟩
    rename_i error _
    obtain ⟨kind, message, details⟩ := error
    cases kind with
    | retryable => exact .inr ⟨_, rfl⟩
    | terminal => exact .inl ⟨_, _, rfl⟩

/-- `family_and_key`. -/
def familyAndKey : Command → Option (RecordedEventFamily × CorrelationKey)
  | .runActivity key .. => some (.activity, key)
  | .awaitSignal key => some (.signal, key)
  | .sendSignal key _ => some (.signal, key)
  | .startTimer key _ => some (.timer, key)
  | .spawnChild key .. => some (.child, key)
  | .awaitChild _ => none
  | .completeWorkflow _ => none

/-- Resolves workflow commands against one workflow's recorded history. -/
structure Resolver where
  /-- The workflow, for diagnostics. -/
  workflowId : WorkflowId
  /-- The cursor over its history. -/
  cursor : HistoryCursor

namespace Resolver

/-- `mismatch_error`, with what was expected. -/
def mismatchError (r : Resolver) (expected : ExpectedShape) (found : FoundEventDescriptor) :
    DurabilityError :=
  .nonDeterminism
    { workflowId := r.workflowId
      seq := found.seq
      expected := expected
      found := .event found.kind found.family found.key }

/-- `resolve_with_consumed`. -/
def resolveWithConsumed (r : Resolver) (command : Command) :
    Except DurabilityError ResolvedCommand × Resolver :=
  match command with
  | .awaitChild childWorkflowId =>
    match r.cursor.resolveChildTerminal childWorkflowId with
    | (.matched events, cursor) => (resolutionFromMatched events, { r with cursor })
    | (.exhausted, cursor) => (.ok (.resumeLive none), { r with cursor })
    | (.mismatch found, cursor) =>
      (.error (r.mismatchError (.childTerminal childWorkflowId) found), { r with cursor })
  | command =>
    match familyAndKey command with
    | none => (.ok (.resumeLive none), r)
    | some (family, key) =>
      match r.cursor.resolveNext family key with
      | (.matched events, cursor) => (resolutionFromMatched events, { r with cursor })
      | (.exhausted, cursor) => (.ok (.resumeLive none), { r with cursor })
      | (.mismatch expectedKey found, cursor) =>
        (.error (r.mismatchError (.recorded family expectedKey) found), { r with cursor })

/-- `resolve`. -/
def resolve (r : Resolver) (command : Command) : Except DurabilityError ResolveOutcome × Resolver :=
  let (result, r') := r.resolveWithConsumed command
  (result.map ResolvedCommand.intoOutcome, r')

/-! ### A command is a call of the cursor -/

/-- The call of the cursor that resolves a command; `none` for one that never is. -/
def callOf : Command → Option CursorCall
  | .awaitChild childWorkflowId => some (.childTerminal childWorkflowId)
  | command => (familyAndKey command).map fun (family, key) => .next family key

/-- What a violated call expected. -/
def expectedShape : CursorCall → ExpectedShape
  | .next family expectedKey => .recorded family expectedKey
  | .childTerminal childWorkflowId => .childTerminal childWorkflowId

/-- What the resolver makes of the cursor's answer. -/
def answer (r : Resolver) (call : CursorCall) (result : CallResult) :
    Except DurabilityError ResolvedCommand :=
  match result.matched?, result.mismatch? with
  | some events, _ => resolutionFromMatched events
  | none, some found => .error (r.mismatchError (expectedShape call) found)
  | none, none => .ok (.resumeLive none)

variable {command : Command} {resolution : Resolution} {result : CallResult} {call : CursorCall}
  {r : Resolver}

theorem answer_of_matched {events : List Event} (h : result.matched? = some events)
    (r : Resolver) (call : CursorCall) : r.answer call result = resolutionFromMatched events := by
  simp [answer, h]

/-- A recorded resolution comes from a match. -/
theorem exists_matched_of_answer {recordedAt : Instant}
    (h : r.answer call result = .ok (.recorded resolution recordedAt)) :
    ∃ events, result.matched? = some events := by
  unfold answer at h
  split at h
  · exact ⟨_, by assumption⟩
  · cases h
  · cases h

theorem resolveWithConsumed_of_none (h : callOf command = none) (r : Resolver) :
    r.resolveWithConsumed command = (.ok (.resumeLive none), r) := by
  cases command <;> simp_all [callOf, familyAndKey, resolveWithConsumed]

/-- **A command resolves as its call does.** -/
theorem resolveWithConsumed_of_some (h : callOf command = some call) (r : Resolver) :
    r.resolveWithConsumed command =
      (r.answer call (r.cursor.call call).1, { r with cursor := (r.cursor.call call).2 }) := by
  have key : ∀ family key, r.cursor.call (.next family key) =
      (.next (r.cursor.resolveNext family key).1, (r.cursor.resolveNext family key).2) := fun _ _ => rfl
  have child : ∀ id, r.cursor.call (.childTerminal id) =
      (.childTerminal (r.cursor.resolveChildTerminal id).1, (r.cursor.resolveChildTerminal id).2) :=
    fun _ => rfl
  have shape := r.cursor.call_result call
  cases command <;> simp only [callOf, familyAndKey, Option.map_some, Option.map_none,
    Option.some.injEq,
    reduceCtorEq] at h <;> subst h
  case awaitChild id =>
    rw [child] at shape ⊢
    simp only [resolveWithConsumed]
    generalize r.cursor.resolveChildTerminal id = resolved at *
    obtain ⟨result, cursor⟩ := resolved
    cases result <;> rfl
  all_goals
    simp only [key, resolveWithConsumed, familyAndKey] at shape ⊢
    generalize r.cursor.resolveNext _ _ = resolved at *
    obtain ⟨result, cursor⟩ := resolved
    cases result with
    | matched events => rfl
    | exhausted => rfl
    | mismatch expectedKey found =>
      simp only [CursorCall.matched, CursorCall.exhausted, CursorCall.mismatch, reduceCtorEq,
        CallResult.next.injEq, CursorResolveResult.mismatch.injEq, exists_false, false_or] at shape
      obtain ⟨_, rfl, rfl⟩ := shape
      rfl

/-- A command resolved to `Recorded` is one the cursor matched. -/
theorem exists_matched_of_resolve (h : (r.resolve command).1 = .ok (.recorded resolution)) :
    ∃ call events, callOf command = some call ∧ (r.cursor.call call).1.matched? = some events := by
  cases hcall : callOf command with
  | none =>
    simp [resolve, resolveWithConsumed_of_none hcall, Except.map, ResolvedCommand.intoOutcome] at h
  | some call =>
    simp only [resolve, resolveWithConsumed_of_some hcall] at h
    cases hans : r.answer call (r.cursor.call call).1 with
    | error error => simp [hans, Except.map] at h
    | ok resolved =>
      cases resolved with
      | recorded resolution' recordedAt =>
        obtain ⟨events, hmatch⟩ := exists_matched_of_answer hans
        exact ⟨call, events, rfl, hmatch⟩
      | resumeLive recordedAt => simp [hans, Except.map, ResolvedCommand.intoOutcome] at h

end Resolver

end Aion
