import Aion.Durability.Recorder
import Aion.Library.Serving
import Aion.Runtime.CollectSettlement

/-!
# The sweeps of a collect

A collect over a range of fan-out members is entered again on every wake of its process
(`nif_collect_settlement.rs`). A sweep reads the run's segment once; for a member without a recorded
terminal it takes what the runtime maps hold of it and records that. `settle_all` ends with the
first failure or with all the results, `settle_race` with the first terminal; what is then
unresolved is recorded as cancelled. An expired `with_timeout` scope cancels what is unresolved.

The sweeps are programs that call the engine (`CollectCall`): for a member's entries in the runtime
maps, and for the context's recorder.
-/

namespace Aion

open Interleaving

/-! ### Scopes -/

/-- A `with_timeout` scope of the process: its deadline timer, and the outcome if it is replayed. -/
structure TimeoutScope where
  timerId : TimerId
  replayTimedOut : Option Bool

/-- `ExpiredScopeDeadline`. -/
inductive ExpiredScopeDeadline where
  /-- The deadline's `TimerFired` has this sequence number. -/
  | recordedAt (seq : ℕ)
  /-- The scope is expired, and its `TimerFired` is not in the segment. -/
  | unordered
  deriving DecidableEq

/-- `timer_fired_seq`. -/
def timerFiredSeq (history : List Event) (timerId : TimerId) : Option ℕ :=
  history.findSome? fun event =>
    match event.body with
    | .timerFired fired => if fired = timerId then some event.seq else none
    | _ => none

/-- Whether the scope is expired, by its replayed outcome or by its timer. -/
def TimeoutScope.expired (scope : TimeoutScope) (history : List Event) : Bool :=
  scope.replayTimedOut.getD (timerFiredSeq history scope.timerId).isSome

/-- `expired_scope_deadline`, over the scopes on the process's stack. -/
def expiredScopeDeadline (scopes : List TimeoutScope) (history : List Event) :
    Option ExpiredScopeDeadline :=
  let positions := (scopes.filter fun scope => scope.expired history).map fun scope => timerFiredSeq history scope.timerId
  if none ∈ positions then some .unordered else (positions.filterMap id).min?.map .recordedAt

/-- `SCOPE_EXPIRED_MESSAGE`. -/
def scopeExpiredMessage : String := "timeout:deadline expired"

/-! ### The calls of a sweep -/

/-- `CollectError`; a failed record keeps the recorder's error in place of its text. -/
inductive CollectError where
  /-- A failure the workflow sees. -/
  | message (text : String)
  /-- A record failed. -/
  | durability (error : DurabilityError)
  /-- `EngineError::ActivityDeliveryPoisoned`, which fails the workflow. -/
  | activityDeliveryPoisoned (processId : ℕ)
  deriving DecidableEq

/-- `CollectStep`. -/
inductive CollectStep where
  /-- A pending query's sentinel. -/
  | querySentinel (payload : String)
  /-- Every member completed: the results in order. -/
  | allCompleted (results : List String)
  /-- The race settled: the winner's result or failure. -/
  | raceWon (outcome : Except String String)
  /-- The message of the first member that failed. -/
  | failFast (message : String)
  /-- The enclosing scope expired. -/
  | scopeExpired (message : String)
  /-- Park the process. -/
  | suspend
  deriving DecidableEq

/-- What a sweep asks of the engine, for the process and the context it is called for. -/
inductive CollectCall where
  /-- `take_activity_result`. -/
  | takeActivityResult (ordinal : ℕ)
  /-- `take_activity_error`. -/
  | takeActivityError (ordinal : ℕ)
  /-- `record_activity_completed`. -/
  | recordActivityCompleted (activityId : ActivityId) (result : Payload) (attempt : ℕ)
  /-- `record_activity_failed`. -/
  | recordActivityFailed (activityId : ActivityId) (error : ActivityError) (attempt : ℕ)
  /-- `record_fan_out_completion`. -/
  | recordFanOutCompletion (ordinal : ℕ) (outcome : FanOutOutcome)
  /-- `record_activity_cancelled_and_settle_outbox`. -/
  | recordActivityCancelledAndSettleOutbox (ordinal attempt : ℕ)
  /-- The removal of the pinned await. -/
  | removePendingAwait

/-- What each call returns. -/
abbrev CollectCall.Answer : CollectCall → Type
  | .takeActivityResult _ => Except CollectError (Option (Payload × Option ℕ))
  | .takeActivityError _ => Except CollectError (Option (ActivityError × Option ℕ))
  | .recordActivityCompleted .. => Except DurabilityError Unit
  | .recordActivityFailed .. => Except DurabilityError Unit
  | .recordFanOutCompletion .. => Except DurabilityError FanOutCompletionResult
  | .recordActivityCancelledAndSettleOutbox .. => Except DurabilityError Unit
  | .removePendingAwait => Unit

/-- A part of a sweep. -/
abbrev CollectM (α : Type) : Type := Fallible CollectCall CollectCall.Answer CollectError α

namespace CollectM

/-- The `?` of a failure the workflow sees. -/
def lift {α : Type} (result : Except String α) : CollectM α := .done (result.mapError .message)

/-- Takes the delivered result of an ordinal. -/
def takeResult (ordinal : ℕ) : CollectM (Option (Payload × Option ℕ)) :=
  .call (.takeActivityResult ordinal) .done

/-- Takes the delivered error of an ordinal. -/
def takeError (ordinal : ℕ) : CollectM (Option (ActivityError × Option ℕ)) :=
  .call (.takeActivityError ordinal) .done

/-- Records a completion. -/
def recordCompleted (activityId : ActivityId) (result : Payload) (attempt : ℕ) : CollectM Unit :=
  .call (.recordActivityCompleted activityId result attempt) fun answer =>
    .done (answer.mapError .durability)

/-- Records a failure. -/
def recordFailed (activityId : ActivityId) (error : ActivityError) (attempt : ℕ) : CollectM Unit :=
  .call (.recordActivityFailed activityId error attempt) fun answer =>
    .done (answer.mapError .durability)

/-- Records an outcome of the fan-out. -/
def recordFanOut (ordinal : ℕ) (outcome : FanOutOutcome) : CollectM FanOutCompletionResult :=
  .call (.recordFanOutCompletion ordinal outcome) fun answer => .done (answer.mapError .durability)

/-- Forgets the await. -/
def removePendingAwait : CollectM Unit := .call .removePendingAwait fun _ => .done (.ok ())

end CollectM

open CollectM

/-! ### The parts of a sweep -/

/-- `FIRST_DELIVERY_ATTEMPT`. -/
def firstDeliveryAttempt : ℕ := 1

/-- `terminal_error`. -/
def terminalError (message : String) : ActivityError := ⟨.terminal, message, none⟩

/-- `record_cancelled`. -/
def recordCancelled (ordinal : ℕ) : CollectM Unit :=
  .call (.recordActivityCancelledAndSettleOutbox ordinal firstDeliveryAttempt) fun answer =>
    .done (answer.mapError .durability)

/-- `drop_runtime_entries`. -/
def dropRuntimeEntries (ordinal : ℕ) : CollectM Unit := do
  let _ ← takeResult ordinal
  let _ ← takeError ordinal
  return ()

/-- `take_and_record`: with the outbox on the recorder may drop the outcome as a duplicate, and the
state is that of the outcome all the same. -/
def takeAndRecord (outboxEnabled : Bool) (ordinal : ℕ) : CollectM OrdinalState := do
  let activityId := ActivityId.fromSequencePosition ordinal
  match ← takeResult ordinal with
  | some (payload, attempt) =>
    let attempt := attempt.getD firstDeliveryAttempt
    if outboxEnabled then
      let _ ← recordFanOut ordinal (.completed payload attempt)
      let text ← lift (payloadText payload)
      return .completed text
    else
      recordCompleted activityId payload attempt
      let text ← lift (payloadText payload)
      return .completed text
  | none =>
    match ← takeError ordinal with
    | some (error, attempt) =>
      let attempt := attempt.getD firstDeliveryAttempt
      if outboxEnabled then
        let _ ← recordFanOut ordinal (.failed (terminalError error.message) attempt)
        return .failed error.message
      else
        recordFailed activityId (terminalError error.message) attempt
        return .failed error.message
    | none => return .pending

/-! ### `settle_all` -/

/-- The states of the members from `ordinal` on: recorded, or taken and recorded now. -/
def sweepStates (outboxEnabled : Bool) (history : List Event) :
    (ordinal count : ℕ) → CollectM (List OrdinalState)
  | _, 0 => return []
  | ordinal, count + 1 => do
    let state ← match ← lift (recordedTerminal history ordinal) with
      | some recorded => pure recorded
      | none => takeAndRecord outboxEnabled ordinal
    let states ← sweepStates outboxEnabled history (ordinal + 1) count
    return state :: states

/-- `cancel_pending`, over the states of the members from `ordinal` on. -/
def cancelPending : (ordinal : ℕ) → List OrdinalState → CollectM Unit
  | _, [] => return ()
  | ordinal, .pending :: states => do
    recordCancelled ordinal
    dropRuntimeEntries ordinal
    cancelPending (ordinal + 1) states
  | ordinal, _ :: states => cancelPending (ordinal + 1) states

/-- The message of a failed member. -/
def OrdinalState.failure? : OrdinalState → Option String
  | .failed message => some message
  | _ => none

/-- The result of a completed member. -/
def OrdinalState.result? : OrdinalState → Option String
  | .completed payload => some payload
  | _ => none

/-- `settle_all`. -/
def settleAll (outboxEnabled : Bool) (history : List Event) (scopes : List TimeoutScope)
    (baseOrdinal count : ℕ) : CollectM CollectStep := do
  let states ← sweepStates outboxEnabled history baseOrdinal count
  match states.findSome? OrdinalState.failure? with
  | some message =>
    cancelPending baseOrdinal states
    removePendingAwait
    return .failFast message
  | none =>
    if states.all fun state => state.result?.isSome then
      removePendingAwait
      return .allCompleted (states.filterMap OrdinalState.result?)
    else if (expiredScopeDeadline scopes history).isSome then
      cancelPending baseOrdinal states
      removePendingAwait
      return .scopeExpired scopeExpiredMessage
    else if OrdinalState.pending ∉ states then
      removePendingAwait
      return .scopeExpired scopeExpiredMessage
    else return .suspend

/-! ### `settle_race` -/

/-- `RaceSettlement`: the winner and its result or failure. -/
abbrev RaceSettlement := ℕ × Except String String

/-- `recorded_race_winner`. -/
def recordedRaceWinner (history : List Event) (baseOrdinal count : ℕ) :
    Except String (Option RaceSettlement) :=
  match history with
  | [] => .ok none
  | event :: rest =>
    match event.body with
    | .activityCompleted activityId result _ =>
      if baseOrdinal ≤ activityId.sequencePosition ∧ activityId.sequencePosition < baseOrdinal + count then
        (payloadText result).map fun text => some (activityId.sequencePosition, .ok text)
      else recordedRaceWinner rest baseOrdinal count
    | .activityFailed activityId error _ =>
      if baseOrdinal ≤ activityId.sequencePosition ∧ activityId.sequencePosition < baseOrdinal + count then
        .ok (some (activityId.sequencePosition, .error error.message))
      else recordedRaceWinner rest baseOrdinal count
    | _ => recordedRaceWinner rest baseOrdinal count

/-- The first member from `ordinal` on that is unresolved and whose outcome has arrived. -/
def takeWinner (outboxEnabled : Bool) (history : List Event) :
    (ordinal count : ℕ) → CollectM (Option RaceSettlement)
  | _, 0 => return none
  | ordinal, count + 1 => do
    match ← lift (recordedTerminal history ordinal) with
    | some _ => takeWinner outboxEnabled history (ordinal + 1) count
    | none =>
      match ← takeAndRecord outboxEnabled ordinal with
      | .completed payload => return some (ordinal, .ok payload)
      | .failed message => return some (ordinal, .error message)
      | _ => takeWinner outboxEnabled history (ordinal + 1) count

/-- Drops the entries of the members from `ordinal` on and cancels those without a terminal; the
winner stays. -/
def cancelOthers (history : List Event) (winner : Option ℕ) : (ordinal count : ℕ) → CollectM Unit
  | _, 0 => return ()
  | ordinal, count + 1 => do
    if winner = some ordinal then cancelOthers history winner (ordinal + 1) count
    else
      dropRuntimeEntries ordinal
      match ← lift (recordedTerminal history ordinal) with
      | some _ => cancelOthers history winner (ordinal + 1) count
      | none =>
        recordCancelled ordinal
        cancelOthers history winner (ordinal + 1) count

/-- Whether every member from `ordinal` on has a recorded cancellation. -/
def allCancelled (history : List Event) : (ordinal count : ℕ) → Except String Bool
  | _, 0 => return true
  | ordinal, count + 1 => do
    let terminal ← recordedTerminal history ordinal
    if terminal = some .cancelled then allCancelled history (ordinal + 1) count else return false

/-- `settle_race`. -/
def settleRace (outboxEnabled : Bool) (history : List Event) (scopes : List TimeoutScope)
    (baseOrdinal count : ℕ) : CollectM CollectStep := do
  let winner ← match ← lift (recordedRaceWinner history baseOrdinal count) with
    | some recorded => pure (some recorded)
    | none => takeWinner outboxEnabled history baseOrdinal count
  match winner with
  | some (ordinal, outcome) =>
    cancelOthers history (some ordinal) baseOrdinal count
    removePendingAwait
    return .raceWon outcome
  | none =>
    if (expiredScopeDeadline scopes history).isSome then
      cancelOthers history none baseOrdinal count
      removePendingAwait
      return .scopeExpired scopeExpiredMessage
    else if ← lift (allCancelled history baseOrdinal count) then
      removePendingAwait
      return .scopeExpired scopeExpiredMessage
    else return .suspend

/-! ### A range -/

/-- `CollectKind`. -/
inductive CollectKind where
  /-- `collect_all` and `collect_map`. -/
  | all
  /-- `collect_race`. -/
  | race
  deriving DecidableEq

/-- A pinned collect: its kind, its members and the run it is of. -/
structure CollectRange where
  kind : CollectKind
  baseOrdinal : ℕ
  count : ℕ
  runId : RunId
  /-- Whether outcomes are recorded through the outbox's dedup. -/
  outboxEnabled : Bool
  /-- The range has a member. -/
  pos : 0 < count

/-- The sweep of `collect_step`. -/
def CollectRange.sweep (range : CollectRange) (history : List Event) (scopes : List TimeoutScope) :
    CollectM CollectStep :=
  match range.kind with
  | .all => settleAll range.outboxEnabled history scopes range.baseOrdinal range.count
  | .race => settleRace range.outboxEnabled history scopes range.baseOrdinal range.count

end Aion
