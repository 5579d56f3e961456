import Aion.Durability.FanOut
import Aion.Durability.LiveResolution

/-!
# Fan-out settlement against the replay cursor

A collect over fan-out members reads each member's outcome from the run's segment
(`recorded_terminal`, `nif_collect_settlement.rs`), and the recorder drops a
completion of a member that is resolved (`ordinal_is_resolved`). Both take the
first outcome event of the activity they find. The cursor walks on over a failure
that is one attempt of a retry trail, or that a reopen supersedes.

`collect_agrees_iff` says exactly when the two paths agree on a scheduled member:
when it has no outcome, or its first outcome follows its scheduling and is final.
-/

namespace Aion

open HistoryCursor

/-- One fan-out member's settlement state. -/
inductive OrdinalState where
  /-- A recorded completion, its payload as text. -/
  | completed (payload : String)
  /-- A recorded failure, its message. -/
  | failed (message : String)
  /-- A recorded cancellation. -/
  | cancelled
  /-- No terminal yet. -/
  | pending
  deriving DecidableEq

/-- `payload_text`. -/
def payloadText (payload : Payload) : Except String String :=
  match String.fromUTF8? ⟨payload.bytes.toArray⟩ with
  | some text => .ok text
  | none => .error "recorded activity payload is not valid UTF-8"

/-- The payload is valid UTF-8. -/
def Payload.IsText (payload : Payload) : Prop := ∃ text, payloadText payload = .ok text

/-- `recorded_terminal`. -/
def recordedTerminal (history : List Event) (ordinal : ℕ) : Except String (Option OrdinalState) :=
  match history with
  | [] => .ok none
  | event :: rest =>
    match event.body with
    | .activityCompleted activityId result _ =>
      if activityId = ⟨ordinal⟩ then (payloadText result).map fun text => some (.completed text)
      else recordedTerminal rest ordinal
    | .activityFailed activityId error _ =>
      if activityId = ⟨ordinal⟩ then .ok (some (.failed error.message)) else recordedTerminal rest ordinal
    | .activityCancelled activityId _ =>
      if activityId = ⟨ordinal⟩ then .ok (some .cancelled) else recordedTerminal rest ordinal
    | _ => recordedTerminal rest ordinal

/-! ### The first outcome -/

/-- The state an outcome event gives its member. -/
def ordinalStateOf (event : Event) : Except String (Option OrdinalState) :=
  match event.body with
  | .activityCompleted _ result _ => (payloadText result).map fun text => some (.completed text)
  | .activityFailed _ error _ => .ok (some (.failed error.message))
  | .activityCancelled .. => .ok (some .cancelled)
  | _ => .ok none

/-- The outcome event `recorded_terminal` reads: the first of the activity. -/
def firstOutcome (history : List Event) (activityId : ActivityId) : Option Event :=
  history.find? (isActivityOutcome activityId)

/-- `recorded_terminal` is the state of the first outcome. -/
theorem recordedTerminal_eq (history : List Event) (ordinal : ℕ) :
    recordedTerminal history ordinal =
      match firstOutcome history ⟨ordinal⟩ with
      | some event => ordinalStateOf event
      | none => .ok none := by
  induction history with
  | nil => rfl
  | cons event rest ih =>
    obtain ⟨envelope, body⟩ := event
    cases body <;> simp only [recordedTerminal, firstOutcome, List.find?_cons,
      isActivityOutcome] <;>
      try exact ih
    all_goals
      split_ifs with hid
      · simp [hid, ordinalStateOf]
      · rw [beq_false_of_ne hid]
        exact ih

/-- `ordinal_is_resolved` looks for any outcome. -/
theorem ordinalIsResolved_iff (history : List Event) (activityId : ActivityId) :
    ordinalIsResolved history activityId ↔ (firstOutcome history activityId).isSome := by
  rw [ordinalIsResolved, firstOutcome, List.find?_isSome, List.any_eq_true]

/-! ### Agreement -/

/-- The outcome is final given what follows it: a completion that is text, a
cancellation, or a failure for good that no later reopen and no later attempt or
outcome supersedes. -/
def IsFinal (activityId : ActivityId) (outcome : Event) (after : List Event) : Prop :=
  match outcome.body with
  | .activityCompleted _ result _ => result.IsText
  | .activityFailed _ error _ => error.isRetryable = false ∧
      (∀ later ∈ after, isReopenOf activityId later = false) ∧
      ∀ later ∈ after, isActivityAttemptOrOutcome activityId later = false
  | _ => True

/-- The event schedules the activity. -/
def isScheduledOf (activityId : ActivityId) (event : Event) : Prop :=
  ∃ activityType input taskQueue node,
    event.body = .activityScheduled activityId activityType input taskQueue node

/-- The activity has no outcome, or its first one follows its scheduling and is final. -/
def FirstOutcomeFinal (segment : List Event) (activityId : ActivityId) : Prop :=
  ∀ before outcome after, segment = before ++ outcome :: after →
    isActivityOutcome activityId outcome →
    (∀ earlier ∈ before, isActivityOutcome activityId earlier = false) →
      (∃ earlier ∈ before, isScheduledOf activityId earlier) ∧ IsFinal activityId outcome after

/-- The collect path, the dedup predicate and the cursor agree on a member. -/
structure CollectAgrees (segment : List Event) (cursor : HistoryCursor) (ordinal : ℕ) : Prop where
  /-- A recorded terminal is found exactly when the cursor matches. -/
  terminal : (∃ state, recordedTerminal segment ordinal = .ok (some state)) ↔
    ∃ events, resolveActivityLive cursor ⟨ordinal⟩ = .matched events
  /-- The ordinal is resolved exactly when the cursor matches. -/
  resolved : ordinalIsResolved segment ⟨ordinal⟩ ↔
    ∃ events, resolveActivityLive cursor ⟨ordinal⟩ = .matched events
  /-- The outcome read is the last event of the match. -/
  outcome : ∀ events, resolveActivityLive cursor ⟨ordinal⟩ = .matched events →
    firstOutcome segment ⟨ordinal⟩ = events.getLast?

variable {activityId : ActivityId} {segment events after before : List Event}
  {outcome event : Event} {index ordinal : ℕ}

theorem isActivityOutcome_of_settles {t : ℕ}
    (h : settles events activityId t event) : isActivityOutcome activityId event := by
  obtain ⟨envelope, body⟩ := event
  cases body <;> simp_all [settles, isActivityOutcome]

/-- Where a history is split at an outcome, the walk ends there exactly when the
outcome is final, but for the completion's text. -/
theorem settlesAt_split :
    settlesAt (before ++ outcome :: after) activityId before.length ↔
      isActivityOutcome activityId outcome ∧
        ∀ id error attempt, outcome.body = .activityFailed id error attempt →
          error.isRetryable = false ∧
          (∀ later ∈ after, isReopenOf activityId later = false) ∧
          ∀ later ∈ after, isActivityAttemptOrOutcome activityId later = false := by
  have at_outcome : (before ++ outcome :: after)[before.length]? = some outcome := by simp
  have behind : (before ++ outcome :: after).drop (before.length + 1) = after := by simp
  rw [settlesAt, at_outcome, Option.any_some]
  obtain ⟨envelope, body⟩ := outcome
  cases body <;> simp only [settles, isActivityOutcome, reduceCtorEq, activityReopenedAfter,
    hasLaterActivityAttemptOrOutcome, behind, EventBody.activityFailed.injEq] <;> simp [and_assoc]

/-- The last event of a walk is the one that settles the activity. -/
theorem getLast?_eventsAt_span {last : ℕ}
    (least : IsLeast {t | index + 1 ≤ t ∧ settlesAt events activityId t} last) :
    (eventsAt events ([index] ++ activitySpan events activityId (index + 1) last)).getLast? =
      events[last]? := by
  have hle : index + 1 ≤ last := least.1.1
  have hlt := lt_length_of_settlesAt least.1.2
  have split : activitySpan events activityId (index + 1) last =
      (List.range' (index + 1) (last - (index + 1))).filter (belongsAt events activityId) ++ [last] := by
    rw [activitySpan, show last + 1 - (index + 1) = last - (index + 1) + 1 by omega,
      List.range'_concat,
      List.filter_append, show index + 1 + 1 * (last - (index + 1)) = last by omega]
    simp [belongsAt_of_settlesAt least.1.2]
  rw [split, eventsAt, List.filterMap_append, List.filterMap_append, List.getLast?_append,
    List.getLast?_append]
  simp [List.getElem?_eq_getElem hlt]

/-- A history with increasing sequence numbers holds no event twice. -/
theorem nodup_of_increasing
    (increasing : segment.Pairwise fun a b => a.seq < b.seq) : segment.Nodup :=
  increasing.imp fun h heq => by simp [heq] at h

/-- With the first outcome final, the cursor's match ends with it. -/
theorem resolveActivityLive_of_final
    (first : IsLeast {j | schedulesAt (before ++ outcome :: after) activityId j} index)
    (hbef : index < before.length)
    (none_earlier : ∀ earlier ∈ before, isActivityOutcome activityId earlier = false)
    (settled : settlesAt (before ++ outcome :: after) activityId before.length) :
    ∃ events, resolveActivityLive (start (before ++ outcome :: after)) activityId =
      .matched events ∧
      events.getLast? = some outcome := by
  have least : IsLeast {t | index + 1 ≤ t ∧ settlesAt (before ++ outcome :: after) activityId t}
      before.length := by
    refine ⟨⟨hbef, settled⟩, fun t ht => not_lt.mp fun hlt => ?_⟩
    -- an earlier settling index would hold an earlier outcome
    obtain ⟨event, at_index, hs⟩ := (Option.any_eq_true _ _).mp ht.2
    rw [List.getElem?_append_left hlt] at at_index
    have := none_earlier event (List.mem_of_getElem? at_index)
    simp [isActivityOutcome_of_settles hs] at this
  rw [resolveActivityLive_eq first]
  rcases walkActivity_eq (before ++ outcome :: after) activityId (index + 1) [index] with
    ⟨last, hlast, hwalk⟩ | ⟨hnone, -⟩
  · obtain rfl := hlast.unique least
    rw [hwalk]
    exact ⟨_, rfl, by rw [getLast?_eventsAt_span hlast]; simp⟩
  · exact absurd settled (hnone _ hbef)

/-- A match of the cursor ends with the event that settles the activity. -/
theorem exists_settlesAt_of_matched (first : IsLeast {j | schedulesAt segment activityId j} index)
    (matched : resolveActivityLive (start segment) activityId = .matched events) :
    ∃ last, index < last ∧ settlesAt segment activityId last ∧
      events.getLast? = segment[last]? := by
  rw [resolveActivityLive_eq first] at matched
  rcases walkActivity_eq segment activityId (index + 1) [index] with ⟨last, hlast,
    hwalk⟩ | ⟨-, hwalk⟩
  · rw [hwalk] at matched
    obtain rfl := CursorResolveResult.matched.inj matched
    exact ⟨last, hlast.1.1, hlast.1.2, getLast?_eventsAt_span hlast⟩
  · rw [hwalk] at matched
    cases matched

/-- A member without an outcome is unresolved for both paths. -/
theorem collectAgrees_of_no_outcome (first : IsLeast {j | schedulesAt segment ⟨ordinal⟩ j} index)
    (hnone : firstOutcome segment ⟨ordinal⟩ = none) :
    CollectAgrees segment (start segment) ordinal := by
  have unmatched : ¬ ∃ events, resolveActivityLive (start segment) ⟨ordinal⟩ = .matched events := by
    rintro ⟨events, hmatch⟩
    obtain ⟨last, -, hs, -⟩ := exists_settlesAt_of_matched first hmatch
    obtain ⟨event, at_index, hs⟩ := (Option.any_eq_true _ _).mp hs
    have := List.find?_eq_none.mp hnone event (List.mem_of_getElem? at_index)
    exact this (isActivityOutcome_of_settles hs)
  refine ⟨⟨?_, fun h => absurd h unmatched⟩, ⟨?_, fun h => absurd h unmatched⟩,
    fun events h => absurd ⟨events, h⟩ unmatched⟩
  · rintro ⟨state, hst⟩
    rw [recordedTerminal_eq, hnone] at hst
    cases hst
  · intro h
    rw [ordinalIsResolved_iff, hnone] at h
    cases h

theorem schedulesAt_of_get {k : ℕ} (at_index : segment[k]? = some event)
    (scheduled : isScheduledOf activityId event) : schedulesAt segment activityId k := by
  obtain ⟨activityType, input, taskQueue, node, hbody⟩ := scheduled
  obtain ⟨envelope, body⟩ := event
  obtain rfl : body = _ := hbody
  exact schedulesAt_iff.mpr ⟨_, _, _, _, _, at_index⟩

/-- A final outcome gives its member a state. -/
theorem exists_state_of_isFinal
    (hout : isActivityOutcome activityId outcome) (final : IsFinal activityId outcome after) :
    ∃ state, ordinalStateOf outcome = .ok (some state) := by
  obtain ⟨envelope, body⟩ := outcome
  cases body <;> try cases hout
  case activityCompleted =>
    obtain ⟨text, htext⟩ := final
    exact ⟨.completed text, by simp [ordinalStateOf, htext, Except.map]⟩
  case activityFailed => exact ⟨_, rfl⟩
  case activityCancelled => exact ⟨_, rfl⟩

/-- Where collect and replay agree, the first outcome is the one that settles the member. -/
theorem firstOutcomeFinal_of_agrees (increasing : segment.Pairwise fun a b => a.seq < b.seq)
    (first : IsLeast {j | schedulesAt segment ⟨ordinal⟩ j} index)
    (agrees : CollectAgrees segment (start segment) ordinal) :
    FirstOutcomeFinal segment ⟨ordinal⟩ := by
  rintro before outcome after rfl hout hnone
  have hfst : firstOutcome (before ++ outcome :: after) ⟨ordinal⟩ = some outcome :=
    List.find?_eq_some_iff_append.mpr ⟨hout, before, after, rfl, by simpa using hnone⟩
  obtain ⟨events, hmatch⟩ :=
    agrees.resolved.mp ((ordinalIsResolved_iff _ _).mpr (by rw [hfst]; rfl))
  obtain ⟨last, hlt, hs, hlast⟩ := exists_settlesAt_of_matched first hmatch
  -- the match ends with the first outcome, which stands at one index only
  have hget : (before ++ outcome :: after)[last]? =
      (before ++ outcome :: after)[before.length]? := by
    rw [← hlast, ← agrees.outcome events hmatch, hfst]
    simp
  obtain rfl :=
    (List.getElem?_inj (lt_length_of_settlesAt hs) (nodup_of_increasing increasing)).mp hget
  obtain ⟨-, hfinal⟩ := settlesAt_split.mp hs
  refine ⟨?_, ?_⟩
  · obtain ⟨envelope, activityType, input, taskQueue, node, at_index⟩ := schedulesAt_iff.mp first.1
    rw [List.getElem?_append_left hlt] at at_index
    exact ⟨_, List.mem_of_getElem? at_index, activityType, input, taskQueue, node, rfl⟩
  · obtain ⟨state, hst⟩ := agrees.terminal.mpr ⟨events, hmatch⟩
    rw [recordedTerminal_eq, hfst] at hst
    obtain ⟨envelope, body⟩ := outcome
    cases body <;> simp only [IsFinal]
    · rename_i result attempt
      cases htext : payloadText result with
      | error message => simp [ordinalStateOf, htext, Except.map] at hst
      | ok text => exact ⟨text, htext⟩
    · exact hfinal _ _ _ rfl

/-- A final first outcome that follows the scheduling is what all three paths find. -/
theorem collectAgrees_of_final (first : IsLeast {j | schedulesAt segment ⟨ordinal⟩ j} index)
    (final : FirstOutcomeFinal segment ⟨ordinal⟩) :
    CollectAgrees segment (start segment) ordinal := by
  cases hfst : firstOutcome segment ⟨ordinal⟩ with
  | none => exact collectAgrees_of_no_outcome first hfst
  | some outcome =>
    obtain ⟨hout, before, after, rfl, hnone⟩ := List.find?_eq_some_iff_append.mp hfst
    have none_earlier : ∀ earlier ∈ before, isActivityOutcome ⟨ordinal⟩ earlier = false := by
      simpa using hnone
    obtain ⟨⟨earlier, hmem, hsched⟩, hfinal⟩ := final before outcome after rfl hout none_earlier
    have hbef : index < before.length := by
      obtain ⟨k, hk⟩ := List.getElem?_of_mem hmem
      have hlt := (List.getElem?_eq_some_iff.mp hk).1
      refine (first.2 (schedulesAt_of_get ?_ hsched)).trans_lt hlt
      rwa [List.getElem?_append_left hlt]
    have settled : settlesAt (before ++ outcome :: after) ⟨ordinal⟩ before.length :=
      settlesAt_split.mpr ⟨hout, fun id error attempt hbody => by simpa [IsFinal, hbody] using hfinal⟩
    obtain ⟨events, hmatch, hlast⟩ := resolveActivityLive_of_final first hbef none_earlier settled
    refine ⟨⟨fun _ => ⟨events, hmatch⟩, fun _ => ?_⟩, ⟨fun _ => ⟨events, hmatch⟩, fun _ => ?_⟩,
      fun events' hmatch' => ?_⟩
    · rw [recordedTerminal_eq, hfst]
      exact exists_state_of_isFinal hout hfinal
    · rw [ordinalIsResolved_iff, hfst]
      rfl
    · obtain rfl := CursorResolveResult.matched.inj (hmatch.symm.trans hmatch')
      rw [hfst, hlast]

/-- **When collect and replay agree.** For a scheduled member of a run's segment,
the collect path, the dedup predicate and the cursor agree, on whether the member
is resolved and on the outcome event, exactly when the member has no outcome or
its first outcome follows its scheduling and is final. -/
theorem collect_agrees_iff {segment : List Event} {cursor : HistoryCursor} {ordinal : ℕ}
    (increasing : segment.Pairwise fun a b => a.seq < b.seq)
    (opened : HistoryCursor.new segment = .ok cursor)
    (scheduled : ∃ event ∈ segment, isScheduledOf ⟨ordinal⟩ event) :
    CollectAgrees segment cursor ordinal ↔ FirstOutcomeFinal segment ⟨ordinal⟩ := by
  obtain ⟨-, rfl⟩ := (new_eq_ok_iff _ _).mp opened
  obtain ⟨index, first⟩ := exists_isLeast_schedulesAt scheduled
  exact ⟨firstOutcomeFinal_of_agrees increasing first, collectAgrees_of_final first⟩

/-- A fan-out member that failed for good. -/
def failedMember : List Event :=
  numbered
    [.workflowStarted "order" .empty ⟨0⟩ none ⟨"v1"⟩,
     .activityScheduled ⟨0⟩ "charge" .empty "default" none,
     .activityStarted ⟨0⟩ 1,
     .activityFailed ⟨0⟩ ⟨.terminal, "declined", none⟩ 1]

theorem collect_agrees_failedMember :
    CollectAgrees failedMember (start failedMember) 0 ∧ FirstOutcomeFinal failedMember ⟨0⟩ := by
  have opened : HistoryCursor.new failedMember = .ok (start failedMember) := rfl
  have live : resolveActivityLive (start failedMember) ⟨0⟩ = .matched (failedMember.drop 1) := rfl
  have agrees : CollectAgrees failedMember (start failedMember) 0 := by
    refine ⟨⟨fun _ => ⟨_, live⟩, fun _ => ⟨_, rfl⟩⟩, ⟨fun _ => ⟨_, live⟩, fun _ => rfl⟩, fun events h => ?_⟩
    obtain rfl := CursorResolveResult.matched.inj (live.symm.trans h)
    rfl
  exact ⟨agrees, (collect_agrees_iff (by decide) opened ⟨_, .tail _ (.head _), _, _, _, _, rfl⟩).mp
      agrees⟩

/-- A fan-out member between two attempts of its retry trail. -/
def retryingMember : List Event :=
  numbered
    [.workflowStarted "order" .empty ⟨0⟩ none ⟨"v1"⟩,
     .activityScheduled ⟨0⟩ "charge" .empty "default" none,
     .activityStarted ⟨0⟩ 1,
     .activityFailed ⟨0⟩ ⟨.retryable, "timeout", none⟩ 1]

/-- The failed attempt is a terminal for collect and dedup, and none for the cursor. -/
theorem retryingMember_disagrees :
    HistoryCursor.new retryingMember = .ok (start retryingMember) ∧
      recordedTerminal retryingMember 0 = .ok (some (.failed "timeout")) ∧
      ordinalIsResolved retryingMember ⟨0⟩ = true ∧
      resolveActivityLive (start retryingMember) ⟨0⟩ = .exhausted ∧
      ¬ CollectAgrees retryingMember (start retryingMember) 0 := by
  have live : resolveActivityLive (start retryingMember) ⟨0⟩ = .exhausted := rfl
  refine ⟨rfl, rfl, rfl, live, fun agrees => ?_⟩
  obtain ⟨events, hmatch⟩ := agrees.resolved.mp rfl
  rw [live] at hmatch
  cases hmatch

end Aion
