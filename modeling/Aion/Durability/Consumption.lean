import Aion.Durability.Ledger
import Mathlib.Data.List.Sort

/-!
# Consumption is exact

Over any run of `resolve_next` and `resolve_child_terminal` calls on a fresh cursor,
with any families, keys and child identifiers: no index is delivered twice, nothing
matchable is skipped, a call that does not match consumes nothing, and each call
looks at the least unconsumed matchable event of the whole history
(`consumption_exact`).

An activity's walk and a timer's pair take indices they do not look up in the
consumption bits. They are still never delivered again, because the indices taken
are closed (`Closed`): with an activity's event every earlier scheduling event of
that activity is taken, and with a timer's outcome the event before it.
-/

namespace Aion

open HistoryCursor

/-! ### The taken indices are closed -/

/-- The taken indices contain the events that anchor them. -/
structure Closed (events : List Event) (taken : Set ℕ) : Prop where
  /-- With an activity's event, its earlier scheduling events. -/
  scheduled : ∀ {activityId j}, j ∈ taken → belongsAt events activityId j →
    ∀ i < j, schedulesAt events activityId i → i ∈ taken
  /-- With a timer's outcome, the event before it. -/
  started : ∀ {j}, j + 1 ∈ taken → timerOutcomeAt events (j + 1) → j ∈ taken

theorem closed_empty (events : List Event) : Closed events ∅ where
  scheduled h := absurd h (Set.notMem_empty _)
  started h := absurd h (Set.notMem_empty _)

variable {a : ActivityId} {j : ℕ}

theorem belongsAt_unique {events : List Event} {b : ActivityId}
    (ha : belongsAt events a j) (hb : belongsAt events b j) : a = b := by
  obtain ⟨⟨envelope, body⟩, at_index, ha⟩ := (Option.any_eq_true _ _).mp ha
  simp only [belongsAt, at_index, Option.any_some] at hb
  cases body <;> simp_all [isActivityEvent]

theorem not_timerOutcomeAt_of_belongsAt {events : List Event}
    (ha : belongsAt events a j) : ¬ timerOutcomeAt events j := by
  obtain ⟨⟨envelope, body⟩, at_index, ha⟩ := (Option.any_eq_true _ _).mp ha
  cases body <;> simp_all [isActivityEvent, timerOutcomeAt, isTimerOutcome]

theorem matchable_of_schedulesAt {events : List Event} {i : ℕ}
    (h : schedulesAt events a i) : Matchable events i := by
  obtain ⟨envelope, activityType, input, taskQueue, node, at_index⟩ := schedulesAt_iff.mp h
  simp [Matchable, at_index, familyForEvent]

section Step

variable {events : List Event} {taken : Set ℕ} {call : CursorCall} {index : ℕ} {indices : List ℕ}

/-- A matched call delivers nothing that was delivered before. -/
theorem Closed.fresh (closed : Closed events taken)
    (least : IsLeast {i | Pending events taken i} index) (accepts : call.accepts events index)
    (takes : call.takes events index = some indices) : ∀ j ∈ indices, j ∉ taken := by
  have untaken : index ∉ taken := least.1.2
  rcases takes_cases accepts takes with
    ⟨activityId, last, -, hs, -, rfl⟩ | ⟨timerId, _, outcome, -, -, -, at_next, hout, rfl⟩ | ⟨_, -, -, rfl⟩
  · intro j hj hjt
    obtain ⟨hle, -, hb⟩ := mem_activitySpan.mp hj
    rcases Nat.eq_or_lt_of_le hle with rfl | hlt
    · exact untaken hjt
    · exact untaken (closed.scheduled hjt hb index hlt hs)
  · intro j hj hjt
    rcases List.mem_pair.mp hj with rfl | rfl
    · exact untaken hjt
    · exact untaken (closed.started hjt (timerOutcomeAt_of_isOutcome at_next hout))
  · intro j hj
    exact List.mem_singleton.mp hj ▸ untaken

/-- A matched call keeps the taken indices closed. -/
theorem Closed.matched (closed : Closed events taken)
    (least : IsLeast {i | Pending events taken i} index) (accepts : call.accepts events index)
    (takes : call.takes events index = some indices) :
    Closed events (taken ∪ {i | i ∈ indices}) := by
  -- indices that hold neither an activity's event nor a timer's outcome add no obligation
  have plain {event : Event} (at_index : events[index]? = some event) (hp : isPlain event) :
      (∀ a, ¬ belongsAt events a index) ∧ ¬ timerOutcomeAt events index := by
    simp [belongsAt, timerOutcomeAt, at_index, hp.1, hp.2]
  rcases takes_cases accepts takes with
    ⟨a, last, -, hs, hlast, rfl⟩ | ⟨timerId, event, outcome, -, at_index, hp, at_next, hout, rfl⟩ |
      ⟨event, at_index, hp, rfl⟩
  · refine ⟨fun {b j} hj hb i hi hsi => ?_, fun {j} hj hout => ?_⟩
    · rcases hj with hj | hj
      · exact .inl (closed.scheduled hj hb i hi hsi)
      · obtain ⟨-, hjl, hja⟩ := mem_activitySpan.mp hj
        obtain rfl := belongsAt_unique hb hja
        rcases lt_or_ge i index with below | above
        · -- a scheduling event below the least pending one is taken
          refine .inl (by_contra fun untaken => ?_)
          exact absurd (least.2 ⟨matchable_of_schedulesAt hsi, untaken⟩) (not_le.mpr below)
        · exact .inr (mem_activitySpan.mpr ⟨above, by omega, belongsAt_of_schedulesAt hsi⟩)
    · rcases hj with hj | hj
      · exact .inl (closed.started hj hout)
      · exact absurd hout (not_timerOutcomeAt_of_belongsAt (mem_activitySpan.mp hj).2.2)
  · have next := timerOutcomeAt_of_isOutcome at_next hout
    refine ⟨fun {b j} hj hb i hi hsi => ?_, fun {j} hj hout => ?_⟩
    · rcases hj with hj | hj
      · exact .inl (closed.scheduled hj hb i hi hsi)
      · rcases List.mem_pair.mp hj with rfl | rfl
        · exact absurd hb ((plain at_index hp).1 b)
        · exact absurd next (not_timerOutcomeAt_of_belongsAt hb)
    · rcases hj with hj | hj
      · exact .inl (closed.started hj hout)
      · rcases List.mem_pair.mp hj with hj | hj
        · exact absurd (hj ▸ hout) (plain at_index hp).2
        · exact .inr (by simp at hj; simp [hj])
  · refine ⟨fun {b j} hj hb i hi hsi => ?_, fun {j} hj hout => ?_⟩
    · rcases hj with hj | hj
      · exact .inl (closed.scheduled hj hb i hi hsi)
      · exact absurd (List.mem_singleton.mp hj ▸ hb) ((plain at_index hp).1 b)
    · rcases hj with hj | hj
      · exact .inl (closed.started hj hout)
      · exact absurd (List.mem_singleton.mp hj ▸ hout) (plain at_index hp).2

/-- Every step of the ledger keeps the taken indices closed. -/
theorem LedgerStep.closed {result : CallResult} {taken' : Set ℕ}
    (step : LedgerStep events taken call result taken') (closed : Closed events taken) :
    Closed events taken' := by
  cases step with
  | exhausted => exact closed
  | unfinished => exact closed
  | matched least accepts takes => exact closed.matched least accepts takes
  | mismatch => exact closed

/-- The ledger only grows. -/
theorem LedgerStep.subset {result : CallResult} {taken' : Set ℕ}
    (step : LedgerStep events taken call result taken') : taken ⊆ taken' := by
  cases step with
  | matched => exact Set.subset_union_left
  | _ => exact subset_rfl

end Step

/-! ### Runs of the cursor -/

/-- A call of the cursor with its result and the cursors around it. -/
abbrev CursorTransition := Machine.Transition HistoryCursor CursorCall CallResult

/-- The indices a call newly consumed, in order. -/
def newlyConsumed (t : CursorTransition) : List ℕ :=
  (List.range t.before.events.length).filter fun j =>
    t.after.consumed[j]? == some true && t.before.consumed[j]? != some true

/-- One call of a run over `events` consumed exactly what it delivered. -/
structure ExactCall (events : List Event) (t : CursorTransition) : Prop where
  /-- A matched result is made of the events at the newly consumed indices, in order. -/
  matched : ∀ delivered, t.output.matched? = some delivered →
    delivered = eventsAt events (newlyConsumed t)
  /-- A mismatch and an exhausted call consume nothing. -/
  unmatched : t.output.matched? = none → t.after.taken = t.before.taken
  /-- Below the position every event is consumed or not matchable. -/
  swept : ∀ j < t.after.position, j ∈ t.after.taken ∨ ¬ Matchable events j
  /-- The call looks at the least unconsumed matchable event of the whole history. -/
  considers : ∀ i, t.before.nextMatchableIndex = some i ↔
    IsLeast {j | Matchable events j ∧ j ∉ t.before.taken} i
  /-- What a matched call delivers starts at the event it looked at. -/
  delivers : t.output.matched?.isSome → (newlyConsumed t).head? = t.before.nextMatchableIndex
  /-- A mismatch reports the event it looked at. -/
  reports : ∀ found, t.output.mismatch? = some found → ∃ i event,
    t.before.nextMatchableIndex = some i ∧ events[i]? = some event ∧
      found = descriptorOf events i event

variable {t : CursorTransition}

theorem mem_newlyConsumed :
    j ∈ newlyConsumed t ↔ j < t.before.events.length ∧ j ∈ t.after.taken ∧ j ∉ t.before.taken := by
  simp [newlyConsumed, taken]

/-- When a call adds `indices`, all new, to what is taken, it newly consumed them. -/
theorem newlyConsumed_eq {indices : List ℕ} (increasing : indices.Pairwise (· < ·))
    (bounds : ∀ j ∈ indices, j < t.before.events.length) (fresh : ∀ j ∈ indices, j ∉ t.before.taken)
    (grown : t.after.taken = t.before.taken ∪ {j | j ∈ indices}) : newlyConsumed t = indices := by
  have sorted : (newlyConsumed t).Pairwise (· < ·) := List.Pairwise.filter _ List.pairwise_lt_range
  refine sorted.eq_of_mem_iff increasing fun {j} => ?_
  rw [mem_newlyConsumed, grown]
  constructor
  · rintro ⟨-, hj | hj, hnot⟩
    · exact absurd hj hnot
    · exact hj
  · intro hj
    exact ⟨bounds j hj, .inr hj, fresh j hj⟩

/-- What holds of the cursor all along a run over `events`. -/
structure Tracking (events : List Event) (c : HistoryCursor) : Prop where
  /-- The history never changes. -/
  events_eq : c.events = events
  /-- Nothing pending lies below the position. -/
  swept : c.Swept
  /-- The taken indices are closed. -/
  closed : Closed events c.taken

theorem tracking_start (events : List Event) : Tracking events (start events) where
  events_eq := rfl
  swept := swept_start events
  closed := taken_start events ▸ closed_empty events

/-- One call keeps the invariant and is exact. -/
theorem Tracking.call {events : List Event} {c : HistoryCursor} (tracking : Tracking events c)
    (call : CursorCall) :
    Tracking events (c.call call).2 ∧ c.taken ⊆ (c.call call).2.taken ∧
      ExactCall events ⟨c, call, (c.call call).1, (c.call call).2⟩ := by
  obtain ⟨hev, swept', step⟩ := call_step tracking.swept call
  obtain ⟨rfl, swept, closed⟩ := tracking
  have considers := nextMatchableIndex_eq_some_iff_isLeast swept
  have settled : ∀ j < (c.call call).2.position, j ∈ (c.call call).2.taken ∨ ¬ Matchable c.events j := by
    intro j hj
    by_contra hnot
    push Not at hnot
    exact swept' j hj ⟨hev ▸ hnot.2, hnot.1⟩
  refine ⟨⟨hev, swept', step.closed closed⟩, step.subset, ?_⟩
  generalize (c.call call).1 = result at step
  generalize (c.call call).2 = c' at *
  generalize htaken : c'.taken = taken' at *
  cases step with
  | exhausted none =>
    exact ⟨by simp, fun _ => htaken, htaken ▸ settled, considers, by simp, by simp⟩
  | unfinished least accepts unsettled =>
    exact ⟨by simp, fun _ => htaken, htaken ▸ settled, considers, by simp, by simp⟩
  | mismatch least at_index rejects =>
    refine ⟨by simp, fun _ => htaken, htaken ▸ settled, considers, by simp, fun found hfd => ?_⟩
    exact ⟨_, _, (considers _).mpr least, at_index, by simpa using hfd.symm⟩
  | @matched index indices least accepts takes =>
    obtain ⟨increasing, head, bounds⟩ := takes_increasing accepts takes least.1.1.lt_length
    have newly : newlyConsumed ⟨c, call, call.matched (eventsAt c.events indices), c'⟩ = indices :=
      newlyConsumed_eq increasing bounds (closed.fresh least accepts takes) htaken
    refine ⟨fun delivered hd => ?_, by simp, htaken ▸ settled, considers, fun _ => ?_, fun found hfd => ?_⟩
    · simp only [CursorCall.matched?_matched, Option.some.injEq] at hd
      rw [newly, hd]
    · rw [newly, head, (considers index).mpr least]
    · simp at hfd

/-- **Consumption is exact**: over every run of calls from a fresh cursor, each call
is exact and no two calls deliver the same index. -/
theorem consumption_exact {events : List Event} {cursor : HistoryCursor}
    (fresh : HistoryCursor.new events = .ok cursor) (calls : List CursorCall) :
    (∀ t ∈ Machine.trace HistoryCursor.call cursor calls, ExactCall events t) ∧
      (Machine.trace HistoryCursor.call cursor calls).Pairwise fun t u =>
        ∀ j ∈ newlyConsumed t, j ∉ newlyConsumed u := by
  obtain ⟨-, rfl⟩ := (new_eq_ok_iff events cursor).mp fresh
  have exact_ := Machine.forall_trace (Tracking events)
    (fun c call result c' => ExactCall events ⟨c, call, result, c'⟩)
    (fun c call h => ⟨(h.call call).1, (h.call call).2.2⟩) (tracking_start events) calls
  have grows := (Machine.pairwise_trace (Tracking events) HistoryCursor.taken
    (fun c call h => ⟨(h.call call).1, (h.call call).2.1⟩) (tracking_start events) calls).2
  refine ⟨fun t ht => (exact_ t ht).2.2, grows.imp fun {t u} hle j hj hj' => ?_⟩
  exact (mem_newlyConsumed.mp hj').2.2 (hle (mem_newlyConsumed.mp hj).2.1)

/-- Two activities in flight at once; the second settles first. -/
def interleaved : List Event :=
  numbered
    [.activityScheduled ⟨0⟩ "charge" .empty "default" none,
     .activityScheduled ⟨1⟩ "ship" .empty "default" none,
     .activityCompleted ⟨1⟩ .empty 1,
     .activityCompleted ⟨0⟩ .empty 1]

theorem consumption_exact_interleaved :
    HistoryCursor.new interleaved = .ok (start interleaved) ∧
      (Machine.trace HistoryCursor.call (start interleaved)
        [.next .activity (.activity 0), .next .activity (.activity 1)]).Pairwise fun t u =>
          ∀ j ∈ newlyConsumed t, j ∉ newlyConsumed u := by
  have fresh : HistoryCursor.new interleaved = .ok (start interleaved) := rfl
  exact ⟨fresh, (consumption_exact fresh _).2⟩

end Aion
