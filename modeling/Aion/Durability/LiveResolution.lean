import Aion.Durability.Consumption
import Aion.Durability.Resolver

/-!
# Live resolution against strict replay

Recovery resolves a run's commands with one cursor. The live path builds a fresh
cursor for every command and skips it forward to the command's key
(`fast_forward_to_key`, `fast_forward_to_child_terminal`). The two agree on every
command that history can answer in one place only: one whose key occurs once, a
child with one recorded terminal, and the first use of an activity key
(`live_refines_strict`).

An activity key may occur on several scheduling events, since a reopen schedules
the activity again. All of them belong to the first span, unless that span is
already settled; a command stream that uses the key a second time then resolves
to the later span, which the live path never reaches (`live_repeats_first_span`).
-/

namespace Aion

open HistoryCursor

/-! ### Fast forwarding -/

/-- Fast forwarding stops before the first pending event that satisfies `stop`. -/
theorem fastForwardLoop_spec (stop : List Event → ℕ → Bool) (fuel : ℕ) (c : HistoryCursor)
    (enough : c.events.length < fuel + c.position) :
    (fastForwardLoop stop fuel c).events = c.events ∧
      ∀ i, (fastForwardLoop stop fuel c).nextMatchableIndex = some i ↔
        IsLeast {j | c.position ≤ j ∧ Pending c.events c.taken j ∧ stop c.events j} i := by
  induction fuel generalizing c with
  | zero =>
    refine ⟨rfl, fun i => ⟨fun h => ?_, fun h => ?_⟩⟩
    · obtain ⟨hle, hpend, -⟩ := (c.nextMatchableIndex_eq_some_iff i).mp h
      have := hpend.1.lt_length
      omega
    · have := h.1.2.1.1.lt_length
      have := h.1.1
      omega
  | succ fuel ih =>
    rw [fastForwardLoop]
    cases hnext : c.nextMatchableIndex with
    | none =>
      have hnone := c.nextMatchableIndex_eq_none_iff.mp hnext
      refine ⟨rfl, fun i => ?_⟩
      simp only [hnext, reduceCtorEq, false_iff]
      exact fun h => hnone i h.1.1 h.1.2.1
    | some index =>
      obtain ⟨hle, hpend, hfst⟩ := (c.nextMatchableIndex_eq_some_iff index).mp hnext
      dsimp only
      split_ifs with hstop
      · refine ⟨rfl, fun i => ?_⟩
        have least : IsLeast {j | c.position ≤ j ∧ Pending c.events c.taken j ∧ stop c.events j} index :=
          ⟨⟨hle, hpend, hstop⟩, fun j hj => not_lt.mp fun hlt => hfst j hj.1 hlt hj.2.1⟩
        rw [hnext, Option.some.injEq]
        exact ⟨fun h => h ▸ least, fun h => least.unique h⟩
      · -- skip `index`: it is pending but not the one looked for
        have enough' : c.events.length < fuel + (index + 1) := by omega
        obtain ⟨hev, hih⟩ := ih { c with position := index + 1 } enough'
        refine ⟨hev, fun i => (hih i).trans ?_⟩
        have hset : {j | index + 1 ≤ j ∧ Pending c.events c.taken j ∧ stop c.events j} =
            {j | c.position ≤ j ∧ Pending c.events c.taken j ∧ stop c.events j} := by
          ext j
          constructor
          · rintro ⟨hj, hp, hs⟩
            exact ⟨by omega, hp, hs⟩
          · rintro ⟨hj, hp, hs⟩
            refine ⟨?_, hp, hs⟩
            rcases Nat.lt_trichotomy j index with hlt | rfl | hgt
            · exact absurd hp (hfst j hj hlt)
            · exact absurd hs hstop
            · omega
        exact iff_of_eq (congrArg (IsLeast · i) hset)

/-- The live path's cursor for a call: skipped forward to what the call looks for. -/
def fastForwarded (c : HistoryCursor) : CursorCall → HistoryCursor
  | .next _ key => c.fastForwardToKey key
  | .childTerminal childWorkflowId => c.fastForwardToChildTerminal childWorkflowId

/-- The event at `index` is one the call looks for. -/
def looksFor (events : List Event) (index : ℕ) : CursorCall → Bool
  | .next _ key => keyForEvent events index == some key
  | .childTerminal childWorkflowId =>
    events[index]?.any fun event => isChildTerminalFor event childWorkflowId

variable {events : List Event} {activityId : ActivityId} {call : CursorCall} {index : ℕ}
  {r : Resolver}

theorem matchable_of_looksFor (h : looksFor events index call) : Matchable events index := by
  cases call with
  | next family key =>
    simp only [looksFor, keyForEvent, beq_iff_eq] at h
    cases hi : events[index]? with
    | none => simp [hi] at h
    | some event =>
      obtain ⟨envelope, body⟩ := event
      cases body <;> simp_all [Matchable, familyForEvent, keyForPositionlessEvent]
  | childTerminal child =>
    obtain ⟨⟨envelope, body⟩, hi, hterm⟩ := (Option.any_eq_true _ _).mp h
    cases body <;> simp_all [Matchable, familyForEvent, isChildTerminalFor]

theorem looksFor_of_accepts (h : call.accepts events index) : looksFor events index call := by
  cases call with
  | next family key =>
    simp only [CursorCall.accepts, Bool.and_eq_true] at h
    exact h.2
  | childTerminal child => exact h

/-- The fresh cursor, fast forwarded, stands before the first event the call looks for. -/
theorem nextMatchableIndex_fastForwarded (events : List Event) (call : CursorCall) (i : ℕ) :
    (fastForwarded (start events) call).events = events ∧
      ((fastForwarded (start events) call).nextMatchableIndex = some i ↔
        IsLeast {j | looksFor events j call} i) := by
  have key (stop : List Event → ℕ → Bool) (hstop : ∀ j, stop events j = looksFor events j call) :
      (fastForwardLoop stop (events.length + 1) (start events)).events = events ∧
        ((fastForwardLoop stop (events.length + 1) (start events)).nextMatchableIndex = some i ↔
          IsLeast {j | looksFor events j call} i) := by
    obtain ⟨hev, hnext⟩ := fastForwardLoop_spec stop (events.length + 1) (start events)
      (show events.length < events.length + 1 + 0 by omega)
    refine ⟨hev, (hnext i).trans (iff_of_eq (congrArg (IsLeast · i) ?_))⟩
    ext j
    constructor
    · rintro ⟨-, -, hs⟩
      exact (hstop j).symm.trans hs
    · intro hs
      have hpend : Pending events (start events).taken j :=
        ⟨matchable_of_looksFor hs, by rw [taken_start]; exact Set.notMem_empty j⟩
      exact ⟨Nat.zero_le j, hpend, (hstop j).trans hs⟩
  cases call with
  | next family expectedKey => exact key _ fun j => rfl
  | childTerminal child => exact key _ fun j => rfl

/-- The live path's answer for an activity: a fresh cursor, fast forwarded to its key. -/
def resolveActivityLive (cursor : HistoryCursor) (activityId : ActivityId) : CursorResolveResult :=
  ((cursor.fastForwardToKey (.activity activityId.sequencePosition)).resolveNext .activity
    (.activity activityId.sequencePosition)).1

/-- **The live path resolves an activity** by the walk from its first scheduling event. -/
theorem resolveActivityLive_eq
    (first : IsLeast {j | schedulesAt events activityId j} index) :
    resolveActivityLive (start events) activityId =
      match walkActivity events activityId (events.drop (index + 1)) (index + 1) [index] with
      | none => .exhausted
      | some indices => .matched (eventsAt events indices) := by
  have hset : {j | looksFor events j (.next .activity (.activity activityId.sequencePosition))} =
      {j | schedulesAt events activityId j} := by simp [looksFor, schedulesAt]
  obtain ⟨hev, hnext⟩ := nextMatchableIndex_fastForwarded events
    (.next .activity (.activity activityId.sequencePosition)) index
  have accepts : (CursorCall.next .activity (.activity activityId.sequencePosition)).accepts events index := by
    obtain ⟨envelope, activityType, input, taskQueue, node, at_index⟩ := schedulesAt_iff.mp first.1
    simp [CursorCall.accepts, at_index, familyForEvent, show keyForEvent events index =
      _ from first.1]
  have hcall := call_result_of_accepts hev (hnext.mpr (hset ▸ first)) accepts
  refine CallResult.next.inj (hcall.trans ?_)
  simp only [CursorCall.takes]
  cases walkActivity events activityId (events.drop (index + 1)) (index + 1) [index] <;> rfl

/-- A scheduled activity has a first scheduling event. -/
theorem exists_isLeast_schedulesAt {segment : List Event}
    (scheduled : ∃ event ∈ segment, ∃ activityType input taskQueue node,
      event.body = .activityScheduled activityId activityType input taskQueue node) :
    ∃ index, IsLeast {j | schedulesAt segment activityId j} index := by
  classical
  obtain ⟨⟨envelope, body⟩, hmem, activityType, input, taskQueue, node, rfl⟩ := scheduled
  obtain ⟨j, hj⟩ := List.getElem?_of_mem hmem
  have hex : ∃ j, schedulesAt segment activityId j := ⟨j, schedulesAt_iff.mpr ⟨_, _, _, _, _, hj⟩⟩
  exact ⟨Nat.find hex, Nat.find_spec hex, fun k hk => Nat.find_min' hex hk⟩

/-! ### Live and strict -/

/-- History answers the call in one place: its key occurs once, or it is the first
use of an activity key; a child has one recorded terminal. -/
def Unambiguous (history : List Event) (earlier : List Command) : CursorCall → Prop
  | .next _ key => (∃! i, keyForEvent history i = some key) ∨
      (∃ ordinal, key = .activity ordinal) ∧
        ∀ command ∈ earlier, Resolver.callOf command ≠ some (.next .activity key)
  | .childTerminal childWorkflowId =>
    ∃! i : ℕ, history[i]?.any fun event => isChildTerminalFor event childWorkflowId

/-- An activity's event is taken only by a call for that activity. -/
theorem LedgerStep.mem_of_belongsAt {taken taken' : Set ℕ}
    {result : CallResult} (step : LedgerStep events taken call result taken')
    {j : ℕ} (hj : j ∈ taken') (hb : belongsAt events activityId j) :
    j ∈ taken ∨ call = .next .activity (.activity activityId.sequencePosition) := by
  cases step with
  | exhausted => exact .inl hj
  | unfinished => exact .inl hj
  | mismatch => exact .inl hj
  | matched least accepts takes =>
    rcases hj with hj | hj
    · exact .inl hj
    · right
      rcases takes_cases accepts takes with
        ⟨a, last, hcall, -, -, rfl⟩ | ⟨timerId, event, outcome, -, at_index, plain, at_next, hout, rfl⟩ |
          ⟨event, at_index, plain, rfl⟩
      · rw [hcall, belongsAt_unique hb (mem_activitySpan.mp hj).2.2]
      · rcases List.mem_pair.mp hj with rfl | rfl
        · simp [belongsAt, at_index, plain.2] at hb
        · exact absurd (timerOutcomeAt_of_isOutcome at_next hout) (not_timerOutcomeAt_of_belongsAt hb)
      · obtain rfl := List.mem_singleton.mp hj
        simp [belongsAt, at_index, plain.2] at hb

/-- The strict resolver after some commands, over `events`. -/
theorem tracking_resolve (tracking : Tracking events r.cursor)
    (command : Command) : Tracking events (r.resolve command).2.cursor := by
  cases hcall : Resolver.callOf command with
  | none => simpa only [Resolver.resolve, Resolver.resolveWithConsumed_of_none hcall] using tracking
  | some call =>
    simp only [Resolver.resolve, Resolver.resolveWithConsumed_of_some hcall]
    exact (tracking.call call).1

/-- An activity's event that is taken after some commands was taken before them, or
one of them was for that activity. -/
theorem mem_taken_final {j : ℕ} (hb : belongsAt events activityId j) (earlier : List Command)
    (tracking : Tracking events r.cursor)
    (hj : j ∈ (Machine.final Resolver.resolve r earlier).cursor.taken) :
    j ∈ r.cursor.taken ∨ ∃ command ∈ earlier,
      Resolver.callOf command = some (.next .activity (.activity activityId.sequencePosition)) := by
  induction earlier generalizing r with
  | nil => exact .inl hj
  | cons command rest ih =>
    rcases ih (tracking_resolve tracking command) hj with hnow | ⟨later, hmem, hlat⟩
    · cases hcall : Resolver.callOf command with
      | none =>
        simp only [Resolver.resolve, Resolver.resolveWithConsumed_of_none hcall] at hnow
        exact .inl hnow
      | some call =>
        simp only [Resolver.resolve, Resolver.resolveWithConsumed_of_some hcall] at hnow
        have step := (call_step tracking.swept call).2.2
        rw [tracking.events_eq] at step
        rcases step.mem_of_belongsAt hnow hb with hbef | rfl
        · exact .inl hbef
        · exact .inr ⟨command, by simp, hcall⟩
    · exact .inr ⟨later, by simp [hmem], hlat⟩

/-- The first event an unambiguous call looks for is the one strict replay found. -/
theorem isLeast_looksFor {history : List Event} {workflowId : WorkflowId} {earlier : List Command}
    (unambiguous : Unambiguous history earlier call)
    (least : IsLeast {i | Pending history
      (Machine.final Resolver.resolve ⟨workflowId, start history⟩ earlier).cursor.taken i} index)
    (accepts : call.accepts history index) : IsLeast {j | looksFor history j call} index := by
  have found := looksFor_of_accepts accepts
  refine ⟨found, fun j hj => ?_⟩
  cases call with
  | childTerminal child => exact (unambiguous.unique found hj).le
  | next family key =>
    simp only [looksFor, beq_iff_eq, Set.mem_ofPred_eq] at found hj
    rcases unambiguous with once | ⟨⟨ordinal, rfl⟩, first⟩
    · exact (once.unique found hj).le
    · -- an earlier scheduling event would be taken, but no earlier command was for the activity
      refine not_lt.mp fun hlt => ?_
      have hs : schedulesAt history ⟨ordinal⟩ j := hj
      by_cases htaken : j ∈ (Machine.final Resolver.resolve ⟨workflowId, start history⟩ earlier).cursor.taken
      · rcases mem_taken_final (belongsAt_of_schedulesAt hs) earlier (tracking_start history) htaken with
          hnone | ⟨command, hmem, hcall⟩
        · rw [taken_start] at hnone
          exact absurd hnone (Set.notMem_empty j)
        · exact first command hmem hcall
      · exact absurd (least.2 ⟨matchable_of_schedulesAt hs, htaken⟩) (not_le.mpr hlt)

/-- **Live resolution refines strict replay.** Where strict replay answers every
command from the record, a fresh cursor that is fast forwarded to an unambiguous
command returns the very events the strict cursor did at that step. -/
theorem live_refines_strict (workflowId : WorkflowId) {history : List Event}
    {cursor : HistoryCursor} (opened : HistoryCursor.new history = .ok cursor)
    {earlier later : List Command} {command : Command} {call : CursorCall}
    (recorded : ∀ outcome ∈ Machine.outputs Resolver.resolve ⟨workflowId, cursor⟩
        (earlier ++ command :: later), ∃ resolution, outcome = .ok (.recorded resolution))
    (keyed : Resolver.callOf command = some call) (unambiguous : Unambiguous history earlier call) :
    ∃ events,
      ((Machine.final Resolver.resolve ⟨workflowId, cursor⟩ earlier).cursor.call call).1 =
        call.matched events ∧
      ((fastForwarded cursor call).call call).1 = call.matched events := by
  obtain ⟨-, rfl⟩ := (new_eq_ok_iff _ _).mp opened
  have tracking : Tracking history
      (Machine.final Resolver.resolve ⟨workflowId, start history⟩ earlier).cursor :=
    Machine.final_invariant (fun r : Resolver => Tracking history r.cursor)
      (fun r command h => tracking_resolve h command) (tracking_start history) earlier
  have step := (call_step tracking.swept call).2.2
  rw [tracking.events_eq] at step
  rw [Machine.outputs_append, Machine.outputs_cons] at recorded
  obtain ⟨resolution, hres⟩ := recorded _ (List.mem_append_right _ List.mem_cons_self)
  obtain ⟨call', events, hcall', hmatch⟩ := Resolver.exists_matched_of_resolve hres
  obtain rfl := Option.some.inj (keyed.symm.trans hcall')
  obtain ⟨index, indices, least, accepts, takes, hstrict, -⟩ := step.matched_inv hmatch
  refine ⟨eventsAt history indices, hstrict, ?_⟩
  obtain ⟨hev, hnext⟩ := nextMatchableIndex_fastForwarded history call index
  rw [call_result_of_accepts hev (hnext.mpr (isLeast_looksFor unambiguous least accepts)) accepts,
    takes]

/-- An activity scheduled and completed twice under one ordinal. -/
def twice : List Event :=
  numbered
    [.activityScheduled ⟨0⟩ "charge" .empty "default" none,
     .activityCompleted ⟨0⟩ .empty 1,
     .activityScheduled ⟨0⟩ "charge" .empty "default" none,
     .activityCompleted ⟨0⟩ .empty 1]

/-- Charge the card, under ordinal 0. -/
def charge : Command := .runActivity (.activity 0) "charge" .empty

theorem live_refines_strict_charge :
    ∃ events,
      ((start twice).call (.next .activity (.activity 0))).1 = .next (.matched events) ∧
      ((fastForwarded (start twice) (.next .activity (.activity 0))).call
        (.next .activity (.activity 0))).1 = .next (.matched events) := by
  have recorded : ∀ outcome ∈ Machine.outputs Resolver.resolve ⟨⟨0⟩, start twice⟩
    ([] ++ charge :: [charge]),
      ∃ resolution, outcome = .ok (.recorded resolution) := by
    have outputs : Machine.outputs Resolver.resolve ⟨⟨0⟩, start twice⟩ [charge, charge] =
        List.replicate 2 (.ok (.recorded (.activityCompleted .empty))) := rfl
    intro outcome hmem
    rw [List.nil_append, outputs] at hmem
    exact ⟨_, List.eq_of_mem_replicate hmem⟩
  have opened : HistoryCursor.new twice = .ok (start twice) := rfl
  exact live_refines_strict ⟨0⟩ opened recorded rfl (.inr ⟨⟨0, rfl⟩, by simp⟩)

/-- The second use of an activity key: strict replay answers both uses from the
record, the live path answers the second with the events of the first. -/
theorem live_repeats_first_span :
    HistoryCursor.new twice = .ok (start twice) ∧
      Machine.outputs Resolver.resolve ⟨⟨0⟩, start twice⟩ [charge, charge] =
        [.ok (.recorded (.activityCompleted .empty)), .ok (.recorded (.activityCompleted .empty))] ∧
      ((Machine.final Resolver.resolve ⟨⟨0⟩, start twice⟩ [charge]).cursor.call
        (.next .activity (.activity 0))).1 = .next (.matched (twice.drop 2)) ∧
      ((fastForwarded (start twice) (.next .activity (.activity 0))).call
        (.next .activity (.activity 0))).1 = .next (.matched (twice.take 2)) ∧
      twice.drop 2 ≠ twice.take 2 := by
  refine ⟨rfl, rfl, rfl, rfl, by decide⟩

end Aion
