import Aion.Durability.Resolver

/-!
# Replay is stable under history growth

What strict resolution has answered over a history it answers again, step by step,
over any longer history, as long as the new events reopen nothing and add no
attempt or outcome to an activity that already has a terminal
(`resolution_stable`).

The cursor looks ahead without bound, for later attempts and later reopens of an
activity; every other decision reads the history up to the event it is about.
Timers are left out: an outcome recorded right after a started timer changes what
the start resolves to.
-/

namespace Aion

open HistoryCursor

/-- The events of `extension` reopen nothing and add no attempt or outcome to an
activity that already has a terminal in `history`. -/
structure QuietExtension (history extension : List Event) : Prop where
  /-- No reopen. -/
  no_reopen : ∀ event ∈ extension, ∀ runId reopened, event.body ≠ .workflowReopened runId reopened
  /-- Nothing more of a settled activity. -/
  no_attempt : ∀ activityId, (∃ event ∈ history, isActivityTerminal activityId event) →
    ∀ event ∈ extension, isActivityAttemptOrOutcome activityId event = false

/-- The commands that take only their own events: all but timers and completion. -/
def takesOwnEvents : Command → Bool
  | .runActivity .. => true
  | .awaitSignal _ => true
  | .sendSignal .. => true
  | .spawnChild .. => true
  | .awaitChild _ => true
  | .startTimer .. => false
  | .completeWorkflow _ => false

variable {call : CursorCall} {command : Command}

section Prefix

variable {history extension : List Event}

variable {activityId : ActivityId} {index : ℕ} {indices : List ℕ} {taken : Set ℕ}

theorem matchable_append (hlt : index < history.length) :
    Matchable (history ++ extension) index ↔ Matchable history index := by
  rw [Matchable, Matchable, List.getElem?_append_left hlt]

/-- The least pending event of a history is that of every longer one. -/
theorem isLeast_pending_append (least : IsLeast {i | Pending history taken i} index) :
    IsLeast {i | Pending (history ++ extension) taken i} index := by
  have hlt := least.1.1.lt_length
  refine ⟨⟨(matchable_append hlt).mpr least.1.1, least.1.2⟩, fun j hj => not_lt.mp fun hji => ?_⟩
  exact absurd (least.2 ⟨(matchable_append (hji.trans hlt)).mp hj.1, hj.2⟩) (not_le.mpr hji)

theorem accepts_append (hlt : index < history.length) (call : CursorCall) :
    call.accepts (history ++ extension) index = call.accepts history index := by
  cases call with
  | next family key =>
    simp only [CursorCall.accepts, List.getElem?_append_left hlt, keyForEvent_append hlt]
  | childTerminal child => simp only [CursorCall.accepts, List.getElem?_append_left hlt]

theorem belongsAt_append (hlt : index < history.length) :
    belongsAt (history ++ extension) activityId index = belongsAt history activityId index := by
  simp only [belongsAt, List.getElem?_append_left hlt]

theorem activitySpan_append {first last : ℕ} (hlt : last < history.length) :
    activitySpan (history ++ extension) activityId first last =
      activitySpan history activityId first last := by
  refine List.filter_congr fun j hj => belongsAt_append ?_
  obtain ⟨_, _⟩ := List.mem_range'_1.mp hj
  omega

/-- A quiet extension moves no settling index. -/
theorem settlesAt_append (quiet : QuietExtension history extension) (hlt : index < history.length) :
    settlesAt (history ++ extension) activityId index = settlesAt history activityId index := by
  simp only [settlesAt, List.getElem?_append_left hlt, List.getElem?_eq_getElem hlt,
    Option.any_some]
  have hmem : history[index] ∈ history := List.getElem_mem hlt
  generalize history[index] = event at hmem
  obtain ⟨envelope, body⟩ := event
  cases body <;> try rfl
  rename_i failed error attempt
  simp only [settles]
  by_cases hfinal : failed = activityId ∧ error.isRetryable = false
  · -- the failure is itself a terminal in `history`, so nothing later is about its activity
    obtain ⟨rfl, hfinal⟩ := hfinal
    have no_attempt : extension.any (isActivityAttemptOrOutcome failed) = false := by
      rw [List.any_eq_false]
      intro event he
      simpa using quiet.no_attempt failed ⟨_, hmem, by simp [isActivityTerminal, hfinal]⟩ event he
    have no_reopen : extension.any (isReopenOf failed) = false := by
      rw [List.any_eq_false]
      intro event he
      obtain ⟨_, body⟩ := event
      cases body <;> simp [isReopenOf]
      exact absurd rfl (quiet.no_reopen _ he _ _)
    have hdrop : ∀ p, ((history ++ extension).drop (index + 1)).any p =
        ((history.drop (index + 1)).any p || extension.any p) := fun p => by
      rw [List.drop_append_of_le_length (by omega), List.any_append]
    simp [activityReopenedAfter, hasLaterActivityAttemptOrOutcome, hdrop, no_attempt, no_reopen]
  · have hfalse : (failed == activityId && !error.isRetryable) = false := by
      rw [Bool.eq_false_iff]
      simpa using hfinal
    simp only [hfalse, Bool.false_and]

/-- The walk over an activity with an outcome is the same over a quiet extension. -/
theorem walkActivity_append (quiet : QuietExtension history extension) {matched : List ℕ}
    (hwalk : walkActivity history activityId (history.drop index) index matched = some indices) :
    walkActivity (history ++ extension) activityId
      ((history ++ extension).drop index) index matched =
      some indices := by
  rcases walkActivity_eq history activityId index matched with ⟨last, least, heq⟩ | ⟨-, heq⟩
  · obtain rfl := Option.some.inj (hwalk.symm.trans heq)
    have hlast := lt_length_of_settlesAt least.1.2
    have least' : IsLeast {t | index ≤ t ∧ settlesAt (history ++ extension) activityId t} last := by
      refine ⟨⟨least.1.1, by rw [settlesAt_append quiet hlast]; exact least.1.2⟩, fun t ht => ?_⟩
      rcases lt_or_ge t history.length with inside | outside
      · exact least.2 ⟨ht.1, by rw [← settlesAt_append quiet inside]; exact ht.2⟩
      · omega
    rcases walkActivity_eq (history ++ extension) activityId index matched with
      ⟨last', hleast', heq'⟩ | ⟨hnone, -⟩
    · rw [heq', hleast'.unique least', activitySpan_append hlast]
    · exact absurd least'.1.2 (hnone last least'.1.1)
  · exact absurd (hwalk.symm.trans heq) (by simp)

/-- A call answered over a history takes the same indices over a quiet extension. -/
theorem takes_append (quiet : QuietExtension history extension)
    (timerless : ∀ key, call ≠ .next .timer key) (takes : call.takes history index = some indices) :
    call.takes (history ++ extension) index = some indices := by
  cases call with
  | childTerminal child => exact takes
  | next family key =>
    cases family with
    | timer => exact absurd rfl (timerless key)
    | child => exact takes
    | signal => exact takes
    | activity =>
      cases key with
      | activity ordinal => exact walkActivity_append quiet takes
      | child ordinal => exact takes
      | timer timerId => exact takes
      | signal name occurrence => exact takes

/-- **A matched call matches alike over a quiet extension.** -/
theorem LedgerStep.append (quiet : QuietExtension history extension) {taken' : Set ℕ}
    {result : CallResult} (timerless : ∀ key, call ≠ .next .timer key)
    (step : LedgerStep history taken call result taken') {delivered : List Event}
    (hmatch : result.matched? = some delivered) :
    LedgerStep (history ++ extension) taken call result taken' := by
  obtain ⟨index, indices, least, accepts, takes, rfl, rfl⟩ := step.matched_inv hmatch
  have hlt := least.1.1.lt_length
  rw [← eventsAt_append (takes_increasing accepts takes hlt).2.2]
  exact .matched (isLeast_pending_append least) (by rwa [accepts_append hlt])
    (takes_append quiet timerless takes)

end Prefix

/-! ### Runs -/

/-- A resolver over a history and one over its extension that have taken the same events. -/
structure Grown (history extension : List Event) (r r' : Resolver) : Prop where
  /-- The shorter history. -/
  events_eq : r.cursor.events = history
  /-- The longer history. -/
  events_eq' : r'.cursor.events = history ++ extension
  /-- The same indices are taken. -/
  taken_eq : r'.cursor.taken = r.cursor.taken
  /-- The first cursor is swept. -/
  swept : r.cursor.Swept
  /-- The second cursor is swept. -/
  swept' : r'.cursor.Swept

theorem grown_start (workflowId : WorkflowId) (history extension : List Event) :
    Grown history extension ⟨workflowId, start history⟩ ⟨workflowId, start (history ++ extension)⟩ where
  events_eq := rfl
  events_eq' := rfl
  taken_eq := (taken_start _).trans (taken_start _).symm
  swept := swept_start _
  swept' := swept_start _

theorem takesOwnEvents_timerless (own : takesOwnEvents command)
    (hcall : Resolver.callOf command = some call) (key : CorrelationKey) :
    call ≠ .next .timer key := by
  rintro rfl
  cases command <;> simp_all [takesOwnEvents, Resolver.callOf, familyAndKey]

/-- One recorded resolution is given again over the longer history. -/
theorem Grown.resolve {history extension : List Event} (quiet : QuietExtension history extension)
    {r r' : Resolver} (grown : Grown history extension r r') (own : takesOwnEvents command)
    {resolution : Resolution} (recorded : (r.resolve command).1 = .ok (.recorded resolution)) :
    (r'.resolve command).1 = (r.resolve command).1 ∧
      Grown history extension (r.resolve command).2 (r'.resolve command).2 := by
  obtain ⟨call, events, hcall, hmatch⟩ := Resolver.exists_matched_of_resolve recorded
  obtain ⟨hev, hswept, step⟩ := call_step grown.swept call
  obtain ⟨hev', hswept', step'⟩ := call_step grown.swept' call
  rw [grown.events_eq] at step
  rw [grown.events_eq', grown.taken_eq] at step'
  obtain ⟨hres, htaken⟩ :=
    step'.unique (step.append quiet (takesOwnEvents_timerless own hcall) hmatch)
  simp only [Resolver.resolve, Resolver.resolveWithConsumed_of_some hcall]
  refine ⟨?_, ⟨hev.trans grown.events_eq, hev'.trans grown.events_eq', htaken, hswept, hswept'⟩⟩
  rw [Resolver.answer_of_matched hmatch, Resolver.answer_of_matched (hres ▸ hmatch)]

/-- **Replay is stable under history growth.** Commands that strict resolution over
`history` answers from the record at every step are answered alike over `history`
followed by a quiet extension. -/
theorem resolution_stable (workflowId : WorkflowId) {history extension : List Event}
    {cursor cursor' : HistoryCursor} (opened : HistoryCursor.new history = .ok cursor)
    (opened' : HistoryCursor.new (history ++ extension) = .ok cursor')
    (quiet : QuietExtension history extension) (commands : List Command)
    (own : ∀ command ∈ commands, takesOwnEvents command)
    (recorded : ∀ outcome ∈ Machine.outputs Resolver.resolve ⟨workflowId, cursor⟩ commands,
      ∃ resolution, outcome = .ok (.recorded resolution)) :
    Machine.outputs Resolver.resolve ⟨workflowId, cursor'⟩ commands =
      Machine.outputs Resolver.resolve ⟨workflowId, cursor⟩ commands := by
  obtain ⟨-, rfl⟩ := (new_eq_ok_iff _ _).mp opened
  obtain ⟨-, rfl⟩ := (new_eq_ok_iff _ _).mp opened'
  refine Machine.outputs_eq_of_good (Grown history extension)
    (fun command => takesOwnEvents command)
    (fun outcome => ∃ resolution, outcome = .ok (.recorded resolution)) ?_
    (grown_start workflowId history extension) commands own recorded
  rintro r r' command grown own ⟨resolution, hgood⟩
  exact (grown.resolve quiet own hgood).symm

/-- An activity that completed, then a signal. -/
def settledThenSignal : List Event :=
  numbered
    [.activityScheduled ⟨0⟩ "charge" .empty "default" none,
     .activityCompleted ⟨0⟩ .empty 1,
     .signalReceived "paid" .empty]

/-- What a run records next: a second signal and a second activity. -/
def laterEvents : List Event :=
  [⟨⟨4, 0, ⟨0⟩⟩, .signalReceived "paid" .empty⟩,
   ⟨⟨5, 0, ⟨0⟩⟩, .activityScheduled ⟨1⟩ "ship" .empty "default" none⟩]

theorem resolution_stable_signal :
    Machine.outputs Resolver.resolve ⟨⟨0⟩, start (settledThenSignal ++ laterEvents)⟩
        [.runActivity (.activity 0) "charge" .empty, .awaitSignal (.signal "paid" 0)] =
      Machine.outputs Resolver.resolve ⟨⟨0⟩, start settledThenSignal⟩
        [.runActivity (.activity 0) "charge" .empty, .awaitSignal (.signal "paid" 0)] := by
  have opened : HistoryCursor.new settledThenSignal = .ok (start settledThenSignal) := rfl
  have opened' : HistoryCursor.new (settledThenSignal ++ laterEvents) =
      .ok (start (settledThenSignal ++ laterEvents)) := rfl
  have quiet : QuietExtension settledThenSignal laterEvents :=
    ⟨by simp [laterEvents], by simp [laterEvents, isActivityAttemptOrOutcome]⟩
  refine resolution_stable ⟨0⟩ opened opened' quiet _ (by simp [takesOwnEvents]) ?_
  have outputs : Machine.outputs Resolver.resolve ⟨⟨0⟩, start settledThenSignal⟩
      [.runActivity (.activity 0) "charge" .empty, .awaitSignal (.signal "paid" 0)] =
        [.ok (.recorded (.activityCompleted .empty)), .ok (.recorded (.signalDelivered .empty))] := rfl
  rw [outputs]
  simp

end Aion
