import Aion.Durability.PausePadding
import Aion.Durability.Replay

/-!
# Pause markers in replay

`WorkflowPaused` and `WorkflowResumed` events carry no command outcome, and replay
is meant not to see them. This module compares replay over a history with replay
over the same history with such markers inserted (`PausePadding`).

`replay_unchanged_iff` says that a marker between a timer's start and its outcome is
the only one that shows: the two replays return the same results step by step if and
only if no step starts a timer whose recorded outcome a marker separates from its
start.
-/

namespace Aion

open HistoryCursor Padding

namespace PausePadding

variable {p : PausePadding}

/-! ### Replay steps -/

/-- Two recorded terminals of the same kept event. -/
def SameTerminal (p : PausePadding) (terminal terminal' : TerminalRecord) : Prop :=
  terminal'.terminal = terminal.terminal ∧ p.SameSeq terminal.seq terminal'.seq

/-- **The same result of a replay step**, up to the renumbering: the same recorded
resolution, hand-off or terminal; the same malformed history; or a non-determinism
at the same event. -/
inductive SameResult (p : PausePadding) :
    Except DurabilityError ReplayStep → Except DurabilityError ReplayStep → Prop
  /-- The same outcome. -/
  | outcome (step : ReplayStep) : SameResult p (.ok step) (.ok step)
  /-- The same malformed history. -/
  | shape (reason : String) :
    SameResult p (.error (.historyShape reason)) (.error (.historyShape reason))
  /-- The same non-determinism point. -/
  | violation {error error' : NonDeterminismError} (seq : p.SameSeq error.seq error'.seq)
    (same : error' = { error with seq := error'.seq }) :
    SameResult p (.error (.nonDeterminism error)) (.error (.nonDeterminism error'))

/-- Replays of the two histories that have taken corresponding events. -/
structure Related (p : PausePadding) (r r' : Replay) : Prop where
  /-- The same workflow. -/
  workflowId_eq : r'.workflowId = r.workflowId
  /-- The resolvers' workflow is the same, too. -/
  resolver_eq : r'.resolver.workflowId = r.resolver.workflowId
  /-- The first replays the history before. -/
  events_eq : r.resolver.cursor.events = p.history
  /-- The second replays the history after. -/
  events_eq' : r'.resolver.cursor.events = p.paused
  /-- Corresponding indices are taken. -/
  taken_eq : r'.resolver.cursor.taken = p.index '' r.resolver.cursor.taken
  /-- The first cursor is swept. -/
  swept : r.resolver.cursor.Swept
  /-- The second cursor is swept. -/
  swept' : r'.resolver.cursor.Swept
  /-- The recorded terminals correspond. -/
  terminal : Option.Rel p.SameTerminal r.terminal r'.terminal

/-- A replay step, about to start a timer whose recorded outcome is separated from
its start by a marker. -/
def HidesTimer (p : PausePadding) (r : Replay) (command : Command) : Prop :=
  ∃ call k, Resolver.callOf command = some call ∧ r.resolver.cursor.nextMatchableIndex = some k ∧
    call.accepts p.history k ∧ p.HidesOutcome call k

variable {command : Command} {events : List Event} {r' r : Replay}

theorem resolutionFromMatched_renumbered {events' : List Event}
    (same : List.Forall₂ Renumbered events events') :
    resolutionFromMatched events' = resolutionFromMatched events := by
  have hlast : Option.Rel Renumbered events.getLast? events'.getLast? := by
    rw [List.getLast?_eq_head?_reverse, List.getLast?_eq_head?_reverse]
    have hrev := List.rel_reverse same
    generalize events.reverse = newest at hrev
    generalize events'.reverse = newest' at hrev
    cases hrev with
    | nil => exact .none
    | cons h _ => exact .some h
  unfold resolutionFromMatched
  generalize events.getLast? = last at hlast
  generalize events'.getLast? = last' at hlast
  cases hlast with
  | none => rfl
  | some h => simp only [h.body_eq, h.recordedAt_eq]

/-- Corresponding replays hand off, or meet their recorded terminal, alike. -/
theorem Related.resumeOrTerminal (related : p.Related r r') (command : Command) :
    p.SameResult (r.resumeOrTerminal command) (r'.resumeOrTerminal command) := by
  have hterminal := related.terminal
  unfold Replay.resumeOrTerminal
  generalize r.terminal = terminal at hterminal
  generalize r'.terminal = terminal' at hterminal
  cases hterminal with
  | none => exact .outcome _
  | @some terminal terminal' h =>
    have violation : p.SameResult (.error (Replay.resumeOrTerminal.violation r command terminal))
        (.error (Replay.resumeOrTerminal.violation r' command terminal')) :=
      .violation h.2 (by simp only [related.workflowId_eq, h.1])
    simp only [h.1]
    split
    · split_ifs
      · exact .outcome _
      · exact violation
    · exact violation

/-- Corresponding answers of the cursors make corresponding results of the step. -/
theorem Related.sameResult_of_sameAnswer (related : p.Related r r')
    {call : CursorCall} (hcall : Resolver.callOf command = some call)
    (same : p.SameAnswer call (r.resolver.cursor.call call).1 (r'.resolver.cursor.call call).1) :
    p.SameResult (r.step command).1 (r'.step command).1 := by
  generalize hresult : (r.resolver.cursor.call call).1 = result at same
  generalize hresult' : (r'.resolver.cursor.call call).1 = result' at same
  cases same with
  | matched sameEvents =>
    rw [Replay.step_fst_of_matched hcall hresult, Replay.step_fst_of_matched hcall hresult',
      resolutionFromMatched_renumbered sameEvents]
    rename_i events _
    rcases resolutionFromMatched_cases events with ⟨resolution, recordedAt, heq⟩ | ⟨reason, heq⟩
    · rw [heq]
      exact .outcome _
    · rw [heq]
      exact .shape _
  | exhausted =>
    rw [Replay.step_fst_of_exhausted hcall hresult, Replay.step_fst_of_exhausted hcall hresult']
    exact related.resumeOrTerminal command
  | mismatch seq same =>
    rw [Replay.step_fst_of_mismatch hcall hresult, Replay.step_fst_of_mismatch hcall hresult']
    refine .violation seq ?_
    rw [same, related.resolver_eq]

/-- Without a hidden timer, corresponding replays resolve a command alike and stay related. -/
theorem Related.step (related : p.Related r r') (visible : ¬ p.HidesTimer r command) :
    p.Related (r.step command).2 (r'.step command).2 ∧
      p.SameResult (r.step command).1 (r'.step command).1 := by
  cases hcall : Resolver.callOf command with
  | none =>
    rw [Replay.step_of_none hcall, Replay.step_of_none hcall]
    exact ⟨related, related.resumeOrTerminal command⟩
  | some call =>
    obtain ⟨hev, hswept, ledger⟩ := call_step related.swept call
    obtain ⟨hev', hswept', ledger'⟩ := call_step related.swept' call
    rw [related.events_eq] at ledger
    rw [related.events_eq', related.taken_eq] at ledger'
    obtain ⟨result', same, hledger⟩ := ledgerStep_paused ledger fun k least accepts hides =>
      visible ⟨call, k, hcall, (nextMatchableIndex_eq_some_iff_isLeast related.swept k).mpr
        (by rw [related.events_eq]; exact least), accepts, hides⟩
    obtain ⟨rfl, htaken⟩ := hledger.unique ledger'
    obtain ⟨hid, hterm, hres⟩ := Replay.step_snd hcall r
    obtain ⟨hid', hterm', hres'⟩ := Replay.step_snd hcall r'
    refine ⟨?_, ?_⟩
    · exact
        { workflowId_eq := by rw [hid, hid', related.workflowId_eq]
          resolver_eq := by rw [hres, hres', related.resolver_eq]
          events_eq := by rw [hres]; exact hev.trans related.events_eq
          events_eq' := by rw [hres']; exact hev'.trans related.events_eq'
          taken_eq := by rw [hres, hres']; exact htaken.symm
          swept := by rw [hres]; exact hswept
          swept' := by rw [hres']; exact hswept'
          terminal := by rw [hterm, hterm']; exact related.terminal }
    · exact related.sameResult_of_sameAnswer hcall same

/-- A timer's outcome resolves to more than the timer's start. -/
theorem resolution_of_outcome {k : ℕ} {outcome : Event} {timerId : TimerId}
    (started : Event) (isOutcome : isOutcomeForStartKey events k outcome (.timer timerId)) :
    ∃ resolution recordedAt,
      resolutionFromMatched [started, outcome] = .ok (.recorded resolution recordedAt) ∧
        resolution ≠ .timerStarted := by
  obtain ⟨envelope, body⟩ := outcome
  cases body <;> try cases isOutcome
  all_goals exact ⟨_, _, rfl, by simp⟩

/-- A step with a hidden timer resolves to the timer's outcome in the history
before, and to its mere start in the history after. -/
theorem Related.step_of_hidesTimer (related : p.Related r r')
    (hides : p.HidesTimer r command) : ¬ p.SameResult (r.step command).1 (r'.step command).1 := by
  obtain ⟨call, k, hcall, hnext, accepts, hout⟩ := hides
  have least := (nextMatchableIndex_eq_some_iff_isLeast related.swept k).mp hnext
  rw [related.events_eq] at least
  have least' : IsLeast {j | Pending p.paused (p.index '' r.resolver.cursor.taken) j} (p.index k) :=
    setOf_pending _ ▸ p.index_strictMono.map_isLeast.mpr least
  obtain ⟨htakes, htakes'⟩ := takes_of_hidesOutcome hout
  have hnext' := (nextMatchableIndex_eq_some_iff_isLeast related.swept' (p.index k)).mpr
    (by rw [related.events_eq', related.taken_eq]; exact least')
  have hres := call_result_of_accepts related.events_eq hnext accepts
  have hres' := call_result_of_accepts related.events_eq' hnext'
    (show call.accepts p.paused (p.index k) by rwa [accepts_index])
  rw [htakes] at hres
  rw [htakes'] at hres'
  rw [Replay.step_fst_of_matched hcall hres, Replay.step_fst_of_matched hcall hres']
  obtain ⟨timerId, rfl, hnextOut, -⟩ := hout
  obtain ⟨outcome, hget, isOutcome⟩ := (Option.any_eq_true _ _).mp hnextOut
  obtain ⟨_, envelope, fireAt, hkey, hstart⟩ := exists_timerStarted_of_accepts accepts
  obtain rfl := CorrelationKey.timer.inj hkey
  obtain ⟨event', hget', renumbered, -⟩ := p.getElem?_index hstart
  obtain ⟨resolution, recordedAt, hres, hne⟩ :=
    resolution_of_outcome ⟨envelope, .timerStarted timerId fireAt⟩
    isOutcome
  have before : eventsAt p.history [k, k + 1] = [⟨envelope, .timerStarted timerId fireAt⟩, outcome] := by
    simp [eventsAt, hstart, hget]
  have after : eventsAt p.paused [p.index k] = [event'] := by simp [eventsAt, hget']
  have hres' : resolutionFromMatched [event'] =
      .ok (.recorded .timerStarted event'.recordedAt) := by
    simp [resolutionFromMatched, renumbered.body_eq]
  rw [before, after, hres, hres']
  intro same
  cases same
  exact hne rfl

/-! ### Replay over the two histories -/

theorem blind_startsRun (runId : RunId) : Blind (startsRun runId) :=
  blind_of_body (fun _ _ _ => rfl) (fun _ _ _ _ => rfl) fun _ _ _ => rfl

/-- A start of this workflow is one before and after. -/
theorem blind_workflowStarted (workflowId : WorkflowId) :
    Blind fun event => isWorkflowStarted event && event.workflowId == workflowId where
  renumbered := by
    rintro event event' r
    simp only [isWorkflowStarted, r.body_eq, r.workflowId_eq]
  marker := by
    rintro ⟨envelope, body⟩ hm
    cases body <;> first | rfl | cases hm

/-- The part of the padding from the run's start on. -/
def segment (p : PausePadding) (runId : RunId) : PausePadding where
  slots := p.slots.dropWhile ((fun event => !startsRun runId event) ∘ Slot.after)
  kept event event' h := p.kept event event' ((List.dropWhile_sublist _).mem h)
  inserted marker h := p.inserted marker ((List.dropWhile_sublist _).mem h)

theorem paused_segment (runId : RunId) :
    p.paused.dropWhile (fun event => !startsRun runId event) = (p.segment runId).paused := by
  simp only [paused, padded, segment, List.dropWhile_map]

theorem history_segment (runId : RunId) :
    p.history.dropWhile (fun event => !startsRun runId event) = (p.segment runId).history := by
  refine dropWhile_original (fun a b h => ?_) fun b h => ?_
  · rw [(blind_startsRun runId).renumbered (p.kept a b h)]
  · rw [(blind_startsRun runId).marker (p.inserted b h)]
    rfl

/-- Both segments are empty, or none. -/
theorem segment_eq_nil_iff (runId : RunId) :
    (p.segment runId).paused = [] ↔ (p.segment runId).history = [] := by
  constructor
  · intro h
    by_contra hne
    obtain ⟨event, rest, hcons⟩ := List.exists_cons_of_ne_nil hne
    obtain ⟨event', hget, -⟩ := (p.segment runId).getElem?_index (k := 0) (by rw [hcons]; rfl)
    simp [h] at hget
  · intro h
    by_contra hne
    -- the segment begins with the run's start, which is no marker
    obtain ⟨event', rest, hcons⟩ := List.exists_cons_of_ne_nil hne
    have hstart : startsRun runId event' := by
      have := List.head?_dropWhile_not (fun event => !startsRun runId event) p.paused
      rw [paused_segment, hcons] at this
      simpa using this
    obtain ⟨k, -, hk⟩ := (blind_startsRun runId).exists_index (p := p.segment runId) (j := 0)
      (by rw [hcons]; simpa using hstart)
    simp [h] at hk

/-- The terminals of the current lease are the same kept event. -/
theorem currentLeaseTerminal_padding :
    Option.Rel (fun event event' => .kept event event' ∈ p.slots) (currentLeaseTerminal p.history)
      (currentLeaseTerminal p.paused) := by
  have marks : Option.Rel (Option.Rel fun event event' => .kept event event' ∈ p.slots)
      (Scan.newest leaseMark (original p.slots)) (Scan.newest leaseMark (padded p.slots)) := by
    refine newest_padded (fun event event' h => ?_) fun marker h => ?_
    · have hbody := (p.kept event event' h).body_eq
      have hterminal : isWorkflowTerminal event' = isWorkflowTerminal event := by
        simp only [isWorkflowTerminal, hbody]
      have hstart : isLeaseStart event' = isLeaseStart event := by simp only [isLeaseStart, hbody]
      rw [leaseMark, leaseMark, hterminal, hstart]
      split_ifs
      · exact Option.Rel.some (Option.Rel.some h)
      · exact Option.Rel.some Option.Rel.none
      · exact Option.Rel.none
    · have hm := p.inserted marker h
      obtain ⟨envelope, body⟩ := marker
      cases body <;> first | rfl | cases hm
  unfold currentLeaseTerminal history paused
  generalize Scan.newest leaseMark (original p.slots) = mark at marks
  generalize Scan.newest leaseMark (padded p.slots) = mark' at marks
  cases marks with
  | none => exact .none
  | some h => exact h

theorem terminalFromHistory_padding (workflowId : WorkflowId) :
    Option.Rel p.SameTerminal (terminalFromHistory workflowId p.history)
      (terminalFromHistory workflowId p.paused) := by
  have h := currentLeaseTerminal_padding (p := p)
  unfold terminalFromHistory
  generalize currentLeaseTerminal p.history = terminal at h
  generalize currentLeaseTerminal p.paused = terminal' at h
  cases h with
  | none => exact .none
  | @some event event' hmem =>
    have renumbered := p.kept event event' hmem
    simp only [renumbered.workflowId_eq, renumbered.body_eq]
    split_ifs
    · exact .none
    · cases replayTerminalOf event.body with
      | none => exact .none
      | some terminal => exact .some ⟨rfl, event, event', hmem, rfl, rfl⟩

theorem workflowStartedAt_padding (workflowId : WorkflowId) :
    workflowStartedAt workflowId p.paused = workflowStartedAt workflowId p.history := by
  have h : Option.Rel Renumbered
      (p.history.find? fun event => isWorkflowStarted event && event.workflowId == workflowId)
      (p.paused.find? fun event => isWorkflowStarted event && event.workflowId == workflowId) :=
    find?_padded (fun a b hmem => ⟨(blind_workflowStarted workflowId).renumbered (p.kept a b hmem),
      p.kept a b hmem⟩) fun b hmem => (blind_workflowStarted workflowId).marker (p.inserted b hmem)
  unfold workflowStartedAt
  generalize p.history.find? _ = found at h
  generalize p.paused.find? _ = found' at h
  cases h with
  | none => rfl
  | some renumbered => simp only [renumbered.recordedAt_eq]

/-- Replay of the two histories fails alike or starts in related states. -/
theorem new_related (ordered : Ordered p.history) (ordered' : Ordered p.paused)
    (workflowId : WorkflowId) (runId : RunId) :
    (∃ error, Replay.new workflowId runId p.history = .error error ∧
        Replay.new workflowId runId p.paused = .error error) ∨
      ∃ r r', Replay.new workflowId runId p.history = .ok r ∧
        Replay.new workflowId runId p.paused = .ok r' ∧ (p.segment runId).Related r r' := by
  have hord : Ordered (p.segment runId).history :=
    history_segment (p := p) runId ▸ ordered.sublist (List.dropWhile_sublist _)
  have hord' : Ordered (p.segment runId).paused :=
    paused_segment (p := p) runId ▸ ordered'.sublist (List.dropWhile_sublist _)
  by_cases hnil : (p.segment runId).history = []
  · refine .inl ⟨_, Replay.new_of_absent ((history_segment runId).trans hnil) workflowId, ?_⟩
    exact Replay.new_of_absent ((paused_segment runId).trans ((segment_eq_nil_iff runId).mpr hnil))
      workflowId
  · have hnil' : (p.segment runId).paused ≠ [] := fun h => hnil ((segment_eq_nil_iff runId).mp h)
    rw [Replay.new_of_segment (history_segment runId) hnil hord,
      Replay.new_of_segment (paused_segment runId) hnil' hord', workflowStartedAt_padding]
    cases workflowStartedAt workflowId (p.segment runId).history with
    | error error => exact .inl ⟨error, rfl, rfl⟩
    | ok startedAt =>
      refine .inr ⟨_, _, rfl, rfl, ?_⟩
      exact
        { workflowId_eq := rfl
          resolver_eq := rfl
          events_eq := rfl
          events_eq' := rfl
          taken_eq := by simp [taken_start]
          swept := swept_start _
          swept' := swept_start _
          terminal := terminalFromHistory_padding workflowId }

/-- The results of replaying `commands` over a history, one for each. -/
def replayResults (workflowId : WorkflowId) (runId : RunId) (history : List Event)
    (commands : List Command) : Except DurabilityError (List (Except DurabilityError ReplayStep)) :=
  (Replay.new workflowId runId history).map fun replay =>
    Machine.outputs Replay.step replay commands

/-- Two replays that fail to start alike, or return the same results step by step. -/
inductive SameReplay (p : PausePadding) :
    Except DurabilityError (List (Except DurabilityError ReplayStep)) →
    Except DurabilityError (List (Except DurabilityError ReplayStep)) → Prop
  /-- The same error. -/
  | error (error : DurabilityError) : SameReplay p (.error error) (.error error)
  /-- The same results, step by step. -/
  | results {results results' : List (Except DurabilityError ReplayStep)}
    (same : List.Forall₂ p.SameResult results results') : SameReplay p (.ok results) (.ok results')

/-- **When pause markers are invisible.** Replay over a history with pause markers
inserted returns step by step the same results as replay over the history without
them, if and only if no step of the replay without them starts a timer whose
recorded outcome follows at once there and behind a marker here. -/
theorem replay_unchanged_iff (p : PausePadding) (ordered : Ordered p.history)
    (ordered' : Ordered p.paused) (workflowId : WorkflowId) (runId : RunId)
    (commands : List Command) :
    (p.segment runId).SameReplay (replayResults workflowId runId p.history commands)
        (replayResults workflowId runId p.paused commands) ↔
      ∀ replay, Replay.new workflowId runId p.history = .ok replay →
        ∀ t ∈ Machine.trace Replay.step replay commands,
          ¬ (p.segment runId).HidesTimer t.before t.input := by
  unfold replayResults
  rcases new_related ordered ordered' workflowId runId with
    ⟨error, hnew, hnew'⟩ | ⟨r, r', hnew, hnew', related⟩
  · rw [hnew, hnew']
    exact ⟨fun _ replay h => (by cases h), fun _ => .error error⟩
  · rw [hnew, hnew']
    have lockstep : List.Forall₂ (p.segment runId).SameResult
      (Machine.outputs Replay.step r commands)
        (Machine.outputs Replay.step r' commands) ↔
          ∀ t ∈ Machine.trace Replay.step r commands, ¬ (p.segment runId).HidesTimer t.before t.input := by
      refine Machine.forall₂_outputs_iff (p.segment runId).Related (p.segment runId).SameResult
        (fun r command => ¬ (p.segment runId).HidesTimer r command) ?_ ?_ related commands
      · intro r r' command related visible
        exact related.step visible
      · intro r r' command related hides
        exact related.step_of_hidesTimer (not_not.mp hides)
    constructor
    · rintro same replay ⟨⟩
      cases same with
      | results same => exact lockstep.mp same
    · intro visible
      exact .results (lockstep.mpr (visible r rfl))

/-- A run that starts a timer, is paused, and sees the timer fire. -/
def pausedTimer : PausePadding where
  slots :=
    [.kept ⟨⟨1, 0, ⟨0⟩⟩, .workflowStarted "order" .empty ⟨0⟩ none ⟨"v1"⟩⟩
       ⟨⟨1, 0, ⟨0⟩⟩, .workflowStarted "order" .empty ⟨0⟩ none ⟨"v1"⟩⟩,
     .kept ⟨⟨2, 0, ⟨0⟩⟩, .timerStarted (.anonymous 0) 10⟩
       ⟨⟨2, 0, ⟨0⟩⟩, .timerStarted (.anonymous 0) 10⟩,
     .inserted ⟨⟨3, 5, ⟨0⟩⟩, .workflowPaused ⟨0⟩ none none⟩,
     .kept ⟨⟨3, 10, ⟨0⟩⟩, .timerFired (.anonymous 0)⟩ ⟨⟨4, 10, ⟨0⟩⟩, .timerFired (.anonymous 0)⟩]
  kept := by
    intro event event' h
    simp only [List.mem_cons, Slot.kept.injEq, reduceCtorEq, List.not_mem_nil, or_false,
      false_or] at h
    rcases h with ⟨rfl, rfl⟩ | ⟨rfl, rfl⟩ | ⟨rfl, rfl⟩ <;> exact ⟨rfl, rfl, rfl⟩
  inserted := by
    intro marker h
    simp only [List.mem_cons, Slot.inserted.injEq, reduceCtorEq, List.not_mem_nil, or_false,
      false_or] at h
    rw [h]
    rfl

/-- The timer fired in both histories. Replay of the history without the pause
resolves the timer to its firing; with the pause between, to its mere start. -/
theorem pausedTimer_visible :
    Ordered pausedTimer.history ∧ Ordered pausedTimer.paused ∧
      replayResults ⟨0⟩ ⟨0⟩ pausedTimer.history [.startTimer (.timer (.anonymous 0)) 10] =
        .ok [.ok (.recorded .timerFired)] ∧
      replayResults ⟨0⟩ ⟨0⟩ pausedTimer.paused [.startTimer (.timer (.anonymous 0)) 10] =
        .ok [.ok (.recorded .timerStarted)] ∧
      ¬ (pausedTimer.segment ⟨0⟩).SameReplay
        (replayResults ⟨0⟩ ⟨0⟩ pausedTimer.history [.startTimer (.timer (.anonymous 0)) 10])
        (replayResults ⟨0⟩ ⟨0⟩ pausedTimer.paused [.startTimer (.timer (.anonymous 0)) 10]) := by
  have before : replayResults ⟨0⟩ ⟨0⟩ pausedTimer.history [.startTimer (.timer (.anonymous 0)) 10] =
      .ok [.ok (.recorded .timerFired)] := rfl
  have after : replayResults ⟨0⟩ ⟨0⟩ pausedTimer.paused [.startTimer (.timer (.anonymous 0)) 10] =
      .ok [.ok (.recorded .timerStarted)] := rfl
  refine ⟨by decide, by decide, before, after, ?_⟩
  rw [before, after]
  intro same
  cases same with
  | results same =>
    cases same with
    | cons head _ => cases head

/-- A run that starts a timer, sees it fire, and is paused after that. -/
def pausedAfterTimer : PausePadding where
  slots :=
    [.kept ⟨⟨1, 0, ⟨0⟩⟩, .workflowStarted "order" .empty ⟨0⟩ none ⟨"v1"⟩⟩
       ⟨⟨1, 0, ⟨0⟩⟩, .workflowStarted "order" .empty ⟨0⟩ none ⟨"v1"⟩⟩,
     .kept ⟨⟨2, 0, ⟨0⟩⟩, .timerStarted (.anonymous 0) 10⟩
       ⟨⟨2, 0, ⟨0⟩⟩, .timerStarted (.anonymous 0) 10⟩,
     .kept ⟨⟨3, 10, ⟨0⟩⟩, .timerFired (.anonymous 0)⟩ ⟨⟨3, 10, ⟨0⟩⟩, .timerFired (.anonymous 0)⟩,
     .inserted ⟨⟨4, 15, ⟨0⟩⟩, .workflowPaused ⟨0⟩ none none⟩]
  kept := by
    intro event event' h
    simp only [List.mem_cons, Slot.kept.injEq, reduceCtorEq, List.not_mem_nil, or_false] at h
    rcases h with ⟨rfl, rfl⟩ | ⟨rfl, rfl⟩ | ⟨rfl, rfl⟩ <;> exact ⟨rfl, rfl, rfl⟩
  inserted := by
    intro marker h
    simp only [List.mem_cons, Slot.inserted.injEq, reduceCtorEq, List.not_mem_nil, or_false,
      false_or] at h
    rw [h]
    rfl

theorem replay_unchanged_pausedAfterTimer :
    (pausedAfterTimer.segment ⟨0⟩).SameReplay
      (replayResults ⟨0⟩ ⟨0⟩ pausedAfterTimer.history [.startTimer (.timer (.anonymous 0)) 10])
      (replayResults ⟨0⟩ ⟨0⟩ pausedAfterTimer.paused [.startTimer (.timer (.anonymous 0)) 10]) := by
  refine (replay_unchanged_iff pausedAfterTimer (by decide) (by decide) ⟨0⟩ ⟨0⟩ _).mpr ?_
  rintro replay hnew t ht ⟨call, k, -, hnext, -, timerId, -, -, hsep⟩
  have hfst : t.before = replay := by
    simp only [Machine.trace, List.mem_singleton] at ht
    rw [ht]
  -- the timer is found at index 1, and its firing stays right behind it
  obtain rfl := Except.ok.inj hnew
  rw [hfst] at hnext
  obtain rfl := Option.some.inj hnext
  exact hsep rfl

end PausePadding

end Aion
