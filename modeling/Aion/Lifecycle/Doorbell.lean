import Aion.Lifecycle.DeadlineSweep
import Aion.Lifecycle.FaultyStore

/-!
# The doorbell of a run that ends

When the process of a run exits, its monitor records how it ended, or finds the terminal that
another writer recorded, and rings the run's completion notifier (`handle_process_exit`,
`lifecycle/completion.rs`). Whoever waits for the run waits for that. In between, and under the same
lock, it retires the run's deadline, which is another append; after the bell it brings the
visibility row and the registry up to date and starts the run that continues this one.

Any of its steps can fail, and a failure ends the call. `doorbell_rung_iff`: a terminal that the
call has recorded or found is rung if and only if the retirement of the deadline did not fail.
`retirement_mutes_doorbell` is a run whose result is recorded and whose deadline is not retired
then.

A failed append has appended nothing. What is in `processExitCall` of the same call are its tasks
for a store that does not fail.
-/

namespace Aion

open Interleaving

/-! ### The call -/

/-- The steps of the call that can fail. -/
inductive ExitStep where
  | readHistory
  | recordTerminal
  | retireDeadline
  | upsertVisibility
  | reconcile
  | replaceResidency
  | startReplacement
  deriving DecidableEq

/-- `Residency`. -/
inductive HandleResidency where
  | resident
  | suspended
  deriving DecidableEq

/-- What the call changes besides the store. -/
structure ExitState where
  /-- The handle's recorder. -/
  recorder : Recorder
  /-- The status and the residency of the run's handle, while it is registered. -/
  registered : Option (WorkflowStatus × HandleResidency)
  /-- What the completion notifier was rung with. -/
  rung : List TerminalOutcome
  /-- The steps that have failed. -/
  failed : List ExitStep

/-- The state in which a call begins: the handle has a recorder of its workflow. -/
def ExitState.begin (handle : WorkflowHandle) (sequence : SequenceHead)
    (visibility runId : Option RunId) (registered : Option (WorkflowStatus × HandleResidency)) :
    ExitState :=
  ⟨⟨handle.workflowId, sequence, visibility, runId⟩, registered, [], []⟩

/-- A part of the call. -/
def ExitM (α : Type) : Type :=
  ExitState → Prog StoreCall StoreCall.Answer (Except StartFailure α × ExitState)

namespace ExitM

instance : Monad ExitM where
  pure value := fun state => .done (.ok value, state)
  bind first f := fun state => (first state).bind fun outcome =>
    match outcome with
    | (.ok value, state') => f value state'
    | (.error failure, state') => .done (.error failure, state')

/-- A step that fails is noted. -/
def attempt {α : Type} (step : ExitStep) (operation : EngineM α) : ExitM α := fun state =>
  Prog.bind operation fun outcome =>
    match outcome with
    | .ok value => .done (.ok value, state)
    | .error failure => .done (.error failure, { state with failed := state.failed ++ [step] })

/-- A step through the handle's recorder. -/
def recording (step : ExitStep) (operation : RecorderM Unit) : ExitM Unit := fun state =>
  (operation state.recorder).bind fun outcome =>
    match outcome with
    | (.ok _, recorder) => .done (.ok (), { state with recorder })
    | (.error error, recorder) =>
      .done (.error (.durability error), { state with recorder, failed := state.failed ++ [step] })

/-- A step in the registry, whose lock may be poisoned. -/
def registry (poisoned : ExitStep → Bool) (step : ExitStep)
    (change : WorkflowStatus × HandleResidency → WorkflowStatus × HandleResidency) : ExitM Unit :=
  fun state =>
  if poisoned step then
    .done (.error (.engine (.runtime "registry lock poisoned")), { state with failed := state.failed ++ [step] })
  else .done (.ok (), { state with registered := state.registered.map change })

/-- `CompletionNotifier::notify`. -/
def notify (terminal : TerminalOutcome) : ExitM Unit :=
  fun state => .done (.ok (), { state with rung := state.rung ++ [terminal] })

end ExitM

open ExitM

/-- What the call finds around it. -/
structure ExitEnvironment where
  /-- What the record of the terminal and a start take from around them. -/
  start : StartEnvironment
  /-- The clock when the deadline is retired. -/
  now : Instant
  parseUuid : String → Option Uuid
  /-- The steps at which the lock of the registry is poisoned. -/
  poisoned : ExitStep → Bool
  /-- The part of a start that comes after its records. -/
  launch : Except EngineError Unit

/-- The terminal that is rung for an outcome. -/
def ProcessOutcome.terminal : ProcessOutcome → TerminalOutcome
  | .completed result => .completed result
  | .failed error => .failed error
  | .unobserved error => .failed ⟨"workflow process monitor failed: " ++ error, none⟩

/-- The terminal is a timeout. -/
def TerminalOutcome.isTimedOut : TerminalOutcome → Bool
  | .timedOut _ => true
  | _ => false

section Call

variable (env : ExitEnvironment) (handle : WorkflowHandle)

/-- `reconcile_terminal_registry`. -/
def reconcileTerminalRegistry : ExitM Unit := do
  let history ← attempt .reconcile (EngineM.readHistory handle.workflowId)
  registry env.poisoned .reconcile fun entry => (statusFromEvents history, entry.2)
  registry env.poisoned .replaceResidency fun entry => (entry.1, .suspended)

/-- `start_continuation_replacement`, and the start it leads to. -/
def startReplacement (input : Payload) (workflowType : Option String) (parentRunId : RunId) :
    ExitM Unit := do
  let current ← attempt .startReplacement (EngineM.readHistory handle.workflowId)
  match startContinuationReplacement current handle input workflowType parentRunId with
  | none => return ()
  | some request =>
    attempt .startReplacement (startWorkflowWithOptions env.start request)
    attempt .startReplacement (EngineM.lift env.launch)

/-- The call when the history has the terminal: up to the bell. -/
def resumeTerminal (history : List Event) (existing : TerminalOutcome) : ExitM Unit :=
  if existing.isTimedOut then return ()
  else recording .retireDeadline (retireRunDeadline env.parseUuid env.now history handle.runId)

/-- The call after the bell for a terminal it has found. -/
def afterExisting (existing : TerminalOutcome) : ExitM Unit := do
  reconcileTerminalRegistry env handle
  match existing with
  | .continuedAsNew input workflowType parentRunId =>
    startReplacement env handle input workflowType parentRunId
  | _ => return ()

/-- The call after the bell for a terminal it has recorded. -/
def afterRecorded : ExitM Unit := do
  attempt .upsertVisibility (upsertWorkflowVisibility handle.workflowId handle.runId)
  reconcileTerminalRegistry env handle

/-- `handle_process_exit_async`. -/
def handleProcessExitAsync (outcome : ProcessOutcome) : ExitM Unit := do
  let history ← attempt .readHistory (EngineM.readHistory handle.workflowId)
  match terminalOutcomeFromHistory history handle.runId with
  | some existing =>
    resumeTerminal env handle history existing
    notify existing
    afterExisting env handle existing
  | none =>
    recording .recordTerminal (recordProcessOutcome env.start outcome)
    recording .retireDeadline (retireRunDeadline env.parseUuid env.now history handle.runId)
    notify outcome.terminal
    afterRecorded env handle

end Call

/-! ### What a call appends besides a terminal -/

/-- The event neither ends a lease nor takes one up: a run that has an outcome keeps it. -/
def KeepsOutcome (event : Event) : Prop := leaseMark event = none ∨ isWorkflowStarted event

theorem KeepsOutcome.not_terminal {event : Event} (h : KeepsOutcome event) :
    isWorkflowTerminal event = false := by
  rcases h with hmark | hstrt
  · exact (leaseMark_eq_none_iff.mp hmark).1
  · obtain ⟨envelope, body⟩ := event
    cases body <;> first | rfl | cases hstrt

section Outcomes

variable {history : List Event} {event : Event} {run : RunId}

/-- A start leaves a segment alone, or is the first start of the run. -/
theorem runSegment_concat_started (h : isWorkflowStarted event) :
    runSegment (history ++ [event]) run = runSegment history run ∨
      runSegment history run = [] ∧ runSegment (history ++ [event]) run = [event] := by
  unfold runSegment
  rw [List.dropWhile_append]
  cases hdrop : history.dropWhile fun event => !startsRun run event with
  | nil =>
    simp only [List.isEmpty_nil, if_true]
    cases hstarts : startsRun run event with
    | false => exact .inl (by simp [hstarts])
    | true => exact .inr ⟨trivial, by simp [hstarts]⟩
  | cons start rest =>
    left
    simp only [List.isEmpty_cons, Bool.false_eq_true, if_false, List.cons_append]
    rw [List.takeWhile_append]
    split_ifs with hall
    · rw [List.takeWhile_cons_of_neg (by simp [h]), List.append_nil,
        List.Sublist.eq_of_length (List.takeWhile_sublist _) hall]
    · rfl

theorem KeepsOutcome.outcome_concat (h : KeepsOutcome event) :
    terminalOutcomeFromHistory (history ++ [event]) run =
      terminalOutcomeFromHistory history run := by
  rcases h with hmark | hstrt
  · exact terminalOutcomeFromHistory_concat hmark
  · rcases runSegment_concat_started hstrt with hseg | ⟨hnone, hseg⟩
    · rw [terminalOutcomeFromHistory, terminalOutcomeFromHistory, hseg]
    · have hlease : isLeaseStart event := isLeaseStart_of_isWorkflowStarted hstrt
      have hmark : leaseMark event = some none :=
        leaseMark_eq_some_none_iff.mpr ⟨KeepsOutcome.not_terminal (.inr hstrt), hlease⟩
      have hopen : currentLeaseTerminal [event] = none := by
        rw [← List.nil_append [event], currentLeaseTerminal_concat, hmark]
        rfl
      rw [terminalOutcomeFromHistory, terminalOutcomeFromHistory, hseg, hnone, hopen]
      rfl

theorem outcome_append {added : List Event} (hkeep : ∀ event ∈ added, KeepsOutcome event) :
    terminalOutcomeFromHistory (history ++ added) run = terminalOutcomeFromHistory history run := by
  induction added using List.reverseRecOn with
  | nil => rw [List.append_nil]
  | append_singleton added event ih =>
    rw [← List.append_assoc, (hkeep event (by simp)).outcome_concat]
    exact ih fun other hother => hkeep other (List.mem_append_left _ hother)

/-- The run has started, and no run has since its first start. -/
def isLastRun (history : List Event) (run : RunId) : Bool :=
  match history.dropWhile fun event => !startsRun run event with
  | [] => false
  | _ :: rest => rest.all fun event => !isWorkflowStarted event

/-- What is no start falls to the segment of the run that is last. -/
theorem runSegment_concat_of_last (hlast : isLastRun history run)
    (h : isWorkflowStarted event = false) :
    runSegment (history ++ [event]) run = runSegment history run ++ [event] := by
  unfold isLastRun at hlast
  unfold runSegment
  rw [List.dropWhile_append]
  cases hdrop : history.dropWhile fun event => !startsRun run event with
  | nil => simp [hdrop] at hlast
  | cons start rest =>
    simp only [hdrop, List.all_eq_true] at hlast
    simp only [List.isEmpty_cons, Bool.false_eq_true, if_false, List.cons_append]
    rw [List.takeWhile_append_of_pos hlast, List.takeWhile_cons_of_pos (by simp [h]),
      List.takeWhile_nil,
      List.takeWhile_eq_self_iff.mpr hlast]

/-- And to no segment of another run. -/
theorem runSegment_concat_of_not_last (hlast : ¬ isLastRun history run)
    (h : startsRun run event = false) :
    runSegment (history ++ [event]) run = runSegment history run := by
  unfold isLastRun at hlast
  unfold runSegment
  rw [List.dropWhile_append]
  cases hdrop : history.dropWhile fun event => !startsRun run event with
  | nil => simp [h]
  | cons start rest =>
    rw [hdrop] at hlast
    simp only [List.isEmpty_cons, Bool.false_eq_true, if_false, List.cons_append]
    rw [List.takeWhile_append, if_neg]
    intro hall
    rw [← List.Sublist.eq_of_length (List.takeWhile_sublist _) hall] at hlast
    exact hlast List.all_takeWhile

/-- The end of a process is the outcome of the run that is last. -/
theorem outcome_recorded {envelope : EventEnvelope} {outcome : ProcessOutcome}
    (hopen : terminalOutcomeFromHistory history run = none) :
    terminalOutcomeFromHistory (history ++ [⟨envelope, processOutcomeBody outcome⟩]) run =
      if isLastRun history run then some outcome.terminal else none := by
  have hother : startsRun run ⟨envelope, processOutcomeBody outcome⟩ = false := by cases outcome <;> rfl
  have hstart : isWorkflowStarted ⟨envelope, processOutcomeBody outcome⟩ = false := by cases outcome <;> rfl
  split_ifs with hlast
  · rw [terminalOutcomeFromHistory, runSegment_concat_of_last hlast hstart,
      currentLeaseTerminal_concat]
    cases outcome <;> rfl
  · rw [terminalOutcomeFromHistory, runSegment_concat_of_not_last hlast hother]
    exact hopen

end Outcomes

/-! ### The parts of a call -/

/-- The history of the workflow has grown by these events, and nothing else has. -/
def GrownTo (id : WorkflowId) (added : List Event) (store last : InMemoryStore) : Prop :=
  ∀ other, last.history other = store.history other ++ if other = id then added else []

variable {middle : InMemoryStore}

theorem GrownTo.trans {id : WorkflowId} {added added' : List Event} {store last : InMemoryStore}
    (h : GrownTo id added store middle) (h' : GrownTo id added' middle last) :
    GrownTo id (added ++ added') store last := by
  intro other
  rw [h' other, h other]
  split_ifs
  · rw [List.append_assoc]
  · rw [List.append_nil]

theorem SameHistories.grownTo {id : WorkflowId} {store last : InMemoryStore}
    (h : SameHistories store last) : GrownTo id [] store last := by
  intro other
  rw [h.history_eq, ite_self, List.append_nil]

/-- The workflow may get such events, and no other workflow any. -/
def Keeping (id other : WorkflowId) (event : Event) : Prop := other = id ∧ KeepsOutcome event

theorem GrownBy.grownTo {id : WorkflowId} {store last : InMemoryStore}
    (h : GrownBy (Keeping id) store last) :
    ∃ added, GrownTo id added store last ∧ ∀ event ∈ added, KeepsOutcome event := by
  obtain ⟨added, hadd, hmay⟩ := h.added id
  refine ⟨added, fun other => ?_, fun event hev => (hmay event hev).2⟩
  split_ifs with hother
  · rw [hother]
    exact hadd
  · obtain ⟨none, hnone, hmay'⟩ := h.added other
    rw [hnone, List.eq_nil_iff_forall_not_mem.mpr fun event hev => hother (hmay' event hev).1]

section Parts

variable {α β : Type} {store last : InMemoryStore} {state : ExitState}

variable {first : ExitM α} {f : α → ExitM β}

theorem ExitM.ends_bind_iff {outcome : Except StartFailure β × ExitState} :
    Prog.Ends FaultyAnswers ((first >>= f : ExitM β) state) store outcome last ↔
      (∃ failure state', outcome = (.error failure, state') ∧
        Prog.Ends FaultyAnswers (first state) store (.error failure, state') last) ∨
      ∃ value state' middle, Prog.Ends FaultyAnswers (first state) store
        (.ok value, state') middle ∧
        Prog.Ends FaultyAnswers (f value state') middle outcome last :=
  ends_bind_except_iff (by intro _ _; rfl)

/-- A step that fails is noted, and nothing else of it. -/
theorem ends_attempt {step : ExitStep} {operation : EngineM α}
    {outcome : Except StartFailure α × ExitState}
    (h : Prog.Ends FaultyAnswers (attempt step operation state) store outcome last) :
    (∃ value, outcome = (.ok value, state) ∧
        Prog.Ends FaultyAnswers operation store (.ok value) last) ∨
      ∃ failure, outcome = (.error failure, { state with failed := state.failed ++ [step] }) ∧
        Prog.Ends FaultyAnswers operation store (.error failure) last := by
  obtain ⟨(failure | value), middle, hop, h⟩ := Interleaving.ends_bind_iff.mp h
  · obtain ⟨rfl, rfl⟩ := ends_done_iff.mp h
    exact .inr ⟨failure, rfl, hop⟩
  · obtain ⟨rfl, rfl⟩ := ends_done_iff.mp h
    exact .inl ⟨value, rfl, hop⟩

theorem ends_recordingStep {step : ExitStep} {operation : RecorderM Unit}
    {outcome : Except StartFailure Unit × ExitState}
    (h : Prog.Ends FaultyAnswers (recording step operation state) store outcome last) :
    (∃ recorder, outcome = (.ok (), { state with recorder }) ∧
      Prog.Ends FaultyAnswers (operation state.recorder) store (.ok (), recorder) last) ∨
      ∃ error recorder, outcome = (.error (.durability error),
          { state with recorder, failed := state.failed ++ [step] }) ∧
        Prog.Ends FaultyAnswers (operation state.recorder) store (.error error, recorder) last := by
  obtain ⟨⟨(error | value), recorder⟩, middle, hop, h⟩ := Interleaving.ends_bind_iff.mp h
  · obtain ⟨rfl, rfl⟩ := ends_done_iff.mp h
    exact .inr ⟨error, recorder, rfl, hop⟩
  · obtain ⟨rfl, rfl⟩ := ends_done_iff.mp h
    exact .inl ⟨recorder, rfl, hop⟩

/-- A step that comes after the bell. -/
def ExitStep.afterBell : ExitStep → Bool
  | .upsertVisibility => true
  | .reconcile => true
  | .replaceResidency => true
  | .startReplacement => true
  | _ => false

/-- What comes after the bell: it rings nothing and appends no terminal, whatever fails of it. -/
def AfterBell (id : WorkflowId) (operation : ExitM α) : Prop :=
  ∀ state store outcome last, Prog.Ends FaultyAnswers (operation state) store outcome last →
    GrownBy (Keeping id) store last ∧ outcome.2.rung = state.rung ∧
      ∃ failed, outcome.2.failed = state.failed ++ failed ∧ ∀ step ∈ failed, step.afterBell

theorem AfterBell.bind {id : WorkflowId} (h : AfterBell id first)
    (hf : ∀ value, AfterBell id (f value)) : AfterBell id (first >>= f) := by
  intro state store outcome last hends
  rcases ExitM.ends_bind_iff.mp hends with ⟨failure, state', rfl, hfst⟩ | ⟨value, state', middle,
    hfst, hrest⟩
  · exact h state store _ last hfst
  · obtain ⟨hgrown, hrung, failed, hfail, hafter⟩ := h state store _ middle hfst
    obtain ⟨hgrown', hrung', failed', hfail', hafter'⟩ := hf value state' middle outcome last hrest
    refine ⟨hgrown.trans hgrown', hrung'.trans hrung, failed ++ failed', ?_, fun step hstep => ?_⟩
    · rw [hfail', hfail, List.append_assoc]
    · rcases List.mem_append.mp hstep with hstep | hstep
      · exact hafter step hstep
      · exact hafter' step hstep

theorem afterBell_pure {id : WorkflowId} (value : α) : AfterBell id (pure value) := by
  intro state store outcome last h
  obtain ⟨rfl, rfl⟩ := ends_done_iff.mp h
  exact ⟨.refl _, rfl, [], (List.append_nil _).symm, by simp⟩

theorem afterBell_attempt {id : WorkflowId} {step : ExitStep} {operation : EngineM α}
    (hstep : step.afterBell)
    (hgrown : ∀ store outcome last, Prog.Ends FaultyAnswers operation store outcome last →
        GrownBy (Keeping id) store last) : AfterBell id (attempt step operation) := by
  intro state store outcome last h
  rcases ends_attempt h with ⟨value, rfl, hop⟩ | ⟨failure, rfl, hop⟩
  · exact ⟨hgrown _ _ _ hop, rfl, [], (List.append_nil _).symm, by simp⟩
  · exact ⟨hgrown _ _ _ hop, rfl, [step], rfl, by simpa using hstep⟩

theorem afterBell_registry {id : WorkflowId} {poisoned : ExitStep → Bool} {step : ExitStep}
    {change : WorkflowStatus × HandleResidency → WorkflowStatus × HandleResidency}
    (hstep : step.afterBell) : AfterBell id (registry poisoned step change) := by
  intro state store outcome last h
  unfold registry at h
  split_ifs at h
  · obtain ⟨rfl, rfl⟩ := ends_done_iff.mp h
    exact ⟨.refl _, rfl, [step], rfl, by simpa using hstep⟩
  · obtain ⟨rfl, rfl⟩ := ends_done_iff.mp h
    exact ⟨.refl _, rfl, [], (List.append_nil _).symm, by simp⟩

end Parts

/-! ### How a call ends -/

/-- The terminal that the call rings with, and what it has recorded for it. -/
inductive Decided (history : List Event) (run : RunId) (outcome : ProcessOutcome) :
    TerminalOutcome → List Event → Prop where
  /-- It was in the history. -/
  | found {existing : TerminalOutcome}
    (h : terminalOutcomeFromHistory history run = some existing) :
    Decided history run outcome existing []
  /-- It is recorded for the outcome of the process. -/
  | recorded (h : terminalOutcomeFromHistory history run = none) (envelope : EventEnvelope) :
    Decided history run outcome outcome.terminal [⟨envelope, processOutcomeBody outcome⟩]

/-- The four ways for a call to end. -/
inductive ExitEnd (handle : WorkflowHandle) (outcome : ProcessOutcome) (store last : InMemoryStore)
    (state : ExitState) : Prop where
  /-- The history was not read. -/
  | unread (rung : state.rung = []) (failed : state.failed = [.readHistory])
    (grown : GrownTo handle.workflowId [] store last)
  /-- No terminal was recorded. -/
  | unrecorded (hopen : terminalOutcomeFromHistory (store.history handle.workflowId) handle.runId =
        none) (rung : state.rung = [])
    (failed : state.failed = [.recordTerminal]) (grown : GrownTo handle.workflowId [] store last)
  /-- The terminal was decided on and not rung. -/
  | muted {terminal : TerminalOutcome} {recorded added : List Event}
    (decided : Decided (store.history handle.workflowId) handle.runId outcome terminal recorded)
    (keeps : ∀ event ∈ added, KeepsOutcome event) (rung : state.rung = []) (failed : state.failed = [.retireDeadline])
    (grown : GrownTo handle.workflowId (recorded ++ added) store last)
  /-- The terminal was decided on and rung. -/
  | rung {terminal : TerminalOutcome} {recorded added : List Event}
    (decided : Decided (store.history handle.workflowId) handle.runId outcome terminal recorded)
    (keeps : ∀ event ∈ added, KeepsOutcome event) (rung : state.rung = [terminal])
    (failed : ∀ step ∈ state.failed, step.afterBell)
    (grown : GrownTo handle.workflowId (recorded ++ added) store last)

section Ends

variable {env : ExitEnvironment} {handle : WorkflowHandle} {store last : InMemoryStore}
  {state : ExitState}

theorem grownBy_of_reads {id : WorkflowId} {α : Type} {operation : EngineM α}
    (hreads : Prog.Calls StoreCall.Reads operation) {outcome : Except StartFailure α}
    (h : Prog.Ends FaultyAnswers operation store outcome last) : GrownBy (Keeping id) store last :=
  .of_sameHistories (sameHistories_of_reads hreads h)

theorem afterBell_reconcileTerminalRegistry :
    AfterBell handle.workflowId (reconcileTerminalRegistry env handle) := by
  refine (afterBell_attempt rfl fun _ _ _ h =>
      grownBy_of_reads (EngineM.calls_readHistory trivial) h).bind fun history => ?_
  exact (afterBell_registry rfl).bind fun _ => afterBell_registry rfl

theorem RunStarted.grownBy {id : WorkflowId} {body : EventBody} (h : RunStarted store id body last)
    (hbody : ∀ envelope, isWorkflowStarted ⟨envelope, body⟩) : GrownBy (Keeping id) store last where
  numbered := h.numbered
  added other := by
    obtain ⟨envelope, added, hadd, htimers⟩ := h.started
    by_cases hother : other = id
    · subst hother
      refine ⟨_, hadd, fun event hev => ⟨rfl, ?_⟩⟩
      rcases List.mem_cons.mp hev with rfl | hev
      · exact .inr (hbody envelope)
      · obtain ⟨timerId, fireAt, hbody⟩ := htimers event hev
        obtain ⟨envelope, body⟩ := event
        subst hbody
        exact .inl rfl
    · exact ⟨[], (h.others other hother).trans (List.append_nil _).symm, by simp⟩

theorem afterBell_startReplacement {input : Payload} {workflowType : Option String}
    {parentRunId : RunId} :
    AfterBell handle.workflowId (startReplacement env handle input workflowType parentRunId) := by
  refine (afterBell_attempt rfl fun _ _ _ h =>
      grownBy_of_reads (EngineM.calls_readHistory trivial) h).bind fun current => ?_
  cases hreq : startContinuationReplacement current handle input workflowType parentRunId with
  | none => exact afterBell_pure ()
  | some request =>
    have hid : request.options.workflowId = some handle.workflowId ∧ request.options.searchAttributes.entries = [] := by
      unfold startContinuationReplacement at hreq
      split_ifs at hreq
      cases hreq
      exact ⟨rfl, rfl⟩
    refine (afterBell_attempt rfl fun store outcome last h => ?_).bind fun _ =>
      afterBell_attempt rfl fun _ _ _ h => ?_
    · rcases ends_startWorkflowWithOptions hid.1 hid.2 h with ⟨-, hsame⟩ | ⟨loaded, -, hstrt⟩
      · exact .of_sameHistories hsame
      · exact hstrt.grownBy fun _ => rfl
    · obtain ⟨-, rfl⟩ := ends_done_iff.mp h
      exact .refl _

theorem afterBell_afterExisting {existing : TerminalOutcome} :
    AfterBell handle.workflowId (afterExisting env handle existing) := by
  refine afterBell_reconcileTerminalRegistry.bind fun _ => ?_
  cases existing with
  | continuedAsNew input workflowType parentRunId => exact afterBell_startReplacement
  | _ => exact afterBell_pure ()

theorem afterBell_afterRecorded : AfterBell handle.workflowId (afterRecorded env handle) :=
  (afterBell_attempt rfl fun _ _ _ h => grownBy_of_reads reads_upsertWorkflowVisibility h).bind
    fun _ => afterBell_reconcileTerminalRegistry

variable {ended : Except StartFailure Unit × ExitState} {history : List Event} {run : RunId}

theorem appendsOnly_retireRunDeadline {parseUuid : String → Option Uuid} {now : Instant}
    {recorder : Recorder} : Prog.Calls (StoreCall.AppendsOnly (Keeping recorder.workflowId))
      (retireRunDeadline parseUuid now history run recorder) := by
  unfold retireRunDeadline
  cases outstandingDeadlineTimer parseUuid history run with
  | none => trivial
  | some deadlineId =>
    refine calls_appendWith fun envelope event hev => ?_
    rw [List.mem_singleton.mp hev]
    exact ⟨rfl, .inl rfl⟩

/-- A retirement appends the end of a deadline at most, and the call goes on unless it fails. -/
theorem ends_retirement (hid : state.recorder.workflowId = handle.workflowId)
    {outcome : Except StartFailure Unit × ExitState}
    (h : Prog.Ends FaultyAnswers (recording .retireDeadline
        (retireRunDeadline env.parseUuid env.now history run) state) store outcome last) :
    (∃ added, GrownTo handle.workflowId added store last ∧ ∀ event ∈ added, KeepsOutcome event) ∧
      outcome.2.rung = state.rung ∧
      ((outcome.1 = .ok () ∧ outcome.2.failed = state.failed) ∨
        (∃ failure, outcome.1 = .error failure) ∧
          outcome.2.failed = state.failed ++ [.retireDeadline]) := by
  rcases ends_recordingStep h with ⟨recorder, rfl, hretire⟩ | ⟨error, recorder, rfl, hretire⟩
  · have hgrown := grownBy_of_appendsOnly appendsOnly_retireRunDeadline hretire
    rw [hid] at hgrown
    exact ⟨hgrown.grownTo, rfl, .inl ⟨rfl, rfl⟩⟩
  · have hgrown := grownBy_of_appendsOnly appendsOnly_retireRunDeadline hretire
    rw [hid] at hgrown
    exact ⟨hgrown.grownTo, rfl, .inr ⟨⟨_, rfl⟩, rfl⟩⟩

/-- What comes before the bell: the retirement of a deadline, where that is up to this call. -/
def Retires (env : ExitEnvironment) (retirement : ExitM Unit) : Prop :=
  retirement = pure () ∨
    ∃ history run, retirement = recording .retireDeadline
      (retireRunDeadline env.parseUuid env.now history run)

/-- A call that has decided on a terminal: it retires the deadline, rings and goes on. -/
theorem ends_decided {recorded : List Event} {outcome : ProcessOutcome} {terminal : TerminalOutcome}
    {retirement after : ExitM Unit}
    (decided : Decided (store.history handle.workflowId) handle.runId outcome terminal recorded)
    (hmid : GrownTo handle.workflowId recorded store middle) (hid : state.recorder.workflowId = handle.workflowId)
    (hrung : state.rung = []) (hfail : state.failed = [])
    (hretirement : Retires env retirement) (hafter : AfterBell handle.workflowId after)
    (h : Prog.Ends FaultyAnswers ((do retirement; notify terminal; after : ExitM Unit) state) middle ended last) :
    ExitEnd handle outcome store last ended.2 := by
  have hretd : ∀ retired first, Prog.Ends FaultyAnswers (retirement state) middle retired first →
      (∃ added, GrownTo handle.workflowId added middle first ∧ ∀ event ∈ added, KeepsOutcome event) ∧ retired.2.rung = [] ∧
        ((retired.1 = .ok () ∧ retired.2.failed = []) ∨ (∃ failure, retired.1 = .error failure) ∧
            retired.2.failed = [.retireDeadline]) := by
    intro retired first hends
    rcases hretirement with rfl | ⟨history, run, rfl⟩
    · obtain ⟨rfl, rfl⟩ := ends_done_iff.mp hends
      exact ⟨⟨[], (SameHistories.refl _).grownTo, by simp⟩, hrung, .inl ⟨rfl, hfail⟩⟩
    · simpa [hrung, hfail] using ends_retirement hid hends
  rcases ExitM.ends_bind_iff.mp h with ⟨failure, state', rfl, hfst⟩ | ⟨value, state', first,
    hfst, hrest⟩
  · obtain ⟨⟨added, hadd, hkeeps⟩, hrung', ⟨hok, -⟩ | ⟨-, hfail'⟩⟩ := hretd _ _ hfst
    · cases hok
    · exact .muted decided hkeeps hrung' hfail' (hmid.trans hadd)
  · obtain ⟨⟨added, hadd, hkeeps⟩, hrung', ⟨-, hfail'⟩ | ⟨⟨failure, herr⟩, -⟩⟩ := hretd _ _ hfst
    · rcases ExitM.ends_bind_iff.mp hrest with ⟨failure, state'', rfl, hnotify⟩ | ⟨value', state'', second, hnotify, hrest⟩
      · cases (ends_done_iff.mp hnotify).1
      · obtain ⟨hst, rfl⟩ := ends_done_iff.mp hnotify
        obtain ⟨-, rfl⟩ := Prod.mk.inj hst
        obtain ⟨hgrown, hrang, failed, hfail'', hlat⟩ := hafter _ _ _ _ hrest
        obtain ⟨added', hadd', hkeeps'⟩ := hgrown.grownTo
        refine @ExitEnd.rung _ _ _ _ _ terminal recorded (added ++ added') decided ?_ ?_ ?_ ?_
        · intro event hev
          rcases List.mem_append.mp hev with hev | hev
          · exact hkeeps event hev
          · exact hkeeps' event hev
        · rw [hrang, hrung']
          rfl
        · rw [hfail'', hfail']
          exact hlat
        · exact hmid.trans (hadd.trans hadd')
    · cases herr

theorem ends_handleProcessExitAsync (numbered : store.Numbered) {outcome : ProcessOutcome}
    {sequence : SequenceHead} {visibility runId : Option RunId}
    {registered : Option (WorkflowStatus × HandleResidency)}
    (h : Prog.Ends FaultyAnswers (handleProcessExitAsync env handle outcome
        (.begin handle sequence visibility runId registered)) store ended last) :
    ExitEnd handle outcome store last ended.2 := by
  rcases ExitM.ends_bind_iff.mp h with ⟨failure, state', rfl, hread⟩ | ⟨history, state', middle,
    hread, hrest⟩
  · rcases ends_attempt hread with ⟨history, hok, -⟩ | ⟨failure, hfailure, hread⟩
    · cases hok
    · obtain ⟨rfl, -⟩ := EngineM.ends_readHistory hread
      cases hfailure
      exact .unread rfl rfl (SameHistories.refl _).grownTo
  · rcases ends_attempt hread with ⟨history, hok, hread⟩ | ⟨failure, hfailure, -⟩
    · obtain ⟨hhist, rfl⟩ := EngineM.ends_readHistory_ok hread
      cases hok
      rw [InMemoryStore.readHistory_of_numbered numbered] at hhist
      subst hhist
      cases hout : terminalOutcomeFromHistory (store.history handle.workflowId) handle.runId with
      | some existing =>
        simp only [hout] at hrest
        have hretires : Retires env (resumeTerminal env handle (store.history handle.workflowId) existing) := by
          unfold resumeTerminal
          split_ifs
          · exact .inl rfl
          · exact .inr ⟨_, _, rfl⟩
        exact ends_decided (.found hout) (SameHistories.refl _).grownTo rfl rfl rfl hretires afterBell_afterExisting hrest
      | none =>
        simp only [hout] at hrest
        rcases ExitM.ends_bind_iff.mp hrest with ⟨failure, state', rfl, hstep⟩ | ⟨value, state', middle, hstep, hdecd⟩
        · rcases ends_recordingStep hstep with ⟨recorder, hok, -⟩ | ⟨error, recorder, hfail, hrec⟩
          · cases hok
          · rw [recordProcessOutcome_eq] at hrec
            obtain ⟨-, rfl⟩ := Prod.mk.inj hfail
            rcases ends_appendThenSettle hrec with ⟨hok, -⟩ | ⟨-, hsame⟩
            · cases hok
            · exact .unrecorded hout rfl rfl hsame.grownTo
        · rcases ends_recordingStep hstep with ⟨recorder, hok, hrec⟩ | ⟨error, recorder, hfail, -⟩
          · rw [recordProcessOutcome_eq] at hrec
            obtain ⟨-, rfl⟩ := Prod.mk.inj hok
            rcases ends_appendThenSettle hrec with ⟨-, happd⟩ | ⟨⟨error, herr⟩, -⟩
            · obtain ⟨envelope, hhist⟩ := happd.histories
              have hretires : Retires env (recording .retireDeadline
                  (retireRunDeadline env.parseUuid env.now (store.history handle.workflowId) handle.runId)) := .inr ⟨_, _, rfl⟩
              exact ends_decided (.recorded hout envelope) hhist happd.workflowId_eq rfl rfl hretires
                afterBell_afterRecorded hdecd
            · cases herr
          · cases hfail
    · cases hfailure

end Ends

/-! ### When the bell is rung -/

/-- What is promised of the bell. -/
structure DoorbellRung (handle : WorkflowHandle) (store last : InMemoryStore) (state : ExitState) :
    Prop where
  /-- A terminal of the run's lease that the call has recorded or found was rung. -/
  rung : ∀ terminal, terminalOutcomeFromHistory (last.history handle.workflowId) handle.runId =
    some terminal →
    (terminalOutcomeFromHistory (store.history handle.workflowId) handle.runId = some terminal →
        .readHistory ∉ state.failed) →
      terminal ∈ state.rung
  /-- The call appends one terminal at most. -/
  single : ∃ added, GrownTo handle.workflowId added store last ∧ added.countP isWorkflowTerminal ≤ 1

section Bell

variable {env : ExitEnvironment} {handle : WorkflowHandle} {store last : InMemoryStore}
  {state : ExitState} {outcome : ProcessOutcome}
  {terminal : TerminalOutcome} {recorded added : List Event}

theorem Decided.count_le
    (h : Decided (store.history handle.workflowId) handle.runId outcome terminal recorded)
    (keeps : ∀ event ∈ added, KeepsOutcome event) :
    (recorded ++ added).countP isWorkflowTerminal ≤ 1 := by
  have hadd : added.countP isWorkflowTerminal = 0 :=
    List.countP_eq_zero.mpr fun event hev => by simp [(keeps event hev).not_terminal]
  rw [List.countP_append, hadd]
  cases h with
  | found h => simp
  | recorded h envelope => exact List.countP_le_length

/-- What the run's outcome is after a call that has decided on a terminal. -/
theorem Decided.outcome_eq
    (h : Decided (store.history handle.workflowId) handle.runId outcome terminal recorded)
    (keeps : ∀ event ∈ added, KeepsOutcome event)
    (grown : GrownTo handle.workflowId (recorded ++ added) store last) :
    terminalOutcomeFromHistory (last.history handle.workflowId) handle.runId =
      if (terminalOutcomeFromHistory (store.history handle.workflowId) handle.runId).isSome ∨
        isLastRun (store.history handle.workflowId) handle.runId then some terminal else none := by
  rw [grown, if_pos rfl, ← List.append_assoc, outcome_append keeps]
  cases h with
  | found h => simp [h]
  | recorded h envelope => simp [outcome_recorded h, h]

/-- **When the doorbell is muted.** Whatever the store, the recorder and the registry refuse, a
terminal that the call has recorded or found is rung with unless the retirement of the deadline
fails, in a run that has an outcome or gets one. -/
theorem doorbell_rung_iff (numbered : store.Numbered) {sequence : SequenceHead}
    {visibility runId : Option RunId} {registered : Option (WorkflowStatus × HandleResidency)}
    {ended : Except StartFailure Unit × ExitState}
    (h : Prog.Ends FaultyAnswers (handleProcessExitAsync env handle outcome
        (.begin handle sequence visibility runId registered)) store ended last) :
    DoorbellRung handle store last ended.2 ↔
      .retireDeadline ∉ ended.2.failed ∨
        terminalOutcomeFromHistory (store.history handle.workflowId) handle.runId = none ∧
          ¬ isLastRun (store.history handle.workflowId) handle.runId := by
  cases ends_handleProcessExitAsync numbered h with
  | unread rung failed grown =>
    refine iff_of_true ⟨?_, _, grown, by simp⟩ (.inl (by simp [failed]))
    intro terminal hlast hread
    rw [grown, if_pos rfl, List.append_nil] at hlast
    exact absurd (by simp [failed]) (hread hlast)
  | unrecorded hopen rung failed grown =>
    refine iff_of_true ⟨?_, _, grown, by simp⟩ (.inl (by simp [failed]))
    intro terminal hlast
    rw [grown, if_pos rfl, List.append_nil, hopen] at hlast
    cases hlast
  | muted decided keeps rung failed grown =>
    have hout := decided.outcome_eq keeps grown
    constructor
    · intro hbell
      right
      by_contra hdecd
      rw [if_pos (by rw [Option.isSome_iff_ne_none]; tauto)] at hout
      have hmem := hbell.rung _ hout fun _ => by simp [failed]
      simp [rung] at hmem
    · rintro (hretd | ⟨hopen, hother⟩)
      · simp [failed] at hretd
      · refine ⟨?_, _, grown, decided.count_le keeps⟩
        intro terminal hlast
        rw [hout, if_neg (by simp [hopen, hother])] at hlast
        cases hlast
  | rung decided keeps rung failed grown =>
    refine iff_of_true ⟨?_, _, grown, decided.count_le keeps⟩ (.inl ?_)
    · intro terminal hlast _
      rw [decided.outcome_eq keeps grown] at hlast
      split_ifs at hlast
      rw [rung, List.mem_singleton, Option.some.inj hlast]
    · intro hmem
      cases failed _ hmem

end Bell

/-! ### A run whose deadline is not retired -/

/-- A run with a declared timeout. -/
def timedRun : List Event :=
  numbered [.workflowStarted "billing" .empty ⟨0⟩ none ⟨"v1"⟩,
      .timerStarted (deadlineTimerId ⟨0⟩) 1000]

/-- The call of its monitor. -/
def exitOfTimedRun (outcome : ProcessOutcome) :
    Prog StoreCall StoreCall.Answer (Except StartFailure Unit × ExitState) :=
  handleProcessExitAsync ⟨billingEnvironment ⟨1⟩, 9, Uuid.parseHyphenated, fun _ => false, .ok ()⟩
    ⟨⟨0⟩, ⟨0⟩, "billing", "default"⟩
    outcome (.begin ⟨⟨0⟩, ⟨0⟩, "billing", "default"⟩ ⟨2⟩ none (some ⟨0⟩) (some (.running, .resident)))

/-- The store refuses to append that a timer is cancelled. -/
def serveFull (store : InMemoryStore) (call : StoreCall) : call.Answer × InMemoryStore :=
  match call with
  | .append _ [⟨_, .timerCancelled ..⟩] _ => (.error (.backend "no space left on device"), store)
  | call => store.serve call

/-- A store with no space left for cancellations of timers. -/
def fullStore : Service InMemoryStore StoreCall StoreCall.Answer Event := ⟨serveFull, fun _ _ => []⟩

theorem ends_fullStore {α : Type} (program : Prog StoreCall StoreCall.Answer α)
    (store : InMemoryStore) :
    program.Ends FaultyAnswers store (fullStore.run program store).1
      (fullStore.run program store).2 := by
  refine (ends_run fullStore program store).mono fun {store call answer middle} hserv => ?_
  change serveFull store call = _ at hserv
  unfold serveFull at hserv
  split at hserv
  · cases hserv
    exact .inr ⟨trivial, rfl⟩
  · exact .inl hserv

/-- Where the call ends with that store. -/
def mutedExit : (Except StartFailure Unit × ExitState) × InMemoryStore :=
  fullStore.run (exitOfTimedRun (.completed .empty)) (storeOf timedRun)

/-- The run has its result, and no one is told. -/
theorem retirement_mutes_doorbell :
    Prog.Ends FaultyAnswers (exitOfTimedRun (.completed .empty))
      (storeOf timedRun) mutedExit.1 mutedExit.2 ∧
      terminalOutcomeFromHistory ((storeOf timedRun).history ⟨0⟩) ⟨0⟩ = none ∧
      terminalOutcomeFromHistory (mutedExit.2.history ⟨0⟩) ⟨0⟩ = some (.completed .empty) ∧
        mutedExit.1.2.rung = [] ∧
      ¬ DoorbellRung ⟨⟨0⟩, ⟨0⟩, "billing", "default"⟩
      (storeOf timedRun) mutedExit.2 mutedExit.1.2 := by
  have hbef : terminalOutcomeFromHistory ((storeOf timedRun).history ⟨0⟩) ⟨0⟩ = none := by
    decide +kernel
  have hafter : terminalOutcomeFromHistory (mutedExit.2.history ⟨0⟩) ⟨0⟩ = some (.completed .empty) := by decide +kernel
  have hrung : mutedExit.1.2.rung = [] := by decide +kernel
  refine ⟨ends_fullStore _ _, hbef, hafter, hrung, fun hbell => ?_⟩
  have hmem := hbell.rung _ hafter fun hfd => by rw [hbef] at hfd; cases hfd
  rw [hrung] at hmem
  cases hmem

/-- With a store that is not full they are told. -/
theorem doorbell_rung_iff_timedRun :
    ∃ ended last, Prog.Ends FaultyAnswers (exitOfTimedRun (.completed .empty))
      (storeOf timedRun) ended last ∧
      DoorbellRung ⟨⟨0⟩, ⟨0⟩, "billing", "default"⟩ (storeOf timedRun) last ended.2 := by
  have hends := ends_faultless (exitOfTimedRun (.completed .empty)) (storeOf timedRun)
  refine ⟨_, _, hends, (doorbell_rung_iff (numbered_storeOf rfl) hends).mpr (.inl ?_)⟩
  decide +kernel

end Aion
