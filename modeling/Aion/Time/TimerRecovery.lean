import Aion.Time.TimerOutcomes

/-!
# Timers and time

What sets a timer off is a task of the live wheel or, when that was lost, a durable row that has
expired (`time/recovery.rs`). Both name the instant the timer was scheduled for, and neither
goes off before it. But the fire that follows asks only whether the timer is live, and ids come
back: a row of an earlier start stays until the timer is scheduled again, and the sleeps of a
continued run are numbered from zero like those before.

`fire_before_its_instant` is such a run. `never_early` is what does hold, over any run: as long
as every fire was set off for an instant that is not before the one its live start names, no
timer fires early.

The order in which a map is iterated is the environment's.
-/

namespace Aion

open Interleaving

/-! ### Recovery -/

/-- One event of `outstanding_future_timers`. -/
def outstandingStep (outstanding : AList fun _ : TimerId => Instant) (event : Event) :
    AList fun _ : TimerId => Instant :=
  match event.body with
  | .timerStarted timerId fireAt => outstanding.insert timerId fireAt
  | .timerFired timerId => outstanding.erase timerId
  | .timerCancelled timerId _ => outstanding.erase timerId
  | _ => outstanding

/-- `outstanding_future_timers`. -/
def outstandingFutureTimers (history : List Event) (now : Instant) : List (TimerId × Instant) :=
  ((history.foldl outstandingStep ∅).entries.map fun entry => (entry.1, entry.2)).filter
    fun timer => now < timer.2

/-- What the calls of one caller find. -/
structure RecoveryEnvironment where
  /-- What the calls of the service find, the `n`-th attempt of a task in its turn. -/
  attempts : ℕ → TimerEnvironment
  /-- The order in which outstanding timers are listed. -/
  arrange : List (TimerId × Instant) → List (TimerId × Instant)

namespace TimerService

/-- `deadline_remains_live`. -/
def deadlineRemainsLive (env : TimerEnvironment) (workflowId : WorkflowId) (timerId : TimerId) :
    TimerM Bool :=
  match deadlineRunId env.parseUuid timerId with
  | none => return false
  | some runId => do
    let history ← TimerM.call (.readHistory workflowId)
    return (outstandingDeadlineTimer env.parseUuid history runId).isSome

/-- `fire_wheel_timer`: a deadline that fails while it is live is tried again. -/
def fireWheelTimer (attempts : ℕ → TimerEnvironment) (workflowId : WorkflowId) (timerId : TimerId)
    (fireAt : Instant) : ℕ → TimerM Unit
  | 0 => return ()
  | left + 1 => Prog.bind (fireTimer (attempts left) workflowId timerId fireAt) fun
    | .ok () => .done (.ok ())
    | .error .dropped => .done (.error .dropped)
    | .error (.failed _) =>
      if isDeadlineTimer timerId then
        (do
          if ← deadlineRemainsLive (attempts left) workflowId timerId then
            fireWheelTimer attempts workflowId timerId fireAt left : TimerM Unit)
      else .done (.ok ())

/-- `MAX_ATTEMPTS`. -/
def maxAttempts : ℕ := 6

end TimerService

/-- The error of an orphaned timer. -/
def TimerStop.unknownWorkflow : TimerStop → Bool
  | .failed (.engine (.unknownWorkflow _)) => true
  | _ => false

/-- The fires of the rows that are due, one after another: a workflow that no longer exists is
passed over, any other failure ends the recovery. -/
def recoverRows (env : RecoveryEnvironment) : List TimerEntry → TimerM Unit
  | [] => return ()
  | entry :: due => Prog.bind
      (TimerService.fireTimer (env.attempts due.length) entry.workflowId entry.timerId entry.fireAt) fun
    | .ok () => recoverRows env due
    | .error stop => if stop.unknownWorkflow then recoverRows env due else .done (.error stop)

variable (env : RecoveryEnvironment)

/-- `recover_due`. -/
def recoverDue (now : Instant) : TimerM Unit := do
  let due ← TimerM.call (.expiredTimers now)
  recoverRows env due

/-- `rearm_future_from_active_histories`. -/
def rearmFutureFromActiveHistories (now : Instant) : TimerM Unit := do
  let active : List WorkflowId ← TimerM.call .listActive
  active.forM fun workflowId => do
    let history ← TimerM.call (.readHistory workflowId)
    (env.arrange (outstandingFutureTimers history now)).forM fun timer =>
      TimerService.schedule workflowId timer.1 timer.2

/-- `recover_on_startup`. -/
def recoverOnStartup : TimerM Unit := do
  let now ← TimerM.call .clock
  recoverDue env now
  rearmFutureFromActiveHistories env now

/-- `tick`. -/
def recoveryTick : TimerM Unit := do
  let now ← TimerM.call .clock
  recoverDue env now

/-- A task that is done is removed, unless another was armed in its place. -/
def removeTask (pid : ℕ) (timerId : TimerId) (task : PendingTimer) : TimerM Unit := do
  match ← TimerM.call (.pendingTimer pid timerId) with
  | none => return ()
  | some armed => if armed.generation = task.generation then TimerM.call (.disarmTimer ⟨pid⟩ timerId) else return ()

/-- A task of the wheel fires when its time has come. -/
def wheelTask (pid : ℕ) (timerId : TimerId) : TimerM Unit := do
  let now : Instant ← TimerM.call .clock
  match ← TimerM.call (.pendingTimer pid timerId) with
  | none => return ()
  | some task =>
    if task.fireAt ≤ now then
      TimerService.fireWheelTimer env.attempts task.workflowId timerId task.fireAt TimerService.maxAttempts
      removeTask pid timerId task
    else return ()

/-- The workflow starts a timer: it records the start and then schedules the timer. -/
def startTimer (workflowId : WorkflowId) (timerId : TimerId) (fireAt recordedAt : Instant)
    (head : ℕ) : TimerM Unit := do
  let answer ← TimerM.call (.append workflowId [⟨⟨head + 1, recordedAt, workflowId⟩,
      .timerStarted timerId fireAt⟩] head)
  match answer with
  | .error error => TimerM.stop (.failed (.store error))
  | .ok () => TimerService.schedule workflowId timerId fireAt

/-! ### The callers -/

/-- The steps of the other writers: they take no part in the service and record no fire. -/
def WritesNoFire : TimerCall → Prop
  | .append _ events _ => ∀ event ∈ events, ∀ timerId, event.body ≠ .timerFired timerId
  | call => OtherWrites call

/-- Who acts on timers. -/
inductive TimerActor where
  | start (workflowId : WorkflowId) (timerId : TimerId) (fireAt recordedAt : Instant) (head : ℕ)
  | wheel (pid : ℕ) (timerId : TimerId)
  | tick
  | startup
  | cancel (workflowId : WorkflowId) (timerId : TimerId) (cause : TimerCancelCause)
  | crash
  /-- Any other writer, and the clock. -/
  | other (writes : TimerM Unit) (noFire : Prog.Calls WritesNoFire writes)

/-- What an actor does. -/
def TimerActor.call : TimerActor → TimerM Unit
  | .start workflowId timerId fireAt recordedAt head =>
    startTimer workflowId timerId fireAt recordedAt head
  | .wheel pid timerId => wheelTask env pid timerId
  | .tick => recoveryTick env
  | .startup => recoverOnStartup env
  | .cancel workflowId timerId cause =>
    TimerService.cancel (env.attempts 0) workflowId timerId cause
  | .crash => TimerM.call .crash
  | .other writes _ => writes

/-- The program of an actor. -/
abbrev ActorProgram := Prog TimerCall TimerCall.Answer (Except TimerStop Unit × TimerActor)

/-- The programs of an actor, in any environment. -/
def actorPrograms (actor : TimerActor) (program : ActorProgram) : Prop :=
  ∃ env, program = Prog.bind (actor.call env) fun result => .done (result, actor)

/-- The actors on one world. -/
abbrev ActorSystem :=
  System TimerWorld TimerActor (Except TimerStop Unit) TimerCall TimerCall.Answer TimerNote

/-- A step of the actors. -/
abbrev ActorLabel := Label TimerActor (Except TimerStop Unit) TimerCall TimerCall.Answer TimerNote

/-! ### When a timer may fire -/

/-- What an event does to the start that made a timer live. -/
def armedStep (timerId : TimerId) (armed : Option Instant) (event : Event) : Option Instant :=
  match event.body with
  | .timerStarted started fireAt => if started = timerId then armed.or (some fireAt) else armed
  | .timerFired fired => if fired = timerId then none else armed
  | .timerCancelled cancelled _ => if cancelled = timerId then none else armed
  | _ => armed

/-- The instant of the start that made the timer live in the active run. -/
def armedAt (history : List Event) (timerId : TimerId) : Option Instant :=
  (Scan.fromLast isWorkflowStarted history).foldl (armedStep timerId) none

/-- No timer is recorded as fired before the instant of the start that made it live. -/
def NeverEarly (history : List Event) : Prop :=
  ∀ n fired timerId fireAt, history[n]? = some fired → fired.body = .timerFired timerId →
    armedAt (history.take n) timerId = some fireAt → fireAt ≤ fired.recordedAt

/-- The note sets a timer off for an instant. -/
def TimerNote.SetsOff (key : TimerKey) (fireAt : Instant) : TimerNote → Prop
  | .pending timerId task => timerId = key.2 ∧ task.workflowId = key.1 ∧ task.fireAt = fireAt
  | .expired due => ⟨key.1, key.2, fireAt⟩ ∈ due
  | _ => False

/-- The note is none that sets timers off. -/
def TimerNote.Plain : TimerNote → Prop
  | .pending _ _ => False
  | .expired _ => False
  | _ => True

/-- With these notes, a timer is set off for the instant. -/
def SetOff (log : List TimerNote) (key : TimerKey) (fireAt : Instant) : Prop :=
  ∃ before note after, log = before ++ note :: after ∧ note.SetsOff key fireAt ∧ ∀ later ∈ after,
    later.Plain

/-- When a call is about to record a timer as fired, the instant it was set off for is not
before the one of the start that made the timer live. -/
def TimelyFire (s : ActorSystem) (label : ActorLabel) : Prop :=
  ∀ i workflowId event answer timerId actor log rest,
    label = .called i (.recordWorkflowEvent workflowId event) answer →
    event.body = .timerFired timerId → s.clients i = some (.busy actor log rest) →
    ∀ setOffFor, SetOff log (workflowId, timerId) setOffFor → ∀ fireAt,
      armedAt (s.store.store.history workflowId) timerId = some fireAt → fireAt ≤ setOffFor

/-! ### What the calls do -/

/-- The instant a reading of the clock gave. -/
def TimerNote.clock? : TimerNote → Option Instant
  | .clock now => some now
  | _ => none

/-- The clock as it was read last. -/
def lastClock (log : List TimerNote) : Option Instant := Scan.newest TimerNote.clock? log

/-- The clock was read at the instant or later. -/
def Due (log : List TimerNote) (fireAt : Instant) : Prop := ∃ now, .clock now ∈ log ∧ fireAt ≤ now

/-- A call records a timer as fired at the instant it read last, and was set off for an instant
that had come. -/
def MayFire (log : List TimerNote) : TimerCall → Prop
  | .recordWorkflowEvent workflowId event => ∀ timerId, event.body = .timerFired timerId →
    lastClock log = some event.recordedAt ∧ ∃ fireAt, SetOff log (workflowId, timerId) fireAt ∧
      Due log fireAt
  | .append _ events _ => ∀ event ∈ events, ∀ timerId, event.body ≠ .timerFired timerId
  | _ => True

/-- The steps that record no fire and set no timer off. -/
def PlainCall : TimerCall → Prop
  | .recordWorkflowEvent .. => False
  | .pendingTimer .. => False
  | .expiredTimers _ => False
  | .append _ events _ => ∀ event ∈ events, ∀ timerId, event.body ≠ .timerFired timerId
  | _ => True

variable {log notes : List TimerNote} {fireAt now : Instant} {timerId : TimerId}
  {history : List Event} {key : TimerKey} {world : TimerWorld} {note : TimerNote} {event : Event}

theorem SetOff.plain (h : SetOff log key fireAt)
    (hplain : note.Plain) : SetOff (log ++ [note]) key fireAt := by
  obtain ⟨before, first, after, rfl, hfst, hafter⟩ := h
  refine ⟨before, first, after ++ [note], by simp, hfst, fun later hmem => ?_⟩
  rcases List.mem_append.mp hmem with hmem | hmem
  · exact hafter later hmem
  · rw [List.mem_singleton.mp hmem]
    exact hplain

theorem Due.mono {more : List TimerNote} (h : Due log fireAt) : Due (log ++ more) fireAt := by
  obtain ⟨now, hmem, hle⟩ := h
  exact ⟨now, List.mem_append_left _ hmem, hle⟩

theorem plain_of_plainCall (call : TimerCall) (hcall : PlainCall call) {answer : call.Answer}
    (hmem : note ∈ TimerNote.of call answer) : note.Plain := by
  unfold TimerNote.of at hmem
  split at hmem
  all_goals first
    | (rw [List.mem_singleton.mp hmem]; trivial)
    | cases hmem

theorem mayFire_of_plainCall {call : TimerCall} (hcall : PlainCall call) (log : List TimerNote) :
    MayFire log call := by
  cases call with
  | recordWorkflowEvent workflowId event => exact hcall.elim
  | append workflowId events expectedSeq => exact hcall
  | _ => trivial

section Keeps

variable {α β : Type} {holds : List TimerNote → Prop}

/-- From notes of which `holds` is true, the call does what it may and leaves such notes. -/
def Keeps (holds : List TimerNote → Prop) (call : TimerM α) : Prop :=
  ∀ log, holds log → call.Obeys MayFire (fun log _ => holds log) log

/-- What is true of notes stays true with one more that sets no timer off. -/
def Stable (holds : List TimerNote → Prop) : Prop :=
  ∀ log note, note.Plain → holds log → holds (log ++ [note])

variable {first : TimerM α}

theorem Keeps.bind {f : α → TimerM β} (h : Keeps holds first)
    (hf : ∀ value, Keeps holds (f value)) : Keeps holds (first >>= f) :=
  fun log hlog => (h log hlog).bind (fun log value hlog => hf value log hlog) fun _ _ hlog => hlog

/-- A call that is followed however it ends. -/
theorem Keeps.progBind {f : Except TimerStop α → TimerM β} (h : Keeps holds first)
    (hf : ∀ result, Keeps holds (f result)) : Keeps holds (Prog.bind first f : TimerM β) :=
  fun log hlog => Service.Obeys.bind (h log hlog) fun log result hlog => hf result log hlog

theorem keeps_done (result : Except TimerStop α) : Keeps holds (.done result : TimerM α) :=
  fun _ hlog => hlog

theorem Stable.append (stable : Stable holds) (hlog : holds log)
    (hplain : ∀ note ∈ notes, note.Plain) : holds (log ++ notes) := by
  induction notes generalizing log with
  | nil => simpa using hlog
  | cons note notes ih =>
    rw [List.append_cons]
    exact ih (stable log note (hplain note List.mem_cons_self) hlog) fun later hmem =>
      hplain later (List.mem_cons_of_mem _ hmem)

/-- **The plain rule**: a call of plain steps keeps what is stable. -/
theorem keeps_of_plain (stable : Stable holds) {call : TimerM α}
    (hcalls : Prog.Calls PlainCall call) : Keeps holds call := by
  induction call with
  | done value => exact fun _ hlog => hlog
  | call request next ih =>
    intro log hlog
    refine ⟨mayFire_of_plainCall hcalls.1 log, fun world => ?_⟩
    exact ih _ (hcalls.2 _) _ (stable.append hlog fun note hmem => plain_of_plainCall _ hcalls.1 hmem)

theorem calls_bind {may : TimerCall → Prop} {first : TimerM α} {f : α → TimerM β}
    (h : Prog.Calls may first) (hf : ∀ value, Prog.Calls may (f value)) :
    Prog.Calls may (first >>= f : TimerM β) := by
  refine Prog.Calls.bind h ?_
  rintro (stop | value)
  · trivial
  · exact hf value

theorem calls_call {may : TimerCall → Prop} (request : TimerCall) (h : may request) :
    Prog.Calls may (TimerM.call request) := ⟨h, fun _ => trivial⟩

end Keeps

section Plain

theorem calls_await (env : TimerEnvironment) (point : TimerAwait) :
    Prog.Calls PlainCall (TimerM.await env point) := by
  unfold TimerM.await
  split_ifs
  · trivial
  · trivial

theorem calls_liftEngine {α : Type} (answer : Except EngineSeamError α) :
    Prog.Calls PlainCall (TimerM.liftEngine answer) := by
  cases answer with
  | ok value => trivial
  | error error => trivial

theorem calls_timerIsLive (workflowId : WorkflowId) (timerId : TimerId) :
    Prog.Calls PlainCall (TimerService.timerIsLive workflowId timerId) :=
  ⟨trivial, fun _ => trivial⟩

theorem calls_waitForTerminalUpdateSlot (key : TimerKey) (patience : ℕ) :
    Prog.Calls PlainCall (TimerService.waitForTerminalUpdateSlot key patience) := by
  induction patience with
  | zero => trivial
  | succ patience ih =>
    refine ⟨trivial, fun taken => ?_⟩
    change Bool at taken
    cases taken with
    | false => exact ih
    | true => trivial

theorem calls_schedule (workflowId : WorkflowId) (timerId : TimerId) (fireAt : Instant) :
    Prog.Calls PlainCall (TimerService.schedule workflowId timerId fireAt) := by
  refine ⟨trivial, fun _ => ⟨trivial, fun residency => ?_⟩⟩
  cases residency with
  | resident process =>
    exact @calls_bind _ _ PlainCall (TimerM.call (.armTimer process timerId fireAt))
      (fun answer => TimerM.liftEngine answer)
      (calls_call _ trivial) fun answer => calls_liftEngine answer
  | nonResident => trivial
  | unknown => trivial

end Plain

section Fires

variable {holds : List TimerNote → Prop}

theorem keeps_withTerminalUpdateSlot (stable : Stable holds) (env : TimerEnvironment)
    {body : TimerM Unit} (hbody : Keeps holds body) :
    Keeps holds (TimerService.withTerminalUpdateSlot env key body) := by
  refine (keeps_of_plain stable (calls_waitForTerminalUpdateSlot key env.patience)).bind fun _ => ?_
  exact hbody.progBind fun result => keeps_of_plain stable ⟨trivial, fun _ => trivial⟩

variable {workflowId : WorkflowId}

/-- The part of a call that records an outcome at the instant it reads. -/
theorem keeps_record (stable : Stable holds) {body : EventBody}
    (f : Except EngineSeamError RecordOutcome → TimerM Unit) (hf : ∀ answer, Keeps holds (f answer))
    (hfires : ∀ timerId, body = .timerFired timerId → ∀ log, holds log →
      ∃ fireAt, SetOff log (workflowId, timerId) fireAt ∧ Due log fireAt) :
    Keeps holds (do
      let envelope ← TimerService.nextEnvelope workflowId
      let answer ← TimerM.call (.recordWorkflowEvent workflowId ⟨envelope, body⟩)
      f answer) := by
  intro log hlog
  refine ⟨trivial, fun world => ⟨trivial, fun world' => ?_⟩⟩
  generalize hread : log ++ timerSteps.added (.readHistory workflowId) _ = log'
  have hlog' : holds log' := by
    rw [← hread]
    exact stable.append hlog fun note hmem =>
      plain_of_plainCall (.readHistory workflowId) trivial hmem
  have hclock : holds (log' ++ [.clock world'.now]) := stable log' _ trivial hlog'
  have hlast : lastClock (log' ++ [.clock world'.now]) = some world'.now := by
    rw [lastClock, Scan.newest_concat]
    rfl
  refine ⟨?_, fun world'' => ?_⟩
  · intro timerId hbody
    exact ⟨hlast, hfires timerId hbody _ hclock⟩
  · refine hf _ _ (stable.append hclock fun note hmem => ?_)
    generalize (timerSteps.serve world'' (.recordWorkflowEvent workflowId _)).1 = answer at hmem
    change Except EngineSeamError RecordOutcome at answer
    rcases answer with error | _ | _
    · cases hmem
    · rw [List.mem_singleton.mp hmem]
      trivial
    · cases hmem

theorem keeps_cancel (stable : Stable holds) (env : TimerEnvironment) (workflowId : WorkflowId)
    (timerId : TimerId) (cause : TimerCancelCause) :
    Keeps holds (TimerService.cancel env workflowId timerId cause) := by
  refine keeps_withTerminalUpdateSlot stable env ?_
  refine (keeps_of_plain stable (calls_await env .liveness)).bind fun _ => ?_
  refine (keeps_of_plain stable (calls_timerIsLive workflowId timerId)).bind fun live => ?_
  cases live with
  | false => exact keeps_done _
  | true =>
    have hrest : Keeps holds (do
        TimerM.await env .envelope
        let envelope ← TimerService.nextEnvelope workflowId
        let _ ← TimerM.liftEngine (← TimerM.call (.recordWorkflowEvent workflowId ⟨envelope, .timerCancelled timerId cause⟩))
        return () : TimerM Unit) := by
      refine (keeps_of_plain stable (calls_await env .envelope)).bind fun _ => ?_
      refine keeps_record stable (fun answer => do let _ ← TimerM.liftEngine answer; return ()) (fun answer => ?_) (by simp)
      exact (keeps_of_plain stable (calls_liftEngine answer)).bind fun _ => keeps_done _
    simp only [Bool.not_true, Bool.false_eq_true, if_false]
    refine (keeps_of_plain stable (calls_call (.resolveWorkflow workflowId) trivial)).bind
      fun residency => ?_
    cases residency with
    | resident process =>
      have hdisarm : Keeps holds (TimerM.call (.disarmTimer process timerId)) :=
        keeps_of_plain stable (calls_call (.disarmTimer process timerId) trivial)
      exact (hdisarm.bind fun _ => hrest :)
    | nonResident => exact hrest
    | unknown => exact hrest

/-- The part of a firing that follows its record. -/
theorem keeps_delivery (stable : Stable holds) (env : TimerEnvironment) (workflowId : WorkflowId) (timerId : TimerId)
    (fireAt : Instant) (answer : Except EngineSeamError RecordOutcome) :
    Keeps holds (do
      let outcome ← TimerM.liftEngine answer
      if outcome = .refusedTerminal then return ()
      match ← TimerM.call (.resolveWorkflow workflowId) with
      | .resident process =>
        TimerM.call (.deliverWorkflowMessage process timerId fireAt)
        TimerM.liftEngine (env.wake.mapError .delivery)
      | _ => return ()) := by
  refine (keeps_of_plain stable (calls_liftEngine answer)).bind fun outcome => ?_
  split_ifs
  · exact keeps_done _
  refine (keeps_of_plain stable (calls_call (.resolveWorkflow workflowId) trivial)).bind
    fun residency => ?_
  cases residency with
  | resident process =>
    refine (keeps_of_plain stable (calls_call (.deliverWorkflowMessage process timerId fireAt) trivial)).bind fun _ => ?_
    exact keeps_of_plain stable (calls_liftEngine _)
  | nonResident => exact keeps_done _
  | unknown => exact keeps_done _

theorem keeps_fireTimer (stable : Stable holds) (env : TimerEnvironment)
    (hfires : ∀ log, holds log → ∃ fireAt, SetOff log (workflowId, timerId) fireAt ∧
        Due log fireAt) : Keeps holds (TimerService.fireTimer env workflowId timerId fireAt) := by
  refine keeps_withTerminalUpdateSlot stable env ?_
  refine (keeps_of_plain stable (calls_await env .liveness)).bind fun _ => ?_
  refine (keeps_of_plain stable (calls_timerIsLive workflowId timerId)).bind fun live => ?_
  cases live with
  | false => exact keeps_done _
  | true =>
    simp only [Bool.not_true, Bool.false_eq_true, if_false]
    split_ifs
    · unfold TimerService.fireDeadline
      split
      all_goals exact keeps_done _
    refine (keeps_of_plain stable (calls_await env .envelope)).bind fun _ => ?_
    have hfired : ∀ timerId', EventBody.timerFired timerId = .timerFired timerId' →
      ∀ log, holds log →
        ∃ fireAt, SetOff log (workflowId, timerId') fireAt ∧ Due log fireAt := by
      rintro timerId' ⟨⟩
      exact hfires
    have hrec := keeps_record stable _ (keeps_delivery stable env workflowId timerId fireAt) hfired
    exact hrec

theorem keeps_fireWheelTimer (stable : Stable holds) (attempts : ℕ → TimerEnvironment)
    (hfires : ∀ log, holds log → ∃ fireAt, SetOff log (workflowId, timerId) fireAt ∧ Due log fireAt)
    (left : ℕ) :
    Keeps holds (TimerService.fireWheelTimer attempts workflowId timerId fireAt left) := by
  induction left with
  | zero => exact keeps_done _
  | succ left ih =>
    refine (keeps_fireTimer stable (attempts left) hfires).progBind fun result => ?_
    rcases result with (error | _) | value
    · by_cases hdeadline : isDeadlineTimer timerId
      · simp only [hdeadline]
        have hlive : Prog.Calls PlainCall (TimerService.deadlineRemainsLive (attempts left) workflowId timerId) := by
          unfold TimerService.deadlineRemainsLive
          split
          · trivial
          · exact ⟨trivial, fun _ => trivial⟩
        refine (keeps_of_plain stable hlive).bind fun live => ?_
        cases live with
        | false => exact keeps_done _
        | true => exact ih
      · simp only [hdeadline, Bool.false_eq_true]
        exact keeps_done _
    · exact keeps_done _
    · exact keeps_done _

/-- The rows that are due, each of which was set off. -/
theorem keeps_recoverRows (stable : Stable holds) (env : RecoveryEnvironment)
    (due : List TimerEntry)
    (hfires : ∀ entry ∈ due, ∀ log, holds log →
        ∃ fireAt, SetOff log (entry.workflowId, entry.timerId) fireAt ∧ Due log fireAt) :
    Keeps holds (recoverRows env due) := by
  induction due with
  | nil => exact keeps_done _
  | cons entry due ih =>
    have hrest := ih fun later hmem => hfires later (List.mem_cons_of_mem _ hmem)
    refine (keeps_fireTimer stable (env.attempts due.length) (hfires entry List.mem_cons_self)).progBind fun result => ?_
    cases result with
    | ok value => exact hrest
    | error stop =>
      by_cases hunk : stop.unknownWorkflow
      · simp only [hunk]
        exact hrest
      · simp only [hunk, Bool.false_eq_true]
        exact keeps_done _

end Fires

/-- An expired row's instant has come. -/
theorem fireAt_le_of_mem_expiredTimers {asOf : Instant} {entry : TimerEntry}
    (h : entry ∈ world.expiredTimers asOf) : entry.fireAt ≤ asOf := by
  rw [TimerWorld.expiredTimers, List.mem_insertionSort, List.mem_filter] at h
  exact of_decide_eq_true h.2

/-- What was noted, rows that are due among it. -/
def AllSetOff (due : List TimerEntry) (log : List TimerNote) : Prop :=
  ∀ entry ∈ due, SetOff log (entry.workflowId, entry.timerId) entry.fireAt ∧ Due log entry.fireAt

theorem stable_allSetOff (due : List TimerEntry) : Stable (AllSetOff due) :=
  fun _ _ hplain h entry hmem => ⟨(h entry hmem).1.plain hplain, (h entry hmem).2.mono⟩

theorem stable_true : Stable fun _ => True := fun _ _ _ _ => trivial

/-- A recovery at an instant the clock has read. -/
theorem recoverDue_obeys (hclock : .clock now ∈ log) :
    (recoverDue env now).Obeys MayFire (fun _ _ => True) log := by
  refine ⟨trivial, fun world => ?_⟩
  have hdue :
      AllSetOff (world.expiredTimers now) (log ++ [.expired (world.expiredTimers now)]) := by
    intro entry hmem
    refine ⟨⟨log, _, [], rfl, hmem, by simp⟩, now, List.mem_append_left _ hclock, fireAt_le_of_mem_expiredTimers hmem⟩
  refine Service.Obeys.mono (keeps_recoverRows (stable_allSetOff _) env _ ?_ _ hdue) fun _ _ _ =>
    trivial
  intro entry hmem log hlog
  exact ⟨entry.fireAt, hlog entry hmem⟩

theorem calls_rearm (now : Instant) :
    Prog.Calls PlainCall (rearmFutureFromActiveHistories env now) := by
  have hschedules : ∀ workflowId (timers : List (TimerId × Instant)), Prog.Calls PlainCall
      (timers.forM fun timer => TimerService.schedule workflowId timer.1 timer.2 : TimerM Unit) := by
    intro workflowId timers
    induction timers with
    | nil => trivial
    | cons timer timers ih =>
      exact calls_bind (calls_schedule workflowId timer.1 timer.2) fun _ => ih
  refine calls_bind (calls_call .listActive trivial) fun active => ?_
  change List WorkflowId at active
  induction active with
  | nil => trivial
  | cons workflowId active ih =>
    refine calls_bind (calls_bind (calls_call (.readHistory workflowId) trivial) fun history => ?_)
      fun _ => ih
    exact hschedules workflowId _

theorem removeTask_obeys (pid : ℕ) (timerId : TimerId) (task : PendingTimer)
    (log : List TimerNote) : (removeTask pid timerId task).Obeys MayFire (fun _ _ => True) log := by
  refine obeys_call (.pendingTimer pid timerId) trivial fun world => ?_
  generalize (world.serve (.pendingTimer pid timerId)).1 = armed
  change Option PendingTimer at armed
  cases armed with
  | none => trivial
  | some armed =>
    by_cases hgeneration : armed.generation = task.generation
    · simp only [hgeneration]
      exact ⟨trivial, fun _ => trivial⟩
    · simp only [hgeneration]
      trivial

theorem wheelTask_obeys (pid : ℕ) (timerId : TimerId) :
    (wheelTask env pid timerId).Obeys MayFire (fun _ _ => True) [] := by
  refine obeys_call .clock trivial fun world =>
    obeys_call (.pendingTimer pid timerId) trivial fun world' => ?_
  generalize (world'.serve (.pendingTimer pid timerId)).1 = task
  change Option PendingTimer at task
  cases task with
  | none => trivial
  | some task =>
    simp only
    split_ifs with hcome
    · have hlog : SetOff [.clock world.now, .pending timerId task] (task.workflowId, timerId) task.fireAt ∧
          Due [.clock world.now, .pending timerId task] task.fireAt :=
        ⟨⟨[.clock world.now], _, [], rfl, ⟨rfl, rfl, rfl⟩, by simp⟩, world.now, by simp, hcome⟩
      have hstable : Stable fun log => SetOff log (task.workflowId, timerId) task.fireAt ∧ Due log task.fireAt :=
        fun _ _ hplain h => ⟨h.1.plain hplain, h.2.mono⟩
      have hfire : Keeps _ (TimerService.fireWheelTimer env.attempts task.workflowId timerId task.fireAt
          TimerService.maxAttempts) :=
        keeps_fireWheelTimer hstable env.attempts (fun log hlog => ⟨task.fireAt, hlog⟩) TimerService.maxAttempts
      exact (hfire _ hlog).bind (fun log _ _ => removeTask_obeys pid timerId task log) fun _ _ _ => trivial
    · trivial

/-- Every program of every actor. -/
theorem actorPrograms_obey (actor : TimerActor) (program : ActorProgram)
    (h : actorPrograms actor program) : timerSteps.Obeys MayFire (fun _ _ => True) [] program := by
  obtain ⟨env, rfl⟩ := h
  have hcall : (actor.call env).Obeys MayFire (fun _ _ => True) [] := by
    cases actor with
    | start workflowId timerId fireAt recordedAt head =>
      refine keeps_of_plain stable_true (calls_bind (calls_call _ ?_) fun answer => ?_) [] trivial
      · simp [PlainCall]
      · change Except StoreError Unit at answer
        cases answer with
        | error error => trivial
        | ok value => exact calls_schedule workflowId timerId fireAt
    | wheel pid timerId => exact wheelTask_obeys env pid timerId
    | tick =>
      exact obeys_call .clock trivial fun world => recoverDue_obeys env (by simp [TimerNote.of])
    | startup =>
      refine obeys_call .clock trivial fun world => ?_
      refine (recoverDue_obeys env (by simp [TimerNote.of])).bind (fun log _ _ => ?_) fun _ _ _ => trivial
      exact keeps_of_plain stable_true (calls_rearm env _) log trivial
    | cancel workflowId timerId cause =>
      exact keeps_cancel stable_true (env.attempts 0) workflowId timerId cause [] trivial
    | crash => exact ⟨trivial, fun _ => trivial⟩
    | other writes noFire =>
      refine Service.obeys_of_calls noFire (fun log call hcall => ?_) []
      cases call with
      | recordWorkflowEvent workflowId event => exact hcall.elim
      | append workflowId events expectedSeq => exact hcall
      | _ => trivial
  exact Service.Obeys.bind hcall fun _ _ _ => trivial

/-! ### Never early -/

theorem neverEarly_append {events : List Event} (h : NeverEarly history)
    (hnone : ∀ event ∈ events, ∀ timerId, event.body ≠ .timerFired timerId) :
    NeverEarly (history ++ events) := by
  intro n fired timerId fireAt hget hbody harmed
  by_cases hn : n < history.length
  · rw [List.getElem?_append_left hn] at hget
    rw [List.take_append_of_le_length hn.le] at harmed
    exact h n fired timerId fireAt hget hbody harmed
  · rw [List.getElem?_append_right (Nat.not_lt.mp hn)] at hget
    exact absurd hbody (hnone fired (List.mem_of_getElem? hget) timerId)

theorem neverEarly_concat (h : NeverEarly history)
    (hlast : ∀ timerId fireAt, event.body = .timerFired timerId →
        armedAt history timerId = some fireAt → fireAt ≤ event.recordedAt) :
    NeverEarly (history ++ [event]) := by
  intro n fired timerId fireAt hget hbody harmed
  by_cases hn : n < history.length
  · rw [List.getElem?_append_left hn] at hget
    rw [List.take_append_of_le_length hn.le] at harmed
    exact h n fired timerId fireAt hget hbody harmed
  · rw [List.getElem?_append_right (Nat.not_lt.mp hn), List.getElem?_singleton] at hget
    split_ifs at hget with hzero
    cases hget
    obtain rfl : n = history.length := by omega
    rw [List.take_left] at harmed
    exact hlast timerId fireAt hbody harmed

/-- The clock does not go back. -/
theorem serve_now_le (world : TimerWorld) (call : TimerCall) :
    world.now ≤ (world.serve call).2.now := by
  cases call with
  | insertTerminalUpdate key =>
    simp only [TimerWorld.serve]
    split_ifs
    · exact le_refl _
    · exact le_refl _
  | armTimer process timerId fireAt =>
    simp only [TimerWorld.serve, TimerWorld.armTimer]
    split
    · exact le_refl _
    · exact le_refl _
  | recordWorkflowEvent workflowId event =>
    have hout := recordedOutcome world workflowId event
    simp only [TimerWorld.serve]
    generalize world.recordWorkflowEvent workflowId event = served at hout ⊢
    cases hout with
    | none hres => exact le_refl _
    | appended hopen happ => exact le_refl _
  | tick elapsed => exact Int.le_add_of_nonneg_right (Int.natCast_nonneg elapsed)
  | _ => exact le_refl _

/-- The clock as a caller has noted it: in order, and not ahead. -/
def InOrder (now : Instant) (log : List TimerNote) : Prop :=
  ∀ read, .clock read ∈ log → read ≤ now ∧ ∀ last, lastClock log = some last → read ≤ last

theorem InOrder.mono {later : Instant} (h : InOrder now log) (hle : now ≤ later) :
    InOrder later log := fun read hmem => ⟨le_trans (h read hmem).1 hle, (h read hmem).2⟩

theorem InOrder.append_quiet (h : InOrder now log)
    (hquiet : ∀ note ∈ notes, note.clock? = none) : InOrder now (log ++ notes) := by
  have hlast : lastClock (log ++ notes) = lastClock log := by
    rw [lastClock, Scan.newest_append, Scan.newest_eq_none_iff.mpr hquiet, Option.none_or]
    rfl
  intro read hmem
  rw [hlast]
  rcases List.mem_append.mp hmem with hmem | hmem
  · exact h read hmem
  · exact absurd (hquiet _ hmem) (by simp [TimerNote.clock?])

theorem InOrder.read (h : InOrder now log) : InOrder now (log ++ [.clock now]) := by
  have hlast : lastClock (log ++ [.clock now]) = some now := by
    rw [lastClock, Scan.newest_concat]
    rfl
  intro read hmem
  rw [hlast]
  rcases List.mem_append.mp hmem with hmem | hmem
  · refine ⟨(h read hmem).1, ?_⟩
    rintro last ⟨⟩
    exact (h read hmem).1
  · cases List.mem_singleton.mp hmem
    refine ⟨le_refl _, ?_⟩
    rintro last ⟨⟩
    exact le_refl _

theorem inOrder_called (h : InOrder world.now log) (call : TimerCall) :
    InOrder (world.serve call).2.now (log ++ TimerNote.of call (world.serve call).1) := by
  by_cases hclock : call = .clock
  · subst hclock
    exact h.read
  · refine (h.append_quiet fun note hmem => ?_).mono (serve_now_le world call)
    unfold TimerNote.of at hmem
    split at hmem
    all_goals first
      | exact absurd rfl hclock
      | (rw [List.mem_singleton.mp hmem]; rfl)
      | cases hmem

/-- What holds while every fire is set off in time. -/
structure TimeInvariant (s : ActorSystem) : Prop where
  clocks : ∀ i actor log rest, s.clients i = some (.busy actor log rest) → InOrder s.store.now log
  early : ∀ workflowId, NeverEarly (s.store.store.history workflowId)

section Invariant

variable {s s' : ActorSystem} {label : ActorLabel}

theorem TimeInvariant.setClient (h : TimeInvariant s) {i : ℕ}
    {client : Option (Client TimerActor
        (Except TimerStop Unit) TimerCall TimerCall.Answer TimerNote)}
    (hcli : ∀ actor log rest, client = some (.busy actor log rest) → log = []) :
    TimeInvariant (s.setClient i client) where
  clocks j actor log rest hj := by
    change Function.update s.clients i client j = _ at hj
    by_cases hij : j = i
    · subst hij
      rw [Function.update_self] at hj
      rw [hcli actor log rest hj]
      intro read hmem
      cases hmem
    · rw [Function.update_of_ne hij] at hj
      exact h.clocks j actor log rest hj
  early := h.early

/-- The histories after a step of a call that does what it may. -/
theorem TimeInvariant.early_called {i : ℕ} {actor : TimerActor} {request : TimerCall}
    {next : request.Answer → ActorProgram} (h : TimeInvariant s)
    (client : s.clients i = some (.busy actor log (.call request next)))
    (hmay : MayFire log request)
    (timely : TimelyFire s (.called i request (s.store.serve request).1))
    (workflowId : WorkflowId) :
    NeverEarly ((s.store.serve request).2.store.history workflowId) := by
  cases request with
  | insertTerminalUpdate key =>
    simp only [TimerWorld.serve]
    split_ifs
    · exact h.early workflowId
    · exact h.early workflowId
  | armTimer process timerId fireAt =>
    simp only [TimerWorld.serve, TimerWorld.armTimer]
    split
    · exact h.early workflowId
    · exact h.early workflowId
  | append target events expectedSeq =>
    simp only [TimerWorld.serve, InMemoryStore.appendAnswer]
    split
    · rename_i store happ
      rw [(InMemoryStore.append_eq_ok happ).2.2 workflowId]
      refine neverEarly_append (h.early workflowId) fun event hmem => ?_
      split_ifs at hmem
      · exact hmay event hmem
      · cases hmem
    · exact h.early workflowId
  | recordWorkflowEvent target event =>
    have hout := recordedOutcome s.store target event
    have htimely : ∀ timerId, event.body = .timerFired timerId →
      ∀ setOffFor, SetOff log (target, timerId) setOffFor →
        ∀ fireAt, armedAt (s.store.store.history target) timerId = some fireAt → fireAt ≤ setOffFor :=
      fun timerId hbody => timely i target event _ timerId actor log _ rfl hbody client
    simp only [TimerWorld.serve]
    generalize s.store.recordWorkflowEvent target event = served at hout ⊢
    cases hout with
    | none hres => exact h.early workflowId
    | appended hopen happ =>
      rw [(InMemoryStore.append_eq_ok happ).2.2 workflowId]
      split_ifs with htgt
      · subst htgt
        refine neverEarly_concat (h.early workflowId) fun timerId fireAt hbody harmed => ?_
        obtain ⟨hlast, setOffFor, hsetOff, now, hmem, hcome⟩ := hmay timerId hbody
        calc fireAt
          _ ≤ setOffFor := htimely timerId hbody setOffFor hsetOff fireAt harmed
          _ ≤ now := hcome
          _ ≤ event.recordedAt := (h.clocks i actor log _ client now hmem).2 _ hlast
      · rw [List.append_nil]
        exact h.early workflowId
  | _ => exact h.early workflowId

theorem TimeInvariant.step (h : TimeInvariant s)
    (hobey : AllObey timerSteps (fun _ => MayFire) (fun _ _ _ => True) s)
    (step : Step timerSteps actorPrograms s label s') (timely : TimelyFire s label) :
    TimeInvariant s' := by
  cases step with
  | opened free => exact h.setClient (by simp)
  | began client hprog =>
    refine h.setClient ?_
    rintro actor log rest ⟨⟩
    rfl
  | @called i actor log request next client =>
    refine ⟨fun j actor' log' rest' hj => ?_, h.early_called client (hobey _ _ _ _ client).1 timely⟩
    change Function.update s.clients i _ j = _ at hj
    by_cases hij : j = i
    · subst hij
      rw [Function.update_self] at hj
      cases hj
      exact inOrder_called (h.clocks j actor log _ client) request
    · rw [Function.update_of_ne hij] at hj
      exact (h.clocks j actor' log' rest' hj).mono (serve_now_le s.store request)
  | finished client => exact h.setClient (by simp)
  | closed => exact h.setClient (by simp)

end Invariant

/-- **Never early.** Whatever the workflow, the wheel, the recovery and any other writers do, in
any order and with the engine going down at any step: as long as each fire, when it comes to
record, was set off for an instant that is not before the one of the start that made its timer
live, every timer is recorded as fired at that start's instant or later. -/
theorem never_early {steps : List (ActorSystem × ActorLabel)} {s : ActorSystem}
    (run : Run timerSteps actorPrograms ⟨.empty, fun _ => none⟩ steps s)
    (timely : ∀ step ∈ steps, TimelyFire step.1 step.2) (workflowId : WorkflowId) :
    NeverEarly (s.store.store.history workflowId) := by
  have hinvariant : TimeInvariant s := by
    induction run with
    | nil =>
      refine ⟨?_, ?_⟩
      · rintro i actor log rest ⟨⟩
      · rintro workflowId n fired timerId fireAt hget
        simp [TimerWorld.empty, InMemoryStore.empty, InMemoryStore.history] at hget
    | @snoc steps mid label final earlier last ih =>
      have hobey : AllObey timerSteps (fun _ => MayFire) (fun _ _ _ => True) mid := by
        refine obeys_of_reachable actorPrograms_obey earlier.reachable ?_
        rintro i actor log rest ⟨⟩
      have hmid := ih fun step hmem => timely step (List.mem_append_left _ hmem)
      exact hmid.step hobey last (timely (_, _) (List.mem_append_right _ List.mem_cons_self))
  exact hinvariant.early workflowId

/-- The calls meet no delay. -/
def quickRecovery : RecoveryEnvironment := ⟨fun _ => quickEnvironment, id⟩

/-- The program of an actor when nothing fails. -/
def quickActor (actor : TimerActor) : ActorProgram :=
  Prog.bind (actor.call quickRecovery) fun result => .done (result, actor)

theorem quickActor_programs (actor : TimerActor) : actorPrograms actor (quickActor actor) :=
  ⟨quickRecovery, rfl⟩

/-- Another writer appends to workflow 7, whose run is then registered with this recorder. -/
def appendRun (bodies : List EventBody) (head registeredHead : ℕ)
    (noFire : ∀ body ∈ bodies, ∀ timerId, body ≠ .timerFired timerId) : TimerActor :=
  .other (do
    let _ ← TimerM.call (.append ⟨7⟩ (bodies.mapIdx fun n body => ⟨⟨head + n + 1, 0, ⟨7⟩⟩, body⟩) head)
    TimerM.call (.setRegistry [⟨3, true, .resumeAt ⟨7⟩ registeredHead⟩])) (by
    refine calls_bind (calls_call _ ?_) fun _ => calls_call _ trivial
    intro event hmem
    obtain ⟨n, hn, rfl⟩ := List.mem_mapIdx.mp hmem
    exact noFire _ (List.getElem_mem hn))

/-- Ten pass. -/
def tenPass : TimerActor := .other (TimerM.call (.tick 10)) (calls_call _ trivial)

/-- The first run of workflow 7 sleeps until 10 and a recovery tick fires the sleep. -/
def sleepsOnce : List (Action TimerActor) :=
  [.opened 0 (appendRun [.workflowStarted "billing" Payload.empty ⟨1⟩ none ⟨"v1"⟩] 0 2 (by simp)),
      .advance 0, .advance 0,
    .advance 0, .opened 1 (.start ⟨7⟩ (.anonymous 0) 10 0 1), .advance 1, .advance 1, .advance 1,
      .advance 1, .advance 1,
    .opened 2 tenPass, .advance 2, .advance 2, .opened 3 .tick] ++ List.replicate 12 (.advance 3)

/-- The run is continued. Its successor records the start of its own first sleep, until 100, and
before it has scheduled it a recovery tick at 20 finds the row of the earlier one. -/
def sleepsAgain : List (Action TimerActor) :=
  [.opened 4 (appendRun [.workflowContinuedAsNew Payload.empty none ⟨1⟩,
      .workflowStarted "billing" Payload.empty ⟨2⟩ (some ⟨1⟩) ⟨"v1"⟩] 3 6 (by simp)), .advance 4, .advance 4, .advance 4,
    .opened 5 (.start ⟨7⟩ (.anonymous 0) 100 10 5), .advance 5, .advance 5, .opened 6 tenPass,
      .advance 6, .advance 6,
    .opened 7 .tick] ++ List.replicate 8 (.advance 7)

/-- The instants a note sets a timer off for; none of notes that set no timers off. -/
def TimerNote.instants? (key : TimerKey) : TimerNote → Option (List Instant)
  | .pending timerId task =>
    some (if timerId = key.2 ∧ task.workflowId = key.1 then [task.fireAt] else [])
  | .expired due =>
    some ((due.filter fun entry => entry.workflowId = key.1 ∧ entry.timerId = key.2).map TimerEntry.fireAt)
  | _ => none

/-- The instants a timer is set off for, with these notes. -/
def setOffInstants (log : List TimerNote) (key : TimerKey) : List Instant :=
  (Scan.newest (TimerNote.instants? key) log).getD []

theorem SetOff.mem (h : SetOff log key fireAt) : fireAt ∈ setOffInstants log key := by
  obtain ⟨before, note, after, rfl, hnote, hafter⟩ := h
  have hnone : ∀ later ∈ after, later.instants? key = none := by
    intro later hmem
    have hplain := hafter later hmem
    cases later <;> first | rfl | exact hplain.elim
  have hnewest : ∀ instants, note.instants? key = some instants →
      Scan.newest (TimerNote.instants? key) (before ++ note :: after) = some instants :=
    fun instants hinstants => Scan.newest_eq_some_iff.mpr
      ⟨before, note, after, rfl, hinstants, hnone⟩
  cases note with
  | pending timerId task =>
    obtain ⟨rfl, hwf, rfl⟩ := hnote
    rw [setOffInstants, hnewest _ rfl]
    simp [hwf]
  | expired due =>
    rw [setOffInstants, hnewest _ rfl]
    exact List.mem_map.mpr ⟨_, List.mem_filter.mpr ⟨hnote, by simp⟩, rfl⟩
  | _ => exact hnote.elim

/-- `TimelyFire` of one step, computed. -/
def isTimely (s : ActorSystem) : ActorLabel → Bool
  | .called i (.recordWorkflowEvent workflowId event) _ =>
    match s.clients i, event.body with
    | some (.busy _ log _), .timerFired timerId =>
      (setOffInstants log (workflowId, timerId)).all fun setOffFor =>
        (armedAt (s.store.store.history workflowId) timerId).all fun fireAt => decide (fireAt ≤ setOffFor)
    | _, _ => true
  | _ => true

theorem timelyFire_of_isTimely {s : ActorSystem} {label : ActorLabel} (h : isTimely s label) :
    TimelyFire s label := by
  rintro i workflowId event answer timerId actor log rest rfl hbody hcli setOffFor hsetOff fireAt harmed
  simp only [isTimely, hcli, hbody, List.all_eq_true] at h
  have hall := h setOffFor hsetOff.mem
  rw [harmed] at hall
  exact of_decide_eq_true hall

/-- The first sleep is fired at its instant. -/
theorem never_early_sleep :
    ∃ steps s, Run timerSteps actorPrograms ⟨.empty, fun _ => none⟩ steps s ∧
    (∀ step ∈ steps, TimelyFire step.1 step.2) ∧
      (s.store.store.history ⟨7⟩).map (·.body.kind) =
        ["WorkflowStarted", "TimerStarted", "TimerFired"] ∧
      NeverEarly (s.store.store.history ⟨7⟩) := by
  have hseen : ((⟨.empty, fun _ => none⟩ : ActorSystem).exec timerSteps quickActor sleepsOnce).map
    (fun final =>
      (final.1.all fun step => isTimely step.1 step.2, (final.2.store.store.history ⟨7⟩).map (·.body.kind))) =
      some (true, ["WorkflowStarted", "TimerStarted", "TimerFired"]) := by decide +kernel
  obtain ⟨⟨steps, s⟩, hexec, hfinal⟩ := Option.map_eq_some_iff.mp hseen
  obtain ⟨hall, hkinds⟩ := Prod.mk.inj hfinal
  have hrun := System.run_of_exec quickActor_programs hexec
  have htimely : ∀ step ∈ steps, TimelyFire step.1 step.2 :=
    fun step hmem => timelyFire_of_isTimely (List.all_eq_true.mp hall step hmem)
  exact ⟨steps, s, hrun, htimely, hkinds, never_early hrun htimely ⟨7⟩⟩

/-- The timer an event fires and when. -/
def firedAt? (event : Event) : Option (TimerId × Instant) :=
  match event.body with
  | .timerFired timerId => some (timerId, event.recordedAt)
  | _ => none

theorem firedAt?_eq_some {instant : Instant} (h : firedAt? event = some (timerId, instant)) :
    event.body = .timerFired timerId ∧ event.recordedAt = instant := by
  obtain ⟨envelope, body⟩ := event
  cases body with
  | timerFired fired =>
    cases h
    exact ⟨rfl, rfl⟩
  | _ => cases h

/-- The row of the sleep until 10 fires the sleep until 100, at 20. -/
theorem fire_before_its_instant :
    ¬ ∀ steps s, Run timerSteps actorPrograms ⟨.empty, fun _ => none⟩ steps s →
      ∀ workflowId, NeverEarly (s.store.store.history workflowId) := by
  intro h
  have hseen : ((⟨.empty, fun _ => none⟩ : ActorSystem).exec timerSteps quickActor
      (sleepsOnce ++ sleepsAgain)).map
      (fun final => ((final.2.store.store.history ⟨7⟩)[6]?.bind firedAt?,
        armedAt ((final.2.store.store.history ⟨7⟩).take 6) (.anonymous 0))) =
      some (some (.anonymous 0, 20), some 100) := by decide +kernel
  obtain ⟨⟨steps, s⟩, hexec, hfinal⟩ := Option.map_eq_some_iff.mp hseen
  obtain ⟨hfired, harmed⟩ := Prod.mk.inj hfinal
  obtain ⟨fired, hget, hfired⟩ := Option.bind_eq_some_iff.mp hfired
  obtain ⟨hbody, hat⟩ := firedAt?_eq_some hfired
  have hrun := System.run_of_exec quickActor_programs hexec
  have hearly := h steps s hrun ⟨7⟩ 6 fired (.anonymous 0) 100 hget hbody harmed
  rw [hat] at hearly
  exact absurd hearly (by decide)

end Aion
