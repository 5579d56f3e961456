import Aion.Time.TimerService

/-!
# One outcome for each start of a timer

Any number of calls cancel and fire timers, while other writers append to the histories what
they like, start timers and end runs among it, all step by step and in any order. A call looks
whether its timer is live and records the outcome later, when the timer may be settled and
started again; and whether the run has ended is looked at apart, under the recorder's lock.

The timer's slot makes up for it. `SlotPhase` is where a call stands with its slot, read off
what it has seen and done so far, and `TimerCaller.May` says what it does at each. While a call
is armed, that is between the look at the history and the record, no other call holds the slot,
so whatever outcome a call has recorded was followed by a start of the timer (`armed`).

`one_outcome` is the result, for every history the callers reach.
-/

namespace Aion

open Interleaving

/-! ### The callers -/

/-- The callers: a call of the service, or any other writer. -/
inductive TimerCaller where
  | cancel (workflowId : WorkflowId) (timerId : TimerId) (cause : TimerCancelCause)
  | fire (workflowId : WorkflowId) (timerId : TimerId) (fireAt : Instant)
  | other

/-- The timer of a call. -/
def TimerCaller.key? : TimerCaller → Option TimerKey
  | .cancel workflowId timerId _ => some (workflowId, timerId)
  | .fire workflowId timerId _ => some (workflowId, timerId)
  | .other => none

/-- The steps of the other writers: all but those of the service's calls. -/
def OtherWrites : TimerCall → Prop
  | .insertTerminalUpdate _ => False
  | .removeTerminalUpdate _ => False
  | .recordWorkflowEvent .. => False
  | .deliverWorkflowMessage .. => False
  | .crash => False
  | _ => True

/-- The program of a caller. -/
abbrev TimerProgram := Prog TimerCall TimerCall.Answer (Except TimerStop Unit × TimerCaller)

/-- A call of the service as the program of its caller. -/
def TimerCaller.program (caller : TimerCaller) (call : TimerM Unit) : TimerProgram :=
  Prog.bind call fun result => .done (result, caller)

/-- The programs of a caller, in any environment. -/
def timerPrograms (caller : TimerCaller) (program : TimerProgram) : Prop :=
  match caller with
  | .cancel workflowId timerId cause =>
    ∃ env, program = caller.program (TimerService.cancel env workflowId timerId cause)
  | .fire workflowId timerId fireAt =>
    ∃ env, program = caller.program (TimerService.fireTimer env workflowId timerId fireAt)
  | .other => program.Calls OtherWrites

/-- The callers on one world. -/
abbrev TimerSystem :=
  System TimerWorld TimerCaller (Except TimerStop Unit) TimerCall TimerCall.Answer TimerNote

/-- A step of the callers. -/
abbrev TimerLabel := Label TimerCaller (Except TimerStop Unit) TimerCall TimerCall.Answer TimerNote

/-- The history of a workflow. -/
def TimerSystem.history (s : TimerSystem) (workflowId : WorkflowId) : List Event :=
  s.store.store.history workflowId

/-- Nothing is there yet. -/
def noTimers : TimerSystem := ⟨.empty, fun _ => none⟩

/-! ### What a call does -/

/-- Where a call stands with its timer's slot. -/
inductive SlotPhase where
  /-- It does not have it. -/
  | outside
  /-- It has it. -/
  | holding
  /-- It has it and has seen the timer live since. -/
  | armed
  /-- It has it and has recorded an outcome. -/
  | spent
  deriving DecidableEq

/-- What a note does to the phase of a slot. -/
def SlotPhase.step (key : TimerKey) (phase : SlotPhase) : TimerNote → SlotPhase
  | .took taken => if taken = key then .holding else phase
  | .gaveBack given => if given = key then .outside else phase
  | .read workflowId history =>
    if phase = .holding ∧ workflowId = key.1 ∧ key.2 ∈ liveTimersInActiveSegment history then .armed
    else phase
  | .recorded _ _ => if phase = .armed then .spent else phase
  | _ => phase

/-- The phase of a call with its notes. -/
def slotPhase (key : TimerKey) (log : List TimerNote) : SlotPhase :=
  log.foldl (SlotPhase.step key) .outside

@[simp]
theorem slotPhase_concat (key : TimerKey) (log : List TimerNote) (note : TimerNote) :
    slotPhase key (log ++ [note]) = (slotPhase key log).step key note := by
  simp [slotPhase]

/-- What a call with a timer of its own does, with the notes it has. -/
def MayWithSlot (key : TimerKey) (log : List TimerNote) : TimerCall → Prop
  | .insertTerminalUpdate taken => taken = key ∧ slotPhase key log = .outside
  | .removeTerminalUpdate given => given = key ∧ slotPhase key log ≠ .outside
  | .recordWorkflowEvent workflowId event =>
    workflowId = key.1 ∧ settlesTimer key.2 event ∧ slotPhase key log = .armed
  | .deliverWorkflowMessage _ timerId _ =>
    ∃ event, .recorded key.1 event ∈ log ∧ event.body = .timerFired timerId
  | .append .. => False
  | .setRegistry _ => False
  | .crash => False
  | _ => True

/-- What a caller does. -/
def TimerCaller.May (caller : TimerCaller) (log : List TimerNote) (call : TimerCall) : Prop :=
  match caller.key? with
  | none => OtherWrites call
  | some key => MayWithSlot key log call

/-- The call makes the steps it may, and ends with `post`. -/
def TimerM.Obeys {α : Type} (may : List TimerNote → TimerCall → Prop)
    (post : List TimerNote → Except TimerStop α → Prop) (log : List TimerNote) (call : TimerM α) :
    Prop := timerSteps.Obeys may post log call

section Obeys

variable {α β : Type} {log : List TimerNote} {may : List TimerNote → TimerCall → Prop}
  {mid : List TimerNote → Except TimerStop α → Prop}
    {post : List TimerNote → Except TimerStop β → Prop}

variable {f : α → TimerM β}

theorem TimerM.Obeys.bind {first : TimerM α} (h : first.Obeys may mid log)
    (hok : ∀ log value, mid log (.ok value) → (f value).Obeys may post log)
    (herr : ∀ log stop, mid log (.error stop) → post log (.error stop)) :
    (first >>= f).Obeys may post log := by
  refine Service.Obeys.bind h ?_
  rintro log' (stop | value) hmid
  · exact herr log' stop hmid
  · exact hok log' value hmid

theorem obeys_call (request : TimerCall) {f : request.Answer → TimerM β} (hmay : may log request)
    (hnext : ∀ world : TimerWorld, (f (world.serve request).1).Obeys may post
        (log ++ TimerNote.of request (world.serve request).1)) :
    (TimerM.call request >>= f).Obeys may post log := ⟨hmay, hnext⟩

/-- A step that leaves no note. -/
theorem obeys_call_silent (request : TimerCall) {f : request.Answer → TimerM β}
    (hmay : may log request) (hsilent : ∀ answer, TimerNote.of request answer = [])
    (hnext : ∀ answer, (f answer).Obeys may post log) :
    (TimerM.call request >>= f).Obeys may post log := by
  refine obeys_call request hmay fun world => ?_
  rw [hsilent, List.append_nil]
  exact hnext _

theorem obeys_await {env : TimerEnvironment} {point : TimerAwait} {f : Unit → TimerM β}
    (hstop : post log (.error .dropped)) (hnext : (f ()).Obeys may post log) :
    (TimerM.await env point >>= f).Obeys may post log := by
  rw [TimerM.await]
  split_ifs
  · exact hstop
  · exact hnext

theorem obeys_liftEngine {answer : Except EngineSeamError α}
    (herr : ∀ error, answer = .error error → post log (.error (.failed (.engine error))))
    (hok : ∀ value, answer = .ok value → (f value).Obeys may post log) :
    (TimerM.liftEngine answer >>= f).Obeys may post log := by
  cases answer with
  | error error => exact herr error rfl
  | ok value => exact hok value rfl

end Obeys

variable {timerId : TimerId}

section Calls

variable {key : TimerKey} {log : List TimerNote}

/-- A call that has its slot. -/
def Inside (key : TimerKey) (log : List TimerNote) (_ : Except TimerStop Unit) : Prop :=
  slotPhase key log ≠ .outside

/-- The look at the history arms the call, or the timer is not live. -/
theorem obeys_timerIsLive {workflowId : WorkflowId} {f : Bool → TimerM Unit}
    (hholding : slotPhase (workflowId, timerId) log = .holding)
    (hdead : ∀ log, slotPhase (workflowId, timerId) log = .holding →
        (f false).Obeys (MayWithSlot (workflowId, timerId)) (Inside (workflowId, timerId)) log)
    (hlive : ∀ log, slotPhase (workflowId, timerId) log = .armed →
        (f true).Obeys (MayWithSlot (workflowId, timerId)) (Inside (workflowId, timerId)) log) :
    (TimerService.timerIsLive workflowId timerId >>= f).Obeys (MayWithSlot (workflowId, timerId))
      (Inside (workflowId, timerId)) log := by
  refine obeys_call (.readHistory workflowId) trivial fun world => ?_
  by_cases hmem : timerId ∈ liveTimersInActiveSegment (world.serve (.readHistory workflowId)).1
  · rw [decide_eq_true hmem]
    exact hlive _ (by simp [TimerNote.of, SlotPhase.step, hholding, hmem])
  · rw [decide_eq_false hmem]
    exact hdead _ (by simp [TimerNote.of, SlotPhase.step, hholding, hmem])

/-- The look for the envelope leaves the call armed. -/
theorem obeys_nextEnvelope {workflowId : WorkflowId} {f : EventEnvelope → TimerM Unit}
    (harmed : slotPhase key log = .armed)
    (hnext : ∀ log envelope, slotPhase key log = .armed →
        (f envelope).Obeys (MayWithSlot key) (Inside key) log) :
    (TimerService.nextEnvelope workflowId >>= f).Obeys (MayWithSlot key) (Inside key) log := by
  refine obeys_call (.readHistory workflowId) trivial fun world => ?_
  refine obeys_call .clock trivial fun world' => ?_
  refine hnext _ _ ?_
  simp only [TimerNote.of, slotPhase_concat, SlotPhase.step, harmed]
  simp

/-- The record of an outcome by an armed call. -/
theorem obeys_record {workflowId : WorkflowId} {event : Event}
    {f : Except EngineSeamError RecordOutcome → TimerM Unit} (hwf : workflowId = key.1)
    (hsets : settlesTimer key.2 event) (harmed : slotPhase key log = .armed)
    (hrecd : ∀ log, slotPhase key log = .spent → TimerNote.recorded workflowId event ∈ log →
        (f (.ok .recorded)).Obeys (MayWithSlot key) (Inside key) log)
    (hnot : ∀ answer, answer ≠ .ok .recorded →
        (f answer).Obeys (MayWithSlot key) (Inside key) log) :
    (TimerM.call (.recordWorkflowEvent workflowId event) >>= f).Obeys (MayWithSlot key)
      (Inside key) log := by
  refine obeys_call (.recordWorkflowEvent workflowId event) ⟨hwf, hsets, harmed⟩ fun world => ?_
  generalize (world.serve (.recordWorkflowEvent workflowId event)).1 = answer
  change Except EngineSeamError RecordOutcome at answer
  rcases answer with error | _ | _
  · exact (List.append_nil log).symm ▸ hnot (.error error) (by simp)
  · exact hrecd _ (by simp [TimerNote.of, SlotPhase.step, harmed]) (by simp [TimerNote.of])
  · exact (List.append_nil log).symm ▸ hnot (.ok .refusedTerminal) (by simp)

theorem cancelGuarded_obeys (env : TimerEnvironment) {workflowId : WorkflowId}
    {cause : TimerCancelCause} (hholding : slotPhase (workflowId, timerId) log = .holding) :
    (TimerService.cancelGuarded env workflowId timerId cause).Obeys
      (MayWithSlot (workflowId, timerId))
      (Inside (workflowId, timerId)) log := by
  have hins : ∀ log result, slotPhase (workflowId, timerId) log = .armed →
    Inside (workflowId, timerId) log result :=
    fun log result harmed => by simp [Inside, harmed]
  refine obeys_await (by simp [Inside, hholding]) ?_
  refine obeys_timerIsLive hholding (fun log hholding => ?_) fun log harmed => ?_
  · show slotPhase _ _ ≠ _
    simp [hholding]
  refine obeys_call_silent (.resolveWorkflow workflowId) trivial (fun _ => rfl) fun residency => ?_
  have hrest : (do
      TimerM.await env .envelope
      let envelope ← TimerService.nextEnvelope workflowId
      let _ ← TimerM.liftEngine (← TimerM.call (.recordWorkflowEvent workflowId ⟨envelope, .timerCancelled timerId cause⟩))
      return () : TimerM Unit).Obeys (MayWithSlot (workflowId, timerId)) (Inside (workflowId, timerId)) log := by
    refine obeys_await (hins log (.ok ()) harmed) ?_
    refine obeys_nextEnvelope harmed fun log envelope harmed => ?_
    refine obeys_record rfl (by simp [settlesTimer]) harmed (fun log hspent _ => ?_) fun answer _ =>
      ?_
    · show slotPhase _ _ ≠ _
      simp [hspent]
    · exact obeys_liftEngine (fun _ _ => hins log (.ok ()) harmed) fun _ _ => hins log (.ok ()) harmed
  cases residency with
  | resident process =>
    exact obeys_call_silent (.disarmTimer process timerId) trivial (fun _ => rfl) fun _ => hrest
  | nonResident => exact hrest
  | unknown => exact hrest

theorem fireTimerGuarded_obeys (env : TimerEnvironment) {workflowId : WorkflowId}
    {fireAt : Instant}
    (hholding : slotPhase (workflowId, timerId) log = .holding) :
    (TimerService.fireTimerGuarded env workflowId timerId fireAt).Obeys
      (MayWithSlot (workflowId, timerId))
      (Inside (workflowId, timerId)) log := by
  have hins : ∀ log result, slotPhase (workflowId, timerId) log = .armed →
    Inside (workflowId, timerId) log result :=
    fun log result harmed => by simp [Inside, harmed]
  refine obeys_await (by simp [Inside, hholding]) ?_
  refine obeys_timerIsLive hholding (fun log hholding => ?_) fun log harmed => ?_
  · show slotPhase _ _ ≠ _
    simp [hholding]
  simp only [Bool.not_true, Bool.false_eq_true, if_false]
  split_ifs
  · -- A deadline goes to its handler.
    unfold TimerService.fireDeadline
    split
    all_goals exact hins log (.ok ()) harmed
  refine obeys_await (hins log (.ok ()) harmed) ?_
  refine obeys_nextEnvelope harmed fun log envelope harmed => ?_
  refine obeys_record rfl (by simp [settlesTimer]) harmed (fun log hspent hnote => ?_)
    fun answer hans => ?_
  · have hspent' : ∀ result, Inside (workflowId, timerId) log result :=
      fun result => by simp [Inside, hspent]
    refine obeys_liftEngine (fun _ _ => hspent' (.ok ())) fun outcome hout => ?_
    cases hout
    refine obeys_call_silent (.resolveWorkflow workflowId) trivial (fun _ => rfl) fun residency =>
      ?_
    cases residency with
    | resident process =>
      refine obeys_call_silent (.deliverWorkflowMessage process timerId fireAt) ⟨_, hnote, rfl⟩ (fun _ => rfl) fun _ => ?_
      cases env.wake with
      | error reason => exact hspent' (.ok ())
      | ok value => exact hspent' (.ok ())
    | nonResident => exact hspent' (.ok ())
    | unknown => exact hspent' (.ok ())
  · refine obeys_liftEngine (fun _ _ => hins log (.ok ()) harmed) fun outcome hout => ?_
    cases outcome with
    | recorded => exact absurd hout hans
    | refusedTerminal => exact hins log (.ok ()) harmed

/-- A call that waits for its slot and gives it back. -/
theorem withTerminalUpdateSlot_obeys (env : TimerEnvironment) {body : TimerM Unit}
    (hbody : ∀ log, slotPhase key log = .holding → body.Obeys (MayWithSlot key) (Inside key) log) :
    (TimerService.withTerminalUpdateSlot env key body).Obeys (MayWithSlot key)
      (fun log _ => slotPhase key log = .outside)
      [] := by
  have hwait : ∀ patience, (TimerService.waitForTerminalUpdateSlot key patience).Obeys
    (MayWithSlot key)
      (fun log result => slotPhase key log = if result = .ok () then .holding else .outside) [] := by
    intro patience
    induction patience with
    | zero => rfl
    | succ patience ih =>
      refine obeys_call (.insertTerminalUpdate key) ⟨rfl, rfl⟩ fun world => ?_
      generalize (world.serve (.insertTerminalUpdate key)).1 = taken
      change Bool at taken
      cases taken with
      | false => exact ih
      | true =>
        show slotPhase key [.took key] = _
        simp [slotPhase, SlotPhase.step]
  refine (hwait env.patience).bind (fun log _ hlog => ?_) fun log stop hlog => ?_
  · refine Service.Obeys.bind (hbody log (by simpa using hlog)) fun log result hins => ?_
    refine ⟨⟨rfl, hins⟩, fun world => ?_⟩
    show slotPhase key (log ++ [.gaveBack key]) = _
    simp [SlotPhase.step]
  · simpa using hlog

end Calls

/-- Every program of every caller. -/
theorem timerPrograms_obey (caller : TimerCaller) (program : TimerProgram)
    (h : timerPrograms caller program) :
    timerSteps.Obeys caller.May (fun _ _ => True) [] program := by
  cases caller with
  | cancel workflowId timerId cause =>
    obtain ⟨env, rfl⟩ := h
    exact Service.Obeys.bind (withTerminalUpdateSlot_obeys env fun _ => cancelGuarded_obeys env)
      fun _ _ _ => trivial
  | fire workflowId timerId fireAt =>
    obtain ⟨env, rfl⟩ := h
    exact Service.Obeys.bind (withTerminalUpdateSlot_obeys env fun _ => fireTimerGuarded_obeys env)
      fun _ _ _ => trivial
  | other => exact Service.obeys_of_calls (show Prog.Calls OtherWrites program from h) (fun _ _ hcall => hcall) []

/-! ### Outcomes in a history -/

variable {n : ℕ}

section Histories

variable {histories histories' : WorkflowId → List Event}
  {recorded recorded' : WorkflowId → ℕ → Prop}

/-- The timer was started after every outcome of it that is recorded. -/
def StartedSince (histories : WorkflowId → List Event) (recorded : WorkflowId → ℕ → Prop)
    (key : TimerKey) : Prop :=
  ∀ n settled, recorded key.1 n → (histories key.1)[n]? = some settled →
    settlesTimer key.2 settled →
    ∃ k started, n < k ∧ (histories key.1)[k]? = some started ∧ startsTimer key.2 started

/-- Between two recorded outcomes of a timer the timer is started, and every recorded outcome
stands in a run that had not ended. -/
structure Settled (histories : WorkflowId → List Event) (recorded : WorkflowId → ℕ → Prop) :
    Prop where
  within : ∀ workflowId n, recorded workflowId n → n < (histories workflowId).length
  outcome : ∀ workflowId n, recorded workflowId n → ∃ timerId settled,
    (histories workflowId)[n]? = some settled ∧ settlesTimer timerId settled
  separated : ∀ workflowId timerId n m first second, n < m → recorded workflowId n →
    recorded workflowId m →
    (histories workflowId)[n]? = some first → settlesTimer timerId first →
    (histories workflowId)[m]? = some second → settlesTimer timerId second →
    ∃ k started, n < k ∧ k < m ∧ (histories workflowId)[k]? = some started ∧
      startsTimer timerId started
  unended : ∀ workflowId n, recorded workflowId n →
    activeRunHasTerminal ((histories workflowId).take n) = false

theorem getElem?_of_isPrefix {l l' : List Event} (h : l <+: l') (hn : n < l.length) :
    l'[n]? = l[n]? := by
  obtain ⟨more, rfl⟩ := h
  exact List.getElem?_append_left hn

theorem StartedSince.grow {key : TimerKey} (h : StartedSince histories recorded key)
    (hgrows : ∀ workflowId, histories workflowId <+: histories' workflowId)
    (hwithin : ∀ n, recorded key.1 n → n < (histories key.1).length) :
    StartedSince histories' recorded key := by
  intro n settled hn hsett hsets
  rw [getElem?_of_isPrefix (hgrows key.1) (hwithin n hn)] at hsett
  obtain ⟨k, started, hk, hstrt, hstarts⟩ := h n settled hn hsett hsets
  refine ⟨k, started, hk, ?_, hstarts⟩
  rw [getElem?_of_isPrefix (hgrows key.1) (List.getElem?_eq_some_iff.mp hstrt).1]
  exact hstrt

theorem Settled.grow (h : Settled histories recorded)
    (hgrows : ∀ workflowId, histories workflowId <+: histories' workflowId) :
    Settled histories' recorded where
  within workflowId n hn := Nat.lt_of_lt_of_le (h.within workflowId n hn)
    (hgrows workflowId).length_le
  outcome workflowId n hn := by
    rw [getElem?_of_isPrefix (hgrows workflowId) (h.within workflowId n hn)]
    exact h.outcome workflowId n hn
  separated workflowId timerId n m first second hlt hn hm hfst hsets hsnd hsets' := by
    rw [getElem?_of_isPrefix (hgrows workflowId) (h.within workflowId n hn)] at hfst
    rw [getElem?_of_isPrefix (hgrows workflowId) (h.within workflowId m hm)] at hsnd
    obtain ⟨k, started, hk, hkm, hstrt, hstarts⟩ :=
      h.separated workflowId timerId n m first second hlt hn hm hfst hsets hsnd hsets'
    refine ⟨k, started, hk, hkm, ?_, hstarts⟩
    rw [getElem?_of_isPrefix (hgrows workflowId) (List.getElem?_eq_some_iff.mp hstrt).1]
    exact hstrt
  unended workflowId n hn := by
    obtain ⟨more, hmore⟩ := hgrows workflowId
    rw [← hmore, List.take_append_of_le_length (h.within workflowId n hn).le]
    exact h.unended workflowId n hn

/-- An outcome is one of one timer. -/
theorem settlesTimer_unique {timerId' : TimerId} {event : Event}
    (h : settlesTimer timerId event) (h' : settlesTimer timerId' event) : timerId = timerId' := by
  obtain ⟨envelope, body⟩ := event
  cases body with
  | timerFired fired => exact (of_decide_eq_true h).symm.trans (of_decide_eq_true h')
  | timerCancelled cancelled cause => exact (of_decide_eq_true h).symm.trans (of_decide_eq_true h')
  | _ => cases h

/-- The record of an outcome of a timer that was started since. -/
theorem Settled.record (h : Settled histories recorded) {key : TimerKey} {event : Event}
    (hsets : settlesTimer key.2 event) (hsince : StartedSince histories recorded key)
    (hopen : activeRunHasTerminal (histories key.1) = false)
    (hadd : ∀ workflowId, histories' workflowId = histories workflowId ++ if workflowId = key.1 then
        [event] else [])
    (hrecd : ∀ workflowId n, recorded' workflowId n ↔ recorded workflowId n ∨ workflowId = key.1 ∧
        n = (histories key.1).length) : Settled histories' recorded' := by
  have hgrown := h.grow fun workflowId => ⟨_, (hadd workflowId).symm⟩
  have hkey : histories' key.1 = histories key.1 ++ [event] := by rw [hadd, if_pos rfl]
  refine ⟨fun workflowId n hn => ?_, fun workflowId n hn => ?_, ?_, fun workflowId n hn => ?_⟩
  · rcases (hrecd workflowId n).mp hn with hn | ⟨rfl, rfl⟩
    · exact hgrown.within workflowId n hn
    · simp [hkey]
  · rcases (hrecd workflowId n).mp hn with hn | ⟨rfl, rfl⟩
    · exact hgrown.outcome workflowId n hn
    · exact ⟨key.2, event, by rw [hkey, List.getElem?_concat_length], hsets⟩
  · intro workflowId timerId n m first second hlt hn hm hfst hsets₁ hsnd hsets₂
    rcases (hrecd workflowId n).mp hn with hn | ⟨rfl, rfl⟩
    · rcases (hrecd workflowId m).mp hm with hm | ⟨rfl, rfl⟩
      · exact hgrown.separated workflowId timerId n m first second hlt hn hm hfst hsets₁ hsnd hsets₂
      · -- The second outcome is the one that is recorded now.
        rw [hkey, List.getElem?_concat_length] at hsnd
        cases hsnd
        obtain rfl := settlesTimer_unique hsets₂ hsets
        rw [hkey, List.getElem?_append_left hlt] at hfst
        obtain ⟨k, started, hk, hstrt, hstarts⟩ := hsince n first hn hfst hsets₁
        have hklt := (List.getElem?_eq_some_iff.mp hstrt).1
        refine ⟨k, started, hk, hklt, ?_, hstarts⟩
        rw [hkey, List.getElem?_append_left hklt]
        exact hstrt
    · have hmlt : m < (histories' key.1).length := (List.getElem?_eq_some_iff.mp hsnd).1
      rw [hkey, List.length_append, List.length_singleton] at hmlt
      omega
  · rcases (hrecd workflowId n).mp hn with hn | ⟨rfl, rfl⟩
    · exact hgrown.unended workflowId n hn
    · rw [hkey, List.take_left]
      exact hopen

/-- The other timers after the record of an outcome. -/
theorem StartedSince.record {key other : TimerKey} {event : Event}
    (h : StartedSince histories recorded other) (hsets : settlesTimer key.2 event)
    (hne : other ≠ key) (hwithin : ∀ n, recorded other.1 n → n < (histories other.1).length)
    (hadd : ∀ workflowId, histories' workflowId = histories workflowId ++ if workflowId = key.1 then
        [event] else [])
    (hrecd : ∀ workflowId n, recorded' workflowId n ↔ recorded workflowId n ∨ workflowId = key.1 ∧
        n = (histories key.1).length) : StartedSince histories' recorded' other := by
  intro n settled hn hsett hsets'
  rcases (hrecd other.1 n).mp hn with hn | ⟨hwf, rfl⟩
  · exact h.grow (fun workflowId => ⟨_, (hadd workflowId).symm⟩) hwithin n settled hn hsett hsets'
  · rw [hadd, if_pos hwf, hwf, List.getElem?_concat_length] at hsett
    cases hsett
    exact absurd (Prod.ext hwf (settlesTimer_unique hsets' hsets)) hne

end Histories

/-! ### The invariant -/

/-- At the position of the workflow's history, caller `i` recorded an outcome through the
service. -/
def RecordedAt (steps : List (TimerSystem × TimerLabel)) (i : ℕ) (workflowId : WorkflowId) (n : ℕ) :
    Prop :=
  ∃ step ∈ steps, ∃ event, step.2 = .called i (.recordWorkflowEvent workflowId event)
    (.ok .recorded) ∧
    (step.1.store.store.history workflowId).length = n

/-- The positions at which outcomes were recorded. -/
def Recorded (steps : List (TimerSystem × TimerLabel)) (workflowId : WorkflowId) (n : ℕ) : Prop :=
  ∃ i, RecordedAt steps i workflowId n

/-- Caller `i` is in a call with the timer and stands so with the slot. -/
def Stands (s : TimerSystem) (i : ℕ) (key : TimerKey) (phase : SlotPhase) : Prop :=
  ∃ caller log rest, s.clients i = some (.busy caller log rest) ∧ caller.key? = some key ∧
    slotPhase key log = phase

/-- What holds after any steps of the callers. -/
structure OutcomeInvariant (steps : List (TimerSystem × TimerLabel)) (s : TimerSystem) : Prop where
  numbered : s.store.store.Numbered
  /-- A slot that a call has is taken. -/
  taken : ∀ i key phase, Stands s i key phase → phase ≠ .outside → key ∈ s.store.terminalUpdates
  /-- One call has a slot. -/
  alone : ∀ i j key phase phase', Stands s i key phase → Stands s j key phase' → phase ≠ .outside →
    phase' ≠ .outside →
    i = j
  settled : Settled s.store.store.history (Recorded steps)
  /-- While a call is armed, its timer was started after every outcome that is recorded. -/
  armed : ∀ i key, Stands s i key .armed → StartedSince s.store.store.history (Recorded steps) key
  /-- What a call has noted as recorded is. -/
  noted : ∀ i caller log rest, s.clients i = some (.busy caller log rest) → ∀ workflowId event,
    .recorded workflowId event ∈ log → ∃ n recorded, RecordedAt steps i workflowId n ∧
      (s.store.store.history workflowId)[n]? = some recorded ∧ recorded.body = event.body

section Invariant

variable {steps : List (TimerSystem × TimerLabel)} {s s' : TimerSystem} {label : TimerLabel}

theorem recordedAt_concat {i : ℕ} {workflowId : WorkflowId} :
    RecordedAt (steps ++ [(s, label)]) i workflowId n ↔ RecordedAt steps i workflowId n ∨
      ∃ event, label = .called i (.recordWorkflowEvent workflowId event) (.ok .recorded) ∧
        (s.store.store.history workflowId).length = n := by
  constructor
  · rintro ⟨step, hmem, event, hlabel, hlen⟩
    rcases List.mem_append.mp hmem with hmem | hmem
    · exact .inl ⟨step, hmem, event, hlabel, hlen⟩
    · cases List.mem_singleton.mp hmem
      exact .inr ⟨event, hlabel, hlen⟩
  · rintro (⟨step, hmem, hstep⟩ | ⟨event, hlabel, hlen⟩)
    · exact ⟨step, List.mem_append_left _ hmem, hstep⟩
    · exact ⟨(s, label), by simp, event, hlabel, hlen⟩

/-- A step that records no outcome. -/
def RecordsNothing (label : TimerLabel) : Prop :=
  ∀ i workflowId event, label ≠ .called i (.recordWorkflowEvent workflowId event) (.ok .recorded)

theorem recordedAt_quiet (hquiet : RecordsNothing label) {i : ℕ} {workflowId : WorkflowId} :
    RecordedAt (steps ++ [(s, label)]) i workflowId n ↔ RecordedAt steps i workflowId n := by
  rw [recordedAt_concat]
  refine ⟨?_, .inl⟩
  rintro (h | ⟨event, hlabel, -⟩)
  · exact h
  · exact absurd hlabel (hquiet i workflowId event)

theorem recorded_quiet (hquiet : RecordsNothing label) :
    Recorded (steps ++ [(s, label)]) = Recorded steps := by
  funext workflowId n
  simp only [Recorded, recordedAt_quiet hquiet]

/-- A step that records no outcome keeps the invariant when the slots stay in order and a call
that is armed after it has good reason to be. -/
theorem OutcomeInvariant.quiet (h : OutcomeInvariant steps s) (hquiet : RecordsNothing label)
    (numbered : s'.store.store.Numbered)
    (hgrows : ∀ workflowId, s.store.store.history workflowId <+: s'.store.store.history workflowId)
    (taken : ∀ i key phase, Stands s' i key phase → phase ≠ .outside →
        key ∈ s'.store.terminalUpdates)
    (alone : ∀ i j key phase phase', Stands s' i key phase → Stands s' j key phase' →
        phase ≠ .outside → phase' ≠ .outside → i = j)
    (armed : ∀ i key, Stands s' i key .armed →
        StartedSince s.store.store.history (Recorded steps) key)
    (noted : ∀ i caller log rest, s'.clients i = some (.busy caller log rest) →
        ∀ workflowId event, .recorded workflowId event ∈ log → ∃ caller' log' rest',
      s.clients i = some (.busy caller' log' rest') ∧ .recorded workflowId event ∈ log') :
    OutcomeInvariant (steps ++ [(s, label)]) s' where
  numbered := numbered
  taken := taken
  alone := alone
  settled := by
    rw [recorded_quiet hquiet]
    exact h.settled.grow hgrows
  armed i key harmed := by
    rw [recorded_quiet hquiet]
    exact (armed i key harmed).grow hgrows fun n => h.settled.within key.1 n
  noted i caller log rest hbusy workflowId event hmem := by
    obtain ⟨caller', log', rest', hbusy', hmem'⟩ :=
      noted i caller log rest hbusy workflowId event hmem
    obtain ⟨n, recorded, hat, hget, hbody⟩ :=
      h.noted i caller' log' rest' hbusy' workflowId event hmem'
    refine ⟨n, recorded, (recordedAt_quiet hquiet).mpr hat, ?_, hbody⟩
    rw [getElem?_of_isPrefix (hgrows workflowId) (List.getElem?_eq_some_iff.mp hget).1]
    exact hget

/-- A step that is no step of the world and leaves a client that is not within a call. -/
theorem OutcomeInvariant.setClient (h : OutcomeInvariant steps s) (hquiet : RecordsNothing label)
    {i : ℕ}
    {client : Option (Client TimerCaller
        (Except TimerStop Unit) TimerCall TimerCall.Answer TimerNote)}
    (hcli : ∀ caller log rest, client = some (.busy caller log rest) → log = []) :
    OutcomeInvariant (steps ++ [(s, label)]) (s.setClient i client) := by
  have hstd : ∀ j key phase, Stands (s.setClient i client) j key phase → phase ≠ .outside → Stands s j key phase := by
    rintro j key phase ⟨caller, log, rest, hbusy, hkey, hph⟩ hne
    change Function.update s.clients i client j = _ at hbusy
    by_cases hij : j = i
    · subst hij
      rw [Function.update_self] at hbusy
      rw [hcli caller log rest hbusy] at hph
      exact absurd hph.symm hne
    · rw [Function.update_of_ne hij] at hbusy
      exact ⟨caller, log, rest, hbusy, hkey, hph⟩
  refine h.quiet hquiet h.numbered (fun _ => List.prefix_refl _) ?_ ?_ ?_ ?_
  · exact fun j key phase hj hne => h.taken j key phase (hstd j key phase hj hne) hne
  · exact fun j k key phase phase' hj hk hne hne' =>
      h.alone j k key phase phase' (hstd j key phase hj hne) (hstd k key phase' hk hne') hne hne'
  · exact fun j key hj => h.armed j key (hstd j key _ hj (by decide))
  · intro j caller log rest hbusy workflowId event hmem
    change Function.update s.clients i client j = _ at hbusy
    by_cases hij : j = i
    · subst hij
      rw [Function.update_self] at hbusy
      rw [hcli caller log rest hbusy] at hmem
      cases hmem
    · rw [Function.update_of_ne hij] at hbusy
      exact ⟨caller, log, rest, hbusy, hmem⟩

/-- The system after caller `i` has gone on. -/
def goOn (s : TimerSystem) (world : TimerWorld) (i : ℕ) (caller : TimerCaller)
    (log : List TimerNote) (rest : TimerProgram) : TimerSystem :=
  ⟨world, Function.update s.clients i (some (.busy caller log rest))⟩

variable {phase : SlotPhase}

theorem stands_goOn {world : TimerWorld} {i j : ℕ} {caller : TimerCaller} {log : List TimerNote}
    {rest : TimerProgram} {key : TimerKey}
    (h : Stands (goOn s world i caller log rest) j key phase) :
    j = i ∧ caller.key? = some key ∧ slotPhase key log = phase ∨ j ≠ i ∧ Stands s j key phase := by
  obtain ⟨caller', log', rest', hbusy, hkey, hph⟩ := h
  change Function.update s.clients i _ j = _ at hbusy
  by_cases hij : j = i
  · subst hij
    rw [Function.update_self] at hbusy
    cases hbusy
    exact .inl ⟨rfl, hkey, hph⟩
  · rw [Function.update_of_ne hij] at hbusy
    exact .inr ⟨hij, caller', log', rest', hbusy, hkey, hph⟩

theorem noted_goOn {world : TimerWorld} {i j : ℕ} {caller caller' : TimerCaller}
    {log notes log' : List TimerNote} {rest rest' rest₀ : TimerProgram}
    (client : s.clients i = some (.busy caller log rest₀))
    (h : (goOn s world i caller (log ++ notes) rest).clients j = some (.busy caller' log' rest'))
    {workflowId : WorkflowId} {event : Event} (hnotes : .recorded workflowId event ∉ notes)
    (hmem : .recorded workflowId event ∈ log') :
    ∃ caller₀ log₀ rest₀, s.clients j = some (.busy caller₀ log₀ rest₀) ∧
      .recorded workflowId event ∈ log₀ := by
  change Function.update s.clients i _ j = _ at h
  by_cases hij : j = i
  · subst hij
    rw [Function.update_self] at h
    cases h
    rcases List.mem_append.mp hmem with hmem | hmem
    · exact ⟨caller, log, rest₀, client, hmem⟩
    · exact absurd hmem hnotes
  · rw [Function.update_of_ne hij] at h
    exact ⟨caller', log', rest', h, hmem⟩

variable {i : ℕ} {caller : TimerCaller} {log notes : List TimerNote} {rest next : TimerProgram}

/-- A step after which the caller stands with its slot as before, and the slots are the same. -/
theorem OutcomeInvariant.same (h : OutcomeInvariant steps s)
    (client : s.clients i = some (.busy caller log rest)) {world : TimerWorld}
    (hquiet : RecordsNothing label) (numbered : world.store.Numbered)
    (hgrows : ∀ workflowId, s.store.store.history workflowId <+: world.store.history workflowId)
    (hslots : world.terminalUpdates = s.store.terminalUpdates)
    (hph : ∀ key, caller.key? = some key → slotPhase key (log ++ notes) = slotPhase key log)
    (hnotes : ∀ workflowId event, .recorded workflowId event ∉ notes) :
    OutcomeInvariant (steps ++ [(s, label)]) (goOn s world i caller (log ++ notes) next) := by
  have hstd : ∀ j key phase, Stands (goOn s world i caller (log ++ notes) next) j key phase → Stands s j key phase := by
    intro j key phase hj
    rcases stands_goOn hj with ⟨rfl, hkey, hlog⟩ | ⟨-, hj⟩
    · exact ⟨caller, log, rest, client, hkey, by rw [← hph key hkey, hlog]⟩
    · exact hj
  refine h.quiet hquiet numbered hgrows ?_ ?_ ?_ fun j caller' log' rest' hbusy workflowId event =>
    noted_goOn client hbusy (hnotes workflowId event)
  · intro j key phase hj hne
    change key ∈ world.terminalUpdates
    rw [hslots]
    exact h.taken j key phase (hstd j key phase hj) hne
  · exact fun j k key phase phase' hj hk =>
      h.alone j k key phase phase' (hstd j key phase hj) (hstd k key phase' hk)
  · exact fun j key hj => h.armed j key (hstd j key _ hj)

/-- The caller takes its slot. -/
theorem OutcomeInvariant.take {key : TimerKey} (h : OutcomeInvariant steps s)
    (client : s.clients i = some (.busy caller log rest)) (hkey : caller.key? = some key)
    (hquiet : RecordsNothing label) (hfree : key ∉ s.store.terminalUpdates) :
    OutcomeInvariant (steps ++ [(s, label)])
      (goOn s { s.store with terminalUpdates := insert key s.store.terminalUpdates } i
      caller (log ++ [.took key]) next) := by
  have hph : slotPhase key (log ++ [.took key]) = .holding := by simp [SlotPhase.step]
  refine h.quiet hquiet h.numbered (fun _ => List.prefix_refl _) ?_ ?_ ?_
    fun j caller' log' rest' hbusy workflowId event => noted_goOn client hbusy (by simp)
  · intro j key' phase hj hne
    change key' ∈ insert key s.store.terminalUpdates
    rcases stands_goOn hj with ⟨rfl, hkey', -⟩ | ⟨-, hj⟩
    · rw [hkey] at hkey'
      cases hkey'
      exact Finset.mem_insert_self _ _
    · exact Finset.mem_insert_of_mem (h.taken j key' phase hj hne)
  · intro j k key' phase phase' hj hk hne hne'
    rcases stands_goOn hj with ⟨rfl, hkeyj, -⟩ | ⟨hji, hj'⟩
    · rcases stands_goOn hk with ⟨rfl, -, -⟩ | ⟨-, hk⟩
      · rfl
      · rw [hkey] at hkeyj
        cases hkeyj
        exact absurd (h.taken k key phase' hk hne') hfree
    · rcases stands_goOn hk with ⟨rfl, hkeyk, -⟩ | ⟨-, hk⟩
      · rw [hkey] at hkeyk
        cases hkeyk
        exact absurd (h.taken j key phase hj' hne) hfree
      · exact h.alone j k key' phase phase' hj' hk hne hne'
  · intro j key' hj
    rcases stands_goOn hj with ⟨rfl, hkey', hlog⟩ | ⟨-, hj⟩
    · rw [hkey] at hkey'
      cases hkey'
      rw [hph] at hlog
      cases hlog
    · exact h.armed j key' hj

/-- The caller gives its slot back. -/
theorem OutcomeInvariant.giveBack {key : TimerKey} (h : OutcomeInvariant steps s)
    (client : s.clients i = some (.busy caller log rest)) (hkey : caller.key? = some key)
    (hquiet : RecordsNothing label) (hins : slotPhase key log ≠ .outside) :
    OutcomeInvariant (steps ++ [(s, label)])
      (goOn s { s.store with terminalUpdates := s.store.terminalUpdates.erase key } i
      caller (log ++ [.gaveBack key]) next) := by
  have hph : slotPhase key (log ++ [.gaveBack key]) = .outside := by simp [SlotPhase.step]
  have hown : Stands s i key (slotPhase key log) := ⟨caller, log, rest, client, hkey, rfl⟩
  -- Who has a slot after this step is another caller, and the slot is another one.
  have hstd : ∀ j key' phase, Stands
    (goOn s { s.store with terminalUpdates := s.store.terminalUpdates.erase key } i
      caller (log ++ [.gaveBack key]) next) j key' phase → phase ≠ .outside → Stands s j key' phase ∧ key' ≠ key := by
    intro j key' phase hj hne
    rcases stands_goOn hj with ⟨rfl, hkey', hlog⟩ | ⟨hji, hj'⟩
    · rw [hkey] at hkey'
      cases hkey'
      exact absurd (hlog.symm.trans hph) hne
    · refine ⟨hj', ?_⟩
      rintro rfl
      exact hji (h.alone j i key' phase _ hj' hown hne hins)
  refine h.quiet hquiet h.numbered (fun _ => List.prefix_refl _) ?_ ?_ ?_
    fun j caller' log' rest' hbusy workflowId event => noted_goOn client hbusy (by simp)
  · intro j key' phase hj hne
    obtain ⟨hj, hkey'⟩ := hstd j key' phase hj hne
    exact Finset.mem_erase_of_ne_of_mem hkey' (h.taken j key' phase hj hne)
  · exact fun j k key' phase phase' hj hk hne hne' =>
      h.alone j k key' phase phase' (hstd j key' phase hj hne).1
      (hstd k key' phase' hk hne').1 hne hne'
  · exact fun j key' hj => h.armed j key' (hstd j key' _ hj (by decide)).1

/-- A caller that goes on inside its slot was inside it before: nobody has come to a slot. -/
theorem stands_of_inside {key key' : TimerKey} {world : TimerWorld} {log' : List TimerNote} {j : ℕ}
    (client : s.clients i = some (.busy caller log rest)) (hkey : caller.key? = some key)
    (hins : slotPhase key log ≠ .outside)
    (hj : Stands (goOn s world i caller log' next) j key' phase) :
    ∃ phase', Stands s j key' phase' ∧ (phase ≠ .outside → phase' ≠ .outside) := by
  rcases stands_goOn hj with ⟨rfl, hkey', -⟩ | ⟨-, hj⟩
  · rw [hkey] at hkey'
    cases hkey'
    exact ⟨slotPhase key log, ⟨caller, log, rest, client, hkey, rfl⟩, fun _ => hins⟩
  · exact ⟨phase, hj, id⟩

section Slots

variable (hstd : ∀ {j key phase}, Stands s' j key phase → ∃ phase', Stands s j key phase' ∧
    (phase ≠ .outside → phase' ≠ .outside))

include hstd

/-- Who has a slot had it. -/
theorem OutcomeInvariant.taken_of_stands (h : OutcomeInvariant steps s)
    (hslots : s'.store.terminalUpdates = s.store.terminalUpdates) (j : ℕ) (key : TimerKey)
    (phase : SlotPhase) (hj : Stands s' j key phase) (hne : phase ≠ .outside) :
    key ∈ s'.store.terminalUpdates := by
  rw [hslots]
  obtain ⟨phase', hj, himp⟩ := hstd hj
  exact h.taken j key phase' hj (himp hne)

/-- And had it alone. -/
theorem OutcomeInvariant.alone_of_stands (h : OutcomeInvariant steps s) (j k : ℕ) (key : TimerKey)
    (phase phase' : SlotPhase) (hj : Stands s' j key phase) (hk : Stands s' k key phase')
    (hne : phase ≠ .outside) (hne' : phase' ≠ .outside) : j = k := by
  obtain ⟨phase₁, hj, himp⟩ := hstd hj
  obtain ⟨phase₂, hk, himp'⟩ := hstd hk
  exact h.alone j k key phase₁ phase₂ hj hk (himp hne) (himp' hne')

end Slots

/-- The caller reads a history, which arms it when it shows the timer live. -/
theorem OutcomeInvariant.read {key : TimerKey} (h : OutcomeInvariant steps s)
    (client : s.clients i = some (.busy caller log rest)) (hkey : caller.key? = some key)
    (hquiet : RecordsNothing label) (workflowId : WorkflowId) :
    OutcomeInvariant (steps ++ [(s, label)])
      (goOn s s.store i caller (log ++ [.read workflowId (s.store.store.readHistory workflowId)])
          next) := by
  have hread := InMemoryStore.readHistory_of_numbered h.numbered workflowId
  by_cases harms : slotPhase key log = .holding ∧ workflowId = key.1 ∧
      key.2 ∈ liveTimersInActiveSegment (s.store.store.readHistory workflowId)
  · obtain ⟨hholding, rfl, hlive⟩ := harms
    have hph : slotPhase key (log ++ [.read key.1 (s.store.store.readHistory key.1)]) = .armed := by
      simp [SlotPhase.step, hholding, hlive]
    rw [hread] at hlive
    have hins : slotPhase key log ≠ .outside := by simp [hholding]
    refine h.quiet hquiet h.numbered (fun _ => List.prefix_refl _)
      (h.taken_of_stands (stands_of_inside client hkey hins) rfl)
      (h.alone_of_stands (stands_of_inside client hkey hins)) ?_ fun j caller' log' rest' hbusy workflowId event =>
        noted_goOn client hbusy (by simp)
    · intro j key' hj
      rcases stands_goOn hj with ⟨rfl, hkey', -⟩ | ⟨-, hj⟩
      · rw [hkey] at hkey'
        cases hkey'
        exact fun n settled _ hsett hsets => started_after_of_live hlive hsett hsets
      · exact h.armed j key' hj
  · refine h.same client hquiet h.numbered (fun _ => List.prefix_refl _) rfl ?_ (by simp)
    intro key' hkey'
    rw [hkey] at hkey'
    cases hkey'
    rw [slotPhase_concat]
    exact if_neg harms

/-- A call that records adds one place to what is recorded. -/
theorem recorded_called_iff {event : Event} {workflowId : WorkflowId}
    (hlabel : label = .called i (.recordWorkflowEvent workflowId event) (.ok .recorded))
    {other : WorkflowId} {n : ℕ} :
    Recorded (steps ++ [(s, label)]) other n ↔
      Recorded steps other n ∨ other = workflowId ∧
      n = (s.store.store.history workflowId).length := by
  simp only [Recorded, recordedAt_concat, hlabel]
  constructor
  · rintro ⟨j, hj | ⟨event', hcalled, rfl⟩⟩
    · exact .inl ⟨j, hj⟩
    · cases hcalled
      exact .inr ⟨rfl, rfl⟩
  · rintro (⟨j, hj⟩ | ⟨rfl, rfl⟩)
    · exact ⟨j, .inl hj⟩
    · exact ⟨i, .inr ⟨event, rfl, rfl⟩⟩

/-- What a call has noted besides its last record it had noted before. -/
theorem noted_before {world : TimerWorld} {key : TimerKey} {event event' : Event}
    {workflowId : WorkflowId} {j : ℕ} {caller' : TimerCaller} {log' : List TimerNote}
    {rest' : TimerProgram} (client : s.clients i = some (.busy caller log rest))
    (hbusy : (goOn s world i caller (log ++ [.recorded key.1 event]) next).clients j =
        some (.busy caller' log' rest')) (hmem : .recorded workflowId event' ∈ log')
    (hnew : ¬ (j = i ∧ workflowId = key.1 ∧ event' = event)) :
    ∃ caller₀ log₀ rest₀, s.clients j = some (.busy caller₀ log₀ rest₀) ∧
      .recorded workflowId event' ∈ log₀ := by
  by_cases hij : j = i
  · refine noted_goOn client hbusy ?_ hmem
    intro hnote
    cases List.mem_singleton.mp hnote
    exact hnew ⟨hij, rfl, rfl⟩
  · change Function.update s.clients i _ j = _ at hbusy
    rw [Function.update_of_ne hij] at hbusy
    exact ⟨caller', log', rest', hbusy, hmem⟩

/-- An armed caller records an outcome of its timer. -/
theorem OutcomeInvariant.record {key : TimerKey} {event recorded : Event} {store : InMemoryStore}
    {registry : List RegisteredHandle} {seq : ℕ} (h : OutcomeInvariant steps s)
    (client : s.clients i = some (.busy caller log rest)) (hkey : caller.key? = some key)
    (harmed : slotPhase key log = .armed) (hsets : settlesTimer key.2 recorded)
    (hbody : recorded.body = event.body)
    (hopen : activeRunHasTerminal (s.store.store.readHistory key.1) = false)
    (happ : s.store.store.append key.1 [recorded] seq = .ok store)
    (hlabel : label = .called i (.recordWorkflowEvent key.1 event) (.ok .recorded)) :
    OutcomeInvariant (steps ++ [(s, label)])
      (goOn s { s.store with store, registry } i caller (log ++ [.recorded key.1 event]) next) := by
  have hadd := (InMemoryStore.append_eq_ok happ).2.2
  have hown : Stands s i key .armed := ⟨caller, log, rest, client, hkey, harmed⟩
  have hph : slotPhase key (log ++ [.recorded key.1 event]) = .spent := by
    simp [SlotPhase.step, harmed]
  have hrecd := fun other n => @recorded_called_iff steps s label i event key.1 hlabel other n
  have hins : slotPhase key log ≠ .outside := by simp [harmed]
  refine ⟨InMemoryStore.append_numbered h.numbered happ,
      h.taken_of_stands (stands_of_inside client hkey hins) rfl,
    h.alone_of_stands (stands_of_inside client hkey hins), ?_, ?_, ?_⟩
  · rw [InMemoryStore.readHistory_of_numbered h.numbered] at hopen
    exact h.settled.record hsets (h.armed i key hown) hopen hadd hrecd
  · intro j key' hj
    rcases stands_goOn hj with ⟨rfl, hkey', hlog⟩ | ⟨hji, hj'⟩
    · rw [hkey] at hkey'
      cases hkey'
      rw [hph] at hlog
      cases hlog
    · refine (h.armed j key' hj').record hsets ?_ (fun n => h.settled.within key'.1 n) hadd hrecd
      rintro rfl
      exact hji (h.alone j i key' .armed .armed hj' hown (by decide) (by decide))
  · intro j caller' log' rest' hbusy workflowId event' hmem
    by_cases hnew : j = i ∧ workflowId = key.1 ∧ event' = event
    · obtain ⟨rfl, rfl, rfl⟩ := hnew
      refine ⟨(s.store.store.history key.1).length, recorded,
        recordedAt_concat.mpr (.inr ⟨event', hlabel, rfl⟩), ?_, hbody⟩
      change (store.history key.1)[_]? = _
      rw [hadd, if_pos rfl, List.getElem?_concat_length]
    · obtain ⟨caller₀, log₀, rest₀, hbusy₀, hmem₀⟩ := noted_before client hbusy hmem hnew
      obtain ⟨n, found, hat, hget, hfd⟩ := h.noted j caller₀ log₀ rest₀ hbusy₀ workflowId event' hmem₀
      have hgrows : s.store.store.history workflowId <+: store.history workflowId := ⟨_, (hadd workflowId).symm⟩
      refine ⟨n, found, recordedAt_concat.mpr (.inl hat), ?_, hfd⟩
      change (store.history workflowId)[n]? = _
      rw [getElem?_of_isPrefix hgrows (List.getElem?_eq_some_iff.mp hget).1]
      exact hget

/-- The steps after which a caller stands with its slot as before. -/
def KeepsPhase : TimerCall → Prop
  | .insertTerminalUpdate _ => False
  | .removeTerminalUpdate _ => False
  | .readHistory _ => False
  | .recordWorkflowEvent .. => False
  | .crash => False
  | _ => True

/-- A step that takes no slot, gives none back and reads and records nothing. -/
theorem OutcomeInvariant.keep {request : TimerCall} (h : OutcomeInvariant steps s)
    (client : s.clients i = some (.busy caller log rest))
    (hkeeps : KeepsPhase request ∨ caller.key? = none ∧ OtherWrites request) :
    OutcomeInvariant (steps ++ [(s, .called i request (s.store.serve request).1)])
      (goOn s (s.store.serve request).2 i caller
          (log ++ TimerNote.of request (s.store.serve request).1) next) := by
  have hslots : (s.store.serve request).2.terminalUpdates = s.store.terminalUpdates := by
    cases request with
    | armTimer process timerId fireAt =>
      simp only [TimerWorld.serve, TimerWorld.armTimer]
      split
      · rfl
      · rfl
    | insertTerminalUpdate _ => simp [KeepsPhase, OtherWrites] at hkeeps
    | removeTerminalUpdate _ => simp [KeepsPhase, OtherWrites] at hkeeps
    | recordWorkflowEvent _ _ => simp [KeepsPhase, OtherWrites] at hkeeps
    | crash => simp [KeepsPhase, OtherWrites] at hkeeps
    | _ => rfl
  refine h.same client ?_ (serve_numbered h.numbered request)
    (serve_grows s.store request) hslots ?_ ?_
  · intro j workflowId event hlabel
    injection hlabel with hi hreq hans
    subst hreq
    simp [KeepsPhase, OtherWrites] at hkeeps
  · intro key hkey
    rcases hkeeps with hkeeps | ⟨hnone, -⟩
    · cases request with
      | clock => simp [TimerNote.of, SlotPhase.step]
      | expiredTimers asOf => simp [TimerNote.of, SlotPhase.step]
      | pendingTimer pid timerId =>
        generalize (s.store.serve (.pendingTimer pid timerId)).1 = task
        change Option PendingTimer at task
        cases task with
        | none => simp [TimerNote.of]
        | some task => simp [TimerNote.of, SlotPhase.step]
      | insertTerminalUpdate _ => exact hkeeps.elim
      | removeTerminalUpdate _ => exact hkeeps.elim
      | readHistory _ => exact hkeeps.elim
      | recordWorkflowEvent _ _ => exact hkeeps.elim
      | crash => exact hkeeps.elim
      | _ => simp [TimerNote.of]
    · rw [hnone] at hkey
      cases hkey
  · intro workflowId event hmem
    cases request with
    | recordWorkflowEvent _ _ => simp [KeepsPhase, OtherWrites] at hkeeps
    | insertTerminalUpdate _ => simp [KeepsPhase, OtherWrites] at hkeeps
    | pendingTimer pid timerId =>
      generalize (s.store.serve (.pendingTimer pid timerId)).1 = task at hmem
      change Option PendingTimer at task
      cases task with
      | none => simp [TimerNote.of] at hmem
      | some task => simp [TimerNote.of] at hmem
    | _ => simp [TimerNote.of] at hmem

theorem OutcomeInvariant.called {request : TimerCall} {next : request.Answer → TimerProgram}
    (h : OutcomeInvariant steps s)
    (client : s.clients i = some (.busy caller log (.call request next)))
    (hmay : caller.May log request) :
    OutcomeInvariant (steps ++ [(s, .called i request (s.store.serve request).1)])
      (goOn s (s.store.serve request).2 i caller
          (log ++ TimerNote.of request (s.store.serve request).1)
        (next (s.store.serve request).1)) := by
  unfold TimerCaller.May at hmay
  cases hkey : caller.key? with
  | none =>
    rw [hkey] at hmay
    exact h.keep client (.inr ⟨hkey, hmay⟩)
  | some key =>
    rw [hkey] at hmay
    have hquiet : ∀ answer, (∀ workflowId event, request ≠ .recordWorkflowEvent workflowId event) →
        RecordsNothing (.called i request answer) := by
      intro answer hne j workflowId event hlabel
      cases hlabel
      exact hne _ _ rfl
    cases request with
    | insertTerminalUpdate taken =>
      obtain ⟨rfl, -⟩ := hmay
      by_cases hmem : taken ∈ s.store.terminalUpdates
      · have hserve : s.store.serve (.insertTerminalUpdate taken) = (false, s.store) := if_pos hmem
        rw [hserve]
        exact h.same client (hquiet _ (by simp)) h.numbered (fun _ => List.prefix_refl _) rfl (by simp [TimerNote.of])
          (by simp [TimerNote.of])
      · have hserve : s.store.serve (.insertTerminalUpdate taken) =
            (true, { s.store with terminalUpdates := insert taken s.store.terminalUpdates }) := if_neg hmem
        rw [hserve]
        exact h.take client hkey (hquiet _ (by simp)) hmem
    | removeTerminalUpdate given =>
      obtain ⟨rfl, hins⟩ := hmay
      exact h.giveBack client hkey (hquiet _ (by simp)) hins
    | readHistory workflowId => exact h.read client hkey (hquiet _ (by simp)) workflowId
    | recordWorkflowEvent workflowId event =>
      obtain ⟨rfl, hsets, harmed⟩ := hmay
      have hout := recordedOutcome s.store key.1 event
      have hserve : s.store.serve (.recordWorkflowEvent key.1 event) = s.store.recordWorkflowEvent key.1 event := rfl
      rw [hserve]
      generalize s.store.recordWorkflowEvent key.1 event = served at hout
      cases hout with
      | @none result registry hres =>
        have hnotes : TimerNote.of (.recordWorkflowEvent key.1 event) result = [] := by
          rcases result with error | _ | _
          · rfl
          · exact absurd rfl hres
          · rfl
        refine h.same client ?_ h.numbered (fun _ => List.prefix_refl _) rfl (by simp [hnotes]) (by simp [hnotes])
        intro j workflowId' event' hlabel
        cases hlabel
        exact hres rfl
      | @appended store registry seq hopen happ =>
        refine h.record client hkey harmed ?_ ?_ hopen happ rfl
        · unfold settlesTimer at hsets ⊢
          exact hsets
        · rfl
    | append _ _ _ => exact hmay.elim
    | setRegistry _ => exact hmay.elim
    | crash => exact hmay.elim
    | _ => exact h.keep client (.inl trivial)

theorem outcomeInvariant_of_run (run : Run timerSteps timerPrograms noTimers steps s) :
    OutcomeInvariant steps s := by
  induction run with
  | nil =>
    refine ⟨InMemoryStore.numbered_empty, ?_, ?_, ⟨?_, ?_, ?_, ?_⟩, ?_, ?_⟩
    · rintro i key phase ⟨_, _, _, ⟨⟩, _⟩
    · rintro i j key phase phase' ⟨_, _, _, ⟨⟩, _⟩
    · rintro workflowId n ⟨i, step, ⟨⟩, _⟩
    · rintro workflowId n ⟨i, step, ⟨⟩, _⟩
    · rintro workflowId timerId n m first second hlt ⟨i, step, ⟨⟩, _⟩
    · rintro workflowId n ⟨i, step, ⟨⟩, _⟩
    · rintro i key ⟨_, _, _, ⟨⟩, _⟩
    · rintro i caller log rest ⟨⟩
  | @snoc steps mid label final earlier last ih =>
    have hobey : AllObey timerSteps TimerCaller.May (fun _ _ _ => True) mid := by
      refine obeys_of_reachable timerPrograms_obey earlier.reachable ?_
      rintro i caller log rest ⟨⟩
    cases last with
    | opened free => exact ih.setClient (fun _ _ _ => by simp) (by simp)
    | began client hprog =>
      refine ih.setClient (fun _ _ _ => by simp) ?_
      rintro caller log rest ⟨⟩
      rfl
    | called client => exact ih.called client (hobey _ _ _ _ client).1
    | finished client => exact ih.setClient (fun _ _ _ => by simp) (by simp)
    | closed => exact ih.setClient (fun _ _ _ => by simp) (by simp)

end Invariant

/-! ### One outcome -/

/-- The position stands between the start at `k` and the timer's next start. -/
def BeforeNextStart (history : List Event) (timerId : TimerId) (k n : ℕ) : Prop :=
  k < n ∧ ∀ l event, k < l → l < n → history[l]? = some event → startsTimer timerId event = false

/-- What the calls have recorded and woken. -/
structure TimerOutcomes (steps : List (TimerSystem × TimerLabel)) (s : TimerSystem) : Prop where
  /-- What a call has recorded is an outcome of a timer. -/
  outcome : ∀ workflowId n, Recorded steps workflowId n → ∃ timerId settled,
    (s.store.store.history workflowId)[n]? = some settled ∧ settlesTimer timerId settled
  /-- After a start of a timer and before the next, the calls record one outcome at most. -/
  one : ∀ workflowId timerId k started, (s.store.store.history workflowId)[k]? = some started →
    startsTimer timerId started → ∀ n m first second, Recorded steps workflowId n →
      Recorded steps workflowId m →
    (s.store.store.history workflowId)[n]? = some first → settlesTimer timerId first →
    (s.store.store.history workflowId)[m]? = some second → settlesTimer timerId second →
    BeforeNextStart (s.store.store.history workflowId) timerId k n →
    BeforeNextStart (s.store.store.history workflowId) timerId k m → n = m
  /-- Where a call has recorded an outcome, the active run had no terminal in its lease. -/
  unended : ∀ workflowId n runId, Recorded steps workflowId n →
    lastRunId? ((s.store.store.history workflowId).take n) = some runId →
    terminalOutcomeFromHistory ((s.store.store.history workflowId).take n) runId = none
  /-- Who wakes a process for a timer has recorded the timer as fired before. -/
  woken : ∀ before during i process timerId fireAt answer after,
    steps = before ++ (during, .called i (.deliverWorkflowMessage process timerId fireAt) answer) ::
      after →
    ∃ workflowId n fired, RecordedAt before i workflowId n ∧
      (during.store.store.history workflowId)[n]? = some fired ∧ fired.body = .timerFired timerId

/-- **One outcome for each start.** Whatever calls cancel and fire timers, and whatever the
other writers append meanwhile, step by step and in any order. -/
theorem one_outcome {steps : List (TimerSystem × TimerLabel)} {s : TimerSystem}
    (run : Run timerSteps timerPrograms noTimers steps s) : TimerOutcomes steps s := by
  have hsett := (outcomeInvariant_of_run run).settled
  refine ⟨hsett.outcome, ?_, ?_, ?_⟩
  · intro workflowId timerId k started hstrt hstarts n m first second hn hm hfst hsets hsnd hsets' hkn hkm
    -- Of two outcomes, the later one comes after a start that stands between them.
    rcases Nat.lt_trichotomy n m with hlt | heq | hlt
    · obtain ⟨l, event, hl, hlm, hget, hstart⟩ :=
        hsett.separated workflowId timerId n m first second hlt hn hm hfst hsets hsnd hsets'
      rw [hkm.2 l event (Nat.lt_trans hkn.1 hl) hlm hget] at hstart
      cases hstart
    · exact heq
    · obtain ⟨l, event, hl, hln, hget, hstart⟩ :=
        hsett.separated workflowId timerId m n second first hlt hm hn hsnd hsets' hfst hsets
      rw [hkn.2 l event (Nat.lt_trans hkm.1 hl) hln hget] at hstart
      cases hstart
  · intro workflowId n runId hn hrun
    have hunended := hsett.unended workflowId n hn
    simpa [activeRunHasTerminal, hrun] using hunended
  · rintro before during i process timerId fireAt answer after rfl
    obtain ⟨hbef, next, hstep⟩ := run.at_step
    have hobey : AllObey timerSteps TimerCaller.May (fun _ _ _ => True) during := by
      refine obeys_of_reachable timerPrograms_obey hbef.reachable ?_
      rintro j caller log rest ⟨⟩
    cases hstep with
    | called client =>
      have hmay := (hobey _ _ _ _ client).1
      unfold TimerCaller.May at hmay
      split at hmay
      · exact hmay.elim
      · obtain ⟨event, hmem, hbody⟩ := hmay
        obtain ⟨n, fired, hat, hget, hfired⟩ := (outcomeInvariant_of_run hbef).noted _ _ _ _ client _ event hmem
        exact ⟨_, n, fired, hat, hget, hfired.trans hbody⟩

/-- A run of workflow 7 that has started its first sleep, for the instant 100. -/
def sleepingRun : List Event :=
  numbered [.workflowStarted "billing" Payload.empty ⟨1⟩ none ⟨"v1"⟩,
      .timerStarted (.anonymous 0) 100]

/-- An environment in which nothing fails. -/
def quickEnvironment : TimerEnvironment where
  patience := 1
  dropped _ := false
  deadlineHandler := none
  wake := .ok ()
  parseUuid _ := none

/-- The other writer registers the run and appends its history; the calls meet no delay. -/
def sleepingProgram : TimerCaller → TimerProgram
  | .cancel workflowId timerId cause =>
    TimerCaller.program (.cancel workflowId timerId cause)
      (TimerService.cancel quickEnvironment workflowId timerId cause)
  | .fire workflowId timerId fireAt =>
    TimerCaller.program (.fire workflowId timerId fireAt)
      (TimerService.fireTimer quickEnvironment workflowId timerId fireAt)
  | .other => .call (.setRegistry [⟨3, true, .resumeAt ⟨7⟩ 2⟩]) fun _ =>
      .call (.append ⟨7⟩ sleepingRun 0) fun _ => .done (.ok (), .other)

/-- While the sleep is fired a cancel waits for its slot, and then finds the timer settled. -/
def fireThenCancel : List (Action TimerCaller) :=
  [.opened 0 .other, .advance 0, .advance 0, .advance 0,
    .opened 1 (.fire ⟨7⟩ (.anonymous 0) 100), .advance 1, .advance 1, .advance 1,
    .opened 2 (.cancel ⟨7⟩ (.anonymous 0) .workflowIntent), .advance 2, .advance 2, .advance 2,
    .advance 1, .advance 1, .advance 1, .advance 1, .advance 1, .advance 1, .advance 1,
    .advance 2, .advance 2, .advance 2, .advance 2, .advance 2]

theorem one_outcome_sleep :
    ∃ steps s, Run timerSteps timerPrograms noTimers steps s ∧
    (s.store.store.history ⟨7⟩).map (·.body.kind) =
      ["WorkflowStarted", "TimerStarted", "TimerFired"] ∧
      TimerOutcomes steps s := by
  have hprograms : ∀ caller, timerPrograms caller (sleepingProgram caller) := by
    intro caller
    cases caller with
    | cancel workflowId timerId cause => exact ⟨quickEnvironment, rfl⟩
    | fire workflowId timerId fireAt => exact ⟨quickEnvironment, rfl⟩
    | other => exact ⟨trivial, fun _ => ⟨trivial, fun _ => trivial⟩⟩
  have hseen : ((noTimers.exec timerSteps sleepingProgram fireThenCancel).map fun final =>
      (final.2.store.store.history ⟨7⟩).map (·.body.kind)) =
        some ["WorkflowStarted", "TimerStarted", "TimerFired"] := by decide +kernel
  obtain ⟨⟨steps, s⟩, hexec, hkinds⟩ := Option.map_eq_some_iff.mp hseen
  have hrun := System.run_of_exec hprograms hexec
  exact ⟨steps, s, hrun, hkinds, one_outcome hrun⟩

end Aion
