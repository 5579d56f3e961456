import Aion.Library.Interleaving
import Aion.Sdk.RunLoop

/-!
# Reports of a worker

What becomes of the tasks that a worker takes. The tracker holds the outcomes that were recorded and
neither acknowledged nor replaced since (`Tracked`), and all of them are sent on a session before it
serves (`Resent`). A task that was taken has a handler or an outcome in the channel until it is
recorded (`Accounted`), unless another task of its key was in flight at the same time. Where that
never happens every handler is joined before its session is left (`Joined`), so no more of them run
than there are permits.
-/

namespace Aion

open Actions Interleaving

namespace WorkerRun

variable {worker : Worker} {s s' : WorkerRun}

/-! ### Steps that end a session or an attempt -/

/-- No session is up. -/
inductive Idle : RunPhase → Prop where
  | pausing (attempt deadline : ℕ) : Idle (.pausing attempt deadline)
  | backingOff (cause : DropCause) (deadline : ℕ) : Idle (.backingOff cause deadline)
  | finished (result : Except WorkerError Unit) : Idle (.finished result)

variable (worker) in
theorem refuse_eq (attempt : ℕ) (error : WorkerError) :
    ∃ phase, Idle phase ∧
    s.refuse worker attempt error = { s with phase := phase, notes :=
        s.notes ++ [.refused error] } := by
  rw [refuse]
  split_ifs
  · exact ⟨_, .finished _, rfl⟩
  · exact ⟨_, .finished _, rfl⟩
  · exact ⟨_, .pausing _ _, rfl⟩

variable (worker) in
theorem drop_eq (cause : DropCause) :
    ∃ phase failures, Idle phase ∧
    s.drop worker cause = { s with
      phase := phase, dropFailures := failures, notes :=
        s.notes ++ [.dropped cause (s.provedHealthy worker)] } := by
  rw [drop]
  generalize (if s.provedHealthy worker then 0 else s.dropFailures) = failures
  split_ifs
  · exact ⟨_, _, .backingOff _ _, rfl⟩
  · exact ⟨_, _, .finished _, rfl⟩
  · exact ⟨_, _, .backingOff _ _, rfl⟩

variable (worker) in
theorem settle_eq (result : Except WorkerError ServeEnd) :
    ∃ phase failures dropped, Idle phase ∧
    (dropped = [] ∨ ∃ cause healthy, dropped = [.dropped cause healthy]) ∧
    s.settle worker result = { s with
      phase := phase, dropFailures := failures, notes :=
      s.notes ++ .served result :: dropped } := by
  rw [settle]
  cases classifyServeOutcome result (s.note (.served result)).health (s.note (.served result)).fired with
  | ends result => exact ⟨_, _, [], .finished _, .inl rfl, rfl⟩
  | drops cause =>
    obtain ⟨phase, failures, hidle, heq⟩ := drop_eq worker (s := s.note (.served result)) cause
    refine ⟨phase, failures, [.dropped cause (s.provedHealthy worker)], hidle, .inr ⟨cause, _, rfl⟩, heq.trans ?_⟩
    simp [note, provedHealthy]

/-- What a handler leaves behind that sends its outcome. -/
theorem sendOutcome_cases (handler : Handler) (outcome : Except WorkerError DispatchOutcome) :
    ((s.isServing ∧ handler.session = s.session) ∧ s.sendOutcome handler outcome =
      { s.updateHandler handler.number fun handler => { handler with sent := true } with
        results := s.results ++ [⟨handler.number, handler.task.key, handler.task.runId, outcome⟩]
          }) ∨
    ¬ (s.isServing ∧ handler.session = s.session) ∧
      s.sendOutcome handler outcome = s.updateHandler handler.number fun handler =>
        { handler with sent := true } := by
  by_cases hopen : s.isServing ∧ handler.session = s.session
  · exact .inl ⟨hopen, if_pos hopen⟩
  · exact .inr ⟨hopen, if_neg hopen⟩

/-! ### The tracker -/

/-- The note records the outcome. -/
def Records (note : RunNote) (report : PendingActivityReport) : Prop :=
  ∃ number, note = .recorded number report

/-- The note says that the outcome need not be sent any more: it is acknowledged, or another one is
recorded. -/
def Settles (note : RunNote) (report : PendingActivityReport) : Prop :=
  note = .acknowledged report.key ∨ ∃ number other, note = .recorded number other ∧
    other.key = report.key

/-- The note says that the session took the report. -/
def Sends (note : RunNote) (report : PendingActivityReport) : Prop := note = .sent report

/-- The note says that a session stands. -/
def Establishes (note : RunNote) (_ : PendingActivityReport) : Prop := note = .established

/-- The tracker holds the outcomes that were recorded and not settled since. -/
structure Tracked (s : WorkerRun) : Prop where
  keys : ∀ entry ∈ s.tracker.entries, entry.1 = entry.2.key
  exact : ∀ report, (report.key, report) ∈ s.tracker.entries ↔ Since Records Settles s.notes report

theorem tracked_start : Tracked start := ⟨by simp [start, OrderedMap.empty], fun report => by
  simpa [start, OrderedMap.empty] using not_since_nil⟩

/-- Nothing that concerns the tracker is noted. -/
theorem Tracked.of_quiet (h : s.Tracked) (quiet : List RunNote) (htracker : s'.tracker = s.tracker)
    (hnotes : s'.notes = s.notes ++ quiet)
    (hquiet : ∀ note ∈ quiet, ∀ report, ¬ Records note report ∧ ¬ Settles note report) :
    s'.Tracked := by
  refine ⟨htracker ▸ h.keys, fun report => ?_⟩
  rw [htracker, hnotes, since_append_of_quiet fun note hnote => hquiet note hnote report]
  exact h.exact report

theorem Tracked.moves (h : s.Tracked) (hmoves : Moves worker s s') : s'.Tracked := by
  cases hmoves with
  | acknowledges workflowId activityId hph =>
    refine ⟨fun entry hent => h.keys entry (OrderedMap.mem_erase.mp hent).1, fun report => ?_⟩
    rw [acknowledgeResult, note, UnackedResultTracker.acknowledge, OrderedMap.mem_erase,
      since_concat, h.exact]
    simp [Records, Settles, eq_comm]
  | @records finished rest outcome phase error health sent hresults hjoin hout hcont hsent =>
    have hquiet : ∀ note ∈ sent, ∀ report, ¬ Records note report ∧ ¬ Settles note report := by
      rcases hsent with rfl | ⟨rfl, -⟩ <;> simp [Records, Settles]
    refine ⟨fun entry hent => ?_, fun report => ?_⟩
    · rcases OrderedMap.mem_insert.mp hent with rfl | ⟨hent, -⟩
      · rfl
      · exact h.keys entry hent
    · rw [UnackedResultTracker.record, OrderedMap.mem_insert, h.exact, List.append_cons,
        since_append_of_quiet fun note hnote => hquiet note hnote report, since_concat]
      simp only [Records, Settles, RunNote.recorded.injEq, Prod.mk.injEq, reduceCtorEq, false_or]
      grind
  | establishes hph => exact h.of_quiet [.established] rfl rfl (by simp [Records, Settles])
  | @refuses attempt error hph =>
    obtain ⟨phase, -, heq⟩ := refuse_eq worker (s := s) attempt error
    rw [heq]
    exact h.of_quiet [.refused error] rfl rfl (by simp [Records, Settles])
  | @settles result hph =>
    obtain ⟨phase, failures, dropped, -, hdrop, heq⟩ := settle_eq worker (s := s) result
    rw [heq]
    refine h.of_quiet (.served result :: dropped) rfl rfl ?_
    rcases hdrop with rfl | ⟨cause, healthy, rfl⟩ <;> simp [Records, Settles]
  | stops | interrupts => exact h.of_quiet [.shutdown] rfl rfl (by simp [Records, Settles])
  | @resends report rest hph => exact h.of_quiet [.sent report] rfl rfl (by simp [Records, Settles])
  | @accepts task hph hpermit =>
    exact h.of_quiet [.accepted s.spawned task] rfl rfl (by simp [Records, Settles])
  | @fails finished rest failure phase error health hresults hjoin hout hcont =>
    exact h.of_quiet [.failed finished.number failure] rfl rfl (by simp [Records, Settles])
  | @panics handler hhdlr hsent =>
    exact h.of_quiet [.panicked handler.number] rfl rfl (by simp [Records, Settles])
  | @finishes handler outcome hhdlr hsent =>
    refine h.of_quiet [] ?_ ?_ (by simp) <;> rw [sendOutcome] <;> split_ifs <;> simp [updateHandler]
  | _ => exact ⟨h.keys, h.exact⟩

/-! ### Sending again -/

/-- The report was sent on the session that stands. -/
abbrev SentNow (notes : List RunNote) (report : PendingActivityReport) : Prop :=
  Since Sends Establishes notes report

/-- What is tracked is sent again on every session before its tasks are taken. -/
structure Resent (s : WorkerRun) : Prop where
  replaying : ∀ rest, s.phase = .replaying rest → ∀ entry ∈ s.tracker.entries, entry.2 ∈ rest ∨
    SentNow s.notes entry.2
  serving : s.InStream → ∀ entry ∈ s.tracker.entries, SentNow s.notes entry.2
  accepted : ∀ before number task after, s.notes = before ++ .accepted number task :: after →
    ∀ report, Since Records Settles before report → SentNow before report

theorem resent_start : Resent start where
  replaying rest hph := by cases hph
  serving hstr := by rcases hstr with hph | ⟨frame, hph⟩ <;> cases hph
  accepted before number task after hnotes := by simp [start] at hnotes

variable {more notes : List RunNote} {rest : List DispatchFinished} {finished : DispatchFinished}
  {handler : Handler} {key : ActivityExecutionKey} {number : ℕ}

theorem sentNow_append {report : PendingActivityReport} (h : SentNow notes report)
    (hmore : .established ∉ more) : SentNow (notes ++ more) report :=
  h.append fun _ hnote heq => hmore (heq ▸ hnote)

/-- Nothing is accepted by the way. -/
theorem Resent.accepted_append (h : s.Resent)
    (hmore : ∀ number task, .accepted number task ∉ more) :
    ∀ before number task after, s.notes ++ more = before ++ .accepted number task :: after →
      ∀ report, Since Records Settles before report → SentNow before report := by
  intro before number task after hnotes
  obtain ⟨middle, -, rfl⟩ | ⟨middle, hbef, hmid⟩ := List.append_eq_append_iff.mp hnotes
  · exact absurd (List.mem_append_right _ List.mem_cons_self) (hmore number task)
  · rcases middle with _ | ⟨note, middle⟩
    · obtain rfl : .accepted number task :: after = more := hmid
      exact absurd List.mem_cons_self (hmore number task)
    · obtain ⟨rfl, rfl⟩ := List.cons.inj hmid
      exact h.accepted before number task middle hbef

/-- The phase stays, or is one in which no session is read from or replayed on. -/
theorem Resent.of_phase (h : s.Resent) (more : List RunNote) (hnotes : s'.notes = s.notes ++ more)
    (htracker : s'.tracker = s.tracker)
    (hph : s'.phase = s.phase ∧ .established ∉ more ∨ ¬ s'.InStream ∧
        ∀ rest, s'.phase ≠ .replaying rest) (hmore : ∀ number task, .accepted number task ∉ more) :
    s'.Resent := by
  refine ⟨fun rest hrest entry hent => ?_, fun hstr entry hent =>
      ?_, hnotes ▸ h.accepted_append hmore⟩
  · obtain ⟨hph, hestab⟩ | ⟨-, hph⟩ := hph
    · rw [hnotes]
      exact (h.replaying rest (hph ▸ hrest) entry (htracker ▸ hent)).imp_right fun hsent => sentNow_append hsent hestab
    · exact absurd hrest (hph rest)
  · obtain ⟨hph, hestab⟩ | ⟨hph, -⟩ := hph
    · rw [hnotes]
      rw [InStream, hph] at hstr
      exact sentNow_append (h.serving hstr entry (htracker ▸ hent)) hestab
    · exact absurd hstr hph

theorem Resent.moves (h : s.Resent) (htracked : s.Tracked) (hmoves : Moves worker s s') :
    s'.Resent := by
  cases hmoves with
  | ticks | cancels | errs | releases =>
    exact h.of_phase [] (List.append_nil _).symm rfl (.inl ⟨rfl, by simp⟩) (by simp)
  | stops | interrupts =>
    exact h.of_phase [.shutdown] rfl rfl (.inr ⟨by simp [InStream], by simp⟩) (by simp)
  | establishes hph =>
    refine ⟨fun rest hrest entry hent => .inl ?_, fun hstr => ?_, h.accepted_append (by simp)⟩
    · obtain rfl := RunPhase.replaying.inj hrest
      exact List.mem_map_of_mem hent
    · rcases hstr with hph | ⟨frame, hph⟩ <;> cases hph
  | @refuses attempt error hph =>
    obtain ⟨phase, hidle, heq⟩ := refuse_eq worker (s := s) attempt error
    rw [heq]
    exact h.of_phase [.refused error] rfl rfl (.inr (by cases hidle <;> simp [InStream])) (by simp)
  | @resends report rest hph =>
    refine ⟨fun rest' hrest entry hent => ?_, fun hstr => ?_, h.accepted_append (by simp)⟩
    · obtain rfl := RunPhase.replaying.inj hrest
      rcases h.replaying _ hph entry hent with hmem | hsent
      · rcases List.mem_cons.mp hmem with heq | hmem
        · exact .inr (since_concat.mpr (.inl (congrArg RunNote.sent heq.symm)))
        · exact .inl hmem
      · exact .inr (sentNow_append hsent (by simp))
    · rcases hstr with hph | ⟨frame, hph⟩ <;> cases hph
  | serves hph =>
    refine ⟨fun rest hrest => (by cases hrest), fun _ entry hent => ?_, h.accepted⟩
    exact (h.replaying _ hph entry hent).resolve_left List.not_mem_nil
  | retries | recovers | breaks | leaves | drains =>
    exact h.of_phase [] (List.append_nil _).symm rfl (.inr ⟨by simp [InStream], by simp⟩) (by simp)
  | waits frame hph =>
    exact ⟨fun rest hrest => (by cases hrest), fun _ => h.serving (.inl hph), h.accepted⟩
  | acknowledges workflowId activityId hph =>
    refine ⟨fun rest hrest => ?_, fun _ entry hent => ?_, h.accepted_append (by simp)⟩
    · exact absurd (hph.symm.trans hrest) (by simp)
    · exact sentNow_append (h.serving (.inl hph) entry (OrderedMap.mem_erase.mp hent).1) (by simp)
  | @accepts task hph hpermit =>
    have hserving := h.serving (.inr ⟨_, hph⟩)
    refine ⟨fun rest hrest => (by cases hrest), fun _ entry hent => sentNow_append (hserving entry hent) (by simp), ?_⟩
    intro before number task' after hnotes report hreport
    rcases List.eq_nil_or_concat' after with rfl | ⟨later, last, rfl⟩
    · obtain ⟨rfl, -⟩ := List.append_inj' hnotes rfl
      exact hserving _ ((htracked.exact report).mpr hreport)
    · rw [← List.cons_append, ← List.append_assoc] at hnotes
      exact h.accepted before number task' later (List.append_inj' hnotes rfl).1 report hreport
  | @records finished rest outcome phase error health sent hresults hjoin hout hcont hsent =>
    have hquiet : ∀ number task, .accepted number task ∉
        .recorded finished.number (pendingReport finished.key finished.runId outcome) :: sent := by
      rcases hsent with rfl | ⟨rfl, -⟩ <;> simp
    cases hcont with
    | serving hph herr =>
      obtain rfl := hsent.resolve_right fun hfail => hfail.2 herr
      refine ⟨fun rest hrest => (by cases hrest), fun _ entry hent => ?_, h.accepted_append hquiet⟩
      rcases OrderedMap.mem_insert.mp hent with rfl | ⟨hent, -⟩
      · rw [List.append_cons]
        exact since_concat.mpr (.inl rfl)
      · exact sentNow_append (h.serving (.inl hph) entry hent) (by simp)
    | leaving hph | draining hph =>
      refine ⟨fun rest hrest => (by cases hrest), ?_, h.accepted_append hquiet⟩
      rintro (hph | ⟨frame, hph⟩) <;> cases hph
  | @fails finished rest failure phase error health hresults hjoin hout hcont =>
    refine h.of_phase [.failed finished.number failure] rfl rfl ?_ (by simp)
    cases hcont with
    | serving hph herr => exact .inl ⟨hph.symm, by simp⟩
    | leaving | draining => exact .inr ⟨by simp [InStream], by simp⟩
  | @settles result hph =>
    obtain ⟨phase, failures, dropped, hidle, hdrop, heq⟩ := settle_eq worker (s := s) result
    rw [heq]
    refine h.of_phase (.served result :: dropped)
      rfl rfl (.inr (by cases hidle <;> simp [InStream])) ?_
    rcases hdrop with rfl | ⟨cause, healthy, rfl⟩ <;> simp
  | @finishes handler outcome hhdlr hsent =>
    refine h.of_phase [] ?_ ?_ (.inl ⟨?_, by simp⟩) (by simp) <;> rw [sendOutcome] <;> split_ifs <;>
      simp [updateHandler]
  | @panics handler hhdlr hsent =>
    exact h.of_phase [.panicked handler.number] rfl rfl (.inl ⟨rfl, by simp⟩) (by simp)

/-! ### Numbers -/

/-- The note says what became of a handler. -/
def Concludes (number : ℕ) : RunNote → Prop
  | .recorded other _ => other = number
  | .failed other _ => other = number
  | .panicked other => other = number
  | _ => False

/-- The outcome of a handler was recorded, or there is none. -/
def Concluded (notes : List RunNote) (number : ℕ) : Prop := ∃ note ∈ notes, Concludes number note

/-- A number stands for one handler and its task. -/
structure Numbered (s : WorkerRun) : Prop where
  spawned : ∀ number task, .accepted number task ∈ s.notes → number < s.spawned
  accepted : ∀ number task task', .accepted number task ∈ s.notes →
    .accepted number task' ∈ s.notes → task = task'
  concluded : ∀ number, Concluded s.notes number → number < s.spawned
  handlers : ∀ handler ∈ s.handlers, .accepted handler.number handler.task ∈ s.notes ∧
    handler.session ≤ s.session
  distinct : (s.handlers.map Handler.number).Nodup
  unsent : ∀ handler ∈ s.handlers, handler.sent = false →
    ¬ Concluded s.notes handler.number ∧ ∀ finished ∈ s.results, finished.number ≠ handler.number
  results : ∀ finished ∈ s.results, (∃ task, .accepted finished.number task ∈ s.notes ∧
      finished.key = task.key) ∧
    ¬ Concluded s.notes finished.number
  once : (s.results.map DispatchFinished.number).Nodup


@[simp]
theorem concluded_append :
    Concluded (notes ++ more) number ↔ Concluded notes number ∨ Concluded more number := by
  simp only [Concluded, List.mem_append, or_and_right, exists_or]

@[simp]
theorem concluded_cons {note : RunNote} :
    Concluded (note :: notes) number ↔ Concludes number note ∨ Concluded notes number := by
  simp [Concluded]

@[simp]
theorem not_concluded_nil : ¬ Concluded [] number := by
  simp [Concluded]

theorem numbered_start : Numbered start := by
  constructor <;> simp [start]

/-- A handler that a cancelled one was. -/
theorem exists_handler_of_cancel {numbers : List ℕ} (h : handler ∈ (s.cancel numbers).handlers) :
    ∃ before ∈ s.handlers, before.number = handler.number ∧ before.session = handler.session ∧
      before.task = handler.task ∧
      before.sent = handler.sent := by
  obtain ⟨before, hbef, rfl⟩ := List.mem_map.mp h
  refine ⟨before, hbef, ?_⟩
  split_ifs <;> simp

theorem numbers_cancel (numbers : List ℕ) :
    ((s.cancel numbers).handlers.map Handler.number).Sublist (s.handlers.map Handler.number) := by
  have hmap : (s.cancel numbers).handlers.map Handler.number = s.handlers.map Handler.number := by
    rw [cancel, List.map_map]
    refine List.map_congr_left fun handler _ => ?_
    simp only [Function.comp_apply]
    split_ifs <;> rfl
  rw [hmap]

theorem Numbered.eq_of_number_eq (h : s.Numbered) {handler' : Handler} (hmem : handler ∈ s.handlers)
    (hmem' : handler' ∈ s.handlers) (hnum : handler.number = handler'.number) :
    handler = handler' :=
  List.inj_on_of_nodup_map h.distinct hmem hmem' hnum

/-- Nothing is accepted, concluded or handed over, and handlers are as they were or gone. -/
theorem Numbered.of_quiet (h : s.Numbered) {quiet : List RunNote}
    (hnotes : s'.notes = s.notes ++ quiet)
    (hquiet : ∀ number, (∀ task, .accepted number task ∉ quiet) ∧ ¬ Concluded quiet number)
    (hspawned : s'.spawned = s.spawned) (hsess : s.session ≤ s'.session)
    (hhandlers : ∀ handler ∈ s'.handlers, ∃ before ∈ s.handlers, before.number = handler.number ∧
        before.session = handler.session ∧ before.task = handler.task ∧
      (handler.sent = false → before.sent = false))
    (hdist : (s'.handlers.map Handler.number).Sublist (s.handlers.map Handler.number))
    (hresults : s'.results.Sublist s.results) : s'.Numbered := by
  have haccepted (number : ℕ) (task : ActivityTask) : .accepted number task ∈ s'.notes ↔ .accepted number task ∈ s.notes := by
    simp [hnotes, (hquiet number).1 task]
  have hconcl (number : ℕ) : Concluded s'.notes number ↔ Concluded s.notes number := by
    simp [hnotes, (hquiet number).2]
  constructor
  · simpa only [haccepted, hspawned] using h.spawned
  · simpa only [haccepted] using h.accepted
  · simpa only [hconcl, hspawned] using h.concluded
  · intro handler hhdlr
    obtain ⟨before, hbef, hnum, hsessions, htask, -⟩ := hhandlers handler hhdlr
    rw [haccepted, ← hnum, ← htask, ← hsessions]
    exact (h.handlers before hbef).imp_right fun hle => hle.trans hsess
  · exact h.distinct.sublist hdist
  · intro handler hhdlr hsent
    obtain ⟨before, hbef, hnum, -, -, hsame⟩ := hhandlers handler hhdlr
    obtain ⟨hopen, hres⟩ := h.unsent before hbef (hsame hsent)
    rw [hconcl, ← hnum]
    exact ⟨hopen, fun finished hfin => hres finished (hresults.subset hfin)⟩
  · simpa only [haccepted, hconcl] using fun finished hfin =>
      h.results finished (hresults.subset hfin)
  · exact h.once.sublist (hresults.map _)

/-- An outcome is taken from the channel, and what became of it is noted. -/
theorem Numbered.of_consumed (h : s.Numbered) (hresults : s.results = finished :: rest)
    (hnotes : s'.notes = s.notes ++ more) (haccepted : ∀ number task, .accepted number task ∉ more)
    (hconcl : ∀ number, Concluded more number ↔ finished.number = number)
    (hspawned : s'.spawned = s.spawned) (hsess : s.session ≤ s'.session)
    (hhandlers : s'.handlers = s.handlers) (hrest : s'.results = rest) : s'.Numbered := by
  obtain ⟨⟨task, htask, -⟩, hopen⟩ := h.results finished (hresults ▸ List.mem_cons_self)
  have hlt := h.spawned _ _ htask
  obtain ⟨spawned, accepted, concluded, handlers, distinct, unsent, results, once⟩ := h
  rw [hresults, List.map_cons, List.nodup_cons] at once
  have hother : ∀ other ∈ rest, other.number ≠ finished.number := fun other hmem heq =>
    once.1 (heq ▸ List.mem_map_of_mem hmem)
  rw [hresults] at results unsent
  constructor
  all_goals simp only [hnotes, hspawned, hhandlers, hrest, concluded_append, hconcl,
      List.mem_append, haccepted, or_false]
  case distinct => exact distinct
  case once => exact once.2
  all_goals grind

theorem Numbered.markSent (h : s.Numbered) (number : ℕ) :
    (s.updateHandler number fun handler => { handler with sent := true }).Numbered := by
  refine h.of_quiet (List.append_nil _).symm (by simp) rfl le_rfl (fun handler hhdlr =>
      ?_) ?_ (.refl _)
  · obtain ⟨before, hbef, rfl⟩ := List.mem_map.mp hhdlr
    refine ⟨before, hbef, ?_⟩
    split_ifs <;> simp
  · have hmap : ((s.updateHandler number fun handler => { handler with sent := true }).handlers.map Handler.number) =
        s.handlers.map Handler.number := by
      rw [updateHandler, List.map_map]
      refine List.map_congr_left fun handler _ => ?_
      simp only [Function.comp_apply]
      split_ifs <;> rfl
    rw [hmap]

/-- The outcome of a handler goes into the channel. -/
theorem Numbered.heard
    (h : (s.updateHandler handler.number fun handler => { handler with sent := true }).Numbered)
    (hopen : ¬ Concluded s.notes handler.number ∧ ∀ finished ∈ s.results,
        finished.number ≠ handler.number)
    (haccepted : .accepted handler.number handler.task ∈ s.notes)
    (outcome : Except WorkerError DispatchOutcome) :
    Numbered { s.updateHandler handler.number fun handler => { handler with sent := true } with
      results := s.results ++ [⟨handler.number, handler.task.key, handler.task.runId, outcome⟩]
      } := by
  obtain ⟨spawned, accepted, concluded, handlers, distinct, unsent, results, once⟩ := h
  refine ⟨spawned, accepted, concluded, handlers, distinct, fun other hother huns =>
      ?_, fun finished hfin => ?_, ?_⟩
  · refine ⟨(unsent other hother huns).1, fun finished hfin => ?_⟩
    rcases List.mem_append.mp hfin with hfin | hfin
    · exact (unsent other hother huns).2 finished hfin
    · obtain rfl := List.mem_singleton.mp hfin
      -- The handler with this number has sent its outcome.
      intro heq
      obtain ⟨before, -, rfl⟩ := List.mem_map.mp hother
      split_ifs at huns heq with hnum
      exact hnum heq.symm
  · rcases List.mem_append.mp hfin with hfin | hfin
    · exact results finished hfin
    · obtain rfl := List.mem_singleton.mp hfin
      exact ⟨⟨_, haccepted, rfl⟩, hopen.1⟩
  · rw [List.map_append, List.nodup_append]
    refine ⟨once, List.nodup_singleton _, fun number hnum other hother => ?_⟩
    obtain ⟨finished, hfin, rfl⟩ := List.mem_map.mp hnum
    obtain rfl := List.mem_singleton.mp hother
    exact hopen.2 finished hfin

theorem Numbered.moves (h : s.Numbered) (hmoves : Moves worker s s') : s'.Numbered := by
  have hsame (handler : Handler) (hhdlr : handler ∈ s.handlers) : ∃ before ∈ s.handlers,
    before.number = handler.number ∧
      before.session = handler.session ∧ before.task = handler.task ∧ (handler.sent = false → before.sent = false) :=
    ⟨handler, hhdlr, rfl, rfl, rfl, id⟩
  have hcanc (numbers : List ℕ) (handler : Handler)
    (hhdlr : handler ∈ (s.cancel numbers).handlers) :
      ∃ before ∈ s.handlers, before.number = handler.number ∧ before.session = handler.session ∧
        before.task = handler.task ∧
        (handler.sent = false → before.sent = false) := by
    obtain ⟨before, hbef, hnum, hsess, htask, hsent⟩ := exists_handler_of_cancel hhdlr
    exact ⟨before, hbef, hnum, hsess, htask, hsent.trans⟩
  cases hmoves with
  | interrupts numbers health hstr =>
    exact h.of_quiet rfl (by simp [Concludes]) rfl le_rfl (hcanc numbers)
      (numbers_cancel numbers) (.refl _)
  | cancels numbers hph =>
    exact h.of_quiet (List.append_nil _).symm (by simp) rfl le_rfl (hcanc numbers)
      (numbers_cancel numbers) (.refl _)
  | stops | resends | acknowledges =>
    exact h.of_quiet rfl (by simp [Concludes]) rfl le_rfl hsame (.refl _) (.refl _)
  | establishes hph =>
    exact h.of_quiet rfl (by simp [Concludes]) rfl (Nat.le_succ _) hsame (.refl _)
      (List.nil_sublist _)
  | @refuses attempt error hph =>
    obtain ⟨phase, -, heq⟩ := refuse_eq worker (s := s) attempt error
    rw [heq]
    exact h.of_quiet rfl (by simp [Concludes]) rfl le_rfl hsame (.refl _) (.refl _)
  | @settles result hph =>
    obtain ⟨phase, failures, dropped, -, hdrop, heq⟩ := settle_eq worker (s := s) result
    rw [heq]
    refine h.of_quiet rfl ?_ rfl le_rfl hsame (.refl _) (.refl _)
    rcases hdrop with rfl | ⟨cause, healthy, rfl⟩ <;> simp [Concludes]
  | @accepts task hph hpermit =>
    have hfresh : ∀ handler ∈ s.handlers, handler.number ≠ s.spawned := fun handler hhdlr =>
      (h.spawned _ _ (h.handlers handler hhdlr).1).ne
    have hopen : ¬ Concluded s.notes s.spawned := fun hconcl => (h.concluded _ hconcl).false
    have hunheard : ∀ finished ∈ s.results, finished.number ≠ s.spawned := fun finished hfin =>
      have ⟨⟨task, htask, _⟩, _⟩ := h.results finished hfin
      (h.spawned _ _ htask).ne
    obtain ⟨spawned, accepted, concluded, handlers, distinct, unsent, results, once⟩ := h
    constructor
    all_goals simp only [spawnActivity, note, goTo, concluded_append, concluded_cons,
        not_concluded_nil, Concludes, or_false]
    case distinct => simpa [List.nodup_append] using ⟨distinct, hfresh⟩
    all_goals grind
  | @records finished rest outcome phase error health sent hresults hjoin hout hcont hsent =>
    have hquiet : (∀ number task, .accepted number task ∉ sent) ∧ ∀ number, ¬ Concluded sent number := by
      rcases hsent with rfl | ⟨rfl, -⟩ <;> simp [Concludes]
    exact h.of_consumed hresults rfl (by simp [hquiet.1])
      (by simp [hquiet.2, Concludes]) rfl le_rfl rfl rfl
  | @fails finished rest failure phase error health hresults hjoin hout hcont =>
    exact h.of_consumed hresults rfl (by simp) (by simp [Concludes]) rfl le_rfl rfl rfl
  | @finishes handler outcome hhdlr hsent =>
    obtain ⟨-, heq⟩ | ⟨-, heq⟩ := sendOutcome_cases (s := s) handler outcome
    · rw [heq]
      exact (h.markSent handler.number).heard (h.unsent handler hhdlr hsent) (h.handlers handler hhdlr).1 outcome
    · exact heq ▸ h.markSent handler.number
  | @releases handler hhdlr hsent =>
    refine h.of_quiet (List.append_nil _).symm (by simp) rfl le_rfl (fun other hother =>
        hsame other (List.mem_of_mem_filter hother))
      (List.filter_sublist.map _) (.refl _)
  | @panics handler hhdlr hsent =>
    obtain ⟨hopen, hunheard⟩ := h.unsent handler hhdlr hsent
    obtain ⟨spawned, accepted, concluded, handlers, distinct, unsent, results, once⟩ := h
    constructor
    all_goals simp only [removeHandler, note, concluded_append, concluded_cons, not_concluded_nil, Concludes, or_false,
      List.mem_append, List.mem_filter, List.mem_singleton, reduceCtorEq]
    case distinct => exact distinct.sublist (List.filter_sublist.map _)
    all_goals grind
  | _ => exact h.of_quiet (List.append_nil _).symm (by simp) rfl le_rfl hsame (.refl _) (.refl _)

/-! ### Tasks in hand -/

/-- The task of the handler and another one of its key were in hand at the same time. -/
def Crossed (notes : List RunNote) (number : ℕ) : Prop :=
  ∃ before other task task', before <+: notes ∧ .accepted number task ∈ before ∧
    .accepted other task' ∈ before ∧
    other ≠ number ∧ task.key = task'.key ∧ ¬ Concluded before number ∧ ¬ Concluded before other

theorem Crossed.mono {notes' : List RunNote} (h : Crossed notes number)
    (hnotes : notes <+: notes') : Crossed notes' number := by
  obtain ⟨before, other, task, task', hbef, hrest⟩ := h
  exact ⟨before, other, task, task', hbef.trans hnotes, hrest⟩

/-- The loop will come to the outcome of the handler: its key is in flight, and it runs or its
outcome is in the channel. -/
def InHand (s : WorkerRun) (number : ℕ) (task : ActivityTask) : Prop :=
  s.isServing ∧ (∃ joined, (task.key, joined) ∈ s.inFlight) ∧
    ((∃ handler ∈ s.handlers, handler.number = number ∧ handler.session = s.session ∧ handler.sent = false) ∨
      ∃ finished ∈ s.results, finished.number = number)

/-- A task that was taken is in hand until its outcome is there, unless it was crossed. -/
def Accounted (s : WorkerRun) : Prop :=
  ∀ number task, .accepted number task ∈ s.notes → ¬ Concluded s.notes number →
    Crossed s.notes number ∨ s.InHand number task

theorem accounted_start : Accounted start := by
  intro number task haccepted
  simp [start] at haccepted

/-- What is in hand stays in hand, unless it is concluded or crossed. -/
theorem Accounted.of_keeps (h : s.Accounted) (hnotes : s'.notes = s.notes ++ more)
    (hmore : ∀ number task, .accepted number task ∉ more)
    (hkeeps : ∀ number task, .accepted number task ∈ s.notes → ¬ Concluded s'.notes number →
        s.InHand number task → Crossed s'.notes number ∨ s'.InHand number task) : s'.Accounted := by
  intro number task haccepted hopen
  have haccepted' : .accepted number task ∈ s.notes := by
    simpa [hnotes, hmore number task] using haccepted
  have hopen' : ¬ Concluded s.notes number := fun hconcl => hopen (by simp [hnotes, hconcl])
  rcases h number task haccepted' hopen' with hcross | hhand
  · exact .inl (hcross.mono (hnotes ▸ List.prefix_append _ _))
  · exact hkeeps number task haccepted' hopen hhand

/-- Nothing was in hand. -/
theorem Accounted.of_not_serving (h : s.Accounted) (hserving : s.isServing = false)
    (hnotes : s'.notes = s.notes ++ more) (hmore : ∀ number task, .accepted number task ∉ more) :
    s'.Accounted :=
  h.of_keeps hnotes hmore fun _ _ _ _ hhand => absurd hhand.1 (by simp [hserving])

/-- All that is in hand is in hand still. -/
theorem Accounted.of_same (h : s.Accounted) (hserving : s.isServing → s'.isServing)
    (hnotes : s'.notes = s.notes ++ more) (hmore : ∀ number task, .accepted number task ∉ more)
    (hflt : s'.inFlight = s.inFlight) (hsess : s'.session = s.session)
    (hresults : s'.results = s.results)
    (hhandlers : ∀ handler ∈ s.handlers, ∃ after ∈ s'.handlers, after.number = handler.number ∧
        after.session = handler.session ∧ after.sent = handler.sent) : s'.Accounted := by
  refine h.of_keeps hnotes hmore fun number task _ _ hhand =>
    .inr ⟨hserving hhand.1, hflt ▸ hhand.2.1, ?_⟩
  rcases hhand.2.2 with ⟨handler, hhdlr, rfl, hsame, hsent⟩ | hheard
  · obtain ⟨after, hafter, hnum, hsess', hsent'⟩ := hhandlers handler hhdlr
    exact .inl ⟨after, hafter, hnum, by rw [hsess', hsame, hsess], hsent'.trans hsent⟩
  · exact .inr (hresults ▸ hheard)

theorem exists_cancel_of_handler (numbers : List ℕ) (h : handler ∈ s.handlers) :
    ∃ after ∈ (s.cancel numbers).handlers, after.number = handler.number ∧
      after.session = handler.session ∧
      after.sent = handler.sent := by
  refine ⟨_, List.mem_map_of_mem h, ?_⟩
  split_ifs <;> simp

/-- An outcome is taken from the channel: what else was in hand is crossed or in hand still. -/
theorem Accounted.of_consumed (h : s.Accounted) (hs : s.Numbered)
    (hresults : s.results = finished :: rest) (hnotes : s'.notes = s.notes ++ more)
    (hmore : ∀ number task, .accepted number task ∉ more) (hconcl : Concluded more finished.number)
    (hserving : s'.isServing)
    (hflt : s'.inFlight = s.inFlight.filter fun entry => entry.1 ≠ finished.key)
    (hsess : s'.session = s.session) (hrest : s'.results = rest)
    (hhandlers : s'.handlers = s.handlers) : s'.Accounted := by
  refine h.of_keeps hnotes hmore fun number task haccepted hopen hhand => ?_
  obtain ⟨⟨task', haccepted', hkey⟩, hopen'⟩ := hs.results finished (hresults ▸ List.mem_cons_self)
  have hne : finished.number ≠ number := by
    rintro rfl
    exact hopen (by simp [hnotes, hconcl])
  have hopen : ¬ Concluded s.notes number := fun hconcl => hopen (by simp [hnotes, hconcl])
  obtain ⟨-, ⟨joined, hjoin⟩, hwhere⟩ := hhand
  by_cases hsame : task.key = finished.key
  · exact .inl ⟨s.notes, finished.number, task, task', hnotes ▸ List.prefix_append _ _, haccepted, haccepted', hne,
      hsame.trans hkey, hopen, hopen'⟩
  · refine .inr ⟨hserving, ⟨joined, ?_⟩, ?_⟩
    · rw [hflt]
      exact List.mem_filter.mpr ⟨hjoin, by simpa using hsame⟩
    · rw [hhandlers, hsess, hrest]
      refine hwhere.imp_right ?_
      rintro ⟨other, hother, rfl⟩
      rw [hresults] at hother
      exact ⟨other, (List.mem_cons.mp hother).resolve_left fun heq => hne (heq ▸ rfl), rfl⟩

theorem isServing_of_continues {error : Option WorkerError} {phase : RunPhase}
    (h : Continues s error phase) : ∀ s' : WorkerRun, s'.phase = phase → s'.isServing := by
  intro s' hph
  cases h <;> simp [isServing, hph]

theorem Accounted.moves (h : s.Accounted) (hs : s.Numbered) (hmoves : Moves worker s s') :
    s'.Accounted := by
  have hsame (handler : Handler) (hhdlr : handler ∈ s.handlers) : ∃ after ∈ s.handlers,
    after.number = handler.number ∧
      after.session = handler.session ∧ after.sent = handler.sent := ⟨handler, hhdlr, rfl, rfl, rfl⟩
  cases hmoves with
  | ticks | errs => exact h.of_same id (List.append_nil _).symm (by simp) rfl rfl rfl hsame
  | stops hstops => exact h.of_not_serving (by cases hstops <;> simp [isServing, *]) rfl (by simp)
  | interrupts numbers health hstr =>
    exact h.of_same (fun _ => rfl) rfl (by simp) rfl rfl rfl fun handler hhdlr =>
      exists_cancel_of_handler numbers hhdlr
  | establishes hph | resends hph => exact h.of_not_serving (by simp [isServing, hph]) rfl (by simp)
  | @refuses attempt error hph =>
    obtain ⟨phase, -, heq⟩ := refuse_eq worker (s := s) attempt error
    exact heq ▸ h.of_not_serving (by simp [isServing, hph]) rfl (by simp)
  | retries hph | recovers hph | breaks _ hph | serves hph =>
    exact h.of_not_serving (by simp [isServing, hph]) (List.append_nil _).symm (by simp)
  | leaves | waits =>
    exact h.of_same (fun _ => rfl) (List.append_nil _).symm (by simp) rfl rfl rfl hsame
  | cancels numbers hph =>
    exact h.of_same id (List.append_nil _).symm (by simp) rfl rfl rfl fun handler hhdlr =>
      exists_cancel_of_handler numbers hhdlr
  | acknowledges workflowId activityId hph => exact h.of_same id rfl (by simp) rfl rfl rfl hsame
  | @accepts task hph hpermit =>
    intro number task' haccepted hopen
    have hprefix : s.notes <+: (s.spawnActivity task).notes := List.prefix_append _ _
    rcases List.mem_append.mp haccepted with haccepted | haccepted
    · have hopen' : ¬ Concluded s.notes number := fun hconcl => hopen (concluded_append.mpr (.inl hconcl))
      rcases h number task' haccepted hopen' with hcross | ⟨-, ⟨joined, hjoin⟩, hwhere⟩
      · exact .inl (hcross.mono hprefix)
      · refine .inr ⟨rfl, ?_, hwhere.imp_left ?_⟩
        · by_cases hkey : task'.key = task.key
          · exact ⟨s.spawned, hkey ▸ List.mem_append_right _ (List.mem_singleton_self _)⟩
          · exact ⟨joined, List.mem_append_left _ (List.mem_filter.mpr ⟨hjoin, by simpa using hkey⟩)⟩
        · rintro ⟨handler, hhdlr, hhas⟩
          exact ⟨handler, List.mem_append_left _ hhdlr, hhas⟩
    · obtain ⟨rfl, rfl⟩ := RunNote.accepted.inj (List.mem_singleton.mp haccepted)
      refine .inr ⟨rfl, ⟨s.spawned, List.mem_append_right _ (List.mem_singleton_self _)⟩, .inl ?_⟩
      exact ⟨_, List.mem_append_right _ (List.mem_singleton_self _), rfl, rfl, rfl⟩
  | @records finished rest outcome phase error health sent hresults hjoin hout hcont hsent =>
    have hquiet : ∀ number task, .accepted number task ∉ sent := by
      rcases hsent with rfl | ⟨rfl, -⟩ <;> simp
    exact h.of_consumed hs hresults rfl (by simp [hquiet]) (by simp [Concludes])
      (isServing_of_continues hcont _ rfl) rfl rfl
      rfl rfl
  | @fails finished rest failure phase error health hresults hjoin hout hcont =>
    exact h.of_consumed hs hresults rfl (by simp) (by simp [Concludes])
      (isServing_of_continues hcont _ rfl) rfl rfl rfl rfl
  | drains hph hdone hres =>
    refine h.of_keeps (List.append_nil _).symm (by simp) fun number task _ _ hhand => ?_
    obtain ⟨-, ⟨joined, hjoin⟩, hwhere⟩ := hhand
    rcases hdone with hnone | ⟨hnone, hquiet⟩
    · simp [hnone] at hjoin
    · rcases hwhere with ⟨handler, hhdlr, -, hsess, hsent⟩ | ⟨finished, hfin, -⟩
      · simpa [hsent, hsess] using List.all_eq_true.mp hquiet handler hhdlr
      · simp [hnone] at hfin
  | @settles result hph =>
    obtain ⟨phase, failures, dropped, -, hdrop, heq⟩ := settle_eq worker (s := s) result
    rw [heq]
    refine h.of_not_serving (by simp [isServing, hph]) rfl ?_
    rcases hdrop with rfl | ⟨cause, healthy, rfl⟩ <;> simp
  | @finishes handler outcome hhdlr hsent =>
    have hother (other : Handler) (hother : other ∈ s.handlers)
      (hne : other.number ≠ handler.number) :
        other ∈ (s.updateHandler handler.number fun handler => { handler with sent := true }).handlers :=
      List.mem_map.mpr ⟨other, hother, if_neg hne⟩
    obtain ⟨⟨hserving, hsess⟩, heq⟩ | ⟨hcl, heq⟩ :=
      sendOutcome_cases (s := s) handler outcome <;> rw [heq]
    · refine h.of_keeps (List.append_nil _).symm (by simp) fun number task _ _ hhand => .inr ⟨hhand.1, hhand.2.1, ?_⟩
      rcases hhand.2.2 with ⟨other, hmem, rfl, hrest⟩ | ⟨finished, hfin, rfl⟩
      · by_cases hne : other.number = handler.number
        · exact .inr ⟨_, List.mem_append_right _ (List.mem_singleton_self _), hne.symm⟩
        · exact .inl ⟨other, hother other hmem hne, rfl, hrest⟩
      · exact .inr ⟨finished, List.mem_append_left _ hfin, rfl⟩
    · refine h.of_keeps (List.append_nil _).symm (by simp) fun number task _ _ hhand => .inr ⟨hhand.1, hhand.2.1, ?_⟩
      refine hhand.2.2.imp_left ?_
      rintro ⟨other, hmem, rfl, hsess, huns⟩
      have hne : other.number ≠ handler.number := by
        intro heq
        obtain rfl := hs.eq_of_number_eq hmem hhdlr heq
        exact hcl ⟨hhand.1, hsess⟩
      exact ⟨other, hother other hmem hne, rfl, hsess, huns⟩
  | @releases handler hhdlr hsent =>
    refine h.of_keeps (List.append_nil _).symm (by simp) fun number task _ _ hhand =>
      .inr ⟨hhand.1, hhand.2.1, ?_⟩
    refine hhand.2.2.imp_left ?_
    rintro ⟨other, hmem, rfl, hsess, huns⟩
    have hne : other.number ≠ handler.number := by
      intro heq
      obtain rfl := hs.eq_of_number_eq hmem hhdlr heq
      simp [hsent] at huns
    exact ⟨other, List.mem_filter.mpr ⟨hmem, by simpa using hne⟩, rfl, hsess, huns⟩
  | @panics handler hhdlr hsent =>
    refine h.of_keeps rfl (by simp) fun number task _ hopen hhand => .inr ⟨hhand.1, hhand.2.1, ?_⟩
    have hne : number ≠ handler.number := by
      rintro rfl
      exact hopen (by simp [note, Concludes])
    refine hhand.2.2.imp_left ?_
    rintro ⟨other, hmem, rfl, hsess, huns⟩
    exact ⟨other, List.mem_filter.mpr ⟨hmem, by simpa using hne⟩, rfl, hsess, huns⟩

/-! ### Joined handlers -/

/-- Every handler is that of the session that is served, and will be joined. -/
structure Joined (s : WorkerRun) : Prop where
  serving : ∀ handler ∈ s.handlers, s.isServing ∧ handler.session = s.session
  flight : ∀ handler ∈ s.handlers, (handler.task.key, handler.number) ∈ s.inFlight
  heard : ∀ handler ∈ s.handlers, handler.sent → ∃ finished ∈ s.results,
    finished.number = handler.number
  unique : (s.inFlight.map Prod.fst).Nodup

theorem joined_start : Joined start := by
  constructor <;> simp [start]

/-- Handlers are as they were or gone. -/
theorem Joined.of_same (h : s.Joined) (hserving : s.isServing → s'.isServing)
    (hsess : s'.session = s.session) (hflt : s'.inFlight = s.inFlight)
    (hresults : s'.results = s.results)
    (hhandlers : ∀ handler ∈ s'.handlers, ∃ before ∈ s.handlers, before.number = handler.number ∧
        before.session = handler.session ∧ before.task = handler.task ∧
      before.sent = handler.sent) : s'.Joined := by
  refine ⟨fun handler hhdlr => ?_, fun handler hhdlr => ?_, fun handler hhdlr hsent =>
      ?_, hflt ▸ h.unique⟩
  all_goals obtain ⟨before, hbef, hnum, hsame, htask, hsent'⟩ := hhandlers handler hhdlr
  · obtain ⟨hbusy, hstays⟩ := h.serving before hbef
    exact ⟨hserving hbusy, by rw [← hsame, hstays, hsess]⟩
  · rw [hflt, ← htask, ← hnum]
    exact h.flight before hbef
  · rw [hresults, ← hnum]
    exact h.heard before hbef (hsent'.trans hsent)

/-- No handler runs, and none is spawned. -/
theorem Joined.of_none (hnone : s'.handlers = []) (hunique : (s'.inFlight.map Prod.fst).Nodup) :
    s'.Joined := by
  constructor <;> simp [hnone, hunique]

theorem Joined.handlers_of_not_serving (h : s.Joined) (hserving : s.isServing = false) :
    s.handlers = [] := by
  refine List.eq_nil_iff_forall_not_mem.mpr fun handler hhdlr => ?_
  simpa [hserving] using (h.serving handler hhdlr).1

theorem Joined.inFlightNumber_eq (h : s.Joined) (hmem : (key, number) ∈ s.inFlight) :
    s.inFlightNumber key = some number := by
  obtain ⟨entry, hent⟩ : ∃ entry, s.inFlight.find? (fun entry => entry.1 = key) = some entry :=
    Option.isSome_iff_exists.mp (List.find?_isSome.mpr ⟨_, hmem, by simp⟩)
  have hkey : entry.1 = key := by simpa using List.find?_some hent
  obtain rfl := List.inj_on_of_nodup_map h.unique (List.mem_of_find?_eq_some hent) hmem hkey
  simp [inFlightNumber, hent]

/-- An outcome is taken from the channel when no handler of its key is left. -/
theorem Joined.gone (h : s.Joined) (hjoin : s.isJoined key) :
    ∀ handler ∈ s.handlers, handler.task.key ≠ key := by
  rintro handler hhdlr rfl
  rw [isJoined, h.inFlightNumber_eq (h.flight handler hhdlr), Option.all_some, WorkerRun.handler,
    Option.isNone_iff_eq_none,
    List.find?_eq_none] at hjoin
  simpa using hjoin handler hhdlr

theorem Joined.of_consumed (h : s.Joined) (hs : s.Numbered)
    (hresults : s.results = finished :: rest) (hjoin : s.isJoined finished.key)
    (hserving : s'.isServing)
    (hflt : s'.inFlight = s.inFlight.filter fun entry => entry.1 ≠ finished.key)
    (hsess : s'.session = s.session) (hrest : s'.results = rest)
    (hhandlers : s'.handlers = s.handlers) : s'.Joined := by
  have hgone := h.gone hjoin
  refine ⟨?_, ?_, ?_, ?_⟩
  · rw [hhandlers, hsess]
    exact fun handler hhdlr => ⟨hserving, (h.serving handler hhdlr).2⟩
  · rw [hhandlers, hflt]
    exact fun handler hhdlr => List.mem_filter.mpr
      ⟨h.flight handler hhdlr, by simpa using hgone handler hhdlr⟩
  · rw [hhandlers, hrest]
    intro handler hhdlr hsent
    obtain ⟨other, hother, hnum⟩ := h.heard handler hhdlr hsent
    rw [hresults] at hother
    rcases List.mem_cons.mp hother with rfl | hother
    · -- The outcome is that of the handler itself, so they are of one key.
      obtain ⟨⟨task, htask, hkey⟩, -⟩ := hs.results other (hresults ▸ List.mem_cons_self)
      have hsame := hs.accepted _ _ _ (hs.handlers handler hhdlr).1 (hnum ▸ htask)
      exact absurd (hsame ▸ hkey.symm) (hgone handler hhdlr)
    · exact ⟨other, hother, hnum⟩
  · rw [hflt]
    exact h.unique.sublist (List.filter_sublist.map _)

/-- While no task crosses another, handlers stay joined. -/
theorem Joined.moves (h : s.Joined) (hs : s.Numbered) (hcross : ∀ number, ¬ Crossed s'.notes number)
    (hmoves : Moves worker s s') : s'.Joined := by
  have hsame (handler : Handler) (hhdlr : handler ∈ s.handlers) : ∃ before ∈ s.handlers,
    before.number = handler.number ∧
      before.session = handler.session ∧ before.task = handler.task ∧ before.sent = handler.sent :=
    ⟨handler, hhdlr, rfl, rfl, rfl, rfl⟩
  have hnone (hserving : s.isServing = false) : s.handlers = [] :=
    h.handlers_of_not_serving hserving
  cases hmoves with
  | ticks | acknowledges | errs => exact h.of_same id rfl rfl rfl hsame
  | stops hstops => exact .of_none (hnone (by cases hstops <;> simp [isServing, *])) h.unique
  | interrupts numbers health hstr =>
    exact h.of_same (fun _ => rfl) rfl rfl rfl fun _ => exists_handler_of_cancel
  | establishes hph => exact .of_none (hnone (by simp [isServing, hph])) List.nodup_nil
  | @refuses attempt error hph =>
    obtain ⟨phase, -, heq⟩ := refuse_eq worker (s := s) attempt error
    exact heq ▸ .of_none (hnone (by simp [isServing, hph])) h.unique
  | retries hph | recovers hph | resends hph | breaks _ hph | serves hph =>
    exact .of_none (hnone (by simp [isServing, hph])) h.unique
  | leaves | waits => exact h.of_same (fun _ => rfl) rfl rfl rfl hsame
  | cancels numbers hph => exact h.of_same id rfl rfl rfl fun _ => exists_handler_of_cancel
  | @accepts task hph hpermit =>
    -- A handler of the key of the new task would be crossed by it.
    have hother : ∀ handler ∈ s.handlers, handler.task.key ≠ task.key := by
      intro handler hhdlr hkey
      have haccepted := (hs.handlers handler hhdlr).1
      have hopen : ¬ Concluded s.notes handler.number := by
        rcases hsent : handler.sent
        · exact (hs.unsent handler hhdlr hsent).1
        · obtain ⟨finished, hfin, hnum⟩ := h.heard handler hhdlr hsent
          exact hnum ▸ (hs.results finished hfin).2
      have hfresh : ¬ Concluded s.notes s.spawned := fun hconcl => (hs.concluded _ hconcl).false
      refine hcross handler.number ⟨_, s.spawned, handler.task, task, List.prefix_rfl, ?_, ?_, ?_, hkey, ?_, ?_⟩
      · exact List.mem_append_left _ haccepted
      · exact List.mem_append_right _ (List.mem_singleton_self _)
      · exact (hs.spawned _ _ haccepted).ne'
      · simpa [spawnActivity, note, goTo, Concludes] using hopen
      · simpa [spawnActivity, note, goTo, Concludes] using hfresh
    obtain ⟨serving, flight, heard, unique⟩ := h
    constructor
    all_goals simp only [spawnActivity, note, goTo, isServing, List.mem_append, List.mem_singleton,
        List.map_append, List.mem_filter]
    case unique =>
      refine List.nodup_append.mpr ⟨unique.sublist (List.filter_sublist.map _), List.nodup_singleton _, ?_⟩
      rintro key hkey _ hnew rfl
      obtain ⟨entry, hent, rfl⟩ := List.mem_map.mp hkey
      have hne := (List.mem_filter.mp hent).2
      simp at hne hnew
      exact hne hnew
    · rintro handler (hhdlr | rfl)
      · exact ⟨trivial, (serving handler hhdlr).2⟩
      · exact ⟨trivial, rfl⟩
    · rintro handler (hhdlr | rfl)
      · exact .inl ⟨flight handler hhdlr, by simpa using hother handler hhdlr⟩
      · exact .inr rfl
    · rintro handler (hhdlr | rfl) hsent
      · exact heard handler hhdlr hsent
      · cases hsent
  | @records _ _ _ _ _ _ _ hresults hjoin _ hcont | @fails _ _ _ _ _ _ hresults hjoin _ hcont =>
    exact h.of_consumed hs hresults hjoin (isServing_of_continues hcont _ rfl) rfl rfl rfl rfl
  | drains hph hdone hres =>
    refine .of_none (List.eq_nil_iff_forall_not_mem.mpr fun handler hhdlr => ?_) h.unique
    rcases hdone with hleft | ⟨hleft, hquiet⟩
    · simpa [hleft] using h.flight handler hhdlr
    · rcases hsent : handler.sent
      · simpa [hsent, (h.serving handler hhdlr).2] using List.all_eq_true.mp hquiet handler hhdlr
      · simpa [hleft] using h.heard handler hhdlr hsent
  | @settles result hph =>
    obtain ⟨phase, failures, dropped, -, hdrop, heq⟩ := settle_eq worker (s := s) result
    exact heq ▸ .of_none (hnone (by simp [isServing, hph])) h.unique
  | @finishes handler outcome hhdlr hsent =>
    obtain ⟨-, heq⟩ | ⟨hcl, -⟩ := sendOutcome_cases (s := s) handler outcome
    · rw [heq]
      refine ⟨fun after hafter => ?_, fun after hafter => ?_, fun after hafter hsent' => ?_, h.unique⟩
      all_goals obtain ⟨other, hother, rfl⟩ := List.mem_map.mp hafter
      · split_ifs <;> exact h.serving other hother
      · split_ifs <;> exact h.flight other hother
      · split_ifs at hsent' ⊢ with hnum
        · exact ⟨_, List.mem_append_right _ (List.mem_singleton_self _), hnum.symm⟩
        · obtain ⟨finished, hfin, hsame⟩ := h.heard other hother hsent'
          exact ⟨finished, List.mem_append_left _ hfin, hsame⟩
    · exact absurd (h.serving handler hhdlr) hcl
  | releases | panics =>
    exact h.of_same id rfl rfl rfl fun other hother => hsame other (List.mem_of_mem_filter hother)

theorem Moves.notes_prefix (hmoves : Moves worker s s') : s.notes <+: s'.notes := by
  cases hmoves with
  | @refuses attempt error hph =>
    obtain ⟨phase, -, heq⟩ := refuse_eq worker (s := s) attempt error
    exact heq ▸ List.prefix_append _ _
  | @settles result hph =>
    obtain ⟨phase, failures, dropped, -, -, heq⟩ := settle_eq worker (s := s) result
    exact heq ▸ List.prefix_append _ _
  | @finishes handler outcome hhdlr hsent =>
    obtain ⟨-, heq⟩ | ⟨-, heq⟩ :=
      sendOutcome_cases (s := s) handler outcome <;> exact heq ▸ List.prefix_rfl
  | _ => first | exact List.prefix_rfl | exact List.prefix_append _ _

/-- A handler is spawned on a permit only. -/
theorem Moves.handlers_length (hmoves : Moves worker s s') :
    s'.handlers.length ≤ s.handlers.length ∨
    s.permits < worker.config.maxConcurrency ∧ s'.handlers.length = s.handlers.length + 1 := by
  cases hmoves with
  | @refuses attempt error hph =>
    obtain ⟨phase, -, heq⟩ := refuse_eq worker (s := s) attempt error
    exact .inl (heq ▸ le_rfl)
  | @settles result hph =>
    obtain ⟨phase, failures, dropped, -, -, heq⟩ := settle_eq worker (s := s) result
    exact .inl (heq ▸ le_rfl)
  | interrupts | cancels => exact .inl (by simp [cancel])
  | accepts hph hpermit => exact .inr ⟨hpermit, by simp [spawnActivity, note, goTo]⟩
  | @finishes handler outcome hhdlr hsent =>
    obtain ⟨-, heq⟩ | ⟨-, heq⟩ :=
      sendOutcome_cases (s := s) handler outcome <;> exact .inl (by simp [heq, updateHandler])
  | releases | panics => exact .inl (List.length_filter_le _ _)
  | _ => exact .inl le_rfl

theorem Joined.permits_eq (h : s.Joined) : s.permits = s.handlers.length :=
  List.countP_eq_length.mpr fun handler hhdlr => by simpa using (h.serving handler hhdlr).2

/-! ### Every run -/

theorem tracked_of_reached (h : Reached worker s) : s.Tracked :=
  h.invariant (fun htracked _ hstep => htracked.moves (step_moves hstep)) tracked_start

theorem numbered_of_reached (h : Reached worker s) : s.Numbered :=
  h.invariant (fun hs _ hstep => hs.moves (step_moves hstep)) numbered_start

theorem resent_of_reached (h : Reached worker s) : s.Resent :=
  h.invariant_of_reachable (fun hrch hresent _ hstep =>
      hresent.moves (tracked_of_reached hrch) (step_moves hstep)) resent_start

theorem accounted_of_reached (h : Reached worker s) : s.Accounted :=
  h.invariant_of_reachable (fun hrch haccounted _ hstep =>
      haccounted.moves (numbered_of_reached hrch) (step_moves hstep))
    accounted_start

/-- A worker with one permit. -/
def soleWorker : Worker where
  config := ⟨1, ⟨1, 8, 3⟩⟩
  backoff := ⟨1, 8, 3, Nat.zero_lt_one, by decide, by decide⟩
  valid := rfl

/-- The task of an activity of the one workflow. -/
def taskAt (position : ℕ) : ActivityTask := ⟨⟨0⟩, ⟨position⟩, none, "charge", 1, .empty⟩

/-- The outcome of a task is not sent, and is sent again on the next session before the next
task. -/
def resentRun : List RunAction :=
  [.connect none, .serve, .receive (some (.ok (.task (.ok (taskAt 0))))), .acquire,
      .finish 0 (.ok (.completed .empty)),
    .release 0, .consume (some (.transport ⟨.unavailable, "gone"⟩)), .drained, .settle, .tick 1,
      .wake, .connect none,
    .replay none, .serve, .receive (some (.ok (.task (.ok (taskAt 1))))), .acquire]

/-- The report of the first task. -/
def firstReport : PendingActivityReport := pendingReport (taskAt 0).key none (.completed .empty)

/-- **What is tracked**: a report stands in the tracker exactly if it was recorded, and was neither
acknowledged nor replaced since. -/
theorem tracker_exact (h : Reached worker s) (report : PendingActivityReport) :
    report ∈ s.tracker.snapshot ↔ Since Records Settles s.notes report := by
  have htracked := tracked_of_reached h
  rw [← htracked.exact]
  constructor
  · intro hmem
    obtain ⟨entry, hent, rfl⟩ := List.mem_map.mp hmem
    exact htracked.keys entry hent ▸ hent
  · exact fun hmem => List.mem_map_of_mem hmem

theorem tracker_exact_resent :
    ∃ s : WorkerRun, firstReport ∈ s.tracker.snapshot ∧
      Since Records Settles s.notes firstReport := by
  obtain ⟨s, hs⟩ : ∃ s, run (fun s => s.step soleWorker) Always start resentRun = some s := ⟨_, rfl⟩
  have hrch : Reached soleWorker s := reachable_of_run hs
  have hmem : firstReport ∈ s.tracker.snapshot := by
    obtain rfl := Option.some.inj hs
    exact List.mem_singleton_self _
  exact ⟨s, hmem, (tracker_exact hrch firstReport).mp hmem⟩

/-- **Delivery at least once**: no task is taken on a session before every outcome that was
recorded, and neither acknowledged nor replaced since, was sent on this session. -/
theorem resent_before_tasks (h : Reached worker s) {before after : List RunNote} {number : ℕ}
    {task : ActivityTask} (hnotes : s.notes = before ++ .accepted number task :: after)
    {report : PendingActivityReport} (hpending : Since Records Settles before report) :
    Since Sends Establishes before report :=
  (resent_of_reached h).accepted before number task after hnotes report hpending

theorem resent_before_tasks_resent : ∃ before, Since Sends Establishes before firstReport := by
  obtain ⟨s, hs⟩ : ∃ s, run (fun s => s.step soleWorker) Always start resentRun = some s := ⟨_, rfl⟩
  have hrch : Reached soleWorker s := reachable_of_run hs
  have hnotes : s.notes = [.established, .accepted 0 (taskAt 0), .recorded 0 firstReport,
      .served (.error (.transport ⟨.unavailable, "gone"⟩)), .dropped (.failure (.transport ⟨.unavailable, "gone"⟩)) false,
      .established, .sent firstReport] ++ .accepted 1 (taskAt 1) :: [] := by
    rw [← Option.some.inj hs]
    rfl
  refine ⟨_, resent_before_tasks hrch hnotes ⟨[.established, .accepted 0 (taskAt 0)], _, _, rfl,
      ⟨0, rfl⟩, ?_⟩⟩
  simp [Settles]

/-- **No outcome is left behind**: when no session is served, every task that was taken has its
outcome recorded, could not be dispatched or panicked, unless a task of its key was in hand at the
same time. -/
theorem tasks_concluded (h : Reached worker s) (hserving : s.isServing = false) {number : ℕ}
    {task : ActivityTask} (haccepted : .accepted number task ∈ s.notes) :
    Concluded s.notes number ∨ Crossed s.notes number := by
  by_contra hneither
  obtain ⟨hopen, hcross⟩ := not_or.mp hneither
  rcases accounted_of_reached h number task haccepted hopen with hcross' | ⟨hbusy, -⟩
  · exact hcross hcross'
  · simp [hserving] at hbusy

theorem tasks_concluded_resent : ∃ s : WorkerRun, Concluded s.notes 0 ∨ Crossed s.notes 0 := by
  obtain ⟨s, hs⟩ : ∃ s, run (fun s => s.step soleWorker) Always start (resentRun.take 9) = some s :=
    ⟨_, rfl⟩
  have hrch : Reached soleWorker s := reachable_of_run hs
  have hserving : s.isServing = false := by rw [← Option.some.inj hs]; rfl
  have haccepted : .accepted 0 (taskAt 0) ∈ s.notes := by
    rw [← Option.some.inj hs]
    exact List.mem_cons_of_mem _ List.mem_cons_self
  exact ⟨s, tasks_concluded hrch hserving haccepted⟩

/-- The handlers are joined, and no more than there are permits. -/
def Bounded (worker : Worker) (s : WorkerRun) : Prop :=
  (∀ number, ¬ Crossed s.notes number) → s.Joined ∧ s.handlers.length ≤ worker.config.maxConcurrency

theorem Bounded.moves (h : Bounded worker s) (hs : s.Numbered) (hmoves : Moves worker s s') :
    Bounded worker s' := by
  intro hcross
  obtain ⟨hjoin, hlen⟩ := h fun number hbef => hcross number (hbef.mono hmoves.notes_prefix)
  refine ⟨hjoin.moves hs hcross hmoves, ?_⟩
  rcases hmoves.handlers_length with hle | ⟨hpermit, heq⟩
  · exact hle.trans hlen
  · rw [hjoin.permits_eq] at hpermit
    omega

theorem bounded_of_reached (h : Reached worker s) : Bounded worker s :=
  h.invariant_of_reachable (fun hrch hbdd _ hstep =>
      hbdd.moves (numbered_of_reached hrch) (step_moves hstep))
    fun _ => ⟨joined_start, Nat.zero_le _⟩

/-- **Bounded concurrency**: unless a task is taken while one of its key is in hand, no more
handlers run than the worker has permits, those of earlier sessions with them. -/
theorem handlers_bounded (h : Reached worker s) (huncrossed : ∀ number, ¬ Crossed s.notes number) :
    s.handlers.length ≤ worker.config.maxConcurrency :=
  (bounded_of_reached h huncrossed).2

/-- A worker with two permits. -/
def pairWorker : Worker where
  config := ⟨2, ⟨1, 8, 3⟩⟩
  backoff := ⟨1, 8, 3, Nat.zero_lt_one, by decide, by decide⟩
  valid := rfl

/-- On the session after a failed one both permits are taken. -/
theorem handlers_bounded_pair :
    ∃ s : WorkerRun, s.session = 2 ∧ s.handlers.length = 2 ∧
      s.handlers.length ≤ pairWorker.config.maxConcurrency := by
  obtain ⟨s, hs⟩ : ∃ s, run (fun s => s.step pairWorker) Always start
      (resentRun ++ [.receive (some (.ok (.task (.ok (taskAt 2))))), .acquire]) = some s := ⟨_, rfl⟩
  have hrch : Reached pairWorker s := reachable_of_run hs
  have hnotes : s.notes = [.established, .accepted 0 (taskAt 0), .recorded 0 firstReport,
      .served (.error (.transport ⟨.unavailable, "gone"⟩)), .dropped (.failure (.transport ⟨.unavailable, "gone"⟩)) false,
      .established, .sent firstReport, .accepted 1 (taskAt 1), .accepted 2 (taskAt 2)] := by
    rw [← Option.some.inj hs]
    rfl
  have huncrossed : ∀ number, ¬ Crossed s.notes number := by
    rintro number ⟨before, other, task, task', hbef, hmem, hmem', hne, hkey, -⟩
    have haccepted := hbef.subset hmem
    have haccepted' := hbef.subset hmem'
    simp only [hnotes, List.mem_cons, RunNote.accepted.injEq, reduceCtorEq, List.not_mem_nil,
      false_or, or_false]
      at haccepted haccepted'
    -- the tasks have keys of their own
    rcases haccepted with ⟨rfl, rfl⟩ | ⟨rfl, rfl⟩ | ⟨rfl, rfl⟩ <;>
      rcases haccepted' with ⟨rfl, rfl⟩ | ⟨rfl, rfl⟩ | ⟨rfl, rfl⟩ <;> first | exact hne rfl | cases hkey
  refine ⟨s, ?_, ?_, handlers_bounded hrch huncrossed⟩
  · rw [← Option.some.inj hs]
    rfl
  · rw [← Option.some.inj hs]
    rfl

end WorkerRun

end Aion
