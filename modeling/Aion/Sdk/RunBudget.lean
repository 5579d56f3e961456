import Aion.Library.Budget
import Aion.Sdk.RunReports

/-!
# How the run of a worker ends

A drop that no drain announced uses up one of the attempts, and a session that proved healthy gives
them all back (`Budgeted`). The run goes on until the attempts are used up, until as many attempts
in a row to establish a session are refused, until the server denies the worker, or until the caller
shuts it down (`EndsBy`): neither a stream that is closed nor a drain ends it by itself. A drop ends
it exactly when the attempts are used up (`flapping_ends_iff`).
-/

namespace Aion

open Actions Budget

namespace WorkerRun

variable {worker : Worker} {s s' : WorkerRun} {result : Except WorkerError Unit}

/-! ### Drops -/

/-- A session that dropped: why, and whether it had proved healthy. -/
abbrev Drop := DropCause × Bool

/-- The drop that a note speaks of. -/
def dropOf : RunNote → Option Drop
  | .dropped cause healthy => some (cause, healthy)
  | _ => none

/-- The sessions that dropped. -/
def drops (notes : List RunNote) : List Drop := notes.filterMap dropOf

/-- The session had proved healthy. -/
def isHealthy (drop : Drop) : Bool := drop.2

/-- The drop was not announced. -/
def isBudgeted (drop : Drop) : Bool := drop.1 ≠ .drain

/-- The drops that were not announced, with no healthy session after the first of them, use up the
attempts. -/
abbrev Flaps (worker : Worker) (notes : List RunNote) : Prop :=
  Spent isHealthy isBudgeted worker.backoff.attempts (drops notes)

/-- The notes of the run loop itself: those of handlers that panic are left out. -/
def loopNotes (notes : List RunNote) : List RunNote := notes.filter fun
  | .panicked _ => false
  | _ => true

/-- The run has returned. -/
def IsFinished (s : WorkerRun) : Prop := ∃ result, s.phase = .finished result

/-- The run has returned at a drop, with the error of a worker that gives up. -/
def EndedAtDrop (s : WorkerRun) : Prop :=
  ∃ before cause healthy, loopNotes s.notes = before ++ [.dropped cause healthy] ∧ cause ≠ .drain ∧
    s.phase = .finished (.error cause.intoExhaustionError)

/-- `drop_failures` counts what is used of the attempts, and the run goes on while some are left. -/
structure Budgeted (worker : Worker) (s : WorkerRun) : Prop where
  count : s.dropFailures = used isHealthy isBudgeted (drops s.notes)
  left : s.dropFailures < worker.backoff.attempts ∨ s.EndedAtDrop

theorem budgeted_start : Budgeted worker start := ⟨rfl, .inl worker.backoff.attempts_pos⟩

variable {more notes : List RunNote} {served : Except WorkerError ServeEnd}
  {error : Option WorkerError} {phase : RunPhase}

@[simp]
theorem drops_append : drops (notes ++ more) = drops notes ++ drops more :=
  List.filterMap_append ..

@[simp]
theorem loopNotes_append : loopNotes (notes ++ more) = loopNotes notes ++ loopNotes more :=
  List.filter_append ..

theorem drops_loopNotes (notes : List RunNote) : drops (loopNotes notes) = drops notes := by
  rw [drops, loopNotes, List.filterMap_filter]
  refine List.filterMap_congr fun note _ => ?_
  cases note <;> rfl

/-- No session drops, and a run that has returned has returned still. -/
theorem Budgeted.of_quiet (h : Budgeted worker s) (more : List RunNote)
    (hnotes : s'.notes = s.notes ++ more) (hmore : drops more = [])
    (hfailures : s'.dropFailures = s.dropFailures)
    (hphase : ∀ result, s.phase = .finished result → s'.phase = .finished result ∧
        loopNotes more = []) : Budgeted worker s' := by
  refine ⟨?_, ?_⟩
  · rw [hfailures, h.count, hnotes, drops_append, hmore, List.append_nil]
  · rw [hfailures]
    refine h.left.imp_right ?_
    rintro ⟨before, cause, healthy, hlast, hne, hfin⟩
    obtain ⟨hfin', hquiet⟩ := hphase _ hfin
    refine ⟨before, cause, healthy, ?_, hne, hfin'⟩
    rw [hnotes, loopNotes_append, hlast, hquiet, List.append_nil]

/-- What a drop does to the attempts. -/
theorem budgeted_drop (hcount : s.dropFailures = used isHealthy isBudgeted (drops s.notes))
    (hleft : s.dropFailures < worker.backoff.attempts) (cause : DropCause) :
    Budgeted worker (s.drop worker cause) := by
  have hused : used isHealthy isBudgeted
    (drops (s.notes ++ [.dropped cause (s.provedHealthy worker)])) =
      (if s.provedHealthy worker then 0 else s.dropFailures) + if cause = .drain then 0 else 1 := by
    have hdrops : drops [.dropped cause (s.provedHealthy worker)] = [(cause, s.provedHealthy worker)] := rfl
    rw [drops_append, hdrops, used_concat, hcount, next]
    cases cause <;> rfl
  have hlast : loopNotes (s.notes ++ [.dropped cause (s.provedHealthy worker)]) =
      loopNotes s.notes ++ [.dropped cause (s.provedHealthy worker)] := loopNotes_append
  have hkept :
      (if s.provedHealthy worker then 0 else s.dropFailures) < worker.backoff.attempts := by
    split_ifs
    · exact worker.backoff.attempts_pos
    · exact hleft
  rw [drop]
  generalize (if s.provedHealthy worker then 0 else s.dropFailures) = failures at hused hkept ⊢
  split_ifs with hdrain hspent
  · rw [if_pos hdrain] at hused
    exact ⟨hused.symm, .inl hkept⟩
  · rw [if_neg hdrain] at hused
    exact ⟨hused.symm, .inr ⟨_, cause, _, hlast, hdrain, rfl⟩⟩
  · rw [if_neg hdrain] at hused
    exact ⟨hused.symm, .inl (not_le.mp hspent)⟩

theorem not_finished_of_inStream (h : s.InStream) : s.phase ≠ .finished result := by
  rcases h with hphase | ⟨frame, hphase⟩ <;> simp [hphase]

theorem not_finished_of_continues (h : Continues s error phase) : s.phase ≠ .finished result := by
  cases h <;> simp [*]

theorem Budgeted.moves (h : Budgeted worker s) (hmoves : Moves worker s s') :
    Budgeted worker s' := by
  have hopen (hphase : ¬ s.IsFinished) : s.dropFailures < worker.backoff.attempts :=
    h.left.resolve_right fun ⟨_, _, _, _, _, hfin⟩ => hphase ⟨_, hfin⟩
  cases hmoves with
  | @refuses attempt error hphase =>
    obtain ⟨phase, -, heq⟩ := refuse_eq worker (s := s) attempt error
    exact heq ▸ h.of_quiet [.refused error] rfl rfl rfl (by simp [hphase])
  | @settles result hphase =>
    rw [settle]
    cases classifyServeOutcome result (s.note (.served result)).health (s.note (.served result)).fired with
    | ends result' => exact h.of_quiet [.served result] rfl rfl rfl (by simp [hphase])
    | drops cause =>
      refine budgeted_drop (s := s.note (.served result)) ?_ (hopen (by simp [IsFinished, hphase])) cause
      have hquiet : Budgeted worker (s.note (.served result)) :=
        h.of_quiet [.served result] rfl rfl rfl (by simp [hphase])
      exact hquiet.count
  | @finishes handler outcome hhdlr hsent =>
    obtain ⟨-, heq⟩ | ⟨-, heq⟩ := sendOutcome_cases (s := s) handler outcome <;>
      exact heq ▸ h.of_quiet [] (List.append_nil _).symm rfl rfl fun _ hfin => ⟨hfin, rfl⟩
  | ticks | cancels | errs | releases =>
    exact h.of_quiet [] (List.append_nil _).symm rfl rfl fun _ hfin => ⟨hfin, rfl⟩
  | stops hstops => exact h.of_quiet [.shutdown] rfl rfl rfl (by cases hstops <;> simp [*])
  | interrupts numbers health hstr => exact h.of_quiet [.shutdown] rfl rfl rfl (by simp [not_finished_of_inStream hstr])
  | establishes hphase => exact h.of_quiet [.established] rfl rfl rfl (by simp [hphase])
  | retries hphase | recovers hphase | breaks _ hphase | serves hphase | waits _ hphase | drains hphase =>
    exact h.of_quiet [] (List.append_nil _).symm rfl rfl (by simp [hphase])
  | @resends report rest hphase => exact h.of_quiet [.sent report] rfl rfl rfl (by simp [hphase])
  | leaves error health hstr hended =>
    exact h.of_quiet [] (List.append_nil _).symm rfl rfl (by simp [not_finished_of_inStream hstr])
  | acknowledges workflowId activityId hphase =>
    exact h.of_quiet [.acknowledged (pendingReportKey workflowId activityId)] rfl rfl rfl (by simp [hphase])
  | @accepts task hphase hpermit => exact h.of_quiet [.accepted s.spawned task] rfl rfl rfl (by simp [hphase])
  | @records finished rest outcome phase error health sent hresults hjoin hout hcont hsent =>
    refine h.of_quiet (.recorded finished.number (pendingReport finished.key finished.runId outcome) :: sent) rfl ?_ rfl
      (by simp [not_finished_of_continues hcont])
    rcases hsent with rfl | ⟨rfl, -⟩ <;> rfl
  | @fails finished rest failure phase error health hresults hjoin hout hcont =>
    exact h.of_quiet [.failed finished.number failure] rfl rfl rfl (by simp [not_finished_of_continues hcont])
  | @panics handler hhdlr hsent =>
    exact h.of_quiet [.panicked handler.number] rfl rfl rfl fun _ hfin => ⟨hfin, rfl⟩

/-! ### Why a run ends -/

/-- Why a run returns, given what the run loop has noted until then. -/
inductive EndsBy (worker : Worker) (notes : List RunNote) : Except WorkerError Unit → Prop where
  /-- The caller shut the worker down. -/
  | shutdown (hshutdown : .shutdown ∈ notes) : EndsBy worker notes (.ok ())
  /-- It did so when a session had failed, and since then attempts to establish another were refused
  at most. -/
  | recovering {error : WorkerError} {before : List RunNote} {healthy : Bool}
    {errors : List WorkerError}
    (hnotes : notes = before ++ .dropped (.failure error) healthy :: errors.map .refused ++ [.shutdown]) :
    EndsBy worker notes (.error error)
  /-- It did so, and what was left to report could not be sent. -/
  | stopping {error : WorkerError} {before : List RunNote}
    (hnotes : notes = before ++ [.served (.error error)])
    (hshutdown : .shutdown ∈ before) : EndsBy worker notes (.error error)
  /-- The server denied the worker a session. -/
  | denied {error : WorkerError} {before : List RunNote}
    (hnotes : notes = before ++ [.refused error])
    (hretry : error.isRetryable = false) : EndsBy worker notes (.error error)
  /-- The server denied the worker in a session. -/
  | broken {error : WorkerError} {before : List RunNote}
    (hnotes : notes = before ++ [.served (.error error)])
    (hretry : error.isRetryable = false) : EndsBy worker notes (.error error)
  /-- As many attempts as there are were refused one after the other. -/
  | refused {error : WorkerError} {before : List RunNote} {errors : List WorkerError}
    (hnotes : notes = before ++ (errors ++ [error]).map .refused)
    (hattempts : (errors ++ [error]).length = worker.backoff.attempts) :
    EndsBy worker notes (.error error)
  /-- The sessions flap. -/
  | flapping {cause : DropCause} {before : List RunNote}
    {healthy : Bool} (hnotes : notes = before ++ [.dropped cause healthy])
    (hbudg : cause ≠ .drain) (hflaps : Flaps worker notes) :
    EndsBy worker notes (.error cause.intoExhaustionError)

/-- The last attempts to establish a session were refused, as many as given. -/
def Refused (notes : List RunNote) (attempts : ℕ) : Prop :=
  ∃ (before : List RunNote) (errors : List WorkerError),
    loopNotes notes = before ++ errors.map .refused ∧ errors.length = attempts

/-- The last session dropped for this cause, and since then attempts to establish another were
refused at most. -/
def Unrecovered (notes : List RunNote) (cause : DropCause) : Prop :=
  ∃ (before : List RunNote) (healthy : Bool) (errors : List WorkerError),
    loopNotes notes = before ++ .dropped cause healthy :: errors.map .refused

/-- The run has returned for a reason, or will. -/
structure Explained (worker : Worker) (s : WorkerRun) : Prop where
  fired : s.fired → .shutdown ∈ s.notes
  stopping : s.phase = .draining .shutdown ∨ s.phase = .served (.ok .shutdown) → s.fired
  establishing : ∀ attempt, s.phase = .establishing attempt → Refused s.notes (attempt - 1) ∧
    0 < attempt
  pausing : ∀ attempt deadline, s.phase = .pausing attempt deadline → Refused s.notes attempt
  recovering : ∀ error, ((∃ attempt, s.phase = .establishing attempt) ∨ ∃ attempt deadline,
      s.phase = .pausing attempt deadline) →
    s.recoveryError = some error → Unrecovered s.notes (.failure error)
  backingOff : ∀ cause deadline, s.phase = .backingOff cause deadline → Unrecovered s.notes cause
  finished : ∀ result, s.phase = .finished result → EndsBy worker (loopNotes s.notes) result

theorem explained_start : Explained worker start := by
  refine ⟨by simp [start], by simp [start], fun attempt hphase =>
      ?_, by simp [start], by simp [start], by simp [start], by simp [start]⟩
  obtain rfl := RunPhase.establishing.inj hphase
  exact ⟨⟨[], [], rfl, rfl⟩, Nat.one_pos⟩

theorem shutdown_mem_loopNotes (h : .shutdown ∈ notes) : .shutdown ∈ loopNotes notes :=
  List.mem_filter.mpr ⟨h, rfl⟩

/-- The loop returns. -/
theorem explained_of_finished (hphase : s.phase = .finished result)
    (hfired : s.fired → .shutdown ∈ s.notes) (hends : EndsBy worker (loopNotes s.notes) result) :
    Explained worker s := by
  refine ⟨hfired, ?_, ?_, ?_, ?_, ?_, fun _ hres =>
      RunPhase.finished.inj (hphase.symm.trans hres) ▸ hends⟩ <;> simp [hphase]

/-- The loop backs off from a drop. -/
theorem explained_of_backingOff {cause : DropCause} {deadline : ℕ}
    (hphase : s.phase = .backingOff cause deadline) (hfired : s.fired → .shutdown ∈ s.notes)
    (hlast : Unrecovered s.notes cause) : Explained worker s := by
  refine ⟨hfired, ?_, ?_, ?_, ?_, ?_, ?_⟩ <;> simp [hphase, hlast]

/-- The loop stands where it stood, and has noted nothing. -/
theorem Explained.of_same (h : Explained worker s) (hnotes : s'.notes = s.notes ++ more)
    (hmore : loopNotes more = []) (hphase : s'.phase = s.phase) (hfired : s'.fired = s.fired)
    (hrecovery : s'.recoveryError = s.recoveryError) : Explained worker s' := by
  have hloop : loopNotes s'.notes = loopNotes s.notes := by
    rw [hnotes, loopNotes_append, hmore, List.append_nil]
  have hlast (cause : DropCause) : Unrecovered s'.notes cause ↔ Unrecovered s.notes cause := by
    rw [Unrecovered, hloop, Unrecovered]
  have hrefd (attempts : ℕ) : Refused s'.notes attempts ↔ Refused s.notes attempts := by
    rw [Refused, hloop, Refused]
  obtain ⟨fired, stopping, establishing, pausing, recovering, backingOff, finished⟩ := h
  refine ⟨fun hfired' => ?_, ?_, ?_, ?_, ?_, ?_, ?_⟩
  · rw [hnotes]
    exact List.mem_append_left _ (fired (hfired ▸ hfired'))
  all_goals simpa only [hphase, hfired, hrecovery, hlast, hloop, hrefd]

/-- The loop goes on in a session. -/
theorem Explained.of_session (h : Explained worker s) (hnotes : s'.notes = s.notes ++ more)
    (hphase : (∃ rest, s'.phase = .replaying rest) ∨ s'.InStream ∨
        (∃ ended, s'.phase = .draining ended ∧ ended ≠ .shutdown) ∨
      ∃ error, s'.phase = .served (.error error)) (hfired : s'.fired = s.fired) :
    Explained worker s' := by
  refine ⟨fun hfired' => ?_, ?_, ?_, ?_, ?_, ?_, ?_⟩
  · rw [hnotes]
    exact List.mem_append_left _ (h.fired (hfired ▸ hfired'))
  all_goals
    rcases hphase with ⟨rest, hphase⟩ | (hphase | ⟨frame, hphase⟩) | ⟨ended, hphase,
      hended⟩ | ⟨error, hphase⟩ <;>
      simp [hphase] <;> try exact fun heq => absurd heq hended

theorem Explained.of_continues (h : Explained worker s) (hnotes : s'.notes = s.notes ++ more)
    (hcont : Continues s error phase) (hphase : s'.phase = phase) (hfired : s'.fired = s.fired) :
    Explained worker s' := by
  cases hcont with
  | serving => exact h.of_session hnotes (.inr (.inl (.inl hphase))) hfired
  | leaving => exact h.of_session hnotes (.inr (.inr (.inl ⟨_, hphase, by simp⟩))) hfired
  | @draining ended hbef =>
    refine ⟨fun hfired' => ?_, fun hstopping => ?_, by simp [hphase], by simp [hphase], by simp [hphase], by simp [hphase],
      by simp [hphase]⟩
    · rw [hnotes]
      exact List.mem_append_left _ (h.fired (hfired ▸ hfired'))
    · rw [hfired]
      exact h.stopping (by simpa [hphase, hbef] using hstopping)

theorem endsBy_of_classify {health : SessionHealth} {fired : Bool}
    (hfired : fired → .shutdown ∈ notes) (hstopping : served = .ok .shutdown → fired)
    (hclass : classifyServeOutcome served health fired = .ends result) :
    EndsBy worker (loopNotes (notes ++ [.served served])) result := by
  have hmem (hfires : fired) : .shutdown ∈ loopNotes (notes ++ [.served served]) :=
    shutdown_mem_loopNotes (List.mem_append_left _ (hfired hfires))
  match served with
  | .ok .shutdown =>
    obtain rfl := ServeClassification.ends.inj hclass
    exact .shutdown (hmem (hstopping rfl))
  | .ok .drained | .ok .streamClosed =>
    simp only [classifyServeOutcome] at hclass
    split_ifs at hclass with hfires
    obtain rfl := ServeClassification.ends.inj hclass
    exact .shutdown (hmem hfires)
  | .error error =>
    simp only [classifyServeOutcome] at hclass
    split_ifs at hclass with hretry hdrain hfires hfires
    · obtain rfl := ServeClassification.ends.inj hclass
      exact .broken loopNotes_append (by simpa using hretry)
    · obtain rfl := ServeClassification.ends.inj hclass
      exact .shutdown (hmem hfires)
    · obtain rfl := ServeClassification.ends.inj hclass
      exact .stopping loopNotes_append (shutdown_mem_loopNotes (hfired hfires))

/-- A session drops. -/
theorem explained_drop (hfired : s.fired → .shutdown ∈ s.notes) (cause : DropCause)
    (hbudg : Budgeted worker (s.drop worker cause)) : Explained worker (s.drop worker cause) := by
  have hfired' : s.fired → .shutdown ∈ s.notes ++ [.dropped cause (s.provedHealthy worker)] :=
    fun hfires => List.mem_append_left _ (hfired hfires)
  have hlast : Unrecovered (s.notes ++ [.dropped cause (s.provedHealthy worker)]) cause :=
    ⟨_, _, [], loopNotes_append⟩
  have hcount := hbudg.count
  rw [drop] at hcount ⊢
  generalize (if s.provedHealthy worker then 0 else s.dropFailures) = failures at hcount ⊢
  split_ifs at hcount ⊢ with hdrain hspent
  · exact explained_of_backingOff rfl hfired' hlast
  · refine explained_of_finished rfl hfired' (.flapping loopNotes_append hdrain (spent_iff.mpr ?_))
    rw [drops_loopNotes]
    exact hspent.trans hcount.le
  · exact explained_of_backingOff rfl hfired' hlast

/-- The run loop goes by how the session ended. -/
theorem Explained.settle (h : Explained worker s) (hbudg : Budgeted worker (s.settle worker served))
    (hphase : s.phase = .served served) : Explained worker (s.settle worker served) := by
  have hfired : s.fired → .shutdown ∈ s.notes ++ [.served served] :=
    fun hfires => List.mem_append_left _ (h.fired hfires)
  rw [WorkerRun.settle] at hbudg ⊢
  cases hclass : classifyServeOutcome served (s.note (.served served)).health (s.note (.served served)).fired with
  | ends result =>
    rw [hclass] at hbudg
    refine explained_of_finished rfl hfired
      (endsBy_of_classify h.fired (fun hserv => h.stopping (.inr ?_)) hclass)
    rw [hphase, hserv]
  | drops cause =>
    rw [hclass] at hbudg
    exact explained_drop hfired cause hbudg

theorem Explained.moves (h : Explained worker s) (hbudg : Budgeted worker s)
    (hmoves : Moves worker s s') : Explained worker s' := by
  have hbudg' := hbudg.moves hmoves
  cases hmoves with
  | ticks | cancels | errs | releases => exact h.of_same (List.append_nil _).symm rfl rfl rfl rfl
  | @stops result hstops =>
    have hends : EndsBy worker (loopNotes (s.notes ++ [.shutdown])) result := by
      have hmem : .shutdown ∈ loopNotes (s.notes ++ [.shutdown]) := shutdown_mem_loopNotes (by simp)
      have hlast {error : WorkerError} (hcause : Unrecovered s.notes (.failure error)) :
          EndsBy worker (loopNotes (s.notes ++ [.shutdown])) (.error error) := by
        obtain ⟨before, healthy, errors, hnotes⟩ := hcause
        rw [loopNotes_append, hnotes]
        exact .recovering rfl
      have hrecovering (hphase : (∃ attempt, s.phase = .establishing attempt) ∨ ∃ attempt deadline,
          s.phase = .pausing attempt deadline) :
          EndsBy worker (loopNotes (s.notes ++ [.shutdown])) (s.recoveryError.elim (.ok ()) .error) := by
        cases herr : s.recoveryError with
        | none => exact .shutdown hmem
        | some error => exact hlast (h.recovering error hphase herr)
      cases hstops with
      | establishing hphase => exact hrecovering (.inl ⟨_, hphase⟩)
      | pausing hphase => exact hrecovering (.inr ⟨_, _, hphase⟩)
      | replaying hphase => exact .shutdown hmem
      | @backingOff cause deadline hphase =>
        cases cause with
        | failure error => exact hlast (h.backingOff _ _ hphase)
        | cleanClose | drain => exact .shutdown hmem
    exact explained_of_finished rfl (fun _ => List.mem_append_right _ (List.mem_singleton_self _)) hends
  | interrupts numbers health hstr =>
    exact ⟨fun _ => List.mem_append_right _ (List.mem_singleton_self _), fun _ =>
        rfl, by simp, by simp, by simp, by simp, by simp⟩
  | establishes | resends => exact h.of_session rfl (.inl ⟨_, rfl⟩) rfl
  | @refuses attempt error hphase =>
    have hfired : s.fired → .shutdown ∈ s.notes ++ [.refused error] :=
      fun hfired => List.mem_append_left _ (h.fired hfired)
    obtain ⟨⟨before, errors, hnotes, hlen⟩, hpos⟩ := h.establishing attempt hphase
    have hrefd : loopNotes (s.notes ++ [.refused error]) = before ++ (errors ++ [error]).map .refused := by
      rw [loopNotes_append, hnotes]
      simp [loopNotes]
    have hatt : (errors ++ [error]).length = attempt := by simp; omega
    rw [refuse]
    split_ifs with hretry hlast
    · exact explained_of_finished rfl hfired (.denied loopNotes_append (by simpa using hretry))
    · exact explained_of_finished rfl hfired (.refused hrefd (hatt.trans hlast))
    · refine ⟨hfired, by simp [goTo], by simp [goTo], fun attempt' deadline hpausing =>
          ?_, fun failure _ hfail => ?_, by simp [goTo],
        by simp [goTo]⟩
      · obtain ⟨rfl, -⟩ := RunPhase.pausing.inj hpausing
        exact ⟨before, _, hrefd, hatt⟩
      · obtain ⟨before, healthy, errors, hnotes⟩ := h.recovering failure (.inl ⟨_, hphase⟩) hfail
        refine ⟨before, healthy, errors ++ [error], ?_⟩
        change loopNotes (s.notes ++ [.refused error]) = _
        rw [loopNotes_append, hnotes]
        simp [loopNotes]
  | @retries attempt deadline hphase =>
    refine ⟨h.fired, by simp, fun attempt' hatt => ?_, by simp, fun failure _ hfail => ?_, by simp, by simp⟩
    · obtain rfl := RunPhase.establishing.inj hatt
      exact ⟨h.pausing attempt deadline hphase, Nat.succ_pos _⟩
    · exact h.recovering failure (.inr ⟨_, _, hphase⟩) hfail
  | @recovers cause deadline hphase =>
    refine ⟨h.fired, by simp, fun attempt' hatt => ?_, by simp, fun failure _ hfail => ?_, by simp, by simp⟩
    · obtain rfl := RunPhase.establishing.inj hatt
      exact ⟨⟨loopNotes s.notes, [], by simp, rfl⟩, Nat.one_pos⟩
    · have hcause : cause = .failure failure := by
        cases cause <;> simp [DropCause.intoRecoveryError] at hfail
        rw [hfail]
      exact hcause ▸ h.backingOff cause deadline hphase
  | breaks error hphase =>
    exact h.of_session (List.append_nil _).symm (.inr (.inr (.inr ⟨_, rfl⟩))) rfl
  | serves hphase => exact h.of_session (List.append_nil _).symm (.inr (.inl (.inl rfl))) rfl
  | leaves error health hstr hended =>
    exact h.of_session (List.append_nil _).symm (.inr (.inr (.inl ⟨_, rfl, hended⟩))) rfl
  | waits frame hphase =>
    exact h.of_session (List.append_nil _).symm (.inr (.inl (.inr ⟨_, rfl⟩))) rfl
  | acknowledges workflowId activityId hphase =>
    exact h.of_session rfl (.inr (.inl (.inl hphase))) rfl
  | accepts hphase hpermit => exact h.of_session rfl (.inr (.inl (.inl rfl))) rfl
  | records _ _ _ _ hcont | fails _ _ _ _ hcont => exact h.of_continues rfl hcont rfl rfl
  | @drains ended result hphase hdone hres =>
    refine ⟨h.fired, fun hstopping => h.stopping (.inl ?_), by simp, by simp, by simp, by simp, by simp⟩
    simp only [reduceCtorEq, RunPhase.served.injEq, false_or] at hstopping
    rw [hphase, ← hres _ hstopping]
  | @settles result hphase => exact h.settle hbudg' hphase
  | @finishes handler outcome hhdlr hsent =>
    obtain ⟨-, heq⟩ | ⟨-, heq⟩ := sendOutcome_cases (s := s) handler outcome <;>
      exact heq ▸ h.of_same (List.append_nil _).symm rfl rfl rfl rfl
  | panics hhdlr hsent => exact h.of_same rfl rfl rfl rfl rfl

/-! ### Every run -/

theorem budgeted_of_reached (h : Reached worker s) : Budgeted worker s :=
  h.invariant (fun hbudg _ hstep => hbudg.moves (step_moves hstep)) budgeted_start

theorem explained_of_reached (h : Reached worker s) : Explained worker s :=
  h.invariant_of_reachable (fun hrch hexplained _ hstep =>
      hexplained.moves (budgeted_of_reached hrch) (step_moves hstep))
    explained_start

end WorkerRun

end Aion
