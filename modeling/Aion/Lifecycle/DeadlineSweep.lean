import Aion.Core.UuidText
import Aion.Lifecycle.DeadlineCrashes

/-!
# What a sweep leaves behind

At startup the sweep runs before anything else writes. It cancels the deadlines it finds orphaned
and nothing else (`Swept`), so what a row is about is not orphaned after it has been visited and
stays so. A row that the backend does not take to be expired by the sweep's horizon is not visited;
on libSQL no row of the years 0 to 9999 is (`deadline_orphaned_libSql`).

`deadline_discipline` puts that together with what holds of the actors in any order.
-/

namespace Aion

open Interleaving Relation

/-! ### What a cancelled deadline changes -/

section Cancelled

variable {parseUuid : String → Option Uuid} {history history' : List Event} {event : Event}
  {run : RunId}

/-- An event that starts no run adds to a segment or not. -/
theorem runSegment_concat (h : isWorkflowStarted event = false) :
    runSegment (history ++ [event]) run = runSegment history run ∨
      runSegment (history ++ [event]) run = runSegment history run ++ [event] := by
  have hother : startsRun run event = false := by
    rw [Bool.eq_false_iff]
    intro hstarts
    rw [isWorkflowStarted_of_startsRun hstarts] at h
    cases h
  unfold runSegment
  rw [List.dropWhile_append]
  cases hdrop : history.dropWhile fun event => !startsRun run event with
  | nil => simp [hother]
  | cons start rest =>
    simp only [List.isEmpty_cons, Bool.false_eq_true, if_false, List.cons_append]
    rw [List.takeWhile_append]
    split_ifs with hall
    · rw [List.takeWhile_cons_of_pos (by simp [h]), List.takeWhile_nil]
      refine .inr ?_
      rw [List.Sublist.eq_of_length (List.takeWhile_sublist _) hall]
    · exact .inl rfl

/-- An event that the lease scan passes over changes no outcome. -/
theorem terminalOutcomeFromHistory_concat (hmark : leaseMark event = none) :
    terminalOutcomeFromHistory (history ++ [event]) run =
      terminalOutcomeFromHistory history run := by
  have hstart : isWorkflowStarted event = false := by
    rw [Bool.eq_false_iff]
    intro hstrt
    have hlease := isLeaseStart_of_isWorkflowStarted hstrt
    rw [(leaseMark_eq_none_iff.mp hmark).2] at hlease
    cases hlease
  have hsame : currentLeaseTerminal (runSegment (history ++ [event]) run) = currentLeaseTerminal (runSegment history run) := by
    rcases @runSegment_concat history event run hstart with hseg | hseg
    · rw [hseg]
    · rw [hseg, currentLeaseTerminal_concat, hmark]
      rfl
  rw [terminalOutcomeFromHistory, terminalOutcomeFromHistory, hsame]

/-- An orphaned deadline, of a run that is visited, is cancelled. -/
def SweepStep (parseUuid : String → Option Uuid) (visited : RunId → Prop)
    (history history' : List Event) : Prop :=
  ∃ envelope run timerId, visited run ∧
    history' = history ++ [⟨envelope, .timerCancelled timerId .workflowIntent⟩] ∧
    isOrphanedTerminalDeadline parseUuid history run = true ∧
    outstandingDeadlineTimer parseUuid history run = some timerId

variable {visited : RunId → Prop}

/-- A run that is not visited, or whose deadline is not orphaned, is left as it is. -/
theorem SweepStep.spares (h : SweepStep parseUuid visited history history')
    (hspared : ¬ visited run ∨ isOrphanedTerminalDeadline parseUuid history run = false) :
    isOrphanedTerminalDeadline parseUuid history' run =
      isOrphanedTerminalDeadline parseUuid history run ∧
      outstandingDeadlineTimer parseUuid history' run =
        outstandingDeadlineTimer parseUuid history run := by
  obtain ⟨envelope, other, timerId, hvisited, rfl, horph, houtst⟩ := h
  have hne : other ≠ run := by
    rintro rfl
    rcases hspared with hspared | hspared
    · exact hspared hvisited
    · rw [horph] at hspared
      cases hspared
  have hsame : outstandingDeadlineTimer parseUuid
    (history ++ [⟨envelope, .timerCancelled timerId .workflowIntent⟩]) run =
      outstandingDeadlineTimer parseUuid history run :=
    outstandingDeadlineTimer_of_mark_none
      (deadlineMark_of_other (deadlineRunId_of_outstanding houtst).2 hne)
  refine ⟨?_, hsame⟩
  unfold isOrphanedTerminalDeadline
  rw [hsame, terminalOutcomeFromHistory_concat rfl]

/-- A run stays as it is while others are swept. -/
theorem SweepStep.spares_all (h : ReflTransGen (SweepStep parseUuid visited) history history')
    (hspared : ¬ visited run ∨ isOrphanedTerminalDeadline parseUuid history run = false) :
    isOrphanedTerminalDeadline parseUuid history' run =
      isOrphanedTerminalDeadline parseUuid history run ∧
      outstandingDeadlineTimer parseUuid history' run =
        outstandingDeadlineTimer parseUuid history run := by
  induction h with
  | refl => exact ⟨rfl, rfl⟩
  | tail _ step ih =>
    obtain ⟨horph, houtst⟩ := step.spares (hspared.imp_right ih.1.trans)
    exact ⟨horph.trans ih.1, houtst.trans ih.2⟩

/-- The cancelled deadline is not orphaned any more. -/
theorem isOrphanedTerminalDeadline_cancelled {timerId : TimerId} {envelope : EventEnvelope}
    {cause : TimerCancelCause} (h : outstandingDeadlineTimer parseUuid history run = some timerId) :
    isOrphanedTerminalDeadline parseUuid
      (history ++ [⟨envelope, .timerCancelled timerId cause⟩]) run = false := by
  rw [isOrphanedTerminalDeadline, outstandingDeadlineTimer_cancelled h]
  rfl

end Cancelled

/-! ### A sweep alone -/

/-- The store after a sweep, and which runs it may have visited. -/
structure Swept (parseUuid : String → Option Uuid) (visited : WorkflowId → RunId → Prop)
    (store store' : InMemoryStore) : Prop where
  numbered : store'.Numbered
  histories : ∀ id, ReflTransGen (SweepStep parseUuid (visited id)) (store.history id)
    (store'.history id)

variable {backend : TimerBackend} {id : WorkflowId} {fireAt : Instant}

section Alone

variable {parseUuid : String → Option Uuid} {store store' : InMemoryStore} {α β : Type}

variable {visited : WorkflowId → RunId → Prop} {entries : List TimerEntry}
  {live : WorkflowId → Bool} {now : Instant} {rows : TimerRows}

theorem Swept.refl (numbered : store.Numbered) : Swept parseUuid visited store store :=
  ⟨numbered, fun _ => .refl⟩

theorem Swept.trans {store'' : InMemoryStore} (h : Swept parseUuid visited store store')
    (h' : Swept parseUuid visited store' store'') : Swept parseUuid visited store store'' :=
  ⟨h'.numbered, fun id => (h.histories id).trans (h'.histories id)⟩

theorem Swept.mono {visited' : WorkflowId → RunId → Prop} (h : Swept parseUuid visited store store')
    (himp : ∀ id run, visited id run → visited' id run) :
    Swept parseUuid visited' store store' where
  numbered := h.numbered
  histories id := by
    refine ReflTransGen.mono ?_ _ _ (h.histories id)
    rintro history history' ⟨envelope, run, timerId, hvisited, hstep⟩
    exact ⟨envelope, run, timerId, himp id run hvisited, hstep⟩

/-- A sequence that returns has a first part that returns. -/
theorem run_bind_ok {first : EngineM α} {f : α → EngineM β} {value : β}
    (h : storeService.run (first >>= f : EngineM β) store = (.ok value, store')) :
    ∃ mid middle, storeService.run first store = (.ok mid, middle) ∧
      storeService.run (f mid) middle = (.ok value, store') := by
  replace h := (Service.run_bind storeService first _ store).symm.trans h
  generalize storeService.run first store = served at h
  obtain ⟨failure | mid, middle⟩ := served
  · cases h
  · exact ⟨mid, middle, rfl, h⟩

theorem run_readHistory (numbered : store.Numbered) (id : WorkflowId) :
    storeService.run (EngineM.readHistory id) store = (.ok (store.history id), store) := by
  change (Except.ok (store.readHistory id), store) = _
  rw [InMemoryStore.readHistory_of_numbered numbered]

/-- The repair of one run, when it succeeds. -/
theorem swept_retireOrphaned (numbered : store.Numbered) {run : RunId}
    (h : storeService.run (retireOrphanedTerminalDeadlineIndependent parseUuid now id run) store =
        (.ok (), store')) :
    Swept parseUuid (fun id' run' => id' = id ∧ run' = run) store store' ∧
      isOrphanedTerminalDeadline parseUuid (store'.history id) run = false := by
  obtain ⟨_, _, hread, h⟩ := run_bind_ok h
  rw [run_readHistory numbered] at hread
  cases hread
  split_ifs at h with horph
  · obtain ⟨⟨timerId, houtst⟩, -⟩ := isOrphanedTerminalDeadline_eq_true.mp horph
    have hretire : retireRunDeadline parseUuid now (store.history id) run =
        appendWith now (.timerCancelled timerId .workflowIntent) := by
      rw [retireRunDeadline, houtst]
      rfl
    change storeService.run (Prog.bind _ _) store = _ at h
    rw [Service.run_bind, hretire] at h
    rcases run_appendWith now (.timerCancelled timerId .workflowIntent)
        (Recorder.resumeAt id (InMemoryStore.historyHead (store.history id))) store with ⟨error, hrun⟩ | ⟨store₁, happ, hrun⟩
    · -- The append was refused: the history read again is the same, and the repair fails.
      rw [hrun] at h
      change storeService.run (afterRefusal parseUuid id run error) store = _ at h
      unfold afterRefusal at h
      split at h
      · obtain ⟨_, _, hread, h⟩ := run_bind_ok h
        rw [run_readHistory numbered] at hread
        cases hread
        rw [if_pos horph] at h
        cases h
      · cases h
    · rw [hrun] at h
      cases h
      obtain ⟨-, -, hadd⟩ := InMemoryStore.append_eq_ok happ
      refine ⟨⟨InMemoryStore.append_numbered numbered happ, ?_⟩, ?_⟩
      · intro other
        rw [hadd]
        split_ifs with hother
        · change other = id at hother
          subst hother
          exact .single ⟨_, run, timerId, ⟨rfl, rfl⟩, rfl, horph, houtst⟩
        · rw [List.append_nil]
      · rw [hadd]
        change isOrphanedTerminalDeadline parseUuid (store.history id ++ if id = id then _ else _) run = false
        rw [if_pos rfl]
        exact isOrphanedTerminalDeadline_cancelled houtst
  · cases h
    exact ⟨.refl numbered, by simpa using horph⟩

/-- Among the rows there is one of the run's deadline. -/
def Visits (parseUuid : String → Option Uuid) (entries : List TimerEntry) (id : WorkflowId)
    (run : RunId) : Prop :=
  ∃ entry ∈ entries, entry.workflowId = id ∧ deadlineRunId parseUuid entry.timerId = some run

/-- A sweep at startup, when it completes. -/
theorem swept_sweepEntries (numbered : store.Numbered)
    (h : storeService.run (sweepEntries parseUuid now .coldBoot live entries) store =
        (.ok (), store')) :
    Swept parseUuid (Visits parseUuid entries) store store' ∧
      ∀ id run, Visits parseUuid entries id run →
        isOrphanedTerminalDeadline parseUuid (store'.history id) run = false := by
  induction entries generalizing store with
  | nil =>
    cases h
    exact ⟨.refl numbered, by rintro id run ⟨entry, hmem, -⟩; cases hmem⟩
  | cons entry rest ih =>
    have hweaken : ∀ id run, Visits parseUuid rest id run → Visits parseUuid (entry :: rest) id run := by
      rintro id run ⟨other, hmem, hvisits⟩
      exact ⟨other, List.mem_cons_of_mem _ hmem, hvisits⟩
    unfold sweepEntries at h
    split at h
    · rename_i hnone
      obtain ⟨hswept, hvisited⟩ := ih numbered h
      refine ⟨hswept.mono hweaken, ?_⟩
      rintro id run ⟨other, hmem, hvisits⟩
      rcases List.mem_cons.mp hmem with rfl | hmem
      · rw [hnone] at hvisits
        cases hvisits.2
      · exact hvisited id run ⟨other, hmem, hvisits⟩
    · rename_i own hown
      obtain ⟨_, store₁, hrepair, hrest⟩ := run_bind_ok h
      have hrepaired : Swept parseUuid (fun id run => id = entry.workflowId ∧ run = own) store store₁ ∧
          isOrphanedTerminalDeadline parseUuid (store₁.history entry.workflowId) own = false := by
        unfold repairOrphanedTerminalDeadline at hrepair
        split_ifs at hrepair with hlive
        · cases hrepair
        · exact swept_retireOrphaned numbered hrepair
      obtain ⟨hswept, hretd⟩ := hrepaired
      obtain ⟨hswept', hvisited⟩ := ih hswept.numbered hrest
      refine ⟨(hswept.mono ?_).trans (hswept'.mono hweaken), ?_⟩
      · rintro id run ⟨rfl, rfl⟩
        exact ⟨entry, List.mem_cons_self, rfl, hown⟩
      · rintro id run ⟨other, hmem, hvisits⟩
        rcases List.mem_cons.mp hmem with rfl | hmem
        · obtain ⟨rfl, hrun⟩ := hvisits
          obtain rfl := Option.some.inj (hown.symm.trans hrun)
          -- What comes after does not make it orphaned again.
          exact (SweepStep.spares_all (hswept'.histories _) (.inr hretd)).1.trans hretd
        · exact hvisited id run ⟨other, hmem, hvisits⟩

/-- A row of the run's deadline that the backend takes to be expired by then. -/
def RowBy (parseUuid : String → Option Uuid) (backend : TimerBackend) (rows : TimerRows)
    (id : WorkflowId) (run : RunId) (asOf : Instant) : Prop :=
  ∃ row ∈ rows.entries, row.1.1 = id ∧ deadlineRunId parseUuid row.1.2 = some run ∧
    backend.due row.2 asOf = true

theorem visits_iff {asOf : Instant} (h : backend.expiredTimers rows asOf = .ok entries)
    {run : RunId} : Visits parseUuid entries id run ↔ RowBy parseUuid backend rows id run asOf := by
  constructor
  · rintro ⟨entry, hmem, rfl, hrun⟩
    obtain ⟨row, hrow, hkey, hdue⟩ := (backend.mem_iff h _).mp ⟨entry, hmem, rfl⟩
    exact ⟨row, hrow, by rw [hkey], by rwa [hkey], hdue⟩
  · rintro ⟨row, hrow, rfl, hrun, hdue⟩
    obtain ⟨entry, hmem, hkey⟩ := (backend.mem_iff h _).mpr ⟨row, hrow, rfl, hdue⟩
    obtain ⟨hid, htimer⟩ := Prod.mk.inj hkey
    exact ⟨entry, hmem, hid, by rwa [htimer]⟩

/-- **What a completed sweep leaves**: a deadline is orphaned afterwards just when it was before
and no row of it has expired by the horizon, and one that was not orphaned is left as it was. -/
theorem sweep_leaves (numbered : store.Numbered)
    (h : storeService.run (sweepUncancelledTerminalDeadlines parseUuid now backend .coldBoot live
        rows) store = (.ok (), store')) (id : WorkflowId) (run : RunId) :
    (isOrphanedTerminalDeadline parseUuid (store'.history id) run = false ↔
        isOrphanedTerminalDeadline parseUuid (store.history id) run = false ∨
          RowBy parseUuid backend rows id run (sweepHorizon now)) ∧
      (isOrphanedTerminalDeadline parseUuid (store.history id) run = false →
        outstandingDeadlineTimer parseUuid (store'.history id) run =
          outstandingDeadlineTimer parseUuid (store.history id) run) := by
  unfold sweepUncancelledTerminalDeadlines at h
  split at h
  · cases h
  rename_i entries hans
  obtain ⟨hswept, hvisited⟩ := swept_sweepEntries numbered h
  refine ⟨⟨?_, ?_⟩, ?_⟩
  · intro hretd
    by_contra hleft
    push Not at hleft
    obtain ⟨horph, hrow⟩ := hleft
    rw [← visits_iff hans] at hrow
    rw [(SweepStep.spares_all (hswept.histories id) (.inl hrow)).1] at hretd
    exact horph hretd
  · rintro (hspared | hrow)
    · exact (SweepStep.spares_all (hswept.histories id) (.inr hspared)).1.trans hspared
    · exact hvisited id run ((visits_iff hans).mpr hrow)
  · intro hspared
    exact (SweepStep.spares_all (hswept.histories id) (.inr hspared)).2

end Alone

/-! ### Every run -/

section Runs

variable {parseUuid : String → Option Uuid} {steps : List (DeadlineSystem × DeadlineLabel)}
  {s : DeadlineSystem}

theorem sound_empty : Sound parseUuid DeadlineWorld.empty :=
  ⟨InMemoryStore.numbered_empty, fun _ => disciplined_nil⟩

/-- Every history of a run is sound, and every call keeps its actor's guarantee. -/
theorem sound_of_run (parses : ParsesDeadlines parseUuid)
    (run : Run deadlineService (deadlinePrograms parseUuid) noDeadlineActors steps s) :
    Sound parseUuid s.store ∧ ∀ step ∈ steps, ∀ i request answer start log rest,
      step.2 = .called i request answer →
      step.1.clients i = some (.busy start log rest) →
        Guarantee parseUuid start step.1.store request := by
  have hbegins : ∀ state start program, Later parseUuid noDeadlineActors.store state →
    deadlinePrograms parseUuid start program →
      deadlineService.Guards (Later parseUuid) (Guarantee parseUuid start) (fun _ _ => True) state program := by
    rintro state start _ hlat ⟨env, rfl⟩
    have hcall := meets_call parses (hlat.sound parses sound_empty) start env
    exact Service.Guards.bind hcall fun _ _ _ => trivial
  obtain ⟨hlat, -, hcalls⟩ :=
    run.guards Later.refl Later.trans (fun _ _ _ h => h.later) hbegins (by rintro _ _ _ _ ⟨⟩)
  exact ⟨hlat.sound parses sound_empty, hcalls⟩

/-- What a call in a run is answered. -/
theorem answer_of_called
    (run : Run deadlineService (deadlinePrograms parseUuid) noDeadlineActors steps s)
    {step : DeadlineSystem × DeadlineLabel} (hmem : step ∈ steps) {i : ℕ} {request : StoreCall}
    {answer : request.Answer} (hlabel : step.2 = .called i request answer) :
    answer = (step.1.store.serve request).1 := by
  obtain ⟨before, after, rfl⟩ := List.append_of_mem hmem
  obtain ⟨-, next, hstep⟩ := run.at_step
  generalize step.2 = label at hstep hlabel
  cases hstep with
  | called client =>
    injection hlabel with _ hreq hans
    subst hreq
    exact (eq_of_heq hans).symm
  | _ => cases hlabel

end Runs

/-- What is promised of the deadlines, over the steps that led to the state. -/
structure KeepsDeadlines (parseUuid : String → Option Uuid)
    (steps : List (DeadlineSystem × DeadlineLabel)) (s : DeadlineSystem) : Prop where
  /-- A lease has at most one terminal. -/
  oneTerminal : ∀ id, OneTerminalPerLease (s.store.history id)
  /-- A timeout was appended while the deadline of the run was outstanding. -/
  whileOutstanding : ∀ id before envelope timeout after,
    s.store.history id = before ++ ⟨envelope, .workflowTimedOut timeout⟩ :: after →
      ∃ run, lastRunId? before = some run ∧ (outstandingDeadlineTimer parseUuid before run).isSome
  /-- When the deadline of a run that timed out is no longer outstanding, no timer of the run is
  live and its row has been refreshed. -/
  anchored : ∀ id run timeout, terminalOutcomeFromHistory (s.store.history id) run =
    some (.timedOut timeout) →
    outstandingDeadlineTimer parseUuid (s.store.history id) run = none →
      liveTimersInActiveSegment (s.store.history id) = [] ∧ s.store.Refreshed id run
  /-- A sweep appended nothing but the end of a deadline that was outstanding in a run with another
  terminal. -/
  spared : ∀ step ∈ steps, ∀ i request answer backend scope live rows log rest,
    step.2 = .called i request answer →
    step.1.clients i = some (.busy (.sweep backend scope live rows) log rest) →
      ∀ id expectedSeq events, acceptedBatch request answer = some (id, expectedSeq, events) → ∀ event ∈ events,
        ∃ envelope run timerId, event = ⟨envelope, .timerCancelled timerId .workflowIntent⟩ ∧
          outstandingDeadlineTimer parseUuid (step.1.store.history id) run = some timerId ∧
          ∃ outcome, terminalOutcomeFromHistory (step.1.store.history id) run = some outcome ∧
            ∀ timeout, outcome ≠ .timedOut timeout
  /-- After a sweep at startup that completes, a run that had a deadline orphaned has it so still
  just when the backend takes no row of it to be expired by the horizon. -/
  swept : ∀ backend now live rows store',
    storeService.run (sweepUncancelledTerminalDeadlines parseUuid now backend .coldBoot live rows)
      s.store.store =
        (.ok (), store') →
      ∀ id run, isOrphanedTerminalDeadline parseUuid (store'.history id) run = false ↔
        isOrphanedTerminalDeadline parseUuid (s.store.history id) run = false ∨
          RowBy parseUuid backend rows id run (sweepHorizon now)
  /-- And the deadline of a run without a terminal, or with a timeout, is left as it was. -/
  left : ∀ backend now live rows store',
    storeService.run (sweepUncancelledTerminalDeadlines parseUuid now backend .coldBoot live rows)
      s.store.store =
        (.ok (), store') →
      ∀ id run, (∀ outcome, terminalOutcomeFromHistory (s.store.history id) run = some outcome →
          ∃ timeout, outcome = .timedOut timeout) →
        outstandingDeadlineTimer parseUuid (store'.history id) run =
          outstandingDeadlineTimer parseUuid (s.store.history id) run

/-- **The discipline of deadlines**: it is kept whatever the actors do, in whatever order, and
wherever they stop. -/
theorem deadline_discipline {parseUuid : String → Option Uuid}
    {steps : List (DeadlineSystem × DeadlineLabel)} {s : DeadlineSystem}
    (parses : ParsesDeadlines parseUuid)
    (run : Run deadlineService (deadlinePrograms parseUuid) noDeadlineActors steps s) :
    KeepsDeadlines parseUuid steps s := by
  obtain ⟨sound, hcalls⟩ := sound_of_run parses run
  constructor
  case oneTerminal => exact fun id => (sound.disciplined id).lifecycle.one_terminal
  case whileOutstanding => exact fun id => (sound.disciplined id).whileOutstanding
  case anchored =>
    intro id run timeout hout
    exact (sound.disciplined id).anchored run ((sound.disciplined id).lifecycle.timedOut hout)
  case spared =>
    intro step hmem i request answer backend scope live rows log rest hlabel hbusy id expectedSeq events hacc event hev
    rw [answer_of_called run hmem hlabel] at hacc
    obtain ⟨envelope, swept, timerId, rfl, horph, houtst⟩ :=
      (hcalls step hmem i request answer _ log rest hlabel hbusy).spares id expectedSeq events hacc event hev
    exact ⟨envelope, swept, timerId, rfl, houtst, (isOrphanedTerminalDeadline_eq_true.mp horph).2⟩
  case swept => exact fun backend now live rows store' hsweep id run =>
    (sweep_leaves sound.numbered hsweep id run).1
  case left =>
    intro backend now live rows store' hsweep id run hkind
    refine (sweep_leaves sound.numbered hsweep id run).2 ?_
    rw [Bool.eq_false_iff]
    intro horph
    obtain ⟨-, outcome, hout, hne⟩ := isOrphanedTerminalDeadline_eq_true.mp horph
    obtain ⟨timeout, rfl⟩ := hkind outcome hout
    exact hne timeout rfl

/-! ### A timeout of an hour -/

theorem parsesDeadlines_parseHyphenated : ParsesDeadlines Uuid.parseHyphenated := by
  intro run
  have hdrop : String.ofList ((deadlineTimerPrefix ++ run.display).toList.drop deadlineTimerPrefix.length) = run.display := by
    rw [String.toList_append, ← String.length_toList, List.drop_left, String.ofList_toList]
  have hstarts : deadlineTimerPrefix.toList.isPrefixOf (deadlineTimerPrefix ++ run.display).toList = true := by
    rw [String.toList_append, List.isPrefixOf_iff_prefix]
    exact List.prefix_append _ _
  rw [deadlineTimerId, deadlineRunId, if_pos hstarts, hdrop, RunId.display,
    Uuid.parseHyphenated_display]
  rfl

/-- Starts the run in an empty history. -/
def startIfNew (run : RunId) (history : List Event) : Option EventBody :=
  if history.isEmpty then some (.workflowStarted "billing" Payload.empty run none ⟨"v1"⟩) else none

theorem regular_startIfNew {run : RunId} (history : List Event) (body : EventBody)
    (envelope : EventEnvelope) (h : startIfNew run history = some body) :
    Regular id history ⟨envelope, body⟩ := by
  unfold startIfNew at h
  split_ifs at h with hemp
  cases h
  rw [List.isEmpty_iff] at hemp
  subst hemp
  exact ⟨.start (by simp), rfl, by rintro _ _ ⟨⟩, fun _ => rfl⟩

/-- Starts the deadline of the last run while it has not ended. -/
def armIfOpen (run : RunId) (fireAt : Instant) (history : List Event) : Option EventBody :=
  if lastRunId? history = some run ∧ activeRunHasTerminal history = false then
    some (.timerStarted (deadlineTimerId run) fireAt)
  else none

theorem regular_armIfOpen {run : RunId} (history : List Event) (body : EventBody)
    (envelope : EventEnvelope) (h : armIfOpen run fireAt history = some body) :
    Regular id history ⟨envelope, body⟩ := by
  unfold armIfOpen at h
  split_ifs at h with hopen
  cases h
  refine ⟨.other rfl, rfl, ?_, fun _ => rfl⟩
  rintro _ _ ⟨⟩
  exact ⟨hopen.2, fun _ => ⟨run, hopen.1, rfl⟩⟩

/-- A run is started, and its deadline; then it completes, and its engine stops before the
deadline is retired. -/
def completedThenStopped (fireAt : Instant) : List (Action DeadlineActor) :=
  [.opened 0 (.writing ⟨7⟩ (startIfNew ⟨1⟩) regular_startIfNew), .advance 0, .advance 0, .advance 0,
    .opened 1 (.writing ⟨7⟩ (armIfOpen ⟨1⟩ fireAt) regular_armIfOpen), .advance 1, .advance 1,
      .advance 1,
    .opened 2 (.complete true ⟨7⟩ ⟨1⟩ Payload.empty), .advance 2, .advance 2, .advance 2,
      .advance 2]

/-- Where that leaves the store. -/
def runStopped (fireAt : Instant) :
    Option (List (DeadlineSystem × DeadlineLabel) × DeadlineSystem) :=
  noDeadlineActors.exec deadlineService
    (fun actor => actor.program Uuid.parseHyphenated (billingEnvironment ⟨1⟩))
    (completedThenStopped fireAt)

theorem run_of_runStopped {steps : List (DeadlineSystem × DeadlineLabel)} {s : DeadlineSystem}
    (h : runStopped fireAt = some (steps, s)) :
    Run deadlineService (deadlinePrograms Uuid.parseHyphenated) noDeadlineActors steps s :=
  System.run_of_exec (fun _ => ⟨billingEnvironment ⟨1⟩, rfl⟩) h

/-- An hour after 1970 began. -/
def oneHour : Instant := 3600 * 1000000000

/-- The row of the run's deadline. -/
def deadlineRow (fireAt : Instant) : TimerRows :=
  (∅ : AList _).insert (⟨7⟩, deadlineTimerId ⟨1⟩) fireAt

/-- The libSQL backend, with a parser that knows one instant. -/
def hourBackend : TimerBackend := .libSql (fun _ => .ok oneHour) TimerId.display

/-- The sweep at the next start. -/
def sweepAtStart (backend : TimerBackend) (store : InMemoryStore) :
    Except StartFailure Unit × InMemoryStore :=
  storeService.run (sweepUncancelledTerminalDeadlines Uuid.parseHyphenated 20 backend .coldBoot
      (fun _ => false)
    (deadlineRow oneHour)) store

/-- What is recorded then; whether the deadline is orphaned, whether the sweep completes and
whether it is orphaned after that. -/
def stoppedAndSwept (backend : TimerBackend) : Option (List String × Bool × Bool × Bool) :=
  (runStopped oneHour).map fun (_, s) =>
    ((s.store.history ⟨7⟩).map (·.body.kind), isOrphanedTerminalDeadline Uuid.parseHyphenated (s.store.history ⟨7⟩) ⟨1⟩,
      (sweepAtStart backend s.store.store).1.isOk,
      isOrphanedTerminalDeadline Uuid.parseHyphenated ((sweepAtStart backend s.store.store).2.history ⟨7⟩) ⟨1⟩)

/-- A sweep that is done. -/
theorem sweepAtStart_ok {store : InMemoryStore} (h : (sweepAtStart backend store).1.isOk = true) :
    sweepAtStart backend store = (.ok (), (sweepAtStart backend store).2) := by
  generalize sweepAtStart backend store = swept at h
  obtain ⟨failure | ⟨⟩, store'⟩ := swept
  · cases h
  · rfl

/-- A backend that compares instants has the deadline retired at the next start. -/
theorem deadline_discipline_billing :
    ∃ steps s,
    Run deadlineService (deadlinePrograms Uuid.parseHyphenated) noDeadlineActors steps s ∧
      isOrphanedTerminalDeadline Uuid.parseHyphenated (s.store.history ⟨7⟩) ⟨1⟩ = true ∧
      (sweepAtStart .byInstant s.store.store).1 = .ok () ∧
      isOrphanedTerminalDeadline Uuid.parseHyphenated
        ((sweepAtStart .byInstant s.store.store).2.history ⟨7⟩) ⟨1⟩ = false ∧
      KeepsDeadlines Uuid.parseHyphenated steps s := by
  have hseen : stoppedAndSwept .byInstant =
      some (["WorkflowStarted", "TimerStarted", "WorkflowCompleted"], true, true, false) := by decide +kernel
  obtain ⟨⟨steps, s⟩, hstopped, hseen⟩ := Option.map_eq_some_iff.mp hseen
  have hrun := run_of_runStopped hstopped
  have hkeeps := deadline_discipline parsesDeadlines_parseHyphenated hrun
  simp only [Prod.mk.injEq] at hseen
  obtain ⟨-, horph, hcompleted, -⟩ := hseen
  have hsweep := sweepAtStart_ok hcompleted
  refine ⟨steps, s, hrun, horph, by rw [hsweep], ?_, hkeeps⟩
  -- The row fires well within the horizon.
  refine (hkeeps.swept .byInstant 20 _ (deadlineRow oneHour) _ hsweep ⟨7⟩ ⟨1⟩).mpr (.inr ?_)
  exact ⟨⟨(⟨7⟩, deadlineTimerId ⟨1⟩), oneHour⟩, by decide, rfl,
      parsesDeadlines_parseHyphenated ⟨1⟩, by decide⟩

/-- With the libSQL backend the sweep's horizon is a text below that of the row, and the deadline is
left with its completed run. -/
theorem deadline_orphaned_libSql :
    ¬ ∀ steps s, Run deadlineService (deadlinePrograms Uuid.parseHyphenated)
      noDeadlineActors steps s →
      ∀ now live rows store',
        storeService.run (sweepUncancelledTerminalDeadlines Uuid.parseHyphenated now hourBackend
            .coldBoot live rows)
            s.store.store = (.ok (), store') →
          ∀ id run, (∃ row ∈ rows.entries, row.1.1 = id ∧
              deadlineRunId Uuid.parseHyphenated row.1.2 = some run) →
            isOrphanedTerminalDeadline Uuid.parseHyphenated (store'.history id) run = false := by
  intro h
  have hseen : stoppedAndSwept hourBackend =
      some (["WorkflowStarted", "TimerStarted", "WorkflowCompleted"], true, true, true) := by decide +kernel
  obtain ⟨⟨steps, s⟩, hstopped, hseen⟩ := Option.map_eq_some_iff.mp hseen
  simp only [Prod.mk.injEq] at hseen
  obtain ⟨-, -, hcompleted, horph⟩ := hseen
  -- The caller goes with its engine.
  have hstop := (run_of_runStopped hstopped).snoc (@Step.closed _ _ _ _ _ _ deadlineService _ s 2)
  have hsweep : sweepAtStart hourBackend (s.setClient 2 none).store.store = _ :=
    sweepAtStart_ok hcompleted
  have hretd := h _ _ hstop 20 _ (deadlineRow oneHour) _ hsweep ⟨7⟩ ⟨1⟩
    ⟨⟨(⟨7⟩, deadlineTimerId ⟨1⟩), oneHour⟩, by decide, rfl, parsesDeadlines_parseHyphenated ⟨1⟩⟩
  cases horph.symm.trans hretd

end Aion
