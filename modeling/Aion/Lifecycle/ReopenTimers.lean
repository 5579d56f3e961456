import Aion.Core.TimerMarks
import Aion.Library.FiniteMaps
import Mathlib.Data.List.Induction
import Mathlib.Data.List.Nodup

/-!
# The timers a reopen arms again

A reopened run gets back the timers that were outstanding when it failed and those the cancel
teardown retired (`rearmable_timers`, `lifecycle/reopen.rs`). The scan keeps a map from a timer to
its last start, out of which fires and cancellations take it again, and a list of the timers in the
order they were first seen.

`rearmable_timers_exact`: as long as a timer is settled only while it is live, the list holds each
timer once, exactly when its last event is a start or a teardown cancellation, with the instant of
its last start. The starts a reopen records for the timers of the second kind make them timers of
the first kind, so a second scan finds the same timers and nothing more to record.
-/

namespace Aion

open Scan FiniteMaps

/-! ### The scan -/

/-- `TimerTrace`. -/
structure TimerTrace where
  fireAt : Instant
  lastWasTeardownCancel : Option Bool
  deriving DecidableEq

/-- `RearmTimer`: a durable timer a reopened or resumed run must get back. -/
structure RearmTimer where
  timerId : TimerId
  /-- The original deadline. -/
  fireAt : Instant
  /-- The cancel teardown recorded `TimerCancelled` for this timer, so a fresh `TimerStarted` must
  be appended to make it live again. -/
  needsRestartMarker : Bool
  deriving DecidableEq

/-- The two variables of the loop. -/
structure TimerScan where
  traces : Map TimerId TimerTrace
  order : List TimerId

/-- One event of the loop in `rearmable_timers`. -/
def TimerScan.step (scan : TimerScan) (event : Event) : TimerScan :=
  match event.body with
  | .timerStarted timerId fireAt =>
    { traces := scan.traces.insert timerId ⟨fireAt, none⟩
      order := if timerId ∈ scan.traces then scan.order else scan.order ++ [timerId] }
  | .timerFired timerId => { scan with traces := scan.traces.erase timerId }
  | .timerCancelled timerId cause =>
    match scan.traces.lookup timerId with
    | none => scan
    | some trace =>
      match cause with
      | .cancelTeardown => { scan with traces := scan.traces.insert timerId { trace with lastWasTeardownCancel := some true } }
      | .workflowIntent => { scan with traces := scan.traces.erase timerId }
  | _ => scan

/-- What the loop leaves of a segment. -/
def TimerScan.of (segment : List Event) : TimerScan := segment.foldl TimerScan.step ⟨∅, []⟩

/-- The traces in the order of the ids; each is taken out of the map as it is listed. -/
def takeInOrder : List TimerId → Map TimerId TimerTrace → List RearmTimer
  | [], _ => []
  | timerId :: rest, traces =>
    match traces.lookup timerId with
    | none => takeInOrder rest traces
    | some trace => ⟨timerId, trace.fireAt, trace.lastWasTeardownCancel = some true⟩ :: takeInOrder rest (traces.erase timerId)

/-- `rearmable_timers`. -/
def rearmableTimers (segment : List Event) : List RearmTimer :=
  takeInOrder (TimerScan.of segment).order (TimerScan.of segment).traces

variable {segment : List Event} {event : Event} {timerId : TimerId} {timer : RearmTimer}
  {scan : TimerScan}

theorem TimerScan.of_concat :
    TimerScan.of (segment ++ [event]) = (TimerScan.of segment).step event := by
  rw [TimerScan.of, List.foldl_append]
  rfl

/-! ### What is listed -/

variable {traces : Map TimerId TimerTrace} {appended : List Event} {order : List TimerId}

theorem lookup_of_mem_takeInOrder (h : timer ∈ takeInOrder order traces) :
    (traces.lookup timer.timerId).isSome := by
  induction order generalizing traces with
  | nil => simp [takeInOrder] at h
  | cons first rest ih =>
    rw [takeInOrder] at h
    cases hfst : traces.lookup first with
    | none => exact ih (by simpa only [hfst] using h)
    | some trace =>
      simp only [hfst, List.mem_cons] at h
      rcases h with rfl | h
      · simp [hfst]
      · have hrest := ih h
        rw [lookup_erase_eq] at hrest
        split_ifs at hrest
        · cases hrest
        · exact hrest

/-- No timer is listed twice, however often its id stands in the order. -/
theorem nodup_takeInOrder (order : List TimerId) (traces : Map TimerId TimerTrace) :
    ((takeInOrder order traces).map RearmTimer.timerId).Nodup := by
  induction order generalizing traces with
  | nil => exact .nil
  | cons first rest ih =>
    rw [takeInOrder]
    cases hfst : traces.lookup first with
    | none => exact ih traces
    | some trace =>
      refine List.nodup_cons.mpr ⟨fun hmem => ?_, ih _⟩
      obtain ⟨timer, htimer, heq⟩ := List.mem_map.mp hmem
      have hsome := lookup_of_mem_takeInOrder htimer
      rw [heq, AList.lookup_erase] at hsome
      cases hsome

/-- The timers of the map are listed when the order knows them. -/
theorem mem_takeInOrder_iff :
    timer ∈ takeInOrder order traces ↔
      timer.timerId ∈ order ∧ ∃ trace, traces.lookup timer.timerId = some trace ∧
        timer = ⟨timer.timerId, trace.fireAt, trace.lastWasTeardownCancel = some true⟩ := by
  induction order generalizing traces with
  | nil => simp [takeInOrder]
  | cons first rest ih =>
    rw [takeInOrder]
    cases hfst : traces.lookup first with
    | none =>
      rw [ih, List.mem_cons]
      constructor
      · exact fun ⟨hmem, htrace⟩ => ⟨.inr hmem, htrace⟩
      · rintro ⟨hmem | hmem, trace, htrace, heq⟩
        · rw [hmem, hfst] at htrace
          cases htrace
        · exact ⟨hmem, trace, htrace, heq⟩
    | some trace =>
      rw [List.mem_cons, ih, List.mem_cons]
      constructor
      · rintro (rfl | ⟨hmem, found, hfd, heq⟩)
        · exact ⟨.inl rfl, trace, hfst, rfl⟩
        · rw [lookup_erase_eq] at hfd
          split_ifs at hfd
          exact ⟨.inr hmem, found, hfd, heq⟩
      · rintro ⟨hmem, found, hfd, heq⟩
        by_cases hfst' : timer.timerId = first
        · left
          rw [hfst', hfst, Option.some.injEq] at hfd
          rw [heq, hfst', hfd]
        · right
          refine ⟨hmem.resolve_left hfst', found, ?_, heq⟩
          rw [lookup_erase_eq, if_neg hfst', hfd]

/-- The order knows every timer of the map. -/
theorem mem_order_of_mem_traces (segment : List Event)
    (h : timerId ∈ (TimerScan.of segment).traces) : timerId ∈ (TimerScan.of segment).order := by
  induction segment using List.reverseRecOn with
  | nil => exact absurd h (AList.notMem_empty timerId)
  | append_singleton segment event ih =>
    rw [TimerScan.of_concat] at h ⊢
    obtain ⟨envelope, body⟩ := event
    cases body with
    | timerStarted started fireAt =>
      rcases AList.mem_insert _ |>.mp h with rfl | hmem
      · simp only [TimerScan.step]
        split_ifs with hknown
        · exact ih hknown
        · simp
      · simp only [TimerScan.step]
        split_ifs
        · exact ih hmem
        · exact List.mem_append_left _ (ih hmem)
    | timerFired fired => exact ih (AList.mem_erase.mp h).2
    | timerCancelled cancelled cause =>
      simp only [TimerScan.step] at h ⊢
      cases htrace : (TimerScan.of segment).traces.lookup cancelled with
      | none => exact ih (by simpa only [htrace] using h)
      | some trace =>
        simp only [htrace] at h ⊢
        cases cause with
        | cancelTeardown =>
          rcases (AList.mem_insert _).mp h with rfl | hmem
          · exact ih (AList.lookup_isSome.mp (by rw [htrace]; rfl))
          · exact ih hmem
        | workflowIntent => exact ih (AList.mem_erase.mp h).2
    | _ => exact ih h

/-! ### What the map holds -/

/-- The timer an event settles. -/
def settledTimer? (event : Event) : Option TimerId :=
  match event.body with
  | .timerFired timerId => some timerId
  | .timerCancelled timerId _ => some timerId
  | _ => none

/-- A timer is settled only while it is live: what was last said of it is a start. -/
def SettledWhileLive (segment : List Event) : Prop :=
  ∀ before event after timerId, segment = before ++ event :: after →
    settledTimer? event = some timerId →
    ∃ fireAt, newest (timerMark? timerId) before = some (.started fireAt)

theorem SettledWhileLive.init (h : SettledWhileLive (segment ++ [event])) :
    SettledWhileLive segment := by
  rintro before settled after timerId rfl hsett
  exact h before settled (after ++ [event]) timerId (by simp) hsett

theorem SettledWhileLive.last (h : SettledWhileLive (segment ++ [event]))
    (hsett : settledTimer? event = some timerId) :
    ∃ fireAt, newest (timerMark? timerId) segment = some (.started fireAt) :=
  h segment event [] timerId rfl hsett

/-- What the last event of a timer leaves in the map. -/
def traceOf (segment : List Event) (timerId : TimerId) : Option TimerTrace :=
  match newest (timerMark? timerId) segment with
  | some (.started fireAt) => some ⟨fireAt, none⟩
  | some (.cancelled .cancelTeardown) =>
    (newest (startedFor? timerId) segment).map fun fireAt => ⟨fireAt, some true⟩
  | _ => none

/-- An event that does not speak of the timer leaves its trace alone. -/
theorem traceOf_concat_of_none (h : timerMark? timerId event = none) :
    traceOf (segment ++ [event]) timerId = traceOf segment timerId := by
  have hstrt : startedFor? timerId event = none := by
    rw [Option.eq_none_iff_forall_ne_some]
    intro fireAt hfireAt
    rw [timerMark?_eq_started_iff.mpr hfireAt] at h
    cases h
  simp [traceOf, newest_concat, h, hstrt]

theorem lookup_traces (hlive : SettledWhileLive segment) (timerId : TimerId) :
    (TimerScan.of segment).traces.lookup timerId = traceOf segment timerId := by
  induction segment using List.reverseRecOn with
  | nil => rfl
  | append_singleton segment event ih =>
    have hbef := ih hlive.init
    rw [TimerScan.of_concat]
    by_cases hmark : timerMark? timerId event = none
    · -- the event is of another timer, or of none
      rw [traceOf_concat_of_none hmark, ← hbef]
      obtain ⟨envelope, body⟩ := event
      cases body with
      | timerStarted started fireAt =>
        have hne : timerId ≠ started := fun h => by simp [timerMark?, h] at hmark
        exact AList.lookup_insert_ne hne
      | timerFired fired =>
        have hne : timerId ≠ fired := fun h => by simp [timerMark?, h] at hmark
        exact AList.lookup_erase_ne hne
      | timerCancelled cancelled cause =>
        have hne : timerId ≠ cancelled := fun h => by simp [timerMark?, h] at hmark
        simp only [TimerScan.step]
        cases (TimerScan.of segment).traces.lookup cancelled with
        | none => rfl
        | some trace =>
          cases cause with
          | cancelTeardown => exact AList.lookup_insert_ne hne
          | workflowIntent => exact AList.lookup_erase_ne hne
      | _ => rfl
    · obtain ⟨envelope, body⟩ := event
      cases body with
      | timerStarted started fireAt =>
        obtain rfl : started = timerId := by simpa [timerMark?] using hmark
        simp [TimerScan.step, AList.lookup_insert, traceOf, timerMark?]
      | timerFired fired =>
        obtain rfl : fired = timerId := by simpa [timerMark?] using hmark
        simp [TimerScan.step, AList.lookup_erase, traceOf, timerMark?]
      | timerCancelled cancelled cause =>
        obtain rfl : cancelled = timerId := by simpa [timerMark?] using hmark
        -- the timer was live, so its trace is that of its start
        obtain ⟨fireAt, hstrt⟩ := hlive.last rfl
        have htrace : (TimerScan.of segment).traces.lookup cancelled = some ⟨fireAt, none⟩ := by
          rw [hbef, traceOf, hstrt]
        cases cause with
        | cancelTeardown =>
          simp [TimerScan.step, htrace, AList.lookup_insert, traceOf, timerMark?, startedFor?,
            newest_startedFor?_of_started hstrt]
        | workflowIntent => simp [TimerScan.step, htrace, AList.lookup_erase, traceOf, timerMark?]
      | _ => exact absurd rfl hmark

/-- The timers to arm again are those whose last event is a start or a teardown cancellation. -/
theorem mem_rearmableTimers_iff (hlive : SettledWhileLive segment) :
    timer ∈ rearmableTimers segment ↔
      newest (startedFor? timer.timerId) segment = some timer.fireAt ∧
      newest (timerMark? timer.timerId) segment =
        some (if timer.needsRestartMarker then .cancelled .cancelTeardown else
            .started timer.fireAt) := by
  have hmem : timer ∈ rearmableTimers segment ↔
      ∃ trace, traceOf segment timer.timerId = some trace ∧
        timer = ⟨timer.timerId, trace.fireAt, trace.lastWasTeardownCancel = some true⟩ := by
    rw [rearmableTimers, mem_takeInOrder_iff, lookup_traces hlive]
    refine and_iff_right_of_imp fun ⟨trace, htrace, _⟩ => mem_order_of_mem_traces segment ?_
    rw [← AList.lookup_isSome, lookup_traces hlive, htrace]
    rfl
  rw [hmem]
  obtain ⟨timerId, fireAt, needsRestartMarker⟩ := timer
  constructor
  · rintro ⟨trace, htrace, heq⟩
    simp only [RearmTimer.mk.injEq, true_and] at heq
    obtain ⟨rfl, rfl⟩ := heq
    unfold traceOf at htrace
    split at htrace
    · next fireAt hstrt =>
      cases htrace
      exact ⟨newest_startedFor?_of_started hstrt, by simp [hstrt]⟩
    · next hcanc =>
      obtain ⟨fireAt, hfireAt, rfl⟩ := Option.map_eq_some_iff.mp htrace
      exact ⟨hfireAt, by simp [hcanc]⟩
    · cases htrace
  · rintro ⟨hfireAt, hmark⟩
    cases needsRestartMarker with
    | false =>
      have hstrt : newest (timerMark? timerId) segment = some (.started fireAt) := hmark
      exact ⟨⟨fireAt, none⟩, by simp [traceOf, hstrt], by simp⟩
    | true =>
      have hcanc : newest (timerMark? timerId) segment = some (.cancelled .cancelTeardown) := hmark
      have hstart : newest (startedFor? timerId) segment = some fireAt := hfireAt
      exact ⟨⟨fireAt, some true⟩, by simp [traceOf, hcanc, hstart], by simp⟩

/-! ### The restart markers -/

/-- The timers for which a reopen records a fresh start. -/
def restartTimers (segment : List Event) : List RearmTimer :=
  (rearmableTimers segment).filter RearmTimer.needsRestartMarker

/-- What a reopen appends: the marker, and a start for each timer that needs one. -/
def IsReopen (segment appended : List Event) : Prop :=
  ∃ runId reopened, appended.map Event.body =
    .workflowReopened runId reopened :: (restartTimers segment).map fun timer =>
      .timerStarted timer.timerId timer.fireAt

/-- Starts of timers that the map holds only renew their traces. -/
theorem foldl_starts {timers : List RearmTimer} {starts : List Event}
    (hstarts : starts.map Event.body = timers.map fun timer =>
        .timerStarted timer.timerId timer.fireAt)
    (hknown : ∀ timer ∈ timers, timer.timerId ∈ scan.traces) :
    starts.foldl TimerScan.step scan =
      ⟨insertAll scan.traces timers RearmTimer.timerId fun timer => ⟨timer.fireAt, none⟩,
          scan.order⟩ := by
  induction timers generalizing starts scan with
  | nil =>
    obtain rfl := List.map_eq_nil_iff.mp hstarts
    rfl
  | cons timer timers ih =>
    obtain ⟨start, starts, rfl, hstart, hrest⟩ := List.map_eq_cons_iff.mp hstarts
    obtain ⟨htimer, htimers⟩ := List.forall_mem_cons.mp hknown
    have hstep : scan.step start = ⟨scan.traces.insert timer.timerId ⟨timer.fireAt, none⟩, scan.order⟩ := by
      simp [TimerScan.step, hstart, htimer]
    rw [List.foldl_cons, hstep]
    exact ih hrest fun later hlat => (AList.mem_insert _).mpr (.inr (htimers later hlat))

/-- The same timers with the same instants, and none is marked. -/
def Renews (traces renewed : Map TimerId TimerTrace) : Prop :=
  ∀ timerId, (renewed.lookup timerId).map
    (fun trace => (trace.fireAt, decide (trace.lastWasTeardownCancel = some true))) =
    (traces.lookup timerId).map fun trace => (trace.fireAt, false)

theorem takeInOrder_of_renews {renewed : Map TimerId TimerTrace} (h : Renews traces renewed)
    (order : List TimerId) :
    takeInOrder order renewed = (takeInOrder order traces).map fun timer =>
      { timer with needsRestartMarker := false } := by
  induction order generalizing traces renewed with
  | nil => rfl
  | cons first rest ih =>
    have hfst := h first
    rw [takeInOrder, takeInOrder]
    cases htrace : traces.lookup first with
    | none =>
      rw [htrace, Option.map_none, Option.map_eq_none_iff] at hfst
      simpa only [hfst] using ih h
    | some trace =>
      rw [htrace, Option.map_some, Option.map_eq_some_iff] at hfst
      obtain ⟨trace', htrace', heq⟩ := hfst
      obtain ⟨hfireAt, hmarked⟩ := Prod.mk.inj heq
      have hrest : Renews (traces.erase first) (renewed.erase first) := by
        intro timerId
        rw [lookup_erase_eq, lookup_erase_eq]
        split_ifs
        · rfl
        · exact h timerId
      simp [htrace', ih hrest, hfireAt, hmarked]

/-- The starts renew what the map holds. -/
theorem renews_restarts (segment : List Event) :
    Renews (TimerScan.of segment).traces
      (insertAll (TimerScan.of segment).traces (restartTimers segment) RearmTimer.timerId
          fun timer => ⟨timer.fireAt, none⟩) := by
  intro timerId
  by_cases hmarked : timerId ∈ (restartTimers segment).map RearmTimer.timerId
  · obtain ⟨timer, htimer, rfl⟩ := List.mem_map.mp hmarked
    have hnd : ((restartTimers segment).map RearmTimer.timerId).Nodup :=
      (nodup_takeInOrder _ _).sublist (List.filter_sublist.map _)
    obtain ⟨-, trace, htrace, heq⟩ := mem_takeInOrder_iff.mp (List.mem_filter.mp htimer).1
    rw [lookup_insertAll_of_mem hnd htimer, htrace, heq]
    simp
  · have hother : ∀ timer ∈ restartTimers segment, timer.timerId ≠ timerId :=
      fun timer htimer heq => hmarked (List.mem_map.mpr ⟨timer, htimer, heq⟩)
    rw [lookup_insertAll_of_notMem hother]
    cases htrace : (TimerScan.of segment).traces.lookup timerId with
    | none => rfl
    | some trace =>
      -- a marked trace would be among the restarts
      have hclear : trace.lastWasTeardownCancel ≠ some true := by
        intro hteardown
        have hmem : (⟨timerId, trace.fireAt, true⟩ : RearmTimer) ∈ rearmableTimers segment := by
          refine mem_takeInOrder_iff.mpr ⟨mem_order_of_mem_traces segment ?_, trace, htrace, by simp [hteardown]⟩
          exact AList.lookup_isSome.mp (by rw [htrace]; rfl)
        exact hother _ (List.mem_filter.mpr ⟨hmem, rfl⟩) rfl
      simp [hclear]

/-- Events that settle no timer may follow. -/
theorem SettledWhileLive.append (hlive : SettledWhileLive segment)
    (happd : ∀ event ∈ appended, settledTimer? event = none) :
    SettledWhileLive (segment ++ appended) := by
  intro before event after timerId hspl hsett
  have hold : event ∉ appended := by
    intro hmem
    rw [happd event hmem] at hsett
    cases hsett
  obtain ⟨rest, rfl⟩ := split_of_notMem hspl hold
  exact hlive before event rest timerId rfl hsett

/-- A timer that was cancelled last was live, so it has a start. -/
theorem exists_start_of_cancelled (hlive : SettledWhileLive segment) {timerId : TimerId}
    {cause : TimerCancelCause}
    (hcanc : newest (timerMark? timerId) segment = some (.cancelled cause)) :
    ∃ fireAt, newest (startedFor? timerId) segment = some fireAt := by
  obtain ⟨before, event, after, rfl, hmark, hafter⟩ := newest_eq_some_iff.mp hcanc
  have hsett : settledTimer? event = some timerId := by
    obtain ⟨envelope, body⟩ := event
    cases body <;> simp [timerMark?] at hmark
    simp [settledTimer?, hmark]
  obtain ⟨fireAt, hstrt⟩ := hlive before event after timerId rfl hsett
  have hlat : ∀ later ∈ event :: after, startedFor? timerId later = none := by
    intro later hlat
    rw [Option.eq_none_iff_forall_ne_some]
    intro fireAt hstart
    have hmark' := timerMark?_eq_started_iff.mpr hstart
    rcases List.mem_cons.mp hlat with rfl | hlat
    · rw [hmark] at hmark'
      cases hmark'
    · rw [hafter later hlat] at hmark'
      cases hmark'
  refine ⟨fireAt, ?_⟩
  rw [newest_append, newest_eq_none_iff.mpr hlat, Option.none_or]
  exact newest_startedFor?_of_started hstrt

theorem mem_timerIds_iff (hlive : SettledWhileLive segment) {timerId : TimerId} :
    timerId ∈ (rearmableTimers segment).map RearmTimer.timerId ↔
      (∃ fireAt, newest (timerMark? timerId) segment = some (.started fireAt)) ∨
        newest (timerMark? timerId) segment = some (.cancelled .cancelTeardown) := by
  constructor
  · intro hmem
    obtain ⟨⟨timerId, fireAt, marked⟩, htimer, rfl⟩ := List.mem_map.mp hmem
    obtain ⟨-, hmark⟩ := (mem_rearmableTimers_iff hlive).mp htimer
    cases marked with
    | false => exact .inl ⟨fireAt, hmark⟩
    | true => exact .inr hmark
  · rintro (⟨fireAt, hstrt⟩ | hcanc)
    · exact List.mem_map.mpr ⟨⟨timerId, fireAt, false⟩,
        (mem_rearmableTimers_iff hlive).mpr ⟨newest_startedFor?_of_started hstrt, hstrt⟩, rfl⟩
    · obtain ⟨fireAt, hfireAt⟩ := exists_start_of_cancelled hlive hcanc
      exact List.mem_map.mpr ⟨⟨timerId, fireAt, true⟩, (mem_rearmableTimers_iff hlive).mpr ⟨hfireAt, hcanc⟩, rfl⟩

/-- What a reopen appends settles no timer. -/
theorem IsReopen.settles_none (h : IsReopen segment appended) :
    ∀ event ∈ appended, settledTimer? event = none := by
  obtain ⟨runId, reopened, hbodies⟩ := h
  intro event hev
  have hbody : event.body ∈ appended.map Event.body := List.mem_map_of_mem hev
  rw [hbodies] at hbody
  rcases List.mem_cons.mp hbody with hbody | hbody
  · simp [settledTimer?, hbody]
  · obtain ⟨timer, -, hstart⟩ := List.mem_map.mp hbody
    simp [settledTimer?, ← hstart]

/-- Behind it the same timers are listed, and none is marked. -/
theorem IsReopen.rearmableTimers_eq (h : IsReopen segment appended) :
    rearmableTimers (segment ++ appended) = (rearmableTimers segment).map fun timer =>
      { timer with needsRestartMarker := false } := by
  obtain ⟨runId, reopened, hbodies⟩ := h
  obtain ⟨marker, starts, rfl, hmarker, hstarts⟩ := List.map_eq_cons_iff.mp hbodies
  have hknown : ∀ timer ∈ restartTimers segment, timer.timerId ∈ (TimerScan.of segment).traces := by
    intro timer htimer
    obtain ⟨-, trace, htrace, -⟩ := mem_takeInOrder_iff.mp (List.mem_filter.mp htimer).1
    exact AList.lookup_isSome.mp (by rw [htrace]; rfl)
  have hscan : TimerScan.of (segment ++ marker :: starts) = starts.foldl TimerScan.step (TimerScan.of segment) := by
    rw [TimerScan.of, List.foldl_append, List.foldl_cons]
    simp only [TimerScan.step, hmarker]
    rfl
  rw [rearmableTimers, hscan, foldl_starts hstarts hknown]
  exact takeInOrder_of_renews (renews_restarts segment) _

/-- **The timers to arm again.** Each is listed once, exactly when the last event of the timer is a
start or a teardown cancellation, with the instant of its last start and a marker in the second
case. What a reopen then appends leaves the same timers, and no marker. -/
theorem rearmable_timers_exact {segment : List Event} (hlive : SettledWhileLive segment) :
    ((rearmableTimers segment).map RearmTimer.timerId).Nodup ∧
    (∀ timerId, timerId ∈ (rearmableTimers segment).map RearmTimer.timerId ↔
      (∃ fireAt, newest (timerMark? timerId) segment = some (.started fireAt)) ∨
        newest (timerMark? timerId) segment = some (.cancelled .cancelTeardown)) ∧
    (∀ timer ∈ rearmableTimers segment, newest (startedFor? timer.timerId) segment =
        some timer.fireAt ∧
      (timer.needsRestartMarker ↔ newest (timerMark? timer.timerId) segment =
          some (.cancelled .cancelTeardown))) ∧
    ∀ appended, IsReopen segment appended →
      SettledWhileLive (segment ++ appended) ∧
      rearmableTimers (segment ++ appended) = (rearmableTimers segment).map fun timer =>
        { timer with needsRestartMarker := false } := by
  refine ⟨nodup_takeInOrder _ _, fun timerId => mem_timerIds_iff hlive, fun timer htimer =>
      ?_, fun appended happd => ?_⟩
  · obtain ⟨hfireAt, hmark⟩ := (mem_rearmableTimers_iff hlive).mp htimer
    refine ⟨hfireAt, ?_⟩
    rw [hmark]
    cases timer.needsRestartMarker <;> simp
  · exact ⟨hlive.append happd.settles_none, happd.rearmableTimers_eq⟩

/-- A sleep that the cancel teardown retired. -/
def tornDownSleep : List Event :=
  numbered [.timerStarted (.named "sleep") 30, .timerCancelled (.named "sleep") .cancelTeardown]

/-- The reopen gives the sleep back, with the deadline it had. -/
theorem rearmable_timers_exact_tornDownSleep :
    rearmableTimers tornDownSleep = [⟨.named "sleep", 30, true⟩] ∧
      rearmableTimers (tornDownSleep ++ [⟨⟨3, 0, ⟨0⟩⟩, .workflowReopened ⟨0⟩ []⟩,
          ⟨⟨4, 0, ⟨0⟩⟩, .timerStarted (.named "sleep") 30⟩]) =
        (rearmableTimers tornDownSleep).map fun timer =>
      { timer with needsRestartMarker := false } := by
  have hlive : SettledWhileLive tornDownSleep := by
    rintro (_ | ⟨first, _ | ⟨second, before⟩⟩) event after timerId hspl hsett
    · obtain ⟨rfl, -⟩ := List.cons.inj hspl
      cases hsett
    · obtain ⟨rfl, hrest⟩ := List.cons.inj hspl
      obtain ⟨rfl, -⟩ := List.cons.inj hrest
      cases hsett
      exact ⟨30, rfl⟩
    · simpa [tornDownSleep, numbered] using congrArg List.length hspl
  exact ⟨rfl, ((rearmable_timers_exact hlive).2.2.2 _ ⟨⟨0⟩, [], rfl⟩).2⟩

end Aion
