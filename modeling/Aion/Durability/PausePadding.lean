import Aion.Durability.Consumption
import Aion.Library.Padding
import Mathlib.Order.Bounds.Image

/-!
# Histories with pause markers inserted

A `PausePadding` is a history together with the same history after any number of
`WorkflowPaused` and `WorkflowResumed` events were inserted anywhere and everything was
renumbered in order.

The markers are invisible to every reader of the history but one: a started timer
takes its outcome only when that is the very next event
(`resolve_started_with_immediate_outcome`), so a marker recorded between a timer's
start and its outcome hides the outcome (`HidesOutcome`). Where it does not, a step of
the ledger over the one history is a step over the other (`ledgerStep_paused`).
-/

namespace Aion

open HistoryCursor Padding

/-! ### Histories with markers inserted -/

/-- The event is a pause marker. -/
def isPauseMarker (event : Event) : Bool :=
  match event.body with
  | .workflowPaused .. => true
  | .workflowResumed .. => true
  | _ => false

/-- The same event under another sequence number. -/
structure Renumbered (event event' : Event) : Prop where
  /-- The variant is kept. -/
  body_eq : event'.body = event.body
  /-- The timestamp is kept. -/
  recordedAt_eq : event'.recordedAt = event.recordedAt
  /-- The owner is kept. -/
  workflowId_eq : event'.workflowId = event.workflowId

/-- A history into which pause markers were inserted. -/
structure PausePadding where
  /-- The events, kept and inserted. -/
  slots : List (Slot Event Event)
  /-- Kept events are renumbered and nothing else. -/
  kept : ∀ event event', .kept event event' ∈ slots → Renumbered event event'
  /-- Inserted events are pause markers. -/
  inserted : ∀ marker, .inserted marker ∈ slots → isPauseMarker marker

namespace PausePadding

/-- The history before. -/
def history (p : PausePadding) : List Event := original p.slots

/-- The history after. -/
def paused (p : PausePadding) : List Event := padded p.slots

/-- Where an event of the history before stands in the history after. -/
def index (p : PausePadding) (k : ℕ) : ℕ := keptIndex p.slots k

variable (p : PausePadding)

theorem index_strictMono : StrictMono p.index := keptIndex_strictMono p.slots

variable {reader : Event → Bool} {events : List Event} {call : CursorCall} {event event' : Event}
  {timerId : TimerId} {k : ℕ}

/-- An event of the history before, in the history after. -/
theorem getElem?_index (h : p.history[k]? = some event) :
    ∃ event', p.paused[p.index k]? = some event' ∧ Renumbered event event' ∧
      .kept event event' ∈ p.slots := by
  rcases getElem?_keptIndex p.slots k with ⟨a, b, ha, hb⟩ | ⟨hnone, -⟩
  · obtain rfl := Option.some.inj (h.symm.trans ha)
    have hmem := List.mem_of_getElem? hb
    exact ⟨b, by simp [paused, padded, index, hb, Slot.after], p.kept _ _ hmem, hmem⟩
  · exact absurd (h.symm.trans hnone) (by simp)

theorem getElem?_index_of_none (h : p.history[k]? = none) : p.paused[p.index k]? = none := by
  rcases getElem?_keptIndex p.slots k with ⟨a, b, ha, -⟩ | ⟨-, hnone⟩
  · exact absurd (ha.symm.trans h) (by simp)
  · simp [paused, padded, index, hnone]

/-- An event of the history after is a marker or an event of the history before. -/
theorem getElem?_paused {j : ℕ} (h : p.paused[j]? = some event') :
    isPauseMarker event' ∨
      ∃ k event, p.index k = j ∧ p.history[k]? = some event ∧ Renumbered event event' := by
  rw [paused, padded, List.getElem?_map, Option.map_eq_some_iff] at h
  obtain ⟨slot, hslot, rfl⟩ := h
  have hmem := List.mem_of_getElem? hslot
  cases slot with
  | inserted marker => exact .inl (p.inserted marker hmem)
  | kept event event' =>
    obtain ⟨k, hk, hget⟩ := exists_keptIndex hslot
    exact .inr ⟨k, event, hk, hget, p.kept _ _ hmem⟩

/-! ### Readers that do not see the markers -/

/-- A reader that neither sees markers nor sequence numbers. -/
structure Blind (reader : Event → Bool) : Prop where
  /-- A renumbered event reads the same. -/
  renumbered : ∀ {event event'}, Renumbered event event' → reader event' = reader event
  /-- A marker reads as nothing. -/
  marker : ∀ {event}, isPauseMarker event → reader event = false

/-- A reader of the variant that answers `false` to markers is blind. -/
theorem blind_of_body
    (body_only : ∀ envelope envelope' body, reader ⟨envelope', body⟩ = reader ⟨envelope, body⟩)
    (paused : ∀ envelope runId reason operator,
        reader ⟨envelope, .workflowPaused runId reason operator⟩ = false)
    (resumed : ∀ envelope runId operator,
        reader ⟨envelope, .workflowResumed runId operator⟩ = false) : Blind reader where
  renumbered := by
    rintro ⟨envelope, body⟩ ⟨envelope', body'⟩ r
    obtain rfl : body' = body := r.body_eq
    exact body_only envelope envelope' body'
  marker := by
    rintro ⟨envelope, body⟩ hm
    cases body <;> first | exact paused .. | exact resumed .. | cases hm

variable {p}

theorem Blind.countP_take (blind : Blind reader) (k : ℕ) :
    (p.paused.take (p.index k)).countP reader = (p.history.take k).countP reader := by
  rw [history, ← original_take_keptIndex, paused, padded, ← List.map_take]
  exact countP_padded (fun a b h => blind.renumbered (p.kept a b (List.mem_of_mem_take h)))
    fun b h => blind.marker (p.inserted b (List.mem_of_mem_take h))

theorem Blind.any_drop (blind : Blind reader) (k : ℕ) :
    (p.paused.drop (p.index k + 1)).any reader = (p.history.drop (k + 1)).any reader := by
  rw [history, ← original_drop_keptIndex, paused, padded, ← List.map_drop]
  exact any_padded (fun a b h => blind.renumbered (p.kept a b (List.mem_of_mem_drop h)))
    fun b h => blind.marker (p.inserted b (List.mem_of_mem_drop h))

/-- A blind reader reads the same event before and after. -/
theorem Blind.any_getElem? (blind : Blind reader) (k : ℕ) :
    p.paused[p.index k]?.any reader = p.history[k]?.any reader := by
  cases h : p.history[k]? with
  | none => rw [p.getElem?_index_of_none h]
  | some event =>
    obtain ⟨event', hget, renumbered, -⟩ := p.getElem?_index h
    simp [hget, blind.renumbered renumbered]

/-- What a blind reader finds in the history after stands in the history before. -/
theorem Blind.exists_index (blind : Blind reader) {j : ℕ}
    (h : p.paused[j]?.any reader) : ∃ k, p.index k = j ∧ p.history[k]?.any reader := by
  obtain ⟨event', hget, hread⟩ := (Option.any_eq_true _ _).mp h
  rcases p.getElem?_paused hget with marker | ⟨k, event, hk, hget', renumbered⟩
  · rw [blind.marker marker] at hread
    cases hread
  · exact ⟨k, hk, by simp [hget', ← blind.renumbered renumbered, hread]⟩

theorem blind_isSignalNamed (name : String) : Blind (isSignalNamed name) :=
  blind_of_body (fun _ _ _ => rfl) (fun _ _ _ _ => rfl) fun _ _ _ => rfl

theorem blind_isChildStart : Blind isChildStart :=
  blind_of_body (fun _ _ _ => rfl) (fun _ _ _ _ => rfl) fun _ _ _ => rfl

variable (activityId : ActivityId)

theorem blind_isReopenOf : Blind (isReopenOf activityId) :=
  blind_of_body (fun _ _ _ => rfl) (fun _ _ _ _ => rfl) fun _ _ _ => rfl

theorem blind_isActivityAttemptOrOutcome :
    Blind (isActivityAttemptOrOutcome activityId) :=
  blind_of_body (fun _ _ _ => rfl) (fun _ _ _ _ => rfl) fun _ _ _ => rfl

theorem blind_isActivityEvent : Blind (isActivityEvent activityId) :=
  blind_of_body (fun _ _ _ => rfl) (fun _ _ _ _ => rfl) fun _ _ _ => rfl

theorem blind_isChildTerminalFor (child : WorkflowId) :
    Blind fun event => isChildTerminalFor event child :=
  blind_of_body (fun _ _ _ => rfl) (fun _ _ _ _ => rfl) fun _ _ _ => rfl

theorem blind_matchable : Blind fun event => (familyForEvent event).isSome :=
  blind_of_body (fun _ _ _ => rfl) (fun _ _ _ _ => rfl) fun _ _ _ => rfl

/-! ### The cursor's reads -/

theorem bind_familyForEvent_index (k : ℕ) :
    p.paused[p.index k]?.bind familyForEvent = p.history[k]?.bind familyForEvent := by
  cases h : p.history[k]? with
  | none => rw [p.getElem?_index_of_none h]
  | some event =>
    obtain ⟨event', hget, renumbered, -⟩ := p.getElem?_index h
    simp [hget, familyForEvent, renumbered.body_eq]

theorem matchable_index (k : ℕ) : Matchable p.paused (p.index k) ↔ Matchable p.history k := by
  rw [Matchable, Matchable, bind_familyForEvent_index]

/-- Correlation keys count the same events. -/
theorem keyForEvent_index (k : ℕ) : keyForEvent p.paused (p.index k) = keyForEvent p.history k := by
  unfold keyForEvent
  cases h : p.history[k]? with
  | none => rw [p.getElem?_index_of_none h]
  | some event =>
    obtain ⟨event', hget, renumbered, -⟩ := p.getElem?_index h
    rw [hget]
    obtain ⟨envelope, body⟩ := event
    obtain ⟨envelope', body'⟩ := event'
    obtain rfl : body' = body := renumbered.body_eq
    cases body' <;> simp only [(blind_isSignalNamed _).countP_take, blind_isChildStart.countP_take]

theorem accepts_index (call : CursorCall) (k : ℕ) :
    call.accepts p.paused (p.index k) = call.accepts p.history k := by
  cases call with
  | next family key => simp only [CursorCall.accepts, bind_familyForEvent_index, keyForEvent_index]
  | childTerminal child => exact (blind_isChildTerminalFor child).any_getElem? k

theorem belongsAt_index (k : ℕ) :
    belongsAt p.paused activityId (p.index k) = belongsAt p.history activityId k :=
  (blind_isActivityEvent activityId).any_getElem? k

/-- A later attempt or reopen is later in both histories. -/
theorem settlesAt_index (k : ℕ) :
    settlesAt p.paused activityId (p.index k) = settlesAt p.history activityId k := by
  unfold settlesAt
  cases h : p.history[k]? with
  | none => simp [p.getElem?_index_of_none h]
  | some event =>
    obtain ⟨event', hget, renumbered, -⟩ := p.getElem?_index h
    rw [hget]
    simp [settles, renumbered.body_eq, activityReopenedAfter, hasLaterActivityAttemptOrOutcome,
      (blind_isReopenOf activityId).any_drop,
      (blind_isActivityAttemptOrOutcome activityId).any_drop]

/-- The pending indices of the two histories correspond. -/
theorem setOf_pending (taken : Set ℕ) :
    {j | Pending p.paused (p.index '' taken) j} = p.index '' {i | Pending p.history taken i} := by
  ext j
  constructor
  · rintro ⟨hm, hnot⟩
    obtain ⟨event', hget, hfam⟩ := hm.exists_event
    obtain ⟨k, rfl, -⟩ := blind_matchable.exists_index (p := p) (j := j) (by simp [hget, hfam])
    exact ⟨k, ⟨(matchable_index k).mp hm, fun hk => hnot ⟨k, hk, rfl⟩⟩, rfl⟩
  · rintro ⟨k, ⟨hm, hnot⟩, rfl⟩
    refine ⟨(matchable_index k).mpr hm, ?_⟩
    rintro ⟨i, hi, heq⟩
    exact hnot (p.index_strictMono.injective heq ▸ hi)

/-- The settling indices of the two histories correspond. -/
theorem setOf_settlesAt (k : ℕ) :
    {t | p.index k + 1 ≤ t ∧ settlesAt p.paused activityId t} =
      p.index '' {t | k + 1 ≤ t ∧ settlesAt p.history activityId t} := by
  ext j
  constructor
  · rintro ⟨hle, hs⟩
    obtain ⟨t, rfl, -⟩ :=
      (blind_isActivityEvent activityId).exists_index (belongsAt_of_settlesAt hs)
    exact ⟨t, ⟨p.index_strictMono.lt_iff_lt.mp hle, (settlesAt_index activityId t) ▸ hs⟩, rfl⟩
  · rintro ⟨t, ⟨hle, hs⟩, rfl⟩
    exact ⟨p.index_strictMono hle, by rw [settlesAt_index]; exact hs⟩

theorem activitySpan_index (k last : ℕ) :
    activitySpan p.paused activityId (p.index k + 1) (p.index last) =
      (activitySpan p.history activityId (k + 1) last).map p.index := by
  have sorted : ((activitySpan p.history activityId (k + 1) last).map p.index).Pairwise (· < ·) :=
    List.pairwise_map.mpr ((activitySpan_pairwise _ _ _ _).imp fun h => p.index_strictMono h)
  refine (activitySpan_pairwise _ _ _ _).eq_of_mem_iff sorted fun {j} => ?_
  rw [mem_activitySpan, List.mem_map]
  constructor
  · rintro ⟨hfst, hlast, hb⟩
    obtain ⟨t, rfl, hb'⟩ := (blind_isActivityEvent activityId).exists_index hb
    exact ⟨t, mem_activitySpan.mpr ⟨p.index_strictMono.lt_iff_lt.mp hfst,
      p.index_strictMono.le_iff_le.mp hlast, hb'⟩, rfl⟩
  · rintro ⟨t, ht, rfl⟩
    obtain ⟨hfst, hlast, hb⟩ := mem_activitySpan.mp ht
    exact ⟨p.index_strictMono hfst, p.index_strictMono.le_iff_le.mpr hlast,
      by rw [belongsAt_index]; exact hb⟩

/-- An activity's walk takes corresponding indices. -/
theorem walkActivity_index (k : ℕ) :
    walkActivity p.paused activityId (p.paused.drop (p.index k + 1)) (p.index k + 1) [p.index k] =
      (walkActivity p.history activityId (p.history.drop (k + 1)) (k + 1) [k]).map
        (List.map p.index) := by
  have corr := setOf_settlesAt (p := p) activityId k
  rcases walkActivity_eq p.history activityId (k + 1) [k] with ⟨last, least, hwalk⟩ | ⟨hnone, hwalk⟩
  · have least' : IsLeast {t | p.index k + 1 ≤ t ∧ settlesAt p.paused activityId t}
      (p.index last) :=
      corr ▸ p.index_strictMono.map_isLeast.mpr least
    rcases walkActivity_eq p.paused activityId (p.index k + 1) [p.index k] with
      ⟨last', hleast', hwalk'⟩ | ⟨hnone', -⟩
    · rw [hwalk, hwalk', hleast'.unique least', activitySpan_index]
      simp
    · exact absurd least'.1.2 (hnone' _ least'.1.1)
  · rcases walkActivity_eq p.paused activityId (p.index k + 1) [p.index k] with
      ⟨last', hleast', -⟩ | ⟨-, hwalk'⟩
    · obtain ⟨t, ⟨hle, hs⟩, -⟩ : last' ∈ p.index '' {t | k + 1 ≤ t ∧ settlesAt p.history activityId t} :=
        corr ▸ hleast'.1
      exact absurd hs (hnone t hle)
    · rw [hwalk, hwalk']
      rfl

/-! ### Timers -/

/-- A call that would start a timer at `k` and take its outcome right after, but
for a marker between the two. -/
def HidesOutcome (p : PausePadding) (call : CursorCall) (k : ℕ) : Prop :=
  ∃ timerId, call = .next .timer (.timer timerId) ∧
    p.history[k + 1]?.any (fun event => isOutcomeForStartKey p.history k event (.timer timerId)) ∧
    p.index (k + 1) ≠ p.index k + 1

theorem isOutcome_renumbered {events' : List Event} {k' : ℕ}
    (renumbered : Renumbered event event') :
    isOutcomeForStartKey events' k' event' (.timer timerId) =
      isOutcomeForStartKey events k event (.timer timerId) := by
  obtain ⟨envelope, body⟩ := event
  obtain ⟨envelope', body'⟩ := event'
  obtain rfl : body' = body := renumbered.body_eq
  cases body' <;> rfl

theorem isOutcome_marker (marker : isPauseMarker event) :
    isOutcomeForStartKey events k event (.timer timerId) = false := by
  obtain ⟨envelope, body⟩ := event
  cases body <;> first | rfl | cases marker

/-- The event right after a timer's start is its outcome in the history after
exactly when it is in the history before and no marker separates the two. -/
theorem isOutcome_next (timerId : TimerId) (k : ℕ) :
    p.paused[p.index k + 1]?.any
        (fun event => isOutcomeForStartKey p.paused (p.index k) event (.timer timerId)) ↔
      p.history[k + 1]?.any (fun event => isOutcomeForStartKey p.history k event (.timer timerId)) ∧
        p.index (k + 1) = p.index k + 1 := by
  constructor
  · intro h
    obtain ⟨event', hget, hout⟩ := (Option.any_eq_true _ _).mp h
    rcases p.getElem?_paused hget with marker | ⟨t, event, ht, hget', renumbered⟩
    · rw [isOutcome_marker marker] at hout
      cases hout
    · -- the next kept event can only be the next event of the history before
      have hlt : k < t := p.index_strictMono.lt_iff_lt.mp (by omega)
      have hle : t ≤ k + 1 := by
        by_contra hgt
        have := p.index_strictMono (show k + 1 < t by omega)
        have := p.index_strictMono (show k < k + 1 by omega)
        omega
      obtain rfl : t = k + 1 := by omega
      refine ⟨?_, ht⟩
      simp only [hget', Option.any_some]
      rw [← hout]
      exact (isOutcome_renumbered renumbered).symm
  · rintro ⟨h, hadj⟩
    obtain ⟨event, hget, hout⟩ := (Option.any_eq_true _ _).mp h
    obtain ⟨event', hget', renumbered, -⟩ := p.getElem?_index hget
    rw [hadj] at hget'
    simp only [hget', Option.any_some]
    rw [← hout]
    exact isOutcome_renumbered renumbered

/-- A timer call is answered by the start of the timer it names. -/
theorem exists_timerStarted_of_accepts {key : CorrelationKey}
    (accepts : (CursorCall.next .timer key).accepts events k) :
    ∃ timerId envelope fireAt, key = .timer timerId ∧
      events[k]? = some ⟨envelope, .timerStarted timerId fireAt⟩ := by
  simp only [CursorCall.accepts, Bool.and_eq_true, beq_iff_eq] at accepts
  obtain ⟨hfam, hkey⟩ := accepts
  obtain ⟨⟨envelope, body⟩, at_index, hfam⟩ := Option.bind_eq_some_iff.mp hfam
  simp only [keyForEvent, at_index] at hkey
  cases body <;> simp only [familyForEvent, Option.some.injEq, reduceCtorEq] at hfam <;>
    simp only [keyForPositionlessEvent, reduceCtorEq] at hkey
  exact ⟨_, _, _, (Option.some.inj hkey).symm, at_index⟩

/-- A call whose outcome is not hidden takes corresponding indices. -/
theorem takes_index (accepts : call.accepts p.history k) (visible : ¬ p.HidesOutcome call k) :
    call.takes p.paused (p.index k) = (call.takes p.history k).map (List.map p.index) := by
  cases call with
  | childTerminal child => rfl
  | next family key =>
    cases family with
    | child => rfl
    | signal => rfl
    | activity =>
      cases key with
      | activity ordinal => exact walkActivity_index ⟨ordinal⟩ k
      | child ordinal => rfl
      | timer timerId => rfl
      | signal name occurrence => rfl
    | timer =>
      obtain ⟨timerId, -, -, rfl, -⟩ := exists_timerStarted_of_accepts accepts
      simp only [CursorCall.takes, isOutcome_next, Option.map_some]
      by_cases hout : p.history[k + 1]?.any
          (fun event => isOutcomeForStartKey p.history k event (.timer timerId))
      · have hadj : p.index (k + 1) = p.index k + 1 :=
          by_contra fun hsep => visible ⟨timerId, rfl, hout, hsep⟩
        simp [hout, hadj]
      · simp [hout]

/-- A hidden outcome is taken in the history before only. -/
theorem takes_of_hidesOutcome (hides : p.HidesOutcome call k) :
    call.takes p.history k = some [k, k + 1] ∧
      call.takes p.paused (p.index k) = some [p.index k] := by
  obtain ⟨timerId, rfl, hout, hsep⟩ := hides
  simp only [CursorCall.takes, isOutcome_next, hout, hsep]
  exact ⟨rfl, rfl⟩

/-! ### Corresponding answers -/

/-- Two sequence numbers of the same kept event. -/
def SameSeq (p : PausePadding) (seq seq' : ℕ) : Prop :=
  ∃ event event', .kept event event' ∈ p.slots ∧ event.seq = seq ∧ event'.seq = seq'

/-- The cursor's answers over the two histories, up to the renumbering. -/
inductive SameAnswer (p : PausePadding) (call : CursorCall) : CallResult → CallResult → Prop
  /-- The same events. -/
  | matched {events events' : List Event} (same : List.Forall₂ Renumbered events events') :
    SameAnswer p call (call.matched events) (call.matched events')
  /-- Nothing left. -/
  | exhausted : SameAnswer p call call.exhausted call.exhausted
  /-- The same event in the way. -/
  | mismatch {found found' : FoundEventDescriptor} (seq : p.SameSeq found.seq found'.seq)
    (same : found' = { found with seq := found'.seq }) :
    SameAnswer p call (call.mismatch found) (call.mismatch found')

theorem eventsAt_index (indices : List ℕ) :
    List.Forall₂ Renumbered (eventsAt p.history indices)
      (eventsAt p.paused (indices.map p.index)) := by
  induction indices with
  | nil => exact .nil
  | cons k rest ih =>
    simp only [eventsAt, List.map_cons, List.filterMap_cons]
    cases h : p.history[k]? with
    | none => rw [p.getElem?_index_of_none h]; exact ih
    | some event =>
      obtain ⟨event', hget, renumbered, -⟩ := p.getElem?_index h
      rw [hget]
      exact .cons renumbered ih

/-- **One step over the two histories**: unless it hides a timer's outcome, the
answers correspond and so do the indices taken. -/
theorem ledgerStep_paused {taken taken' : Set ℕ} {result : CallResult}
    (step : LedgerStep p.history taken call result taken')
    (visible : ∀ k, IsLeast {i | Pending p.history taken i} k → call.accepts p.history k →
      ¬ p.HidesOutcome call k) :
    ∃ result', p.SameAnswer call result result' ∧
      LedgerStep p.paused (p.index '' taken) call result' (p.index '' taken') := by
  have least' {k : ℕ} (least : IsLeast {i | Pending p.history taken i} k) :
      IsLeast {j | Pending p.paused (p.index '' taken) j} (p.index k) :=
    setOf_pending taken ▸ p.index_strictMono.map_isLeast.mpr least
  cases step with
  | exhausted none =>
    refine ⟨_, .exhausted, .exhausted fun j hj => ?_⟩
    obtain ⟨k, hk, -⟩ : j ∈ p.index '' {i | Pending p.history taken i} := setOf_pending taken ▸ hj
    exact none k hk
  | unfinished least accepts unsettled =>
    refine ⟨_, .exhausted, .unfinished (least' least) (by rwa [accepts_index]) ?_⟩
    rw [takes_index accepts (visible _ least accepts), unsettled]
    rfl
  | @matched k indices least accepts takes =>
    have takes' : call.takes p.paused (p.index k) = some (indices.map p.index) := by
      rw [takes_index accepts (visible _ least accepts), takes]
      rfl
    have grown : p.index '' (taken ∪ {i | i ∈ indices}) =
        p.index '' taken ∪ {j | j ∈ indices.map p.index} := by
      ext j
      simp [Set.image_union]
    rw [grown]
    exact ⟨_, .matched (eventsAt_index indices), .matched (least' least) (by rwa [accepts_index]) takes'⟩
  | @mismatch k event least at_index rejects =>
    obtain ⟨event', hget, renumbered, hmem⟩ := p.getElem?_index at_index
    refine ⟨_, .mismatch ⟨event, event', hmem, rfl, rfl⟩ ?_,
      .mismatch (least' least) hget (by rwa [accepts_index])⟩
    simp only [descriptorOf, keyForEvent_index, familyForEvent, renumbered.body_eq]

end PausePadding

end Aion
