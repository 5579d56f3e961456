import Aion.Runtime.CollectSteps

/-!
# The engine around a sweep

What the calls of a sweep reach (`CollectHost`) and how they may be answered
(`CollectRange.Answers`). The engine may do anything in between two calls that records no outcome of
a member: append events, deliver outcomes to the runtime maps or lose them, move the recorder's
head. A record may be refused, or be made and fail all the same.

The terminals of the members depend only on the outcomes among the events that are appended
(`CollectRange.Adds`). A member's outcome that is taken is one of them, unless the recorder drops it
(`noted_of_takeAndRecord`).
-/

namespace Aion

open Interleaving

/-! ### Terminals of a growing history -/

variable {value : Unit} {result : FanOutCompletionResult} {outcome : FanOutOutcome}
  {state : OrdinalState} {event : Event} {body : EventBody} {attempt : ℕ}

theorem ordinalStateOf_ne_none {activityId : ActivityId} (h : isActivityOutcome activityId event) :
    ordinalStateOf event ≠ .ok none := by
  obtain ⟨envelope, body⟩ := event
  cases body <;> try cases h
  case activityCompleted result attempt =>
    cases htext : payloadText result <;> simp [ordinalStateOf, htext, Except.map]
  case activityFailed => simp [ordinalStateOf]
  case activityCancelled => simp [ordinalStateOf]

/-- A member has no recorded terminal exactly when it has no outcome. -/
theorem recordedTerminal_eq_none_iff {history : List Event} {ordinal : ℕ} :
    recordedTerminal history ordinal = .ok none ↔ ordinalIsResolved history ⟨ordinal⟩ = false := by
  rw [recordedTerminal_eq, ← Bool.not_eq_true, ordinalIsResolved_iff]
  cases hfst : firstOutcome history ⟨ordinal⟩ with
  | none => simp
  | some event => simpa using ordinalStateOf_ne_none (List.find?_some hfst)

theorem recordedTerminal_append_of_none {history : List Event} {ordinal : ℕ}
    (h : recordedTerminal history ordinal = .ok none) (later : List Event) :
    recordedTerminal (history ++ later) ordinal = recordedTerminal later ordinal := by
  rw [recordedTerminal_eq_none_iff, ← Bool.not_eq_true, ordinalIsResolved_iff,
    Option.not_isSome_iff_eq_none] at h
  rw [recordedTerminal_eq, recordedTerminal_eq, firstOutcome, List.find?_append]
  rw [firstOutcome] at h
  rw [h, Option.none_or]
  rfl

/-- A recorded terminal stays. -/
theorem recordedTerminal_append_of_some {history : List Event} {ordinal : ℕ}
    (h : recordedTerminal history ordinal ≠ .ok none) (later : List Event) :
    recordedTerminal (history ++ later) ordinal = recordedTerminal history ordinal := by
  rw [Ne, recordedTerminal_eq_none_iff, Bool.not_eq_false, ordinalIsResolved_iff] at h
  obtain ⟨event, hev⟩ := Option.isSome_iff_exists.mp h
  rw [recordedTerminal_eq, recordedTerminal_eq, firstOutcome, List.find?_append]
  rw [firstOutcome] at hev
  simp [firstOutcome, hev]

/-- Outcomes of other members make no difference. -/
theorem recordedTerminal_skip {notes : List Event} {ordinal : ℕ}
    (h : ordinalIsResolved notes ⟨ordinal⟩ = false) (history later : List Event) :
    recordedTerminal (history ++ (notes ++ later)) ordinal =
      recordedTerminal (history ++ later) ordinal := by
  by_cases hnone : recordedTerminal history ordinal = .ok none
  · rw [recordedTerminal_append_of_none hnone, recordedTerminal_append_of_none hnone,
      recordedTerminal_append_of_none (recordedTerminal_eq_none_iff.mpr h)]
  · rw [recordedTerminal_append_of_some hnone, recordedTerminal_append_of_some hnone]

/-- A recorded terminal is none that is pending. -/
theorem recordedTerminal_ne_pending {history : List Event} {ordinal : ℕ}
    (h : recordedTerminal history ordinal = .ok (some state)) : state ≠ .pending := by
  rintro rfl
  rw [recordedTerminal_eq] at h
  cases hfst : firstOutcome history ⟨ordinal⟩ with
  | none => simp [hfst] at h
  | some event =>
    simp only [hfst] at h
    obtain ⟨envelope, body⟩ := event
    cases body <;> simp [ordinalStateOf] at h
    rename_i result attempt
    cases htext : payloadText result <;> simp [htext, Except.map] at h

namespace CollectRange

variable {range : CollectRange}

/-- Whether an ordinal is of a member. -/
def member (range : CollectRange) (ordinal : ℕ) : Prop :=
  range.baseOrdinal ≤ ordinal ∧ ordinal < range.baseOrdinal + range.count

instance (ordinal : ℕ) : Decidable (range.member ordinal) := inferInstanceAs (Decidable (_ ∧ _))

/-- Whether the event is an outcome of a member. -/
def settlesMember (range : CollectRange) (event : Event) : Bool :=
  match event.body with
  | .activityCompleted activityId _ _ => decide (range.member activityId.sequencePosition)
  | .activityFailed activityId _ _ => decide (range.member activityId.sequencePosition)
  | .activityCancelled activityId _ => decide (range.member activityId.sequencePosition)
  | _ => false

theorem settlesMember_of_outcome {ordinal : ℕ} (hmb : range.member ordinal)
    (h : isActivityOutcome ⟨ordinal⟩ event = true) : range.settlesMember event = true := by
  obtain ⟨envelope, body⟩ := event
  cases body <;> simp_all [isActivityOutcome, settlesMember]

/-- The terminals are those of the outcomes of members. -/
theorem recordedTerminal_filter {ordinal : ℕ} (hmb : range.member ordinal) (history : List Event) :
    recordedTerminal (history.filter range.settlesMember) ordinal =
      recordedTerminal history ordinal := by
  have hfst : firstOutcome (history.filter range.settlesMember) ⟨ordinal⟩ = firstOutcome history ⟨ordinal⟩ := by
    rw [firstOutcome, List.find?_filter, firstOutcome]
    congr 1
    funext event
    cases hout : isActivityOutcome ⟨ordinal⟩ event with
    | false => simp
    | true => simp [settlesMember_of_outcome hmb hout]
  rw [recordedTerminal_eq, hfst, ← recordedTerminal_eq]

/-- So is the winner. -/
theorem recordedRaceWinner_filter (history : List Event) :
    recordedRaceWinner (history.filter range.settlesMember) range.baseOrdinal range.count =
      recordedRaceWinner history range.baseOrdinal range.count := by
  induction history with
  | nil => rfl
  | cons event rest ih =>
    rw [List.filter_cons]
    obtain ⟨envelope, body⟩ := event
    cases body <;> simp only [settlesMember, Bool.false_eq_true, if_false, ih, recordedRaceWinner,
      decide_eq_true_eq]
    case activityCancelled activityId attempt =>
      split
      · rw [recordedRaceWinner]
        exact ih
      · exact ih
    all_goals
      split
      · rename_i hmb
        rw [member] at hmb
        simp [recordedRaceWinner, hmb]
      · rename_i hmb
        rw [if_neg (by simpa [member] using hmb)]
        exact ih

end CollectRange

/-! ### The store of a recorder -/

/-- The answers of a store of the workflow's history: an append may be refused, or made and fail all
the same. -/
def HistoryAnswers : Answers (List Event) StoreCall StoreCall.Answer
  | history, .append _ events _, .ok _, history' => history' = history ++ events
  | history, .append _ events _, .error _, history' =>
    history' = history ∨ history' = history ++ events
  | history, .appendWithOutbox _ events _ _, .ok _, history' => history' = history ++ events
  | history, .appendWithOutbox _ events _ _, .error _, history' =>
    history' = history ∨ history' = history ++ events
  | history, .readHistory _, .ok events, history' => events = history ∧ history' = history
  | history, .readHistory _, .error _, history' => history' = history
  | history, .recordVisibility _, _, history' => history' = history
  | history, .settleWorkflowOutboxRowsCancelled _, _, history' => history' = history
  | history, .settleOutboxRowCancelled _, _, history' => history' = history

section Records

variable {answers : Answers (List Event) StoreCall StoreCall.Answer} {α β : Type}
  {history history' : List Event}
  {recorder recorder' : Recorder}

/-- A sequence that succeeds has a first part that does. -/
theorem RecorderM.ends_bind_ok_iff {first : RecorderM α} {f : α → RecorderM β} {value : β} :
    ((first >>= f) recorder).Ends answers history (.ok value, recorder') history' ↔
      ∃ mid between middle, (first recorder).Ends answers history (.ok mid, between) middle ∧
        (f mid between).Ends answers middle (.ok value, recorder') history' := by
  refine ends_bind_iff.trans ?_
  constructor
  · rintro ⟨⟨failure | mid, between⟩, middle, hfst, h⟩
    · obtain ⟨hval, -⟩ := ends_done_iff.mp h
      cases hval
    · exact ⟨mid, between, middle, hfst, h⟩
  · rintro ⟨mid, between, middle, hfst, h⟩
    exact ⟨_, middle, hfst, h⟩

theorem RecorderM.ends_get_iff {value : Recorder} :
    (RecorderM.get recorder).Ends answers history (.ok value, recorder') history' ↔
      value = recorder ∧ recorder' = recorder ∧ history' = history := by
  refine ends_done_iff.trans ?_
  rw [Prod.mk.injEq, Except.ok.injEq, and_assoc]

theorem RecorderM.ends_lift_ok_iff {result : Except DurabilityError α} {value : α} :
    (RecorderM.lift result recorder).Ends answers history (.ok value, recorder') history' ↔
      result = .ok value ∧ recorder' = recorder ∧ history' = history := by
  refine ends_done_iff.trans ?_
  rw [Prod.mk.injEq, and_assoc, eq_comm]

theorem RecorderM.ends_liftStore_ok_iff {answer : Except StoreError α} {value : α} :
    (RecorderM.liftStore answer recorder).Ends answers history (.ok value, recorder') history' ↔
      answer = .ok value ∧ recorder' = recorder ∧ history' = history := by
  refine RecorderM.ends_lift_ok_iff.trans (and_congr_left fun _ => ?_)
  cases answer <;> simp [Except.mapError]

theorem RecorderM.ends_call_iff {request : StoreCall} {answer : request.Answer} :
    (RecorderM.call request recorder).Ends answers history (.ok answer, recorder') history' ↔
      answers history request answer history' ∧ recorder' = recorder := by
  refine Interleaving.ends_call_iff.trans ?_
  constructor
  · rintro ⟨answer', middle, hserv, h⟩
    obtain ⟨hsame, rfl⟩ := ends_done_iff.mp h
    obtain ⟨hans, rfl⟩ := Prod.mk.inj hsame
    obtain rfl := Except.ok.inj hans
    exact ⟨hserv, rfl⟩
  · rintro ⟨hserv, rfl⟩
    exact ⟨answer, history', hserv, .done _ _⟩

theorem history_of_markAppendSuccess {count : ℕ}
    (h : (markAppendSuccess count recorder).Ends answers history (.ok value, recorder') history') :
    history' = history := by
  obtain ⟨_, _, _, hget, hgo⟩ := RecorderM.ends_bind_ok_iff.mp h
  obtain ⟨rfl, rfl, rfl⟩ := RecorderM.ends_get_iff.mp hget
  obtain ⟨_, _, _, hlift, hmark⟩ := RecorderM.ends_bind_ok_iff.mp hgo
  obtain ⟨-, rfl, rfl⟩ := RecorderM.ends_lift_ok_iff.mp hlift
  exact (ends_done_iff.mp hmark).2

/-- An append that succeeds has appended its event. -/
theorem history_of_appendWith {recordedAt : Instant}
    (h : (appendWith recordedAt body recorder).Ends HistoryAnswers history
        (.ok value, recorder') history') :
    ∃ envelope, history' = history ++ [⟨envelope, body⟩] := by
  obtain ⟨_, _, _, hget, hgo⟩ := RecorderM.ends_bind_ok_iff.mp h
  obtain ⟨rfl, rfl, rfl⟩ := RecorderM.ends_get_iff.mp hget
  obtain ⟨envelope, _, _, hnext, hone⟩ := RecorderM.ends_bind_ok_iff.mp hgo
  obtain ⟨-, rfl, rfl⟩ := RecorderM.ends_lift_ok_iff.mp hnext
  obtain ⟨_, _, _, hget, happ⟩ := RecorderM.ends_bind_ok_iff.mp hone
  obtain ⟨rfl, rfl, rfl⟩ := RecorderM.ends_get_iff.mp hget
  obtain ⟨answer, _, _, hcall, hans⟩ := RecorderM.ends_bind_ok_iff.mp happ
  obtain ⟨hserv, rfl⟩ := RecorderM.ends_call_iff.mp hcall
  obtain ⟨_, _, _, hlift, hmark⟩ := RecorderM.ends_bind_ok_iff.mp hans
  obtain ⟨rfl, rfl, rfl⟩ := RecorderM.ends_liftStore_ok_iff.mp hlift
  obtain rfl := history_of_markAppendSuccess hmark
  exact ⟨envelope, hserv⟩

/-- A completion that is not dropped as a duplicate is appended. -/
theorem history_of_recordFanOutCompletion {recordedAt : Instant} {ordinal : ℕ}
    (hnew : ordinalIsResolved history ⟨ordinal⟩ = false)
    (h : (recordFanOutCompletion recordedAt ordinal none outcome recorder).Ends HistoryAnswers
        history (.ok result, recorder') history') :
    ∃ envelope, history' = history ++ [⟨envelope, outcome.body ⟨ordinal⟩⟩] := by
  obtain ⟨_, _, _, hget, hgo⟩ := RecorderM.ends_bind_ok_iff.mp h
  obtain ⟨rfl, rfl, rfl⟩ := RecorderM.ends_get_iff.mp hget
  obtain ⟨answer, _, _, hcall, hans⟩ := RecorderM.ends_bind_ok_iff.mp hgo
  obtain ⟨hserv, rfl⟩ := RecorderM.ends_call_iff.mp hcall
  obtain ⟨events, _, _, hlift, hdedup⟩ := RecorderM.ends_bind_ok_iff.mp hans
  obtain ⟨rfl, rfl, rfl⟩ := RecorderM.ends_liftStore_ok_iff.mp hlift
  obtain ⟨rfl, rfl⟩ := hserv
  simp only [runIdMismatchesRecorder, completionHistory, hnew, Bool.false_eq_true,
    if_false] at hdedup
  obtain ⟨_, _, _, happ, hdone⟩ := RecorderM.ends_bind_ok_iff.mp hdedup
  obtain ⟨-, rfl⟩ := ends_done_iff.mp hdone
  exact history_of_appendWith happ

theorem history_of_recordActivityCancelledAndSettleOutbox {recordedAt : Instant} {ordinal : ℕ}
    (h : (recordActivityCancelledAndSettleOutbox recordedAt ordinal attempt recorder).Ends
        HistoryAnswers history (.ok value, recorder') history') :
    ∃ envelope, history' = history ++ [⟨envelope, .activityCancelled ⟨ordinal⟩ attempt⟩] := by
  obtain ⟨_, _, _, happ, hgo⟩ := RecorderM.ends_bind_ok_iff.mp h
  obtain ⟨_, _, _, hget, hsettle⟩ := RecorderM.ends_bind_ok_iff.mp hgo
  obtain ⟨rfl, rfl, rfl⟩ := RecorderM.ends_get_iff.mp hget
  obtain ⟨answer, _, _, hcall, hans⟩ := RecorderM.ends_bind_ok_iff.mp hsettle
  obtain ⟨hserv, rfl⟩ := RecorderM.ends_call_iff.mp hcall
  obtain ⟨-, -, rfl⟩ := RecorderM.ends_liftStore_ok_iff.mp hans
  obtain rfl := hserv
  exact history_of_appendWith happ

/-- Every answer extends the history. -/
theorem historyAnswers_extends {request : StoreCall} {answer : request.Answer}
    (h : HistoryAnswers history request answer history') : history <+: history' := by
  cases request <;> cases answer
  all_goals
    simp only [HistoryAnswers] at h
    first
      | exact h ▸ List.prefix_append _ _
      | exact h ▸ List.prefix_rfl
      | exact h.2 ▸ List.prefix_rfl
      | exact h.elim (fun h => h ▸ List.prefix_rfl) fun h => h ▸ List.prefix_append _ _

/-- And so does every operation of the recorder. -/
theorem prefix_of_ends {program : Prog StoreCall StoreCall.Answer α} {value : α}
    (h : program.Ends HistoryAnswers history value history') : history <+: history' := by
  induction h with
  | done value state => exact List.prefix_rfl
  | call served rest ih => exact (historyAnswers_extends served).trans ih

end Records

/-! ### The engine around a sweep -/

/-- What the calls of a sweep reach: the workflow's stored history, its recorder, the runtime maps
of the process by ordinal, and whether an await is pinned. -/
structure CollectHost where
  history : List Event
  recorder : Recorder
  results : ℕ → Option (Payload × Option ℕ)
  errors : ℕ → Option (ActivityError × Option ℕ)
  pinned : Bool

namespace CollectHost

/-- The recorder's operation ends so, at some instant. -/
def Records {α : Type} (host : CollectHost) (operation : Instant → RecorderM α)
    (answer : Except DurabilityError α) (host' : CollectHost) : Prop :=
  ∃ recordedAt history recorder,
    (operation recordedAt host.recorder).Ends HistoryAnswers host.history
      (answer, recorder) history ∧
      host' = { host with history := history, recorder := recorder }

/-- A call is served so. -/
def Serves (host : CollectHost) : (call : CollectCall) → call.Answer → CollectHost → Prop
  | .takeActivityResult ordinal, .ok found, host' =>
    found = host.results ordinal ∧ host' =
      { host with results := Function.update host.results ordinal none }
  | .takeActivityError ordinal, .ok found, host' =>
    found = host.errors ordinal ∧ host' =
      { host with errors := Function.update host.errors ordinal none }
  | .takeActivityResult _, .error failure, host' =>
    (∃ pid, failure = .activityDeliveryPoisoned pid) ∧ host' = host
  | .takeActivityError _, .error failure, host' =>
    (∃ pid, failure = .activityDeliveryPoisoned pid) ∧ host' = host
  | .recordActivityCompleted activityId result attempt, answer, host' =>
    host.Records (recordActivityCompleted · activityId result attempt) answer host'
  | .recordActivityFailed activityId error attempt, answer, host' =>
    host.Records (recordActivityFailed · activityId error attempt) answer host'
  | .recordFanOutCompletion ordinal outcome, answer, host' =>
    host.Records (recordFanOutCompletion · ordinal none outcome) answer host'
  | .recordActivityCancelledAndSettleOutbox ordinal attempt, answer, host' =>
    host.Records (recordActivityCancelledAndSettleOutbox · ordinal attempt) answer host'
  | .removePendingAwait, _, host' => host' = { host with pinned := false }

/-- Nothing has arrived. -/
def Empty (host : CollectHost) : Prop :=
  (∀ ordinal, host.results ordinal = none) ∧ ∀ ordinal, host.errors ordinal = none

end CollectHost

namespace CollectRange

variable {range : CollectRange} {delivers : ℕ → Prop} {host host' host'' : CollectHost}
  {notes notes' : List Event}

/-- What else happens in the engine: events are appended that are no outcomes of members, the maps
come to hold outcomes of the ordinals that `delivers` allows, the recorder moves on. -/
def Elsewhere (range : CollectRange) (delivers : ℕ → Prop) (host host' : CollectHost) : Prop :=
  (∃ events, (∀ event ∈ events, range.settlesMember event = false) ∧
      host'.history = host.history ++ events) ∧
    ∀ ordinal, (host'.results ordinal).isSome ∨ (host'.errors ordinal).isSome → delivers ordinal

/-- A call is served after something else has happened. -/
def Answers (range : CollectRange) (delivers : ℕ → Prop) :
    Interleaving.Answers CollectHost CollectCall CollectCall.Answer :=
  fun host call answer host' => ∃ middle, range.Elsewhere delivers host middle ∧
    middle.Serves call answer host'

/-- The history has grown, by these outcomes of members. -/
def Adds (range : CollectRange) (host host' : CollectHost) (notes : List Event) : Prop :=
  ∃ events, host'.history = host.history ++ events ∧ events.filter range.settlesMember = notes

theorem Adds.refl (range : CollectRange) (host : CollectHost) : range.Adds host host [] :=
  ⟨[], by simp, rfl⟩

theorem Adds.trans (h : range.Adds host host' notes) (h' : range.Adds host' host'' notes') :
    range.Adds host host'' (notes ++ notes') := by
  obtain ⟨events, hhist, rfl⟩ := h
  obtain ⟨events', hhist', rfl⟩ := h'
  exact ⟨events ++ events', by rw [hhist', hhist, List.append_assoc], List.filter_append _ _⟩

theorem Elsewhere.adds (h : range.Elsewhere delivers host host') : range.Adds host host' [] := by
  obtain ⟨⟨events, hforeign, hhist⟩, -⟩ := h
  exact ⟨events, hhist, List.filter_eq_nil_iff.mpr fun event hev => by simp [hforeign event hev]⟩

theorem adds_of_eq (h : host'.history = host.history) : range.Adds host host' [] :=
  ⟨[], by simp [h], rfl⟩

/-- One outcome of a member. -/
theorem adds_one (hmb : range.settlesMember event = true)
    (h : host'.history = host.history ++ [event]) : range.Adds host host' [event] :=
  ⟨[event], h, by simp [hmb]⟩

/-- A member is unresolved as long as none of the outcomes is of it. -/
theorem Adds.resolved {ordinal : ℕ} (hmb : range.member ordinal) (h : range.Adds host host' notes) :
    ordinalIsResolved host'.history ⟨ordinal⟩ =
      (ordinalIsResolved host.history ⟨ordinal⟩ || ordinalIsResolved notes ⟨ordinal⟩) := by
  obtain ⟨events, hhist, rfl⟩ := h
  rw [hhist, ordinalIsResolved, ordinalIsResolved, ordinalIsResolved, List.any_append,
    List.any_filter]
  congr 2
  funext event
  cases hout : isActivityOutcome ⟨ordinal⟩ event with
  | false => rw [Bool.and_false]
  | true => rw [settlesMember_of_outcome hmb hout, Bool.and_self]

section Calls

variable {ordinal : ℕ}

theorem adds_of_takeResult {found : Option (Payload × Option ℕ)}
    (h : Fallible.Ends (range.Answers delivers) (CollectM.takeResult ordinal) host
        (.ok found) host') : range.Adds host host' [] ∧ (found.isSome → delivers ordinal) := by
  obtain ⟨answer, served, ⟨middle, helse, hserv⟩, hdone⟩ := ends_call_iff.mp h
  obtain ⟨rfl, rfl⟩ := ends_done_iff.mp hdone
  obtain ⟨rfl, rfl⟩ := hserv
  exact ⟨helse.adds.trans (adds_of_eq rfl), fun hsome => helse.2 ordinal (.inl hsome)⟩

theorem adds_of_takeError {found : Option (ActivityError × Option ℕ)}
    (h : Fallible.Ends (range.Answers delivers) (CollectM.takeError ordinal) host
        (.ok found) host') : range.Adds host host' [] ∧ (found.isSome → delivers ordinal) := by
  obtain ⟨answer, served, ⟨middle, helse, hserv⟩, hdone⟩ := ends_call_iff.mp h
  obtain ⟨rfl, rfl⟩ := ends_done_iff.mp hdone
  obtain ⟨rfl, rfl⟩ := hserv
  exact ⟨helse.adds.trans (adds_of_eq rfl), fun hsome => helse.2 ordinal (.inr hsome)⟩

theorem ok_of_mapError {α ε ε' : Type} {f : ε → ε'} {result : Except ε α} {value : α}
    (h : Except.ok value = result.mapError f) : result = .ok value := by
  cases result with
  | error failure => cases h
  | ok found => rw [Except.ok.inj h]

/-- An outcome event appended by the recorder. -/
theorem adds_of_append {middle : CollectHost} (helse : range.Elsewhere delivers host middle)
    (hbody : ∀ envelope, range.settlesMember ⟨envelope, body⟩ = true)
    (h : ∃ envelope, host'.history = middle.history ++ [⟨envelope, body⟩]) :
    ∃ envelope, range.Adds host host' [⟨envelope, body⟩] := by
  obtain ⟨envelope, hhist⟩ := h
  exact ⟨envelope, helse.adds.trans (adds_one (hbody envelope) hhist)⟩

theorem adds_of_recordCompleted (hmb : range.member ordinal) {result : Payload}
    (h : Fallible.Ends (range.Answers delivers)
        (CollectM.recordCompleted ⟨ordinal⟩ result attempt) host (.ok value) host') :
    ∃ envelope, range.Adds host host' [⟨envelope,
        .activityCompleted ⟨ordinal⟩ result attempt⟩] := by
  obtain ⟨answer, served, ⟨middle, helse, hserv⟩, hdone⟩ := ends_call_iff.mp h
  obtain ⟨hval, rfl⟩ := ends_done_iff.mp hdone
  obtain ⟨recordedAt, history, recorder, hends, rfl⟩ := hserv
  rw [ok_of_mapError hval] at hends
  exact adds_of_append helse (fun _ => decide_eq_true hmb) (history_of_appendWith hends)

theorem adds_of_recordFailed (hmb : range.member ordinal) {error : ActivityError}
    (h : Fallible.Ends (range.Answers delivers)
        (CollectM.recordFailed ⟨ordinal⟩ error attempt) host (.ok value) host') :
    ∃ envelope, range.Adds host host' [⟨envelope, .activityFailed ⟨ordinal⟩ error attempt⟩] := by
  obtain ⟨answer, served, ⟨middle, helse, hserv⟩, hdone⟩ := ends_call_iff.mp h
  obtain ⟨hval, rfl⟩ := ends_done_iff.mp hdone
  obtain ⟨recordedAt, history, recorder, hends, rfl⟩ := hserv
  rw [ok_of_mapError hval] at hends
  exact adds_of_append helse (fun _ => decide_eq_true hmb) (history_of_appendWith hends)

theorem adds_of_recordCancelled (hmb : range.member ordinal)
    (h : Fallible.Ends (range.Answers delivers) (recordCancelled ordinal) host (.ok value) host') :
    ∃ envelope, range.Adds host host' [⟨envelope,
        .activityCancelled ⟨ordinal⟩ firstDeliveryAttempt⟩] := by
  obtain ⟨answer, served, ⟨middle, helse, hserv⟩, hdone⟩ := ends_call_iff.mp h
  obtain ⟨hval, rfl⟩ := ends_done_iff.mp hdone
  obtain ⟨recordedAt, history, recorder, hends, rfl⟩ := hserv
  rw [ok_of_mapError hval] at hends
  exact adds_of_append helse (fun _ => decide_eq_true hmb)
    (history_of_recordActivityCancelledAndSettleOutbox hends)

/-- Through the dedup an outcome is recorded if the history has none of the ordinal, of any run. -/
theorem adds_of_recordFanOut (hmb : range.member ordinal)
    (hnew : ordinalIsResolved host.history ⟨ordinal⟩ = false)
    (h : Fallible.Ends (range.Answers delivers) (CollectM.recordFanOut ordinal outcome) host
        (.ok result) host') :
    ∃ envelope, range.Adds host host' [⟨envelope, outcome.body ⟨ordinal⟩⟩] := by
  obtain ⟨answer, served, ⟨middle, helse, hserv⟩, hdone⟩ := ends_call_iff.mp h
  obtain ⟨hval, rfl⟩ := ends_done_iff.mp hdone
  obtain ⟨recordedAt, history, recorder, hends, rfl⟩ := hserv
  rw [ok_of_mapError hval] at hends
  have hmid : ordinalIsResolved middle.history ⟨ordinal⟩ = false := by
    rw [helse.adds.resolved hmb, hnew]
    rfl
  refine adds_of_append helse (fun envelope => ?_) (history_of_recordFanOutCompletion hmid hends)
  cases outcome <;> exact decide_eq_true hmb

theorem adds_of_dropRuntimeEntries
    (h : Fallible.Ends (range.Answers delivers) (dropRuntimeEntries ordinal) host
        (.ok value) host') : range.Adds host host' [] := by
  obtain ⟨_, middle, hres, hgo⟩ := Fallible.ends_then_ok_iff.mp h
  obtain ⟨_, last, herr, hdone⟩ := Fallible.ends_then_ok_iff.mp hgo
  obtain ⟨-, rfl⟩ := Fallible.ends_pure_iff.mp hdone
  exact (adds_of_takeResult hres).1.trans (adds_of_takeError herr).1

theorem adds_of_removePendingAwait
    (h : Fallible.Ends (range.Answers delivers) CollectM.removePendingAwait host
        (.ok value) host') : range.Adds host host' [] := by
  obtain ⟨answer, served, ⟨middle, helse, hserv⟩, hdone⟩ := ends_call_iff.mp h
  obtain ⟨-, rfl⟩ := ends_done_iff.mp hdone
  obtain rfl : host' = { middle with pinned := false } := hserv
  exact helse.adds.trans (adds_of_eq rfl)

theorem ends_lift_ok_iff {α : Type} {result : Except String α} {value : α} :
    Fallible.Ends (range.Answers delivers) (CollectM.lift result) host (.ok value) host' ↔
      result = .ok value ∧ host' = host := by
  refine ends_done_iff.trans (and_congr_left fun _ => ?_)
  cases result <;> simp [Except.mapError, eq_comm]

/-! ### What a sweep records -/

/-- The outcomes that stand for a state of a member: none for a pending one, else one. -/
def Noted (ordinal : ℕ) (state : OrdinalState) (notes : List Event) : Prop :=
  state = .pending ∧ notes = [] ∨
    ∃ event, notes = [event] ∧ isActivityOutcome ⟨ordinal⟩ event = true ∧
      ordinalStateOf event = .ok (some state)

/-- Whether a completion of the ordinal is recorded: with the outbox on, if no earlier run of the
workflow has an outcome of it. -/
def Fresh (range : CollectRange) (history : List Event) (ordinal : ℕ) : Prop :=
  range.outboxEnabled = true → ordinalIsResolved (history.takeWhile fun event =>
      !startsRun range.runId event) ⟨ordinal⟩ = false

/-- **A member's outcome that is taken is recorded.** -/
theorem noted_of_takeAndRecord (hmb : range.member ordinal)
    (hnew : delivers ordinal → range.outboxEnabled = true →
        ordinalIsResolved host.history ⟨ordinal⟩ = false)
    (h : Fallible.Ends (range.Answers delivers) (takeAndRecord range.outboxEnabled ordinal) host
        (.ok state) host') :
    ∃ notes, range.Adds host host' notes ∧ Noted ordinal state notes ∧ state ≠ .cancelled := by
  obtain ⟨found, middle, hres, hgo⟩ := Fallible.ends_then_ok_iff.mp h
  obtain ⟨hadds, hdelv⟩ := adds_of_takeResult hres
  have hmid : delivers ordinal → range.outboxEnabled = true → ordinalIsResolved middle.history ⟨ordinal⟩ = false := by
    intro hdeliver henabled
    rw [hadds.resolved hmb, hnew hdeliver henabled]
    rfl
  cases found with
  | some found =>
    obtain ⟨payload, attempt⟩ := found
    have hdelv := hmid (hdelv rfl)
    have hnoted : ∀ {last envelope text},
        range.Adds middle last [⟨envelope, .activityCompleted ⟨ordinal⟩ payload (attempt.getD firstDeliveryAttempt)⟩] →
        Fallible.Ends (range.Answers delivers) (do let text ← CollectM.lift (payloadText payload); return .completed text) last
          (.ok text) host' → ∃ notes, range.Adds host host' notes ∧ Noted ordinal text notes ∧ text ≠ .cancelled := by
      intro last envelope state hadds' hdone
      obtain ⟨text, _, hlift, hreturn⟩ := Fallible.ends_then_ok_iff.mp hdone
      obtain ⟨htext, rfl⟩ := ends_lift_ok_iff.mp hlift
      obtain ⟨hval, rfl⟩ := Fallible.ends_pure_iff.mp hreturn
      obtain rfl := Except.ok.inj hval
      exact ⟨_, hadds.trans hadds', .inr ⟨_, rfl, by simp [isActivityOutcome], by simp [ordinalStateOf, htext, Except.map]⟩,
        by simp⟩
    simp only at hgo
    split at hgo
    · rename_i henabled
      obtain ⟨_, last, hrec, hdone⟩ := Fallible.ends_then_ok_iff.mp hgo
      obtain ⟨envelope, hadds'⟩ := adds_of_recordFanOut hmb (hdelv henabled) hrec
      exact hnoted hadds' hdone
    · obtain ⟨_, last, hrec, hdone⟩ := Fallible.ends_then_ok_iff.mp hgo
      obtain ⟨envelope, hadds'⟩ := adds_of_recordCompleted hmb hrec
      exact hnoted hadds' hdone
  | none =>
    obtain ⟨found, last, herr, hgo⟩ := Fallible.ends_then_ok_iff.mp hgo
    obtain ⟨hadds', hdelv⟩ := adds_of_takeError herr
    cases found with
    | some found =>
      obtain ⟨error, attempt⟩ := found
      have hlast : range.outboxEnabled = true → ordinalIsResolved last.history ⟨ordinal⟩ = false := by
        intro henabled
        rw [hadds'.resolved hmb, hmid (hdelv rfl) henabled]
        rfl
      have hnoted : ∀ {envelope}, range.Adds last host'
          [⟨envelope, .activityFailed ⟨ordinal⟩ (terminalError error.message) (attempt.getD firstDeliveryAttempt)⟩] →
          ∃ notes, range.Adds host host' notes ∧ Noted ordinal (.failed error.message) notes ∧
            OrdinalState.failed error.message ≠ .cancelled := fun hrec =>
        ⟨_, (hadds.trans hadds').trans hrec, .inr ⟨_, rfl, by simp [isActivityOutcome], rfl⟩, by simp⟩
      simp only at hgo
      split at hgo
      · rename_i henabled
        obtain ⟨_, _, hrec, hdone⟩ := Fallible.ends_then_ok_iff.mp hgo
        obtain ⟨hval, rfl⟩ := Fallible.ends_pure_iff.mp hdone
        obtain rfl := Except.ok.inj hval
        obtain ⟨envelope, hadds''⟩ := adds_of_recordFanOut hmb (hlast henabled) hrec
        exact hnoted hadds''
      · obtain ⟨_, _, hrec, hdone⟩ := Fallible.ends_then_ok_iff.mp hgo
        obtain ⟨hval, rfl⟩ := Fallible.ends_pure_iff.mp hdone
        obtain rfl := Except.ok.inj hval
        obtain ⟨envelope, hadds''⟩ := adds_of_recordFailed hmb hrec
        exact hnoted hadds''
    | none =>
      obtain ⟨hval, rfl⟩ := Fallible.ends_pure_iff.mp hgo
      obtain rfl := Except.ok.inj hval
      exact ⟨_, hadds.trans hadds', .inl ⟨rfl, rfl⟩, by simp⟩

end Calls

end CollectRange

end Aion
