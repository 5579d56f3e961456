import Aion.Runtime.CollectEngine
import Aion.Durability.Replay

/-!
# What a collect returns on replay

A sweep that ends with a step other than `suspend` has left every member with a terminal, and the
step is read off the terminals (`settles_of_settleAll`, `settles_of_settleRace`). So a later sweep
over them returns it again, with nothing in the maps and whatever the scopes (`returns_of_settled`).

The outbox's dedup reads the whole history of the workflow, and ordinals start anew with every run.
An outcome that it drops because an earlier run has one for the ordinal is returned and not recorded
(`dropped_outcome_not_replayed`); `collect_replays` is about runs without such outcomes.
-/

namespace Aion

open Interleaving

/-- The terminal of a member in a state. -/
def OrdinalState.terminal? : OrdinalState → Option OrdinalState
  | .pending => none
  | state => some state

/-- The outcome of a settled member. -/
def OrdinalState.outcome? : OrdinalState → Option (Except String String)
  | .completed payload => some (.ok payload)
  | .failed message => some (.error message)
  | _ => none

/-- What an aborted collect makes of a state: a pending member is cancelled. -/
def OrdinalState.settle : OrdinalState → OrdinalState
  | .pending => .cancelled
  | state => state

@[simp] theorem OrdinalState.failure?_settle (state : OrdinalState) :
    state.settle.failure? = state.failure? := by
  cases state <;> rfl

@[simp] theorem OrdinalState.result?_settle (state : OrdinalState) :
    state.settle.result? = state.result? := by
  cases state <;> rfl

variable {history history' : List Event} {state : OrdinalState} {states : List OrdinalState}
  {event : Event} {other : ℕ}

theorem OrdinalState.terminal?_of_ne (h : state ≠ .pending) : state.terminal? = some state := by
  cases state with
  | pending => exact absurd rfl h
  | _ => rfl

theorem OrdinalState.settle_ne_pending (state : OrdinalState) : state.settle ≠ .pending := by
  cases state <;> simp [settle]

theorem OrdinalState.settle_of_ne (h : state ≠ .pending) : state.settle = state := by
  cases state with
  | pending => exact absurd rfl h
  | _ => rfl

/-- The states are those of the members from `ordinal` on. -/
def StandsFrom (history : List Event) : ℕ → List OrdinalState → Prop
  | _, [] => True
  | ordinal, state :: states =>
    recordedTerminal history ordinal = .ok state.terminal? ∧ StandsFrom history (ordinal + 1) states

theorem StandsFrom.congr {ordinal : ℕ} (h : StandsFrom history ordinal states)
    (hsame : ∀ other, ordinal ≤ other → other < ordinal + states.length →
        recordedTerminal history' other = recordedTerminal history other) :
    StandsFrom history' ordinal states := by
  induction states generalizing ordinal with
  | nil => trivial
  | cons state states ih =>
    obtain ⟨hhead, htail⟩ := h
    rw [List.length_cons] at hsame
    refine ⟨(hsame ordinal le_rfl (by omega)).trans hhead, ih htail fun other hle hlt => hsame other (by omega) (by omega)⟩

/-- None of the outcomes is of a member outside of these. -/
def ConfinedTo (ordinal count : ℕ) (notes : List Event) : Prop :=
  ∀ other, other < ordinal ∨ ordinal + count ≤ other → ordinalIsResolved notes ⟨other⟩ = false

theorem confinedTo_nil (ordinal count : ℕ) : ConfinedTo ordinal count [] := fun _ _ => rfl

/-- An outcome of one member is of no other. -/
theorem resolved_of_outcome {ordinal : ℕ} (h : isActivityOutcome ⟨ordinal⟩ event = true)
    (hne : ordinal ≠ other) : ordinalIsResolved [event] ⟨other⟩ = false := by
  obtain ⟨envelope, body⟩ := event
  cases body <;> simp_all [isActivityOutcome, ordinalIsResolved]

theorem resolved_append (notes notes' : List Event) (activityId : ActivityId) :
    ordinalIsResolved (notes ++ notes') activityId =
      (ordinalIsResolved notes activityId || ordinalIsResolved notes' activityId) := by
  rw [ordinalIsResolved, List.any_append, ordinalIsResolved, ordinalIsResolved]

/-- Outcomes of the first member, and of the others. -/
theorem ConfinedTo.cons {ordinal count : ℕ} {notes notes' : List Event}
    (h : ∀ other, ordinal ≠ other → ordinalIsResolved notes ⟨other⟩ = false)
    (h' : ConfinedTo (ordinal + 1) count notes') :
    ConfinedTo ordinal (count + 1) (notes ++ notes') := by
  intro other hother
  rw [resolved_append, h other (by omega), h' other (by omega)]
  rfl

theorem recordedTerminal_outcome {ordinal : ℕ} (h : isActivityOutcome ⟨ordinal⟩ event = true)
    (later : List Event) : recordedTerminal (event :: later) ordinal = ordinalStateOf event := by
  rw [recordedTerminal_eq, firstOutcome, List.find?_cons_of_pos h]

namespace CollectRange

variable {range : CollectRange} {delivers : ℕ → Prop} {host host' : CollectHost}
  {snapshot : List Event} {ordinal count : ℕ}

variable {step : CollectStep} {sweeps : List (Except CollectError CollectStep)}
  {scopes : List TimeoutScope} {notes : List Event} {start : CollectHost} {winner : Option ℕ}
  {α : Type} {value : Unit}

theorem Noted.resolved (h : Noted ordinal state notes)
    (hne : ordinal ≠ other) : ordinalIsResolved notes ⟨other⟩ = false := by
  rcases h with ⟨-, rfl⟩ | ⟨event, rfl, hout, -⟩
  · rfl
  · exact resolved_of_outcome hout hne

/-- A member without a terminal has then that of its state. -/
theorem Noted.terminal {later : List Event} (h : Noted ordinal state notes)
    (hnone : recordedTerminal snapshot ordinal = .ok none)
    (hlat : ordinalIsResolved later ⟨ordinal⟩ = false) :
    recordedTerminal (snapshot ++ (notes ++ later)) ordinal = .ok state.terminal? := by
  rw [recordedTerminal_append_of_none hnone]
  rcases h with ⟨rfl, rfl⟩ | ⟨event, rfl, hout, hst⟩
  · exact recordedTerminal_eq_none_iff.mpr hlat
  · rw [List.singleton_append, recordedTerminal_outcome hout, hst]
    have hrecd : recordedTerminal [event] ordinal = .ok (some state) := by
      rw [recordedTerminal_outcome hout, hst]
    rw [OrdinalState.terminal?_of_ne (recordedTerminal_ne_pending hrecd)]

/-- What the dedup goes by, while a sweep has recorded nothing of these members. -/
def Unrecorded (range : CollectRange) (delivers : ℕ → Prop) (snapshot : List Event)
    (host : CollectHost) (ordinal count : ℕ) : Prop :=
  ∀ other, ordinal ≤ other → other < ordinal + count → range.member other ∧
    (recordedTerminal snapshot other = .ok none → delivers other → range.outboxEnabled = true →
      ordinalIsResolved host.history ⟨other⟩ = false)

theorem Unrecorded.tail {notes : List Event}
    (h : range.Unrecorded delivers snapshot host ordinal (count + 1))
    (hadds : range.Adds host host' notes)
    (hnotes : ∀ other, ordinal ≠ other → ordinalIsResolved notes ⟨other⟩ = false) :
    range.Unrecorded delivers snapshot host' (ordinal + 1) count := by
  intro other hle hlt
  obtain ⟨hmb, hnew⟩ := h other (by omega) (by omega)
  refine ⟨hmb, fun hnone hdelv henabled => ?_⟩
  rw [hadds.resolved hmb, hnew hnone hdelv henabled, hnotes other (by omega)]
  rfl

/-- **The states of a sweep** are those of the history with what the sweep has recorded. -/
theorem stands_of_sweepStates (hnew : range.Unrecorded delivers snapshot host ordinal count)
    (h : Fallible.Ends (range.Answers delivers)
        (sweepStates range.outboxEnabled snapshot ordinal count) host (.ok states) host') :
    ∃ notes, range.Adds host host' notes ∧ ConfinedTo ordinal count notes ∧ states.length = count ∧
      StandsFrom (snapshot ++ notes) ordinal states := by
  induction count generalizing ordinal host states with
  | zero =>
    obtain ⟨hval, rfl⟩ := Fallible.ends_pure_iff.mp h
    obtain rfl := Except.ok.inj hval
    exact ⟨[], .refl _ _, confinedTo_nil _ _, rfl, trivial⟩
  | succ count ih =>
    obtain ⟨terminal, middle, hlift, hgo⟩ := Fallible.ends_then_ok_iff.mp h
    obtain ⟨hterm, rfl⟩ := ends_lift_ok_iff.mp hlift
    -- the rest is swept after the first member is: its notes make no difference to the others
    have hrest : ∀ {state last notes}, range.Adds middle last notes →
        (∀ other, ordinal ≠ other → ordinalIsResolved notes ⟨other⟩ = false) →
        (∀ later, ordinalIsResolved later ⟨ordinal⟩ = false →
          recordedTerminal (snapshot ++ (notes ++ later)) ordinal = .ok state.terminal?) →
        Fallible.Ends (range.Answers delivers) (do
          let states ← sweepStates range.outboxEnabled snapshot (ordinal + 1) count
          return state :: states) last (.ok states) host' →
        ∃ notes, range.Adds middle host' notes ∧ ConfinedTo ordinal (count + 1) notes ∧ states.length = count + 1 ∧
          StandsFrom (snapshot ++ notes) ordinal states := by
      intro state last notes hadds hoths hhead hsweep
      obtain ⟨tail, _, hsts, hdone⟩ := Fallible.ends_then_ok_iff.mp hsweep
      obtain ⟨hval, rfl⟩ := Fallible.ends_pure_iff.mp hdone
      obtain rfl := Except.ok.inj hval
      obtain ⟨notes', hadds', hconf, hlen, hstd⟩ := ih (hnew.tail hadds hoths) hsts
      refine ⟨notes ++ notes', hadds.trans hadds', .cons hoths hconf, by rw [List.length_cons, hlen],
        hhead _ (hconf ordinal (by omega)), hstd.congr fun other hle _ => ?_⟩
      exact recordedTerminal_skip (hoths other (by omega)) _ _
    obtain ⟨hmb, hunrecorded⟩ := hnew ordinal le_rfl (by omega)
    cases terminal with
    | some state =>
      obtain ⟨found, _, hpure, hsweep⟩ := Fallible.ends_then_ok_iff.mp hgo
      obtain ⟨hval, rfl⟩ := Fallible.ends_pure_iff.mp hpure
      obtain rfl := Except.ok.inj hval
      refine hrest (.refl _ _) (fun _ _ => rfl) (fun later _ => ?_) hsweep
      have hfd : found.terminal? = some found := OrdinalState.terminal?_of_ne (recordedTerminal_ne_pending hterm)
      rw [List.nil_append, recordedTerminal_append_of_some (by simp [hterm]), hterm, hfd]
    | none =>
      obtain ⟨state, last, htake, hsweep⟩ := Fallible.ends_then_ok_iff.mp hgo
      obtain ⟨notes, hadds, hnoted, -⟩ := noted_of_takeAndRecord hmb (hunrecorded hterm) htake
      exact hrest hadds (fun other hne => Noted.resolved hnoted hne) (fun later hlat => Noted.terminal hnoted hterm hlat)
        hsweep

theorem cancelPending_cons_of_ne (h : state ≠ .pending) (ordinal : ℕ) (states : List OrdinalState) :
    cancelPending ordinal (state :: states) = cancelPending (ordinal + 1) states := by
  cases state with
  | pending => exact absurd rfl h
  | _ => rfl

/-- **What `cancel_pending` leaves**: the states, with the pending members cancelled. -/
theorem stands_of_cancelPending
    (hmems : ∀ other, ordinal ≤ other → other < ordinal + states.length → range.member other)
    (hstd : StandsFrom history ordinal states)
    (h : Fallible.Ends (range.Answers delivers) (cancelPending ordinal states) host
        (.ok value) host') :
    ∃ notes, range.Adds host host' notes ∧ ConfinedTo ordinal states.length notes ∧
      StandsFrom (history ++ notes) ordinal (states.map OrdinalState.settle) := by
  induction states generalizing ordinal host with
  | nil =>
    obtain ⟨-, rfl⟩ := Fallible.ends_pure_iff.mp h
    exact ⟨[], .refl _ _, confinedTo_nil _ _, trivial⟩
  | cons state states ih =>
    obtain ⟨hhead, htail⟩ := hstd
    rw [List.length_cons] at hmems
    have hrest : ∀ other, ordinal + 1 ≤ other → other < ordinal + 1 + states.length → range.member other := fun other hle hlt =>
      hmems other (by omega) (by omega)
    by_cases hpend : state = .pending
    · subst hpend
      obtain ⟨_, middle, hcancel, hgo⟩ := Fallible.ends_then_ok_iff.mp h
      obtain ⟨_, last, hdrop, hoths⟩ := Fallible.ends_then_ok_iff.mp hgo
      obtain ⟨envelope, hadds⟩ := adds_of_recordCancelled (hmems ordinal le_rfl (by omega)) hcancel
      have hnoted : Noted ordinal .cancelled [⟨envelope, .activityCancelled ⟨ordinal⟩ firstDeliveryAttempt⟩] :=
        .inr ⟨_, rfl, by simp [isActivityOutcome], rfl⟩
      obtain ⟨notes, hadds', hconf, hstd⟩ := ih hrest htail hoths
      refine ⟨_, (hadds.trans (adds_of_dropRuntimeEntries hdrop)).trans hadds', ?_, ?_, hstd.congr fun other hle _ => ?_⟩
      · exact .cons (fun other hne => Noted.resolved hnoted hne) hconf
      · exact Noted.terminal hnoted hhead (hconf ordinal (by omega))
      · exact recordedTerminal_skip (Noted.resolved hnoted (by omega)) _ _
    · rw [cancelPending_cons_of_ne hpend] at h
      obtain ⟨notes, hadds, hconf, hstd⟩ := ih hrest htail h
      have hconf : ConfinedTo ordinal (states.length + 1) ([] ++ notes) := .cons (fun _ _ => rfl) hconf
      refine ⟨notes, hadds, hconf, ?_, hstd⟩
      rw [OrdinalState.terminal?_of_ne hpend] at hhead
      rw [OrdinalState.settle_of_ne hpend, OrdinalState.terminal?_of_ne hpend,
        recordedTerminal_append_of_some (by simp [hhead]), hhead]

/-! ### What `settle_all` leaves -/

/-- The step that the terminals of all members give. -/
def settledStep (states : List OrdinalState) : CollectStep :=
  match states.findSome? OrdinalState.failure? with
  | some message => .failFast message
  | none =>
    if states.all fun state => state.result?.isSome then
      .allCompleted (states.filterMap OrdinalState.result?)
    else .scopeExpired scopeExpiredMessage

theorem settledStep_settle (states : List OrdinalState) :
    settledStep (states.map OrdinalState.settle) = settledStep states := by
  unfold settledStep
  rw [List.findSome?_map, List.all_map, List.filterMap_map]
  have hfail : OrdinalState.failure? ∘ OrdinalState.settle = OrdinalState.failure? :=
    funext OrdinalState.failure?_settle
  have hres : OrdinalState.result? ∘ OrdinalState.settle = OrdinalState.result? :=
    funext OrdinalState.result?_settle
  have hsome : (fun state : OrdinalState => state.result?.isSome) ∘ OrdinalState.settle =
    fun state => state.result?.isSome :=
    funext fun state => congrArg Option.isSome (OrdinalState.result?_settle state)
  rw [hfail, hres, hsome]

/-- Every member has a terminal, and they give the step. -/
def AllSettled (range : CollectRange) (history : List Event) (step : CollectStep) : Prop :=
  ∃ states, states.length = range.count ∧ OrdinalState.pending ∉ states ∧
    StandsFrom history range.baseOrdinal states ∧
    settledStep states = step

/-- **`settle_all` settles every member**, when it does not suspend. -/
theorem settles_of_settleAll (hstep : step ≠ .suspend)
    (hnew : range.Unrecorded delivers snapshot host range.baseOrdinal range.count)
    (h : Fallible.Ends (range.Answers delivers)
        (settleAll range.outboxEnabled snapshot scopes range.baseOrdinal range.count) host
      (.ok step) host') :
    ∃ notes, range.Adds host host' notes ∧ range.AllSettled (snapshot ++ notes) step := by
  obtain ⟨states, middle, hsweep, hgo⟩ := Fallible.ends_then_ok_iff.mp h
  obtain ⟨notes, hadds, -, hlen, hstd⟩ := stands_of_sweepStates hnew hsweep
  -- what the branches with a cancellation leave, and those without
  have hcancels : ∀ {step'}, settledStep states = step' →
      Fallible.Ends (range.Answers delivers) (do
        cancelPending range.baseOrdinal states
        CollectM.removePendingAwait
        return step') middle (.ok step) host' →
      ∃ notes, range.Adds host host' notes ∧ range.AllSettled (snapshot ++ notes) step := by
    intro step' hsett hend
    obtain ⟨_, last, hcancel, hrest⟩ := Fallible.ends_then_ok_iff.mp hend
    obtain ⟨_, _, hremove, hdone⟩ := Fallible.ends_then_ok_iff.mp hrest
    obtain ⟨hval, rfl⟩ := Fallible.ends_pure_iff.mp hdone
    obtain rfl := Except.ok.inj hval
    obtain ⟨notes', hadds', -, hstd'⟩ :=
      stands_of_cancelPending (fun other hle hlt => ⟨hle, hlen ▸ hlt⟩) hstd hcancel
    refine ⟨notes ++ notes', ?_, states.map OrdinalState.settle, by rw [List.length_map, hlen], ?_, ?_, ?_⟩
    · simpa using (hadds.trans hadds').trans (adds_of_removePendingAwait hremove)
    · simpa using fun state _ => state.settle_ne_pending
    · rwa [List.append_assoc] at hstd'
    · rw [settledStep_settle, hsett]
  have hsett : ∀ {step'}, settledStep states = step' → OrdinalState.pending ∉ states →
      Fallible.Ends (range.Answers delivers) (do
        CollectM.removePendingAwait
        return step') middle (.ok step) host' →
      ∃ notes, range.Adds host host' notes ∧ range.AllSettled (snapshot ++ notes) step := by
    intro step' hsett hnone hend
    obtain ⟨_, _, hremove, hdone⟩ := Fallible.ends_then_ok_iff.mp hend
    obtain ⟨hval, rfl⟩ := Fallible.ends_pure_iff.mp hdone
    obtain rfl := Except.ok.inj hval
    refine ⟨notes, ?_, states, hlen, hnone, hstd, hsett⟩
    simpa using hadds.trans (adds_of_removePendingAwait hremove)
  cases hfail : states.findSome? OrdinalState.failure? with
  | some message =>
    simp only [hfail] at hgo
    exact hcancels (by simp [settledStep, hfail]) hgo
  | none =>
    simp only [hfail] at hgo
    split at hgo
    · rename_i hall
      refine hsett (by simp [settledStep, hfail, hall]) (fun hpend => ?_) hgo
      simpa [OrdinalState.result?] using List.all_eq_true.mp hall _ hpend
    · rename_i hall
      have hscope : settledStep states = .scopeExpired scopeExpiredMessage := by simp [settledStep, hfail, hall]
      split at hgo
      · exact hcancels hscope hgo
      · split at hgo
        · rename_i hnone
          exact hsett hscope hnone hgo
        · obtain ⟨hval, -⟩ := Fallible.ends_pure_iff.mp hgo
          exact absurd (Except.ok.inj hval) hstep

/-! ### What `settle_race` leaves -/

theorem recordedRaceWinner_append_of_none
    (h : recordedRaceWinner history range.baseOrdinal range.count = .ok none) (later : List Event) :
    recordedRaceWinner (history ++ later) range.baseOrdinal range.count =
      recordedRaceWinner later range.baseOrdinal range.count := by
  induction history with
  | nil => rfl
  | cons event rest ih =>
    obtain ⟨envelope, body⟩ := event
    cases body <;> simp only [recordedRaceWinner, List.cons_append] at h ⊢ <;> try exact ih h
    case activityCompleted activityId result attempt =>
      split at h
      · cases htext : payloadText result <;> simp [htext, Except.map] at h
      · rename_i hnot
        rw [if_neg hnot]
        exact ih h
    case activityFailed =>
      split at h
      · cases h
      · rename_i hnot
        rw [if_neg hnot]
        exact ih h

/-- A recorded winner stays. -/
theorem recordedRaceWinner_append_of_some {winner : RaceSettlement}
    (h : recordedRaceWinner history range.baseOrdinal range.count = .ok (some winner))
    (later : List Event) :
    recordedRaceWinner (history ++ later) range.baseOrdinal range.count = .ok (some winner) := by
  induction history with
  | nil => cases h
  | cons event rest ih =>
    obtain ⟨envelope, body⟩ := event
    cases body <;> simp only [recordedRaceWinner, List.cons_append] at h ⊢ <;> try exact ih h
    all_goals
      split at h
      · rename_i hmb
        rw [if_pos hmb]
        exact h
      · rename_i hnot
        rw [if_neg hnot]
        exact ih h

/-- Without a winner every terminal is a cancellation. -/
theorem cancelled_of_no_winner (hmb : range.member ordinal)
    (hnone : recordedRaceWinner history range.baseOrdinal range.count = .ok none)
    (hterm : recordedTerminal history ordinal = .ok (some state)) : state = .cancelled := by
  induction history with
  | nil => cases hterm
  | cons event rest ih =>
    obtain ⟨envelope, body⟩ := event
    cases body <;> simp only [recordedRaceWinner,
      recordedTerminal] at hnone hterm <;> try exact ih hnone hterm
    case activityCompleted activityId result attempt =>
      split at hnone
      · cases htext : payloadText result <;> simp [htext, Except.map] at hnone
      · rename_i hnot
        rw [if_neg fun heq => hnot (by rw [heq]; exact hmb)] at hterm
        exact ih hnone hterm
    case activityFailed activityId error attempt =>
      split at hnone
      · cases hnone
      · rename_i hnot
        rw [if_neg fun heq => hnot (by rw [heq]; exact hmb)] at hterm
        exact ih hnone hterm
    case activityCancelled activityId attempt =>
      split at hterm
      · exact (Option.some.inj (Except.ok.inj hterm)).symm
      · exact ih hnone hterm

/-- The first outcome that is no cancellation is of the winner. -/
theorem recordedRaceWinner_outcome {outcome : Except String String}
    (hmb : range.member ordinal) (hout : isActivityOutcome ⟨ordinal⟩ event = true)
    (hst : ordinalStateOf event = .ok (some state)) (houtcome : state.outcome? = some outcome) :
    recordedRaceWinner [event] range.baseOrdinal range.count = .ok (some (ordinal, outcome)) := by
  have hwithin : range.baseOrdinal ≤ ordinal ∧ ordinal < range.baseOrdinal + range.count := hmb
  obtain ⟨envelope, body⟩ := event
  cases body <;> simp only [isActivityOutcome, beq_iff_eq,
    Bool.false_eq_true] at hout <;> subst hout
  case activityCompleted result attempt =>
    cases htext : payloadText result with
    | error message => simp [ordinalStateOf, htext, Except.map] at hst
    | ok text =>
      obtain rfl : OrdinalState.completed text = state := by simpa [ordinalStateOf, htext, Except.map] using hst
      simpa [recordedRaceWinner, hwithin, htext, Except.map, OrdinalState.outcome?] using houtcome
  case activityFailed error attempt =>
    obtain rfl : OrdinalState.failed error.message = state := by simpa [ordinalStateOf] using hst
    simpa [recordedRaceWinner, hwithin, OrdinalState.outcome?] using houtcome
  case activityCancelled attempt =>
    obtain rfl : OrdinalState.cancelled = state := by simpa [ordinalStateOf] using hst
    cases houtcome

/-- The winner taken is the winner of what the sweep has recorded. -/
theorem winner_of_takeWinner {winner : Option RaceSettlement}
    (hnew : range.Unrecorded delivers snapshot host ordinal count)
    (h : Fallible.Ends (range.Answers delivers)
        (takeWinner range.outboxEnabled snapshot ordinal count) host (.ok winner) host') :
    ∃ notes, range.Adds host host' notes ∧
      (winner = none ∧ notes = [] ∨ ∃ other outcome, winner = some (other, outcome) ∧
      (∀ another, other ≠ another → ordinalIsResolved notes ⟨another⟩ = false) ∧
      recordedRaceWinner notes range.baseOrdinal range.count = .ok winner) := by
  induction count generalizing ordinal host with
  | zero =>
    obtain ⟨hval, rfl⟩ := Fallible.ends_pure_iff.mp h
    obtain rfl := Except.ok.inj hval
    exact ⟨[], .refl _ _, .inl ⟨rfl, rfl⟩⟩
  | succ count ih =>
    obtain ⟨terminal, middle, hlift, hgo⟩ := Fallible.ends_then_ok_iff.mp h
    obtain ⟨hterm, rfl⟩ := ends_lift_ok_iff.mp hlift
    obtain ⟨hmb, hunrecorded⟩ := hnew ordinal le_rfl (by omega)
    cases terminal with
    | some recorded => exact ih (hnew.tail (.refl _ _) fun _ _ => rfl) hgo
    | none =>
      obtain ⟨state, last, htake, hgo⟩ := Fallible.ends_then_ok_iff.mp hgo
      obtain ⟨notes, hadds, hnoted, hcanc⟩ := noted_of_takeAndRecord hmb (hunrecorded hterm) htake
      have hwon : ∀ {outcome}, state.outcome? = some outcome → winner = some (ordinal, outcome) → last = host' →
          ∃ notes, range.Adds middle host' notes ∧
            (winner = none ∧ notes = [] ∨ ∃ other outcome, winner = some (other, outcome) ∧
            (∀ another, other ≠ another → ordinalIsResolved notes ⟨another⟩ = false) ∧
            recordedRaceWinner notes range.baseOrdinal range.count = .ok winner) := by
        rintro outcome houtcome rfl rfl
        refine ⟨notes, hadds, .inr ⟨ordinal, outcome, rfl, fun another hne => Noted.resolved hnoted hne, ?_⟩⟩
        rcases hnoted with ⟨rfl, -⟩ | ⟨event, rfl, hout, hst⟩
        · cases houtcome
        · exact recordedRaceWinner_outcome hmb hout hst houtcome
      cases state with
      | completed payload =>
        obtain ⟨hval, hlast⟩ := Fallible.ends_pure_iff.mp hgo
        exact hwon rfl (Except.ok.inj hval) hlast.symm
      | failed message =>
        obtain ⟨hval, hlast⟩ := Fallible.ends_pure_iff.mp hgo
        exact hwon rfl (Except.ok.inj hval) hlast.symm
      | cancelled => exact absurd rfl hcanc
      | pending =>
        rcases hnoted with ⟨-, rfl⟩ | ⟨event, rfl, hout, hst⟩
        · obtain ⟨notes', hadds', hwin⟩ := ih (hnew.tail hadds fun _ _ => rfl) hgo
          exact ⟨notes', hadds.trans hadds', hwin⟩
        · have hrecd : recordedTerminal [event] ordinal = .ok (some .pending) := by
            rw [recordedTerminal_outcome hout, hst]
          exact absurd rfl (recordedTerminal_ne_pending hrecd)

/-- **What the cancellation of the others leaves**: a terminal of every member but the winner. -/
theorem cancels_of_cancelOthers
    (hmems : ∀ other, ordinal ≤ other → other < ordinal + count → range.member other)
    (h : Fallible.Ends (range.Answers delivers) (cancelOthers snapshot winner ordinal count) host
        (.ok value) host') :
    ∃ notes, range.Adds host host' notes ∧ ConfinedTo ordinal count notes ∧
      recordedRaceWinner notes range.baseOrdinal range.count = .ok none ∧
      ∀ other, ordinal ≤ other → other < ordinal + count → winner ≠ some other →
        ∃ terminal, recordedTerminal snapshot other = .ok terminal ∧
          (terminal = none → recordedTerminal notes other = .ok (some .cancelled)) := by
  induction count generalizing ordinal host with
  | zero =>
    obtain ⟨-, rfl⟩ := Fallible.ends_pure_iff.mp h
    exact ⟨[], .refl _ _, confinedTo_nil _ _, rfl, fun other hle hlt => absurd hlt (by omega)⟩
  | succ count ih =>
    have hrest : ∀ other, ordinal + 1 ≤ other → other < ordinal + 1 + count → range.member other :=
      fun other hle hlt => hmems other (by omega) (by omega)
    -- a member that has a terminal, or the winner, adds nothing
    have hskips : ∀ {middle}, range.Adds host middle [] →
        (winner ≠ some ordinal → ∃ state, recordedTerminal snapshot ordinal = .ok (some state)) →
        Fallible.Ends (range.Answers delivers) (cancelOthers snapshot winner (ordinal + 1) count) middle (.ok value) host' →
        ∃ notes, range.Adds host host' notes ∧ ConfinedTo ordinal (count + 1) notes ∧
          recordedRaceWinner notes range.baseOrdinal range.count = .ok none ∧
          ∀ other, ordinal ≤ other → other < ordinal + (count + 1) → winner ≠ some other →
            ∃ terminal, recordedTerminal snapshot other = .ok terminal ∧
              (terminal = none → recordedTerminal notes other = .ok (some .cancelled)) := by
      intro middle hadds hstd hoths
      obtain ⟨notes, hadds', hconf, hwin, hterms⟩ := ih hrest hoths
      have hconf : ConfinedTo ordinal (count + 1) ([] ++ notes) := .cons (fun _ _ => rfl) hconf
      refine ⟨notes, hadds.trans hadds', hconf, hwin, fun other hle hlt hne => ?_⟩
      rcases Nat.eq_or_lt_of_le hle with rfl | hlat
      · obtain ⟨state, hst⟩ := hstd hne
        exact ⟨_, hst, by simp⟩
      · exact hterms other hlat (by omega) hne
    unfold cancelOthers at h
    split at h
    · rename_i hwin
      exact hskips (.refl _ _) (fun hne => absurd hwin hne) h
    · obtain ⟨_, middle, hdrop, hgo⟩ := Fallible.ends_then_ok_iff.mp h
      obtain ⟨terminal, _, hlift, hgo⟩ := Fallible.ends_then_ok_iff.mp hgo
      obtain ⟨hterm, rfl⟩ := ends_lift_ok_iff.mp hlift
      cases terminal with
      | some state => exact hskips (adds_of_dropRuntimeEntries hdrop) (fun _ => ⟨state, hterm⟩) hgo
      | none =>
        obtain ⟨_, last, hcancel, hoths⟩ := Fallible.ends_then_ok_iff.mp hgo
        obtain ⟨envelope, hadds⟩ := adds_of_recordCancelled (hmems ordinal le_rfl (by omega)) hcancel
        have hnoted : Noted ordinal .cancelled [⟨envelope, .activityCancelled ⟨ordinal⟩ firstDeliveryAttempt⟩] :=
          .inr ⟨_, rfl, by simp [isActivityOutcome], rfl⟩
        obtain ⟨notes, hadds', hconf, hwin, hterms⟩ := ih hrest hoths
        refine ⟨_, ((adds_of_dropRuntimeEntries hdrop).trans hadds).trans hadds',
          .cons (fun other hne => Noted.resolved hnoted hne) hconf, hwin, fun other hle hlt hne => ?_⟩
        rcases Nat.eq_or_lt_of_le hle with rfl | hlat
        · exact ⟨none, hterm, fun _ => by simp [recordedTerminal]⟩
        · obtain ⟨terminal, hother, hcanc⟩ := hterms other hlat (by omega) hne
          refine ⟨terminal, hother, fun hnone => ?_⟩
          rw [← hcanc hnone]
          exact recordedTerminal_skip (Noted.resolved hnoted (by omega)) [] notes

theorem cancelled_of_allCancelled (h : allCancelled snapshot ordinal count = .ok true)
    (hle : ordinal ≤ other) (hlt : other < ordinal + count) :
    recordedTerminal snapshot other = .ok (some .cancelled) := by
  induction count generalizing ordinal with
  | zero => omega
  | succ count ih =>
    unfold allCancelled at h
    cases hterm : recordedTerminal snapshot ordinal with
    | error message => simp [hterm, bind, Except.bind] at h
    | ok terminal =>
      simp only [hterm, bind, Except.bind] at h
      split at h
      · rename_i hcanc
        rcases Nat.eq_or_lt_of_le hle with rfl | hlat
        · rw [hterm, hcanc]
        · exact ih h hlat (by omega)
      · cases h

/-- The winner is recorded and gives the step, and the others have a terminal; or every member is
cancelled. -/
def RaceSettled (range : CollectRange) (history : List Event) (step : CollectStep) : Prop :=
  (∃ winner outcome, recordedRaceWinner history range.baseOrdinal range.count =
      .ok (some (winner, outcome)) ∧
    step = .raceWon outcome ∧
    ∀ other, range.member other → other ≠ winner →
      ∃ state, recordedTerminal history other = .ok (some state)) ∨
  recordedRaceWinner history range.baseOrdinal range.count = .ok none ∧
    step = .scopeExpired scopeExpiredMessage ∧
    ∀ other, range.member other → recordedTerminal history other = .ok (some .cancelled)

/-- A terminal of before, or the cancellation of now. -/
theorem exists_terminal {cancels : List Event} {terminal : Option OrdinalState}
    (hterm : recordedTerminal snapshot other = .ok terminal)
    (hnotes : ordinalIsResolved notes ⟨other⟩ = false)
    (hcanc : terminal = none → recordedTerminal cancels other = .ok (some .cancelled)) :
    recordedTerminal (snapshot ++ (notes ++ cancels)) other =
      .ok (some (terminal.getD .cancelled)) := by
  rw [recordedTerminal_skip hnotes]
  cases terminal with
  | some state => rw [recordedTerminal_append_of_some (by simp [hterm]), hterm, Option.getD_some]
  | none => rw [recordedTerminal_append_of_none hterm, hcanc rfl, Option.getD_none]

/-- **`settle_race` settles every member**, when it does not suspend. -/
theorem settles_of_settleRace (hstep : step ≠ .suspend)
    (hnew : range.Unrecorded delivers snapshot host range.baseOrdinal range.count)
    (h : Fallible.Ends (range.Answers delivers)
        (settleRace range.outboxEnabled snapshot scopes range.baseOrdinal range.count) host
      (.ok step) host') :
    ∃ notes, range.Adds host host' notes ∧ range.RaceSettled (snapshot ++ notes) step := by
  have hmems : ∀ other, range.baseOrdinal ≤ other → other < range.baseOrdinal + range.count →
    range.member other :=
    fun other hle hlt => ⟨hle, hlt⟩
  obtain ⟨recorded, begun, hlift, hgo⟩ := Fallible.ends_then_ok_iff.mp h
  obtain ⟨hrecd, rfl⟩ := ends_lift_ok_iff.mp hlift
  -- the winner and what comes after it
  have hwon : ∀ {middle notes winner outcome}, range.Adds begun middle notes →
      (∀ other, winner ≠ other → ordinalIsResolved notes ⟨other⟩ = false) →
      recordedRaceWinner (snapshot ++ notes) range.baseOrdinal range.count = .ok (some (winner, outcome)) →
      Fallible.Ends (range.Answers delivers) (do
        cancelOthers snapshot (some winner) range.baseOrdinal range.count
        CollectM.removePendingAwait
        return .raceWon outcome) middle (.ok step) host' →
      ∃ notes, range.Adds begun host' notes ∧ range.RaceSettled (snapshot ++ notes) step := by
    intro middle notes winner outcome hadds hnotes hwin hend
    obtain ⟨_, last, hcancel, hrest⟩ := Fallible.ends_then_ok_iff.mp hend
    obtain ⟨_, _, hremove, hdone⟩ := Fallible.ends_then_ok_iff.mp hrest
    obtain ⟨hval, rfl⟩ := Fallible.ends_pure_iff.mp hdone
    obtain rfl := Except.ok.inj hval
    obtain ⟨cancels, hadds', -, -, hterms⟩ := cancels_of_cancelOthers hmems hcancel
    refine ⟨notes ++ cancels, by simpa using (hadds.trans hadds').trans (adds_of_removePendingAwait hremove),
      .inl ⟨winner, outcome, ?_, rfl, fun other hmb hne => ?_⟩⟩
    · rw [← List.append_assoc]
      exact recordedRaceWinner_append_of_some hwin cancels
    · obtain ⟨terminal, hterm, hcanc⟩ := hterms other hmb.1 hmb.2 (by simpa using Ne.symm hne)
      exact ⟨_, exists_terminal hterm (hnotes other (Ne.symm hne)) hcanc⟩
  have hnone : ∀ {middle}, range.Adds begun middle [] →
      recordedRaceWinner snapshot range.baseOrdinal range.count = .ok none →
      Fallible.Ends (range.Answers delivers) (do
        if (expiredScopeDeadline scopes snapshot).isSome then
          cancelOthers snapshot none range.baseOrdinal range.count
          CollectM.removePendingAwait
          return .scopeExpired scopeExpiredMessage
        else if ← CollectM.lift (allCancelled snapshot range.baseOrdinal range.count) then
          CollectM.removePendingAwait
          return .scopeExpired scopeExpiredMessage
        else return .suspend) middle (.ok step) host' →
      ∃ notes, range.Adds begun host' notes ∧ range.RaceSettled (snapshot ++ notes) step := by
    intro middle hadds hwin hend
    split at hend
    · obtain ⟨_, last, hcancel, hrest⟩ := Fallible.ends_then_ok_iff.mp hend
      obtain ⟨_, _, hremove, hdone⟩ := Fallible.ends_then_ok_iff.mp hrest
      obtain ⟨hval, rfl⟩ := Fallible.ends_pure_iff.mp hdone
      obtain rfl := Except.ok.inj hval
      obtain ⟨cancels, hadds', -, hnowinner, hterms⟩ := cancels_of_cancelOthers hmems hcancel
      refine ⟨cancels, by simpa using (hadds.trans hadds').trans (adds_of_removePendingAwait hremove),
        .inr ⟨?_, rfl, fun other hmb => ?_⟩⟩
      · rw [recordedRaceWinner_append_of_none hwin, hnowinner]
      · obtain ⟨terminal, hterm, hcanc⟩ := hterms other hmb.1 hmb.2 (by simp)
        have hst := exists_terminal hterm (show ordinalIsResolved [] ⟨other⟩ = false from rfl) hcanc
        rw [List.nil_append] at hst
        rw [hst]
        cases terminal with
        | none => rfl
        | some state => rw [cancelled_of_no_winner hmb hwin hterm, Option.getD_some]
    · obtain ⟨cancelled, _, hlifted, hrest⟩ := Fallible.ends_then_ok_iff.mp hend
      obtain ⟨hall, rfl⟩ := ends_lift_ok_iff.mp hlifted
      split at hrest
      · rename_i htrue
        obtain ⟨_, _, hremove, hdone⟩ := Fallible.ends_then_ok_iff.mp hrest
        obtain ⟨hval, rfl⟩ := Fallible.ends_pure_iff.mp hdone
        obtain rfl := Except.ok.inj hval
        rw [htrue] at hall
        refine ⟨[], hadds.trans (adds_of_removePendingAwait hremove), .inr ?_⟩
        rw [List.append_nil]
        exact ⟨hwin, rfl, fun other hmb => cancelled_of_allCancelled hall hmb.1 hmb.2⟩
      · obtain ⟨hval, -⟩ := Fallible.ends_pure_iff.mp hrest
        exact absurd (Except.ok.inj hval) hstep
  cases recorded with
  | some winner =>
    obtain ⟨winner, outcome⟩ := winner
    have hsnap : recordedRaceWinner (snapshot ++ []) range.baseOrdinal range.count = .ok (some (winner, outcome)) := by
      rwa [List.append_nil]
    obtain ⟨_, _, hpure, hend⟩ := Fallible.ends_then_ok_iff.mp hgo
    obtain ⟨hval, rfl⟩ := Fallible.ends_pure_iff.mp hpure
    obtain rfl := Except.ok.inj hval
    exact hwon (.refl _ _) (fun _ _ => rfl) hsnap hend
  | none =>
    obtain ⟨winner, middle, htake, hend⟩ := Fallible.ends_then_ok_iff.mp hgo
    obtain ⟨notes, hadds, hwin⟩ := winner_of_takeWinner hnew htake
    rcases hwin with ⟨rfl, rfl⟩ | ⟨winner, outcome, rfl, hnotes, hwin⟩
    · exact hnone hadds hrecd hend
    · refine hwon hadds hnotes ?_ hend
      rw [recordedRaceWinner_append_of_none hrecd, hwin]

/-! ### The sweep after it -/

/-- The sweep's step has been read off the terminals. -/
def Settled (range : CollectRange) (history : List Event) (step : CollectStep) : Prop :=
  match range.kind with
  | .all => range.AllSettled history step
  | .race => range.RaceSettled history step

/-- Only outcomes of members count. -/
theorem Settled.congr
    (hsame : history'.filter range.settlesMember = history.filter range.settlesMember)
    (h : range.Settled history step) : range.Settled history' step := by
  have hterms : ∀ other, range.member other → recordedTerminal history' other = recordedTerminal history other := by
    intro other hmb
    rw [← recordedTerminal_filter hmb history', hsame, recordedTerminal_filter hmb]
  have hwin : recordedRaceWinner history' range.baseOrdinal range.count =
      recordedRaceWinner history range.baseOrdinal range.count := by
    rw [← recordedRaceWinner_filter history', hsame, recordedRaceWinner_filter]
  unfold Settled at h ⊢
  cases hkind : range.kind with
  | all =>
    simp only [hkind] at h ⊢
    obtain ⟨states, hlen, hnone, hstd, hstep⟩ := h
    exact ⟨states, hlen, hnone, hstd.congr fun other hle hlt => hterms other ⟨hle, hlen ▸ hlt⟩, hstep⟩
  | race =>
    simp only [hkind] at h ⊢
    unfold RaceSettled at h ⊢
    rw [hwin]
    refine h.imp (fun h => ?_) fun h => ⟨h.1, h.2.1, fun other hmb => ?_⟩
    · obtain ⟨winner, outcome, hwon, hstep, hoths⟩ := h
      exact ⟨winner, outcome, hwon, hstep, fun other hmb hne => by rw [hterms other hmb]; exact hoths other hmb hne⟩
    · rw [hterms other hmb]
      exact h.2.2 other hmb

/-- A sweep that does not suspend leaves the members settled. -/
theorem settles_of_sweep (hstep : step ≠ .suspend)
    (hnew : range.Unrecorded delivers snapshot host range.baseOrdinal range.count)
    (h : Fallible.Ends (range.Answers delivers) (range.sweep snapshot scopes) host
        (.ok step) host') :
    ∃ notes, range.Adds host host' notes ∧ range.Settled (snapshot ++ notes) step := by
  unfold sweep at h
  unfold Settled
  cases hkind : range.kind with
  | all =>
    rw [hkind] at h
    exact settles_of_settleAll hstep hnew h
  | race =>
    rw [hkind] at h
    exact settles_of_settleRace hstep hnew h

theorem sweepStates_of_stands (hnone : OrdinalState.pending ∉ states)
    (hstd : StandsFrom history ordinal states) (outboxEnabled : Bool) :
    sweepStates outboxEnabled history ordinal states.length = pure states := by
  induction states generalizing ordinal with
  | nil => rfl
  | cons state states ih =>
    obtain ⟨hhead, htail⟩ := hstd
    rw [OrdinalState.terminal?_of_ne fun heq => hnone (heq ▸ List.mem_cons_self)] at hhead
    rw [List.length_cons, sweepStates, hhead,
      ih (fun hmem => hnone (List.mem_cons_of_mem _ hmem)) htail]
    rfl

theorem cancelPending_of_none (hnone : OrdinalState.pending ∉ states) (ordinal : ℕ) :
    cancelPending ordinal states = pure () := by
  induction states generalizing ordinal with
  | nil => rfl
  | cons state states ih =>
    rw [cancelPending_cons_of_ne fun heq => hnone (heq ▸ List.mem_cons_self)]
    exact ih (fun hmem => hnone (List.mem_cons_of_mem _ hmem)) _

/-- Over settled members `settle_all` takes and records nothing. -/
theorem settleAll_of_settled (h : range.AllSettled history step)
    (outboxEnabled : Bool) (scopes : List TimeoutScope) :
    settleAll outboxEnabled history scopes range.baseOrdinal range.count = (do
      CollectM.removePendingAwait
      return step) := by
  obtain ⟨states, hlen, hnone, hstd, rfl⟩ := h
  rw [settleAll, ← hlen, sweepStates_of_stands hnone hstd]
  change (match states.findSome? OrdinalState.failure? with | some message => _ | none => _) = _
  unfold settledStep
  rw [cancelPending_of_none hnone]
  cases states.findSome? OrdinalState.failure? with
  | some message => rfl
  | none =>
    simp only
    split
    · rfl
    · split
      · rfl
      · rfl

/-- The runtime maps could not be reached. -/
def Poisoned {α : Type} (outcome : Except CollectError α) : Prop :=
  ∃ pid, outcome = .error (.activityDeliveryPoisoned pid)

/-- The program comes to this value with nothing in the maps, unless they cannot be reached. -/
def Returns {α : Type} (range : CollectRange) (program : CollectM α) (host : CollectHost)
    (value : α) : Prop :=
  (∀ outcome host', Fallible.Ends (range.Answers fun _ => False) program host outcome host' →
      outcome = .ok value ∨ Poisoned outcome) ∧
    (host.Empty → ∃ host', Fallible.Ends (range.Answers fun _ => False) program host (.ok value) host' ∧ host'.Empty)

theorem returns_pure (value : α) (host : CollectHost) : range.Returns (pure value) host value :=
  ⟨fun _ _ h => .inl (Fallible.ends_pure_iff.mp h).1, fun hemp => ⟨host, .done _ _, hemp⟩⟩

/-- One part and then another. -/
theorem Returns.bind {β : Type} {first : CollectM α} {f : α → CollectM β} {mid : α} {value : β}
    (h : ∀ host, range.Returns first host mid) (hf : ∀ host, range.Returns (f mid) host value)
    (host : CollectHost) : range.Returns (first >>= f) host value := by
  refine ⟨fun outcome host' hends => ?_, fun hemp => ?_⟩
  · rcases Fallible.ends_then_iff.mp hends with ⟨failure, rfl, hfst⟩ | ⟨found, middle, hfst, hrest⟩
    · rcases (h host).1 _ _ hfst with hval | ⟨pid, hval⟩
      · cases hval
      · exact .inr ⟨pid, by rw [Except.error.inj hval]⟩
    · rcases (h host).1 _ _ hfst with hval | ⟨pid, hval⟩
      · rw [Except.ok.inj hval] at hrest
        exact (hf middle).1 _ _ hrest
      · cases hval
  · obtain ⟨middle, hfst, hemp⟩ := (h host).2 hemp
    obtain ⟨last, hrest, hemp⟩ := (hf middle).2 hemp
    exact ⟨last, Fallible.ends_then_iff.mpr (.inr ⟨mid, middle, hfst, hrest⟩), hemp⟩

theorem elsewhere_of_empty {host : CollectHost} (hemp : host.Empty) (range : CollectRange) :
    range.Elsewhere (fun _ => False) host host :=
  ⟨⟨[], by simp, by simp⟩, fun ordinal h => by simp [hemp.1 ordinal, hemp.2 ordinal] at h⟩

theorem returns_takeResult (ordinal : ℕ) (host : CollectHost) :
    range.Returns (CollectM.takeResult ordinal) host none := by
  refine ⟨fun outcome host' hends => ?_, fun hemp => ?_⟩
  · obtain ⟨answer, served, ⟨middle, helse, hserv⟩, hdone⟩ := ends_call_iff.mp hends
    obtain ⟨rfl, rfl⟩ := ends_done_iff.mp hdone
    cases outcome with
    | error failure =>
      obtain ⟨⟨pid, rfl⟩, -⟩ := hserv
      exact .inr ⟨pid, rfl⟩
    | ok found =>
      obtain ⟨rfl, -⟩ := hserv
      left
      cases hfd : middle.results ordinal with
      | none => rfl
      | some found => exact (helse.2 ordinal (.inl (by simp [hfd]))).elim
  · have hserves : host.Serves (.takeActivityResult ordinal) (.ok none) host := by
      refine ⟨(hemp.1 ordinal).symm, ?_⟩
      rw [Function.update_eq_self_iff.mpr (hemp.1 ordinal).symm]
    exact ⟨host, .call ⟨host, elsewhere_of_empty hemp range, hserves⟩ (.done _ _), hemp⟩

theorem returns_takeError (ordinal : ℕ) (host : CollectHost) :
    range.Returns (CollectM.takeError ordinal) host none := by
  refine ⟨fun outcome host' hends => ?_, fun hemp => ?_⟩
  · obtain ⟨answer, served, ⟨middle, helse, hserv⟩, hdone⟩ := ends_call_iff.mp hends
    obtain ⟨rfl, rfl⟩ := ends_done_iff.mp hdone
    cases outcome with
    | error failure =>
      obtain ⟨⟨pid, rfl⟩, -⟩ := hserv
      exact .inr ⟨pid, rfl⟩
    | ok found =>
      obtain ⟨rfl, -⟩ := hserv
      left
      cases hfd : middle.errors ordinal with
      | none => rfl
      | some found => exact (helse.2 ordinal (.inr (by simp [hfd]))).elim
  · have hserves : host.Serves (.takeActivityError ordinal) (.ok none) host := by
      refine ⟨(hemp.2 ordinal).symm, ?_⟩
      rw [Function.update_eq_self_iff.mpr (hemp.2 ordinal).symm]
    exact ⟨host, .call ⟨host, elsewhere_of_empty hemp range, hserves⟩ (.done _ _), hemp⟩

theorem returns_removePendingAwait (host : CollectHost) :
    range.Returns CollectM.removePendingAwait host () := by
  refine ⟨fun outcome host' hends => ?_, fun hemp => ?_⟩
  · obtain ⟨answer, served, -, hdone⟩ := ends_call_iff.mp hends
    exact .inl (ends_done_iff.mp hdone).1
  · have hserves : host.Serves .removePendingAwait () { host with pinned := false } := rfl
    exact ⟨_, .call ⟨host, elsewhere_of_empty hemp range, hserves⟩ (.done _ _), hemp⟩

theorem returns_dropRuntimeEntries (ordinal : ℕ) (host : CollectHost) :
    range.Returns (dropRuntimeEntries ordinal) host () :=
  Returns.bind (returns_takeResult ordinal)
    (Returns.bind (returns_takeError ordinal) (returns_pure ())) host

theorem returns_lift {result : Except String α} {value : α} (h : result = .ok value)
    (host : CollectHost) : range.Returns (CollectM.lift result) host value := by
  subst h
  exact returns_pure value host

/-- Over members with a terminal there is nobody to cancel. -/
theorem returns_cancelOthers
    (hterms : ∀ other, ordinal ≤ other → other < ordinal + count → winner ≠ some other →
      ∃ state, recordedTerminal history other = .ok (some state)) (host : CollectHost) :
    range.Returns (cancelOthers history winner ordinal count) host () := by
  induction count generalizing ordinal host with
  | zero => exact returns_pure () host
  | succ count ih =>
    have hrest : ∀ host, range.Returns (cancelOthers history winner (ordinal + 1) count) host () :=
      ih fun other hle hlt => hterms other (by omega) (by omega)
    unfold cancelOthers
    split
    · exact hrest host
    · rename_i hne
      obtain ⟨state, hst⟩ := hterms ordinal le_rfl (by omega) hne
      exact Returns.bind (returns_dropRuntimeEntries ordinal) (Returns.bind (returns_lift hst) hrest) host

/-- Nor is there anybody to take. -/
theorem returns_takeWinner (outboxEnabled : Bool)
    (hterms : ∀ other, ordinal ≤ other → other < ordinal + count →
        ∃ state, recordedTerminal history other = .ok (some state)) (host : CollectHost) :
    range.Returns (takeWinner outboxEnabled history ordinal count) host none := by
  induction count generalizing ordinal host with
  | zero => exact returns_pure none host
  | succ count ih =>
    obtain ⟨state, hst⟩ := hterms ordinal le_rfl (by omega)
    exact Returns.bind (returns_lift hst) (ih fun other hle hlt => hterms other (by omega) (by omega)) host

theorem allCancelled_of_cancelled
    (hterms : ∀ other, ordinal ≤ other → other < ordinal + count →
        recordedTerminal history other = .ok (some .cancelled)) :
    allCancelled history ordinal count = .ok true := by
  induction count generalizing ordinal with
  | zero => rfl
  | succ count ih =>
    rw [allCancelled, hterms ordinal le_rfl (by omega)]
    exact ih fun other hle hlt => hterms other (by omega) (by omega)

theorem returns_settleRace (h : range.RaceSettled history step) (outboxEnabled : Bool)
    (scopes : List TimeoutScope) (host : CollectHost) :
    range.Returns (settleRace outboxEnabled history scopes range.baseOrdinal range.count)
      host step := by
  have hends : ∀ {step : CollectStep}, ∀ host, range.Returns (do
      CollectM.removePendingAwait
      return step) host step := fun {step} host =>
    Returns.bind returns_removePendingAwait (returns_pure step) host
  rcases h with ⟨winner, outcome, hwin, rfl, hoths⟩ | ⟨hwin, rfl, hcanc⟩
  · refine Returns.bind (returns_lift hwin) (fun host => ?_) host
    refine Returns.bind (returns_pure _) (fun host => ?_) host
    refine Returns.bind (returns_cancelOthers fun other hle hlt hne => ?_) hends host
    exact hoths other ⟨hle, hlt⟩ fun heq => hne (congrArg some heq.symm)
  · have hterms : ∀ other, range.baseOrdinal ≤ other → other < range.baseOrdinal + range.count →
        ∃ state, recordedTerminal history other = .ok (some state) := fun other hle hlt => ⟨_, hcanc other ⟨hle, hlt⟩⟩
    refine Returns.bind (returns_lift hwin) (fun host => ?_) host
    refine Returns.bind (returns_takeWinner outboxEnabled hterms) (fun host => ?_) host
    simp only
    split
    · exact Returns.bind (returns_cancelOthers fun other hle hlt _ => hterms other hle hlt) hends host
    · exact Returns.bind (returns_lift (allCancelled_of_cancelled fun other hle hlt => hcanc other ⟨hle, hlt⟩)) hends host

/-- **Over settled members a sweep returns their step**, whatever the scopes. -/
theorem returns_of_settled (h : range.Settled history step) (scopes : List TimeoutScope)
    (host : CollectHost) : range.Returns (range.sweep history scopes) host step := by
  unfold Settled at h
  unfold sweep
  cases hkind : range.kind with
  | all =>
    simp only [hkind] at h ⊢
    rw [settleAll_of_settled h]
    exact Returns.bind returns_removePendingAwait (returns_pure step) host
  | race =>
    simp only [hkind] at h ⊢
    exact returns_settleRace h _ scopes host

/-! ### Runs -/

/-- A sweep over the history, extended by other events and with nothing in the maps, returns the
step. -/
def Replays (range : CollectRange) (history : List Event) (step : CollectStep) : Prop :=
  ∀ later, (∀ event ∈ later, range.settlesMember event = false) → ∀ host : CollectHost,
    host.history = history ++ later →
    ∀ scopes, ∃ segment, currentRunSegment host.history range.runId = .ok segment ∧
      range.Returns (range.sweep segment scopes) host step

/-- A run of a collect: sweeps over the segment as it then is, and other things between them. -/
inductive Run (range : CollectRange) (delivers : ℕ → Prop) (start : CollectHost) :
    List (Except CollectError CollectStep) → CollectHost → Prop where
  /-- The run of the workflow has started. -/
  | start {segment : List Event} (started : currentRunSegment start.history range.runId = .ok segment) :
    Run range delivers start [] start
  /-- Events are appended, outcomes arrive, or a crash empties the maps. -/
  | elsewhere {sweeps : List (Except CollectError CollectStep)} {host host' : CollectHost}
    (run : Run range delivers start sweeps host) (happens : range.Elsewhere delivers host host') :
    Run range delivers start sweeps host'
  /-- A sweep, to its step or to an error. -/
  | sweep {sweeps : List (Except CollectError CollectStep)} {host host' : CollectHost}
    {segment : List Event}
    {scopes : List TimeoutScope} {outcome : Except CollectError CollectStep} (run : Run range delivers start sweeps host)
    (snapshot : currentRunSegment host.history range.runId = .ok segment)
    (ends : Fallible.Ends (range.Answers delivers) (range.sweep segment scopes) host outcome host') :
    Run range delivers start (sweeps ++ [outcome]) host'

/-- The segment of a run that has started begins with its start, and what is before it is no start
of it. -/
theorem currentRunSegment_eq_ok {segment : List Event} {runId : RunId}
    (h : currentRunSegment history runId = .ok segment) :
    (history.takeWhile fun event => !startsRun runId event) ++ segment = history ∧
      ∀ later, ((history ++ later).takeWhile fun event => !startsRun runId event) =
          (history.takeWhile fun event => !startsRun runId event) ∧
        currentRunSegment (history ++ later) runId = .ok (segment ++ later) := by
  unfold currentRunSegment at h
  split at h
  · cases h
  · rename_i hne
    obtain rfl := Except.ok.inj h
    have hspl : (history.takeWhile fun event => !startsRun runId event) ++
        (history.dropWhile fun event => !startsRun runId event) = history := List.takeWhile_append_dropWhile
    have hnil : history.dropWhile (fun event => !startsRun runId event) ≠ [] := hne
    have hlen : (history.takeWhile fun event => !startsRun runId event).length ≠ history.length :=
      fun heq => by
      have := congrArg List.length hspl
      rw [List.length_append] at this
      exact hnil (List.eq_nil_of_length_eq_zero (by omega))
    refine ⟨hspl, fun later => ⟨?_, ?_⟩⟩
    · rw [List.takeWhile_append, if_neg hlen]
    · have hdrop : (history ++ later).dropWhile (fun event => !startsRun runId event) =
          history.dropWhile (fun event => !startsRun runId event) ++ later := by
        rw [List.dropWhile_append, if_neg (by simpa using hnil)]
      rw [currentRunSegment, hdrop]
      split
      · rename_i hemp
        exact absurd (List.append_eq_nil_iff.mp hemp).1 hnil
      · rfl

/-- Every answer extends the history. -/
theorem prefix_of_serves {call : CollectCall} {answer : call.Answer}
    (h : host.Serves call answer host') : host.history <+: host'.history := by
  have hrecs : ∀ {α : Type} {operation : Instant → RecorderM α} {answer : Except DurabilityError α},
      host.Records operation answer host' → host.history <+: host'.history := by
    rintro α operation answer ⟨recordedAt, history, recorder, hends, rfl⟩
    exact prefix_of_ends hends
  cases call with
  | takeActivityResult ordinal => cases answer <;> exact h.2 ▸ List.prefix_rfl
  | takeActivityError ordinal => cases answer <;> exact h.2 ▸ List.prefix_rfl
  | recordActivityCompleted => exact hrecs h
  | recordActivityFailed => exact hrecs h
  | recordFanOutCompletion => exact hrecs h
  | recordActivityCancelledAndSettleOutbox => exact hrecs h
  | removePendingAwait =>
    obtain rfl : host' = { host with pinned := false } := h
    exact List.prefix_rfl

theorem Elsewhere.grows (h : range.Elsewhere delivers host host') :
    host.history <+: host'.history := by
  obtain ⟨⟨events, -, hhist⟩, -⟩ := h
  exact hhist ▸ List.prefix_append _ _

theorem prefix_of_program {program : Prog CollectCall CollectCall.Answer α} {value : α}
    (h : program.Ends (range.Answers delivers) host value host') :
    host.history <+: host'.history := by
  induction h with
  | done value state => exact List.prefix_rfl
  | call served rest ih =>
    obtain ⟨middle, happens, hserves⟩ := served
    exact (happens.grows.trans (prefix_of_serves hserves)).trans ih

/-- A run only extends the history. -/
theorem prefix_of_run
    (run : range.Run delivers start sweeps host) : start.history <+: host.history := by
  induction run with
  | start started => exact List.prefix_rfl
  | elsewhere run happens ih => exact ih.trans happens.grows
  | sweep run snapshot ends ih => exact ih.trans (prefix_of_program ends)

theorem started_of_run (run : range.Run delivers start sweeps host) :
    ∃ segment, currentRunSegment start.history range.runId = .ok segment := by
  induction run with
  | start started => exact ⟨_, started⟩
  | elsewhere run happens ih => exact ih
  | sweep run snapshot ends ih => exact ih

end CollectRange

/-- **A collect returns on replay what it returned live**, where no outcome arrives for an ordinal
of which an earlier run of the workflow has one, or the outbox is off. -/
theorem collect_replays (range : CollectRange) {start host host' : CollectHost}
    {sweeps : List (Except CollectError CollectStep)} {segment : List Event}
    {scopes : List TimeoutScope} {step : CollectStep}
    (run : range.Run (range.Fresh start.history) start sweeps host)
    (snapshot : currentRunSegment host.history range.runId = .ok segment)
    (ends : Fallible.Ends (range.Answers (range.Fresh start.history))
        (range.sweep segment scopes) host (.ok step) host') (hstep : step ≠ .suspend) :
    range.Replays host'.history step := by
  obtain ⟨segment', started⟩ := CollectRange.started_of_run run
  obtain ⟨later, hgrown⟩ := CollectRange.prefix_of_run run
  obtain ⟨hspl, hextends⟩ := CollectRange.currentRunSegment_eq_ok snapshot
  have hearl := ((CollectRange.currentRunSegment_eq_ok started).2 later).1
  rw [hgrown] at hearl
  have hnew : range.Unrecorded (range.Fresh start.history) segment host range.baseOrdinal range.count := by
    intro other hle hlt
    refine ⟨⟨hle, hlt⟩, fun hnone hfresh henabled => ?_⟩
    rw [← hspl, resolved_append, hearl, hfresh henabled, recordedTerminal_eq_none_iff.mp hnone]
    rfl
  obtain ⟨notes, ⟨events, hhist, hnotes⟩, hsett⟩ := CollectRange.settles_of_sweep hstep hnew ends
  intro others hoths replayed hreplayed scopes'
  refine ⟨segment ++ (events ++ others), ?_,
      CollectRange.returns_of_settled (hsett.congr ?_) scopes' replayed⟩
  · rw [hreplayed, hhist, List.append_assoc]
    exact (hextends _).2
  · have hnone : others.filter range.settlesMember = [] :=
      List.filter_eq_nil_iff.mpr fun event hev => by simp [hoths event hev]
    rw [List.filter_append, List.filter_append, List.filter_append, hnone, List.append_nil,
      ← hnotes, List.filter_filter]
    simp

/-! ### A completion that is dropped -/

/-- A workflow whose first run completed an activity and went on as a new run, which has scheduled a
fan-out of one member. -/
def continuedWorkflow : List Event :=
  numbered
    [.workflowStarted "order" .empty ⟨0⟩ none ⟨"v1"⟩,
     .activityScheduled ⟨0⟩ "quote" .empty "default" none,
     .activityStarted ⟨0⟩ 1,
     .activityCompleted ⟨0⟩ .empty 1,
     .workflowContinuedAsNew .empty none ⟨0⟩,
     .workflowStarted "order" .empty ⟨1⟩ none ⟨"v1"⟩,
     .activityScheduled ⟨0⟩ "charge" .empty "default" none,
     .activityStarted ⟨0⟩ 1]

/-- The fan-out, with the outbox on. -/
def soleMember (run : ℕ) : CollectRange := ⟨.all, 0, 1, ⟨run⟩, true, by decide⟩

/-- Its result has arrived. -/
def arrived (history : List Event) : CollectHost where
  history := history
  recorder := Recorder.resumeAt ⟨0⟩ history.length
  results ordinal := if ordinal = 0 then some (.empty, none) else none
  errors _ := none
  pinned := true

/-- The host after a crash. -/
def recovered (history : List Event) : CollectHost where
  history := history
  recorder := Recorder.resumeAt ⟨0⟩ history.length
  results _ := none
  errors _ := none
  pinned := true

/-- The host when the result of a member is taken. -/
def CollectHost.taken (host : CollectHost) (ordinal : ℕ) : CollectHost :=
  { host with results := Function.update host.results ordinal none }

theorem CollectRange.elsewhere_refl {range : CollectRange} {delivers : ℕ → Prop}
    {host : CollectHost}
    (h : ∀ ordinal, (host.results ordinal).isSome ∨ (host.errors ordinal).isSome →
        delivers ordinal) : range.Elsewhere delivers host host :=
  ⟨⟨[], by simp, by simp⟩, h⟩

/-- The collect returns the result, which the recorder has dropped: the first run has a completion
of the ordinal. A sweep with nothing in the maps then suspends. -/
theorem dropped_outcome_not_replayed :
    ∃ sweeps host host' segment step,
      (soleMember 1).Run (fun _ => True) (arrived continuedWorkflow) sweeps host ∧
      currentRunSegment host.history (soleMember 1).runId = .ok segment ∧
      Fallible.Ends ((soleMember 1).Answers fun _ => True) ((soleMember 1).sweep segment []) host
        (.ok step) host' ∧
      step ≠ .suspend ∧ ¬ (soleMember 1).Replays host'.history step := by
  have helse : ∀ host, (soleMember 1).Elsewhere (fun _ => True) host host := fun _ =>
    CollectRange.elsewhere_refl fun _ _ => trivial
  have hends : Fallible.Ends ((soleMember 1).Answers fun _ => True)
    ((soleMember 1).sweep (continuedWorkflow.drop 5) [])
      (arrived continuedWorkflow) (.ok (.allCompleted [""]))
      { (arrived continuedWorkflow).taken 0 with pinned := false } := by
    have htake : (arrived continuedWorkflow).Serves (.takeActivityResult 0)
      (.ok (some (.empty, none)))
        ((arrived continuedWorkflow).taken 0) := ⟨rfl, rfl⟩
    have hdrop : ((arrived continuedWorkflow).taken 0).Serves
      (.recordFanOutCompletion 0 (.completed .empty firstDeliveryAttempt))
        (.ok .dropped) ((arrived continuedWorkflow).taken 0) := by
      have hread : HistoryAnswers continuedWorkflow (.readHistory ⟨0⟩) (.ok continuedWorkflow) continuedWorkflow := ⟨rfl, rfl⟩
      exact ⟨0, continuedWorkflow, _, .call hread (.done _ _), rfl⟩
    have hremove : ((arrived continuedWorkflow).taken 0).Serves .removePendingAwait ()
        { (arrived continuedWorkflow).taken 0 with pinned := false } := rfl
    exact .call ⟨_, helse _, htake⟩ (.call ⟨_, helse _, hdrop⟩ (.call ⟨_, helse _, hremove⟩ (.done _ _)))
  refine ⟨[], _, _, _, _, .start rfl, rfl, hends, by simp, fun hreplays => ?_⟩
  obtain ⟨segment, hseg, hrets, -⟩ := hreplays [] (by simp) (recovered continuedWorkflow) rfl []
  obtain rfl : continuedWorkflow.drop 5 = segment := Except.ok.inj hseg
  have hemp : (soleMember 1).Elsewhere (fun _ => False) (recovered continuedWorkflow)
    (recovered continuedWorkflow) :=
    CollectRange.elsewhere_of_empty ⟨fun _ => rfl, fun _ => rfl⟩ _
  have hsuspends : Fallible.Ends ((soleMember 1).Answers fun _ => False)
    ((soleMember 1).sweep (continuedWorkflow.drop 5) [])
      (recovered continuedWorkflow) (.ok .suspend) (recovered continuedWorkflow) := by
    have hres : (recovered continuedWorkflow).Serves (.takeActivityResult 0) (.ok none)
      (recovered continuedWorkflow) :=
      ⟨rfl, by simp [recovered]⟩
    have herr : (recovered continuedWorkflow).Serves (.takeActivityError 0) (.ok none)
      (recovered continuedWorkflow) :=
      ⟨rfl, by simp [recovered]⟩
    exact .call ⟨_, hemp, hres⟩ (.call ⟨_, hemp, herr⟩ (.done _ _))
  rcases hrets _ _ hsuspends with hstep | ⟨pid, hfail⟩
  · cases hstep
  · cases hfail

/-- A first run, which has scheduled a fan-out of two members. -/
def firstRun : List Event :=
  numbered
    [.workflowStarted "order" .empty ⟨0⟩ none ⟨"v1"⟩,
     .activityScheduled ⟨0⟩ "charge" .empty "default" none,
     .activityStarted ⟨0⟩ 1,
     .activityScheduled ⟨1⟩ "ship" .empty "default" none,
     .activityStarted ⟨1⟩ 1]

/-- The fan-out, with the outbox on. -/
def twoMembers : CollectRange := ⟨.all, 0, 2, ⟨0⟩, true, by decide⟩

/-- The completion of a member. -/
def memberCompleted (seq ordinal : ℕ) : Event :=
  ⟨⟨seq, 0, ⟨0⟩⟩, .activityCompleted ⟨ordinal⟩ .empty 1⟩

/-- The host when the result of a member is recorded. -/
def CollectHost.recorded (host : CollectHost) (ordinal : ℕ) : CollectHost :=
  { host.taken ordinal with
    history := host.history ++ [memberCompleted (host.history.length + 1) ordinal]
    recorder := Recorder.resumeAt ⟨0⟩ (host.history.length + 1) }

/-- The host when the result of the second member has arrived, after a sweep recorded that of the
first. -/
def secondArrived : CollectHost :=
  { (arrived firstRun).recorded 0 with results := fun ordinal => if ordinal = 1 then some (.empty, none) else none }

/-- Without an earlier run the results are recorded, by two sweeps, and returned on replay. -/
theorem collect_replays_firstRun :
    ∃ host' : CollectHost, (arrived firstRun).history.length + 2 = host'.history.length ∧
      twoMembers.Replays host'.history (.allCompleted ["", ""]) := by
  have hfresh : ∀ ordinal, twoMembers.Fresh (arrived firstRun).history ordinal := fun _ _ => rfl
  have helse : ∀ host, twoMembers.Elsewhere (twoMembers.Fresh (arrived firstRun).history) host host := fun _ =>
    CollectRange.elsewhere_refl fun ordinal _ => hfresh ordinal
  -- The first sweep finds one result and suspends.
  have hfst : Fallible.Ends (twoMembers.Answers (twoMembers.Fresh (arrived firstRun).history)) (twoMembers.sweep firstRun [])
      (arrived firstRun) (.ok .suspend) ((arrived firstRun).recorded 0) := by
    have htake : (arrived firstRun).Serves (.takeActivityResult 0) (.ok (some (.empty, none))) ((arrived firstRun).taken 0) :=
      ⟨rfl, rfl⟩
    have hrec : ((arrived firstRun).taken 0).Serves (.recordFanOutCompletion 0 (.completed .empty firstDeliveryAttempt))
        (.ok .recorded) ((arrived firstRun).recorded 0) := by
      have hread : HistoryAnswers firstRun (.readHistory ⟨0⟩) (.ok firstRun) firstRun := ⟨rfl, rfl⟩
      have happ : HistoryAnswers firstRun (.append ⟨0⟩ [memberCompleted 6 0] 5) (.ok ()) (firstRun ++ [memberCompleted 6 0]) :=
        rfl
      exact ⟨0, _, _, .call hread (.call happ (.done _ _)), rfl⟩
    have hres : ((arrived firstRun).recorded 0).Serves (.takeActivityResult 1) (.ok none) ((arrived firstRun).recorded 0) :=
      ⟨rfl, by simp [CollectHost.recorded, CollectHost.taken, arrived]⟩
    have herr : ((arrived firstRun).recorded 0).Serves (.takeActivityError 1) (.ok none) ((arrived firstRun).recorded 0) :=
      ⟨rfl, by simp [CollectHost.recorded, CollectHost.taken, arrived]⟩
    exact .call ⟨_, helse _, htake⟩ (.call ⟨_, helse _, hrec⟩ (.call ⟨_, helse _, hres⟩
      (.call ⟨_, helse _, herr⟩ (.done _ _))))
  have hsnd : Fallible.Ends (twoMembers.Answers (twoMembers.Fresh (arrived firstRun).history))
      (twoMembers.sweep secondArrived.history []) secondArrived (.ok (.allCompleted ["", ""]))
      { secondArrived.recorded 1 with pinned := false } := by
    have htake : secondArrived.Serves (.takeActivityResult 1) (.ok (some (.empty, none))) (secondArrived.taken 1) := ⟨rfl, rfl⟩
    have hrec : (secondArrived.taken 1).Serves (.recordFanOutCompletion 1 (.completed .empty firstDeliveryAttempt))
        (.ok .recorded) (secondArrived.recorded 1) := by
      have hread : HistoryAnswers secondArrived.history (.readHistory ⟨0⟩) (.ok secondArrived.history) secondArrived.history :=
        ⟨rfl, rfl⟩
      have happ : HistoryAnswers secondArrived.history (.append ⟨0⟩ [memberCompleted 7 1] 6) (.ok ())
          (secondArrived.history ++ [memberCompleted 7 1]) := rfl
      exact ⟨0, _, _, .call hread (.call happ (.done _ _)), rfl⟩
    have hremove : (secondArrived.recorded 1).Serves .removePendingAwait () { secondArrived.recorded 1 with pinned := false } := rfl
    exact .call ⟨_, helse _, htake⟩ (.call ⟨_, helse _, hrec⟩ (.call ⟨_, helse _, hremove⟩ (.done _ _)))
  have happens : twoMembers.Elsewhere (twoMembers.Fresh (arrived firstRun).history) ((arrived firstRun).recorded 0) secondArrived :=
    ⟨⟨[], by simp, by simp [secondArrived]⟩, fun ordinal _ => hfresh ordinal⟩
  exact ⟨_, rfl, collect_replays twoMembers (.elsewhere (.sweep (.start rfl) rfl hfst) happens) rfl hsnd (by simp)⟩

end Aion
