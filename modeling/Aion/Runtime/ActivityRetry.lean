import Aion.Core.Status
import Aion.Durability.ActivityWalk

/-!
# When a retry loop stands down

The completion task of an activity retries it and records each attempt. Before
every record it asks whether the activity, or its whole workflow, already reached
a terminal outcome (`activity_settled`, `nif_activity_retry.rs`): recording an
attempt after a terminal would make replay read the terminal as superseded.

A reopen supersedes terminals. The scan recognises only a reopen that names the
activity; a reopen that does not is passed over, and the workflow terminal behind
it, which it superseded just the same, still settles the activity.
`activitySettled_correct_iff` says exactly when the answer is right all the same.
-/

namespace Aion

open HistoryCursor Scan

/-- What `activity_settled` reads off one event. -/
def settlementMark (activityId : ActivityId) (event : Event) : Option Bool :=
  match event.body with
  | .activityCompleted id _ _ => if id = activityId then some true else none
  | .activityCancelled id _ => if id = activityId then some true else none
  | .activityFailed id error _ => if id = activityId ∧ !error.isRetryable then some true else none
  | .workflowReopened _ reopened => if reopened.contains activityId then some false else none
  | .workflowCompleted _ => some true
  | .workflowFailed _ => some true
  | .workflowCancelled _ => some true
  | .workflowTimedOut _ => some true
  | .workflowContinuedAsNew .. => some true
  | _ => none

/-- `activity_settled`: the newest decisive event wins. -/
def activitySettled (history : List Event) (activityId : ActivityId) : Bool :=
  (newest (settlementMark activityId) history).getD false

/-- An event of this kind that no later reopen naming the activity supersedes. -/
def Standing (history : List Event) (activityId : ActivityId) (kind : Event → Bool) : Prop :=
  ∃ before event after, history = before ++ event :: after ∧ kind event ∧
    ∀ later ∈ after, isReopenOf activityId later = false

variable {activityId : ActivityId} {event : Event}

theorem settlementMark_eq_some_true_iff :
    settlementMark activityId event = some true ↔
      isActivityTerminal activityId event ∨ isWorkflowTerminal event := by
  obtain ⟨envelope, body⟩ := event
  cases body <;> simp [settlementMark, isActivityTerminal, isWorkflowTerminal]

theorem settlementMark_eq_some_false_iff :
    settlementMark activityId event = some false ↔ isReopenOf activityId event := by
  obtain ⟨envelope, body⟩ := event
  cases body <;> simp [settlementMark, isReopenOf]

/-- The newest decisive event of a history with a standing terminal is a terminal. -/
theorem newest_settlementMark_of_standing (before : List Event)
    {after : List Event} (hmark : settlementMark activityId event = some true)
    (standing : ∀ later ∈ after, isReopenOf activityId later = false) :
    newest (settlementMark activityId) (before ++ event :: after) = some true := by
  rw [newest_append, newest_cons, hmark]
  cases hafter : newest (settlementMark activityId) after with
  | none => rfl
  | some settled =>
    -- a newer decisive event is no reopen of the activity, so it settles too
    obtain ⟨_, decisive, _, rfl, hdecisive, -⟩ := newest_eq_some_iff.mp hafter
    have hnot := standing decisive (by simp)
    cases settled with
    | true => rfl
    | false => simp [settlementMark_eq_some_false_iff.mp hdecisive] at hnot

/-- **What `activity_settled` decides**: whether a terminal of the activity, or one
of the workflow, stands. -/
theorem activitySettled_iff (history : List Event) (activityId : ActivityId) :
    activitySettled history activityId ↔
      Standing history activityId (isActivityTerminal activityId) ∨
        Standing history activityId isWorkflowTerminal := by
  have split : activitySettled history activityId ↔
      newest (settlementMark activityId) history = some true := by
    unfold activitySettled
    cases newest (settlementMark activityId) history <;> simp
  rw [split]
  constructor
  · intro h
    obtain ⟨before, event, after, rfl, hmark, hafter⟩ := newest_eq_some_iff.mp h
    have standing : ∀ later ∈ after, isReopenOf activityId later = false := by
      intro later hlat
      by_contra hreopen
      have := settlementMark_eq_some_false_iff.mpr (Bool.not_eq_false _ ▸ hreopen)
      simp [hafter later hlat] at this
    rcases settlementMark_eq_some_true_iff.mp hmark with hkind | hkind
    · exact .inl ⟨before, event, after, rfl, hkind, standing⟩
    · exact .inr ⟨before, event, after, rfl, hkind, standing⟩
  · rintro (⟨before, event, after, rfl, hkind, standing⟩ | ⟨before, event, after, rfl,
      hkind, standing⟩)
    · exact newest_settlementMark_of_standing before
        (settlementMark_eq_some_true_iff.mpr (.inl hkind)) standing
    · exact newest_settlementMark_of_standing before
        (settlementMark_eq_some_true_iff.mpr (.inr hkind)) standing

theorem isLeaseStart_of_isReopenOf (h : isReopenOf activityId event) : isLeaseStart event := by
  obtain ⟨envelope, body⟩ := event
  cases body <;> first | rfl | cases h

/-- The terminal of the current lease stands against every reopen. -/
theorem standing_of_currentLeaseTerminal {history : List Event} (activityId : ActivityId)
    (terminal : (currentLeaseTerminal history).isSome) :
    Standing history activityId isWorkflowTerminal := by
  obtain ⟨event, hterm⟩ := Option.isSome_iff_exists.mp terminal
  obtain ⟨before, after, rfl, hkind, hafter⟩ := currentLeaseTerminal_eq_some_iff.mp hterm
  refine ⟨before, event, after, rfl, hkind, fun later hlat => ?_⟩
  by_contra hreopen
  have := isLeaseStart_of_isReopenOf (Bool.not_eq_false _ ▸ hreopen)
  simp [(hafter later hlat).2] at this

/-- **When the settlement check is reopen-aware.** `activity_settled` answers "the
lease is terminal, or the activity has a terminal that no later reopen of it
supersedes" exactly when one of the two holds or every workflow terminal of the
history is followed by a reopen that names the activity. -/
theorem activitySettled_correct_iff (history : List Event) (activityId : ActivityId) :
    (activitySettled history activityId = true ↔
        (currentLeaseTerminal history).isSome ∨
          Standing history activityId (isActivityTerminal activityId)) ↔
      (currentLeaseTerminal history).isSome ∨
        Standing history activityId (isActivityTerminal activityId) ∨
        ∀ before event after, history = before ++ event :: after → isWorkflowTerminal event →
          ∃ later ∈ after, isReopenOf activityId later := by
  have unfolded : (∀ before event after, history = before ++ event :: after →
      isWorkflowTerminal event →
      ∃ later ∈ after, isReopenOf activityId later) ↔ ¬ Standing history activityId isWorkflowTerminal := by
    constructor
    · rintro h ⟨before, event, after, heq, hkind, standing⟩
      obtain ⟨later, hlat, hreopen⟩ := h before event after heq hkind
      simp [standing later hlat] at hreopen
    · intro h before event after heq hkind
      by_contra hnone
      push Not at hnone
      exact h ⟨before, event, after, heq, hkind, fun later hlat => by simpa using hnone later hlat⟩
  have lease : (currentLeaseTerminal history).isSome →
    Standing history activityId isWorkflowTerminal :=
    standing_of_currentLeaseTerminal activityId
  rw [activitySettled_iff, unfolded]
  constructor
  · intro claim
    by_cases hwf : Standing history activityId isWorkflowTerminal
    · rcases claim.mp (.inr hwf) with hlease | hact
      · exact .inl hlease
      · exact .inr (.inl hact)
    · exact .inr (.inr hwf)
  · rintro (hlease | hact | hwf)
    · exact ⟨fun _ => .inl hlease, fun _ => .inr (lease hlease)⟩
    · exact ⟨fun _ => .inr hact, fun _ => .inl hact⟩
    · constructor
      · rintro (hact | hstanding)
        · exact .inr hact
        · exact absurd hstanding hwf
      · rintro (hlease | hact)
        · exact absurd (lease hlease) hwf
        · exact .inl hact

/-- A run that was cancelled with an activity in flight and then reopened. A
cancelled run is reopened with no activity named. -/
def reopenedAfterCancel : List Event :=
  numbered
    [.workflowStarted "order" .empty ⟨0⟩ none ⟨"v1"⟩,
     .activityScheduled ⟨0⟩ "charge" .empty "default" none,
     .activityStarted ⟨0⟩ 1,
     .workflowCancelled "operator",
     .workflowReopened ⟨0⟩ []]

/-- The reopened run is live and its activity has no terminal, yet the activity counts as
settled. -/
theorem reopenedAfterCancel_settled :
    activitySettled reopenedAfterCancel ⟨0⟩ = true ∧
      currentLeaseTerminal reopenedAfterCancel = none ∧
      ¬ Standing reopenedAfterCancel ⟨0⟩ (isActivityTerminal ⟨0⟩) := by
  refine ⟨rfl, rfl, ?_⟩
  rintro ⟨before, event, after, heq, hkind, -⟩
  have hmem : event ∈ reopenedAfterCancel := by simp [heq]
  have hnone : ∀ event ∈ reopenedAfterCancel, isActivityTerminal ⟨0⟩ event = false := by decide
  simp [hnone event hmem] at hkind

end Aion
