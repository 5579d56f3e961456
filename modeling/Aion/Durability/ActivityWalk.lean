import Aion.Durability.Cursor
import Mathlib.Order.Bounds.Basic

/-!
# The walk over an activity

`resolve_activity` walks from an activity's scheduling event to its outcome,
collecting the activity's own events and leaving every other event in place. What
the loop computes is said here once: it stops at the first index that settles the
activity (`settlesAt`) and has then collected the activity's own indices up to it
(`walkActivity_eq`).
-/

namespace Aion

namespace HistoryCursor

/-! ### An activity's own events -/

/-- The event is one of the activity's own. -/
def isActivityEvent (activityId : ActivityId) (event : Event) : Bool :=
  match event.body with
  | .activityScheduled eventActivityId .. => eventActivityId == activityId
  | .activityStarted eventActivityId _ => eventActivityId == activityId
  | .activityFailed eventActivityId _ _ => eventActivityId == activityId
  | .activityCompleted eventActivityId _ _ => eventActivityId == activityId
  | .activityCancelled eventActivityId _ => eventActivityId == activityId
  | _ => false

/-- The walk of the activity ends at the event: a completion, a cancellation, or a
final failure that nothing later supersedes. -/
def settles (events : List Event) (activityId : ActivityId) (index : ℕ) (event : Event) : Bool :=
  match event.body with
  | .activityFailed eventActivityId error _ =>
    eventActivityId == activityId && !error.isRetryable &&
      !activityReopenedAfter events (index + 1) activityId &&
      !hasLaterActivityAttemptOrOutcome events (index + 1) activityId
  | .activityCompleted eventActivityId _ _ => eventActivityId == activityId
  | .activityCancelled eventActivityId _ => eventActivityId == activityId
  | _ => false

/-- The event is a terminal of the activity: completed, cancelled, or failed for good. -/
def isActivityTerminal (activityId : ActivityId) (event : Event) : Bool :=
  match event.body with
  | .activityCompleted eventActivityId _ _ => eventActivityId == activityId
  | .activityCancelled eventActivityId _ => eventActivityId == activityId
  | .activityFailed eventActivityId error _ => eventActivityId == activityId && !error.isRetryable
  | _ => false

/-- The index holds one of the activity's own events. -/
def belongsAt (events : List Event) (activityId : ActivityId) (index : ℕ) : Bool :=
  events[index]?.any (isActivityEvent activityId)

/-- The walk of the activity ends at the index. -/
def settlesAt (events : List Event) (activityId : ActivityId) (index : ℕ) : Bool :=
  events[index]?.any (settles events activityId index)

/-- The activity's own indices from `first` through `last`. -/
def activitySpan (events : List Event) (activityId : ActivityId) (first last : ℕ) : List ℕ :=
  (List.range' first (last + 1 - first)).filter (belongsAt events activityId)

variable {activityId : ActivityId} {events : List Event} {index first : ℕ}

theorem lt_length_of_settlesAt (h : settlesAt events activityId index) : index < events.length := by
  obtain ⟨event, at_index, _⟩ := (Option.any_eq_true _ _).mp h
  exact (List.getElem?_eq_some_iff.mp at_index).1

theorem belongsAt_of_settlesAt
    (h : settlesAt events activityId index) : belongsAt events activityId index := by
  obtain ⟨event, at_index, hs⟩ := (Option.any_eq_true _ _).mp h
  refine (Option.any_eq_true _ _).mpr ⟨event, at_index, ?_⟩
  unfold settles at hs
  unfold isActivityEvent
  split at hs <;> simp_all

theorem mem_activitySpan {last j : ℕ} :
    j ∈ activitySpan events activityId first last ↔
      first ≤ j ∧ j ≤ last ∧ belongsAt events activityId j := by
  rw [activitySpan, List.mem_filter, List.mem_range'_1]
  constructor
  · rintro ⟨⟨hle, hlt⟩, hb⟩
    exact ⟨hle, by omega, hb⟩
  · rintro ⟨hle, hlt, hb⟩
    exact ⟨⟨hle, by omega⟩, hb⟩

/-- A span starts with its first index when that is the activity's. -/
theorem activitySpan_cons {last : ℕ} (hle : first ≤ last) :
    activitySpan events activityId first last =
      (if belongsAt events activityId first then [first] else []) ++
        activitySpan events activityId (first + 1) last := by
  rw [activitySpan, activitySpan, show last + 1 - first = (last + 1 - (first + 1)) + 1 by omega,
    List.range'_succ, List.filter_cons]
  split_ifs <;> simp

theorem activitySpan_pairwise (events : List Event) (activityId : ActivityId) (first last : ℕ) :
    (activitySpan events activityId first last).Pairwise (· < ·) :=
  List.Pairwise.filter _ List.pairwise_lt_range'

/-- The activity an index schedules. -/
def schedulesAt (events : List Event) (activityId : ActivityId) (index : ℕ) : Prop :=
  keyForEvent events index = some (.activity activityId.sequencePosition)

theorem schedulesAt_iff :
    schedulesAt events activityId index ↔
      ∃ envelope activityType input taskQueue node, events[index]? =
        some ⟨envelope, .activityScheduled activityId activityType input taskQueue node⟩ := by
  unfold schedulesAt keyForEvent
  constructor
  · intro h
    split at h
    · cases h
    · rename_i event at_index
      obtain ⟨envelope, body⟩ := event
      cases body <;> simp only [keyForPositionlessEvent, reduceCtorEq, Option.some.injEq,
        CorrelationKey.activity.injEq] at h
      rename_i scheduled _ _ _ _
      obtain rfl : scheduled = activityId := by cases scheduled; cases activityId; simp_all
      exact ⟨_, _, _, _, _, at_index⟩
  · rintro ⟨envelope, activityType, input, taskQueue, node, at_index⟩
    simp [at_index, keyForPositionlessEvent]

theorem belongsAt_of_schedulesAt
    (h : schedulesAt events activityId index) : belongsAt events activityId index := by
  obtain ⟨envelope, activityType, input, taskQueue, node, at_index⟩ := schedulesAt_iff.mp h
  simp [belongsAt, at_index, isActivityEvent]

/-! ### The loop -/

/-- One turn of the walk. -/
theorem walkActivity_cons (events : List Event) (activityId : ActivityId) (event : Event)
    (rest : List Event) (index : ℕ) (matched : List ℕ) :
    walkActivity events activityId (event :: rest) index matched =
      let matched' := matched ++ if isActivityEvent activityId event then [index] else []
      if settles events activityId index event then some matched'
      else walkActivity events activityId rest (index + 1) matched' := by
  obtain ⟨envelope, body⟩ := event
  cases body <;> simp only [walkActivity, isActivityEvent, settles, beq_iff_eq] <;>
    split_ifs <;> simp_all

/-- **The walk's result**: it ends at the first settling index, having taken the
activity's own indices on the way; without one it exhausts. -/
theorem walkActivity_eq (events : List Event) (activityId : ActivityId) (index : ℕ)
    (matched : List ℕ) :
    (∃ last, IsLeast {t | index ≤ t ∧ settlesAt events activityId t} last ∧
        walkActivity events activityId (events.drop index) index matched =
          some (matched ++ activitySpan events activityId index last)) ∨
      (∀ t, index ≤ t → ¬ settlesAt events activityId t) ∧
        walkActivity events activityId (events.drop index) index matched = none := by
  generalize hrest : events.drop index = rest
  induction rest generalizing index matched with
  | nil =>
    refine .inr ⟨fun t hle ht => ?_, rfl⟩
    have := List.drop_eq_nil_iff.mp hrest
    have := lt_length_of_settlesAt ht
    omega
  | cons event rest ih =>
    have at_index : events[index]? = some event := by
      rw [← Nat.add_zero index, ← List.getElem?_drop, hrest]; rfl
    have hrest' : events.drop (index + 1) = rest := by
      rw [← List.drop_drop, hrest]; rfl
    have belongs : belongsAt events activityId index = isActivityEvent activityId event := by
      simp [belongsAt, at_index]
    have settled : settlesAt events activityId index = settles events activityId index event := by
      simp [settlesAt, at_index]
    rw [walkActivity_cons]
    by_cases hs : settles events activityId index event
    · -- the walk ends here
      refine .inl ⟨index, ⟨⟨le_refl _, settled.trans hs⟩, fun t ht => ht.1⟩, ?_⟩
      have span : activitySpan events activityId index index =
          if isActivityEvent activityId event then [index] else [] := by
        rw [activitySpan_cons le_rfl, belongs]
        simp [activitySpan]
      simp [hs, span]
    · -- the walk goes on
      simp only [hs, Bool.false_eq_true, if_false]
      rcases ih (index + 1) _ hrest' with ⟨last, ⟨⟨hle, hset⟩, hmin⟩, hwalk⟩ | ⟨hnone, hwalk⟩
      · refine .inl ⟨last, ⟨⟨by omega, hset⟩, fun t ht => ?_⟩, ?_⟩
        · rcases Nat.eq_or_lt_of_le ht.1 with rfl | hlt
          · exact absurd (settled.symm.trans ht.2) hs
          · exact hmin ⟨hlt, ht.2⟩
        · rw [hwalk, activitySpan_cons (show index ≤ last by omega), belongs, List.append_assoc]
      · refine .inr ⟨fun t hle ht => ?_, hwalk⟩
        rcases Nat.eq_or_lt_of_le hle with rfl | hlt
        · exact hs (settled.symm.trans ht)
        · exact hnone t hlt ht

/-- The walk stays within the history. -/
theorem lt_length_of_mem_walk {matched indices : List ℕ} (bounds : ∀ j ∈ matched, j < events.length)
    (hwalk : walkActivity events activityId (events.drop index) index matched = some indices) :
    ∀ j ∈ indices, j < events.length := by
  rcases walkActivity_eq events activityId index matched with ⟨last, least, heq⟩ | ⟨-, heq⟩
  · obtain rfl := Option.some.inj (hwalk.symm.trans heq)
    intro j hj
    rcases List.mem_append.mp hj with hj | hj
    · exact bounds j hj
    · exact (mem_activitySpan.mp hj).2.1.trans_lt (lt_length_of_settlesAt least.1.2)
  · exact absurd (hwalk.symm.trans heq) (by simp)

/-- The walk's result depends only on which indices settle the activity and which are its own. -/
theorem walkActivity_congr {events' : List Event} (index : ℕ) (matched : List ℕ)
    (settled : ∀ t, settlesAt events' activityId t = settlesAt events activityId t)
    (belongs : ∀ t, belongsAt events' activityId t = belongsAt events activityId t) :
    walkActivity events' activityId (events'.drop index) index matched =
      walkActivity events activityId (events.drop index) index matched := by
  have span (last : ℕ) : activitySpan events' activityId index last =
      activitySpan events activityId index last := List.filter_congr fun t _ => belongs t
  have sets : {t | index ≤ t ∧ settlesAt events' activityId t} =
      {t | index ≤ t ∧ settlesAt events activityId t} := by simp only [settled]
  rcases walkActivity_eq events activityId index matched with ⟨last, least, heq⟩ | ⟨hnone, heq⟩
  · rcases walkActivity_eq events' activityId index matched with ⟨last', least', heq'⟩ | ⟨hnone', -⟩
    · rw [sets] at least'
      rw [heq, heq', span, least'.unique least]
    · exact absurd ((settled last).trans least.1.2) (hnone' last least.1.1)
  · rcases walkActivity_eq events' activityId index matched with ⟨last', least', -⟩ | ⟨-, heq'⟩
    · exact absurd ((settled last').symm.trans least'.1.2) (hnone last' least'.1.1)
    · rw [heq, heq']

end HistoryCursor

end Aion
