import Aion.Durability.Command
import Aion.Library.FiniteMaps

/-!
# Correlation keys of a whole history

`keyForEvent` counts the prior events of one kind again for each index; `correlationKeysForHistory`
goes through the history once, with a counter for each signal name and one for the child starts
(`correlation.rs`). The counters stand, after a prefix, at what the prefix holds
(`OccurrenceCounters.Counts`), so the two give the same keys, and a key that counts names one event
alone (`correlation_keys_agree`).

The counters of the source are machine integers; a slice is too short for them to overflow, and
they are natural numbers here.
-/

namespace Aion

open FiniteMaps

/-! ### Counting -/

section Counting

variable {α : Type*} {wanted : α → Bool} {before after before' after' : List α} {a a' : α}

/-- An element has as many before it as another only when it is the same one. -/
theorem length_eq_of_countP_eq (hspl : before ++ a :: after = before' ++ a' :: after')
    (ha : wanted a) (ha' : wanted a') (hcount : before.countP wanted = before'.countP wanted) :
    before.length = before'.length := by
  induction before generalizing before' with
  | nil =>
    cases before' with
    | nil => rfl
    | cons b before' =>
      obtain ⟨rfl, -⟩ := List.cons.inj hspl
      simp [ha] at hcount
  | cons b before ih =>
    cases before' with
    | nil =>
      obtain ⟨rfl, -⟩ := List.cons.inj hspl
      simp [ha'] at hcount
    | cons b' before' =>
      obtain ⟨rfl, hrest⟩ := List.cons.inj hspl
      rw [List.countP_cons, List.countP_cons, Nat.add_right_cancel_iff] at hcount
      rw [List.length_cons, List.length_cons, ih hrest hcount]

/-- What stands at an index, with what is before it. -/
theorem getElem?_eq_some_iff_split {l : List α} {i : ℕ} :
    l[i]? = some a ↔ ∃ before after, l = before ++ a :: after ∧ before.length = i := by
  constructor
  · intro h
    obtain ⟨hi, rfl⟩ := List.getElem?_eq_some_iff.mp h
    refine ⟨l.take i, l.drop (i + 1), ?_, List.length_take_of_le hi.le⟩
    rw [← List.drop_eq_getElem_cons hi, List.take_append_drop]
  · rintro ⟨before, after, rfl, rfl⟩
    simp

end Counting

/-! ### Keys that count -/

/-- The events that a key counts, and how many of them it says are before its own. -/
def CorrelationKey.occurrence : CorrelationKey → Option ((Event → Bool) × ℕ)
  | .signal name index => some (isSignalNamed name, index)
  | .child ordinal => some (isChildStart, ordinal)
  | _ => none

variable {events before after : List Event} {event : Event} {key : CorrelationKey}
  {counted : Event → Bool} {i j n : ℕ}

/-- An event has a key that counts when it is of the kind and so many of the kind are before it. -/
theorem keyForEvent_eq_some_iff (hkey : key.occurrence = some (counted, n)) :
    keyForEvent events j = some key ↔
      ∃ before event after, events = before ++ event :: after ∧ before.length = j ∧ counted event ∧
        before.countP counted = n := by
  constructor
  · intro h
    obtain ⟨event, hev⟩ : ∃ event, events[j]? = some event := by
      cases hev : events[j]? with
      | none => simp [keyForEvent, hev] at h
      | some event => exact ⟨event, rfl⟩
    obtain ⟨before, after, rfl, rfl⟩ := getElem?_eq_some_iff_split.mp hev
    refine ⟨before, event, after, rfl, rfl, ?_⟩
    obtain ⟨envelope, body⟩ := event
    cases body <;>
      simp only [keyForEvent, hev, keyForPositionlessEvent, List.take_left, Option.some.injEq, reduceCtorEq] at h
    all_goals
      subst h
      simp only [CorrelationKey.occurrence, Option.some.injEq, Prod.mk.injEq, reduceCtorEq] at hkey
    all_goals
      obtain ⟨rfl, rfl⟩ := hkey
      simp [isSignalNamed, isChildStart]
  · rintro ⟨before, ⟨envelope, body⟩, after, rfl, rfl, hcounted, rfl⟩
    cases key <;> simp only [CorrelationKey.occurrence, Option.some.injEq, Prod.mk.injEq,
      reduceCtorEq] at hkey
    all_goals
      obtain ⟨rfl, rfl⟩ := hkey
      cases body <;> simp [isSignalNamed, isChildStart] at hcounted <;> simp [keyForEvent, hcounted]

/-- A key that counts names one event at most. -/
theorem index_eq_of_key (hkey : key.occurrence = some (counted, n))
    (hi : keyForEvent events i = some key) (hj : keyForEvent events j = some key) : i = j := by
  obtain ⟨before, event, after, rfl, rfl, hcounted, hn⟩ := (keyForEvent_eq_some_iff hkey).mp hi
  obtain ⟨before', event', after', hspl, rfl, hcounted', hn'⟩ :=
    (keyForEvent_eq_some_iff hkey).mp hj
  exact length_eq_of_countP_eq hspl hcounted hcounted' (hn.trans hn'.symm)

/-! ### One pass -/

/-- Running occurrence counts used to derive positional keys in one history pass. -/
structure OccurrenceCounters where
  /-- How many signals of a name there were. -/
  signalCounts : Map String ℕ
  /-- How many child starts there were. -/
  childSpawns : ℕ

/-- `OccurrenceCounters::default`. -/
def OccurrenceCounters.default : OccurrenceCounters := ⟨∅, 0⟩

/-- The count of a name, zero for a name that was not met. -/
def OccurrenceCounters.signalCount (counters : OccurrenceCounters) (name : String) : ℕ :=
  (counters.signalCounts.lookup name).getD 0

/-- The counters after one more signal of the name. -/
def OccurrenceCounters.countSignal (counters : OccurrenceCounters) (name : String) :
    OccurrenceCounters :=
  { counters with signalCounts := counters.signalCounts.insert name (counters.signalCount name + 1) }

/-- `key_for_event_with_counters`. -/
def keyForEventWithCounters (event : Event) (counters : OccurrenceCounters) :
    Option CorrelationKey × OccurrenceCounters :=
  match event.body with
  | .signalReceived name _ =>
    (some (.signal name (counters.signalCount name)), counters.countSignal name)
  | .signalSent _ name _ => (some (.signal name (counters.signalCount name)), counters.countSignal name)
  | .childWorkflowStarted .. =>
    (some (.child counters.childSpawns), { counters with childSpawns := counters.childSpawns + 1 })
  | body => (keyForPositionlessEvent body, counters)

/-- The keys of the events from here on, the counters going from one to the next. -/
def keysWithCounters (counters : OccurrenceCounters) : List Event → List (Option CorrelationKey)
  | [] => []
  | event :: rest =>
    let (key, counters') := keyForEventWithCounters event counters
    key :: keysWithCounters counters' rest

/-- `correlation_keys_for_history`. -/
def correlationKeysForHistory (events : List Event) : List (Option CorrelationKey) :=
  keysWithCounters .default events

/-- The counters stand at what these events hold. -/
structure OccurrenceCounters.Counts (counters : OccurrenceCounters) (before : List Event) :
    Prop where
  signals : ∀ name, counters.signalCount name = before.countP (isSignalNamed name)
  spawns : counters.childSpawns = before.countP isChildStart

variable {counters : OccurrenceCounters}

theorem OccurrenceCounters.counts_default : OccurrenceCounters.default.Counts [] :=
  ⟨fun _ => rfl, rfl⟩

@[simp]
theorem OccurrenceCounters.signalCount_countSignal (counters : OccurrenceCounters)
    (name name' : String) :
    (counters.countSignal name).signalCount name' = counters.signalCount name' + if name =
      name' then 1 else 0 := by
  unfold signalCount countSignal
  rw [lookup_insert_eq]
  by_cases h : name = name'
  · subst h
    simp [signalCount]
  · simp [h, Ne.symm h]

/-- The counters at an event give its key. -/
theorem OccurrenceCounters.Counts.key_eq (h : counters.Counts before) (event : Event)
    (after : List Event) :
    (keyForEventWithCounters event counters).1 =
      keyForEvent (before ++ event :: after) before.length := by
  obtain ⟨envelope, body⟩ := event
  cases body <;> simp [keyForEvent, keyForEventWithCounters, h.signals, h.spawns]

/-- And they count the event. -/
theorem OccurrenceCounters.Counts.step (h : counters.Counts before) (event : Event) :
    (keyForEventWithCounters event counters).2.Counts (before ++ [event]) := by
  obtain ⟨envelope, body⟩ := event
  constructor
  · intro name
    rw [List.countP_append, ← h.signals, List.countP_singleton]
    cases body <;> simp [keyForEventWithCounters, isSignalNamed]
    all_goals rfl
  · rw [List.countP_append, ← h.spawns, List.countP_singleton]
    cases body <;> simp [keyForEventWithCounters, isChildStart, countSignal]

/-- From any prefix on, the pass gives the keys of the events that are left. -/
theorem OccurrenceCounters.Counts.getElem?_keys (h : counters.Counts before) {rest : List Event}
    (hi : i < rest.length) :
    (keysWithCounters counters rest)[i]? =
      some (keyForEvent (before ++ rest) (before.length + i)) := by
  induction rest generalizing before counters i with
  | nil => simp at hi
  | cons event rest ih =>
    rw [keysWithCounters]
    cases i with
    | zero => simp [h.key_eq event rest]
    | succ i =>
      have hrest := ih (h.step event) (i := i) (by simpa using hi)
      simpa [Nat.add_assoc, Nat.add_comm 1] using hrest

theorem length_keysWithCounters (counters : OccurrenceCounters) (events : List Event) :
    (keysWithCounters counters events).length = events.length := by
  induction events generalizing counters with
  | nil => rfl
  | cons event rest ih => simp [keysWithCounters, ih]

/-- **One pass and counting agree.** The keys of a history are the keys of its indices, and no two
indices have one signal key or one child key. -/
theorem correlation_keys_agree (events : List Event) :
    (correlationKeysForHistory events).length = events.length ∧
    (∀ i < events.length, (correlationKeysForHistory events)[i]? = some (keyForEvent events i)) ∧
    (∀ i j name n, keyForEvent events i = some (.signal name n) →
        keyForEvent events j = some (.signal name n) → i = j) ∧
    ∀ i j n, keyForEvent events i = some (.child n) → keyForEvent events j = some (.child n) →
      i = j := by
  refine ⟨length_keysWithCounters _ events, fun i hi => ?_, fun i j name n => index_eq_of_key rfl,
    fun i j n => index_eq_of_key rfl⟩
  have h := OccurrenceCounters.counts_default.getElem?_keys hi
  rwa [List.nil_append, List.length_nil, Nat.zero_add] at h

/-- Signals of two names, one of them in both directions, between child starts. -/
def signalsBetweenChildren : List Event :=
  numbered
    [.childWorkflowStarted ⟨8⟩ "ship" .empty ⟨"v1"⟩,
     .signalSent ⟨7⟩ "order" .empty,
     .signalReceived "refund" .empty,
     .childWorkflowStarted ⟨9⟩ "ship" .empty ⟨"v1"⟩,
     .signalReceived "order" .empty]

/-- The second child start and the second signal of the name have the second ordinals. -/
theorem correlation_keys_agree_signalsBetweenChildren :
    (correlationKeysForHistory signalsBetweenChildren)[3]? = some (some (.child 1)) ∧
    (correlationKeysForHistory signalsBetweenChildren)[4]? = some (some (.signal "order" 1)) :=
  ⟨(correlation_keys_agree signalsBetweenChildren).2.1 3 (by decide),
    (correlation_keys_agree signalsBetweenChildren).2.1 4 (by decide)⟩

end Aion
