import Aion.Durability.ActivityWalk
import Aion.Library.Machine

/-!
# The consumption ledger

What the cursor is for, without bits and positions: a ledger is the set of history
indices that resolved commands have taken. Every call looks at the least pending
index (matchable and not taken). It is answered there when family and key agree,
and then takes the indices of its command; otherwise it takes nothing.

The cursor refines the ledger: as long as nothing pending lies below its position
(`Swept`), each of its calls is a step of the ledger (`HistoryCursor.call_step`).
-/

namespace Aion

/-! ### Calls -/

/-- One of the cursor's two resolve operations, with its arguments. -/
inductive CursorCall where
  /-- `resolve_next`. -/
  | next (family : RecordedEventFamily) (expectedKey : CorrelationKey)
  /-- `resolve_child_terminal`. -/
  | childTerminal (childWorkflowId : WorkflowId)
  deriving DecidableEq

/-- What one of the two resolve operations returns. -/
inductive CallResult where
  /-- Of `resolve_next`. -/
  | next (result : CursorResolveResult)
  /-- Of `resolve_child_terminal`. -/
  | childTerminal (result : ChildTerminalResolveResult)
  deriving DecidableEq

/-- The events of a matched result. -/
def CallResult.matched? : CallResult → Option (List Event)
  | .next (.matched events) => some events
  | .childTerminal (.matched events) => some events
  | _ => none

/-- The descriptor of a mismatch. -/
def CallResult.mismatch? : CallResult → Option FoundEventDescriptor
  | .next (.mismatch _ found) => some found
  | .childTerminal (.mismatch found) => some found
  | _ => none

namespace CursorCall

/-- The call's result when it is answered by `events`. -/
def matched (events : List Event) : CursorCall → CallResult
  | .next .. => .next (.matched events)
  | .childTerminal _ => .childTerminal (.matched events)

/-- The call's result when history has nothing more for it. -/
def exhausted : CursorCall → CallResult
  | .next .. => .next .exhausted
  | .childTerminal _ => .childTerminal .exhausted

/-- The call's result when the event it finds is not its own. -/
def mismatch (found : FoundEventDescriptor) : CursorCall → CallResult
  | .next _ expectedKey => .next (.mismatch expectedKey found)
  | .childTerminal _ => .childTerminal (.mismatch found)

@[simp]
theorem matched?_matched (call : CursorCall) (events : List Event) :
    (call.matched events).matched? = some events := by cases call <;> rfl

@[simp]
theorem matched?_exhausted (call : CursorCall) :
    call.exhausted.matched? = none := by cases call <;> rfl

@[simp]
theorem matched?_mismatch (call : CursorCall) (found : FoundEventDescriptor) :
    (call.mismatch found).matched? = none := by cases call <;> rfl

@[simp]
theorem mismatch?_matched (call : CursorCall) (events : List Event) :
    (call.matched events).mismatch? = none := by cases call <;> rfl

@[simp]
theorem mismatch?_exhausted (call : CursorCall) :
    call.exhausted.mismatch? = none := by cases call <;> rfl

@[simp]
theorem mismatch?_mismatch (call : CursorCall) (found : FoundEventDescriptor) :
    (call.mismatch found).mismatch? = some found := by cases call <;> rfl

/-- The event at `index` answers the call. -/
def accepts (events : List Event) (index : ℕ) : CursorCall → Bool
  | .next family expectedKey =>
    events[index]?.bind familyForEvent == some family &&
      keyForEvent events index == some expectedKey
  | .childTerminal childWorkflowId =>
    events[index]?.any fun event => isChildTerminalFor event childWorkflowId

/-- The indices a call answered at `index` takes; `none` for an activity without a
recorded outcome. -/
def takes (events : List Event) (index : ℕ) : CursorCall → Option (List ℕ)
  | .next .activity (.activity ordinal) =>
    HistoryCursor.walkActivity events ⟨ordinal⟩ (events.drop (index + 1)) (index + 1) [index]
  | .next .timer expectedKey =>
    some (if events[index + 1]?.any fun event =>
        HistoryCursor.isOutcomeForStartKey events index event expectedKey
      then [index, index + 1] else [index])
  | _ => some [index]

end CursorCall

/-- The cursor's two operations as one. -/
def HistoryCursor.call (c : HistoryCursor) : CursorCall → CallResult × HistoryCursor
  | .next family expectedKey =>
    let (result, c') := c.resolveNext family expectedKey
    (.next result, c')
  | .childTerminal childWorkflowId =>
    let (result, c') := c.resolveChildTerminal childWorkflowId
    (.childTerminal result, c')

/-! ### The ledger -/

/-- The event at `index` can answer a command. -/
def Matchable (events : List Event) (index : ℕ) : Prop :=
  (events[index]?.bind familyForEvent).isSome

/-- Matchable and not yet taken. -/
def Pending (events : List Event) (taken : Set ℕ) (index : ℕ) : Prop :=
  Matchable events index ∧ index ∉ taken

/-- The events at `indices`. -/
def eventsAt (events : List Event) (indices : List ℕ) : List Event :=
  indices.filterMap fun index => events[index]?

variable {events : List Event} {call : CursorCall} {index : ℕ} {indices : List ℕ}

theorem eventsAt_append {extension : List Event} (bounds : ∀ j ∈ indices, j < events.length) :
    eventsAt (events ++ extension) indices = eventsAt events indices :=
  List.filterMap_congr fun j hj => List.getElem?_append_left (bounds j hj)

/-- The descriptor of the event at `index`. -/
def descriptorOf (events : List Event) (index : ℕ) (event : Event) : FoundEventDescriptor where
  seq := event.seq
  family := familyForEvent event
  key := keyForEvent events index
  kind := event.body.kind

/-- **A step of the ledger**: the call, what it returns, and the indices taken
before and after. -/
inductive LedgerStep (events : List Event) (taken : Set ℕ) (call : CursorCall) :
    CallResult → Set ℕ → Prop
  /-- Nothing is pending. -/
  | exhausted (none : ∀ index, ¬ Pending events taken index) :
    LedgerStep events taken call call.exhausted taken
  /-- The least pending event answers the call but has no outcome yet. -/
  | unfinished {index : ℕ} (least : IsLeast {i | Pending events taken i} index)
    (accepts : call.accepts events index) (unsettled : call.takes events index = none) :
    LedgerStep events taken call call.exhausted taken
  /-- The least pending event answers the call. -/
  | matched {index : ℕ} {indices : List ℕ} (least : IsLeast {i | Pending events taken i} index)
    (accepts : call.accepts events index) (takes : call.takes events index = some indices) :
    LedgerStep events taken call (call.matched (eventsAt events indices)) (taken ∪ {i | i ∈ indices})
  /-- The least pending event is not the call's. -/
  | mismatch {index : ℕ} {event : Event} (least : IsLeast {i | Pending events taken i} index)
    (at_index : events[index]? = some event) (rejects : call.accepts events index = false) :
    LedgerStep events taken call (call.mismatch (descriptorOf events index event)) taken

/-- A ledger has one next step. -/
theorem LedgerStep.unique {taken taken₁ taken₂ : Set ℕ}
    {r₁ r₂ : CallResult} (h₁ : LedgerStep events taken call r₁ taken₁)
    (h₂ : LedgerStep events taken call r₂ taken₂) : r₁ = r₂ ∧ taken₁ = taken₂ := by
  cases h₁ with
  | exhausted none =>
    cases h₂ with
    | exhausted => exact ⟨rfl, rfl⟩
    | unfinished least => exact absurd least.1 (none _)
    | matched least => exact absurd least.1 (none _)
    | mismatch least => exact absurd least.1 (none _)
  | unfinished least accepts unsettled =>
    cases h₂ with
    | exhausted none => exact absurd least.1 (none _)
    | unfinished => exact ⟨rfl, rfl⟩
    | matched least' _ takes => simp [least.unique least', takes] at unsettled
    | mismatch least' _ rejects => simp [least.unique least', rejects] at accepts
  | matched least accepts takes =>
    cases h₂ with
    | exhausted none => exact absurd least.1 (none _)
    | unfinished least' _ unsettled => simp [least.unique least', unsettled] at takes
    | matched least' _ takes' =>
      obtain rfl : _ = _ := Option.some.inj (takes.symm.trans (least.unique least' ▸ takes'))
      exact ⟨rfl, rfl⟩
    | mismatch least' _ rejects => simp [least.unique least', rejects] at accepts
  | mismatch least at_index rejects =>
    cases h₂ with
    | exhausted none => exact absurd least.1 (none _)
    | unfinished least' accepts => simp [least'.unique least, rejects] at accepts
    | matched least' accepts => simp [least'.unique least, rejects] at accepts
    | mismatch least' at_index' =>
      obtain rfl := least.unique least'
      obtain rfl : _ = _ := Option.some.inj (at_index.symm.trans at_index')
      exact ⟨rfl, rfl⟩

/-- A step that delivers events was answered at the least pending index. -/
theorem LedgerStep.matched_inv {delivered : List Event} {taken taken' : Set ℕ} {result : CallResult}
    (step : LedgerStep events taken call result taken') (h : result.matched? = some delivered) :
    ∃ index indices, IsLeast {i | Pending events taken i} index ∧ call.accepts events index ∧
      call.takes events index = some indices ∧ result = call.matched (eventsAt events indices) ∧
      taken' = taken ∪ {i | i ∈ indices} := by
  cases step with
  | exhausted => rw [CursorCall.matched?_exhausted] at h; cases h
  | unfinished => rw [CursorCall.matched?_exhausted] at h; cases h
  | mismatch => rw [CursorCall.matched?_mismatch] at h; cases h
  | matched least accepts takes => exact ⟨_, _, least, accepts, takes, rfl, rfl⟩

/-! ### The cursor's view of the ledger -/

theorem Matchable.lt_length (h : Matchable events index) : index < events.length := by
  rw [Matchable, Option.isSome_bind] at h
  cases hi : events[index]? with
  | none => simp [hi] at h
  | some event => exact (List.getElem?_eq_some_iff.mp hi).1

theorem Matchable.exists_event (h : Matchable events index) :
    ∃ event, events[index]? = some event ∧ (familyForEvent event).isSome := by
  rw [Matchable, Option.isSome_bind] at h
  cases hi : events[index]? with
  | none => simp [hi] at h
  | some event => exact ⟨event, rfl, by simpa [hi] using h⟩

namespace HistoryCursor

/-- The indices the cursor has consumed. -/
def taken (c : HistoryCursor) : Set ℕ := {index | c.consumed[index]? = some true}

/-- Nothing pending lies below the position. -/
def Swept (c : HistoryCursor) : Prop := ∀ index < c.position, ¬ Pending c.events c.taken index

/-- A pending index, in terms of the two lists that `next_matchable_index` zips. -/
theorem pending_iff (c : HistoryCursor) (index : ℕ) :
    Pending c.events c.taken index ↔
      ∃ event, c.events[index]? = some event ∧ c.consumed[index]? = some false ∧
        (familyForEvent event).isSome := by
  constructor
  · rintro ⟨matchable, untaken⟩
    obtain ⟨event, at_index, family⟩ := matchable.exists_event
    have bound : index < c.consumed.length := c.length_consumed ▸ matchable.lt_length
    refine ⟨event, at_index, ?_, family⟩
    have : c.consumed[index] = false := by
      simpa [taken, List.getElem?_eq_getElem bound] using untaken
    rw [List.getElem?_eq_getElem bound, this]
  · rintro ⟨event, at_index, unconsumed, family⟩
    exact ⟨by simpa [Matchable, at_index] using family, by simp [taken, unconsumed]⟩

/-- An entry that `next_matchable_index` stops at is a pending index. -/
theorem exists_slot_iff_pending (c : HistoryCursor) (k : ℕ) :
    (∃ slot, ((c.events.drop c.position).zip (c.consumed.drop c.position))[k]? = some slot ∧
      (!slot.2 && (familyForEvent slot.1).isSome) = true) ↔
        Pending c.events c.taken (c.position + k) := by
  rw [pending_iff]
  constructor
  · rintro ⟨⟨event, bit⟩, hslot, hstop⟩
    obtain ⟨hevent, hbit⟩ := List.getElem?_zip_eq_some.mp hslot
    rw [List.getElem?_drop] at hevent hbit
    simp only [Bool.and_eq_true, Bool.not_eq_true'] at hstop
    exact ⟨event, hevent, hstop.1 ▸ hbit, hstop.2⟩
  · rintro ⟨event, hevent, hbit, family⟩
    refine ⟨(event, false), List.getElem?_zip_eq_some.mpr ⟨?_, ?_⟩, by simpa using family⟩
    · rwa [List.getElem?_drop]
    · rwa [List.getElem?_drop]

/-- `next_matchable_index` finds the first pending index from the position on. -/
theorem nextMatchableIndex_eq_some_iff (c : HistoryCursor) (index : ℕ) :
    c.nextMatchableIndex = some index ↔
      c.position ≤ index ∧ Pending c.events c.taken index ∧
        ∀ j, c.position ≤ j → j < index → ¬ Pending c.events c.taken j := by
  have offset (k : ℕ) :
      ((c.events.drop c.position).zip (c.consumed.drop c.position)).findIdx?
          (fun slot => !slot.2 && (familyForEvent slot.1).isSome) = some k ↔
        Pending c.events c.taken (c.position + k) ∧
          ∀ j < k, ¬ Pending c.events c.taken (c.position + j) := by
    rw [List.findIdx?_eq_some_iff_getElem]
    constructor
    · rintro ⟨hk, hp, hlt⟩
      refine ⟨(c.exists_slot_iff_pending k).mp ⟨_, List.getElem?_eq_getElem hk, hp⟩, fun j hj hpend => ?_⟩
      obtain ⟨x, hx, hpx⟩ := (c.exists_slot_iff_pending j).mpr hpend
      obtain ⟨_, rfl⟩ := List.getElem?_eq_some_iff.mp hx
      exact hlt j hj hpx
    · rintro ⟨hpend, hlt⟩
      obtain ⟨x, hx, hpx⟩ := (c.exists_slot_iff_pending k).mpr hpend
      obtain ⟨hk, rfl⟩ := List.getElem?_eq_some_iff.mp hx
      exact ⟨hk, hpx, fun j hj hpj =>
        hlt j hj ((c.exists_slot_iff_pending j).mp ⟨_, List.getElem?_eq_getElem (hj.trans hk), hpj⟩)⟩
  rw [nextMatchableIndex, Option.map_eq_some_iff]
  constructor
  · rintro ⟨k, hk, rfl⟩
    obtain ⟨hpend, hlt⟩ := (offset k).mp hk
    refine ⟨Nat.le_add_right _ _, hpend, fun j hle hj => ?_⟩
    obtain ⟨d, rfl⟩ := Nat.exists_eq_add_of_le hle
    exact hlt d (by omega)
  · rintro ⟨hle, hpend, hlt⟩
    obtain ⟨k, rfl⟩ := Nat.exists_eq_add_of_le hle
    exact ⟨k, (offset k).mpr ⟨hpend, fun j hj => hlt _ (Nat.le_add_right _ _) (by omega)⟩, rfl⟩

variable {c : HistoryCursor} {event : Event}

/-- From a swept position, `next_matchable_index` is the least pending index of the whole
history. -/
theorem nextMatchableIndex_eq_some_iff_isLeast (swept : c.Swept) (index : ℕ) :
    c.nextMatchableIndex = some index ↔ IsLeast {i | Pending c.events c.taken i} index := by
  rw [nextMatchableIndex_eq_some_iff]
  constructor
  · rintro ⟨_, hpend, hlt⟩
    refine ⟨hpend, fun j hj => not_lt.mp fun hji => ?_⟩
    rcases lt_or_ge j c.position with below | above
    · exact swept j below hj
    · exact hlt j above hji hj
  · rintro ⟨hpend, hmin⟩
    exact ⟨not_lt.mp fun h => swept index h hpend, hpend, fun j _ hji hj => absurd (hmin hj) (by omega)⟩

/-- `next_matchable_index` returns nothing only when nothing is pending from the position on. -/
theorem nextMatchableIndex_eq_none_iff (c : HistoryCursor) :
    c.nextMatchableIndex = none ↔ ∀ j, c.position ≤ j → ¬ Pending c.events c.taken j := by
  classical
  constructor
  · intro hnone j hle hpend
    have hex : ∃ j, c.position ≤ j ∧ Pending c.events c.taken j := ⟨j, hle, hpend⟩
    have hfind := (c.nextMatchableIndex_eq_some_iff (Nat.find hex)).mpr
      ⟨(Nat.find_spec hex).1, (Nat.find_spec hex).2, fun k hk hlt hp => Nat.find_min hex hlt ⟨hk, hp⟩⟩
    simp [hnone] at hfind
  · intro hall
    rw [Option.eq_none_iff_forall_ne_some]
    intro index hsome
    obtain ⟨hle, hpend, _⟩ := (c.nextMatchableIndex_eq_some_iff index).mp hsome
    exact hall index hle hpend

/-! ### Consuming refines taking -/

theorem getElem?_setConsumed (indices : List ℕ) (bits : List Bool) (j : ℕ) :
    (setConsumed indices bits)[j]? = some true ↔
      bits[j]? = some true ∨ (j ∈ indices ∧ j < bits.length) := by
  induction indices generalizing bits with
  | nil => simp [setConsumed]
  | cons index rest ih =>
    rw [setConsumed, List.foldl_cons, ← setConsumed, ih, List.length_set, List.getElem?_set]
    by_cases h : index = j
    · subst h
      by_cases hlt : index < bits.length <;> simp [hlt]
    · simp [h, Ne.symm h]

/-- The position only moves past consumed bits. -/
theorem pastConsumed_spec (bits : List Bool) (position : ℕ) :
    position ≤ pastConsumed bits position ∧
      ∀ j < pastConsumed bits position - position, bits[j]? = some true := by
  induction bits generalizing position with
  | nil => simp [pastConsumed]
  | cons bit rest ih =>
    cases bit with
    | false => simp [pastConsumed]
    | true =>
      obtain ⟨hle, hall⟩ := ih (position + 1)
      rw [pastConsumed]
      refine ⟨by omega, fun j hj => ?_⟩
      cases j with
      | zero => rfl
      | succ j => exact hall j (by omega)

theorem taken_markConsumed (c : HistoryCursor)
    (bounds : ∀ index ∈ indices, index < c.events.length) :
    (c.markConsumed indices).taken = c.taken ∪ {index | index ∈ indices} := by
  ext j
  show (setConsumed indices c.consumed)[j]? = some true ↔ _
  rw [getElem?_setConsumed, c.length_consumed]
  exact or_congr Iff.rfl ⟨And.left, fun h => ⟨h, bounds j h⟩⟩

/-- Marking keeps the cursor swept. -/
theorem Swept.markConsumed (swept : c.Swept)
    (bounds : ∀ index ∈ indices, index < c.events.length) : (c.markConsumed indices).Swept := by
  intro j hj hpend
  have grown : c.taken ⊆ (c.markConsumed indices).taken := by
    rw [c.taken_markConsumed bounds]; exact Set.subset_union_left
  rcases lt_or_ge j c.position with below | above
  · exact swept j below ⟨hpend.1, fun h => hpend.2 (grown h)⟩
  · obtain ⟨d, rfl⟩ := Nat.exists_eq_add_of_le above
    have hall := (pastConsumed_spec ((setConsumed indices c.consumed).drop c.position) c.position).2
    have hbit := hall d (Nat.sub_lt_sub_right above hj |>.trans_le' (by omega))
    rw [List.getElem?_drop] at hbit
    exact hpend.2 hbit

/-! ### Each call is a step of the ledger -/

theorem takeRange_eq_of_get (at_index : c.events[index]? = some event) :
    c.takeRange index (index + 1) = (eventsAt c.events [index], c.markConsumed [index]) := by
  obtain ⟨hlt, rfl⟩ := List.getElem?_eq_some_iff.mp at_index
  have cut : (c.events.drop index).take 1 = [c.events[index]] := by
    rw [List.drop_eq_getElem_cons hlt]; rfl
  simp [takeRange, eventsAt, hlt, cut]

theorem takeRange_two_of_get (at_next : c.events[index + 1]? = some event) :
    c.takeRange index (index + 1 + 1) =
      (eventsAt c.events [index, index + 1], c.markConsumed [index, index + 1]) := by
  obtain ⟨hlt, rfl⟩ := List.getElem?_eq_some_iff.mp at_next
  have hlt' : index < c.events.length := by omega
  have two : index + 1 + 1 - index = 2 := by omega
  have cut : (c.events.drop index).take 2 = [c.events[index], c.events[index + 1]] := by
    rw [List.drop_eq_getElem_cons hlt', List.drop_eq_getElem_cons hlt]; rfl
  simp [takeRange, eventsAt, hlt, hlt', two, cut, List.range'_succ]

theorem consumeOne_eq_of_get (at_index : c.events[index]? = some event) :
    consumeOne { c with position := index } =
      (.matched (eventsAt c.events [index]),
        markConsumed { c with position := index } [index]) := by
  have take : takeRange { c with position := index } index (index + 1) = _ :=
    takeRange_eq_of_get at_index
  simp only [consumeOne, take]

/-- `resolve_next` once it has found an event of its family and key: it takes what the
family's rule takes. -/
theorem resolveNext_of_accepts {family : RecordedEventFamily} {key : CorrelationKey}
    (next : c.nextMatchableIndex = some index)
    (at_index : c.events[index]? = some event) (hfam : familyForEvent event = some family)
    (hkey : keyForEvent c.events index = some key) :
    c.resolveNext family key =
      match (CursorCall.next family key).takes c.events index with
      | none => (.exhausted, { c with position := index })
      | some indices => (.matched (eventsAt c.events indices), markConsumed { c with position := index } indices) := by
  have one := consumeOne_eq_of_get at_index
  simp only [resolveNext, next, at_index, descriptorAt, hfam, hkey, ne_eq,
    not_true_eq_false, or_self,
    if_false]
  obtain ⟨envelope, body⟩ := event
  simp only [keyForEvent, at_index] at hkey
  cases family with
  | activity =>
    cases body <;> simp only [familyForEvent, Option.some.injEq, reduceCtorEq] at hfam
    obtain rfl := Option.some.inj hkey
    simp only [resolveActivity, at_index, CursorCall.takes]
    split
    · rename_i hwalk
      simp only [hwalk]
      rfl
    · rename_i hwalk
      simp only [hwalk]
  | timer =>
    simp only [resolveStartedWithImmediateOutcome, CursorCall.takes]
    split_ifs with hout
    · obtain ⟨outcome, at_next, _⟩ := (Option.any_eq_true _ _).mp hout
      have take : takeRange { c with position := index } index (index + 1 + 1) = _ :=
        takeRange_two_of_get at_next
      simp only [take]
    · simp only [one]
  | child =>
    cases body <;> simp only [familyForEvent, Option.some.injEq, reduceCtorEq] at hfam <;>
      simp only [keyForPositionlessEvent, reduceCtorEq] at hkey
    simp only [resolveChild, at_index, one]
    rfl
  | signal =>
    cases body <;> simp only [familyForEvent, Option.some.injEq, reduceCtorEq] at hfam
    · obtain rfl := Option.some.inj hkey
      simp only [one]
      rfl
    · obtain rfl := Option.some.inj hkey
      simp only [one]
      rfl

/-- The call once its event is found: what `accepts` and `takes` say. -/
theorem call_eq_of_next (c : HistoryCursor) (call : CursorCall)
    (next : c.nextMatchableIndex = some index) (at_index : c.events[index]? = some event) :
    c.call call =
      if call.accepts c.events index then
        match call.takes c.events index with
        | none => (call.exhausted, { c with position := index })
        | some indices =>
          (call.matched (eventsAt c.events indices), markConsumed { c with position := index } indices)
      else (call.mismatch (descriptorOf c.events index event), { c with position := index }) := by
  cases call with
  | childTerminal child =>
    simp only [HistoryCursor.call, resolveChildTerminal, next, at_index, CursorCall.accepts,
      Option.any_some, CursorCall.takes]
    split_ifs with hterm
    · have take : takeRange { c with position := index } index (index + 1) = _ :=
        takeRange_eq_of_get at_index
      simp only [take]
      rfl
    · rfl
  | next family key =>
    simp only [CursorCall.accepts, at_index, Option.bind_some, Bool.and_eq_true, beq_iff_eq]
    split_ifs with hacc
    · simp only [HistoryCursor.call, resolveNext_of_accepts next at_index hacc.1 hacc.2]
      cases (CursorCall.next family key).takes c.events index <;> rfl
    · have differs : familyForEvent event ≠ some family ∨ keyForEvent c.events index ≠ some key :=
        not_and_or.mp hacc
      simp only [HistoryCursor.call, resolveNext, next, at_index, descriptorAt, differs, if_true]
      rfl

/-- The result of a call that finds an event of its own. -/
theorem call_result_of_accepts
    (hev : c.events = events) (next : c.nextMatchableIndex = some index)
    (accepts : call.accepts events index) :
    (c.call call).1 =
      match call.takes events index with
      | none => call.exhausted
      | some indices => call.matched (eventsAt events indices) := by
  subst hev
  obtain ⟨event, at_index, -⟩ :=
    ((c.nextMatchableIndex_eq_some_iff index).mp next).2.1.1.exists_event
  rw [c.call_eq_of_next call next at_index, if_pos accepts]
  cases call.takes c.events index <;> rfl

/-- The three forms a call's result has. -/
theorem call_result (c : HistoryCursor) (call : CursorCall) :
    (∃ events, (c.call call).1 = call.matched events) ∨ (c.call call).1 = call.exhausted ∨
      ∃ found, (c.call call).1 = call.mismatch found := by
  cases next : c.nextMatchableIndex with
  | none =>
    refine .inr (.inl ?_)
    cases call <;> simp only [HistoryCursor.call, resolveNext, resolveChildTerminal, next] <;> rfl
  | some index =>
    have pending := ((c.nextMatchableIndex_eq_some_iff index).mp next).2.1
    obtain ⟨event, at_index, -⟩ := pending.1.exists_event
    rw [c.call_eq_of_next call next at_index]
    split_ifs
    · cases call.takes c.events index with
      | none => exact .inr (.inl rfl)
      | some indices => exact .inl ⟨_, rfl⟩
    · exact .inr (.inr ⟨_, rfl⟩)

/-- The event is a timer's outcome. -/
def isTimerOutcome (event : Event) : Bool :=
  match event.body with
  | .timerFired _ => true
  | .timerCancelled .. => true
  | .withTimeoutCompleted .. => true
  | _ => false

/-- The index holds a timer's outcome. -/
def timerOutcomeAt (events : List Event) (index : ℕ) : Bool := events[index]?.any isTimerOutcome

/-- Neither a timer's outcome nor one of an activity's own events. -/
def isPlain (event : Event) : Prop :=
  isTimerOutcome event = false ∧ ∀ activityId, isActivityEvent activityId event = false

theorem timerOutcomeAt_of_isOutcome {outcome : Event} {timerId : TimerId}
    (at_next : events[index + 1]? = some outcome)
    (h : isOutcomeForStartKey events index outcome (.timer timerId)) :
    timerOutcomeAt events (index + 1) := by
  refine (Option.any_eq_true _ _).mpr ⟨outcome, at_next, ?_⟩
  obtain ⟨envelope, body⟩ := outcome
  cases body <;> first | rfl | cases h

/-- **What an answered call takes**: an activity's own indices through its settling
one, a timer's start with its adjacent outcome, or the one event found. -/
theorem takes_cases
    (accepts : call.accepts events index) (takes : call.takes events index = some indices) :
    (∃ activityId last, call = .next .activity (.activity activityId.sequencePosition) ∧
        schedulesAt events activityId index ∧
        IsLeast {t | index + 1 ≤ t ∧ settlesAt events activityId t} last ∧
        indices = activitySpan events activityId index last) ∨
      (∃ timerId event outcome, call = .next .timer (.timer timerId) ∧
        events[index]? = some event ∧ isPlain event ∧ events[index + 1]? = some outcome ∧
        isOutcomeForStartKey events index outcome (.timer timerId) ∧ indices = [index, index + 1]) ∨
      (∃ event, events[index]? = some event ∧ isPlain event ∧ indices = [index]) := by
  cases call with
  | childTerminal child =>
    obtain ⟨⟨envelope, body⟩, at_index, hterm⟩ := (Option.any_eq_true _ _).mp accepts
    refine .inr (.inr ⟨_, at_index, ?_, (Option.some.inj takes).symm⟩)
    cases body <;> first | exact ⟨rfl, fun _ => rfl⟩ | cases hterm
  | next family key =>
    simp only [CursorCall.accepts, Bool.and_eq_true, beq_iff_eq] at accepts
    obtain ⟨hfam, hkey⟩ := accepts
    obtain ⟨⟨envelope, body⟩, at_index, hfam⟩ := Option.bind_eq_some_iff.mp hfam
    have hkey' := hkey
    simp only [keyForEvent, at_index] at hkey'
    cases family with
    | activity =>
      cases body <;> simp only [familyForEvent, Option.some.injEq, reduceCtorEq] at hfam
      rename_i activityId _ _ _ _
      obtain rfl := Option.some.inj hkey'
      have hs : schedulesAt events activityId index := hkey
      rcases walkActivity_eq events activityId (index + 1) [index] with ⟨last, least, hwalk⟩ | ⟨-, hwalk⟩
      · refine .inl ⟨activityId, last, rfl, hs, least, ?_⟩
        have hle : index ≤ last := by have := least.1.1; omega
        rw [activitySpan_cons hle, belongsAt_of_schedulesAt hs]
        exact Option.some.inj (takes.symm.trans hwalk)
      · exact absurd (takes.symm.trans hwalk) (by simp)
    | timer =>
      -- only a `TimerStarted` has a key; a `WithTimeoutCompleted` never answers a call
      cases body <;> simp only [familyForEvent, Option.some.injEq, reduceCtorEq] at hfam <;>
        simp only [keyForPositionlessEvent, reduceCtorEq] at hkey'
      obtain rfl := Option.some.inj hkey'
      simp only [CursorCall.takes] at takes
      split_ifs at takes with hout
      · obtain ⟨outcome, at_next, hout⟩ := (Option.any_eq_true _ _).mp hout
        exact .inr (.inl ⟨_, _, outcome, rfl, at_index, ⟨rfl, fun _ => rfl⟩, at_next, hout,
          (Option.some.inj takes).symm⟩)
      · exact .inr (.inr ⟨_, at_index, ⟨rfl, fun _ => rfl⟩, (Option.some.inj takes).symm⟩)
    | child =>
      refine .inr (.inr ⟨_, at_index, ?_, (Option.some.inj takes).symm⟩)
      cases body <;> first | exact ⟨rfl, fun _ => rfl⟩ | cases hfam
    | signal =>
      refine .inr (.inr ⟨_, at_index, ?_, (Option.some.inj takes).symm⟩)
      cases body <;> first | exact ⟨rfl, fun _ => rfl⟩ | cases hfam

/-- What an answered call takes is increasing, starts at the event found and lies
within the history. -/
theorem takes_increasing (accepts : call.accepts events index)
    (takes : call.takes events index = some indices) (hlt : index < events.length) :
    indices.Pairwise (· < ·) ∧ indices.head? = some index ∧ ∀ j ∈ indices, j < events.length := by
  rcases takes_cases accepts takes with
    ⟨activityId, last, -, hs, least, rfl⟩ | ⟨_, _, _, -, -, -, at_next, -, rfl⟩ | ⟨_, -, -, rfl⟩
  · have hle : index ≤ last := by have := least.1.1; omega
    refine ⟨activitySpan_pairwise _ _ _ _, ?_, fun j hj => ?_⟩
    · rw [activitySpan_cons hle, belongsAt_of_schedulesAt hs]; rfl
    · exact (mem_activitySpan.mp hj).2.1.trans_lt (lt_length_of_settlesAt least.1.2)
  · have := (List.getElem?_eq_some_iff.mp at_next).1
    refine ⟨by simp, rfl, fun j hj => ?_⟩
    rcases List.mem_pair.mp hj with rfl | rfl <;> omega
  · exact ⟨by simp, rfl, fun j hj => List.mem_singleton.mp hj ▸ hlt⟩

/-- **The cursor refines the ledger.** From a swept cursor each call is a step of
the ledger and leaves the cursor swept. -/
theorem call_step (swept : c.Swept) (call : CursorCall) :
    (c.call call).2.events = c.events ∧ (c.call call).2.Swept ∧
      LedgerStep c.events c.taken call (c.call call).1 (c.call call).2.taken := by
  cases next : c.nextMatchableIndex with
  | none =>
    have hcall : c.call call = (call.exhausted, c) := by
      cases call <;> simp only [HistoryCursor.call, resolveNext, resolveChildTerminal, next] <;> rfl
    rw [hcall]
    refine ⟨rfl, swept, .exhausted fun index hpend => ?_⟩
    rcases lt_or_ge index c.position with below | above
    · exact swept index below hpend
    · exact c.nextMatchableIndex_eq_none_iff.mp next index above hpend
  | some index =>
    have least := (nextMatchableIndex_eq_some_iff_isLeast swept index).mp next
    obtain ⟨event, at_index, -⟩ := least.1.1.exists_event
    have swept' : Swept { c with position := index } := fun j hj hpend =>
      absurd (least.2 hpend) (not_le.mpr hj)
    rw [c.call_eq_of_next call next at_index]
    split_ifs with hacc
    · cases htakes : call.takes c.events index with
      | none => exact ⟨rfl, swept', .unfinished least hacc htakes⟩
      | some indices =>
        have bounds := (takes_increasing hacc htakes least.1.1.lt_length).2.2
        refine ⟨rfl, swept'.markConsumed bounds, ?_⟩
        have htaken : (markConsumed { c with position := index } indices).taken =
            c.taken ∪ {j | j ∈ indices} := taken_markConsumed { c with position := index } bounds
        rw [htaken]
        exact .matched least hacc htakes
    · exact ⟨rfl, swept', .mismatch least at_index (by simpa using hacc)⟩

theorem swept_start (events : List Event) : (start events).Swept :=
  fun _ h => absurd h (Nat.not_lt_zero _)

theorem taken_start (events : List Event) : (start events).taken = ∅ := by
  ext index
  simp only [taken, start, Set.mem_ofPred_eq, Set.mem_empty_iff_false, iff_false,
    List.getElem?_replicate]
  split_ifs <;> simp

end HistoryCursor

end Aion
