import Aion.Durability.CorrelationKeys
import Aion.Durability.LiveResolution

/-!
# Addressing signals by occurrence

Sends and receives of a name share one index space: the key of a signal counts the sends and the
receives of its name that were recorded before it. A workflow counts the two apart, so the signal
natives look up the occurrence index of the k-th receive, or send, before they resolve a command
(`nif_signal.rs`).

`signal_addressing` says that the index addresses the event it was looked up for and no other, and
that the index that is taken when there is no k-th one addresses nothing.
-/

namespace Aion

open HistoryCursor

/-! ### The k-th element of a kind -/

section Rank

variable {α : Type*} {wanted other : α → Bool}

/-- The loop of `nth_received_occurrence_index` and `nth_sent_occurrence_index`: the occurrence
index of the k-th event that is `wanted`, where `other` events count as occurrences too. -/
def nthOccurrenceIndex (wanted other : α → Bool) (k : ℕ) : List α → ℕ → ℕ → Option ℕ
  | [], _, _ => none
  | event :: rest, occurrence, seen =>
    if wanted event then
      if seen = k then some occurrence
      else nthOccurrenceIndex wanted other k rest (occurrence + 1) (seen + 1)
    else if other event then nthOccurrenceIndex wanted other k rest (occurrence + 1) seen
    else nthOccurrenceIndex wanted other k rest occurrence seen

variable {history : List α} {occurrence : ℕ}

/-- The loop finds the k-th wanted event, and gives how many occurrences are before it. -/
theorem nthOccurrenceIndex_eq_some_iff {k i seen : ℕ} :
    nthOccurrenceIndex wanted other k history occurrence seen = some i ↔
      ∃ before event after, history = before ++ event :: after ∧ wanted event ∧
        seen + before.countP wanted = k ∧
        occurrence + before.countP (fun event => wanted event || other event) = i := by
  induction history generalizing occurrence seen with
  | nil => simp [nthOccurrenceIndex]
  | cons head rest ih =>
    -- a later event is found with the counters that stand behind the head
    have later (hhead : wanted head → seen ≠ k) :
        (∃ before event after, head :: rest = before ++ event :: after ∧ wanted event ∧ seen + before.countP wanted = k ∧
          occurrence + before.countP (fun event => wanted event || other event) = i) ↔
        ∃ before event after, rest = before ++ event :: after ∧ wanted event ∧
          seen + (if wanted head then 1 else 0) + before.countP wanted = k ∧
          occurrence + (if wanted head || other head then 1 else 0) +
            before.countP (fun event => wanted event || other event) = i := by
      constructor
      · rintro ⟨_ | ⟨first, before⟩, event, after, hspl, hwanted, hseen, hi⟩
        · obtain ⟨rfl, rfl⟩ := List.cons.inj hspl
          exact absurd hseen (hhead hwanted)
        · obtain ⟨rfl, rfl⟩ := List.cons.inj hspl
          rw [List.countP_cons] at hseen hi
          exact ⟨before, event, after, rfl, hwanted, by omega, by omega⟩
      · rintro ⟨before, event, after, rfl, hwanted, hseen, hi⟩
        refine ⟨head :: before, event, after, rfl, hwanted, ?_, ?_⟩ <;> rw [List.countP_cons] <;> omega
    rw [nthOccurrenceIndex]
    split_ifs with hwanted hseen hother
    · -- the head is the one
      subst hseen
      rw [Option.some.injEq]
      constructor
      · rintro rfl
        exact ⟨[], head, rest, rfl, hwanted, rfl, rfl⟩
      · rintro ⟨_ | ⟨first, before⟩, event, after, hspl, -, hseen, hi⟩
        · exact hi
        · obtain ⟨rfl, rfl⟩ := List.cons.inj hspl
          simp [hwanted] at hseen
    · rw [ih, later fun _ => hseen]
      simp [hwanted]
    · rw [ih, later fun h => absurd h hwanted]
      simp [hwanted, hother]
    · rw [ih, later fun h => absurd h hwanted]
      simp [hwanted, hother]

theorem nthOccurrenceIndex_eq_none_iff {k seen : ℕ} (hseen : seen ≤ k) :
    nthOccurrenceIndex wanted other k history occurrence seen = none ↔
      seen + history.countP wanted ≤ k := by
  induction history generalizing occurrence seen with
  | nil => simpa [nthOccurrenceIndex] using hseen
  | cons head rest ih =>
    rw [nthOccurrenceIndex, List.countP_cons]
    split_ifs with hwanted hk hother
    · simp only [false_iff]
      omega
    · rw [ih (by omega)]
      omega
    · rw [ih hseen]
      omega
    · rw [ih hseen]
      omega

end Rank

/-! ### Signals of a name -/

/-- The event is a `SignalReceived` of this name. -/
def isReceivedNamed (name : String) (event : Event) : Bool :=
  match event.body with
  | .signalReceived eventName _ => eventName == name
  | _ => false

/-- The event is a `SignalSent` of this name. -/
def isSentNamed (name : String) (event : Event) : Bool :=
  match event.body with
  | .signalSent _ eventName _ => eventName == name
  | _ => false

/-- `signal_occurrence_index`. -/
def signalOccurrenceIndex (history : List Event) (name : String) : ℕ :=
  history.countP (isSignalNamed name)

/-- `nth_received_occurrence_index`. -/
def nthReceivedOccurrenceIndex (history : List Event) (name : String) (k : ℕ) : Option ℕ :=
  nthOccurrenceIndex (isReceivedNamed name) (isSentNamed name) k history 0 0

/-- `nth_sent_occurrence_index`. -/
def nthSentOccurrenceIndex (history : List Event) (name : String) (k : ℕ) : Option ℕ :=
  nthOccurrenceIndex (isSentNamed name) (isReceivedNamed name) k history 0 0

variable {segment before after : List Event} {event : Event} {name : String} {i j k : ℕ}

theorem received_or_sent (name : String) (event : Event) :
    (isReceivedNamed name event || isSentNamed name event) = isSignalNamed name event := by
  obtain ⟨envelope, body⟩ := event
  cases body <;> simp [isReceivedNamed, isSentNamed, isSignalNamed]

theorem sent_or_received (name : String) (event : Event) :
    (isSentNamed name event || isReceivedNamed name event) = isSignalNamed name event := by
  rw [Bool.or_comm, received_or_sent]

theorem isReceivedNamed_iff :
    isReceivedNamed name event ↔ ∃ payload, event.body = .signalReceived name payload := by
  obtain ⟨envelope, body⟩ := event
  cases body <;> simp [isReceivedNamed]

theorem isSentNamed_iff :
    isSentNamed name event ↔ ∃ target payload, event.body = .signalSent target name payload := by
  obtain ⟨envelope, body⟩ := event
  cases body <;> simp [isSentNamed]

/-! ### The event an index addresses -/

/-- Signal keys belong to the signals of the name, by how many are before them. -/
theorem keyForEvent_eq_signal_iff :
    keyForEvent segment j = some (.signal name i) ↔
      ∃ before event after, segment = before ++ event :: after ∧ before.length = j ∧
        isSignalNamed name event ∧
        before.countP (isSignalNamed name) = i :=
  keyForEvent_eq_some_iff rfl

/-- An occurrence index addresses one event at most. -/
theorem keyForEvent_signal_iff_of_split (hsignal : isSignalNamed name event) :
    keyForEvent (before ++ event :: after) j =
      some (.signal name (before.countP (isSignalNamed name))) ↔
      j = before.length := by
  rw [keyForEvent_eq_signal_iff]
  constructor
  · rintro ⟨before', event', after', hspl, rfl, hsignal', hcount⟩
    exact (length_eq_of_countP_eq hspl hsignal hsignal' hcount.symm).symm
  · rintro rfl
    exact ⟨before, event, after, rfl, rfl, hsignal, rfl⟩

/-- The next free occurrence index addresses no event. -/
theorem keyForEvent_ne_signalOccurrenceIndex :
    keyForEvent segment j ≠ some (.signal name (signalOccurrenceIndex segment name)) := by
  intro h
  obtain ⟨before, event, after, hspl, -, hsignal, hcount⟩ := keyForEvent_eq_signal_iff.mp h
  have hless : before.countP (isSignalNamed name) < (before ++ event :: after).countP (isSignalNamed name) := by
    rw [List.countP_append, List.countP_cons_of_pos hsignal]
    omega
  rw [← hspl] at hless
  exact absurd hcount hless.ne

/-! ### What a command with the index resolves to -/

variable {key : CorrelationKey} {command : Command}

/-- A command whose key one signal alone has resolves to that signal. -/
theorem resolve_of_signal (workflowId : WorkflowId)
    (hcommand : Resolver.callOf command = some (.next .signal key))
    (hj : ∀ l, keyForEvent segment l = some key ↔ l = j) (hevent : segment[j]? = some event)
    (hsignal : familyForEvent event = some .signal)
    (hkey : ∃ name index, key = .signal name index) :
    (Resolver.resolve ⟨workflowId, (start segment).fastForwardToKey key⟩ command).1 =
      (resolutionFromMatched [event]).map ResolvedCommand.intoOutcome := by
  obtain ⟨name, index, rfl⟩ := hkey
  obtain ⟨hev, hnext⟩ :=
    nextMatchableIndex_fastForwarded segment (.next .signal (.signal name index)) j
  have hleast : IsLeast {l | looksFor segment l (.next .signal (.signal name index))} j := by
    have hset : {l | looksFor segment l (.next .signal (.signal name index))} = {j} := by
      ext l
      simp [looksFor, hj]
    rw [hset]
    exact isLeast_singleton
  have haccepts : (CursorCall.next .signal (.signal name index)).accepts segment j := by
    simp [CursorCall.accepts, hevent, hsignal, hj]
  have hcall := call_result_of_accepts hev (hnext.mpr hleast) haccepts
  have hmatch : ((fastForwarded (start segment) (.next .signal (.signal name index))).call
      (.next .signal (.signal name index))).1.matched? = some [event] := by
    rw [hcall]
    simp [CursorCall.takes, eventsAt, hevent]
  rw [Resolver.resolve, Resolver.resolveWithConsumed_of_some hcommand]
  exact congrArg (Except.map ResolvedCommand.intoOutcome) (Resolver.answer_of_matched hmatch _ _)

/-- A command whose key no event has is handed to live execution. -/
theorem resolve_of_no_event {family : RecordedEventFamily} (workflowId : WorkflowId)
    (hcommand : Resolver.callOf command = some (.next family key))
    (hnone : ∀ l, keyForEvent segment l ≠ some key) :
    (Resolver.resolve ⟨workflowId, (start segment).fastForwardToKey key⟩ command).1 =
      .ok .resumeLive := by
  have hnext : ((start segment).fastForwardToKey key).nextMatchableIndex = none := by
    rw [Option.eq_none_iff_forall_ne_some]
    intro l hl
    have hleast := ((nextMatchableIndex_fastForwarded segment (.next family key) l).2.mp hl).1
    exact hnone l (by simpa [looksFor] using hleast)
  have hcall : (((start segment).fastForwardToKey key).call (.next family key)).1 = .next .exhausted := by
    simp only [HistoryCursor.call, HistoryCursor.resolveNext, hnext]
  rw [Resolver.resolve, Resolver.resolveWithConsumed_of_some hcommand]
  show (Resolver.answer _ _ _).map ResolvedCommand.intoOutcome = _
  rw [hcall]
  rfl

/-- A signal's index addresses that signal alone. -/
structure Addresses (segment : List Event) (name : String) (i : ℕ) (before : List Event)
    (event : Event) (after : List Event) : Prop where
  split : segment = before ++ event :: after
  key_iff : ∀ j, keyForEvent segment j = some (.signal name i) ↔ j = before.length

/-- Where the lookup finds the k-th event of one direction, its index addresses that event. -/
theorem addresses_of_nthOccurrenceIndex {wanted other : Event → Bool}
    (hboth : ∀ event, (wanted event || other event) = isSignalNamed name event)
    (h : nthOccurrenceIndex wanted other k segment 0 0 = some i) :
    ∃ before event after, Addresses segment name i before event after ∧ wanted event ∧
      before.countP wanted = k := by
  obtain ⟨before, event, after, rfl, hwanted, hk, hi⟩ := nthOccurrenceIndex_eq_some_iff.mp h
  have hsignal : isSignalNamed name event := by
    rw [← hboth, hwanted, Bool.true_or]
  obtain rfl : before.countP (isSignalNamed name) = i := by
    rw [← hi, Nat.zero_add]
    exact List.countP_congr fun event _ => by rw [hboth]
  exact ⟨before, event, after, ⟨rfl, fun j => keyForEvent_signal_iff_of_split hsignal⟩,
      hwanted, by omega⟩

theorem Addresses.getElem? (h : Addresses segment name i before event after) :
    segment[before.length]? = some event := by
  rw [h.split, List.getElem?_append_right le_rfl, Nat.sub_self]
  rfl

/-- **Signals are addressed by occurrence.** The index that is looked up for the k-th receive of a
name addresses that receive alone, and awaiting it delivers its payload; the same holds of sends.
The lookup fails only when there is no k-th one, and the index that stands in for it addresses
nothing. -/
theorem signal_addressing (workflowId : WorkflowId) {segment : List Event} {cursor : HistoryCursor}
    (opened : HistoryCursor.new segment = .ok cursor) (name : String) (k : ℕ) :
    (∀ i, nthReceivedOccurrenceIndex segment name k = some i →
      ∃ before event after payload, Addresses segment name i before event after ∧
        event.body = .signalReceived name payload ∧ before.countP (isReceivedNamed name) = k ∧
        (Resolver.resolve ⟨workflowId, cursor.fastForwardToKey (.signal name i)⟩
            (.awaitSignal (.signal name i))).1 =
          .ok (.recorded (.signalDelivered payload))) ∧
    (∀ i, nthSentOccurrenceIndex segment name k = some i →
      ∃ before event after target payload, Addresses segment name i before event after ∧
        event.body = .signalSent target name payload ∧ before.countP (isSentNamed name) = k ∧
        ∀ delivery, (Resolver.resolve ⟨workflowId, cursor.fastForwardToKey (.signal name i)⟩
          (.sendSignal (.signal name i) delivery)).1 = .ok (.recorded .signalSent)) ∧
    (nthReceivedOccurrenceIndex segment name k = none ↔ segment.countP (isReceivedNamed name) ≤ k) ∧
    (nthSentOccurrenceIndex segment name k = none ↔ segment.countP (isSentNamed name) ≤ k) ∧
    (∀ j, keyForEvent segment j ≠ some (.signal name (signalOccurrenceIndex segment name))) ∧
    ∀ command, Resolver.callOf command =
      some (.next .signal (.signal name (signalOccurrenceIndex segment name))) →
      (Resolver.resolve ⟨workflowId, cursor.fastForwardToKey
          (.signal name (signalOccurrenceIndex segment name))⟩
        command).1 = .ok .resumeLive := by
  obtain ⟨-, rfl⟩ := (new_eq_ok_iff _ _).mp opened
  refine ⟨fun i hi => ?_, fun i hi => ?_, ?_, ?_, fun j => keyForEvent_ne_signalOccurrenceIndex,
      fun command hcommand => ?_⟩
  · obtain ⟨before, event, after, haddr, hreceived, hk⟩ :=
      addresses_of_nthOccurrenceIndex (received_or_sent name) hi
    obtain ⟨payload, hbody⟩ := isReceivedNamed_iff.mp hreceived
    refine ⟨before, event, after, payload, haddr, hbody, hk, ?_⟩
    rw [resolve_of_signal workflowId rfl haddr.key_iff haddr.getElem? (by simp [familyForEvent,
      hbody]) ⟨name, i, rfl⟩]
    simp [resolutionFromMatched, hbody, Except.map, ResolvedCommand.intoOutcome]
  · obtain ⟨before, event, after, haddr, hsent, hk⟩ :=
      addresses_of_nthOccurrenceIndex (sent_or_received name) hi
    obtain ⟨target, payload, hbody⟩ := isSentNamed_iff.mp hsent
    refine ⟨before, event, after, target, payload, haddr, hbody, hk, fun delivery => ?_⟩
    rw [resolve_of_signal workflowId rfl haddr.key_iff haddr.getElem? (by simp [familyForEvent,
      hbody]) ⟨name, i, rfl⟩]
    simp [resolutionFromMatched, hbody, Except.map, ResolvedCommand.intoOutcome]
  · rw [nthReceivedOccurrenceIndex, nthOccurrenceIndex_eq_none_iff (Nat.zero_le k), Nat.zero_add]
  · rw [nthSentOccurrenceIndex, nthOccurrenceIndex_eq_none_iff (Nat.zero_le k), Nat.zero_add]
  · exact resolve_of_no_event workflowId hcommand fun j => keyForEvent_ne_signalOccurrenceIndex

/-- A workflow sends and receives one name, with another name in between. -/
def mixedSignals : List Event :=
  numbered
    [.signalSent ⟨7⟩ "order" .empty,
     .signalReceived "refund" .empty,
     .signalReceived "order" .empty,
     .signalSent ⟨7⟩ "order" .empty]

/-- The only receive of the name is its second occurrence. -/
theorem signal_addressing_mixedSignals :
    ∃ before event after payload, Addresses mixedSignals "order" 1 before event after ∧
      event.body = .signalReceived "order" payload ∧ before.countP (isReceivedNamed "order") = 0 ∧
      (Resolver.resolve ⟨⟨0⟩, (start mixedSignals).fastForwardToKey (.signal "order" 1)⟩
        (.awaitSignal (.signal "order" 1))).1 = .ok (.recorded (.signalDelivered payload)) :=
  (signal_addressing ⟨0⟩ rfl "order" 0).1 1 rfl

end Aion
