import Aion.Stream.VerdictCache

/-!
# The namespace gate of an event stream

`namespace_filter.rs`. A connection passes each event of the engine-wide broadcast through a gate
that permits the events of workflows of the authorised namespace. The owner of a workflow is read
from the ownership source (`resolver.rs`) and the verdict is cached; here a call carries what the
source answers if it is read then, which may be an error.

`gate_transparent` says, of every sequence of calls, that the cache decides nothing, is within its
capacity, and as long as fewer than `2 ^ 64` stamps were handed out holds the most recently used
workflows.
-/

namespace Aion

open FiniteMaps Recency

/-! ### The gate -/

/-- Durable per-workflow attribution facts. -/
structure WorkflowAttribution where
  /-- The namespace recorded as the owner. -/
  namespaceName : String
  /-- The type of the most recent run. -/
  workflowType : Option String
  deriving DecidableEq

/-- Per-event admission decision. -/
inductive GateVerdict where
  /-- The event may be delivered. -/
  | permitted (workflowType : Option String)
  /-- The event's workflow is foreign or unknown. -/
  | filtered
  deriving DecidableEq

/-- The verdict lets the caller through. -/
def GateVerdict.isPermitted : GateVerdict → Bool
  | .permitted _ => true
  | .filtered => false

/-- The answer of the ownership source, when it is read. -/
abbrev OwnershipRead (ServerError : Type*) := Except ServerError (Option WorkflowAttribution)

variable {ServerError : Type*}

/-- `NamespaceResolver::workflow_attribution`: the attribution, when the owner is this namespace. -/
def workflowAttribution (namespaceName : String) (read : OwnershipRead ServerError) :
    OwnershipRead ServerError :=
  read.map fun found => found.filter fun attribution => attribution.namespaceName == namespaceName

/-- The verdict that a read gives. -/
def CachedVerdict.ofAttribution : Option WorkflowAttribution → CachedVerdict
  | some attribution => ⟨true, attribution.workflowType⟩
  | none => ⟨false, none⟩

/-- The workflow type that a `WorkflowStarted` event carries. -/
def startedType (event : Event) : Option String :=
  match event.body with
  | .workflowStarted workflowType .. => some workflowType
  | _ => none

/-- A per-connection gate. -/
structure NamespaceEventGate where
  namespaceName : String
  verdicts : VerdictCache

namespace NamespaceEventGate

/-- `NamespaceEventGate::new`. -/
def new (namespaceName : String) (capacity : ℕ) (capacity_pos : 0 < capacity) :
    NamespaceEventGate :=
  ⟨namespaceName, .new capacity capacity_pos⟩

/-- `allow`. -/
def allow (gate : NamespaceEventGate) (workflowId : WorkflowId) : NamespaceEventGate :=
  { gate with verdicts := gate.verdicts.insert workflowId ⟨true, none⟩ }

/-- The end of `admit`, with the verdict that was cached or read. -/
def decideVerdict (gate : NamespaceEventGate) (event : Event) (cached : CachedVerdict) :
    GateVerdict × NamespaceEventGate :=
  if !cached.permitted then (.filtered, gate)
  else
    match startedType event with
    | some inline => (.permitted (some inline), { gate with verdicts := gate.verdicts.refreshType event.workflowId inline })
    | none => (.permitted cached.workflowType, gate)

/-- `admit`. The source is read only for a workflow that is not cached, and its error ends the
call. -/
def admitEvent (gate : NamespaceEventGate) (event : Event) (read : OwnershipRead ServerError) :
    Except ServerError GateVerdict × NamespaceEventGate :=
  let (hit, verdicts) := gate.verdicts.get event.workflowId
  match hit with
  | some verdict =>
    let (decided, gate) :=
      ({ gate with verdicts := verdicts } : NamespaceEventGate).decideVerdict event verdict
    (.ok decided, gate)
  | none =>
    match workflowAttribution gate.namespaceName read with
    | .error error => (.error error, { gate with verdicts := verdicts })
    | .ok found =>
      let verdict := CachedVerdict.ofAttribution found
      let verdicts := verdicts.insert event.workflowId verdict
      let (decided, gate) := ({ gate with verdicts := verdicts } : NamespaceEventGate).decideVerdict event verdict
      (.ok decided, gate)

/-- A call of the gate; an event comes with what the source answers if it is read for it. -/
inductive Call (ServerError : Type*) where
  | allow (workflowId : WorkflowId)
  | event (event : Event) (read : OwnershipRead ServerError)

variable {gate : NamespaceEventGate} {event : Event} {read : OwnershipRead ServerError}
  {call : Call ServerError}
  {calls : List (Call ServerError)}

/-- The gate after a call. -/
def after (gate : NamespaceEventGate) : Call ServerError → NamespaceEventGate
  | .allow workflowId => gate.allow workflowId
  | .event event read => (gate.admitEvent event read).2

/-- The gate after these calls. -/
def run (gate : NamespaceEventGate) (calls : List (Call ServerError)) : NamespaceEventGate :=
  calls.foldl after gate

/-! ### What the gate is for -/

/-- A gate without a cache. -/
def admitUncached (namespaceName : String) (event : Event) (read : OwnershipRead ServerError) :
    Except ServerError GateVerdict :=
  (workflowAttribution namespaceName read).map fun found =>
    found.elim .filtered fun attribution =>
      .permitted ((startedType event).or attribution.workflowType)

/-- The source's answer for a workflow never changes, and `allow` is only called for owned
workflows. -/
def Call.Agrees (namespaceName : String) (owned : WorkflowId → Prop) : Call ServerError → Prop
  | .allow workflowId => owned workflowId
  | .event event read => ∀ found, workflowAttribution namespaceName read = .ok found → (found.isSome ↔ owned event.workflowId)

/-- The workflows that a call uses: the one it is for, unless the call fails. -/
def uses (gate : NamespaceEventGate) : Call ServerError → List WorkflowId
  | .allow workflowId => [workflowId]
  | .event event read =>
    match (gate.admitEvent event read).1 with
    | .ok _ => [event.workflowId]
    | .error _ => []

/-- How many stamps a call takes: a miss of `admitEvent` takes one, and `insert` another. -/
def stamps (gate : NamespaceEventGate) : Call ServerError → ℕ
  | .allow _ => 1
  | .event event read =>
    match gate.verdicts.entries.lookup event.workflowId, read with
    | some _, _ => 1
    | none, .error _ => 1
    | none, .ok _ => 2

/-- The workflows that these calls use, in order. -/
def usesOf (gate : NamespaceEventGate) : List (Call ServerError) → List WorkflowId
  | [] => []
  | call :: rest => gate.uses call ++ usesOf (gate.after call) rest

/-- How many stamps these calls take. -/
def stampsOf (gate : NamespaceEventGate) : List (Call ServerError) → ℕ
  | [] => 0
  | call :: rest => gate.stamps call + stampsOf (gate.after call) rest

/-! ### One call -/

theorem isPermitted_decideVerdict (gate : NamespaceEventGate) (event : Event)
    (cached : CachedVerdict) :
    (gate.decideVerdict event cached).1.isPermitted = cached.permitted := by
  unfold decideVerdict
  cases hpermitted : cached.permitted with
  | false => rfl
  | true => cases startedType event <;> rfl

/-- Deciding leaves the cache, or refreshes a type. -/
theorem decideVerdict_cases (gate : NamespaceEventGate) (event : Event) (cached : CachedVerdict) :
    (gate.decideVerdict event cached).2 = gate ∨ ∃ workflowType,
      (gate.decideVerdict event cached).2 =
      { gate with verdicts := gate.verdicts.refreshType event.workflowId workflowType } := by
  unfold decideVerdict
  split
  · exact .inl rfl
  · cases startedType event with
    | none => exact .inl rfl
    | some inline => exact .inr ⟨inline, rfl⟩

/-- The cache and the verdict that `admit` decides with: a hit, or a read. -/
inductive Consults (gate : NamespaceEventGate) (event : Event) (read : OwnershipRead ServerError) :
    VerdictCache → CachedVerdict → Prop where
  | hit (entry : StampedVerdict) (hent : gate.verdicts.entries.lookup event.workflowId = some entry) :
    Consults gate event read (gate.verdicts.get event.workflowId).2 entry.verdict
  | miss (found : Option WorkflowAttribution)
    (hnone : gate.verdicts.entries.lookup event.workflowId = none)
    (hfd : workflowAttribution gate.namespaceName read = .ok found) :
    Consults gate event read
    ((gate.verdicts.get event.workflowId).2.insert event.workflowId (.ofAttribution found)) (.ofAttribution found)

/-- All that `admit` can do. -/
theorem admitEvent_cases (gate : NamespaceEventGate) (event : Event)
    (read : OwnershipRead ServerError) :
    (∃ verdicts verdict, gate.Consults event read verdicts verdict ∧
      gate.admitEvent event read = (.ok
          (NamespaceEventGate.decideVerdict { gate with verdicts := verdicts } event verdict).1,
        (NamespaceEventGate.decideVerdict { gate with verdicts := verdicts } event verdict).2)) ∨
    ∃ error, gate.verdicts.entries.lookup event.workflowId = none ∧ read = .error error ∧
      gate.admitEvent event read = (.error error,
          { gate with verdicts := (gate.verdicts.get event.workflowId).2 }) := by
  cases hlook : gate.verdicts.entries.lookup event.workflowId with
  | some entry =>
    refine .inl ⟨_, _, .hit entry hlook, ?_⟩
    simp only [admitEvent, VerdictCache.get_of_some hlook]
  | none =>
    cases hread : read with
    | error error =>
      refine .inr ⟨error, rfl, rfl, ?_⟩
      simp only [admitEvent, VerdictCache.get_of_none hlook, workflowAttribution, Except.map]
    | ok found =>
      refine .inl ⟨_, _, .miss _ hlook rfl, ?_⟩
      simp only [admitEvent, VerdictCache.get_of_none hlook, workflowAttribution, Except.map]

/-! ### What every call keeps -/

/-- The cache is within its capacity, and its verdicts are those of the source. -/
structure Sound (namespaceName : String) (owned : WorkflowId → Prop) (gate : NamespaceEventGate) :
    Prop where
  namespaceName : gate.namespaceName = namespaceName
  bounded : gate.verdicts.Bounded
  holds : gate.verdicts.Holds fun workflowId verdict => verdict.permitted = true ↔ owned workflowId

variable {namespaceName : String} {owned : WorkflowId → Prop} {verdicts : VerdictCache}
  {verdict : CachedVerdict}

theorem sound_new (namespaceName : String) (owned : WorkflowId → Prop) (capacity : ℕ)
    (capacity_pos : 0 < capacity) :
    (new namespaceName capacity capacity_pos).Sound namespaceName owned :=
  ⟨rfl, VerdictCache.bounded_new capacity capacity_pos,
      VerdictCache.holds_new capacity capacity_pos⟩

theorem permitted_ofAttribution (found : Option WorkflowAttribution) :
    (CachedVerdict.ofAttribution found).permitted = found.isSome := by
  cases found <;> rfl

/-- What `admit` decides with is sound, and the verdict says who the owner is. -/
theorem Sound.consults (h : gate.Sound namespaceName owned)
    (hcall : Call.Agrees namespaceName owned (.event event read))
    (hconsults : gate.Consults event read verdicts verdict) :
    NamespaceEventGate.Sound namespaceName owned { gate with verdicts := verdicts } ∧
      (verdict.permitted = true ↔ owned event.workflowId) := by
  cases hconsults with
  | hit entry hent =>
    exact ⟨⟨h.namespaceName, h.bounded.get _, h.holds.get _⟩, h.holds _ entry hent⟩
  | miss found hnone hfd =>
    have hgood : (CachedVerdict.ofAttribution found).permitted = true ↔ owned event.workflowId := by
      rw [permitted_ofAttribution]
      exact hcall found (h.namespaceName ▸ hfd)
    exact ⟨⟨h.namespaceName, (h.bounded.get _).insert _ _, (h.holds.get _).insert hgood⟩, hgood⟩

theorem Sound.decideVerdict (h : gate.Sound namespaceName owned) (event : Event)
    (cached : CachedVerdict) : (gate.decideVerdict event cached).2.Sound namespaceName owned := by
  rcases decideVerdict_cases gate event cached with heq | ⟨workflowType, heq⟩
  · rwa [heq]
  · rw [heq]
    refine ⟨h.namespaceName, h.bounded.refreshType _ _, h.holds.refreshType (fun entry hent _ => ?_) _⟩
    exact h.holds _ entry hent

theorem Sound.after (h : gate.Sound namespaceName owned) (hcall : call.Agrees namespaceName owned) :
    (gate.after call).Sound namespaceName owned := by
  cases call with
  | allow workflowId =>
    refine ⟨h.namespaceName, h.bounded.insert _ _, h.holds.insert ?_⟩
    exact iff_of_true rfl hcall
  | event event read =>
    show (gate.admitEvent event read).2.Sound namespaceName owned
    rcases admitEvent_cases gate event read with ⟨verdicts, verdict, hconsults,
      heq⟩ | ⟨error, -, -, heq⟩
    · rw [heq]
      exact (h.consults hcall hconsults).1.decideVerdict event verdict
    · rw [heq]
      exact ⟨h.namespaceName, h.bounded.get _, h.holds.get _⟩

theorem Sound.run (h : gate.Sound namespaceName owned)
    (hcalls : ∀ call ∈ calls, call.Agrees namespaceName owned) :
    (gate.run calls).Sound namespaceName owned := by
  induction calls generalizing gate with
  | nil => exact h
  | cons call rest ih =>
    obtain ⟨hcall, hrest⟩ := List.forall_mem_cons.mp hcalls
    exact ih (h.after hcall) hrest

/-- A verdict of the gate says who the owner is. -/
theorem Sound.permitted_iff (h : gate.Sound namespaceName owned)
    (hcall : Call.Agrees namespaceName owned (.event event read)) {decided : GateVerdict}
    (hdecd : (gate.admitEvent event read).1 = .ok decided) :
    decided.isPermitted = true ↔ owned event.workflowId := by
  rcases admitEvent_cases gate event read with ⟨verdicts, verdict, hconsults,
    heq⟩ | ⟨error, -, -, heq⟩
  · rw [heq] at hdecd
    obtain rfl := Except.ok.inj hdecd
    rw [isPermitted_decideVerdict]
    exact (h.consults hcall hconsults).2
  · rw [heq] at hdecd
    cases hdecd

theorem isPermitted_uncached (event : Event) (found : Option WorkflowAttribution) :
    (found.elim GateVerdict.filtered fun attribution =>
        .permitted ((startedType event).or attribution.workflowType)).isPermitted =
      found.isSome := by
  cases found <;> rfl

/-- When the source can be read, the gate decides as one without a cache. -/
theorem Sound.admitEvent_eq_uncached (h : gate.Sound namespaceName owned)
    (hcall : Call.Agrees namespaceName owned (.event event read)) (hread : read.isOk = true) :
    (gate.admitEvent event read).1.map GateVerdict.isPermitted =
      (admitUncached namespaceName event read).map GateVerdict.isPermitted := by
  cases hsrc : read with
  | error error => simp [hsrc, Except.isOk, Except.toBool] at hread
  | ok found =>
    subst hsrc
    rcases admitEvent_cases gate event (.ok found) with ⟨verdicts, verdict, hconsults,
      heq⟩ | ⟨error, -, hread, -⟩
    · have hverdict := (h.consults hcall hconsults).2
      have hfd := hcall _ rfl
      rw [heq]
      show Except.ok (GateVerdict.isPermitted _) = .ok (GateVerdict.isPermitted _)
      rw [isPermitted_decideVerdict, isPermitted_uncached]
      exact congrArg Except.ok (Bool.eq_iff_iff.mpr (hverdict.trans hfd.symm))
    · cases hread

/-- An error of the gate is one of the source, for a workflow that is not cached. -/
theorem read_eq_of_admitEvent_error {error : ServerError}
    (h : (gate.admitEvent event read).1 = .error error) :
    read = .error error ∧ gate.verdicts.entries.lookup event.workflowId = none := by
  rcases admitEvent_cases gate event read with ⟨verdicts, verdict, -, heq⟩ | ⟨error', hnone,
    hread, heq⟩
  · rw [heq] at h
    cases h
  · rw [heq] at h
    obtain rfl := Except.error.inj h
    exact ⟨hread, hnone⟩

/-! ### What is cached -/

/-- The clock is at the stamps taken, and the cached workflows are the most recently used. -/
structure Tracks (used : List WorkflowId) (taken : ℕ) (gate : NamespaceEventGate) : Prop where
  paired : gate.verdicts.Paired (gate.verdicts.clock + 1)
  clock : gate.verdicts.clock = taken
  byRecency : gate.verdicts.byRecency = (recent used).take gate.verdicts.capacity

variable {used : List WorkflowId} {taken : ℕ}

theorem tracks_new (namespaceName : String) (capacity : ℕ) (capacity_pos : 0 < capacity) :
    (new namespaceName capacity capacity_pos).Tracks [] 0 :=
  ⟨VerdictCache.paired_new capacity capacity_pos, rfl, (List.take_nil (i := capacity)).symm⟩

variable {found : Option WorkflowAttribution} {workflowId : WorkflowId} {count : ℕ}

/-- One use of the cache, the gate otherwise as it was. -/
theorem Tracks.use (h : gate.Tracks used taken)
    (huses : gate.verdicts.Uses verdicts (touchWithin gate.verdicts.capacity gate.verdicts.byRecency workflowId)) :
    NamespaceEventGate.Tracks (used ++ [workflowId]) (taken + 1) { gate with verdicts := verdicts } where
  paired := huses.paired
  clock := huses.clock.trans (congrArg (· + 1) h.clock)
  byRecency := by
    show verdicts.byRecency = (recent (used ++ [workflowId])).take verdicts.capacity
    rw [huses.byRecency, huses.capacity, h.byRecency, recent_concat, take_touch]

theorem Tracks.decideVerdict (h : gate.Tracks used taken) (event : Event) (cached : CachedVerdict) :
    (gate.decideVerdict event cached).2.Tracks used taken := by
  rcases decideVerdict_cases gate event cached with heq | ⟨workflowType, heq⟩
  · rwa [heq]
  · obtain ⟨horder, hclock, hcap⟩ :=
      VerdictCache.refreshType_fields gate.verdicts event.workflowId workflowType
    rw [heq]
    refine ⟨?_, hclock.trans h.clock, ?_⟩
    · show (gate.verdicts.refreshType _ _).Paired ((gate.verdicts.refreshType _ _).clock + 1)
      rw [hclock]
      exact h.paired.refreshType _ _
    · show (gate.verdicts.refreshType _ _).byRecency = (recent used).take (gate.verdicts.refreshType _ _).capacity
      rw [VerdictCache.byRecency, horder, hcap]
      exact h.byRecency

/-- A miss of `admit` takes a stamp and leaves what is cached. -/
theorem Tracks.miss (h : gate.Tracks used taken) (htaken : taken + 1 < 2 ^ 64)
    (hnone : gate.verdicts.entries.lookup workflowId = none) :
    NamespaceEventGate.Tracks used (taken + 1) { gate with verdicts :=
        (gate.verdicts.get workflowId).2 } := by
  have huses := h.paired.get_none (by rwa [h.clock]) hnone
  refine ⟨huses.paired, huses.clock.trans (congrArg (· + 1) h.clock), ?_⟩
  show (gate.verdicts.get workflowId).2.byRecency =
    (recent used).take (gate.verdicts.get workflowId).2.capacity
  rw [huses.byRecency, huses.capacity, h.byRecency]

theorem stamps_of_some {entry : StampedVerdict}
    (h : gate.verdicts.entries.lookup event.workflowId = some entry) :
    gate.stamps (.event event read) = 1 := by
  simp only [stamps, h]

theorem stamps_of_ok (h : gate.verdicts.entries.lookup event.workflowId = none)
    (hfd : workflowAttribution gate.namespaceName read = .ok found) :
    gate.stamps (.event event read) = 2 := by
  cases read with
  | error error => cases hfd
  | ok found => simp only [stamps, h]

theorem Tracks.after (h : gate.Tracks used taken) (htaken : taken + gate.stamps call < 2 ^ 64) :
    (gate.after call).Tracks (used ++ gate.uses call) (taken + gate.stamps call) := by
  cases call with
  | allow workflowId => exact h.use (h.paired.insert (by rwa [h.clock]) workflowId _)
  | event event read =>
    show (gate.admitEvent event read).2.Tracks _ _
    rcases admitEvent_cases gate event read with ⟨verdicts, verdict, hconsults, heq⟩ | ⟨error,
      hnone, hread, heq⟩
    · have huses : gate.uses (.event event read) = [event.workflowId] := by
        simp only [uses, heq]
      rw [heq, huses]
      apply Tracks.decideVerdict
      cases hconsults with
      | hit entry hent =>
        rw [stamps_of_some hent] at htaken ⊢
        exact h.use (h.paired.get_some (by rwa [h.clock]) hent)
      | miss found hnone hfd =>
        rw [stamps_of_ok hnone hfd] at htaken ⊢
        have hmiss := h.miss (Nat.lt_of_succ_lt htaken) hnone
        exact hmiss.use (hmiss.paired.insert (by rwa [hmiss.clock]) event.workflowId _)
    · subst hread
      have huses : gate.uses (.event event (.error error)) = [] := by
        simp only [uses, heq]
      have hstamps : gate.stamps (.event event (.error error)) = 1 := by
        simp only [stamps, hnone]
      rw [hstamps] at htaken
      rw [heq, huses, hstamps, List.append_nil]
      exact h.miss htaken hnone

theorem Tracks.run (h : gate.Tracks used taken) (htaken : taken + gate.stampsOf calls < 2 ^ 64) :
    (gate.run calls).Tracks (used ++ gate.usesOf calls) (taken + gate.stampsOf calls) := by
  induction calls generalizing gate used taken with
  | nil => simpa [NamespaceEventGate.run, usesOf, stampsOf] using h
  | cons call rest ih =>
    rw [stampsOf, ← Nat.add_assoc] at htaken ⊢
    rw [usesOf, ← List.append_assoc]
    exact ih (h.after (by omega)) htaken

theorem verdicts_capacity_after (gate : NamespaceEventGate) (call : Call ServerError) :
    (gate.after call).verdicts.capacity = gate.verdicts.capacity := by
  cases call with
  | allow workflowId => exact VerdictCache.capacity_insert _ _ _
  | event event read =>
    show (gate.admitEvent event read).2.verdicts.capacity = _
    have hdecide (verdicts : VerdictCache) (verdict : CachedVerdict) :
        (NamespaceEventGate.decideVerdict { gate with verdicts :=
            verdicts } event verdict).2.verdicts.capacity = verdicts.capacity := by
      rcases decideVerdict_cases { gate with verdicts := verdicts } event verdict with heq | ⟨workflowType, heq⟩
      · rw [heq]
      · rw [heq]
        exact (VerdictCache.refreshType_fields verdicts event.workflowId workflowType).2.2
    rcases admitEvent_cases gate event read with ⟨verdicts, verdict, hconsults,
      heq⟩ | ⟨error, -, -, heq⟩
    · rw [heq, hdecide]
      cases hconsults with
      | hit => exact VerdictCache.capacity_get _ _
      | miss => exact (VerdictCache.capacity_insert _ _ _).trans (VerdictCache.capacity_get _ _)
    · rw [heq]
      exact VerdictCache.capacity_get _ _

theorem verdicts_capacity_run (gate : NamespaceEventGate) (calls : List (Call ServerError)) :
    (gate.run calls).verdicts.capacity = gate.verdicts.capacity := by
  induction calls generalizing gate with
  | nil => rfl
  | cons call rest ih => exact (ih (gate.after call)).trans (verdicts_capacity_after gate call)

/-- **The cache of the gate is transparent.** After any calls that agree with an owner of each
workflow, an event is permitted exactly when its workflow is owned, as by a gate without a cache,
and only the source's own errors come through; the cache is within its capacity. As long as fewer
than `2 ^ 64` stamps were handed out, stamps and entries correspond one to one, and the cached
workflows are the most recently used ones. -/
theorem gate_transparent (namespaceName : String) (capacity : ℕ) (capacity_pos : 0 < capacity) (owned : WorkflowId → Prop)
    (calls : List (Call ServerError)) (hcalls : ∀ call ∈ calls, call.Agrees namespaceName owned) :
    let start := new namespaceName capacity capacity_pos
    let gate := start.run calls
    (∀ (event : Event) (read : OwnershipRead ServerError), Call.Agrees namespaceName owned (.event event read) →
      (∀ decided, (gate.admitEvent event read).1 = .ok decided → (decided.isPermitted = true ↔ owned event.workflowId)) ∧
      (read.isOk = true → (gate.admitEvent event read).1.map GateVerdict.isPermitted =
        (admitUncached namespaceName event read).map GateVerdict.isPermitted) ∧
      ∀ error, (gate.admitEvent event read).1 = .error error →
        read = .error error ∧ gate.verdicts.entries.lookup event.workflowId = none) ∧
    gate.verdicts.entries.keys.length ≤ capacity ∧
    (start.stampsOf calls < 2 ^ 64 →
      (∀ stamp workflowId, (stamp, workflowId) ∈ gate.verdicts.order.entries ↔
        ∃ verdict, gate.verdicts.entries.lookup workflowId = some ⟨stamp, verdict⟩) ∧
      (∀ workflowId, workflowId ∈ gate.verdicts.entries ↔ workflowId ∈ (recent (start.usesOf calls)).take capacity) ∧
      gate.verdicts.byRecency = (recent (start.usesOf calls)).take capacity) := by
  intro start gate
  have hsound : gate.Sound namespaceName owned :=
    (sound_new namespaceName owned capacity capacity_pos).run hcalls
  have hcap : gate.verdicts.capacity = capacity := verdicts_capacity_run start calls
  refine ⟨fun event read hcall => ⟨fun decided => hsound.permitted_iff hcall,
      hsound.admitEvent_eq_uncached hcall,
    fun error => read_eq_of_admitEvent_error⟩, hcap ▸ hsound.bounded.size, fun hstamps => ?_⟩
  have htracks := (tracks_new namespaceName capacity capacity_pos).run (by rwa [Nat.zero_add])
  have hrecent : gate.verdicts.byRecency = (recent (start.usesOf calls)).take capacity :=
    hcap ▸ htracks.byRecency
  refine ⟨fun stamp workflowId => htracks.paired.mem_order_iff stamp, fun workflowId => ?_, hrecent⟩
  rw [← hrecent, htracks.paired.mem_byRecency, AList.lookup_isSome]

/-- A signal of a workflow. -/
def shipSignal (workflowId : WorkflowId) : Event :=
  ⟨⟨1, 0, workflowId⟩, .signalReceived "ship" .empty⟩

/-- A target that is allowed, an event of another tenant's workflow, and one more of a workflow of
this tenant. -/
def tenantCalls : List (Call Unit) :=
  [.allow ⟨1⟩, .event (shipSignal ⟨2⟩) (.ok (some ⟨"tenant-b", none⟩)),
   .event (shipSignal ⟨3⟩) (.ok (some ⟨"tenant-a", some "checkout"⟩))]

theorem agrees_ok :
    Call.Agrees namespaceName owned (.event event (.ok found) : Call ServerError) ↔
      ((found.any fun attribution => attribution.namespaceName == namespaceName) = true ↔
          owned event.workflowId) := by
  simp [Call.Agrees, workflowAttribution, Except.map]

theorem agrees_tenantCalls : ∀ call ∈ tenantCalls, call.Agrees "tenant-a" (· ≠ ⟨2⟩) := by
  intro call hcall
  simp only [tenantCalls, List.mem_cons, List.not_mem_nil, or_false] at hcall
  rcases hcall with rfl | rfl | rfl
  · show (⟨1⟩ : WorkflowId) ≠ ⟨2⟩
    decide
  · exact agrees_ok.mpr (by decide)
  · exact agrees_ok.mpr (by decide)

/-- In a cache for two workflows the target is gone, and an event of it is permitted all the
same. -/
theorem gate_transparent_tenantCalls :
    let gate := (new "tenant-a" 2 (by decide)).run tenantCalls
    (∀ decided, (gate.admitEvent (shipSignal ⟨1⟩) (.ok (some ⟨"tenant-a", none⟩) : OwnershipRead Unit)).1 = .ok decided →
      (decided.isPermitted = true ↔ (⟨1⟩ : WorkflowId) ≠ ⟨2⟩)) ∧
    gate.verdicts.entries.keys.length ≤ 2 ∧ gate.verdicts.byRecency = [⟨3⟩, ⟨2⟩] := by
  have h := gate_transparent "tenant-a" 2 (by decide) (· ≠ ⟨2⟩) tenantCalls agrees_tenantCalls
  exact ⟨(h.1 _ _ (agrees_ok.mpr (by decide))).1, h.2.1, (h.2.2 (by decide)).2.2⟩

/-! ### The clock's end -/

/-- These workflows are allowed. -/
def allows (workflows : List WorkflowId) : List (Call ServerError) := workflows.map Call.allow

theorem usesOf_allows (gate : NamespaceEventGate) (workflows : List WorkflowId) :
    gate.usesOf (allows workflows : List (Call ServerError)) = workflows := by
  induction workflows generalizing gate with
  | nil => rfl
  | cons workflowId rest ih => exact congrArg (workflowId :: ·) (ih _)

theorem stampsOf_allows (gate : NamespaceEventGate) (workflows : List WorkflowId) :
    gate.stampsOf (allows workflows : List (Call ServerError)) = workflows.length := by
  induction workflows generalizing gate with
  | nil => rfl
  | cons workflowId rest ih => exact (congrArg (1 + ·) (ih _)).trans (Nat.add_comm _ _)

theorem run_append (gate : NamespaceEventGate) (calls calls' : List (Call ServerError)) :
    gate.run (calls ++ calls') = (gate.run calls).run calls' := List.foldl_append

/-- One workflow is allowed, and then another many times. -/
def untilClockEnd (count : ℕ) : List WorkflowId := ⟨2⟩ :: List.replicate count ⟨1⟩

theorem recent_untilClockEnd (hpos : 0 < count) : recent (untilClockEnd count) = [⟨1⟩, ⟨2⟩] := by
  obtain ⟨count, rfl⟩ := Nat.exists_eq_succ_of_ne_zero hpos.ne'
  exact foldl_touch_replicate count _ _

theorem tracks_untilClockEnd (hcount : count + 1 < 2 ^ 64) :
    ((new "orders" 2 Nat.two_pos).run
        (allows (untilClockEnd count) : List (Call ServerError))).Tracks
      (untilClockEnd count) (count + 1) := by
  have hstamps : (new "orders" 2 Nat.two_pos).stampsOf
      (allows (untilClockEnd count) : List (Call ServerError)) = count + 1 := by
    rw [stampsOf_allows, untilClockEnd, List.length_cons, List.length_replicate]
  have htracks := (tracks_new "orders" 2 Nat.two_pos).run (by rwa [hstamps, Nat.zero_add])
  rwa [hstamps, usesOf_allows, Nat.zero_add] at htracks

/-- Of two other workflows that are allowed then, the first is not cached. -/
theorem lookup_after_clock_end (hcount : count + 1 = 2 ^ 64 - 1) {gate : NamespaceEventGate}
    (htracks : gate.Tracks (untilClockEnd count) (count + 1)) (hcap : gate.verdicts.capacity = 2) :
    ((gate.allow ⟨3⟩).allow ⟨4⟩).verdicts.entries.lookup ⟨3⟩ = none := by
  have hcached : gate.verdicts.byRecency = [⟨1⟩, ⟨2⟩] := by
    rw [htracks.byRecency, hcap, recent_untilClockEnd (by omega)]
    rfl
  have hnew {workflowId : WorkflowId} (h : workflowId ∉ ([⟨1⟩, ⟨2⟩] : List WorkflowId)) :
      gate.verdicts.entries.lookup workflowId = none := by
    rw [← hcached, htracks.paired.mem_byRecency] at h
    exact Option.not_isSome_iff_eq_none.mp h
  apply htracks.paired.toBounded.newest_evicted _ _ (hnew (by decide)) (hnew (by decide))
    (by decide)
  · rw [hcap, ← htracks.paired.length_byRecency, hcached]
    rfl
  · show (gate.verdicts.clock + 1) % 2 ^ 64 = 0
    rw [htracks.clock]
    omega

theorem evicted_after_clock_end {count : ℕ} (hcount : count + 1 = 2 ^ 64 - 1) :
    let start := new "orders" 2 Nat.two_pos
    let calls : List (Call ServerError) := allows (untilClockEnd count ++ [⟨3⟩, ⟨4⟩])
    (∀ call ∈ calls, call.Agrees "orders" fun _ => True) ∧
      (⟨3⟩ : WorkflowId) ∈ (recent (start.usesOf calls)).take 2 ∧
        (⟨3⟩ : WorkflowId) ∉ (start.run calls).verdicts.entries := by
  intro start calls
  refine ⟨fun call hcall => ?_, ?_, ?_⟩
  · obtain ⟨workflowId, -, rfl⟩ := List.mem_map.mp hcall
    trivial
  · rw [usesOf_allows, recent, List.foldl_append, ← recent, recent_untilClockEnd (by omega)]
    decide
  · have hcalls : calls = allows (untilClockEnd count) ++ [.allow ⟨3⟩, .allow ⟨4⟩] :=
      List.map_append
    rw [hcalls, run_append, ← AList.lookup_eq_none]
    exact lookup_after_clock_end hcount (tracks_untilClockEnd (by omega))
      (verdicts_capacity_run _ _)

/-- After `2 ^ 64 - 1` stamps the clock starts again at zero: of two workflows that are allowed
then, the first is evicted for the second, though the two are the most recently used. -/
theorem recent_workflow_evicted :
    let start := new "orders" 2 Nat.two_pos
    let calls : List (Call Unit) := allows (untilClockEnd (2 ^ 64 - 2) ++ [⟨3⟩, ⟨4⟩])
    (∀ call ∈ calls, call.Agrees "orders" fun _ => True) ∧
      (⟨3⟩ : WorkflowId) ∈ (recent (start.usesOf calls)).take 2 ∧ (⟨3⟩ : WorkflowId) ∉ (start.run calls).verdicts.entries :=
  @evicted_after_clock_end Unit (2 ^ 64 - 2) (by omega)

end NamespaceEventGate

end Aion
