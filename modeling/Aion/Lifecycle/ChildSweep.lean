import Aion.Durability.Replay
import Aion.Lifecycle.FaultyStore
import Aion.Package.Contents

/-!
# The children a restart starts

A parent records the start of a child before the child itself is started, and the engine can go down
in between. At startup a sweep over the parent's run starts what was lost
(`sweep_recorded_children`, `engine/startup_sweeps.rs`): it passes over a child that has completed
or failed on the parent's side and over one that has a history, and starts any other under what the
parent recorded.

`child_sweep_exact_iff`: whatever fails on the way, a child is started at most once, from an empty
history and as recorded. A sweep that goes through starts exactly the lost children if and only if
no child without a history was cancelled; the sweep does not look for cancellations. No recorder
writes one: a child that is cancelled is recorded as failed. So the sweep is exact
(`child_sweep_exact`). `cancelled_child_started` is a history with a cancellation all the same.

A sweep stops at its first failure.
-/

namespace Aion

open Interleaving

/-! ### Recorded versions -/

/-- `hex_value` takes the byte. -/
def isHexValue (byte : UInt8) : Bool := (48 ≤ byte && byte ≤ 57) || (97 ≤ byte && byte ≤ 102)

/-- What the parser of content hashes has against a text; its bytes are those of the text. -/
def contentHashRefusal (bytes : List UInt8) : Option String :=
  if bytes.length ≠ 64 then
    some ("content hash text must be 64 lowercase hexadecimal characters, found " ++ toString bytes.length ++ " bytes")
  else
    match bytes.findIdx? fun byte => !isHexValue byte with
    | none => none
    | some index =>
      some ("content hash text contains non-lowercase-hex byte 0x" ++
        String.ofList (Packaging.hexByte (bytes.getD index 0)) ++ " at byte index " ++ toString index)

/-- `parse_package_version`; a hash is written as it was parsed, so the version stands for it. -/
def parsePackageVersion (workflowType : String) (version : PackageVersion) :
    Except EngineError PackageVersion :=
  match contentHashRefusal (Packaging.utf8 version.asStr.toList) with
  | none => .ok version
  | some error => .error (.load ("workflow `" ++ workflowType ++ "` recorded package version `" ++ version.asStr ++
      "` that is not a canonical content hash: " ++ error))

variable {version : PackageVersion} {workflowType : String}

theorem parsePackageVersion_eq_ok {parsed : PackageVersion}
    (h : parsePackageVersion workflowType version = .ok parsed) : parsed = version := by
  unfold parsePackageVersion at h
  split at h
  · exact (Except.ok.inj h).symm
  · cases h

/-! ### The sweep -/

/-- What the sweep of one parent finds around it. -/
structure SweepEnvironment where
  /-- What a start takes from around it; a start goes with the number of events that are left. -/
  starts : ℕ → StartEnvironment
  /-- An exact version resolves to itself. -/
  exact : ∀ left workflowType version loaded, (starts left).resolve workflowType (some version) =
    some loaded →
    loaded.version = version
  /-- The part of a start that comes after its records: supervision, spawn and registration. -/
  launch : ℕ → Except EngineError Unit

/-- The segment has a terminal of the child on the parent's side, as the sweep looks for it. -/
def hasParentSideTerminal (segment : List Event) (child : WorkflowId) : Bool :=
  segment.any fun candidate => isChildTerminalFor candidate child

/-- The start the sweep asks for. -/
def childRequest (child : WorkflowId) (workflowType : String) (input : Payload)
    (version : PackageVersion) : StartRequest where
  workflowType := workflowType
  input := input
  options := { StartWorkflowOptions.default with workflowId := some child, loadedVersion := some version }

/-- The body of the loop. -/
def sweepEvent (env : SweepEnvironment) (segment : List Event) (left : ℕ) (event : Event) :
    EngineM Unit :=
  match event.body with
  | .childWorkflowStarted child workflowType input version =>
    if hasParentSideTerminal segment child then return ()
    else do
      let childHistory ← EngineM.readHistory child
      if childHistory ≠ [] then return ()
      else
        let version ← EngineM.lift (parsePackageVersion workflowType version)
        startWorkflowWithOptions (env.starts left) (childRequest child workflowType input version)
        EngineM.lift (env.launch left)
  | _ => return ()

/-- The loop over what is left of the segment. -/
def sweepEvents (env : SweepEnvironment) (segment : List Event) : List Event → EngineM Unit
  | [] => return ()
  | event :: rest => do
    sweepEvent env segment rest.length event
    sweepEvents env segment rest

/-- `sweep_recorded_children`. -/
def sweepRecordedChildren (env : SweepEnvironment) (parentRunId : RunId)
    (parentHistory : List Event) : EngineM Unit := do
  let segment ← (.done ((currentRunSegment parentHistory parentRunId).mapError
      .durability) : EngineM (List Event))
  sweepEvents env segment segment

/-! ### What a sweep leaves -/

/-- The child was started from an empty history, as one of the segment's events records it. -/
structure StartedAs (segment : List Event) (store : InMemoryStore) (child : WorkflowId)
    (last : InMemoryStore) : Prop where
  empty : store.history child = []
  unended : hasParentSideTerminal segment child = false
  recorded : ∃ event ∈ segment, ∃ workflowType input version,
    event.body = .childWorkflowStarted child workflowType input version ∧
    ∃ envelope runId added, last.history child =
      ⟨envelope, .workflowStarted workflowType input runId none version⟩ :: added ∧
      ∀ event ∈ added, isTimerStarted event

/-- Every history is as it was or that of a child that was started. -/
structure ChildrenSwept (segment : List Event) (store last : InMemoryStore) : Prop where
  numbered : store.Numbered → last.Numbered
  started : ∀ id, last.history id = store.history id ∨ StartedAs segment store id last

namespace ChildrenSwept

variable {segment : List Event} {store middle last : InMemoryStore}

theorem refl (segment : List Event) (store : InMemoryStore) : ChildrenSwept segment store store :=
  ⟨id, fun _ => .inl rfl⟩

theorem of_sameHistories (h : SameHistories store last) : ChildrenSwept segment store last :=
  ⟨h.numbered, fun id => .inl (h.history_eq id)⟩

/-- A child that has been started is not started again. -/
theorem trans (h : ChildrenSwept segment store middle) (h' : ChildrenSwept segment middle last) :
    ChildrenSwept segment store last where
  numbered hnum := h'.numbered (h.numbered hnum)
  started id := by
    rcases h.started id with hsame | hstrt
    · rcases h'.started id with hsame' | hstrt'
      · exact .inl (hsame'.trans hsame)
      · exact .inr { hstrt' with empty := hsame.symm.trans hstrt'.empty }
    · rcases h'.started id with hsame' | hstrt'
      · obtain ⟨event, hev, workflowType, input, version, hbody, envelope, runId, added, hhist, hadd⟩ := hstrt.recorded
        exact .inr { hstrt with
          recorded := ⟨event, hev, workflowType, input, version, hbody, envelope, runId, added, hsame'.trans hhist, hadd⟩ }
      · obtain ⟨event, -, workflowType, input, version, -, envelope, runId, added, hhist, -⟩ := hstrt.recorded
        have hemp := hstrt'.empty
        rw [hhist] at hemp
        cases hemp

/-- What has a history keeps it. -/
theorem history_ne_nil (h : ChildrenSwept segment store last) {id : WorkflowId}
    (hid : store.history id ≠ []) : last.history id ≠ [] := by
  rcases h.started id with hsame | hstrt
  · rwa [hsame]
  · exact absurd hstrt.empty hid

end ChildrenSwept

section Sweep

variable {env : SweepEnvironment} {segment : List Event} {store last : InMemoryStore}
  {outcome : Except StartFailure Unit}

variable {child : WorkflowId} {event : Event}

/-- A start that is asked for gives the child its recorded start, or fails before. -/
theorem ends_startChild {input : Payload} {left : ℕ} (hev : event ∈ segment)
    (hbody : event.body = .childWorkflowStarted child workflowType input version)
    (hemp : store.history child = []) (hunended : hasParentSideTerminal segment child = false)
    (h : Prog.Ends FaultyAnswers (startWorkflowWithOptions (env.starts left)
        (childRequest child workflowType input version)) store outcome last) :
    ChildrenSwept segment store last ∧ (outcome = .ok () → last.history child ≠ []) := by
  rcases ends_startWorkflowWithOptions rfl rfl h with ⟨⟨failure, rfl⟩, hsame⟩ | ⟨loaded, hload, hstrt⟩
  · exact ⟨.of_sameHistories hsame, fun hok => by cases hok⟩
  · obtain ⟨envelope, added, hhist, hadd⟩ := hstrt.started
    rw [hemp, List.nil_append] at hhist
    have hver : loaded.version = version := env.exact left workflowType version loaded hload
    refine ⟨⟨hstrt.numbered, fun id => ?_⟩, fun _ => by rw [hhist]; exact List.cons_ne_nil _ _⟩
    by_cases hid : id = child
    · subst hid
      refine .inr ⟨hemp, hunended, event, hev, workflowType, input, version, hbody, envelope, (env.starts left).runId, added, ?_,
        hadd⟩
      rw [hhist, ← hver]
      rfl
    · exact .inl (hstrt.others id hid)

/-- One event: at most its own child is started. When the round goes through and the child has no
terminal, it has a history afterwards. -/
theorem ends_sweepEvent (hev : event ∈ segment) {left : ℕ} (numbered : store.Numbered)
    (h : Prog.Ends FaultyAnswers (sweepEvent env segment left event) store outcome last) :
    ChildrenSwept segment store last ∧
      (outcome = .ok () → ∀ child workflowType input version,
          event.body = .childWorkflowStarted child workflowType input version →
        hasParentSideTerminal segment child = false → last.history child ≠ []) := by
  unfold sweepEvent at h
  split at h
  · next child workflowType input version hbody =>
    suffices hchild : ChildrenSwept segment store last ∧
        (outcome = .ok () → hasParentSideTerminal segment child = false → last.history child ≠ []) by
      refine ⟨hchild.1, fun hok child' workflowType' input' version' hbody' hunended => ?_⟩
      obtain ⟨rfl, -⟩ := EventBody.childWorkflowStarted.inj (hbody.symm.trans hbody')
      exact hchild.2 hok hunended
    by_cases hended : hasParentSideTerminal segment child
    · rw [if_pos hended] at h
      obtain ⟨-, rfl⟩ := ends_done_iff.mp h
      exact ⟨.refl _ _, fun _ hunended => by rw [hended] at hunended; cases hunended⟩
    · rw [if_neg hended] at h
      rcases EngineM.ends_bind_iff.mp h with ⟨failure, rfl, hread⟩ | ⟨history, middle, hread, h⟩
      · obtain ⟨rfl, -⟩ := EngineM.ends_readHistory hread
        exact ⟨.refl _ _, fun hok => by cases hok⟩
      · obtain ⟨rfl, rfl⟩ := EngineM.ends_readHistory_ok hread
        rw [InMemoryStore.readHistory_of_numbered numbered] at h
        by_cases hemp : store.history child = []
        · rw [if_neg (not_not.mpr hemp)] at h
          rcases EngineM.ends_bind_iff.mp h with ⟨failure, rfl, hparse⟩ | ⟨parsed, middle, hparse, hrest⟩
          · obtain ⟨-, rfl⟩ := ends_done_iff.mp hparse
            exact ⟨.refl _ _, fun hok => by cases hok⟩
          · obtain ⟨hparsed, rfl⟩ := EngineM.ends_lift_ok hparse
            obtain rfl := parsePackageVersion_eq_ok hparsed
            rcases EngineM.ends_bind_iff.mp hrest with ⟨failure, rfl, hstart⟩ | ⟨_, middle, hstart, hlaunch⟩
            · obtain ⟨hswept, -⟩ := ends_startChild hev hbody hemp (by simpa using hended) hstart
              exact ⟨hswept, fun hok => by cases hok⟩
            · obtain ⟨hswept, hstrt⟩ := ends_startChild hev hbody hemp (by simpa using hended) hstart
              obtain ⟨-, rfl⟩ := ends_done_iff.mp hlaunch
              exact ⟨hswept, fun _ _ => hstrt rfl⟩
        · rw [if_pos hemp] at h
          obtain ⟨-, rfl⟩ := ends_done_iff.mp h
          exact ⟨.refl _ _, fun _ _ => hemp⟩
  · next hother =>
    obtain ⟨-, rfl⟩ := ends_done_iff.mp h
    exact ⟨.refl _ _, fun _ child workflowType input version hbody =>
        absurd hbody (hother child workflowType input version)⟩

/-- The loop. -/
theorem ends_sweepEvents {rest : List Event} (hrest : ∀ event ∈ rest, event ∈ segment)
    (numbered : store.Numbered)
    (h : Prog.Ends FaultyAnswers (sweepEvents env segment rest) store outcome last) :
    ChildrenSwept segment store last ∧
      (outcome = .ok () → ∀ event ∈ rest, ∀ child workflowType input version,
        event.body = .childWorkflowStarted child workflowType input version →
          hasParentSideTerminal segment child = false → last.history child ≠ []) := by
  induction rest generalizing store with
  | nil =>
    obtain ⟨-, rfl⟩ := ends_done_iff.mp h
    exact ⟨.refl _ _, fun _ event hev => by cases hev⟩
  | cons event rest ih =>
    obtain ⟨hev, hrest⟩ := List.forall_mem_cons.mp hrest
    rcases EngineM.ends_bind_iff.mp h with ⟨failure, rfl, hfst⟩ | ⟨_, middle, hfst, h⟩
    · exact ⟨(ends_sweepEvent hev numbered hfst).1, fun hok => by cases hok⟩
    · obtain ⟨hswept, hstrt⟩ := ends_sweepEvent hev numbered hfst
      obtain ⟨hswept', hstrt'⟩ := ih hrest (hswept.numbered numbered) h
      refine ⟨hswept.trans hswept', fun hok => List.forall_mem_cons.mpr ⟨?_, hstrt' hok⟩⟩
      intro child workflowType input version hbody hunended
      exact hswept'.history_ne_nil (hstrt rfl child workflowType input version hbody hunended)

/-- The event records a start of the child. -/
def recordsChild (child : WorkflowId) (event : Event) : Prop :=
  ∃ workflowType input version, event.body = .childWorkflowStarted child workflowType input version

variable {history : List Event} {run : RunId}

theorem ends_sweepRecordedChildren (current : currentRunSegment history run = .ok segment)
    (numbered : store.Numbered)
    (h : Prog.Ends FaultyAnswers (sweepRecordedChildren env run history) store outcome last) :
    ChildrenSwept segment store last ∧
      (outcome = .ok () → ∀ child, (∃ event ∈ segment, recordsChild child event) →
        hasParentSideTerminal segment child = false → last.history child ≠ []) := by
  rcases EngineM.ends_bind_iff.mp h with ⟨failure, rfl, hseg⟩ | ⟨found, middle, hseg, h⟩
  · obtain ⟨herr, rfl⟩ := ends_done_iff.mp hseg
    rw [current] at herr
    cases herr
  · obtain ⟨hfd, rfl⟩ := ends_done_iff.mp hseg
    rw [current] at hfd
    cases hfd
    obtain ⟨hswept, hstrt⟩ := ends_sweepEvents (fun _ hev => hev) numbered h
    refine ⟨hswept, fun hok child ⟨event, hev, workflowType, input, version, hbody⟩ hunended => ?_⟩
    exact hstrt hok event hev child workflowType input version hbody hunended

/-! ### Which children are lost -/

/-- The segment has a terminal of the child on the parent's side. -/
def HasTerminal (segment : List Event) (child : WorkflowId) : Prop :=
  (∃ event ∈ segment, isChildTerminalFor event child) ∨ ∃ event ∈ segment,
    event.body = .childWorkflowCancelled child

/-- The child was recorded, it never began, and the parent's side does not say that it is over. -/
structure Lost (segment : List Event) (store : InMemoryStore) (child : WorkflowId) : Prop where
  recorded : ∃ event ∈ segment, recordsChild child event
  empty : store.history child = []
  unended : ¬ HasTerminal segment child

/-- The sweep that goes through starts the lost children and no others, and another sweep starts
none. -/
structure SweepsLost (env : SweepEnvironment) (run : RunId) (history segment : List Event)
    (store last : InMemoryStore) : Prop where
  lost : ∀ child, last.history child ≠ store.history child ↔ Lost segment store child
  again : ∀ outcome last', Prog.Ends FaultyAnswers
    (sweepRecordedChildren env run history) last outcome last' →
    ∀ id, last'.history id = last.history id

/-- No recorded child without a history was cancelled on the parent's side before it completed or
failed there. -/
def NoneCancelledUnstarted (segment : List Event) (store : InMemoryStore) : Prop :=
  ∀ child, (∃ event ∈ segment, recordsChild child event) →
    (∃ event ∈ segment, event.body = .childWorkflowCancelled child) →
    (∀ event ∈ segment, isChildTerminalFor event child = false) → store.history child ≠ []

theorem hasParentSideTerminal_eq_false_iff :
    hasParentSideTerminal segment child = false ↔
      ∀ event ∈ segment, isChildTerminalFor event child = false := by
  simp [hasParentSideTerminal]

/-- **What the child sweep starts.** However it ends, it leaves every history as it was but those of
the children that it starts, once, as they were recorded. If it goes through, it has started exactly
the lost children, and a second sweep starts nothing, if and only if none without a history was
cancelled. -/
theorem child_sweep_exact_iff (current : currentRunSegment history run = .ok segment)
    (numbered : store.Numbered)
    (h : Prog.Ends FaultyAnswers (sweepRecordedChildren env run history) store outcome last) :
    (∀ id, last.history id = store.history id ∨ StartedAs segment store id last) ∧
      (outcome = .ok () → (SweepsLost env run history segment store last ↔
          NoneCancelledUnstarted segment store)) := by
  obtain ⟨hswept, hall⟩ := ends_sweepRecordedChildren current numbered h
  refine ⟨hswept.started, fun hok => ?_⟩
  have hagain : ∀ outcome last', Prog.Ends FaultyAnswers
    (sweepRecordedChildren env run history) last outcome last' →
      ∀ id, last'.history id = last.history id := by
    intro outcome last' h' id
    rcases (ends_sweepRecordedChildren current (hswept.numbered numbered) h').1.started id with hsame | hstrt
    · exact hsame
    · obtain ⟨event, hev, workflowType, input, version, hbody, -⟩ := hstrt.recorded
      exact absurd hstrt.empty (hall hok id ⟨event, hev, workflowType, input, version, hbody⟩ hstrt.unended)
  constructor
  · rintro ⟨hlost, -⟩ child hrecd hcanc hunended hemp
    -- the sweep has started the child, which then was lost
    have hstrt : last.history child ≠ store.history child := by
      rw [hemp]
      exact hall hok child hrecd (hasParentSideTerminal_eq_false_iff.mpr hunended)
    exact ((hlost child).mp hstrt).unended (.inr hcanc)
  · refine fun hnone => ⟨fun child => ⟨fun hchg => ?_, fun hlost => ?_⟩, hagain⟩
    · have hstrt := (hswept.started child).resolve_left hchg
      obtain ⟨event, hev, workflowType, input, version, hbody, -⟩ := hstrt.recorded
      have hrecd : ∃ event ∈ segment, recordsChild child event := ⟨event, hev, workflowType, input, version, hbody⟩
      have hunended := hasParentSideTerminal_eq_false_iff.mp hstrt.unended
      refine ⟨hrecd, hstrt.empty, ?_⟩
      rintro (⟨terminal, hterm, hends⟩ | hcanc)
      · rw [hunended terminal hterm] at hends
        cases hends
      · exact hnone child hrecd hcanc hunended hstrt.empty
    · rw [hlost.empty]
      refine hall hok child hlost.recorded (hasParentSideTerminal_eq_false_iff.mpr fun event hev => ?_)
      by_contra hends
      exact hlost.unended (.inl ⟨event, hev, by simpa using hends⟩)

/-- **The child sweep starts exactly the lost children** of a parent whose history recorders have
written. However it ends, it leaves every history as it was but those of the children that it
starts, once, as they were recorded; if it goes through, these are the lost children, and a second
sweep starts nothing. -/
theorem child_sweep_exact (written : ∀ event ∈ history, RecorderWrites event.body)
    (current : currentRunSegment history run = .ok segment) (numbered : store.Numbered)
    (h : Prog.Ends FaultyAnswers (sweepRecordedChildren env run history) store outcome last) :
    (∀ id, last.history id = store.history id ∨ StartedAs segment store id last) ∧
      (outcome = .ok () → SweepsLost env run history segment store last) := by
  obtain ⟨hstrt, hexact⟩ := child_sweep_exact_iff current numbered h
  refine ⟨hstrt, fun hok => (hexact hok).mpr ?_⟩
  rintro child - ⟨event, hev, hcanc⟩
  have hmem : event ∈ history := append_of_currentRunSegment current ▸ List.mem_append_right _ hev
  exact absurd (hcanc ▸ written event hmem) not_recorderWrites_childWorkflowCancelled

end Sweep

/-! ### A child that was cancelled before it began -/

/-- Every version is loaded, and every start goes through. -/
def sweepingEnvironment : SweepEnvironment where
  starts left := ⟨⟨8⟩, ⟨left⟩, 10, fun _ version => version.map fun version => ⟨version, none⟩, ⟨∅⟩,
      fun _ _ => .ok 0⟩
  exact := by
    rintro left workflowType version loaded ⟨⟩
    rfl
  launch _ := .ok ()

/-- A version as it is recorded. -/
def recordedVersion : PackageVersion := ⟨String.ofList (List.replicate 64 'a')⟩

/-- An order whose child was recorded when the engine went down. -/
def orphanedChild : List Event :=
  numbered [.workflowStarted "order" .empty ⟨0⟩ none ⟨"v1"⟩,
      .childWorkflowStarted ⟨7⟩ "billing" .empty recordedVersion]

/-- The sweep starts it. -/
theorem child_sweep_exact_orphanedChild :
    ∃ last, Prog.Ends FaultyAnswers (sweepRecordedChildren sweepingEnvironment ⟨0⟩ orphanedChild)
      (storeOf orphanedChild) (.ok ()) last ∧
      (last.history ⟨7⟩).map Event.body =
        [.workflowStarted "billing" .empty ⟨0⟩ none recordedVersion] ∧
      SweepsLost sweepingEnvironment ⟨0⟩ orphanedChild orphanedChild
      (storeOf orphanedChild) last := by
  have hends : Prog.Ends FaultyAnswers (sweepRecordedChildren sweepingEnvironment ⟨0⟩ orphanedChild) (storeOf orphanedChild) (.ok ())
      (storeService.run (sweepRecordedChildren sweepingEnvironment ⟨0⟩ orphanedChild) (storeOf orphanedChild)).2 :=
    ends_faultless (sweepRecordedChildren sweepingEnvironment ⟨0⟩ orphanedChild) (storeOf orphanedChild)
  have written : ∀ event ∈ orphanedChild, RecorderWrites event.body := by
    intro event hev
    simp only [orphanedChild, numbered, List.mapIdx_cons, List.mapIdx_nil, List.mem_cons, List.not_mem_nil, or_false] at hev
    rcases hev with rfl | rfl
    · exact ⟨.workflowStarted ⟨"order", .empty, ⟨0⟩, none, ⟨"v1"⟩⟩, ⟨0⟩, none, List.mem_singleton_self _⟩
    · exact ⟨.childWorkflowStarted ⟨7⟩ "billing" .empty recordedVersion, ⟨0⟩, none, List.mem_singleton_self _⟩
  exact ⟨_, hends, rfl, (child_sweep_exact written rfl (numbered_storeOf rfl) hends).2 rfl⟩

/-- The parent cancelled the child before it began. -/
def cancelledChild : List Event :=
  numbered [.workflowStarted "order" .empty ⟨0⟩ none ⟨"v1"⟩,
      .childWorkflowStarted ⟨7⟩ "billing" .empty recordedVersion,
    .childWorkflowCancelled ⟨7⟩]

/-- The sweep starts it all the same. -/
theorem cancelled_child_started :
    ∃ last, Prog.Ends FaultyAnswers (sweepRecordedChildren sweepingEnvironment ⟨0⟩ cancelledChild)
      (storeOf cancelledChild) (.ok ())
        last ∧
      (last.history ⟨7⟩).map Event.body =
        [.workflowStarted "billing" .empty ⟨1⟩ none recordedVersion] ∧
      ¬ SweepsLost sweepingEnvironment ⟨0⟩ cancelledChild cancelledChild
        (storeOf cancelledChild) last := by
  have hends : Prog.Ends FaultyAnswers
    (sweepRecordedChildren sweepingEnvironment ⟨0⟩ cancelledChild) (storeOf cancelledChild) (.ok ())
      (storeService.run (sweepRecordedChildren sweepingEnvironment ⟨0⟩ cancelledChild) (storeOf cancelledChild)).2 :=
    ends_faultless (sweepRecordedChildren sweepingEnvironment ⟨0⟩ cancelledChild) (storeOf cancelledChild)
  refine ⟨_, hends, rfl, fun h => ?_⟩
  have hchg : (storeService.run (sweepRecordedChildren sweepingEnvironment ⟨0⟩ cancelledChild)
      (storeOf cancelledChild)).2.history
      ⟨7⟩ ≠ (storeOf cancelledChild).history ⟨7⟩ := fun heq => by cases heq
  exact ((h.lost ⟨7⟩).mp hchg).unended (.inr ⟨_, .tail _ (.tail _ (.head _)), rfl⟩)

end Aion
