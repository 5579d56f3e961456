import Aion.Library.Pins
import Aion.Loader.CatalogInvariant

/-!
# Pinned starts against loads and unloads

`reload.rs` and the resolutions of `catalog.rs`. Loads, routes and unloads hold the deploy lock and
take one step at a time; resolutions take no lock and step in between. An unload swaps a group out
and then asks for pins of each member. A load that cannot be persisted swaps the group it staged out
and asks for none, so a version that was resolved in between loses its modules
(`pinned_version_loses_its_modules`). Nothing else takes them (`pinned_version_keeps_its_modules`).
-/

namespace Aion.Loader

open Packaging FiniteMaps Actions Pins

variable {Archive Writer Json : Type} {codecs : Codecs Archive Writer Json}
  {snapshot next : CatalogSnapshot}
  {beamsOf : ContentHash → BeamSet}

/-! ### The model -/

/-- How far the holder of the deploy lock is. -/
inductive Deploy where
  | idle
  /-- `load_package` staged a package and persists it. -/
  | staged (primary : Text) (version : ContentHash) (freshlyLoaded : Bool)
  /-- It is persisted; its routes are to be published. -/
  | persisted (primary : Text) (version : ContentHash)
  /-- It is not, and was loaded afresh; it is to be swapped out. -/
  | unpersisted (primary : Text) (version : ContentHash)
  /-- `verify_unload_unpinned`, of a group that was swapped out; these members are left. -/
  | verifying (removed : RemovedPackage) (members : List Text)
  /-- The unload is refused; the group is to be put back. -/
  | refused (removed : RemovedPackage)
  /-- The modules of the group are to be unregistered. -/
  | removing (removed : RemovedPackage)

/-- The group that is swapped out. -/
def Deploy.removed : Deploy → Option RemovedPackage
  | .verifying removed _ | .refused removed | .removing removed => some removed
  | .idle | .staged .. | .persisted .. | .unpersisted .. => none

/-- The catalog, the start pins with the resolutions that take them, and the holder of the deploy
lock. -/
structure EngineLoads where
  loader : LoaderState
  pinnedStarts : Table (Text × ContentHash)
  deploy : Deploy

/-- Nothing is loaded. -/
def EngineLoads.empty : EngineLoads := ⟨⟨.empty, ∅⟩, .empty, .idle⟩

/-- One step. -/
inductive LoadStep (Json : Type) where
  /-- `stage_package`. -/
  | stage (package : Package Json) (calls : LoadCalls) (loadedAt : Instant)
  /-- `persist_deployed_package`, and whether the store takes it. -/
  | persist (ok : Bool)
  | publishPackageRoutes
  /-- `swap_out_package`, of a package that was not persisted. -/
  | swapOutStaged
  /-- `route_version`. -/
  | routeVersion (workflowType : Text) (version : ContentHash)
  /-- `swap_out_package`, of a group that is to be unloaded. -/
  | swapOutPackage (workflowType : Text) (version : ContentHash)
  /-- `has_pinned_starts`, of the next member. -/
  | hasPinnedStarts
  /-- Another check refuses the unload, or the store fails to delete the package. -/
  | refuse
  /-- The package is deleted from the store. -/
  | deletePackage
  | restorePackage
  /-- `unregister_unloaded_modules`. -/
  | unregister
  /-- `resolve_routed` reads the snapshot. -/
  | resolveRouted (workflowType : Text)
  /-- `resolve_exact` reads the snapshot. -/
  | resolveExact (workflowType : Text) (version : ContentHash)
  /-- `pin`, by the resolution of this number. -/
  | pin (i : ℕ)
  /-- `pin_validated` reads the snapshot again. -/
  | recheck (i : ℕ)
  /-- The pin is dropped. -/
  | drop (i : ℕ)

/-- `routed_entry`. -/
def CatalogSnapshot.routedEntry (snapshot : CatalogSnapshot) (workflowType : Text) :
    Option CatalogEntry :=
  (snapshot.routed.lookup workflowType).bind fun version =>
    snapshot.byVersion.lookup (workflowType, version)

/-- What is pinned of an entry. -/
def CatalogEntry.key (entry : CatalogEntry) : Text × ContentHash :=
  (entry.workflow.workflowType, entry.workflow.version)

namespace EngineLoads

/-- The catalog and the group that is swapped out. -/
def catalog (s : EngineLoads) : CatalogRun := ⟨s.loader, s.deploy.removed⟩

/-- The key is in the snapshot. -/
def loaded (s : EngineLoads) (key : Text × ContentHash) : Bool :=
  (s.loader.snapshot.byVersion.lookup key).isSome

/-- The state with a snapshot. -/
def withSnapshot (s : EngineLoads) (snapshot : CatalogSnapshot) (deploy : Deploy) : EngineLoads :=
  { s with loader.snapshot := snapshot, deploy := deploy }

/-- What a step leads to. -/
def step (codecs : Codecs Archive Writer Json) (s : EngineLoads) :
    LoadStep Json → Option EngineLoads
  | .stage package calls loadedAt =>
    match s.deploy with
    | .idle =>
      match loadPackageWithMode codecs s.loader package calls false loadedAt with
      | (.error _, loader) => some { s with loader := loader }
      | (.ok outcome, loader) =>
        some { s with loader := loader, deploy := .staged package.manifest.entryModule package.contentHash outcome.freshlyLoaded }
    | _ => none
  | .persist ok =>
    match s.deploy with
    | .staged primary version freshlyLoaded =>
      some { s with deploy :=
        if ok then .persisted primary version else if freshlyLoaded then .unpersisted primary version else .idle }
    | _ => none
  | .publishPackageRoutes =>
    match s.deploy with
    | .persisted primary version =>
      match s.loader.snapshot.publishPackageRoutes primary version with
      | .error _ => some { s with deploy := .idle }
      | .ok snapshot => some (s.withSnapshot snapshot .idle)
    | _ => none
  | .swapOutStaged =>
    match s.deploy with
    | .unpersisted primary version =>
      match s.loader.snapshot.swapOutPackage primary version with
      | .error _ => some { s with deploy := .idle }
      | .ok (removed, snapshot) => some (s.withSnapshot snapshot (.removing removed))
    | _ => none
  | .routeVersion workflowType version =>
    match s.deploy with
    | .idle =>
      match s.loader.snapshot.routeVersion workflowType version with
      | .error _ => some s
      | .ok snapshot => some (s.withSnapshot snapshot .idle)
    | _ => none
  | .swapOutPackage workflowType version =>
    match s.deploy with
    | .idle =>
      match s.loader.snapshot.swapOutPackage workflowType version with
      | .error _ => some s
      | .ok (removed, snapshot) => some (s.withSnapshot snapshot (.verifying removed (removed.entries.map Prod.fst)))
    | _ => none
  | .hasPinnedStarts =>
    match s.deploy with
    | .verifying removed (member :: members) =>
      some { s with deploy :=
        if 0 < s.pinnedStarts.counts (member, removed.version) then .refused removed else .verifying removed members }
    | _ => none
  | .refuse =>
    match s.deploy with
    | .verifying removed _ => some { s with deploy := .refused removed }
    | _ => none
  | .deletePackage =>
    match s.deploy with
    | .verifying removed [] => some { s with deploy := .removing removed }
    | _ => none
  | .restorePackage =>
    match s.deploy with
    | .refused removed => some (s.withSnapshot (s.loader.snapshot.restorePackage removed) .idle)
    | _ => none
  | .unregister =>
    match s.deploy with
    | .removing removed =>
      some { s with loader.runtime := unregisterModules removed s.loader.runtime, deploy := .idle }
    | _ => none
  | .resolveRouted workflowType =>
    (s.loader.snapshot.routedEntry workflowType).map fun entry =>
      { s with pinnedStarts := s.pinnedStarts.read entry.key }
  | .resolveExact workflowType version =>
    (s.loader.snapshot.byVersion.lookup (workflowType, version)).map fun entry =>
      { s with pinnedStarts := s.pinnedStarts.read entry.key }
  | .pin i => (s.pinnedStarts.pin i).map fun pinnedStarts => { s with pinnedStarts := pinnedStarts }
  | .recheck i => (s.pinnedStarts.recheck i s.loaded).map fun pinnedStarts => { s with pinnedStarts := pinnedStarts }
  | .drop i =>
    (s.pinnedStarts.drop i).map fun pinnedStarts => { s with pinnedStarts := pinnedStarts }

end EngineLoads

/-! ### What every run keeps -/

/-- The unload under way is still going to ask for the pins of a key, or is refused. -/
def Deploy.Checks : Deploy → Text × ContentHash → Prop
  | .verifying removed members, key =>
    key.2 = removed.version ∧ key.1 ∈ removed.entries.map Prod.fst ∧ key.1 ∈ members
  | .refused removed, key => key.2 = removed.version ∧ key.1 ∈ removed.entries.map Prod.fst
  | _, _ => False

/-- A package that was loaded afresh and is not routed yet. -/
def Deploy.Stages : Deploy → Text → ContentHash → Prop
  | .staged primary version true, primary', version' => primary' = primary ∧ version' = version
  | .unpersisted primary version, primary', version' => primary' = primary ∧ version' = version
  | _, _, _ => False

/-- The types of a group. -/
def CatalogSnapshot.membersOf (snapshot : CatalogSnapshot) (primary : Text)
    (version : ContentHash) : List Text :=
  ((snapshot.packageGroups.lookup (primary, version)).map PackageGroup.workflowTypes).getD []

/-- The modules of packages are told by their hashes. -/
def NamedStep (beamsOf : ContentHash → BeamSet) (_ : EngineLoads) : LoadStep Json → Prop
  | .stage package _ _ => package.beams = beamsOf package.contentHash
  | _ => True

/-- The entries of a package that could not be persisted. -/
def EngineLoads.rolledBack (s : EngineLoads) : List (Text × ContentHash) :=
  match s.deploy with
  | .unpersisted primary version =>
    (s.loader.snapshot.membersOf primary version).map fun member => (member, version)
  | _ => []

/-- A package that could not be persisted is swapped out while none of its types is held at its
version. -/
def Unheld (s : EngineLoads) : LoadStep Json → Prop
  | .swapOutStaged => ∀ key ∈ s.rolledBack, ¬ s.pinnedStarts.Held key
  | _ => True

/-- Both. -/
def Guarded (beamsOf : ContentHash → BeamSet) (s : EngineLoads) (action : LoadStep Json) : Prop :=
  NamedStep beamsOf s action ∧ Unheld s action

/-- What is held is loaded, or the unload under way will find its pin. -/
structure Safe (beamsOf : ContentHash → BeamSet) (s : EngineLoads) : Prop where
  kept : Kept False beamsOf s.catalog
  counted : s.pinnedStarts.Counted
  held : ∀ key, s.pinnedStarts.Held key → s.loaded key = true ∨ s.deploy.Checks key
  staged : ∀ primary version, s.deploy.Stages primary version →
    (s.loader.snapshot.packageGroups.lookup (primary, version)).isSome

theorem safe_empty : Safe beamsOf .empty where
  kept := kept_empty
  counted := Table.counted_empty
  held _ h := by cases h
  staged _ _ h := h.elim

/-- The modules of what is loaded are registered. -/
theorem Consistent.registered (h : Consistent beamsOf snapshot) {key : Text × ContentHash}
    (hkey : (snapshot.byVersion.lookup key).isSome) {name : ModuleName}
    (hname : name ∈ deployedNames (beamsOf key.2) key.2) :
    snapshot.registeredModules.lookup name = some key.2 := by
  obtain ⟨primary, hgrp, -⟩ := h.grouped key.1 key.2 hkey
  exact (h.modules name key.2).mpr ⟨⟨primary, hgrp.isSome⟩, hname⟩

variable {group : PackageGroup} {workflowType : Text} {hash : ContentHash}

theorem SwappedOut.isSome_of_removed {removed : RemovedPackage}
    (h : SwappedOut snapshot workflowType hash removed next group) {key : Text × ContentHash}
    (hver : key.2 = removed.version) (htype : key.1 ∈ removed.entries.map Prod.fst) :
    (snapshot.byVersion.lookup key).isSome := by
  obtain ⟨entry, hent, hfst⟩ := List.mem_map.mp htype
  have hlook := h.entries entry hent
  rw [hfst, ← h.version, ← hver] at hlook
  exact hlook ▸ rfl

theorem Deploy.Checks.removed {deploy : Deploy} {key : Text × ContentHash} (h : deploy.Checks key) :
    ∃ removed, deploy.removed = some removed ∧ key.2 = removed.version ∧
      key.1 ∈ removed.entries.map Prod.fst := by
  cases deploy with
  | verifying removed members => exact ⟨removed, rfl, h.1, h.2.1⟩
  | refused removed => exact ⟨removed, rfl, h.1, h.2⟩
  | idle | staged | persisted | unpersisted | removing => exact h.elim

/-- The modules of what is held are there. -/
theorem Safe.modules {s : EngineLoads} (h : Safe beamsOf s) {key : Text × ContentHash}
    (hheld : s.pinnedStarts.Held key) {name : ModuleName}
    (hname : name ∈ deployedNames (beamsOf key.2) key.2) : name ∈ s.loader.runtime := by
  cases hrem : s.deploy.removed with
  | none =>
    have hkey : (s.loader.snapshot.byVersion.lookup key).isSome := by
      refine (h.held key hheld).resolve_right fun hchecks => ?_
      obtain ⟨removed, hsome, -⟩ := hchecks.removed
      cases hrem.symm.trans hsome
    refine (h.kept.unlocked hrem).registered name ?_
    exact h.kept.consistent.registered hkey hname ▸ rfl
  | some removed =>
    obtain ⟨snapshot, workflowType, hash, group, hcons, hholds, hout⟩ := h.kept.locked removed hrem
    have hkey : (snapshot.byVersion.lookup key).isSome := by
      rcases h.held key hheld with hloaded | hchecks
      · exact hout.isSome_of_next hloaded
      · obtain ⟨other, hother, hver, htype⟩ := hchecks.removed
        obtain rfl := Option.some.inj (hother.symm.trans hrem)
        exact hout.isSome_of_removed hver htype
    refine hholds.registered name ?_
    exact hcons.registered hkey hname ▸ rfl

section Steps

variable {s s' : EngineLoads}

/-- Resolutions step: what they are given is loaded. -/
theorem Safe.resolve (h : Safe beamsOf s) {table : Table (Text × ContentHash)}
    (hcounted : table.Counted)
    (hheld : ∀ key, table.Held key → s.pinnedStarts.Held key ∨ s.loaded key = true) :
    Safe beamsOf { s with pinnedStarts := table } :=
  ⟨h.kept, hcounted, fun key hkey => (hheld key hkey).elim (h.held key) .inl, h.staged⟩

/-- While no group is swapped out, what is held is loaded. -/
theorem Safe.loaded (h : Safe beamsOf s) (hnone : s.deploy.removed = none)
    {key : Text × ContentHash} (hheld : s.pinnedStarts.Held key) : s.loaded key = true := by
  refine (h.held key hheld).resolve_right fun hchecks => ?_
  obtain ⟨removed, hsome, -⟩ := hchecks.removed
  cases hnone.symm.trans hsome

/-- The holder of the deploy lock goes on, and the catalog stays. -/
theorem Safe.goOn (h : Safe beamsOf s) {deploy : Deploy} (hrem : deploy.removed = s.deploy.removed)
    (hchecks : ∀ key, s.pinnedStarts.Held key → s.deploy.Checks key → deploy.Checks key)
    (hstages : ∀ primary version, deploy.Stages primary version → s.deploy.Stages primary version) :
    Safe beamsOf { s with deploy := deploy } where
  kept := by
    change Kept False beamsOf ⟨s.loader, deploy.removed⟩
    rw [hrem]
    exact h.kept
  counted := h.counted
  held key hheld := (h.held key hheld).imp_right (hchecks key hheld)
  staged primary version hstg := h.staged primary version (hstages primary version hstg)

/-- Nothing is swapped out, and the holder installs a snapshot of the same modules and gives the
lock up. -/
theorem Safe.install (h : Safe beamsOf s) (hnone : s.deploy.removed = none)
    (hcons : Consistent beamsOf next)
    (hmods : next.registeredModules = s.loader.snapshot.registeredModules)
    (hloaded : next.byVersion = s.loader.snapshot.byVersion) :
    Safe beamsOf (s.withSnapshot next .idle) where
  kept := by
    refine ⟨hcons, fun _ => ?_, fun removed hrem => by cases hrem⟩
    exact (h.kept.unlocked hnone).of_eq fun name => congrArg (AList.lookup name) hmods
  counted := h.counted
  held key hheld := by
    have hkey := h.loaded hnone hheld
    unfold EngineLoads.loaded at hkey
    rw [← hloaded] at hkey
    exact .inl hkey
  staged _ _ hstg := hstg.elim

/-- A group is swapped out, and nobody holds what is not checked after it. -/
theorem Safe.swapOut (h : Safe beamsOf s) (hnone : s.deploy.removed = none)
    {removed : RemovedPackage}
    (hout : SwappedOut s.loader.snapshot workflowType hash removed next group) {deploy : Deploy}
    (hrem : deploy.removed = some removed)
    (hchecks : ∀ member ∈ group.workflowTypes, s.pinnedStarts.Held (member, hash) →
        deploy.Checks (member, hash))
    (hstages : ∀ primary version, ¬ deploy.Stages primary version) :
    Safe beamsOf (s.withSnapshot next deploy) where
  kept := by
    change Kept False beamsOf ⟨{ s.loader with snapshot := next }, deploy.removed⟩
    rw [hrem]
    exact h.kept.swapOut hnone hout
  counted := h.counted
  held key hheld := by
    by_cases hkey : key.2 = hash ∧ key.1 ∈ group.workflowTypes
    · obtain ⟨rfl, hmem⟩ := hkey
      exact .inr (hchecks key.1 hmem hheld)
    · refine .inl ?_
      have hlook : next.byVersion.lookup key = s.loader.snapshot.byVersion.lookup key :=
        (hout.byVersion key).trans (if_neg hkey)
      have hloaded := h.loaded hnone hheld
      unfold EngineLoads.loaded at hloaded
      rw [← hlook] at hloaded
      exact hloaded
  staged primary version hstg := (hstages primary version hstg).elim

/-- A package is staged. -/
theorem Safe.stage (h : Safe beamsOf s) (hnone : s.deploy.removed = none) {package : Package Json} {calls : LoadCalls}
    {loadedAt : Instant} (hbeams : package.beams = beamsOf package.contentHash) {result : Except LoaderError LoadOutcome} {loader : LoaderState}
    (hload : loadPackageWithMode codecs s.loader package calls false loadedAt = (result, loader)) :
    ((∃ error, result = .error error) ∧ Safe beamsOf { s with loader := loader }) ∨
      ∃ outcome, result = .ok outcome ∧ Safe beamsOf { s with
        loader := loader
        deploy := .staged package.manifest.entryModule package.contentHash outcome.freshlyLoaded } := by
  have hkept : Kept False beamsOf ⟨loader, s.deploy.removed⟩ := by
    have hans : answer codecs s.catalog (.load package calls false loadedAt) =
        some (result.map fun _ => (), ⟨loader, s.deploy.removed⟩) := by
      simp only [answer, EngineLoads.catalog, hload]
    exact (h.kept.load hnone hbeams False.elim hans).1
  rcases loadPackageWithMode_cases hload with ⟨herr, hunloaded⟩ | ⟨outcome, staged, rfl, -,
    hof, hcases⟩
  · refine .inl ⟨herr, hkept, h.counted, fun key hheld => ?_, fun primary version hstg => ?_⟩
    · unfold EngineLoads.loaded
      rw [hunloaded.snapshot]
      exact h.held key hheld
    · rw [hunloaded.snapshot]
      exact h.staged primary version hstg
  · rw [hnone] at hkept
    refine .inr ⟨outcome, rfl, hkept, h.counted, fun key hheld => .inl ?_, fun primary version hstg => ?_⟩
    · have hloaded := h.loaded hnone hheld
      rcases hcases with ⟨-, ⟨-, -, hsnap | ⟨htrue, -⟩⟩⟩ | ⟨-, hfresh⟩
      · exact (congrArg (fun snapshot => (snapshot.byVersion.lookup key).isSome) hsnap).trans hloaded
      · cases htrue
      · refine (congrArg (fun snapshot => (snapshot.byVersion.lookup key).isSome) hfresh.snapshot).trans ?_
        exact isSome_byVersion_withPackage.mpr (.inr hloaded)
    · rcases hcases with ⟨hold, -⟩ | ⟨hnew, hfresh⟩
      · rw [hold] at hstg
        exact hstg.elim
      · rw [hnew] at hstg
        obtain ⟨rfl, rfl⟩ := hstg
        change (loader.snapshot.packageGroups.lookup _).isSome
        rw [hfresh.snapshot, packageGroups_withPackage, if_pos (by rw [hof.version])]
        rfl

/-- The member of an unload whose pin is counted refuses it. -/
theorem Safe.hasPinnedStarts (h : Safe beamsOf s) {removed : RemovedPackage} {member : Text} {members : List Text}
    (hdep : s.deploy = .verifying removed (member :: members)) :
    Safe beamsOf { s with deploy :=
      if 0 < s.pinnedStarts.counts (member, removed.version) then .refused removed else .verifying removed members } := by
  split
  · refine h.goOn (by rw [hdep]; rfl) (fun key _ hchecks => ?_) fun _ _ hstg => hstg.elim
    rw [hdep] at hchecks
    exact ⟨hchecks.1, hchecks.2.1⟩
  · rename_i hpins
    refine h.goOn (by rw [hdep]; rfl) (fun key hheld hchecks => ?_) fun _ _ hstg => hstg.elim
    rw [hdep] at hchecks
    obtain ⟨hver, htype, hmem⟩ := hchecks
    refine ⟨hver, htype, (List.mem_cons.mp hmem).resolve_left ?_⟩
    rintro rfl
    exact hpins (hver ▸ h.counted.pos_of_held hheld)

/-- A holder that has swapped nothing out gives the lock up. -/
theorem Safe.giveUp (h : Safe beamsOf s) (hnone : s.deploy.removed = none) :
    Safe beamsOf { s with deploy := .idle } := by
  refine h.goOn (by rw [hnone]; rfl) (fun key _ hchecks => ?_) fun _ _ hstg => hstg.elim
  obtain ⟨removed, hsome, -⟩ := hchecks.removed
  cases hnone.symm.trans hsome

variable {version : ContentHash} {primary : Text}

/-- The store takes the staged package, or not. -/
theorem Safe.persist (h : Safe beamsOf s) {freshlyLoaded : Bool}
    (hdep : s.deploy = .staged primary version freshlyLoaded) (ok : Bool) :
    Safe beamsOf { s with deploy :=
      if ok then .persisted primary version else if freshlyLoaded then .unpersisted primary version else .idle } := by
  have hnone : s.deploy.removed = none := by rw [hdep]; rfl
  have hgone : ∀ key, ¬ s.deploy.Checks key := by
    rw [hdep]
    exact fun _ hchecks => hchecks
  cases ok <;> cases freshlyLoaded
  all_goals refine h.goOn (by rw [hnone]; rfl) (fun key _ hchecks => (hgone key hchecks).elim) fun _ _ hstg => ?_
  · exact hstg.elim
  · rw [hdep]
    exact hstg
  · exact hstg.elim
  · exact hstg.elim

/-- The group of the primary type is the one that was staged. -/
theorem Safe.membersOf_eq (h : Safe beamsOf s) {removed : RemovedPackage}
    (hstaged : (s.loader.snapshot.packageGroups.lookup (primary, version)).isSome)
    (hout : SwappedOut s.loader.snapshot primary version removed next group) :
    s.loader.snapshot.membersOf primary version = group.workflowTypes := by
  obtain ⟨own, hown⟩ := Option.isSome_iff_exists.mp hstaged
  have hprim := (h.kept.consistent.primary primary version own hown).2
  have hunique :=
    h.kept.consistent.grouped primary version
      (h.kept.consistent.loaded primary primary version ⟨own, hown, hprim⟩)
  have hsame := hunique.unique ⟨own, hown, hprim⟩ ⟨group, hout.lookup h.kept.consistent, hout.mem⟩
  rw [CatalogSnapshot.membersOf, hsame, hout.lookup h.kept.consistent]
  rfl

/-- A package that was not persisted is swapped out while none of its types is held. -/
theorem Safe.swapOutStaged (h : Safe beamsOf s) {removed : RemovedPackage}
    (hdep : s.deploy = .unpersisted primary version)
    (hunheld : ∀ key ∈ s.rolledBack, ¬ s.pinnedStarts.Held key)
    (hswap : s.loader.snapshot.swapOutPackage primary version = .ok (removed, next)) :
    Safe beamsOf (s.withSnapshot next (.removing removed)) := by
  obtain ⟨group, hout⟩ := swapOutPackage_eq_ok hswap
  refine h.swapOut (by rw [hdep]; rfl) hout rfl (fun member hmb hheld => ?_) fun _ _ hstg =>
    hstg.elim
  have hstaged := h.staged primary version (by rw [hdep]; exact ⟨rfl, rfl⟩)
  refine (hunheld (member, version) ?_ hheld).elim
  rw [EngineLoads.rolledBack, hdep]
  exact List.mem_map.mpr ⟨member, h.membersOf_eq hstaged hout ▸ hmb, rfl⟩

/-- A refused unload puts the group back. -/
theorem Safe.restorePackage (h : Safe beamsOf s) {removed : RemovedPackage}
    (hdep : s.deploy = .refused removed) :
    Safe beamsOf (s.withSnapshot (s.loader.snapshot.restorePackage removed) .idle) := by
  have hsome : s.deploy.removed = some removed := by rw [hdep]; rfl
  obtain ⟨snapshot, workflowType, hash, group, hcons, -, hout⟩ := h.kept.locked removed hsome
  have hsame := hout.same hcons
  refine ⟨h.kept.restorePackage hsome, h.counted, fun key hheld =>
      .inl ?_, fun _ _ hstg => hstg.elim⟩
  have hkey : (snapshot.byVersion.lookup key).isSome := by
    rcases h.held key hheld with hloaded | hchecks
    · exact hout.isSome_of_next hloaded
    · rw [hdep] at hchecks
      exact hout.isSome_of_removed hchecks.1 hchecks.2
  exact (congrArg Option.isSome (hsame.byVersion key)).trans hkey

/-- The modules of what was swapped out are unregistered. -/
theorem Safe.unregister (h : Safe beamsOf s) {removed : RemovedPackage} (hdep : s.deploy = .removing removed) :
    Safe beamsOf { s with loader.runtime := unregisterModules removed s.loader.runtime, deploy := .idle } := by
  have hsome : s.deploy.removed = some removed := by rw [hdep]; rfl
  refine ⟨h.kept.unregister hsome, h.counted, fun key hheld => .inl ?_, fun _ _ hstg => hstg.elim⟩
  refine (h.held key hheld).resolve_right fun hchecks => ?_
  rw [hdep] at hchecks
  exact hchecks

/-- **What a step keeps.** -/
theorem Safe.step (h : Safe beamsOf s) {action : LoadStep Json} (hmay : Guarded beamsOf s action)
    (hstep : s.step codecs action = some s') : Safe beamsOf s' := by
  cases action with
  | stage package calls loadedAt =>
    simp only [EngineLoads.step] at hstep
    split at hstep
    · rename_i hdep
      have hnone : s.deploy.removed = none := by rw [hdep]; rfl
      split at hstep
      · rename_i error loader hload
        rcases h.stage hnone hmay.1 hload with ⟨-, hsafe⟩ | ⟨outcome, hok, -⟩
        · cases hstep
          exact hsafe
        · cases hok
      · rename_i outcome loader hload
        rcases h.stage hnone hmay.1 hload with ⟨⟨error, herr⟩, -⟩ | ⟨outcome, hok, hsafe⟩
        · cases herr
        · cases hok
          cases hstep
          exact hsafe
    · cases hstep
  | persist ok =>
    simp only [EngineLoads.step] at hstep
    split at hstep
    · rename_i primary version freshlyLoaded hdep
      cases hstep
      exact h.persist hdep ok
    · cases hstep
  | publishPackageRoutes =>
    simp only [EngineLoads.step] at hstep
    split at hstep
    · rename_i primary version hdep
      have hnone : s.deploy.removed = none := by rw [hdep]; rfl
      split at hstep
      · cases hstep
        exact h.giveUp hnone
      · rename_i next hpub
        cases hstep
        obtain ⟨group, -, hloaded, rfl⟩ := publishPackageRoutes_eq_ok hpub
        exact h.install hnone (h.kept.consistent.withRoutes hloaded) rfl rfl
    · cases hstep
  | swapOutStaged =>
    simp only [EngineLoads.step] at hstep
    split at hstep
    · rename_i primary version hdep
      have hnone : s.deploy.removed = none := by rw [hdep]; rfl
      split at hstep
      · cases hstep
        exact h.giveUp hnone
      · rename_i removed next hswap
        cases hstep
        exact h.swapOutStaged hdep hmay.2 hswap
    · cases hstep
  | routeVersion workflowType version =>
    simp only [EngineLoads.step] at hstep
    split at hstep
    · rename_i hdep
      have hnone : s.deploy.removed = none := by rw [hdep]; rfl
      split at hstep
      · cases hstep
        exact h
      · rename_i next hroute
        cases hstep
        obtain ⟨hloaded, ⟨-, rfl⟩ | rfl⟩ := routeVersion_eq_ok hroute
        · exact h.install hnone h.kept.consistent rfl rfl
        · exact h.install hnone (h.kept.consistent.route hloaded) rfl rfl
    · cases hstep
  | swapOutPackage workflowType version =>
    simp only [EngineLoads.step] at hstep
    split at hstep
    · rename_i hdep
      have hnone : s.deploy.removed = none := by rw [hdep]; rfl
      split at hstep
      · cases hstep
        exact h
      · rename_i removed next hswap
        cases hstep
        obtain ⟨group, hout⟩ := swapOutPackage_eq_ok hswap
        refine h.swapOut hnone hout rfl (fun member hmb _ => ?_) fun _ _ hstg => hstg.elim
        rw [← hout.types] at hmb
        exact ⟨hout.version.symm, hmb, hmb⟩
    · cases hstep
  | hasPinnedStarts =>
    simp only [EngineLoads.step] at hstep
    split at hstep
    · rename_i removed member members hdep
      cases hstep
      exact h.hasPinnedStarts hdep
    · cases hstep
  | refuse =>
    simp only [EngineLoads.step] at hstep
    split at hstep
    · rename_i removed members hdep
      cases hstep
      refine h.goOn (by rw [hdep]; rfl) (fun key _ hchecks => ?_) fun _ _ hstg => hstg.elim
      rw [hdep] at hchecks
      exact ⟨hchecks.1, hchecks.2.1⟩
    · cases hstep
  | deletePackage =>
    simp only [EngineLoads.step] at hstep
    split at hstep
    · rename_i removed hdep
      cases hstep
      refine h.goOn (by rw [hdep]; rfl) (fun key _ hchecks => ?_) fun _ _ hstg => hstg.elim
      -- No member is left.
      rw [hdep] at hchecks
      cases hchecks.2.2
    · cases hstep
  | restorePackage =>
    simp only [EngineLoads.step] at hstep
    split at hstep
    · rename_i removed hdep
      cases hstep
      exact h.restorePackage hdep
    · cases hstep
  | unregister =>
    simp only [EngineLoads.step] at hstep
    split at hstep
    · rename_i removed hdep
      cases hstep
      exact h.unregister hdep
    · cases hstep
  | resolveRouted workflowType =>
    obtain ⟨entry, -, rfl⟩ := Option.map_eq_some_iff.mp hstep
    exact h.resolve (h.counted.read entry.key) fun key hheld => .inl (Table.held_of_read hheld)
  | resolveExact workflowType version =>
    obtain ⟨entry, -, rfl⟩ := Option.map_eq_some_iff.mp hstep
    exact h.resolve (h.counted.read entry.key) fun key hheld => .inl (Table.held_of_read hheld)
  | pin i =>
    obtain ⟨table, hpin, rfl⟩ := Option.map_eq_some_iff.mp hstep
    exact h.resolve (h.counted.pin hpin) fun key hheld => .inl (Table.held_of_pin hpin hheld)
  | recheck i =>
    obtain ⟨table, hrecheck, rfl⟩ := Option.map_eq_some_iff.mp hstep
    exact h.resolve (h.counted.recheck hrecheck) fun key hheld => Table.held_of_recheck hrecheck hheld
  | drop i =>
    obtain ⟨table, hdrop, rfl⟩ := Option.map_eq_some_iff.mp hstep
    exact h.resolve (h.counted.drop hdrop) fun key hheld => .inl (Table.held_of_drop hdrop hheld)

theorem Safe.of_reachable (h : Reachable (EngineLoads.step codecs) (Guarded beamsOf) .empty s) :
    Safe beamsOf s :=
  h.invariant (fun hs hmay hstep => hs.step hmay hstep) safe_empty

end Steps

/-- **A pinned version keeps its modules**, in every run in which a package that could not be
persisted is swapped out only while none of its types is held at its version. -/
theorem pinned_version_keeps_its_modules {s : EngineLoads}
    (h : Reachable (EngineLoads.step codecs) (Guarded beamsOf) .empty s) {key : Text × ContentHash}
    (hheld : s.pinnedStarts.Held key) :
    ∀ name ∈ deployedNames (beamsOf key.2) key.2, name ∈ s.loader.runtime :=
  fun _ hname => (Safe.of_reachable h).modules hheld hname

instance (beamsOf : ContentHash → BeamSet) (s : EngineLoads) [DecidableEq Json]
    (action : LoadStep Json) : Decidable (NamedStep beamsOf s action) :=
  match action with
  | .stage .. => inferInstanceAs (Decidable (_ = _))
  | .persist .. | .publishPackageRoutes | .swapOutStaged | .routeVersion .. | .swapOutPackage .. | .hasPinnedStarts | .refuse
  | .deletePackage | .restorePackage | .unregister | .resolveRouted .. | .resolveExact .. | .pin .. | .recheck .. | .drop .. =>
    .isTrue trivial

instance (s : EngineLoads) (action : LoadStep Json) : Decidable (Unheld s action) :=
  match action with
  | .swapOutStaged => inferInstanceAs (Decidable (∀ key ∈ s.rolledBack, ¬ s.pinnedStarts.Held key))
  | .persist .. | .publishPackageRoutes | .stage .. | .routeVersion .. | .swapOutPackage .. | .hasPinnedStarts | .refuse
  | .deletePackage | .restorePackage | .unregister | .resolveRouted .. | .resolveExact .. | .pin .. | .recheck .. | .drop .. =>
    .isTrue trivial

instance (beamsOf : ContentHash → BeamSet) (s : EngineLoads) [DecidableEq Json]
    (action : LoadStep Json) : Decidable (Guarded beamsOf s action) :=
  inferInstanceAs (Decidable (_ ∧ _))

/-- A package is staged, and its first workflow resolved before it is persisted. -/
def resolvedEarly : List (LoadStep Bool) :=
  [.stage firstPair .succeed 0, .resolveExact firstName pairVersion, .pin 0, .recheck 0]

/-- Its own modules stay when another package is not persisted. -/
theorem pinned_version_keeps_its_modules_early :
    ∃ s, run (EngineLoads.step pairCodecs) (Guarded pairBeamsOf) .empty
      (resolvedEarly ++ [.persist true, .publishPackageRoutes, .stage laterPair .succeed 0,
          .persist false, .swapOutStaged,
        .unregister]) = some s ∧
    s.pinnedStarts.Held (.lit "a", pairVersion) ∧
    ∀ name ∈ deployedNames (pairBeamsOf pairVersion) pairVersion, name ∈ s.loader.runtime := by
  have hrun : ∃ s, run (EngineLoads.step pairCodecs) (Guarded pairBeamsOf) .empty
        (resolvedEarly ++ [.persist true, .publishPackageRoutes, .stage laterPair .succeed 0, .persist false, .swapOutStaged,
          .unregister]) = some s ∧
      decide (s.pinnedStarts.Held (.lit "a", pairVersion)) = true :=
    (Option.any_eq_true _ _).mp (by decide +kernel)
  obtain ⟨s, hs, hheld⟩ := hrun
  exact ⟨s, hs, of_decide_eq_true hheld, pinned_version_keeps_its_modules (reachable_of_run hs) (of_decide_eq_true hheld)⟩

/-- The package is not persisted, and is swapped out in spite of the pin: its modules are gone. -/
theorem pinned_version_loses_its_modules :
    ∃ s, run (EngineLoads.step pairCodecs) (NamedStep pairBeamsOf) .empty
      (resolvedEarly ++ [.persist false, .swapOutStaged, .unregister]) = some s ∧
    s.pinnedStarts.Held (.lit "a", pairVersion) ∧
    ∃ name ∈ deployedNames (pairBeamsOf pairVersion) pairVersion, name ∉ s.loader.runtime := by
  have hrun : ∃ s, run (EngineLoads.step pairCodecs) (NamedStep pairBeamsOf) .empty
        (resolvedEarly ++ [.persist false, .swapOutStaged, .unregister]) = some s ∧
      (decide (s.pinnedStarts.Held (.lit "a", pairVersion)) &&
        (deployedNames (pairBeamsOf pairVersion) pairVersion).any fun name => name ∉ s.loader.runtime) = true :=
    (Option.any_eq_true _ _).mp (by decide +kernel)
  obtain ⟨s, hs, hcheck⟩ := hrun
  obtain ⟨hheld, hgone⟩ := Bool.and_eq_true_iff.mp hcheck
  obtain ⟨name, hname, hnot⟩ := List.any_eq_true.mp hgone
  exact ⟨s, hs, of_decide_eq_true hheld, name, hname, of_decide_eq_true hnot⟩

end Aion.Loader
