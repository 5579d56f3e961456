import Aion.Library.Actions
import Aion.Loader.Loads

/-!
# Every catalog is consistent

Callers of the catalog load and stage packages, publish and move routes, and swap groups out. They
hold the mutation lock from a swap-out until the group is put back or its modules are unregistered.
What is routed is then loaded, what is loaded belongs to one group of its hash, and the modules of
the hashes that groups have are registered (`catalog_kept`).
-/

namespace Aion.Loader

open Packaging FiniteMaps Actions

variable {Archive Writer Json : Type} {codecs : Codecs Archive Writer Json} {package : Package Json}
  {staged : StagedLoad}
  {snapshot next : CatalogSnapshot} {calls : LoadCalls} {runtime : Finset ModuleName}
    {beamsOf : ContentHash → BeamSet}

/-! ### Consistent snapshots -/

/-- The four maps of a catalog fit. -/
structure Sound (beamsOf : ContentHash → BeamSet) (snapshot : CatalogSnapshot) : Prop where
  routed : ∀ workflowType hash, snapshot.routed.lookup workflowType = some hash →
    (snapshot.byVersion.lookup (workflowType, hash)).isSome
  grouped : ∀ workflowType hash, (snapshot.byVersion.lookup (workflowType, hash)).isSome →
    ∃! primary, InGroup snapshot workflowType primary hash
  loaded : ∀ workflowType primary hash, InGroup snapshot workflowType primary hash →
    (snapshot.byVersion.lookup (workflowType, hash)).isSome
  modules : ∀ name hash, snapshot.registeredModules.lookup name = some hash ↔
    (∃ primary, (snapshot.packageGroups.lookup (primary, hash)).isSome) ∧
      name ∈ deployedNames (beamsOf hash) hash

/-- The maps fit, and a group is found under its primary type, which is a member. -/
structure Consistent (beamsOf : ContentHash → BeamSet) (snapshot : CatalogSnapshot) :
    Prop extends Sound beamsOf snapshot where
  primary : ∀ primary hash group, snapshot.packageGroups.lookup (primary, hash) = some group →
    group.primaryWorkflowType = primary ∧ primary ∈ group.workflowTypes

/-- They look up the same. -/
structure CatalogSnapshot.Same (snapshot next : CatalogSnapshot) : Prop where
  byVersion : SameLookups snapshot.byVersion next.byVersion
  routed : SameLookups snapshot.routed next.routed
  registeredModules : SameLookups snapshot.registeredModules next.registeredModules
  packageGroups : SameLookups snapshot.packageGroups next.packageGroups

variable {version : ContentHash} {primary : Text} {publishRoutes : Bool} {loadedAt : Instant}
  {key : Text × ContentHash} {name : ModuleName}

theorem CatalogSnapshot.Same.inGroup_iff (h : snapshot.Same next) {workflowType : Text}
    {hash : ContentHash} :
    InGroup snapshot workflowType primary hash ↔ InGroup next workflowType primary hash := by
  simp only [InGroup, h.packageGroups (primary, hash)]

theorem Consistent.of_same (h : Consistent beamsOf next) (hsame : snapshot.Same next) :
    Consistent beamsOf snapshot where
  routed workflowType hash hroute := by
    rw [hsame.byVersion]
    exact h.routed workflowType hash (hsame.routed workflowType ▸ hroute)
  grouped workflowType hash hloaded := by
    rw [hsame.byVersion] at hloaded
    simpa only [hsame.inGroup_iff] using h.grouped workflowType hash hloaded
  loaded workflowType primary hash hgrp := by
    rw [hsame.byVersion]
    exact h.loaded workflowType primary hash (hsame.inGroup_iff.mp hgrp)
  modules name hash := by
    simpa only [hsame.registeredModules name,
      hsame.packageGroups (_, hash)] using h.modules name hash
  primary primary hash group hgrp := h.primary primary hash group (hsame.packageGroups _ ▸ hgrp)

theorem Stocks.of_eq {exact : Prop} (h : Stocks exact runtime snapshot)
    (hmods : ∀ name, next.registeredModules.lookup name = snapshot.registeredModules.lookup name) :
    Stocks exact runtime next := by
  refine ⟨fun name hname => h.registered name (hmods name ▸ hname), fun hexact name => ?_⟩
  rw [hmods]
  exact h.only hexact name

theorem consistent_empty : Consistent beamsOf .empty where
  routed _ _ h := by cases h
  grouped _ _ h := by cases h
  loaded _ _ _ h := by
    obtain ⟨group, hgrp, -⟩ := h
    cases hgrp
  modules name hash := by
    simp [CatalogSnapshot.empty]
  primary _ _ _ h := by cases h

theorem stocks_empty {exact : Prop} : Stocks exact ∅ .empty :=
  ⟨by simp [CatalogSnapshot.empty], fun _ => by simp [Holds, CatalogSnapshot.empty]⟩

/-! ### Loads and routes -/

theorem InGroup.isSome {workflowType : Text} {hash : ContentHash}
    (h : InGroup snapshot workflowType primary hash) :
    (snapshot.packageGroups.lookup (primary, hash)).isSome := by
  obtain ⟨group, hgrp, -⟩ := h
  simp [hgrp]

/-- Routes may go to what is loaded. -/
theorem Consistent.withRouted (h : Consistent beamsOf snapshot) {routed : Map Text ContentHash}
    (hroute : ∀ workflowType hash, routed.lookup workflowType = some hash →
        snapshot.routed.lookup workflowType = some hash ∨
      (snapshot.byVersion.lookup (workflowType, hash)).isSome) :
    Consistent beamsOf { snapshot with routed := routed } where
  routed workflowType hash hlook := (hroute workflowType hash hlook).elim
    (h.routed workflowType hash) id
  grouped := h.grouped
  loaded := h.loaded
  modules := h.modules
  primary := h.primary

theorem Consistent.withRoutes (h : Consistent beamsOf snapshot) {types : List Text}
    (htypes : ∀ workflowType ∈ types, (snapshot.byVersion.lookup (workflowType, version)).isSome) :
    Consistent beamsOf (snapshot.withRoutes types version) := by
  refine h.withRouted fun workflowType hash hlook => ?_
  rcases lookup_insertAll_const_iff.mp hlook with ⟨hmem, rfl⟩ | ⟨-, hlook⟩
  · rw [List.map_id'] at hmem
    exact .inr (htypes workflowType hmem)
  · exact .inl hlook

theorem Consistent.route (h : Consistent beamsOf snapshot) {workflowType : Text}
    {version : ContentHash} (hloaded : (snapshot.byVersion.lookup (workflowType, version)).isSome) :
    Consistent beamsOf { snapshot with routed := snapshot.routed.insert workflowType version } := by
  refine h.withRouted fun other hash hroute => ?_
  rw [lookup_insert_eq] at hroute
  split at hroute
  · rename_i hother
    obtain rfl := Option.some.inj hroute
    exact .inr (hother ▸ hloaded)
  · exact .inl hroute

/-- What is loaded once a package was added. -/
theorem isSome_byVersion_withPackage {workflowType : Text} {hash : ContentHash} :
    ((snapshot.withPackage staged primary publishRoutes loadedAt).byVersion.lookup
        (workflowType, hash)).isSome ↔
      workflowType ∈ staged.workflows.map StagedWorkflow.workflowType ∧ hash = staged.version ∨
        (snapshot.byVersion.lookup (workflowType, hash)).isSome := by
  refine isSome_lookup_insertAll.trans (or_congr_left ?_)
  rw [← staged.map_records]
  constructor
  · intro hmem
    obtain ⟨record, hrec, heq⟩ := List.mem_map.mp hmem
    obtain ⟨rfl, rfl⟩ := Prod.mk.inj heq
    exact ⟨List.mem_map_of_mem hrec, rfl⟩
  · rintro ⟨hmem, rfl⟩
    obtain ⟨record, hrec, rfl⟩ := List.mem_map.mp hmem
    exact List.mem_map.mpr ⟨record, hrec, rfl⟩

/-- The groups once a package was added. -/
theorem packageGroups_withPackage :
    (snapshot.withPackage staged primary publishRoutes loadedAt).packageGroups.lookup key =
      if key = (primary, staged.version) then
        some ⟨primary, staged.workflows.map StagedWorkflow.workflowType⟩
      else snapshot.packageGroups.lookup key := by
  rw [← staged.map_records]
  exact lookup_insert_eq _ _

/-- A package without loaded types is added. -/
theorem Consistent.withPackage (h : Consistent beamsOf snapshot) (hof : staged.Of package)
    (hfresh : Fresh snapshot staged) (hbeams : package.beams = beamsOf package.contentHash) :
    Consistent beamsOf (snapshot.withPackage staged package.manifest.entryModule
        publishRoutes loadedAt) := by
  have hprim : package.manifest.entryModule ∈ staged.workflows.map StagedWorkflow.workflowType :=
    hof.types ▸ entryModule_mem_declaredTypes package
  have hnone : snapshot.packageGroups.lookup (package.manifest.entryModule, staged.version) = none := by
    by_contra hsome
    obtain ⟨group, hgrp⟩ := Option.ne_none_iff_exists'.mp hsome
    have hloaded := h.loaded _ _ _ ⟨group, hgrp, (h.primary _ _ _ hgrp).2⟩
    simp [hfresh.absent _ hprim] at hloaded
  have hgroups : ∀ {workflowType primary hash},
      InGroup (snapshot.withPackage staged package.manifest.entryModule publishRoutes loadedAt) workflowType primary hash ↔
        (primary = package.manifest.entryModule ∧ hash = staged.version ∧
          workflowType ∈ staged.workflows.map StagedWorkflow.workflowType) ∨ InGroup snapshot workflowType primary hash := by
    intro workflowType primary hash
    simp only [InGroup, packageGroups_withPackage, Prod.mk.injEq]
    by_cases hkey : primary = package.manifest.entryModule ∧ hash = staged.version
    · obtain ⟨rfl, rfl⟩ := hkey
      simp [hnone]
    · rw [if_neg hkey]
      tauto
  have hsome : ∀ {primary hash},
      ((snapshot.withPackage staged package.manifest.entryModule publishRoutes
          loadedAt).packageGroups.lookup (primary, hash)).isSome ↔
        (primary = package.manifest.entryModule ∧ hash = staged.version) ∨
          (snapshot.packageGroups.lookup (primary, hash)).isSome := by
    intro primary hash
    simp only [packageGroups_withPackage, Prod.mk.injEq]
    split
    · rename_i hkey
      simp [hkey]
    · rename_i hkey
      simp [hkey]
  constructor
  · constructor
    · intro workflowType hash hroute
      refine isSome_byVersion_withPackage.mpr ?_
      cases publishRoutes with
      | false => exact .inr (h.routed workflowType hash hroute)
      | true =>
        rcases lookup_insertAll_const_iff.mp hroute with ⟨hmem, rfl⟩ | ⟨-, hlook⟩
        · exact .inl ⟨staged.map_records ▸ hmem, rfl⟩
        · exact .inr (h.routed workflowType hash hlook)
    · intro workflowType hash hloaded
      simp only [hgroups]
      rcases isSome_byVersion_withPackage.mp hloaded with ⟨hmem, rfl⟩ | hold
      · refine ⟨package.manifest.entryModule, .inl ⟨rfl, rfl, hmem⟩, ?_⟩
        rintro other (⟨rfl, -, -⟩ | hother)
        · rfl
        · have hloaded := h.loaded _ _ _ hother
          simp [hfresh.absent _ hmem] at hloaded
      · obtain ⟨primary, hprim, hunique⟩ := h.grouped workflowType hash hold
        refine ⟨primary, .inr hprim, ?_⟩
        rintro other (⟨-, rfl, hmem⟩ | hother)
        · simp [hfresh.absent _ hmem] at hold
        · exact hunique other hother
    · intro workflowType primary hash hgrp
      refine isSome_byVersion_withPackage.mpr ?_
      rcases hgroups.mp hgrp with ⟨-, rfl, hmem⟩ | hold
      · exact .inl ⟨hmem, rfl⟩
      · exact .inr (h.loaded workflowType primary hash hold)
    · intro name hash
      refine lookup_insertAbsent_iff.trans ?_
      rw [h.modules name hash, hof.modules, hbeams]
      simp only [hsome]
      constructor
      · rintro (⟨⟨primary, hgrp⟩, hname⟩ | ⟨-, hname, rfl⟩)
        · exact ⟨⟨primary, .inr hgrp⟩, hname⟩
        · exact ⟨⟨_, .inl ⟨rfl, rfl⟩⟩, hof.version ▸ hname⟩
      · rintro ⟨⟨primary, ⟨rfl, rfl⟩ | hgrp⟩, hname⟩
        · rw [hof.version] at hname ⊢
          cases hlook : snapshot.registeredModules.lookup name with
          | none => exact .inr ⟨rfl, hname, rfl⟩
          | some hash =>
            have hmem : name ∈ staged.modules.map StagedModule.deployedName := by
              rw [hof.modules, hbeams]
              exact hname
            have hhash := hfresh.names name hmem hash hlook
            rw [hhash, hof.version] at hlook
            exact .inl ((h.modules name _).mp hlook)
        · exact .inl ⟨⟨primary, hgrp⟩, hname⟩
  · intro primary hash group hgrp
    rw [packageGroups_withPackage] at hgrp
    split at hgrp
    · rename_i hkey
      obtain ⟨rfl, rfl⟩ := Prod.mk.inj hkey
      obtain rfl := Option.some.inj hgrp
      exact ⟨rfl, hprim⟩
    · exact h.primary primary hash group hgrp

/-! ### Swapping out -/

section SwapOut

variable {workflowType : Text} {hash : ContentHash} {removed : RemovedPackage}
  {group : PackageGroup}

theorem SwappedOut.lookup (h : SwappedOut snapshot workflowType hash removed next group)
    (hs : Consistent beamsOf snapshot) :
    snapshot.packageGroups.lookup (group.primaryWorkflowType, hash) = some group := by
  obtain ⟨primary, hgrp⟩ := h.found
  rw [(hs.primary primary hash group hgrp).1]
  exact hgrp

theorem SwappedOut.packageGroups_eq (h : SwappedOut snapshot workflowType hash removed next group)
    (key : Text × ContentHash) :
    next.packageGroups.lookup key =
      if key = (group.primaryWorkflowType, hash) then none
      else snapshot.packageGroups.lookup key := by
  rw [h.packageGroups, lookup_erase_eq]

theorem SwappedOut.inGroup_iff (h : SwappedOut snapshot workflowType hash removed next group)
    {other : Text} :
    InGroup next other primary version ↔
      InGroup snapshot other primary version ∧
        ¬ (primary = group.primaryWorkflowType ∧ version = hash) := by
  simp only [InGroup, h.packageGroups_eq, Prod.mk.injEq]
  split
  · rename_i hkey
    simp [hkey]
  · rename_i hkey
    simp [hkey]

theorem SwappedOut.isSome_of_next (h : SwappedOut snapshot workflowType hash removed next group)
    (hkey : (next.byVersion.lookup key).isSome) : (snapshot.byVersion.lookup key).isSome := by
  rw [h.byVersion] at hkey
  split at hkey
  · cases hkey
  · exact hkey

/-- The modules that stay are those of the hashes that groups still have. -/
theorem SwappedOut.registeredModules_iff
    (h : SwappedOut snapshot workflowType hash removed next group)
    (hs : Consistent beamsOf snapshot) :
    next.registeredModules.lookup name = some version ↔
      snapshot.registeredModules.lookup name = some version ∧
      ∃ primary, (next.packageGroups.lookup (primary, version)).isSome := by
  rw [h.registeredModules, lookup_eraseAll_iff, and_comm]
  refine and_congr_right fun hlook => ?_
  have hmem : name ∈ removed.modules.map Prod.fst ↔ (name, version) ∈ removed.modules := by
    constructor
    · intro hname
      obtain ⟨⟨name, other⟩, hmem, rfl⟩ := List.mem_map.mp hname
      have hother := ((h.modules _ _).mp hmem).2.1
      obtain rfl := Option.some.inj (hother.symm.trans hlook)
      exact hmem
    · exact fun hmem => List.mem_map_of_mem hmem
  rw [hmem, h.modules]
  simp only [h.packageGroups_eq, Prod.mk.injEq, hlook, true_and, not_and, not_forall]
  obtain ⟨⟨primary, hprim⟩, -⟩ := (hs.modules name version).mp hlook
  by_cases hver : version = hash
  · subst hver
    simp only [true_implies, and_true, exists_prop, ← Option.ne_none_iff_isSome]
    exact exists_congr fun other => by split <;> simp_all
  · simp only [hver, false_implies, and_false, if_false, true_iff]
    exact ⟨primary, hprim⟩

theorem Consistent.swappedOut (hs : Consistent beamsOf snapshot)
    (h : SwappedOut snapshot workflowType hash removed next group) : Consistent beamsOf next := by
  have hgrp : ∀ {other}, InGroup snapshot other group.primaryWorkflowType hash ↔ other ∈ group.workflowTypes := by
    intro other
    simp [InGroup, h.lookup hs]
  -- What is left of the entries: those of no member at the hash.
  have hloaded : ∀ {other version}, (next.byVersion.lookup (other, version)).isSome ↔
      (snapshot.byVersion.lookup (other, version)).isSome ∧ ¬ (version = hash ∧ other ∈ group.workflowTypes) := by
    intro other version
    simp only [h.byVersion]
    split
    · rename_i hkey
      simp [hkey]
    · rename_i hkey
      simp [hkey]
  constructor
  · constructor
    · intro other version hroute
      rw [h.routed] at hroute
      refine hloaded.mpr ⟨hs.routed other version hroute, ?_⟩
      rintro ⟨rfl, hmem⟩
      exact h.unrouted other hmem hroute
    · intro other version hother
      obtain ⟨hold, hnot⟩ := hloaded.mp hother
      obtain ⟨primary, hprim, hunique⟩ := hs.grouped other version hold
      refine ⟨primary, h.inGroup_iff.mpr ⟨hprim, ?_⟩, fun other hother => hunique other (h.inGroup_iff.mp hother).1⟩
      rintro ⟨rfl, rfl⟩
      exact hnot ⟨rfl, hgrp.mp hprim⟩
    · intro other primary version hother
      obtain ⟨hold, hnot⟩ := h.inGroup_iff.mp hother
      have hsome := hs.loaded other primary version hold
      refine hloaded.mpr ⟨hsome, ?_⟩
      rintro ⟨rfl, hmem⟩
      exact hnot ⟨(hs.grouped other version hsome).unique hold (hgrp.mpr hmem), rfl⟩
    · intro name version
      rw [h.registeredModules_iff hs, hs.modules name version]
      constructor
      · rintro ⟨⟨-, hname⟩, hprim⟩
        exact ⟨hprim, hname⟩
      · rintro ⟨⟨primary, hprim⟩, hname⟩
        refine ⟨⟨⟨primary, ?_⟩, hname⟩, primary, hprim⟩
        rw [h.packageGroups_eq] at hprim
        split at hprim
        · cases hprim
        · exact hprim
  · intro primary version other hother
    rw [h.packageGroups_eq] at hother
    split at hother
    · cases hother
    · exact hs.primary primary version other hother

/-- A group without routes can be swapped out. -/
theorem Consistent.exists_swapOutPackage (hs : Consistent beamsOf snapshot)
    (hgrp : snapshot.packageGroups.lookup (primary, hash) = some group)
    (hmem : workflowType ∈ group.workflowTypes) (hnd : group.workflowTypes.Nodup)
    (hunrouted : ∀ member ∈ group.workflowTypes, snapshot.routed.lookup member ≠ some hash) :
    ∃ removed next, snapshot.swapOutPackage workflowType hash = .ok (removed, next) := by
  have hloaded : ∀ member ∈ group.workflowTypes,
    (snapshot.byVersion.lookup (member, hash)).isSome :=
    fun member hmb => hs.loaded member primary hash ⟨group, hgrp, hmb⟩
  obtain ⟨entry, hent⟩ := Option.isSome_iff_exists.mp (hloaded workflowType hmem)
  obtain ⟨⟨entries, left⟩, hrem⟩ := exists_removeMembers hnd hloaded
  have hroute : (group.workflowTypes.find? fun member =>
      snapshot.routed.lookup member = some hash) = none :=
    List.find?_eq_none.mpr fun member hmb => by simpa using hunrouted member hmb
  -- The group that is found has the type, so it is this one.
  have hfind : ∃ found, (snapshot.packageGroups.entries.find? fun entry =>
      entry.1.2 = hash ∧ workflowType ∈ entry.2.workflowTypes) = some found ∧ found.2 = group := by
    have hsome : (snapshot.packageGroups.entries.find? fun entry =>
        entry.1.2 = hash ∧ workflowType ∈ entry.2.workflowTypes).isSome :=
      List.find?_isSome.mpr ⟨⟨(primary, hash), group⟩, AList.mem_lookup_iff.mp hgrp, by simpa using hmem⟩
    obtain ⟨⟨⟨other, version⟩, found⟩, hfd⟩ := Option.isSome_iff_exists.mp hsome
    have hkey := List.find?_some hfd
    simp only [decide_eq_true_eq] at hkey
    obtain ⟨rfl, hmb⟩ := hkey
    have hlook := AList.mem_lookup_iff.mpr (List.mem_of_find?_eq_some hfd)
    have hsame := (hs.grouped workflowType version (hloaded workflowType hmem)).unique ⟨found, hlook, hmb⟩ ⟨group, hgrp, hmem⟩
    refine ⟨_, hfd, ?_⟩
    rw [hsame] at hlook
    exact Option.some.inj (hlook.symm.trans hgrp)
  obtain ⟨found, hfd, rfl⟩ := hfind
  unfold CatalogSnapshot.swapOutPackage
  rw [hent, hfd]
  simp only [hroute, hrem, Option.isNone_some, Bool.false_eq_true, if_false]
  exact ⟨_, _, rfl⟩

/-- The group is put back. -/
theorem SwappedOut.same (h : SwappedOut snapshot workflowType hash removed next group)
    (hs : Consistent beamsOf snapshot) : (next.restorePackage removed).Same snapshot := by
  obtain ⟨hbyVersion, hroute, hmods, hgroups⟩ := h.restore (h.lookup hs)
  exact ⟨hbyVersion, hroute, hmods, hgroups⟩

end SwapOut

/-! ### Runs of calls -/

/-- The modules of a group that was swapped out are unregistered. -/
def unregisterModules (removed : RemovedPackage) (runtime : Finset ModuleName) :
    Finset ModuleName :=
  removed.modules.foldl (fun runtime module => runtime.erase module.1) runtime

theorem mem_unregisterModules {removed : RemovedPackage} :
    name ∈ unregisterModules removed runtime ↔ name ∈ runtime ∧
      name ∉ removed.modules.map Prod.fst := by
  obtain ⟨primary, version, entries, modules⟩ := removed
  change name ∈ modules.foldl _ runtime ↔ _
  induction modules generalizing runtime with
  | nil => simp
  | cons module rest ih =>
    rw [List.foldl_cons, ih, Finset.mem_erase, List.map_cons, List.mem_cons]
    tauto

/-- Calls of the catalog. -/
inductive CatalogCall (Json : Type) where
  /-- `load_package`, or `stage_package` if routes are not published. -/
  | load (package : Package Json) (calls : LoadCalls) (publishRoutes : Bool) (loadedAt : Instant)
  | publishPackageRoutes (primary : Text) (version : ContentHash)
  | routeVersion (workflowType : Text) (version : ContentHash)
  | swapOutPackage (workflowType : Text) (version : ContentHash)
  /-- `restore_package`, of the group that was swapped out last. -/
  | restorePackage
  /-- The modules of the group that was swapped out last are unregistered. -/
  | unregister

/-- The catalog, and the group that was swapped out last and not put back or unregistered yet. -/
structure CatalogRun where
  loader : LoaderState
  removed : Option RemovedPackage

/-- Nothing is loaded. -/
def CatalogRun.empty : CatalogRun := ⟨⟨.empty, ∅⟩, none⟩

/-- A call that installs a snapshot, or fails. -/
def CatalogRun.install (s : CatalogRun) :
    Except LoaderError CatalogSnapshot → Except LoaderError Unit × CatalogRun
  | .error error => (.error error, s)
  | .ok snapshot => (.ok (), { s with loader.snapshot := snapshot })

/-- What a call answers and leaves. -/
def answer (codecs : Codecs Archive Writer Json) (s : CatalogRun) :
    CatalogCall Json → Option (Except LoaderError Unit × CatalogRun)
  | .load package calls publishRoutes loadedAt =>
    let (result, loader) := loadPackageWithMode codecs s.loader package calls publishRoutes loadedAt
    some (result.map fun _ => (), { s with loader := loader })
  | .publishPackageRoutes primary version =>
    some (s.install (s.loader.snapshot.publishPackageRoutes primary version))
  | .routeVersion workflowType version =>
    some (s.install (s.loader.snapshot.routeVersion workflowType version))
  | .swapOutPackage workflowType version =>
    match s.loader.snapshot.swapOutPackage workflowType version with
    | .error error => some (.error error, s)
    | .ok (removed, snapshot) =>
      some (.ok (), { s with loader.snapshot := snapshot, removed := some removed })
  | .restorePackage =>
    s.removed.map fun removed => (.ok (), ⟨{ s.loader with snapshot := s.loader.snapshot.restorePackage removed }, none⟩)
  | .unregister =>
    s.removed.map fun removed => (.ok (), ⟨{ s.loader with runtime := unregisterModules removed s.loader.runtime }, none⟩)

/-- A call. -/
def step (codecs : Codecs Archive Writer Json) (s : CatalogRun) (call : CatalogCall Json) :
    Option CatalogRun :=
  (answer codecs s call).map Prod.snd

/-- The modules of packages are told by their hashes, and rollbacks succeed. -/
def Named (beamsOf : ContentHash → BeamSet) (_ : CatalogRun) : CatalogCall Json → Prop
  | .load package calls _ _ => package.beams = beamsOf package.contentHash ∧ calls.rollback = []
  | _ => True

/-- The mutation lock is held from a swap-out on. -/
def Locked (beamsOf : ContentHash → BeamSet) (s : CatalogRun) (call : CatalogCall Json) : Prop :=
  Named beamsOf s call ∧
    match call with
    | .restorePackage | .unregister => True
    | _ => s.removed = none

instance (beamsOf : ContentHash → BeamSet) (s : CatalogRun) [DecidableEq Json]
    (call : CatalogCall Json) : Decidable (Named beamsOf s call) :=
  match call with
  | .load .. => inferInstanceAs (Decidable (_ ∧ _))
  | .publishPackageRoutes .. | .routeVersion .. | .swapOutPackage .. | .restorePackage | .unregister => .isTrue trivial

instance (beamsOf : ContentHash → BeamSet) (s : CatalogRun) [DecidableEq Json]
    (call : CatalogCall Json) : Decidable (Locked beamsOf s call) :=
  match call with
  | .restorePackage | .unregister => inferInstanceAs (Decidable (_ ∧ True))
  | .load .. | .publishPackageRoutes .. | .routeVersion .. | .swapOutPackage .. =>
    inferInstanceAs (Decidable (_ ∧ s.removed = none))

/-- The catalog is consistent. The runtime has its modules, or those of the catalog before the
swap-out; `exact` says that no rollback has left any behind. -/
structure Kept (exact : Prop) (beamsOf : ContentHash → BeamSet) (s : CatalogRun) : Prop where
  consistent : Consistent beamsOf s.loader.snapshot
  unlocked : s.removed = none → Stocks exact s.loader.runtime s.loader.snapshot
  locked : ∀ removed, s.removed = some removed → ∃ snapshot workflowType hash group,
    Consistent beamsOf snapshot ∧
    Stocks exact s.loader.runtime snapshot ∧
      SwappedOut snapshot workflowType hash removed s.loader.snapshot group

variable {exact : Prop}

theorem kept_empty : Kept exact beamsOf .empty where
  consistent := consistent_empty
  unlocked _ := stocks_empty
  locked _ h := by cases h

theorem publishPackageRoutes_eq_ok (h : snapshot.publishPackageRoutes primary version = .ok next) :
    ∃ group, snapshot.packageGroups.lookup (primary, version) = some group ∧
      (∀ workflowType ∈ group.workflowTypes,
          (snapshot.byVersion.lookup (workflowType, version)).isSome) ∧
      next = snapshot.withRoutes group.workflowTypes version := by
  unfold CatalogSnapshot.publishPackageRoutes at h
  split at h
  · cases h
  · rename_i group hgrp
    split at h
    · cases h
    · rename_i hnone
      cases h
      refine ⟨group, hgrp, fun workflowType hmem => ?_, rfl⟩
      have hsome := List.find?_eq_none.mp hnone workflowType hmem
      simpa [Option.isSome_iff_ne_none] using hsome

theorem routeVersion_eq_ok {workflowType : Text}
    (h : snapshot.routeVersion workflowType version = .ok next) :
    (snapshot.byVersion.lookup (workflowType, version)).isSome ∧
      (snapshot.routed.lookup workflowType = some version ∧ next = snapshot ∨
        next = { snapshot with routed := snapshot.routed.insert workflowType version }) := by
  unfold CatalogSnapshot.routeVersion at h
  split at h
  · cases h
  · rename_i hsome
    have hloaded : (snapshot.byVersion.lookup (workflowType, version)).isSome := by
      simpa [Option.isSome_iff_ne_none] using hsome
    split at h
    · rename_i hroute
      cases h
      exact ⟨hloaded, .inl ⟨hroute, rfl⟩⟩
    · cases h
      exact ⟨hloaded, .inr rfl⟩

section Calls

variable {s s' : CatalogRun} {result : Except LoaderError Unit}

/-- A snapshot that is installed while no group is swapped out. -/
theorem Kept.install (h : Kept exact beamsOf s) (hnone : s.removed = none)
    {installed : Except LoaderError CatalogSnapshot}
    (hinst : ∀ next, installed = .ok next → Consistent beamsOf next ∧
        next.registeredModules = s.loader.snapshot.registeredModules)
    (hans : s.install installed = (result, s')) :
    Kept exact beamsOf s' ∧ ∀ error, result = .error error → s'.loader = s.loader := by
  cases installed with
  | error error =>
    obtain ⟨rfl, rfl⟩ := Prod.mk.inj hans
    exact ⟨h, fun _ _ => rfl⟩
  | ok next =>
    obtain ⟨rfl, rfl⟩ := Prod.mk.inj hans
    obtain ⟨hcons, hmods⟩ := hinst next rfl
    refine ⟨⟨hcons, fun _ => ?_, fun removed hsome => ?_⟩, fun error herr => by cases herr⟩
    · exact (h.unlocked hnone).of_eq fun name => congrArg (AList.lookup name) hmods
    · cases hnone.symm.trans hsome

theorem Kept.load (h : Kept exact beamsOf s) (hnone : s.removed = none) {package : Package Json}
    {calls : LoadCalls} (hbeams : package.beams = beamsOf package.contentHash)
    (hroll : exact → calls.rollback = [])
    (hans : answer codecs s (.load package calls publishRoutes loadedAt) = some (result, s')) :
    Kept exact beamsOf s' ∧ (exact → ∀ error, result = .error error → s'.loader = s.loader) := by
  rcases hload : loadPackageWithMode codecs s.loader package calls publishRoutes loadedAt with ⟨outcome, loader⟩
  simp only [answer, hload] at hans
  obtain ⟨rfl, rfl⟩ := Prod.mk.inj (Option.some.inj hans)
  have hreg := registered_of_load (h.unlocked hnone).registered hload
  have hgone : ∀ removed, s.removed = some removed → ∃ snapshot workflowType hash group,
    Consistent beamsOf snapshot ∧
      Stocks exact loader.runtime snapshot ∧ SwappedOut snapshot workflowType hash removed loader.snapshot group := by
    intro removed hsome
    cases hnone.symm.trans hsome
  rcases loadPackageWithMode_cases hload with ⟨-, hunloaded⟩ | ⟨outcome, staged, rfl, -,
    hof, hcases⟩
  · have heq : exact → loader = s.loader :=
      fun hexact => hunloaded.eq (hroll hexact) ((h.unlocked hnone).only hexact)
    refine ⟨⟨?_, fun _ => ⟨hreg, fun hexact => ?_⟩, hgone⟩, fun hexact _ _ => heq hexact⟩
    · exact hunloaded.snapshot ▸ h.consistent
    · exact heq hexact ▸ (h.unlocked hnone).only hexact
  · refine ⟨?_, fun _ error herr => by cases herr⟩
    rcases hcases with ⟨-, hreloaded⟩ | ⟨-, hfresh⟩
    · have hloaded : ∀ workflowType ∈ declaredTypes package,
          (s.loader.snapshot.byVersion.lookup (workflowType, package.contentHash)).isSome := by
        intro workflowType hmem
        rw [← hof.types] at hmem
        obtain ⟨entry, hent, -⟩ := hreloaded.resident workflowType hmem
        rw [← hof.version, hent]
        rfl
      refine ⟨?_, fun _ => ?_, hgone⟩
      · rcases hreloaded.snapshot with hsnap | ⟨-, hsnap⟩
        · exact hsnap ▸ h.consistent
        · exact hsnap ▸ h.consistent.withRoutes hloaded
      · have hmods : loader.snapshot.registeredModules = s.loader.snapshot.registeredModules := by
          rcases hreloaded.snapshot with hsnap | ⟨-, hsnap⟩
          · rw [hsnap]
          · rw [hsnap]
            rfl
        change Stocks exact loader.runtime loader.snapshot
        rw [hreloaded.runtime]
        exact (h.unlocked hnone).of_eq fun name => congrArg (AList.lookup name) hmods
    · refine ⟨?_, fun _ => ⟨hreg, fun hexact => ?_⟩, hgone⟩
      · exact hfresh.snapshot ▸ h.consistent.withPackage hof hfresh.fresh hbeams
      · exact hfresh.runtime (hroll hexact) ((h.unlocked hnone).only hexact)

/-- A group is swapped out. -/
theorem Kept.swapOut (h : Kept exact beamsOf s) (hnone : s.removed = none) {workflowType : Text}
    {hash : ContentHash} {removed : RemovedPackage} {next : CatalogSnapshot} {group : PackageGroup}
    (hout : SwappedOut s.loader.snapshot workflowType hash removed next group) :
    Kept exact beamsOf ⟨{ s.loader with snapshot := next }, some removed⟩ := by
  refine ⟨h.consistent.swappedOut hout, (fun hsome => by cases hsome), fun other hother => ?_⟩
  obtain rfl := Option.some.inj hother
  exact ⟨s.loader.snapshot, workflowType, hash, group, h.consistent, h.unlocked hnone, hout⟩

/-- The group that was swapped out last is put back. -/
theorem Kept.restorePackage (h : Kept exact beamsOf s) {removed : RemovedPackage}
    (hrem : s.removed = some removed) :
    Kept exact beamsOf ⟨{ s.loader with snapshot := s.loader.snapshot.restorePackage removed },
        none⟩ := by
  obtain ⟨snapshot, workflowType, hash, group, hs, hholds, hout⟩ := h.locked removed hrem
  have hsame := hout.same hs
  exact ⟨hs.of_same hsame, fun _ => hholds.of_eq hsame.registeredModules,
      fun other hother => by cases hother⟩

/-- Its modules are unregistered. -/
theorem Kept.unregister (h : Kept exact beamsOf s) {removed : RemovedPackage}
    (hrem : s.removed = some removed) :
    Kept exact beamsOf ⟨{ s.loader with runtime := unregisterModules removed s.loader.runtime },
        none⟩ := by
  obtain ⟨snapshot, workflowType, hash, group, hs, hholds, hout⟩ := h.locked removed hrem
  have hlook (name : ModuleName) : (s.loader.snapshot.registeredModules.lookup name).isSome ↔
      name ∉ removed.modules.map Prod.fst ∧ (snapshot.registeredModules.lookup name).isSome := by
    rw [hout.registeredModules]
    by_cases hname : name ∈ removed.modules.map Prod.fst
    · simp [Option.isSome_iff_exists, lookup_eraseAll_iff, hname]
    · simp [lookup_eraseAll_of_notMem hname, hname]
  refine ⟨h.consistent, fun _ => ⟨fun name hname => ?_, fun hexact name => ?_⟩,
      fun other hother => by cases hother⟩
  · obtain ⟨hnot, hreg⟩ := (hlook name).mp hname
    exact mem_unregisterModules.mpr ⟨hholds.registered name hreg, hnot⟩
  · rw [mem_unregisterModules, hholds.only hexact name, and_comm]
    exact (hlook name).symm

/-- **What a call keeps.** One that fails changes nothing. -/
theorem Kept.answer (h : Kept True beamsOf s) {call : CatalogCall Json}
    (hmay : Locked beamsOf s call) (hans : answer codecs s call = some (result, s')) :
    Kept True beamsOf s' ∧ ∀ error, result = .error error → s'.loader = s.loader := by
  cases call with
  | load package calls publishRoutes loadedAt =>
    obtain ⟨⟨hbeams, hroll⟩, hnone⟩ := hmay
    exact (h.load hnone hbeams (fun _ => hroll) hans).imp_right fun hfail => hfail trivial
  | publishPackageRoutes primary version =>
    refine h.install hmay.2 (fun next hnext => ?_) (Option.some.inj hans)
    obtain ⟨group, -, hloaded, rfl⟩ := publishPackageRoutes_eq_ok hnext
    exact ⟨h.consistent.withRoutes hloaded, rfl⟩
  | routeVersion workflowType version =>
    refine h.install hmay.2 (fun next hnext => ?_) (Option.some.inj hans)
    obtain ⟨hloaded, ⟨-, rfl⟩ | rfl⟩ := routeVersion_eq_ok hnext
    · exact ⟨h.consistent, rfl⟩
    · exact ⟨h.consistent.route hloaded, rfl⟩
  | swapOutPackage workflowType version =>
    simp only [Loader.answer] at hans
    split at hans
    · obtain ⟨rfl, rfl⟩ := Prod.mk.inj (Option.some.inj hans)
      exact ⟨h, fun _ _ => rfl⟩
    · rename_i removed next hswap
      obtain ⟨rfl, rfl⟩ := Prod.mk.inj (Option.some.inj hans)
      obtain ⟨group, hout⟩ := swapOutPackage_eq_ok hswap
      exact ⟨h.swapOut hmay.2 hout, fun error herr => by cases herr⟩
  | restorePackage =>
    obtain ⟨removed, hrem, heq⟩ := Option.map_eq_some_iff.mp hans
    obtain ⟨rfl, rfl⟩ := Prod.mk.inj heq
    exact ⟨h.restorePackage hrem, fun error herr => by cases herr⟩
  | unregister =>
    obtain ⟨removed, hrem, heq⟩ := Option.map_eq_some_iff.mp hans
    obtain ⟨rfl, rfl⟩ := Prod.mk.inj heq
    exact ⟨h.unregister hrem, fun error herr => by cases herr⟩

theorem Kept.of_reachable (h : Reachable (step codecs) (Locked beamsOf) .empty s) :
    Kept True beamsOf s := by
  refine h.invariant (fun {s call s'} hs hmay hstep => ?_) kept_empty
  obtain ⟨⟨result, s'⟩, hans, rfl⟩ := Option.map_eq_some_iff.mp hstep
  exact (hs.answer hmay hans).1

end Calls

/-- **Every catalog is consistent**: what is routed is loaded, what is loaded belongs to one group
of its hash, and the modules of these hashes are registered. A call that fails changes nothing, and
a group that is swapped out and put back leaves the catalog as it was. -/
theorem catalog_kept {s : CatalogRun} (h : Reachable (step codecs) (Locked beamsOf) .empty s) :
    Sound beamsOf s.loader.snapshot ∧
      (∀ call error s', Locked beamsOf s call → answer codecs s call = some (.error error, s') →
        s'.loader.snapshot = s.loader.snapshot ∧ s'.loader.runtime = s.loader.runtime) ∧
      ∀ workflowType version removed next, s.loader.snapshot.swapOutPackage workflowType version =
        .ok (removed, next) →
        (next.restorePackage removed).Same s.loader.snapshot := by
  have hkept := Kept.of_reachable h
  refine ⟨hkept.consistent.toSound, fun call error s' hmay hans =>
      ?_, fun workflowType version removed next hswap => ?_⟩
  · rw [(hkept.answer hmay hans).2 error rfl]
    exact ⟨rfl, rfl⟩
  · obtain ⟨group, hout⟩ := swapOutPackage_eq_ok hswap
    exact hout.same hkept.consistent

/-- The first package of the sample is loaded, then the third, which takes its routes. -/
def pairLoads : List (CatalogCall Bool) :=
  [.load firstPair .succeed true 0, .load laterPair .succeed true 0]

theorem catalog_kept_pair :
    ∃ s, run (step pairCodecs) (Locked pairBeamsOf) .empty pairLoads = some s ∧
    Sound pairBeamsOf s.loader.snapshot ∧
    (∃ error s', answer pairCodecs s (.swapOutPackage (.lit "a") laterVersion) =
        some (.error error, s') ∧
      s'.loader.snapshot = s.loader.snapshot) ∧
    ∃ removed next, s.loader.snapshot.swapOutPackage (.lit "a") pairVersion = .ok (removed, next) ∧
      (next.restorePackage removed).Same s.loader.snapshot := by
  have hrun : ∃ s, run (step pairCodecs) (Locked pairBeamsOf) .empty pairLoads = some s ∧
      ((s.loader.snapshot.swapOutPackage (.lit "a") pairVersion).isOk &&
        (s.loader.snapshot.swapOutPackage (.lit "a") laterVersion).isOk == false) = true :=
    (Option.any_eq_true _ _).mp (by decide +kernel)
  obtain ⟨s, hs, hcheck⟩ := hrun
  obtain ⟨hsound, hfail, hrest⟩ := catalog_kept (reachable_of_run hs)
  refine ⟨s, hs, hsound, ?_, ?_⟩
  · rcases hswap : s.loader.snapshot.swapOutPackage (.lit "a") laterVersion with error | ⟨removed,
      next⟩
    · have hans : answer pairCodecs s (.swapOutPackage (.lit "a") laterVersion) = some (.error error, s) := by
        simp only [answer, hswap]
      exact ⟨error, s, hans, rfl⟩
    · simp [hswap, Except.isOk, Except.toBool] at hcheck
  · rcases hswap : s.loader.snapshot.swapOutPackage (.lit "a") pairVersion with error | ⟨removed,
      next⟩
    · simp [hswap, Except.isOk, Except.toBool] at hcheck
    · exact ⟨removed, next, rfl, hrest _ _ _ _ hswap⟩

/-- Without the lock a group is put back beside another one that has its types by now, and a load
that fails takes back modules that were registered before it. -/
theorem unlocked_calls_break :
    (∃ s, run (step pairCodecs) (Named pairBeamsOf) .empty (pairLoads ++
        [.swapOutPackage (.lit "a") pairVersion, .load secondPair .succeed true 0,
            .restorePackage]) = some s ∧
      ¬ Sound pairBeamsOf s.loader.snapshot) ∧
    ∃ s result s', run (step pairCodecs) (Named pairBeamsOf) .empty
        (pairLoads ++ [.swapOutPackage (.lit "a") pairVersion]) = some s ∧
      answer pairCodecs s (.load firstPair .unverified true 0) = some (result, s') ∧
        result.isOk = false ∧
      s'.loader.runtime ≠ s.loader.runtime := by
  constructor
  · have hrun : ∃ s, run (step pairCodecs) (Named pairBeamsOf) .empty (pairLoads ++
          [.swapOutPackage (.lit "a") pairVersion, .load secondPair .succeed true 0, .restorePackage]) = some s ∧
        ((s.loader.snapshot.packageGroups.lookup (.lit "a", pairVersion)).any (fun group => .lit "a" ∈ group.workflowTypes) &&
          (s.loader.snapshot.packageGroups.lookup (.lit "b", pairVersion)).any fun group =>
            .lit "a" ∈ group.workflowTypes) = true :=
      (Option.any_eq_true _ _).mp (by decide +kernel)
    obtain ⟨s, hs, hcheck⟩ := hrun
    refine ⟨s, hs, fun hsound => ?_⟩
    obtain ⟨hfst, hsnd⟩ := Bool.and_eq_true_iff.mp hcheck
    obtain ⟨first, hfst, hmemFirst⟩ := (Option.any_eq_true _ _).mp hfst
    obtain ⟨second, hsnd, hmemSecond⟩ := (Option.any_eq_true _ _).mp hsnd
    have hinFirst : InGroup s.loader.snapshot (.lit "a") (.lit "a") pairVersion :=
      ⟨first, hfst, of_decide_eq_true hmemFirst⟩
    have hinSecond : InGroup s.loader.snapshot (.lit "a") (.lit "b") pairVersion :=
      ⟨second, hsnd, of_decide_eq_true hmemSecond⟩
    have heq := (hsound.grouped _ _ (hsound.loaded _ _ _ hinFirst)).unique hinFirst hinSecond
    exact absurd heq (by decide)
  · have hrun : ∃ s, run (step pairCodecs) (Named pairBeamsOf) .empty
          (pairLoads ++ [.swapOutPackage (.lit "a") pairVersion]) = some s ∧
        ((answer pairCodecs s (.load firstPair .unverified true 0)).any fun answered =>
          !answered.1.isOk && decide (answered.2.loader.runtime ≠ s.loader.runtime)) = true :=
      (Option.any_eq_true _ _).mp (by decide +kernel)
    obtain ⟨s, hs, hanswered⟩ := hrun
    obtain ⟨⟨result, s'⟩, hans, hcheck⟩ := (Option.any_eq_true _ _).mp hanswered
    obtain ⟨hfail, hruntime⟩ := Bool.and_eq_true_iff.mp hcheck
    exact ⟨s, result, s', hs, hans, by simpa using hfail, of_decide_eq_true hruntime⟩

end Aion.Loader
