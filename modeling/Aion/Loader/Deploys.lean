import Aion.Loader.CatalogInvariant
import Aion.Loader.Persistence

/-!
# Deploys survive a restart

The store has the archive of every package that is loaded, and the routes that are published
(`Durable`). Whatever order the store lists them in, a restart loads the packages again, as no two
of them share a type and a version, and puts the routes back over those that the loads themselves
published (`deploys_survive_restart`).
-/

namespace Aion.Loader

open Packaging FiniteMaps Actions

variable {Archive Writer Json : Type} {codecs : Codecs Archive Writer Json}
  {registration : Registration}
  {beamsOf : ContentHash → BeamSet} {manifestOf : ManifestDigest → Manifest Json}
    {snapshot next : CatalogSnapshot}
  {package : Package Json} {staged : StagedLoad} {archive : Archive} {key : Text × ContentHash}

/-! ### What is relied on -/

/-- Modules are told by the version and manifests by their digest, and an archive is read back. -/
structure Trusted (codecs : Codecs Archive Writer Json) (beamsOf : ContentHash → BeamSet)
    (manifestOf : ManifestDigest → Manifest Json) (package : Package Json) : Prop where
  beams : package.beams = beamsOf package.contentHash
  manifest : ∀ digest, canonicalDigest codecs package.manifest = .ok digest →
    package.manifest = manifestOf digest
  archived : ∀ archive, package.toArchiveBytes codecs = .ok archive →
    Package.load codecs archive .unbounded = .ok package

/-- The packages that are loaded are trusted. -/
def TrustedCall (codecs : Codecs Archive Writer Json) (beamsOf : ContentHash → BeamSet)
    (manifestOf : ManifestDigest → Manifest Json) (_ : EngineState Archive) : DeployCall Json → Prop
  | .loadPackage package _ _ _ => Trusted codecs beamsOf manifestOf package
  | _ => True

/-- Whether the result, if there is one, has the property. -/
def Yields {ε α : Type} (result : Except ε α) (p : α → Prop) : Prop :=
  match result with
  | .ok a => p a
  | .error _ => True

instance {ε α : Type} (result : Except ε α) (p : α → Prop) [DecidablePred p] :
    Decidable (Yields result p) :=
  match result with
  | .ok a => inferInstanceAs (Decidable (p a))
  | .error _ => .isTrue trivial

theorem yields_iff {ε α : Type} {result : Except ε α} {p : α → Prop} :
    Yields result p ↔ ∀ a, result = .ok a → p a := by
  cases result with
  | ok a => simp [Yields]
  | error error => simp [Yields]

instance [DecidableEq Json] (package : Package Json) :
    Decidable (Trusted codecs beamsOf manifestOf package) :=
  decidable_of_iff (package.beams = beamsOf package.contentHash ∧
      Yields (canonicalDigest codecs package.manifest) (fun digest => package.manifest = manifestOf digest) ∧
      Yields (package.toArchiveBytes codecs) fun archive => Package.load codecs archive .unbounded = .ok package) <| by
    rw [yields_iff, yields_iff]
    exact ⟨fun ⟨hbeams, hmani, harchived⟩ => ⟨hbeams, hmani, harchived⟩,
      fun h => ⟨h.beams, h.manifest, h.archived⟩⟩

instance [DecidableEq Json] (s : EngineState Archive) (deploy : DeployCall Json) :
    Decidable (TrustedCall codecs beamsOf manifestOf s deploy) :=
  match deploy with
  | .loadPackage package .. =>
    inferInstanceAs (Decidable (Trusted codecs beamsOf manifestOf package))
  | .routeWorkflowVersion .. | .unloadWorkflowVersion .. => .isTrue trivial

/-! ### What the store has -/

/-- The runtime takes the modules of a package, and verifies its entries. -/
structure Registration.Accepts (registration : Registration) (package : Package Json)
    (staged : StagedLoad) : Prop where
  register : ∀ module ∈ staged.modules, registration.register package.beams module = none
  verify : ∀ workflow ∈ staged.workflows, registration.verify package.beams workflow = none

/-- The catalog has the package. -/
structure Installed (snapshot : CatalogSnapshot) (package : Package Json) (staged : StagedLoad) :
    Prop where
  group : snapshot.packageGroups.lookup (package.manifest.entryModule, package.contentHash) =
    some ⟨package.manifest.entryModule, declaredTypes package⟩
  entries : ∀ record ∈ staged.records, ∃ loadedAt,
    snapshot.byVersion.lookup (record.workflowType, package.contentHash) =
    some ⟨record, staged.manifestVersion, staged.manifestDigest, loadedAt⟩

/-- The archive of a package that the catalog has, under its key. -/
structure Stored (codecs : Codecs Archive Writer Json) (registration : Registration)
    (beamsOf : ContentHash → BeamSet) (manifestOf : ManifestDigest → Manifest Json)
    (snapshot : CatalogSnapshot) (key : Text × ContentHash) (archive : Archive)
    (package : Package Json) (staged : StagedLoad) : Prop where
  load : Package.load codecs archive .unbounded = .ok package
  primary : package.manifest.entryModule = key.1
  version : package.contentHash = key.2
  beams : package.beams = beamsOf package.contentHash
  stage : StagedLoad.new codecs package = .ok staged
  manifest : package.manifest = manifestOf staged.manifestDigest
  accepts : registration.Accepts package staged
  installed : Installed snapshot package staged

/-- The store has what is loaded and routed. -/
structure Durable (codecs : Codecs Archive Writer Json) (registration : Registration)
    (beamsOf : ContentHash → BeamSet) (manifestOf : ManifestDigest → Manifest Json)
    (s : EngineState Archive) : Prop where
  consistent : Consistent beamsOf s.loader.snapshot
  routes : SameLookups s.store.routes s.loader.snapshot.routed
  routed : ∀ key, (s.loader.snapshot.byVersion.lookup key).isSome →
    (s.loader.snapshot.routed.lookup key.1).isSome
  stored : ∀ key archive, s.store.packages.lookup key = some archive → ∃ package staged,
    Stored codecs registration beamsOf manifestOf s.loader.snapshot key archive package staged
  grouped : ∀ key, (s.loader.snapshot.packageGroups.lookup key).isSome →
    (s.store.packages.lookup key).isSome

theorem durable_empty :
    Durable codecs registration beamsOf manifestOf (.empty : EngineState Archive) where
  consistent := consistent_empty
  routes := SameLookups.refl _
  routed _ h := by cases h
  stored _ _ h := by cases h
  grouped _ h := by cases h

/-- What a package is staged as depends on its manifest, its modules and its version. -/
theorem StagedLoad.new_congr {other : Package Json} (hmani : other.manifest = package.manifest)
    (hbeams : other.beams = package.beams) (hver : other.contentHash = package.contentHash) :
    StagedLoad.new codecs other = StagedLoad.new codecs package := by
  obtain ⟨manifest, beams, source, hash⟩ := package
  obtain ⟨manifest', beams', source', hash'⟩ := other
  obtain rfl := hmani
  obtain rfl := hbeams
  obtain rfl := hver
  have hstg : ∀ seen entries, stageWorkflows codecs
    ⟨manifest', beams', source', hash'⟩ seen entries =
      stageWorkflows codecs ⟨manifest', beams', source, hash'⟩ seen entries := by
    intro seen entries
    induction entries generalizing seen with
    | nil => rfl
    | cons entry rest ih =>
      simp only [stageWorkflows, ih]
      rfl
  simp only [StagedLoad.new, hstg]
  rfl

theorem Installed.of_lookups (h : Installed snapshot package staged)
    (hgrp : next.packageGroups.lookup (package.manifest.entryModule, package.contentHash) =
        snapshot.packageGroups.lookup (package.manifest.entryModule, package.contentHash))
    (hents : ∀ record ∈ staged.records,
        next.byVersion.lookup (record.workflowType, package.contentHash) =
      snapshot.byVersion.lookup (record.workflowType, package.contentHash)) :
    Installed next package staged :=
  ⟨hgrp.trans h.group, fun record hrec => by
    rw [hents record hrec]
    exact h.entries record hrec⟩

variable {loader : LoaderState} {workflowType primary : Text} {loadedAt : Instant}
  {publishRoutes : Bool} {store : PackageStore Archive} {version : ContentHash}

theorem Stored.inGroup
    (h : Stored codecs registration beamsOf manifestOf snapshot key archive package staged)
    (hmem : workflowType ∈ declaredTypes package) : InGroup snapshot workflowType key.1 key.2 :=
  ⟨_, h.primary ▸ h.version ▸ h.installed.group, hmem⟩

theorem Stored.mem_types
    (h : Stored codecs registration beamsOf manifestOf snapshot key archive package staged)
    {record : LoadedWorkflow} (hrec : record ∈ staged.records) :
    record.workflowType ∈ declaredTypes package := by
  rw [← (StagedLoad.of_new h.stage).types, ← staged.map_records]
  exact List.mem_map_of_mem hrec

theorem StagedLoad.canonicalDigest_of_new (h : StagedLoad.new codecs package = .ok staged) :
    canonicalDigest codecs package.manifest = .ok staged.manifestDigest := by
  unfold StagedLoad.new at h
  split at h
  · cases h
  · split at h
    · cases h
    · rename_i digest hdigest
      cases h
      exact hdigest

theorem Stored.mem_of_inGroup
    (h : Stored codecs registration beamsOf manifestOf snapshot key archive package staged)
    (hgrp : InGroup snapshot workflowType key.1 key.2) : workflowType ∈ declaredTypes package := by
  obtain ⟨group, hlook, hmem⟩ := hgrp
  have hown := h.installed.group
  rw [h.primary, h.version] at hown
  obtain rfl := Option.some.inj (hown.symm.trans hlook)
  exact hmem

theorem Stored.entry
    (h : Stored codecs registration beamsOf manifestOf snapshot key archive package staged)
    (hmem : workflowType ∈ declaredTypes package) :
    ∃ entry, snapshot.byVersion.lookup (workflowType, key.2) = some entry ∧
      entry.manifestDigest = staged.manifestDigest := by
  rw [← (StagedLoad.of_new h.stage).types, ← staged.map_records] at hmem
  obtain ⟨record, hrec, rfl⟩ := List.mem_map.mp hmem
  obtain ⟨loadedAt, hlook⟩ := h.installed.entries record hrec
  exact ⟨_, h.version ▸ hlook, rfl⟩

theorem Stored.reinstall
    (h : Stored codecs registration beamsOf manifestOf snapshot key archive package staged)
    (hinst : Installed next package staged) :
    Stored codecs registration beamsOf manifestOf next key archive package staged :=
  { h with installed := hinst }

theorem Durable.of_same {s : EngineState Archive}
    (h : Durable codecs registration beamsOf manifestOf s)
    (hsame : loader.snapshot.Same s.loader.snapshot) :
    Durable codecs registration beamsOf manifestOf { s with loader := loader } where
  consistent := h.consistent.of_same hsame
  routes := h.routes.trans hsame.routed.symm
  routed key hkey := by
    change (loader.snapshot.routed.lookup key.1).isSome
    rw [hsame.routed]
    exact h.routed key (hsame.byVersion key ▸ hkey)
  stored key archive harch := by
    obtain ⟨package, staged, hsto⟩ := h.stored key archive harch
    refine ⟨package, staged, hsto.reinstall (hsto.installed.of_lookups (hsame.packageGroups _) fun record _ => ?_)⟩
    exact hsame.byVersion _
  grouped key hgrp := h.grouped key (hsame.packageGroups key ▸ hgrp)

theorem CatalogSnapshot.Same.of_eq (h : snapshot = next) : snapshot.Same next := by
  subst h
  exact ⟨.refl _, .refl _, .refl _, .refl _⟩

/-! ### Loads -/

/-- The types a package is stored with are those it declares. -/
theorem declaredTypes_eq (package : Package Json) :
    declaredTypes package =
    package.manifest.entryModule :: package.manifest.additionalWorkflows.map
      WorkflowEntry.workflowType := by
  simp [declaredTypes, manifestEntries, Function.comp_def]

/-- A store that has every package but one that is loaded gets it, and its routes are published. -/
theorem Durable.publish
    (hcons : Consistent beamsOf loader.snapshot) (hroutes : SameLookups store.routes loader.snapshot.routed)
    (hsto : Stored codecs registration beamsOf manifestOf loader.snapshot
      (package.manifest.entryModule, package.contentHash) archive package staged)
    (hrouted : ∀ key, (loader.snapshot.byVersion.lookup key).isSome → key.1 ∉ declaredTypes package →
      (loader.snapshot.routed.lookup key.1).isSome)
    (hoths : ∀ key archive, key ≠ (package.manifest.entryModule, package.contentHash) → store.packages.lookup key = some archive →
      ∃ package staged, Stored codecs registration beamsOf manifestOf loader.snapshot key archive package staged)
    (hgrouped : ∀ key, key ≠ (package.manifest.entryModule, package.contentHash) →
      (loader.snapshot.packageGroups.lookup key).isSome → (store.packages.lookup key).isSome) :
    loader.snapshot.publishPackageRoutes package.manifest.entryModule package.contentHash =
        .ok (loader.snapshot.withRoutes (declaredTypes package) package.contentHash) ∧
      Durable codecs registration beamsOf manifestOf
        ⟨{ loader with snapshot := loader.snapshot.withRoutes (declaredTypes package) package.contentHash },
          store.putPackageWithRoutes ⟨package.manifest.entryModule, package.contentHash, archive⟩ (declaredTypes package)⟩ := by
  have hloaded : ∀ workflowType ∈ declaredTypes package,
      (loader.snapshot.byVersion.lookup (workflowType, package.contentHash)).isSome :=
    fun workflowType hmem => hcons.loaded _ _ _ (hsto.inGroup hmem)
  constructor
  · have hnone : ((declaredTypes package).find? fun workflowType =>
        (loader.snapshot.byVersion.lookup (workflowType, package.contentHash)).isNone) = none :=
      List.find?_eq_none.mpr fun workflowType hmem => by
        have hsome := hloaded workflowType hmem
        simp [Option.isSome_iff_ne_none.mp hsome]
    simp only [CatalogSnapshot.publishPackageRoutes, hsto.installed.group, hnone]
  · constructor
    · exact hcons.withRoutes hloaded
    · intro workflowType
      refine Option.ext fun version => ?_
      refine lookup_insertAll_const_iff.trans (Iff.trans ?_ lookup_insertAll_const_iff.symm)
      rw [hroutes workflowType]
    · intro key hkey
      by_cases hmem : key.1 ∈ declaredTypes package
      · exact isSome_lookup_insertAll.mpr (.inl (by simpa using hmem))
      · exact isSome_lookup_insertAll.mpr (.inr (hrouted key hkey hmem))
    · intro key archive' hkey
      have hlook := (lookup_insert_eq _ _).symm.trans hkey
      split at hlook
      · rename_i heq
        obtain rfl := Option.some.inj hlook
        exact ⟨package, staged, heq ▸ hsto.reinstall ⟨hsto.installed.group, hsto.installed.entries⟩⟩
      · rename_i hne
        obtain ⟨other, otherStaged, hother⟩ := hoths key archive' hne hlook
        exact ⟨other, otherStaged, hother.reinstall ⟨hother.installed.group, hother.installed.entries⟩⟩
    · intro key hkey
      change ((store.packages.insert _ archive).lookup key).isSome
      rw [lookup_insert_eq]
      split
      · rfl
      · rename_i hne
        exact hgrouped key hne hkey

/-- A package that is loaded already is stored under its key. -/
theorem Durable.resident {s : EngineState Archive}
    (h : Durable codecs registration beamsOf manifestOf s)
    (htrust : Trusted codecs beamsOf manifestOf package)
    (hstaged : StagedLoad.new codecs package = .ok staged)
    (hres : Resident s.loader.snapshot staged)
    (hload : Package.load codecs archive .unbounded = .ok package) :
    Stored codecs registration beamsOf manifestOf s.loader.snapshot
      (package.manifest.entryModule, package.contentHash) archive package staged := by
  have hof := StagedLoad.of_new hstaged
  obtain ⟨entry, hent, hdigest⟩ :=
    hres package.manifest.entryModule (hof.types ▸ entryModule_mem_declaredTypes package)
  rw [hof.version] at hent
  have hsome : (s.loader.snapshot.byVersion.lookup (package.manifest.entryModule, package.contentHash)).isSome := by
    rw [hent]
    rfl
  obtain ⟨primary, hgrp, -⟩ := h.consistent.grouped _ _ hsome
  obtain ⟨archive', harch'⟩ := Option.isSome_iff_exists.mp (h.grouped _ hgrp.isSome)
  obtain ⟨other, otherStaged, hother⟩ := h.stored _ _ harch'
  -- The entry is one of the package that is stored, so the manifests are the same.
  have hmani : other.manifest = package.manifest := by
    obtain ⟨otherEntry, hotherEntry, hotherDigest⟩ := hother.entry (hother.mem_of_inGroup hgrp)
    obtain rfl := Option.some.inj (hent.symm.trans hotherEntry)
    rw [hother.manifest, htrust.manifest _ (StagedLoad.canonicalDigest_of_new hstaged), ← hdigest,
      ← hotherDigest]
  have hver : other.contentHash = package.contentHash := hother.version
  have hbeams : other.beams = package.beams := by
    rw [hother.beams, htrust.beams, hver]
  have hsame : otherStaged = staged := by
    have hnew : StagedLoad.new codecs other = StagedLoad.new codecs package :=
      StagedLoad.new_congr hmani hbeams hver
    exact Except.ok.inj (hother.stage.symm.trans (hnew.trans hstaged))
  subst hsame
  have hkey : (primary, package.contentHash) = (package.manifest.entryModule, package.contentHash) := by
    rw [← hmani, hother.primary]
  rw [hkey] at hother
  have hgroups := hother.installed.group
  have hents := hother.installed.entries
  have htypes : declaredTypes other = declaredTypes package := by
    rw [declaredTypes_eq, declaredTypes_eq, hmani]
  rw [hver, htypes, hmani] at hgroups
  rw [hver] at hents
  have haccepts : registration.Accepts package otherStaged :=
    ⟨hbeams ▸ hother.accepts.register, hbeams ▸ hother.accepts.verify⟩
  exact ⟨hload, rfl, rfl, htrust.beams, hstaged, hmani ▸ hother.manifest, haccepts, hgroups, hents⟩

/-- What was loaded stays as it was when a package is added. -/
theorem byVersion_withPackage {key : Text × ContentHash}
    (hkey : key.1 ∈ staged.workflows.map StagedWorkflow.workflowType → key.2 ≠ staged.version) :
    (snapshot.withPackage staged primary publishRoutes loadedAt).byVersion.lookup key =
      snapshot.byVersion.lookup key := by
  refine lookup_insertAll_of_notMem fun record hrec heq => ?_
  subst heq
  refine hkey ?_ rfl
  rw [← staged.map_records]
  exact List.mem_map_of_mem hrec

theorem Fresh.ne_version (h : Fresh snapshot staged) {key : Text × ContentHash}
    (hkey : (snapshot.byVersion.lookup key).isSome) :
    key.1 ∈ staged.workflows.map StagedWorkflow.workflowType → key.2 ≠ staged.version := by
  intro hmem hver
  have habsent := h.absent key.1 hmem
  rw [← hver] at habsent
  rw [habsent] at hkey
  cases hkey

/-- The entries of a package that was added. -/
theorem installed_withPackage (hof : staged.Of package) :
    Installed (snapshot.withPackage staged package.manifest.entryModule publishRoutes loadedAt)
      package staged where
  group := by
    rw [packageGroups_withPackage, if_pos (by rw [hof.version]), hof.types]
  entries record hrec := by
    have hnd : (staged.records.map fun record => (record.workflowType, staged.version)).Nodup := by
      have htypes : (staged.records.map LoadedWorkflow.workflowType).Nodup := by
        rw [staged.map_records, hof.types]
        exact hof.nodup
      refine List.Nodup.of_map Prod.fst ?_
      rw [List.map_map]
      exact htypes
    refine ⟨loadedAt, ?_⟩
    rw [← hof.version]
    exact lookup_insertAll_of_mem hnd hrec

/-- Packages of one version have the same modules staged. -/
theorem StagedLoad.modules_of_new (h : StagedLoad.new codecs package = .ok staged) :
    staged.modules = package.deployedModules.map fun module => ⟨module.1, module.2⟩ := by
  unfold StagedLoad.new at h
  split at h
  · cases h
  · split at h
    · cases h
    · cases h
      rfl

/-- The runtime accepts a package whose new modules it takes: the others came with a package of the
same version. -/
theorem Durable.accepts {s : EngineState Archive}
    (h : Durable codecs registration beamsOf manifestOf s)
    (htrust : Trusted codecs beamsOf manifestOf package)
    (hstaged : StagedLoad.new codecs package = .ok staged) {kept : List (ModuleName × String)}
    (hfresh : Fresh s.loader.snapshot staged)
    (htaken : Taken (registration.calls package kept) s.loader.snapshot staged) :
    registration.Accepts package staged := by
  refine ⟨fun module hmod => ?_, htaken.verify⟩
  cases hlook : s.loader.snapshot.registeredModules.lookup module.deployedName with
  | none => exact htaken.register module hmod hlook
  | some hash =>
    have hof := StagedLoad.of_new hstaged
    obtain rfl := hfresh.names _ (List.mem_map_of_mem hmod) hash hlook
    obtain ⟨⟨primary, hgrp⟩, -⟩ := (h.consistent.modules _ _).mp hlook
    obtain ⟨archive, harch⟩ := Option.isSome_iff_exists.mp (h.grouped _ hgrp)
    obtain ⟨other, otherStaged, hother⟩ := h.stored _ _ harch
    have hver : other.contentHash = package.contentHash := hother.version.trans hof.version
    have hbeams : other.beams = package.beams := by
      rw [hother.beams, htrust.beams, hver]
    have hmods : otherStaged.modules = staged.modules := by
      rw [StagedLoad.modules_of_new hother.stage, StagedLoad.modules_of_new hstaged, Package.deployedModules,
        Package.deployedModules, hbeams, hver]
    exact hbeams ▸ hother.accepts.register module (hmods ▸ hmod)

/-- Stored packages stay installed when another one is added. -/
theorem Stored.withPackage
    (h : Stored codecs registration beamsOf manifestOf snapshot key archive package staged)
    {fresh : StagedLoad} (hfresh : Fresh snapshot fresh) (hkey : key ≠ (primary, fresh.version)) :
    Stored codecs registration beamsOf manifestOf
      (snapshot.withPackage fresh primary publishRoutes loadedAt) key archive package
      staged := by
  refine h.reinstall (h.installed.of_lookups ?_ fun record hrec => ?_)
  · rw [packageGroups_withPackage, h.primary, h.version, if_neg hkey]
  · obtain ⟨loadedAt, hent⟩ := h.installed.entries record hrec
    exact byVersion_withPackage (hfresh.ne_version (by rw [hent]; rfl))

/-- The group of a package that was added and is swapped out again leaves the catalog as it was. -/
theorem Fresh.same_of_swappedOut (hs : Consistent beamsOf snapshot) (hfresh : Fresh snapshot staged)
    (hof : staged.Of package) (htrust : Trusted codecs beamsOf manifestOf package)
    (loadedAt : Instant) :
    ∃ removed next, (snapshot.withPackage staged package.manifest.entryModule false
        loadedAt).swapOutPackage
        package.manifest.entryModule package.contentHash = .ok (removed, next) ∧
      next.Same snapshot := by
  have hadd : Consistent beamsOf (snapshot.withPackage staged package.manifest.entryModule false
      loadedAt) :=
    hs.withPackage hof hfresh htrust.beams
  have hinst : Installed (snapshot.withPackage staged package.manifest.entryModule false loadedAt)
    package staged :=
    installed_withPackage hof
  have habsent : ∀ {workflowType}, workflowType ∈ declaredTypes package →
      snapshot.byVersion.lookup (workflowType, package.contentHash) = none := by
    intro workflowType hmem
    rw [← hof.version]
    exact hfresh.absent workflowType (hof.types ▸ hmem)
  have hunrouted : ∀ member ∈ declaredTypes package, snapshot.routed.lookup member ≠ some package.contentHash := by
    intro member hmb hrouted
    have hloaded := hs.routed member _ hrouted
    rw [habsent hmb] at hloaded
    cases hloaded
  obtain ⟨removed, next, hswap⟩ :=
    hadd.exists_swapOutPackage hinst.group
      (entryModule_mem_declaredTypes package) hof.nodup hunrouted
  refine ⟨removed, next, hswap, ?_⟩
  obtain ⟨group, hout⟩ := swapOutPackage_eq_ok hswap
  -- The group that was swapped out is the one that was added.
  have hgrp : group = ⟨package.manifest.entryModule, declaredTypes package⟩ := by
    have hmem := entryModule_mem_declaredTypes package
    have hloaded := hadd.loaded _ _ _ ⟨_, hinst.group, hmem⟩
    have hprim :=
      (hadd.grouped _ _ hloaded).unique ⟨_, hinst.group, hmem⟩ ⟨group, hout.lookup hadd, hout.mem⟩
    have hlook := hout.lookup hadd
    rw [← hprim] at hlook
    exact Option.some.inj (hlook.symm.trans hinst.group)
  subst hgrp
  have hnone : snapshot.packageGroups.lookup (package.manifest.entryModule, package.contentHash) = none := by
    by_contra hsome
    obtain ⟨group, hlook⟩ := Option.ne_none_iff_exists'.mp hsome
    have hloaded := hs.loaded _ _ _ ⟨group, hlook, (hs.primary _ _ _ hlook).2⟩
    rw [habsent (entryModule_mem_declaredTypes package)] at hloaded
    cases hloaded
  have hgroups : SameLookups next.packageGroups snapshot.packageGroups := by
    intro key
    rw [hout.packageGroups_eq, packageGroups_withPackage, hof.version]
    by_cases hkey : key = (package.manifest.entryModule, package.contentHash)
    · rw [if_pos hkey, hkey, hnone]
    · rw [if_neg hkey, if_neg hkey]
  refine ⟨fun key => ?_, fun workflowType => ?_, fun name => Option.ext fun hash => ?_, hgroups⟩
  · rw [hout.byVersion]
    split
    · rename_i hkey
      obtain ⟨hver, hmem⟩ := hkey
      rw [← habsent hmem, ← hver]
    · rename_i hkey
      refine byVersion_withPackage fun hmem hver => hkey ⟨hver.trans hof.version, hof.types ▸ hmem⟩
  · rw [hout.routed]
    rfl
  · rw [(hadd.swappedOut hout).modules, hs.modules]
    simp only [hgroups (_, hash)]

/-! ### Calls -/

section Calls

variable {s : EngineState Archive}

theorem persistDeployedPackage_eq_ok {store' : PackageStore Archive} {failure : Option String}
    (h : EngineState.persistDeployedPackage codecs store package failure = .ok store') :
    ∃ archive, package.toArchiveBytes codecs = .ok archive ∧
      store' = store.putPackageWithRoutes ⟨package.manifest.entryModule, package.contentHash,
          archive⟩ (declaredTypes package) := by
  unfold EngineState.persistDeployedPackage at h
  split at h
  · cases h
  · rename_i archive harch
    split at h
    · cases h
    · cases h
      exact ⟨archive, harch, by rw [declaredTypes_eq]⟩

/-- A package that was added and is stored. -/
theorem Durable.publishFresh (h : Durable codecs registration beamsOf manifestOf s)
    (htrust : Trusted codecs beamsOf manifestOf package) (hstaged : StagedLoad.new codecs package = .ok staged)
    (hread : Package.load codecs archive .unbounded = .ok package) {kept : List (ModuleName × String)}
    (hfresh : FreshlyLoaded package staged (registration.calls package kept) false loadedAt s.loader loader) :
    loader.snapshot.publishPackageRoutes package.manifest.entryModule package.contentHash =
        .ok (loader.snapshot.withRoutes (declaredTypes package) package.contentHash) ∧
      Durable codecs registration beamsOf manifestOf
        ⟨{ loader with snapshot := loader.snapshot.withRoutes (declaredTypes package) package.contentHash },
          s.store.putPackageWithRoutes ⟨package.manifest.entryModule, package.contentHash, archive⟩ (declaredTypes package)⟩ := by
  have hof := StagedLoad.of_new hstaged
  have hsnap := hfresh.snapshot
  have hmani := htrust.manifest _ (StagedLoad.canonicalDigest_of_new hstaged)
  have haccepts := h.accepts htrust hstaged hfresh.fresh hfresh.taken
  apply Durable.publish
  · rw [hsnap]
    exact h.consistent.withPackage hof hfresh.fresh htrust.beams
  · rw [hsnap]
    exact h.routes
  · refine ⟨hread, rfl, rfl, htrust.beams, hstaged, hmani, haccepts, ?_⟩
    rw [hsnap]
    exact installed_withPackage hof
  · intro key hkey hmem
    rw [hsnap] at hkey ⊢
    rcases isSome_byVersion_withPackage.mp hkey with ⟨htype, -⟩ | hold
    · exact absurd (hof.types ▸ htype) hmem
    · exact h.routed key hold
  · intro key archive' hne hlook
    obtain ⟨other, otherStaged, hother⟩ := h.stored key archive' hlook
    refine ⟨other, otherStaged, ?_⟩
    rw [hsnap]
    exact hother.withPackage hfresh.fresh (by rw [hof.version]; exact hne)
  · intro key hne hgrp
    rw [hsnap, packageGroups_withPackage, hof.version, if_neg hne] at hgrp
    exact h.grouped key hgrp

/-- A deploy keeps the store and the catalog in step. -/
theorem Durable.loadPackage (h : Durable codecs registration beamsOf manifestOf s)
    (htrust : Trusted codecs beamsOf manifestOf package) (kept : List (ModuleName × String)) (loadedAt : Instant)
    (failure : Option String) :
    Durable codecs registration beamsOf manifestOf (s.loadPackage codecs registration package kept loadedAt failure).2 := by
  unfold EngineState.loadPackage
  rcases hload : loadPackageWithMode codecs s.loader package (registration.calls package kept) false loadedAt
    with ⟨result, loader⟩
  rcases loadPackageWithMode_cases hload with ⟨⟨error, rfl⟩, hunloaded⟩ | ⟨outcome, staged, rfl,
    hstaged, hof, hcases⟩
  · exact h.of_same (.of_eq hunloaded.snapshot)
  · simp only
    cases hpersist : EngineState.persistDeployedPackage codecs s.store package failure with
    | error error =>
      rcases hcases with ⟨hold, ⟨-, -, hsnap | ⟨htrue, -⟩⟩⟩ | ⟨hnew, hfresh⟩
      · simp only [hold, Bool.false_eq_true, if_false]
        exact h.of_same (.of_eq hsnap)
      · cases htrue
      · obtain ⟨removed, next, hswap, hsame⟩ := hfresh.fresh.same_of_swappedOut h.consistent hof htrust loadedAt
        simp only [hnew, if_true, hfresh.snapshot, hswap]
        split
        · exact h.of_same hsame
        · exact h.of_same hsame
    | ok store =>
      obtain ⟨archive, harch, rfl⟩ := persistDeployedPackage_eq_ok hpersist
      have hread := htrust.archived archive harch
      rcases hcases with ⟨-, hreloaded⟩ | ⟨-, hfresh⟩
      · have hsnap : loader.snapshot = s.loader.snapshot := by
          rcases hreloaded.snapshot with hsnap | ⟨htrue, -⟩
          · exact hsnap
          · cases htrue
        have hs : Durable codecs registration beamsOf manifestOf { s with loader := loader } := h.of_same (.of_eq hsnap)
        have hsto := hs.resident htrust hstaged (hsnap ▸ hreloaded.resident) hread
        obtain ⟨hpub, hdur⟩ := Durable.publish hs.consistent hs.routes hsto (fun key hkey _ => hs.routed key hkey)
          (fun key archive _ => hs.stored key archive) fun key _ => hs.grouped key
        simp only [hpub]
        exact hdur
      · obtain ⟨hpub, hdur⟩ := h.publishFresh htrust hstaged hread hfresh
        simp only [hpub]
        exact hdur

/-- A route to what is loaded is put. -/
theorem exists_routeVersion (hloaded : (snapshot.byVersion.lookup (workflowType, version)).isSome) :
    ∃ routed, snapshot.routeVersion workflowType version = .ok { snapshot with routed := routed } ∧
      SameLookups routed (snapshot.routed.insert workflowType version) := by
  obtain ⟨entry, hent⟩ := Option.isSome_iff_exists.mp hloaded
  by_cases hrouted : snapshot.routed.lookup workflowType = some version
  · refine ⟨snapshot.routed, by simp [CatalogSnapshot.routeVersion, hent, hrouted], fun other => ?_⟩
    rw [lookup_insert_eq]
    split
    · rename_i heq
      rw [heq, hrouted]
    · rfl
  · exact ⟨_, by simp [CatalogSnapshot.routeVersion, hent, hrouted], SameLookups.refl _⟩

theorem Durable.routeWorkflowVersion (h : Durable codecs registration beamsOf manifestOf s)
    (workflowType : Text) (version : ContentHash) (failure : Option String) :
    Durable codecs registration beamsOf manifestOf
      (s.routeWorkflowVersion workflowType version failure).2 := by
  unfold EngineState.routeWorkflowVersion
  split
  · exact h
  · rename_i hsome
    have hloaded : (s.loader.snapshot.byVersion.lookup (workflowType, version)).isSome := by
      simpa [Option.isSome_iff_ne_none] using hsome
    cases failure with
    | some cause => exact h
    | none =>
      simp only
      obtain ⟨routed, hroute, hrouted⟩ := exists_routeVersion hloaded
      rw [hroute]
      refine ⟨h.consistent.withRouted fun other hash hlook => ?_, fun other => ?_, fun key hkey =>
          ?_, fun key archive hkey => ?_,
        h.grouped⟩
      · rw [hrouted, lookup_insert_eq] at hlook
        split at hlook
        · rename_i heq
          obtain rfl := Option.some.inj hlook
          exact .inr (heq ▸ hloaded)
        · exact .inl hlook
      · refine (lookup_insert_eq _ _).trans (((hrouted other).trans (lookup_insert_eq _ _)).trans ?_).symm
        rw [h.routes other]
      · change (routed.lookup key.1).isSome
        rw [hrouted, lookup_insert_eq]
        split
        · rfl
        · exact h.routed key hkey
      · obtain ⟨package, staged, hsto⟩ := h.stored key archive hkey
        exact ⟨package, staged, hsto.reinstall ⟨hsto.installed.group, hsto.installed.entries⟩⟩

theorem Durable.unloadWorkflowVersion (h : Durable codecs registration beamsOf manifestOf s)
    (workflowType : Text) (version : ContentHash) (refusal : Option LoaderError)
    (kept : List (ModuleName × String)) (failure : Option String) :
    Durable codecs registration beamsOf manifestOf
      (s.unloadWorkflowVersion workflowType version refusal kept failure).2 := by
  unfold EngineState.unloadWorkflowVersion
  split
  · exact h
  · rename_i removed next hswap
    obtain ⟨group, hout⟩ := swapOutPackage_eq_ok hswap
    have hrestored : Durable codecs registration beamsOf manifestOf
        { s with loader.snapshot := next.restorePackage removed } := h.of_same (hout.same h.consistent)
    cases refusal with
    | some error => exact hrestored
    | none =>
      cases failure with
      | some cause => exact hrestored
      | none =>
        refine ⟨h.consistent.swappedOut hout, fun workflowType => ?_, fun key hkey =>
            ?_, fun key archive hkey => ?_, fun key hkey => ?_⟩
        · change s.store.routes.lookup workflowType = next.routed.lookup workflowType
          rw [hout.routed, h.routes]
        · change (next.routed.lookup key.1).isSome
          rw [hout.routed]
          exact h.routed key (hout.isSome_of_next hkey)
        · have hlook := (lookup_erase_eq _).symm.trans hkey
          rw [hout.primary] at hlook
          split at hlook
          · cases hlook
          · rename_i hne
            obtain ⟨package, staged, hsto⟩ := h.stored key archive hlook
            refine ⟨package, staged, hsto.reinstall (hsto.installed.of_lookups ?_ fun record hrec => ?_)⟩
            · rw [hout.packageGroups_eq, hsto.primary, hsto.version, if_neg hne]
            · -- No type of another package is a member of the group.
              refine (hout.byVersion _).trans (if_neg ?_)
              rintro ⟨hver : package.contentHash = version, hmem⟩
              have hown := hsto.inGroup (hsto.mem_types hrec)
              rw [← hsto.version, hver] at hown
              have hloaded := h.consistent.loaded _ _ _ hown
              have hprim := (h.consistent.grouped _ _ hloaded).unique hown ⟨group, hout.lookup h.consistent, hmem⟩
              exact hne (Prod.ext hprim (hsto.version.symm.trans hver))
        · rw [hout.packageGroups_eq] at hkey
          change ((s.store.packages.erase (removed.primaryWorkflowType, version)).lookup key).isSome
          rw [lookup_erase_eq, hout.primary]
          split at hkey
          · cases hkey
          · rename_i hne
            rw [if_neg hne]
            exact h.grouped key hkey

/-- **What a call keeps.** -/
theorem Durable.call (h : Durable codecs registration beamsOf manifestOf s)
    {deploy : DeployCall Json} (hmay : TrustedCall codecs beamsOf manifestOf s deploy) :
    Durable codecs registration beamsOf manifestOf (s.call codecs registration deploy).2 := by
  cases deploy with
  | loadPackage package kept loadedAt failure => exact h.loadPackage hmay kept loadedAt failure
  | routeWorkflowVersion workflowType version failure =>
    exact h.routeWorkflowVersion workflowType version failure
  | unloadWorkflowVersion workflowType version refusal kept failure =>
    exact h.unloadWorkflowVersion workflowType version refusal kept failure

theorem Durable.of_reachable
    (h : Reachable (EngineState.step codecs registration)
        (TrustedCall codecs beamsOf manifestOf) .empty s) :
    Durable codecs registration beamsOf manifestOf s := by
  refine h.invariant (fun hs hmay hstep => ?_) durable_empty
  obtain rfl := Option.some.inj hstep
  exact hs.call hmay

end Calls

/-! ### The restart -/

/-- An entry, but for the time it was loaded at. -/
def CatalogEntry.undated (entry : CatalogEntry) : CatalogEntry := { entry with loadedAt := 0 }

/-- The catalogs have the same entries, groups and routes. -/
structure Agrees (snapshot live : CatalogSnapshot) : Prop where
  entries : ∀ key, (snapshot.byVersion.lookup key).map CatalogEntry.undated =
    (live.byVersion.lookup key).map CatalogEntry.undated
  packageGroups : SameLookups snapshot.packageGroups live.packageGroups
  routed : SameLookups snapshot.routed live.routed

/-- The packages of these keys are loaded again. -/
structure Reloading (beamsOf : ContentHash → BeamSet) (live : CatalogSnapshot)
    (done : List (Text × ContentHash)) (snapshot : CatalogSnapshot) : Prop where
  consistent : Consistent beamsOf snapshot
  groups : ∀ key group, snapshot.packageGroups.lookup key = some group ↔
    key ∈ done ∧ live.packageGroups.lookup key = some group
  entries : ∀ key entry, snapshot.byVersion.lookup key = some entry →
    ∃ own, live.byVersion.lookup key = some own ∧
    entry.undated = own.undated

section Reload

variable {live : CatalogSnapshot} {done : List (Text × ContentHash)}
  {clock : PackageRecord Archive → Instant}

theorem reloading_empty : Reloading beamsOf live [] .empty where
  consistent := consistent_empty
  groups key group := by simp [CatalogSnapshot.empty]
  entries key entry h := by cases h

theorem Reloading.inGroup (h : Reloading beamsOf live done snapshot) :
    InGroup snapshot workflowType primary version ↔ (primary, version) ∈ done ∧
      InGroup live workflowType primary version := by
  constructor
  · rintro ⟨group, hgrp, hmem⟩
    obtain ⟨hdone, hlive⟩ := (h.groups _ _).mp hgrp
    exact ⟨hdone, group, hlive, hmem⟩
  · rintro ⟨hdone, group, hlive, hmem⟩
    exact ⟨group, (h.groups _ _).mpr ⟨hdone, hlive⟩, hmem⟩

/-- A package that is not loaded again yet is fresh. -/
theorem Reloading.fresh (h : Reloading beamsOf live done snapshot) (hlive : Consistent beamsOf live)
    (hsto : Stored codecs registration beamsOf manifestOf live key archive package staged)
    (hnew : key ∉ done) : Fresh snapshot staged := by
  have hof := StagedLoad.of_new hsto.stage
  have hver := hof.version.trans hsto.version
  constructor
  · intro workflowType hmem
    rw [hof.types] at hmem
    by_contra hsome
    obtain ⟨primary, hgrp, -⟩ := h.consistent.grouped _ _ (Option.isSome_iff_ne_none.mpr hsome)
    obtain ⟨hdone, hother⟩ := h.inGroup.mp hgrp
    have hown := hsto.inGroup hmem
    rw [hver] at hdone hother
    have hsame := (hlive.grouped _ _ (hlive.loaded _ _ _ hown)).unique hown hother
    rw [← hsame] at hdone
    exact hnew hdone
  · intro name hname hash hlook
    obtain ⟨⟨primary, hgrp⟩, hdeployed⟩ := (h.consistent.modules _ _).mp hlook
    obtain ⟨group, hgrp⟩ := Option.isSome_iff_exists.mp hgrp
    have hother : live.registeredModules.lookup name = some hash :=
      (hlive.modules _ _).mpr ⟨⟨primary, ((h.groups _ _).mp hgrp).2 ▸ rfl⟩, hdeployed⟩
    have hown : live.registeredModules.lookup name = some key.2 := by
      refine (hlive.modules _ _).mpr ⟨⟨key.1, (hsto.inGroup (entryModule_mem_declaredTypes package)).isSome⟩, ?_⟩
      rw [hof.modules, hsto.beams, hsto.version] at hname
      exact hname
    rw [hver]
    exact Option.some.inj (hother.symm.trans hown)

/-- One more package is loaded again. -/
theorem Reloading.reload (h : Reloading beamsOf live done loader.snapshot)
    (hlive : Consistent beamsOf live)
    (hsto : Stored codecs registration beamsOf manifestOf live key archive package staged)
    (hnew : key ∉ done) :
    Reloading beamsOf live (key :: done)
      (reloadPersistedPackage codecs registration clock loader
        ⟨key.1, key.2, archive⟩).snapshot := by
  have hof := StagedLoad.of_new hsto.stage
  have hver := hof.version.trans hsto.version
  have hfresh := h.fresh hlive hsto hnew
  have htaken : Taken (registration.calls package []) loader.snapshot staged :=
    ⟨fun module hmod _ => hsto.accepts.register module hmod, hsto.accepts.verify⟩
  obtain ⟨outcome, runtime, hload⟩ :=
    loadPackageWithMode_of_fresh hsto.stage hfresh htaken true (clock ⟨key.1, key.2, archive⟩)
  have hkept : ¬ (package.contentHash ≠ key.2 ∨ package.manifest.entryModule ≠ key.1) := by
    simp [hsto.version, hsto.primary]
  simp only [reloadPersistedPackage, hsto.load, hkept, if_false, hload]
  have hkey : (package.manifest.entryModule, staged.version) = key := Prod.ext hsto.primary hver
  have hinst : Installed (loader.snapshot.withPackage staged package.manifest.entryModule true
      (clock ⟨key.1, key.2, archive⟩)) package staged := installed_withPackage hof
  refine ⟨h.consistent.withPackage hof hfresh hsto.beams, fun other group =>
      ?_, fun other entry hent => ?_⟩
  · rw [packageGroups_withPackage, hkey, List.mem_cons]
    by_cases hother : other = key
    · have hown := hsto.installed.group
      rw [hsto.primary, hsto.version] at hown
      rw [if_pos hother, hother, hof.types, hsto.primary, hown]
      exact (and_iff_right (.inl rfl)).symm
    · rw [if_neg hother, h.groups]
      simp [hother]
  · by_cases hnewEntry : other.1 ∈ staged.workflows.map StagedWorkflow.workflowType ∧
      other.2 = staged.version
    · obtain ⟨hmem, hother⟩ := hnewEntry
      rw [← staged.map_records] at hmem
      obtain ⟨record, hrec, htype⟩ := List.mem_map.mp hmem
      have heq : other = (record.workflowType, package.contentHash) := Prod.ext htype.symm (hother.trans hof.version)
      obtain ⟨loadedAt, hnow⟩ := hinst.entries record hrec
      obtain ⟨before, hbef⟩ := hsto.installed.entries record hrec
      rw [← heq] at hnow hbef
      obtain rfl := Option.some.inj (hnow.symm.trans hent)
      exact ⟨_, hbef, rfl⟩
    · rw [byVersion_withPackage fun hmem hother => hnewEntry ⟨hmem, hother⟩] at hent
      exact h.entries other entry hent

variable {records : List (PackageRecord Archive)}

/-- The packages of these records are loaded again. -/
theorem Reloading.reloadAll (h : Reloading beamsOf live done loader.snapshot)
    (hlive : Consistent beamsOf live)
    (hsto : ∀ record ∈ records, ∃ package staged,
        Stored codecs registration beamsOf manifestOf live
      (record.workflowType, record.contentHash) record.archive package staged)
    (hnd : (records.map fun record => (record.workflowType, record.contentHash)).Nodup)
    (hnew : ∀ record ∈ records, (record.workflowType, record.contentHash) ∉ done) :
    Reloading beamsOf live ((records.map fun record =>
        (record.workflowType, record.contentHash)).reverse ++ done)
      (records.foldl (reloadPersistedPackage codecs registration clock) loader).snapshot := by
  induction records generalizing done loader with
  | nil => exact h
  | cons record rest ih =>
    obtain ⟨⟨package, staged, hrec⟩, hsto⟩ := List.forall_mem_cons.mp hsto
    obtain ⟨hfst, hnd⟩ := List.nodup_cons.mp hnd
    obtain ⟨hnewFirst, hnew⟩ := List.forall_mem_cons.mp hnew
    have hnext : Reloading beamsOf live ((record.workflowType, record.contentHash) :: done)
        (reloadPersistedPackage codecs registration clock loader record).snapshot := h.reload hlive hrec hnewFirst
    rw [List.map_cons, List.reverse_cons, List.append_assoc]
    refine ih hnext hsto hnd fun other hother hmem => ?_
    rcases List.mem_cons.mp hmem with heq | hmem
    · exact hfst (List.mem_map.mpr ⟨other, hother, heq⟩)
    · exact hnew other hother hmem

/-- Routes to what is loaded are put back over the others. -/
theorem restorePersistedRoutes_eq {routes : List PackageRouteRecord} {target : Map Text ContentHash}
    (htgt : ∀ route ∈ routes, target.lookup route.workflowType = some route.contentHash)
    (hloaded : ∀ route ∈ routes, (snapshot.byVersion.lookup
        (route.workflowType, route.contentHash)).isSome) :
    ∃ routed, restorePersistedRoutes snapshot routes = { snapshot with routed := routed } ∧
      (∀ workflowType ∈ routes.map PackageRouteRecord.workflowType,
        routed.lookup workflowType = target.lookup workflowType) ∧
      ∀ workflowType ∉ routes.map PackageRouteRecord.workflowType,
        routed.lookup workflowType = snapshot.routed.lookup workflowType := by
  induction routes generalizing snapshot with
  | nil => exact ⟨snapshot.routed, rfl, by simp, fun _ _ => rfl⟩
  | cons route rest ih =>
    obtain ⟨htargetFirst, htgt⟩ := List.forall_mem_cons.mp htgt
    obtain ⟨hloadedFirst, hloaded⟩ := List.forall_mem_cons.mp hloaded
    obtain ⟨routed, hroute, hrouted⟩ := exists_routeVersion hloadedFirst
    have hnext : ∀ other ∈ rest, (CatalogSnapshot.byVersion { snapshot with routed := routed }).lookup
        (other.workflowType, other.contentHash) |>.isSome := hloaded
    obtain ⟨final, hfinal, hin, hout⟩ := ih htgt hnext
    have hfst : routed.lookup route.workflowType = target.lookup route.workflowType := by
      rw [hrouted, AList.lookup_insert, htargetFirst]
    refine ⟨final, ?_, fun workflowType hmem => ?_, fun workflowType hnot => ?_⟩
    · simp only [restorePersistedRoutes, List.foldl_cons, hroute]
      exact hfinal
    · by_cases hrest : workflowType ∈ rest.map PackageRouteRecord.workflowType
      · exact hin workflowType hrest
      · obtain rfl := (List.mem_cons.mp hmem).resolve_right hrest
        exact (hout _ hrest).trans hfst
    · obtain ⟨hne, hrest⟩ := not_or.mp (mt List.mem_cons.mpr hnot)
      refine (hout workflowType hrest).trans ((hrouted workflowType).trans ?_)
      exact AList.lookup_insert_ne hne

/-- All packages are loaded again. -/
theorem Durable.reloadAll {s : EngineState Archive}
    (h : Durable codecs registration beamsOf manifestOf s)
    (hrecords : records.Perm s.store.listPackages) (clock : PackageRecord Archive → Instant) :
    ∃ done, (∀ key, key ∈ done ↔ (s.loader.snapshot.packageGroups.lookup key).isSome) ∧
      Reloading beamsOf s.loader.snapshot done
        (records.foldl (reloadPersistedPackage codecs registration clock)
        ⟨.empty, ∅⟩).snapshot := by
  have hmem : ∀ record, record ∈ records ↔
      s.store.packages.lookup (record.workflowType, record.contentHash) = some record.archive := by
    intro record
    rw [hrecords.mem_iff, PackageStore.listPackages, List.mem_map]
    constructor
    · rintro ⟨⟨key, archive⟩, hent, rfl⟩
      exact AList.mem_lookup_iff.mpr hent
    · exact fun hlook => ⟨_, AList.mem_lookup_iff.mp hlook, rfl⟩
  have hnd : (records.map fun record => (record.workflowType, record.contentHash)).Nodup := by
    refine (hrecords.map _).nodup_iff.mpr ?_
    rw [PackageStore.listPackages, List.map_map]
    exact s.store.packages.nodupKeys
  have hsto : ∀ record ∈ records, ∃ package staged,
    Stored codecs registration beamsOf manifestOf s.loader.snapshot
      (record.workflowType, record.contentHash) record.archive package staged :=
    fun record hrec => h.stored _ _ ((hmem record).mp hrec)
  refine ⟨_, fun key => ?_, reloading_empty.reloadAll h.consistent hsto hnd fun _ _ =>
      List.not_mem_nil⟩
  rw [List.append_nil, List.mem_reverse, List.mem_map]
  constructor
  · rintro ⟨record, hrec, rfl⟩
    obtain ⟨package, staged, hsto⟩ := hsto record hrec
    exact (hsto.inGroup (entryModule_mem_declaredTypes package)).isSome
  · intro hgrp
    obtain ⟨archive, harch⟩ := Option.isSome_iff_exists.mp (h.grouped key hgrp)
    exact ⟨⟨key.1, key.2, archive⟩, (hmem _).mpr harch, rfl⟩

/-- What is loaded again is what was loaded. -/
theorem Reloading.agrees (h : Reloading beamsOf live done snapshot)
    (hlive : Consistent beamsOf live)
    (hdone : ∀ key, key ∈ done ↔ (live.packageGroups.lookup key).isSome) :
    (∀ key, (snapshot.byVersion.lookup key).map CatalogEntry.undated =
        (live.byVersion.lookup key).map CatalogEntry.undated) ∧
      SameLookups snapshot.packageGroups live.packageGroups := by
  constructor
  · intro key
    cases hent : snapshot.byVersion.lookup key with
    | some entry =>
      obtain ⟨own, hown, hundated⟩ := h.entries key entry hent
      rw [hown, Option.map_some, Option.map_some, hundated]
    | none =>
      cases hown : live.byVersion.lookup key with
      | none => rfl
      | some own =>
        obtain ⟨primary, hgrp, -⟩ := hlive.grouped key.1 key.2 (hown ▸ rfl)
        have hloaded := h.consistent.loaded _ _ _ (h.inGroup.mpr ⟨(hdone _).mpr hgrp.isSome, hgrp⟩)
        rw [hent] at hloaded
        cases hloaded
  · intro key
    refine Option.ext fun group => (h.groups key group).trans (and_iff_right_of_imp fun hlook => ?_)
    exact (hdone key).mpr (Option.isSome_iff_exists.mpr ⟨group, hlook⟩)

end Reload

/-- **Deploys survive a restart**: whatever order the store lists its packages and routes in, the
catalog that is loaded from it has the entries, the groups and the routes of the one that was
live. -/
theorem deploys_survive_restart {s : EngineState Archive}
    (h : Reachable (EngineState.step codecs registration)
        (TrustedCall codecs beamsOf manifestOf) .empty s) {records : List (PackageRecord Archive)}
    (hrecords : records.Perm s.store.listPackages) {routes : List PackageRouteRecord}
    (hroutes : routes.Perm s.store.listPackageRoutes) (clock : PackageRecord Archive → Instant) :
    Agrees (reloadPersistedPackages codecs registration clock records routes).snapshot
      s.loader.snapshot := by
  have hdur := Durable.of_reachable h
  obtain ⟨done, hdone, hreloading⟩ := hdur.reloadAll hrecords clock
  obtain ⟨hents, hgroups⟩ := hreloading.agrees hdur.consistent hdone
  have hsome : ∀ key, ((records.foldl (reloadPersistedPackage codecs registration clock)
      ⟨.empty, ∅⟩).snapshot.byVersion.lookup
      key).isSome ↔ (s.loader.snapshot.byVersion.lookup key).isSome := by
    intro key
    rw [← Option.isSome_map, hents key, Option.isSome_map]
  have hlist : ∀ route, route ∈ routes ↔ s.store.routes.lookup route.workflowType = some route.contentHash := by
    intro route
    rw [hroutes.mem_iff, PackageStore.listPackageRoutes, List.mem_map]
    constructor
    · rintro ⟨⟨workflowType, version⟩, hent, rfl⟩
      exact AList.mem_lookup_iff.mpr hent
    · exact fun hlook => ⟨_, AList.mem_lookup_iff.mp hlook, rfl⟩
  have hloaded : ∀ route ∈ routes, ((records.foldl
      (reloadPersistedPackage codecs registration clock)
      ⟨.empty, ∅⟩).snapshot.byVersion.lookup (route.workflowType, route.contentHash)).isSome := by
    intro route hroute
    refine (hsome _).mpr (hdur.consistent.routed _ _ ?_)
    rw [← hdur.routes]
    exact (hlist route).mp hroute
  obtain ⟨routed, hrestored, hin, hout⟩ :=
    restorePersistedRoutes_eq (fun route hroute => (hlist route).mp hroute) hloaded
  simp only [reloadPersistedPackages, hrestored]
  refine ⟨hents, hgroups, fun workflowType => ?_⟩
  rw [← hdur.routes]
  by_cases hmem : workflowType ∈ routes.map PackageRouteRecord.workflowType
  · exact hin workflowType hmem
  · -- A type without a stored route is not loaded, so the loads have not routed it either.
    have hnone : s.store.routes.lookup workflowType = none := by
      by_contra hne
      obtain ⟨version, hver⟩ := Option.ne_none_iff_exists'.mp hne
      exact hmem (List.mem_map.mpr ⟨⟨workflowType, version⟩, (hlist _).mpr hver, rfl⟩)
    refine (hout workflowType hmem).trans (Eq.trans ?_ hnone.symm)
    by_contra hne
    obtain ⟨version, hver⟩ := Option.ne_none_iff_exists'.mp hne
    have hlive := hdur.routed _ ((hsome _).mp (hreloading.consistent.routed _ _ hver))
    rw [← hdur.routes, hnone] at hlive
    cases hlive

/-- Every module is taken, and every entry verified. -/
def Registration.all : Registration := ⟨fun _ _ => none, fun _ _ => none⟩

/-- The manifests of the sample by their digests. -/
def pairManifestOf (digest : ManifestDigest) : Manifest Bool :=
  if digest = digestOf 0x21e7d125b959156d041b7e4e922d66a0c3a63ca160435edac699c2a124aa2477 then
    laterPair.manifest
  else if digest = digestOf 0xa0c41cf38cfc903af9748e1185d1c7fc8d02bfacfbdc8447a8482439d20e49e9 then
    secondPair.manifest
  else firstPair.manifest

/-- The third package of the sample takes the routes of the first, and one of them goes back. A
deploy that the store rejects and an unload of a package that is routed change nothing. -/
def pairDeploys : List (DeployCall Bool) :=
  [.loadPackage firstPair [] 0 none, .loadPackage laterPair [] 1 none,
      .routeWorkflowVersion firstName pairVersion none,
    .loadPackage firstPair [] 2 (some "disk full"),
      .unloadWorkflowVersion secondName laterVersion none [] none]

theorem deploys_survive_restart_pair : ∃ s, run (EngineState.step pairCodecs .all)
      (TrustedCall pairCodecs pairBeamsOf pairManifestOf) .empty pairDeploys = some s ∧
    Agrees (reloadPersistedPackages pairCodecs .all (fun _ => 3) s.store.listPackages.reverse
      s.store.listPackageRoutes.reverse).snapshot s.loader.snapshot := by
  have hrun : (run (EngineState.step pairCodecs .all)
      (TrustedCall pairCodecs pairBeamsOf pairManifestOf) .empty pairDeploys).isSome = true := by decide +kernel
  obtain ⟨s, hs⟩ := Option.isSome_iff_exists.mp hrun
  exact ⟨s, hs, deploys_survive_restart (reachable_of_run hs) (List.reverse_perm _)
      (List.reverse_perm _) fun _ => 3⟩

end Aion.Loader
