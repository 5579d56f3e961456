import Aion.Loader.Catalog

/-!
# What the operations of the catalog do

A load fails and changes nothing, finds the package loaded, or adds it
(`loadPackageWithMode_cases`). A swap-out takes one group out, with the modules that no other group
of its hash has (`swapOutPackage_eq_ok`).
-/

namespace Aion.Loader

open Packaging FiniteMaps

variable {Archive Writer Json : Type} {codecs : Codecs Archive Writer Json} {package : Package Json}
  {staged : StagedLoad}
  {snapshot : CatalogSnapshot} {calls : LoadCalls} {runtime base : Finset ModuleName}

/-! ### Staging -/

/-- The types that a package declares. -/
def declaredTypes (package : Package Json) : List Text :=
  (manifestEntries package.manifest).map Prod.fst

/-- The names that modules are deployed under at a version. -/
def deployedNames (beams : BeamSet) (version : ContentHash) : List ModuleName :=
  beams.modules.map fun module => deployedName module.name version

variable {registered names : List ModuleName} {runtime' : Finset ModuleName}
  {byVersion : Map (Text × ContentHash) CatalogEntry}
  {groups : Map (Text × ContentHash) PackageGroup} {workflows : List StagedWorkflow}
  {modules : List StagedModule} {publishRoutes : Bool} {next : CatalogSnapshot}
  {version hash : ContentHash} {state state' : LoaderState} {removed : RemovedPackage}
  {primary workflowType : Text} {loadedAt : Instant} {name : ModuleName} {types : List Text}

theorem stageWorkflows_eq_ok {seen : List Text}
    {entries : List (Text × Text × Text × Option Duration)}
    (h : stageWorkflows codecs package seen entries = .ok workflows) :
    workflows.map StagedWorkflow.workflowType = entries.map Prod.fst ∧
      (entries.map Prod.fst).Nodup ∧
      ∀ workflowType ∈ entries.map Prod.fst, workflowType ∉ seen := by
  induction entries generalizing seen workflows with
  | nil =>
    cases h
    simp
  | cons entry rest ih =>
    obtain ⟨workflowType, entryModule, entryFunction, entryTimeout⟩ := entry
    simp only [stageWorkflows] at h
    split at h
    · cases h
    · rename_i hseen
      split at h
      · cases h
      · split at h
        · cases h
        · rename_i left hleft
          cases h
          obtain ⟨htypes, hnd, hfresh⟩ := ih hleft
          refine ⟨by simp [htypes], List.nodup_cons.mpr ⟨fun hmem => ?_, hnd⟩, List.forall_mem_cons.mpr ⟨hseen, ?_⟩⟩
          · exact hfresh workflowType hmem List.mem_cons_self
          · exact fun other hother hseen => hfresh other hother (List.mem_cons_of_mem _ hseen)

/-- What a package is staged as. -/
structure StagedLoad.Of (staged : StagedLoad) (package : Package Json) : Prop where
  types : staged.workflows.map StagedWorkflow.workflowType = declaredTypes package
  nodup : (declaredTypes package).Nodup
  version : staged.version = package.contentHash
  modules : staged.modules.map StagedModule.deployedName =
    deployedNames package.beams package.contentHash

theorem StagedLoad.of_new (h : StagedLoad.new codecs package = .ok staged) : staged.Of package := by
  unfold StagedLoad.new at h
  split at h
  · cases h
  · rename_i workflows hworkflows
    split at h
    · cases h
    · cases h
      obtain ⟨htypes, hnd, -⟩ := stageWorkflows_eq_ok hworkflows
      exact ⟨htypes, hnd, rfl, by simp [Package.deployedModules, deployedNames, deployedName]⟩

theorem entryModule_mem_declaredTypes (package : Package Json) :
    package.manifest.entryModule ∈ declaredTypes package :=
  List.mem_cons_self

theorem StagedLoad.map_records (staged : StagedLoad) :
    staged.records.map LoadedWorkflow.workflowType =
      staged.workflows.map StagedWorkflow.workflowType := by
  simp [StagedLoad.records]

/-- A package has at least the entry of its manifest. -/
theorem StagedLoad.Of.exists_head? (h : staged.Of package) :
    ∃ record, staged.records.head? = some record := by
  refine Option.ne_none_iff_exists'.mp fun hhead => ?_
  have hmem := entryModule_mem_declaredTypes package
  rw [← h.types, ← staged.map_records, List.head?_eq_none_iff.mp hhead] at hmem
  cases hmem

/-- The names of a staged package are free, or registered for its own version. -/
theorem validateStagedModuleNames_eq_ok_iff : snapshot.validateStagedModuleNames staged = .ok () ↔
    ∀ name ∈ staged.modules.map StagedModule.deployedName, ∀ hash,
      snapshot.registeredModules.lookup name = some hash → hash = staged.version := by
  unfold CatalogSnapshot.validateStagedModuleNames
  constructor
  · intro h name hname hash hhash
    obtain ⟨module, hmod, rfl⟩ := List.mem_map.mp hname
    split at h
    · rename_i hnone
      have hskip := List.filterMap_eq_nil_iff.mp hnone module hmod
      by_contra hne
      simp [hhash, hne] at hskip
    · cases h
  · intro hnames
    have hnone : staged.modules.filterMap
      (fun module => (snapshot.registeredModules.lookup module.deployedName).bind
        fun existing => if existing = staged.version then none else some (module, existing)) = [] := by
      refine List.filterMap_eq_nil_iff.mpr fun module hmod => Option.bind_eq_none_iff.mpr fun hash hhash => ?_
      exact if_pos (hnames _ (List.mem_map_of_mem hmod) hash hhash)
    rw [hnone]

/-! ### Registering and taking back -/

theorem mem_rollbackRegistered (hroll : calls.rollback = []) :
    name ∈ (rollbackRegistered calls names runtime).2 ↔ name ∈ runtime ∧ name ∉ names := by
  induction names generalizing runtime with
  | nil => simp [rollbackRegistered]
  | cons first rest ih =>
    simp only [rollbackRegistered, hroll, List.lookup_nil]
    rw [ih, Finset.mem_erase, List.mem_cons]
    tauto

/-- These names were added. -/
structure Added (base : Finset ModuleName) (names : List ModuleName) (runtime : Finset ModuleName) :
    Prop where
  fresh : ∀ name ∈ names, name ∉ base
  mem_iff : ∀ name, name ∈ runtime ↔ name ∈ base ∨ name ∈ names

theorem Added.rollback (h : Added base names runtime) (hroll : calls.rollback = []) :
    (rollbackRegistered calls names runtime).2 = base := by
  ext name
  rw [mem_rollbackRegistered hroll, h.mem_iff]
  have hfresh := h.fresh name
  tauto

theorem Added.cons {names : List ModuleName} (h : Added base names runtime) {name : ModuleName}
    (hname : name ∉ base) : Added base (name :: names) (insert name runtime) := by
  refine ⟨List.forall_mem_cons.mpr ⟨hname, h.fresh⟩, fun other => ?_⟩
  rw [Finset.mem_insert, h.mem_iff, List.mem_cons]
  tauto

variable {result : Except LoaderError (List ModuleName)}

/-- Modules that are not registered yet are added, or none is. -/
theorem registerStagedModules_cases (hroll : calls.rollback = [])
    (h : Added base registered runtime)
    (hbase : ∀ module ∈ modules, snapshot.registeredModules.lookup module.deployedName = none →
        module.deployedName ∉ base)
    (hregs : registerStagedModules calls snapshot modules registered runtime = (result, runtime')) :
    ((∃ error, result = .error error) ∧ runtime' = base) ∨
      ∃ names, result = .ok names ∧ Added base names runtime' ∧ ∀ name, name ∈ names ↔
        name ∈ registered ∨ name ∈ modules.map StagedModule.deployedName ∧
          snapshot.registeredModules.lookup name = none := by
  induction modules generalizing registered runtime with
  | nil =>
    obtain ⟨rfl, rfl⟩ := Prod.mk.inj hregs
    exact .inr ⟨registered, rfl, h, by simp⟩
  | cons module rest ih =>
    obtain ⟨hmod, hrest⟩ := List.forall_mem_cons.mp hbase
    simp only [registerStagedModules] at hregs
    split at hregs
    · rename_i hsome
      have hnot : snapshot.registeredModules.lookup module.deployedName ≠ none := Option.isSome_iff_ne_none.mp hsome
      refine (ih h hrest hregs).imp_right ?_
      rintro ⟨names, hres, hadd, hnames⟩
      refine ⟨names, hres, hadd, fun name => (hnames name).trans ?_⟩
      rw [List.map_cons, List.mem_cons]
      constructor
      · tauto
      · rintro (hname | ⟨rfl | hname, hnone⟩)
        · exact .inl hname
        · exact absurd hnone hnot
        · exact .inr ⟨hname, hnone⟩
    · rename_i hsome
      have hnone : snapshot.registeredModules.lookup module.deployedName = none := Option.not_isSome_iff_eq_none.mp hsome
      split at hregs
      · obtain ⟨rfl, rfl⟩ := Prod.mk.inj hregs
        exact .inl ⟨⟨_, rfl⟩, h.rollback hroll⟩
      · refine (ih (h.cons (hmod hnone)) hrest hregs).imp_right ?_
        rintro ⟨names, hres, hadd, hnames⟩
        refine ⟨names, hres, hadd, fun name => (hnames name).trans ?_⟩
        rw [List.map_cons, List.mem_cons, List.mem_cons]
        constructor
        · rintro ((rfl | hname) | ⟨hname, hlook⟩)
          · exact .inr ⟨.inl rfl, hnone⟩
          · exact .inl hname
          · exact .inr ⟨.inr hname, hlook⟩
        · tauto

/-- Modules are registered unless one is rejected that was not registered yet. -/
theorem registerStagedModules_eq_ok
    (h : registerStagedModules calls snapshot modules registered runtime = (.ok names, runtime')) :
    ∀ module ∈ modules, snapshot.registeredModules.lookup module.deployedName = none →
      calls.register module = none := by
  induction modules generalizing registered runtime with
  | nil => simp
  | cons module rest ih =>
    simp only [registerStagedModules] at h
    refine List.forall_mem_cons.mpr ?_
    split at h
    · rename_i hsome
      exact ⟨fun hnone => by simp [hnone] at hsome, ih h⟩
    · split at h
      · cases h
      · rename_i hregs
        exact ⟨fun _ => hregs, ih h⟩

theorem exists_registerStagedModules
    (h : ∀ module ∈ modules, snapshot.registeredModules.lookup module.deployedName = none →
        calls.register module = none) :
    ∃ names runtime', registerStagedModules calls snapshot modules registered runtime =
      (.ok names, runtime') := by
  induction modules generalizing registered runtime with
  | nil => exact ⟨registered, runtime, rfl⟩
  | cons module rest ih =>
    obtain ⟨hmod, hrest⟩ := List.forall_mem_cons.mp h
    simp only [registerStagedModules]
    split
    · exact ih hrest
    · rename_i hsome
      rw [hmod (Option.not_isSome_iff_eq_none.mp hsome)]
      exact ih hrest

theorem verifyStagedEntries_eq_ok_iff :
    verifyStagedEntries calls registered runtime workflows = (.ok (), runtime') ↔
      (∀ workflow ∈ workflows, calls.verify workflow = none) ∧ runtime' = runtime := by
  induction workflows with
  | nil => simp [verifyStagedEntries, eq_comm]
  | cons workflow rest ih =>
    simp only [verifyStagedEntries, List.forall_mem_cons]
    split
    · rename_i hverify
      simp [hverify]
    · rename_i hverify
      rw [ih]
      simp [hverify]

theorem verifyStagedEntries_cases (hroll : calls.rollback = []) (h : Added base registered runtime)
    {result : Except LoaderError Unit}
    (hverify : verifyStagedEntries calls registered runtime workflows = (result, runtime')) :
    ((∃ error, result = .error error) ∧ runtime' = base) ∨ result = .ok () ∧
      runtime' = runtime := by
  induction workflows with
  | nil =>
    obtain ⟨rfl, rfl⟩ := Prod.mk.inj hverify
    exact .inr ⟨rfl, rfl⟩
  | cons workflow rest ih =>
    simp only [verifyStagedEntries] at hverify
    split at hverify
    · obtain ⟨rfl, rfl⟩ := Prod.mk.inj hverify
      exact .inl ⟨⟨_, rfl⟩, h.rollback hroll⟩
    · exact ih hverify

/-! ### Loads -/

/-- The runtime has the modules that are registered. -/
def Holds (runtime : Finset ModuleName) (snapshot : CatalogSnapshot) : Prop :=
  ∀ name, name ∈ runtime ↔ (snapshot.registeredModules.lookup name).isSome

theorem resolveExistingLoad_eq_none_iff :
    snapshot.resolveExistingLoad staged publishRoutes = .ok none ↔
      ∀ workflowType ∈ staged.workflows.map StagedWorkflow.workflowType,
        snapshot.byVersion.lookup (workflowType, staged.version) = none := by
  constructor
  · intro h workflowType hmem
    obtain ⟨workflow, hwf, rfl⟩ := List.mem_map.mp hmem
    simp only [CatalogSnapshot.resolveExistingLoad] at h
    split at h
    · rename_i hnone
      exact List.filterMap_eq_nil_iff.mp hnone workflow hwf
    · split at h
      · cases h
      · split at h
        · cases h
        · cases h
  · intro habsent
    have hnone : staged.workflows.filterMap (fun workflow =>
        snapshot.byVersion.lookup (workflow.workflowType, staged.version)) = [] :=
      List.filterMap_eq_nil_iff.mpr fun workflow hwf => habsent _ (List.mem_map_of_mem hwf)
    simp only [CatalogSnapshot.resolveExistingLoad, hnone]

/-- The package is loaded already. -/
def Resident (snapshot : CatalogSnapshot) (staged : StagedLoad) : Prop :=
  ∀ workflowType ∈ staged.workflows.map StagedWorkflow.workflowType, ∃ entry,
    snapshot.byVersion.lookup (workflowType, staged.version) = some entry ∧
      entry.manifestDigest = staged.manifestDigest

theorem resolveExistingLoad_eq_some {outcome : LoadOutcome}
    (h : snapshot.resolveExistingLoad staged publishRoutes = .ok (some (outcome, next))) :
    outcome.freshlyLoaded = false ∧ Resident snapshot staged ∧
      (next = snapshot ∨ publishRoutes = true ∧
        next = snapshot.withRoutes (staged.workflows.map StagedWorkflow.workflowType)
          staged.version) := by
  simp only [CatalogSnapshot.resolveExistingLoad] at h
  split at h
  · cases h
  · rename_i first rest hexisting
    split at h
    · cases h
    · rename_i hlen
      split at h
      · cases h
      · rename_i hdigest
        obtain ⟨rfl, rfl⟩ := Prod.mk.inj (Option.some.inj (Except.ok.inj h))
        refine ⟨rfl, ?_, ?_⟩
        · intro workflowType hmem
          obtain ⟨workflow, hwf, rfl⟩ := List.mem_map.mp hmem
          -- As many were found as there are, so none was missed.
          have hall := List.filterMap_length_eq_length.mp (not_not.mp hlen) workflow hwf
          obtain ⟨entry, hent⟩ := Option.isSome_iff_exists.mp hall
          refine ⟨entry, hent, ?_⟩
          by_contra hne
          exact hdigest (List.any_eq_true.mpr ⟨entry, List.mem_filterMap.mpr ⟨workflow, hwf, hent⟩, by simp [hne]⟩)
        · split
          · rename_i hpub
            exact .inr ⟨(Bool.and_eq_true_iff.mp hpub).1, rfl⟩
          · exact .inl rfl

/-- The catalog has none of the types at the version, and no other version has the names. -/
structure Fresh (snapshot : CatalogSnapshot) (staged : StagedLoad) : Prop where
  absent : ∀ workflowType ∈ staged.workflows.map StagedWorkflow.workflowType,
    snapshot.byVersion.lookup (workflowType, staged.version) = none
  names : ∀ name ∈ staged.modules.map StagedModule.deployedName, ∀ hash,
    snapshot.registeredModules.lookup name = some hash → hash = staged.version

/-- The runtime takes the modules that are not registered yet, and the entries are verified. -/
structure Taken (calls : LoadCalls) (snapshot : CatalogSnapshot) (staged : StagedLoad) : Prop where
  register : ∀ module ∈ staged.modules,
    snapshot.registeredModules.lookup module.deployedName = none →
    calls.register module = none
  verify : ∀ workflow ∈ staged.workflows, calls.verify workflow = none

theorem Holds.withPackage (h : Holds base snapshot) (hadd : Added base names runtime)
    (hnames : ∀ name, name ∈ names ↔ name ∈ ([] : List ModuleName) ∨
        name ∈ staged.modules.map StagedModule.deployedName ∧
      snapshot.registeredModules.lookup name = none) :
    Holds runtime (snapshot.withPackage staged primary publishRoutes loadedAt) := by
  intro name
  rw [hadd.mem_iff, h name, hnames name]
  refine Iff.trans ?_ isSome_lookup_insertAbsent.symm
  cases snapshot.registeredModules.lookup name <;> simp

/-- The runtime has the modules that are registered, and no others where every rollback takes all
back. -/
structure Stocks (exact : Prop) (runtime : Finset ModuleName) (snapshot : CatalogSnapshot) :
    Prop where
  registered : ∀ name, (snapshot.registeredModules.lookup name).isSome → name ∈ runtime
  only : exact → Holds runtime snapshot

/-- A rollback takes back nothing but what it is asked to. -/
theorem mem_rollbackRegistered_of_notMem (hnot : name ∉ names) (hmem : name ∈ runtime) :
    name ∈ (rollbackRegistered calls names runtime).2 := by
  induction names generalizing runtime with
  | nil => exact hmem
  | cons first rest ih =>
    obtain ⟨hne, hrest⟩ := not_or.mp (List.mem_cons.not.mp hnot)
    simp only [rollbackRegistered]
    split
    · exact ih hrest (Finset.mem_erase.mpr ⟨hne, hmem⟩)
    · exact ih hrest hmem

/-- Modules that are registered already stay; if all is taken, so is every module that was not. -/
theorem registerStagedModules_keeps
    (hnew : ∀ name ∈ registered, snapshot.registeredModules.lookup name = none)
    (h : registerStagedModules calls snapshot modules registered runtime = (result, runtime')) :
    (∀ name, (snapshot.registeredModules.lookup name).isSome → name ∈ runtime → name ∈ runtime') ∧
      ∀ names, result = .ok names → (∀ name ∈ names, snapshot.registeredModules.lookup name =
          none) ∧ runtime ⊆ runtime' ∧
        ∀ module ∈ modules, snapshot.registeredModules.lookup module.deployedName = none →
          module.deployedName ∈ runtime' := by
  induction modules generalizing registered runtime with
  | nil =>
    obtain ⟨rfl, rfl⟩ := Prod.mk.inj h
    refine ⟨fun _ _ hmem => hmem, fun names hnames => ?_⟩
    cases hnames
    exact ⟨hnew, subset_rfl, by simp⟩
  | cons module rest ih =>
    simp only [registerStagedModules] at h
    split at h
    · rename_i hsome
      refine (ih hnew h).imp_right fun hok names hnames => (hok names hnames).imp_right (And.imp_right fun hrest => ?_)
      exact List.forall_mem_cons.mpr ⟨fun hnone => by simp [hnone] at hsome, hrest⟩
    · rename_i hsome
      have hnone : snapshot.registeredModules.lookup module.deployedName = none := Option.not_isSome_iff_eq_none.mp hsome
      split at h
      · obtain ⟨rfl, rfl⟩ := Prod.mk.inj h
        refine ⟨fun name hreg hmem => mem_rollbackRegistered_of_notMem (fun hname => ?_) hmem, nofun⟩
        rw [hnew name hname] at hreg
        cases hreg
      · obtain ⟨hkept, hok⟩ := ih (List.forall_mem_cons.mpr ⟨hnone, hnew⟩) h
        refine ⟨fun name hreg hmem => hkept name hreg (Finset.mem_insert_of_mem hmem), fun names hnames => ?_⟩
        obtain ⟨hnames, hsubset, hrest⟩ := hok names hnames
        exact ⟨hnames, (Finset.subset_insert _ _).trans hsubset,
          List.forall_mem_cons.mpr ⟨fun _ => hsubset (Finset.mem_insert_self _ _), hrest⟩⟩

theorem verifyStagedEntries_keeps (hnot : name ∉ registered) (hmem : name ∈ runtime)
    {result : Except LoaderError Unit}
    (h : verifyStagedEntries calls registered runtime workflows = (result, runtime')) :
    name ∈ runtime' := by
  induction workflows with
  | nil =>
    obtain ⟨-, rfl⟩ := Prod.mk.inj h
    exact hmem
  | cons workflow rest ih =>
    simp only [verifyStagedEntries] at h
    split at h
    · obtain ⟨-, rfl⟩ := Prod.mk.inj h
      exact mem_rollbackRegistered_of_notMem hnot hmem
    · exact ih h

/-- **No load takes a registered module**, whatever rollbacks leave behind. -/
theorem registered_of_load {result : Except LoaderError LoadOutcome}
    (hreg : ∀ name, (state.snapshot.registeredModules.lookup name).isSome → name ∈ state.runtime)
    (h : loadPackageWithMode codecs state package calls publishRoutes loadedAt = (result, state')) :
    ∀ name, (state'.snapshot.registeredModules.lookup name).isSome → name ∈ state'.runtime := by
  unfold loadPackageWithMode at h
  split at h
  · obtain ⟨-, rfl⟩ := Prod.mk.inj h
    exact hreg
  · split at h
    · obtain ⟨-, rfl⟩ := Prod.mk.inj h
      exact hreg
    · split at h
      · obtain ⟨-, rfl⟩ := Prod.mk.inj h
        exact hreg
      · rename_i outcome snapshot hresident
        obtain ⟨-, rfl⟩ := Prod.mk.inj h
        obtain ⟨-, -, rfl | ⟨-, rfl⟩⟩ := resolveExistingLoad_eq_some hresident
        · exact hreg
        · exact hreg
      · split at h
        · rename_i error runtime hregs
          obtain ⟨-, rfl⟩ := Prod.mk.inj h
          exact fun name hname => (registerStagedModules_keeps (by simp) hregs).1 name hname (hreg name hname)
        · rename_i names runtime hregs
          obtain ⟨hkept, hok⟩ := registerStagedModules_keeps (by simp) hregs
          obtain ⟨hnew, -, htaken⟩ := hok names rfl
          have hnot : ∀ name, (state.snapshot.registeredModules.lookup name).isSome → name ∉ names := by
            intro name hname hmem
            rw [hnew name hmem] at hname
            cases hname
          split at h
          · rename_i error runtime' hverify
            obtain ⟨-, rfl⟩ := Prod.mk.inj h
            exact fun name hname => verifyStagedEntries_keeps (hnot name hname) (hkept name hname (hreg name hname)) hverify
          · rename_i runtime' hverify
            obtain ⟨-, rfl⟩ := verifyStagedEntries_eq_ok_iff.mp hverify
            split at h
            · obtain ⟨-, rfl⟩ := Prod.mk.inj h
              exact fun name hname => hkept name hname (hreg name hname)
            · obtain ⟨-, rfl⟩ := Prod.mk.inj h
              intro name hname
              by_cases hold : (state.snapshot.registeredModules.lookup name).isSome
              · exact hkept name hold (hreg name hold)
              · have hmem := (isSome_lookup_insertAbsent.mp hname).resolve_left hold
                obtain ⟨module, hmod, rfl⟩ := List.mem_map.mp hmem
                exact htaken module hmod (Option.not_isSome_iff_eq_none.mp hold)

/-- A load that fails leaves the snapshot; the runtime as well, if it had the registered modules and
rollbacks succeed. -/
structure Unloaded (calls : LoadCalls) (state state' : LoaderState) : Prop where
  snapshot : state'.snapshot = state.snapshot
  runtime : calls.rollback = [] → Holds state.runtime state.snapshot →
    state'.runtime = state.runtime

theorem Unloaded.eq (h : Unloaded calls state state') (hroll : calls.rollback = [])
    (hholds : Holds state.runtime state.snapshot) : state' = state := by
  cases state'
  obtain rfl := h.snapshot
  obtain rfl := h.runtime hroll hholds
  rfl

/-- The package was loaded before, and its routes may be published. -/
structure Reloaded (package : Package Json) (staged : StagedLoad) (publishRoutes : Bool)
    (state state' : LoaderState) : Prop where
  resident : Resident state.snapshot staged
  runtime : state'.runtime = state.runtime
  snapshot : state'.snapshot = state.snapshot ∨ publishRoutes = true ∧
    state'.snapshot = state.snapshot.withRoutes (declaredTypes package) package.contentHash

/-- The package is added. -/
structure FreshlyLoaded (package : Package Json) (staged : StagedLoad) (calls : LoadCalls)
    (publishRoutes : Bool) (loadedAt : Instant) (state state' : LoaderState) : Prop where
  fresh : Fresh state.snapshot staged
  taken : Taken calls state.snapshot staged
  snapshot : state'.snapshot = state.snapshot.withPackage staged package.manifest.entryModule
    publishRoutes loadedAt
  runtime : calls.rollback = [] → Holds state.runtime state.snapshot →
    Holds state'.runtime state'.snapshot

/-- **What a load does**: it fails, finds the package loaded, or adds it. -/
theorem loadPackageWithMode_cases {result : Except LoaderError LoadOutcome}
    (h : loadPackageWithMode codecs state package calls publishRoutes loadedAt = (result, state')) :
    ((∃ error, result = .error error) ∧ Unloaded calls state state') ∨
    ∃ outcome staged, result = .ok outcome ∧ StagedLoad.new codecs package = .ok staged ∧
      staged.Of package ∧
      ((outcome.freshlyLoaded = false ∧ Reloaded package staged publishRoutes state state') ∨
        (outcome.freshlyLoaded = true ∧ FreshlyLoaded package staged calls publishRoutes loadedAt
            state state')) := by
  unfold loadPackageWithMode at h
  split at h
  · obtain ⟨rfl, rfl⟩ := Prod.mk.inj h
    exact .inl ⟨⟨_, rfl⟩, rfl, fun _ _ => rfl⟩
  · rename_i staged hstaged
    have hof := StagedLoad.of_new hstaged
    split at h
    · obtain ⟨rfl, rfl⟩ := Prod.mk.inj h
      exact .inl ⟨⟨_, rfl⟩, rfl, fun _ _ => rfl⟩
    · rename_i hvalid
      split at h
      · obtain ⟨rfl, rfl⟩ := Prod.mk.inj h
        exact .inl ⟨⟨_, rfl⟩, rfl, fun _ _ => rfl⟩
      · rename_i outcome snapshot hresident
        obtain ⟨rfl, rfl⟩ := Prod.mk.inj h
        obtain ⟨hold, hall, hsnap⟩ := resolveExistingLoad_eq_some hresident
        rw [hof.types, hof.version] at hsnap
        exact .inr ⟨outcome, staged, rfl, hstaged, hof, .inl ⟨hold, hall, rfl, hsnap⟩⟩
      · rename_i hnone
        have hfresh : Fresh state.snapshot staged :=
          ⟨resolveExistingLoad_eq_none_iff.mp hnone, validateStagedModuleNames_eq_ok_iff.mp hvalid⟩
        have hbase : Holds state.runtime state.snapshot → ∀ module ∈ staged.modules,
            state.snapshot.registeredModules.lookup module.deployedName = none → module.deployedName ∉ state.runtime := by
          intro hholds module _ hlook
          simp [hholds module.deployedName, hlook]
        have hstart : Added state.runtime [] state.runtime := ⟨by simp, by simp⟩
        split at h
        · rename_i error runtime hregs
          obtain ⟨rfl, rfl⟩ := Prod.mk.inj h
          refine .inl ⟨⟨_, rfl⟩, rfl, fun hroll hholds => ?_⟩
          rcases registerStagedModules_cases hroll hstart (hbase hholds) hregs with ⟨-, rfl⟩ | ⟨names, hok, -⟩
          · rfl
          · cases hok
        · rename_i registered runtime hregs
          have hadd : calls.rollback = [] → Holds state.runtime state.snapshot → Added state.runtime registered runtime ∧
              ∀ name, name ∈ registered ↔ name ∈ ([] : List ModuleName) ∨
                name ∈ staged.modules.map StagedModule.deployedName ∧ state.snapshot.registeredModules.lookup name = none := by
            intro hroll hholds
            rcases registerStagedModules_cases hroll hstart (hbase hholds) hregs with
              ⟨⟨error, herr⟩, -⟩ | ⟨names, hok, hadd, hnames⟩
            · cases herr
            · cases hok
              exact ⟨hadd, hnames⟩
          split at h
          · rename_i error runtime' hverify
            obtain ⟨rfl, rfl⟩ := Prod.mk.inj h
            refine .inl ⟨⟨_, rfl⟩, rfl, fun hroll hholds => ?_⟩
            rcases verifyStagedEntries_cases hroll (hadd hroll hholds).1 hverify with ⟨-, rfl⟩ | ⟨hok, -⟩
            · rfl
            · cases hok
          · rename_i runtime' hverify
            obtain ⟨hverif, rfl⟩ := verifyStagedEntries_eq_ok_iff.mp hverify
            split at h
            · rename_i hhead
              obtain ⟨record, hrec⟩ := hof.exists_head?
              cases hhead.symm.trans hrec
            · obtain ⟨rfl, rfl⟩ := Prod.mk.inj h
              refine .inr ⟨_, staged, rfl, hstaged, hof,
                  .inr ⟨rfl, hfresh, ⟨registerStagedModules_eq_ok hregs, hverif⟩, rfl, ?_⟩⟩
              exact fun hroll hholds => hholds.withPackage (hadd hroll hholds).1 (hadd hroll hholds).2

/-- A package that is fresh is loaded, if the runtime takes it. -/
theorem loadPackageWithMode_of_fresh (hstaged : StagedLoad.new codecs package = .ok staged)
    (hfresh : Fresh state.snapshot staged) (htaken : Taken calls state.snapshot staged)
    (publishRoutes : Bool) (loadedAt : Instant) :
    ∃ outcome runtime, loadPackageWithMode codecs state package calls publishRoutes loadedAt =
      (.ok outcome, ⟨state.snapshot.withPackage staged package.manifest.entryModule publishRoutes
          loadedAt, runtime⟩) := by
  have hregs : ∃ names runtime,
      registerStagedModules calls state.snapshot staged.modules [] state.runtime = (.ok names, runtime) :=
    exists_registerStagedModules htaken.register
  obtain ⟨names, runtime, hregs⟩ := hregs
  have hverify : verifyStagedEntries calls names runtime staged.workflows = (.ok (), runtime) :=
    verifyStagedEntries_eq_ok_iff.mpr ⟨htaken.verify, rfl⟩
  obtain ⟨record, hrec⟩ := (StagedLoad.of_new hstaged).exists_head?
  simp only [loadPackageWithMode, hstaged, validateStagedModuleNames_eq_ok_iff.mpr hfresh.names,
    resolveExistingLoad_eq_none_iff.mpr hfresh.absent, hregs, hverify, hrec]
  exact ⟨_, _, rfl⟩

/-! ### Swapping out -/

theorem removeMembers_eq_ok {left : Map (Text × ContentHash) CatalogEntry}
    {entries : List (Text × CatalogEntry)}
    (h : CatalogSnapshot.removeMembers version byVersion types = .ok (entries, left)) :
    entries.map Prod.fst = types ∧ (∀ entry ∈ entries, byVersion.lookup (entry.1, version) =
        some entry.2) ∧
      ∀ key, left.lookup key = if key.2 = version ∧ key.1 ∈ types then none else
        byVersion.lookup key := by
  induction types generalizing byVersion entries with
  | nil =>
    cases h
    simp
  | cons member rest ih =>
    simp only [CatalogSnapshot.removeMembers] at h
    split at h
    · cases h
    · rename_i entry hent
      split at h
      · cases h
      · rename_i entries left hrest
        cases h
        obtain ⟨htypes, hents, hleft⟩ := ih hrest
        refine ⟨by simp [htypes], List.forall_mem_cons.mpr ⟨hent, fun other hother => ?_⟩, fun key => ?_⟩
        · have hlook := hents other hother
          rw [lookup_erase_eq] at hlook
          split at hlook
          · cases hlook
          · exact hlook
        · rw [hleft key, lookup_erase_eq]
          obtain ⟨workflowType, hash⟩ := key
          by_cases hhash : hash = version <;> by_cases hmb : workflowType = member <;> simp [hhash, hmb]

theorem exists_removeMembers
    (hnd : types.Nodup) (htypes : ∀ member ∈ types, (byVersion.lookup (member, version)).isSome) :
    ∃ removed, CatalogSnapshot.removeMembers version byVersion types = .ok removed := by
  induction types generalizing byVersion with
  | nil => exact ⟨_, rfl⟩
  | cons member rest ih =>
    obtain ⟨hmb, hnd⟩ := List.nodup_cons.mp hnd
    obtain ⟨hsome, hrest⟩ := List.forall_mem_cons.mp htypes
    obtain ⟨entry, hent⟩ := Option.isSome_iff_exists.mp hsome
    have hleft : ∀ other ∈ rest, ((byVersion.erase (member, version)).lookup (other, version)).isSome := by
      intro other hother
      rw [AList.lookup_erase_ne]
      · exact hrest other hother
      · rintro heq
        exact hmb ((Prod.mk.inj heq).1 ▸ hother)
    obtain ⟨⟨entries, left⟩, hrem⟩ := ih hnd hleft
    refine ⟨((member, entry) :: entries, left), ?_⟩
    simp only [CatalogSnapshot.removeMembers, hent, hrem]

/-- The group of a package. -/
def InGroup (snapshot : CatalogSnapshot) (workflowType primary : Text) (version : ContentHash) :
    Prop :=
  ∃ group, snapshot.packageGroups.lookup (primary, version) = some group ∧
    workflowType ∈ group.workflowTypes

/-- What was swapped out of a catalog: one group, all of it. -/
structure SwappedOut (snapshot : CatalogSnapshot) (workflowType : Text) (hash : ContentHash)
    (removed : RemovedPackage) (next : CatalogSnapshot) (group : PackageGroup) : Prop where
  found : ∃ primary, snapshot.packageGroups.lookup (primary, hash) = some group
  mem : workflowType ∈ group.workflowTypes
  unrouted : ∀ member ∈ group.workflowTypes, snapshot.routed.lookup member ≠ some hash
  primary : removed.primaryWorkflowType = group.primaryWorkflowType
  version : removed.version = hash
  types : removed.entries.map Prod.fst = group.workflowTypes
  entries : ∀ entry ∈ removed.entries, snapshot.byVersion.lookup (entry.1, hash) = some entry.2
  modules : ∀ name h, (name, h) ∈ removed.modules ↔ h = hash ∧
    snapshot.registeredModules.lookup name = some h ∧
    ∀ primary, primary ≠ group.primaryWorkflowType →
      snapshot.packageGroups.lookup (primary, hash) = none
  byVersion : ∀ key, next.byVersion.lookup key =
    if key.2 = hash ∧ key.1 ∈ group.workflowTypes then none else snapshot.byVersion.lookup key
  routed : next.routed = snapshot.routed
  packageGroups : next.packageGroups =
    snapshot.packageGroups.erase (group.primaryWorkflowType, hash)
  registeredModules : next.registeredModules = eraseAll snapshot.registeredModules
    (removed.modules.map Prod.fst)

theorem any_keys_erase_iff :
    ((groups.erase (primary, hash)).keys.any fun key => key.2 = hash) = true ↔
      ∃ other, other ≠ primary ∧ (groups.lookup (other, hash)).isSome := by
  simp only [List.any_eq_true, decide_eq_true_eq, Prod.exists, ← AList.mem_keys, AList.mem_erase,
    AList.lookup_isSome, ne_eq,
    Prod.mk.injEq]
  constructor
  · rintro ⟨other, h, ⟨hne, hmem⟩, rfl⟩
    exact ⟨other, fun heq => hne ⟨heq, rfl⟩, hmem⟩
  · rintro ⟨other, hne, hmem⟩
    exact ⟨other, hash, ⟨fun heq => hne heq.1, hmem⟩, rfl⟩

/-- The modules of a hash, unless another group has it. -/
theorem mem_modulesOf_iff {h : ContentHash} {registered : Map ModuleName ContentHash} :
    (name, h) ∈ (if (groups.erase (primary, hash)).keys.any fun key => key.2 = hash then []
        else (registered.entries.filter fun entry => entry.2 = hash).map fun entry =>
          (entry.1, entry.2)) ↔
      h = hash ∧ registered.lookup name = some h ∧ ∀ other, other ≠ primary →
        groups.lookup (other, hash) = none := by
  split
  · rename_i hother
    obtain ⟨other, hne, hsome⟩ := any_keys_erase_iff.mp hother
    simp only [List.not_mem_nil, false_iff]
    rintro ⟨-, -, hnone⟩
    simp [hnone other hne] at hsome
  · rename_i hother
    have hnone : ∀ other, other ≠ primary → groups.lookup (other, hash) = none := fun other hne =>
      Option.not_isSome_iff_eq_none.mp fun hsome => hother (any_keys_erase_iff.mpr ⟨other, hne, hsome⟩)
    simp only [List.mem_map, List.mem_filter, decide_eq_true_eq, Prod.mk.injEq]
    constructor
    · rintro ⟨entry, ⟨hmem, rfl⟩, rfl, rfl⟩
      exact ⟨rfl, AList.mem_lookup_iff.mpr hmem, hnone⟩
    · rintro ⟨rfl, hlook, -⟩
      exact ⟨⟨name, h⟩, ⟨AList.mem_lookup_iff.mp hlook, rfl⟩, rfl, rfl⟩

/-- What a swap-out does. -/
theorem swapOutPackage_eq_ok (h : snapshot.swapOutPackage workflowType hash = .ok (removed, next)) :
    ∃ group, SwappedOut snapshot workflowType hash removed next group := by
  unfold CatalogSnapshot.swapOutPackage at h
  split at h
  · cases h
  · split at h
    · cases h
    · rename_i found hfind
      simp only at h
      split at h
      · cases h
      · rename_i hroute
        split at h
        · cases h
        · rename_i entries byVersion hmems
          obtain ⟨rfl, rfl⟩ := Prod.mk.inj (Except.ok.inj h)
          obtain ⟨htypes, hents, hleft⟩ := removeMembers_eq_ok hmems
          have hfd := List.find?_some hfind
          simp only [decide_eq_true_eq] at hfd
          obtain ⟨hkey, hmem⟩ := hfd
          have hlook : snapshot.packageGroups.lookup (found.1.1, hash) = some found.2 :=
            AList.mem_lookup_iff.mpr (hkey ▸ List.mem_of_find?_eq_some hfind)
          refine ⟨found.2, ⟨found.1.1, hlook⟩, hmem, ?_, rfl, rfl, htypes, hents, ?_, hleft, rfl, rfl, rfl⟩
          · simpa using hroute
          · intro name h
            exact mem_modulesOf_iff

/-- A group that was swapped out is put back. -/
theorem SwappedOut.restore
    {group : PackageGroup} (h : SwappedOut snapshot workflowType version removed next group)
    (hprim : snapshot.packageGroups.lookup (group.primaryWorkflowType, version) = some group) :
    SameLookups (next.restorePackage removed).byVersion snapshot.byVersion ∧
      SameLookups (next.restorePackage removed).routed snapshot.routed ∧
      SameLookups (next.restorePackage removed).registeredModules snapshot.registeredModules ∧
      SameLookups (next.restorePackage removed).packageGroups snapshot.packageGroups := by
  refine ⟨?_, ?_, ?_, ?_⟩
  · refine SameLookups.insertAll (fun entry hent => h.version ▸ h.entries entry hent)
      fun key hkey => ?_
    rw [h.byVersion key, if_neg]
    rintro ⟨hhash, hmem⟩
    obtain ⟨entry, hent, hfst⟩ := List.mem_map.mp (h.types ▸ hmem)
    exact hkey (List.mem_map.mpr ⟨entry, hent, Prod.ext hfst (h.version.trans hhash.symm)⟩)
  · exact fun workflowType => congrArg (AList.lookup workflowType) h.routed
  · refine SameLookups.insertAll (fun entry hent => ((h.modules entry.1 entry.2).mp hent).2.1)
      fun name hname => ?_
    rw [h.registeredModules]
    exact lookup_eraseAll_of_notMem hname
  · intro key
    have hgrp : (⟨removed.primaryWorkflowType, removed.entries.map Prod.fst⟩ : PackageGroup) = group := by
      rw [h.primary, h.types]
    refine (lookup_insert_eq _ _).trans ?_
    rw [hgrp, h.primary, h.version, h.packageGroups, lookup_erase_eq]
    split
    · rename_i hkey
      rw [hkey, hprim]
    · rfl

/-! ### A sample

Packages of two workflows `a` and `b`, each in a module of its name. The version of the first two is
over the same modules; they differ in which workflow is the primary one. The digests are those of
SHA-256, the documents those of the manifest's JSON form. -/

section Sample

/-- The name of the first workflow, that of the module of the archive's sample. -/
def firstName : Text := sampleModule.name

/-- The name of the second. -/
def secondName : Text := .lit "b"

/-- The modules of the sample, with one byte of code each. -/
def pairBeams (a b : UInt8) : BeamSet :=
  ⟨[⟨firstName, ⟨[a], by simp⟩⟩, ⟨secondName, ⟨[b], by simp⟩⟩], by simp; decide, by simp; decide⟩

/-- The version of the first two packages. -/
def pairVersion : ContentHash :=
  digestOf 0x82df66b03cf626cadb29d4020505d5d3c49a10ec13541f7394c3583b53c3db50

/-- The version of the third. -/
def laterVersion : ContentHash :=
  digestOf 0x505e82df7da329b3b548982e40bbbc841d769f559e0193fc3261157822785b3d

/-- The modules of a version. -/
def pairBeamsOf (version : ContentHash) : BeamSet :=
  if version = laterVersion then pairBeams 3 4 else pairBeams 1 2

/-- The manifest of two workflows. -/
def pairManifest (primary other : Text) (version : ContentHash) : Manifest Bool where
  entryModule := primary
  entryFunction := (sampleManifest none version).entryFunction
  inputSchema := true
  outputSchema := true
  timeout := none
  activities := []
  version := version.toText
  formatVersion := 1
  additionalWorkflows := [⟨other, other, (sampleManifest none version).entryFunction, true, true,
      none, false⟩]
  fits := by simp

/-- The document of the manifest. -/
def pairDocument (primary other version : String) : String :=
  "\x7b\"entry_module\":\"" ++ primary ++
    "\",\"entry_function\":\"run\",\"input_schema\":true,\"output_schema\":true," ++
    "\"activities\":[],\"version\":\"" ++ version ++
      "\",\"format_version\":1,\"additional_workflows\":[\x7b" ++
    "\"workflow_type\":\"" ++ other ++ "\",\"entry_module\":\"" ++ other ++
      "\",\"entry_function\":\"run\"," ++
    "\"input_schema\":true,\"output_schema\":true,\"internal\":false\x7d]\x7d"

/-- The documents of the sample. -/
def pairDocuments : List (Bytes × Manifest Bool) :=
  [(.lit (pairDocument "a" "b" "82df66b03cf626cadb29d4020505d5d3c49a10ec13541f7394c3583b53c3db50")
      (by decide +kernel),
      pairManifest firstName secondName pairVersion),
    (.lit (pairDocument "b" "a" "82df66b03cf626cadb29d4020505d5d3c49a10ec13541f7394c3583b53c3db50") (by decide +kernel),
      pairManifest secondName firstName pairVersion),
    (.lit (pairDocument "a" "b" "505e82df7da329b3b548982e40bbbc841d769f559e0193fc3261157822785b3d") (by decide +kernel),
      pairManifest firstName secondName laterVersion)]

/-- The digests of the sample. -/
def pairDigests : List (List UInt8 × ContentHash) :=
  [(beamsIdentity (pairBeams 1 2), pairVersion), (beamsIdentity (pairBeams 3 4), laterVersion)] ++
    List.zip (pairDocuments.map fun document => document.1.data)
      [digestOf 0x1ff73a891d5a4de80ee6d5f8bf2227a762649216f39fb814f70dbd0708d84e12,
        digestOf 0xa0c41cf38cfc903af9748e1185d1c7fc8d02bfacfbdc8447a8482439d20e49e9,
        digestOf 0x21e7d125b959156d041b7e4e922d66a0c3a63ca160435edac699c2a124aa2477]

/-- The libraries on the sample. -/
def pairCodecs : Codecs (List (List Char × Bytes)) (List (List Char × Bytes)) Bool :=
  .plain pairDigests pairDocuments

/-- A package of the sample. -/
def pairPackage (primary other : Text) (version : ContentHash) : Package Bool where
  manifest := pairManifest primary other version
  beams := pairBeamsOf version
  source := .empty
  contentHash := version

/-- The first package, with `a` as its primary workflow. -/
def firstPair : Package Bool := pairPackage firstName secondName pairVersion

/-- The second, of the same modules, with `b`. -/
def secondPair : Package Bool := pairPackage secondName firstName pairVersion

/-- The third, of other modules. -/
def laterPair : Package Bool := pairPackage firstName secondName laterVersion

/-- Calls that all succeed. -/
def LoadCalls.succeed : LoadCalls := ⟨fun _ => none, fun _ => none, []⟩

/-- No entry is verified. -/
def LoadCalls.unverified : LoadCalls :=
  ⟨fun _ => none, fun _ => some "does not export entry function", []⟩

end Sample

end Aion.Loader
