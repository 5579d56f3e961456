import Aion.Loader.Loads

/-!
# Deployed packages in the store

`persistence.rs`, and the deploy calls of `reload.rs`. A deploy stages the package, writes its
archive and its routes to the store, and publishes the routes; a route and an unload write to the
store as well. At the next start the packages are loaded from the store, in the order in which it
lists them, and then the routes are put back. A call takes the deploy lock, so the calls come one
after another.

What the runtime says to a module and to an entry is a parameter (`Registration`). The store writes
all that it is asked to, or fails.
-/

namespace Aion.Loader

open Packaging FiniteMaps

/-- What the runtime answers when a module of a package is registered, with the names of all its
modules to rename, and when an entry is verified. -/
structure Registration where
  register : BeamSet → StagedModule → Option String
  verify : BeamSet → StagedWorkflow → Option String

/-- The calls of a load; some modules may not be taken back. -/
def Registration.calls {Json : Type} (registration : Registration) (package : Package Json)
    (kept : List (ModuleName × String)) : LoadCalls :=
  ⟨registration.register package.beams, registration.verify package.beams, kept⟩

/-! ### The store -/

/-- `PackageRecord`. -/
structure PackageRecord (Archive : Type) where
  workflowType : Text
  contentHash : ContentHash
  archive : Archive
  deriving DecidableEq

/-- `PackageRouteRecord`. -/
structure PackageRouteRecord where
  workflowType : Text
  contentHash : ContentHash
  deriving DecidableEq

/-- The packages by primary type and version, and the routes. -/
structure PackageStore (Archive : Type) where
  packages : Map (Text × ContentHash) Archive
  routes : Map Text ContentHash

namespace PackageStore

variable {Archive : Type} (store : PackageStore Archive)

/-- Nothing is stored. -/
def empty : PackageStore Archive := ⟨∅, ∅⟩

/-- `put_package_with_routes`. -/
def putPackageWithRoutes (record : PackageRecord Archive) (routeWorkflowTypes : List Text) :
    PackageStore Archive where
  packages := store.packages.insert (record.workflowType, record.contentHash) record.archive
  routes :=
    insertAll store.routes routeWorkflowTypes (fun workflowType => workflowType) fun _ => record.contentHash

/-- `put_package_route`. -/
def putPackageRoute (workflowType : Text) (version : ContentHash) : PackageStore Archive :=
  { store with routes := store.routes.insert workflowType version }

/-- `delete_package`. -/
def deletePackage (workflowType : Text) (version : ContentHash) : PackageStore Archive :=
  { store with packages := store.packages.erase (workflowType, version) }

/-- `list_packages`, in some order. -/
def listPackages : List (PackageRecord Archive) :=
  store.packages.entries.map fun entry => ⟨entry.1.1, entry.1.2, entry.2⟩

/-- `list_package_routes`, in some order. -/
def listPackageRoutes : List PackageRouteRecord :=
  store.routes.entries.map fun entry => ⟨entry.1, entry.2⟩

end PackageStore

/-! ### Deploys -/

/-- The catalog with the runtime, and the store. -/
structure EngineState (Archive : Type) where
  loader : LoaderState
  store : PackageStore Archive

/-- Nothing is loaded, and nothing is stored. -/
def EngineState.empty {Archive : Type} : EngineState Archive := ⟨⟨.empty, ∅⟩, .empty⟩

/-- The loaded versions of a type, by the time they were loaded at. -/
def CatalogSnapshot.versionsOf (snapshot : CatalogSnapshot) (workflowType : Text) : String :=
  let entries :=
    (snapshot.byVersion.entries.map fun entry => entry.2).filter fun entry =>
      entry.workflow.workflowType = workflowType
  let sorted := entries.insertionSort fun left right => left.loadedAt < right.loadedAt ∨
    left.loadedAt = right.loadedAt ∧ left.workflow.version.toText ≤ right.workflow.version.toText
  if sorted = [] then "none" else String.intercalate ", " (sorted.map fun entry =>
      shown entry.workflow.version.toText)

/-- `unregister_unloaded_modules`; these modules cannot be unregistered. -/
def unregisterUnloadedModules (workflowType : Text) (version : ContentHash)
    (removed : RemovedPackage) (kept : List (ModuleName × String)) (runtime : Finset ModuleName) :
    Except LoaderError Unit × Finset ModuleName :=
  let failures := removed.modules.filterMap fun module =>
    (kept.lookup module.1).map fun error => String.ofList module.1 ++ ": " ++ error
  let runtime := removed.modules.foldl
    (fun runtime module => if (kept.lookup module.1).isNone then runtime.erase module.1 else runtime) runtime
  if failures = [] then (.ok (), runtime)
  else (.error (.runtime ("workflow `" ++ shown workflowType ++ "` version `" ++
      shown version.toText ++
    "` was removed from the catalog but module unregistration failed for " ++
      String.intercalate ", " failures)), runtime)

/-- A call. Each may fail at the store, with a cause. -/
inductive DeployCall (Json : Type) where
  /-- Some modules may not be taken back if it fails. -/
  | loadPackage (package : Package Json) (kept : List (ModuleName × String)) (loadedAt : Instant)
    (failure : Option String)
  | routeWorkflowVersion (workflowType : Text) (version : ContentHash) (failure : Option String)
  /-- `verify_unload_unpinned` may refuse it. -/
  | unloadWorkflowVersion (workflowType : Text) (version : ContentHash)
    (refusal : Option LoaderError)
    (kept : List (ModuleName × String)) (failure : Option String)

namespace EngineState

variable {Archive Writer Json : Type} (codecs : Codecs Archive Writer Json)
  (registration : Registration)
  (s : EngineState Archive)

/-- `persist_deployed_package`. -/
def persistDeployedPackage (store : PackageStore Archive) (package : Package Json)
    (failure : Option String) : Except LoaderError (PackageStore Archive) :=
  match package.toArchiveBytes codecs with
  | .error error => .error (.serialise package.manifest.entryModule package.contentHash error)
  | .ok archive =>
    match failure with
    | some cause => .error (.store cause)
    | none =>
      .ok (store.putPackageWithRoutes ⟨package.manifest.entryModule, package.contentHash, archive⟩
        (package.manifest.entryModule :: package.manifest.additionalWorkflows.map WorkflowEntry.workflowType))

/-- `Engine::load_package`. -/
def loadPackage (package : Package Json) (kept : List (ModuleName × String)) (loadedAt : Instant)
    (failure : Option String) : Except LoaderError LoadOutcome × EngineState Archive :=
  match loadPackageWithMode codecs s.loader package
    (registration.calls package kept) false loadedAt with
  | (.error error, loader) => (.error error, { s with loader := loader })
  | (.ok outcome, loader) =>
    match persistDeployedPackage codecs s.store package failure with
    | .error error =>
      if outcome.freshlyLoaded then
        match loader.snapshot.swapOutPackage package.manifest.entryModule package.contentHash with
        | .error error => (.error error, { s with loader := loader })
        | .ok (removed, snapshot) =>
          match unregisterUnloadedModules package.manifest.entryModule package.contentHash removed kept loader.runtime with
          | (.error error, runtime) => (.error error, { s with loader := ⟨snapshot, runtime⟩ })
          | (.ok (), runtime) => (.error error, { s with loader := ⟨snapshot, runtime⟩ })
      else (.error error, { s with loader := loader })
    | .ok store =>
      match loader.snapshot.publishPackageRoutes package.manifest.entryModule package.contentHash with
      | .error error => (.error error, ⟨loader, store⟩)
      | .ok snapshot => (.ok outcome, ⟨{ loader with snapshot := snapshot }, store⟩)

/-- `Engine::route_workflow_version`. -/
def routeWorkflowVersion (workflowType : Text) (version : ContentHash) (failure : Option String) :
    Except LoaderError Unit × EngineState Archive :=
  if (s.loader.snapshot.byVersion.lookup (workflowType, version)).isNone then
    (.error (.unknownVersion workflowType version (s.loader.snapshot.versionsOf workflowType)), s)
  else
    match failure with
    | some cause => (.error (.store cause), s)
    | none =>
      let store := s.store.putPackageRoute workflowType version
      match s.loader.snapshot.routeVersion workflowType version with
      | .error error => (.error error, { s with store := store })
      | .ok snapshot => (.ok (), ⟨{ s.loader with snapshot := snapshot }, store⟩)

/-- `unload_workflow_version_inner`. -/
def unloadWorkflowVersion (workflowType : Text) (version : ContentHash)
    (refusal : Option LoaderError) (kept : List (ModuleName × String)) (failure : Option String) :
    Except LoaderError Unit × EngineState Archive :=
  match s.loader.snapshot.swapOutPackage workflowType version with
  | .error error => (.error error, s)
  | .ok (removed, snapshot) =>
    match refusal with
    | some error => (.error error, { s with loader.snapshot := snapshot.restorePackage removed })
    | none =>
      match failure with
      | some cause => (.error (.store cause), { s with loader.snapshot := snapshot.restorePackage removed })
      | none =>
        let (result, runtime) := unregisterUnloadedModules workflowType version removed kept s.loader.runtime
        (result, ⟨⟨snapshot, runtime⟩, s.store.deletePackage removed.primaryWorkflowType version⟩)

/-- What a call answers, but for the outcome of a load, and leaves. -/
def call : DeployCall Json → Except LoaderError Unit × EngineState Archive
  | .loadPackage package kept loadedAt failure =>
    let (result, s) := s.loadPackage codecs registration package kept loadedAt failure
    (result.map fun _ => (), s)
  | .routeWorkflowVersion workflowType version failure =>
    s.routeWorkflowVersion workflowType version failure
  | .unloadWorkflowVersion workflowType version refusal kept failure =>
    s.unloadWorkflowVersion workflowType version refusal kept failure

/-- A call is always answered. -/
def step (deploy : DeployCall Json) : Option (EngineState Archive) :=
  some (s.call codecs registration deploy).2

end EngineState

/-! ### Reloading -/

section Reload

variable {Archive Writer Json : Type} (codecs : Codecs Archive Writer Json)
  (registration : Registration)
  (clock : PackageRecord Archive → Instant)

/-- One record: it is skipped if it is broken, kept under another key or fails to load. -/
def reloadPersistedPackage (loader : LoaderState) (record : PackageRecord Archive) : LoaderState :=
  match Package.load codecs record.archive .unbounded with
  | .error _ => loader
  | .ok package =>
    if package.contentHash ≠ record.contentHash ∨
      package.manifest.entryModule ≠ record.workflowType then loader
    else
      (loadPackageWithMode codecs loader package (registration.calls package []) true (clock record)).2

/-- `restore_persisted_routes`: a route to what is not loaded is skipped. -/
def restorePersistedRoutes (snapshot : CatalogSnapshot) (routes : List PackageRouteRecord) :
    CatalogSnapshot :=
  routes.foldl
    (fun snapshot route =>
      match snapshot.routeVersion route.workflowType route.contentHash with
      | .ok next => next
      | .error _ => snapshot)
    snapshot

/-- `reload_persisted_packages`, of what the store lists. -/
def reloadPersistedPackages (records : List (PackageRecord Archive))
    (routes : List PackageRouteRecord) : LoaderState :=
  let loader := records.foldl (reloadPersistedPackage codecs registration clock) ⟨.empty, ∅⟩
  { loader with snapshot := restorePersistedRoutes loader.snapshot routes }

end Reload

end Aion.Loader
