import Mathlib.Data.Finset.Erase
import Mathlib.Data.Finset.Insert
import Aion.Core.Event
import Aion.Library.FiniteMaps
import Aion.Package.Archive

/-!
# The catalog of loaded packages

`catalog.rs`, `catalog_load.rs` and `load.rs`. The catalog says which versions of which workflow
types are loaded, which version of a type is routed, which modules are registered, and which types
came in one archive. A load stages the package, registers the modules that are not there yet,
verifies the entries and installs a new snapshot; if a step fails it takes back what it registered.
The calls that it makes to the runtime are parameters (`LoadCalls`), which may fail on any module or
entry.
-/

namespace Aion.Loader

open Packaging FiniteMaps

/-- The name a module is registered under. -/
abbrev ModuleName : Type := List Char

/-- The digest of a manifest. -/
abbrev ManifestDigest : Type := ContentHash

/-- The text of an error. -/
def shown (text : Text) : String := String.ofList text.chars

/-- `EngineError`, as far as the loader returns it; the causes of others are texts. -/
inductive LoaderError where
  | load (reason : String)
  | package (error : PackageError)
  | unknownVersion (workflowType : Text) (version : ContentHash) (loaded : String)
  | versionPinned (workflowType : Text) (version : ContentHash) (pinnedBy : String)
  | routeActive (workflowType : Text) (version : ContentHash)
  | manifestMismatch (workflowType : Text) (version : ContentHash)
    (residentDigest incomingDigest : Text)
  /-- A package that cannot be written again. -/
  | serialise (workflowType : Text) (version : ContentHash) (error : PackageError)
  | runtime (reason : String)
  | store (reason : String)
  deriving DecidableEq

/-! ### Staging -/

/-- `StagedWorkflow`. -/
structure StagedWorkflow where
  workflowType : Text
  deployedEntryModule : ModuleName
  entryFunction : Text
  declaredTimeout : Option Duration
  deriving DecidableEq

/-- `StagedModule`. -/
structure StagedModule where
  deployedName : ModuleName
  bytes : Bytes
  deriving DecidableEq

/-- `LoadedWorkflow`. -/
structure LoadedWorkflow where
  workflowType : Text
  deployedEntryModule : ModuleName
  entryFunction : Text
  version : ContentHash
  declaredTimeout : Option Duration
  deriving DecidableEq

/-- `StagedLoad`. -/
structure StagedLoad where
  workflows : List StagedWorkflow
  manifestVersion : Text
  manifestDigest : ManifestDigest
  version : ContentHash
  modules : List StagedModule
  deriving DecidableEq

/-- `LoadOutcome`. -/
structure LoadOutcome where
  record : LoadedWorkflow
  freshlyLoaded : Bool
  routeChanged : Bool
  deriving DecidableEq

/-- `deployed_name`. -/
def deployedName (logical : Text) (hash : ContentHash) : ModuleName :=
  logical.chars ++ deployedNameSeparator :: hash.toText.chars

section Staging

variable {Archive Writer Json : Type} (codecs : Codecs Archive Writer Json) (package : Package Json)

/-- `canonical_digest`. -/
def canonicalDigest (manifest : Manifest Json) : Except PackageError ManifestDigest :=
  match codecs.toVec manifest with
  | .error cause => .error (.manifestSerialise cause)
  | .ok bytes => .ok (codecs.sha256 bytes.data)

/-- The entries of a manifest: type, module, function and timeout. -/
def manifestEntries (manifest : Manifest Json) : List (Text × Text × Text × Option Duration) :=
  (manifest.entryModule, manifest.entryModule, manifest.entryFunction, manifest.timeout) ::
    manifest.additionalWorkflows.map fun entry =>
      (entry.workflowType, entry.entryModule, entry.entryFunction, entry.timeout)

/-- The entries, each of another type and with its module in the package. -/
def stageWorkflows :
    List Text → List (Text × Text × Text × Option Duration) →
      Except LoaderError (List StagedWorkflow)
  | _, [] => .ok []
  | seen, (workflowType, entryModule, entryFunction, entryTimeout) :: rest =>
    if workflowType ∈ seen then
      .error (.load ("package declares workflow type `" ++ shown workflowType ++ "` more than once"))
    else if (package.beams.get entryModule).isNone then
      .error (.load ("manifest entry module `" ++ shown entryModule ++ "` for workflow `" ++ shown workflowType ++
        "` is absent from package beams"))
    else
      match stageWorkflows (workflowType :: seen) rest with
      | .error error => .error error
      | .ok staged => .ok (⟨workflowType, deployedName entryModule package.contentHash, entryFunction,
          package.declaredEntryTimeout codecs entryTimeout⟩ :: staged)

/-- `StagedLoad::new`. -/
def StagedLoad.new : Except LoaderError StagedLoad :=
  match stageWorkflows codecs package [] (manifestEntries package.manifest) with
  | .error error => .error error
  | .ok workflows =>
    match canonicalDigest codecs package.manifest with
    | .error error => .error (.package error)
    | .ok manifestDigest => .ok {
        workflows := workflows
        manifestVersion := package.manifest.version
        manifestDigest := manifestDigest
        version := package.contentHash
        modules := package.deployedModules.map fun module => ⟨module.1, module.2⟩ }

end Staging

/-- `records`. -/
def StagedLoad.records (staged : StagedLoad) : List LoadedWorkflow :=
  staged.workflows.map fun entry =>
    ⟨entry.workflowType, entry.deployedEntryModule, entry.entryFunction, staged.version, entry.declaredTimeout⟩

/-! ### Snapshots -/

/-- `CatalogEntry`. -/
structure CatalogEntry where
  workflow : LoadedWorkflow
  manifestVersion : Text
  manifestDigest : ManifestDigest
  loadedAt : Instant
  deriving DecidableEq

/-- `PackageGroup`. -/
structure PackageGroup where
  primaryWorkflowType : Text
  workflowTypes : List Text
  deriving DecidableEq

/-- `CatalogSnapshot`. -/
structure CatalogSnapshot where
  byVersion : Map (Text × ContentHash) CatalogEntry
  routed : Map Text ContentHash
  registeredModules : Map ModuleName ContentHash
  packageGroups : Map (Text × ContentHash) PackageGroup

/-- `RemovedPackage`. -/
structure RemovedPackage where
  primaryWorkflowType : Text
  version : ContentHash
  entries : List (Text × CatalogEntry)
  modules : List (ModuleName × ContentHash)

namespace CatalogSnapshot

variable (snapshot : CatalogSnapshot)

/-- Nothing is loaded. -/
def empty : CatalogSnapshot := ⟨∅, ∅, ∅, ∅⟩

/-- `loaded_versions_of`. -/
def loadedVersionsOf (workflowType : Text) : String :=
  let versions := ((snapshot.byVersion.keys.filter fun key => key.1 = workflowType).map fun key =>
    shown key.2.toText).insertionSort fun left right => left ≤ right
  if versions = [] then "none" else String.intercalate ", " versions

/-- The routes of these types go to a version. -/
def withRoutes (workflowTypes : List Text) (version : ContentHash) : CatalogSnapshot :=
  { snapshot with
    routed := insertAll snapshot.routed workflowTypes (fun workflowType => workflowType) fun _ => version }

/-- `resolve_existing_load`. -/
def resolveExistingLoad (staged : StagedLoad) (publishRoutes : Bool) :
    Except LoaderError (Option (LoadOutcome × CatalogSnapshot)) :=
  let existing := staged.workflows.filterMap fun workflow => snapshot.byVersion.lookup (workflow.workflowType, staged.version)
  match existing with
  | [] => .ok none
  | first :: _ =>
    if existing.length ≠ staged.workflows.length then
      .error (.load ("package version `" ++ shown staged.version.toText ++ "` is only partially registered (" ++
        toString existing.length ++ "/" ++ toString staged.workflows.length ++ " workflow entries)"))
    else if existing.any fun entry => entry.manifestDigest ≠ staged.manifestDigest then
      .error (.manifestMismatch first.workflow.workflowType staged.version first.manifestDigest.toText
        staged.manifestDigest.toText)
    else
      let routeChanged :=
        staged.workflows.any fun workflow => snapshot.routed.lookup workflow.workflowType ≠
          some staged.version
      .ok (some (⟨first.workflow, false, routeChanged⟩,
        if publishRoutes && routeChanged then
          snapshot.withRoutes (staged.workflows.map StagedWorkflow.workflowType) staged.version
        else snapshot))

/-- `validate_staged_module_names`. -/
def validateStagedModuleNames (staged : StagedLoad) : Except LoaderError Unit :=
  match staged.modules.filterMap fun module =>
    (snapshot.registeredModules.lookup module.deployedName).bind fun existing =>
      if existing = staged.version then none else some (module, existing) with
  | [] => .ok ()
  | (module, existing) :: _ =>
    .error (.load ("deployed module `" ++ String.ofList module.deployedName ++
        "` is already registered for content hash `" ++
      shown existing.toText ++ "`, not `" ++ shown staged.version.toText ++ "`"))

/-- The snapshot with a package that was staged, registered and verified. -/
def withPackage (staged : StagedLoad) (primary : Text) (publishRoutes : Bool) (loadedAt : Instant) :
    CatalogSnapshot where
  byVersion := insertAll snapshot.byVersion staged.records
    (fun workflow => (workflow.workflowType, staged.version)) fun workflow =>
    ⟨workflow, staged.manifestVersion, staged.manifestDigest, loadedAt⟩
  routed :=
    if publishRoutes then insertAll snapshot.routed staged.records LoadedWorkflow.workflowType
      fun _ => staged.version
    else snapshot.routed
  registeredModules := insertAbsent snapshot.registeredModules
    (staged.modules.map StagedModule.deployedName) staged.version
  packageGroups := snapshot.packageGroups.insert (primary, staged.version)
    ⟨primary, staged.records.map LoadedWorkflow.workflowType⟩

/-- `publish_package_routes`. -/
def publishPackageRoutes (primary : Text) (version : ContentHash) :
    Except LoaderError CatalogSnapshot :=
  match snapshot.packageGroups.lookup (primary, version) with
  | none => .error (.load ("staged package group `" ++ shown version.toText ++ "` is not loaded"))
  | some group =>
    match group.workflowTypes.find? fun workflowType =>
      (snapshot.byVersion.lookup (workflowType, version)).isNone with
    | some workflowType =>
      .error (.load ("staged package group `" ++ shown version.toText ++
          "` is missing workflow `" ++ shown workflowType ++ "`"))
    | none => .ok (snapshot.withRoutes group.workflowTypes version)

/-- `route_version`. -/
def routeVersion (workflowType : Text) (version : ContentHash) :
    Except LoaderError CatalogSnapshot :=
  if (snapshot.byVersion.lookup (workflowType, version)).isNone then
    .error (.unknownVersion workflowType version (snapshot.loadedVersionsOf workflowType))
  else if snapshot.routed.lookup workflowType = some version then .ok snapshot
  else .ok { snapshot with routed := snapshot.routed.insert workflowType version }

/-- Takes the members of a group out. -/
def removeMembers (version : ContentHash) : Map (Text × ContentHash) CatalogEntry → List Text →
    Except LoaderError (List (Text × CatalogEntry) × Map (Text × ContentHash) CatalogEntry)
  | byVersion, [] => .ok ([], byVersion)
  | byVersion, member :: rest =>
    match byVersion.lookup (member, version) with
    | none => .error (.load ("package group `" ++ shown version.toText ++ "` is partially registered: missing `" ++
        shown member ++ "`"))
    | some entry =>
      match removeMembers version (byVersion.erase (member, version)) rest with
      | .error error => .error error
      | .ok (entries, left) => .ok ((member, entry) :: entries, left)

/-- `swap_out_package`. -/
def swapOutPackage (workflowType : Text) (version : ContentHash) :
    Except LoaderError (RemovedPackage × CatalogSnapshot) :=
  if (snapshot.byVersion.lookup (workflowType, version)).isNone then
    .error (.unknownVersion workflowType version (snapshot.loadedVersionsOf workflowType))
  else
    match snapshot.packageGroups.entries.find? fun entry => entry.1.2 = version ∧
      workflowType ∈ entry.2.workflowTypes with
    | none => .error (.load ("package group for workflow `" ++ shown workflowType ++ "` version `" ++ shown version.toText ++
        "` is missing"))
    | some found =>
      let group := found.2
      match group.workflowTypes.find? fun member => snapshot.routed.lookup member = some version with
      | some member => .error (.routeActive member version)
      | none =>
        match removeMembers version snapshot.byVersion group.workflowTypes with
        | .error error => .error error
        | .ok (entries, byVersion) =>
          let packageGroups := snapshot.packageGroups.erase (group.primaryWorkflowType, version)
          -- Modules that another group of the hash has stay registered.
          let modules :=
            if packageGroups.keys.any fun key => key.2 = version then []
            else (snapshot.registeredModules.entries.filter fun entry => entry.2 = version).map fun entry => (entry.1, entry.2)
          .ok (⟨group.primaryWorkflowType, version, entries, modules⟩, {
            byVersion := byVersion
            routed := snapshot.routed
            registeredModules := eraseAll snapshot.registeredModules (modules.map Prod.fst)
            packageGroups := packageGroups })

/-- `restore_package`. -/
def restorePackage (removed : RemovedPackage) : CatalogSnapshot where
  byVersion := insertAll snapshot.byVersion removed.entries
    (fun entry => (entry.1, removed.version)) Prod.snd
  routed := snapshot.routed
  registeredModules := insertAll snapshot.registeredModules removed.modules Prod.fst Prod.snd
  packageGroups := snapshot.packageGroups.insert (removed.primaryWorkflowType, removed.version)
    ⟨removed.primaryWorkflowType, removed.entries.map Prod.fst⟩

end CatalogSnapshot

/-! ### Loads -/

/-- The calls a load makes, with the text of the error if one fails. -/
structure LoadCalls where
  register : StagedModule → Option String
  verify : StagedWorkflow → Option String
  /-- The modules that a rollback does not take back. -/
  rollback : List (ModuleName × String)

/-- The snapshot, and the modules the runtime has. -/
structure LoaderState where
  snapshot : CatalogSnapshot
  runtime : Finset ModuleName

/-- `rollback_registered`, of names in reverse: what it could not take back, and what the runtime
has after it. -/
def rollbackRegistered (calls : LoadCalls) :
    List ModuleName → Finset ModuleName → List String × Finset ModuleName
  | [], runtime => ([], runtime)
  | name :: rest, runtime =>
    match calls.rollback.lookup name with
    | none => rollbackRegistered calls rest (runtime.erase name)
    | some error =>
      let (errors, runtime) := rollbackRegistered calls rest runtime
      ((String.ofList name ++ ": " ++ error) :: errors, runtime)

/-- What is said of a rollback that failed. -/
def rollbackErrors (errors : List String) : String :=
  if errors = [] then "" else "; rollback failed for " ++ String.intercalate ", " errors

/-- `register_staged_modules`, from the modules that are registered already, the last one first. -/
def registerStagedModules (calls : LoadCalls) (snapshot : CatalogSnapshot) :
    List StagedModule → List ModuleName →
    Finset ModuleName → Except LoaderError (List ModuleName) × Finset ModuleName
  | [], registered, runtime => (.ok registered, runtime)
  | module :: rest, registered, runtime =>
    if (snapshot.registeredModules.lookup module.deployedName).isSome then
      registerStagedModules calls snapshot rest registered runtime
    else
      match calls.register module with
      | some error =>
        let (errors, runtime) := rollbackRegistered calls registered runtime
        (.error (.load ("runtime rejected deployed module `" ++ String.ofList module.deployedName ++ "` after " ++
          toString registered.length ++ " staged registrations: " ++ error ++ rollbackErrors errors)), runtime)
      | none =>
        registerStagedModules calls snapshot rest (module.deployedName :: registered) (insert module.deployedName runtime)

/-- `verify_staged_entries`. -/
def verifyStagedEntries (calls : LoadCalls) (registered : List ModuleName)
    (runtime : Finset ModuleName) :
    List StagedWorkflow → Except LoaderError Unit × Finset ModuleName
  | [] => (.ok (), runtime)
  | workflow :: rest =>
    match calls.verify workflow with
    | some error =>
      let (errors, runtime) := rollbackRegistered calls registered runtime
      (.error (.load ("entry verification failed for workflow `" ++ shown workflow.workflowType ++ "`: " ++ error ++
        rollbackErrors errors)), runtime)
    | none => verifyStagedEntries calls registered runtime rest

/-- `load_package_with_mode`. -/
def loadPackageWithMode {Archive Writer Json : Type} (codecs : Codecs Archive Writer Json)
    (state : LoaderState) (package : Package Json) (calls : LoadCalls) (publishRoutes : Bool)
    (loadedAt : Instant) : Except LoaderError LoadOutcome × LoaderState :=
  match StagedLoad.new codecs package with
  | .error error => (.error error, state)
  | .ok staged =>
    match state.snapshot.validateStagedModuleNames staged with
    | .error error => (.error error, state)
    | .ok () =>
      match state.snapshot.resolveExistingLoad staged publishRoutes with
      | .error error => (.error error, state)
      | .ok (some (outcome, snapshot)) => (.ok outcome, { state with snapshot := snapshot })
      | .ok none =>
        match registerStagedModules calls state.snapshot staged.modules [] state.runtime with
        | (.error error, runtime) => (.error error, { state with runtime := runtime })
        | (.ok registered, runtime) =>
          match verifyStagedEntries calls registered runtime staged.workflows with
          | (.error error, runtime) => (.error error, { state with runtime := runtime })
          | (.ok (), runtime) =>
            match staged.records.head? with
            | none => (.error (.load "package staged no workflow entries"), { state with runtime := runtime })
            | some record =>
              let routeChanged := staged.records.any fun workflow =>
                state.snapshot.routed.lookup workflow.workflowType ≠ some staged.version
              (.ok ⟨record, true, routeChanged⟩,
                ⟨state.snapshot.withPackage staged package.manifest.entryModule publishRoutes loadedAt, runtime⟩)

end Aion.Loader
