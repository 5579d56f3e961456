import Aion.Library.Result
import Aion.Package.Hash

/-!
# Reading and writing archives

A package is loaded from a ZIP archive entry by entry, charging what inflates to the
caller's budget, and written back by the builder, which stamps the version itself. ZIP, JSON
and SHA-256 are libraries: they are the parameters of `Codecs`. An archive is opened into its
entries, each with a name and, unless it cannot be opened, the bytes it yields before it ends
or fails; a writer is fed one entry after the other.

`Package.load_eq_ok` says what holds of a package that was loaded.
-/

namespace Aion.Packaging

/-! ### Names -/

/-- The text behind `front`. -/
def Text.stripFront (text : Text) (front : List Char) : Option Text :=
  match h : text.chars.dropPrefix? front with
  | none => none
  | some rest =>
    some
      { chars := rest
        fits := by
          obtain ⟨found, heq, -⟩ := List.dropPrefix?_eq_some_iff.mp h
          have hfits := text.fits
          rw [heq, utf8_append, List.length_append] at hfits
          omega }

/-- The text before `back`. -/
def Text.stripBack (text : Text) (back : List Char) : Option Text :=
  match h : text.chars.dropSuffix? back with
  | none => none
  | some rest =>
    some
      { chars := rest
        fits := by
          obtain ⟨found, heq, -⟩ := List.dropSuffix?_eq_some_iff.mp h
          have hfits := text.fits
          rw [heq, utf8_append, List.length_append] at hfits
          omega }

variable {front back : List Char} {text rest : Text}

theorem Text.stripFront_eq_some_iff :
    text.stripFront front = some rest ↔ text.chars = front ++ rest.chars := by
  have hdrop : text.chars.dropPrefix? front = some rest.chars ↔ text.chars =
      front ++ rest.chars := by
    rw [List.dropPrefix?_eq_some_iff]
    simp only [beq_iff_eq, exists_eq_right]
  unfold Text.stripFront
  split
  · next h => simp only [← hdrop, h, reduceCtorEq]
  · next chars h => simp [← hdrop, h, Text.ext_iff]

theorem Text.stripBack_eq_some_iff :
    text.stripBack back = some rest ↔ text.chars = rest.chars ++ back := by
  have hdrop : text.chars.dropSuffix? back = some rest.chars ↔ text.chars = rest.chars ++ back := by
    rw [List.dropSuffix?_eq_some_iff]
    simp only [beq_iff_eq, exists_eq_right]
  unfold Text.stripBack
  split
  · next h => simp only [← hdrop, h, reduceCtorEq]
  · next chars h => simp [← hdrop, h, Text.ext_iff]

/-- Separates a logical name from the hash in a deployed name. -/
def deployedNameSeparator : Char := '$'

/-- Whether a logical name can stand in an archive path. -/
def isSafeLogicalName (logicalName : Text) : Bool :=
  !logicalName.chars.isEmpty && logicalName.chars.head? != some '/' &&
    logicalName.chars.head? != some '\\' &&
    !logicalName.chars.contains '\\' && !logicalName.chars.contains deployedNameSeparator &&
    (logicalName.chars.splitOn '/').all fun component =>
      !component.isEmpty && component != ['.'] && component != ['.', '.']

/-- The logical name in an entry's name. -/
def logicalNameFromEntry (entry : Text) (front back : List Char) : Except PackageError Text :=
  match entry.stripFront front with
  | none => .error (.malformedBeamEntry entry)
  | some withoutFront =>
    match withoutFront.stripBack back with
    | none => .error (.malformedBeamEntry entry)
    | some logical =>
      if isSafeLogicalName logical then .ok logical else .error (.malformedBeamEntry entry)

/-- The logical names of an entry: the safe ones it is the path of. -/
theorem logicalNameFromEntry_eq_ok_iff {entry logical : Text} :
    logicalNameFromEntry entry front back = .ok logical ↔
      entry.chars = front ++ (logical.chars ++ back) ∧ isSafeLogicalName logical = true := by
  unfold logicalNameFromEntry
  constructor
  · intro h
    split at h
    · nomatch h
    · next rest hrest =>
      split at h
      · nomatch h
      · next name hname =>
        split_ifs at h with hsafe
        cases h
        rw [Text.stripFront_eq_some_iff.mp hrest, Text.stripBack_eq_some_iff.mp hname]
        exact ⟨rfl, hsafe⟩
  · rintro ⟨hent, hsafe⟩
    have hfits := entry.fits
    rw [hent, utf8_append, List.length_append] at hfits
    have hfront : entry.stripFront front = some ⟨logical.chars ++ back, by omega⟩ :=
      Text.stripFront_eq_some_iff.mpr hent
    have hback : Text.stripBack ⟨logical.chars ++ back, by omega⟩ back = some logical :=
      Text.stripBack_eq_some_iff.mpr rfl
    simp only [hfront, hback, hsafe, if_true]

/-- The name of the entry a logical name is stored under. -/
def archiveEntryName (front : String) (logicalName : Text) (extension : String) :
    Except PackageError (List Char) :=
  if isSafeLogicalName logicalName then
    .ok (front.toList ++ '/' :: logicalName.chars ++ '.' :: extension.toList)
  else .error (.malformedBeamEntry logicalName)

/-! ### Entries and budgets -/

/-- An opened entry: the bytes it yields, and how it fails after them. -/
structure ZipFile where
  /-- Whether it is a directory. -/
  isDir : Bool
  /-- What reading it yields. -/
  data : Bytes
  /-- What ends the reading, unless the entry ends. -/
  failure : Option String
  deriving DecidableEq

/-- An entry of an archive. -/
structure ZipEntry where
  /-- Its name. -/
  name : Text
  /-- The entry opened, or why it cannot be. -/
  opened : Except ZipError ZipFile
  deriving DecidableEq

/-- The caller's ceiling on inflated bytes. -/
structure ExtractionLimits where
  /-- The ceiling, if there is one. -/
  maxInflatedBytes : Option UInt64
  deriving DecidableEq

namespace ExtractionLimits

/-- A ceiling on all entries together. -/
def bounded (maxInflatedBytes : UInt64) : ExtractionLimits := ⟨some maxInflatedBytes⟩

/-- No ceiling. -/
def unbounded : ExtractionLimits := ⟨none⟩

end ExtractionLimits

/-- The budget of one extraction. -/
inductive ExtractionBudget where
  /-- No ceiling. -/
  | unbounded
  /-- The ceiling, and what is left of it. -/
  | bounded (limit remaining : UInt64)
  deriving DecidableEq

/-- The budget an extraction begins with. -/
def ExtractionLimits.budget (limits : ExtractionLimits) : ExtractionBudget :=
  match limits.maxInflatedBytes with
  | some limit => .bounded limit limit
  | none => .unbounded

/-- One entry read to its end, and the budget after it. A bounded read stops one byte past
the budget, so what the entry does later is not seen. -/
def ExtractionBudget.readEntry (budget : ExtractionBudget) (file : ZipFile) :
    Except PackageError (Bytes × ExtractionBudget) :=
  match budget with
  | .unbounded =>
    match file.failure with
    | some cause => .error (.archiveRead (.io cause))
    | none => .ok (file.data, .unbounded)
  | .bounded limit remaining =>
    let probe := min (remaining.toNat + 1) (2 ^ 64 - 1)
    let taken : Bytes :=
      ⟨file.data.data.take probe, (List.length_take_le' probe _).trans_lt file.data.fits⟩
    let inflated := taken.data.length
    match (if inflated < probe then file.failure else none) with
    | some cause => .error (.archiveRead (.io cause))
    | none =>
      if remaining.toNat < inflated then .error (.inflatedSizeExceeded limit)
      else .ok (taken, .bounded limit (UInt64.ofNat (remaining.toNat - inflated)))

/-! ### The libraries -/

/-- ZIP, JSON and SHA-256: `Archive` is the type of archives, `Json` of JSON documents, and
`Writer` of archives being written. -/
structure Codecs (Archive Writer Json : Type) where
  /-- The digest of a byte string. -/
  sha256 : List UInt8 → ContentHash
  /-- Opens an archive into its entries. -/
  openArchive : Archive → Except ZipError (List ZipEntry)
  /-- A writer without entries. -/
  newWriter : Writer
  /-- Begins an entry. -/
  startFile : Writer → List Char → Except ZipError Writer
  /-- Writes bytes to the entry begun last. -/
  writeAll : Writer → Bytes → Except String Writer
  /-- Ends the archive. -/
  finish : Writer → Except ZipError Archive
  /-- Decodes a manifest. -/
  fromSlice : Bytes → Except String (Manifest Json)
  /-- Encodes a manifest. -/
  toVec : Manifest Json → Except String Bytes

/-- A package, validated and in memory. -/
structure Package (Json : Type) where
  /-- The manifest. -/
  manifest : Manifest Json
  /-- The modules. -/
  beams : BeamSet
  /-- The source files. -/
  source : OrderedMap Text Bytes
  /-- The version. -/
  contentHash : ContentHash
  deriving DecidableEq

/-! ### Loading -/

section Loading

variable {Archive Writer Json : Type} (codecs : Codecs Archive Writer Json)

/-- The entry of the manifest. -/
def manifestEntry : Text := .lit "manifest.json"

/-- The entry of the manifest, opened. -/
def manifestFile (archive : List ZipEntry) : Except PackageError ZipFile :=
  match archive.find? fun entry => entry.name = manifestEntry with
  | none => .error .missingManifest
  | some entry =>
    match entry.opened with
    | .ok file => .ok file
    | .error .fileNotFound => .error .missingManifest
    | .error error => .error (.archiveRead error)

/-- The manifest, and the budget after it. -/
def readManifest (archive : List ZipEntry) (budget : ExtractionBudget) :
    Except PackageError (Manifest Json × ExtractionBudget) := do
  let file ← manifestFile archive
  let (bytes, budget) ← budget.readEntry file
  let manifest ← (codecs.fromSlice bytes).mapError .manifestParse
  return (manifest, budget)

/-- What has been read from the entries so far. -/
structure Extraction where
  /-- The modules, in the order of the archive. -/
  modules : List BeamModule
  /-- The source files. -/
  source : OrderedMap Text Bytes
  /-- The budget left. -/
  budget : ExtractionBudget

/-- One entry of the archive: a module, a source file, or neither. -/
def readArchiveEntry (extraction : Extraction) (entry : ZipEntry) :
    Except PackageError Extraction := do
  let file ← entry.opened.mapError .archiveRead
  if file.isDir then return extraction
  else if entry.name = manifestEntry then return extraction
  else if "beam/".toList.isPrefixOf entry.name.chars then
    let logical ← logicalNameFromEntry entry.name "beam/".toList ".beam".toList
    let (bytes, budget) ← extraction.budget.readEntry file
    return { extraction with modules := extraction.modules ++ [⟨logical, bytes⟩], budget }
  else if "src/".toList.isPrefixOf entry.name.chars then
    let logical ← logicalNameFromEntry entry.name "src/".toList ".gleam".toList
    let (bytes, budget) ← extraction.budget.readEntry file
    if (extraction.source.lookup logical).isSome then .error (.malformedBeamEntry entry.name)
    else return { extraction with source := extraction.source.insert logical bytes, budget }
  else return extraction

/-- The modules and source files of an archive. -/
def readArchiveEntries (archive : List ZipEntry) (budget : ExtractionBudget) :
    Except PackageError (BeamSet × OrderedMap Text Bytes) := do
  let extraction ← archive.foldlM readArchiveEntry ⟨[], .empty, budget⟩
  let beams ← BeamSet.new extraction.modules
  return (beams, extraction.source)

/-- Loads a package: the version of the manifest must be one of its modules', and its entry
module one of them. -/
def Package.load (archive : Archive) (limits : ExtractionLimits) :
    Except PackageError (Package Json) := do
  let entries ← (codecs.openArchive archive).mapError .archiveRead
  let (manifest, budget) ← readManifest codecs entries limits.budget
  manifest.checkFormatVersion
  let (beams, source) ← readArchiveEntries entries budget
  let contentHash ← verifiedContentHash codecs.sha256 beams manifest
  if (beams.get manifest.entryModule).isNone then .error (.missingEntryModule manifest.entryModule)
  else return { manifest, beams, source, contentHash }

/-- Names that can stand in archive paths: those of the modules and of the source files. -/
def SafeNames (modules : List BeamModule) (source : OrderedMap Text Bytes) : Prop :=
  (∀ module ∈ modules, isSafeLogicalName module.name = true) ∧
    ∀ file ∈ source.entries, isSafeLogicalName file.1 = true

/-- An entry adds safe names only. -/
theorem safeNames_of_readArchiveEntry {before after : Extraction} {entry : ZipEntry}
    (h : readArchiveEntry before entry = .ok after)
    (hsafe : SafeNames before.modules before.source) : SafeNames after.modules after.source := by
  unfold readArchiveEntry at h
  obtain ⟨file, -, h⟩ := Result.bind_eq_ok h
  split_ifs at h with hdir hmani hbeam hsrc
  · cases h
    exact hsafe
  · cases h
    exact hsafe
  · obtain ⟨logical, hlogical, h⟩ := Result.bind_eq_ok h
    obtain ⟨⟨bytes, budget⟩, -, h⟩ := Result.bind_eq_ok h
    cases h
    refine ⟨fun module hmod => ?_, hsafe.2⟩
    rcases List.mem_append.mp hmod with hmod | hmod
    · exact hsafe.1 module hmod
    · cases List.mem_singleton.mp hmod
      exact (logicalNameFromEntry_eq_ok_iff.mp hlogical).2
  · obtain ⟨logical, hlogical, h⟩ := Result.bind_eq_ok h
    obtain ⟨⟨bytes, budget⟩, -, h⟩ := Result.bind_eq_ok h
    dsimp only at h
    split_ifs at h
    cases h
    refine ⟨hsafe.1, fun file hfile => ?_⟩
    rcases OrderedMap.mem_insertEntry hfile with rfl | hfile
    · exact (logicalNameFromEntry_eq_ok_iff.mp hlogical).2
    · exact hsafe.2 file hfile
  · cases h
    exact hsafe

theorem safeNames_of_readArchiveEntries {archive : List ZipEntry} {budget : ExtractionBudget}
    {beams : BeamSet} {source : OrderedMap Text Bytes}
    (h : readArchiveEntries archive budget = .ok (beams, source)) :
    SafeNames beams.modules source := by
  obtain ⟨extraction, hfold, h⟩ := Result.bind_eq_ok h
  obtain ⟨beams, hnew, h⟩ := Result.bind_eq_ok h
  cases h
  have hsafe : SafeNames extraction.modules extraction.source := by
    refine Result.foldlM_rel
      (fun before after : Extraction => SafeNames before.modules before.source → SafeNames after.modules after.source)
      (fun _ hsafe => hsafe) (fun _ _ _ hab hbc hsafe => hbc (hab hsafe))
      (fun before after entry _ hent => safeNames_of_readArchiveEntry hent) hfold ?_
    exact ⟨fun _ hmod => absurd hmod List.not_mem_nil, fun _ hfile => absurd hfile List.not_mem_nil⟩
  exact ⟨fun module hmod => hsafe.1 module (BeamSet.mem_of_new_eq_ok hnew hmod), hsafe.2⟩

/-- **What a loaded package is**: its format is the current one, its names are safe, its
version is one of the accepted forms, and its entry module is there. -/
theorem Package.load_eq_ok {archive : Archive} {limits : ExtractionLimits} {package : Package Json}
    (h : Package.load codecs archive limits = .ok package) :
    package.manifest.formatVersion = currentFormatVersion ∧
      SafeNames package.beams.modules package.source ∧
      verifiedContentHash codecs.sha256 package.beams package.manifest = .ok package.contentHash ∧
      (package.beams.get package.manifest.entryModule).isNone = false := by
  obtain ⟨entries, -, h⟩ := Result.bind_eq_ok h
  obtain ⟨⟨manifest, budget⟩, -, h⟩ := Result.bind_eq_ok h
  obtain ⟨_, hformat, h⟩ := Result.bind_eq_ok h
  obtain ⟨⟨beams, source⟩, hread, h⟩ := Result.bind_eq_ok h
  obtain ⟨hash, hhash, h⟩ := Result.bind_eq_ok h
  split_ifs at h with hent
  cases h
  refine ⟨?_, safeNames_of_readArchiveEntries hread, hhash, Bool.eq_false_of_not_eq_true hent⟩
  unfold Manifest.checkFormatVersion at hformat
  split_ifs at hformat with hver
  exact hver

variable (package : Package Json)

/-- Whether the version commits to a timeout that the author gave. -/
def Package.hasDeclaredTimeout : Bool :=
  hasExplicitTimeoutIdentity codecs.sha256 package.beams package.manifest package.contentHash

/-- The timeout of an entry, if the version commits to it. -/
def Package.declaredEntryTimeout (entryTimeout : Option Duration) : Option Duration :=
  if package.hasDeclaredTimeout codecs then entryTimeout else none

/-- The timeout of the primary entry, if the version commits to it. -/
def Package.declaredTimeout : Option Duration :=
  package.declaredEntryTimeout codecs package.manifest.timeout

/-- The timeouts the version commits to, of the primary entry and of the others. -/
def Package.declaredTimeouts : List (Option Duration) :=
  package.declaredTimeout codecs ::
    package.manifest.additionalWorkflows.map fun entry =>
      package.declaredEntryTimeout codecs entry.timeout

/-- The modules under the names they are deployed by. -/
def Package.deployedModules : List (List Char × Bytes) :=
  package.beams.modules.map fun module =>
    (module.name.chars ++ deployedNameSeparator :: package.contentHash.toText.chars, module.bytes)

end Loading

/-! ### Writing -/

/-- Writes a package, stamping its version. -/
structure PackageBuilder (Json : Type) where
  /-- The manifest to stamp. -/
  manifest : Manifest Json
  /-- The modules. -/
  beams : BeamSet
  /-- The source files. -/
  source : OrderedMap Text Bytes
  /-- Whether the version is to commit to the timeouts. -/
  explicitTimeoutIdentity : Bool

/-- A builder with source files, by their logical names. -/
def PackageBuilder.withSource {Json : Type} (manifest : Manifest Json) (beams : BeamSet)
    (source : List (Text × Bytes)) : PackageBuilder Json where
  manifest := manifest
  beams := beams
  source := .collect source
  explicitTimeoutIdentity := false

/-- Has the version commit to the timeouts. -/
def PackageBuilder.withExplicitTimeoutIdentity {Json : Type} (builder : PackageBuilder Json) :
    PackageBuilder Json :=
  { builder with explicitTimeoutIdentity := true }

/-- Whether some entry declares a timeout. -/
def Manifest.anyDeclared {Json : Type} (manifest : Manifest Json) : Bool :=
  manifest.timeout.isSome || manifest.additionalWorkflows.any fun entry => entry.timeout.isSome

section Writing

variable {Archive Writer Json : Type} (codecs : Codecs Archive Writer Json)
  (builder : PackageBuilder Json)

/-- The version to stamp; one over the timeouts needs a timeout. -/
def PackageBuilder.stampedHash : Except PackageError ContentHash :=
  if builder.explicitTimeoutIdentity then
    if builder.manifest.anyDeclared then
      .ok (contentHashWithTimeouts codecs.sha256 builder.beams builder.manifest)
    else .error .explicitTimeoutWithoutValue
  else .ok (contentHash codecs.sha256 builder.beams)

/-- The manifest with the version the modules give it. -/
def PackageBuilder.stampedManifest : Except PackageError (Manifest Json) := do
  if (builder.beams.get builder.manifest.entryModule).isNone then
    .error (.missingEntryModule builder.manifest.entryModule)
  else
    let hash ← builder.stampedHash codecs
    return { builder.manifest with version := hash.toText }

/-- One entry written. -/
def writeEntry (writer : Writer) (name : List Char) (bytes : Bytes) : Except PackageError Writer :=
  do
  let writer ← (codecs.startFile writer name).mapError .archiveWrite
  (codecs.writeAll writer bytes).mapError .archiveWriteIo

/-- The manifest, the modules and the source files, in this order. -/
def PackageBuilder.writeArchive (manifestBytes : Bytes) : Except PackageError Archive := do
  let writer ← writeEntry codecs codecs.newWriter manifestEntry.chars manifestBytes
  let writer ← builder.beams.modules.foldlM (fun writer module => do
    let name ← archiveEntryName "beam" module.name "beam"
    writeEntry codecs writer name module.bytes) writer
  let writer ← builder.source.entries.foldlM (fun writer file => do
    let name ← archiveEntryName "src" file.1 "gleam"
    writeEntry codecs writer name file.2) writer
  (codecs.finish writer).mapError .archiveWrite

/-- The archive in memory. -/
def PackageBuilder.writeToBytes : Except PackageError Archive := do
  let manifest ← builder.stampedManifest codecs
  let manifestBytes ← (codecs.toVec manifest).mapError .manifestSerialise
  builder.writeArchive codecs manifestBytes

/-- The archive a loaded package is kept as. -/
def Package.toArchiveBytes (package : Package Json) : Except PackageError Archive :=
  let builder := PackageBuilder.withSource package.manifest package.beams package.source.entries
  if hasExplicitTimeoutIdentity codecs.sha256 package.beams package.manifest
    package.contentHash then
    builder.withExplicitTimeoutIdentity.writeToBytes codecs
  else builder.writeToBytes codecs

end Writing

/-! ### A sample

A package of one module, and what the libraries do on it: the digests are those of SHA-256,
the documents those of the manifest's JSON form. Containers keep their entries as they are. -/

section Sample

/-- A container that keeps its entries, with tables for digests and documents. -/
def Codecs.plain (digests : List (List UInt8 × ContentHash))
    (documents : List (Bytes × Manifest Bool)) :
    Codecs (List (List Char × Bytes)) (List (List Char × Bytes)) Bool where
  sha256 bytes := (digests.lookup bytes).getD ⟨List.replicate 32 0, List.length_replicate⟩
  openArchive archive := archive.mapM fun entry =>
    if h : (utf8 entry.1).length < 2 ^ 63 then .ok ⟨⟨entry.1, h⟩, .ok ⟨false, entry.2, none⟩⟩
    else .error (.archive "name too long")
  newWriter := []
  startFile writer name := .ok (writer ++ [(name, ⟨[], by decide⟩)])
  writeAll writer bytes :=
    match writer.getLast? with
    | none => .error "no file has been started"
    | some last =>
      if h : (last.2.data ++ bytes.data).length < 2 ^ 63 then
        .ok (writer.dropLast ++ [(last.1, ⟨last.2.data ++ bytes.data, h⟩)])
      else .error "file too large"
  finish writer := .ok writer
  fromSlice bytes :=
    match documents.lookup bytes with
    | some manifest => .ok manifest
    | none => .error "expected value"
  toVec manifest :=
    match documents.find? fun document => document.2 = manifest with
    | some document => .ok document.1
    | none => .error "key must be a string"

/-- The module of the sample. -/
def sampleModule : BeamModule := ⟨.lit "a", ⟨[1], by decide⟩⟩

/-- Its only module. -/
def sampleBeams : BeamSet := ⟨[sampleModule], List.pairwise_singleton _ _, by decide⟩

/-- A digest from its number. -/
def digestOf (n : ℕ) : ContentHash := ⟨PrefixCode.bigEndian 32 n, PrefixCode.length_bigEndian 32 n⟩

/-- The timeout of the sample, four seconds. -/
def sampleTimeout : Duration := ⟨4, 0, by decide⟩

/-- A manifest of the sample. -/
def sampleManifest (timeout : Option Duration) (version : ContentHash) : Manifest Bool where
  entryModule := .lit "a"
  entryFunction := .lit "run"
  inputSchema := true
  outputSchema := true
  timeout := timeout
  activities := []
  version := version.toText
  formatVersion := 1
  additionalWorkflows := []
  fits := by decide

/-- The version over the module alone. -/
def sampleLegacy : ContentHash :=
  digestOf 0x47f5f508be805163353ea42ed45f1013f88cbc27de69ecbaec4d6d551f19ac3b

/-- The version over the module and the primary timeout. -/
def sampleV1 : ContentHash :=
  digestOf 0xe0527c3cb222c4e84d7d0632e77b872f05571d04971fd249e4683a9881bb0977

/-- The version over the module and every entry's timeout. -/
def sampleV3 : ContentHash :=
  digestOf 0x041450c5c9064290a213dfaeb211bc376de3cc5bacf9e2706c7d98221e682e8a

/-- The bytes of a literal. -/
def Bytes.lit (literal : String) (fits : literal.toByteArray.data.toList.length < 2 ^ 63) : Bytes :=
  ⟨literal.toByteArray.data.toList, fits⟩

/-- The document of the sample under the first of these versions. -/
def sampleLegacyDocument : Bytes :=
  .lit
    ("\x7b\"entry_module\":\"a\",\"entry_function\":\"run\",\"input_schema\":true,\"output_schema\":true," ++
      "\"timeout\":\x7b\"secs\":4,\"nanos\":0\x7d,\"activities\":[]," ++
      "\"version\":\"47f5f508be805163353ea42ed45f1013f88cbc27de69ecbaec4d6d551f19ac3b\"," ++
      "\"format_version\":1\x7d")
    (by decide +kernel)

/-- The document under the second. -/
def sampleV1Document : Bytes :=
  .lit
    ("\x7b\"entry_module\":\"a\",\"entry_function\":\"run\",\"input_schema\":true,\"output_schema\":true," ++
      "\"timeout\":\x7b\"secs\":4,\"nanos\":0\x7d,\"activities\":[]," ++
      "\"version\":\"e0527c3cb222c4e84d7d0632e77b872f05571d04971fd249e4683a9881bb0977\"," ++
      "\"format_version\":1\x7d")
    (by decide +kernel)

/-- The document under the third. -/
def sampleV3Document : Bytes :=
  .lit
    ("\x7b\"entry_module\":\"a\",\"entry_function\":\"run\",\"input_schema\":true,\"output_schema\":true," ++
      "\"timeout\":\x7b\"secs\":4,\"nanos\":0\x7d,\"activities\":[]," ++
      "\"version\":\"041450c5c9064290a213dfaeb211bc376de3cc5bacf9e2706c7d98221e682e8a\"," ++
      "\"format_version\":1\x7d")
    (by decide +kernel)

/-- The digests of the sample. -/
def sampleDigests : List (List UInt8 × ContentHash) :=
  [(beamsIdentity sampleBeams, sampleLegacy), (timeoutIdentity sampleBeams sampleTimeout, sampleV1),
    (timeoutsIdentity sampleBeams (sampleManifest (some sampleTimeout) sampleV3), sampleV3)]

/-- The documents of the sample. -/
def sampleDocuments : List (Bytes × Manifest Bool) :=
  [(sampleLegacyDocument, sampleManifest (some sampleTimeout) sampleLegacy),
    (sampleV1Document, sampleManifest (some sampleTimeout) sampleV1),
    (sampleV3Document, sampleManifest (some sampleTimeout) sampleV3)]

/-- An archive of the sample with one of the documents. -/
def sampleArchive (document : Bytes) : List (List Char × Bytes) :=
  [("manifest.json".toList, document), ("beam/a.beam".toList, sampleModule.bytes)]

/-- The sample as it is loaded under a version. -/
def samplePackage (version : ContentHash) : Package Bool where
  manifest := sampleManifest (some sampleTimeout) version
  beams := sampleBeams
  source := .empty
  contentHash := version

end Sample

end Aion.Packaging
