import Aion.Package.Archive

/-!
# Archiving a package again

The engine keeps a deployed package as the archive that `Package.toArchiveBytes` writes, and
loads it from there after a restart. Loading accepts three forms of a version; the builder
stamps two of them. A package whose version is over the primary timeout alone is stamped
with another version, and one whose version is over the timeouts of entries that have none
is not written at all. Every other package comes back as it was (`rearchives_iff`).

ZIP and JSON are libraries, so what is assumed of them is stated for the documents and entries of
the package at hand: the writer succeeds, and the reader returns what was written.
-/

namespace Aion.Packaging

variable {Archive Writer Json : Type}

/-! ### What is written -/

/-- The entry of a module. -/
def moduleEntry (module : BeamModule) : List Char × Bytes :=
  ("beam/".toList ++ (module.name.chars ++ ".beam".toList), module.bytes)

/-- The entry of a source file. -/
def sourceEntry (file : Text × Bytes) : List Char × Bytes :=
  ("src/".toList ++ (file.1.chars ++ ".gleam".toList), file.2)

/-- The entries of a package: the manifest, the modules and the source files. -/
def storedEntries (beams : BeamSet) (source : OrderedMap Text Bytes) (manifestBytes : Bytes) :
    List (List Char × Bytes) :=
  (manifestEntry.chars, manifestBytes) ::
    (beams.modules.map moduleEntry ++ source.entries.map sourceEntry)

/-- The archive of the entries. -/
def Codecs.writeEntries (codecs : Codecs Archive Writer Json) (entries : List (List Char × Bytes)) :
    Except PackageError Archive := do
  let writer ← entries.foldlM (fun writer entry => writeEntry codecs writer entry.1 entry.2)
    codecs.newWriter
  (codecs.finish writer).mapError .archiveWrite

theorem archiveEntryName_of_safe {front extension : String} {logicalName : Text}
    (h : isSafeLogicalName logicalName = true) :
    archiveEntryName front logicalName extension =
      .ok ((front.toList ++ ['/']) ++ (logicalName.chars ++ ('.' :: extension.toList))) := by
  rw [archiveEntryName, if_pos h]
  simp

/-- The builder writes these entries when the names are safe. -/
theorem PackageBuilder.writeArchive_eq (codecs : Codecs Archive Writer Json)
    {builder : PackageBuilder Json} (hsafe : SafeNames builder.beams.modules builder.source)
    (manifestBytes : Bytes) :
    builder.writeArchive codecs manifestBytes =
      codecs.writeEntries (storedEntries builder.beams builder.source manifestBytes) := by
  have hmods : ∀ writer, builder.beams.modules.foldlM (fun writer module => do
      let name ← archiveEntryName "beam" module.name "beam"
      writeEntry codecs writer name module.bytes) writer =
        (builder.beams.modules.map moduleEntry).foldlM
          (fun writer entry => writeEntry codecs writer entry.1 entry.2) writer := by
    refine Result.foldlM_eq_foldlM_map fun writer module hmem => ?_
    rw [archiveEntryName_of_safe (hsafe.1 module hmem)]
    rfl
  have hsrc : ∀ writer, builder.source.entries.foldlM (fun writer file => do
      let name ← archiveEntryName "src" file.1 "gleam"
      writeEntry codecs writer name file.2) writer =
        (builder.source.entries.map sourceEntry).foldlM
          (fun writer entry => writeEntry codecs writer entry.1 entry.2) writer := by
    refine Result.foldlM_eq_foldlM_map fun writer file hmem => ?_
    rw [archiveEntryName_of_safe (hsafe.2 file hmem)]
    rfl
  unfold writeArchive Codecs.writeEntries storedEntries
  simp [hmods, hsrc]

/-! ### What is read -/

/-- An entry reads as what was written for it. -/
def ReadsAs (entry : ZipEntry) (written : List Char × Bytes) : Prop :=
  entry.name.chars = written.1 ∧ entry.opened = .ok ⟨false, written.2, none⟩

variable {extraction : Extraction} {opened : List ZipEntry} {entry : ZipEntry}
  {manifestBytes : Bytes}

theorem readArchiveEntry_manifest {bytes : Bytes} (h : ReadsAs entry (manifestEntry.chars, bytes)) :
    readArchiveEntry extraction entry = .ok extraction := by
  have hname : entry.name = manifestEntry := Text.ext h.1
  rw [readArchiveEntry, h.2]
  simp only [Except.mapError, hname, if_true]
  rfl

theorem readArchiveEntry_module {module : BeamModule} (h : ReadsAs entry (moduleEntry module))
    (hsafe : isSafeLogicalName module.name = true) (hbudget : extraction.budget = .unbounded) :
    readArchiveEntry extraction entry = .ok { extraction with modules :=
        extraction.modules ++ [module] } := by
  obtain ⟨hname, hopened⟩ := h
  have hlogical : logicalNameFromEntry entry.name "beam/".toList ".beam".toList = .ok module.name :=
    logicalNameFromEntry_eq_ok_iff.mpr ⟨hname, hsafe⟩
  have hmani : entry.name ≠ manifestEntry := by
    intro heq
    rw [heq] at hname
    have hhead : some 'm' = some 'b' := congrArg List.head? hname
    exact absurd hhead (by decide)
  have hfront : "beam/".toList.isPrefixOf entry.name.chars = true := by
    rw [hname]
    exact List.isPrefixOf_iff_prefix.mpr (List.prefix_append _ _)
  rw [readArchiveEntry, hopened]
  simp only [Except.mapError, hlogical, hmani, hfront, hbudget, if_false, if_true,
    ExtractionBudget.readEntry]
  cases extraction
  cases hbudget
  rfl

theorem readArchiveEntry_source {file : Text × Bytes}
    (h : ReadsAs entry (sourceEntry file)) (hsafe : isSafeLogicalName file.1 = true)
    (hbudget : extraction.budget = .unbounded) (hnew : extraction.source.lookup file.1 = none) :
    readArchiveEntry extraction entry =
      .ok { extraction with source := extraction.source.insert file.1 file.2 } := by
  obtain ⟨hname, hopened⟩ := h
  have hlogical : logicalNameFromEntry entry.name "src/".toList ".gleam".toList = .ok file.1 :=
    logicalNameFromEntry_eq_ok_iff.mpr ⟨hname, hsafe⟩
  have hmani : entry.name ≠ manifestEntry := by
    intro heq
    rw [heq] at hname
    have hhead : some 'm' = some 's' := congrArg List.head? hname
    exact absurd hhead (by decide)
  have hbeam : "beam/".toList.isPrefixOf entry.name.chars = false := by
    rw [hname]
    rfl
  have hfront : "src/".toList.isPrefixOf entry.name.chars = true := by
    rw [hname]
    exact List.isPrefixOf_iff_prefix.mpr (List.prefix_append _ _)
  rw [readArchiveEntry, hopened]
  simp only [Except.mapError, hlogical, hmani, hbeam, hfront, hbudget, Bool.false_eq_true,
    if_false, if_true,
    ExtractionBudget.readEntry]
  obtain ⟨modules, source, budget⟩ := extraction
  cases hbudget
  change (if (source.lookup file.1).isSome = true then _ else _) = _
  rw [hnew]
  rfl

/-- The entries of modules are read one after the other. -/
theorem foldlM_readArchiveEntry_modules {modules : List BeamModule}
    (h : List.Forall₂ ReadsAs opened (modules.map moduleEntry))
    (hsafe : ∀ module ∈ modules, isSafeLogicalName module.name = true)
    (hbudget : extraction.budget = .unbounded) :
    opened.foldlM readArchiveEntry extraction =
      .ok { extraction with modules := extraction.modules ++ modules } := by
  induction modules generalizing opened extraction with
  | nil =>
    cases h
    rw [List.append_nil]
    rfl
  | cons module rest ih =>
    obtain ⟨hmod, hsafe⟩ := List.forall_mem_cons.mp hsafe
    obtain ⟨entry, opened, hent, hrest, rfl⟩ := List.forall₂_cons_right_iff.mp h
    rw [List.foldlM_cons, readArchiveEntry_module hent hmod hbudget]
    change List.foldlM readArchiveEntry { extraction with modules := extraction.modules ++ [module] } opened = _
    rw [ih hrest hsafe, List.append_assoc, List.singleton_append]
    exact hbudget

/-- The entries of source files are read one after the other. -/
theorem foldlM_readArchiveEntry_source {files : List (Text × Bytes)}
    (h : List.Forall₂ ReadsAs opened (files.map sourceEntry))
    (hsafe : ∀ file ∈ files, isSafeLogicalName file.1 = true) (hbudget : extraction.budget = .unbounded)
    (hascending : (extraction.source.entries ++ files).Pairwise fun a b => a.1 < b.1) :
    opened.foldlM readArchiveEntry extraction =
      .ok { extraction with source := files.foldl (fun m file => m.insert file.1 file.2) extraction.source } := by
  induction files generalizing opened extraction with
  | nil =>
    cases h
    rfl
  | cons file rest ih =>
    obtain ⟨hfile, hsafe⟩ := List.forall_mem_cons.mp hsafe
    have hlt : ∀ entry ∈ extraction.source.entries, entry.1 < file.1 := fun entry hent =>
      (List.pairwise_append.mp hascending).2.2 entry hent file List.mem_cons_self
    obtain ⟨entry, opened, hent, hrest, rfl⟩ := List.forall₂_cons_right_iff.mp h
    rw [List.foldlM_cons, readArchiveEntry_source hent hfile hbudget (OrderedMap.lookup_eq_none_of_lt hlt)]
    change List.foldlM readArchiveEntry
      { extraction with source := extraction.source.insert file.1 file.2 } opened = _
    rw [ih hrest hsafe]
    · rfl
    · exact hbudget
    · change ((extraction.source.insert file.1 file.2).entries ++ rest).Pairwise _
      rw [OrderedMap.entries_insert_of_lt file.2 hlt, List.append_assoc, List.singleton_append]
      exact hascending

/-- **Reading what was written**: the modules and source files come back. -/
theorem readArchiveEntries_stored {beams : BeamSet} {source : OrderedMap Text Bytes}
    (h : List.Forall₂ ReadsAs opened (storedEntries beams source manifestBytes))
    (hsafe : SafeNames beams.modules source) : readArchiveEntries opened .unbounded = .ok (beams, source) := by
  obtain ⟨entry, opened, hmani, hrest, rfl⟩ := List.forall₂_cons_right_iff.mp h
  have hmods := List.forall₂_take_append _ _ _ hrest
  have hfiles := List.forall₂_drop_append _ _ _ hrest
  rw [readArchiveEntries, List.foldlM_cons, readArchiveEntry_manifest hmani]
  change (List.foldlM readArchiveEntry _ opened >>= _) = _
  rw [← List.take_append_drop (beams.modules.map moduleEntry).length opened, List.foldlM_append,
    foldlM_readArchiveEntry_modules hmods hsafe.1 rfl]
  have hsrc : List.foldlM readArchiveEntry ⟨beams.modules, .empty, .unbounded⟩ _ =
      .ok ⟨beams.modules, .collect source.entries, .unbounded⟩ :=
    foldlM_readArchiveEntry_source hfiles hsafe.2 rfl source.ascending
  change (List.foldlM readArchiveEntry ⟨beams.modules, .empty, .unbounded⟩ _ >>= _) = _
  rw [hsrc]
  change (BeamSet.new beams.modules >>= fun beams =>
      pure (beams, OrderedMap.collect source.entries)) = _
  rw [BeamSet.new_modules, OrderedMap.collect_entries]
  rfl

section RoundTrip

variable (codecs : Codecs Archive Writer Json)

/-- The writer writes the entries and the reader returns them. -/
def Codecs.Restores (entries : List (List Char × Bytes)) : Prop :=
  ∃ archive opened, codecs.writeEntries entries = .ok archive ∧
    codecs.openArchive archive = .ok opened ∧
    List.Forall₂ ReadsAs opened entries

/-- The manifest is encoded, and decoded to what it was. -/
def Codecs.RestoresManifest (manifest : Manifest Json) : Prop :=
  ∃ bytes, codecs.toVec manifest = .ok bytes ∧ codecs.fromSlice bytes = .ok manifest

/-- An archive of stored entries is loaded as the package they were stored for. -/
theorem Package.load_stored {package : Package Json} {archive : Archive}
    (hopen : codecs.openArchive archive = .ok opened)
    (hreads : List.Forall₂ ReadsAs opened
        (storedEntries package.beams package.source manifestBytes))
    (hmani : codecs.fromSlice manifestBytes = .ok package.manifest)
    (hsafe : SafeNames package.beams.modules package.source)
    (hformat : package.manifest.formatVersion = currentFormatVersion)
    (hverif : verifiedContentHash codecs.sha256 package.beams package.manifest =
        .ok package.contentHash)
    (hent : (package.beams.get package.manifest.entryModule).isNone = false) :
    Package.load codecs archive .unbounded = .ok package := by
  have hread : readManifest codecs opened .unbounded = .ok (package.manifest, .unbounded) := by
    obtain ⟨first, rest, hfst, -, rfl⟩ := List.forall₂_cons_right_iff.mp hreads
    have hname : first.name = manifestEntry := Text.ext hfst.1
    have hfile : manifestFile (first :: rest) = .ok ⟨false, manifestBytes, none⟩ := by
      simp [manifestFile, hname, hfst.2]
    rw [readManifest, hfile]
    change ((codecs.fromSlice manifestBytes).mapError PackageError.manifestParse >>= fun manifest =>
      pure (manifest, ExtractionBudget.unbounded)) = _
    rw [hmani]
    rfl
  have hcheck : package.manifest.checkFormatVersion = .ok () := by
    rw [Manifest.checkFormatVersion, if_pos hformat]
  unfold Package.load
  rw [hopen]
  change (readManifest codecs opened .unbounded >>= _) = _
  rw [hread]
  change (package.manifest.checkFormatVersion >>= _) = _
  rw [hcheck]
  change (readArchiveEntries opened .unbounded >>= _) = _
  rw [readArchiveEntries_stored hreads hsafe]
  change (verifiedContentHash codecs.sha256 package.beams package.manifest >>= _) = _
  rw [hverif]
  change (if (package.beams.get package.manifest.entryModule).isNone = true then _ else _) = _
  rw [hent]
  rfl

/-- The manifest of a package under another version. -/
def Package.stamped (package : Package Json) (hash : ContentHash) : Manifest Json :=
  { package.manifest with version := hash.toText }

/-- The version of the manifest is the one it is stamped with. -/
theorem Package.stamped_eq_manifest {package : Package Json} {hash : ContentHash}
    (h : package.manifest.version = hash.toText) : package.stamped hash = package.manifest := by
  rw [stamped, ← h]

/-- Where the builder stamps a manifest that is restored, its archive is loaded with it. -/
theorem PackageBuilder.load_writeToBytes {builder : PackageBuilder Json} {package : Package Json}
    {hash : ContentHash} (hbeams : builder.beams = package.beams)
    (hsrc : builder.source = package.source)
    (hstamp : builder.stampedManifest codecs = .ok (package.stamped hash))
    (hjson : codecs.RestoresManifest (package.stamped hash))
    (hzip : ∀ bytes, codecs.toVec (package.stamped hash) = .ok bytes →
        codecs.Restores (storedEntries package.beams package.source bytes))
    (hsafe : SafeNames package.beams.modules package.source)
    (hformat : package.manifest.formatVersion = currentFormatVersion)
    (hent : (package.beams.get package.manifest.entryModule).isNone = false)
    {verified : ContentHash}
    (hverif : verifiedContentHash codecs.sha256 package.beams (package.stamped hash) =
        .ok verified) :
    ∃ archive, builder.writeToBytes codecs = .ok archive ∧
      Package.load codecs archive .unbounded =
        .ok { package with manifest := package.stamped hash, contentHash := verified } := by
  obtain ⟨bytes, henc, hdec⟩ := hjson
  obtain ⟨archive, opened, hwrite, hopen, hreads⟩ := hzip bytes henc
  refine ⟨archive, ?_, Package.load_stored codecs hopen hreads hdec hsafe hformat hverif hent⟩
  rw [writeToBytes, hstamp]
  change ((codecs.toVec (package.stamped hash)).mapError PackageError.manifestSerialise >>= _) = _
  rw [henc]
  change builder.writeArchive codecs bytes = _
  rw [writeArchive_eq codecs (by rwa [hbeams, hsrc]), hbeams, hsrc, hwrite]

/-- Where the builder stamps a loaded package with the version it has, it comes back as it is. -/
theorem PackageBuilder.load_writeToBytes_eq {limits : ExtractionLimits} {loaded : Archive}
    {builder : PackageBuilder Json} {package : Package Json} {hash : ContentHash}
    (hload : Package.load codecs loaded limits = .ok package)
    (hver : package.manifest.version = hash.toText) (hbeams : builder.beams = package.beams)
    (hsrc : builder.source = package.source)
    (hstamp : builder.stampedManifest codecs = .ok (package.stamped hash))
    (hjson : codecs.RestoresManifest (package.stamped hash))
    (hzip : ∀ bytes, codecs.toVec (package.stamped hash) = .ok bytes →
        codecs.Restores (storedEntries package.beams package.source bytes)) :
    ∃ archive, builder.writeToBytes codecs = .ok archive ∧ Package.load codecs archive .unbounded =
      .ok package := by
  obtain ⟨hformat, hsafe, hverif, hent⟩ := Package.load_eq_ok codecs hload
  rw [← Package.stamped_eq_manifest hver] at hverif
  obtain ⟨archive, hwrite, hagain⟩ :=
    PackageBuilder.load_writeToBytes codecs hbeams hsrc hstamp hjson hzip hsafe hformat hent hverif
  rw [Package.stamped_eq_manifest hver] at hagain
  exact ⟨archive, hwrite, hagain⟩

/-- A loaded package declares timeouts when its stored version is the one over them and not
the one over the modules. -/
theorem Package.hasDeclaredTimeout_iff_version {package : Package Json}
    (h : verifiedContentHash codecs.sha256 package.beams package.manifest =
        .ok package.contentHash) :
    package.hasDeclaredTimeout codecs = true ↔
      package.manifest.version ≠ (Packaging.contentHash codecs.sha256 package.beams).toText ∧
        package.manifest.version = (contentHashWithTimeouts codecs.sha256 package.beams
            package.manifest).toText := by
  obtain ⟨hver, -⟩ := verifiedContentHash_eq_ok _ h
  rw [hasDeclaredTimeout, hasExplicitTimeoutIdentity, Bool.and_eq_true, decide_eq_true_eq,
    decide_eq_true_eq]
  constructor
  · rintro ⟨hlegacy, htimeouts⟩
    refine ⟨fun heq => hlegacy ?_, htimeouts ▸ hver⟩
    rw [verifiedContentHash, if_pos heq] at h
    exact (Except.ok.inj h).symm
  · rintro ⟨hlegacy, htimeouts⟩
    refine ⟨fun heq => hlegacy (heq ▸ hver), ?_⟩
    simp only [verifiedContentHash] at h
    rw [if_neg hlegacy, if_pos htimeouts] at h
    exact (Except.ok.inj h).symm

/-- The builder `Package.toArchiveBytes` starts from. -/
def Package.builder (package : Package Json) : PackageBuilder Json :=
  .withSource package.manifest package.beams package.source.entries

theorem Package.source_builder (package : Package Json) : package.builder.source = package.source :=
  OrderedMap.collect_entries package.source

/-- The builder stamps the version it computes, as the entry module is there. -/
theorem PackageBuilder.stampedManifest_eq {builder : PackageBuilder Json}
    (hent : (builder.beams.get builder.manifest.entryModule).isNone = false) :
    builder.stampedManifest codecs =
      (builder.stampedHash codecs).map fun hash =>
      { builder.manifest with version := hash.toText } := by
  rw [stampedManifest, hent]
  cases builder.stampedHash codecs with
  | error e => rfl
  | ok hash => rfl

/-- Without the timeouts the modules alone give the version. -/
theorem Package.stampedManifest_builder {package : Package Json}
    (hent : (package.beams.get package.manifest.entryModule).isNone = false) :
    package.builder.stampedManifest codecs =
      .ok (package.stamped (Packaging.contentHash codecs.sha256 package.beams)) :=
  PackageBuilder.stampedManifest_eq codecs hent

/-- With the timeouts the version is over them, if there is one. -/
theorem Package.stampedManifest_builder_explicit {package : Package Json}
    (hent : (package.beams.get package.manifest.entryModule).isNone = false) :
    package.builder.withExplicitTimeoutIdentity.stampedManifest codecs =
      if package.manifest.anyDeclared then
        .ok (package.stamped (contentHashWithTimeouts codecs.sha256 package.beams package.manifest))
      else .error .explicitTimeoutWithoutValue := by
  have hhash : package.builder.withExplicitTimeoutIdentity.stampedHash codecs =
      if package.manifest.anyDeclared then
        .ok (contentHashWithTimeouts codecs.sha256 package.beams package.manifest)
      else .error .explicitTimeoutWithoutValue := rfl
  rw [PackageBuilder.stampedManifest_eq codecs hent, hhash]
  split_ifs
  · rfl
  · rfl

theorem Package.toArchiveBytes_eq (package : Package Json) :
    package.toArchiveBytes codecs =
      if package.hasDeclaredTimeout codecs then
        package.builder.withExplicitTimeoutIdentity.writeToBytes codecs
      else package.builder.writeToBytes codecs := rfl

/-- Archiving a package again keeps it: its version, modules, sources, manifest, declared
timeouts and deployed names. -/
def Package.Rearchives (package : Package Json) : Prop :=
  ∃ archive again, package.toArchiveBytes codecs = .ok archive ∧
    Package.load codecs archive .unbounded = .ok again ∧ again.contentHash = package.contentHash ∧
    again.beams = package.beams ∧ again.source = package.source ∧
      again.manifest = package.manifest ∧
    again.declaredTimeouts codecs = package.declaredTimeouts codecs ∧
      again.deployedModules = package.deployedModules

theorem Package.Rearchives.of_eq {package : Package Json} {archive : Archive}
    (hwrite : package.toArchiveBytes codecs = .ok archive)
    (hload : Package.load codecs archive .unbounded = .ok package) : package.Rearchives codecs :=
  ⟨archive, package, hwrite, hload, rfl, rfl, rfl, rfl, rfl, rfl⟩

/-- The versions a package can be stamped with when it is archived again. -/
def Package.stamps (package : Package Json) : List ContentHash :=
  [Packaging.contentHash codecs.sha256 package.beams,
    contentHashWithTimeouts codecs.sha256 package.beams package.manifest]

/-- **When archiving again keeps a package**: exactly when the version stored in its manifest
is over its modules alone, or over the timeouts of all entries with a timeout among them. -/
theorem rearchives_iff {archive : Archive} {limits : ExtractionLimits} {package : Package Json}
    (hload : Package.load codecs archive limits = .ok package)
    (hjson : ∀ hash ∈ package.stamps codecs, codecs.RestoresManifest (package.stamped hash))
    (hzip : ∀ hash ∈ package.stamps codecs, ∀ bytes, codecs.toVec (package.stamped hash) =
        .ok bytes → codecs.Restores (storedEntries package.beams package.source bytes)) :
    package.Rearchives codecs ↔
      package.manifest.version = (contentHash codecs.sha256 package.beams).toText ∨
        package.manifest.version = (contentHashWithTimeouts codecs.sha256 package.beams
            package.manifest).toText ∧
          package.manifest.anyDeclared = true := by
  obtain ⟨hformat, hsafe, hverif, hent⟩ := Package.load_eq_ok codecs hload
  have hsrc := package.source_builder
  constructor
  · rintro ⟨archive, again, hwrite, hagain, -, -, -, hmani, -, -⟩
    by_contra hneither
    obtain ⟨hlegacy, htimeouts⟩ := not_or.mp hneither
    cases hdecl : package.hasDeclaredTimeout codecs with
    | true =>
      -- the version is over the timeouts, and there are none
      have hver := ((Package.hasDeclaredTimeout_iff_version codecs hverif).mp hdecl).2
      have hnone : package.manifest.anyDeclared = false :=
        Bool.eq_false_of_not_eq_true fun hsome => htimeouts ⟨hver, hsome⟩
      rw [Package.toArchiveBytes_eq, hdecl, if_pos rfl, PackageBuilder.writeToBytes,
        Package.stampedManifest_builder_explicit codecs hent, hnone] at hwrite
      nomatch hwrite
    | false =>
      -- the version is stamped over the modules alone, and was another
      have hverif' : verifiedContentHash codecs.sha256 package.beams
          (package.stamped (contentHash codecs.sha256 package.beams)) = .ok (contentHash codecs.sha256 package.beams) :=
        if_pos rfl
      obtain ⟨archive', hwrite', hload'⟩ := PackageBuilder.load_writeToBytes codecs rfl hsrc
        (Package.stampedManifest_builder codecs hent) (hjson _ List.mem_cons_self) (hzip _ List.mem_cons_self) hsafe
        hformat hent hverif'
      rw [Package.toArchiveBytes_eq, hdecl, hwrite'] at hwrite
      cases hwrite
      rw [hload'] at hagain
      cases hagain
      exact hlegacy (congrArg Manifest.version hmani).symm
  · intro hver
    have hdeclaredIff := Package.hasDeclaredTimeout_iff_version codecs hverif
    cases hdecl : package.hasDeclaredTimeout codecs with
    | true =>
      obtain ⟨hlegacy, htimeouts⟩ := hdeclaredIff.mp hdecl
      obtain ⟨-, hsome⟩ := hver.resolve_left hlegacy
      have hstamp := Package.stampedManifest_builder_explicit codecs hent
      rw [if_pos hsome] at hstamp
      have hmem : contentHashWithTimeouts codecs.sha256 package.beams package.manifest ∈ package.stamps codecs :=
        List.mem_cons_of_mem _ List.mem_cons_self
      obtain ⟨archive, hwrite, hagain⟩ := PackageBuilder.load_writeToBytes_eq codecs hload htimeouts
        (show package.builder.withExplicitTimeoutIdentity.beams = _ from rfl) hsrc hstamp (hjson _ hmem) (hzip _ hmem)
      exact .of_eq codecs (by rw [Package.toArchiveBytes_eq, hdecl, if_pos rfl, hwrite]) hagain
    | false =>
      have hlegacy : package.manifest.version = (contentHash codecs.sha256 package.beams).toText := by
        by_contra hne
        have htrue := hdeclaredIff.mpr ⟨hne, (hver.resolve_left hne).1⟩
        exact Bool.false_ne_true (hdecl.symm.trans htrue)
      obtain ⟨archive, hwrite, hagain⟩ := PackageBuilder.load_writeToBytes_eq codecs hload hlegacy rfl hsrc
        (Package.stampedManifest_builder codecs hent) (hjson _ List.mem_cons_self) (hzip _ List.mem_cons_self)
      exact .of_eq codecs (by rw [Package.toArchiveBytes_eq, hdecl, if_neg Bool.false_ne_true, hwrite]) hagain

end RoundTrip

/-! ### Samples -/

section Samples

variable (digests : List (List UInt8 × ContentHash)) (documents : List (Bytes × Manifest Bool))

theorem Codecs.plain_writeEntry (writer : List (List Char × Bytes)) (name : List Char)
    (bytes : Bytes) :
    writeEntry (.plain digests documents) writer name bytes = .ok (writer ++ [(name, bytes)]) := by
  change Except.mapError PackageError.archiveWriteIo
    ((Codecs.plain digests documents).writeAll (writer ++ [(name, ⟨[], by decide⟩)]) bytes) = _
  simp only [plain, List.getLast?_concat, List.dropLast_concat, List.nil_append, bytes.fits,
    dif_pos, Except.mapError]

theorem Codecs.plain_foldlM_writeEntry (writer entries : List (List Char × Bytes)) :
    entries.foldlM (fun writer entry =>
        writeEntry (.plain digests documents) writer entry.1 entry.2) writer =
      .ok (writer ++ entries) := by
  induction entries generalizing writer with
  | nil =>
    rw [List.append_nil]
    rfl
  | cons entry rest ih =>
    rw [List.foldlM_cons, plain_writeEntry]
    refine (ih (writer ++ [entry])).trans ?_
    rw [List.append_assoc, List.singleton_append]

/-- A container that keeps its entries restores those whose names fit. -/
theorem Codecs.plain_restores {entries : List (List Char × Bytes)}
    (hfits : ∀ entry ∈ entries, (utf8 entry.1).length < 2 ^ 63) :
    (plain digests documents).Restores entries := by
  have hopen : ∃ opened, (plain digests documents).openArchive entries = .ok opened ∧
      List.Forall₂ ReadsAs opened entries := by
    induction entries with
    | nil => exact ⟨[], rfl, .nil⟩
    | cons entry rest ih =>
      obtain ⟨hent, hrest⟩ := List.forall_mem_cons.mp hfits
      obtain ⟨opened, hopened, hreads⟩ := ih hrest
      exact ⟨_, Result.mapM_cons_of_ok (dif_pos hent) hopened, .cons ⟨rfl, rfl⟩ hreads⟩
  obtain ⟨opened, hopened, hreads⟩ := hopen
  refine ⟨entries, opened, ?_, hopened, hreads⟩
  rw [writeEntries, plain_foldlM_writeEntry]
  rfl

end Samples

/-- The sample is stamped with one of two versions. -/
theorem samplePackage_stamps (version : ContentHash) :
    (samplePackage version).stamps (.plain sampleDigests sampleDocuments) =
      [sampleLegacy, sampleV3] := by
  have hlegacy : contentHash (Codecs.plain sampleDigests sampleDocuments).sha256 sampleBeams = sampleLegacy := by
    decide +kernel
  have htimeouts : contentHashWithTimeouts
    (Codecs.plain sampleDigests sampleDocuments).sha256 sampleBeams
      (sampleManifest (some sampleTimeout) sampleV3) = sampleV3 := by decide +kernel
  exact congrArg₂ (fun first second => [first, second]) hlegacy htimeouts

theorem restoresManifest_sample (version : ContentHash) :
    ∀ hash ∈ (samplePackage version).stamps (.plain sampleDigests sampleDocuments),
      (Codecs.plain sampleDigests sampleDocuments).RestoresManifest
        ((samplePackage version).stamped hash) := by
  rw [samplePackage_stamps]
  have hlegacy : (Codecs.plain sampleDigests sampleDocuments).RestoresManifest
      (sampleManifest (some sampleTimeout) sampleLegacy) :=
    ⟨sampleLegacyDocument, by decide +kernel, by decide +kernel⟩
  have htimeouts : (Codecs.plain sampleDigests sampleDocuments).RestoresManifest
      (sampleManifest (some sampleTimeout) sampleV3) :=
    ⟨sampleV3Document, by decide +kernel, by decide +kernel⟩
  simp only [List.forall_mem_cons, List.not_mem_nil, false_implies, implies_true, and_true]
  exact ⟨hlegacy, htimeouts⟩

theorem restores_sample (version : ContentHash) (bytes : Bytes) :
    (Codecs.plain sampleDigests sampleDocuments).Restores
      (storedEntries (samplePackage version).beams (samplePackage version).source bytes) := by
  refine Codecs.plain_restores _ _ fun entry hent => ?_
  rcases List.mem_cons.mp hent with rfl | hent
  · exact manifestEntry.fits
  · cases List.mem_singleton.mp hent
    decide

/-- The sample comes back under the version over all timeouts. -/
theorem rearchives_sample :
    (samplePackage sampleV3).Rearchives (.plain sampleDigests sampleDocuments) :=
  (rearchives_iff _ (show Package.load _ (sampleArchive sampleV3Document) .unbounded =
      _ by decide +kernel)
    (restoresManifest_sample sampleV3) (fun _ _ bytes _ => restores_sample sampleV3 bytes)).mpr
      (.inr ⟨by decide +kernel, rfl⟩)

/-- Under the version over its primary timeout the sample is loaded, archived again and
loaded, and then has another version, though its documents and entries are restored. -/
theorem rearchived_under_another_version :
    Package.load (.plain sampleDigests sampleDocuments)
      (sampleArchive sampleV1Document) .unbounded =
        .ok (samplePackage sampleV1) ∧
      (∀ hash ∈ (samplePackage sampleV1).stamps (.plain sampleDigests sampleDocuments),
        (Codecs.plain sampleDigests sampleDocuments).RestoresManifest
          ((samplePackage sampleV1).stamped hash)) ∧
      (∀ bytes, (Codecs.plain sampleDigests sampleDocuments).Restores
        (storedEntries (samplePackage sampleV1).beams (samplePackage sampleV1).source bytes)) ∧
      (samplePackage sampleV1).toArchiveBytes (.plain sampleDigests sampleDocuments) =
        .ok (sampleArchive sampleLegacyDocument) ∧
      Package.load (.plain sampleDigests sampleDocuments)
        (sampleArchive sampleLegacyDocument) .unbounded =
        .ok (samplePackage sampleLegacy) ∧
      ¬ (samplePackage sampleV1).Rearchives (.plain sampleDigests sampleDocuments) := by
  have hwrite : (samplePackage sampleV1).toArchiveBytes (.plain sampleDigests sampleDocuments) =
      .ok (sampleArchive sampleLegacyDocument) := by decide +kernel
  have hload : Package.load (.plain sampleDigests sampleDocuments)
    (sampleArchive sampleLegacyDocument) .unbounded =
      .ok (samplePackage sampleLegacy) := by decide +kernel
  refine ⟨by decide +kernel, restoresManifest_sample sampleV1, restores_sample sampleV1,
      hwrite, hload, ?_⟩
  rintro ⟨archive, again, hwrite', hload', hhash, -⟩
  rw [hwrite] at hwrite'
  cases hwrite'
  rw [hload] at hload'
  cases hload'
  exact absurd hhash (by decide)

end Aion.Packaging
