import Aion.Package.Archive
import Mathlib.Data.Set.Function

/-!
# What a version identifies

Two loaded packages of one version should be the same modules with the same timeouts. The
modules come first in the bytes that are hashed, and their number is not written down: the
tag that begins the timeouts is framed as the name of one more module. Where two packages
have the same bytes, one has the modules of the other and then more, and the first of these
is named as a tag (`name_of_tail`). So the version identifies the package unless only one of
the two ships a module of such a name, and then it does not.
-/

namespace Aion.Packaging

open PrefixCode

variable {Archive Writer Json : Type}

/-! ### Tails -/

/-- What may follow the modules in the bytes of a version. -/
inductive TailOf (manifest : Manifest Json) : List UInt8 → Prop where
  /-- Nothing, in the beams-only form. -/
  | beams : TailOf manifest []
  /-- The primary timeout. -/
  | timeout {primary : Duration} : manifest.timeout = some primary →
    TailOf manifest (timeoutTail primary)
  /-- The timeouts of all entries. -/
  | timeouts : TailOf manifest (timeoutsTail manifest)

variable {codecs : Codecs Archive Writer Json} {package p q : Package Json}
  {manifest manifest' : Manifest Json} {tail : List UInt8} {rest : List BeamModule}

/-- A tail that begins with a module begins with one named as a tag. -/
theorem name_of_tail {module : BeamModule} {rest : List UInt8}
    (h : TailOf manifest (moduleFields module ++ rest)) :
    module.name = workflowTimeoutDomain ∨ module.name = workflowTimeoutsDomain := by
  generalize htail : moduleFields module ++ rest = tail at h
  rw [moduleFields, List.append_assoc] at htail
  cases h with
  | beams => exact absurd (List.append_eq_nil_iff.mp htail).1 (frame_ne_nil _)
  | timeout => exact .inl (uniquelyRead_frame_text htail).1
  | timeouts => exact .inr (uniquelyRead_frame_text htail).1

theorem timeoutsTail_ne_nil (manifest : Manifest Json) : timeoutsTail manifest ≠ [] := by
  intro h
  exact frame_ne_nil _ (List.append_eq_nil_iff.mp h).1

theorem timeoutsTail_ne_timeoutTail (manifest : Manifest Json) (timeout : Duration) :
    timeoutsTail manifest ≠ timeoutTail timeout := by
  intro h
  have htag : workflowTimeoutsDomain = workflowTimeoutDomain := (uniquelyRead_frame_text h).1
  exact absurd htag (by decide)

/-- Timeouts of all entries are only what they are. -/
theorem TailOf.eq_timeoutsTail (h : TailOf manifest (timeoutsTail manifest')) :
    timeoutsTail manifest' = timeoutsTail manifest := by
  generalize htail : timeoutsTail manifest' = tail at h
  cases h with
  | beams => exact absurd htail (timeoutsTail_ne_nil manifest')
  | timeout => exact absurd htail (timeoutsTail_ne_timeoutTail manifest' _)
  | timeouts => rfl

/-- The entries with their timeouts are read back from the tail. -/
theorem routedTimeouts_eq_of_timeoutsTail_eq (h : timeoutsTail manifest = timeoutsTail manifest') :
    routedTimeouts manifest = routedTimeouts manifest' := by
  obtain ⟨-, hrest⟩ := uniquelyRead_frame_text h
  obtain ⟨hcount, hents⟩ := List.append_inj hrest (by rw [length_bigEndian, length_bigEndian])
  have hlen : (routedTimeouts manifest).length = (routedTimeouts manifest').length := by
    have hfits := manifest.fits
    have hfits' := manifest'.fits
    refine eq_of_bigEndian_eq ?_ ?_ hcount
    · rw [length_routedTimeouts]
      omega
    · rw [length_routedTimeouts]
      omega
  exact (uniquelyRead_entryFields.flatMap_eq (x := []) (y := []) hlen (congrArg (· ++ []) hents)).1

/-! ### Modules -/

/-- Whether a package ships a module of the name. -/
def Package.Ships (package : Package Json) (name : Text) : Prop := (package.beams.get name).isSome

theorem Package.ships_iff {name : Text} :
    package.Ships name ↔ ∃ module ∈ package.beams.modules, module.name = name :=
  BeamSet.isSome_get_iff

/-- No name stands twice in a set. -/
theorem BeamSet.name_ne_of_append {beams : BeamSet} {first : List BeamModule}
    {left right : BeamModule} (h : beams.modules = first ++ rest) (hleft : left ∈ first)
    (hright : right ∈ rest) : left.name ≠ right.name := by
  have hascending := beams.ascending
  rw [h] at hascending
  exact ((List.pairwise_append.mp hascending).2.2 left hleft right hright).ne

/-- Where a package has the modules of another and then more, and these are read from the
tail of the other's version, it ships a tag's name that the other does not. -/
theorem eq_nil_of_extends (hmods : q.beams.modules = p.beams.modules ++ rest)
    (htail : TailOf p.manifest (rest.flatMap moduleFields ++ tail))
    (hv1 : q.Ships workflowTimeoutDomain → p.Ships workflowTimeoutDomain)
    (hv3 : q.Ships workflowTimeoutsDomain → p.Ships workflowTimeoutsDomain) : rest = [] := by
  cases rest with
  | nil => rfl
  | cons module rest =>
    have hmem : module ∈ q.beams.modules := by
      rw [hmods]
      exact List.mem_append_right _ List.mem_cons_self
    have hnew : ¬ p.Ships module.name := by
      intro hships
      obtain ⟨other, hother, hname⟩ := Package.ships_iff.mp hships
      exact BeamSet.name_ne_of_append hmods hother List.mem_cons_self hname
    have hships : q.Ships module.name := Package.ships_iff.mpr ⟨module, hmem, rfl⟩
    rw [List.flatMap_cons, List.append_assoc] at htail
    rcases name_of_tail htail with hname | hname
    · rw [hname] at hnew hships
      exact absurd (hv1 hships) hnew
    · rw [hname] at hnew hships
      exact absurd (hv3 hships) hnew

/-- The same bytes are the same modules with the same tail, unless only one package ships a
module named as a tag. -/
theorem modules_eq_of_bytes_eq {tail' : List UInt8} (htail : TailOf p.manifest tail)
    (htail' : TailOf q.manifest tail')
    (hbytes : p.beams.modules.flatMap moduleFields ++ tail =
        q.beams.modules.flatMap moduleFields ++ tail')
    (hv1 : p.Ships workflowTimeoutDomain ↔ q.Ships workflowTimeoutDomain)
    (hv3 : p.Ships workflowTimeoutsDomain ↔ q.Ships workflowTimeoutsDomain) :
    p.beams.modules = q.beams.modules ∧ tail = tail' := by
  rcases uniquelyRead_moduleFields.flatMap_cases hbytes with ⟨rest, hmods, rfl⟩ | ⟨rest, hmods, rfl⟩
  · obtain rfl := eq_nil_of_extends hmods htail hv1.mpr hv3.mpr
    exact ⟨by rw [hmods, List.append_nil], rfl⟩
  · obtain rfl := eq_nil_of_extends hmods htail' hv1.mp hv3.mp
    exact ⟨by rw [hmods, List.append_nil], rfl⟩

/-! ### Versions -/

/-- The byte strings that the version of a package may be the hash of. -/
def Package.identities (package : Package Json) : List (List UInt8) :=
  [beamsIdentity package.beams, timeoutsIdentity package.beams package.manifest] ++
    (package.manifest.timeout.map (timeoutIdentity package.beams)).toList

theorem Package.mem_identities_iff {bytes : List UInt8} :
    bytes ∈ package.identities ↔
      ∃ tail, TailOf package.manifest tail ∧
        bytes = package.beams.modules.flatMap moduleFields ++ tail := by
  simp only [identities, List.cons_append, List.nil_append, List.mem_cons, Option.mem_toList,
    Option.map_eq_some_iff,
    beamsIdentity_eq, timeoutsIdentity_eq, timeoutIdentity_eq]
  constructor
  · rintro (rfl | rfl | ⟨primary, hprim, rfl⟩)
    · exact ⟨[], .beams, (List.append_nil _).symm⟩
    · exact ⟨_, .timeouts, rfl⟩
    · exact ⟨_, .timeout hprim, rfl⟩
  · rintro ⟨tail, htail, rfl⟩
    cases htail with
    | beams => exact .inl (List.append_nil _)
    | timeouts => exact .inr (.inl rfl)
    | timeout hprim => exact .inr (.inr ⟨_, hprim, rfl⟩)

/-- The version of a loaded package is the hash of one of them. -/
theorem Package.exists_tail_of_load {archive : Archive}
    {limits : ExtractionLimits} (h : Package.load codecs archive limits = .ok package) :
    ∃ tail, TailOf package.manifest tail ∧
      package.contentHash = codecs.sha256 (package.beams.modules.flatMap moduleFields ++ tail) := by
  obtain ⟨-, -, hverif, -⟩ := Package.load_eq_ok codecs h
  obtain ⟨-, hhash | ⟨-, hhash⟩ | ⟨-, -, primary, hprim, hhash⟩⟩ :=
    verifiedContentHash_eq_ok _ hverif
  · rw [contentHash_eq] at hhash
    exact ⟨[], .beams, by rw [List.append_nil, hhash]⟩
  · rw [contentHashWithTimeouts_eq] at hhash
    exact ⟨_, .timeouts, hhash⟩
  · rw [contentHashWithTimeout, timeoutIdentity_eq] at hhash
    exact ⟨_, .timeout hprim, hhash⟩

/-- A package declares timeouts when its version is the hash over all of them. -/
theorem Package.hasDeclaredTimeout_iff
    (hsha : Set.InjOn codecs.sha256 {bytes | bytes ∈ package.identities})
    (htail : TailOf package.manifest tail)
    (hhash : package.contentHash = codecs.sha256
        (package.beams.modules.flatMap moduleFields ++ tail)) :
    package.hasDeclaredTimeout codecs = true ↔ tail = timeoutsTail package.manifest := by
  have hmem : ∀ {tail}, TailOf package.manifest tail →
      package.beams.modules.flatMap moduleFields ++ tail ∈ package.identities := fun htail =>
    Package.mem_identities_iff.mpr ⟨_, htail, rfl⟩
  -- SHA-256 tells the tails apart
  have hiff : ∀ {tail'}, TailOf package.manifest tail' →
      (package.contentHash = codecs.sha256 (package.beams.modules.flatMap moduleFields ++ tail') ↔ tail = tail') := by
    intro tail' htail'
    rw [hhash]
    constructor
    · intro h
      exact List.append_cancel_left (hsha (hmem htail) (hmem htail') h)
    · rintro rfl
      rfl
  have hlegacy := hiff .beams
  have htimeouts := hiff .timeouts
  rw [List.append_nil] at hlegacy
  rw [hasDeclaredTimeout, hasExplicitTimeoutIdentity, contentHash_eq, contentHashWithTimeouts_eq]
  simp only [ne_eq, Bool.and_eq_true, decide_eq_true_eq, hlegacy, htimeouts, and_iff_right_iff_imp]
  rintro rfl
  exact timeoutsTail_ne_nil package.manifest

/-- What a version should identify: the modules, whether timeouts are declared, and if so the
entries with their timeouts. -/
def SameIdentity (codecs : Codecs Archive Writer Json) (p q : Package Json) : Prop :=
  p.beams = q.beams ∧ p.hasDeclaredTimeout codecs = q.hasDeclaredTimeout codecs ∧
    (p.hasDeclaredTimeout codecs = true →
      p.manifest.entryModule = q.manifest.entryModule ∧ p.manifest.timeout = q.manifest.timeout ∧
        (p.manifest.additionalWorkflows.map fun entry => (entry.workflowType, entry.timeout)) =
          q.manifest.additionalWorkflows.map fun entry => (entry.workflowType, entry.timeout))

theorem sameIdentity_of_tail (hbeams : p.beams = q.beams) (htail : TailOf p.manifest tail)
    (htail' : TailOf q.manifest tail)
    (hp : p.hasDeclaredTimeout codecs = true ↔ tail = timeoutsTail p.manifest)
    (hq : q.hasDeclaredTimeout codecs = true ↔ tail = timeoutsTail q.manifest) :
    SameIdentity codecs p q := by
  have hiff : tail = timeoutsTail p.manifest ↔ tail = timeoutsTail q.manifest := by
    constructor
    · rintro rfl
      exact htail'.eq_timeoutsTail
    · rintro rfl
      exact htail.eq_timeoutsTail
  refine ⟨hbeams, Bool.eq_iff_iff.mpr (hp.trans (hiff.trans hq.symm)), fun hdecl => ?_⟩
  have htails : timeoutsTail p.manifest = timeoutsTail q.manifest := by
    rw [← hp.mp hdecl]
    exact hiff.mp (hp.mp hdecl)
  obtain ⟨hprim, hadditional⟩ := List.cons.inj (routedTimeouts_eq_of_timeoutsTail_eq htails)
  exact ⟨congrArg Prod.fst hprim, congrArg Prod.snd hprim, hadditional⟩

/-- **When a version identifies a package**: two loaded packages of one version have the same
identity exactly when they agree on shipping modules named as the two tags. SHA-256 need only
tell the byte strings of these two packages apart. -/
theorem version_identifies (codecs : Codecs Archive Writer Json) {archive archive' : Archive}
    {limits limits' : ExtractionLimits} {p q : Package Json}
    (hp : Package.load codecs archive limits = .ok p)
    (hq : Package.load codecs archive' limits' = .ok q)
    (hsha : Set.InjOn codecs.sha256 {bytes | bytes ∈ p.identities ∨ bytes ∈ q.identities})
    (hversion : p.contentHash = q.contentHash) :
    SameIdentity codecs p q ↔
      ((p.Ships workflowTimeoutDomain ↔ q.Ships workflowTimeoutDomain) ∧
        (p.Ships workflowTimeoutsDomain ↔ q.Ships workflowTimeoutsDomain)) := by
  constructor
  · rintro ⟨hbeams, -, -⟩
    unfold Package.Ships
    rw [hbeams]
    exact ⟨.rfl, .rfl⟩
  · rintro ⟨hv1, hv3⟩
    obtain ⟨tail, htail, hhash⟩ := Package.exists_tail_of_load hp
    obtain ⟨tail', htail', hhash'⟩ := Package.exists_tail_of_load hq
    have hbytes : p.beams.modules.flatMap moduleFields ++ tail = q.beams.modules.flatMap moduleFields ++ tail' := by
      refine hsha (.inl (Package.mem_identities_iff.mpr ⟨_, htail, rfl⟩))
        (.inr (Package.mem_identities_iff.mpr ⟨_, htail', rfl⟩)) ?_
      rw [← hhash, ← hhash', hversion]
    obtain ⟨hmods, rfl⟩ := modules_eq_of_bytes_eq htail htail' hbytes hv1 hv3
    have hdecl := Package.hasDeclaredTimeout_iff (hsha.mono fun _ => .inl) htail hhash
    have hdecl' := Package.hasDeclaredTimeout_iff (hsha.mono fun _ => .inr) htail' hhash'
    exact sameIdentity_of_tail (BeamSet.ext hmods) htail htail' hdecl hdecl'

theorem injOn_identities {sha256 : List UInt8 → ContentHash}
    (h : ∀ a ∈ p.identities ++ q.identities, ∀ b ∈ p.identities ++ q.identities,
        sha256 a = sha256 b → a = b) :
    Set.InjOn sha256 {bytes | bytes ∈ p.identities ∨ bytes ∈ q.identities} := by
  intro a ha b hb
  exact h a (List.mem_append.mpr ha) b (List.mem_append.mpr hb)

/-- The sample with its source. -/
def sampleWithSource : Package Bool :=
  { samplePackage sampleV3 with source := OrderedMap.empty.insert sampleModule.name ⟨[10], by decide⟩ }

/-- The sample under the version over all timeouts, loaded without its source and with it. -/
theorem version_identifies_sample :
    Package.load (.plain sampleDigests sampleDocuments)
        (sampleArchive sampleV3Document ++ [("src/a.gleam".toList, ⟨[10], by decide⟩)]) (.bounded 4096) =
      .ok sampleWithSource ∧
    SameIdentity (.plain sampleDigests sampleDocuments) (samplePackage sampleV3) sampleWithSource := by
  have hp : Package.load (.plain sampleDigests sampleDocuments) (sampleArchive sampleV3Document) .unbounded =
      .ok (samplePackage sampleV3) := by decide +kernel
  have hq : Package.load (.plain sampleDigests sampleDocuments)
      (sampleArchive sampleV3Document ++ [("src/a.gleam".toList, ⟨[10], by decide⟩)]) (.bounded 4096) =
      .ok sampleWithSource := by decide +kernel
  exact ⟨hq, (version_identifies _ hp hq (injOn_identities (by decide +kernel)) rfl).mpr ⟨.rfl, .rfl⟩⟩

/-! ### One version for two packages -/

/-- The module of the sample, and one named as the tag of the primary timeout. Its four bytes
are the nanoseconds of the sample's timeout, and their number the seconds. -/
def taggedBeams : BeamSet where
  modules := [sampleModule, ⟨workflowTimeoutDomain, ⟨[0, 0, 0, 0], by decide⟩⟩]
  ascending := by decide
  unreserved := by decide

/-- The document of a package with these modules and no timeout. -/
def taggedDocument : Bytes :=
  .lit
    ("\x7b\"entry_module\":\"a\",\"entry_function\":\"run\",\"input_schema\":true,\"output_schema\":true," ++
      "\"activities\":[]," ++
      "\"version\":\"e0527c3cb222c4e84d7d0632e77b872f05571d04971fd249e4683a9881bb0977\"," ++
      "\"format_version\":1\x7d")
    (by decide +kernel)

/-- The package as it is loaded. -/
def taggedPackage : Package Bool where
  manifest := sampleManifest none sampleV1
  beams := taggedBeams
  source := .empty
  contentHash := sampleV1

/-- The archive of the package. -/
def taggedArchive : List (List Char × Bytes) :=
  [("manifest.json".toList, taggedDocument), ("beam/a.beam".toList, sampleModule.bytes),
    ("beam/aion.package.version.workflow-timeout.v1.beam".toList, ⟨[0, 0, 0, 0], by decide⟩)]

/-- The libraries on this package and on the sample. -/
def taggedCodecs : Codecs (List (List Char × Bytes)) (List (List Char × Bytes)) Bool :=
  .plain
    ((timeoutsIdentity taggedBeams (sampleManifest none sampleV1),
      digestOf 0x8b31e18d9e42170bfc048b7b771bd88d2cd73b10cfe2154039b11b5df2962a4c) :: sampleDigests)
    ((taggedDocument, sampleManifest none sampleV1) :: sampleDocuments)

/-- The sample under its primary timeout and a package with one module more are loaded under
one version, though SHA-256 collides nowhere on them. -/
theorem one_version_for_two :
    Package.load taggedCodecs (sampleArchive sampleV1Document) .unbounded =
      .ok (samplePackage sampleV1) ∧
      Package.load taggedCodecs taggedArchive .unbounded = .ok taggedPackage ∧
      Set.InjOn taggedCodecs.sha256
        {bytes | bytes ∈ (samplePackage sampleV1).identities ∨ bytes ∈ taggedPackage.identities} ∧
      (samplePackage sampleV1).contentHash = taggedPackage.contentHash ∧
      ¬ SameIdentity taggedCodecs (samplePackage sampleV1) taggedPackage := by
  refine ⟨by decide +kernel, by decide +kernel, injOn_identities (by decide +kernel), rfl, ?_⟩
  rintro ⟨hbeams, -, -⟩
  exact absurd hbeams (by decide)

end Aion.Packaging
