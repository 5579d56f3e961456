import Aion.Library.OrderedMap
import Mathlib.Data.Char
import Mathlib.Data.List.Lex
import Mathlib.Data.List.Sort
import Mathlib.Data.String.Basic
import Mathlib.Order.Lattice

/-!
# What a package contains

A `.aion` package is a manifest, compiled modules under their logical names, and optional
source files. Strings and buffers are in memory, so their lengths stay below `2 ^ 63`: the
bound is part of the types (`Text`, `Bytes`), because the version hash writes lengths down in
eight bytes. The modules of a package are kept in canonical order, each name once
(`BeamSet`).
-/

namespace Aion.Packaging

/-! ### Strings and buffers -/

/-- A buffer in memory. -/
structure Bytes where
  /-- The bytes. -/
  data : List UInt8
  /-- No allocation is larger. -/
  fits : data.length < 2 ^ 63
  deriving DecidableEq

/-- The UTF-8 bytes of a string. -/
def utf8 (chars : List Char) : List UInt8 := chars.flatMap String.utf8EncodeChar

theorem utf8_injective : Function.Injective utf8 := by
  intro a b h
  have henc : a.utf8Encode = b.utf8Encode := congrArg List.toByteArray h
  exact String.ofList_injective (String.toByteArray_inj.mp henc)

@[simp]
theorem utf8_append (a b : List Char) : utf8 (a ++ b) = utf8 a ++ utf8 b := List.flatMap_append

theorem length_utf8_le (chars : List Char) : (utf8 chars).length ≤ 4 * chars.length := by
  induction chars with
  | nil => exact le_refl 0
  | cons c rest ih =>
    have hchar : (String.utf8EncodeChar c).length ≤ 4 := by
      rw [String.length_utf8EncodeChar]
      exact c.utf8Size_le_four
    rw [utf8, List.flatMap_cons, List.length_append, List.length_cons]
    unfold utf8 at ih
    omega

/-- A string in memory. -/
structure Text where
  /-- Its characters. -/
  chars : List Char
  /-- No allocation is larger. -/
  fits : (utf8 chars).length < 2 ^ 63
  deriving DecidableEq

namespace Text

/-- A string of the program's text. -/
def lit (literal : String) (fits : (utf8 literal.toList).length < 2 ^ 63 := by decide) : Text :=
  ⟨literal.toList, fits⟩

@[ext]
theorem ext {a b : Text} (h : a.chars = b.chars) : a = b := by
  cases a
  cases b
  cases h
  rfl

theorem chars_injective : Function.Injective chars := fun _ _ => ext

/-- Strings compare as their UTF-8 bytes do, which is character by character. -/
instance : LinearOrder Text := LinearOrder.lift' chars chars_injective

/-- The bytes a string is stored as. -/
def asBytes (text : Text) : Bytes := ⟨utf8 text.chars, text.fits⟩

theorem asBytes_injective : Function.Injective asBytes := by
  intro a b h
  exact ext (utf8_injective (congrArg Bytes.data h))

end Text

/-- A span of time, in seconds and nanoseconds. -/
structure Duration where
  /-- Whole seconds. -/
  secs : UInt64
  /-- The rest, in nanoseconds. -/
  subsecNanos : UInt32
  /-- Less than a second. -/
  subsec : subsecNanos.toNat < 1000000000
  deriving DecidableEq

/-! ### Version hashes -/

/-- A SHA-256 package version identity. -/
structure ContentHash where
  /-- The digest. -/
  bytes : List UInt8
  /-- Its length. -/
  digest : bytes.length = 32
  deriving DecidableEq

/-- The two lowercase hexadecimal characters of a byte. -/
def hexByte (byte : UInt8) : List Char :=
  [Nat.digitChar (byte.toNat / 16), Nat.digitChar (byte.toNat % 16)]

theorem length_flatMap_hexByte (bytes : List UInt8) :
    (bytes.flatMap hexByte).length = 2 * bytes.length := by
  induction bytes with
  | nil => rfl
  | cons byte rest ih =>
    rw [List.flatMap_cons, List.length_append, ih, hexByte, List.length_cons, List.length_cons,
      List.length_cons,
      List.length_nil]
    omega

/-- The 64 lowercase hexadecimal characters of a hash. -/
def ContentHash.toText (hash : ContentHash) : Text where
  chars := hash.bytes.flatMap hexByte
  fits := by
    have hlen : (hash.bytes.flatMap hexByte).length = 64 := by
      rw [length_flatMap_hexByte, hash.digest]
    have hutf8 := length_utf8_le (hash.bytes.flatMap hexByte)
    omega

/-! ### Errors -/

/-- What the ZIP reader and writer report. -/
inductive ZipError where
  /-- No entry has the name. -/
  | fileNotFound
  /-- Reading or writing failed. -/
  | io (cause : String)
  /-- The archive is broken or uses what the reader does not support. -/
  | archive (cause : String)
  deriving DecidableEq

/-- Errors of validating, loading or writing a package. -/
inductive PackageError where
  /-- The archive could not be read as a ZIP container. -/
  | archiveRead (cause : ZipError)
  /-- There is no `manifest.json`. -/
  | missingManifest
  /-- A module uses a name that the engine owns. -/
  | reservedModuleName (module : Text)
  /-- The archive could not be written. -/
  | archiveWrite (cause : ZipError)
  /-- The bytes of the archive could not be written. -/
  | archiveWriteIo (cause : String)
  /-- The manifest is not valid JSON for a manifest. -/
  | manifestParse (cause : String)
  /-- The manifest could not be serialised. -/
  | manifestSerialise (cause : String)
  /-- The format version is not supported. -/
  | unknownFormatVersion (found : UInt32)
  /-- The entry module is not among the modules. -/
  | missingEntryModule (module : Text)
  /-- The manifest's version is none of the recomputed hashes. -/
  | integrityMismatch (expected computed : Text)
  /-- An archive entry or a logical name is malformed or ambiguous. -/
  | malformedBeamEntry (entry : Text)
  /-- The entries inflate past the caller's limit. -/
  | inflatedSizeExceeded (limit : UInt64)
  /-- The explicit-timeout identity was asked for without a timeout. -/
  | explicitTimeoutWithoutValue
  deriving DecidableEq

/-! ### Manifests -/

/-- The schema version of manifest and layout. -/
def currentFormatVersion : UInt32 := 1

/-- An activity the workflow invokes. -/
structure DeclaredActivity where
  /-- Its type. -/
  activityType : Text
  deriving DecidableEq

/-- A further workflow entry of the archive; `Json` is the type of JSON documents. -/
structure WorkflowEntry (Json : Type) where
  /-- The name that routes to it. -/
  workflowType : Text
  /-- The module of its entry function. -/
  entryModule : Text
  /-- Its entry function. -/
  entryFunction : Text
  /-- Schema of its input. -/
  inputSchema : Json
  /-- Schema of its result. -/
  outputSchema : Json
  /-- The timeout its author gave. -/
  timeout : Option Duration
  /-- Whether it belongs to the package alone. -/
  internal : Bool
  deriving DecidableEq

/-- The descriptor in `manifest.json`. -/
structure Manifest (Json : Type) where
  /-- The module of the workflow's entry function. -/
  entryModule : Text
  /-- The entry function. -/
  entryFunction : Text
  /-- Schema of the input. -/
  inputSchema : Json
  /-- Schema of the result. -/
  outputSchema : Json
  /-- The timeout the author gave. -/
  timeout : Option Duration
  /-- The declared activities. -/
  activities : List DeclaredActivity
  /-- The version hash, as text. -/
  version : Text
  /-- The format version. -/
  formatVersion : UInt32
  /-- Further entries. -/
  additionalWorkflows : List (WorkflowEntry Json)
  /-- They are in memory. -/
  fits : additionalWorkflows.length < 2 ^ 63
  deriving DecidableEq

/-- Only the current format is supported. -/
def Manifest.checkFormatVersion {Json : Type} (manifest : Manifest Json) :
    Except PackageError Unit :=
  if manifest.formatVersion = currentFormatVersion then .ok ()
  else .error (.unknownFormatVersion manifest.formatVersion)

/-! ### Modules -/

/-- Module names of the engine's native layer. -/
def reservedModuleNames : List Text := [.lit "aion_flow_ffi"]

/-- A compiled module. -/
structure BeamModule where
  /-- Its logical name. -/
  name : Text
  /-- Its code. -/
  bytes : Bytes
  deriving DecidableEq

/-- The modules of a package, in the order of their names, each name once. -/
structure BeamSet where
  /-- The modules. -/
  modules : List BeamModule
  /-- Every name is below the names after it. -/
  ascending : modules.Pairwise fun left right => left.name < right.name
  /-- No module takes a name of the engine. -/
  unreserved : ∀ module ∈ modules, module.name ∉ reservedModuleNames
  deriving DecidableEq

namespace BeamSet

@[ext]
theorem ext {a b : BeamSet} (h : a.modules = b.modules) : a = b := by
  cases a
  cases b
  cases h
  rfl

/-- The first of two modules that stand side by side under one name. -/
def firstDuplicate : List BeamModule → Option Text
  | left :: right :: rest =>
    if left.name = right.name then some left.name else firstDuplicate (right :: rest)
  | _ => none

variable {modules : List BeamModule} {beams : BeamSet}

/-- Modules in order without such a pair ascend strictly. -/
theorem ascending_of_sorted (hsorted : modules.Pairwise fun left right => left.name ≤ right.name)
    (hnone : firstDuplicate modules = none) :
    modules.Pairwise fun left right => left.name < right.name := by
  fun_induction firstDuplicate modules with
  | case1 left right rest heq => nomatch hnone
  | case2 left right rest hne ih =>
    obtain ⟨hleft, hsorted⟩ := List.pairwise_cons.mp hsorted
    have hrest := ih hsorted hnone
    refine List.pairwise_cons.mpr ⟨fun other hother => ?_, hrest⟩
    have hlt : left.name < right.name := lt_of_le_of_ne (hleft right List.mem_cons_self) hne
    rcases List.mem_cons.mp hother with rfl | hother
    · exact hlt
    · exact hlt.trans ((List.pairwise_cons.mp hrest).1 other hother)
  | case3 modules hshort =>
    rcases modules with _ | ⟨module, _ | ⟨right, rest⟩⟩
    · exact .nil
    · exact List.pairwise_singleton _ _
    · exact (hshort module right rest rfl).elim

theorem firstDuplicate_of_ascending
    (h : modules.Pairwise fun left right => left.name < right.name) :
    firstDuplicate modules = none := by
  fun_induction firstDuplicate modules with
  | case1 left right rest heq =>
    have hlt := (List.pairwise_cons.mp h).1 right List.mem_cons_self
    exact absurd heq hlt.ne
  | case2 left right rest hne ih => exact ih (List.pairwise_cons.mp h).2
  | case3 => rfl

/-- The order a set is sorted by. -/
def nameLe (left right : BeamModule) : Prop := left.name ≤ right.name

instance : DecidableRel nameLe :=
  fun left right => inferInstanceAs (Decidable (left.name ≤ right.name))

instance : Std.Total nameLe := ⟨fun left right => le_total left.name right.name⟩

instance : IsTrans BeamModule nameLe := ⟨fun _ _ _ hab hbc => le_trans hab hbc⟩

/-- The set of the modules, unless a name is the engine's or is given twice. -/
def new (modules : List BeamModule) : Except PackageError BeamSet :=
  match hreserved : modules.find? fun module => module.name ∈ reservedModuleNames with
  | some reserved => .error (.reservedModuleName reserved.name)
  | none =>
    match hdup : firstDuplicate (modules.insertionSort nameLe) with
    | some duplicate => .error (.malformedBeamEntry duplicate)
    | none =>
      .ok {
        modules := modules.insertionSort nameLe
        ascending := ascending_of_sorted (List.pairwise_insertionSort nameLe modules) hdup
        unreserved := by
          intro module hmod
          have hnone := List.find?_eq_none.mp hreserved module ((List.mem_insertionSort nameLe).mp hmod)
          simpa using hnone }

theorem mem_of_new_eq_ok {module : BeamModule}
    (h : new modules = .ok beams) (hmod : module ∈ beams.modules) : module ∈ modules := by
  unfold new at h
  split at h
  · nomatch h
  · split at h
    · nomatch h
    · cases h
      exact (List.mem_insertionSort nameLe).mp hmod

/-- A set is made from its own modules. -/
theorem new_modules (beams : BeamSet) : new beams.modules = .ok beams := by
  have hreserved : beams.modules.find? (fun module => module.name ∈ reservedModuleNames) =
      none := by
    refine List.find?_eq_none.mpr fun module hmod => ?_
    simpa using beams.unreserved module hmod
  have hsorted : beams.modules.insertionSort nameLe = beams.modules :=
    List.Pairwise.insertionSort_eq (beams.ascending.imp fun h => h.le)
  have hdup : firstDuplicate (beams.modules.insertionSort nameLe) = none := by
    rw [hsorted]
    exact firstDuplicate_of_ascending beams.ascending
  unfold new
  split
  · next h => exact absurd (hreserved.symm.trans h) (by simp)
  · split
    · next h => exact absurd (hdup.symm.trans h) (by simp)
    · simp only [hsorted]

/-- The code of a module. The modules are sorted, so the source's binary search finds it. -/
def get (beams : BeamSet) (name : Text) : Option Bytes :=
  (beams.modules.find? fun module => module.name = name).map BeamModule.bytes

theorem isSome_get_iff {name : Text} :
    (beams.get name).isSome ↔ ∃ module ∈ beams.modules, module.name = name := by
  rw [get, Option.isSome_map, List.find?_isSome]
  simp only [decide_eq_true_eq]

end BeamSet

end Aion.Packaging
