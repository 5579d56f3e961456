import Aion.Library.PrefixCode
import Aion.Package.Contents

/-!
# Version identities

The version of a package is a hash over its modules, and in two of the three accepted forms
over its timeouts as well. A digest is modelled by the bytes fed to it so far; SHA-256 is the
parameter `sha256`, applied to them at the end. The equations below give the bytes of each
form: all three begin with the modules, and the two with timeouts go on with a tag that is
framed as a module's name is.
-/

namespace Aion.Packaging

open PrefixCode

variable {Json : Type}

/-- Tag of the form with the primary timeout alone. -/
def workflowTimeoutDomain : Text := .lit "aion.package.version.workflow-timeout.v1"

/-- Tag of the form with every entry's timeout. -/
def workflowTimeoutsDomain : Text := .lit "aion.package.version.workflow-timeouts.v3"

/-! ### Feeding the digest -/

variable (digest : List UInt8)

/-- The eight bytes of a length, then the bytes. -/
def updateFramed (bytes : Bytes) : List UInt8 :=
  (digest ++ bigEndian 8 bytes.data.length) ++ bytes.data

/-- Every module's name and code, in canonical order. -/
def updateBeams (beams : BeamSet) : List UInt8 :=
  beams.modules.foldl (fun digest module =>
      updateFramed (updateFramed digest module.name.asBytes) module.bytes) digest

/-- Seconds as eight bytes, then nanoseconds as four. -/
def updateDuration (timeout : Duration) : List UInt8 :=
  (digest ++ bigEndian 8 timeout.secs.toNat) ++ bigEndian 4 timeout.subsecNanos.toNat

/-- A presence byte, then the timeout if there is one. -/
def updateTimeoutField : Option Duration → List UInt8
  | some timeout => updateDuration (digest ++ [1]) timeout
  | none => digest ++ [0]

/-- The bytes of the beams-only form. -/
def beamsIdentity (beams : BeamSet) : List UInt8 := updateBeams [] beams

/-- The bytes of the form with the primary timeout. -/
def timeoutIdentity (beams : BeamSet) (timeout : Duration) : List UInt8 :=
  updateDuration (updateFramed (updateBeams [] beams) workflowTimeoutDomain.asBytes) timeout

/-- The bytes of the form with every entry's timeout, the primary entry first. -/
def timeoutsIdentity (beams : BeamSet) (manifest : Manifest Json) : List UInt8 :=
  let digest := updateFramed (updateBeams [] beams) workflowTimeoutsDomain.asBytes
  let digest := digest ++ bigEndian 8 (1 + manifest.additionalWorkflows.length)
  let digest := updateFramed digest manifest.entryModule.asBytes
  let digest := updateTimeoutField digest manifest.timeout
  manifest.additionalWorkflows.foldl
    (fun digest entry => updateTimeoutField (updateFramed digest entry.workflowType.asBytes) entry.timeout) digest

section Hashes

variable (sha256 : List UInt8 → ContentHash)

/-- The version over the modules. -/
def contentHash (beams : BeamSet) : ContentHash := sha256 (beamsIdentity beams)

/-- The version over the modules and the primary timeout. -/
def contentHashWithTimeout (beams : BeamSet) (timeout : Duration) : ContentHash :=
  sha256 (timeoutIdentity beams timeout)

/-- The version over the modules and every entry's timeout. -/
def contentHashWithTimeouts (beams : BeamSet) (manifest : Manifest Json) : ContentHash :=
  sha256 (timeoutsIdentity beams manifest)

/-- Whether the version commits to the timeouts of the entries. -/
def hasExplicitTimeoutIdentity (beams : BeamSet) (manifest : Manifest Json) (hash : ContentHash) :
    Bool :=
  hash ≠ contentHash sha256 beams && hash = contentHashWithTimeouts sha256 beams manifest

/-- The recomputed hash that the stored version is the text of. -/
def verifiedContentHash (beams : BeamSet) (manifest : Manifest Json) :
    Except PackageError ContentHash :=
  let legacyHash := contentHash sha256 beams
  let stored := manifest.version
  if stored = legacyHash.toText then .ok legacyHash
  else
    let timeoutsHash := contentHashWithTimeouts sha256 beams manifest
    if stored = timeoutsHash.toText then .ok timeoutsHash
    else
      match manifest.timeout with
      | some primary =>
        -- stamped before the entries' own timeouts were part of the version
        let v1Hash := contentHashWithTimeout sha256 beams primary
        if stored = v1Hash.toText then .ok v1Hash
        else .error (.integrityMismatch stored legacyHash.toText)
      | none => .error (.integrityMismatch stored legacyHash.toText)

/-- **What is accepted**: the stored version is the text of one of the three forms. -/
theorem verifiedContentHash_eq_ok {beams : BeamSet} {manifest : Manifest Json} {hash : ContentHash}
    (h : verifiedContentHash sha256 beams manifest = .ok hash) :
    manifest.version = hash.toText ∧
      (hash = contentHash sha256 beams ∨
        manifest.version ≠ (contentHash sha256 beams).toText ∧
          hash = contentHashWithTimeouts sha256 beams manifest ∨
        manifest.version ≠ (contentHash sha256 beams).toText ∧
          manifest.version ≠ (contentHashWithTimeouts sha256 beams manifest).toText ∧
          ∃ primary, manifest.timeout = some primary ∧
            hash = contentHashWithTimeout sha256 beams primary) := by
  simp only [verifiedContentHash] at h
  split_ifs at h with hlegacy htimeouts
  · cases h
    exact ⟨hlegacy, .inl rfl⟩
  · cases h
    exact ⟨htimeouts, .inr (.inl ⟨hlegacy, rfl⟩)⟩
  · cases htmo : manifest.timeout with
    | none =>
      rw [htmo] at h
      nomatch h
    | some primary =>
      simp only [htmo] at h
      split_ifs at h with hv1
      cases h
      exact ⟨hv1, .inr (.inr ⟨hlegacy, htimeouts, primary, rfl, rfl⟩)⟩

end Hashes

/-! ### The bytes of the forms -/

/-- A framed buffer is read back. -/
theorem uniquelyRead_frame : UniquelyRead fun bytes : Bytes => frame bytes.data := by
  intro a b x y h
  have ha := a.fits
  have hb := b.fits
  obtain ⟨hdata, hrest⟩ := frame_append_inj (by omega) (by omega) h
  cases a
  cases b
  cases hdata
  exact ⟨rfl, hrest⟩

/-- A framed string is read back. -/
theorem uniquelyRead_frame_text : UniquelyRead fun text : Text => frame text.asBytes.data :=
  uniquelyRead_frame.comap Text.asBytes_injective

/-- A module as it is hashed. -/
def moduleFields (module : BeamModule) : List UInt8 :=
  frame module.name.asBytes.data ++ frame module.bytes.data

theorem uniquelyRead_moduleFields : UniquelyRead moduleFields := by
  have hpair := uniquelyRead_frame_text.pair uniquelyRead_frame
  have hinj : Function.Injective fun module : BeamModule => (module.name, module.bytes) := by
    rintro ⟨name, bytes⟩ ⟨name', bytes'⟩ h
    cases h
    rfl
  exact hpair.comap hinj

/-- A timeout as it is hashed. -/
def durationFields (timeout : Duration) : List UInt8 :=
  bigEndian 8 timeout.secs.toNat ++ bigEndian 4 timeout.subsecNanos.toNat

theorem uniquelyRead_durationFields : UniquelyRead durationFields := by
  have hsecs : UniquelyRead fun secs : UInt64 => bigEndian 8 secs.toNat := by
    refine .of_length 8 (fun _ => length_bigEndian 8 _) fun a b h => UInt64.toNat_inj.mp ?_
    exact eq_of_bigEndian_eq a.toNat_lt b.toNat_lt h
  have hnanos : UniquelyRead fun nanos : UInt32 => bigEndian 4 nanos.toNat := by
    refine .of_length 4 (fun _ => length_bigEndian 4 _) fun a b h => UInt32.toNat_inj.mp ?_
    exact eq_of_bigEndian_eq a.toNat_lt b.toNat_lt h
  have hinj : Function.Injective fun timeout : Duration => (timeout.secs, timeout.subsecNanos) := by
    rintro ⟨secs, nanos, hsubsec⟩ ⟨secs', nanos', hsubsec'⟩ h
    cases h
    rfl
  exact (hsecs.pair hnanos).comap hinj

/-- The routing name of an entry and its timeout, as they are hashed. -/
def entryFields (entry : Text × Option Duration) : List UInt8 :=
  frame entry.1.asBytes.data ++ optional 0 1 durationFields entry.2

theorem uniquelyRead_entryFields : UniquelyRead entryFields :=
  uniquelyRead_frame_text.pair (uniquelyRead_durationFields.optional (by decide))

theorem updateFramed_eq (bytes : Bytes) :
    updateFramed digest bytes = digest ++ frame bytes.data := by
  rw [updateFramed, frame, List.append_assoc]

theorem updateBeams_eq (beams : BeamSet) :
    updateBeams digest beams = digest ++ beams.modules.flatMap moduleFields := by
  unfold updateBeams
  generalize beams.modules = modules
  induction modules generalizing digest with
  | nil => exact (List.append_nil digest).symm
  | cons module rest ih =>
    rw [List.foldl_cons, ih, updateFramed_eq, updateFramed_eq, List.flatMap_cons, moduleFields]
    simp only [List.append_assoc]

theorem updateDuration_eq (timeout : Duration) :
    updateDuration digest timeout = digest ++ durationFields timeout := by
  rw [updateDuration, durationFields, List.append_assoc]

theorem updateTimeoutField_eq (timeout : Option Duration) :
    updateTimeoutField digest timeout = digest ++ optional 0 1 durationFields timeout := by
  cases timeout with
  | none => rfl
  | some timeout =>
    rw [updateTimeoutField, updateDuration_eq, List.append_assoc, List.singleton_append]
    rfl

theorem foldl_updateEntry_eq (entries : List (WorkflowEntry Json)) :
    entries.foldl
        (fun digest entry => updateTimeoutField
            (updateFramed digest entry.workflowType.asBytes) entry.timeout) digest =
      digest ++ (entries.map fun entry => (entry.workflowType, entry.timeout)).flatMap
      entryFields := by
  induction entries generalizing digest with
  | nil => exact (List.append_nil digest).symm
  | cons entry rest ih =>
    rw [List.foldl_cons, ih, updateTimeoutField_eq, updateFramed_eq, List.map_cons,
      List.flatMap_cons, entryFields]
    simp only [List.append_assoc]

/-- The entries whose timeouts a version commits to, the primary first. -/
def routedTimeouts (manifest : Manifest Json) : List (Text × Option Duration) :=
  (manifest.entryModule, manifest.timeout) ::
    manifest.additionalWorkflows.map fun entry => (entry.workflowType, entry.timeout)

theorem length_routedTimeouts (manifest : Manifest Json) :
    (routedTimeouts manifest).length = 1 + manifest.additionalWorkflows.length := by
  rw [routedTimeouts, List.length_cons, List.length_map, Nat.add_comm]

/-- What follows the modules in the form with the primary timeout. -/
def timeoutTail (timeout : Duration) : List UInt8 :=
  frame workflowTimeoutDomain.asBytes.data ++ durationFields timeout

/-- What follows the modules in the form with every entry's timeout. -/
def timeoutsTail (manifest : Manifest Json) : List UInt8 :=
  frame workflowTimeoutsDomain.asBytes.data ++
    (bigEndian 8 (routedTimeouts manifest).length ++ (routedTimeouts manifest).flatMap entryFields)

theorem beamsIdentity_eq (beams : BeamSet) :
    beamsIdentity beams = beams.modules.flatMap moduleFields :=
  updateBeams_eq [] beams

theorem timeoutIdentity_eq (beams : BeamSet) (timeout : Duration) :
    timeoutIdentity beams timeout = beams.modules.flatMap moduleFields ++ timeoutTail timeout := by
  rw [timeoutIdentity, updateDuration_eq, updateFramed_eq, updateBeams_eq, List.nil_append,
    List.append_assoc,
    timeoutTail]

theorem timeoutsIdentity_eq (beams : BeamSet) (manifest : Manifest Json) :
    timeoutsIdentity beams manifest = beams.modules.flatMap moduleFields ++
      timeoutsTail manifest := by
  simp only [timeoutsIdentity]
  rw [foldl_updateEntry_eq, updateTimeoutField_eq, updateFramed_eq, updateFramed_eq, updateBeams_eq,
    List.nil_append,
    timeoutsTail, length_routedTimeouts, routedTimeouts, List.flatMap_cons, entryFields]
  simp only [List.append_assoc]

theorem contentHash_eq (sha256 : List UInt8 → ContentHash) (beams : BeamSet) :
    contentHash sha256 beams = sha256 (beams.modules.flatMap moduleFields) := by
  rw [contentHash, beamsIdentity_eq]

theorem contentHashWithTimeouts_eq (sha256 : List UInt8 → ContentHash) (beams : BeamSet)
    (manifest : Manifest Json) :
    contentHashWithTimeouts sha256 beams manifest =
      sha256 (beams.modules.flatMap moduleFields ++ timeoutsTail manifest) := by
  rw [contentHashWithTimeouts, timeoutsIdentity_eq]

end Aion.Packaging
