/-
# Portability classes and federation policy

A policy restricts vendors, devices, capabilities and portability classes. Its
identity and generation are derived from its content; the decoder canonicalizes
the lists and requires that the stored identity still matches.
-/

import Haf.Model.Accelerator

namespace Haf

open Sequence

/-! ### Portability classes -/

/-- How an execution can move between accelerators, in order of strength. -/
inductive PortabilityClass
  | unsupported | unknown | repackageAndRestartRequired | stateReconstructionRequired
  | repackageRequired | recompileRequired | checkpointRestoreSupported | binaryCompatible
  | native | liveMigrationSupported
  deriving DecidableEq

namespace PortabilityClass

def toText : PortabilityClass → Bytes
  | .unsupported => text "UNSUPPORTED"
  | .unknown => text "UNKNOWN"
  | .repackageAndRestartRequired => text "REPACKAGE_AND_RESTART_REQUIRED"
  | .stateReconstructionRequired => text "STATE_RECONSTRUCTION_REQUIRED"
  | .repackageRequired => text "REPACKAGE_REQUIRED"
  | .recompileRequired => text "RECOMPILE_REQUIRED"
  | .checkpointRestoreSupported => text "CHECKPOINT_RESTORE_SUPPORTED"
  | .binaryCompatible => text "BINARY_COMPATIBLE"
  | .native => text "NATIVE"
  | .liveMigrationSupported => text "LIVE_MIGRATION_SUPPORTED"

def toWire : PortabilityClass → UInt8
  | .unsupported => 0
  | .unknown => 1
  | .repackageAndRestartRequired => 2
  | .stateReconstructionRequired => 3
  | .repackageRequired => 4
  | .recompileRequired => 5
  | .checkpointRestoreSupported => 6
  | .binaryCompatible => 7
  | .native => 8
  | .liveMigrationSupported => 9

def fromWire : UInt8 → Option PortabilityClass
  | 0 => some .unsupported
  | 1 => some .unknown
  | 2 => some .repackageAndRestartRequired
  | 3 => some .stateReconstructionRequired
  | 4 => some .repackageRequired
  | 5 => some .recompileRequired
  | 6 => some .checkpointRestoreSupported
  | 7 => some .binaryCompatible
  | 8 => some .native
  | 9 => some .liveMigrationSupported
  | _ => none

@[simp]
theorem fromWire_toWire (value : PortabilityClass) : fromWire value.toWire = some value := by
  cases value <;> rfl

/-- Monotonic strength used for threshold comparison. -/
def strength (value : PortabilityClass) : UInt8 := value.toWire

/-- Missing evidence meets no threshold and is no threshold. -/
def meetsThreshold (value minimum : PortabilityClass) : Bool :=
  value != .unknown && minimum != .unknown && minimum.strength ≤ value.strength

/-- Transformation steps implied by the class; lower is better. -/
def transformationSteps : PortabilityClass → UInt8
  | .native => 0
  | .liveMigrationSupported => 0
  | .binaryCompatible => 0
  | .checkpointRestoreSupported => 1
  | .recompileRequired => 2
  | .repackageRequired => 2
  | .stateReconstructionRequired => 3
  | .repackageAndRestartRequired => 3
  | .unsupported => 255
  | .unknown => 255

def requiresBinaryTransformation : PortabilityClass → Bool
  | .recompileRequired | .repackageRequired | .repackageAndRestartRequired
  | .stateReconstructionRequired => true
  | _ => false

def requiresStateReconstruction : PortabilityClass → Bool
  | .stateReconstructionRequired | .repackageAndRestartRequired => true
  | _ => false

end PortabilityClass

/-! ### Policy -/

/-- How evidence whose provenance is not REAL is treated. -/
inductive SyntheticEvidencePolicy
  | reject | allow | require
  deriving DecidableEq

namespace SyntheticEvidencePolicy

def toWire : SyntheticEvidencePolicy → UInt8
  | .reject => 0
  | .allow => 1
  | .require => 2

def fromWire : UInt8 → Option SyntheticEvidencePolicy
  | 0 => some .reject
  | 1 => some .allow
  | 2 => some .require
  | _ => none

@[simp]
theorem fromWire_toWire (value : SyntheticEvidencePolicy) :
    fromWire value.toWire = some value := by
  cases value <;> rfl

end SyntheticEvidencePolicy

structure FederationPolicy where
  id : PolicyId := .nil
  generation : PolicyGeneration := ⟨0⟩
  name : Bytes := []
  allowedVendors : List Bytes := []
  forbiddenVendors : List Bytes := []
  forbiddenAccelerators : List AcceleratorId := []
  deprecatedArchitectures : List Bytes := []
  minimumRuntimeVersion : VersionRange := {}
  requiredEvidenceFreshnessNanos : UInt64 := 0
  syntheticEvidencePolicy : SyntheticEvidencePolicy := .allow
  requireRealEvidenceForActive : Bool := false
  requiredCapabilities : List Bytes := []
  deniedCapabilities : List Bytes := []
  allowedPortabilityClasses : List PortabilityClass := []
  allowCrossVendorMigration : Bool := false
  allowCrossVendorReconstruction : Bool := true
  allowDegradedCapabilities : Bool := false
  minimumMemoryBytes : UInt64 := 0
  tags : List Bytes := []
  deriving DecidableEq

/-- Fold a digest into 64 bits, mixing with a right shift after each byte. -/
def foldDigest (shift : UInt64) (d : Digest) : UInt64 :=
  d.bytes.foldl (fun folded b =>
    let folded := (folded <<< 8) ||| b.toUInt64
    folded ^^^ (folded >>> shift)) 0

namespace FederationPolicy

/-- Every capability reference must resolve. -/
def resolveCapabilities (R : Registry) (what : String) : List Bytes → Result Unit
  | [] => .ok ()
  | capability :: rest =>
      match capabilityKeyFromName R capability with
      | .error e => .error ⟨e.code, text what ++ e.message⟩
      | .ok _ => resolveCapabilities R what rest

def validate (R : Registry) (p : FederationPolicy) : Result Unit := do
  ensure (!p.id.isNil) (.failure .invalidArgument "federation policy has no identity")
  ensure (p.name.length ≤ Limits.maxNameBytes)
    (.failure .boundsExceeded "policy name exceeds the permitted length")
  ensure (p.allowedVendors.length ≤ Limits.maxPolicyDimensions &&
      p.forbiddenVendors.length ≤ Limits.maxPolicyDimensions &&
      p.forbiddenAccelerators.length ≤ Limits.maxPolicyDimensions &&
      p.deprecatedArchitectures.length ≤ Limits.maxPolicyDimensions &&
      p.requiredCapabilities.length ≤ Limits.maxPolicyDimensions &&
      p.deniedCapabilities.length ≤ Limits.maxPolicyDimensions &&
      p.tags.length ≤ Limits.maxPolicyDimensions)
    (.failure .boundsExceeded "policy dimension exceeds the permitted size")
  resolveCapabilities R "policy required_capabilities: " p.requiredCapabilities
  resolveCapabilities R "policy denied_capabilities: " p.deniedCapabilities
  match p.requiredCapabilities.find? (binarySearch p.deniedCapabilities) with
  | some required =>
      .error ⟨.contradictoryCapabilities,
        text "policy both requires and denies capability '" ++ required ++ text "'"⟩
  | none => .ok ()
  match p.allowedVendors.find? (binarySearch p.forbiddenVendors) with
  | some allowed =>
      .error ⟨.invalidArgument,
        text "policy both allows and forbids vendor '" ++ allowed ++ text "'"⟩
  | none => .ok ()
  ensure (p.minimumMemoryBytes ≤ 4611686018427387904)
    (.failure .impossibleQuantity "policy minimum memory is outside the permitted range")
  ensure (p.requiredEvidenceFreshnessNanos ≤ Limits.maxEvidenceAgeNanos)
    (.failure .impossibleQuantity "policy evidence freshness budget is outside the permitted range")

/-- Portability classes in order of strength, without repetitions. -/
def canonicalClasses (classes : List PortabilityClass) : List UInt8 :=
  sortUnique (classes.map (·.toWire))

/-- Deterministic digest over the canonical policy definition. -/
def digest (p : FederationPolicy) : Digest :=
  Sha256.hash (ByteWriter.string p.name ++
    ByteWriter.list ByteWriter.string (ascending p.allowedVendors) ++
    ByteWriter.list ByteWriter.string (ascending p.forbiddenVendors) ++
    ByteWriter.list ByteWriter.strongId (ascending p.forbiddenAccelerators) ++
    ByteWriter.list ByteWriter.string (ascending p.deprecatedArchitectures) ++
    ByteWriter.string p.minimumRuntimeVersion.toText ++
    ByteWriter.u64 p.requiredEvidenceFreshnessNanos ++
    ByteWriter.u8 p.syntheticEvidencePolicy.toWire ++
    ByteWriter.boolean p.requireRealEvidenceForActive ++
    ByteWriter.list ByteWriter.string (ascending p.requiredCapabilities) ++
    ByteWriter.list ByteWriter.string (ascending p.deniedCapabilities) ++
    ByteWriter.list ByteWriter.u8 (canonicalClasses p.allowedPortabilityClasses) ++
    ByteWriter.boolean p.allowCrossVendorMigration ++
    ByteWriter.boolean p.allowCrossVendorReconstruction ++
    ByteWriter.boolean p.allowDegradedCapabilities ++
    ByteWriter.u64 p.minimumMemoryBytes ++
    ByteWriter.list ByteWriter.string (ascending p.tags))

/-- Refresh the content-addressed identity and generation from the digest. -/
def refreshIdentity (p : FederationPolicy) : FederationPolicy :=
  let folded := foldDigest 31 p.digest
  { p with
    id := ⟨deriveIdentity (text "haf.policy") (toHex p.digest.bytes)⟩
    generation := ⟨if folded == 0 then 1 else folded⟩ }

def serialize (p : FederationPolicy) : Bytes :=
  ByteWriter.strongId p.id ++ ByteWriter.generation p.generation ++ ByteWriter.string p.name ++
    ByteWriter.list ByteWriter.string p.allowedVendors ++
    ByteWriter.list ByteWriter.string p.forbiddenVendors ++
    ByteWriter.list ByteWriter.strongId p.forbiddenAccelerators ++
    ByteWriter.list ByteWriter.string p.deprecatedArchitectures ++
    ByteWriter.string p.minimumRuntimeVersion.toText ++
    ByteWriter.u64 p.requiredEvidenceFreshnessNanos ++
    ByteWriter.u8 p.syntheticEvidencePolicy.toWire ++
    ByteWriter.boolean p.requireRealEvidenceForActive ++
    ByteWriter.list ByteWriter.string p.requiredCapabilities ++
    ByteWriter.list ByteWriter.string p.deniedCapabilities ++
    ByteWriter.list (fun value => ByteWriter.u8 value.toWire) p.allowedPortabilityClasses ++
    ByteWriter.boolean p.allowCrossVendorMigration ++
    ByteWriter.boolean p.allowCrossVendorReconstruction ++
    ByteWriter.boolean p.allowDegradedCapabilities ++
    ByteWriter.u64 p.minimumMemoryBytes ++ ByteWriter.list ByteWriter.string p.tags

/-- Sort a policy dimension and refuse repetitions. -/
def canonicalizeSorted (values : List Bytes) (what : String) : Result (List Bytes) := do
  ensure (values.length ≤ Limits.maxPolicyDimensions)
    ⟨.boundsExceeded, text "policy declares too many " ++ text what⟩
  ensure (adjacentDuplicate (ascending values)).isNone
    ⟨.duplicateIdentity, text "policy declares a duplicate " ++ text what⟩
  pure (ascending values)

/-- Prefix the refusal of a list element with the name of its dimension. -/
def inDimension {α : Type} (what : String) : Result α → Result α
  | .ok a => .ok a
  | .error e => .error ⟨e.code, text what ++ text ": " ++ e.message⟩

def canonicalizeTokens (values : List Bytes) (what : String) : Result (List Bytes) := do
  let canonical ← values.mapM fun value =>
    inDimension what (canonicalToken value Limits.maxTokenBytes)
  canonicalizeSorted canonical what

def canonicalizeCapabilities (R : Registry) (values : List Bytes) (what : String) :
    Result (List Bytes) := do
  let canonical ← values.mapM fun value =>
    inDimension what ((capabilityKeyFromName R value).map (·.name))
  canonicalizeSorted canonical what

/-- Canonicalize a decoded policy as a natively constructed one, validate it, and require
that the stored identity matches the content. -/
def admitDecoded (R : Registry) (p : FederationPolicy) : Result FederationPolicy := do
  let allowedVendors ← canonicalizeTokens p.allowedVendors "allowed vendor"
  let forbiddenVendors ← canonicalizeTokens p.forbiddenVendors "forbidden vendor"
  let deprecatedArchitectures ←
    canonicalizeTokens p.deprecatedArchitectures "deprecated architecture"
  let requiredCapabilities ←
    canonicalizeCapabilities R p.requiredCapabilities "required capability"
  let deniedCapabilities ← canonicalizeCapabilities R p.deniedCapabilities "denied capability"
  let tags ← canonicalizeTokens p.tags "policy tag"
  let canonical := { p with
    allowedVendors, forbiddenVendors, deprecatedArchitectures, requiredCapabilities
    deniedCapabilities, tags }
  canonical.validate R
  ensure (canonical.refreshIdentity.id = canonical.id)
    (.failure .integrityFailure "policy identity does not match its content digest")
  pure canonical.refreshIdentity

def deserialize (R : Registry) : ByteReader FederationPolicy := do
  let tokens (maxBytes : Nat) : ByteReader (List Bytes) :=
    ByteReader.list Limits.maxPolicyDimensions 4 (ByteReader.string maxBytes)
  let id ← ByteReader.strongId
  let generation ← ByteReader.generation
  let name ← ByteReader.string Limits.maxNameBytes
  let allowedVendors ← tokens Limits.maxTokenBytes
  let forbiddenVendors ← tokens Limits.maxTokenBytes
  let forbiddenAccelerators ← ByteReader.list Limits.maxPolicyDimensions 16 ByteReader.strongId
  let deprecatedArchitectures ← tokens Limits.maxTokenBytes
  let minimumVersion ← ByteReader.string Limits.maxStringBytes
  let requiredEvidenceFreshnessNanos ← ByteReader.u64
  let rawSynthetic ← ByteReader.u8
  let requireRealEvidenceForActive ← ByteReader.boolean
  let syntheticEvidencePolicy ← Wire.Reader.ofOption
    (.failure .malformedData "synthetic evidence policy is outside the declared domain")
    (SyntheticEvidencePolicy.fromWire rawSynthetic)
  let requiredCapabilities ← tokens Limits.maxNameBytes
  let deniedCapabilities ← tokens Limits.maxNameBytes
  let allowedPortabilityClasses ← ByteReader.list Limits.maxPolicyDimensions 1 (do
    let raw ← ByteReader.u8
    Wire.Reader.ofOption
      (.failure .malformedData "portability class is outside the declared domain")
      (PortabilityClass.fromWire raw))
  let allowCrossVendorMigration ← ByteReader.boolean
  let allowCrossVendorReconstruction ← ByteReader.boolean
  let allowDegradedCapabilities ← ByteReader.boolean
  let minimumMemoryBytes ← ByteReader.u64
  let tags ← tokens Limits.maxTokenBytes
  let minimumRuntimeVersion ← ByteReader.ofResult (VersionRange.parse minimumVersion)
  ByteReader.ofResult (admitDecoded R {
    id, generation, name, allowedVendors, forbiddenVendors, forbiddenAccelerators
    deprecatedArchitectures, minimumRuntimeVersion, requiredEvidenceFreshnessNanos
    syntheticEvidencePolicy, requireRealEvidenceForActive, requiredCapabilities
    deniedCapabilities, allowedPortabilityClasses, allowCrossVendorMigration
    allowCrossVendorReconstruction, allowDegradedCapabilities, minimumMemoryBytes, tags })

/-- Default policy used when a federation is created without an explicit one. -/
def permissiveDefault : FederationPolicy :=
  refreshIdentity {
    name := text "default"
    syntheticEvidencePolicy := .allow
    allowCrossVendorReconstruction := true
    allowCrossVendorMigration := false }

end FederationPolicy

end Haf
