/-
# Workload profiles

A workload names the capabilities it requires, how exact its execution must be and
what it needs in order to move. Its revision is derived from its content.
-/

import Haf.Model.Policy

namespace Haf

open Sequence

inductive RequirementStrength
  | hard | soft
  deriving DecidableEq

namespace RequirementStrength

def toText : RequirementStrength → Bytes
  | .hard => text "HARD"
  | .soft => text "SOFT"

def toWire : RequirementStrength → UInt8
  | .hard => 0
  | .soft => 1

def fromWire : UInt8 → Option RequirementStrength
  | 0 => some .hard
  | 1 => some .soft
  | _ => none

@[simp]
theorem fromWire_toWire (s : RequirementStrength) : fromWire s.toWire = some s := by
  cases s <;> rfl

end RequirementStrength

inductive RequirementOperator
  | present | absent | equals | notEquals | atLeast | atMost | greaterThan | lessThan
  | inSet | supersetOf | subsetOf | intersectsWith | versionSatisfies
  deriving DecidableEq

namespace RequirementOperator

def toText : RequirementOperator → Bytes
  | .present => text "PRESENT"
  | .absent => text "ABSENT"
  | .equals => text "EQUALS"
  | .notEquals => text "NOT_EQUALS"
  | .atLeast => text "AT_LEAST"
  | .atMost => text "AT_MOST"
  | .greaterThan => text "GREATER_THAN"
  | .lessThan => text "LESS_THAN"
  | .inSet => text "IN_SET"
  | .supersetOf => text "SUPERSET_OF"
  | .subsetOf => text "SUBSET_OF"
  | .intersectsWith => text "INTERSECTS_WITH"
  | .versionSatisfies => text "VERSION_SATISFIES"

def toWire : RequirementOperator → UInt8
  | .present => 0
  | .absent => 1
  | .equals => 2
  | .notEquals => 3
  | .atLeast => 4
  | .atMost => 5
  | .greaterThan => 6
  | .lessThan => 7
  | .inSet => 8
  | .supersetOf => 9
  | .subsetOf => 10
  | .intersectsWith => 11
  | .versionSatisfies => 12

def fromWire : UInt8 → Option RequirementOperator
  | 0 => some .present
  | 1 => some .absent
  | 2 => some .equals
  | 3 => some .notEquals
  | 4 => some .atLeast
  | 5 => some .atMost
  | 6 => some .greaterThan
  | 7 => some .lessThan
  | 8 => some .inSet
  | 9 => some .supersetOf
  | 10 => some .subsetOf
  | 11 => some .intersectsWith
  | 12 => some .versionSatisfies
  | _ => none

@[simp]
theorem fromWire_toWire (op : RequirementOperator) : fromWire op.toWire = some op := by
  cases op <;> rfl

end RequirementOperator

/-- How exact the execution must be on the destination. -/
inductive ExecutionMode
  | exactBinary | equivalentAllowed | anyPortability
  deriving DecidableEq

namespace ExecutionMode

def toWire : ExecutionMode → UInt8
  | .exactBinary => 0
  | .equivalentAllowed => 1
  | .anyPortability => 2

def fromWire : UInt8 → Option ExecutionMode
  | 0 => some .exactBinary
  | 1 => some .equivalentAllowed
  | 2 => some .anyPortability
  | _ => none

@[simp]
theorem fromWire_toWire (mode : ExecutionMode) : fromWire mode.toWire = some mode := by
  cases mode <;> rfl

end ExecutionMode

/-- What the workload needs in order to change accelerators at all. -/
inductive MigrationNeed
  | none | restartOnly | checkpointRestore | liveStateTransfer
  deriving DecidableEq

namespace MigrationNeed

def toText : MigrationNeed → Bytes
  | .none => text "NONE"
  | .restartOnly => text "RESTART_ONLY"
  | .checkpointRestore => text "CHECKPOINT_RESTORE"
  | .liveStateTransfer => text "LIVE_STATE_TRANSFER"

def toWire : MigrationNeed → UInt8
  | .none => 0
  | .restartOnly => 1
  | .checkpointRestore => 2
  | .liveStateTransfer => 3

def fromWire : UInt8 → Option MigrationNeed
  | 0 => some .none
  | 1 => some .restartOnly
  | 2 => some .checkpointRestore
  | 3 => some .liveStateTransfer
  | _ => Option.none

@[simp]
theorem fromWire_toWire (need : MigrationNeed) : fromWire need.toWire = some need := by
  cases need <;> rfl

end MigrationNeed

/-! ### Requirements -/

structure CapabilityRequirement where
  id : WorkloadRequirementId := .nil
  capability : Bytes := []
  strength : RequirementStrength := .hard
  op : RequirementOperator := .present
  value : CapabilityValue := .presence false
  versionRange : VersionRange := {}
  weight : Double := .zero
  rationale : Bytes := []
  deriving DecidableEq

/-- The wire number of a version operator. -/
def VersionOperator.toWire : VersionOperator → UInt8
  | .any => 0
  | .equal => 1
  | .notEqual => 2
  | .less => 3
  | .lessEqual => 4
  | .greater => 5
  | .greaterEqual => 6
  | .compatible => 7
  | .tilde => 8

def VersionOperator.fromWire : UInt8 → Option VersionOperator
  | 0 => some .any
  | 1 => some .equal
  | 2 => some .notEqual
  | 3 => some .less
  | 4 => some .lessEqual
  | 5 => some .greater
  | 6 => some .greaterEqual
  | 7 => some .compatible
  | 8 => some .tilde
  | _ => none

@[simp]
theorem VersionOperator.fromWire_toWire (op : VersionOperator) : fromWire op.toWire = some op := by
  cases op <;> rfl

namespace CapabilityRequirement

/-- The operator restricts the kind of value it compares. -/
def validateOperator (q : CapabilityRequirement) : Result Unit :=
  match q.op with
  | .versionSatisfies => do
      ensure (q.value.kind = .version)
        ⟨.capabilityMismatch,
          text "VERSION_SATISFIES requires a version capability: '" ++ q.capability ++ text "'"⟩
      ensure (!q.versionRange.isAny)
        ⟨.malformedVersionRange,
          text "VERSION_SATISFIES requires a bounded version range for '" ++ q.capability ++ text "'"⟩
  | .inSet | .supersetOf | .subsetOf | .intersectsWith =>
      ensure (q.value.kind = .tokenSet || q.value.kind = .enumeration)
        ⟨.capabilityMismatch, text "set operator requires a token-set or enumeration capability: '" ++
          q.capability ++ text "'"⟩
  | .atLeast | .atMost | .greaterThan | .lessThan =>
      ensure (q.value.kind = .integer || q.value.kind = .scalar || q.value.kind = .version)
        ⟨.capabilityMismatch, text "ordering operator requires a numeric or version capability: '" ++
          q.capability ++ text "'"⟩
  | .present | .absent | .equals | .notEquals => .ok ()

def validate (R : Registry) (q : CapabilityRequirement) : Result Unit := do
  ensure (!q.id.isNil) (.failure .invalidArgument "capability requirement has no identity")
  ensure (!q.capability.isEmpty && q.capability.length ≤ Limits.maxNameBytes)
    (.failure .invalidArgument
      "capability requirement has an empty or oversized capability name")
  let key ← capabilityKeyFromName R q.capability
  ensure (q.value.kind = key.kind)
    ⟨.capabilityMismatch, text "requirement for '" ++ q.capability ++
      text "' carries a payload of kind " ++ q.value.kind.toText ++ text " but the capability is " ++
      key.kind.toText⟩
  ensure q.weight.isFinite (.failure .nonFiniteQuantity "requirement weight is not finite")
  ensure (!(q.weight.lt .zero || Double.oneBillion.lt q.weight))
    (.failure .impossibleQuantity "requirement weight is outside the permitted range")
  ensure (!(q.strength = .hard && !q.weight.eq .zero))
    (.failure .invalidArgument "hard requirement must not carry a soft preference weight")
  ensure (q.rationale.length ≤ Limits.maxRationaleBytes)
    (.failure .boundsExceeded "requirement rationale exceeds the permitted length")
  q.validateOperator

/-- The fields of one clause, as written. -/
def serializeClause (clause : VersionClause) : Bytes :=
  ByteWriter.u8 clause.op.toWire ++ ByteWriter.u32 clause.version.major ++
    ByteWriter.u32 clause.version.minor ++ ByteWriter.u32 clause.version.patch ++
    ByteWriter.string clause.version.prerelease

def serialize (q : CapabilityRequirement) : Bytes :=
  ByteWriter.strongId q.id ++ ByteWriter.string q.capability ++ ByteWriter.u8 q.strength.toWire ++
    ByteWriter.u8 q.op.toWire ++ q.value.serialize ++
    ByteWriter.list serializeClause q.versionRange.clauses ++ ByteWriter.f64 q.weight ++
    ByteWriter.string q.rationale

def deserializeClause : ByteReader VersionClause := do
  let rawOp ← ByteReader.u8
  let major ← ByteReader.u32
  let minor ← ByteReader.u32
  let patch ← ByteReader.u32
  let prerelease ← ByteReader.string Limits.maxTokenBytes
  let op ← Wire.Reader.ofOption
    (.failure .malformedVersionRange "version clause operator is outside the declared domain")
    (VersionOperator.fromWire rawOp)
  pure { op, version := { major, minor, patch, prerelease } }

/-- The text a decoded clause is parsed from again. A wildcard clause is followed by its
version here, unlike in the rendering of a range. -/
def reparsedClauseText (clause : VersionClause) : Bytes :=
  VersionClause.operatorText clause.op ++ clause.version.toText

/-- A decoded range goes through the canonical parser. -/
def reparseClauses (clauses : List VersionClause) : Result VersionRange :=
  if clauses.isEmpty then .ok {}
  else VersionRange.parse ((text " ").intercalate (clauses.map reparsedClauseText))

def deserialize (R : Registry) : ByteReader CapabilityRequirement := do
  let id ← ByteReader.strongId
  let capability ← ByteReader.string Limits.maxNameBytes
  let rawStrength ← ByteReader.u8
  let rawOp ← ByteReader.u8
  let strength ← Wire.Reader.ofOption
    (.failure .malformedData "requirement strength is outside the declared domain")
    (RequirementStrength.fromWire rawStrength)
  let op ← Wire.Reader.ofOption
    (.failure .malformedData "requirement operator is outside the declared domain")
    (RequirementOperator.fromWire rawOp)
  let key ← ByteReader.ofResult (capabilityKeyFromName R capability)
  let value ← CapabilityValue.deserialize
  Wire.Reader.require (value.kind = key.kind)
    ⟨.capabilityMismatch, text "requirement for '" ++ capability ++
      text "' carries a payload whose kind disagrees with the capability"⟩
  let clauses ← ByteReader.list 32 13 deserializeClause
  let versionRange ← ByteReader.ofResult (reparseClauses clauses)
  let weight ← ByteReader.f64
  let rationale ← ByteReader.string Limits.maxRationaleBytes
  let q : CapabilityRequirement := {
    id, capability, strength, op, value, versionRange, weight, rationale }
  ByteReader.ofResult (q.validate R)
  pure q

end CapabilityRequirement

/-! ### Profiles -/

structure WorkloadProfile where
  classId : WorkloadClassId := .nil
  requirementId : WorkloadRequirementId := .nil
  revision : WorkloadRevision := ⟨0⟩
  name : Bytes := []
  description : Bytes := []
  requirements : List CapabilityRequirement := []
  executionMode : ExecutionMode := .equivalentAllowed
  minimumPortability : PortabilityClass := .unsupported
  migrationNeed : MigrationNeed := .none
  reconstructionAllowed : Bool := true
  requiredPolicyTags : List Bytes := []
  deriving DecidableEq

namespace WorkloadProfile

/-- Each requirement is valid, in declaration order. -/
def validateRequirements (R : Registry) : List CapabilityRequirement → Result Unit
  | [] => .ok ()
  | q :: rest => do
      q.validate R
      validateRequirements R rest

/-- What identifies a requirement within a profile. -/
def requirementSignature (q : CapabilityRequirement) : Bytes :=
  q.capability ++ text "#" ++ q.strength.toText ++ text "#" ++ q.op.toText

/-- No two entries of a list agree; the refusal names the repeated one. -/
def refuseDuplicate (message : String) (entries : List Bytes) : Result Unit :=
  match adjacentDuplicate (ascending entries) with
  | some entry => .error ⟨.duplicateIdentity, text message ++ entry⟩
  | none => .ok ()

def validate (R : Registry) (w : WorkloadProfile) : Result Unit := do
  ensure (!w.classId.isNil)
    (.failure .invalidArgument "workload profile has no class identity")
  ensure (!w.requirementId.isNil)
    (.failure .invalidArgument "workload profile has no requirement identity")
  ensure (!w.name.isEmpty && w.name.length ≤ Limits.maxNameBytes)
    (.failure .invalidArgument "workload profile has an empty or oversized name")
  ensure (w.description.length ≤ Limits.maxDescriptionBytes)
    (.failure .boundsExceeded "workload description exceeds the permitted length")
  ensure (w.requirements.length ≤ Limits.maxRequirementsPerWorkload)
    (.failure .boundsExceeded "workload profile exceeds the permitted number of requirements")
  validateRequirements R w.requirements
  refuseDuplicate "workload profile declares the same capability requirement twice: "
    (w.requirements.map requirementSignature)
  ensure (w.requiredPolicyTags.length ≤ Limits.maxPolicyDimensions)
    (.failure .boundsExceeded "workload profile declares too many policy tags")
  refuseDuplicate "workload profile declares a duplicate policy tag: " w.requiredPolicyTags
  ensure (w.requiredPolicyTags.all fun tag => !tag.isEmpty && tag.length ≤ Limits.maxTokenBytes)
    (.failure .invalidArgument "policy tag is empty or oversized")
  ensure (!(w.minimumPortability = .liveMigrationSupported &&
      w.migrationNeed ≠ .liveStateTransfer))
    (.failure .invalidArgument
      "a live-migration portability minimum requires a live state transfer migration need")

/-- Requirements are hashed in the order of name, strength and operator. -/
def requirementOrder (q : CapabilityRequirement) : List Bytes :=
  [q.capability, [q.strength.toWire], [q.op.toWire]]

/-- The fields of a requirement that enter the digest. -/
def requirementBytes (q : CapabilityRequirement) : Bytes :=
  ByteWriter.string q.capability ++ ByteWriter.u8 q.strength.toWire ++ ByteWriter.u8 q.op.toWire ++
    ByteWriter.string q.value.render ++ ByteWriter.string q.versionRange.toText ++
    ByteWriter.f64 q.weight ++ ByteWriter.string q.rationale

/-- Deterministic digest over the canonical workload definition. -/
def digest (w : WorkloadProfile) : Digest :=
  Sha256.hash (ByteWriter.strongId w.classId ++ ByteWriter.string w.name ++
    ByteWriter.string w.description ++ ByteWriter.u8 w.executionMode.toWire ++
    ByteWriter.u8 w.minimumPortability.toWire ++ ByteWriter.u8 w.migrationNeed.toWire ++
    ByteWriter.boolean w.reconstructionAllowed ++
    ByteWriter.list requirementBytes (sortOn requirementOrder w.requirements) ++
    ByteWriter.list ByteWriter.string (ascending w.requiredPolicyTags))

def serialize (w : WorkloadProfile) : Bytes :=
  ByteWriter.strongId w.classId ++ ByteWriter.strongId w.requirementId ++
    ByteWriter.generation w.revision ++ ByteWriter.string w.name ++
    ByteWriter.string w.description ++ ByteWriter.u8 w.executionMode.toWire ++
    ByteWriter.u8 w.minimumPortability.toWire ++ ByteWriter.u8 w.migrationNeed.toWire ++
    ByteWriter.boolean w.reconstructionAllowed ++
    ByteWriter.list CapabilityRequirement.serialize w.requirements ++
    ByteWriter.list ByteWriter.string w.requiredPolicyTags

def deserialize (R : Registry) : ByteReader WorkloadProfile := do
  let classId ← ByteReader.strongId
  let requirementId ← ByteReader.strongId
  let revision ← ByteReader.generation
  let name ← ByteReader.string Limits.maxNameBytes
  let description ← ByteReader.string Limits.maxDescriptionBytes
  let rawMode ← ByteReader.u8
  let rawPortability ← ByteReader.u8
  let rawNeed ← ByteReader.u8
  let reconstructionAllowed ← ByteReader.boolean
  let executionMode ← Wire.Reader.ofOption
    (.failure .malformedData "execution mode is outside the declared domain")
    (ExecutionMode.fromWire rawMode)
  let minimumPortability ← Wire.Reader.ofOption
    (.failure .malformedData "portability class is outside the declared domain")
    (PortabilityClass.fromWire rawPortability)
  let migrationNeed ← Wire.Reader.ofOption
    (.failure .malformedData "migration need is outside the declared domain")
    (MigrationNeed.fromWire rawNeed)
  let requirements ← ByteReader.list Limits.maxRequirementsPerWorkload 8
    (CapabilityRequirement.deserialize R)
  let requiredPolicyTags ← ByteReader.list Limits.maxPolicyDimensions 4
    (ByteReader.string Limits.maxTokenBytes)
  let w : WorkloadProfile := {
    classId, requirementId, revision, name, description, requirements, executionMode
    minimumPortability, migrationNeed, reconstructionAllowed, requiredPolicyTags }
  ByteReader.ofResult (w.validate R)
  pure w

end WorkloadProfile

/-- Deterministic identity for a workload requirement revision. -/
def deriveRequirementId (w : WorkloadProfile) : WorkloadRequirementId :=
  ⟨deriveIdentity (text "haf.workload-requirement") (toHex (Sha256.hash
    (ByteWriter.strongId w.classId ++ ByteWriter.string w.name)).bytes)⟩

/-- The revision is the content digest folded into a generation. -/
def deriveWorkloadRevision (w : WorkloadProfile) : WorkloadRevision :=
  let folded := foldDigest 29 w.digest
  ⟨if folded == 0 then 1 else folded⟩

/-! ### Building requirements -/

/-- The requirement that nothing has been asked of yet. -/
def baseRequirement (R : Registry) (capability : Bytes) (strength : RequirementStrength) :
    Result CapabilityRequirement := do
  let key ← capabilityKeyFromName R capability
  return { capability := key.name, strength, value := .ofKind key.kind }

/-- Ask for tokens of a set only. -/
def requireTokenIn (R : Registry) (capability : Bytes) (tokens : List Bytes)
    (strength : RequirementStrength) : Result CapabilityRequirement := do
  let base ← baseRequirement R capability strength
  let value ← (CapabilityValue.tokenSet tokens).canonicalize
  let q : CapabilityRequirement :=
    { base with
      op := .inSet
      value
      id := ⟨deriveIdentity (text "haf.requirement")
        (base.capability ++ text "|in|" ++ value.render)⟩ }
  q.validate R
  return q

end Haf
