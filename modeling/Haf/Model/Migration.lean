/-
# Migration plans

A plan says what must happen, and under whose authority, for a workload to move
between two accelerators. Its identity excludes the lifecycle position and the
explanations attached to it later, so that a plan keeps one identity while it
advances.
-/

import Haf.Model.Compatibility

namespace Haf

inductive MigrationOutcome
  | moveNativeState | restoreCheckpoint | recompileThenRestore | repackageAndRestart
  | reconstruct | restart | unsupported | unknown
  deriving DecidableEq

namespace MigrationOutcome

def toWire : MigrationOutcome → UInt8
  | .moveNativeState => 0
  | .restoreCheckpoint => 1
  | .recompileThenRestore => 2
  | .repackageAndRestart => 3
  | .reconstruct => 4
  | .restart => 5
  | .unsupported => 6
  | .unknown => 7

def fromWire : UInt8 → Option MigrationOutcome
  | 0 => some .moveNativeState
  | 1 => some .restoreCheckpoint
  | 2 => some .recompileThenRestore
  | 3 => some .repackageAndRestart
  | 4 => some .reconstruct
  | 5 => some .restart
  | 6 => some .unsupported
  | 7 => some .unknown
  | _ => none

@[simp]
theorem fromWire_toWire (outcome : MigrationOutcome) : fromWire outcome.toWire = some outcome := by
  cases outcome <;> rfl

end MigrationOutcome

inductive MigrationState
  | planned | validated | prepared | transferring | verified | committed | aborted | refused
  deriving DecidableEq

namespace MigrationState

def toText : MigrationState → Bytes
  | .planned => text "PLANNED"
  | .validated => text "VALIDATED"
  | .prepared => text "PREPARED"
  | .transferring => text "TRANSFERRING"
  | .verified => text "VERIFIED"
  | .committed => text "COMMITTED"
  | .aborted => text "ABORTED"
  | .refused => text "REFUSED"

def toWire : MigrationState → UInt8
  | .planned => 0
  | .validated => 1
  | .prepared => 2
  | .transferring => 3
  | .verified => 4
  | .committed => 5
  | .aborted => 6
  | .refused => 7

def fromWire : UInt8 → Option MigrationState
  | 0 => some .planned
  | 1 => some .validated
  | 2 => some .prepared
  | 3 => some .transferring
  | 4 => some .verified
  | 5 => some .committed
  | 6 => some .aborted
  | 7 => some .refused
  | _ => none

@[simp]
theorem fromWire_toWire (state : MigrationState) : fromWire state.toWire = some state := by
  cases state <;> rfl

/-- The transitions of the plan lifecycle. -/
def legalTransitions : List (MigrationState × MigrationState) := [
  (.planned, .validated), (.planned, .aborted), (.planned, .refused),
  (.validated, .prepared), (.validated, .aborted),
  (.prepared, .transferring), (.prepared, .aborted),
  (.transferring, .verified), (.transferring, .aborted),
  (.verified, .committed), (.verified, .aborted)]

def isLegalTransition (source target : MigrationState) : Bool :=
  source != target && legalTransitions.contains (source, target)

def isTerminal (state : MigrationState) : Bool :=
  state == .committed || state == .aborted || state == .refused

end MigrationState

/-- One concrete action the move requires. -/
structure MigrationStep where
  kind : Bytes
  description : Bytes
  requiredCapability : Bytes
  deriving DecidableEq

namespace MigrationStep

def serialize (s : MigrationStep) : Bytes :=
  ByteWriter.string s.kind ++ ByteWriter.string s.description ++
    ByteWriter.string s.requiredCapability

def deserialize : ByteReader MigrationStep := do
  let kind ← ByteReader.string Limits.maxTokenBytes
  let description ← ByteReader.string Limits.maxDescriptionBytes
  let requiredCapability ← ByteReader.string Limits.maxNameBytes
  Wire.Reader.require (!kind.isEmpty) (.failure .malformedData "migration step has no kind")
  pure { kind, description, requiredCapability }

end MigrationStep

structure MigrationPlan where
  id : MigrationPlanId := .nil
  generation : MigrationGeneration := ⟨0⟩
  federation : FederationId := .nil
  federationGeneration : FederationGeneration := ⟨0⟩
  epoch : CoordinatorEpoch := ⟨0⟩
  source : AcceleratorId := .nil
  sourceGeneration : DeviceGeneration := ⟨0⟩
  sourceCapabilityGeneration : CapabilityGeneration := ⟨0⟩
  destination : AcceleratorId := .nil
  destinationGeneration : DeviceGeneration := ⟨0⟩
  destinationCapabilityGeneration : CapabilityGeneration := ⟨0⟩
  workload : WorkloadClassId := .nil
  workloadRevision : WorkloadRevision := ⟨0⟩
  sourceDecision : CompatibilityDecisionId := .nil
  destinationDecision : CompatibilityDecisionId := .nil
  portability : PortabilityClass := .unknown
  outcome : MigrationOutcome := .unknown
  state : MigrationState := .planned
  policyGeneration : PolicyGeneration := ⟨0⟩
  policy : PolicyId := .nil
  steps : List MigrationStep := []
  destinationProvenance : EvidenceProvenance := .unsupported
  estimatedCost : UInt32 := 0
  refusalReasons : List CompatibilityReason := []
  createdAt : Timestamp := 0
  deriving DecidableEq

namespace MigrationPlan

/-- Endpoints, workload, decisions and class, in the order they are hashed and written. -/
def bindingBytes (p : MigrationPlan) : Bytes :=
  ByteWriter.strongId p.federation ++ ByteWriter.generation p.federationGeneration ++
    ByteWriter.generation p.epoch ++ ByteWriter.strongId p.source ++
    ByteWriter.generation p.sourceGeneration ++
    ByteWriter.generation p.sourceCapabilityGeneration ++ ByteWriter.strongId p.destination ++
    ByteWriter.generation p.destinationGeneration ++
    ByteWriter.generation p.destinationCapabilityGeneration ++ ByteWriter.strongId p.workload ++
    ByteWriter.generation p.workloadRevision ++ ByteWriter.strongId p.sourceDecision ++
    ByteWriter.strongId p.destinationDecision ++ ByteWriter.u8 p.portability.toWire ++
    ByteWriter.u8 p.outcome.toWire

/-- Policy, provenance, cost and steps, in the order they are hashed and written. -/
def requirementBytes (p : MigrationPlan) : Bytes :=
  ByteWriter.strongId p.policy ++ ByteWriter.generation p.policyGeneration ++
    ByteWriter.u8 p.destinationProvenance.toWire ++ ByteWriter.u32 p.estimatedCost ++
    ByteWriter.list MigrationStep.serialize p.steps

/-- Deterministic digest of what the plan requires and under which authority. -/
def fingerprint (p : MigrationPlan) : Digest :=
  Sha256.hash (ByteWriter.string (text "haf.migration-plan.v1") ++ p.bindingBytes ++
    p.requirementBytes)

def fingerprintHex (p : MigrationPlan) : Bytes := toHex p.fingerprint.bytes

/-- The identity the fingerprint calls for. -/
def derivedId (p : MigrationPlan) : MigrationPlanId :=
  ⟨deriveIdentity (text "haf.migration-plan") p.fingerprintHex⟩

/-- The generations the plan depends on are the supplied current ones. -/
def isCurrent (p : MigrationPlan) (epoch : CoordinatorEpoch) (policyGeneration : PolicyGeneration)
    (sourceGeneration destinationGeneration : DeviceGeneration)
    (sourceCapability destinationCapability : CapabilityGeneration)
    (workloadRevision : WorkloadRevision) : Bool :=
  p.epoch = epoch && p.policyGeneration = policyGeneration &&
    p.sourceGeneration = sourceGeneration && p.destinationGeneration = destinationGeneration &&
    p.sourceCapabilityGeneration = sourceCapability &&
    p.destinationCapabilityGeneration = destinationCapability &&
    p.workloadRevision = workloadRevision

/-- Refresh the content-addressed identity and generation. -/
def refreshIdentity (p : MigrationPlan) : MigrationPlan :=
  let folded := foldHex p.fingerprintHex
  { p with
    id := p.derivedId
    generation := ⟨if folded == 0 then 1 else folded⟩ }

theorem derivedId_refreshIdentity (p : MigrationPlan) :
    p.refreshIdentity.derivedId = p.derivedId := rfl

def serialize (p : MigrationPlan) : Bytes :=
  ByteWriter.strongId p.id ++ ByteWriter.generation p.generation ++ p.bindingBytes ++
    ByteWriter.u8 p.state.toWire ++ p.requirementBytes ++
    ByteWriter.list CompatibilityReason.serialize p.refusalReasons ++ ByteWriter.i64 p.createdAt

def deserialize : ByteReader MigrationPlan := do
  let id ← ByteReader.strongId
  let generation ← ByteReader.generation
  let federation ← ByteReader.strongId
  let federationGeneration ← ByteReader.generation
  let epoch ← ByteReader.generation
  let source ← ByteReader.strongId
  let sourceGeneration ← ByteReader.generation
  let sourceCapabilityGeneration ← ByteReader.generation
  let destination ← ByteReader.strongId
  let destinationGeneration ← ByteReader.generation
  let destinationCapabilityGeneration ← ByteReader.generation
  let workload ← ByteReader.strongId
  let workloadRevision ← ByteReader.generation
  let sourceDecision ← ByteReader.strongId
  let destinationDecision ← ByteReader.strongId
  let rawPortability ← ByteReader.u8
  let rawOutcome ← ByteReader.u8
  let rawState ← ByteReader.u8
  let policy ← ByteReader.strongId
  let policyGeneration ← ByteReader.generation
  let rawProvenance ← ByteReader.u8
  let estimatedCost ← ByteReader.u32
  let portability ← Wire.Reader.ofOption
    (.failure .malformedData "portability class is outside the declared domain")
    (PortabilityClass.fromWire rawPortability)
  let outcome ← Wire.Reader.ofOption
    (.failure .malformedData "migration outcome is outside the declared domain")
    (MigrationOutcome.fromWire rawOutcome)
  let state ← Wire.Reader.ofOption
    (.failure .malformedData "migration state is outside the declared domain")
    (MigrationState.fromWire rawState)
  let destinationProvenance ← Wire.Reader.ofOption
    (.failure .malformedData "evidence provenance is outside the declared domain")
    (EvidenceProvenance.fromWire rawProvenance)
  let steps ← ByteReader.list Limits.maxRequirementsPerWorkload 8 MigrationStep.deserialize
  let refusalReasons ← ByteReader.list Limits.maxRequirementsPerWorkload 6
    CompatibilityReason.deserialize
  let createdAt ← ByteReader.i64
  let p : MigrationPlan := {
    id, generation, federation, federationGeneration, epoch, source, sourceGeneration
    sourceCapabilityGeneration, destination, destinationGeneration
    destinationCapabilityGeneration, workload, workloadRevision, sourceDecision
    destinationDecision, portability, outcome, state, policyGeneration, policy, steps
    destinationProvenance, estimatedCost, refusalReasons, createdAt }
  Wire.Reader.require (p.id = p.derivedId)
    (.failure .integrityFailure "migration plan identity does not match its fingerprint")
  pure p

end MigrationPlan

end Haf
