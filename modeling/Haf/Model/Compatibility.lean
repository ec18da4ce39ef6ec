/-
# Compatibility decisions

A decision is the generation-bound result of evaluating one workload against one
accelerator, with ordered reasons. Its identity is derived from a fingerprint over
everything it is bound to.
-/

import Haf.Model.Workload

namespace Haf

inductive CompatibilityOutcome
  | eligible | ineligible | unknown
  deriving DecidableEq

namespace CompatibilityOutcome

def toText : CompatibilityOutcome → Bytes
  | .eligible => text "ELIGIBLE"
  | .ineligible => text "INELIGIBLE"
  | .unknown => text "UNKNOWN"

def toWire : CompatibilityOutcome → UInt8
  | .eligible => 0
  | .ineligible => 1
  | .unknown => 2

def fromWire : UInt8 → Option CompatibilityOutcome
  | 0 => some .eligible
  | 1 => some .ineligible
  | 2 => some .unknown
  | _ => none

@[simp]
theorem fromWire_toWire (outcome : CompatibilityOutcome) :
    fromWire outcome.toWire = some outcome := by
  cases outcome <;> rfl

end CompatibilityOutcome

/-- One structured explanation entry. -/
structure CompatibilityReason where
  code : ErrorCode := .compatibilityRejection
  subject : Bytes := []
  detail : Bytes := []
  strength : RequirementStrength := .hard
  observed : CapabilityState := .unknown
  deriving DecidableEq

namespace CompatibilityReason

def serialize (r : CompatibilityReason) : Bytes :=
  ByteWriter.u16 r.code.value ++ ByteWriter.string r.subject ++ ByteWriter.string r.detail ++
    ByteWriter.u8 r.strength.toWire ++ ByteWriter.u8 r.observed.toWire

def deserialize : ByteReader CompatibilityReason := do
  let rawCode ← ByteReader.u16
  let subject ← ByteReader.string Limits.maxNameBytes
  let detail ← ByteReader.string Limits.maxDescriptionBytes
  let rawStrength ← ByteReader.u8
  let rawObserved ← ByteReader.u8
  Wire.Reader.require (rawCode ≤ ErrorCode.maxValue)
    (.failure .malformedData "compatibility reason code is outside the declared domain")
  let strength ← Wire.Reader.ofOption
    (.failure .malformedData "compatibility reason strength is outside the declared domain")
    (RequirementStrength.fromWire rawStrength)
  let observed ← Wire.Reader.ofOption
    (.failure .malformedData "compatibility reason observed state is outside the declared domain")
    (CapabilityState.fromWire rawObserved)
  pure { code := ⟨rawCode⟩, subject, detail, strength, observed }

end CompatibilityReason

/-- Complete, generation-bound result of one evaluation. -/
structure CompatibilityDecision where
  id : CompatibilityDecisionId := .nil
  decisionId : DecisionId := .nil
  generation : DecisionGeneration := ⟨0⟩
  federation : FederationId := .nil
  federationGeneration : FederationGeneration := ⟨0⟩
  epoch : CoordinatorEpoch := ⟨0⟩
  accelerator : AcceleratorId := .nil
  deviceGeneration : DeviceGeneration := ⟨0⟩
  capabilityGeneration : CapabilityGeneration := ⟨0⟩
  evidenceGeneration : EvidenceGeneration := ⟨0⟩
  policyGeneration : PolicyGeneration := ⟨0⟩
  policy : PolicyId := .nil
  workload : WorkloadClassId := .nil
  workloadRequirement : WorkloadRequirementId := .nil
  workloadRevision : WorkloadRevision := ⟨0⟩
  outcome : CompatibilityOutcome := .unknown
  portability : PortabilityClass := .unknown
  supportLevel : SupportLevel := .unknown
  provenance : EvidenceProvenance := .unsupported
  score : Int64 := 0
  reasons : List CompatibilityReason := []
  createdAt : Timestamp := 0
  deriving DecidableEq

/-- Fold a hexadecimal text into a generation number. -/
def foldHex (hex : Bytes) : UInt64 :=
  hex.foldl (fun folded c =>
    let folded := folded * 131 + c.toUInt64
    folded ^^^ (folded >>> 29)) 0

namespace CompatibilityDecision

/-- The bindings and the result, as hashed and as written between the identities and the
creation time. -/
def contentBytes (d : CompatibilityDecision) : Bytes :=
  ByteWriter.strongId d.federation ++ ByteWriter.generation d.federationGeneration ++
    ByteWriter.generation d.epoch ++ ByteWriter.strongId d.accelerator ++
    ByteWriter.generation d.deviceGeneration ++ ByteWriter.generation d.capabilityGeneration ++
    ByteWriter.generation d.evidenceGeneration ++ ByteWriter.strongId d.policy ++
    ByteWriter.generation d.policyGeneration ++ ByteWriter.strongId d.workload ++
    ByteWriter.strongId d.workloadRequirement ++ ByteWriter.generation d.workloadRevision ++
    ByteWriter.u8 d.outcome.toWire ++ ByteWriter.u8 d.portability.toWire ++
    ByteWriter.u8 d.supportLevel.toWire ++ ByteWriter.u8 d.provenance.toWire ++
    ByteWriter.i64 d.score ++ ByteWriter.list CompatibilityReason.serialize d.reasons

/-- Deterministic fingerprint over bindings, outcome and ordered reasons. -/
def fingerprint (d : CompatibilityDecision) : Digest :=
  Sha256.hash (ByteWriter.string (text "haf.decision.v1") ++ d.contentBytes)

def fingerprintHex (d : CompatibilityDecision) : Bytes := toHex d.fingerprint.bytes

/-- The identity the fingerprint calls for. -/
def derivedId (d : CompatibilityDecision) : DecisionId :=
  ⟨deriveIdentity (text "haf.decision") d.fingerprintHex⟩

/-- The decision is still bound to the supplied current state. -/
def isCurrent (d : CompatibilityDecision) (federationGeneration : FederationGeneration)
    (epoch : CoordinatorEpoch) (policyGeneration : PolicyGeneration)
    (deviceGeneration : DeviceGeneration) (capabilityGeneration : CapabilityGeneration)
    (evidenceGeneration : EvidenceGeneration) (workloadRevision : WorkloadRevision) : Bool :=
  d.federationGeneration = federationGeneration && d.epoch = epoch &&
    d.policyGeneration = policyGeneration && d.deviceGeneration = deviceGeneration &&
    d.capabilityGeneration = capabilityGeneration && d.evidenceGeneration = evidenceGeneration &&
    d.workloadRevision = workloadRevision

/-- Refresh the content-addressed identities from the fingerprint. -/
def refreshIdentity (d : CompatibilityDecision) : CompatibilityDecision :=
  let folded := foldHex d.fingerprintHex
  { d with
    decisionId := d.derivedId
    id := ⟨deriveIdentity (text "haf.compatibility-decision") d.fingerprintHex⟩
    generation := ⟨if folded == 0 then 1 else folded⟩ }

theorem derivedId_refreshIdentity (d : CompatibilityDecision) :
    d.refreshIdentity.derivedId = d.derivedId := rfl

def serialize (d : CompatibilityDecision) : Bytes :=
  ByteWriter.strongId d.id ++ ByteWriter.strongId d.decisionId ++
    ByteWriter.generation d.generation ++ d.contentBytes ++ ByteWriter.i64 d.createdAt

/-- A message carries fewer reasons than the store. -/
def reasonLimit (persistedScale : Bool) : Nat :=
  if persistedScale then Limits.maxPersistedDecisions else Limits.maxRequirementsPerWorkload * 2

def deserializeAt (persistedScale : Bool) : ByteReader CompatibilityDecision := do
  let id ← ByteReader.strongId
  let decisionId ← ByteReader.strongId
  let generation ← ByteReader.generation
  let federation ← ByteReader.strongId
  let federationGeneration ← ByteReader.generation
  let epoch ← ByteReader.generation
  let accelerator ← ByteReader.strongId
  let deviceGeneration ← ByteReader.generation
  let capabilityGeneration ← ByteReader.generation
  let evidenceGeneration ← ByteReader.generation
  let policy ← ByteReader.strongId
  let policyGeneration ← ByteReader.generation
  let workload ← ByteReader.strongId
  let workloadRequirement ← ByteReader.strongId
  let workloadRevision ← ByteReader.generation
  let rawOutcome ← ByteReader.u8
  let rawPortability ← ByteReader.u8
  let rawSupport ← ByteReader.u8
  let rawProvenance ← ByteReader.u8
  let score ← ByteReader.i64
  let outcome ← Wire.Reader.ofOption
    (.failure .malformedData "compatibility outcome is outside the declared domain")
    (CompatibilityOutcome.fromWire rawOutcome)
  let portability ← Wire.Reader.ofOption
    (.failure .malformedData "portability class is outside the declared domain")
    (PortabilityClass.fromWire rawPortability)
  let supportLevel ← Wire.Reader.ofOption
    (.failure .malformedData "support level is outside the declared domain")
    (SupportLevel.fromWire rawSupport)
  let provenance ← Wire.Reader.ofOption
    (.failure .malformedData "evidence provenance is outside the declared domain")
    (EvidenceProvenance.fromWire rawProvenance)
  let reasons ← ByteReader.list (reasonLimit persistedScale) 6 CompatibilityReason.deserialize
  let createdAt ← ByteReader.i64
  let d : CompatibilityDecision := {
    id, decisionId, generation, federation, federationGeneration, epoch, accelerator
    deviceGeneration, capabilityGeneration, evidenceGeneration, policyGeneration, policy
    workload, workloadRequirement, workloadRevision, outcome, portability, supportLevel
    provenance, score, reasons, createdAt }
  Wire.Reader.require (d.decisionId = d.derivedId)
    (.failure .integrityFailure "compatibility decision identity does not match its fingerprint")
  pure d

/-- A decision as it is read from a store. -/
def deserialize : ByteReader CompatibilityDecision := deserializeAt true

end CompatibilityDecision

end Haf
