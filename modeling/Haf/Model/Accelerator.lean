/-
# Accelerator descriptors and member records

A descriptor is the structural description of one accelerator incarnation; a
member record is its place in one federation, with the generations it is bound to
and its lifecycle state.
-/

import Haf.Model.Evidence

namespace Haf

/-- How faithfully the federation can represent an accelerator. -/
inductive SupportLevel
  | native | translated | synthetic | unsupported | unknown
  deriving DecidableEq

namespace SupportLevel

def toWire : SupportLevel → UInt8
  | .native => 0
  | .translated => 1
  | .synthetic => 2
  | .unsupported => 3
  | .unknown => 4

def fromWire : UInt8 → Option SupportLevel
  | 0 => some .native
  | 1 => some .translated
  | 2 => some .synthetic
  | 3 => some .unsupported
  | 4 => some .unknown
  | _ => none

@[simp]
theorem fromWire_toWire (level : SupportLevel) : fromWire level.toWire = some level := by
  cases level <;> rfl

end SupportLevel

/-! ### Lifecycle -/

/-- Lifecycle state of one accelerator within one federation. -/
inductive MemberState
  | discovered | observed | admitted | active | degraded | draining | fenced | retired
  deriving DecidableEq

namespace MemberState

def toText : MemberState → Bytes
  | .discovered => text "DISCOVERED"
  | .observed => text "OBSERVED"
  | .admitted => text "ADMITTED"
  | .active => text "ACTIVE"
  | .degraded => text "DEGRADED"
  | .draining => text "DRAINING"
  | .fenced => text "FENCED"
  | .retired => text "RETIRED"

def toWire : MemberState → UInt8
  | .discovered => 0
  | .observed => 1
  | .admitted => 2
  | .active => 3
  | .degraded => 4
  | .draining => 5
  | .fenced => 6
  | .retired => 7

def fromWire : UInt8 → Option MemberState
  | 0 => some .discovered
  | 1 => some .observed
  | 2 => some .admitted
  | 3 => some .active
  | 4 => some .degraded
  | 5 => some .draining
  | 6 => some .fenced
  | 7 => some .retired
  | _ => none

@[simp]
theorem fromWire_toWire (state : MemberState) : fromWire state.toWire = some state := by
  cases state <;> rfl

/-- The transitions of the lifecycle table. -/
def legalTransitions : List (MemberState × MemberState) := [
  (.discovered, .observed), (.discovered, .fenced), (.discovered, .retired),
  (.observed, .admitted), (.observed, .fenced), (.observed, .retired),
  (.admitted, .active), (.admitted, .degraded), (.admitted, .draining), (.admitted, .fenced),
  (.admitted, .retired),
  (.active, .degraded), (.active, .draining), (.active, .fenced), (.active, .retired),
  (.degraded, .active), (.degraded, .draining), (.degraded, .fenced), (.degraded, .retired),
  (.draining, .active), (.draining, .fenced), (.draining, .retired),
  (.fenced, .observed), (.fenced, .retired)]

def isLegalTransition (source target : MemberState) : Bool :=
  source != target && legalTransitions.contains (source, target)

def isTerminal (state : MemberState) : Bool := state == .retired

/-- Authority-bearing states. -/
def isLive : MemberState → Bool
  | .admitted | .active | .degraded | .draining => true
  | _ => false

end MemberState

/-! ### Descriptors -/

/-- Structural description of an accelerator incarnation. -/
structure AcceleratorDescriptor where
  id : AcceleratorId := .nil
  physicalDevice : PhysicalDeviceId := .nil
  generation : DeviceGeneration := ⟨0⟩
  agent : AgentId := .nil
  agentBoot : AgentBootId := .nil
  node : NodeId := .nil
  vendorToken : Bytes := []
  vendor : VendorId := .nil
  productToken : Bytes := []
  architectureToken : Bytes := []
  architecture : ArchitectureId := .nil
  deviceGenerationToken : Bytes := []
  runtimeFamily : Bytes := []
  runtimeVersion : SemanticVersion := {}
  driverVersion : SemanticVersion := {}
  capabilities : CapabilitySet := {}
  supportLevel : SupportLevel := .unknown
  provenance : EvidenceProvenance := .unsupported
  evidence : List EvidenceRecord := []
  topologyReferences : List Bytes := []
  observedAt : Timestamp := 0
  deriving DecidableEq

namespace AcceleratorDescriptor

/-- The canonical taxonomy tokens a descriptor must carry. -/
def taxonomyTokens (d : AcceleratorDescriptor) : List Bytes :=
  [d.vendorToken, d.productToken, d.architectureToken, d.deviceGenerationToken, d.runtimeFamily]

/-- The capability set must not advertise another vendor than the descriptor. -/
def vendorAgrees (d : AcceleratorDescriptor) : Bool :=
  let lookup := d.capabilities.lookup (text "vendor.id")
  match lookup.value with
  | some value => !(lookup.present && lookup.state = .supported) || value.token == d.vendorToken
  | none => true

/-- Each evidence record is valid and bound to this descriptor. -/
def validateEvidence (d : AcceleratorDescriptor) : List EvidenceRecord → Result Unit
  | [] => .ok ()
  | e :: rest => do
      e.validate
      ensure (e.subject = d.id)
        (.failure .integrityFailure "evidence record is bound to a different accelerator")
      ensure (e.provenance = d.provenance)
        (.failure .integrityFailure
          "evidence record provenance disagrees with the descriptor provenance")
      d.validateEvidence rest

def validate (d : AcceleratorDescriptor) : Result Unit := do
  ensure (!d.id.isNil)
    (.failure .invalidArgument "accelerator descriptor has no accelerator identity")
  ensure (!d.physicalDevice.isNil)
    (.failure .invalidArgument "accelerator descriptor has no physical device identity")
  ensure (!(d.agent.isNil || d.agentBoot.isNil))
    (.failure .invalidArgument "accelerator descriptor has no owning agent boot identity")
  ensure (!d.node.isNil)
    (.failure .invalidArgument "accelerator descriptor has no node identity")
  ensure (d.taxonomyTokens.all (!·.isEmpty))
    (.failure .invalidArgument "accelerator descriptor is missing a canonical taxonomy token")
  ensure (d.taxonomyTokens.all (·.length ≤ Limits.maxTokenBytes))
    (.failure .boundsExceeded "accelerator descriptor taxonomy token exceeds the permitted length")
  ensure (d.vendor = vendorIdFromToken d.vendorToken &&
      d.architecture = architectureIdFromToken d.architectureToken)
    (.failure .integrityFailure
      "accelerator descriptor taxonomy identity does not match its canonical token")
  ensure (d.topologyReferences.length ≤ Limits.maxTopologyReferences)
    (.failure .boundsExceeded "accelerator descriptor has too many topology references")
  ensure (d.topologyReferences.IsChain (· ≤ ·))
    (.failure .malformedData "topology references are not in canonical order")
  d.capabilities.validate
  ensure (!d.capabilities.records.isEmpty)
    (.failure .malformedData "accelerator descriptor carries no capability advertisement")
  ensure d.vendorAgrees
    (.failure .capabilityMismatch "capability vendor.id disagrees with the descriptor vendor token")
  ensure (d.evidence.length ≤ Limits.maxPersistedEvidence)
    (.failure .boundsExceeded "accelerator descriptor carries too many evidence records")
  d.validateEvidence d.evidence
  ensure (!(d.provenance = .synthetic && d.supportLevel = .native))
    (.failure .integrityFailure
      "SYNTHETIC evidence cannot be reported with a NATIVE support level")
  ensure (!(d.provenance = .unsupported && d.supportLevel = .native))
    (.failure .integrityFailure
      "UNSUPPORTED evidence cannot be reported with a NATIVE support level")
  ensure (!(d.supportLevel = .native && d.evidence.isEmpty))
    (.failure .integrityFailure "a NATIVE support level requires at least one evidence record")

/-- The identity fields as they are hashed and written first. -/
def structuralBytes (d : AcceleratorDescriptor) : Bytes :=
  ByteWriter.strongId d.id ++ ByteWriter.strongId d.physicalDevice ++
    ByteWriter.generation d.generation ++ ByteWriter.strongId d.agent ++
    ByteWriter.strongId d.agentBoot ++ ByteWriter.strongId d.node ++
    ByteWriter.string d.vendorToken ++ ByteWriter.string d.productToken ++
    ByteWriter.string d.architectureToken ++ ByteWriter.string d.deviceGenerationToken ++
    ByteWriter.string d.runtimeFamily ++
    ByteWriter.u32 d.runtimeVersion.major ++ ByteWriter.u32 d.runtimeVersion.minor ++
    ByteWriter.u32 d.runtimeVersion.patch ++ ByteWriter.u32 d.driverVersion.major ++
    ByteWriter.u32 d.driverVersion.minor ++ ByteWriter.u32 d.driverVersion.patch

/-- Deterministic digest over the structural identity fields only. -/
def structuralDigest (d : AcceleratorDescriptor) : Digest := Sha256.hash d.structuralBytes

def serialize (d : AcceleratorDescriptor) : Bytes :=
  d.structuralBytes ++ d.capabilities.serialize ++ ByteWriter.u8 d.supportLevel.toWire ++
    ByteWriter.u8 d.provenance.toWire ++ ByteWriter.list EvidenceRecord.serialize d.evidence ++
    ByteWriter.list ByteWriter.string d.topologyReferences ++ ByteWriter.i64 d.observedAt

/-- Topology references must be strictly increasing on the wire. -/
def readReferences : Nat → Option Bytes → ByteReader (List Bytes)
  | 0, _ => pure []
  | n + 1, previous => do
      let reference ← ByteReader.string Limits.maxNameBytes
      Wire.Reader.require (match previous with | none => true | some p => p < reference)
        (.failure .malformedData "topology references are not in canonical order")
      let rest ← readReferences n (some reference)
      pure (reference :: rest)

/-- The evidence records a descriptor may carry: a store holds more than a message. -/
def evidenceLimit (persistedScale : Bool) : Nat :=
  if persistedScale then Limits.maxPersistedEvidence else Limits.maxAdvertisementsPerMessage

/-- Read a descriptor from a store or from a message. -/
def deserializeAt (persistedScale : Bool) (R : Registry) : ByteReader AcceleratorDescriptor := do
  let id ← ByteReader.strongId
  let physicalDevice ← ByteReader.strongId
  let generation ← ByteReader.generation
  let agent ← ByteReader.strongId
  let agentBoot ← ByteReader.strongId
  let node ← ByteReader.strongId
  let vendorToken ← ByteReader.string Limits.maxTokenBytes
  let productToken ← ByteReader.string Limits.maxTokenBytes
  let architectureToken ← ByteReader.string Limits.maxTokenBytes
  let deviceGenerationToken ← ByteReader.string Limits.maxTokenBytes
  let runtimeFamily ← ByteReader.string Limits.maxTokenBytes
  let runtimeMajor ← ByteReader.u32
  let runtimeMinor ← ByteReader.u32
  let runtimePatch ← ByteReader.u32
  let driverMajor ← ByteReader.u32
  let driverMinor ← ByteReader.u32
  let driverPatch ← ByteReader.u32
  let capabilities ← CapabilitySet.deserialize R
  let rawSupport ← ByteReader.u8
  let rawProvenance ← ByteReader.u8
  let supportLevel ← Wire.Reader.ofOption
    (.failure .malformedData "support level is outside the declared domain")
    (SupportLevel.fromWire rawSupport)
  let provenance ← Wire.Reader.ofOption
    (.failure .malformedData "evidence provenance is outside the declared domain")
    (EvidenceProvenance.fromWire rawProvenance)
  let evidence ← ByteReader.list (evidenceLimit persistedScale) 8 EvidenceRecord.deserialize
  let topologyCount ← ByteReader.count Limits.maxTopologyReferences 4
  let topologyReferences ← readReferences topologyCount none
  let observedAt ← ByteReader.i64
  let d : AcceleratorDescriptor := {
    id, physicalDevice, generation, agent, agentBoot, node, vendorToken
    vendor := vendorIdFromToken vendorToken
    productToken, architectureToken
    architecture := architectureIdFromToken architectureToken
    deviceGenerationToken, runtimeFamily
    runtimeVersion := { major := runtimeMajor, minor := runtimeMinor, patch := runtimePatch }
    driverVersion := { major := driverMajor, minor := driverMinor, patch := driverPatch }
    capabilities, supportLevel, provenance, evidence, topologyReferences, observedAt }
  ByteReader.ofResult d.validate
  pure d

/-- Read a descriptor from a store. -/
def deserialize (R : Registry) : ByteReader AcceleratorDescriptor := deserializeAt true R

end AcceleratorDescriptor

/-- Deterministic accelerator identity of a device, agent, boot and incarnation. -/
def deriveAcceleratorId (physical : PhysicalDeviceId) (agent : AgentId) (boot : AgentBootId)
    (generation : DeviceGeneration) : AcceleratorId :=
  ⟨deriveIdentity (text "haf.accelerator") (toHex (Sha256.hash (ByteWriter.strongId physical ++
    ByteWriter.strongId agent ++ ByteWriter.strongId boot ++
    ByteWriter.u64 generation.value)).bytes)⟩

/-! ### Member records -/

/-- The number of audit-trail entries a member keeps. -/
def maxHistoryEntries : Nat := 64

/-- The place of one accelerator in a federation. -/
structure MemberRecord where
  federation : FederationId := .nil
  federationGeneration : FederationGeneration := ⟨0⟩
  epoch : CoordinatorEpoch := ⟨0⟩
  agent : AgentId := .nil
  agentBoot : AgentBootId := .nil
  agentGeneration : AgentGeneration := ⟨0⟩
  accelerator : AcceleratorId := .nil
  physicalDevice : PhysicalDeviceId := .nil
  deviceGeneration : DeviceGeneration := ⟨0⟩
  capabilityGeneration : CapabilityGeneration := ⟨0⟩
  evidenceGeneration : EvidenceGeneration := ⟨0⟩
  policyGeneration : PolicyGeneration := ⟨0⟩
  state : MemberState := .discovered
  stateGeneration : DecisionGeneration := ⟨0⟩
  supportLevel : SupportLevel := .unknown
  provenance : EvidenceProvenance := .unsupported
  admittedAt : Timestamp := 0
  updatedAt : Timestamp := 0
  history : List Bytes := []
  deriving DecidableEq

namespace MemberRecord

def isLive (m : MemberRecord) : Bool := m.state.isLive

def acceptsNewWork (m : MemberRecord) : Bool := m.state == .active

def serialize (m : MemberRecord) : Bytes :=
  ByteWriter.strongId m.federation ++ ByteWriter.generation m.federationGeneration ++
    ByteWriter.generation m.epoch ++ ByteWriter.strongId m.agent ++
    ByteWriter.strongId m.agentBoot ++ ByteWriter.generation m.agentGeneration ++
    ByteWriter.strongId m.accelerator ++ ByteWriter.strongId m.physicalDevice ++
    ByteWriter.generation m.deviceGeneration ++ ByteWriter.generation m.capabilityGeneration ++
    ByteWriter.generation m.evidenceGeneration ++ ByteWriter.generation m.policyGeneration ++
    ByteWriter.u8 m.state.toWire ++ ByteWriter.generation m.stateGeneration ++
    ByteWriter.u8 m.supportLevel.toWire ++ ByteWriter.u8 m.provenance.toWire ++
    ByteWriter.i64 m.admittedAt ++ ByteWriter.i64 m.updatedAt ++
    ByteWriter.list ByteWriter.string m.history

def deserialize : ByteReader MemberRecord := do
  let federation ← ByteReader.strongId
  let federationGeneration ← ByteReader.generation
  let epoch ← ByteReader.generation
  let agent ← ByteReader.strongId
  let agentBoot ← ByteReader.strongId
  let agentGeneration ← ByteReader.generation
  let accelerator ← ByteReader.strongId
  let physicalDevice ← ByteReader.strongId
  let deviceGeneration ← ByteReader.generation
  let capabilityGeneration ← ByteReader.generation
  let evidenceGeneration ← ByteReader.generation
  let policyGeneration ← ByteReader.generation
  let rawState ← ByteReader.u8
  let stateGeneration ← ByteReader.generation
  let rawSupport ← ByteReader.u8
  let rawProvenance ← ByteReader.u8
  let admittedAt ← ByteReader.i64
  let updatedAt ← ByteReader.i64
  let state ← Wire.Reader.ofOption
    (.failure .malformedData "member state is outside the declared domain")
    (MemberState.fromWire rawState)
  let supportLevel ← Wire.Reader.ofOption
    (.failure .malformedData "support level is outside the declared domain")
    (SupportLevel.fromWire rawSupport)
  let provenance ← Wire.Reader.ofOption
    (.failure .malformedData "evidence provenance is outside the declared domain")
    (EvidenceProvenance.fromWire rawProvenance)
  let history ← ByteReader.list maxHistoryEntries 4 (ByteReader.string Limits.maxDescriptionBytes)
  Wire.Reader.require (!(accelerator.isNil || agent.isNil))
    (.failure .malformedData "member record is missing a required identity")
  pure {
    federation, federationGeneration, epoch, agent, agentBoot, agentGeneration, accelerator
    physicalDevice, deviceGeneration, capabilityGeneration, evidenceGeneration, policyGeneration
    state, stateGeneration, supportLevel, provenance, admittedAt, updatedAt, history }

end MemberRecord

end Haf
