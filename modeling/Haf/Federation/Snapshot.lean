/-
# Authoritative state snapshots

A snapshot is a canonical, content-addressed view of federation state.
Persistence operates on it: the encoder writes every section and a digest, and
the decoder checks every length, count, enumeration and cross reference before it
returns a value.
-/

import Haf.Engine.MigrationPlanner

namespace Haf

open Sequence

structure FederationSnapshot where
  federation : FederationId := .nil
  generation : FederationGeneration := ⟨0⟩
  epoch : CoordinatorEpoch := ⟨0⟩
  name : Bytes := []
  policy : PolicyId := .nil
  policyGeneration : PolicyGeneration := ⟨0⟩
  policyData : FederationPolicy := {}
  members : List MemberRecord := []
  descriptors : List AcceleratorDescriptor := []
  workloads : List WorkloadProfile := []
  decisions : List CompatibilityDecision := []
  plans : List MigrationPlan := []
  createdAt : Timestamp := 0
  deriving DecidableEq

/-- Persistence format identifier. -/
def snapshotFormatVersion : UInt32 := 1

/-- The domain text in the header of a snapshot. -/
def snapshotDomain : Bytes := text "haf-federation"

namespace FederationSnapshot

/-- Canonicalize ordering so that the digest is stable. -/
def canonicalize (s : FederationSnapshot) : FederationSnapshot :=
  { s with
    members := sortOn (·.accelerator) s.members
    descriptors := sortOn (·.id) s.descriptors
    workloads := sortOn (·.classId) s.workloads
    decisions := sortOn (·.decisionId) s.decisions
    plans := sortOn (·.id) s.plans }

def findMember (s : FederationSnapshot) (id : AcceleratorId) : Option MemberRecord :=
  searchOn (·.accelerator) s.members id

def findDescriptor (s : FederationSnapshot) (id : AcceleratorId) : Option AcceleratorDescriptor :=
  searchOn (·.id) s.descriptors id

def findWorkload (s : FederationSnapshot) (id : WorkloadClassId) : Option WorkloadProfile :=
  searchOn (·.classId) s.workloads id

/-- What a descriptor contributes to the digest. -/
def descriptorDigestBytes (d : AcceleratorDescriptor) : Bytes :=
  ByteWriter.digest d.structuralDigest ++ d.capabilities.serialize

/-- The digest binds every generation that carries authority. -/
def digest (s : FederationSnapshot) : Digest :=
  Sha256.hash (ByteWriter.string (text "haf.snapshot.v1") ++ ByteWriter.strongId s.federation ++
    ByteWriter.generation s.generation ++ ByteWriter.generation s.epoch ++
    ByteWriter.string s.name ++ ByteWriter.strongId s.policy ++
    ByteWriter.generation s.policyGeneration ++
    ByteWriter.list MemberRecord.serialize s.members ++
    ByteWriter.list descriptorDigestBytes s.descriptors ++
    ByteWriter.list (fun w => ByteWriter.digest w.digest) s.workloads ++
    ByteWriter.list (fun d => ByteWriter.digest d.fingerprint) s.decisions ++
    ByteWriter.list (fun p => ByteWriter.digest p.fingerprint) s.plans)

/-- The header and the identity section. -/
def headerBytes (s : FederationSnapshot) : Bytes :=
  ByteWriter.u32 snapshotFormatVersion ++ ByteWriter.u32 0 ++ ByteWriter.string snapshotDomain ++
    ByteWriter.strongId s.federation ++ ByteWriter.generation s.generation ++
    ByteWriter.generation s.epoch ++ ByteWriter.string s.name ++ ByteWriter.strongId s.policy ++
    ByteWriter.generation s.policyGeneration ++ s.policyData.serialize

/-- The counted sections. -/
def sectionBytes (s : FederationSnapshot) : Bytes :=
  ByteWriter.list MemberRecord.serialize s.members ++
    ByteWriter.list AcceleratorDescriptor.serialize s.descriptors ++
    ByteWriter.list WorkloadProfile.serialize s.workloads ++
    ByteWriter.list CompatibilityDecision.serialize s.decisions ++
    ByteWriter.list MigrationPlan.serialize s.plans

end FederationSnapshot

/-- Encode a snapshot into its canonical persisted payload. -/
def encodeSnapshot (s : FederationSnapshot) : Bytes :=
  s.headerBytes ++ s.sectionBytes ++ ByteWriter.i64 s.createdAt ++ ByteWriter.digest s.digest

/-- Read every section of a payload, together with the digest stored at its end. -/
def readSnapshot (R : Registry) : ByteReader (FederationSnapshot × Digest) := do
  let formatVersion ← ByteReader.u32
  let reserved ← ByteReader.u32
  let domain ← ByteReader.string Limits.maxNameBytes
  Wire.Reader.require (formatVersion = snapshotFormatVersion)
    (.failure .unsupportedStoreVersion "snapshot format version is not supported")
  Wire.Reader.require (reserved = 0)
    (.failure .corruptStore "snapshot header reserved word is not zero")
  Wire.Reader.require (domain = snapshotDomain)
    (.failure .corruptStore "snapshot payload is not a federation snapshot")
  let federation ← ByteReader.strongId
  let generation ← ByteReader.generation
  let epoch ← ByteReader.generation
  let name ← ByteReader.string Limits.maxNameBytes
  let policy ← ByteReader.strongId
  let policyGeneration ← ByteReader.generation
  let policyData ← FederationPolicy.deserialize R
  let members ← ByteReader.list Limits.maxPersistedMembers 8 MemberRecord.deserialize
  let descriptors ← ByteReader.list Limits.maxPersistedMembers 8
    (AcceleratorDescriptor.deserialize R)
  let workloads ← ByteReader.list Limits.maxPersistedWorkloads 8 (WorkloadProfile.deserialize R)
  let decisions ← ByteReader.list Limits.maxPersistedDecisions 8 CompatibilityDecision.deserialize
  let plans ← ByteReader.list Limits.maxPersistedPlans 8 MigrationPlan.deserialize
  let createdAt ← ByteReader.i64
  let storedDigest ← ByteReader.digest
  pure ({
    federation, generation, epoch, name, policy, policyGeneration, policyData, members
    descriptors, workloads, decisions, plans, createdAt }, storedDigest)

/-- Decode and fully validate a snapshot payload. -/
def decodeSnapshot (R : Registry) (payload : Bytes) : Result FederationSnapshot := do
  ensure (payload.length ≤ Limits.maxStorePayloadBytes)
    (.failure .boundsExceeded "snapshot payload exceeds the supported maximum")
  let ((read, storedDigest), rest) ← (readSnapshot R).run payload
  ensure rest.isEmpty (.failure .corruptStore "snapshot payload has trailing bytes")
  let s := read.canonicalize
  ensure (s.digest = storedDigest)
    (.failure .integrityFailure "snapshot digest does not match its content")
  ensure (s.policy = s.policyData.id)
    (.failure .integrityFailure "snapshot policy identity disagrees with the embedded policy")
  ensure (!s.federation.isNil) (.failure .corruptStore "snapshot has no federation identity")
  pure s

end Haf
