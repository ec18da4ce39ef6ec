/-
# What written records determine

Each writer ends where it ends, whatever follows, and its bytes determine the fields
it writes. No reader is involved, so that nothing has to keep to the limits of the
wire, apart from the width of the length fields.
-/

import Haf.Codec.Capability

namespace Haf

open Sequence Wire ByteReader

/-- The tag of an enumeration determines its value. -/
theorem ByteReader.shows_tag {α : Type} {toWire : α → UInt8} {fromWire : UInt8 → Option α}
    (back : ∀ a, fromWire (toWire a) = some a) : Shows (fun a => ByteWriter.u8 (toWire a)) id := by
  apply (shows_u8.of toWire).seeing
  intro a b same
  have read : fromWire (toWire a) = fromWire (toWire b) := congrArg fromWire same
  rw [back, back] at read
  exact Option.some.inj read

/-! ### Capabilities -/

namespace CapabilityValue

theorem shows_payload (kind : CapabilityKind) {a b : CapabilityValue} {x y : Bytes}
    (first : a.kind = kind) (second : b.kind = kind)
    (short : (a.payload ++ x).length < 4294967296) (short' : (b.payload ++ y).length < 4294967296)
    (same : a.payload ++ x = b.payload ++ y) : a = b ∧ x = y := by
  subst first
  cases a with
  | presence flag =>
      cases b <;> cases second
      obtain ⟨read, rest⟩ := shows_boolean.split short short' same
      exact ⟨congrArg presence read, rest⟩
  | version value =>
      cases b <;> cases second
      rename_i other
      have fields := (((shows_u32.of SemanticVersion.major).append
        (shows_u32.of SemanticVersion.minor)).append (shows_u32.of SemanticVersion.patch)).append
        (shows_string.of SemanticVersion.prerelease)
      obtain ⟨read, rest⟩ := fields.split short short' same
      simp only [Prod.mk.injEq, id] at read
      obtain ⟨⟨⟨major, minor⟩, patch⟩, prerelease⟩ := read
      refine ⟨congrArg version ?_, rest⟩
      cases value
      cases other
      simp_all
  | integer value =>
      cases b <;> cases second
      obtain ⟨read, rest⟩ := shows_i64.split short short' same
      exact ⟨congrArg integer read, rest⟩
  | scalar value =>
      cases b <;> cases second
      obtain ⟨read, rest⟩ := shows_f64.split short short' same
      exact ⟨congrArg scalar read, rest⟩
  | enumeration token =>
      cases b <;> cases second
      obtain ⟨read, rest⟩ := shows_string.split short short' same
      exact ⟨congrArg enumeration read, rest⟩
  | tokenSet tokens =>
      cases b <;> cases second
      obtain ⟨read, rest⟩ := shows_strings.split short short' same
      exact ⟨congrArg tokenSet read, rest⟩

theorem shows_serialize : Shows serialize id := by
  constructor
  intro a b x y short short' same
  rw [serialize, List.append_assoc] at short short'
  rw [serialize, serialize, List.append_assoc, List.append_assoc] at same
  have kinds := (shows_tag CapabilityKind.fromWire_toWire).of kind
  obtain ⟨kinds, payload⟩ := kinds.split short short' same
  rw [List.length_append] at short short'
  have within : (a.payload ++ x).length < 4294967296 := by omega
  have within' : (b.payload ++ y).length < 4294967296 := by omega
  exact shows_payload b.kind kinds rfl within within' payload

end CapabilityValue

theorem CapabilityRecord.shows_serialize : Shows serialize id := by
  have fields := (((shows_string.of fun r : CapabilityRecord => r.key.name).append
    ((shows_tag CapabilityState.fromWire_toWire).of (·.state))).append
    (shows_string.of (·.unit))).append (CapabilityValue.shows_serialize.of (·.value))
  apply fields.seeing
  intro a b same
  simp only [Prod.mk.injEq, id] at same
  obtain ⟨⟨⟨name, state⟩, unit⟩, value⟩ := same
  obtain ⟨⟨name', canonical⟩, state', value', unit'⟩ := a
  obtain ⟨⟨name'', canonical'⟩, state'', value'', unit''⟩ := b
  simp_all

/-- A set is determined by what is written of it. -/
theorem CapabilitySet.shows_serialize : Shows serialize fun set => set := by
  have records := shows_list CapabilityRecord.shows_serialize fun r => by
    have least := r.le_length_serialize
    omega
  have fields := (((shows_strongId.of CapabilitySet.id).append
    (shows_generation.of CapabilitySet.generation)).append (records.of CapabilitySet.records)).append
    (shows_strings.of CapabilitySet.closedNamespaces)
  apply fields.seeing
  intro a b same
  simp only [Prod.mk.injEq, List.map_id_fun] at same
  obtain ⟨⟨⟨identity, generation⟩, records⟩, namespaces⟩ := same
  exact CapabilitySet.ext identity generation records namespaces

/-! ### Members -/

theorem MemberRecord.shows_serialize : Shows serialize id := by
  have stamps := (((((shows_strongId.of MemberRecord.federation).append
    (shows_generation.of MemberRecord.federationGeneration)).append
    (shows_generation.of MemberRecord.epoch)).append (shows_strongId.of MemberRecord.agent)).append
    (shows_strongId.of MemberRecord.agentBoot)).append
    (shows_generation.of MemberRecord.agentGeneration)
  have devices := (((((stamps.append (shows_strongId.of MemberRecord.accelerator)).append
    (shows_strongId.of MemberRecord.physicalDevice)).append
    (shows_generation.of MemberRecord.deviceGeneration)).append
    (shows_generation.of MemberRecord.capabilityGeneration)).append
    (shows_generation.of MemberRecord.evidenceGeneration)).append
    (shows_generation.of MemberRecord.policyGeneration)
  have states := (((devices.append
    ((shows_tag MemberState.fromWire_toWire).of MemberRecord.state)).append
    (shows_generation.of MemberRecord.stateGeneration)).append
    ((shows_tag SupportLevel.fromWire_toWire).of MemberRecord.supportLevel)).append
    ((shows_tag EvidenceProvenance.fromWire_toWire).of MemberRecord.provenance)
  have fields := ((states.append (shows_i64.of MemberRecord.admittedAt)).append
    (shows_i64.of MemberRecord.updatedAt)).append (shows_strings.of MemberRecord.history)
  apply fields.seeing
  intro a b same
  cases a
  cases b
  simp_all

/-- The fields that identify a descriptor. -/
structure AcceleratorDescriptor.Identity where
  id : AcceleratorId
  physicalDevice : PhysicalDeviceId
  generation : DeviceGeneration
  agent : AgentId
  agentBoot : AgentBootId
  node : NodeId
  vendorToken : Bytes
  productToken : Bytes
  architectureToken : Bytes
  deviceGenerationToken : Bytes
  runtimeFamily : Bytes
  runtime : UInt32 × UInt32 × UInt32
  driver : UInt32 × UInt32 × UInt32

def AcceleratorDescriptor.identity (d : AcceleratorDescriptor) : Identity where
  id := d.id
  physicalDevice := d.physicalDevice
  generation := d.generation
  agent := d.agent
  agentBoot := d.agentBoot
  node := d.node
  vendorToken := d.vendorToken
  productToken := d.productToken
  architectureToken := d.architectureToken
  deviceGenerationToken := d.deviceGenerationToken
  runtimeFamily := d.runtimeFamily
  runtime := (d.runtimeVersion.major, d.runtimeVersion.minor, d.runtimeVersion.patch)
  driver := (d.driverVersion.major, d.driverVersion.minor, d.driverVersion.patch)

open AcceleratorDescriptor in
theorem AcceleratorDescriptor.shows_structuralBytes : Shows structuralBytes identity := by
  have owners := (((((shows_strongId.of AcceleratorDescriptor.id).append
    (shows_strongId.of physicalDevice)).append (shows_generation.of generation)).append
    (shows_strongId.of agent)).append (shows_strongId.of agentBoot)).append (shows_strongId.of node)
  have tokens := ((((owners.append (shows_string.of vendorToken)).append
    (shows_string.of productToken)).append (shows_string.of architectureToken)).append
    (shows_string.of deviceGenerationToken)).append (shows_string.of runtimeFamily)
  have fields := (((((tokens.append (shows_u32.of (·.runtimeVersion.major))).append
    (shows_u32.of (·.runtimeVersion.minor))).append (shows_u32.of (·.runtimeVersion.patch))).append
    (shows_u32.of (·.driverVersion.major))).append (shows_u32.of (·.driverVersion.minor))).append
    (shows_u32.of (·.driverVersion.patch))
  apply fields.seeing
  intro a b same
  simp only [Prod.mk.injEq, id_eq] at same
  simp_all [identity]

/-! ### Decisions and plans -/

theorem CompatibilityReason.shows_serialize : Shows serialize id := by
  have fields := ((((shows_u16.of fun r : CompatibilityReason => r.code.value).append
    (shows_string.of (·.subject))).append (shows_string.of (·.detail))).append
    ((shows_tag RequirementStrength.fromWire_toWire).of (·.strength))).append
    ((shows_tag CapabilityState.fromWire_toWire).of (·.observed))
  apply fields.seeing
  intro a b same
  simp only [Prod.mk.injEq, id] at same
  obtain ⟨⟨code⟩, _⟩ := a
  obtain ⟨⟨code'⟩, _⟩ := b
  simp_all

theorem CompatibilityReason.length_serialize_pos (r : CompatibilityReason) :
    0 < r.serialize.length := by
  simp [serialize, ByteWriter.u16]

theorem MigrationStep.shows_serialize : Shows serialize id := by
  have fields := ((shows_string.of MigrationStep.kind).append
    (shows_string.of MigrationStep.description)).append
    (shows_string.of MigrationStep.requiredCapability)
  apply fields.seeing
  intro a b same
  cases a
  cases b
  simp_all

theorem MigrationStep.length_serialize_pos (s : MigrationStep) : 0 < s.serialize.length := by
  simp only [serialize, List.length_append, length_string]
  omega

/-- A decision without its identities and its creation time. -/
def CompatibilityDecision.content (d : CompatibilityDecision) : CompatibilityDecision :=
  { d with id := .nil, decisionId := .nil, generation := ⟨0⟩, createdAt := 0 }

open CompatibilityDecision in
theorem CompatibilityDecision.shows_contentBytes : Shows contentBytes content := by
  have reasons' := shows_list CompatibilityReason.shows_serialize
    CompatibilityReason.length_serialize_pos
  have stamps := ((((((shows_strongId.of federation).append
    (shows_generation.of federationGeneration)).append (shows_generation.of epoch)).append
    (shows_strongId.of accelerator)).append (shows_generation.of deviceGeneration)).append
    (shows_generation.of capabilityGeneration)).append (shows_generation.of evidenceGeneration)
  have bindings := ((((stamps.append (shows_strongId.of policy)).append
    (shows_generation.of policyGeneration)).append (shows_strongId.of workload)).append
    (shows_strongId.of workloadRequirement)).append (shows_generation.of workloadRevision)
  have results := (((bindings.append
    ((shows_tag CompatibilityOutcome.fromWire_toWire).of outcome)).append
    ((shows_tag PortabilityClass.fromWire_toWire).of portability)).append
    ((shows_tag SupportLevel.fromWire_toWire).of supportLevel)).append
    ((shows_tag EvidenceProvenance.fromWire_toWire).of provenance)
  have fields := (results.append (shows_i64.of score)).append (reasons'.of reasons)
  apply fields.seeing
  intro a b same
  cases a
  cases b
  simp_all [content]

/-- A plan without its identity, its position in the life of plans, the explanations attached
to it and its creation time. -/
def MigrationPlan.required (p : MigrationPlan) : MigrationPlan :=
  { p with id := .nil, generation := ⟨0⟩, state := .planned, refusalReasons := [], createdAt := 0 }

open MigrationPlan in
theorem MigrationPlan.shows_bytes :
    Shows (fun p => p.bindingBytes ++ p.requirementBytes) required := by
  have steps' := shows_list MigrationStep.shows_serialize MigrationStep.length_serialize_pos
  have ends := (((((((shows_strongId.of federation).append
    (shows_generation.of federationGeneration)).append (shows_generation.of epoch)).append
    (shows_strongId.of source)).append (shows_generation.of sourceGeneration)).append
    (shows_generation.of sourceCapabilityGeneration)).append (shows_strongId.of destination)).append
    (shows_generation.of destinationGeneration)
  have bindings := ((((((ends.append (shows_generation.of destinationCapabilityGeneration)).append
    (shows_strongId.of workload)).append (shows_generation.of workloadRevision)).append
    (shows_strongId.of sourceDecision)).append (shows_strongId.of destinationDecision)).append
    ((shows_tag PortabilityClass.fromWire_toWire).of portability)).append
    ((shows_tag MigrationOutcome.fromWire_toWire).of outcome)
  have requirements := ((((shows_strongId.of policy).append
    (shows_generation.of policyGeneration)).append
    ((shows_tag EvidenceProvenance.fromWire_toWire).of destinationProvenance)).append
    (shows_u32.of estimatedCost)).append (steps'.of steps)
  apply (bindings.append requirements).seeing
  intro a b same
  cases a
  cases b
  simp_all [required]

/-! ### Workloads -/

/-- What a profile declares besides its requirements and tags. -/
structure WorkloadProfile.Declaration where
  classId : WorkloadClassId
  name : Bytes
  description : Bytes
  executionMode : ExecutionMode
  minimumPortability : PortabilityClass
  migrationNeed : MigrationNeed
  reconstructionAllowed : Bool

def WorkloadProfile.declaration (w : WorkloadProfile) : Declaration where
  classId := w.classId
  name := w.name
  description := w.description
  executionMode := w.executionMode
  minimumPortability := w.minimumPortability
  migrationNeed := w.migrationNeed
  reconstructionAllowed := w.reconstructionAllowed

/-- The bytes a profile is hashed from. -/
def WorkloadProfile.digestBytes (w : WorkloadProfile) : Bytes :=
  ByteWriter.strongId w.classId ++ ByteWriter.string w.name ++
    ByteWriter.string w.description ++ ByteWriter.u8 w.executionMode.toWire ++
    ByteWriter.u8 w.minimumPortability.toWire ++ ByteWriter.u8 w.migrationNeed.toWire ++
    ByteWriter.boolean w.reconstructionAllowed ++
    ByteWriter.list requirementBytes (sortOn requirementOrder w.requirements) ++
    ByteWriter.list ByteWriter.string (ascending w.requiredPolicyTags)

open WorkloadProfile in
theorem WorkloadProfile.declaration_of_digestBytes {a b : WorkloadProfile}
    (short : a.digestBytes.length < 4294967296) (same : a.digestBytes = b.digestBytes) :
    a.declaration = b.declaration := by
  have fields := ((((((shows_strongId.of classId).append (shows_string.of name)).append
    (shows_string.of description)).append
    ((shows_tag ExecutionMode.fromWire_toWire).of executionMode)).append
    ((shows_tag PortabilityClass.fromWire_toWire).of minimumPortability)).append
    ((shows_tag MigrationNeed.fromWire_toWire).of migrationNeed)).append
    (shows_boolean.of reconstructionAllowed)
  have short' : b.digestBytes.length < 4294967296 := same ▸ short
  unfold digestBytes at short short' same
  rw [List.append_assoc] at short short'
  rw [List.append_assoc, List.append_assoc _ (ByteWriter.list _ (sortOn _ b.requirements))] at same
  obtain ⟨shown, _⟩ := fields.split short short' same
  simp only [Prod.mk.injEq] at shown
  simp_all [declaration]

end Haf
