/-
# What the digest of a snapshot binds

Two snapshots with the same digest have the same members, the same descriptor
identities and capabilities, and the same declarations of workloads, decisions and
plans, as long as no two hashed strings collide. The digest does not reach the
provenance and the evidence of descriptors, the revisions of workloads, and the
position of plans in their life.
-/

import Haf.Codec.Delimited
import Haf.Codec.Member

namespace Haf

open Sequence Wire ByteReader

/-- The bytes a plan is hashed from, after the domain text. -/
def MigrationPlan.fingerprintBytes (p : MigrationPlan) : Bytes :=
  p.bindingBytes ++ p.requirementBytes

namespace FederationSnapshot

variable {s t : FederationSnapshot}

/-- The bytes a snapshot is hashed from. -/
def digestBytes (s : FederationSnapshot) : Bytes :=
  ByteWriter.string (text "haf.snapshot.v1") ++ ByteWriter.strongId s.federation ++
    ByteWriter.generation s.generation ++ ByteWriter.generation s.epoch ++
    ByteWriter.string s.name ++ ByteWriter.strongId s.policy ++
    ByteWriter.generation s.policyGeneration ++
    ByteWriter.list MemberRecord.serialize s.members ++
    ByteWriter.list descriptorDigestBytes s.descriptors ++
    ByteWriter.list (fun w => ByteWriter.digest w.digest) s.workloads ++
    ByteWriter.list (fun d => ByteWriter.digest d.fingerprint) s.decisions ++
    ByteWriter.list (fun p => ByteWriter.digest p.fingerprint) s.plans

theorem digest_eq (s : FederationSnapshot) : s.digest = Sha256.hash s.digestBytes := rfl

/-- No two strings that are hashed for the two snapshots collide. -/
structure CollisionFree (s t : FederationSnapshot) : Prop where
  whole : s.digest = t.digest → s.digestBytes = t.digestBytes
  descriptors : ∀ d ∈ s.descriptors, ∀ d' ∈ t.descriptors,
    d.structuralDigest = d'.structuralDigest → d.structuralBytes = d'.structuralBytes
  workloads : ∀ w ∈ s.workloads, ∀ w' ∈ t.workloads,
    w.digest = w'.digest → w.digestBytes = w'.digestBytes
  decisions : ∀ d ∈ s.decisions, ∀ d' ∈ t.decisions,
    d.fingerprint = d'.fingerprint → d.contentBytes = d'.contentBytes
  plans : ∀ p ∈ s.plans, ∀ p' ∈ t.plans,
    p.fingerprint = p'.fingerprint → p.fingerprintBytes = p'.fingerprintBytes

/-- Every hashed string is below the length up to which lengths are written faithfully. -/
structure Hashable (s : FederationSnapshot) : Prop where
  whole : s.digestBytes.length < 4294967296
  descriptors : ∀ d ∈ s.descriptors, d.structuralBytes.length < 4294967296
  workloads : ∀ w ∈ s.workloads, w.digestBytes.length < 4294967296
  decisions : ∀ d ∈ s.decisions, d.contentBytes.length < 4294967296
  plans : ∀ p ∈ s.plans, p.fingerprintBytes.length < 4294967296

/-- The two snapshots agree in everything that carries authority. -/
structure SameAuthority (s t : FederationSnapshot) : Prop where
  federation : s.federation = t.federation
  epoch : s.epoch = t.epoch
  generation : s.generation = t.generation
  policy : s.policy = t.policy
  members : s.members = t.members
  identities : s.descriptors.map (·.identity) = t.descriptors.map (·.identity)
  capabilities : s.descriptors.map (·.capabilities) = t.descriptors.map (·.capabilities)
  provenance : s.descriptors.map (·.provenance) = t.descriptors.map (·.provenance)
  evidence : s.descriptors.map (·.evidence) = t.descriptors.map (·.evidence)
  workloads : s.workloads = t.workloads
  decisions : s.decisions = t.decisions
  plans : s.plans = t.plans

/-- What the digest does not reach: provenance and evidence of descriptors; identity and
revision, and the order and the form of requirements and tags of workloads; the identities and
times of decisions; the identities, positions, explanations and times of plans. -/
structure Unhashed (s t : FederationSnapshot) : Prop where
  provenance : s.descriptors.map (·.provenance) = t.descriptors.map (·.provenance)
  evidence : s.descriptors.map (·.evidence) = t.descriptors.map (·.evidence)
  workloads : s.workloads.map (fun w => (w.requirementId, w.revision, w.requirements,
      w.requiredPolicyTags)) =
    t.workloads.map fun w => (w.requirementId, w.revision, w.requirements, w.requiredPolicyTags)
  decisions : s.decisions.map (fun d => (d.id, d.decisionId, d.generation, d.createdAt)) =
    t.decisions.map fun d => (d.id, d.decisionId, d.generation, d.createdAt)
  plans : s.plans.map (fun p => (p.id, p.generation, p.state, p.refusalReasons, p.createdAt)) =
    t.plans.map fun p => (p.id, p.generation, p.state, p.refusalReasons, p.createdAt)

theorem SameAuthority.unhashed (same : s.SameAuthority t) : s.Unhashed t :=
  ⟨same.provenance, same.evidence, congrArg _ same.workloads, congrArg _ same.decisions,
    congrArg _ same.plans⟩

/-! ### What is hashed -/

/-- What the hashed string of a snapshot shows. -/
structure Hashed (s t : FederationSnapshot) : Prop where
  federation : s.federation = t.federation
  generation : s.generation = t.generation
  epoch : s.epoch = t.epoch
  policy : s.policy = t.policy
  members : s.members = t.members
  descriptors : s.descriptors.map (fun d => (d.structuralDigest, d.capabilities)) =
    t.descriptors.map fun d => (d.structuralDigest, d.capabilities)
  workloads : s.workloads.map (·.digest) = t.workloads.map (·.digest)
  decisions : s.decisions.map (·.fingerprint) = t.decisions.map (·.fingerprint)
  plans : s.plans.map (·.fingerprint) = t.plans.map (·.fingerprint)

theorem shows_digests {α : Type} (hash : α → Digest) :
    Shows (ByteWriter.list fun a => ByteWriter.digest (hash a)) (List.map hash) :=
  shows_list (shows_digest.of hash) fun a => by
    rw [ByteWriter.digest, (hash a).length_eq]
    decide

theorem shows_descriptorDigestBytes :
    Shows descriptorDigestBytes fun d => (d.structuralDigest, d.capabilities) :=
  (shows_digest.of AcceleratorDescriptor.structuralDigest).append
    (CapabilitySet.shows_serialize.of AcceleratorDescriptor.capabilities)

theorem hashed_of_digestBytes (short : s.digestBytes.length < 4294967296)
    (same : s.digestBytes = t.digestBytes) : s.Hashed t := by
  have members' := shows_list MemberRecord.shows_serialize fun m => by
    have least := m.le_length_serialize
    omega
  have descriptors' := shows_list shows_descriptorDigestBytes fun d => by
    rw [descriptorDigestBytes, List.length_append, ByteWriter.digest, d.structuralDigest.length_eq]
    omega
  have header := (((((((Delimits.fixed (ByteWriter.string (text "haf.snapshot.v1"))).append
    (shows_strongId.of federation)).append (shows_generation.of generation)).append
    (shows_generation.of epoch)).append (shows_string.of name)).append
    (shows_strongId.of policy)).append (shows_generation.of policyGeneration))
  have sections := ((((header.append (members'.of members)).append
    (descriptors'.of descriptors)).append
    ((shows_digests WorkloadProfile.digest).of workloads)).append
    ((shows_digests CompatibilityDecision.fingerprint).of decisions)).append
    ((shows_digests MigrationPlan.fingerprint).of plans)
  have shown := sections.determines short same
  simp only [Prod.mk.injEq, id, List.map_id_fun] at shown
  obtain ⟨⟨⟨⟨⟨⟨⟨⟨⟨⟨⟨_, federation⟩, generation⟩, epoch⟩, _⟩, policy⟩, _⟩, members⟩, descriptors⟩,
    workloads⟩, decisions⟩, plans⟩ := shown
  exact ⟨federation, generation, epoch, policy, members, descriptors, workloads, decisions, plans⟩

/-- Snapshots that agree in what is hashed and in what is not have the same authority. -/
theorem Hashed.sameAuthority (hashed : s.Hashed t) (hashable : s.Hashable)
    (free : s.CollisionFree t) (rest : s.Unhashed t) : s.SameAuthority t where
  federation := hashed.federation
  epoch := hashed.epoch
  generation := hashed.generation
  policy := hashed.policy
  members := hashed.members
  identities := by
    apply map_eq_of_map_eq hashed.descriptors rest.provenance
    intro d listed d' listed' digests _
    have bytes := free.descriptors d listed d' listed' (Prod.mk.inj digests).1
    exact AcceleratorDescriptor.shows_structuralBytes.determines (hashable.descriptors d listed) bytes
  capabilities := by
    apply map_eq_of_map_eq hashed.descriptors rest.provenance
    intro d _ d' _ digests _
    exact (Prod.mk.inj digests).2
  provenance := rest.provenance
  evidence := rest.evidence
  workloads := by
    rw [← List.map_id s.workloads, ← List.map_id t.workloads]
    apply map_eq_of_map_eq hashed.workloads rest.workloads
    intro w listed w' listed' digests others
    have bytes := free.workloads w listed w' listed' digests
    have declared := WorkloadProfile.declaration_of_digestBytes (hashable.workloads w listed) bytes
    simp only [WorkloadProfile.declaration, WorkloadProfile.Declaration.mk.injEq,
      Prod.mk.injEq] at declared others
    cases w
    cases w'
    simp_all
  decisions := by
    rw [← List.map_id s.decisions, ← List.map_id t.decisions]
    apply map_eq_of_map_eq hashed.decisions rest.decisions
    intro d listed d' listed' digests others
    have bytes := free.decisions d listed d' listed' digests
    have content := CompatibilityDecision.shows_contentBytes.determines
      (hashable.decisions d listed) bytes
    simp only [CompatibilityDecision.content, CompatibilityDecision.mk.injEq,
      Prod.mk.injEq] at content others
    cases d
    cases d'
    simp_all
  plans := by
    rw [← List.map_id s.plans, ← List.map_id t.plans]
    apply map_eq_of_map_eq hashed.plans rest.plans
    intro p listed p' listed' digests others
    have bytes := free.plans p listed p' listed' digests
    have content := MigrationPlan.shows_bytes.determines (hashable.plans p listed) bytes
    simp only [MigrationPlan.required, MigrationPlan.mk.injEq, Prod.mk.injEq] at content others
    cases p
    cases p'
    simp_all

end FederationSnapshot

namespace Sample

/-- A snapshot with one workload, whose revision is given. -/
def revised (revision : WorkloadRevision) : FederationSnapshot :=
  { federation := ⟨.fromBytes [9]⟩
    workloads := [{ classId := ⟨.fromBytes [1]⟩, revision, name := text "w" }] }

theorem canonicalize_revised (revision : WorkloadRevision) :
    (revised revision).canonicalize = revised revision := rfl

/-- The revision of a workload is not hashed. -/
theorem digestBytes_revised (a b : WorkloadRevision) :
    (revised a).digestBytes = (revised b).digestBytes := rfl

theorem digest_revised (a b : WorkloadRevision) : (revised a).digest = (revised b).digest := by
  rw [FederationSnapshot.digest_eq, FederationSnapshot.digest_eq, digestBytes_revised a b]

theorem collisionFree_revised (a b : WorkloadRevision) :
    (revised a).CollisionFree (revised b) := by
  refine ⟨fun _ => digestBytes_revised a b, ?_, ?_, ?_, ?_⟩
  · intro d listed
    cases listed
  · intro w listed w' listed' _
    rw [List.mem_singleton.mp listed, List.mem_singleton.mp listed']
    rfl
  · intro d listed
    cases listed
  · intro p listed
    cases listed

theorem hashable_revised (a : WorkloadRevision) : (revised a).Hashable := by
  refine ⟨?_, ?_, ?_, ?_, ?_⟩
  · simp [revised, FederationSnapshot.digestBytes, ByteWriter.list, ByteWriter.count,
      ByteWriter.digest, Digest.length_eq, ByteWriter.generation, ByteWriter.u64, ByteWriter.u32,
      length_string]
    decide
  · intro d listed
    cases listed
  · intro w listed
    rw [List.mem_singleton.mp listed]
    simp [WorkloadProfile.digestBytes, ByteWriter.list, ByteWriter.count, ByteWriter.u32,
      ByteWriter.u8, ByteWriter.boolean, length_string]
    decide
  · intro d listed
    cases listed
  · intro p listed
    cases listed

end Sample

end Haf
