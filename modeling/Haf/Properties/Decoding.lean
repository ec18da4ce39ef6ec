/-
# Decoded snapshots

The decoder accepts payloads that the encoder never writes. A snapshot that comes
out of it is in canonical order and each of its items is well formed; whether it
can be written and decoded again depends on the version ranges, which go through
their parser on the way.
-/

import Haf.Codec.Decoded

namespace Haf

open Sequence Wire ByteReader

namespace FederationSnapshot

variable {R : Registry} {s : FederationSnapshot}

/-- The sections as the decoder returns them. -/
structure Decoded (R : Registry) (s : FederationSnapshot) : Prop where
  name : s.name.length ≤ Limits.maxNameBytes
  policy : s.policyData.Decoded R
  members : s.members.length ≤ Limits.maxPersistedMembers
  member : ∀ m ∈ s.members, m.Storable
  descriptors : s.descriptors.length ≤ Limits.maxPersistedMembers
  descriptor : ∀ d ∈ s.descriptors, d.Storable R ∧ d.persisted = d
  workloads : s.workloads.length ≤ Limits.maxPersistedWorkloads
  workload : ∀ w ∈ s.workloads, w.validate R = .ok () ∧ ∀ q ∈ w.requirements, q.value.Storable
  decisions : s.decisions.length ≤ Limits.maxPersistedDecisions
  decision : ∀ d ∈ s.decisions, d.Storable
  plans : s.plans.length ≤ Limits.maxPersistedPlans
  plan : ∀ p ∈ s.plans, p.Storable

theorem ensures_readSnapshot (R : Registry) :
    Ensures (readSnapshot R) fun read => read.1.Decoded R := by
  iterate 3
    apply Ensures.then_
    intro _
  iterate 3
    apply Ensures.check
    intro _
  iterate 3
    apply Ensures.then_
    intro _
  apply Ensures.step (ensures_string _)
  intro name named
  iterate 2
    apply Ensures.then_
    intro _
  apply Ensures.step (FederationPolicy.ensures_deserialize R)
  intro policy decoded
  apply Ensures.step (ensures_list _ _ MemberRecord.ensures_deserialize)
  intro members member
  apply Ensures.step (ensures_list _ _ (AcceleratorDescriptor.ensures_deserializeAt true R))
  intro descriptors descriptor
  apply Ensures.step (ensures_list _ _ (WorkloadProfile.ensures_deserialize R))
  intro workloads workload
  apply Ensures.step (ensures_list _ _ CompatibilityDecision.ensures_deserialize)
  intro decisions decision
  apply Ensures.step (ensures_list _ _ MigrationPlan.ensures_deserialize)
  intro plans plan
  iterate 2
    apply Ensures.then_
    intro _
  exact .pure ⟨named, decoded, member.1, member.2, descriptor.1, descriptor.2, workload.1,
    workload.2, decision.1, decision.2, plan.1, plan.2⟩

theorem ensures_validPolicy (R : Registry) :
    Ensures (readSnapshot R) fun read => read.1.policyData.validate R = .ok () := by
  iterate 3
    apply Ensures.then_
    intro _
  iterate 3
    apply Ensures.check
    intro _
  iterate 6
    apply Ensures.then_
    intro _
  apply Ensures.step (FederationPolicy.ensures_valid R)
  intro policy valid
  iterate 7
    apply Ensures.then_
    intro _
  exact .pure valid

theorem Decoded.canonicalize (decoded : s.Decoded R) : s.canonicalize.Decoded R := by
  refine { decoded with
    members := ?_, member := ?_, descriptors := ?_, descriptor := ?_, workloads := ?_
    workload := ?_, decisions := ?_, decision := ?_, plans := ?_, plan := ?_ }
  · simpa only [FederationSnapshot.canonicalize, length_sortOn] using decoded.members
  · simpa only [FederationSnapshot.canonicalize, mem_sortOn] using decoded.member
  · simpa only [FederationSnapshot.canonicalize, length_sortOn] using decoded.descriptors
  · simpa only [FederationSnapshot.canonicalize, mem_sortOn] using decoded.descriptor
  · simpa only [FederationSnapshot.canonicalize, length_sortOn] using decoded.workloads
  · simpa only [FederationSnapshot.canonicalize, mem_sortOn] using decoded.workload
  · simpa only [FederationSnapshot.canonicalize, length_sortOn] using decoded.decisions
  · simpa only [FederationSnapshot.canonicalize, mem_sortOn] using decoded.decision
  · simpa only [FederationSnapshot.canonicalize, length_sortOn] using decoded.plans
  · simpa only [FederationSnapshot.canonicalize, mem_sortOn] using decoded.plan

theorem policyData_canonicalize (s : FederationSnapshot) :
    s.canonicalize.policyData = s.policyData := rfl

theorem canonicalize_canonicalize (s : FederationSnapshot) :
    s.canonicalize.canonicalize = s.canonicalize := by
  simp only [canonicalize, sortOn_sortOn]

/-- What is known of an accepted snapshot. -/
theorem of_decodeSnapshot {payload : Bytes} (accepted : decodeSnapshot R payload = .ok s) :
    s.Decoded R ∧ s.canonicalize = s ∧ s.policy = s.policyData.id ∧ s.federation.isNil = false := by
  simp only [decodeSnapshot, bind_eq_ok, ensure_eq_ok, pure_eq_ok, decide_eq_true_eq,
    Bool.not_eq_true'] at accepted
  obtain ⟨_, _, ⟨⟨read, stored⟩, rest⟩, found, _, _, _, _, _, policy, _, identified, rfl⟩ := accepted
  have decoded : read.Decoded R := (ensures_readSnapshot R).of_run found
  exact ⟨decoded.canonicalize, canonicalize_canonicalize read, policy, identified⟩

theorem validPolicy_of_decodeSnapshot {payload : Bytes}
    (accepted : decodeSnapshot R payload = .ok s) : s.policyData.validate R = .ok () := by
  simp only [decodeSnapshot, bind_eq_ok, pure_eq_ok] at accepted
  obtain ⟨_, _, ⟨⟨read, stored⟩, rest⟩, found, _, _, _, _, _, _, _, _, rfl⟩ := accepted
  exact (ensures_validPolicy R).of_run found

end FederationSnapshot

/-! ### Writing a decoded snapshot again -/

/-- The clauses keep to the limits of the wire and none of them is a wildcard. -/
structure VersionRange.Rewritable (range : VersionRange) : Prop where
  clauses : range.clauses.length ≤ 32
  bounded : ∀ clause ∈ range.clauses, clause.op ≠ .any
  prereleases : ∀ clause ∈ range.clauses,
    clause.version.prerelease.length ≤ Limits.maxTokenBytes

namespace FederationSnapshot

variable {R : Registry} {s : FederationSnapshot}

/-- The snapshot can be written again: the payload and the text of the policy's version range
keep to their limits, the policy has a version range, and so have the requirements of the
workloads, in a form that is parsed again. -/
structure Rewritable (s : FederationSnapshot) : Prop where
  bounded : (encodeSnapshot s).length ≤ Limits.maxStorePayloadBytes
  ranged : s.policyData.minimumRuntimeVersion.clauses ≠ []
  version : s.policyData.minimumRuntimeVersion.toText.length ≤ Limits.maxStringBytes
  requirements : ∀ w ∈ s.workloads, ∀ q ∈ w.requirements, q.versionRange.Rewritable

theorem Decoded.policy_eq (decoded : s.Decoded R) (rewritable : s.Rewritable) :
    s.policyData.persisted R = s.policyData := by
  have same : s.policyData.minimumRuntimeVersion.reread = s.policyData.minimumRuntimeVersion := by
    rw [VersionRange.reread, if_neg (by simpa using rewritable.ranged)]
  rw [decoded.policy.persisted_eq rewritable.version, same]

theorem Decoded.workload_sound (decoded : s.Decoded R) (rewritable : s.Rewritable)
    {w : WorkloadProfile} (listed : w ∈ s.workloads) : w.Sound R := by
  obtain ⟨valid, values⟩ := decoded.workload w listed
  refine ⟨valid, fun q inside => ?_⟩
  have range := rewritable.requirements w listed q inside
  exact ⟨values q inside, range.clauses, range.bounded, range.prereleases⟩

/-- Nothing that is written changes when it is read back. -/
theorem Decoded.persisted_eq (decoded : s.Decoded R) (rewritable : s.Rewritable) :
    s.persisted R = s := by
  have descriptors : s.descriptors.map (·.persisted) = s.descriptors := by
    conv_rhs => rw [← List.map_id s.descriptors]
    exact List.map_congr_left fun d listed => (decoded.descriptor d listed).2
  have workloads : s.workloads.map (·.persisted) = s.workloads := by
    conv_rhs => rw [← List.map_id s.workloads]
    exact List.map_congr_left fun w listed => (decoded.workload_sound rewritable listed).persisted_eq
  rw [persisted, decoded.policy_eq rewritable, descriptors, workloads]

theorem Decoded.storable (decoded : s.Decoded R) (rewritable : s.Rewritable) : s.Storable R where
  name := decoded.name
  policy := (decoded.policy.sound rewritable.version).storable
  members := decoded.members
  member := decoded.member
  descriptors := decoded.descriptors
  descriptor d listed := (decoded.descriptor d listed).1
  workloads := decoded.workloads
  workload _ listed := (decoded.workload_sound rewritable listed).storable
  decisions := decoded.decisions
  decision := decoded.decision
  plans := decoded.plans
  plan := decoded.plan

/-- What is written and decoded without change was rewritable. -/
theorem Decoded.rewritable (decoded : s.Decoded R) (decodable : s.Decodable R)
    (unchanged : (s.persisted R).policyData = s.policyData) : s.Rewritable := by
  have version := decodable.storable.policy.version
  refine ⟨decodable.bounded, ?_, version, ?_⟩
  · intro missing
    have range := congrArg FederationPolicy.minimumRuntimeVersion unchanged
    rw [persisted, decoded.policy.persisted_eq version] at range
    have clauses := congrArg VersionRange.clauses range
    rw [VersionRange.reread, if_pos (by simpa using missing), missing] at clauses
    cases clauses
  · intro w listed q inside
    have storable := (decodable.storable.workload w listed).requirements q inside
    obtain ⟨range, reparsed⟩ := storable.reparsed
    exact ⟨storable.clauses, CapabilityRequirement.ne_any_of_reparseClauses reparsed,
      storable.prereleases⟩

end FederationSnapshot

/-! ### References within a decoded snapshot -/

namespace FederationSnapshot

variable {R : Registry} {s : FederationSnapshot}

/-- Identities occur once, members and descriptors correspond, and decisions and plans refer to
members and workloads of the snapshot. -/
structure Coherent (s : FederationSnapshot) : Prop where
  members : (s.members.map (·.accelerator)).Nodup
  descriptors : (s.descriptors.map (·.id)).Nodup
  workloads : (s.workloads.map (·.classId)).Nodup
  decisions : (s.decisions.map (·.decisionId)).Nodup
  plans : (s.plans.map (·.id)).Nodup
  described : ∀ m ∈ s.members, ∃! d, d ∈ s.descriptors ∧ d.id = m.accelerator
  enrolled : ∀ d ∈ s.descriptors, ∃ m ∈ s.members, m.accelerator = d.id
  decided : ∀ d ∈ s.decisions, (∃ m ∈ s.members, m.accelerator = d.accelerator) ∧
    ∃ w ∈ s.workloads, w.classId = d.workload
  planned : ∀ p ∈ s.plans, (∃ m ∈ s.members, m.accelerator = p.source) ∧
    (∃ m ∈ s.members, m.accelerator = p.destination) ∧ ∃ w ∈ s.workloads, w.classId = p.workload

/-- The check the decoder leaves out: one pass over each sorted section, and a search for
everything that decisions and plans refer to. -/
def crossChecked (s : FederationSnapshot) : Bool :=
  decide ((s.members.map (·.accelerator)).IsChain (· < ·)) &&
    decide (s.descriptors.map (·.id) = s.members.map (·.accelerator)) &&
    decide ((s.workloads.map (·.classId)).IsChain (· < ·)) &&
    decide ((s.decisions.map (·.decisionId)).IsChain (· < ·)) &&
    decide ((s.plans.map (·.id)).IsChain (· < ·)) &&
    s.decisions.all (fun d => (s.findMember d.accelerator).isSome &&
      (s.findWorkload d.workload).isSome) &&
    s.plans.all fun p => (s.findMember p.source).isSome && (s.findMember p.destination).isSome &&
      (s.findWorkload p.workload).isSome

/-- In canonical order, members and descriptors correspond exactly when their columns agree. -/
theorem columns_eq_iff (canonical : s.canonicalize = s)
    (members : (s.members.map (·.accelerator)).Nodup) :
    s.descriptors.map (·.id) = s.members.map (·.accelerator) ↔
      (s.descriptors.map (·.id)).Nodup ∧
        (∀ m ∈ s.members, ∃! d, d ∈ s.descriptors ∧ d.id = m.accelerator) ∧
        ∀ d ∈ s.descriptors, ∃ m ∈ s.members, m.accelerator = d.id := by
  constructor
  · intro same
    have descriptors : (s.descriptors.map (·.id)).Nodup := by
      rw [same]
      exact members
    refine ⟨descriptors, fun m listed => ?_, fun d listed => ?_⟩
    · have named : m.accelerator ∈ s.descriptors.map (·.id) := by
        rw [same]
        exact List.mem_map_of_mem listed
      obtain ⟨d, inside, identified⟩ := List.mem_map.mp named
      refine ⟨d, ⟨inside, identified⟩, fun other found => ?_⟩
      exact List.inj_on_of_nodup_map descriptors found.1 inside (found.2.trans identified.symm)
    · have named : d.id ∈ s.members.map (·.accelerator) := by
        rw [← same]
        exact List.mem_map_of_mem listed
      exact List.mem_map.mp named
  · rintro ⟨descriptors, described, enrolled⟩
    -- two columns without repetitions that list the same identities, both in order
    have perm : (s.descriptors.map (·.id)).Perm (s.members.map (·.accelerator)) := by
      rw [List.perm_ext_iff_of_nodup descriptors members]
      intro a
      simp only [List.mem_map]
      constructor
      · rintro ⟨d, listed, rfl⟩
        exact enrolled d listed
      · rintro ⟨m, listed, rfl⟩
        obtain ⟨d, found, _⟩ := described m listed
        exact ⟨d, found⟩
    have first : (s.descriptors.map (·.id)).Pairwise (· ≤ ·) := by
      rw [← canonical, List.pairwise_map]
      exact pairwise_sortOn _ _
    have second : (s.members.map (·.accelerator)).Pairwise (· ≤ ·) := by
      rw [← canonical, List.pairwise_map]
      exact pairwise_sortOn _ _
    exact perm.eq_of_pairwise (fun _ _ _ _ => le_antisymm) first second

theorem isSome_findMember (increasing : (s.members.map (·.accelerator)).IsChain (· < ·))
    {a : AcceleratorId} :
    (s.findMember a).isSome = true ↔ ∃ m ∈ s.members, m.accelerator = a :=
  isSome_searchOn (List.pairwise_map.mp increasing.pairwise)

theorem isSome_findWorkload (increasing : (s.workloads.map (·.classId)).IsChain (· < ·))
    {a : WorkloadClassId} :
    (s.findWorkload a).isSome = true ↔ ∃ w ∈ s.workloads, w.classId = a :=
  isSome_searchOn (List.pairwise_map.mp increasing.pairwise)

end FederationSnapshot

namespace Sample

/-- A snapshot of a federation without members, under the default policy. -/
def bare : FederationSnapshot :=
  { federation := ⟨.fromBytes [9]⟩
    policy := FederationPolicy.permissiveDefault.id
    policyData := FederationPolicy.permissiveDefault }

/-- The default policy, with an empty text for its version range. -/
def unrangedPolicy : Bytes :=
  let p := FederationPolicy.permissiveDefault
  let none := ByteWriter.list ByteWriter.string []
  ByteWriter.strongId p.id ++ ByteWriter.generation p.generation ++ ByteWriter.string p.name ++
    none ++ none ++ ByteWriter.list ByteWriter.strongId p.forbiddenAccelerators ++ none ++
    ByteWriter.string [] ++ ByteWriter.u64 p.requiredEvidenceFreshnessNanos ++
    ByteWriter.u8 p.syntheticEvidencePolicy.toWire ++
    ByteWriter.boolean p.requireRealEvidenceForActive ++ none ++ none ++
    ByteWriter.list (fun value => ByteWriter.u8 value.toWire) p.allowedPortabilityClasses ++
    ByteWriter.boolean p.allowCrossVendorMigration ++
    ByteWriter.boolean p.allowCrossVendorReconstruction ++
    ByteWriter.boolean p.allowDegradedCapabilities ++ ByteWriter.u64 p.minimumMemoryBytes ++ none

/-- The snapshot as the encoder writes it, but for the text of that range. -/
def unranged : Bytes :=
  ByteWriter.u32 snapshotFormatVersion ++ ByteWriter.u32 0 ++ ByteWriter.string snapshotDomain ++
    ByteWriter.strongId bare.federation ++ ByteWriter.generation bare.generation ++
    ByteWriter.generation bare.epoch ++ ByteWriter.string bare.name ++
    ByteWriter.strongId bare.policy ++ ByteWriter.generation bare.policyGeneration ++
    unrangedPolicy ++ bare.sectionBytes ++ ByteWriter.i64 bare.createdAt ++
    ByteWriter.digest bare.digest

theorem decode_unranged : decodeSnapshot .core unranged = .ok bare := by
  decide +kernel

end Sample

namespace Sample

/-- A snapshot whose only member has no descriptor. -/
def orphaned : FederationSnapshot :=
  { bare with members := [{ accelerator := ⟨.fromBytes [1]⟩, agent := ⟨.fromBytes [2]⟩ }] }

/-- The sections of the snapshot that is decoded for it. -/
theorem sections_orphaned : (decodeSnapshot .core (encodeSnapshot orphaned)).toOption.map
    (fun s => (s.members, s.descriptors)) = some (orphaned.members, []) := by
  decide +kernel

theorem decode_orphaned : ∃ s, decodeSnapshot .core (encodeSnapshot orphaned) = .ok s ∧
    s.members = orphaned.members ∧ s.descriptors = [] := by
  have sections := sections_orphaned
  cases decoded : decodeSnapshot .core (encodeSnapshot orphaned) with
  | error status =>
      rw [decoded] at sections
      cases sections
  | ok s =>
      rw [decoded] at sections
      obtain ⟨members, descriptors⟩ := Prod.mk.inj (Option.some.inj sections)
      exact ⟨s, rfl, members, descriptors⟩

end Sample

end Haf
