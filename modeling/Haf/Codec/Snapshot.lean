/-
# Reading snapshots back

A snapshot is decoded exactly when every section can be stored, the payload keeps
to the limit of the store and the recomputed identities agree.
-/

import Haf.Codec.Decision

namespace Haf

open Sequence Wire ByteReader

namespace FederationSnapshot

/-- The snapshot as its sections are read back. -/
def persisted (R : Registry) (s : FederationSnapshot) : FederationSnapshot :=
  { s with
    policyData := s.policyData.persisted R
    descriptors := s.descriptors.map (·.persisted)
    workloads := s.workloads.map (·.persisted) }

/-- Every section keeps to its bound and every item in it can be stored. -/
structure Storable (R : Registry) (s : FederationSnapshot) : Prop where
  name : s.name.length ≤ Limits.maxNameBytes
  policy : s.policyData.Storable R
  members : s.members.length ≤ Limits.maxPersistedMembers
  member : ∀ m ∈ s.members, m.Storable
  descriptors : s.descriptors.length ≤ Limits.maxPersistedMembers
  descriptor : ∀ d ∈ s.descriptors, d.Storable R
  workloads : s.workloads.length ≤ Limits.maxPersistedWorkloads
  workload : ∀ w ∈ s.workloads, w.Storable R
  decisions : s.decisions.length ≤ Limits.maxPersistedDecisions
  decision : ∀ d ∈ s.decisions, d.Storable
  plans : s.plans.length ≤ Limits.maxPersistedPlans
  plan : ∀ p ∈ s.plans, p.Storable

/-- The payload of a snapshot is decoded: its sections can be stored, it keeps to the limit
of the store, and digest and identities are those of the decoded content. -/
structure Decodable (R : Registry) (s : FederationSnapshot) : Prop where
  storable : s.Storable R
  bounded : (encodeSnapshot s).length ≤ Limits.maxStorePayloadBytes
  digested : (s.persisted R).canonicalize.digest = s.digest
  policy : s.policy = (s.policyData.persisted R).id
  identified : s.federation.isNil = false

/-- The sections of a snapshot are read back exactly when they can be stored. -/
theorem readSnapshot_reads (R : Registry) (s : FederationSnapshot) :
    Reads (readSnapshot R) (encodeSnapshot s) (s.Storable R) (s.persisted R, s.digest) := by
  refine Codes.of_append_nil ?_
  unfold encodeSnapshot headerBytes sectionBytes
  simp only [List.append_assoc]
  refine .then_ (u32_reads _) (.then_ (u32_reads _) ?_)
  refine .step (string_reads _ _) (fun _ => by decide) fun _ => ?_
  refine .check (fun _ => by decide) fun _ => .check (fun _ => by decide) fun _ =>
    .check (fun _ => by decide) fun _ => ?_
  refine .then_ (strongId_reads _) (.then_ (generation_reads _) (.then_ (generation_reads _) ?_))
  refine .step (string_reads _ _) Storable.name fun name => ?_
  refine .then_ (strongId_reads _) (.then_ (generation_reads _) ?_)
  refine .step (FederationPolicy.deserialize_reads R _) Storable.policy fun policy => ?_
  refine .step (list_reads (by decide) s.members MemberRecord.le_length_serialize
    fun m _ => MemberRecord.deserialize_reads m) (fun h => ⟨h.members, h.member⟩)
    fun members => ?_
  refine .step (list_reads (by decide) s.descriptors AcceleratorDescriptor.le_length_serialize
    fun d _ => AcceleratorDescriptor.deserialize_reads R d)
    (fun h => ⟨h.descriptors, h.descriptor⟩) fun descriptors => ?_
  refine .step (list_reads (by decide) s.workloads WorkloadProfile.le_length_serialize
    fun w _ => WorkloadProfile.deserialize_reads R w) (fun h => ⟨h.workloads, h.workload⟩)
    fun workloads => ?_
  refine .step (list_reads (by decide) s.decisions CompatibilityDecision.le_length_serialize
    fun d _ => CompatibilityDecision.deserialize_reads d) (fun h => ⟨h.decisions, h.decision⟩)
    fun decisions => ?_
  refine .step (list_reads (by decide) s.plans MigrationPlan.le_length_serialize
    fun p _ => MigrationPlan.deserialize_reads p) (fun h => ⟨h.plans, h.plan⟩) fun plans => ?_
  simp only [List.map_id']
  refine .then_ (i64_reads _) (.then_ (digest_reads _) (.done _ ?_))
  exact ⟨name, policy, members.1, members.2, descriptors.1, descriptors.2, workloads.1,
    workloads.2, decisions.1, decisions.2, plans.1, plans.2⟩

/-- Decoding an encoded snapshot gives its canonical read-back, exactly when it is decodable. -/
theorem decodeSnapshot_eq_ok {R : Registry} {s t : FederationSnapshot} :
    decodeSnapshot R (encodeSnapshot s) = .ok t ↔
      s.Decodable R ∧ t = (s.persisted R).canonicalize := by
  have short : (encodeSnapshot s).length ≤ Limits.maxStorePayloadBytes →
      (encodeSnapshot s).length < 4294967296 := fun bounded => lt_of_le_of_lt bounded (by decide)
  simp only [decodeSnapshot, bind_eq_ok, ensure_eq_ok, pure_eq_ok, decide_eq_true_eq,
    Bool.not_eq_true']
  constructor
  · rintro ⟨_, bounded, ⟨⟨read, stored⟩, rest⟩, found, _, _, _, digested, _, policy, _, identified,
      rfl⟩
    obtain ⟨taken, refused⟩ := readSnapshot_reads R s (short bounded) []
    rw [List.append_nil] at taken refused
    by_cases storable : s.Storable R
    · rw [taken storable] at found
      obtain ⟨⟨rfl, rfl⟩, rfl⟩ : (s.persisted R = read ∧ s.digest = stored) ∧ [] = rest := by
        simpa using found
      exact ⟨⟨storable, bounded, digested, policy, identified⟩, rfl⟩
    · obtain ⟨e, failed⟩ := refused storable
      rw [failed] at found
      cases found
  · rintro ⟨decodable, rfl⟩
    have read := (readSnapshot_reads R s (short decodable.bounded) []).1 decodable.storable
    rw [List.append_nil] at read
    exact ⟨(), decodable.bounded, _, read, (), rfl, (), decodable.digested, (), decodable.policy,
      (), decodable.identified, rfl⟩

end FederationSnapshot

end Haf
