/-
# Members agree with their descriptors

The record of a member repeats fields of its descriptor, and the two are written
separately. Every command writes both alike, with one exception: an advertisement
with the capabilities a member already has replaces the descriptor, and with it the
capability generation, but not the generation in the record.
-/

import Haf.Engine.Audit
import Haf.Properties.LiveBoot

namespace Haf

attribute [local irreducible] Sha256.hash

open Federation AuditReport

/-- The audit of the current state. -/
def Federation.audit (f : Federation) (env : Environment) : AuditReport :=
  auditSnapshot f.registry (f.snapshotLocked env)

/-- The record repeats what the descriptor says. -/
structure MemberEntry.Agrees (entry : MemberEntry) : Prop where
  agent : entry.record.agent = entry.descriptor.agent
  agentBoot : entry.record.agentBoot = entry.descriptor.agentBoot
  deviceGeneration : entry.record.deviceGeneration = entry.descriptor.generation
  capabilityGeneration :
    entry.record.capabilityGeneration = entry.descriptor.capabilities.generation
  supportLevel : entry.record.supportLevel = entry.descriptor.supportLevel
  provenance : entry.record.provenance = entry.descriptor.provenance

/-- The codes under which the audit reports members that are not consistent. -/
def consistencyCodes : List Bytes :=
  ["membership.descriptor", "membership.ownership", "membership.device_generation",
    "membership.capability_generation", "membership.support_level", "membership.federation",
    "membership.epoch", "membership.evidence"].map text

/-- Every member agrees with its descriptor, and the audit has nothing to say about it. -/
structure Consistent (f : Federation) : Prop where
  members : ∀ a entry, f.members.get? a = some entry → entry.Agrees
  audited : ∀ env, (f.audit env).Spares consistencyCodes

/-- An advertisement for a member is by the owner its identity was derived from, and repeats
the capability generation of the member if it repeats its capabilities. -/
def AdvertisesAlike (f : Federation) : Event → Prop
  | .call (.observe d _) _ => ∀ entry, f.members.get? d.id = some entry →
      (deriveAcceleratorId d.physicalDevice d.agent d.agentBoot d.generation =
          deriveAcceleratorId entry.record.physicalDevice entry.record.agent
            entry.record.agentBoot entry.record.deviceGeneration →
        d.agent = entry.record.agent ∧ d.generation = entry.record.deviceGeneration) ∧
      (d.capabilities.digest = entry.descriptor.capabilities.digest →
        d.capabilities.generation = entry.record.capabilityGeneration)
  | _ => True

/-! ### The invariant -/

/-- A member of the federation `f` as the audit expects it, with an identity that was derived
from its owner. -/
structure MemberEntry.Proper (f : Federation) (entry : MemberEntry) : Prop
    extends entry.Agrees where
  derived : deriveAcceleratorId entry.record.physicalDevice entry.record.agent
    entry.record.agentBoot entry.record.deviceGeneration = entry.record.accelerator
  federation : entry.record.federation = f.id
  epoch : entry.record.epoch.value ≤ f.epoch.value
  evidence : entry.record.evidenceGeneration.value ≠ 0

def ProperMembers (f : Federation) : Prop :=
  ∀ a entry, f.members.get? a = some entry → entry.Proper f

theorem Generation.next_ne_zero {tag : GenerationTag} {g : Generation tag} (old : g.value ≠ 0) :
    g.next.value ≠ 0 := by
  by_cases top : g.value = Generation.maxValue
  · rw [Generation.next_of_max top]
    exact old
  · intro zero
    have grown := Generation.value_lt_next top
    rw [zero] at grown
    exact absurd grown (UInt64.not_lt_zero)

variable {entry : MemberEntry} {f : Federation}

/-- A repeated advertisement keeps a member proper if it is by the same owner and, for the
same capabilities, at the same generation. -/
theorem MemberEntry.Proper.observedAgain
    {d : AcceleratorDescriptor} (proper : entry.Proper f) (same : d.id = entry.record.accelerator)
    (boot : entry.record.agentBoot = d.agentBoot) (agent : d.agent = entry.record.agent)
    (generation : d.generation = entry.record.deviceGeneration)
    (alike : d.capabilities.digest = entry.descriptor.capabilities.digest →
      d.capabilities.generation = entry.record.capabilityGeneration) (now : Timestamp) :
    (entry.observedAgain f d same now).Proper f := by
  rw [MemberEntry.observedAgain]
  split
  · exact {
      agent := agent.symm, agentBoot := boot, deviceGeneration := generation.symm
      capabilityGeneration := rfl, supportLevel := rfl, provenance := rfl
      derived := proper.derived, federation := proper.federation, epoch := UInt64.le_refl _
      evidence := Generation.next_ne_zero proper.evidence }
  · rename_i repeated
    exact {
      agent := agent.symm, agentBoot := boot, deviceGeneration := generation.symm
      capabilityGeneration := (alike (not_not.mp repeated).symm).symm
      supportLevel := rfl, provenance := rfl
      derived := proper.derived, federation := proper.federation, epoch := UInt64.le_refl _
      evidence := Generation.next_ne_zero proper.evidence }

theorem MemberStep.proper {env : Environment} {c : Command}
    {before : Option MemberEntry}
    (step : MemberStep f env c before (some entry)) (alike : AdvertisesAlike f (.call c env))
    (earlier : ∀ entry, before = some entry → entry.Proper f) : entry.Proper f := by
  cases step with
  | same => exact earlier entry rfl
  | joined valid derived =>
      exact {
        agent := rfl, agentBoot := rfl, deviceGeneration := rfl, capabilityGeneration := rfl
        supportLevel := rfl, provenance := rfl, derived, federation := rfl
        epoch := UInt64.le_refl _, evidence := show (1 : UInt64) ≠ 0 by decide }
  | @superseded d claim entry₀ now open_ =>
      have proper := earlier entry₀ rfl
      exact { proper with }
  | @observedAgain d claim entry₀ valid same open_ boot found derived =>
      have proper := earlier entry₀ rfl
      obtain ⟨owner, generation⟩ := alike entry₀ found
      obtain ⟨agent, device⟩ := owner (by rw [derived, proper.derived, same])
      exact proper.observedAgain same boot agent device generation _
  | @moved a target claim entry₀ named legal =>
      have proper := earlier entry₀ rfl
      exact { proper with epoch := UInt64.le_refl _ }
  | @updated a capabilities evidence claim entry₀ named open_ valid witnessed subject provenance
      digest =>
      have proper := earlier entry₀ rfl
      exact { proper with
        capabilityGeneration := rfl, epoch := UInt64.le_refl _
        evidence := Generation.next_ne_zero proper.evidence }
  | @underPolicy p claim entry₀ =>
      have proper := earlier entry₀ rfl
      exact { proper with }
  | @drained id claim plan entry₀ stored source working =>
      have proper := earlier entry₀ rfl
      exact { proper with }

theorem MemberEntry.Proper.congr {g : Federation} (id : g.id = f.id)
    (epoch : g.epoch = f.epoch) (proper : entry.Proper f) : entry.Proper g :=
  { proper with
    federation := proper.federation.trans id.symm
    epoch := by
      rw [epoch]
      exact proper.epoch }

theorem properMembers_of_change {g : Federation} {env : Environment} {c : Command}
    (proper : ProperMembers f) (alike : AdvertisesAlike f (.call c env))
    (change : Change f env c g) : ProperMembers g := by
  intro a entry found
  have step := change.member a
  rw [found] at step
  apply MemberEntry.Proper.congr change.frame.id change.frame.epoch
  exact step.proper alike fun earlier located => proper a earlier located

theorem properMembers_fresh (R : Registry) (config : FederationConfig) (disk : Option Bytes)
    (env : Environment) : ProperMembers (constructed R config disk env).fresh := by
  intro a entry found
  rw [show (constructed R config disk env).fresh.members = .empty from rfl,
    Keyed.get?_empty] at found
  cases found

theorem durable_properMembers : Durable AdvertisesAlike ProperMembers where
  stored f store proper := by
    intro a entry found
    have before : entry.Proper f := proper a entry found
    exact MemberEntry.Proper.congr (f := f) rfl rfl before
  bumped f proper := by
    intro a entry found
    have before : entry.Proper f := proper a entry found
    exact MemberEntry.Proper.congr (f := f) rfl rfl before
  changed f env c g proper alike change := properMembers_of_change proper alike change
  fresh _ R config disk env _ := properMembers_fresh R config disk env
  restarted _ R config disk env g report _ proper owned := by
    intro a entry found
    rw [members_restarted] at found
    obtain ⟨saved, located, rfl⟩ := Option.map_eq_some_iff.mp found
    have before := proper a saved located
    exact { before with
      federation := before.federation.trans owned
      epoch := UInt64.le_refl _ }

/-! ### The audit -/

/-- A member of the table is found with its own descriptor. -/
theorem findDescriptor_snapshotLocked (env : Environment)
    (listed : entry ∈ f.members.values) :
    (f.snapshotLocked env).findDescriptor entry.record.accelerator = some entry.descriptor := by
  have ordered : (f.members.values.map (·.descriptor)).Pairwise (·.id < ·.id) := by
    rw [List.pairwise_map]
    apply f.pairwise_members.imp
    intro a b below
    rw [a.described, b.described]
    exact below
  rw [snapshotLocked_eq, ← entry.described]
  exact Sequence.searchOn_of_mem ordered (List.mem_map.mpr ⟨entry, listed, rfl⟩)

/-- A proper member passes every check on its consistency. -/
theorem spares_consistencyChecks (env : Environment)
    (listed : entry ∈ f.members.values) (proper : entry.Proper f) (codes : List Bytes) :
    ((f.snapshotLocked env).consistencyChecks entry.record).Spares codes := by
  have epoch : (f.snapshotLocked env).epoch = f.epoch := by rw [snapshotLocked_eq]
  have federation : (f.snapshotLocked env).federation = f.id := by rw [snapshotLocked_eq]
  have current : ¬ f.epoch.value < entry.record.epoch.value := UInt64.not_lt.mpr proper.epoch
  rw [FederationSnapshot.consistencyChecks, findDescriptor_snapshotLocked env listed]
  apply spares_join
  simp only [List.forall_mem_cons]
  refine ⟨spares_check (by simp), spares_of_not ?_ _ _ _, spares_of_not ?_ _ _ _, spares_of_not ?_ _ _ _,
    spares_of_not ?_ _ _ _, spares_of_not ?_ _ _ _, spares_of_not ?_ _ _ _, spares_of_not ?_ _ _ _, by simp⟩
  · simp [proper.agent, proper.agentBoot]
  · simp [proper.deviceGeneration]
  · simp [proper.capabilityGeneration]
  · simp [proper.supportLevel, proper.provenance]
  · simp [federation, proper.federation]
  · simp [epoch, current]
  · simp [Generation.isInitial, proper.evidence]

theorem spares_uniquenessCheck (keys : List Bytes) (detail : String) :
    (uniquenessCheck keys detail).Spares consistencyCodes := by
  refine spares_of_code "identity.uniqueness" (by decide) fun v listed => ?_
  obtain ⟨key, _, rfl⟩ := List.mem_map.mp listed
  rfl

theorem spares_liveBootChecks (claimed : List (Bytes × Bytes)) (records : List MemberRecord) :
    ∀ r ∈ FederationSnapshot.liveBootChecks claimed records, r.Spares consistencyCodes := by
  induction records generalizing claimed with
  | nil => simp [FederationSnapshot.liveBootChecks]
  | cons record rest ih =>
      rw [FederationSnapshot.liveBootChecks]
      split
      · exact List.forall_mem_cons.mpr ⟨spares_check (by simp), ih claimed⟩
      · dsimp only
        split
        · exact List.forall_mem_cons.mpr ⟨spares_check (by simp), ih _⟩
        · exact List.forall_mem_cons.mpr ⟨spares_checkThat (by decide) _ _ _, ih claimed⟩

theorem spares_lifecycleChecks (record : MemberRecord) :
    (FederationSnapshot.lifecycleChecks record).Spares consistencyCodes := by
  apply spares_join
  simp only [List.forall_mem_cons]
  exact ⟨spares_checkThat (by decide) _ _ _, spares_checkThat (by decide) _ _ _,
    spares_checkThat (by decide) _ _ _, by simp⟩

theorem spares_policyChecks (s : FederationSnapshot) : s.policyChecks.Spares consistencyCodes := by
  apply spares_join
  simp only [List.forall_mem_cons]
  exact ⟨spares_checkThat (by decide) _ _ _, spares_checkThat (by decide) _ _ _, by simp⟩

theorem spares_decisionChecks (s : FederationSnapshot) (d : CompatibilityDecision) :
    (s.decisionChecks d).Spares consistencyCodes := by
  apply spares_join
  simp only [List.forall_mem_cons]
  exact ⟨spares_checkThat (by decide) _ _ _, spares_checkThat (by decide) _ _ _,
    spares_checkThat (by decide) _ _ _, spares_checkThat (by decide) _ _ _,
    spares_checkThat (by decide) _ _ _, spares_checkThat (by decide) _ _ _, by simp⟩

theorem spares_planChecks (s : FederationSnapshot) (p : MigrationPlan) :
    (s.planChecks p).Spares consistencyCodes := by
  have endpoints : (s.endpointChecks p).Spares consistencyCodes := by
    rw [FederationSnapshot.endpointChecks]
    split
    · apply spares_join
      simp only [List.forall_mem_cons]
      exact ⟨spares_check (by simp), spares_checkThat (by decide) _ _ _,
        spares_checkThat (by decide) _ _ _, spares_checkThat (by decide) _ _ _,
        spares_checkThat (by decide) _ _ _, by simp⟩
    · exact spares_checkThat (by decide) _ _ _
  apply spares_join
  simp only [List.forall_mem_cons]
  exact ⟨spares_checkThat (by decide) _ _ _, endpoints, spares_checkThat (by decide) _ _ _,
    spares_checkThat (by decide) _ _ _, spares_checkThat (by decide) _ _ _, by simp⟩

theorem spares_authorityChecks (s : FederationSnapshot) :
    s.authorityChecks.Spares consistencyCodes := by
  refine spares_of_code "migration.double_authority" (by decide) fun v listed => ?_
  obtain ⟨workload, _, rfl⟩ := List.mem_map.mp listed
  rfl

/-- A failed validation is reported under the code of its check. -/
theorem code_of_validation {result : Result Unit} {code subject : Bytes} {v : AuditViolation}
    (listed : v ∈ (check (match result with
      | .ok _ => []
      | .error status => [⟨code, subject, status.describe⟩])).violations) : v.code = code := by
  cases result with
  | ok _ => cases listed
  | error status =>
      cases List.mem_singleton.mp listed
      rfl

theorem spares_descriptorChecks (d : AcceleratorDescriptor) :
    (FederationSnapshot.descriptorChecks d).Spares consistencyCodes := by
  apply spares_join
  simp only [List.forall_mem_cons]
  refine ⟨?_, spares_checkThat (by decide) _ _ _, ?_, by simp⟩
  · refine spares_of_code "capability.invalid" (by decide) fun v listed => ?_
    exact code_of_validation listed
  · refine spares_of_code "evidence.subject" (by decide) fun v listed => ?_
    obtain ⟨e, _, rfl⟩ := List.mem_map.mp listed
    rfl

theorem spares_workloadChecks (R : Registry) (w : WorkloadProfile) :
    (FederationSnapshot.workloadChecks R w).Spares consistencyCodes := by
  refine spares_of_code "workload.invalid" (by decide) fun v listed => ?_
  exact code_of_validation listed

theorem spares_generationCheck (s : FederationSnapshot) :
    s.generationCheck.Spares consistencyCodes := by
  refine spares_of_code "generation.monotonic" (by decide) fun v listed => ?_
  obtain ⟨record, _, rfl⟩ := List.mem_map.mp listed
  rfl

/-- Only the section on consistency reports under its codes. -/
theorem spares_auditSnapshot (R : Registry) (s : FederationSnapshot)
    (consistent : ∀ record ∈ s.members, (s.consistencyChecks record).Spares consistencyCodes) :
    (auditSnapshot R s).Spares consistencyCodes := by
  have sections : (s.auditSections R).Spares consistencyCodes := by
    apply spares_join
    simp only [List.forall_mem_cons]
    refine ⟨?_, spares_join_map consistent, spares_join (spares_liveBootChecks [] s.members),
      spares_join_map fun record _ => spares_lifecycleChecks record, spares_policyChecks s,
      spares_join_map fun d _ => spares_decisionChecks s d,
      spares_join_map fun p _ => spares_planChecks s p, spares_authorityChecks s,
      spares_join_map fun d _ => spares_descriptorChecks d,
      spares_join_map fun w _ => spares_workloadChecks R w, spares_generationCheck s, by simp⟩
    apply spares_join
    simp only [List.forall_mem_cons]
    exact ⟨spares_uniquenessCheck _ _, spares_uniquenessCheck _ _, spares_uniquenessCheck _ _,
      by simp⟩
  intro v listed
  exact sections v (Sequence.mem_sortOn.mp listed)

theorem consistent_of_properMembers (proper : ProperMembers f) : Consistent f := by
  constructor
  · intro a entry found
    exact (proper a entry found).toAgrees
  · intro env
    apply spares_auditSnapshot
    intro record listed
    rw [snapshotLocked_eq] at listed
    obtain ⟨entry, inside, rfl⟩ := List.mem_map.mp listed
    have found := Keyed.mem_values.mp inside
    exact spares_consistencyChecks env inside (proper _ entry found) _

/-- In every run on a store that was empty, in which members are advertised again only by the
owner their identity was derived from, and with unchanged capabilities only at the generation
they are known with, records agree with their descriptors and the audit finds them
consistent. -/
theorem consistent_of_advertisesAlike {R : Registry} {config : FederationConfig}
    {env : Environment} {f g : Federation} (opened : openOn R config none env = .ok f)
    (run : Reaches AdvertisesAlike f g) : Consistent g :=
  consistent_of_properMembers
    (durable_properMembers.reaches opened (properMembers_fresh R config none env) run)

/-! ### The same capabilities at another generation -/

namespace Sample

/-- The first boot repeats its capabilities, counted as generation 2. -/
def recounted : AcceleratorDescriptor :=
  { first with capabilities := capabilities.setGeneration ⟨2⟩ }

/-- The descriptor is replaced, the record keeps its count, and the audit reports it. -/
theorem audit_recounted :
    (∃ entry, (observedOnce.execute (.observe recounted claim) env).state.members.get? firstId =
      some entry ∧ entry.record.capabilityGeneration ≠ entry.descriptor.capabilities.generation) ∧
    ((observedOnce.execute (.observe recounted claim) env).state.audit env).violations.map
      (·.code) = [text "membership.capability_generation"] := by
  decide +kernel

end Sample

open Sample in
/-- The first boot advertises the device twice in the same way. -/
theorem consistent_first_again :
    Consistent (observedOnce.execute (.observe first claim) env).state := by
  refine consistent_of_advertisesAlike openOn_eq (.next (e := .call (.observe first claim) env)
    (.next (e := .call (.observe first claim) env) .refl ?_ execute_first.symm) ?_ rfl)
  · intro entry found
    have absent : opened.members.get? first.id = none := by decide +kernel
    rw [absent] at found
    cases found
  · intro entry found
    have only : observedOnce.members.get? firstId =
        some ⟨opened.enrolledRecord first (env.wall .member), first, rfl⟩ := by
      show Keyed.get? (Keyed.insert _ _) firstId = _
      rw [Keyed.get?_insert]
      exact if_pos rfl
    rw [show first.id = firstId from rfl, only] at found
    cases found
    exact ⟨fun _ => ⟨rfl, rfl⟩, fun _ => rfl⟩

open Sample in
/-- A descriptor is replaced by one at another capability generation than the record. -/
theorem recounted_inconsistent : ∃ f g, openOn .core config none env = .ok f ∧
    Reaches anyEvent f g ∧ (∃ v ∈ (g.audit env).violations,
      v.code = text "membership.capability_generation") ∧ ¬ Consistent g := by
  refine ⟨opened, (observedOnce.execute (.observe recounted claim) env).state, openOn_eq,
    .next (e := .call (.observe recounted claim) env)
      (.next (e := .call (.observe first claim) env) .refl trivial execute_first.symm) trivial rfl,
    ?_, ?_⟩
  · have reported : text "membership.capability_generation" ∈
        ((observedOnce.execute (.observe recounted claim) env).state.audit env).violations.map
          (·.code) := by
      rw [audit_recounted.2]
      exact List.mem_cons_self
    exact List.mem_map.mp reported
  · intro consistent
    obtain ⟨entry, found, apart⟩ := audit_recounted.1
    exact apart (consistent.members firstId entry found).capabilityGeneration

end Haf
