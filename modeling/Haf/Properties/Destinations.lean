/-
# What a plan says about its destination

A plan names a class for the move and refers to the decision on its destination. The class is
the one that a query about the two members reports. The decision has the same class unless
the vendor of the destination is known but not SUPPORTED: the evaluation does not take such a
record for the vendor, the planner does. And the planner asks little of what an evaluation
asks, so that a move can be planned to a destination that is not eligible.
-/

import Haf.Net.ControlPlane
import Haf.Properties.EntryPoints
import Haf.Properties.Planning

namespace Haf

open CapabilitySet Sequence

namespace PortabilityRequest

/-! ### What the vendors decide -/

section Vendors

variable {request request' : PortabilityRequest} {source destination : CapabilitySet}

/-- Of a request beyond its evidence, the class depends on whether the vendors are the same and
on what the policy allows. -/
theorem value_congr (vendor : request.sameVendor = request'.sameVendor)
    (policy : request.policyAllowsCrossVendorMigration = request'.policyAllowsCrossVendorMigration) :
    (request.classifyKnown source destination).value =
      (request'.classifyKnown source destination).value := by
  by_cases evident : Evident source destination
  · rw [request.classifyKnown_of_evident evident, request'.classifyKnown_of_evident evident,
      strongestClass, strongestClass, crossVendorLiveAllowed, crossVendorLiveAllowed, vendor, policy]
  · rw [request.classifyKnown_of_not_evident evident, request'.classifyKnown_of_not_evident evident]

/-- Where it makes a difference whether the vendors are the same: a shared binary that would be
transferred live or be native, or checkpoints without a shared binary. -/
def VendorDecides (crossing : Bool) (source destination : CapabilitySet) : Prop :=
  Evident source destination ∧
  (source.sharesToken destination Cap.isaCodeObjectTargets = true →
    (BothSupport source destination Cap.migrationLiveStateTransfer →
      ¬ (crossing = true ∧ BothSupport source destination Cap.migrationCrossVendorState)) ∧
    (¬ BothSupport source destination Cap.migrationLiveStateTransfer →
      sameArchitecture source destination = true)) ∧
  (source.sharesToken destination Cap.isaCodeObjectTargets = false →
    BothSupport source destination Cap.migrationCheckpointRestore)

theorem value_ne_iff (same : request.sameVendor = true) (apart : request'.sameVendor = false)
    (policy : request.policyAllowsCrossVendorMigration = request'.policyAllowsCrossVendorMigration) :
    (request.classifyKnown source destination).value ≠
        (request'.classifyKnown source destination).value ↔
      VendorDecides request.policyAllowsCrossVendorMigration source destination := by
  by_cases evident : Evident source destination
  · rw [request.classifyKnown_of_evident evident, request'.classifyKnown_of_evident evident,
      strongestClass, strongestClass, crossVendorLiveAllowed, crossVendorLiveAllowed, same, apart,
      ← policy, VendorDecides]
    simp only [BothSupport, evident, true_and]
    cases source.sharesToken destination Cap.isaCodeObjectTargets with
    | true => grind
    | false => grind
  · rw [request.classifyKnown_of_not_evident evident, request'.classifyKnown_of_not_evident evident]
    exact iff_of_false (absurd rfl) fun decides => evident decides.1

end Vendors

end PortabilityRequest

/-! ### Reading the vendor -/

namespace Federation

open PortabilityRequest

/-- The vendor that a planner takes a member to have. -/
theorem vendorOf_eq {d : AcceleratorDescriptor} {value : CapabilityValue}
    (found : (d.capabilities.lookup Cap.vendorId).value = some value) :
    vendorOf d = value.render := by
  rw [vendorOf]
  simp only [found, present_of_value found, if_true]

/-- The evaluation reads the vendor of its target only from a SUPPORTED record. -/
theorem enumerationToken_vendorId (d : AcceleratorDescriptor) :
    enumerationToken d.capabilities Cap.vendorId =
      if d.capabilities.supports Cap.vendorId = true then vendorOf d else [] := by
  rw [enumerationToken, supports]
  cases found : (d.capabilities.lookup Cap.vendorId).value with
  | none => simp [vendorOf, found]
  | some value => simp [vendorOf_eq found]

/-- The vendors are the same, but the evaluation does not see it and the class depends on it. -/
structure MisreadVendor (policy : FederationPolicy) (source destination : AcceleratorDescriptor) :
    Prop where
  named : vendorOf source ≠ []
  same : vendorOf source = vendorOf destination
  unread : destination.capabilities.supports Cap.vendorId = false
  decides : VendorDecides policy.allowCrossVendorMigration source.capabilities
    destination.capabilities

/-- What the control plane reports about the way from one member to another. -/
def explainedClass (f : Federation) (a b : AcceleratorId) : Option (Result PortabilityClass) :=
  (Net.explainPortability f { kind := .portabilityExplain, accelerator := a, secondary := b }).map
    (·.map (·.value))

/-! ### A call that plans -/

section Planning

variable {f : Federation} {w : WorkloadClassId} {a b : AcceleratorId} {claim : AuthorityClaim}
  {env : Environment} {plan : MigrationPlan} {profile : WorkloadProfile}
  {source destination : MemberEntry} {there here : CompatibilityDecision}

/-- The decision on the destination is the engine's, about a move from the source. -/
theorem destinationDecision_eq (origin : f.members.get? a = some source)
    (target : f.members.get? b = some destination)
    (decided : f.evaluateLocked profile b ⟨some a⟩ false env .destinationDecision = .ok here) :
    profile.validate f.registry = .ok () ∧
      here = (assessed profile (f.evaluationContext profile destination (some source)
        (env.monotonic .destinationDecision)) f.policy destination.descriptor.capabilities
        (env.wall .destinationDecision)).refreshIdentity := by
  have known : f.sourceEntry ⟨some a⟩ false = .ok (some source) := by
    rw [sourceEntry]
    simp only [origin]
  rw [evaluateLocked_of_member target false known] at decided
  obtain ⟨valid, _, _, governed, given, _, _, same⟩ := evaluateCompatibility_eq_ok.mp decided
  cases governed
  cases given
  exact ⟨valid, same⟩

/-- The class of a plan is that of the decision unless the vendor is misread. -/
theorem class_eq_iff :
    (((f.bumped.migrationRequest profile a b source destination there here).view f.policy
        profile).classifyKnown source.descriptor.capabilities
          destination.descriptor.capabilities).value =
        classFrom profile f.policy destination.descriptor.capabilities (evaluationSource source) ↔
      ¬ MisreadVendor f.policy source.descriptor destination.descriptor := by
  let asked := portabilityRequest profile f.policy destination.descriptor.capabilities
    (evaluationSource source)
  let view := (f.bumped.migrationRequest profile a b source destination there here).view f.policy
    profile
  have seen : asked.sameVendor = true ↔ vendorOf source.descriptor ≠ [] ∧
      vendorOf source.descriptor =
        if destination.descriptor.capabilities.supports Cap.vendorId = true then
          vendorOf destination.descriptor else [] := by
    rw [sameVendor_iff, ← enumerationToken_vendorId]
    rfl
  have common : view.sameVendor = true ↔ vendorOf source.descriptor ≠ [] ∧
      vendorOf source.descriptor = vendorOf destination.descriptor := sameVendor_iff
  show (view.classifyKnown _ _).value = (asked.classifyKnown _ _).value ↔ _
  by_cases misread : view.sameVendor = true ∧ asked.sameVendor = false
  · obtain ⟨same, apart⟩ := misread
    rw [← not_iff_not, not_not]
    refine (value_ne_iff same apart rfl).trans ⟨fun decides => ?_, fun misread => misread.decides⟩
    obtain ⟨named, equal⟩ := common.mp same
    refine ⟨named, equal, ?_, decides⟩
    by_contra read
    rw [Bool.not_eq_false] at read
    rw [seen.mpr ⟨named, by rw [if_pos read, equal]⟩] at apart
    cases apart
  · refine iff_of_true (value_congr ?_ rfl) fun vendor => misread ⟨?_, ?_⟩
    · rw [Bool.eq_iff_iff]
      refine ⟨fun same => ?_, fun same => ?_⟩
      · by_contra apart
        exact misread ⟨same, Bool.not_eq_true _ ▸ apart⟩
      · obtain ⟨named, equal⟩ := seen.mp same
        refine common.mpr ⟨named, ?_⟩
        split at equal
        · exact equal
        · exact absurd equal named
    · exact common.mpr ⟨vendor.named, vendor.same⟩
    · rw [← Bool.not_eq_true]
      intro same
      have equal := (seen.mp same).2
      rw [vendor.unread] at equal
      exact vendor.named equal

section Returned

variable (registered : f.workloads.get? w = some profile) (origin : f.members.get? a = some source)
  (target : f.members.get? b = some destination)
  (returned : (f.planMigration w a b claim env).result = .ok plan)
include registered origin target returned

/-- What a call that returned a plan had decided, and what it handed to the planner. -/
theorem of_planMigration : ∃ there here,
    f.evaluateLocked profile b ⟨some a⟩ false env .destinationDecision = .ok here ∧
      Haf.planMigration (f.bumped.migrationRequest profile a b source destination there here)
        (env.wall .plan) = .ok plan := by
  obtain ⟨profile', source', destination', there, here, registered', origin', target', _, decided,
    made, _⟩ := exists_of_planMigration returned
  cases Option.some.inj (registered.symm.trans registered')
  cases Option.some.inj (origin.symm.trans origin')
  cases Option.some.inj (target.symm.trans target')
  exact ⟨there, here, decided, made⟩

end Returned

end Planning

end Federation

open Federation in
/-- **One class for a move** is what a plan, the decision that it refers to and a query have
exactly if the vendor of the destination is not misread. -/
theorem one_class_iff {f : Federation} {w : WorkloadClassId} {a b : AcceleratorId}
    {claim : AuthorityClaim} {env : Environment} {plan : MigrationPlan}
    {profile : WorkloadProfile} {source destination : MemberEntry}
    (registered : f.workloads.get? w = some profile) (origin : f.members.get? a = some source)
    (target : f.members.get? b = some destination)
    (returned : (f.planMigration w a b claim env).result = .ok plan) :
    ∃ d, f.evaluateLocked profile b ⟨some a⟩ false env .destinationDecision = .ok d ∧
      plan.destinationDecision = d.id ∧
      (plan.portability = d.portability ∧ f.explainedClass a b = some (.ok plan.portability) ↔
        ¬ MisreadVendor f.policy source.descriptor destination.descriptor) := by
  obtain ⟨there, here, decided, made⟩ := of_planMigration registered origin target returned
  obtain ⟨value, _, bound⟩ := MigrationRequest.bindings_of_planMigration rfl rfl rfl rfl made
  obtain ⟨_, _, _, _, _, _, _, _, named, named', _⟩ := planMigration_eq_ok.mp made
  have decision : here.portability =
      classFrom profile f.policy destination.descriptor.capabilities (evaluationSource source) := by
    rw [(destinationDecision_eq origin target decided).2]
    rfl
  have reported : f.explainedClass a b = some (.ok plan.portability) := by
    have identified : ¬ (a.isNil || b.isNil) = true := by
      rw [(StrongId.isNil_eq_false a).mpr named, (StrongId.isNil_eq_false b).mpr named']
      decide
    rw [explainedClass, Net.explainPortability, if_neg identified,
      memberEntry_eq_ok.mpr origin, memberEntry_eq_ok.mpr target, value]
    exact congrArg (fun c => some (Except.ok c)) (PortabilityRequest.value_congr rfl rfl)
  refine ⟨here, decided, bound, ?_⟩
  rw [and_iff_left reported, value, decision]
  exact class_eq_iff

namespace Sample

/-- The vendor is named, but with DEGRADED support. -/
def dimRecords : List CapabilityRecord := records.map fun r =>
  if r.key.name = Cap.vendorId then { r with state := .degraded } else r

def dim : CapabilitySet :=
  { id := capabilitySetIdentity dimRecords []
    generation := ⟨1⟩
    records := dimRecords
    records_canonical := by decide +kernel
    identified := .inl rfl }

/-- A workload is registered, and the second boot advertises the device with the dim vendor. -/
def dimmed : Federation := opened.after [
  (.observe first claim, env), (.observe { second with capabilities := dim } claim, env),
  (.registerWorkload workload claim, env)]

/-- The decision on the second member as the destination of a move from the first. -/
def destinationDecision (f : Federation) : Result CompatibilityDecision :=
  f.registeredWorkload (ident 20) >>= fun profile =>
    f.evaluateLocked profile secondId ⟨some firstId⟩ false env .destinationDecision

/-- A move from the first member to the second. -/
def movePlan (f : Federation) : Result MigrationPlan :=
  (f.planMigration (ident 20) firstId secondId claim env).result

/-- Both members and the workload are known, and the move can be planned. -/
def Ready (f : Federation) : Prop :=
  (f.workloads.get? (ident 20)).isSome = true ∧ (f.members.get? firstId).isSome = true ∧
    (f.members.get? secondId).isSome = true ∧ (movePlan f).isOk = true

instance : DecidablePred Ready := fun _ => inferInstanceAs (Decidable (_ ∧ _ ∧ _ ∧ _))

theorem dimmed_classes : Ready dimmed ∧ (movePlan dimmed).map (·.portability) = .ok .native ∧
    (destinationDecision dimmed).map (·.portability) = .ok .binaryCompatible := by
  decide +kernel

/-- The move can be planned, with what is read on the way. -/
theorem exists_move {f : Federation} (ready : Ready f) :
    ∃ profile source destination plan, f.workloads.get? (ident 20) = some profile ∧
      f.members.get? firstId = some source ∧ f.members.get? secondId = some destination ∧
      movePlan f = .ok plan := by
  obtain ⟨profile, registered⟩ := Option.isSome_iff_exists.mp ready.1
  obtain ⟨source, origin⟩ := Option.isSome_iff_exists.mp ready.2.1
  obtain ⟨destination, target⟩ := Option.isSome_iff_exists.mp ready.2.2.1
  obtain ⟨plan, returned⟩ := exists_of_isOk ready.2.2.2
  exact ⟨profile, source, destination, plan, registered, origin, target, returned⟩

/-- The plan refers to the decision. -/
theorem exists_referenced {f : Federation} (ready : Ready f) :
    ∃ plan d, movePlan f = .ok plan ∧ destinationDecision f = .ok d ∧
      plan.destinationDecision = d.id := by
  obtain ⟨profile, source, destination, plan, registered, origin, target, returned⟩ :=
    exists_move ready
  obtain ⟨there, here, decided, made⟩ :=
    Federation.of_planMigration registered origin target returned
  have bound := (MigrationRequest.bindings_of_planMigration rfl rfl rfl rfl made).2.2
  refine ⟨plan, here, returned, ?_, bound⟩
  rw [destinationDecision, Federation.registeredWorkload_eq_ok.mpr registered]
  exact decided

end Sample

open Sample in
/-- The plan says that code runs natively at a device of the same vendor; the decision that it
refers to takes the vendor for another one. -/
theorem vendor_misread : ∃ plan d, movePlan dimmed = .ok plan ∧
    destinationDecision dimmed = .ok d ∧ plan.destinationDecision = d.id ∧
    plan.portability = .native ∧ d.portability = .binaryCompatible := by
  obtain ⟨ready, planned, settled⟩ := dimmed_classes
  obtain ⟨plan, d, returned, decided, bound⟩ := exists_referenced ready
  rw [returned] at planned
  rw [decided] at settled
  exact ⟨plan, d, returned, decided, bound, Except.ok.inj planned, Except.ok.inj settled⟩

open Sample in
theorem one_class_dimmed : ∃ profile source destination plan,
    dimmed.members.get? firstId = some source ∧
    dimmed.members.get? secondId = some destination ∧ movePlan dimmed = .ok plan ∧
    ∃ d, dimmed.evaluateLocked profile secondId ⟨some firstId⟩ false env .destinationDecision =
        .ok d ∧
      plan.destinationDecision = d.id ∧
      (plan.portability = d.portability ∧
          dimmed.explainedClass firstId secondId = some (.ok plan.portability) ↔
        ¬ Federation.MisreadVendor dimmed.policy source.descriptor destination.descriptor) := by
  obtain ⟨profile, source, destination, plan, registered, origin, target, returned⟩ :=
    exists_move dimmed_classes.1
  exact ⟨profile, source, destination, plan, origin, target, returned,
    one_class_iff registered origin target returned⟩

/-! ### Destinations that are not eligible -/

namespace Federation

/-- What an evaluation of the destination asks and the planner does not. -/
structure Unasked (profile : WorkloadProfile) (policy : FederationPolicy)
    (target : EvaluationTarget) (capabilities : CapabilitySet) (source : EvaluationSource) :
    Prop where
  requirements : ∀ q ∈ profile.requirements, q.Clears true (capabilities.lookup q.capability)
    target.evidenceFresh policy.allowDegradedCapabilities
  /-- Every check of the policy but that of the provenance. -/
  checked : Checked true profile { policy with syntheticEvidencePolicy := .allow } target
    capabilities
  /-- Of the provenance, the planner asks whether it may be synthetic. -/
  synthetic : policy.syntheticEvidencePolicy = .require → target.provenance = .synthetic
  membership : target.acceptsNewWork = true
  /-- The class of the move is one that the workload and the policy take, if it is known. -/
  portability : Portable false profile policy (classFrom profile policy capabilities source)

/-- The checks of a policy, with that of the provenance apart. -/
theorem checked_iff {strict : Bool} {w : WorkloadProfile} {policy : FederationPolicy}
    {target : EvaluationTarget} {capabilities : CapabilitySet} :
    Checked strict w policy target capabilities ↔
      Checked strict w { policy with syntheticEvidencePolicy := .allow } target capabilities ∧
        (policy.syntheticEvidencePolicy = .reject → target.provenance = .real) ∧
        (policy.syntheticEvidencePolicy = .require → target.provenance = .synthetic) := by
  constructor
  · intro c
    exact ⟨⟨c.accelerator, c.forbidden, c.allowed, c.architecture, c.runtime, c.memory, c.required,
      c.denied, c.tags, nofun, nofun⟩, c.provenance⟩
  · rintro ⟨c, provenance⟩
    exact ⟨c.accelerator, c.forbidden, c.allowed, c.architecture, c.runtime, c.memory, c.required,
      c.denied, c.tags, provenance⟩

end Federation

open Federation in
/-- The decision that a plan refers to is ELIGIBLE exactly if the destination passes what the
planner does not ask. -/
theorem eligible_destination_iff {f : Federation} {w : WorkloadClassId} {a b : AcceleratorId}
    {claim : AuthorityClaim} {env : Environment} {plan : MigrationPlan}
    {profile : WorkloadProfile} {source destination : MemberEntry}
    (registered : f.workloads.get? w = some profile) (origin : f.members.get? a = some source)
    (target : f.members.get? b = some destination)
    (returned : (f.planMigration w a b claim env).result = .ok plan)
    (planned : plan.state = .planned) :
    ∃ d, f.evaluateLocked profile b ⟨some a⟩ false env .destinationDecision = .ok d ∧
      plan.destinationDecision = d.id ∧
      (d.outcome = .eligible ↔ Unasked profile f.policy
        (f.evaluationTarget destination (env.monotonic .destinationDecision))
        destination.descriptor.capabilities (evaluationSource source)) := by
  obtain ⟨there, here, decided, made⟩ := of_planMigration registered origin target returned
  have bound := (MigrationRequest.bindings_of_planMigration rfl rfl rfl rfl made).2.2
  have rests := MigrationRequest.planned_of_planMigration rfl rfl rfl rfl made planned
  obtain ⟨valid, same⟩ := destinationDecision_eq origin target decided
  refine ⟨here, decided, bound, ?_⟩
  rw [same, eligible_iff_clears valid]
  constructor
  · intro clears
    obtain ⟨checked, _, synthetic⟩ := checked_iff.mp clears.checked
    have portable := clears.portability _ rfl
    exact ⟨clears.requirements, checked, synthetic, clears.membership,
      { portable with established := nofun }⟩
  · intro unasked
    refine ⟨unasked.requirements, checked_iff.mpr ⟨unasked.checked, rests.real, unasked.synthetic⟩,
      unasked.membership, ?_⟩
    rintro _ ⟨⟩
    have known : classFrom profile f.policy destination.descriptor.capabilities
        (evaluationSource source) ≠ .unknown :=
      (portabilityRequest profile f.policy destination.descriptor.capabilities
        (evaluationSource source)).classifyKnown_ne_unknown.mpr rests.evident
    exact { unasked.portability with established := fun _ => known }

namespace Sample

theorem registered_outcomes : Ready registered ∧
    (movePlan registered).map (·.state) = .ok .planned ∧
    (destinationDecision registered).map (·.outcome) = .ok .ineligible := by
  decide +kernel

end Sample

open Sample in
/-- A move is planned to a member that does not take new work yet. -/
theorem planned_to_ineligible : ∃ plan d, movePlan registered = .ok plan ∧
    destinationDecision registered = .ok d ∧ plan.destinationDecision = d.id ∧
    plan.state = .planned ∧ d.outcome = .ineligible := by
  obtain ⟨ready, planned, settled⟩ := registered_outcomes
  obtain ⟨plan, d, returned, decided, bound⟩ := exists_referenced ready
  rw [returned] at planned
  rw [decided] at settled
  exact ⟨plan, d, returned, decided, bound, Except.ok.inj planned, Except.ok.inj settled⟩

open Sample in
theorem eligible_destination_registered : ∃ profile source destination plan,
    registered.members.get? firstId = some source ∧
    registered.members.get? secondId = some destination ∧ movePlan registered = .ok plan ∧
    ∃ d, registered.evaluateLocked profile secondId ⟨some firstId⟩ false env
        .destinationDecision = .ok d ∧
      plan.destinationDecision = d.id ∧
      (d.outcome = .eligible ↔ Federation.Unasked profile registered.policy
        (registered.evaluationTarget destination (env.monotonic .destinationDecision))
        destination.descriptor.capabilities (Federation.evaluationSource source)) := by
  obtain ⟨profile, source, destination, plan, known, origin, target, returned⟩ :=
    exists_move registered_outcomes.1
  have planned := registered_outcomes.2.1
  rw [returned] at planned
  exact ⟨profile, source, destination, plan, origin, target, returned,
    eligible_destination_iff known origin target returned (Except.ok.inj planned)⟩

end Haf
