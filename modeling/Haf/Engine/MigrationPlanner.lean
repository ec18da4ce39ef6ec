/-
# Migration planning

A plan is a statement about what the federation knows, not a promise that a
transfer will succeed. The planner refuses rather than guesses.
-/

import Haf.Engine.Compatibility

namespace Haf

open Sequence

structure MigrationEndpoint where
  accelerator : AcceleratorId
  deviceGeneration : DeviceGeneration
  capabilityGeneration : CapabilityGeneration
  capabilities : Option CapabilitySet
  vendor : Bytes
  provenance : EvidenceProvenance

structure MigrationRequest where
  federation : FederationId
  federationGeneration : FederationGeneration
  epoch : CoordinatorEpoch
  policyGeneration : PolicyGeneration
  policy : Option FederationPolicy
  source : MigrationEndpoint
  destination : MigrationEndpoint
  workload : Option WorkloadProfile
  workloadRevision : WorkloadRevision
  sourceDecision : CompatibilityDecisionId
  destinationDecision : CompatibilityDecisionId

/-- Map a portability class and a migration need to a plan outcome. -/
def deriveMigrationOutcome (portability : PortabilityClass) (need : MigrationNeed)
    (reconstructionAllowed destinationSupportsReconstruction checkpointSupportedBothWays
      liveTransferSupportedBothWays : Bool) : MigrationOutcome :=
  if portability = .unsupported then .unsupported
  else if portability = .unknown then .unknown
  else
    match need with
    | .liveStateTransfer =>
        if portability = .liveMigrationSupported && liveTransferSupportedBothWays then
          .moveNativeState
        else .unsupported
    | .checkpointRestore =>
        if portability = .liveMigrationSupported && liveTransferSupportedBothWays then
          .moveNativeState
        else if checkpointSupportedBothWays &&
            portability.meetsThreshold .checkpointRestoreSupported then
          .restoreCheckpoint
        else if portability.requiresBinaryTransformation && checkpointSupportedBothWays then
          .recompileThenRestore
        else if reconstructionAllowed && destinationSupportsReconstruction then .reconstruct
        else .unsupported
    | .restartOnly | .none =>
        if portability.requiresStateReconstruction then
          if reconstructionAllowed && destinationSupportsReconstruction then .reconstruct
          else .unsupported
        else if portability.requiresBinaryTransformation then .repackageAndRestart
        else .restart

namespace MigrationOutcome

/-- The concrete actions an outcome calls for. -/
def steps : MigrationOutcome → List MigrationStep
  | .moveNativeState => [
      ⟨text "validate-live-transfer",
        text "confirm both endpoints still support live state transfer",
        Cap.migrationLiveStateTransfer⟩,
      ⟨text "transfer-state", text "transfer execution state while the source stays authoritative",
        Cap.migrationLiveStateTransfer⟩]
  | .restoreCheckpoint => [
      ⟨text "export-state", text "export execution state from the source",
        Cap.migrationCheckpointRestore⟩,
      ⟨text "restore-state", text "restore the exported state on the destination",
        Cap.migrationCheckpointRestore⟩]
  | .recompileThenRestore => [
      ⟨text "recompile", text "rebuild the workload for the destination code object target",
        Cap.portabilityRecompileAvailable⟩,
      ⟨text "export-state", text "export execution state from the source",
        Cap.migrationCheckpointRestore⟩,
      ⟨text "restore-state", text "restore the exported state on the recompiled workload",
        Cap.migrationCheckpointRestore⟩]
  | .repackageAndRestart => [
      ⟨text "repackage", text "rebuild the runtime packaging for the destination",
        Cap.portabilityRepackageAvailable⟩,
      ⟨text "restart", text "start the workload fresh on the destination", []⟩]
  | .reconstruct => [
      ⟨text "reconstruct", text "rebuild workload state from inputs or durable artifacts",
        Cap.migrationStateReconstruction⟩]
  | .restart => [⟨text "restart", text "start the workload fresh on the destination", []⟩]
  | .unsupported | .unknown => []

end MigrationOutcome

/-- A reason for which a migration is refused. -/
def refusal (code : ErrorCode) (subject detail : Bytes) : CompatibilityReason :=
  { code, subject, detail, strength := .hard, observed := .unknown }

namespace MigrationRequest

/-- The classifier's view of the move. -/
def portability (request : MigrationRequest) (policy : FederationPolicy)
    (workload : WorkloadProfile) : PortabilityClass :=
  (classifyPortability {
    sourceCapabilities := request.source.capabilities
    destinationCapabilities := request.destination.capabilities
    sourceVendor := request.source.vendor
    destinationVendor := request.destination.vendor
    workload := some workload
    policyAllowsCrossVendorMigration := policy.allowCrossVendorMigration }).value

def sameVendor (request : MigrationRequest) : Bool :=
  !request.source.vendor.isEmpty && request.source.vendor == request.destination.vendor

/-- State that would have to cross a vendor boundary without consent. -/
def crossVendorRefusals (request : MigrationRequest) (policy : FederationPolicy)
    (workload : WorkloadProfile) (source destination : CapabilitySet)
    (value : PortabilityClass) : List CompatibilityReason :=
  if request.sameVendor then []
  else
    (if workload.migrationNeed = .liveStateTransfer &&
        (!(source.supports Cap.migrationCrossVendorState &&
            destination.supports Cap.migrationCrossVendorState) ||
          !policy.allowCrossVendorMigration) then
      [refusal .migrationUnsupported Cap.migrationCrossVendorState (text
        "live cross-vendor state transfer is not supported by both accelerators and permitted by policy")]
      else []) ++
    (if value.requiresStateReconstruction && !policy.allowCrossVendorReconstruction then
      [refusal .migrationUnsupported Cap.migrationStateReconstruction
        (text "cross-vendor reconstruction is not permitted by the active policy")] else [])

/-- What the class and the policy rule out. -/
def classRefusals (request : MigrationRequest) (policy : FederationPolicy)
    (value : PortabilityClass) : List CompatibilityReason :=
  (if value = .unsupported then
    [refusal .portabilityConstraintViolated (text "portability")
      (text "no portability path from source to destination")] else []) ++
  (if value = .unknown then
    [refusal .unknownCapability (text "portability")
      (text "portability from source to destination cannot be established")] else []) ++
  (if policy.syntheticEvidencePolicy = .reject && request.destination.provenance ≠ .real then
    [refusal .policyMismatch (text "policy.synthetic_evidence")
      (text "policy rejects non-REAL evidence at the migration destination")] else []) ++
  (if !policy.allowedPortabilityClasses.isEmpty && value ≠ .unknown && value ≠ .unsupported &&
      !policy.allowedPortabilityClasses.contains value then
    [refusal .portabilityConstraintViolated (text "policy.allowed_portability_classes")
      (text "portability " ++ value.toText ++ text " is not permitted by the active policy")]
    else [])

/-- The bindings of the plan, before anything is decided about it. -/
def bound (request : MigrationRequest) (policy : FederationPolicy) (workload : WorkloadProfile)
    (createdAt : Timestamp) : MigrationPlan :=
  { federation := request.federation
    federationGeneration := request.federationGeneration
    epoch := request.epoch
    source := request.source.accelerator
    sourceGeneration := request.source.deviceGeneration
    sourceCapabilityGeneration := request.source.capabilityGeneration
    destination := request.destination.accelerator
    destinationGeneration := request.destination.deviceGeneration
    destinationCapabilityGeneration := request.destination.capabilityGeneration
    workload := workload.classId
    workloadRevision := request.workloadRevision
    sourceDecision := request.sourceDecision
    destinationDecision := request.destinationDecision
    policy := policy.id
    policyGeneration := request.policyGeneration
    destinationProvenance := request.destination.provenance
    createdAt
    portability := request.portability policy workload }

/-- The outcome the evidence of both endpoints supports. -/
def outcome (workload : WorkloadProfile) (source destination : CapabilitySet)
    (value : PortabilityClass) : MigrationOutcome :=
  deriveMigrationOutcome value workload.migrationNeed workload.reconstructionAllowed
    (destination.supports Cap.migrationStateReconstruction)
    (source.supports Cap.migrationCheckpointRestore &&
      destination.supports Cap.migrationCheckpointRestore)
    (source.supports Cap.migrationLiveStateTransfer &&
      destination.supports Cap.migrationLiveStateTransfer)

/-- The cost of the transformation and of its steps. -/
def estimatedCost (value : PortabilityClass) (steps : List MigrationStep) : UInt32 :=
  (if value.transformationSteps = 255 then 1000 else value.transformationSteps.toUInt32 * 100) +
    UInt32.ofNat steps.length

/-- Decide the fate of a plan whose bindings are fixed. -/
def decided (request : MigrationRequest) (policy : FederationPolicy) (workload : WorkloadProfile)
    (source destination : CapabilitySet) (plan : MigrationPlan) : MigrationPlan :=
  let value := plan.portability
  let refusals := request.crossVendorRefusals policy workload source destination value ++
    request.classRefusals policy value
  let outcome := outcome workload source destination value
  let steps := sortOn (fun step => [step.kind, step.description]) outcome.steps
  if !refusals.isEmpty then
    { plan with
      outcome := if value = .unknown then .unknown else .unsupported
      state := .refused, refusalReasons := sortReasons refusals }
  else if outcome = .unsupported || outcome = .unknown then
    { plan with
      outcome, state := .refused
      refusalReasons := [refusal
        (if outcome = .unknown then .unknownCapability else .migrationUnsupported)
        (text "workload.migration_need")
        (text "the workload requires " ++ workload.migrationNeed.toText ++
          text " but the destination supports only " ++ value.toText)] }
  else
    { plan with outcome, steps, estimatedCost := estimatedCost value steps, state := .planned }

/-- Deciding leaves every binding of the plan as it is. -/
theorem decided_eq (request : MigrationRequest) (policy : FederationPolicy)
    (workload : WorkloadProfile) (source destination : CapabilitySet) (plan : MigrationPlan) :
    ∃ outcome state steps estimatedCost refusalReasons,
      request.decided policy workload source destination plan =
        { plan with outcome, state, steps, estimatedCost, refusalReasons } := by
  unfold decided
  dsimp only
  split
  · exact ⟨_, _, _, _, _, rfl⟩
  · split
    · exact ⟨_, _, _, _, _, rfl⟩
    · exact ⟨_, _, _, _, _, rfl⟩

end MigrationRequest

/-- Build a fully generation-bound migration plan. -/
def planMigration (request : MigrationRequest) (createdAt : Timestamp) : Result MigrationPlan := do
  let some policy := request.policy
    | .error (.failure .invalidArgument "migration planning requires a federation policy")
  let some workload := request.workload
    | .error (.failure .invalidArgument "migration planning requires a workload profile")
  let (some source, some destination) := (request.source.capabilities,
      request.destination.capabilities)
    | .error (.failure .invalidArgument
        "migration planning requires capability evidence for both endpoints")
  ensure (!request.source.accelerator.isNil && !request.destination.accelerator.isNil)
    (.failure .invalidArgument "migration planning requires both endpoint identities")
  ensure (request.source.accelerator ≠ request.destination.accelerator)
    (.failure .invalidArgument "migration planning requires two distinct accelerators")
  return (request.decided policy workload source destination
    (request.bound policy workload createdAt)).refreshIdentity

/-- The planner needs complete input and two distinct endpoints, and nothing else. -/
theorem planMigration_eq_ok {request : MigrationRequest} {createdAt : Timestamp}
    {plan : MigrationPlan} :
    planMigration request createdAt = .ok plan ↔ ∃ policy workload source destination,
      request.policy = some policy ∧ request.workload = some workload ∧
      request.source.capabilities = some source ∧
      request.destination.capabilities = some destination ∧
      request.source.accelerator ≠ .nil ∧ request.destination.accelerator ≠ .nil ∧
      request.source.accelerator ≠ request.destination.accelerator ∧
      plan = (request.decided policy workload source destination
        (request.bound policy workload createdAt)).refreshIdentity := by
  unfold planMigration
  constructor
  · intro made
    split at made
    · rename_i policy chosen
      split at made
      · rename_i workload named
        split at made
        · rename_i source destination given
          obtain ⟨left, right⟩ := Prod.mk.inj given
          simp only [bind_eq_ok, pure_eq_ok, ensure_eq_ok, Bool.and_eq_true, Bool.not_eq_true',
            StrongId.isNil_eq_false, decide_eq_true_eq] at made
          obtain ⟨_, identified, _, distinct, same⟩ := made
          exact ⟨policy, workload, source, destination, chosen, named, left, right, identified.1,
            identified.2, distinct, same.symm⟩
        · cases made
      · cases made
    · cases made
  · rintro ⟨policy, workload, source, destination, chosen, named, left, right, origin, goal,
      distinct, rfl⟩
    rw [chosen, named, left, right]
    simp only [bind_eq_ok, pure_eq_ok, ensure_eq_ok, Bool.and_eq_true, Bool.not_eq_true',
      StrongId.isNil_eq_false, decide_eq_true_eq]
    exact ⟨(), ⟨origin, goal⟩, (), distinct, trivial⟩

/-- The planner never starts a plan in a later state. -/
theorem state_planMigration {request : MigrationRequest} {createdAt : Timestamp}
    {plan : MigrationPlan} (made : planMigration request createdAt = .ok plan) :
    plan.state = .planned ∨ plan.state = .refused := by
  obtain ⟨policy, workload, source, destination, _, _, _, _, _, _, _, rfl⟩ :=
    planMigration_eq_ok.mp made
  dsimp only [MigrationPlan.refreshIdentity, MigrationRequest.decided]
  split
  · exact .inr rfl
  · split
    · exact .inr rfl
    · exact .inl rfl

end Haf
