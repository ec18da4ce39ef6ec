/-
# Plans that are not refused

The planner refuses by class and need before it derives an outcome from flags of its own, and
turns the outcome into steps that it sorts by name. What a planned outcome rests on is
collected once; from it follows which plans move state across vendors without consent, and
which plans list a step that the destination does not support or that comes too early.
A live transfer always does: its validation is sorted after the transfer.
-/

import Haf.Properties.Commit
import Haf.Properties.Portability

namespace Haf

open Sequence CapabilitySet PortabilityRequest

/-! ### Outcomes -/

/-- The ways in which an outcome is derived that is not a refusal. -/
inductive Route (need : MigrationNeed) (value : PortabilityClass) (checkpoint reconstructs : Prop) :
    MigrationOutcome → Prop
  | move (stateful : need = .liveStateTransfer ∨ need = .checkpointRestore)
      (live : value = .liveMigrationSupported) :
      Route need value checkpoint reconstructs .moveNativeState
  | restore (stateful : need = .checkpointRestore) (idle : value ≠ .liveMigrationSupported)
      (able : checkpoint) (direct : value.meetsThreshold .checkpointRestoreSupported = true) :
      Route need value checkpoint reconstructs .restoreCheckpoint
  | rebuild (stateful : need = .checkpointRestore) (able : checkpoint)
      (indirect : value.requiresBinaryTransformation = true) :
      Route need value checkpoint reconstructs .recompileThenRestore
  | giveUp (stateful : need = .checkpointRestore) (idle : value ≠ .liveMigrationSupported)
      (unable : ¬ checkpoint) (able : reconstructs) :
      Route need value checkpoint reconstructs .reconstruct
  | reconstruct (stateless : need = .none ∨ need = .restartOnly)
      (lost : value.requiresStateReconstruction = true) (able : reconstructs) :
      Route need value checkpoint reconstructs .reconstruct
  | repackage (stateless : need = .none ∨ need = .restartOnly)
      (kept : value.requiresStateReconstruction = false)
      (indirect : value.requiresBinaryTransformation = true) :
      Route need value checkpoint reconstructs .repackageAndRestart
  | restart (stateless : need = .none ∨ need = .restartOnly)
      (direct : value.requiresBinaryTransformation = false) :
      Route need value checkpoint reconstructs .restart

theorem ne_of_stateless {need : MigrationNeed} (stateless : need = .none ∨ need = .restartOnly) :
    need ≠ .checkpointRestore ∧ need ≠ .liveStateTransfer := by
  rcases stateless with rfl | rfl <;> decide

/-- A class that is not a refusal either carries a checkpoint over as it is or calls for another
binary. -/
theorem direct_or_indirect {value : PortabilityClass} (possible : value ≠ .unsupported)
    (established : value ≠ .unknown) :
    value.meetsThreshold .checkpointRestoreSupported = true ∨
      value.requiresBinaryTransformation = true := by
  cases value
  case unsupported => exact absurd rfl possible
  case unknown => exact absurd rfl established
  all_goals decide

theorem direct_of_meetsThreshold {value : PortabilityClass}
    (direct : value.meetsThreshold .checkpointRestoreSupported = true) :
    value.requiresBinaryTransformation = false := by
  cases value
  case recompileRequired | repackageRequired | repackageAndRestartRequired
    | stateReconstructionRequired => cases direct
  all_goals rfl

/-- Every outcome that is not a refusal is derived in one of these ways. -/
theorem route_of_outcome {value : PortabilityClass} {need : MigrationNeed}
    {allowed reconstructs checkpoint live : Bool}
    (justified : value = .liveMigrationSupported → live = true)
    (possible : value ≠ .unsupported) (established : value ≠ .unknown)
    (supported :
      deriveMigrationOutcome value need allowed reconstructs checkpoint live ≠ .unsupported) :
    Route need value (checkpoint = true) (reconstructs = true)
      (deriveMigrationOutcome value need allowed reconstructs checkpoint live) := by
  unfold deriveMigrationOutcome at supported ⊢
  rw [if_neg possible, if_neg established] at supported ⊢
  cases need with
  | liveStateTransfer =>
      dsimp only at supported ⊢
      split_ifs at supported ⊢ with transferable
      · exact .move (.inl rfl) (of_decide_eq_true (Bool.and_eq_true _ _ ▸ transferable).1)
      · exact absurd rfl supported
  | checkpointRestore =>
      dsimp only at supported ⊢
      split_ifs at supported ⊢ with transferable direct indirect lost
      · exact .move (.inr rfl) (of_decide_eq_true (Bool.and_eq_true _ _ ▸ transferable).1)
      all_goals
        have idle : value ≠ .liveMigrationSupported := by
          intro same
          simp [same, justified same] at transferable
      · obtain ⟨able, meets⟩ := Bool.and_eq_true _ _ ▸ direct
        exact .restore rfl idle able meets
      · obtain ⟨transforms, able⟩ := Bool.and_eq_true _ _ ▸ indirect
        exact .rebuild rfl able transforms
      · refine .giveUp rfl idle (fun able => ?_) (Bool.and_eq_true _ _ ▸ lost).2
        rcases direct_or_indirect possible established with meets | transforms
        · simp [able, meets] at direct
        · simp [able, transforms] at indirect
      · exact absurd rfl supported
  | restartOnly | none =>
      dsimp only at supported ⊢
      split_ifs at supported ⊢ with lost able indirect
      · exact .reconstruct (by simp) lost (Bool.and_eq_true _ _ ▸ able).2
      · exact absurd rfl supported
      · exact .repackage (by simp) (Bool.not_eq_true _ ▸ lost) indirect
      · exact .restart (by simp) (Bool.not_eq_true _ ▸ indirect)

namespace MigrationRequest

/-! ### Planned requests -/

/-- What the classifier is asked about a move. -/
def view (request : MigrationRequest) (policy : FederationPolicy) (workload : WorkloadProfile) :
    PortabilityRequest :=
  { sourceCapabilities := request.source.capabilities
    destinationCapabilities := request.destination.capabilities
    sourceVendor := request.source.vendor
    destinationVendor := request.destination.vendor
    workload := some workload
    policyAllowsCrossVendorMigration := policy.allowCrossVendorMigration }

/-- What a plan that is not refused rests on. -/
structure Planned (request : MigrationRequest) (policy : FederationPolicy)
    (workload : WorkloadProfile) (source destination : CapabilitySet) (plan : MigrationPlan) :
    Prop where
  evident : Evident source destination
  justified : (request.view policy workload).Justifies source destination plan.portability
  strongest : ∀ c, (request.view policy workload).Justifies source destination c →
    c.strength ≤ plan.portability.strength
  possible : plan.portability ≠ .unsupported
  real : policy.syntheticEvidencePolicy = .reject → request.destination.provenance = .real
  consented : request.sameVendor = false → plan.portability.requiresStateReconstruction = true →
    policy.allowCrossVendorReconstruction = true
  route : Route workload.migrationNeed plan.portability
    (BothSupport source destination Cap.migrationCheckpointRestore)
    (destination.supports Cap.migrationStateReconstruction = true) plan.outcome
  steps : plan.steps = sortOn (fun step => [step.kind, step.description]) plan.outcome.steps

section Planned

variable {request : MigrationRequest} {policy : FederationPolicy} {workload : WorkloadProfile}
  {source destination : CapabilitySet} {plan : MigrationPlan} {createdAt : Timestamp}

/-- A plan is settled as planned without refusals and with an outcome. -/
theorem of_decided {value : PortabilityClass} (classified : plan.portability = value)
    (planned : (request.decided policy workload source destination plan).state = .planned) :
    request.crossVendorRefusals policy workload source destination value = [] ∧
      request.classRefusals policy value = [] ∧
      outcome workload source destination value ≠ .unsupported ∧
      (request.decided policy workload source destination plan).outcome =
        outcome workload source destination value ∧
      (request.decided policy workload source destination plan).steps =
        sortOn (fun step => [step.kind, step.description])
          (outcome workload source destination value).steps := by
  unfold decided at planned ⊢
  dsimp only at planned ⊢
  rw [classified] at planned ⊢
  split at planned
  next => cases planned
  next clear =>
    rw [if_neg clear]
    split at planned
    next => cases planned
    next derived =>
      rw [if_neg derived]
      obtain ⟨crossing, barred⟩ : _ ∧ _ := by simpa using clear
      obtain ⟨supported, -⟩ : _ ∧ _ := by simpa using derived
      exact ⟨crossing, barred, supported, rfl, rfl⟩

section Made

variable (governed : request.policy = some policy) (assigned : request.workload = some workload)
  (origin : request.source.capabilities = some source)
  (target : request.destination.capabilities = some destination)
  (made : planMigration request createdAt = .ok plan)
include governed assigned origin target made

theorem eq_of_planMigration : plan = (request.decided policy workload source destination
    (request.bound policy workload createdAt)).refreshIdentity := by
  obtain ⟨_, _, _, _, governed', assigned', origin', target', _, _, _, rfl⟩ :=
    planMigration_eq_ok.mp made
  cases Option.some.inj (governed.symm.trans governed')
  cases Option.some.inj (assigned.symm.trans assigned')
  cases Option.some.inj (origin.symm.trans origin')
  cases Option.some.inj (target.symm.trans target')
  rfl

/-- What a plan is bound to, planned or refused. -/
theorem bindings_of_planMigration :
    plan.portability = ((request.view policy workload).classifyKnown source destination).value ∧
      plan.sourceDecision = request.sourceDecision ∧
      plan.destinationDecision = request.destinationDecision := by
  obtain ⟨_, _, _, _, _, same⟩ := request.decided_eq policy workload source destination
    (request.bound policy workload createdAt)
  rw [eq_of_planMigration governed assigned origin target made, same]
  refine ⟨?_, rfl, rfl⟩
  show request.portability policy workload = _
  rw [portability, classifyPortability, origin, target]
  rfl

theorem planned_of_planMigration (planned : plan.state = .planned) :
    request.Planned policy workload source destination plan := by
  have kept := (bindings_of_planMigration governed assigned origin target made).1
  have settled := eq_of_planMigration governed assigned origin target made
  have classified : (request.bound policy workload createdAt).portability =
      ((request.view policy workload).classifyKnown source destination).value := by
    show request.portability policy workload = _
    rw [portability, classifyPortability, origin, target]
    rfl
  rw [settled] at planned
  obtain ⟨crossing, barred, supported, derived, listed⟩ := of_decided classified planned
  have established : ((request.view policy workload).classifyKnown source destination).value ≠
      .unknown := by
    intro same
    simp [classRefusals, same] at barred
  have evident : Evident source destination :=
    (request.view policy workload).classifyKnown_ne_unknown.mp established
  obtain ⟨justified, strongest⟩ := (request.view policy workload).classifyKnown_spec evident
  rw [← kept] at crossing barred supported derived listed established justified strongest
  have possible : plan.portability ≠ .unsupported := by
    intro same
    simp [classRefusals, same] at barred
  have outcome_eq : plan.outcome = outcome workload source destination plan.portability := by
    rw [← derived, settled]
    rfl
  refine ⟨evident, justified, strongest, possible, ?_, ?_, ?_, ?_⟩
  · intro rejected
    by_contra other
    simp [classRefusals, rejected, other] at barred
  · intro foreign lost
    by_contra denied
    simp [crossVendorRefusals, foreign, lost, denied] at crossing
  · have live : plan.portability = .liveMigrationSupported →
        (source.supports Cap.migrationLiveStateTransfer &&
          destination.supports Cap.migrationLiveStateTransfer) = true := by
      intro same
      rw [same] at justified
      exact Bool.and_eq_true _ _ ▸ justified.2.1
    have route := route_of_outcome live possible established supported
    rw [Bool.and_eq_true] at route
    rw [outcome_eq]
    exact route
  · rw [outcome_eq, ← listed, settled]
    rfl

end Made

namespace Planned

/-- Nothing stronger than the class of the plan is justified. -/
theorem not_justifies (rests : request.Planned policy workload source destination plan)
    {c : PortabilityClass} (weaker : ¬ c.strength ≤ plan.portability.strength) :
    ¬ (request.view policy workload).Justifies source destination c :=
  fun justified => weaker (rests.strongest c justified)

/-- Live migration is the strongest class. -/
theorem not_live (rests : request.Planned policy workload source destination plan)
    (idle : plan.portability ≠ .liveMigrationSupported) :
    ¬ (request.view policy workload).Justifies source destination .liveMigrationSupported := by
  apply rests.not_justifies
  generalize plan.portability = value at idle
  cases value
  case liveMigrationSupported => exact absurd rfl idle
  all_goals decide

/-- A class that calls for another binary is weaker than those that do not. -/
theorem of_indirect (rests : request.Planned policy workload source destination plan)
    (indirect : plan.portability.requiresBinaryTransformation = true) :
    source.sharesToken destination Cap.isaCodeObjectTargets = false ∧
      ¬ (request.sameVendor = true ∧
        BothSupport source destination Cap.migrationCheckpointRestore) := by
  have weak : ¬ PortabilityClass.checkpointRestoreSupported.strength ≤
      plan.portability.strength := by
    generalize plan.portability = value at indirect
    cases value
    case recompileRequired | repackageRequired | repackageAndRestartRequired
      | stateReconstructionRequired => decide
    all_goals cases indirect
  have weaker : ¬ PortabilityClass.binaryCompatible.strength ≤ plan.portability.strength :=
    fun reached => weak (le_trans (by decide) reached)
  exact ⟨Bool.eq_false_iff.mpr (rests.not_justifies weaker), rests.not_justifies weak⟩

/-- A class that does not call for another binary shares one or carries checkpoints over. -/
theorem of_direct (rests : request.Planned policy workload source destination plan)
    (direct : plan.portability.requiresBinaryTransformation = false) :
    source.sharesToken destination Cap.isaCodeObjectTargets = true ∨
      request.sameVendor = true ∧
        BothSupport source destination Cap.migrationCheckpointRestore := by
  have justified := rests.justified
  have possible := rests.possible
  generalize plan.portability = value at justified direct possible
  cases value
  case liveMigrationSupported => exact .inl justified.1
  case native => exact .inl justified.1
  case binaryCompatible => exact .inl justified
  case checkpointRestoreSupported => exact .inr justified
  case unsupported => exact absurd rfl possible
  case unknown => exact justified.elim
  all_goals cases direct

end Planned

end Planned

/-! ### State that crosses vendors -/

/-- State crosses vendors only with support and consent. -/
def CrossesOpenly (policy : FederationPolicy) (source destination : CapabilitySet)
    (plan : MigrationPlan) : Prop :=
  (plan.outcome = .moveNativeState ∨ plan.outcome = .restoreCheckpoint ∨
      plan.outcome = .recompileThenRestore →
    BothSupport source destination Cap.migrationCrossVendorState ∧
      policy.allowCrossVendorMigration = true) ∧
  (plan.outcome = .reconstruct → policy.allowCrossVendorReconstruction = true)

/-- What the planner does not ask before it carries a checkpoint to another vendor. -/
def CheckpointConsented (request : MigrationRequest) (policy : FederationPolicy)
    (workload : WorkloadProfile) (source destination : CapabilitySet) : Prop :=
  (BothSupport source destination Cap.migrationCheckpointRestore →
    BothSupport source destination Cap.migrationCrossVendorState ∧
      policy.allowCrossVendorMigration = true) ∧
  (¬ BothSupport source destination Cap.migrationCheckpointRestore →
    (request.view policy workload).Justifies source destination .liveMigrationSupported ∨
      policy.allowCrossVendorReconstruction = true)

end MigrationRequest

open MigrationRequest in
/-- A planned move between vendors crosses them openly exactly if a workload that needs its
checkpoint restored has the support and consent that only a live transfer is asked for. -/
theorem crossesOpenly_iff {request : MigrationRequest} {policy : FederationPolicy}
    {workload : WorkloadProfile} {source destination : CapabilitySet} {plan : MigrationPlan}
    {createdAt : Timestamp} (governed : request.policy = some policy)
    (assigned : request.workload = some workload)
    (origin : request.source.capabilities = some source)
    (target : request.destination.capabilities = some destination)
    (foreign : request.source.vendor ≠ request.destination.vendor ∨ request.source.vendor = [])
    (made : planMigration request createdAt = .ok plan) (planned : plan.state = .planned) :
    CrossesOpenly policy source destination plan ↔
      (workload.migrationNeed = .checkpointRestore →
        request.CheckpointConsented policy workload source destination) := by
  have rests := planned_of_planMigration governed assigned origin target made planned
  have apart : request.sameVendor = false := by
    rw [← Bool.not_eq_true]
    intro same
    have same : (request.view policy workload).sameVendor = true := same
    obtain ⟨named, equal⟩ := sameVendor_iff.mp same
    exact foreign.elim (absurd equal) named
  have route := rests.route
  rw [CrossesOpenly]
  generalize plan.outcome = outcome at route
  cases route with
  | move stateful live =>
      have justified := rests.justified
      rw [live] at justified
      obtain ⟨consent, crossing⟩ := justified.2.2.resolve_left (Bool.eq_false_iff.mp apart)
      refine iff_of_true ⟨fun _ => ⟨crossing, consent⟩, nofun⟩ fun _ => ?_
      exact ⟨fun _ => ⟨crossing, consent⟩, fun _ => .inl justified⟩
  | restore stateful idle able direct =>
      constructor
      · intro openly _
        exact ⟨fun _ => openly.1 (.inr (.inl rfl)), fun unable => absurd able unable⟩
      · intro consented
        exact ⟨fun _ => (consented stateful).1 able, nofun⟩
  | rebuild stateful able indirect =>
      constructor
      · intro openly _
        exact ⟨fun _ => openly.1 (.inr (.inr rfl)), fun unable => absurd able unable⟩
      · intro consented
        exact ⟨fun _ => (consented stateful).1 able, nofun⟩
  | giveUp stateful idle unable able =>
      constructor
      · intro openly _
        exact ⟨fun able => absurd able unable, fun _ => .inr (openly.2 rfl)⟩
      · intro consented
        refine ⟨fun moved => by simp at moved, fun _ => ?_⟩
        exact ((consented stateful).2 unable).resolve_left (rests.not_live idle)
  | reconstruct stateless lost able =>
      refine iff_of_true ⟨fun moved => by simp at moved, fun _ => rests.consented apart lost⟩ ?_
      exact fun stateful => absurd stateful (ne_of_stateless stateless).1
  | repackage stateless kept indirect =>
      refine iff_of_true ⟨fun moved => by simp at moved, nofun⟩ ?_
      exact fun stateful => absurd stateful (ne_of_stateless stateless).1
  | restart stateless direct =>
      refine iff_of_true ⟨fun moved => by simp at moved, nofun⟩ ?_
      exact fun stateful => absurd stateful (ne_of_stateless stateless).1

namespace Sample

/-- What is known about a device of a vendor that has one more ability. -/
def ableRecords (vendor : Bytes) (ability : CapabilityRecord) : List CapabilityRecord :=
  sortOn (·.key.name) (ability :: records.map fun r =>
    if r.key.name = Cap.vendorId then { r with value := .enumeration vendor } else r)

/-- A device that saves and restores checkpoints. -/
def checkpointing : CapabilitySet :=
  { id := capabilitySetIdentity (ableRecords (text "acme") checkpointRecord) []
    generation := ⟨1⟩
    records := ableRecords (text "acme") checkpointRecord
    records_canonical := by decide +kernel
    identified := .inl rfl }

/-- A device of another vendor that does so. -/
def checkpointingElsewhere : CapabilitySet :=
  { id := capabilitySetIdentity (ableRecords (text "other") checkpointRecord) []
    generation := ⟨1⟩
    records := ableRecords (text "other") checkpointRecord
    records_canonical := by decide +kernel
    identified := .inl rfl }

def needing (need : MigrationNeed) : WorkloadProfile := { workload with migrationNeed := need }

/-- A workload is to be moved between two devices. -/
def moveRequest (need : MigrationNeed) (vendor : Bytes) (source destination : CapabilitySet) :
    MigrationRequest :=
  { federation := ident 9
    federationGeneration := ⟨1⟩
    epoch := ⟨1⟩
    policyGeneration := ⟨1⟩
    policy := some FederationPolicy.permissiveDefault
    source := ⟨firstId, ⟨1⟩, ⟨1⟩, some source, text "acme", .real⟩
    destination := ⟨secondId, ⟨1⟩, ⟨1⟩, some destination, vendor, .real⟩
    workload := some (needing need)
    workloadRevision := ⟨1⟩
    sourceDecision := .nil
    destinationDecision := .nil }

/-- The checkpoint of the workload is to be restored at another vendor's device. -/
def carrying : MigrationRequest :=
  moveRequest .checkpointRestore (text "other") checkpointing checkpointingElsewhere

theorem plan_carrying : (planMigration carrying 0).map (fun p => (p.state, p.outcome)) =
    .ok (.planned, .restoreCheckpoint) := by
  decide +kernel

theorem exists_plan {request : MigrationRequest} {state : MigrationState}
    {outcome : MigrationOutcome}
    (planned : (planMigration request 0).map (fun p => (p.state, p.outcome)) =
      .ok (state, outcome)) :
    ∃ plan, planMigration request 0 = .ok plan ∧ plan.state = state ∧ plan.outcome = outcome := by
  cases made : planMigration request 0 with
  | error status =>
      rw [made] at planned
      cases planned
  | ok plan =>
      rw [made] at planned
      cases planned
      exact ⟨plan, rfl, rfl, rfl⟩

end Sample

open Sample MigrationRequest in
/-- A checkpoint is carried to another vendor's device, which nobody supports or permits. -/
theorem checkpoint_carried_silently : ∃ plan, planMigration carrying 0 = .ok plan ∧
    plan.state = .planned ∧ carrying.source.vendor ≠ carrying.destination.vendor ∧
    plan.outcome = .restoreCheckpoint ∧
    ¬ CrossesOpenly FederationPolicy.permissiveDefault checkpointing checkpointingElsewhere
      plan := by
  obtain ⟨plan, made, planned, outcome⟩ := exists_plan plan_carrying
  refine ⟨plan, made, planned, by decide +kernel, outcome, fun openly => ?_⟩
  have supported := (openly.1 (.inr (.inl outcome))).1.1
  exact absurd supported (by decide +kernel)

open Sample MigrationRequest in
theorem crossesOpenly_carrying : ∃ plan, planMigration carrying 0 = .ok plan ∧
    (CrossesOpenly FederationPolicy.permissiveDefault checkpointing checkpointingElsewhere plan ↔
      ((needing .checkpointRestore).migrationNeed = .checkpointRestore →
        carrying.CheckpointConsented FederationPolicy.permissiveDefault
          (needing .checkpointRestore) checkpointing checkpointingElsewhere)) := by
  obtain ⟨plan, made, planned, _⟩ := exists_plan plan_carrying
  have foreign : carrying.source.vendor ≠ carrying.destination.vendor := by decide +kernel
  exact ⟨plan, made, crossesOpenly_iff rfl rfl rfl rfl (.inl foreign) made planned⟩

/-! ### The order of steps and what they need -/

/-- The pairs of steps of which the first has to come before the second. -/
def causality : List (Bytes × Bytes) := [
  (text "recompile", text "restore-state"), (text "recompile", text "restart"),
  (text "repackage", text "restore-state"), (text "repackage", text "restart"),
  (text "export-state", text "restore-state"),
  (text "validate-live-transfer", text "transfer-state")]

/-- No step comes after one that it has to come before. -/
def CausallyOrdered (steps : List MigrationStep) : Prop :=
  steps.Pairwise fun earlier later => (later.kind, earlier.kind) ∉ causality

instance (steps : List MigrationStep) : Decidable (CausallyOrdered steps) :=
  inferInstanceAs (Decidable (List.Pairwise _ _))

namespace MigrationOutcome

/-- Only the steps of a live transfer are sorted into the wrong order. -/
theorem causallyOrdered_steps (outcome : MigrationOutcome) :
    CausallyOrdered (sortOn (fun step => [step.kind, step.description]) outcome.steps) ↔
      outcome ≠ .moveNativeState := by
  cases outcome <;> decide +kernel

/-- The capabilities that the steps of an outcome require. -/
def needs : MigrationOutcome → List Bytes
  | .moveNativeState => [Cap.migrationLiveStateTransfer]
  | .restoreCheckpoint => [Cap.migrationCheckpointRestore]
  | .recompileThenRestore => [Cap.portabilityRecompileAvailable, Cap.migrationCheckpointRestore]
  | .repackageAndRestart => [Cap.portabilityRepackageAvailable]
  | .reconstruct => [Cap.migrationStateReconstruction]
  | .restart | .unsupported | .unknown => []

theorem forall_needs (outcome : MigrationOutcome) {supported : Bytes → Prop} :
    (∀ step ∈ outcome.steps, step.requiredCapability ≠ [] → supported step.requiredCapability) ↔
      ∀ key ∈ outcome.needs, supported key := by
  have named : ∀ key ∈ abilities, key ≠ [] := by decide +kernel
  simp only [abilities, List.forall_mem_cons] at named
  cases outcome <;> simp [steps, needs, named]

end MigrationOutcome

namespace MigrationPlan

/-- Every step is supported by the destination, and the steps are in causal order. -/
def Executable (plan : MigrationPlan) (destination : CapabilitySet) : Prop :=
  (∀ step ∈ plan.steps, step.requiredCapability ≠ [] →
    destination.supports step.requiredCapability = true) ∧ CausallyOrdered plan.steps

end MigrationPlan

namespace MigrationRequest

theorem Planned.executable_iff_needs {request : MigrationRequest} {policy : FederationPolicy}
    {workload : WorkloadProfile} {source destination : CapabilitySet} {plan : MigrationPlan}
    (rests : request.Planned policy workload source destination plan) :
    plan.Executable destination ↔
      (∀ key ∈ plan.outcome.needs, destination.supports key = true) ∧
        plan.outcome ≠ .moveNativeState := by
  rw [MigrationPlan.Executable, rests.steps, plan.outcome.causallyOrdered_steps,
    ← plan.outcome.forall_needs]
  simp only [mem_sortOn]

/-- What the planner does not look at before it lists the steps of a plan. -/
structure StepsSupported (request : MigrationRequest) (policy : FederationPolicy)
    (workload : WorkloadProfile) (source destination : CapabilitySet) : Prop where
  /-- The steps of a live transfer are never in order. -/
  live : workload.migrationNeed ≠ .liveStateTransfer
  /-- A workload that needs its checkpoint restored is not transferred live, and is not rebuilt
  where nothing can be recompiled. -/
  checkpoint : workload.migrationNeed = .checkpointRestore →
    ¬ (request.view policy workload).Justifies source destination .liveMigrationSupported ∧
      (BothSupport source destination Cap.migrationCheckpointRestore →
        source.sharesToken destination Cap.isaCodeObjectTargets = false →
        request.sameVendor = false →
        destination.supports Cap.portabilityRecompileAvailable = true)
  /-- A workload that is restarted and would have to be recompiled can be repackaged, too. -/
  restart : workload.migrationNeed = .none ∨ workload.migrationNeed = .restartOnly →
    source.sharesToken destination Cap.isaCodeObjectTargets = false →
    ¬ (request.sameVendor = true ∧
      BothSupport source destination Cap.migrationCheckpointRestore) →
    destination.supports Cap.portabilityRecompileAvailable = true →
    destination.supports Cap.portabilityRepackageAvailable = true

end MigrationRequest

open MigrationRequest in
/-- The steps of a planned move can be taken, in the order in which they are listed, exactly if
no state is transferred live and the destination does what the outcome takes for granted. -/
theorem executable_iff {request : MigrationRequest} {policy : FederationPolicy}
    {workload : WorkloadProfile} {source destination : CapabilitySet} {plan : MigrationPlan}
    {createdAt : Timestamp} (governed : request.policy = some policy)
    (assigned : request.workload = some workload)
    (origin : request.source.capabilities = some source)
    (target : request.destination.capabilities = some destination)
    (made : planMigration request createdAt = .ok plan) (planned : plan.state = .planned) :
    plan.Executable destination ↔
      request.StepsSupported policy workload source destination := by
  have rests := planned_of_planMigration governed assigned origin target made planned
  rw [rests.executable_iff_needs]
  have route := rests.route
  generalize plan.outcome = outcome at route
  cases route with
  | move stateful live =>
      have justified := rests.justified
      rw [live] at justified
      refine iff_of_false (fun able => able.2 rfl) fun supported => ?_
      rcases stateful with need | need
      · exact supported.live need
      · exact (supported.checkpoint need).1 justified
  | restore stateful idle able direct =>
      have plain := direct_of_meetsThreshold direct
      refine iff_of_true ⟨by simpa [MigrationOutcome.needs] using able.2, nofun⟩ ⟨?_, ?_, ?_⟩
      · rw [stateful]
        decide
      · refine fun _ => ⟨rests.not_live idle, fun _ unshared foreign => ?_⟩
        rcases rests.of_direct plain with shared | ⟨same, _⟩
        · exact absurd (shared.symm.trans unshared) (by decide)
        · exact absurd (same.symm.trans foreign) (by decide)
      · exact fun stateless => absurd stateful (ne_of_stateless stateless).1
  | rebuild stateful able indirect =>
      have idle : plan.portability ≠ .liveMigrationSupported := by
        intro live
        rw [live] at indirect
        cases indirect
      obtain ⟨unshared, apart⟩ := rests.of_indirect indirect
      constructor
      · rintro ⟨supported, _⟩
        refine ⟨by rw [stateful]; decide, fun _ => ⟨rests.not_live idle, fun _ _ _ => ?_⟩, ?_⟩
        · exact supported _ List.mem_cons_self
        · exact fun stateless => absurd stateful (ne_of_stateless stateless).1
      · intro supported
        have foreign : request.sameVendor = false :=
          Bool.eq_false_iff.mpr fun same => apart ⟨same, able⟩
        have recompiles := (supported.checkpoint stateful).2 able unshared foreign
        exact ⟨by simpa [MigrationOutcome.needs] using ⟨recompiles, able.2⟩, nofun⟩
  | giveUp stateful idle unable able =>
      refine iff_of_true ⟨by simpa [MigrationOutcome.needs] using able, nofun⟩ ⟨?_, ?_, ?_⟩
      · rw [stateful]
        decide
      · exact fun _ => ⟨rests.not_live idle, fun able => absurd able unable⟩
      · exact fun stateless => absurd stateful (ne_of_stateless stateless).1
  | reconstruct stateless lost able =>
      obtain ⟨restored, transferred⟩ := ne_of_stateless stateless
      refine iff_of_true ⟨by simpa [MigrationOutcome.needs] using able, nofun⟩
        ⟨transferred, fun stateful => absurd stateful restored, fun _ _ _ recompiles => ?_⟩
      have weaker : ¬ PortabilityClass.recompileRequired.strength ≤ plan.portability.strength := by
        generalize plan.portability = value at lost
        cases value
        case stateReconstructionRequired | repackageAndRestartRequired => decide
        all_goals cases lost
      exact absurd recompiles (rests.not_justifies weaker)
  | repackage stateless kept indirect =>
      obtain ⟨restored, transferred⟩ := ne_of_stateless stateless
      obtain ⟨unshared, apart⟩ := rests.of_indirect indirect
      constructor
      · rintro ⟨supported, _⟩
        refine ⟨transferred, fun stateful => absurd stateful restored, fun _ _ _ _ => ?_⟩
        exact supported _ List.mem_cons_self
      · intro supported
        refine ⟨?_, nofun⟩
        have justified := rests.justified
        have repackages : destination.supports Cap.portabilityRepackageAvailable = true := by
          generalize plan.portability = value at justified kept indirect
          cases value
          case recompileRequired => exact supported.restart stateless unshared apart justified
          case repackageRequired => exact justified
          case stateReconstructionRequired | repackageAndRestartRequired => cases kept
          all_goals cases indirect
        simpa [MigrationOutcome.needs] using repackages
  | restart stateless direct =>
      obtain ⟨restored, transferred⟩ := ne_of_stateless stateless
      refine iff_of_true ⟨by simp [MigrationOutcome.needs], nofun⟩
        ⟨transferred, fun stateful => absurd stateful restored, fun _ unshared apart _ => ?_⟩
      rcases rests.of_direct direct with shared | carried
      · exact absurd (shared.symm.trans unshared) (by decide)
      · exact absurd carried apart

namespace Sample

/-- A device whose state can be transferred while it runs. -/
def transferable : CapabilitySet :=
  { id := capabilitySetIdentity (ableRecords (text "acme") liveRecord) []
    generation := ⟨1⟩
    records := ableRecords (text "acme") liveRecord
    records_canonical := by decide +kernel
    identified := .inl rfl }

/-- The state of the workload is to be transferred to a device of the same vendor. -/
def transferring : MigrationRequest :=
  moveRequest .liveStateTransfer (text "acme") transferable transferable

theorem plan_transferring : (planMigration transferring 0).map (fun p => (p.state, p.outcome)) =
    .ok (.planned, .moveNativeState) := by
  decide +kernel

theorem steps_transferring :
    (planMigration transferring 0).map (fun p => p.steps.map (·.kind)) =
      .ok [text "transfer-state", text "validate-live-transfer"] := by
  decide +kernel

end Sample

open Sample MigrationRequest in
/-- A live transfer is validated after it has been made. -/
theorem transfer_before_validation : ∃ plan, planMigration transferring 0 = .ok plan ∧
    plan.state = .planned ∧
    plan.steps.map (·.kind) = [text "transfer-state", text "validate-live-transfer"] ∧
    ¬ plan.Executable transferable := by
  obtain ⟨plan, made, planned, outcome⟩ := exists_plan plan_transferring
  have listed := steps_transferring
  rw [made] at listed
  refine ⟨plan, made, planned, Except.ok.inj listed, fun executable => ?_⟩
  have rests := planned_of_planMigration rfl rfl rfl rfl made planned
  exact (rests.executable_iff_needs.mp executable).2 outcome

open Sample MigrationRequest in
theorem executable_transferring : ∃ plan, planMigration transferring 0 = .ok plan ∧
    (plan.Executable transferable ↔
      transferring.StepsSupported FederationPolicy.permissiveDefault
        (needing .liveStateTransfer) transferable transferable) := by
  obtain ⟨plan, made, planned, _⟩ := exists_plan plan_transferring
  exact ⟨plan, made, executable_iff rfl rfl rfl rfl made planned⟩

end Haf
