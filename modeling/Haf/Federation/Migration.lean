/-
# Migration plans in the federation

Plans are authored for two members and a registered workload, advanced through
their lifecycle under the authority they were bound to, committed or aborted.
Authority moves at commit: the source is put into Draining.
-/

import Haf.Federation.Evaluation

namespace Haf

open Sequence

def migrationTransitionText (source target : MigrationState) : Bytes :=
  source.toText ++ text "->" ++ target.toText

/-- The entry of a source whose plan was committed. The line is added to the audit trail
without cutting it to the number of entries kept. -/
def MemberEntry.drained (entry : MemberEntry) (now : Timestamp) : MemberEntry :=
  { record := { entry.record with
      state := .draining
      stateGeneration := entry.record.stateGeneration.next
      updatedAt := now
      history := ascending (entry.record.history ++ [text "DRAINING migration-commit"]) }
    descriptor := entry.descriptor
    described := entry.described }

/-- The reason given when a plan is aborted on request. -/
def cancelledReason (reason : Bytes) : CompatibilityReason :=
  { code := .cancelled, subject := text "abort", detail := reason
    strength := .hard, observed := .unknown }

namespace Federation

/-! ### Planning -/

/-- A member as an endpoint of a migration. -/
def migrationEndpoint (accelerator : AcceleratorId) (entry : MemberEntry) : MigrationEndpoint :=
  { accelerator
    deviceGeneration := entry.record.deviceGeneration
    capabilityGeneration := entry.record.capabilityGeneration
    capabilities := some entry.descriptor.capabilities
    vendor := vendorOf entry.descriptor
    provenance := entry.record.provenance }

/-- The request handed to the planner, bound to the generation of the federation `f`. -/
def migrationRequest (f : Federation) (profile : WorkloadProfile)
    (source destination : AcceleratorId) (sourceEntry destinationEntry : MemberEntry)
    (sourceDecision destinationDecision : CompatibilityDecision) : MigrationRequest :=
  { federation := f.id
    federationGeneration := f.generation
    epoch := f.epoch
    policyGeneration := f.policy.generation
    policy := some f.policy
    source := migrationEndpoint source sourceEntry
    destination := migrationEndpoint destination destinationEntry
    workload := some profile
    workloadRevision := profile.revision
    sourceDecision := sourceDecision.id
    destinationDecision := destinationDecision.id }

/-- The recorded decision with the smallest identity. -/
def firstDecision (decisions : DecisionTable) : Option DecisionId :=
  decisions.values.head?.map (·.decisionId)

/-- The federation with a plan and both of its decisions recorded. -/
def withPlan (f : Federation) (plan : MigrationPlan)
    (sourceDecision destinationDecision : CompatibilityDecision) : Federation :=
  let recorded := (f.decisions.insert sourceDecision).insert destinationDecision
  { f with
    plans := f.plans.insert plan
    decisions := Keyed.shrink firstDecision f.maxRecordedDecisions recorded.size recorded }

/-- The federation at its next generation. -/
def bumped (f : Federation) : Federation := { f with generation := f.generation.next }

/-- The generation advances before the plan is authored, so that the plan is bound to the
generation it belongs to. The planner may still refuse the endpoints after that. -/
def settlePlanMigration (f : Federation) (workload : WorkloadClassId)
    (source destination : AcceleratorId) (claim : AuthorityClaim) (env : Environment) :
    Result (Settled MigrationPlan) := do
  f.validateAuthority claim
  let profile ← f.registeredWorkload workload
  let some sourceEntry := f.members.get? source
    | .error ⟨.unknownAccelerator, text "unknown migration source " ++ source.toText⟩
  let some destinationEntry := f.members.get? destination
    | .error ⟨.unknownAccelerator, text "unknown migration destination " ++ destination.toText⟩
  let sourceDecision ←
    f.evaluateLocked profile source ⟨some destination⟩ false env .sourceDecision
  let destinationDecision ←
    f.evaluateLocked profile destination ⟨some source⟩ false env .destinationDecision
  let g := f.bumped
  match planMigration (g.migrationRequest profile source destination sourceEntry destinationEntry
      sourceDecision destinationDecision) (env.wall .plan) with
  | .error status => .ok (.refused status g)
  | .ok plan => .ok (.changed plan (g.withPlan plan sourceDecision destinationDecision))

def planMigration (f : Federation) (workload : WorkloadClassId)
    (source destination : AcceleratorId) (claim : AuthorityClaim) (env : Environment) :
    Outcome MigrationPlan :=
  f.conclude env (f.settlePlanMigration workload source destination claim env)

/-! ### Advancing -/

/-- The plan with an identity, which must exist. -/
def storedPlan (f : Federation) (id : MigrationPlanId) : Result MigrationPlan :=
  match f.plans.get? id with
  | some plan => .ok plan
  | none => .error ⟨.notFound, text "no migration plan with identity " ++ id.toText⟩

/-- The generations of both endpoints are those the plan is bound to. -/
def endpointsCurrent (plan : MigrationPlan) (source destination : MemberRecord) : Bool :=
  source.deviceGeneration = plan.sourceGeneration &&
    destination.deviceGeneration = plan.destinationGeneration &&
    source.capabilityGeneration = plan.sourceCapabilityGeneration &&
    destination.capabilityGeneration = plan.destinationCapabilityGeneration

/-- The member table after a plan reached a state: at commit a working source is drained. -/
def drainedMembers (f : Federation) (source : MemberEntry) (target : MigrationState)
    (now : Timestamp) : MemberTable :=
  if target = .committed &&
      (source.record.state = .active || source.record.state = .degraded) then
    f.members.insert (source.drained now)
  else f.members

/-- The federation with a plan advanced to a state. -/
def advanced (f : Federation) (plan : MigrationPlan) (source : MemberEntry)
    (target : MigrationState) (now : Timestamp) : Federation :=
  { f with
    plans := f.plans.insert { plan with state := target }
    members := f.drainedMembers source target now
    generation := f.generation.next }

/-- Advance a plan. The workload revision of the plan is compared with itself. -/
def settleAdvanceMigration (f : Federation) (id : MigrationPlanId) (target : MigrationState)
    (claim : AuthorityClaim) (env : Environment) : Result (Settled MigrationPlan) := do
  f.validateAuthority claim
  let plan ← f.storedPlan id
  ensure (!(claim.checkPolicyGeneration && claim.policyGeneration ≠ f.policy.generation))
    (.failure .stalePolicy "claim presents a stale policy generation for a plan")
  ensure (plan.isCurrent f.epoch f.policy.generation plan.sourceGeneration
      plan.destinationGeneration plan.sourceCapabilityGeneration
      plan.destinationCapabilityGeneration plan.workloadRevision)
    (.failure .staleMigration "migration plan is bound to generations that are no longer current")
  let (some source, some destination) := (f.members.get? plan.source,
      f.members.get? plan.destination)
    | .error (.failure .staleMigration
        "migration plan references an accelerator that is no longer a member")
  ensure (endpointsCurrent plan source.record destination.record)
    (.failure .staleMigration "an endpoint generation changed after the plan was created")
  if plan.state = target then .ok (.unchanged plan)
  else do
    ensure (plan.state.isLegalTransition target)
      ⟨.invalidTransition, text "illegal migration transition " ++
        migrationTransitionText plan.state target⟩
    .ok (.changed { plan with state := target } (f.advanced plan source target (env.wall .member)))

def advanceMigration (f : Federation) (id : MigrationPlanId) (target : MigrationState)
    (claim : AuthorityClaim) (env : Environment) : Outcome MigrationPlan :=
  f.conclude env (f.settleAdvanceMigration id target claim env)

def commitMigration (f : Federation) (id : MigrationPlanId) (claim : AuthorityClaim)
    (env : Environment) : Outcome MigrationPlan := f.advanceMigration id .committed claim env

/-! ### Aborting -/

/-- The federation with a plan replaced by a later version of it. -/
def withStoredPlan (f : Federation) (plan : MigrationPlan) : Federation :=
  { f with plans := f.plans.insert plan, generation := f.generation.next }

def settleAbortMigration (f : Federation) (id : MigrationPlanId) (reason : Bytes)
    (claim : AuthorityClaim) : Result (Settled MigrationPlan) := do
  f.validateAuthority claim
  let plan ← f.storedPlan id
  ensure (!plan.state.isTerminal)
    ⟨.invalidTransition, text "migration plan is already terminal in state " ++ plan.state.toText⟩
  let aborted := plan.abortIfOpen (cancelledReason reason)
  .ok (.changed aborted (f.withStoredPlan aborted))

def abortMigration (f : Federation) (id : MigrationPlanId) (reason : Bytes)
    (claim : AuthorityClaim) (env : Environment) : Outcome MigrationPlan :=
  f.conclude env (f.settleAbortMigration id reason claim)

/-! ### Currency of plans -/

/-- A plan is still bound to the current epoch, policy and endpoint generations. -/
def migrationPlanIsCurrent (f : Federation) (id : MigrationPlanId) : Result Bool := do
  let plan ← f.storedPlan id
  if plan.epoch ≠ f.epoch || plan.policyGeneration ≠ f.policy.generation then .ok false
  else
    match f.members.get? plan.source, f.members.get? plan.destination with
    | some source, some destination =>
        .ok (plan.isCurrent f.epoch f.policy.generation source.record.deviceGeneration
          destination.record.deviceGeneration source.record.capabilityGeneration
          destination.record.capabilityGeneration plan.workloadRevision)
    | _, _ => .ok false

end Federation

end Haf
