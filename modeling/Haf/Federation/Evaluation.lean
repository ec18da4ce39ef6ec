/-
# Policy, workloads and recorded decisions

A policy change invalidates every decision and aborts every plan in flight.
Evaluations run against the registered workload and the evidence of the member,
and their decisions are recorded up to a bound.
-/

import Haf.Federation.Membership

namespace Haf

namespace MigrationPlan

/-- Abort a plan that is still in flight, for a reason. -/
def abortIfOpen (p : MigrationPlan) (reason : CompatibilityReason) : MigrationPlan :=
  if p.state.isTerminal then p
  else { p with
    state := .aborted
    refusalReasons := sortReasons (p.refusalReasons ++ [reason]) }

@[simp]
theorem id_abortIfOpen (p : MigrationPlan) (reason : CompatibilityReason) :
    (p.abortIfOpen reason).id = p.id := by
  rw [abortIfOpen]
  split <;> rfl

end MigrationPlan

/-- Why plans are aborted when the policy changes. -/
def stalePolicyReason : CompatibilityReason :=
  { code := .stalePolicy, subject := text "policy"
    detail := text "policy generation advanced while this plan was in flight"
    strength := .hard, observed := .unknown }

/-- The entry bound to another policy generation. -/
def MemberEntry.underPolicy (entry : MemberEntry) (generation : PolicyGeneration) : MemberEntry :=
  { record := { entry.record with policyGeneration := generation }
    descriptor := entry.descriptor
    described := entry.described }

theorem MemberEntry.accelerator_underPolicy (generation : PolicyGeneration) (entry : MemberEntry) :
    (entry.underPolicy generation).record.accelerator = entry.record.accelerator := rfl

/-- Options for workload evaluation. -/
structure EvaluationOptions where
  source : Option AcceleratorId := none

namespace Federation

/-! ### Policy and workloads -/

/-- The federation under a new policy. -/
def underPolicy (f : Federation) (policy : FederationPolicy) : Federation :=
  { f with
    policy
    decisions := .empty
    plans := f.plans.map (·.abortIfOpen stalePolicyReason) (by simp)
    members := f.members.map (·.underPolicy policy.generation)
      (MemberEntry.accelerator_underPolicy policy.generation)
    generation := f.generation.next }

def settleSetPolicy (f : Federation) (policy : FederationPolicy) (claim : AuthorityClaim) :
    Result (Settled PolicyGeneration) := do
  f.validateAuthority claim
  let updated := policy.refreshIdentity
  updated.validate f.registry
  .ok (.changed updated.generation (f.underPolicy updated))

def setPolicy (f : Federation) (policy : FederationPolicy) (claim : AuthorityClaim)
    (env : Environment) : Outcome PolicyGeneration :=
  f.conclude env (f.settleSetPolicy policy claim)

/-- A profile as it is stored: missing identities are derived, the revision always is. -/
def registeredProfile (profile : WorkloadProfile) : WorkloadProfile :=
  let named := { profile with
    classId := if profile.classId.isNil then workloadClassIdFromToken profile.name
      else profile.classId }
  let identified := { named with
    requirementId := if named.requirementId.isNil then deriveRequirementId named
      else named.requirementId }
  { identified with revision := deriveWorkloadRevision identified }

/-- The federation with a workload registered under its class. -/
def withWorkload (f : Federation) (profile : WorkloadProfile) : Federation :=
  { f with workloads := f.workloads.insert profile, generation := f.generation.next }

def settleRegisterWorkload (f : Federation) (profile : WorkloadProfile) (claim : AuthorityClaim) :
    Result (Settled WorkloadRevision) := do
  f.validateAuthority claim
  let stored := registeredProfile profile
  stored.validate f.registry
  .ok (.changed stored.revision (f.withWorkload stored))

def registerWorkload (f : Federation) (profile : WorkloadProfile) (claim : AuthorityClaim)
    (env : Environment) : Outcome WorkloadRevision :=
  f.conclude env (f.settleRegisterWorkload profile claim)

/-! ### Evaluation -/

/-- Evidence counts as fresh while none of it awaits revalidation and none of its dynamic
records exceeds the freshness budget of the policy. -/
def evidenceFresh (policy : FederationPolicy) (now : MonotonicTime)
    (evidence : List EvidenceRecord) : Bool :=
  evidence.all fun e =>
    !e.requiresRevalidation &&
      !(e.dynamic && policy.requiredEvidenceFreshnessNanos != 0 &&
        !e.isFresh now policy.requiredEvidenceFreshnessNanos)

/-- The vendor a member advertises, or nothing. -/
def vendorOf (d : AcceleratorDescriptor) : Bytes :=
  let vendor := d.capabilities.lookup Cap.vendorId
  match vendor.value with
  | some value => if vendor.present then value.render else []
  | none => []

/-- A member as the target of an evaluation. -/
def evaluationTarget (f : Federation) (entry : MemberEntry) (now : MonotonicTime) :
    EvaluationTarget :=
  { accelerator := entry.record.accelerator
    deviceGeneration := entry.record.deviceGeneration
    capabilityGeneration := entry.record.capabilityGeneration
    evidenceGeneration := entry.record.evidenceGeneration
    supportLevel := entry.record.supportLevel
    provenance := entry.record.provenance
    capabilities := some entry.descriptor.capabilities
    evidenceFresh := evidenceFresh f.policy now entry.descriptor.evidence
    acceptsNewWork := entry.record.acceptsNewWork }

/-- A member as the origin of a move. -/
def evaluationSource (entry : MemberEntry) : EvaluationSource :=
  { accelerator := entry.record.accelerator
    deviceGeneration := entry.record.deviceGeneration
    capabilityGeneration := entry.record.capabilityGeneration
    capabilities := some entry.descriptor.capabilities
    vendor := vendorOf entry.descriptor }

/-- The context in which a workload is evaluated against a member. -/
def evaluationContext (f : Federation) (profile : WorkloadProfile) (entry : MemberEntry)
    (source : Option MemberEntry) (now : MonotonicTime) : EvaluationContext :=
  { federation := f.id
    federationGeneration := f.generation
    epoch := f.epoch
    policyGeneration := f.policy.generation
    policy := some f.policy
    workloadRevision := profile.revision
    target := f.evaluationTarget entry now
    source := source.map evaluationSource }

/-- The origin named by the options; an unknown one is an error only if it must exist. -/
def sourceEntry (f : Federation) (options : EvaluationOptions) (mustExist : Bool) :
    Result (Option MemberEntry) :=
  match options.source with
  | none => .ok none
  | some source =>
      match f.members.get? source with
      | some entry => .ok (some entry)
      | none =>
          if mustExist then
            .error ⟨.unknownAccelerator, text "no federation member for source accelerator " ++
              source.toText⟩
          else .ok none

def evaluateLocked (f : Federation) (profile : WorkloadProfile) (accelerator : AcceleratorId)
    (options : EvaluationOptions) (mustExist : Bool) (env : Environment) (site : ClockSite) :
    Result CompatibilityDecision := do
  let entry ← f.memberEntry accelerator
  let source ← f.sourceEntry options mustExist
  evaluateCompatibility f.registry profile
    (f.evaluationContext profile entry source (env.monotonic site)) (env.wall site)

/-- The workload registered under a class, which must exist. -/
def registeredWorkload (f : Federation) (workload : WorkloadClassId) : Result WorkloadProfile :=
  match f.workloads.get? workload with
  | some profile => .ok profile
  | none =>
      .error ⟨.notFound, text "no registered workload for class " ++ workload.toText⟩

/-- The recorded decision that is evicted first: the oldest, and the smallest of those. -/
def oldestDecision (decisions : DecisionTable) : Option DecisionId :=
  (decisions.values.foldl (fun oldest d =>
    match oldest with
    | none => some d
    | some o =>
        if d.createdAt < o.createdAt || (d.createdAt = o.createdAt && d.decisionId < o.decisionId)
        then some d else some o) none).map (·.decisionId)

/-- The federation with a decision recorded and surplus decisions evicted. -/
def withDecision (f : Federation) (decision : CompatibilityDecision) : Federation :=
  let recorded := f.decisions.insert decision
  { f with
    decisions := Keyed.shrink oldestDecision f.maxRecordedDecisions recorded.size recorded }

/-- Evaluate one workload against one accelerator and record the decision. -/
def settleEvaluate (f : Federation) (workload : WorkloadClassId) (accelerator : AcceleratorId)
    (options : EvaluationOptions) (env : Environment) :
    Result (Settled CompatibilityDecision) := do
  ensure (!f.isShutdown) (.failure .shutdownInProgress "federation authority is revoked")
  let profile ← f.registeredWorkload workload
  let decision ← f.evaluateLocked profile accelerator options true env .decision
  .ok (.changed decision (f.withDecision decision))

def evaluate (f : Federation) (workload : WorkloadClassId) (accelerator : AcceleratorId)
    (options : EvaluationOptions) (env : Environment) : Outcome CompatibilityDecision :=
  f.conclude env (f.settleEvaluate workload accelerator options env)

/-- Evaluate without recording. -/
def evaluateTransient (f : Federation) (workload : WorkloadClassId) (accelerator : AcceleratorId)
    (options : EvaluationOptions) (env : Environment) : Result CompatibilityDecision := do
  let profile ← f.registeredWorkload workload
  f.evaluateLocked profile accelerator options false env .decision

/-! ### Currency of decisions -/

/-- The test by which stale decisions are swept. -/
def sweepKeeps (f : Federation) (d : CompatibilityDecision) : Bool :=
  d.federationGeneration = f.generation && d.epoch = f.epoch &&
    d.policyGeneration = f.policy.generation &&
    (match f.members.get? d.accelerator with
      | none => false
      | some entry =>
          d.deviceGeneration = entry.record.deviceGeneration &&
            d.capabilityGeneration = entry.record.capabilityGeneration) &&
    (match f.workloads.get? d.workload with
      | none => false
      | some profile => profile.revision = d.workloadRevision)

/-- The federation without its stale decisions. -/
def swept (f : Federation) : Federation := { f with decisions := f.decisions.filter f.sweepKeeps }

/-- Sweep stale decisions and return their number; whether the write succeeded is ignored. -/
def invalidateStaleDecisions (f : Federation) (env : Environment) : Outcome Nat :=
  let removed := (f.decisions.values.filter (!f.sweepKeeps ·)).length
  if removed = 0 then ⟨.ok 0, none, f⟩
  else
    match f.swept.persistLocked env false with
    | (.ok (), g) => ⟨.ok removed, none, g⟩
    | (.error status, g) => ⟨.ok removed, some status, g⟩

/-- A recorded decision is still bound to current generations. -/
def decisionIsCurrent (f : Federation) (id : DecisionId) : Result Bool :=
  match f.decisions.get? id with
  | none => .error ⟨.notFound, text "no recorded decision with identity " ++ id.toText⟩
  | some d =>
      match f.members.get? d.accelerator, f.workloads.get? d.workload with
      | some entry, some profile =>
          .ok (d.isCurrent f.generation f.epoch f.policy.generation entry.record.deviceGeneration
            entry.record.capabilityGeneration entry.record.evidenceGeneration profile.revision)
      | _, _ => .ok false

end Federation

end Haf
