/-
# Compatibility evaluation

One workload against one accelerator: every capability requirement, every policy
constraint and the portability from an optional origin is checked in turn. Each
check contributes findings, and the outcome is read off the gravest one.
-/

import Haf.Engine.Portability

namespace Haf

open Sequence

/-- The accelerator being evaluated. -/
structure EvaluationTarget where
  accelerator : AcceleratorId
  deviceGeneration : DeviceGeneration
  capabilityGeneration : CapabilityGeneration
  evidenceGeneration : EvidenceGeneration
  supportLevel : SupportLevel
  provenance : EvidenceProvenance
  capabilities : Option CapabilitySet
  evidenceFresh : Bool
  acceptsNewWork : Bool

/-- Optional origin accelerator. -/
structure EvaluationSource where
  accelerator : AcceleratorId
  deviceGeneration : DeviceGeneration
  capabilityGeneration : CapabilityGeneration
  capabilities : Option CapabilitySet
  vendor : Bytes

structure EvaluationContext where
  federation : FederationId
  federationGeneration : FederationGeneration
  epoch : CoordinatorEpoch
  policyGeneration : PolicyGeneration
  policy : Option FederationPolicy
  workloadRevision : WorkloadRevision
  target : EvaluationTarget
  source : Option EvaluationSource

/-! ### Matching one requirement -/

inductive MatchOutcome
  | satisfied | violated | indeterminate
  deriving DecidableEq

namespace MatchOutcome

def ofBool (holds : Bool) : MatchOutcome := if holds then .satisfied else .violated

end MatchOutcome

/-- Numeric or version lower bound, inclusive. -/
def numericAtLeast : CapabilityValue → CapabilityValue → Bool
  | .integer provided, .integer required => required ≤ provided
  | .scalar provided, .scalar required => required.le provided
  | .integer provided, .scalar required => required.le (Double.ofInt64 provided)
  | .scalar provided, .integer required => (Double.ofInt64 required).le provided
  | .version provided, .version required => provided.compareVersion required != .lt
  | _, _ => false

/-- Numeric or version upper bound, inclusive. -/
def numericAtMost : CapabilityValue → CapabilityValue → Bool
  | .integer provided, .integer required => provided ≤ required
  | .scalar provided, .scalar required => provided.le required
  | .integer provided, .scalar required => (Double.ofInt64 provided).le required
  | .scalar provided, .integer required => provided.le (Double.ofInt64 required)
  | .version provided, .version required => provided.compareVersion required != .gt
  | _, _ => false

/-- Enumerations read as singleton token sets. -/
def asTokenVector : CapabilityValue → List Bytes
  | .tokenSet tokens => tokens
  | .enumeration token => [token]
  | _ => []

/-- Compare an advertised value with what the requirement asks for. -/
def matchValue (q : CapabilityRequirement) (provided : CapabilityValue) : MatchOutcome :=
  match q.op with
  | .present => .satisfied
  | .absent => .violated
  | .equals => .ofBool (provided.equals q.value)
  | .notEquals => .ofBool (!provided.equals q.value)
  | .atLeast => .ofBool (numericAtLeast provided q.value)
  | .atMost => .ofBool (numericAtMost provided q.value)
  | .greaterThan => .ofBool (numericAtLeast provided q.value && !provided.equals q.value)
  | .lessThan => .ofBool (numericAtMost provided q.value && !provided.equals q.value)
  | .inSet =>
      .ofBool (!(asTokenVector provided).isEmpty &&
        (asTokenVector provided).all fun token => (asTokenVector q.value).contains token)
  | .supersetOf =>
      .ofBool ((asTokenVector q.value).all fun token => (asTokenVector provided).contains token)
  | .subsetOf =>
      .ofBool ((asTokenVector provided).all fun token => (asTokenVector q.value).contains token)
  | .intersectsWith =>
      .ofBool ((asTokenVector provided).any fun token => (asTokenVector q.value).contains token)
  | .versionSatisfies =>
      if provided.kind ≠ .version then .indeterminate
      else .ofBool (q.versionRange.isMatch provided.versionValue)

/-- Absence can only be proven by an explicit UNSUPPORTED. -/
def matchRequirement (q : CapabilityRequirement) (lookup : CapabilityLookup)
    (allowDegraded : Bool) : MatchOutcome :=
  if lookup.state = .unknown then .indeterminate
  else if lookup.state = .degraded && !allowDegraded then .violated
  else if q.op = .absent then .ofBool (lookup.state = .unsupported)
  else if lookup.state = .unsupported then .violated
  else
    match lookup.value with
    | none => .indeterminate
    | some provided => matchValue q provided

def describeExpectation (q : CapabilityRequirement) : Bytes :=
  q.op.toText ++
    if q.op = .versionSatisfies then text " " ++ q.versionRange.toText
    else if q.op ≠ .present && q.op ≠ .absent then text " " ++ q.value.render
    else []

/-- Stable rejection code for a capability whose hard requirement was not met. -/
def rejectionCodeFor (name : Bytes) : ErrorCode :=
  if name = Cap.vendorId then .vendorMismatch
  else if name = Cap.architectureFamily ∨ name = text "architecture.device_generation" then
    .architectureMismatch
  else if name = Cap.runtimeFamily then .runtimeMismatch
  else if name = Cap.runtimeVersion ∨ name = text "driver.version" then .runtimeVersionUnsupported
  else if name = Cap.isaCodeObjectTargets ∨ name = text "compute.capability" then .isaIncompatible
  else if name = Cap.memoryTotalBytes ∨ name = Cap.memoryFreeBytes then .insufficientMemory
  else if (text "numeric.").isPrefixOf name then .numericModeUnsupported
  else if (text "migration.").isPrefixOf name ∨ (text "portability.").isPrefixOf name then
    .migrationUnsupported
  else .unsupportedCapability

/-! ### Findings -/

/-- What a reason does to the outcome. -/
inductive Gravity
  | note | indeterminate | failure
  deriving DecidableEq

/-- A reason together with its effect on the outcome. -/
structure Finding where
  gravity : Gravity
  reason : CompatibilityReason

/-- Only hard requirements affect the outcome. -/
def CapabilityRequirement.gravity (q : CapabilityRequirement) (hard : Gravity) : Gravity :=
  if q.strength = .hard then hard else .note

/-- The finding about a requirement on decay-prone evidence that is no longer fresh. -/
def staleFinding (q : CapabilityRequirement) (lookup : CapabilityLookup) : Finding :=
  { gravity := q.gravity .indeterminate
    reason := {
      code := .staleEvidence, subject := q.capability
      detail := if q.strength = .hard then
          text "required capability is decay-prone and its evidence exceeded the policy freshness budget"
        else text "soft preference skipped because its evidence is stale"
      strength := q.strength, observed := lookup.state } }

/-- The finding about a requirement that was matched against live evidence. A satisfied
hard requirement leaves no trace. -/
def matchFinding (q : CapabilityRequirement) (lookup : CapabilityLookup) :
    MatchOutcome → Option Finding
  | .satisfied =>
      if q.strength = .soft then
        some {
          gravity := .note
          reason := {
            code := .ok, subject := q.capability
            detail := text "soft preference satisfied: " ++ describeExpectation q
            strength := q.strength, observed := lookup.state } }
      else none
  | .violated =>
      let shown := match lookup.value with
        | some value => if lookup.present then text " (" ++ value.render ++ text ")" else []
        | none => []
      some {
        gravity := q.gravity .failure
        reason := {
          code := rejectionCodeFor q.capability, subject := q.capability
          detail := text "observed " ++ lookup.state.toText ++ shown ++ text "; required " ++
            describeExpectation q
          strength := q.strength, observed := lookup.state } }
  | .indeterminate =>
      some {
        gravity := q.gravity .indeterminate
        reason := {
          code := .unknownCapability, subject := q.capability
          detail := text "required capability has no evidence: observed UNKNOWN; required " ++
            describeExpectation q
          strength := q.strength, observed := lookup.state } }

/-- Whether freshness policy keeps the requirement from being matched at all. -/
def skipsStale (q : CapabilityRequirement) (fresh : Bool) : Bool :=
  isDynamicCapability q.capability && !fresh

/-- The finding about one requirement. -/
def requirementFinding (capabilities : CapabilitySet) (fresh allowDegraded : Bool)
    (q : CapabilityRequirement) : Option Finding :=
  let lookup := capabilities.lookup q.capability
  if skipsStale q fresh then some (staleFinding q lookup)
  else matchFinding q lookup (matchRequirement q lookup allowDegraded)

/-- What one requirement adds to the soft-preference score. -/
def requirementScore (capabilities : CapabilitySet) (fresh allowDegraded : Bool)
    (q : CapabilityRequirement) : Int64 :=
  if skipsStale q fresh || q.strength = .hard then 0
  else
    match matchRequirement q (capabilities.lookup q.capability) allowDegraded with
    | .satisfied => Int64.ofNat (q.weight.roundedProduct 1000)
    | .violated => -Int64.ofNat (q.weight.roundedProduct 500)
    | .indeterminate => 0

/-- Requirements are processed in the order of name, strength, operator and value. -/
def evaluationOrder (q : CapabilityRequirement) : List Bytes :=
  WorkloadProfile.requirementOrder q ++ [q.value.render]

def canonicalizeRequirements (w : WorkloadProfile) : List CapabilityRequirement :=
  sortOn evaluationOrder w.requirements

/-! ### Policy constraints -/

/-- A hard finding about a policy, the membership or the portability. -/
def hardFinding (gravity : Gravity) (code : ErrorCode) (subject detail : Bytes)
    (observed : CapabilityState) : Finding :=
  { gravity, reason := { code, subject, detail, strength := .hard, observed } }

/-- Reads an enumeration capability as a canonical token. -/
def enumerationToken (capabilities : CapabilitySet) (key : Bytes) : Bytes :=
  let lookup := capabilities.lookup key
  match lookup.value with
  | some value => if lookup.present && lookup.state = .supported then value.render else []
  | none => []

/-- The accelerator, vendor and architecture lists of the policy. -/
def identityFindings (policy : FederationPolicy) (accelerator : AcceleratorId)
    (capabilities : CapabilitySet) : List Finding :=
  let vendor := enumerationToken capabilities Cap.vendorId
  let architecture := enumerationToken capabilities Cap.architectureFamily
  (if policy.forbiddenAccelerators.contains accelerator then
    [hardFinding .failure .policyMismatch (text "policy.forbidden_accelerators")
      (text "accelerator is explicitly forbidden by policy") .unsupported] else []) ++
  (if !vendor.isEmpty && policy.forbiddenVendors.contains vendor then
    [hardFinding .failure .vendorMismatch Cap.vendorId
      (text "vendor '" ++ vendor ++ text "' is forbidden by policy") .supported] else []) ++
  (if !vendor.isEmpty && !policy.allowedVendors.isEmpty &&
      !policy.allowedVendors.contains vendor then
    [hardFinding .failure .vendorMismatch Cap.vendorId
      (text "vendor '" ++ vendor ++ text "' is not in the policy allow list") .supported] else []) ++
  (if !architecture.isEmpty && policy.deprecatedArchitectures.contains architecture then
    [hardFinding .failure .architectureMismatch Cap.architectureFamily
      (text "architecture '" ++ architecture ++ text "' is deprecated by policy") .supported] else [])

/-- The minimum runtime version of the policy. -/
def runtimeFindings (policy : FederationPolicy) (capabilities : CapabilitySet) : List Finding :=
  let runtime := capabilities.lookup Cap.runtimeVersion
  if policy.minimumRuntimeVersion.isAny then []
  else if runtime.state = .unknown then
    [hardFinding .indeterminate .unknownCapability Cap.runtimeVersion
      (text "policy sets a minimum runtime version but the runtime version is UNKNOWN") runtime.state]
  else
    match runtime.value with
    | some value =>
        if runtime.present && !policy.minimumRuntimeVersion.isMatch value.versionValue then
          [hardFinding .failure .runtimeVersionUnsupported Cap.runtimeVersion
            (text "runtime version " ++ value.render ++ text " does not satisfy policy minimum " ++
              policy.minimumRuntimeVersion.toText) runtime.state]
        else []
    | none => []

/-- The minimum memory of the policy. -/
def memoryFindings (policy : FederationPolicy) (capabilities : CapabilitySet) : List Finding :=
  let memory := capabilities.lookup Cap.memoryTotalBytes
  if policy.minimumMemoryBytes = 0 then []
  else if memory.state = .unknown then
    [hardFinding .indeterminate .unknownCapability Cap.memoryTotalBytes
      (text "policy sets a minimum memory but total memory is UNKNOWN") memory.state]
  else
    match memory.value with
    | some value =>
        if memory.present && value.integerValue.toUInt64 < policy.minimumMemoryBytes then
          [hardFinding .failure .insufficientMemory Cap.memoryTotalBytes
            (text "total memory " ++ signedDecimal value.integerValue.toInt ++
              text " is below the policy minimum " ++ decimal policy.minimumMemoryBytes.toNat)
            memory.state]
        else []
    | none => []

/-- One capability the policy requires. -/
def requiredFindings (capabilities : CapabilitySet) (required : Bytes) : List Finding :=
  let lookup := capabilities.lookup required
  if lookup.state = .unknown then
    [hardFinding .indeterminate .unknownCapability required
      (text "policy requires this capability but there is no evidence") lookup.state]
  else if lookup.state ≠ .supported then
    [hardFinding .failure .missingMandatoryCapability required
      (text "policy requires this capability and the accelerator reports " ++ lookup.state.toText)
      lookup.state]
  else []

/-- One capability the policy denies. -/
def deniedFindings (capabilities : CapabilitySet) (denied : Bytes) : List Finding :=
  let lookup := capabilities.lookup denied
  if lookup.state = .supported || lookup.state = .degraded then
    [hardFinding .failure .policyMismatch denied
      (text "policy denies this capability and the accelerator supports it") lookup.state]
  else []

/-- One policy tag the workload requires. -/
def tagFindings (policy : FederationPolicy) (tag : Bytes) : List Finding :=
  if policy.tags.contains tag then []
  else
    [hardFinding .failure .policyMismatch (text "policy.tag." ++ tag)
      (text "workload requires policy tag '" ++ tag ++
        text "' which the active policy does not provide") .unsupported]

/-- The provenance the policy accepts. -/
def provenanceFindings (policy : FederationPolicy) (provenance : EvidenceProvenance) :
    List Finding :=
  match policy.syntheticEvidencePolicy with
  | .reject =>
      if provenance = .real then []
      else [hardFinding .failure .policyMismatch (text "policy.synthetic_evidence")
        (text "policy rejects " ++ provenance.toText ++ text " evidence") .unsupported]
  | .require =>
      if provenance = .synthetic then []
      else [hardFinding .failure .policyMismatch (text "policy.synthetic_evidence")
        (text "policy accepts only SYNTHETIC evidence but this member reports " ++
          provenance.toText) .unsupported]
  | .allow => []

def membershipFindings (acceptsNewWork : Bool) : List Finding :=
  if acceptsNewWork then []
  else [hardFinding .failure .policyMismatch (text "membership.state")
    (text "member is not in a state that accepts new work") .unsupported]

/-- Every policy constraint, in the order in which they are checked. -/
def policyFindings (w : WorkloadProfile) (policy : FederationPolicy) (target : EvaluationTarget)
    (capabilities : CapabilitySet) : List Finding :=
  identityFindings policy target.accelerator capabilities ++
    runtimeFindings policy capabilities ++ memoryFindings policy capabilities ++
    policy.requiredCapabilities.flatMap (requiredFindings capabilities) ++
    policy.deniedCapabilities.flatMap (deniedFindings capabilities) ++
    w.requiredPolicyTags.flatMap (tagFindings policy) ++
    provenanceFindings policy target.provenance ++ membershipFindings target.acceptsNewWork

/-! ### Portability -/

/-- How the classifier is asked about an origin. -/
def portabilityRequest (w : WorkloadProfile) (policy : FederationPolicy)
    (capabilities : CapabilitySet) (source : EvaluationSource) : PortabilityRequest :=
  { sourceCapabilities := source.capabilities
    destinationCapabilities := some capabilities
    sourceVendor := source.vendor
    destinationVendor := enumerationToken capabilities Cap.vendorId
    workload := some w
    policyAllowsCrossVendorMigration := policy.allowCrossVendorMigration }

/-- The class itself, against the minimum of the workload. -/
def classFindings (w : WorkloadProfile) (value : PortabilityClass) : List Finding :=
  if value = .unknown then
    [hardFinding .indeterminate .unknownCapability (text "portability")
      (text "portability from the source accelerator cannot be established") .unknown]
  else if value = .unsupported then
    [hardFinding .failure .portabilityConstraintViolated (text "portability")
      (text "no portability path exists from the source accelerator") .unsupported]
  else if !value.meetsThreshold w.minimumPortability then
    [hardFinding .failure .portabilityConstraintViolated (text "portability")
      (text "portability " ++ value.toText ++ text " does not meet the workload minimum " ++
        w.minimumPortability.toText) .supported]
  else []

/-- The execution mode of the workload and the classes the policy allows. -/
def modeFindings (w : WorkloadProfile) (policy : FederationPolicy) (value : PortabilityClass) :
    List Finding :=
  (if w.executionMode = .exactBinary && value ≠ .native && value ≠ .binaryCompatible &&
      value ≠ .liveMigrationSupported then
    [hardFinding .failure .portabilityConstraintViolated (text "execution_mode")
      (text "workload requires the exact binary and the destination is " ++ value.toText)
      .supported] else []) ++
  (if !policy.allowedPortabilityClasses.isEmpty && value ≠ .unknown &&
      !policy.allowedPortabilityClasses.contains value then
    [hardFinding .failure .portabilityConstraintViolated
      (text "policy.allowed_portability_classes")
      (text "portability " ++ value.toText ++ text " is not permitted by policy")
      .supported] else [])

/-- What the workload needs to survive a move. -/
def migrationFindings (w : WorkloadProfile) (value : PortabilityClass) : List Finding :=
  (if w.migrationNeed = .liveStateTransfer && value ≠ .liveMigrationSupported then
    [hardFinding .failure .migrationUnsupported (text "workload.migration_need")
      (text "workload requires live state transfer but the destination is " ++ value.toText)
      .supported] else []) ++
  (if w.migrationNeed = .checkpointRestore && !value.meetsThreshold .checkpointRestoreSupported &&
      !(w.reconstructionAllowed && value.meetsThreshold .recompileRequired) then
    [hardFinding .failure .migrationUnsupported (text "workload.migration_need")
      (text "workload requires checkpoint/restore but the destination is " ++ value.toText)
      .supported] else [])

/-- Reasons of the classifier that report a problem are passed on. -/
def classifierFindings (result : PortabilityResult) : List Finding :=
  (result.reasons.filter (·.code ≠ .ok)).map fun reason => { gravity := .note, reason }

/-- The class of the move and what follows from it. Without an origin the workload is
evaluated for the device it is native to. -/
def portabilityFindings (w : WorkloadProfile) (policy : FederationPolicy)
    (capabilities : CapabilitySet) : Option EvaluationSource → PortabilityClass × List Finding
  | none => (.native, [])
  | some source =>
      let result := classifyPortability (portabilityRequest w policy capabilities source)
      (result.value, classifierFindings result ++ classFindings w result.value ++
        modeFindings w policy result.value ++ migrationFindings w result.value)

/-! ### The decision -/

/-- Every finding of an evaluation. -/
def evaluationFindings (w : WorkloadProfile) (context : EvaluationContext)
    (policy : FederationPolicy) (capabilities : CapabilitySet) : List Finding :=
  (canonicalizeRequirements w).filterMap (requirementFinding capabilities
      context.target.evidenceFresh policy.allowDegradedCapabilities) ++
    policyFindings w policy context.target capabilities ++
    (portabilityFindings w policy capabilities context.source).2

/-- Any hard failure makes the pair ineligible, any open question leaves it unknown. -/
def outcomeOf (findings : List Finding) : CompatibilityOutcome :=
  if findings.any (·.gravity = .failure) then .ineligible
  else if findings.any (·.gravity = .indeterminate) then .unknown
  else .eligible

/-- Free memory in GiB counts while its evidence is fresh, up to a thousand. -/
def freeMemoryScore (capabilities : CapabilitySet) (fresh : Bool) : Int64 :=
  let free := capabilities.lookup Cap.memoryFreeBytes
  match free.value with
  | some value =>
      if free.present && free.state = .supported && fresh then
        min (max (value.integerValue / 1073741824) 0) 1000
      else 0
  | none => 0

def provenanceScore : EvidenceProvenance → Int64
  | .real => 0
  | .synthetic => -250
  | .unsupported => -500

/-- The soft-preference score. -/
def evaluationScore (w : WorkloadProfile) (context : EvaluationContext)
    (policy : FederationPolicy) (capabilities : CapabilitySet) (portability : PortabilityClass) :
    Int64 :=
  ((canonicalizeRequirements w).map (requirementScore capabilities context.target.evidenceFresh
      policy.allowDegradedCapabilities)).foldl (· + ·) 0 -
    Int64.ofNat portability.transformationSteps.toNat * 100 +
    provenanceScore context.target.provenance +
    freeMemoryScore capabilities context.target.evidenceFresh

/-- The decision on a pair that passed every input check, before it is named. -/
def assessed (w : WorkloadProfile) (context : EvaluationContext) (policy : FederationPolicy)
    (capabilities : CapabilitySet) (createdAt : Timestamp) : CompatibilityDecision :=
  let findings := evaluationFindings w context policy capabilities
  let portability := (portabilityFindings w policy capabilities context.source).1
  { federation := context.federation
    federationGeneration := context.federationGeneration
    epoch := context.epoch
    policy := policy.id
    policyGeneration := context.policyGeneration
    accelerator := context.target.accelerator
    deviceGeneration := context.target.deviceGeneration
    capabilityGeneration := context.target.capabilityGeneration
    evidenceGeneration := context.target.evidenceGeneration
    workload := w.classId
    workloadRequirement := w.requirementId
    workloadRevision := context.workloadRevision
    supportLevel := context.target.supportLevel
    provenance := context.target.provenance
    createdAt
    outcome := outcomeOf findings
    portability
    score := evaluationScore w context policy capabilities portability
    reasons := sortReasons (findings.map (·.reason)) }

/-- Evaluate one workload against one accelerator. The creation time is the only thing
read from a clock, and it is not hashed. -/
def evaluateCompatibility (R : Registry) (w : WorkloadProfile) (context : EvaluationContext)
    (createdAt : Timestamp) : Result CompatibilityDecision := do
  w.validate R
  let some policy := context.policy
    | .error (.failure .invalidArgument "compatibility evaluation requires a federation policy")
  let some capabilities := context.target.capabilities
    | .error (.failure .invalidArgument
        "compatibility evaluation requires target capability evidence")
  ensure (!context.target.accelerator.isNil) (.failure .invalidArgument
    "compatibility evaluation requires a target accelerator identity")
  policy.validate R
  return (assessed w context policy capabilities createdAt).refreshIdentity

/-- An evaluation needs a valid profile and policy, evidence and an identity of the target, and
nothing else. -/
theorem evaluateCompatibility_eq_ok {R : Registry} {w : WorkloadProfile}
    {context : EvaluationContext} {createdAt : Timestamp} {d : CompatibilityDecision} :
    evaluateCompatibility R w context createdAt = .ok d ↔ w.validate R = .ok () ∧
      ∃ policy capabilities, context.policy = some policy ∧
        context.target.capabilities = some capabilities ∧
        context.target.accelerator ≠ .nil ∧ policy.validate R = .ok () ∧
        d = (assessed w context policy capabilities createdAt).refreshIdentity := by
  unfold evaluateCompatibility
  constructor
  · intro made
    obtain ⟨_, valid, made⟩ := bind_eq_ok.mp made
    split at made
    · rename_i policy chosen
      split at made
      · rename_i capabilities given
        simp only [bind_eq_ok, pure_eq_ok, ensure_eq_ok, Bool.not_eq_true',
          StrongId.isNil_eq_false] at made
        obtain ⟨_, identified, _, sound, same⟩ := made
        exact ⟨valid, policy, capabilities, chosen, given, identified, sound, same.symm⟩
      · cases made
    · cases made
  · rintro ⟨valid, policy, capabilities, chosen, given, identified, sound, rfl⟩
    rw [chosen, given]
    simp only [bind_eq_ok, pure_eq_ok, ensure_eq_ok, Bool.not_eq_true', StrongId.isNil_eq_false]
    exact ⟨(), valid, (), identified, (), sound, trivial⟩

end Haf
