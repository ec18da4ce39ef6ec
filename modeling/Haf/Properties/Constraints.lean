/-
# What an outcome says about the constraints

The engine checks requirements, the policy, the membership and the portability. Each
check can be refuted, or left open for want of evidence; it counts as passed strictly
if it is neither and leniently if it is not refuted. A pair is eligible exactly when
every check passes strictly, and it is ineligible exactly when one does not pass
leniently.

The checks do not amount to the constraints of the policy. Some of them look at nothing
unless the target has the capability in question with full support, a device without a
memory size or a runtime version passes as soon as that is positively known, and a signed
quantity is compared as an unsigned one. The last part says which policies and capability
sets are not affected.
-/

import Haf.Properties.Verdict

namespace Haf

open Sequence

/-! ### Findings that do not count -/

/-- No finding is a failure; strictly, none leaves anything open either. -/
def Spares (strict : Bool) (findings : List Finding) : Prop :=
  ∀ f ∈ findings, f.gravity ≠ .failure ∧ (strict = true → f.gravity ≠ .indeterminate)

section Spares

variable {strict : Bool} {code : ErrorCode} {subject detail : Bytes} {observed : CapabilityState}

@[simp] theorem spares_nil : Spares strict [] ↔ True := by
  simp [Spares]

@[simp] theorem spares_append {first second : List Finding} :
    Spares strict (first ++ second) ↔ Spares strict first ∧ Spares strict second :=
  List.forall_mem_append

@[simp] theorem spares_flatMap {α : Type} {items : List α} {findings : α → List Finding} :
    Spares strict (items.flatMap findings) ↔ ∀ a ∈ items, Spares strict (findings a) :=
  List.forall_mem_flatMap

@[simp] theorem spares_failure :
    Spares strict [hardFinding .failure code subject detail observed] ↔ False := by
  simp [Spares, hardFinding]

@[simp] theorem spares_open :
    Spares strict [hardFinding .indeterminate code subject detail observed] ↔ strict = false := by
  simp [Spares, hardFinding]

@[simp] theorem spares_ite {condition : Prop} [Decidable condition]
    {first second : List Finding} :
    Spares strict (if condition then first else second) ↔
      if condition then Spares strict first else Spares strict second := by
  split_ifs <;> rfl

theorem outcomeOf_eq_eligible_iff_spares {findings : List Finding} :
    outcomeOf findings = .eligible ↔ Spares true findings := by
  rw [outcomeOf_eq_eligible]
  apply forall₂_congr
  intro f _
  cases f.gravity <;> simp

theorem outcomeOf_ne_ineligible_iff_spares {findings : List Finding} :
    outcomeOf findings ≠ .ineligible ↔ Spares false findings := by
  rw [ne_eq, outcomeOf_eq_ineligible]
  simp [Spares]

end Spares

/-! ### Policy and membership -/

/-- The checks that the engine makes of the policy. -/
structure Checked (strict : Bool) (w : WorkloadProfile) (policy : FederationPolicy)
    (target : EvaluationTarget) (capabilities : CapabilitySet) : Prop where
  accelerator : target.accelerator ∉ policy.forbiddenAccelerators
  forbidden : enumerationToken capabilities Cap.vendorId ≠ [] →
    enumerationToken capabilities Cap.vendorId ∉ policy.forbiddenVendors
  allowed : enumerationToken capabilities Cap.vendorId ≠ [] → policy.allowedVendors ≠ [] →
    enumerationToken capabilities Cap.vendorId ∈ policy.allowedVendors
  architecture : enumerationToken capabilities Cap.architectureFamily ≠ [] →
    enumerationToken capabilities Cap.architectureFamily ∉ policy.deprecatedArchitectures
  runtime : policy.minimumRuntimeVersion.clauses ≠ [] →
    if (capabilities.lookup Cap.runtimeVersion).state = .unknown then strict = false
    else ∀ value, (capabilities.lookup Cap.runtimeVersion).value = some value →
      policy.minimumRuntimeVersion.isMatch value.versionValue = true
  memory : policy.minimumMemoryBytes ≠ 0 →
    if (capabilities.lookup Cap.memoryTotalBytes).state = .unknown then strict = false
    else ∀ value, (capabilities.lookup Cap.memoryTotalBytes).value = some value →
      policy.minimumMemoryBytes ≤ value.integerValue.toUInt64
  required : ∀ name ∈ policy.requiredCapabilities,
    if (capabilities.lookup name).state = .unknown then strict = false
    else (capabilities.lookup name).state = .supported
  denied : ∀ name ∈ policy.deniedCapabilities,
    (capabilities.lookup name).state ≠ .supported ∧ (capabilities.lookup name).state ≠ .degraded
  tags : ∀ tag ∈ w.requiredPolicyTags, tag ∈ policy.tags
  provenance : (policy.syntheticEvidencePolicy = .reject → target.provenance = .real) ∧
    (policy.syntheticEvidencePolicy = .require → target.provenance = .synthetic)

section Checks

variable {strict : Bool} {w : WorkloadProfile} {policy : FederationPolicy}
  {target : EvaluationTarget} {capabilities : CapabilitySet}

theorem spares_identityFindings {accelerator : AcceleratorId} :
    Spares strict (identityFindings policy accelerator capabilities) ↔
      accelerator ∉ policy.forbiddenAccelerators ∧
        (enumerationToken capabilities Cap.vendorId ≠ [] →
          enumerationToken capabilities Cap.vendorId ∉ policy.forbiddenVendors) ∧
        (enumerationToken capabilities Cap.vendorId ≠ [] → policy.allowedVendors ≠ [] →
          enumerationToken capabilities Cap.vendorId ∈ policy.allowedVendors) ∧
        (enumerationToken capabilities Cap.architectureFamily ≠ [] →
          enumerationToken capabilities Cap.architectureFamily ∉
            policy.deprecatedArchitectures) := by
  simp [identityFindings, and_assoc]

variable {name : Bytes} {value : PortabilityClass}

/-- A value that is found is present. -/
theorem present_of_value {value : CapabilityValue}
    (found : (capabilities.lookup name).value = some value) :
    (capabilities.lookup name).present = true := by
  obtain ⟨_, _, _, _, _, present⟩ := CapabilitySet.exists_of_lookup found
  exact present

theorem spares_runtimeFindings : Spares strict (runtimeFindings policy capabilities) ↔
    (policy.minimumRuntimeVersion.clauses ≠ [] →
      if (capabilities.lookup Cap.runtimeVersion).state = .unknown then strict = false
      else ∀ value, (capabilities.lookup Cap.runtimeVersion).value = some value →
        policy.minimumRuntimeVersion.isMatch value.versionValue = true) := by
  by_cases any : policy.minimumRuntimeVersion.clauses = []
  · simp [runtimeFindings, VersionRange.isAny, any]
  · cases found : (capabilities.lookup Cap.runtimeVersion).value with
    | none => simp [runtimeFindings, VersionRange.isAny, any, found]
    | some value =>
        simp [runtimeFindings, VersionRange.isAny, any, found, present_of_value found]

theorem spares_memoryFindings : Spares strict (memoryFindings policy capabilities) ↔
    (policy.minimumMemoryBytes ≠ 0 →
      if (capabilities.lookup Cap.memoryTotalBytes).state = .unknown then strict = false
      else ∀ value, (capabilities.lookup Cap.memoryTotalBytes).value = some value →
        policy.minimumMemoryBytes ≤ value.integerValue.toUInt64) := by
  by_cases unset : policy.minimumMemoryBytes = 0
  · simp [memoryFindings, unset]
  · cases found : (capabilities.lookup Cap.memoryTotalBytes).value with
    | none => simp [memoryFindings, unset, found]
    | some value => simp [memoryFindings, unset, found, present_of_value found]

theorem spares_requiredFindings :
    Spares strict (requiredFindings capabilities name) ↔
      if (capabilities.lookup name).state = .unknown then strict = false
      else (capabilities.lookup name).state = .supported := by
  cases state : (capabilities.lookup name).state <;> simp [requiredFindings, state]

theorem spares_deniedFindings :
    Spares strict (deniedFindings capabilities name) ↔
      (capabilities.lookup name).state ≠ .supported ∧
        (capabilities.lookup name).state ≠ .degraded := by
  simp [deniedFindings]

theorem spares_tagFindings {tag : Bytes} :
    Spares strict (tagFindings policy tag) ↔ tag ∈ policy.tags := by
  simp [tagFindings]

theorem spares_provenanceFindings {provenance : EvidenceProvenance} :
    Spares strict (provenanceFindings policy provenance) ↔
      (policy.syntheticEvidencePolicy = .reject → provenance = .real) ∧
        (policy.syntheticEvidencePolicy = .require → provenance = .synthetic) := by
  cases rule : policy.syntheticEvidencePolicy <;> simp [provenanceFindings, rule]

theorem spares_membershipFindings {accepts : Bool} :
    Spares strict (membershipFindings accepts) ↔ accepts = true := by
  simp [membershipFindings]

theorem spares_policyFindings : Spares strict (policyFindings w policy target capabilities) ↔
    Checked strict w policy target capabilities ∧ target.acceptsNewWork = true := by
  simp only [policyFindings, spares_append, spares_flatMap, spares_identityFindings,
    spares_runtimeFindings, spares_memoryFindings, spares_requiredFindings,
    spares_deniedFindings, spares_tagFindings, spares_provenanceFindings,
    spares_membershipFindings]
  constructor
  · rintro ⟨⟨⟨⟨⟨⟨⟨⟨accelerator, forbidden, allowed, architecture⟩, runtime⟩, memory⟩, required⟩,
      denied⟩, tags⟩, provenance⟩, accepts⟩
    exact ⟨⟨accelerator, forbidden, allowed, architecture, runtime, memory, required, denied, tags,
      provenance⟩, accepts⟩
  · rintro ⟨checked, accepts⟩
    exact ⟨⟨⟨⟨⟨⟨⟨⟨checked.accelerator, checked.forbidden, checked.allowed, checked.architecture⟩,
      checked.runtime⟩, checked.memory⟩, checked.required⟩, checked.denied⟩, checked.tags⟩,
      checked.provenance⟩, accepts⟩

/-! ### Requirements -/

/-- What a hard requirement has to be: refuted by nothing and, strictly, shown. -/
def CapabilityRequirement.Clears (q : CapabilityRequirement) (strict : Bool)
    (lookup : CapabilityLookup) (fresh allowDegraded : Bool) : Prop :=
  q.strength = .hard →
    (strict = true → q.Decided lookup fresh) ∧ (q.Decided lookup fresh → q.Holds lookup allowDegraded)

theorem spares_requirementFinding {R : Registry} {q : CapabilityRequirement}
    (valid : q.validate R = .ok ()) {fresh allowDegraded : Bool} :
    Spares strict (requirementFinding capabilities fresh allowDegraded q).toList ↔
      q.Clears strict (capabilities.lookup q.capability) fresh allowDegraded := by
  cases strength : q.strength with
  | soft =>
      have notes (f : Finding)
          (found : requirementFinding capabilities fresh allowDegraded q = some f) :
          f.gravity = .note := gravity_of_soft strength found
      constructor
      · intro _ hard
        rw [strength] at hard
        cases hard
      · intro _ f listed
        simp [notes f (by simpa using listed)]
  | hard =>
      rw [CapabilityRequirement.Clears, imp_iff_right strength]
      by_cases decided : q.Decided (capabilities.lookup q.capability) fresh
      · by_cases holds : q.Holds (capabilities.lookup q.capability) allowDegraded
        · simp [requirementFinding_of_holds valid strength decided holds, decided, holds]
        · obtain ⟨f, found, failure⟩ := requirementFinding_of_refuted valid strength decided holds
          simp [Spares, found, failure, decided, holds]
      · obtain ⟨f, found, indeterminate⟩ :
            ∃ f, requirementFinding capabilities fresh allowDegraded q = some f ∧
              f.gravity = .indeterminate := requirementFinding_of_undecided strength decided
        simp [Spares, found, indeterminate, decided]

/-! ### Portability -/

/-- The class of a move against every limit of the workload and the policy. -/
structure Portable (strict : Bool) (w : WorkloadProfile) (policy : FederationPolicy)
    (value : PortabilityClass) : Prop where
  established : strict = true → value ≠ .unknown
  possible : value ≠ .unsupported
  minimum : value ≠ .unknown → value.meetsThreshold w.minimumPortability = true
  binary : w.executionMode = .exactBinary →
    value = .native ∨ value = .binaryCompatible ∨ value = .liveMigrationSupported
  allowed : policy.allowedPortabilityClasses ≠ [] → value ≠ .unknown →
    value ∈ policy.allowedPortabilityClasses
  live : w.migrationNeed = .liveStateTransfer → value = .liveMigrationSupported
  checkpoint : w.migrationNeed = .checkpointRestore →
    value.meetsThreshold .checkpointRestoreSupported = true ∨
      w.reconstructionAllowed = true ∧ value.meetsThreshold .recompileRequired = true

theorem spares_classFindings :
    Spares strict (classFindings w value) ↔
      (strict = true → value ≠ .unknown) ∧ value ≠ .unsupported ∧
        (value ≠ .unknown → value.meetsThreshold w.minimumPortability = true) := by
  by_cases unknown : value = .unknown
  · simp [classFindings, unknown]
  · by_cases unsupported : value = .unsupported
    · simp [classFindings, unsupported]
    · simp [classFindings, unknown, unsupported]

theorem spares_modeFindings :
    Spares strict (modeFindings w policy value) ↔
      (w.executionMode = .exactBinary →
        value = .native ∨ value = .binaryCompatible ∨ value = .liveMigrationSupported) ∧
      (policy.allowedPortabilityClasses ≠ [] → value ≠ .unknown →
        value ∈ policy.allowedPortabilityClasses) := by
  simp [modeFindings, or_iff_not_imp_left]

theorem spares_migrationFindings :
    Spares strict (migrationFindings w value) ↔
      (w.migrationNeed = .liveStateTransfer → value = .liveMigrationSupported) ∧
      (w.migrationNeed = .checkpointRestore →
        value.meetsThreshold .checkpointRestoreSupported = true ∨
          w.reconstructionAllowed = true ∧ value.meetsThreshold .recompileRequired = true) := by
  simp [migrationFindings, or_iff_not_imp_left]

/-- What the classifier has to say is passed on as notes. -/
theorem spares_classifierFindings {result : PortabilityResult} :
    Spares strict (classifierFindings result) := by
  intro f listed
  obtain ⟨_, _, rfl⟩ := List.mem_map.mp listed
  simp

/-- The class of the move from an origin. -/
abbrev classFrom (w : WorkloadProfile) (policy : FederationPolicy) (capabilities : CapabilitySet)
    (source : EvaluationSource) : PortabilityClass :=
  (classifyPortability (portabilityRequest w policy capabilities source)).value

theorem spares_portabilityFindings {source : Option EvaluationSource} :
    Spares strict (portabilityFindings w policy capabilities source).2 ↔
      ∀ s, source = some s → Portable strict w policy (classFrom w policy capabilities s) := by
  cases source with
  | none => simp [portabilityFindings]
  | some s =>
      simp only [portabilityFindings, spares_append, spares_classFindings, spares_modeFindings,
        spares_migrationFindings, spares_classifierFindings, true_and, Option.some.injEq,
        forall_eq']
      constructor
      · rintro ⟨⟨⟨established, possible, minimum⟩, binary, allowed⟩, live, checkpoint⟩
        exact ⟨established, possible, minimum, binary, allowed, live, checkpoint⟩
      · intro portable
        exact ⟨⟨⟨portable.established, portable.possible, portable.minimum⟩, portable.binary,
          portable.allowed⟩, portable.live, portable.checkpoint⟩

end Checks

/-! ### Every check -/

/-- Every check of an evaluation. -/
structure Clears (strict : Bool) (w : WorkloadProfile) (context : EvaluationContext)
    (policy : FederationPolicy) (capabilities : CapabilitySet) : Prop where
  requirements : ∀ q ∈ w.requirements, q.Clears strict (capabilities.lookup q.capability)
    context.target.evidenceFresh policy.allowDegradedCapabilities
  checked : Checked strict w policy context.target capabilities
  membership : context.target.acceptsNewWork = true
  portability : ∀ source, context.source = some source →
    Portable strict w policy (classFrom w policy capabilities source)

section Evaluation

variable {R : Registry} {w : WorkloadProfile} {context : EvaluationContext}
  {policy : FederationPolicy} {capabilities : CapabilitySet} {createdAt : Timestamp}

theorem spares_evaluationFindings (valid : w.validate R = .ok ()) {strict : Bool} :
    Spares strict (evaluationFindings w context policy capabilities) ↔
      Clears strict w context policy capabilities := by
  have requirements : Spares strict ((canonicalizeRequirements w).filterMap
        (requirementFinding capabilities context.target.evidenceFresh
          policy.allowDegradedCapabilities)) ↔
      ∀ q ∈ w.requirements, q.Clears strict (capabilities.lookup q.capability)
        context.target.evidenceFresh policy.allowDegradedCapabilities := by
    rw [List.filterMap_eq_flatMap_toList, spares_flatMap]
    simp only [canonicalizeRequirements, mem_sortOn]
    apply forall₂_congr
    intro q listed
    exact spares_requirementFinding (validate_of_mem valid listed)
  rw [evaluationFindings, spares_append, spares_append, requirements, spares_policyFindings,
    spares_portabilityFindings]
  constructor
  · rintro ⟨⟨requirements, checked, accepts⟩, portable⟩
    exact ⟨requirements, checked, accepts, portable⟩
  · intro clears
    exact ⟨⟨clears.requirements, clears.checked, clears.membership⟩, clears.portability⟩

/-- A pair is eligible exactly when every check passes strictly. -/
theorem eligible_iff_clears (valid : w.validate R = .ok ()) :
    (assessed w context policy capabilities createdAt).refreshIdentity.outcome = .eligible ↔
      Clears true w context policy capabilities :=
  outcomeOf_eq_eligible_iff_spares.trans (spares_evaluationFindings valid)

/-- A pair is ineligible exactly when some check is refuted. -/
theorem ne_ineligible_iff_clears (valid : w.validate R = .ok ()) :
    (assessed w context policy capabilities createdAt).refreshIdentity.outcome ≠ .ineligible ↔
      Clears false w context policy capabilities :=
  outcomeOf_ne_ineligible_iff_spares.trans (spares_evaluationFindings valid)

end Evaluation

/-! ### Constraints of the policy -/

namespace CapabilitySet

/-- The target has the capability, with full support or degraded, and this value of it. -/
def Advertises (set : CapabilitySet) (name : Bytes) (value : CapabilityValue) : Prop :=
  (set.lookup name).value = some value ∧
    ((set.lookup name).state = .supported ∨ (set.lookup name).state = .degraded)

/-- Tokens of a set are not empty. -/
theorem token_ne_nil {set : CapabilitySet} {name token : Bytes}
    (found : (set.lookup name).value = some (.enumeration token)) : token ≠ [] := by
  cases CapabilityValue.canonicalize_eq_ok_iff.mp (canonicalize_of_lookup found) with
  | enumeration canonical => exact (isCanonical_of_canonicalToken canonical).nonempty

/-- The engine reads a token with full support and nothing else. -/
theorem enumerationToken_eq_iff {set : CapabilitySet} {name token : Bytes}
    (core : coreKind name = some .enumeration) (given : token ≠ []) :
    enumerationToken set name = token ↔
      (set.lookup name).state = .supported ∧
        (set.lookup name).value = some (.enumeration token) := by
  rw [enumerationToken]
  cases found : (set.lookup name).value with
  | none => simp [given.symm]
  | some value =>
      obtain ⟨carried, rfl⟩ : ∃ carried, value = .enumeration carried := by
        have kind := kind_of_lookup core found
        cases value <;> cases kind
        exact ⟨_, rfl⟩
      by_cases supported : (set.lookup name).state = .supported
      · simp [supported, present_of_value found, CapabilityValue.render]
      · simp [supported, given.symm]

end CapabilitySet

/-- What a policy demands of a target. -/
structure Constrained (w : WorkloadProfile) (policy : FederationPolicy) (target : EvaluationTarget)
    (capabilities : CapabilitySet) : Prop where
  accelerator : target.accelerator ∉ policy.forbiddenAccelerators
  allowed : policy.allowedVendors ≠ [] → ∃ token ∈ policy.allowedVendors,
    (capabilities.lookup Cap.vendorId).state = .supported ∧
      (capabilities.lookup Cap.vendorId).value = some (.enumeration token)
  forbidden : ∀ token ∈ policy.forbiddenVendors,
    ¬ capabilities.Advertises Cap.vendorId (.enumeration token)
  architecture : ∀ token ∈ policy.deprecatedArchitectures,
    ¬ capabilities.Advertises Cap.architectureFamily (.enumeration token)
  memory : policy.minimumMemoryBytes ≠ 0 →
    ∃ n, capabilities.Advertises Cap.memoryTotalBytes (.integer n) ∧
      (policy.minimumMemoryBytes.toNat : Int) ≤ n.toInt
  runtime : policy.minimumRuntimeVersion.clauses ≠ [] →
    ∃ v, capabilities.Advertises Cap.runtimeVersion (.version v) ∧
      policy.minimumRuntimeVersion.isMatch v = true
  required : ∀ name ∈ policy.requiredCapabilities, (capabilities.lookup name).state = .supported
  denied : ∀ name ∈ policy.deniedCapabilities,
    (capabilities.lookup name).state ≠ .supported ∧ (capabilities.lookup name).state ≠ .degraded
  tags : ∀ tag ∈ w.requiredPolicyTags, tag ∈ policy.tags
  provenance : (policy.syntheticEvidencePolicy = .reject → target.provenance = .real) ∧
    (policy.syntheticEvidencePolicy = .require → target.provenance = .synthetic)

/-- The capability set leaves the engine no occasion to skip a constraint of the policy. -/
structure Gapless (policy : FederationPolicy) (capabilities : CapabilitySet) : Prop where
  vendor : policy.allowedVendors ≠ [] → (capabilities.lookup Cap.vendorId).state = .supported
  degradedVendor : (capabilities.lookup Cap.vendorId).state = .degraded →
    ∀ token ∈ policy.forbiddenVendors,
      (capabilities.lookup Cap.vendorId).value ≠ some (.enumeration token)
  degradedArchitecture : (capabilities.lookup Cap.architectureFamily).state = .degraded →
    ∀ token ∈ policy.deprecatedArchitectures,
      (capabilities.lookup Cap.architectureFamily).value ≠ some (.enumeration token)
  memory : policy.minimumMemoryBytes ≠ 0 →
    (capabilities.lookup Cap.memoryTotalBytes).state ≠ .unsupported ∧
      ∀ n, (capabilities.lookup Cap.memoryTotalBytes).value = some (.integer n) → 0 ≤ n.toInt
  runtime : policy.minimumRuntimeVersion.clauses ≠ [] →
    (capabilities.lookup Cap.runtimeVersion).state ≠ .unsupported

section Constraints

variable {w : WorkloadProfile} {policy : FederationPolicy} {target : EvaluationTarget}
  {capabilities : CapabilitySet}

/-- What is neither unknown nor unsupported is advertised. -/
theorem CapabilityState.supported_or_degraded {state : CapabilityState}
    (known : state ≠ .unknown) (claimed : state ≠ .unsupported) :
    state = .supported ∨ state = .degraded := by
  cases state <;> simp_all

/-- A signed quantity that is not negative is compared as what it is. -/
theorem toNat_le_of_le_toUInt64 {minimum : UInt64} {n : Int64} (positive : 0 ≤ n.toInt)
    (le : minimum ≤ n.toUInt64) : (minimum.toNat : Int) ≤ n.toInt := by
  have value : n.toInt = if 2 * n.toUInt64.toNat < 2 ^ 64 then (n.toUInt64.toNat : Int)
      else (n.toUInt64.toNat : Int) - (2 ^ 64 : Nat) := BitVec.toInt_eq_toNat_cond _
  have bounded := n.toUInt64.toNat_lt
  rw [UInt64.le_iff_toNat_le] at le
  split_ifs at value <;> omega

/-- A token list is checked against what the target has with full support. -/
theorem not_advertises_iff {name : Bytes} (core : coreKind name = some .enumeration)
    {tokens : List Bytes} (checked : enumerationToken capabilities name ≠ [] →
      enumerationToken capabilities name ∉ tokens) :
    (∀ token ∈ tokens, ¬ capabilities.Advertises name (.enumeration token)) ↔
      ((capabilities.lookup name).state = .degraded → ∀ token ∈ tokens,
        (capabilities.lookup name).value ≠ some (.enumeration token)) := by
  constructor
  · intro none' degraded token listed found
    exact none' token listed ⟨found, .inr degraded⟩
  · rintro none' token listed ⟨found, supported | degraded⟩
    · have given := CapabilitySet.token_ne_nil found
      have same := (CapabilitySet.enumerationToken_eq_iff core given).mpr ⟨supported, found⟩
      rw [same] at checked
      exact checked given listed
    · exact none' degraded token listed found

/-- A minimum memory that is checked is met, unless the size is positively absent or negative. -/
theorem exists_memory_iff (checked : Checked true w policy target capabilities)
    (set : policy.minimumMemoryBytes ≠ 0) :
    (∃ n, capabilities.Advertises Cap.memoryTotalBytes (.integer n) ∧
        (policy.minimumMemoryBytes.toNat : Int) ≤ n.toInt) ↔
      (capabilities.lookup Cap.memoryTotalBytes).state ≠ .unsupported ∧
        ∀ n, (capabilities.lookup Cap.memoryTotalBytes).value = some (.integer n) →
          0 ≤ n.toInt := by
  constructor
  · rintro ⟨n, ⟨found, advertised⟩, enough⟩
    constructor
    · intro unsupported
      simp [unsupported] at advertised
    · intro n' found'
      cases found.symm.trans found'
      omega
  · rintro ⟨claimed, positive⟩
    have known := checked.memory set
    split_ifs at known with unknown
    obtain ⟨value, found⟩ := CapabilitySet.exists_value_of_state unknown claimed
    obtain ⟨n, rfl⟩ : ∃ n, value = .integer n := by
      have kind : value.kind = .integer := CapabilitySet.kind_of_lookup (by decide +kernel) found
      cases value <;> cases kind
      exact ⟨_, rfl⟩
    have advertised := CapabilityState.supported_or_degraded unknown claimed
    exact ⟨n, ⟨found, advertised⟩, toNat_le_of_le_toUInt64 (positive n found) (known _ found)⟩

/-- A minimum version that is checked is met, unless the runtime is positively absent. -/
theorem exists_runtime_iff (checked : Checked true w policy target capabilities)
    (set : policy.minimumRuntimeVersion.clauses ≠ []) :
    (∃ v, capabilities.Advertises Cap.runtimeVersion (.version v) ∧
        policy.minimumRuntimeVersion.isMatch v = true) ↔
      (capabilities.lookup Cap.runtimeVersion).state ≠ .unsupported := by
  constructor
  · rintro ⟨v, ⟨found, advertised⟩, _⟩ unsupported
    simp [unsupported] at advertised
  · intro claimed
    have known := checked.runtime set
    split_ifs at known with unknown
    obtain ⟨value, found⟩ := CapabilitySet.exists_value_of_state unknown claimed
    obtain ⟨v, rfl⟩ : ∃ v, value = .version v := by
      have kind : value.kind = .version := CapabilitySet.kind_of_lookup (by decide +kernel) found
      cases value <;> cases kind
      exact ⟨_, rfl⟩
    have advertised := CapabilityState.supported_or_degraded unknown claimed
    exact ⟨v, ⟨found, advertised⟩, known _ found⟩

/-- An allow list that is checked is kept by a vendor with full support. -/
theorem exists_vendor_iff (checked : Checked true w policy target capabilities)
    (set : policy.allowedVendors ≠ []) :
    (∃ token ∈ policy.allowedVendors, (capabilities.lookup Cap.vendorId).state = .supported ∧
        (capabilities.lookup Cap.vendorId).value = some (.enumeration token)) ↔
      (capabilities.lookup Cap.vendorId).state = .supported := by
  constructor
  · rintro ⟨_, _, supported, _⟩
    exact supported
  · intro supported
    obtain ⟨value, found⟩ : ∃ value, (capabilities.lookup Cap.vendorId).value = some value :=
      CapabilitySet.exists_value_of_state (by simp [supported]) (by simp [supported])
    have core : coreKind Cap.vendorId = some .enumeration := by decide +kernel
    obtain ⟨token, rfl⟩ : ∃ token, value = .enumeration token := by
      have kind := CapabilitySet.kind_of_lookup core found
      cases value <;> cases kind
      exact ⟨_, rfl⟩
    have given := CapabilitySet.token_ne_nil found
    have same := (CapabilitySet.enumerationToken_eq_iff core given).mpr ⟨supported, found⟩
    have listed := checked.allowed (by rwa [same]) set
    rw [same] at listed
    exact ⟨token, listed, supported, found⟩

/-- Checks that pass imply the constraints exactly when no constraint is skipped. -/
theorem constrained_iff_gapless (checked : Checked true w policy target capabilities) :
    Constrained w policy target capabilities ↔ Gapless policy capabilities := by
  have vendors := not_advertises_iff (by decide +kernel) checked.forbidden
  have architectures := not_advertises_iff (by decide +kernel) checked.architecture
  constructor
  · intro holds
    exact ⟨fun set => (exists_vendor_iff checked set).mp (holds.allowed set),
      vendors.mp holds.forbidden, architectures.mp holds.architecture,
      fun set => (exists_memory_iff checked set).mp (holds.memory set),
      fun set => (exists_runtime_iff checked set).mp (holds.runtime set)⟩
  · intro gapless
    have required (name : Bytes) (listed : name ∈ policy.requiredCapabilities) :
        (capabilities.lookup name).state = .supported := by
      have known := checked.required name listed
      split_ifs at known
      exact known
    exact ⟨checked.accelerator,
      fun set => (exists_vendor_iff checked set).mpr (gapless.vendor set),
      vendors.mpr gapless.degradedVendor, architectures.mpr gapless.degradedArchitecture,
      fun set => (exists_memory_iff checked set).mpr (gapless.memory set),
      fun set => (exists_runtime_iff checked set).mpr (gapless.runtime set),
      required, checked.denied, checked.tags, checked.provenance⟩

end Constraints

/-- **Eligibility and the policy.** An eligible target meets every constraint of the policy
exactly when, should it pass every check, its capabilities leave no constraint unchecked. -/
theorem constrained_iff_no_gap {R : Registry} {w : WorkloadProfile} {context : EvaluationContext}
    {policy : FederationPolicy} {capabilities : CapabilitySet} {createdAt : Timestamp}
    {d : CompatibilityDecision} (governed : context.policy = some policy)
    (evident : context.target.capabilities = some capabilities)
    (made : evaluateCompatibility R w context createdAt = .ok d) :
    (d.outcome = .eligible → Constrained w policy context.target capabilities) ↔
      (Clears true w context policy capabilities → Gapless policy capabilities) := by
  obtain ⟨valid, policy', capabilities', governed', evident', _, _, rfl⟩ :=
    evaluateCompatibility_eq_ok.mp made
  cases governed.symm.trans governed'
  cases evident.symm.trans evident'
  rw [eligible_iff_clears valid]
  apply forall_congr'
  intro clears
  exact constrained_iff_gapless clears.checked

namespace Sample

/-- A policy that admits one vendor only. -/
def vendorPolicy : FederationPolicy :=
  { FederationPolicy.permissiveDefault with allowedVendors := [text "acme"] }

/-- A workload without requirements. -/
def undemanding : WorkloadProfile := { vendorBound with requirements := [] }

/-- An active target about which nothing is known, under that policy. -/
def anonymous : EvaluationContext := { blankContext with policy := some vendorPolicy }

theorem valid_vendorPolicy : vendorPolicy.validate .core = .ok () := by decide +kernel

theorem valid_undemanding : undemanding.validate .core = .ok () := by decide +kernel

theorem made_anonymous : evaluateCompatibility .core undemanding anonymous 0 =
    .ok (assessed undemanding anonymous vendorPolicy {} 0).refreshIdentity :=
  evaluateCompatibility_of_valid valid_undemanding rfl valid_vendorPolicy rfl (by decide) 0

end Sample

open Sample in
/-- A device of unknown vendor is eligible under a policy that admits one vendor only. -/
theorem anonymous_eligible : ∃ d, evaluateCompatibility .core undemanding anonymous 0 = .ok d ∧
    d.outcome = .eligible ∧ vendorPolicy.allowedVendors = [text "acme"] ∧
    (({} : CapabilitySet).lookup Cap.vendorId).state = .unknown := by
  refine ⟨_, made_anonymous, ?_, rfl, by decide +kernel⟩
  decide +kernel

open Sample in
/-- The gap of that evaluation. -/
theorem gap_anonymous : ¬ Gapless vendorPolicy {} ∧
    ∃ d, evaluateCompatibility .core undemanding anonymous 0 = .ok d ∧
      ((d.outcome = .eligible → Constrained undemanding vendorPolicy anonymous.target {}) ↔
        (Clears true undemanding anonymous vendorPolicy {} → Gapless vendorPolicy {})) := by
  refine ⟨fun gapless => ?_, _, made_anonymous, constrained_iff_no_gap rfl rfl made_anonymous⟩
  have supported := gapless.vendor (by decide)
  revert supported
  decide +kernel

end Haf
