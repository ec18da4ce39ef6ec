/-
# Policies that were stored

A policy is accepted as it is given, and what is decoded later is canonicalized: the entries
of its dimensions are brought into canonical form, sorted and searched for repetitions, and
the version range is parsed again from its text. A federation that recovers should judge as
it judged before. It is shown which accepted policies come back, with their identity, as
policies under which every pair and every move is judged alike; a missing version range comes
back as a wildcard, which asks for a known runtime version where nothing was asked before.
-/

import Haf.Properties.CanonicalForm
import Haf.Properties.Declaration
import Haf.Properties.RoundTrips
import Haf.Properties.Vocabulary

namespace Haf

open Sequence Wire

/-! ### Judgements -/

/-- What a decision says of a pair. -/
def CompatibilityDecision.judgement (d : CompatibilityDecision) :
    CompatibilityOutcome × PortabilityClass × List CompatibilityReason :=
  (d.outcome, d.portability, d.reasons)

/-- What a plan says of a move. -/
def MigrationPlan.judgement (plan : MigrationPlan) :
    MigrationOutcome × PortabilityClass × List CompatibilityReason :=
  (plan.outcome, plan.portability, plan.refusalReasons)

namespace FederationPolicy

/-- Every pair and every move is judged alike under both policies. -/
structure JudgesAlike (R : Registry) (p q : FederationPolicy) : Prop where
  pairs : ∀ (w : WorkloadProfile) (context : EvaluationContext) (createdAt : Timestamp),
    (evaluateCompatibility R w { context with policy := some p } createdAt).map (·.judgement) =
      (evaluateCompatibility R w { context with policy := some q } createdAt).map (·.judgement)
  moves : ∀ (request : MigrationRequest) (createdAt : Timestamp),
    (planMigration { request with policy := some p } createdAt).map (·.judgement) =
      (planMigration { request with policy := some q } createdAt).map (·.judgement)

/-- The policy is read back as one of the same identity and generation that judges alike. -/
def KeepsMeaning (R : Registry) (p : FederationPolicy) : Prop :=
  ∃ q, (deserialize R).run p.serialize = .ok (q, []) ∧
    q.id = p.id ∧ q.generation = p.generation ∧ p.JudgesAlike R q

/-! ### Policies in another order -/

section Reordered

variable {R : Registry} {p q : FederationPolicy}

theorem Reordered.classRefusals_eq (reordered : p.Reordered q) (request : MigrationRequest)
    (value : PortabilityClass) :
    request.classRefusals p value = request.classRefusals q value := by
  have synthetic : q.syntheticEvidencePolicy = p.syntheticEvidencePolicy := by
    rw [reordered.rest]
  simp only [MigrationRequest.classRefusals, contains_perm reordered.classes,
    reordered.classes.isEmpty_eq, synthetic]

theorem Reordered.decided_eq (reordered : p.Reordered q) (request : MigrationRequest)
    (w : WorkloadProfile) (source destination : CapabilitySet) (plan : MigrationPlan) :
    request.decided p w source destination plan = request.decided q w source destination plan := by
  have crossVendor (value : PortabilityClass) :
      request.crossVendorRefusals p w source destination value =
        request.crossVendorRefusals q w source destination value := by
    rw [reordered.rest]
    rfl
  simp only [MigrationRequest.decided, crossVendor, reordered.classRefusals_eq]

/-- Valid policies that differ in the order of their dimensions judge alike. -/
theorem Reordered.judgesAlike (reordered : p.Reordered q) (valid : p.validate R = .ok ())
    (valid' : q.validate R = .ok ()) : p.JudgesAlike R q := by
  constructor
  · intro w context createdAt
    cases sound : w.validate R with
    | error e => simp only [evaluateCompatibility, sound, bind, Except.bind]
    | ok u =>
        have alike (set : CapabilitySet) :
            assessed w { context with policy := some p } p set createdAt =
              assessed w { context with policy := some q } q set createdAt :=
          (assessed_reordered sound ⟨.rfl, .rfl, rfl⟩ reordered createdAt createdAt).symm
        simp only [evaluateCompatibility, sound, valid, valid', alike]
  · intro request createdAt
    have bound (w : WorkloadProfile) :
        MigrationRequest.bound { request with policy := some p } p w createdAt =
          MigrationRequest.bound { request with policy := some q } q w createdAt := by
      rw [reordered.rest]
      rfl
    have decided (w : WorkloadProfile) (source destination : CapabilitySet) (plan : MigrationPlan) :
        MigrationRequest.decided { request with policy := some p } p w source destination plan =
          MigrationRequest.decided { request with policy := some q } q w source destination plan :=
      reordered.decided_eq { request with policy := some p } w source destination plan
    simp only [planMigration, bound, decided]

end Reordered

end FederationPolicy

/-! ### What an evaluation tells about a policy -/

/-- A reason is among the findings. -/
def Cited (r : CompatibilityReason) (findings : List Finding) : Prop :=
  ∃ f ∈ findings, f.reason = r

section Cited

variable {r : CompatibilityReason} {first second : List Finding}

@[simp] theorem cited_nil : Cited r [] ↔ False := by simp [Cited]

@[simp] theorem cited_append : Cited r (first ++ second) ↔ Cited r first ∨ Cited r second := by
  simp [Cited, or_and_right, exists_or]

@[simp] theorem cited_flatMap {α : Type} {items : List α} {findings : α → List Finding} :
    Cited r (items.flatMap findings) ↔ ∃ a ∈ items, Cited r (findings a) := by
  simp only [Cited, List.mem_flatMap]
  constructor
  · rintro ⟨f, ⟨a, listed, inside⟩, same⟩
    exact ⟨a, listed, f, inside, same⟩
  · rintro ⟨a, listed, f, inside, same⟩
    exact ⟨f, ⟨a, listed, inside⟩, same⟩

@[simp] theorem cited_ite {condition : Prop} [Decidable condition] :
    Cited r (if condition then first else second) ↔
      if condition then Cited r first else Cited r second := by
  split <;> rfl

@[simp] theorem cited_hardFinding {gravity : Gravity} {code : ErrorCode} {subject detail : Bytes}
    {observed : CapabilityState} :
    Cited r [hardFinding gravity code subject detail observed] ↔
      { code, subject, detail, strength := .hard, observed } = r := by
  simp [Cited, hardFinding]

end Cited

/-- A workload that asks for policy tags and for nothing else. -/
def bareWork (tags : List Bytes) : WorkloadProfile :=
  { classId := ⟨.fromBytes [1]⟩, requirementId := ⟨.fromBytes [2]⟩, name := text "w"
    requiredPolicyTags := tags }

/-- An accelerator that accepts work and reports the given capabilities. -/
def bareTarget (set : CapabilitySet) : EvaluationTarget :=
  { accelerator := ⟨.fromBytes [1]⟩, deviceGeneration := ⟨1⟩, capabilityGeneration := ⟨1⟩
    evidenceGeneration := ⟨1⟩, supportLevel := .translated, provenance := .real
    capabilities := some set, evidenceFresh := true, acceptsNewWork := true }

/-- The evaluation for that accelerator under a policy. -/
def bareContext (set : CapabilitySet) (policy : FederationPolicy) : EvaluationContext :=
  { federation := .nil, federationGeneration := ⟨1⟩, epoch := ⟨1⟩, policyGeneration := ⟨1⟩
    policy := some policy, workloadRevision := ⟨1⟩, target := bareTarget set, source := none }

theorem identified_bareTarget (set : CapabilitySet) : (bareTarget set).accelerator ≠ .nil := by
  have identified : (⟨.fromBytes [1]⟩ : AcceleratorId) ≠ .nil := by decide
  exact identified

theorem valid_bareWork (R : Registry) {tags : List Bytes} (few : tags.length ≤ 1)
    (short : ∀ tag ∈ tags, tag ≠ [] ∧ tag.length ≤ Limits.maxTokenBytes) :
    (bareWork tags).validate R = .ok () := by
  have alone : adjacentDuplicate (ascending tags) = none :=
    adjacentDuplicate_eq_none (nodup_ascending (by
      match tags, few with
      | [], _ => exact .nil
      | [tag], _ => exact List.nodup_singleton tag))
  have fits : tags.length ≤ Limits.maxPolicyDimensions := few.trans (by decide)
  have none' : WorkloadProfile.refuseDuplicate
      "workload profile declares a duplicate policy tag: " tags = .ok () := by
    rw [WorkloadProfile.refuseDuplicate, alone]
  have every : (tags.all fun tag => !tag.isEmpty && tag.length ≤ Limits.maxTokenBytes) = true := by
    simpa using short
  simp only [WorkloadProfile.validate, bind_eq_ok, ensure_eq_ok]
  exact ⟨(), rfl, (), rfl, (), rfl, (), rfl, (), rfl, (), rfl, (), rfl, (), decide_eq_true fits, (),
    none', (), every, rfl⟩

theorem valid_bareWork_nil (R : Registry) : (bareWork []).validate R = .ok () :=
  valid_bareWork R (Nat.zero_le 1) nofun

namespace FederationPolicy

section Cites

variable {R : Registry} {p q : FederationPolicy} {w : WorkloadProfile} {set : CapabilitySet}
  {r : CompatibilityReason}

theorem reasons_of_judged {d d' : CompatibilityDecision}
    (judged : (Except.ok d : Result CompatibilityDecision).map (·.judgement) =
      (Except.ok d' : Result CompatibilityDecision).map (·.judgement)) : d.reasons = d'.reasons :=
  congrArg (·.2.2) (Except.ok.inj judged)

/-- Policies that judge alike give the same reasons for refusing a workload on an accelerator. -/
theorem JudgesAlike.cited_iff (alike : p.JudgesAlike R q) (valid : p.validate R = .ok ())
    (valid' : q.validate R = .ok ()) {tags : List Bytes}
    (sound : (bareWork tags).validate R = .ok ()) (r : CompatibilityReason) :
    Cited r (policyFindings (bareWork tags) p (bareTarget set) set) ↔
      Cited r (policyFindings (bareWork tags) q (bareTarget set) set) := by
  have cited (p : FederationPolicy) :
      r ∈ (assessed (bareWork tags) (bareContext set p) p set 0).refreshIdentity.reasons ↔
        Cited r (policyFindings (bareWork tags) p (bareTarget set) set) := by
    rw [mem_reasons]
    refine exists_congr fun f => and_congr_left' ?_
    rw [mem_evaluationFindings]
    simp [bareWork, portabilityFindings, bareContext]
  have judged := alike.pairs (bareWork tags) (bareContext set p) 0
  rw [evaluateCompatibility_of_valid sound rfl valid rfl (identified_bareTarget set),
    evaluateCompatibility_of_valid sound rfl valid' rfl (identified_bareTarget set)] at judged
  have reasons := reasons_of_judged judged
  rw [← cited p, ← cited q]
  exact iff_of_eq (congrArg (r ∈ ·) reasons)

variable {name vendor tag : Bytes} {code : ErrorCode} {subject detail : Bytes}
  {observed : CapabilityState}

/-- A version that is too old is reported under a code of its own. -/
@[simp] theorem cited_runtime_iff (other : .runtimeVersionUnsupported ≠ code) :
    Cited { code, subject, detail, observed } (runtimeFindings p set) ↔
      p.minimumRuntimeVersion.isAny = false ∧ (set.lookup Cap.runtimeVersion).state = .unknown ∧
      .unknownCapability = code ∧ Cap.runtimeVersion = subject ∧
      text "policy sets a minimum runtime version but the runtime version is UNKNOWN" = detail ∧
      .unknown = observed := by
  unfold runtimeFindings
  dsimp only
  repeat' split
  all_goals simp_all

/-- So is a memory that is too small. -/
@[simp] theorem cited_memory_iff (other : .insufficientMemory ≠ code) :
    Cited { code, subject, detail, observed } (memoryFindings p set) ↔
      p.minimumMemoryBytes ≠ 0 ∧ (set.lookup Cap.memoryTotalBytes).state = .unknown ∧
      .unknownCapability = code ∧ Cap.memoryTotalBytes = subject ∧
      text "policy sets a minimum memory but total memory is UNKNOWN" = detail ∧
      .unknown = observed := by
  unfold memoryFindings
  dsimp only
  repeat' split
  all_goals simp_all

@[simp] theorem cited_missing_iff (other : .missingMandatoryCapability ≠ code) :
    Cited { code, subject, detail, observed } (requiredFindings set name) ↔
      (set.lookup name).state = .unknown ∧ .unknownCapability = code ∧ name = subject ∧
      text "policy requires this capability but there is no evidence" = detail ∧
      .unknown = observed := by
  unfold requiredFindings
  dsimp only
  repeat' split
  all_goals simp_all

theorem cited_policyFindings : Cited r (policyFindings w p (bareTarget set) set) ↔
    Cited r (identityFindings p (bareTarget set).accelerator set) ∨ Cited r (runtimeFindings p set) ∨
      Cited r (memoryFindings p set) ∨
      (∃ name ∈ p.requiredCapabilities, Cited r (requiredFindings set name)) ∨
      (∃ name ∈ p.deniedCapabilities, Cited r (deniedFindings set name)) ∨
      (∃ tag ∈ w.requiredPolicyTags, Cited r (tagFindings p tag)) ∨
      p.syntheticEvidencePolicy = .require ∧
        { code := .policyMismatch, subject := text "policy.synthetic_evidence"
          detail := text "policy accepts only SYNTHETIC evidence but this member reports REAL"
          observed := .unsupported } = r := by
  have provenance : Cited r (provenanceFindings p .real) ↔ p.syntheticEvidencePolicy = .require ∧
      { code := .policyMismatch, subject := text "policy.synthetic_evidence"
        detail := text "policy accepts only SYNTHETIC evidence but this member reports REAL"
        observed := .unsupported } = r := by
    cases rule : p.syntheticEvidencePolicy <;> simp [provenanceFindings, rule]
    rfl
  simp only [policyFindings, cited_append, cited_flatMap, membershipFindings, bareTarget, if_true,
    cited_nil, or_false, or_assoc, provenance]

/-- A known vendor is reported as forbidden if it is listed as forbidden. -/
theorem cited_forbidden_iff (given : vendor ≠ [])
    (known : enumerationToken set Cap.vendorId = vendor) :
    Cited { code := .vendorMismatch, subject := Cap.vendorId
            detail := text "vendor '" ++ vendor ++ text "' is forbidden by policy"
            observed := .supported }
        (policyFindings w p (bareTarget set) set) ↔ vendor ∈ p.forbiddenVendors := by
  simp +decide [cited_policyFindings, identityFindings, deniedFindings, tagFindings, known, given]

theorem cited_allowed_iff (given : vendor ≠ [])
    (known : enumerationToken set Cap.vendorId = vendor) :
    Cited { code := .vendorMismatch, subject := Cap.vendorId
            detail := text "vendor '" ++ vendor ++ text "' is not in the policy allow list"
            observed := .supported }
        (policyFindings w p (bareTarget set) set) ↔
      p.allowedVendors ≠ [] ∧ vendor ∉ p.allowedVendors := by
  simp +decide [cited_policyFindings, identityFindings, deniedFindings, tagFindings, known, given]

theorem cited_deprecated_iff {architecture : Bytes} (given : architecture ≠ [])
    (known : enumerationToken set Cap.architectureFamily = architecture) :
    Cited { code := .architectureMismatch, subject := Cap.architectureFamily
            detail := text "architecture '" ++ architecture ++ text "' is deprecated by policy"
            observed := .supported }
        (policyFindings w p (bareTarget set) set) ↔
      architecture ∈ p.deprecatedArchitectures := by
  simp +decide [cited_policyFindings, identityFindings, deniedFindings, tagFindings, known, given]

/-- A required capability about which nothing is known is reported under its name. -/
theorem cited_required_iff (unknown : (set.lookup name).state = .unknown) :
    Cited { code := .unknownCapability, subject := name
            detail := text "policy requires this capability but there is no evidence"
            observed := .unknown }
        (policyFindings w p (bareTarget set) set) ↔ name ∈ p.requiredCapabilities := by
  simp +decide [cited_policyFindings, identityFindings, deniedFindings, tagFindings, unknown]

/-- A denied capability that is supported is reported under its name. -/
theorem cited_denied_iff (supported : (set.lookup name).state = .supported) :
    Cited { code := .policyMismatch, subject := name
            detail := text "policy denies this capability and the accelerator supports it"
            observed := .supported }
        (policyFindings (bareWork []) p (bareTarget set) set) ↔ name ∈ p.deniedCapabilities := by
  simp +decide [cited_policyFindings, identityFindings, deniedFindings, bareWork, supported]

/-- A tag that the workload asks for is reported unless the policy provides it. -/
theorem cited_tag_iff :
    Cited { code := .policyMismatch, subject := text "policy.tag." ++ tag
            detail := text "workload requires policy tag '" ++ tag ++
              text "' which the active policy does not provide"
            observed := .unsupported }
        (policyFindings (bareWork [tag]) p (bareTarget {}) {}) ↔ tag ∉ p.tags := by
  have start : (text "workload requires policy tag '").head? = some 119 := by decide
  have apart {other after : Bytes} (differs : other.head? ≠ some 119) :
      other ≠ text "workload requires policy tag '" ++ after := by
    rintro rfl
    exact differs (by simp [start])
  simp +decide [cited_policyFindings, identityFindings, deniedFindings, tagFindings, bareWork,
    CapabilitySet.lookup, enumerationToken, apart]

/-- An unknown runtime version is reported if the policy has a version range. -/
theorem cited_range_iff :
    Cited { code := .unknownCapability, subject := Cap.runtimeVersion
            detail := text
              "policy sets a minimum runtime version but the runtime version is UNKNOWN"
            observed := .unknown }
        (policyFindings w p (bareTarget {}) {}) ↔ p.minimumRuntimeVersion.isAny = false := by
  simp +decide [cited_policyFindings, identityFindings, deniedFindings, tagFindings,
    CapabilitySet.lookup, enumerationToken]

end Cites

end FederationPolicy

/-! ### Accelerators that tell policies apart -/

/-- Any canonical token can be the value of an enumeration key. -/
theorem exists_enumerationToken {name token : Bytes} (core : coreKind name = some .enumeration)
    (canonical : IsCanonical token Limits.maxTokenBytes) :
    ∃ set : CapabilitySet, enumerationToken set name = token := by
  obtain ⟨entry, found, same⟩ := Option.map_eq_some_iff.mp core
  have named : entry.1 = name := by simpa using List.find?_some found
  have inside := isCanonical_of_mem_coreKeys (List.mem_of_find?_eq_some found)
  rw [named] at inside
  have valid : CapabilityKey.valid ⟨name, .inr inside⟩ = true := by
    simpa [CapabilityKey.valid] using inside.nonempty
  have kind : CapabilityKey.kind ⟨name, .inr inside⟩ = .enumeration := by
    rw [CapabilityKey.kind, if_pos valid, core]
    rfl
  have fixed : (CapabilityValue.enumeration token).canonicalize = .ok (.enumeration token) := by
    rw [CapabilityValue.canonicalize, canonical.canonicalToken_eq]
    rfl
  obtain ⟨set, advertised, _⟩ := CapabilitySet.exists_supporting (.enumeration token) valid kind.symm
    fixed canonical.nonempty
  have looked : set.lookup name =
      { state := .supported, value := some (.enumeration token), present := true } := advertised
  refine ⟨set, ?_⟩
  rw [enumerationToken, looked]
  rfl

/-- Any extension name of the table can be supported. -/
theorem exists_supporting_extension {R : Registry} {name : Bytes} (listed : R.lists name = true)
    (extension : isExtensionName name = true) :
    ∃ set : CapabilitySet, (set.lookup name).state = .supported := by
  have canonical := R.isCanonical_of_lists listed
  have valid : CapabilityKey.valid ⟨name, .inr canonical⟩ = true := by
    simpa [CapabilityKey.valid] using canonical.nonempty
  have kind : CapabilityKey.kind ⟨name, .inr canonical⟩ = .tokenSet := by
    have outside : coreKind name = none := by
      cases core : coreKind name with
      | none => rfl
      | some kind =>
          have plain := (CapabilitySet.of_core (Option.isSome_iff_exists.mpr ⟨kind, core⟩)).1
          rw [extension] at plain
          cases plain
    rw [CapabilityKey.kind, if_pos valid, outside]
    rfl
  obtain ⟨set, advertised, _⟩ := CapabilitySet.exists_supporting (.tokenSet [text "a"]) valid
    kind.symm (by decide) (by decide)
  have looked : set.lookup name =
      { state := .supported, value := some (.tokenSet [text "a"]), present := true } := advertised
  exact ⟨set, by rw [looked]⟩

namespace FederationPolicy

section Readings

variable {R : Registry} {p q : FederationPolicy} (alike : p.JudgesAlike R q)
  (valid : p.validate R = .ok ()) (valid' : q.validate R = .ok ())

include alike valid valid'

theorem JudgesAlike.forbidden {vendor : Bytes}
    (canonical : IsCanonical vendor Limits.maxTokenBytes) :
    vendor ∈ p.forbiddenVendors ↔ vendor ∈ q.forbiddenVendors := by
  obtain ⟨set, known⟩ := exists_enumerationToken (by decide : coreKind Cap.vendorId = _) canonical
  rw [← cited_forbidden_iff canonical.nonempty known, ← cited_forbidden_iff canonical.nonempty known]
  exact alike.cited_iff valid valid' (valid_bareWork_nil R) _

theorem JudgesAlike.allowed {vendor : Bytes} (canonical : IsCanonical vendor Limits.maxTokenBytes) :
    p.allowedVendors ≠ [] ∧ vendor ∉ p.allowedVendors ↔
      q.allowedVendors ≠ [] ∧ vendor ∉ q.allowedVendors := by
  obtain ⟨set, known⟩ := exists_enumerationToken (by decide : coreKind Cap.vendorId = _) canonical
  rw [← cited_allowed_iff canonical.nonempty known, ← cited_allowed_iff canonical.nonempty known]
  exact alike.cited_iff valid valid' (valid_bareWork_nil R) _

theorem JudgesAlike.deprecated {architecture : Bytes}
    (canonical : IsCanonical architecture Limits.maxTokenBytes) :
    architecture ∈ p.deprecatedArchitectures ↔ architecture ∈ q.deprecatedArchitectures := by
  obtain ⟨set, known⟩ :=
    exists_enumerationToken (by decide : coreKind Cap.architectureFamily = _) canonical
  rw [← cited_deprecated_iff canonical.nonempty known,
    ← cited_deprecated_iff canonical.nonempty known]
  exact alike.cited_iff valid valid' (valid_bareWork_nil R) _

theorem JudgesAlike.required (name : Bytes) :
    name ∈ p.requiredCapabilities ↔ name ∈ q.requiredCapabilities := by
  have unknown : (({} : CapabilitySet).lookup name).state = .unknown := rfl
  rw [← cited_required_iff unknown, ← cited_required_iff unknown]
  exact alike.cited_iff valid valid' (valid_bareWork_nil R) _

theorem JudgesAlike.denied {name : Bytes} (listed : R.lists name = true)
    (extension : isExtensionName name = true) :
    name ∈ p.deniedCapabilities ↔ name ∈ q.deniedCapabilities := by
  obtain ⟨set, supported⟩ := exists_supporting_extension listed extension
  rw [← cited_denied_iff supported, ← cited_denied_iff supported]
  exact alike.cited_iff valid valid' (valid_bareWork_nil R) _

theorem JudgesAlike.tags {tag : Bytes} (canonical : IsCanonical tag Limits.maxTokenBytes) :
    tag ∈ p.tags ↔ tag ∈ q.tags := by
  have short : ∀ tag' ∈ [tag], tag' ≠ [] ∧ tag'.length ≤ Limits.maxTokenBytes := by
    intro tag' listed
    cases List.mem_singleton.mp listed
    exact ⟨canonical.nonempty, canonical.bounded⟩
  rw [← not_iff_not, ← cited_tag_iff, ← cited_tag_iff]
  exact alike.cited_iff valid valid' (valid_bareWork R le_rfl short) _

theorem JudgesAlike.range :
    p.minimumRuntimeVersion.isAny = false ↔ q.minimumRuntimeVersion.isAny = false := by
  rw [← cited_range_iff (w := bareWork []), ← cited_range_iff (w := bareWork [])]
  exact alike.cited_iff valid valid' (valid_bareWork_nil R) _

end Readings

/-! ### What the decoder makes of a policy -/

section Rereading

variable {R : Registry} {p q : FederationPolicy}

/-- The dimensions are canonicalized and the range is parsed again; nothing else changes. -/
theorem readBack_eq_ok (back : p.readBack R = .ok q) :
    canonicalizeTokens p.allowedVendors "allowed vendor" = .ok q.allowedVendors ∧
      canonicalizeTokens p.forbiddenVendors "forbidden vendor" = .ok q.forbiddenVendors ∧
      canonicalizeTokens p.deprecatedArchitectures "deprecated architecture" =
        .ok q.deprecatedArchitectures ∧
      canonicalizeCapabilities R p.requiredCapabilities "required capability" =
        .ok q.requiredCapabilities ∧
      canonicalizeCapabilities R p.deniedCapabilities "denied capability" =
        .ok q.deniedCapabilities ∧
      canonicalizeTokens p.tags "policy tag" = .ok q.tags ∧
      q.minimumRuntimeVersion = p.minimumRuntimeVersion.reread := by
  obtain ⟨range, parsed, admitted⟩ := bind_eq_ok.mp back
  cases Except.ok.inj (p.minimumRuntimeVersion.parse_toText.symm.trans parsed)
  simp only [admitDecoded, bind_eq_ok, pure_eq_ok] at admitted
  obtain ⟨_, allowed, _, forbidden, _, deprecated, _, required, _, denied, _, tags, _, _, _, _,
    rfl⟩ := admitted
  exact ⟨allowed, forbidden, deprecated, required, denied, tags, rfl⟩

variable {out : List Bytes} {what : String}

/-- The canonical form of an accepted dimension repeats nothing. -/
theorem of_canonicalizeSorted_eq_ok {values : List Bytes}
    (sorted : canonicalizeSorted values what = .ok out) :
    values.Nodup ∧ out = ascending values := by
  simp only [canonicalizeSorted, bind_eq_ok, ensure_eq_ok, pure_eq_ok] at sorted
  obtain ⟨_, _, _, clear, rfl⟩ := sorted
  exact ⟨nodup_of_adjacentDuplicate (Option.isNone_iff_eq_none.mp clear), rfl⟩

/-- Tokens that contain their canonical forms are in canonical form, and are only sorted. -/
theorem canonical_of_kept {values : List Bytes}
    (made : canonicalizeTokens values what = .ok out) (kept : ∀ token ∈ out, token ∈ values) :
    (values.Nodup ∧ ∀ token ∈ values, IsCanonical token Limits.maxTokenBytes) ∧
      out = ascending values := by
  have form := (of_canonicalizeTokens made).2
  obtain ⟨tokens, mapped, sorted⟩ := bind_eq_ok.mp made
  obtain ⟨distinct, rfl⟩ := of_canonicalizeSorted_eq_ok sorted
  have same : tokens = values := by
    apply eq_of_mapM_fixed mapped distinct
    intro token listed
    have inside := mem_ascending.mpr listed
    rw [(form token inside).canonicalToken_eq]
    exact ⟨rfl, kept token inside⟩
  rw [← same]
  exact ⟨⟨distinct, fun token listed => form token (mem_ascending.mpr listed)⟩, rfl⟩

theorem listed_of_kept {values : List Bytes}
    (made : canonicalizeCapabilities R values what = .ok out) (kept : ∀ name ∈ out, name ∈ values) :
    (values.Nodup ∧ ∀ name ∈ values, R.lists name = true) ∧ out = ascending values := by
  have form := (of_canonicalizeCapabilities made).2
  obtain ⟨names, mapped, sorted⟩ := bind_eq_ok.mp made
  obtain ⟨distinct, rfl⟩ := of_canonicalizeSorted_eq_ok sorted
  have same : names = values := by
    apply eq_of_mapM_fixed mapped distinct
    intro name listed
    have inside := mem_ascending.mpr listed
    rw [capabilityKeyFromName, dif_pos (form name inside)]
    exact ⟨rfl, kept name inside⟩
  rw [← same]
  exact ⟨⟨distinct, fun name listed => form name (mem_ascending.mpr listed)⟩, rfl⟩

/-- A name is resolved to itself or to an extension. -/
theorem name_of_capabilityKeyFromName {name : Bytes} {key : CapabilityKey}
    (resolved : capabilityKeyFromName R name = .ok key) :
    key.name = name ∨ isExtensionName key.name = true := by
  rw [capabilityKeyFromName] at resolved
  split at resolved
  · cases resolved
    exact .inl rfl
  · split at resolved
    · cases resolved
    · obtain ⟨canonical, _, resolved⟩ := bind_eq_ok.mp resolved
      split at resolved
      · cases resolved
      · rename_i extension
        split at resolved
        · cases resolved
          exact .inr (by simpa using extension)
        · cases resolved

/-- Each decoded capability is a given one or an extension. -/
theorem mem_or_extension {values : List Bytes}
    (made : canonicalizeCapabilities R values what = .ok out) {name : Bytes} (listed : name ∈ out) :
    name ∈ values ∨ isExtensionName name = true := by
  obtain ⟨names, mapped, sorted⟩ := bind_eq_ok.mp made
  rw [(of_canonicalizeSorted_eq_ok sorted).2, mem_ascending] at listed
  obtain ⟨source, given, keyed⟩ := exists_of_mem_mapM mapped listed
  have keyed := eq_ok_of_inDimension keyed
  cases resolved : capabilityKeyFromName R source with
  | error e =>
      rw [resolved] at keyed
      cases keyed
  | ok key =>
      rw [resolved] at keyed
      cases keyed
      rcases name_of_capabilityKeyFromName resolved with same | extension
      · rw [← same] at given
        exact .inl given
      · exact .inr extension

/-- A policy that is read back and judges as before was in canonical form. -/
theorem admissible_of_judgesAlike (valid : p.validate R = .ok ()) (storable : p.Storable R)
    (back : p.readBack R = .ok q) (alike : p.JudgesAlike R q) :
    p.Admissible R ∧ p.minimumRuntimeVersion.clauses ≠ [] := by
  obtain ⟨range, _, admitted⟩ := bind_eq_ok.mp back
  have valid' := valid_of_admitDecoded admitted
  have decoded := decoded_of_admitDecoded admitted storable.classes
  obtain ⟨allowed, forbidden, deprecated, required, denied, tags, reread⟩ := readBack_eq_ok back
  obtain ⟨vendors, allowedSorted⟩ := canonical_of_kept allowed fun vendor listed => by
    have canonical := (of_canonicalizeTokens allowed).2 vendor listed
    by_contra absent
    by_cases none' : p.allowedVendors = []
    · rw [none'] at allowed
      have empty : [] = q.allowedVendors := Except.ok.inj allowed
      rw [← empty] at listed
      cases listed
    · exact ((alike.allowed valid valid' canonical).mp ⟨none', absent⟩).2 listed
  obtain ⟨outlaws, forbiddenSorted⟩ := canonical_of_kept forbidden fun vendor listed =>
    (alike.forbidden valid valid' ((of_canonicalizeTokens forbidden).2 vendor listed)).mpr listed
  obtain ⟨old, _⟩ := canonical_of_kept deprecated fun architecture listed =>
    (alike.deprecated valid valid'
      ((of_canonicalizeTokens deprecated).2 architecture listed)).mpr listed
  obtain ⟨marks, _⟩ := canonical_of_kept tags fun tag listed =>
    (alike.tags valid valid' ((of_canonicalizeTokens tags).2 tag listed)).mpr listed
  obtain ⟨needs, requiredSorted⟩ := listed_of_kept required fun name listed =>
    (alike.required valid valid' name).mpr listed
  obtain ⟨bans, deniedSorted⟩ := listed_of_kept denied fun name listed => by
    rcases mem_or_extension denied listed with given | extension
    · exact given
    · have known := (of_canonicalizeCapabilities denied).2 name listed
      exact (alike.denied valid valid' known extension).mpr listed
  have short : q.minimumRuntimeVersion.toText.length ≤ Limits.maxStringBytes := by
    rw [reread, VersionRange.toText_reread]
    exact storable.version
  have consistent := (decoded.sound short).admissible
  have apartVendors := consistent.vendors
  have apartDemands := consistent.demands
  rw [allowedSorted, forbiddenSorted] at apartVendors
  rw [requiredSorted, deniedSorted] at apartDemands
  refine ⟨⟨?_, ?_, ?_, ?_, storable.classes, storable.version⟩, ?_⟩
  · simp only [tokenLists, List.mem_cons, List.not_mem_nil, or_false, forall_eq_or_imp, forall_eq]
    exact ⟨vendors, outlaws, old, marks⟩
  · simp only [capabilityLists, List.mem_cons, List.not_mem_nil, or_false, forall_eq_or_imp,
      forall_eq]
    exact ⟨needs, bans⟩
  · simpa only [mem_ascending] using apartVendors
  · simpa only [mem_ascending] using apartDemands
  · intro missing
    have ranged := (alike.range valid valid').mpr
    rw [reread, VersionRange.isAny, VersionRange.isAny, missing, VersionRange.reread,
      missing] at ranged
    cases ranged rfl

/-- A sound policy with a version range comes back in another order. -/
theorem Sound.reordered (sound : p.Sound R) (current : p.refreshIdentity = p)
    (ranged : p.minimumRuntimeVersion.clauses ≠ []) : p.Reordered p.reread.refreshIdentity := by
  have identity : p.reread.refreshIdentity.id = p.id :=
    (id_refreshIdentity_reread p).trans sound.identified
  have generation : p.reread.refreshIdentity.generation = p.generation := by
    conv_rhs => rw [← current]
    dsimp only [refreshIdentity]
    rw [digest_reread]
  have range : p.minimumRuntimeVersion.reread = p.minimumRuntimeVersion := by
    rw [VersionRange.reread, if_neg (by simpa using ranged)]
  have renamed : p.reread.refreshIdentity =
      { p.reread with id := p.id, generation := p.generation } := by
    rw [← identity, ← generation]
    rfl
  rw [renamed]
  refine ⟨?_, ?_, .rfl, ?_, ?_, ?_, .rfl, ?_, ?_⟩
  · exact (perm_sortOn _ _).symm
  · exact (perm_sortOn _ _).symm
  · exact (perm_sortOn _ _).symm
  · exact (perm_sortOn _ _).symm
  · exact (perm_sortOn _ _).symm
  · exact (perm_sortOn _ _).symm
  · unfold reread
    rw [range]

/-- A policy that can be stored is written within the reach of its length fields. -/
theorem Sound.length_serialize (sound : p.Sound R) : p.serialize.length < 4294967296 := by
  have storable := sound.storable
  have listed {maxBytes : Nat} {values : List Bytes} (short : ShortList maxBytes values) :
      (ByteWriter.list ByteWriter.string values).length ≤
        4 + Limits.maxPolicyDimensions * (4 + maxBytes) := by
    apply ByteReader.length_list_le short.1
    intro value inside
    rw [ByteReader.length_string]
    exact Nat.add_le_add_left (short.2 value inside) 4
  have allowed := listed storable.allowed
  have forbidden := listed storable.forbidden
  have deprecated := listed storable.deprecated
  have required := listed storable.required
  have denied := listed storable.denied
  have tags := listed storable.tags
  have accelerators := ByteReader.length_list_le storable.accelerators
    fun id _ => (length_strongId id).le
  have classes := ByteReader.length_list_le storable.classes
    fun value _ => (Eq.le rfl : (ByteWriter.u8 (PortabilityClass.toWire value)).length ≤ 1)
  have name := storable.name
  have version := storable.version
  simp only [Limits.maxPolicyDimensions, Limits.maxTokenBytes, Limits.maxNameBytes,
    Limits.maxStringBytes, ByteWriter.u8] at *
  delta serialize
  simp only [List.length_append, length_strongId, ByteReader.length_string,
    ByteWriter.generation, ByteWriter.u64, ByteWriter.u8, ByteWriter.boolean,
    ByteReader.length_littleEndian, List.length_singleton]
  omega

/-- A valid policy under its own identity is read back with its meaning exactly if it is
admissible and has a version range. -/
theorem keepsMeaning_of_current (valid : p.validate R = .ok ()) (current : p.refreshIdentity = p) :
    p.KeepsMeaning R ∧ p.serialize.length < 4294967296 ↔
      p.Admissible R ∧ p.minimumRuntimeVersion.clauses ≠ [] := by
  constructor
  · rintro ⟨⟨q, read, _, _, alike⟩, short⟩
    obtain ⟨storable, same⟩ := (Codes.run_eq_ok_iff (deserialize_reads R p) short).mp read
    obtain ⟨q', back⟩ := storable.admitted
    rw [persisted_eq back] at same
    subst same
    exact admissible_of_judgesAlike valid storable back alike
  · rintro ⟨admissible, ranged⟩
    have sound : p.Sound R := ⟨admissible, valid, congrArg FederationPolicy.id current⟩
    have reordered := sound.reordered current ranged
    rw [← sound.persisted_eq] at reordered
    have alike := reordered.judgesAlike valid sound.persisted.valid
    have short := sound.length_serialize
    refine ⟨⟨p.persisted R, ?_, sound.id_persisted, ?_, alike⟩, short⟩
    · exact (Codes.run_eq_ok_iff (deserialize_reads R p) short).mpr ⟨sound.storable, rfl⟩
    · exact (congrArg FederationPolicy.generation reordered.rest).trans rfl

end Rereading

/-- **Which policies keep their meaning.** A policy that was accepted is read back from its
encoding, with its identity and generation, as one that judges every pair and every move alike
exactly if its dimensions were given in canonical form, without repetitions and contradictions
and within the limits of the decoder, and a version range was given. The lengths in the encoding
have 32 bits, which is more than such a policy needs. -/
theorem keepsMeaning_iff {f : Federation} {given : FederationPolicy} {claim : AuthorityClaim}
    {env : Environment} {generation : PolicyGeneration}
    (accepted : (f.setPolicy given claim env).result = .ok generation) :
    given.refreshIdentity.KeepsMeaning f.registry ∧
        given.refreshIdentity.serialize.length < 4294967296 ↔
      given.Admissible f.registry ∧ given.minimumRuntimeVersion.clauses ≠ [] := by
  obtain ⟨s, settled⟩ := Federation.settled_of_conclude accepted
  simp only [Federation.settleSetPolicy, bind_eq_ok] at settled
  obtain ⟨_, _, _, valid, _⟩ := settled
  rw [keepsMeaning_of_current valid rfl]
  refine and_congr_left' ⟨fun admissible => ?_, fun admissible => ?_⟩
  · exact { admissible with }
  · exact { admissible with }

end FederationPolicy

namespace Sample

/-- A policy that asks for a runtime version of at least one. -/
def versioned : FederationPolicy :=
  { name := text "versioned"
    minimumRuntimeVersion := ⟨[{ op := .greaterEqual, version := { major := 1 } }],
      atLeastOne.parsed⟩ }

theorem accepted_versioned :
    (opened.setPolicy versioned claim env).result = .ok versioned.refreshIdentity.generation := by
  decide +kernel

theorem admissible_versioned : versioned.Admissible .core := by
  refine ⟨?_, ?_, ?_, ?_, ?_, ?_⟩
  · simp [FederationPolicy.tokenLists, versioned]
  · simp [FederationPolicy.capabilityLists, versioned]
  · simp [versioned]
  · simp [versioned]
  · simp [versioned]
  · decide +kernel

end Sample

open Sample in
/-- The default policy comes back under its identity as one that leaves a pair undecided for the
missing runtime version which was eligible before. -/
theorem default_rereads_stricter :
    (opened.setPolicy .permissiveDefault claim env).result.isOk = true ∧
      ∃ q, (FederationPolicy.deserialize .core).run FederationPolicy.permissiveDefault.serialize =
          .ok (q, []) ∧ q.id = FederationPolicy.permissiveDefault.id ∧
        (evaluateCompatibility .core (bareWork []) (bareContext {} .permissiveDefault) 0).map
          (·.outcome) = .ok .eligible ∧
        (evaluateCompatibility .core (bareWork []) (bareContext {} q) 0).map
          (·.outcome) = .ok .unknown := by
  refine ⟨by decide +kernel, FederationPolicy.permissiveDefault.reread.refreshIdentity, ?_⟩
  decide +kernel

open Sample in
/-- A policy with a version range keeps its meaning. -/
theorem versioned_keepsMeaning : versioned.refreshIdentity.KeepsMeaning .core :=
  ((FederationPolicy.keepsMeaning_iff accepted_versioned).mpr
    ⟨admissible_versioned, by decide⟩).1

end Haf
