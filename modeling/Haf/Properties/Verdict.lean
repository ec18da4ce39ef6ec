/-
# What a verdict rests on

Every finding about a requirement is of one of three kinds: the requirement holds,
it is refuted by what the target advertises, or it is left open because there is no
live evidence. Findings never take back one another, so that the verdict depends on
which kinds occur and not on the order in which the requirements are visited.
-/

import Haf.Codec.Reasons

namespace Haf

open Sequence

/-! ### Looking capabilities up -/

namespace CapabilitySet

/-- A valid requirement carries a value of the kind that the capability has. -/
theorem kind_of_requirement {R : Registry} {set : CapabilitySet} {q : CapabilityRequirement}
    (valid : q.validate R = .ok ()) {value : CapabilityValue}
    (found : (set.lookup q.capability).value = some value) : value.kind = q.value.kind := by
  obtain ⟨r, listed, named, rfl, _⟩ := exists_of_lookup found
  obtain ⟨_, _, _, checked⟩ :=
    CapabilityRecord.canonicalRecord_eq_ok_iff.mp (set.canonicalRecord_of_mem listed)
  obtain ⟨resolved, kinds, _⟩ := CapabilityRecord.of_validate checked
  obtain ⟨_, ⟨key, keyed, declared⟩, _⟩ := CapabilityRequirement.of_validate valid
  rw [← named] at keyed
  rcases capabilityKeyFromName_name R resolved with ⟨same, _⟩ | ⟨⟨e, refused⟩, _⟩
  · rw [same] at keyed
    cases keyed
    rw [declared, kinds]
  · rw [refused] at keyed
    cases keyed

end CapabilitySet

/-! ### One requirement -/

namespace CapabilityRequirement

/-- What the operator asks of an advertised value. -/
def Accepts (q : CapabilityRequirement) (provided : CapabilityValue) : Prop :=
  match q.op with
  | .present => True
  | .absent => False
  | .equals => provided.equals q.value = true
  | .notEquals => provided.equals q.value = false
  | .atLeast => numericAtLeast provided q.value = true
  | .atMost => numericAtMost provided q.value = true
  | .greaterThan => numericAtLeast provided q.value = true ∧ provided.equals q.value = false
  | .lessThan => numericAtMost provided q.value = true ∧ provided.equals q.value = false
  | .inSet => asTokenVector provided ≠ [] ∧
      ∀ token ∈ asTokenVector provided, token ∈ asTokenVector q.value
  | .supersetOf => ∀ token ∈ asTokenVector q.value, token ∈ asTokenVector provided
  | .subsetOf => ∀ token ∈ asTokenVector provided, token ∈ asTokenVector q.value
  | .intersectsWith => ∃ token ∈ asTokenVector provided, token ∈ asTokenVector q.value
  | .versionSatisfies => q.versionRange.isMatch provided.versionValue = true

/-- What the requirement asks of the state and the value of its capability: absence is shown by
UNSUPPORTED only, anything else by a value in a state that counts as support. -/
def Holds (q : CapabilityRequirement) (lookup : CapabilityLookup) (allowDegraded : Bool) : Prop :=
  (lookup.state = .degraded → allowDegraded = true) ∧
    if q.op = .absent then lookup.state = .unsupported
    else lookup.state ≠ .unsupported ∧ ∃ provided, lookup.value = some provided ∧ q.Accepts provided

/-- The capability is known, and by live evidence if it is a dynamic one. -/
def Decided (q : CapabilityRequirement) (lookup : CapabilityLookup) (fresh : Bool) : Prop :=
  lookup.state ≠ .unknown ∧ (isDynamicCapability q.capability = true → fresh = true)

/-- A version test is about a capability of that kind. -/
theorem version_of_validate {R : Registry} {q : CapabilityRequirement}
    (valid : q.validate R = .ok ()) (op : q.op = .versionSatisfies) : q.value.kind = .version := by
  simp only [validate, bind_eq_ok, validateOperator, op, ensure_eq_ok, decide_eq_true_eq] at valid
  obtain ⟨_, _, _, _, _, _, _, _, _, _, _, _, _, _, _, _, _, version, _⟩ := valid
  exact version

theorem ofBool_eq_satisfied {holds : Bool} : MatchOutcome.ofBool holds = .satisfied ↔ holds = true := by
  cases holds <;> decide

theorem ofBool_eq_violated {holds : Bool} : MatchOutcome.ofBool holds = .violated ↔ holds = false := by
  cases holds <;> decide

/-- A value is compared as the operator says. Only a version test can be left open, and it is not
for a value of the right kind. -/
theorem matchValue_eq (q : CapabilityRequirement) {provided : CapabilityValue}
    (kinds : q.op = .versionSatisfies → provided.kind = .version) :
    (matchValue q provided = .satisfied ↔ q.Accepts provided) ∧
      (matchValue q provided = .violated ↔ ¬ q.Accepts provided) := by
  cases op : q.op with
  | versionSatisfies =>
      have version := kinds op
      simp [matchValue, Accepts, op, version, ofBool_eq_satisfied, ofBool_eq_violated]
  | _ =>
      simp [matchValue, Accepts, op, ofBool_eq_satisfied, ofBool_eq_violated]

/-- A known capability settles the requirement. -/
theorem matchRequirement_eq {R : Registry} {set : CapabilitySet} {q : CapabilityRequirement}
    (valid : q.validate R = .ok ()) (known : (set.lookup q.capability).state ≠ .unknown)
    (allowDegraded : Bool) :
    (matchRequirement q (set.lookup q.capability) allowDegraded = .satisfied ↔
        q.Holds (set.lookup q.capability) allowDegraded) ∧
      (matchRequirement q (set.lookup q.capability) allowDegraded = .violated ↔
        ¬ q.Holds (set.lookup q.capability) allowDegraded) := by
  rw [matchRequirement, if_neg known]
  by_cases degraded : (set.lookup q.capability).state = .degraded ∧ allowDegraded = false
  · have refused : ¬ q.Holds (set.lookup q.capability) allowDegraded := by
      intro holds
      rw [holds.1 degraded.1] at degraded
      cases degraded.2
    rw [if_pos (by simpa using degraded)]
    exact ⟨iff_of_false MatchOutcome.noConfusion refused, iff_of_true rfl refused⟩
  · have counts : (set.lookup q.capability).state = .degraded → allowDegraded = true := by
      intro state
      by_contra off
      exact degraded ⟨state, by simpa using off⟩
    rw [if_neg (by simpa using degraded), Holds, and_iff_right counts]
    by_cases absent : q.op = .absent
    · rw [if_pos absent, if_pos absent, ofBool_eq_satisfied, ofBool_eq_violated]
      simp
    · rw [if_neg absent, if_neg absent]
      by_cases unsupported : (set.lookup q.capability).state = .unsupported
      · simp [unsupported]
      · obtain ⟨provided, found⟩ := CapabilitySet.exists_value_of_state known unsupported
        have kinds : q.op = .versionSatisfies → provided.kind = .version := by
          intro op
          rw [CapabilitySet.kind_of_requirement valid found]
          exact version_of_validate valid op
        have matched := matchValue_eq q kinds
        simp only [unsupported, if_false, found, matched.1, matched.2]
        simp [unsupported]

end CapabilityRequirement

/-! ### Findings about requirements -/

section Findings

variable {R : Registry} {q : CapabilityRequirement} {capabilities : CapabilitySet}
  {fresh allowDegraded : Bool}

theorem gravity_of_hard (hard : q.strength = .hard) (gravity : Gravity) :
    q.gravity gravity = gravity := by
  rw [CapabilityRequirement.gravity, if_pos hard]

theorem skipsStale_eq_true : skipsStale q fresh = true ↔
    isDynamicCapability q.capability = true ∧ fresh = false := by
  simp [skipsStale]

theorem skipsStale_of_decided (decided : q.Decided (capabilities.lookup q.capability) fresh) :
    skipsStale q fresh = false := by
  rw [← Bool.not_eq_true, skipsStale_eq_true]
  rintro ⟨dynamic, stale⟩
  rw [decided.2 dynamic] at stale
  cases stale

/-- A hard requirement that holds leaves no finding. -/
theorem requirementFinding_of_holds (valid : q.validate R = .ok ()) (hard : q.strength = .hard)
    (decided : q.Decided (capabilities.lookup q.capability) fresh)
    (holds : q.Holds (capabilities.lookup q.capability) allowDegraded) :
    requirementFinding capabilities fresh allowDegraded q = none := by
  have satisfied := (q.matchRequirement_eq valid decided.1 allowDegraded).1.mpr holds
  simp [requirementFinding, skipsStale_of_decided decided, satisfied, matchFinding, hard]

/-- A hard requirement that is refuted is a failure. -/
theorem requirementFinding_of_refuted (valid : q.validate R = .ok ()) (hard : q.strength = .hard)
    (decided : q.Decided (capabilities.lookup q.capability) fresh)
    (refuted : ¬ q.Holds (capabilities.lookup q.capability) allowDegraded) :
    ∃ f, requirementFinding capabilities fresh allowDegraded q = some f ∧ f.gravity = .failure := by
  have violated := (q.matchRequirement_eq valid decided.1 allowDegraded).2.mpr refuted
  simp [requirementFinding, skipsStale_of_decided decided, violated, matchFinding,
    gravity_of_hard hard]

/-- A hard requirement without live evidence is left open. -/
theorem requirementFinding_of_undecided (hard : q.strength = .hard)
    (undecided : ¬ q.Decided (capabilities.lookup q.capability) fresh) :
    ∃ f, requirementFinding capabilities fresh allowDegraded q = some f ∧
      f.gravity = .indeterminate := by
  by_cases stale : skipsStale q fresh = true
  · simp [requirementFinding, stale, staleFinding, gravity_of_hard hard]
  · have unknown : (capabilities.lookup q.capability).state = .unknown := by
      by_contra known
      apply undecided
      refine ⟨known, fun dynamic => ?_⟩
      by_contra off
      exact stale (skipsStale_eq_true.mpr ⟨dynamic, by simpa using off⟩)
    simp [requirementFinding, stale, matchRequirement, unknown, matchFinding, gravity_of_hard hard]

/-- The reason of a finding is as strong as the requirement it is about. -/
theorem strength_of_requirementFinding {f : Finding}
    (found : requirementFinding capabilities fresh allowDegraded q = some f) :
    f.reason.strength = q.strength := by
  rw [requirementFinding] at found
  split at found
  · cases found
    rfl
  · generalize matchRequirement q (capabilities.lookup q.capability) allowDegraded = matched at found
    cases matched with
    | satisfied =>
        rw [matchFinding] at found
        split at found
        · cases found
          rfl
        · cases found
    | violated =>
        cases found
        rfl
    | indeterminate =>
        cases found
        rfl

/-- A soft requirement never weighs on the outcome. -/
theorem gravity_of_soft (soft : q.strength = .soft) {f : Finding}
    (found : requirementFinding capabilities fresh allowDegraded q = some f) :
    f.gravity = .note := by
  have note (gravity : Gravity) : q.gravity gravity = .note := by
    rw [CapabilityRequirement.gravity, if_neg (by simp [soft])]
  rw [requirementFinding] at found
  split at found
  · cases found
    exact note _
  · generalize matchRequirement q (capabilities.lookup q.capability) allowDegraded = matched at found
    cases matched with
    | satisfied =>
        rw [matchFinding, if_pos soft] at found
        cases found
        rfl
    | violated =>
        cases found
        exact note _
    | indeterminate =>
        cases found
        exact note _

end Findings

/-! ### The outcome -/

variable {findings : List Finding}

theorem outcomeOf_eq_ineligible :
    outcomeOf findings = .ineligible ↔ ∃ f ∈ findings, f.gravity = .failure := by
  rw [outcomeOf]
  by_cases failed : ∃ f ∈ findings, f.gravity = .failure
  · rw [if_pos (by simpa using failed)]
    simp [failed]
  · rw [if_neg (by simpa using failed)]
    split_ifs <;> simp [failed]

theorem outcomeOf_eq_eligible :
    outcomeOf findings = .eligible ↔ ∀ f ∈ findings, f.gravity = .note := by
  rw [outcomeOf]
  constructor
  · intro eligible f listed
    split_ifs at eligible with failed opened
    cases gravity : f.gravity with
    | note => rfl
    | indeterminate => exact absurd (List.any_eq_true.mpr ⟨f, listed, by simp [gravity]⟩) opened
    | failure => exact absurd (List.any_eq_true.mpr ⟨f, listed, by simp [gravity]⟩) failed
  · intro notes
    have none' (gravity : Gravity) (grave : gravity ≠ .note) :
        ¬ findings.any (·.gravity = gravity) = true := by
      rw [List.any_eq_true]
      rintro ⟨f, listed, same⟩
      exact grave ((of_decide_eq_true same).symm.trans (notes f listed))
    rw [if_neg (none' _ Gravity.noConfusion), if_neg (none' _ Gravity.noConfusion)]

/-- Only findings of some gravity decide. -/
theorem outcomeOf_congr {findings' : List Finding}
    (same : ∀ f, f.gravity ≠ .note → (f ∈ findings ↔ f ∈ findings')) :
    outcomeOf findings = outcomeOf findings' := by
  have grave (gravity : Gravity) (counts : gravity ≠ .note) :
      findings.any (·.gravity = gravity) = findings'.any (·.gravity = gravity) := by
    rw [Bool.eq_iff_iff, List.any_eq_true, List.any_eq_true]
    constructor
    · rintro ⟨f, listed, found⟩
      have found' : f.gravity = gravity := of_decide_eq_true found
      exact ⟨f, (same f (found' ▸ counts)).mp listed, found⟩
    · rintro ⟨f, listed, found⟩
      have found' : f.gravity = gravity := of_decide_eq_true found
      exact ⟨f, (same f (found' ▸ counts)).mpr listed, found⟩
  rw [outcomeOf, outcomeOf, grave _ Gravity.noConfusion, grave _ Gravity.noConfusion]

section Evaluation

variable {R : Registry} {w : WorkloadProfile} {context : EvaluationContext}
  {policy : FederationPolicy} {capabilities : CapabilitySet}

theorem mem_evaluationFindings {f : Finding} :
    f ∈ evaluationFindings w context policy capabilities ↔
      (∃ q ∈ w.requirements, requirementFinding capabilities context.target.evidenceFresh
          policy.allowDegradedCapabilities q = some f) ∨
        f ∈ policyFindings w policy context.target capabilities ∨
        f ∈ (portabilityFindings w policy capabilities context.source).2 := by
  simp only [evaluationFindings, List.mem_append, List.mem_filterMap, canonicalizeRequirements,
    mem_sortOn, or_assoc]

theorem validate_of_mem (valid : w.validate R = .ok ()) {q : CapabilityRequirement}
    (listed : q ∈ w.requirements) : q.validate R = .ok () := by
  simp only [WorkloadProfile.validate, bind_eq_ok] at valid
  obtain ⟨_, _, _, _, _, _, _, _, _, _, _, requirements, _⟩ := valid
  exact WorkloadProfile.validateRequirements_eq_ok.mp requirements q listed

/-- The evaluation of a valid workload under a valid policy is made, and its outcome is read off
the findings. -/
theorem evaluateCompatibility_of_valid (valid : w.validate R = .ok ())
    (governed : context.policy = some policy) (sound : policy.validate R = .ok ())
    (evident : context.target.capabilities = some capabilities)
    (identified : context.target.accelerator ≠ .nil) (createdAt : Timestamp) :
    evaluateCompatibility R w context createdAt =
      .ok (assessed w context policy capabilities createdAt).refreshIdentity :=
  evaluateCompatibility_eq_ok.mpr
    ⟨valid, policy, capabilities, governed, evident, identified, sound, rfl⟩

/-- The requirement is settled by live evidence on the target. -/
abbrev Grounded (context : EvaluationContext) (capabilities : CapabilitySet)
    (q : CapabilityRequirement) : Prop :=
  q.Decided (capabilities.lookup q.capability) context.target.evidenceFresh

/-- The target meets the requirement under the policy. -/
abbrev Met (policy : FederationPolicy) (capabilities : CapabilitySet)
    (q : CapabilityRequirement) : Prop :=
  q.Holds (capabilities.lookup q.capability) policy.allowDegradedCapabilities

/-- **The verdict on hard requirements.** A requirement that live evidence refutes makes the pair
ineligible, whatever else is open; eligibility means that live evidence shows every one of them;
and one that is open keeps the pair from being eligible. -/
theorem hardVerdict (valid : w.validate R = .ok ()) (governed : context.policy = some policy)
    (sound : policy.validate R = .ok ())
    (evident : context.target.capabilities = some capabilities)
    (identified : context.target.accelerator ≠ .nil) (createdAt : Timestamp) :
    ∃ d, evaluateCompatibility R w context createdAt = .ok d ∧
      ((∃ q ∈ w.requirements, q.strength = .hard ∧ Grounded context capabilities q ∧
          ¬ Met policy capabilities q) → d.outcome = .ineligible) ∧
      (d.outcome = .eligible → ∀ q ∈ w.requirements, q.strength = .hard →
          Grounded context capabilities q ∧ Met policy capabilities q) ∧
      ((∃ q ∈ w.requirements, q.strength = .hard ∧ ¬ Grounded context capabilities q) →
          d.outcome ≠ .eligible) := by
  refine ⟨_, evaluateCompatibility_of_valid valid governed sound evident identified createdAt, ?_⟩
  have outcome : (assessed w context policy capabilities createdAt).refreshIdentity.outcome =
      outcomeOf (evaluationFindings w context policy capabilities) := rfl
  rw [outcome]
  -- a finding of a requirement is one of the evaluation
  have noted (q : CapabilityRequirement) (listed : q ∈ w.requirements) {f : Finding}
      (found : requirementFinding capabilities context.target.evidenceFresh
        policy.allowDegradedCapabilities q = some f) :
      f ∈ evaluationFindings w context policy capabilities :=
    mem_evaluationFindings.mpr (.inl ⟨q, listed, found⟩)
  refine ⟨?_, ?_, ?_⟩
  · rintro ⟨q, listed, hard, settled, refuted⟩
    obtain ⟨f, found, failure⟩ :=
      requirementFinding_of_refuted (validate_of_mem valid listed) hard settled refuted
    exact outcomeOf_eq_ineligible.mpr ⟨f, noted q listed found, failure⟩
  · intro eligible q listed hard
    have notes := outcomeOf_eq_eligible.mp eligible
    by_cases settled : Grounded context capabilities q
    · refine ⟨settled, ?_⟩
      by_contra refuted
      obtain ⟨f, found, failure⟩ :=
        requirementFinding_of_refuted (validate_of_mem valid listed) hard settled refuted
      rw [notes f (noted q listed found)] at failure
      cases failure
    · obtain ⟨f, found, opened⟩ := requirementFinding_of_undecided hard settled
      rw [notes f (noted q listed found)] at opened
      cases opened
  · rintro ⟨q, listed, hard, unsettled⟩ eligible
    obtain ⟨f, found, opened⟩ := requirementFinding_of_undecided hard unsettled
    rw [outcomeOf_eq_eligible.mp eligible f (noted q listed found)] at opened
    cases opened

/-! ### Soft preferences -/

/-- The two profiles differ in their soft requirements only. -/
structure SoftlyDiffers (w w' : WorkloadProfile) : Prop where
  rest : { w with requirements := [] } = { w' with requirements := [] }
  hard : ∀ q, q.strength = .hard → (q ∈ w.requirements ↔ q ∈ w'.requirements)

variable {w' : WorkloadProfile}

theorem SoftlyDiffers.symm (differs : SoftlyDiffers w w') :
    SoftlyDiffers w' w :=
  ⟨differs.rest.symm, fun q strength => (differs.hard q strength).symm⟩

/-- The classifier looks at the migration need of a workload and at nothing else of it. -/
theorem classifyPortability_congr (request : PortabilityRequest)
    (need : w.migrationNeed = w'.migrationNeed) :
    classifyPortability { request with workload := some w } =
      classifyPortability { request with workload := some w' } := by
  have note (value : PortabilityClass) :
      PortabilityRequest.liveTransferNote { request with workload := some w } value =
        PortabilityRequest.liveTransferNote { request with workload := some w' } value := by
    simp only [PortabilityRequest.liveTransferNote, need]
  have known (source destination : CapabilitySet) :
      PortabilityRequest.classifyKnown { request with workload := some w } source destination =
        PortabilityRequest.classifyKnown { request with workload := some w' } source destination := by
    unfold PortabilityRequest.classifyKnown
    simp only [note]
    rfl
  unfold classifyPortability
  dsimp only
  split
  · exact known _ _
  · rfl

theorem SoftlyDiffers.policyFindings_eq (differs : SoftlyDiffers w w') :
    policyFindings w policy context.target capabilities =
      policyFindings w' policy context.target capabilities := by
  have tags := congrArg WorkloadProfile.requiredPolicyTags differs.rest
  simp only at tags
  simp only [policyFindings, tags]

theorem SoftlyDiffers.portabilityFindings_eq
    (differs : SoftlyDiffers w w') (source : Option EvaluationSource) :
    portabilityFindings w policy capabilities source =
      portabilityFindings w' policy capabilities source := by
  have mode := congrArg WorkloadProfile.executionMode differs.rest
  have minimum := congrArg WorkloadProfile.minimumPortability differs.rest
  have need := congrArg WorkloadProfile.migrationNeed differs.rest
  have reconstruction := congrArg WorkloadProfile.reconstructionAllowed differs.rest
  simp only at mode minimum need reconstruction
  cases source with
  | none => rfl
  | some source =>
      have classified : classifyPortability (portabilityRequest w policy capabilities source) =
          classifyPortability (portabilityRequest w' policy capabilities source) :=
        classifyPortability_congr (portabilityRequest w policy capabilities source) need
      simp only [portabilityFindings, classified, classFindings, modeFindings, migrationFindings,
        mode, minimum, need, reconstruction]

/-- What counts in an evaluation comes from requirements that both profiles have. -/
theorem SoftlyDiffers.mem_evaluationFindings
    (differs : SoftlyDiffers w w') {f : Finding}
    (counts : f.gravity ≠ .note ∨ f.reason.strength = .hard)
    (listed : f ∈ evaluationFindings w context policy capabilities) :
    f ∈ evaluationFindings w' context policy capabilities := by
  rw [Haf.mem_evaluationFindings] at listed ⊢
  rw [← differs.policyFindings_eq, ← differs.portabilityFindings_eq]
  apply listed.imp_left
  rintro ⟨q, inside, found⟩
  have hard : q.strength = .hard := by
    cases strength : q.strength with
    | hard => rfl
    | soft =>
        rcases counts with grave | strong
        · exact absurd (gravity_of_soft strength found) grave
        · rw [strength_of_requirementFinding found, strength] at strong
          cases strong
  exact ⟨q, (differs.hard q hard).mp inside, found⟩

theorem mem_reasons {createdAt : Timestamp} {r : CompatibilityReason} :
    r ∈ (assessed w context policy capabilities createdAt).refreshIdentity.reasons ↔
      ∃ f ∈ evaluationFindings w context policy capabilities, f.reason = r := by
  have reasons : (assessed w context policy capabilities createdAt).refreshIdentity.reasons =
      sortReasons ((evaluationFindings w context policy capabilities).map (·.reason)) := rfl
  rw [reasons, sortReasons, mem_sortOn, List.mem_map]

/-- **Soft preferences never decide.** Two valid profiles that differ in soft requirements only
are given the same outcome, the same portability class and the same hard reasons. -/
theorem soft_never_decides {w w' : WorkloadProfile} (valid' : w'.validate R = .ok ())
    (differs : SoftlyDiffers w w') {createdAt createdAt' : Timestamp} {d : CompatibilityDecision}
    (made : evaluateCompatibility R w context createdAt = .ok d) :
    ∃ d', evaluateCompatibility R w' context createdAt' = .ok d' ∧ d'.outcome = d.outcome ∧
      d'.portability = d.portability ∧
      ∀ r : CompatibilityReason, r.strength = .hard → (r ∈ d'.reasons ↔ r ∈ d.reasons) := by
  obtain ⟨_, policy, capabilities, governed, evident, identified, sound, rfl⟩ :=
    evaluateCompatibility_eq_ok.mp made
  refine ⟨_, evaluateCompatibility_of_valid valid' governed sound evident identified createdAt',
    ?_, ?_, ?_⟩
  · apply outcomeOf_congr
    intro f grave
    exact ⟨differs.symm.mem_evaluationFindings (.inl grave),
      differs.mem_evaluationFindings (.inl grave)⟩
  · exact congrArg Prod.fst (differs.symm.portabilityFindings_eq context.source)
  · intro r hard
    rw [mem_reasons, mem_reasons]
    constructor
    · rintro ⟨f, listed, rfl⟩
      exact ⟨f, differs.symm.mem_evaluationFindings (.inr hard) listed, rfl⟩
    · rintro ⟨f, listed, rfl⟩
      exact ⟨f, differs.mem_evaluationFindings (.inr hard) listed, rfl⟩

end Evaluation

namespace Sample

/-- A hard requirement on the vendor. -/
def vendorNeed : CapabilityRequirement :=
  { id := ⟨.fromBytes [1]⟩, capability := Cap.vendorId, value := .enumeration (text "acme") }

/-- A workload with that requirement. -/
def vendorBound : WorkloadProfile :=
  { classId := ⟨.fromBytes [1]⟩, requirementId := ⟨.fromBytes [2]⟩, name := text "w"
    requirements := [vendorNeed] }

/-- An active target about which nothing is known. -/
def blankTarget : EvaluationTarget :=
  { accelerator := ⟨.fromBytes [1]⟩, deviceGeneration := ⟨1⟩, capabilityGeneration := ⟨1⟩
    evidenceGeneration := ⟨1⟩, supportLevel := .translated, provenance := .real
    capabilities := some {}, evidenceFresh := true, acceptsNewWork := true }

/-- Its evaluation under the default policy. -/
def blankContext : EvaluationContext :=
  { federation := ⟨.fromBytes [9]⟩, federationGeneration := ⟨1⟩, epoch := ⟨1⟩
    policyGeneration := ⟨1⟩, policy := some FederationPolicy.permissiveDefault
    workloadRevision := ⟨1⟩, target := blankTarget, source := none }

/-- The same workload with a soft preference added. -/
def vendorWishing : WorkloadProfile :=
  { vendorBound with requirements := [{ vendorNeed with strength := .soft }, vendorNeed] }

theorem valid_vendorWishing : vendorWishing.validate .core = .ok () := by decide +kernel

theorem softlyDiffers_vendor : SoftlyDiffers vendorBound vendorWishing := by
  refine ⟨rfl, fun q hard => ?_⟩
  simp only [vendorBound, vendorWishing, List.mem_cons, List.not_mem_nil, or_false]
  constructor
  · exact .inr
  · rintro (rfl | same)
    · cases hard
    · exact same

theorem valid_vendorBound : vendorBound.validate .core = .ok () := by decide +kernel

theorem governed_blank : blankContext.policy = some FederationPolicy.permissiveDefault := rfl

theorem evident_blank : blankContext.target.capabilities = some {} := rfl

theorem identified_blank : blankContext.target.accelerator ≠ .nil := by decide

end Sample

open Sample in
/-- The verdict on a requirement about which nothing is known. -/
theorem hardVerdict_blank : ∃ d, evaluateCompatibility .core vendorBound blankContext 0 = .ok d ∧
    d.outcome ≠ .eligible := by
  obtain ⟨d, made, _, _, opened⟩ := hardVerdict valid_vendorBound governed_blank
    (FederationPolicy.sound_permissiveDefault .core).valid evident_blank identified_blank 0
  refine ⟨d, made, opened ⟨vendorNeed, List.mem_singleton.mpr rfl, rfl, fun settled => ?_⟩⟩
  exact settled.1 rfl

open Sample in
/-- The verdict with and without the preference. -/
theorem soft_vendor_ignored : ∃ d d', evaluateCompatibility .core vendorBound blankContext 0 = .ok d ∧
    evaluateCompatibility .core vendorWishing blankContext 0 = .ok d' ∧ d'.outcome = d.outcome := by
  have made := evaluateCompatibility_of_valid valid_vendorBound governed_blank
    (FederationPolicy.sound_permissiveDefault .core).valid evident_blank identified_blank 0
  have decided : ∃ d', evaluateCompatibility .core vendorWishing blankContext 0 = .ok d' ∧ _ :=
    soft_never_decides valid_vendorWishing softlyDiffers_vendor made
  obtain ⟨d', made', outcome, _⟩ := decided
  exact ⟨_, d', made, made', outcome⟩

end Haf
