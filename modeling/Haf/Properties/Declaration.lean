/-
# Declaration order

The requirements and tags of a workload, the lists of a policy and the records of an
accelerator are sets that are written down in some order. The evaluation sorts what it
processes and sorts the reasons at the end, by keys that leave some fields out. It is shown
that no order shows through: of two evaluations whose inputs are written down in different
orders, if both return a decision, both return the same one. Whether a decision is returned
at all does depend on the order, since the consistency of a policy is checked by a binary
search of lists that need not be sorted.
-/

import Haf.Properties.Extension

namespace Haf

open Sequence

/-! ### Reordered inputs -/

/-- The profiles list the same requirements and tags. -/
structure WorkloadProfile.Reordered (w w' : WorkloadProfile) : Prop where
  requirements : w.requirements.Perm w'.requirements
  tags : w.requiredPolicyTags.Perm w'.requiredPolicyTags
  rest : w' = { w with
    requirements := w'.requirements, requiredPolicyTags := w'.requiredPolicyTags }

/-- The policies have the same lists. -/
structure FederationPolicy.Reordered (p p' : FederationPolicy) : Prop where
  allowed : p.allowedVendors.Perm p'.allowedVendors
  forbidden : p.forbiddenVendors.Perm p'.forbiddenVendors
  accelerators : p.forbiddenAccelerators.Perm p'.forbiddenAccelerators
  deprecated : p.deprecatedArchitectures.Perm p'.deprecatedArchitectures
  required : p.requiredCapabilities.Perm p'.requiredCapabilities
  denied : p.deniedCapabilities.Perm p'.deniedCapabilities
  classes : p.allowedPortabilityClasses.Perm p'.allowedPortabilityClasses
  tags : p.tags.Perm p'.tags
  rest : p' = { p with
    allowedVendors := p'.allowedVendors, forbiddenVendors := p'.forbiddenVendors
    forbiddenAccelerators := p'.forbiddenAccelerators
    deprecatedArchitectures := p'.deprecatedArchitectures
    requiredCapabilities := p'.requiredCapabilities, deniedCapabilities := p'.deniedCapabilities
    allowedPortabilityClasses := p'.allowedPortabilityClasses, tags := p'.tags }

/-- The sets were filled with the same records. -/
def CapabilitySet.Reordered (set set' : CapabilitySet) : Prop :=
  ∃ base records records', records.Perm records' ∧
    setRecords base records = .ok set ∧ setRecords base records' = .ok set'

def EvaluationSource.Reordered (source source' : EvaluationSource) : Prop :=
  source' = { source with capabilities := source'.capabilities } ∧
    Option.Rel CapabilitySet.Reordered source.capabilities source'.capabilities

/-- The evaluations differ in the order of what is declared. -/
structure EvaluationContext.Reordered (context context' : EvaluationContext) : Prop where
  policy : Option.Rel FederationPolicy.Reordered context.policy context'.policy
  target : Option.Rel CapabilitySet.Reordered context.target.capabilities
    context'.target.capabilities
  source : Option.Rel EvaluationSource.Reordered context.source context'.source
  rest : context' = { context with
    policy := context'.policy
    target := { context.target with capabilities := context'.target.capabilities }
    source := context'.source }

/-! ### Capability sets -/

namespace CapabilitySet

/-- The order in which records come is immaterial. -/
theorem canonicalRecords_perm {records records' out : List CapabilityRecord}
    (perm : records.Perm records') (accepted : canonicalRecords records = .ok out) :
    canonicalRecords records' = .ok out := by
  obtain ⟨few, working, mapped, rfl, clear⟩ := canonicalRecords_eq_ok_iff.mp accepted
  obtain ⟨results, mapped', moved⟩ := perm_of_mapM perm mapped
  have distinct : (working.map (·.key.name)).Nodup := by
    have weak : ((sortOn (·.key.name) working).map (·.key.name)).Pairwise (· ≤ ·) :=
      List.pairwise_map.mpr (pairwise_sortOn _ working)
    have increasing := (isChain_lt weak.isChain
      (FederationPolicy.isChain_of_adjacentDuplicate clear)).pairwise
    exact ((perm_sortOn _ working).map _).nodup_iff.mp (increasing.imp ne_of_lt)
  have arrivals : SameArrivals (·.key.name) working results :=
    .of_perm moved fun r listed r' listed' => List.inj_on_of_nodup_map distinct listed listed'
  exact canonicalRecords_eq_ok_iff.mpr
    ⟨perm.length_eq ▸ few, results, mapped', arrivals.sortOn_eq, clear⟩

theorem setRecords_perm {set out : CapabilitySet} {records records' : List CapabilityRecord}
    (perm : records.Perm records') (filled : set.setRecords records = .ok out) :
    set.setRecords records' = .ok out := by
  obtain ⟨canonical, rest⟩ := setRecords_eq_ok_iff.mp filled
  exact setRecords_eq_ok_iff.mpr ⟨canonicalRecords_perm perm canonical, rest⟩

/-- A set does not know the order in which its records came. -/
theorem Reordered.eq {set set' : CapabilitySet} (reordered : set.Reordered set') : set = set' := by
  obtain ⟨base, records, records', perm, filled, filled'⟩ := reordered
  exact Except.ok.inj ((setRecords_perm perm filled).symm.trans filled')

end CapabilitySet

theorem EvaluationSource.Reordered.eq {source source' : EvaluationSource}
    (reordered : source.Reordered source') : source = source' := by
  obtain ⟨rest, advertised⟩ := reordered
  rw [rest]
  generalize given : source.capabilities = set at advertised
  generalize source'.capabilities = set' at advertised
  cases advertised with
  | none => rw [← given]
  | some related => rw [← related.eq, ← given]

/-- Evaluations that are reordered differ in the lists of the policy only. -/
theorem EvaluationContext.Reordered.eq {context context' : EvaluationContext}
    (reordered : context.Reordered context') :
    context' = { context with policy := context'.policy } := by
  have evident : context'.target.capabilities = context.target.capabilities := by
    have advertised := reordered.target
    generalize context.target.capabilities = given at advertised
    generalize context'.target.capabilities = given' at advertised
    cases advertised with
    | none => rfl
    | some related => rw [related.eq]
  have origin : context'.source = context.source := by
    have moved := reordered.source
    generalize context.source = source at moved
    generalize context'.source = source' at moved
    cases moved with
    | none => rfl
    | some related => rw [related.eq]
  rw [reordered.rest, evident, origin]

/-! ### Requirements -/

/-- A list whose sorted copy repeats nothing repeats nothing. -/
theorem nodup_of_adjacentDuplicate {names : List Bytes}
    (clear : adjacentDuplicate (ascending names) = none) : names.Nodup := by
  have distinct := FederationPolicy.isChain_of_adjacentDuplicate clear
  have increasing := (isChain_lt (pairwise_sortOn id names).isChain distinct).pairwise
  exact (perm_sortOn id names).nodup_iff.mp (increasing.imp ne_of_lt)

theorem nodup_of_refuseDuplicate {message : String} {entries : List Bytes}
    (passed : WorkloadProfile.refuseDuplicate message entries = .ok ()) : entries.Nodup := by
  apply nodup_of_adjacentDuplicate
  rw [WorkloadProfile.refuseDuplicate] at passed
  cases found : adjacentDuplicate (ascending entries) with
  | none => rfl
  | some entry =>
      rw [found] at passed
      cases passed

/-- Requirements are processed in an order that determines them. -/
theorem canonicalizeRequirements_reordered {R : Registry} {w w' : WorkloadProfile}
    (valid : w.validate R = .ok ()) (reordered : w.Reordered w') :
    canonicalizeRequirements w = canonicalizeRequirements w' := by
  have signed : (w.requirements.map WorkloadProfile.requirementSignature).Nodup := by
    simp only [WorkloadProfile.validate, bind_eq_ok] at valid
    obtain ⟨_, _, _, _, _, _, _, _, _, _, _, _, _, distinct, _⟩ := valid
    exact nodup_of_refuseDuplicate distinct
  apply SameArrivals.sortOn_eq
  apply SameArrivals.of_perm reordered.requirements
  intro q listed q' listed' same
  apply List.inj_on_of_nodup_map signed listed listed'
  simp only [evaluationOrder, WorkloadProfile.requirementOrder, List.cons_append, List.nil_append,
    List.cons.injEq, and_true] at same
  obtain ⟨named, strength, operator, _⟩ := same
  have strength := congrArg RequirementStrength.fromWire strength
  have operator := congrArg RequirementOperator.fromWire operator
  rw [RequirementStrength.fromWire_toWire, RequirementStrength.fromWire_toWire] at strength
  rw [RequirementOperator.fromWire_toWire, RequirementOperator.fromWire_toWire] at operator
  rw [WorkloadProfile.requirementSignature, WorkloadProfile.requirementSignature, named,
    Option.some.inj strength, Option.some.inj operator]

/-! ### Reasons -/

/-- The same is found, and the reasons for it arrive alike as far as sorting can tell. -/
structure SameReasons (findings findings' : List Finding) : Prop where
  perm : findings.Perm findings'
  arrivals : SameArrivals reasonOrder (findings.map (·.reason)) (findings'.map (·.reason))

namespace SameReasons

variable {xs ys xs' ys' : List Finding}

theorem of_eq (same : xs = ys) : SameReasons xs ys := by
  rw [same]
  exact ⟨.rfl, .refl _ _⟩

theorem append (first : SameReasons xs ys) (second : SameReasons xs' ys') :
    SameReasons (xs ++ xs') (ys ++ ys') := by
  refine ⟨first.perm.append second.perm, ?_⟩
  rw [List.map_append, List.map_append]
  exact first.arrivals.append second.arrivals

/-- Findings about one name after the other, at most one for each, whose subject tells the name,
may be listed in any order. -/
theorem of_perm {names names' : List Bytes} (perm : names.Perm names')
    {about : Bytes → List Finding} {subject : Bytes → Bytes} (tells : subject.Injective)
    (shape : ∀ name, about name = [] ∨ ∃ gravity code detail observed,
      about name = [hardFinding gravity code (subject name) detail observed]) :
    SameReasons (names.flatMap about) (names'.flatMap about) := by
  have named (name : Bytes) (x : Finding) (found : x ∈ about name) :
      x.reason.subject = subject name ∧ about name = [x] := by
    rcases shape name with none | ⟨_, _, _, _, one⟩
    · rw [none] at found
      cases found
    · rw [one] at found ⊢
      obtain rfl := List.mem_singleton.mp found
      exact ⟨rfl, rfl⟩
  have moved := perm.flatMap_right about
  refine ⟨moved, SameArrivals.of_perm (moved.map _) ?_⟩
  intro r listed r' listed' same
  obtain ⟨x, inside, rfl⟩ := List.mem_map.mp listed
  obtain ⟨y, inside', rfl⟩ := List.mem_map.mp listed'
  obtain ⟨name, _, found⟩ := List.mem_flatMap.mp inside
  obtain ⟨name', _, found'⟩ := List.mem_flatMap.mp inside'
  have subjects : x.reason.subject = y.reason.subject := by
    simp only [reasonOrder, List.cons.injEq] at same
    exact same.2.1
  rw [(named name x found).1, (named name' y found').1] at subjects
  obtain rfl := tells subjects
  have alone := (named name x found).2
  rw [(named name y found').2] at alone
  rw [List.singleton_inj.mp alone]

end SameReasons

/-! ### Evaluations -/

/-- Whether something is listed does not depend on the order. -/
theorem contains_perm {α : Type} [BEq α] [LawfulBEq α] {xs ys : List α} (perm : xs.Perm ys) (a : α) :
    xs.contains a = ys.contains a := by
  rw [Bool.eq_iff_iff, List.contains_iff_mem, List.contains_iff_mem]
  exact perm.mem_iff

section Evaluation

variable {R : Registry} {w w' : WorkloadProfile} {policy policy' : FederationPolicy}
  {context : EvaluationContext} {set : CapabilitySet}

theorem FederationPolicy.Reordered.identityFindings_eq (reordered : policy.Reordered policy')
    (accelerator : AcceleratorId) :
    identityFindings policy accelerator set = identityFindings policy' accelerator set := by
  simp only [identityFindings, contains_perm reordered.accelerators,
    contains_perm reordered.forbidden, contains_perm reordered.allowed,
    contains_perm reordered.deprecated, reordered.allowed.isEmpty_eq]

theorem FederationPolicy.Reordered.sameReasons (reordered : policy.Reordered policy')
    (moved : w.Reordered w') (target : EvaluationTarget) :
    SameReasons (policyFindings w policy target set) (policyFindings w' policy' target set) := by
  have runtime : runtimeFindings policy set = runtimeFindings policy' set := by
    rw [reordered.rest]
    rfl
  have memory : memoryFindings policy set = memoryFindings policy' set := by
    rw [reordered.rest]
    rfl
  have provenance : provenanceFindings policy target.provenance =
      provenanceFindings policy' target.provenance := by
    rw [reordered.rest]
    rfl
  have tagged : tagFindings policy = tagFindings policy' := by
    funext tag
    simp only [tagFindings, contains_perm reordered.tags]
  unfold policyFindings
  refine .append (.append (.append (.append (.append (.append (.append ?_ ?_) ?_) ?_) ?_) ?_) ?_) ?_
  · exact .of_eq (reordered.identityFindings_eq target.accelerator)
  · exact .of_eq runtime
  · exact .of_eq memory
  · apply SameReasons.of_perm reordered.required Function.injective_id
    intro name
    rw [requiredFindings]
    split_ifs
    · exact .inr ⟨_, _, _, _, rfl⟩
    · exact .inr ⟨_, _, _, _, rfl⟩
    · exact .inl rfl
  · apply SameReasons.of_perm reordered.denied Function.injective_id
    intro name
    rw [deniedFindings]
    split_ifs
    · exact .inr ⟨_, _, _, _, rfl⟩
    · exact .inl rfl
  · rw [tagged]
    apply SameReasons.of_perm moved.tags (List.append_right_injective (text "policy.tag."))
    intro tag
    rw [tagFindings]
    split_ifs
    · exact .inl rfl
    · exact .inr ⟨_, _, _, _, rfl⟩
  · exact .of_eq provenance
  · exact .of_eq rfl

/-- Of the workload and the policy, the class depends on what is not a list; what follows from
it depends on which classes are allowed. -/
theorem FederationPolicy.Reordered.portabilityFindings_eq (reordered : policy.Reordered policy')
    (moved : w.Reordered w') (source : Option EvaluationSource) :
    portabilityFindings w policy set source = portabilityFindings w' policy' set source := by
  have mode : w'.executionMode = w.executionMode := by rw [moved.rest]
  have minimum : w'.minimumPortability = w.minimumPortability := by rw [moved.rest]
  have need : w'.migrationNeed = w.migrationNeed := by rw [moved.rest]
  have reconstruction : w'.reconstructionAllowed = w.reconstructionAllowed := by rw [moved.rest]
  have crossVendor : policy'.allowCrossVendorMigration = policy.allowCrossVendorMigration := by
    rw [reordered.rest]
  cases source with
  | none => rfl
  | some source =>
      have asked : portabilityRequest w' policy' set source =
          { portabilityRequest w policy set source with workload := some w' } := by
        rw [portabilityRequest, crossVendor]
        rfl
      have classified : classifyPortability (portabilityRequest w policy set source) =
          classifyPortability (portabilityRequest w' policy' set source) := by
        rw [asked]
        exact classifyPortability_congr (portabilityRequest w policy set source) need.symm
      simp only [portabilityFindings, classified, classFindings, modeFindings, migrationFindings,
        mode, minimum, need, reconstruction, contains_perm reordered.classes,
        reordered.classes.isEmpty_eq]

/-- The decision is the same one, but for the time it was made at. -/
theorem assessed_reordered (valid : w.validate R = .ok ()) (moved : w.Reordered w')
    (reordered : policy.Reordered policy') (createdAt createdAt' : Timestamp) :
    assessed w' { context with policy := some policy' } policy' set createdAt' =
      { assessed w context policy set createdAt with createdAt := createdAt' } := by
  have ordered := canonicalizeRequirements_reordered valid moved
  have degraded : policy'.allowDegradedCapabilities = policy.allowDegradedCapabilities := by
    rw [reordered.rest]
  have portability : portabilityFindings w policy set context.source =
      portabilityFindings w' policy' set context.source :=
    reordered.portabilityFindings_eq moved context.source
  have same : SameReasons (evaluationFindings w context policy set)
      (evaluationFindings w' { context with policy := some policy' } policy' set) := by
    unfold evaluationFindings
    rw [← ordered, degraded, ← portability]
    exact .append (.append (.of_eq rfl) (reordered.sameReasons moved context.target)) (.of_eq rfl)
  have outcome : outcomeOf (evaluationFindings w context policy set) =
      outcomeOf (evaluationFindings w' { context with policy := some policy' } policy' set) :=
    outcomeOf_congr fun f _ => same.perm.mem_iff
  have reasons : sortReasons ((evaluationFindings w context policy set).map (·.reason)) =
      sortReasons ((evaluationFindings w' { context with policy := some policy' } policy' set).map
        (·.reason)) := same.arrivals.sortOn_eq
  have score (value : PortabilityClass) : evaluationScore w context policy set value =
      evaluationScore w' { context with policy := some policy' } policy' set value := by
    rw [evaluationScore, evaluationScore, ordered, degraded]
  have policyId : policy'.id = policy.id := by rw [reordered.rest]
  have classId : w'.classId = w.classId := by rw [moved.rest]
  have requirementId : w'.requirementId = w.requirementId := by rw [moved.rest]
  unfold assessed
  dsimp only
  rw [outcome, reasons, score, portability, policyId, classId, requirementId]

/-- **Declaration order is irrelevant.** Of two evaluations of inputs that differ in the order of
requirements, tags, policy lists and capability records, if both return a decision, both return
the same outcome, class, score, reasons and fingerprint. -/
theorem order_irrelevant {context' : EvaluationContext} {createdAt createdAt' : Timestamp}
    {d d' : CompatibilityDecision} (moved : w.Reordered w') (reordered : context.Reordered context')
    (made : evaluateCompatibility R w context createdAt = .ok d)
    (made' : evaluateCompatibility R w' context' createdAt' = .ok d') :
    d'.outcome = d.outcome ∧ d'.portability = d.portability ∧ d'.score = d.score ∧
      d'.reasons = d.reasons ∧ d'.fingerprint = d.fingerprint := by
  obtain ⟨valid, policy, set, governed, evident, _, _, rfl⟩ := evaluateCompatibility_eq_ok.mp made
  obtain ⟨_, policy', set', governed', evident', _, _, rfl⟩ :=
    evaluateCompatibility_eq_ok.mp made'
  have lists := reordered.policy
  rw [governed, governed'] at lists
  cases lists with
  | some lists =>
      have same := reordered.eq
      rw [governed'] at same
      rw [same] at evident'
      obtain rfl := Option.some.inj (evident.symm.trans evident')
      rw [same, assessed_reordered valid moved lists createdAt createdAt']
      exact ⟨rfl, rfl, rfl, rfl, rfl⟩

end Evaluation

namespace Sample

/-- The wish and the need of a workload, the other way round. -/
def vendorWishing' : WorkloadProfile :=
  { vendorBound with requirements := [vendorNeed, { vendorNeed with strength := .soft }] }

theorem reordered_vendorWishing : vendorWishing.Reordered vendorWishing' :=
  ⟨.swap _ _ _, .rfl, rfl⟩

/-- The records of the device in the reverse order make the same set. -/
theorem reordered_capabilities : capabilities.Reordered capabilities := by
  have filled : ({ generation := ⟨1⟩ } : CapabilitySet).setRecords records = .ok capabilities :=
    rfl
  have perm := records.reverse_perm.symm
  exact ⟨_, records, records.reverse, perm, filled, CapabilitySet.setRecords_perm perm filled⟩

/-- Two tags, in either order. -/
def taggedPolicy (tags : List Bytes) : FederationPolicy := { vendorPolicy with tags }

theorem reordered_taggedPolicy : (taggedPolicy [text "a", text "b"]).Reordered
    (taggedPolicy [text "b", text "a"]) :=
  ⟨.rfl, .rfl, .rfl, .rfl, .rfl, .rfl, .rfl, .swap _ _ _, rfl⟩

def tagged (tags : List Bytes) : EvaluationContext :=
  { moving capabilities with policy := some (taggedPolicy tags) }

theorem reordered_tagged : (tagged [text "a", text "b"]).Reordered
    (tagged [text "b", text "a"]) :=
  ⟨.some reordered_taggedPolicy, .some reordered_capabilities,
    .some ⟨rfl, .some reordered_capabilities⟩, rfl⟩

theorem governed_tagged (tags : List Bytes) :
    (tagged tags).policy = some (taggedPolicy tags) := rfl

theorem evident_tagged (tags : List Bytes) :
    (tagged tags).target.capabilities = some capabilities := rfl

theorem identified_tagged (tags : List Bytes) : (tagged tags).target.accelerator ≠ .nil :=
  identified_blank

theorem made_tagged {w : WorkloadProfile} (valid : w.validate .core = .ok ()) {tags : List Bytes}
    (sound : (taggedPolicy tags).validate .core = .ok ()) (createdAt : Timestamp) :
    evaluateCompatibility .core w (tagged tags) createdAt =
      .ok (assessed w (tagged tags) (taggedPolicy tags) capabilities createdAt).refreshIdentity :=
  evaluateCompatibility_of_valid valid (governed_tagged tags) sound (evident_tagged tags)
    (identified_tagged tags) createdAt

/-- A policy that allows a vendor which it also forbids. -/
def inconsistent (forbidden : List Bytes) : FederationPolicy :=
  { vendorPolicy with allowedVendors := [text "zeta"], forbiddenVendors := forbidden }

end Sample

open Sample in
theorem wishes_in_any_order : ∃ d d',
    evaluateCompatibility .core vendorWishing (tagged [text "a", text "b"]) 0 = .ok d ∧
      evaluateCompatibility .core vendorWishing' (tagged [text "b", text "a"]) 1 = .ok d' ∧
      d'.outcome = d.outcome ∧ d'.portability = d.portability ∧ d'.score = d.score ∧
      d'.reasons = d.reasons ∧ d'.fingerprint = d.fingerprint := by
  have sound : (taggedPolicy [text "a", text "b"]).validate .core = .ok () := by decide +kernel
  have sound' : (taggedPolicy [text "b", text "a"]).validate .core = .ok () := by decide +kernel
  have valid : vendorWishing'.validate .core = .ok () := by decide +kernel
  have made := made_tagged valid_vendorWishing sound 0
  have made' := made_tagged valid sound' 1
  exact ⟨_, _, made, made', order_irrelevant reordered_vendorWishing reordered_tagged made made'⟩

end Haf
