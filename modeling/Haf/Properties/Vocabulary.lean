/-
# The vocabulary of the core

Names outside the core vocabulary are free for adapters to use, under the namespace `x`. A
set is sorted as a whole, so that an extension record may stand before or behind any core
record and moves what the search probes. It is shown that this changes nothing: what is
looked up under a core name depends on the core records and on the namespaces other than
`x`, and a workload and a policy that name nothing else get the same verdict whatever
extensions the accelerators advertise.
-/

import Haf.Properties.Extension

namespace Haf

open Sequence

/-! ### Lookups -/

namespace CapabilitySet

/-- The search by halving finds the one record of a name. -/
theorem find_eq_searchOn (set : CapabilitySet) (name : Bytes) :
    set.records.find? (·.key.name == name) = searchOn (·.key.name) set.records name := by
  cases found : set.records.find? (·.key.name == name) with
  | some r =>
      have named : r.key.name = name := by simpa using List.find?_some found
      rw [← named]
      exact (searchOn_of_mem set.pairwise_records (List.mem_of_find?_eq_some found)).symm
  | none =>
      have absent : ∀ r ∈ set.records, r.key.name ≠ name := by simpa using found
      cases hit : searchOn (·.key.name) set.records name with
      | none => rfl
      | some r =>
          obtain ⟨r', listed, same⟩ := (isSome_searchOn set.pairwise_records).mp
            (Option.isSome_iff_exists.mpr ⟨r, hit⟩)
          exact absurd same (absent r' listed)

/-- The sets differ in extension records and in whether the namespace of extensions is closed. -/
structure DiffersInExtensions (set set' : CapabilitySet) : Prop where
  records : ∀ r : CapabilityRecord, isExtensionName r.key.name = false →
    (r ∈ set.records ↔ r ∈ set'.records)
  namespaces : ∀ name : Bytes, name ≠ text "x" →
    (name ∈ set.closedNamespaces ↔ name ∈ set'.closedNamespaces)

/-- Nothing of the core vocabulary is an extension or lies in the namespace of extensions. -/
theorem of_core {name : Bytes} (core : (coreKind name).isSome) :
    isExtensionName name = false ∧ nameSpace name ≠ text "x" := by
  have table : ∀ entry ∈ coreKeys, isExtensionName entry.1 = false ∧
      nameSpace entry.1 ≠ text "x" := by decide +kernel
  rw [coreKind, Option.isSome_map] at core
  obtain ⟨entry, found⟩ := Option.isSome_iff_exists.mp core
  have same : entry.1 = name := by simpa using List.find?_some found
  exact same ▸ table entry (List.mem_of_find?_eq_some found)

/-- What is looked up under a core name does not depend on extensions. -/
theorem DiffersInExtensions.lookup_eq {set set' : CapabilitySet}
    (differs : set.DiffersInExtensions set') {name : Bytes} (core : (coreKind name).isSome) :
    set.lookup name = set'.lookup name := by
  obtain ⟨plain, outside⟩ := of_core core
  apply lookup_congr
  · intro r named
    exact differs.records r (named ▸ plain)
  · exact differs.namespaces _ outside

end CapabilitySet

/-! ### What the engines read -/

/-- The same is looked up under every core name. -/
def AgreeOnCore (set set' : CapabilitySet) : Prop :=
  ∀ name, (coreKind name).isSome → set.lookup name = set'.lookup name

section Agreement

variable {set set' source source' : CapabilitySet}

theorem enumerationToken_congr {name : Bytes} (agree : set.lookup name = set'.lookup name) :
    enumerationToken set name = enumerationToken set' name := by
  rw [enumerationToken, enumerationToken, agree]

/-- The classifier reads core names only. -/
theorem classifyKnown_congr (request : PortabilityRequest) (origin : AgreeOnCore source source')
    (agree : AgreeOnCore set set') :
    request.classifyKnown source set = request.classifyKnown source' set' := by
  have unknown : PortabilityRequest.unknownInputs source set =
      PortabilityRequest.unknownInputs source' set' := by
    have table : ∀ item ∈ PortabilityRequest.requiredEvidence, (coreKind item.1).isSome := by
      decide +kernel
    unfold PortabilityRequest.unknownInputs
    congr 1
    apply List.filter_congr
    intro item listed
    rw [known_congr (origin _ (table item listed)), known_congr (agree _ (table item listed))]
  have live : (coreKind Cap.migrationLiveStateTransfer).isSome := by decide +kernel
  have checkpoint : (coreKind Cap.migrationCheckpointRestore).isSome := by decide +kernel
  have crossVendor : (coreKind Cap.migrationCrossVendorState).isSome := by decide +kernel
  have recompile : (coreKind Cap.portabilityRecompileAvailable).isSome := by decide +kernel
  have repackage : (coreKind Cap.portabilityRepackageAvailable).isSome := by decide +kernel
  have reconstruct : (coreKind Cap.migrationStateReconstruction).isSome := by decide +kernel
  have targets : (coreKind Cap.isaCodeObjectTargets).isSome := by decide +kernel
  have family : (coreKind Cap.architectureFamily).isSome := by decide +kernel
  have allowed : request.crossVendorLiveAllowed source set =
      request.crossVendorLiveAllowed source' set' := by
    rw [PortabilityRequest.crossVendorLiveAllowed, PortabilityRequest.crossVendorLiveAllowed,
      supports_congr (origin _ crossVendor), supports_congr (agree _ crossVendor)]
  have architecture := sameArchitecture_congr (origin _ family) (agree _ family)
  have strongest : request.strongestClass source set = request.strongestClass source' set' := by
    simp only [PortabilityRequest.strongestClass, allowed, architecture,
      sharesToken_congr (origin _ targets) (agree _ targets), known_congr (agree _ targets),
      supports_congr (origin _ live), supports_congr (agree _ live),
      supports_congr (origin _ checkpoint), supports_congr (agree _ checkpoint),
      supports_congr (agree _ recompile), supports_congr (agree _ repackage),
      supports_congr (agree _ reconstruct)]
  rw [PortabilityRequest.classifyKnown, PortabilityRequest.classifyKnown, unknown, strongest,
    allowed]

/-- The workload and the policy name capabilities of the core only. -/
structure NamesCore (w : WorkloadProfile) (policy : FederationPolicy) : Prop where
  requirement : ∀ q ∈ w.requirements, (coreKind q.capability).isSome
  required : ∀ name ∈ policy.requiredCapabilities, (coreKind name).isSome
  denied : ∀ name ∈ policy.deniedCapabilities, (coreKind name).isSome

variable {w : WorkloadProfile} {policy : FederationPolicy}

theorem policyFindings_congr (names : NamesCore w policy) (agree : AgreeOnCore set set')
    {target target' : EvaluationTarget} (accelerator : target.accelerator = target'.accelerator)
    (provenance : target.provenance = target'.provenance)
    (accepts : target.acceptsNewWork = target'.acceptsNewWork) :
    policyFindings w policy target set = policyFindings w policy target' set' := by
  have identity : identityFindings policy target.accelerator set =
      identityFindings policy target'.accelerator set' := by
    rw [identityFindings, identityFindings, accelerator,
      enumerationToken_congr (agree Cap.vendorId (by decide +kernel)),
      enumerationToken_congr (agree Cap.architectureFamily (by decide +kernel))]
  have runtime : runtimeFindings policy set = runtimeFindings policy set' := by
    rw [runtimeFindings, runtimeFindings, agree Cap.runtimeVersion (by decide +kernel)]
  have memory : memoryFindings policy set = memoryFindings policy set' := by
    rw [memoryFindings, memoryFindings, agree Cap.memoryTotalBytes (by decide +kernel)]
  have required : policy.requiredCapabilities.flatMap (requiredFindings set) =
      policy.requiredCapabilities.flatMap (requiredFindings set') := by
    apply List.flatMap_congr
    intro name listed
    rw [requiredFindings, requiredFindings, agree name (names.required name listed)]
  have denied : policy.deniedCapabilities.flatMap (deniedFindings set) =
      policy.deniedCapabilities.flatMap (deniedFindings set') := by
    apply List.flatMap_congr
    intro name listed
    rw [deniedFindings, deniedFindings, agree name (names.denied name listed)]
  rw [policyFindings, policyFindings, identity, runtime, memory, required, denied, provenance,
    accepts]

theorem requirementFindings_congr (names : NamesCore w policy) (agree : AgreeOnCore set set')
    (fresh allowDegraded : Bool) :
    (canonicalizeRequirements w).filterMap (requirementFinding set fresh allowDegraded) =
      (canonicalizeRequirements w).filterMap (requirementFinding set' fresh allowDegraded) := by
  apply List.filterMap_congr
  intro q listed
  rw [requirementFinding, requirementFinding,
    agree _ (names.requirement q (mem_sortOn.mp listed))]

theorem evaluationScore_congr (names : NamesCore w policy) (agree : AgreeOnCore set set')
    {context context' : EvaluationContext} (value : PortabilityClass)
    (fresh : context.target.evidenceFresh = context'.target.evidenceFresh)
    (provenance : context.target.provenance = context'.target.provenance) :
    evaluationScore w context policy set value = evaluationScore w context' policy set' value := by
  have each : (canonicalizeRequirements w).map (requirementScore set
        context'.target.evidenceFresh policy.allowDegradedCapabilities) =
      (canonicalizeRequirements w).map (requirementScore set'
        context'.target.evidenceFresh policy.allowDegradedCapabilities) := by
    apply List.map_congr_left
    intro q listed
    rw [requirementScore, requirementScore, agree _ (names.requirement q (mem_sortOn.mp listed))]
  have free : freeMemoryScore set context'.target.evidenceFresh =
      freeMemoryScore set' context'.target.evidenceFresh := by
    rw [freeMemoryScore, freeMemoryScore, agree Cap.memoryFreeBytes (by decide +kernel)]
  rw [evaluationScore, evaluationScore, fresh, provenance, each, free]

end Agreement

/-! ### Independence -/

/-- The sources are the same but for the extensions that are advertised. -/
def EvaluationSource.DiffersInExtensions (source source' : EvaluationSource) : Prop :=
  source' = { source with capabilities := source'.capabilities } ∧
    Option.Rel CapabilitySet.DiffersInExtensions source.capabilities source'.capabilities

/-- The evaluations are the same but for the extensions that are advertised. -/
structure EvaluationContext.DiffersInExtensions (context context' : EvaluationContext) : Prop where
  target : Option.Rel CapabilitySet.DiffersInExtensions context.target.capabilities
    context'.target.capabilities
  source : Option.Rel EvaluationSource.DiffersInExtensions context.source context'.source
  rest : context' = { context with
    target := { context.target with capabilities := context'.target.capabilities }
    source := context'.source }

/-- The requests are the same but for the extensions that are advertised. -/
structure PortabilityRequest.DiffersInExtensions (request request' : PortabilityRequest) :
    Prop where
  source : Option.Rel CapabilitySet.DiffersInExtensions request.sourceCapabilities
    request'.sourceCapabilities
  destination : Option.Rel CapabilitySet.DiffersInExtensions request.destinationCapabilities
    request'.destinationCapabilities
  rest : request' = { request with
    sourceCapabilities := request'.sourceCapabilities
    destinationCapabilities := request'.destinationCapabilities }

/-- What a decision says about the pair it is on. -/
def CompatibilityDecision.verdict (d : CompatibilityDecision) :
    CompatibilityOutcome × PortabilityClass × List CompatibilityReason × Int64 :=
  (d.outcome, d.portability, d.reasons, d.score)

variable {set set' : CapabilitySet} {policy : FederationPolicy}

theorem CapabilitySet.DiffersInExtensions.agreeOnCore
    (differs : set.DiffersInExtensions set') : AgreeOnCore set set' :=
  fun _ core => differs.lookup_eq core

theorem PortabilityRequest.DiffersInExtensions.classifyPortability_eq
    {request request' : PortabilityRequest} (differs : request.DiffersInExtensions request') :
    classifyPortability request = classifyPortability request' := by
  obtain ⟨origin, goal, rest⟩ := differs
  rw [rest]
  unfold classifyPortability
  dsimp only
  generalize request.sourceCapabilities = source at origin ⊢
  generalize request'.sourceCapabilities = source' at origin ⊢
  generalize request.destinationCapabilities = destination at goal ⊢
  generalize request'.destinationCapabilities = destination' at goal ⊢
  cases origin with
  | none => rfl
  | some from_ =>
      cases goal with
      | none => rfl
      | some to_ => exact classifyKnown_congr request from_.agreeOnCore to_.agreeOnCore

theorem portabilityFindings_congr {w : WorkloadProfile}
    (differs : set.DiffersInExtensions set')
    {source source' : Option EvaluationSource}
    (origin : Option.Rel EvaluationSource.DiffersInExtensions source source') :
    portabilityFindings w policy set source = portabilityFindings w policy set' source' := by
  cases origin with
  | none => rfl
  | some related =>
      rename_i source source'
      obtain ⟨rest, advertised⟩ := related
      have vendor : source'.vendor = source.vendor := by rw [rest]
      have token := enumerationToken_congr
        (differs.agreeOnCore Cap.vendorId (by decide +kernel))
      have asked : (portabilityRequest w policy set source).DiffersInExtensions
          (portabilityRequest w policy set' source') :=
        ⟨advertised, .some differs, by simp only [portabilityRequest, vendor, token]⟩
      simp only [portabilityFindings, asked.classifyPortability_eq]

/-- The decision on a pair says the same whatever is advertised outside the core. -/
theorem verdict_assessed {w : WorkloadProfile} {context context' : EvaluationContext}
    (names : NamesCore w policy)
    (advertised : set.DiffersInExtensions set') (differs : context.DiffersInExtensions context')
    (createdAt createdAt' : Timestamp) :
    (assessed w context policy set createdAt).refreshIdentity.verdict =
      (assessed w context' policy set' createdAt').refreshIdentity.verdict := by
  have fresh : context'.target.evidenceFresh = context.target.evidenceFresh := by
    rw [differs.rest]
  have provenance : context'.target.provenance = context.target.provenance := by
    rw [differs.rest]
  have accelerator : context'.target.accelerator = context.target.accelerator := by
    rw [differs.rest]
  have accepts : context'.target.acceptsNewWork = context.target.acceptsNewWork := by
    rw [differs.rest]
  have agree := advertised.agreeOnCore
  have moved : portabilityFindings w policy set context.source =
      portabilityFindings w policy set' context'.source :=
    portabilityFindings_congr advertised differs.source
  have findings : evaluationFindings w context policy set =
      evaluationFindings w context' policy set' := by
    rw [evaluationFindings, evaluationFindings, fresh,
      requirementFindings_congr names agree,
      policyFindings_congr names agree accelerator.symm provenance.symm accepts.symm, moved]
  have score (value : PortabilityClass) : evaluationScore w context policy set value =
      evaluationScore w context' policy set' value :=
    evaluationScore_congr names agree value fresh.symm provenance.symm
  show (outcomeOf (evaluationFindings w context policy set),
    (portabilityFindings w policy set context.source).1,
    sortReasons ((evaluationFindings w context policy set).map (·.reason)),
    evaluationScore w context policy set (portabilityFindings w policy set context.source).1) = _
  rw [findings, moved, score]
  rfl

/-- What an evaluation with complete input checks, and what it returns then. -/
theorem evaluateCompatibility_of_given (R : Registry) (w : WorkloadProfile)
    {context : EvaluationContext}
    (governed : context.policy = some policy) (evident : context.target.capabilities = some set)
    (createdAt : Timestamp) :
    evaluateCompatibility R w context createdAt = (do
      w.validate R
      ensure (!context.target.accelerator.isNil) (.failure .invalidArgument
        "compatibility evaluation requires a target accelerator identity")
      policy.validate R) >>=
        fun _ => pure (assessed w context policy set createdAt).refreshIdentity := by
  rw [evaluateCompatibility, governed, evident]
  simp only [bind_assoc]

/-- A value behind a check is seen as another one that looks the same. -/
theorem map_pure_congr {α β γ : Type} (check : Result α) {b b' : β} {view : β → γ}
    (same : view b = view b') :
    (check >>= fun _ => pure b).map view = (check >>= fun _ => pure b').map view := by
  cases check with
  | error status => rfl
  | ok _ => exact congrArg Except.ok same

/-- **Extensions never decide.** A workload and a policy that name core capabilities only are
given the same outcome, class, reasons and score, or the same refusal, and the classifier the
same result, whatever extension records the accelerators have and whether or not the namespace
of extensions is closed. -/
theorem extensions_never_decide (R : Registry) {w : WorkloadProfile}
    {context context' : EvaluationContext} (createdAt createdAt' : Timestamp)
    (names : ∀ policy, context.policy = some policy → NamesCore w policy)
    (differs : context.DiffersInExtensions context') {request request' : PortabilityRequest}
    (asked : request.DiffersInExtensions request') :
    (evaluateCompatibility R w context createdAt).map (·.verdict) =
        (evaluateCompatibility R w context' createdAt').map (·.verdict) ∧
      classifyPortability request = classifyPortability request' := by
  refine ⟨?_, asked.classifyPortability_eq⟩
  have governed' : context'.policy = context.policy := by rw [differs.rest]
  have accelerator : context'.target.accelerator = context.target.accelerator := by
    rw [differs.rest]
  have advertised := differs.target
  generalize evident : context.target.capabilities = given at advertised
  generalize evident' : context'.target.capabilities = given' at advertised
  cases governed : context.policy with
  | none => rw [evaluateCompatibility, evaluateCompatibility, governed', governed]
  | some policy =>
      rw [governed] at governed'
      cases advertised with
      | none =>
          rw [evaluateCompatibility, evaluateCompatibility, governed, governed', evident, evident']
      | some related =>
          rw [evaluateCompatibility_of_given R w governed evident,
            evaluateCompatibility_of_given R w governed' evident', accelerator]
          exact map_pure_congr _ (verdict_assessed (names policy governed) related differs _ _)

namespace Sample

/-- A capability that only one adapter knows of. -/
def extensionRecord : CapabilityRecord :=
  { key := ⟨text "x.acme.tiles", .inr ⟨by decide, by decide +kernel, by decide⟩⟩
    state := .supported, value := .tokenSet [text "wide"] }

/-- The vendor of the device and an extension of it, in a closed namespace. -/
def vendorExtended : CapabilitySet :=
  { id := capabilitySetIdentity [vendorRecord, extensionRecord] [text "x"]
    generation := ⟨1⟩
    records := [vendorRecord, extensionRecord]
    closedNamespaces := [text "x"]
    records_canonical := by decide +kernel
    namespaces_canonical := by decide +kernel
    identified := .inl rfl }

theorem differs_vendorExtended : vendorKnown.DiffersInExtensions vendorExtended := by
  constructor
  · intro r core
    constructor
    · intro listed
      exact List.mem_cons.mpr (.inl (List.mem_singleton.mp listed))
    · intro listed
      rcases List.mem_cons.mp listed with rfl | extension
      · exact List.mem_singleton.mpr rfl
      · rw [List.mem_singleton.mp extension] at core
        cases core
  · intro name other
    constructor
    · intro closed
      cases closed
    · intro closed
      exact absurd (List.mem_singleton.mp closed) other

theorem differs_moving :
    (moving vendorKnown).DiffersInExtensions (moving vendorExtended) :=
  ⟨.some differs_vendorExtended, .some ⟨rfl, .some differs_vendorExtended⟩, rfl⟩

/-- The question that is put to the classifier about the move. -/
def movingRequest (known : CapabilitySet) : PortabilityRequest :=
  { sourceCapabilities := some known, destinationCapabilities := some known
    sourceVendor := text "acme", destinationVendor := text "acme", workload := none
    policyAllowsCrossVendorMigration := false }

theorem differs_movingRequest :
    (movingRequest vendorKnown).DiffersInExtensions (movingRequest vendorExtended) :=
  ⟨.some differs_vendorExtended, .some differs_vendorExtended, rfl⟩

theorem names_vendorBound (policy : FederationPolicy)
    (governed : (moving vendorKnown).policy = some policy) : NamesCore vendorBound policy := by
  obtain rfl := Option.some.inj governed
  exact ⟨by decide +kernel, by decide +kernel, by decide +kernel⟩

end Sample

open Sample in
theorem extension_ignored_moving :
    (evaluateCompatibility .core vendorBound (moving vendorKnown) 0).map (·.verdict) =
        (evaluateCompatibility .core vendorBound (moving vendorExtended) 1).map (·.verdict) ∧
      classifyPortability (movingRequest vendorKnown) =
        classifyPortability (movingRequest vendorExtended) :=
  extensions_never_decide .core 0 1 names_vendorBound differs_moving differs_movingRequest

end Haf
