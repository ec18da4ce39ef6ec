/-
# More evidence about the same devices

A capability set is extended by records for capabilities about which nothing was known.
What is known stays as it is, so that a requirement, a policy constraint or a membership
that was refuted is refuted still. The portability class is not monotone in this sense: it
is UNKNOWN or weak for want of evidence, and limits on it count as failures even so. An
ineligible pair remains ineligible exactly when this is not what made it so.
-/

import Haf.Codec.Decoded
import Haf.Properties.Constraints
import Haf.Properties.LiveBoot

namespace Haf

open Sequence

/-! ### Extensions of a capability set -/

namespace CapabilitySet

/-- The second set adds records for capabilities that are UNKNOWN in the first. -/
structure Extends (set more : CapabilitySet) : Prop where
  namespaces : more.closedNamespaces = set.closedNamespaces
  kept : ∀ r ∈ set.records, r ∈ more.records
  added : ∀ r ∈ more.records, r ∉ set.records → (set.lookup r.key.name).state = .unknown

/-- The names of the records strictly increase. -/
theorem pairwise_records (set : CapabilitySet) :
    set.records.Pairwise (·.key.name < ·.key.name) := by
  obtain ⟨_, working, _, sorted, clear⟩ := canonicalRecords_eq_ok_iff.mp set.records_canonical
  have weak : (set.records.map (·.key.name)).Pairwise (· ≤ ·) := by
    rw [sorted, List.pairwise_map]
    exact pairwise_sortOn _ working
  have distinct := FederationPolicy.isChain_of_adjacentDuplicate clear
  exact List.pairwise_map.mp (isChain_lt weak.isChain distinct).pairwise

/-- A set has one record of a name. -/
theorem eq_of_name {set : CapabilitySet} {r r' : CapabilityRecord} (listed : r ∈ set.records)
    (listed' : r' ∈ set.records) (same : r.key.name = r'.key.name) : r = r' := by
  have nodup : (set.records.map (·.key.name)).Nodup :=
    List.pairwise_map.mpr (set.pairwise_records.imp ne_of_lt)
  exact List.inj_on_of_nodup_map nodup listed listed' same

theorem lookup_of_mem {set : CapabilitySet} {r : CapabilityRecord} (listed : r ∈ set.records) :
    set.lookup r.key.name = { state := r.state, value := some r.value, present := true } := by
  rcases set.lookup_cases r.key.name with ⟨r', listed', named, same⟩ | ⟨absent, _⟩
  · rw [same, eq_of_name listed' listed named]
  · exact absurd rfl (absent r listed)

/-- The part of a name before its first dot. -/
def nameSpace (name : Bytes) : Bytes :=
  match splitFirst 46 name with
  | none => name
  | some (before, _) => before

/-- What is looked up depends on the record of that name and on whether its namespace is closed. -/
theorem lookup_congr {set set' : CapabilitySet} {name : Bytes}
    (records : ∀ r : CapabilityRecord, r.key.name = name → (r ∈ set.records ↔ r ∈ set'.records))
    (closed : nameSpace name ∈ set.closedNamespaces ↔ nameSpace name ∈ set'.closedNamespaces) :
    set.lookup name = set'.lookup name := by
  cases found : set.records.find? (·.key.name == name) with
  | some r =>
      have named : r.key.name = name := by simpa using List.find?_some found
      have listed := List.mem_of_find?_eq_some found
      rw [← named, lookup_of_mem listed, lookup_of_mem ((records r named).mp listed)]
  | none =>
      have absent : ∀ r ∈ set.records, r.key.name ≠ name := by simpa using found
      have found' : set'.records.find? (·.key.name == name) = none := by
        rw [List.find?_eq_none]
        intro r listed named
        have named : r.key.name = name := by simpa using named
        exact absent r ((records r named).mpr listed) named
      have same : set.closedNamespaces.contains (nameSpace name) =
          set'.closedNamespaces.contains (nameSpace name) := by
        rw [Bool.eq_iff_iff, List.contains_iff_mem, List.contains_iff_mem]
        exact closed
      rw [lookup, lookup, found, found']
      show (if set.closedNamespaces.contains (nameSpace name) then _ else _) =
        if set'.closedNamespaces.contains (nameSpace name) then _ else _
      rw [same]

/-- What is known is not changed by an extension. -/
theorem Extends.lookup_eq {set more : CapabilitySet} (extends' : set.Extends more) {name : Bytes}
    (known : (set.lookup name).state ≠ .unknown) : more.lookup name = set.lookup name := by
  apply lookup_congr
  · intro r named
    refine ⟨fun listed => ?_, extends'.kept r⟩
    by_contra fresh
    rw [← named] at known
    exact known (extends'.added r listed fresh)
  · rw [extends'.namespaces]

/-- A set whose keys come from a table has room for further records under names of the table,
since there is one record for a name. -/
theorem exists_extends {R : Registry} {set : CapabilitySet} {fresh : List CapabilityRecord}
    (resolved : ∀ r ∈ set.records ++ fresh, R.lists r.key.name = true)
    (canonical : ∀ r ∈ fresh, r.canonicalRecord = .ok r)
    (distinct : (fresh.map (·.key.name)).Nodup)
    (free : ∀ r ∈ fresh, set.lookup r.key.name = {}) :
    ∃ more : CapabilitySet, set.Extends more ∧ ∀ r ∈ fresh, r ∈ more.records := by
  have absent : ∀ r ∈ fresh, ∀ r' ∈ set.records, r'.key.name ≠ r.key.name := by
    intro r listed r' listed' same
    have none := free r listed
    rw [← same, lookup_of_mem listed'] at none
    cases congrArg CapabilityLookup.present none
  have names : ((set.records ++ fresh).map (·.key.name)).Nodup := by
    rw [List.map_append, List.nodup_append]
    refine ⟨List.pairwise_map.mpr (set.pairwise_records.imp ne_of_lt), distinct, ?_⟩
    intro name old name' new same
    obtain ⟨r', listed', rfl⟩ := List.mem_map.mp old
    obtain ⟨r, listed, rfl⟩ := List.mem_map.mp new
    exact absent r listed r' listed' same
  have room : (set.records ++ fresh).length ≤ Limits.maxCapabilitiesPerSet := by
    have within : (set.records ++ fresh).map (·.key.name) ⊆ coreKeys.map (·.1) ++ R.extensions := by
      intro name named
      obtain ⟨r, listed, rfl⟩ := List.mem_map.mp named
      exact R.mem_of_lists (resolved r listed)
    calc (set.records ++ fresh).length
        = ((set.records ++ fresh).map (·.key.name)).length := (List.length_map _).symm
      _ ≤ (coreKeys.map (·.1) ++ R.extensions).length := (names.subperm within).length_le
      _ = coreKeys.length + R.extensions.length := by rw [List.length_append, List.length_map]
      _ ≤ Limits.maxCapabilitiesPerSet := R.capacity
  have accepted : canonicalRecords (set.records ++ fresh) =
      .ok (sortOn (·.key.name) (set.records ++ fresh)) := by
    refine canonicalRecords_eq_ok_iff.mpr ⟨room, _, mapM_eq_self ?_, rfl, ?_⟩
    · intro r listed
      rcases List.mem_append.mp listed with old | new
      · exact set.canonicalRecord_of_mem old
      · exact canonical r new
    · apply adjacentDuplicate_eq_none
      exact ((perm_sortOn _ _).map _).nodup_iff.mpr names
  obtain ⟨more, -, records, namespaces⟩ := set.setRecords_eq_ok (canonicalRecords_idem accepted)
  refine ⟨more, ⟨namespaces, fun r listed => ?_, fun r listed new => ?_⟩, fun r listed => ?_⟩
  · rw [records, mem_sortOn]
    exact List.mem_append_left _ listed
  · rw [records, mem_sortOn] at listed
    rw [free r ((List.mem_append.mp listed).resolve_left new)]
  · rw [records, mem_sortOn]
    exact List.mem_append_right _ listed

end CapabilitySet

theorem exists_of_rel_some {α β : Type} {r : α → β → Prop} {a : α} {other : Option β}
    (related : Option.Rel r (some a) other) : ∃ b, other = some b ∧ r a b := by
  cases related with
  | some holds => exact ⟨_, rfl, holds⟩

section Readings

variable {set set' source source' : CapabilitySet} {name : Bytes}

theorem supports_congr (agree : set.lookup name = set'.lookup name) :
    set.supports name = set'.supports name := by
  rw [CapabilitySet.supports, CapabilitySet.supports, agree]

theorem known_congr (agree : set.lookup name = set'.lookup name) :
    set.known name = set'.known name := by
  rw [CapabilitySet.known, CapabilitySet.known, agree]

theorem sharesToken_congr (origin : source.lookup name = source'.lookup name)
    (agree : set.lookup name = set'.lookup name) :
    source.sharesToken set name = source'.sharesToken set' name := by
  rw [CapabilitySet.sharesToken, CapabilitySet.sharesToken, agree, origin]

theorem sameArchitecture_congr
    (origin : source.lookup Cap.architectureFamily = source'.lookup Cap.architectureFamily)
    (agree : set.lookup Cap.architectureFamily = set'.lookup Cap.architectureFamily) :
    PortabilityRequest.sameArchitecture source set =
      PortabilityRequest.sameArchitecture source' set' := by
  rw [PortabilityRequest.sameArchitecture, PortabilityRequest.sameArchitecture,
    known_congr origin, known_congr agree, origin, agree]

end Readings

/-- A token that is read stays the same. -/
theorem enumerationToken_of_extends {set more : CapabilitySet} (extends' : set.Extends more)
    {name : Bytes} (given : enumerationToken set name ≠ []) :
    enumerationToken more name = enumerationToken set name := by
  have known : (set.lookup name).state ≠ .unknown := by
    intro unknown
    apply given
    rw [enumerationToken]
    cases (set.lookup name).value <;> simp [unknown]
  rw [enumerationToken, enumerationToken, extends'.lookup_eq known]

/-! ### Refutations persist -/

section Persistence

variable {w : WorkloadProfile} {policy : FederationPolicy} {target target' : EvaluationTarget}
  {set more : CapabilitySet}

theorem CapabilityRequirement.clears_of_extends (extends' : set.Extends more)
    {q : CapabilityRequirement} {fresh allowDegraded : Bool}
    (clears : q.Clears false (more.lookup q.capability) fresh allowDegraded) :
    q.Clears false (set.lookup q.capability) fresh allowDegraded := by
  intro hard
  refine ⟨Bool.noConfusion, fun decided => ?_⟩
  have same := extends'.lookup_eq decided.1
  rw [← same] at decided ⊢
  exact (clears hard).2 decided

theorem Checked.of_extends (extends' : set.Extends more)
    (accelerator : target'.accelerator = target.accelerator)
    (provenance : target'.provenance = target.provenance)
    (vendor : enumerationToken more Cap.vendorId = enumerationToken set Cap.vendorId)
    (checked : Checked false w policy target' more) : Checked false w policy target set := by
  -- a lookup that decides is the same in both sets
  have same (name : Bytes) {P : CapabilityLookup → Prop}
      (holds : if (more.lookup name).state = .unknown then false = false else P (more.lookup name)) :
      if (set.lookup name).state = .unknown then false = false else P (set.lookup name) := by
    split_ifs with unknown
    · rfl
    · rw [extends'.lookup_eq unknown, if_neg unknown] at holds
      exact holds
  constructor
  · exact accelerator ▸ checked.accelerator
  · exact vendor ▸ checked.forbidden
  · exact vendor ▸ checked.allowed
  · intro given
    have kept := enumerationToken_of_extends extends' given
    exact kept ▸ checked.architecture (kept.symm ▸ given)
  · intro clauses
    exact same Cap.runtimeVersion (P := fun lookup => ∀ value, lookup.value = some value →
      policy.minimumRuntimeVersion.isMatch value.versionValue = true) (checked.runtime clauses)
  · intro minimum
    exact same Cap.memoryTotalBytes (P := fun lookup => ∀ value, lookup.value = some value →
      policy.minimumMemoryBytes ≤ value.integerValue.toUInt64) (checked.memory minimum)
  · intro name listed
    exact same name (P := fun lookup => lookup.state = .supported) (checked.required name listed)
  · intro name listed
    by_cases unknown : (set.lookup name).state = .unknown
    · simp [unknown]
    · rw [← extends'.lookup_eq unknown]
      exact checked.denied name listed
  · exact checked.tags
  · exact provenance ▸ checked.provenance

end Persistence

/-! ### Extensions of an evaluation -/

/-- The two evaluations differ in capability sets only, and the second has more evidence. -/
structure EvaluationContext.Extends (context more : EvaluationContext)
    (capabilities capabilities' : CapabilitySet) : Prop where
  evident : context.target.capabilities = some capabilities
  target : more.target = { context.target with capabilities := some capabilities' }
  added : capabilities.Extends capabilities'
  vendor : enumerationToken capabilities' Cap.vendorId = enumerationToken capabilities Cap.vendorId
  source : Option.Rel (fun source source' : EvaluationSource =>
      source' = { source with capabilities := source'.capabilities } ∧
        Option.Rel CapabilitySet.Extends source.capabilities source'.capabilities)
    context.source more.source
  rest : more = { context with target := more.target, source := more.source }

/-- **Ineligibility under more evidence.** An ineligible pair stays ineligible exactly when, should
every check pass on the extended evidence, the class of the move was within its limits before: what
is refuted on the base is refuted on the extension, and only a class can recover. -/
theorem ineligible_persists_iff {R : Registry} {w : WorkloadProfile}
    {context more : EvaluationContext} {policy : FederationPolicy}
    {capabilities capabilities' : CapabilitySet}
    (extends' : context.Extends more capabilities capabilities')
    (governed : context.policy = some policy) {createdAt createdAt' : Timestamp}
    {d : CompatibilityDecision} (made : evaluateCompatibility R w context createdAt = .ok d) :
    ∃ d', evaluateCompatibility R w more createdAt' = .ok d' ∧
      ((d.outcome = .ineligible → d'.outcome = .ineligible) ↔
        (Clears false w more policy capabilities' → ∀ source, context.source = some source →
          Portable false w policy (classFrom w policy capabilities source))) := by
  obtain ⟨valid, policy', set, governed', evident, identified, sound, rfl⟩ :=
    evaluateCompatibility_eq_ok.mp made
  cases governed.symm.trans governed'
  cases extends'.evident.symm.trans evident
  have accelerator : more.target.accelerator = context.target.accelerator := by
    rw [extends'.target]
  have provenance : more.target.provenance = context.target.provenance := by
    rw [extends'.target]
  have fresh : more.target.evidenceFresh = context.target.evidenceFresh := by
    rw [extends'.target]
  have accepts : more.target.acceptsNewWork = context.target.acceptsNewWork := by
    rw [extends'.target]
  have evident' : more.target.capabilities = some capabilities' := by
    rw [extends'.target]
  have governed' : more.policy = some policy := by
    rw [extends'.rest]
    exact governed
  refine ⟨_, evaluateCompatibility_of_valid valid governed' sound evident'
    (accelerator ▸ identified) createdAt', ?_⟩
  rw [← not_imp_not, ← ne_eq, ← ne_eq, ne_ineligible_iff_clears valid,
    ne_ineligible_iff_clears valid]
  apply forall_congr'
  intro clears
  constructor
  · intro before
    exact before.portability
  · intro portable
    exact ⟨fun q listed => CapabilityRequirement.clears_of_extends extends'.added
        (fresh ▸ clears.requirements q listed),
      clears.checked.of_extends extends'.added accelerator provenance extends'.vendor,
      accepts ▸ clears.membership, portable⟩

namespace Sample

/-- A workload that has to run the very binary it has. -/
def exactWork : WorkloadProfile := { undemanding with executionMode := .exactBinary }

def vendorRecord : CapabilityRecord :=
  supported Cap.vendorId (.enumeration (text "acme")) (by decide +kernel)

/-- Only the vendor of the device is known. -/
def vendorKnown : CapabilitySet :=
  { id := capabilitySetIdentity [vendorRecord] []
    generation := ⟨1⟩
    records := [vendorRecord]
    records_canonical := by decide +kernel
    identified := .inl rfl }

/-- A move between two devices of which the same is known. -/
def moving (known : CapabilitySet) : EvaluationContext :=
  { blankContext with
    target := { blankTarget with capabilities := some known }
    source := some {
      accelerator := ident 2, deviceGeneration := ⟨1⟩, capabilityGeneration := ⟨1⟩
      capabilities := some known, vendor := text "acme" } }

theorem valid_exactWork : exactWork.validate .core = .ok () := by decide +kernel

theorem extends_vendorKnown : vendorKnown.Extends capabilities := by
  refine ⟨rfl, ?_, ?_⟩
  · intro r listed
    cases List.mem_singleton.mp listed
    decide +kernel
  · decide +kernel

theorem extends_moving : (moving vendorKnown).Extends (moving capabilities) vendorKnown capabilities :=
  ⟨rfl, rfl, extends_vendorKnown, by decide +kernel, .some ⟨rfl, .some extends_vendorKnown⟩, rfl⟩

theorem governed_moving (known : CapabilitySet) :
    (moving known).policy = some FederationPolicy.permissiveDefault := rfl

theorem evident_moving (known : CapabilitySet) :
    (moving known).target.capabilities = some known := rfl

theorem identified_moving (known : CapabilitySet) : (moving known).target.accelerator ≠ .nil :=
  identified_blank

theorem made_moving (known : CapabilitySet) :
    evaluateCompatibility .core exactWork (moving known) 0 =
      .ok (assessed exactWork (moving known) FederationPolicy.permissiveDefault known
        0).refreshIdentity :=
  evaluateCompatibility_of_valid valid_exactWork (governed_moving known)
    (FederationPolicy.sound_permissiveDefault .core).valid (evident_moving known)
    (identified_moving known) 0

end Sample

open Sample in
/-- A pair that is ineligible as long as little is known becomes eligible with more evidence. -/
theorem moving_recovers : (moving vendorKnown).Extends (moving capabilities) vendorKnown capabilities ∧
    (∃ d, evaluateCompatibility .core exactWork (moving vendorKnown) 0 = .ok d ∧
      d.outcome = .ineligible) ∧
    ∃ d', evaluateCompatibility .core exactWork (moving capabilities) 0 = .ok d' ∧
      d'.outcome = .eligible := by
  refine ⟨extends_moving, ⟨_, made_moving vendorKnown, ?_⟩, _, made_moving capabilities, ?_⟩
  · decide +kernel
  · decide +kernel

open Sample in
theorem persists_moving : ∃ d d', evaluateCompatibility .core exactWork (moving vendorKnown) 0 = .ok d ∧
    evaluateCompatibility .core exactWork (moving capabilities) 0 = .ok d' ∧
    ((d.outcome = .ineligible → d'.outcome = .ineligible) ↔
      (Clears false exactWork (moving capabilities) FederationPolicy.permissiveDefault capabilities →
        ∀ source, (moving vendorKnown).source = some source →
          Portable false exactWork FederationPolicy.permissiveDefault
            (classFrom exactWork FederationPolicy.permissiveDefault vendorKnown source))) := by
  obtain ⟨d', made', persists⟩ :=
    ineligible_persists_iff extends_moving rfl (made_moving vendorKnown)
  exact ⟨_, d', made_moving vendorKnown, made', persists⟩

end Haf
