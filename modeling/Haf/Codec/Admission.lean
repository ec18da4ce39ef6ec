/-
# Input that keeps its form

What the operations accept is wider than what the decoder does. The predicates of
this module narrow the input of the operations field by field, and under them
accepted input can be stored: topology references in strict order, version texts within
the limits of the wire, policy dimensions without repetitions or overlaps, version
clauses that are not wildcards.
-/

import Haf.Codec.Snapshot
import Haf.Codec.Version

namespace Haf

open Sequence

/-! ### Capabilities -/

theorem CapabilityValue.storable_of_canonicalize {value : CapabilityValue}
    (fixed : value.canonicalize = .ok value)
    (short : ∀ v, value = .version v → v.prerelease.length ≤ Limits.maxTokenBytes) :
    value.Storable := by
  cases value with
  | presence flag => trivial
  | version v => exact short v rfl
  | integer n => trivial
  | scalar d =>
      rw [canonicalize] at fixed
      split at fixed
      · cases fixed
      · rename_i finite
        simpa [Storable] using finite
  | enumeration token =>
      cases canonicalize_eq_ok_iff.mp fixed with
      | enumeration canonical => exact (isCanonical_of_canonicalToken canonical).bounded
  | tokenSet tokens =>
      cases canonicalize_eq_ok_iff.mp fixed with
      | tokenSet canonical =>
          obtain ⟨fits, working, mapped, same⟩ := canonicalTokens_eq_some_iff.mp canonical
          refine ⟨fits, fun token listed => ?_⟩
          rw [← same] at listed
          obtain ⟨_, _, accepted⟩ := exists_of_mem_mapM mapped (sortUnique_subset listed)
          exact (isCanonical_of_canonicalToken accepted).bounded

/-- The process lists every key and version texts keep to the limit of the wire. -/
def CapabilitySet.Admissible (R : Registry) (set : CapabilitySet) : Prop :=
  ∀ r ∈ set.records, R.lists r.key.name = true ∧
    ∀ v, r.value = .version v → v.prerelease.length ≤ Limits.maxTokenBytes

theorem CapabilitySet.Admissible.storable {R : Registry} {set : CapabilitySet}
    (admissible : set.Admissible R) (filled : set.records ≠ []) : set.Storable R := by
  refine ⟨set.identified.resolve_right fun empty => filled empty.2.1, ?_⟩
  intro r listed
  obtain ⟨known, short⟩ := admissible r listed
  refine ⟨known, CapabilityValue.storable_of_canonicalize ?_ short⟩
  obtain ⟨value, canonical, same, _⟩ :=
    CapabilityRecord.canonicalRecord_eq_ok_iff.mp (set.canonicalRecord_of_mem listed)
  rw [canonical, same]

/-! ### Descriptors -/

namespace AcceleratorDescriptor

/-- The form in which a descriptor is stored: capabilities as above, topology references in
strict order and within the limit of the wire. -/
structure Admissible (R : Registry) (d : AcceleratorDescriptor) : Prop where
  capabilities : d.capabilities.Admissible R
  references : d.topologyReferences.IsChain (· < ·)
  short : ∀ reference ∈ d.topologyReferences, reference.length ≤ Limits.maxNameBytes

/-- Reading a valid descriptor back gives a valid one. -/
theorem Valid.persisted {d : AcceleratorDescriptor} (valid : d.Valid) : d.persisted.Valid :=
  { valid with
    vendor := rfl
    architecture := rfl
    witnesses := by simpa [AcceleratorDescriptor.persisted] using valid.witnesses
    evidence := by
      intro e listed
      obtain ⟨e', inside, rfl⟩ := List.mem_map.mp listed
      exact valid.evidence e' inside
    native := by
      intro level empty
      exact valid.native level (List.map_eq_nil_iff.mp empty) }

theorem Admissible.storable {R : Registry} {d : AcceleratorDescriptor}
    (admissible : d.Admissible R) (valid : d.Valid) : d.Storable R :=
  ⟨admissible.capabilities.storable valid.advertised, admissible.references, admissible.short,
    validate_eq_ok.mpr valid.persisted⟩

end AcceleratorDescriptor

/-! ### Workloads -/

/-- A requirement without wildcard clauses, its texts within the limits of the wire. -/
structure CapabilityRequirement.Admissible (q : CapabilityRequirement) : Prop where
  value : q.value.Storable
  clauses : q.versionRange.clauses.length ≤ 32
  bounded : ∀ clause ∈ q.versionRange.clauses, clause.op ≠ .any
  prereleases : ∀ clause ∈ q.versionRange.clauses,
    clause.version.prerelease.length ≤ Limits.maxTokenBytes

theorem CapabilityRequirement.Admissible.persisted_eq {q : CapabilityRequirement}
    (admissible : q.Admissible) : q.persisted = q := by
  rw [persisted, reparseClauses_eq_ok _ admissible.bounded]

theorem CapabilityRequirement.Admissible.storable {R : Registry} {q : CapabilityRequirement}
    (admissible : q.Admissible) (valid : q.validate R = .ok ()) : q.Storable R :=
  ⟨admissible.value, admissible.clauses, admissible.prereleases,
    ⟨_, reparseClauses_eq_ok _ admissible.bounded⟩, by rw [admissible.persisted_eq]; exact valid⟩

namespace WorkloadProfile

theorem validateRequirements_eq_ok {R : Registry} {requirements : List CapabilityRequirement} :
    validateRequirements R requirements = .ok () ↔ ∀ q ∈ requirements, q.validate R = .ok () := by
  induction requirements with
  | nil => simp [validateRequirements]
  | cons q rest ih =>
      simp only [validateRequirements, bind_eq_ok, ih, List.forall_mem_cons]
      constructor
      · rintro ⟨_, valid, tail⟩
        exact ⟨valid, tail⟩
      · rintro ⟨valid, tail⟩
        exact ⟨(), valid, tail⟩

/-- A valid profile whose requirements can be stored. -/
structure Sound (R : Registry) (w : WorkloadProfile) : Prop where
  valid : w.validate R = .ok ()
  requirements : ∀ q ∈ w.requirements, q.Admissible

namespace Sound

variable {R : Registry} {w : WorkloadProfile}

/-- Sound profiles are read back unchanged. -/
theorem persisted_eq (sound : w.Sound R) : w.persisted = w := by
  have same : w.requirements.map (·.persisted) = w.requirements := by
    conv_rhs => rw [← List.map_id w.requirements]
    exact List.map_congr_left fun q listed => (sound.requirements q listed).persisted_eq
  rw [persisted, same]

theorem requirement (sound : w.Sound R) {q : CapabilityRequirement}
    (listed : q ∈ w.requirements) : q.validate R = .ok () := by
  have valid := sound.valid
  simp only [validate, bind_eq_ok] at valid
  obtain ⟨_, _, _, _, _, _, _, _, _, _, _, requirements, _⟩ := valid
  exact validateRequirements_eq_ok.mp requirements q listed

theorem storable (sound : w.Sound R) : w.Storable R := by
  refine ⟨fun q listed => ?_, ?_⟩
  · exact (sound.requirements q listed).storable (sound.requirement listed)
  · rw [sound.persisted_eq]
    exact sound.valid

end Sound

end WorkloadProfile

/-! ### Policies -/

theorem adjacentDuplicate_eq_none {names : List Bytes} (distinct : names.Nodup) :
    adjacentDuplicate names = none := by
  induction names with
  | nil => rfl
  | cons a rest ih =>
      cases rest with
      | nil => rfl
      | cons b rest =>
          obtain ⟨absent, tail⟩ := List.nodup_cons.mp distinct
          have differ : ¬ b = a := fun same => absent (same ▸ List.mem_cons_self)
          rw [adjacentDuplicate, if_neg differ]
          exact ih tail

theorem mem_ascending {items : List Bytes} {a : Bytes} : a ∈ ascending items ↔ a ∈ items :=
  mem_sortOn

theorem nodup_ascending {items : List Bytes} (distinct : items.Nodup) : (ascending items).Nodup :=
  (perm_sortOn _ items).nodup_iff.mpr distinct

namespace FederationPolicy

/-- The dimensions that list taxonomy tokens or tags. -/
def tokenLists (p : FederationPolicy) : List (List Bytes) :=
  [p.allowedVendors, p.forbiddenVendors, p.deprecatedArchitectures, p.tags]

/-- The dimensions that list capabilities. -/
def capabilityLists (p : FederationPolicy) : List (List Bytes) :=
  [p.requiredCapabilities, p.deniedCapabilities]

/-- Dimensions without repetitions whose entries are in canonical form, nothing both asked for
and ruled out, and the remaining sizes within the limits of the wire. -/
structure Admissible (R : Registry) (p : FederationPolicy) : Prop where
  tokens : ∀ list ∈ p.tokenLists, list.Nodup ∧ ∀ token ∈ list, IsCanonical token Limits.maxTokenBytes
  capabilities : ∀ list ∈ p.capabilityLists, list.Nodup ∧ ∀ name ∈ list, R.lists name = true
  vendors : ∀ vendor ∈ p.allowedVendors, vendor ∉ p.forbiddenVendors
  demands : ∀ capability ∈ p.requiredCapabilities, capability ∉ p.deniedCapabilities
  classes : p.allowedPortabilityClasses.length ≤ Limits.maxPolicyDimensions
  version : p.minimumRuntimeVersion.toText.length ≤ Limits.maxStringBytes

/-- A valid policy that can be stored and whose identity is that of its content. -/
structure Sound (R : Registry) (p : FederationPolicy) : Prop where
  admissible : p.Admissible R
  valid : p.validate R = .ok ()
  identified : p.refreshIdentity.id = p.id

/-- The policy with its dimensions sorted and its version range read back. -/
def reread (p : FederationPolicy) : FederationPolicy :=
  { p with
    allowedVendors := ascending p.allowedVendors
    forbiddenVendors := ascending p.forbiddenVendors
    deprecatedArchitectures := ascending p.deprecatedArchitectures
    minimumRuntimeVersion := p.minimumRuntimeVersion.reread
    requiredCapabilities := ascending p.requiredCapabilities
    deniedCapabilities := ascending p.deniedCapabilities
    tags := ascending p.tags }

/-- The digest does not see the order of the dimensions. -/
theorem digest_reread (p : FederationPolicy) : p.reread.digest = p.digest := by
  simp only [digest, reread, sortOn_sortOn, VersionRange.toText_reread]

theorem id_refreshIdentity_reread (p : FederationPolicy) :
    p.reread.refreshIdentity.id = p.refreshIdentity.id := by
  dsimp only [refreshIdentity]
  rw [digest_reread]

theorem id_refreshIdentity_refreshIdentity (p : FederationPolicy) :
    p.refreshIdentity.refreshIdentity.id = p.refreshIdentity.id := rfl

variable {R : Registry} {what : String} {p : FederationPolicy}

theorem resolveCapabilities_eq_ok {names : List Bytes}
    (listed : ∀ name ∈ names, R.lists name = true) :
    resolveCapabilities R what names = .ok () := by
  induction names with
  | nil => rfl
  | cons name rest ih =>
      rw [resolveCapabilities, capabilityKeyFromName, dif_pos (listed name List.mem_cons_self)]
      exact ih fun other inside => listed other (List.mem_cons_of_mem _ inside)

/-- What validation checks of a policy, apart from its references and overlaps. -/
structure Bounded (p : FederationPolicy) : Prop where
  identified : p.id ≠ .nil
  name : p.name.length ≤ Limits.maxNameBytes
  dimensions : ∀ list ∈ p.tokenLists ++ p.capabilityLists,
    list.length ≤ Limits.maxPolicyDimensions
  accelerators : p.forbiddenAccelerators.length ≤ Limits.maxPolicyDimensions
  memory : p.minimumMemoryBytes ≤ 4611686018427387904
  freshness : p.requiredEvidenceFreshnessNanos ≤ Limits.maxEvidenceAgeNanos

theorem bounded_of_validate (valid : p.validate R = .ok ()) :
    p.Bounded := by
  simp only [validate, bind_eq_ok, ensure_eq_ok, Bool.and_eq_true, Bool.not_eq_true',
    StrongId.isNil_eq_false, decide_eq_true_eq] at valid
  obtain ⟨_, identified, _, name, _, dimensions, _, _, _, _, rest⟩ := valid
  obtain ⟨⟨⟨⟨⟨⟨allowed, forbidden⟩, accelerators⟩, deprecated⟩, required⟩, denied⟩, tags⟩ := dimensions
  have quantities : p.minimumMemoryBytes ≤ 4611686018427387904 ∧
      p.requiredEvidenceFreshnessNanos ≤ Limits.maxEvidenceAgeNanos := by
    split at rest
    · cases rest
    · split at rest
      · cases rest
      · simpa only [bind_eq_ok, ensure_eq_ok, decide_eq_true_eq, exists_const, true_and] using rest
  obtain ⟨memory, freshness⟩ := quantities
  refine ⟨identified, name, ?_, accelerators, memory, freshness⟩
  simp [tokenLists, capabilityLists, allowed, forbidden, deprecated, tags, required, denied]

/-- An admissible policy within its bounds is valid. -/
theorem validate_of_bounded (bounded : p.Bounded)
    (admissible : p.Admissible R) : p.validate R = .ok () := by
  have required := (admissible.capabilities p.requiredCapabilities (by simp [capabilityLists])).2
  have denied := (admissible.capabilities p.deniedCapabilities (by simp [capabilityLists])).2
  have demands : p.requiredCapabilities.find? (binarySearch p.deniedCapabilities) = none := by
    rw [List.find?_eq_none]
    intro capability listed hit
    exact admissible.demands capability listed (mem_of_binarySearch hit)
  have vendors : p.allowedVendors.find? (binarySearch p.forbiddenVendors) = none := by
    rw [List.find?_eq_none]
    intro vendor listed hit
    exact admissible.vendors vendor listed (mem_of_binarySearch hit)
  have dimensions := bounded.dimensions
  simp only [tokenLists, capabilityLists, List.cons_append, List.nil_append, List.mem_cons,
    List.not_mem_nil, or_false, forall_eq_or_imp, forall_eq] at dimensions
  obtain ⟨allowed, forbidden, deprecated, tags, requires, denies⟩ := dimensions
  simp only [validate, bind_eq_ok, ensure_eq_ok, Bool.and_eq_true, Bool.not_eq_true',
    StrongId.isNil_eq_false, decide_eq_true_eq, demands, vendors]
  exact ⟨(), bounded.identified, (), bounded.name, (), ⟨⟨⟨⟨⟨⟨allowed, forbidden⟩,
    bounded.accelerators⟩, deprecated⟩, requires⟩, denies⟩, tags⟩, (),
    resolveCapabilities_eq_ok required, (), resolveCapabilities_eq_ok denied, (), trivial, (),
    trivial, (), bounded.memory, bounded.freshness⟩

theorem canonicalizeSorted_eq_ok {values : List Bytes}
    (short : values.length ≤ Limits.maxPolicyDimensions) (distinct : values.Nodup) :
    canonicalizeSorted values what = .ok (ascending values) := by
  simp only [canonicalizeSorted, bind_eq_ok, ensure_eq_ok, pure_eq_ok, decide_eq_true_eq]
  rw [adjacentDuplicate_eq_none (nodup_ascending distinct)]
  exact ⟨(), short, (), rfl, trivial⟩

theorem canonicalizeTokens_eq_ok {values : List Bytes}
    (short : values.length ≤ Limits.maxPolicyDimensions)
    (canonical : values.Nodup ∧ ∀ token ∈ values, IsCanonical token Limits.maxTokenBytes) :
    canonicalizeTokens values what = .ok (ascending values) := by
  have fixed : (values.mapM fun value =>
      inDimension what (canonicalToken value Limits.maxTokenBytes)) = .ok values := by
    apply mapM_eq_self
    intro value listed
    rw [(canonical.2 value listed).canonicalToken_eq]
    rfl
  rw [canonicalizeTokens, fixed]
  exact canonicalizeSorted_eq_ok short canonical.1

theorem canonicalizeCapabilities_eq_ok {values : List Bytes}
    (short : values.length ≤ Limits.maxPolicyDimensions)
    (known : values.Nodup ∧ ∀ name ∈ values, R.lists name = true) :
    canonicalizeCapabilities R values what = .ok (ascending values) := by
  have fixed : (values.mapM fun value =>
      inDimension what ((capabilityKeyFromName R value).map (·.name))) = .ok values := by
    apply mapM_eq_self
    intro value listed
    rw [capabilityKeyFromName, dif_pos (known.2 value listed)]
    rfl
  rw [canonicalizeCapabilities, fixed]
  exact canonicalizeSorted_eq_ok short known.1

theorem Admissible.reread (admissible : p.Admissible R) :
    p.reread.Admissible R := by
  refine ⟨?_, ?_, ?_, ?_, admissible.classes, ?_⟩
  · have tokens := admissible.tokens
    simp only [tokenLists, List.mem_cons, List.not_mem_nil, or_false, forall_eq_or_imp,
      forall_eq] at tokens
    simp only [tokenLists, FederationPolicy.reread, List.mem_cons, List.not_mem_nil, or_false,
      forall_eq_or_imp, forall_eq, mem_ascending]
    exact ⟨⟨nodup_ascending tokens.1.1, tokens.1.2⟩, ⟨nodup_ascending tokens.2.1.1, tokens.2.1.2⟩,
      ⟨nodup_ascending tokens.2.2.1.1, tokens.2.2.1.2⟩,
      ⟨nodup_ascending tokens.2.2.2.1, tokens.2.2.2.2⟩⟩
  · have known := admissible.capabilities
    simp only [capabilityLists, List.mem_cons, List.not_mem_nil, or_false, forall_eq_or_imp,
      forall_eq] at known
    simp only [capabilityLists, FederationPolicy.reread, List.mem_cons, List.not_mem_nil, or_false,
      forall_eq_or_imp, forall_eq, mem_ascending]
    exact ⟨⟨nodup_ascending known.1.1, known.1.2⟩, ⟨nodup_ascending known.2.1, known.2.2⟩⟩
  · simpa only [FederationPolicy.reread, mem_ascending] using admissible.vendors
  · simpa only [FederationPolicy.reread, mem_ascending] using admissible.demands
  · rw [FederationPolicy.reread, VersionRange.toText_reread]
    exact admissible.version

theorem Bounded.reread (bounded : p.Bounded) : p.reread.Bounded := by
  refine { bounded with dimensions := ?_ }
  simpa only [FederationPolicy.reread, tokenLists, capabilityLists, List.cons_append,
    List.nil_append, List.mem_cons, List.not_mem_nil, or_false, forall_eq_or_imp, forall_eq,
    length_sortOn] using bounded.dimensions

namespace Sound

variable {R : Registry} {p : FederationPolicy}

/-- The decoder admits a sound policy, sorted. -/
theorem readBack_eq (sound : p.Sound R) : p.readBack R = .ok p.reread.refreshIdentity := by
  have bounded := bounded_of_validate sound.valid
  have dimension : ∀ list ∈ p.tokenLists ++ p.capabilityLists,
      list.length ≤ Limits.maxPolicyDimensions := bounded.dimensions
  have tokens := sound.admissible.tokens
  have known := sound.admissible.capabilities
  simp only [tokenLists, capabilityLists, List.cons_append, List.nil_append, List.mem_cons,
    List.not_mem_nil, or_false, forall_eq_or_imp, forall_eq] at dimension tokens known
  obtain ⟨allowed, forbidden, deprecated, tags, requires, denies⟩ := dimension
  simp only [readBack, admitDecoded, bind_eq_ok, ensure_eq_ok, pure_eq_ok, decide_eq_true_eq]
  refine ⟨_, p.minimumRuntimeVersion.parse_toText, _, canonicalizeTokens_eq_ok allowed tokens.1, _,
    canonicalizeTokens_eq_ok forbidden tokens.2.1, _,
    canonicalizeTokens_eq_ok deprecated tokens.2.2.1, _,
    canonicalizeCapabilities_eq_ok requires known.1, _,
    canonicalizeCapabilities_eq_ok denies known.2, _, canonicalizeTokens_eq_ok tags tokens.2.2.2,
    (), ?_, (), ?_, rfl⟩
  · exact validate_of_bounded bounded.reread sound.admissible.reread
  · exact (id_refreshIdentity_reread p).trans sound.identified

theorem persisted_eq (sound : p.Sound R) : p.persisted R = p.reread.refreshIdentity :=
  FederationPolicy.persisted_eq sound.readBack_eq

theorem id_persisted (sound : p.Sound R) : (p.persisted R).id = p.id := by
  rw [sound.persisted_eq, id_refreshIdentity_reread, sound.identified]

/-- What is read back is sound again. -/
theorem persisted (sound : p.Sound R) : (p.persisted R).Sound R := by
  have identity : p.reread.refreshIdentity.id = p.id :=
    (id_refreshIdentity_reread p).trans sound.identified
  have bounded := (bounded_of_validate sound.valid).reread
  have admissible := sound.admissible.reread
  have again : p.reread.refreshIdentity.Admissible R := { admissible with }
  have fits : p.reread.refreshIdentity.Bounded :=
    { bounded with identified := identity ▸ (bounded_of_validate sound.valid).identified }
  rw [sound.persisted_eq]
  exact ⟨again, validate_of_bounded fits again, id_refreshIdentity_refreshIdentity _⟩

theorem storable (sound : p.Sound R) : p.Storable R := by
  have bounded := bounded_of_validate sound.valid
  have dimension : ∀ list ∈ p.tokenLists ++ p.capabilityLists,
      list.length ≤ Limits.maxPolicyDimensions := bounded.dimensions
  have token : ∀ list ∈ p.tokenLists, ShortList Limits.maxTokenBytes list := fun list listed =>
    ⟨dimension list (List.mem_append_left _ listed),
      fun value inside => ((sound.admissible.tokens list listed).2 value inside).bounded⟩
  have capability : ∀ list ∈ p.capabilityLists, ShortList Limits.maxNameBytes list :=
    fun list listed => ⟨dimension list (List.mem_append_right _ listed), fun value inside =>
      (R.isCanonical_of_lists ((sound.admissible.capabilities list listed).2 value inside)).bounded⟩
  exact ⟨bounded.name, token _ (by simp [tokenLists]), token _ (by simp [tokenLists]),
    bounded.accelerators, token _ (by simp [tokenLists]), sound.admissible.version,
    capability _ (by simp [capabilityLists]), capability _ (by simp [capabilityLists]),
    sound.admissible.classes, token _ (by simp [tokenLists]), _, sound.readBack_eq⟩

end Sound

/-- The default policy is sound. -/
theorem sound_permissiveDefault (R : Registry) : permissiveDefault.Sound R := by
  have admissible : permissiveDefault.Admissible R := by
    refine ⟨?_, ?_, ?_, ?_, ?_, ?_⟩
    · simp [tokenLists, permissiveDefault, refreshIdentity]
    · simp [capabilityLists, permissiveDefault, refreshIdentity]
    · simp [permissiveDefault, refreshIdentity]
    · simp [permissiveDefault, refreshIdentity]
    · simp [permissiveDefault, refreshIdentity]
    · decide +kernel
  have bounded : permissiveDefault.Bounded := by
    refine ⟨?_, ?_, ?_, ?_, ?_, ?_⟩
    · decide +kernel
    · decide +kernel
    · simp [tokenLists, capabilityLists, permissiveDefault, refreshIdentity]
    · decide +kernel
    · decide +kernel
    · decide +kernel
  exact ⟨admissible, validate_of_bounded bounded admissible, id_refreshIdentity_refreshIdentity _⟩

end FederationPolicy

end Haf
