/-
# What the decoders return

Whatever bytes a decoder accepts, the value it returns can be written again, up to
the texts that go through a parser on the way: the ranges of versions that a policy
and the requirements of a workload carry.
-/

import Haf.Codec.Admission

namespace Haf

open Sequence Wire ByteReader

theorem ByteReader.ensures_f64 : Ensures f64 (·.isFinite = true) := by
  apply Ensures.then_
  intro bits
  apply Ensures.check
  intro finite
  exact Ensures.pure finite

theorem ByteReader.ensures_strings (maxCount maxBytes : Nat) :
    Ensures (list maxCount 4 (string maxBytes)) fun items =>
      items.length ≤ maxCount ∧ ∀ item ∈ items, item.length ≤ maxBytes :=
  ensures_list maxCount 4 (ensures_string maxBytes)

/-! ### Capabilities -/

namespace CapabilityValue

theorem ensures_deserializeOfKind (kind : CapabilityKind) :
    Ensures (deserializeOfKind kind) Storable := by
  cases kind with
  | presence => exact .then_ fun _ => .pure trivial
  | version =>
      iterate 3
        apply Ensures.then_
        intro _
      exact .step (ensures_string _) fun _ short => .pure short
  | integer => exact .then_ fun _ => .pure trivial
  | scalar => exact .step ensures_f64 fun _ finite => .pure finite
  | enumeration => exact .step (ensures_string _) fun _ short => .pure short
  | tokenSet => exact .step (ensures_strings _ _) fun _ short => .pure short

theorem ensures_deserialize : Ensures deserialize Storable :=
  .then_ fun _ => .ofOption fun kind _ => ensures_deserializeOfKind kind

/-- The prerelease of a version is the only part that canonicalization leaves unchecked. -/
theorem version_of_canonicalize {value out : CapabilityValue}
    (canonical : value.canonicalize = .ok out) {v : SemanticVersion} (version : out = .version v) :
    value = .version v := by
  subst version
  cases canonicalize_eq_ok_iff.mp canonical
  rfl

theorem Storable.canonicalize {value out : CapabilityValue} (storable : value.Storable)
    (canonical : value.canonicalize = .ok out) : out.Storable := by
  apply storable_of_canonicalize (canonicalize_idem canonical)
  intro v version
  rw [version_of_canonicalize canonical version] at storable
  exact storable

end CapabilityValue

theorem CapabilityRecord.ensures_deserialize (R : Registry) :
    Ensures (deserialize R) (Storable R) := by
  apply Ensures.then_
  intro name
  apply Ensures.then_
  intro _
  apply Ensures.ofOption
  intro _ _
  apply Ensures.then_
  intro _
  apply ensures_ofResult
  intro key keyed
  apply Ensures.step CapabilityValue.ensures_deserialize
  intro value storable
  apply Ensures.check
  intro _
  apply ensures_ofResult
  intro value' canonical
  exact .pure ⟨lists_of_capabilityKeyFromName keyed, storable.canonicalize canonical⟩

namespace CapabilitySet

theorem setRecords_eq_ok_iff {set out : CapabilitySet} {records : List CapabilityRecord} :
    set.setRecords records = .ok out ↔ canonicalRecords records = .ok out.records ∧
      out.closedNamespaces = set.closedNamespaces ∧ out.generation = set.generation ∧
      out.id = capabilitySetIdentity out.records out.closedNamespaces := by
  rw [setRecords]
  constructor
  · intro filled
    split at filled
    · cases filled
    · rename_i accepted
      cases filled
      exact ⟨accepted, rfl, rfl, rfl⟩
  · rintro ⟨canonical, closed, generation, identified⟩
    split
    · simp_all
    · rename_i accepted
      cases accepted.symm.trans canonical
      exact congrArg Except.ok (by ext1 <;> simp [*])

theorem setClosedNamespaces_eq_ok_iff {set out : CapabilitySet} {namespaces : List Bytes} :
    set.setClosedNamespaces namespaces = .ok out ↔
      canonicalNamespaces namespaces = .ok out.closedNamespaces ∧
      out.records = set.records ∧ out.generation = set.generation ∧
      out.id = capabilitySetIdentity out.records out.closedNamespaces := by
  rw [setClosedNamespaces]
  constructor
  · intro closed
    split at closed
    · cases closed
    · rename_i accepted
      cases closed
      exact ⟨accepted, rfl, rfl, rfl⟩
  · rintro ⟨canonical, filled, generation, identified⟩
    split
    · simp_all
    · rename_i accepted
      cases accepted.symm.trans canonical
      exact congrArg Except.ok (by ext1 <;> simp [*])

theorem ensures_deserialize (R : Registry) : Ensures (deserialize R) (Storable R) := by
  apply Ensures.then_
  intro id
  apply Ensures.then_
  intro generation
  apply Ensures.step (ensures_list _ _ (CapabilityRecord.ensures_deserialize R))
  intro records read
  apply Ensures.then_
  intro namespaces
  apply ensures_ofResult
  intro filled refilled
  apply ensures_ofResult
  intro closed reclosed
  apply Ensures.check
  intro _
  apply Ensures.pure
  obtain ⟨_, same, _, identified⟩ := setClosedNamespaces_eq_ok_iff.mp reclosed
  refine ⟨identified, fun r listed => ?_⟩
  have listed : r ∈ filled.records := same ▸ listed
  obtain ⟨_, working, mapped, sorted, _⟩ :=
    canonicalRecords_eq_ok_iff.mp (setRecords_eq_ok_iff.mp refilled).1
  rw [sorted, mem_sortOn] at listed
  obtain ⟨source, inside, canonical⟩ := exists_of_mem_mapM mapped listed
  obtain ⟨value, fixed, rfl, _⟩ := CapabilityRecord.canonicalRecord_eq_ok_iff.mp canonical
  have storable := read.2 source inside
  exact ⟨storable.1, storable.2.canonicalize fixed⟩

end CapabilitySet

/-! ### Members -/

/-- The monotonic instant of an observation is not on the wire. -/
theorem EvidenceRecord.ensures_deserialize :
    Ensures deserialize fun e => e.observedMonotonicMarker = 0 := by
  iterate 22
    apply Ensures.then_
    intro _
  apply Ensures.ofOption
  intro _ _
  apply Ensures.ofOption
  intro _ _
  apply ensures_ofResult
  intro _ _
  exact .pure rfl

theorem EvidenceRecord.persisted_eq {e : EvidenceRecord} (unmarked : e.observedMonotonicMarker = 0) :
    e.persisted = e := by
  rw [persisted, ← unmarked]

namespace AcceleratorDescriptor

theorem ensures_readReferences (n : Nat) (previous : Option Bytes) :
    Ensures (readReferences n previous) fun references =>
      (previous.toList ++ references).IsChain (· < ·) ∧
        ∀ reference ∈ references, reference.length ≤ Limits.maxNameBytes := by
  induction n generalizing previous with
  | zero =>
      apply Ensures.pure
      cases previous <;> simp
  | succ n ih =>
      apply Ensures.step (ensures_string _)
      intro reference short
      apply Ensures.check
      intro above
      apply Ensures.step (ih (some reference))
      intro rest tail
      apply Ensures.pure
      refine ⟨?_, List.forall_mem_cons.mpr ⟨short, tail.2⟩⟩
      cases previous with
      | none => exact tail.1
      | some p =>
          have less : p < reference := by simpa using above
          exact List.isChain_cons_cons.mpr ⟨less, tail.1⟩

/-- A decoded descriptor can be stored, and is read back as it is. -/
theorem ensures_deserializeAt (persistedScale : Bool) (R : Registry) :
    Ensures (deserializeAt persistedScale R) fun d => d.Storable R ∧ d.persisted = d := by
  iterate 17
    apply Ensures.then_
    intro _
  apply Ensures.step (CapabilitySet.ensures_deserialize R)
  intro capabilities storable
  iterate 2
    apply Ensures.then_
    intro _
  iterate 2
    apply Ensures.ofOption
    intro _ _
  apply Ensures.step (ensures_list _ _ EvidenceRecord.ensures_deserialize)
  intro evidence unmarked
  apply Ensures.then_
  intro count
  apply Ensures.step (ensures_readReferences count none)
  intro references ordered
  apply Ensures.then_
  intro observedAt
  apply ensures_ofResult
  intro _ valid
  apply Ensures.pure
  have same : evidence.map (·.persisted) = evidence := by
    conv_rhs => rw [← List.map_id evidence]
    exact List.map_congr_left fun e listed => EvidenceRecord.persisted_eq (unmarked.2 e listed)
  refine ⟨⟨storable, ordered.1, ordered.2, ?_⟩, ?_⟩
  · rw [persisted, same]
    exact valid
  · rw [persisted, same]

end AcceleratorDescriptor

theorem MemberRecord.ensures_deserialize : Ensures deserialize Storable := by
  iterate 18
    apply Ensures.then_
    intro _
  iterate 3
    apply Ensures.ofOption
    intro _ _
  apply Ensures.step (ensures_strings _ _)
  intro history trail
  apply Ensures.check
  intro present
  simp only [Bool.not_eq_true', Bool.or_eq_false_iff, StrongId.isNil_eq_false] at present
  exact .pure ⟨trail.1, trail.2, present.1, present.2⟩

/-! ### Policies -/

namespace FederationPolicy

/-- A dimension as the decoder leaves it: strictly increasing, each entry of the form asked for. -/
def Canonical (entry : Bytes → Prop) (values : List Bytes) : Prop :=
  values.Pairwise (· < ·) ∧ ∀ value ∈ values, entry value

theorem isChain_of_adjacentDuplicate {names : List Bytes} (clear : adjacentDuplicate names = none) :
    names.IsChain (· ≠ ·) := by
  induction names with
  | nil => exact .nil
  | cons a rest ih =>
      cases rest with
      | nil => exact .singleton a
      | cons b rest =>
          rw [adjacentDuplicate] at clear
          split at clear
          · cases clear
          · rename_i differ
            exact List.isChain_cons_cons.mpr ⟨fun same => differ same.symm, ih clear⟩

variable {out : List Bytes} {what : String} {R : Registry} {p : FederationPolicy}

theorem of_canonicalizeSorted {values : List Bytes} {entry : Bytes → Prop}
    (canonical : canonicalizeSorted values what = .ok out) (each : ∀ value ∈ values, entry value) :
    Canonical entry out := by
  simp only [canonicalizeSorted, bind_eq_ok, ensure_eq_ok, pure_eq_ok] at canonical
  obtain ⟨_, _, _, clear, rfl⟩ := canonical
  have weak : (ascending values).Pairwise (· ≤ ·) := pairwise_sortOn _ values
  have distinct := isChain_of_adjacentDuplicate (Option.isNone_iff_eq_none.mp clear)
  exact ⟨(isChain_lt weak.isChain distinct).pairwise, fun value listed =>
    each value (mem_ascending.mp listed)⟩

theorem eq_ok_of_inDimension {α : Type} {x : Result α} {a : α}
    (passed : inDimension what x = .ok a) : x = .ok a := by
  cases x with
  | ok b => exact passed
  | error e => cases passed

theorem of_canonicalizeTokens {values : List Bytes}
    (canonical : canonicalizeTokens values what = .ok out) :
    Canonical (IsCanonical · Limits.maxTokenBytes) out := by
  obtain ⟨tokens, mapped, sorted⟩ := bind_eq_ok.mp canonical
  apply of_canonicalizeSorted sorted
  intro token listed
  obtain ⟨source, _, passed⟩ := exists_of_mem_mapM mapped listed
  exact isCanonical_of_canonicalToken (eq_ok_of_inDimension passed)

theorem of_canonicalizeCapabilities {values : List Bytes}
    (canonical : canonicalizeCapabilities R values what = .ok out) :
    Canonical (R.lists · = true) out := by
  obtain ⟨names, mapped, sorted⟩ := bind_eq_ok.mp canonical
  apply of_canonicalizeSorted sorted
  intro name listed
  obtain ⟨source, _, passed⟩ := exists_of_mem_mapM mapped listed
  have keyed := eq_ok_of_inDimension passed
  cases resolved : capabilityKeyFromName R source with
  | error e =>
      rw [resolved] at keyed
      cases keyed
  | ok key =>
      rw [resolved] at keyed
      cases keyed
      exact lists_of_capabilityKeyFromName resolved

/-- What validation says about entries that are both asked for and ruled out. -/
theorem disjoint_of_validate (valid : p.validate R = .ok ()) :
    (∀ capability ∈ p.requiredCapabilities,
        binarySearch p.deniedCapabilities capability = false) ∧
      ∀ vendor ∈ p.allowedVendors, binarySearch p.forbiddenVendors vendor = false := by
  simp only [validate, bind_eq_ok] at valid
  obtain ⟨_, _, _, _, _, _, _, _, _, _, rest⟩ := valid
  split at rest
  · cases rest
  · rename_i demands
    split at rest
    · cases rest
    · rename_i vendors
      simp only [List.find?_eq_none, Bool.not_eq_true] at demands vendors
      exact ⟨demands, vendors⟩

/-- What the decoder has made of a policy: it is sound if the text of its version range still
fits, its dimensions are sorted and its identity is that of its content. -/
structure Decoded (R : Registry) (p : FederationPolicy) : Prop where
  sound : p.minimumRuntimeVersion.toText.length ≤ Limits.maxStringBytes → p.Sound R
  ordered : ∀ values ∈ p.tokenLists ++ p.capabilityLists, values.Pairwise (· < ·)
  refreshed : p.refreshIdentity = p

/-- Refreshing an identity that matches changes nothing that validation looks at. -/
theorem valid_of_admitDecoded {q : FederationPolicy}
    (admitted : admitDecoded R p = .ok q) : q.validate R = .ok () := by
  simp only [admitDecoded, bind_eq_ok, ensure_eq_ok, pure_eq_ok, decide_eq_true_eq] at admitted
  obtain ⟨_, _, _, _, _, _, _, _, _, _, _, _, _, valid, _, identified, rfl⟩ := admitted
  unfold validate at valid ⊢
  rw [identified]
  exact valid

theorem decoded_of_admitDecoded {q : FederationPolicy}
    (admitted : admitDecoded R p = .ok q)
    (classes : p.allowedPortabilityClasses.length ≤ Limits.maxPolicyDimensions) : q.Decoded R := by
  have passed := valid_of_admitDecoded admitted
  simp only [admitDecoded, bind_eq_ok, ensure_eq_ok, pure_eq_ok, decide_eq_true_eq] at admitted
  obtain ⟨allowed, vendors, forbidden, outlaws, deprecated, old, required, needs, denied, bans, tags,
    marks, _, valid, _, _, rfl⟩ := admitted
  have vendors := of_canonicalizeTokens vendors
  have outlaws := of_canonicalizeTokens outlaws
  have old := of_canonicalizeTokens old
  have needs := of_canonicalizeCapabilities needs
  have bans := of_canonicalizeCapabilities bans
  have marks := of_canonicalizeTokens marks
  obtain ⟨demands, apart⟩ := disjoint_of_validate valid
  have distinct {values : List Bytes} (sorted : values.Pairwise (· < ·)) : values.Nodup :=
    sorted.imp ne_of_lt
  refine ⟨fun short => ?_, ?_, rfl⟩
  · have admissible : Admissible R (refreshIdentity { p with
        allowedVendors := allowed, forbiddenVendors := forbidden
        deprecatedArchitectures := deprecated, requiredCapabilities := required
        deniedCapabilities := denied, tags }) := by
      refine ⟨?_, ?_, ?_, ?_, classes, short⟩
      · simp only [tokenLists, refreshIdentity, List.mem_cons, List.not_mem_nil, or_false,
          forall_eq_or_imp, forall_eq]
        exact ⟨⟨distinct vendors.1, vendors.2⟩, ⟨distinct outlaws.1, outlaws.2⟩,
          ⟨distinct old.1, old.2⟩, distinct marks.1, marks.2⟩
      · simp only [capabilityLists, refreshIdentity, List.mem_cons, List.not_mem_nil, or_false,
          forall_eq_or_imp, forall_eq]
        exact ⟨⟨distinct needs.1, needs.2⟩, distinct bans.1, bans.2⟩
      · intro vendor listed ruled
        have hit := binarySearch_of_mem outlaws.1 ruled
        rw [apart vendor listed] at hit
        cases hit
      · intro capability listed ruled
        have hit := binarySearch_of_mem bans.1 ruled
        rw [demands capability listed] at hit
        cases hit
    exact ⟨admissible, passed, rfl⟩
  · simp only [tokenLists, capabilityLists, refreshIdentity, List.cons_append, List.nil_append,
      List.mem_cons, List.not_mem_nil, or_false, forall_eq_or_imp, forall_eq]
    exact ⟨vendors.1, outlaws.1, old.1, marks.1, needs.1, bans.1⟩

/-- A decoded policy is one that the decoder admitted. -/
theorem ensures_admitted (R : Registry) : Ensures (deserialize R) fun q =>
    ∃ p, admitDecoded R p = .ok q ∧
      p.allowedPortabilityClasses.length ≤ Limits.maxPolicyDimensions := by
  iterate 11
    apply Ensures.then_
    intro _
  apply Ensures.ofOption
  intro _ _
  iterate 2
    apply Ensures.then_
    intro _
  apply Ensures.step (ensures_list _ _ ⟨fun _ => trivial⟩)
  intro classes counted
  iterate 5
    apply Ensures.then_
    intro _
  apply ensures_ofResult
  intro range _
  apply ensures_result
  intro q admitted
  exact ⟨_, admitted, counted.1⟩

theorem ensures_deserialize (R : Registry) : Ensures (deserialize R) (Decoded R) := by
  apply (ensures_admitted R).weaken
  rintro q ⟨p, admitted, classes⟩
  exact decoded_of_admitDecoded admitted classes

theorem ensures_valid (R : Registry) : Ensures (deserialize R) (·.validate R = .ok ()) := by
  apply (ensures_admitted R).weaken
  rintro q ⟨p, admitted, _⟩
  exact valid_of_admitDecoded admitted

/-- A decoded policy whose version text still fits is read back as it is, except that a missing
version range comes back as a wildcard. -/
theorem Decoded.persisted_eq (decoded : p.Decoded R)
    (short : p.minimumRuntimeVersion.toText.length ≤ Limits.maxStringBytes) :
    p.persisted R = { p with minimumRuntimeVersion := p.minimumRuntimeVersion.reread } := by
  have sorted : ∀ values ∈ p.tokenLists ++ p.capabilityLists, ascending values = values :=
    fun values listed => sortOn_of_pairwise ((decoded.ordered values listed).imp le_of_lt)
  simp only [tokenLists, capabilityLists, List.cons_append, List.nil_append, List.mem_cons,
    List.not_mem_nil, or_false, forall_eq_or_imp, forall_eq] at sorted
  obtain ⟨allowed, forbidden, deprecated, tags, required, denied⟩ := sorted
  have digest := p.digest_reread
  rw [(decoded.sound short).persisted_eq, refreshIdentity, digest, reread, allowed, forbidden,
    deprecated, tags, required, denied]
  have refreshed := decoded.refreshed
  rw [refreshIdentity, FederationPolicy.mk.injEq] at refreshed
  rw [refreshed.1, refreshed.2.1]

end FederationPolicy

/-! ### Workloads -/

theorem CapabilityRequirement.ensures_deserialize (R : Registry) :
    Ensures (deserialize R) fun q => q.value.Storable := by
  iterate 4
    apply Ensures.then_
    intro _
  iterate 2
    apply Ensures.ofOption
    intro _ _
  apply ensures_ofResult
  intro key _
  apply Ensures.step CapabilityValue.ensures_deserialize
  intro value storable
  apply Ensures.check
  intro _
  apply Ensures.then_
  intro clauses
  apply ensures_ofResult
  intro range _
  iterate 2
    apply Ensures.then_
    intro _
  apply ensures_ofResult
  intro _ _
  exact .pure storable

/-- A decoded profile is valid, and the values of its requirements can be stored. -/
theorem WorkloadProfile.ensures_deserialize (R : Registry) :
    Ensures (deserialize R) fun w =>
      w.validate R = .ok () ∧ ∀ q ∈ w.requirements, q.value.Storable := by
  iterate 9
    apply Ensures.then_
    intro _
  iterate 3
    apply Ensures.ofOption
    intro _ _
  apply Ensures.step (ensures_list _ _ (CapabilityRequirement.ensures_deserialize R))
  intro requirements storable
  apply Ensures.then_
  intro tags
  apply ensures_ofResult
  intro _ valid
  exact .pure ⟨valid, storable.2⟩

/-! ### Decisions and plans -/

theorem CompatibilityReason.ensures_deserialize : Ensures deserialize Storable := by
  apply Ensures.then_
  intro code
  apply Ensures.step (ensures_string _)
  intro subject named
  apply Ensures.step (ensures_string _)
  intro detail described
  iterate 2
    apply Ensures.then_
    intro _
  apply Ensures.check
  intro listed
  iterate 2
    apply Ensures.ofOption
    intro _ _
  exact .pure ⟨by simpa using listed, named, described⟩

theorem CompatibilityDecision.ensures_deserialize : Ensures deserialize Storable := by
  iterate 20
    apply Ensures.then_
    intro _
  iterate 4
    apply Ensures.ofOption
    intro _ _
  apply Ensures.step (ensures_list _ _ CompatibilityReason.ensures_deserialize)
  intro reasons storable
  apply Ensures.then_
  intro createdAt
  apply Ensures.check
  intro identified
  exact .pure ⟨storable.1, storable.2, by simpa using identified⟩

theorem MigrationStep.ensures_deserialize : Ensures deserialize Storable := by
  apply Ensures.step (ensures_string _)
  intro kind short
  apply Ensures.step (ensures_string _)
  intro description described
  apply Ensures.step (ensures_string _)
  intro capability named
  apply Ensures.check
  intro given
  exact .pure ⟨short, described, named, by simpa using given⟩

theorem MigrationPlan.ensures_deserialize : Ensures deserialize Storable := by
  iterate 22
    apply Ensures.then_
    intro _
  iterate 4
    apply Ensures.ofOption
    intro _ _
  apply Ensures.step (ensures_list _ _ MigrationStep.ensures_deserialize)
  intro steps storable
  apply Ensures.step (ensures_list _ _ CompatibilityReason.ensures_deserialize)
  intro reasons explained
  apply Ensures.then_
  intro createdAt
  apply Ensures.check
  intro identified
  exact .pure ⟨storable.1, storable.2, explained.1, explained.2, by simpa using identified⟩

end Haf
