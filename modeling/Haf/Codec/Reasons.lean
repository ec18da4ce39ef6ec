/-
# Reasons that fit

The reasons of decisions and plans quote names, values and version ranges, and the
decoder limits their length. What a policy or the classifier reports is always short
enough; a requirement that is reported together with the advertised value is so only
if both texts together leave room for the words around them.
-/

import Haf.Codec.Admission

namespace Haf

open Sequence

/-! ### Lengths of texts -/

/-- A text is known to have at most so many bytes. -/
class Short (bytes : Bytes) (bound : outParam Nat) : Prop where
  length_le : bytes.length ≤ bound

section Short

variable {a b : Bytes} {m n : Nat}

theorem Short.within [short : Short a m] (room : m ≤ n) : a.length ≤ n := short.length_le.trans room

instance Short.append [left : Short a m] [right : Short b n] : Short (a ++ b) (m + n) where
  length_le := List.length_append.trans_le (Nat.add_le_add left.length_le right.length_le)

instance short_text (s : String) : Short (text s) s.utf8ByteSize := ⟨(length_text s).le⟩

instance short_decimal (n : UInt64) : Short (decimal n.toNat) 20 :=
  ⟨length_decimal_le (by decide) (n.toNat_lt.trans (by decide))⟩

instance short_signedDecimal (n : Int64) : Short (signedDecimal n.toInt) 20 where
  length_le := by
    have magnitude : n.toInt.natAbs < 10 ^ 19 := by
      have low := n.le_toInt
      have high := n.toInt_lt
      omega
    have digits := length_decimal_le (by decide) magnitude
    rw [signedDecimal]
    split
    · rw [List.length_cons]
      omega
    · omega

instance CapabilityState.short_toText (state : CapabilityState) : Short state.toText 11 :=
  ⟨by cases state <;> decide +kernel⟩

instance EvidenceProvenance.short_toText (provenance : EvidenceProvenance) :
    Short provenance.toText 16 :=
  ⟨by cases provenance <;> decide +kernel⟩

instance PortabilityClass.short_toText (value : PortabilityClass) : Short value.toText 64 :=
  ⟨by cases value <;> decide +kernel⟩

instance MigrationNeed.short_toText (need : MigrationNeed) : Short need.toText 64 :=
  ⟨by cases need <;> decide +kernel⟩

end Short

theorem SemanticVersion.length_toText {v : SemanticVersion}
    (short : v.prerelease.length ≤ Limits.maxTokenBytes) : v.toText.length ≤ 161 := by
  have major := length_decimal_uint32 v.major
  have minor := length_decimal_uint32 v.minor
  have patch := length_decimal_uint32 v.patch
  have limit : Limits.maxTokenBytes = 128 := rfl
  rw [toText]
  split <;> simp only [List.length_append, List.length_cons, List.length_nil] <;> omega

/-! ### Advertised values -/

namespace CapabilitySet

variable {set : CapabilitySet} {name : Bytes} {value : CapabilityValue}

/-- A name is found with its record, or it lies in a closed namespace, or nothing is known. -/
theorem lookup_cases (set : CapabilitySet) (name : Bytes) :
    (∃ r ∈ set.records, r.key.name = name ∧
        set.lookup name = { state := r.state, value := some r.value, present := true }) ∨
      (∀ r ∈ set.records, r.key.name ≠ name) ∧
        (set.lookup name = { state := .unsupported, namespaceClosed := true } ∨
          set.lookup name = {}) := by
  rw [lookup]
  cases found : set.records.find? (·.key.name == name) with
  | some r =>
      have named : r.key.name = name := by simpa using List.find?_some found
      exact .inl ⟨r, List.mem_of_find?_eq_some found, named, rfl⟩
  | none =>
      have absent : ∀ r ∈ set.records, r.key.name ≠ name := by simpa using found
      refine .inr ⟨absent, ?_⟩
      dsimp only
      split_ifs with closed
      · exact .inl rfl
      · exact .inr rfl

/-- A value that is found is the value of a record. -/
theorem exists_of_lookup
    (found : (set.lookup name).value = some value) :
    ∃ r ∈ set.records, r.key.name = name ∧ r.value = value ∧ (set.lookup name).state = r.state ∧
      (set.lookup name).present = true := by
  rcases set.lookup_cases name with ⟨r, listed, named, same⟩ | ⟨_, same | same⟩
  · rw [same] at found ⊢
    exact ⟨r, listed, named, Option.some.inj found, rfl, rfl⟩
  · rw [same] at found
    cases found
  · rw [same] at found
    cases found

/-- Support is never claimed without a value. -/
theorem exists_value_of_state
    (known : (set.lookup name).state ≠ .unknown) (claimed : (set.lookup name).state ≠ .unsupported) :
    ∃ value, (set.lookup name).value = some value := by
  rcases set.lookup_cases name with ⟨r, _, _, same⟩ | ⟨_, same | same⟩
  · rw [same]
    exact ⟨r.value, rfl⟩
  · rw [same] at claimed
    exact absurd rfl claimed
  · rw [same] at known
    exact absurd rfl known

/-- Values under a core name are of its kind. -/
theorem kind_of_lookup {kind : CapabilityKind} (core : coreKind name = some kind)
    (found : (set.lookup name).value = some value) : value.kind = kind := by
  obtain ⟨r, listed, named, rfl, _⟩ := exists_of_lookup found
  obtain ⟨_, _, _, valid⟩ :=
    CapabilityRecord.canonicalRecord_eq_ok_iff.mp (set.canonicalRecord_of_mem listed)
  obtain ⟨resolved, kinds, _⟩ := CapabilityRecord.of_validate valid
  rw [kinds, CapabilityKey.kind, if_pos resolved, named, core]
  rfl

theorem canonicalize_of_lookup (found : (set.lookup name).value = some value) :
    value.canonicalize = .ok value := by
  obtain ⟨r, listed, _, rfl, _⟩ := exists_of_lookup found
  obtain ⟨value, canonical, same, _⟩ :=
    CapabilityRecord.canonicalRecord_eq_ok_iff.mp (set.canonicalRecord_of_mem listed)
  rw [canonical, same]

/-- The token under an enumeration name is a short one. -/
theorem length_render_enumeration (core : coreKind name = some .enumeration)
    (found : (set.lookup name).value = some value) :
    value.render.length ≤ Limits.maxTokenBytes := by
  have kind := kind_of_lookup core found
  have fixed := canonicalize_of_lookup found
  cases value <;> cases kind
  exact CapabilityValue.storable_of_canonicalize fixed (by simp)

/-- The text under a version name is a short one. -/
theorem Admissible.length_render_version {R : Registry} (admissible : set.Admissible R)
    (core : coreKind name = some .version) (found : (set.lookup name).value = some value) :
    value.render.length ≤ 161 := by
  have kind := kind_of_lookup core found
  obtain ⟨r, listed, _, rfl, _⟩ := exists_of_lookup found
  cases carried : r.value <;> rw [carried] at kind <;> cases kind
  exact SemanticVersion.length_toText ((admissible r listed).2 _ carried)

theorem length_enumerationToken (core : coreKind name = some .enumeration) :
    (enumerationToken set name).length ≤ Limits.maxTokenBytes := by
  rw [enumerationToken]
  split
  · rename_i value found
    split
    · exact length_render_enumeration core found
    · decide
  · decide

end CapabilitySet

/-! ### Lists of findings -/

/-- Every finding gives a reason that keeps to the limits of the wire. -/
def AllFit (findings : List Finding) : Prop := ∀ finding ∈ findings, finding.reason.Storable

theorem allFit_nil : AllFit [] := by simp [AllFit]

theorem AllFit.append {left right : List Finding} (h : AllFit left) (k : AllFit right) :
    AllFit (left ++ right) := by
  intro finding listed
  exact (List.mem_append.mp listed).elim (h finding) (k finding)

theorem AllFit.ite {findings : List Finding} {c : Prop} [Decidable c] (h : AllFit findings) :
    AllFit (if c then findings else []) := by
  split
  · exact h
  · exact allFit_nil

theorem AllFit.flatMap {names : List Bytes} {report : Bytes → List Finding}
    (h : ∀ name ∈ names, AllFit (report name)) : AllFit (names.flatMap report) := by
  intro finding listed
  obtain ⟨name, inside, reported⟩ := List.mem_flatMap.mp listed
  exact h name inside finding reported

theorem allFit_hardFinding {gravity : Gravity} {code : ErrorCode} {subject detail : Bytes}
    {observed : CapabilityState} {bound : Nat} [short : Short detail bound]
    (known : code.value ≤ ErrorCode.maxValue) (named : subject.length ≤ Limits.maxNameBytes)
    (room : bound ≤ Limits.maxDescriptionBytes) :
    AllFit [hardFinding gravity code subject detail observed] := by
  intro finding listed
  rw [List.mem_singleton.mp listed]
  exact ⟨known, named, short.length_le.trans room⟩

/-! ### Requirements -/

/-- The advertised value as it is quoted. -/
def CapabilityLookup.quoted (lookup : CapabilityLookup) : Bytes :=
  match lookup.value with
  | some value => value.render
  | none => []

/-- What a requirement expects and what a set advertises leave room for the words around
them. -/
def CapabilityRequirement.Brief (set : CapabilitySet) (q : CapabilityRequirement) : Prop :=
  (set.lookup q.capability).quoted.length + (describeExpectation q).length + 64 ≤
    Limits.maxDescriptionBytes

theorem rejectionCodeFor_le (name : Bytes) :
    (rejectionCodeFor name).value ≤ ErrorCode.maxValue := by
  unfold rejectionCodeFor
  repeat' split
  all_goals decide

/-- A brief requirement is reported in a reason that fits. -/
theorem storable_requirementFinding {set : CapabilitySet} {fresh allowDegraded : Bool}
    {q : CapabilityRequirement} {finding : Finding} (brief : q.Brief set)
    (named : q.capability.length ≤ Limits.maxNameBytes)
    (reported : requirementFinding set fresh allowDegraded q = some finding) :
    finding.reason.Storable := by
  have room : (set.lookup q.capability).quoted.length + (describeExpectation q).length + 64 ≤
      Limits.maxDescriptionBytes := brief
  rw [requirementFinding] at reported
  split at reported
  · cases reported
    refine ⟨show ErrorCode.staleEvidence.value ≤ _ by decide, named, ?_⟩
    dsimp only [staleFinding]
    split <;> decide +kernel
  · cases outcome : matchRequirement q (set.lookup q.capability) allowDegraded with
    | satisfied =>
        rw [outcome, matchFinding] at reported
        split at reported
        · cases reported
          refine ⟨show ErrorCode.ok.value ≤ _ by decide, named, ?_⟩
          have words : (text "soft preference satisfied: ").length = 27 := rfl
          simp only [List.length_append]
          omega
        · cases reported
    | violated =>
        rw [outcome, matchFinding] at reported
        cases reported
        refine ⟨rejectionCodeFor_le _, named, ?_⟩
        have observed : (text "observed ").length = 9 := rfl
        have required : (text "; required ").length = 11 := rfl
        have opening : (text " (").length = 2 := rfl
        have closing : (text ")").length = 1 := rfl
        have state := (inferInstance : Short (set.lookup q.capability).state.toText _).length_le
        rw [CapabilityLookup.quoted] at room
        dsimp only
        cases advertised : (set.lookup q.capability).value with
        | none =>
            rw [advertised] at room
            simp only [List.length_append, List.length_nil] at room ⊢
            omega
        | some value =>
            rw [advertised] at room
            dsimp only at room ⊢
            split
            · simp only [List.length_append]
              omega
            · simp only [List.length_append, List.length_nil]
              omega
    | indeterminate =>
        rw [outcome, matchFinding] at reported
        cases reported
        refine ⟨show ErrorCode.unknownCapability.value ≤ _ by decide, named, ?_⟩
        have words : (text
          "required capability has no evidence: observed UNKNOWN; required ").length = 64 := rfl
        simp only [List.length_append]
        omega

/-! ### Policy and portability -/

section Policy

variable {R : Registry} {policy : FederationPolicy} {set : CapabilitySet}

theorem allFit_identityFindings (a : AcceleratorId) :
    AllFit (identityFindings policy a set) := by
  have vendor : Short (enumerationToken set Cap.vendorId) Limits.maxTokenBytes :=
    ⟨CapabilitySet.length_enumerationToken (by decide)⟩
  have architecture : Short (enumerationToken set Cap.architectureFamily) Limits.maxTokenBytes :=
    ⟨CapabilitySet.length_enumerationToken (by decide)⟩
  refine ((AllFit.append (.ite ?_) (.ite ?_)).append (.ite ?_)).append (.ite ?_)
  all_goals exact allFit_hardFinding (by decide) (by decide) (by decide)

theorem allFit_runtimeFindings (admissible : set.Admissible R)
    (version : policy.minimumRuntimeVersion.toText.length ≤ Limits.maxStringBytes) :
    AllFit (runtimeFindings policy set) := by
  unfold runtimeFindings
  dsimp only
  split
  · exact allFit_nil
  · split
    · exact allFit_hardFinding (by decide) (by decide) (by decide)
    · split
      · rename_i value found
        have short : Short value.render _ := ⟨admissible.length_render_version (by decide) found⟩
        have range : Short policy.minimumRuntimeVersion.toText _ := ⟨version⟩
        exact .ite (allFit_hardFinding (by decide) (by decide) (by decide))
      · exact allFit_nil

theorem allFit_memoryFindings : AllFit (memoryFindings policy set) := by
  unfold memoryFindings
  dsimp only
  split
  · exact allFit_nil
  · split
    · exact allFit_hardFinding (by decide) (by decide) (by decide)
    · split
      · exact .ite (allFit_hardFinding (by decide) (by decide) (by decide))
      · exact allFit_nil

theorem allFit_requiredFindings {name : Bytes} (short : name.length ≤ Limits.maxNameBytes) :
    AllFit (requiredFindings set name) := by
  unfold requiredFindings
  dsimp only
  split
  · exact allFit_hardFinding (by decide) short (by decide)
  · exact .ite (allFit_hardFinding (by decide) short (by decide))

theorem allFit_deniedFindings {name : Bytes} (short : name.length ≤ Limits.maxNameBytes) :
    AllFit (deniedFindings set name) :=
  .ite (allFit_hardFinding (by decide) short (by decide))

theorem allFit_tagFindings {tag : Bytes} (short : tag.length ≤ Limits.maxTokenBytes) :
    AllFit (tagFindings policy tag) := by
  have short : Short tag _ := ⟨short⟩
  unfold tagFindings
  split
  · exact allFit_nil
  · exact allFit_hardFinding (by decide) (Short.within (by decide)) (by decide)

theorem allFit_provenanceFindings (provenance : EvidenceProvenance) :
    AllFit (provenanceFindings policy provenance) := by
  unfold provenanceFindings
  repeat' split
  all_goals first
    | exact allFit_nil
    | exact allFit_hardFinding (by decide) (by decide) (by decide)

theorem allFit_membershipFindings (acceptsNewWork : Bool) :
    AllFit (membershipFindings acceptsNewWork) := by
  unfold membershipFindings
  split
  · exact allFit_nil
  · exact allFit_hardFinding (by decide) (by decide) (by decide)

/-- Whatever a policy reports fits. -/
theorem allFit_policyFindings {w : WorkloadProfile} {target : EvaluationTarget}
    (admissible : set.Admissible R) (sound : policy.Sound R)
    (tags : ∀ tag ∈ w.requiredPolicyTags, tag.length ≤ Limits.maxTokenBytes) :
    AllFit (policyFindings w policy target set) := by
  have named : ∀ list ∈ policy.capabilityLists, ∀ name ∈ list,
      name.length ≤ Limits.maxNameBytes := fun list listed name inside =>
    (R.isCanonical_of_lists ((sound.admissible.capabilities list listed).2 name inside)).bounded
  refine AllFit.append (.append (.append (.append (.append (.append (.append
    (allFit_identityFindings _) ?_) allFit_memoryFindings) ?_) ?_) ?_)
    (allFit_provenanceFindings _)) (allFit_membershipFindings _)
  · exact allFit_runtimeFindings admissible sound.admissible.version
  · exact .flatMap fun name listed => allFit_requiredFindings
      (named policy.requiredCapabilities (by simp [FederationPolicy.capabilityLists]) name listed)
  · exact .flatMap fun name listed => allFit_deniedFindings
      (named policy.deniedCapabilities (by simp [FederationPolicy.capabilityLists]) name listed)
  · exact .flatMap fun tag listed => allFit_tagFindings (tags tag listed)

end Policy

section Portability

variable {request : PortabilityRequest} {source destination : CapabilitySet}

theorem storable_makeReason {code : ErrorCode} {subject : Bytes} {detail : String}
    (known : code.value ≤ ErrorCode.maxValue) (named : subject.length ≤ Limits.maxNameBytes)
    (short : detail.utf8ByteSize ≤ Limits.maxDescriptionBytes) :
    (PortabilityRequest.makeReason code subject detail).Storable :=
  ⟨known, named, (length_text detail).trans_le short⟩

theorem storable_strongestClass : (request.strongestClass source destination).2.Storable := by
  unfold PortabilityRequest.strongestClass
  dsimp only
  repeat' split
  all_goals exact storable_makeReason (by decide) (by decide) (by decide)

theorem storable_liveTransferNote {value : PortabilityClass} :
    ∀ r ∈ request.liveTransferNote value, r.Storable := by
  unfold PortabilityRequest.liveTransferNote
  split
  · split
    · rintro r listed
      rw [List.mem_singleton.mp listed]
      exact storable_makeReason (by decide) (by decide) (by decide)
    · simp
  · simp

/-- The inputs that can be missing are the four the classifier asks for. -/
theorem length_unknownInputs : ((PortabilityRequest.unknownInputs source destination).flatMap
    fun item => text " " ++ text item ++ text ";").length ≤ 200 := by
  unfold PortabilityRequest.unknownInputs PortabilityRequest.requiredEvidence
  simp only [List.filter_cons, List.filter_nil]
  repeat' split
  all_goals decide

theorem storable_classifyKnown : ∀ r ∈ (request.classifyKnown source destination).reasons,
    r.Storable := by
  have strongest : ∀ r ∈ (request.strongestClass source destination).2 ::
      request.liveTransferNote (request.strongestClass source destination).1, r.Storable := by
    rintro r (_ | ⟨_, listed⟩)
    · exact storable_strongestClass
    · exact storable_liveTransferNote r listed
  unfold PortabilityRequest.classifyKnown
  dsimp only
  split
  · intro r listed
    rw [List.mem_singleton.mp listed]
    refine ⟨show ErrorCode.unknownCapability.value ≤ _ by decide, Nat.zero_le _, ?_⟩
    have : Short (_ : Bytes) _ := ⟨@length_unknownInputs source destination⟩
    exact Short.within (by decide : _ ≤ Limits.maxDescriptionBytes)
  · split
    · intro r listed
      rcases List.mem_append.mp (mem_sortOn.mp listed) with noted | crossed
      · exact strongest r noted
      · rw [List.mem_singleton.mp crossed]
        exact storable_makeReason (by decide) (by decide) (by decide)
    · intro r listed
      exact strongest r (mem_sortOn.mp listed)

theorem storable_classifyPortability (request : PortabilityRequest) :
    ∀ r ∈ (classifyPortability request).reasons, r.Storable := by
  unfold classifyPortability
  split
  · exact storable_classifyKnown
  · intro r listed
    rw [List.mem_singleton.mp listed]
    exact storable_makeReason (by decide) (by decide) (by decide)

theorem length_classifyKnown : (request.classifyKnown source destination).reasons.length ≤ 3 := by
  have note : ∀ value, (request.liveTransferNote value).length ≤ 1 := by
    intro value
    unfold PortabilityRequest.liveTransferNote
    split
    · split <;> simp
    · simp
  have := note (request.strongestClass source destination).1
  unfold PortabilityRequest.classifyKnown
  dsimp only
  repeat' split
  all_goals simp [sortReasons]
  all_goals omega

theorem length_classifyPortability (request : PortabilityRequest) :
    (classifyPortability request).reasons.length ≤ 3 := by
  unfold classifyPortability
  split
  · exact length_classifyKnown
  · decide

variable {w : WorkloadProfile} {policy : FederationPolicy} {value : PortabilityClass}

theorem allFit_classFindings : AllFit (classFindings w value) := by
  unfold classFindings
  split
  · exact allFit_hardFinding (by decide) (by decide) (by decide)
  · split
    · exact allFit_hardFinding (by decide) (by decide) (by decide)
    · exact .ite (allFit_hardFinding (by decide) (by decide) (by decide))

theorem allFit_modeFindings : AllFit (modeFindings w policy value) :=
  .append (.ite (allFit_hardFinding (by decide) (by decide) (by decide)))
    (.ite (allFit_hardFinding (by decide) (by decide) (by decide)))

theorem allFit_migrationFindings : AllFit (migrationFindings w value) :=
  .append (.ite (allFit_hardFinding (by decide) (by decide) (by decide)))
    (.ite (allFit_hardFinding (by decide) (by decide) (by decide)))

/-- Whatever follows from the portability fits. -/
theorem allFit_portabilityFindings {set : CapabilitySet} {origin : Option EvaluationSource} :
    AllFit (portabilityFindings w policy set origin).2 := by
  unfold portabilityFindings
  split
  · exact allFit_nil
  · refine .append (.append (.append ?_ allFit_classFindings) allFit_modeFindings)
      allFit_migrationFindings
    intro finding listed
    obtain ⟨r, inside, rfl⟩ := List.mem_map.mp listed
    exact storable_classifyPortability _ r (List.mem_filter.mp inside).1

end Portability

/-! ### Decisions -/

section Decisions

variable {R : Registry} {policy : FederationPolicy} {set : CapabilitySet} {w : WorkloadProfile}

theorem length_flatMap_le {names : List Bytes} {report : Bytes → List Finding}
    (single : ∀ name, (report name).length ≤ 1) : (names.flatMap report).length ≤ names.length := by
  induction names with
  | nil => simp
  | cons name rest ih =>
      have := single name
      rw [List.flatMap_cons, List.length_append, List.length_cons]
      omega

theorem length_ite_le {α : Type} {items : List α} {c : Prop} [Decidable c] :
    (if c then items else []).length ≤ items.length := by
  split <;> simp

theorem length_policyFindings {target : EvaluationTarget}
    (required : policy.requiredCapabilities.length ≤ Limits.maxPolicyDimensions)
    (denied : policy.deniedCapabilities.length ≤ Limits.maxPolicyDimensions)
    (tags : w.requiredPolicyTags.length ≤ Limits.maxPolicyDimensions) :
    (policyFindings w policy target set).length ≤ 8 + 3 * Limits.maxPolicyDimensions := by
  have identity : (identityFindings policy target.accelerator set).length ≤ 4 :=
    (List.length_append.trans_le (Nat.add_le_add (List.length_append.trans_le (Nat.add_le_add
      (List.length_append.trans_le (Nat.add_le_add length_ite_le length_ite_le)) length_ite_le))
      length_ite_le))
  have runtime : (runtimeFindings policy set).length ≤ 1 := by
    unfold runtimeFindings
    dsimp only
    repeat' split
    all_goals simp
  have memory : (memoryFindings policy set).length ≤ 1 := by
    unfold memoryFindings
    dsimp only
    repeat' split
    all_goals simp
  have requires : (policy.requiredCapabilities.flatMap (requiredFindings set)).length ≤
      policy.requiredCapabilities.length := by
    refine length_flatMap_le fun name => ?_
    unfold requiredFindings
    dsimp only
    repeat' split
    all_goals simp
  have denies : (policy.deniedCapabilities.flatMap (deniedFindings set)).length ≤
      policy.deniedCapabilities.length := length_flatMap_le fun _ => length_ite_le
  have tagged : (w.requiredPolicyTags.flatMap (tagFindings policy)).length ≤
      w.requiredPolicyTags.length := by
    refine length_flatMap_le fun tag => ?_
    unfold tagFindings
    split <;> simp
  have provenance : (provenanceFindings policy target.provenance).length ≤ 1 := by
    unfold provenanceFindings
    repeat' split
    all_goals simp
  have membership : (membershipFindings target.acceptsNewWork).length ≤ 1 := by
    unfold membershipFindings
    split <;> simp
  simp only [policyFindings, List.length_append]
  omega

theorem length_portabilityFindings {origin : Option EvaluationSource} :
    (portabilityFindings w policy set origin).2.length ≤ 8 := by
  unfold portabilityFindings
  split
  · simp
  · rename_i source
    have classified := length_classifyPortability (portabilityRequest w policy set source)
    have passed := List.length_filter_le (fun r => decide (r.code ≠ ErrorCode.ok))
      (classifyPortability (portabilityRequest w policy set source)).reasons
    have ranked : ∀ value, (classFindings w value).length ≤ 1 := by
      intro value
      unfold classFindings
      repeat' split
      all_goals simp
    have mode : ∀ value, (modeFindings w policy value).length ≤ 2 := fun value =>
      List.length_append.trans_le (Nat.add_le_add length_ite_le length_ite_le)
    have migration : ∀ value, (migrationFindings w value).length ≤ 2 := fun value =>
      List.length_append.trans_le (Nat.add_le_add length_ite_le length_ite_le)
    have first := ranked (classifyPortability (portabilityRequest w policy set source)).value
    have second := mode (classifyPortability (portabilityRequest w policy set source)).value
    have third := migration (classifyPortability (portabilityRequest w policy set source)).value
    simp only [classifierFindings, List.length_append, List.length_map]
    omega

/-- What validation checks of the sizes of a profile. -/
theorem WorkloadProfile.of_validate_sizes (valid : w.validate R = .ok ()) :
    w.requirements.length ≤ Limits.maxRequirementsPerWorkload ∧
      w.requiredPolicyTags.length ≤ Limits.maxPolicyDimensions ∧
      ∀ tag ∈ w.requiredPolicyTags, tag.length ≤ Limits.maxTokenBytes := by
  simp only [validate, bind_eq_ok, ensure_eq_ok, decide_eq_true_eq, List.all_eq_true,
    Bool.and_eq_true] at valid
  obtain ⟨_, _, _, _, _, _, _, _, _, few, _, _, _, _, _, tags, _, _, _, short, _⟩ := valid
  exact ⟨few, tags, fun tag listed => (short tag listed).2⟩

theorem CapabilityRequirement.length_capability {q : CapabilityRequirement}
    (valid : q.validate R = .ok ()) : q.capability.length ≤ Limits.maxNameBytes := by
  simp only [validate, bind_eq_ok, ensure_eq_ok, Bool.and_eq_true, decide_eq_true_eq] at valid
  obtain ⟨_, _, _, ⟨_, named⟩, _⟩ := valid
  exact named

theorem WorkloadProfile.length_capability (valid : w.validate R = .ok ())
    {q : CapabilityRequirement} (listed : q ∈ w.requirements) :
    q.capability.length ≤ Limits.maxNameBytes := by
  simp only [validate, bind_eq_ok] at valid
  obtain ⟨_, _, _, _, _, _, _, _, _, _, _, requirements, _⟩ := valid
  exact CapabilityRequirement.length_capability
    (validateRequirements_eq_ok.mp requirements q listed)

theorem allFit_evaluationFindings {context : EvaluationContext} (valid : w.validate R = .ok ())
    (sound : policy.Sound R) (admissible : set.Admissible R)
    (brief : ∀ q ∈ w.requirements, q.Brief set) :
    AllFit (evaluationFindings w context policy set) := by
  have tags := (WorkloadProfile.of_validate_sizes valid).2.2
  refine .append (.append ?_ (allFit_policyFindings admissible sound tags))
    allFit_portabilityFindings
  intro finding listed
  obtain ⟨q, inside, reported⟩ := List.mem_filterMap.mp listed
  have named := mem_sortOn.mp inside
  exact storable_requirementFinding (brief q named)
    (WorkloadProfile.length_capability valid named) reported

theorem length_evaluationFindings (context : EvaluationContext) (valid : w.validate R = .ok ())
    (bounded : policy.Bounded) : (evaluationFindings w context policy set).length ≤
      CompatibilityDecision.reasonLimit false := by
  obtain ⟨few, tags, _⟩ := WorkloadProfile.of_validate_sizes valid
  have dimensions := bounded.dimensions
  have reported := List.length_filterMap_le (requirementFinding set
    context.target.evidenceFresh policy.allowDegradedCapabilities) (canonicalizeRequirements w)
  have same : (canonicalizeRequirements w).length = w.requirements.length := length_sortOn _ _
  have ruled : (policyFindings w policy context.target set).length ≤
      8 + 3 * Limits.maxPolicyDimensions := length_policyFindings
    (dimensions policy.requiredCapabilities (by simp [FederationPolicy.capabilityLists]))
    (dimensions policy.deniedCapabilities (by simp [FederationPolicy.capabilityLists])) tags
  have moved : (portabilityFindings w policy set context.source).2.length ≤ 8 :=
    length_portabilityFindings
  have dimension : Limits.maxPolicyDimensions = 1024 := rfl
  have requirement : Limits.maxRequirementsPerWorkload = 4096 := rfl
  have limit : CompatibilityDecision.reasonLimit false = 8192 := rfl
  simp only [evaluationFindings, List.length_append]
  omega

theorem CompatibilityDecision.storable_refreshIdentity {d : CompatibilityDecision}
    (count : d.reasons.length ≤ Limits.maxPersistedDecisions)
    (fit : ∀ r ∈ d.reasons, r.Storable) : d.refreshIdentity.Storable :=
  ⟨count, fit, d.derivedId_refreshIdentity.symm⟩

/-- An evaluation under a sound policy of an admissible set, whose requirements are brief,
yields a decision that can be stored. -/
theorem storable_evaluateCompatibility {context : EvaluationContext} {createdAt : Timestamp}
    {decision : CompatibilityDecision}
    (made : evaluateCompatibility R w context createdAt = .ok decision)
    (sound : ∀ policy, context.policy = some policy → policy.Sound R)
    (advertised : ∀ set, context.target.capabilities = some set →
      set.Admissible R ∧ ∀ q ∈ w.requirements, q.Brief set) : decision.Storable := by
  unfold evaluateCompatibility at made
  obtain ⟨_, valid, made⟩ := bind_eq_ok.mp made
  split at made
  · rename_i policy chosen
    split at made
    · rename_i set given
      simp only [bind_eq_ok, pure_eq_ok] at made
      obtain ⟨_, _, _, _, rfl⟩ := made
      obtain ⟨admissible, brief⟩ := advertised set given
      have count : (evaluationFindings w context policy set).length ≤
          Limits.maxPersistedDecisions := (length_evaluationFindings context valid
        (FederationPolicy.bounded_of_validate (sound policy chosen).valid)).trans (by decide)
      have fit : AllFit (evaluationFindings w context policy set) :=
        allFit_evaluationFindings valid (sound policy chosen) admissible brief
      refine CompatibilityDecision.storable_refreshIdentity ?_ ?_
      · simpa only [assessed, sortReasons, length_sortOn, List.length_map] using count
      · intro r listed
        obtain ⟨finding, inside, rfl⟩ := List.mem_map.mp (mem_sortOn.mp listed)
        exact fit finding inside
    · cases made
  · cases made

end Decisions

/-! ### Plans -/

theorem MigrationOutcome.storable_steps (outcome : MigrationOutcome) :
    ∀ s ∈ outcome.steps, s.Storable := by
  cases outcome <;> simp only [steps, List.forall_mem_cons, List.not_mem_nil, false_implies,
    implies_true, and_true]
  case moveNativeState | restoreCheckpoint | repackageAndRestart =>
    exact ⟨⟨by decide, by decide, by decide, by decide⟩,
      by decide, by decide, by decide, by decide⟩
  case recompileThenRestore =>
    exact ⟨⟨by decide, by decide, by decide, by decide⟩,
      ⟨by decide, by decide, by decide, by decide⟩, by decide, by decide, by decide, by decide⟩
  case reconstruct | restart => exact ⟨by decide, by decide, by decide, by decide⟩

theorem MigrationOutcome.length_steps (outcome : MigrationOutcome) : outcome.steps.length ≤ 3 := by
  cases outcome <;> decide

section Plans

variable {request : MigrationRequest} {policy : FederationPolicy} {workload : WorkloadProfile}
  {source destination : CapabilitySet} {value : PortabilityClass}

theorem storable_refusal {code : ErrorCode} {subject detail : Bytes} {bound : Nat}
    [short : Short detail bound] (known : code.value ≤ ErrorCode.maxValue)
    (named : subject.length ≤ Limits.maxNameBytes) (room : bound ≤ Limits.maxDescriptionBytes) :
    ∀ r ∈ [refusal code subject detail], r.Storable := by
  intro r listed
  rw [List.mem_singleton.mp listed]
  exact ⟨known, named, short.length_le.trans room⟩

theorem forall_mem_ite {reasons : List CompatibilityReason} {c : Prop} [Decidable c]
    (fit : ∀ r ∈ reasons, r.Storable) : ∀ r ∈ (if c then reasons else []), r.Storable := by
  split
  · exact fit
  · simp

theorem storable_crossVendorRefusals :
    ∀ r ∈ request.crossVendorRefusals policy workload source destination value, r.Storable := by
  unfold MigrationRequest.crossVendorRefusals
  split
  · simp
  · rw [List.forall_mem_append]
    exact ⟨forall_mem_ite (storable_refusal (by decide) (by decide) (by decide)),
      forall_mem_ite (storable_refusal (by decide) (by decide) (by decide))⟩

theorem storable_classRefusals : ∀ r ∈ request.classRefusals policy value, r.Storable := by
  unfold MigrationRequest.classRefusals
  simp only [List.forall_mem_append]
  refine ⟨⟨⟨forall_mem_ite ?_, forall_mem_ite ?_⟩, forall_mem_ite ?_⟩, forall_mem_ite ?_⟩
  all_goals exact storable_refusal (by decide) (by decide) (by decide)

theorem length_crossVendorRefusals :
    (request.crossVendorRefusals policy workload source destination value).length ≤ 2 := by
  unfold MigrationRequest.crossVendorRefusals
  split
  · simp
  · exact List.length_append.trans_le (Nat.add_le_add length_ite_le length_ite_le)

theorem length_classRefusals : (request.classRefusals policy value).length ≤ 4 :=
  List.length_append.trans_le (Nat.add_le_add (List.length_append.trans_le (Nat.add_le_add
    (List.length_append.trans_le (Nat.add_le_add length_ite_le length_ite_le)) length_ite_le))
    length_ite_le)

/-- A plan that can be stored and gives reasons only once it is closed. -/
structure MigrationPlan.Sound (p : MigrationPlan) : Prop where
  storable : p.Storable
  silent : p.state.isTerminal = false → p.refusalReasons = []

/-- A named plan can be stored once its steps and reasons can. -/
theorem MigrationPlan.sound_refreshIdentity {p : MigrationPlan} (few : p.steps.length ≤ 3)
    (step : ∀ s ∈ p.steps, s.Storable) (brief : p.refusalReasons.length ≤ 6)
    (reason : ∀ r ∈ p.refusalReasons, r.Storable)
    (silent : p.state.isTerminal = false → p.refusalReasons = []) : p.refreshIdentity.Sound :=
  ⟨⟨few.trans (by decide), step, brief.trans (by decide), reason,
    p.derivedId_refreshIdentity.symm⟩, silent⟩

/-- What the planner decides can be stored. -/
theorem sound_planMigration {createdAt : Timestamp} {plan : MigrationPlan}
    (made : planMigration request createdAt = .ok plan) : plan.Sound := by
  obtain ⟨policy, workload, source, destination, _, _, _, _, _, _, _, rfl⟩ :=
    planMigration_eq_ok.mp made
  unfold MigrationRequest.decided
  dsimp only
  split
  · refine MigrationPlan.sound_refreshIdentity (by simp [MigrationRequest.bound])
      (by simp [MigrationRequest.bound]) ?_ ?_ (fun open_ => by cases open_)
    · rw [sortReasons, length_sortOn, List.length_append]
      exact Nat.add_le_add length_crossVendorRefusals length_classRefusals
    · intro r listed
      exact (List.mem_append.mp (mem_sortOn.mp listed)).elim (storable_crossVendorRefusals r)
        (storable_classRefusals r)
  · split
    · refine MigrationPlan.sound_refreshIdentity (by simp [MigrationRequest.bound])
        (by simp [MigrationRequest.bound]) (by simp) ?_ (fun open_ => by cases open_)
      refine storable_refusal ?_ (by decide) (by decide)
      split <;> decide
    · refine MigrationPlan.sound_refreshIdentity ?_ ?_ (by simp [MigrationRequest.bound])
        (by simp [MigrationRequest.bound]) fun _ => rfl
      · rw [length_sortOn]
        exact MigrationOutcome.length_steps _
      · intro step listed
        exact MigrationOutcome.storable_steps _ step (mem_sortOn.mp listed)

end Plans

end Haf
