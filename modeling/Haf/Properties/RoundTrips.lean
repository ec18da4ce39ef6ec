/-
# Workloads and descriptors that were stored

A validated workload or descriptor is written field by field and checked again when it is
read. What the validators accept is wider than what the decoders do: the clauses of a version
range are written one by one but read through their text, limits on clauses, tokens and
references are those of the decoder only, and a descriptor keeps the numbers of its versions
alone. It is shown which validated values come back.
-/

import Haf.Codec.Decoded
import Haf.Properties.Recoverability

namespace Haf

open Sequence Wire ByteReader

/-! ### Lengths -/

theorem CapabilityValue.Storable.length_serialize {value : CapabilityValue}
    (storable : value.Storable) : value.serialize.length ≤ 67589 := by
  have bound : value.payload.length ≤ 67588 := by
    cases value with
    | presence flag => simp [payload, ByteWriter.boolean, ByteWriter.u8]
    | version v =>
        simp only [Storable, Limits.maxTokenBytes] at storable
        simp only [payload, List.length_append, ByteWriter.u32, length_littleEndian, length_string]
        omega
    | integer n => simp [payload, ByteWriter.i64, ByteWriter.u64]
    | scalar d => simp [payload, ByteWriter.f64, ByteWriter.u64]
    | enumeration token =>
        simp only [Storable, Limits.maxTokenBytes] at storable
        simp only [payload, length_string]
        omega
    | tokenSet tokens =>
        refine (length_list_le storable.1 fun token listed => ?_).trans
          (by decide : 4 + Limits.maxTokensPerCapability * 132 ≤ 67588)
        have short := storable.2 token listed
        simp only [Limits.maxTokenBytes] at short
        rw [length_string]
        omega
  simp only [serialize, List.length_append, ByteWriter.u8, List.length_singleton]
  omega

/-! ### Workloads -/

namespace CapabilityRequirement

/-- The requirements match the same lookups. -/
def MatchesAlike (q q' : CapabilityRequirement) : Prop :=
  ∀ (lookup : CapabilityLookup) (allowDegraded : Bool),
    matchRequirement q lookup allowDegraded = matchRequirement q' lookup allowDegraded

/-- A valid requirement can be stored exactly if it is admissible. -/
theorem storable_iff {R : Registry} {q : CapabilityRequirement} (valid : q.validate R = .ok ()) :
    q.Storable R ↔ q.Admissible := by
  constructor
  · intro storable
    obtain ⟨range, reparsed⟩ := storable.reparsed
    exact ⟨storable.value, storable.clauses, ne_any_of_reparseClauses reparsed,
      storable.prereleases⟩
  · intro admissible
    exact admissible.storable valid

theorem Admissible.length_serialize {R : Registry} {q : CapabilityRequirement}
    (admissible : q.Admissible) (valid : q.validate R = .ok ()) :
    q.serialize.length ≤ 80000 := by
  obtain ⟨named, _, _, reasoned⟩ := of_validate valid
  have value := admissible.value.length_serialize
  have clauses : (ByteWriter.list serializeClause q.versionRange.clauses).length ≤ 4 + 32 * 145 := by
    apply length_list_le admissible.clauses
    intro clause listed
    have short := admissible.prereleases clause listed
    simp only [Limits.maxTokenBytes] at short
    simp only [serializeClause, List.length_append, ByteWriter.u8, ByteWriter.u32,
      length_littleEndian, length_string, List.length_singleton]
    omega
  simp only [Limits.maxNameBytes, Limits.maxRationaleBytes] at named reasoned
  simp only [serialize, List.length_append, length_strongId, length_string, ByteWriter.u8,
    ByteWriter.f64, ByteWriter.u64, length_littleEndian, List.length_singleton]
  omega

end CapabilityRequirement

namespace WorkloadProfile

variable {R : Registry} {w : WorkloadProfile}

/-- The profile is read back with its identities, revision and digest, and requirement by
requirement with its meaning. -/
def KeepsMeaning (R : Registry) (w : WorkloadProfile) : Prop :=
  ∃ w', (deserialize R).run w.serialize = .ok (w', []) ∧
    w'.classId = w.classId ∧ w'.requirementId = w.requirementId ∧ w'.revision = w.revision ∧
    w'.digest = w.digest ∧
    List.Forall₂ CapabilityRequirement.MatchesAlike w.requirements w'.requirements

theorem Sound.length_serialize (sound : w.Sound R) : w.serialize.length < 4294967296 := by
  obtain ⟨named, described, counted, tagged, tags⟩ := of_validate sound.valid
  have requirements := length_list_le counted fun q listed =>
    (sound.requirements q listed).length_serialize (sound.requirement listed)
  have labels : (ByteWriter.list ByteWriter.string w.requiredPolicyTags).length ≤
      4 + Limits.maxPolicyDimensions * (4 + Limits.maxTokenBytes) := by
    apply length_list_le tagged
    intro tag listed
    rw [length_string]
    exact Nat.add_le_add_left (tags tag listed) 4
  simp only [Limits.maxNameBytes, Limits.maxDescriptionBytes, Limits.maxRequirementsPerWorkload,
    Limits.maxPolicyDimensions, Limits.maxTokenBytes] at *
  simp only [serialize, List.length_append, length_strongId, length_string, ByteWriter.generation,
    ByteWriter.u64, ByteWriter.u8, ByteWriter.boolean, length_littleEndian, List.length_singleton]
  omega

/-- **Which workloads keep their meaning.** A validated profile is read back from its encoding,
with its identities, revision and digest, as one whose requirements match what they matched
before exactly if no requirement has a wildcard clause, more than 32 clauses, or a value or
prerelease beyond the limits of the decoder. The lengths in the encoding have 32 bits, which is
more than such a profile needs. -/
theorem keepsMeaning_iff_admissible (valid : w.validate R = .ok ()) :
    w.KeepsMeaning R ∧ w.serialize.length < 4294967296 ↔ ∀ q ∈ w.requirements, q.Admissible := by
  have each {q : CapabilityRequirement} (listed : q ∈ w.requirements) : q.validate R = .ok () := by
    simp only [validate, bind_eq_ok] at valid
    obtain ⟨_, _, _, _, _, _, _, _, _, _, _, requirements, _⟩ := valid
    exact validateRequirements_eq_ok.mp requirements q listed
  constructor
  · rintro ⟨⟨w', read, _⟩, short⟩ q listed
    obtain ⟨storable, _⟩ := (Codes.run_eq_ok_iff (deserialize_reads R w) short).mp read
    exact (CapabilityRequirement.storable_iff (each listed)).mp (storable.requirements q listed)
  · intro admissible
    have sound : w.Sound R := ⟨valid, admissible⟩
    have short := sound.length_serialize
    have read := (Codes.run_eq_ok_iff (deserialize_reads R w) short).mpr ⟨sound.storable, rfl⟩
    rw [sound.persisted_eq] at read
    refine ⟨⟨w, read, rfl, rfl, rfl, rfl, ?_⟩, short⟩
    exact List.forall₂_same.mpr fun q _ lookup allowDegraded => rfl

end WorkloadProfile

namespace Sample

/-- A requirement on the runtime version. -/
def runtimeNeed (range : VersionRange) : CapabilityRequirement :=
  { id := ⟨.fromBytes [1]⟩, capability := Cap.runtimeVersion, op := .versionSatisfies
    value := .version {}, versionRange := range }

/-- A workload with that requirement. -/
def runtimeBound (range : VersionRange) : WorkloadProfile :=
  { classId := ⟨.fromBytes [1]⟩, requirementId := ⟨.fromBytes [2]⟩, name := text "w"
    requirements := [runtimeNeed range] }

/-- Any version, spelled out. -/
def wildcard : VersionRange := ⟨[{}], (VersionRange.reread {}).parsed⟩

/-- At least version one. -/
def atLeastOne : VersionRange :=
  ⟨[{ op := .greaterEqual, version := { major := 1 } }],
    by simpa using ⟨text ">=1.0.0", by decide +kernel⟩⟩

theorem valid_runtimeBound : (runtimeBound wildcard).validate .core = .ok () ∧
    (runtimeBound atLeastOne).validate .core = .ok () := by decide +kernel

end Sample

open Sample in
/-- A range that spells out the wildcard is accepted and not read back. -/
theorem wildcard_not_reread : (runtimeBound wildcard).validate .core = .ok () ∧
    ((WorkloadProfile.deserialize .core).run (runtimeBound wildcard).serialize).isOk = false := by
  decide +kernel

open Sample in
theorem atLeastOne_keepsMeaning : (runtimeBound atLeastOne).KeepsMeaning .core := by
  apply ((WorkloadProfile.keepsMeaning_iff_admissible valid_runtimeBound.2).mpr ?_).1
  intro q listed
  cases List.mem_singleton.mp listed
  exact ⟨Nat.zero_le _, by decide, by decide, by decide⟩

/-! ### Descriptors -/

namespace AcceleratorDescriptor

/-- The descriptor without the process-local markers of its evidence. -/
def unmarked (d : AcceleratorDescriptor) : AcceleratorDescriptor :=
  { d with evidence := d.evidence.map (·.persisted) }

/-- The descriptor is read back, but for the markers. -/
def ComesBack (R : Registry) (d : AcceleratorDescriptor) : Prop :=
  ∃ d', (deserialize R).run d.serialize = .ok (d', []) ∧ d'.unmarked = d.unmarked

end AcceleratorDescriptor

theorem CapabilitySet.Storable.length_serialize {R : Registry} {set : CapabilitySet}
    (storable : set.Storable R) : set.serialize.length < 4294967296 := by
  obtain ⟨few, short⟩ := set.namespaces_bounded
  have records : (ByteWriter.list CapabilityRecord.serialize set.records).length ≤
      4 + Limits.maxCapabilitiesPerSet * 70000 := by
    apply length_list_le set.length_records_le
    intro r listed
    obtain ⟨_, _, _, valid⟩ :=
      CapabilityRecord.canonicalRecord_eq_ok_iff.mp (set.canonicalRecord_of_mem listed)
    obtain ⟨resolved, _, bounded⟩ := CapabilityRecord.of_validate valid
    have named := (r.key.canonical.resolve_left
      (by simpa [CapabilityKey.valid] using resolved)).bounded
    have value := (storable.2 r listed).2.length_serialize
    simp only [Limits.maxNameBytes, Limits.maxTokenBytes] at named bounded
    simp only [CapabilityRecord.serialize, List.length_append, length_string, ByteWriter.u8,
      List.length_singleton]
    omega
  have namespaces : (ByteWriter.list ByteWriter.string set.closedNamespaces).length ≤
      4 + Limits.maxCapabilitiesPerSet * (4 + Limits.maxNameBytes) := by
    apply length_list_le few
    intro name listed
    rw [length_string]
    exact Nat.add_le_add_left (short name listed) 4
  simp only [Limits.maxCapabilitiesPerSet, Limits.maxNameBytes] at records namespaces
  simp only [serialize, List.length_append, length_strongId, ByteWriter.generation, ByteWriter.u64,
    length_littleEndian]
  omega

theorem EvidenceRecord.length_serialize {e : EvidenceRecord} (valid : e.validate = .ok ()) :
    e.serialize.length < 4294967296 := by
  obtain ⟨adapter, source, version⟩ := of_validate valid
  simp only [Limits.maxNameBytes, Limits.maxDescriptionBytes, Limits.maxTokenBytes]
    at adapter source version
  have digest (d : Digest) : (ByteWriter.digest d).length = 32 := d.length_eq
  unfold serialize
  simp only [List.length_append, length_strongId, length_string, length_boolean, length_u8,
    length_u32, length_u64, length_i64, length_generation, digest]
  omega

namespace AcceleratorDescriptor

variable {R : Registry} {d : AcceleratorDescriptor}

/-- A valid descriptor that can be stored is read back however much evidence it carries. -/
theorem Storable.codes (storable : d.Storable R) (valid : d.Valid) (limit : Nat) :
    Codes limit (deserialize R) d.serialize True d.persisted := by
  have brief {t : Bytes} (listed : t ∈ d.taxonomyTokens) :
      Codes limit (string Limits.maxTokenBytes) (ByteWriter.string t) True t := by
    have short := valid.short t listed
    apply ((string_reads _ _).within _ limit).congr rfl (iff_true_intro short) fun _ => rfl
    simp only [Limits.maxTokenBytes] at short
    rw [length_string]
    omega
  have id16 {tag : IdTag} (id : StrongId tag) :
      Codes limit strongId (ByteWriter.strongId id) True id :=
    (strongId_reads id).within (by rw [length_strongId]; omega) limit
  have number (n : UInt32) : Codes limit u32 (ByteWriter.u32 n) True n :=
    (u32_reads n).within (by simp [ByteWriter.u32]) limit
  have byte (n : UInt8) : Codes limit u8 (ByteWriter.u8 n) True n :=
    (u8_reads n).within (by simp [ByteWriter.u8]) limit
  have capabilities : Codes limit (CapabilitySet.deserialize R) d.capabilities.serialize True
      d.capabilities :=
    ((CapabilitySet.deserialize_reads R _).within storable.capabilities.length_serialize limit).congr
      rfl (iff_true_intro storable.capabilities) fun _ => rfl
  have references : Codes limit (readReferences d.topologyReferences.length none)
      (d.topologyReferences.flatMap ByteWriter.string) True d.topologyReferences := by
    apply ((readReferences_reads _ none).within _ limit).congr rfl
      (iff_true_intro ⟨storable.references, storable.short⟩) fun _ => rfl
    have bound : (ByteWriter.list ByteWriter.string d.topologyReferences).length ≤
        4 + Limits.maxTopologyReferences * (4 + Limits.maxNameBytes) := by
      apply length_list_le valid.references
      intro s listed
      rw [length_string]
      exact Nat.add_le_add_left (storable.short s listed) 4
    simp only [ByteWriter.list, List.length_append, Limits.maxTopologyReferences,
      Limits.maxNameBytes] at bound
    show (d.topologyReferences.flatMap ByteWriter.string).length < 4294967296
    omega
  have witness (e : EvidenceRecord) (listed : e ∈ d.evidence) :
      Codes limit EvidenceRecord.deserialize e.serialize True e.persisted := by
    have sound := (valid.evidence e listed).1
    exact (e.deserialize_reads.within (EvidenceRecord.length_serialize sound) limit).congr rfl
      (iff_true_intro sound) fun _ => rfl
  refine Codes.of_append_nil ?_
  unfold deserialize deserializeAt serialize structuralBytes
  simp only [List.append_assoc]
  refine .then_ (id16 _) (.then_ (id16 _) (.then_ ((generation_reads _).within ?_ limit)
    (.then_ (id16 _) (.then_ (id16 _) (.then_ (id16 _) ?_)))))
  · simp [ByteWriter.generation, ByteWriter.u64]
  refine .then_ (brief (by simp [taxonomyTokens])) (.then_ (brief (by simp [taxonomyTokens]))
    (.then_ (brief (by simp [taxonomyTokens])) (.then_ (brief (by simp [taxonomyTokens]))
      (.then_ (brief (by simp [taxonomyTokens])) ?_))))
  refine .then_ (number _) (.then_ (number _) (.then_ (number _) (.then_ (number _)
    (.then_ (number _) (.then_ (number _) ?_)))))
  refine .then_ capabilities (.then_ (byte _) (.then_ (byte _) ?_))
  refine .ofOption (SupportLevel.fromWire_toWire _)
    (.ofOption (EvidenceProvenance.fromWire_toWire _) ?_)
  refine .then_ (list_codes (by decide) valid.witnesses EvidenceRecord.le_length_serialize witness) ?_
  rw [ByteWriter.list, List.append_assoc]
  have less : d.topologyReferences.length < 4294967296 := by
    have within := valid.references
    simp only [Limits.maxTopologyReferences] at within
    omega
  refine count_codes (fun _ => less) ?_ (fun _ => valid.references) fun _ => ?_
  · have enough : d.topologyReferences.length * 4 ≤
        (d.topologyReferences.flatMap ByteWriter.string).length :=
      length_mul_le_flatMap fun s _ => by rw [length_string]; omega
    rw [List.length_append]
    omega
  refine .then_ references (.then_ ((i64_reads _).within ?_ limit) ?_)
  · rw [length_i64]
    omega
  exact ofResult_codes storable.valid (.done _ trivial)

theorem Storable.run_eq_ok_iff (storable : d.Storable R) (valid : d.Valid)
    {b : AcceleratorDescriptor} :
    (deserialize R).run d.serialize = .ok (b, []) ↔ b = d.persisted := by
  rw [Codes.run_eq_ok_iff (storable.codes valid _) (Nat.lt_succ_self _), true_and]

/-- **Which descriptors come back.** A valid descriptor, with any set of capabilities, is read
back from a store but for the markers of its evidence exactly if the process lists its
capabilities, their version texts and its topology references keep to the limits of the
decoder, no reference is repeated, and neither of its versions has a prerelease. The first of
these always holds where the set was built. -/
theorem comesBack_iff (valid : d.validate = .ok ()) : d.ComesBack R ↔
    d.Admissible R ∧ d.runtimeVersion.prerelease = [] ∧ d.driverVersion.prerelease = [] := by
  have valid := validate_eq_ok.mp valid
  constructor
  · rintro ⟨d', read, same⟩
    have ensured : Ensures (deserialize R) fun d => d.Storable R ∧ d.persisted = d :=
      ensures_deserializeAt true R
    obtain ⟨storable, stable⟩ := ensured.of_run read
    have capabilities : d.capabilities = d'.capabilities :=
      (congrArg AcceleratorDescriptor.capabilities same.symm).trans rfl
    have references : d.topologyReferences = d'.topologyReferences :=
      (congrArg AcceleratorDescriptor.topologyReferences same.symm).trans rfl
    have runtime : d.runtimeVersion = d'.runtimeVersion :=
      (congrArg AcceleratorDescriptor.runtimeVersion same.symm).trans rfl
    have driver : d.driverVersion = d'.driverVersion :=
      (congrArg AcceleratorDescriptor.driverVersion same.symm).trans rfl
    refine ⟨⟨?_, ?_, ?_⟩, ?_, ?_⟩
    · intro r listed
      rw [capabilities] at listed
      obtain ⟨known, value⟩ := storable.capabilities.2 r listed
      refine ⟨known, fun v given => ?_⟩
      rw [given] at value
      exact value
    · rw [references]
      exact storable.references
    · rw [references]
      exact storable.short
    · rw [runtime]
      exact (congrArg (·.runtimeVersion.prerelease) stable.symm).trans rfl
    · rw [driver]
      exact (congrArg (·.driverVersion.prerelease) stable.symm).trans rfl
  · rintro ⟨admissible, runtime, driver⟩
    refine ⟨d.persisted, ((admissible.storable valid).run_eq_ok_iff valid).mpr rfl, ?_⟩
    have marks : (d.evidence.map (·.persisted)).map (·.persisted) =
        d.evidence.map (·.persisted) := by
      rw [List.map_map]
      rfl
    have released {v : SemanticVersion} (release : v.prerelease = []) :
        { v with prerelease := [] } = v := by
      rw [← release]
    simp only [unmarked, persisted, released runtime, released driver, ← valid.vendor,
      ← valid.architecture, marks]

end AcceleratorDescriptor

namespace Sample

/-- The first device with a runtime that is a release candidate. -/
def candidate : AcceleratorDescriptor :=
  { first with runtimeVersion := { major := 12, prerelease := text "rc.1" } }

theorem valid_candidate : candidate.validate = .ok () :=
  AcceleratorDescriptor.validate_eq_ok.mpr
    { AcceleratorDescriptor.validate_eq_ok.mp validate_first with }

end Sample

/-- The candidate is accepted, stored and read back as the release. -/
theorem candidate_comes_back_released : Sample.candidate.validate = .ok () ∧
    (AcceleratorDescriptor.deserialize .core).run Sample.candidate.serialize =
      .ok (Sample.candidate.persisted, []) ∧
    Sample.candidate.persisted.runtimeVersion = { major := 12 } ∧
    ¬ Sample.candidate.ComesBack .core := by
  have valid := AcceleratorDescriptor.validate_eq_ok.mp Sample.valid_candidate
  have admissible : Sample.candidate.Admissible .core := { Sample.admissible_first with }
  have storable := admissible.storable valid
  refine ⟨Sample.valid_candidate, (storable.run_eq_ok_iff valid).mpr rfl, rfl, ?_⟩
  rintro ⟨d', read, same⟩
  cases (storable.run_eq_ok_iff valid).mp read
  have version : Sample.candidate.persisted.runtimeVersion = Sample.candidate.runtimeVersion :=
    congrArg AcceleratorDescriptor.runtimeVersion same
  revert version
  decide

theorem first_comesBack : Sample.first.ComesBack .core :=
  (AcceleratorDescriptor.comesBack_iff Sample.validate_first).mpr ⟨Sample.admissible_first, rfl, rfl⟩

end Haf
