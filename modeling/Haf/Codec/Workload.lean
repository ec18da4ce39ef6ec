/-
# Reading workloads back

A decoded version range goes through the parser again, one clause at a time; all
other fields of a requirement are read back as they were written.
-/

import Haf.Codec.Policy

namespace Haf

open Sequence Wire ByteReader

namespace CapabilityRequirement

/-- The requirement as it is read back, if it is. -/
def persisted (q : CapabilityRequirement) : CapabilityRequirement :=
  match reparseClauses q.versionRange.clauses with
  | .ok versionRange => { q with versionRange }
  | .error _ => q

/-- The value and the clauses keep to the limits of the wire, the clauses are parsed again and
the decoded requirement is valid. -/
structure Storable (R : Registry) (q : CapabilityRequirement) : Prop where
  value : q.value.Storable
  clauses : q.versionRange.clauses.length ≤ 32
  prereleases : ∀ clause ∈ q.versionRange.clauses,
    clause.version.prerelease.length ≤ Limits.maxTokenBytes
  reparsed : ∃ range, reparseClauses q.versionRange.clauses = .ok range
  valid : q.persisted.validate R = .ok ()

/-- What validation says about the fields of a requirement that have limits. -/
theorem of_validate {R : Registry} {q : CapabilityRequirement} (valid : q.validate R = .ok ()) :
    q.capability.length ≤ Limits.maxNameBytes ∧
      (∃ key, capabilityKeyFromName R q.capability = .ok key ∧ q.value.kind = key.kind) ∧
      q.weight.isFinite = true ∧ q.rationale.length ≤ Limits.maxRationaleBytes := by
  simp only [validate, bind_eq_ok, ensure_eq_ok, Bool.and_eq_true, decide_eq_true_eq] at valid
  obtain ⟨_, _, _, named, key, found, _, kinds, _, finite, _, _, _, _, _, bounded, _⟩ := valid
  exact ⟨named.2, ⟨key, found, kinds⟩, finite, bounded⟩

theorem deserializeClause_reads (clause : VersionClause) :
    Reads deserializeClause (serializeClause clause)
      (clause.version.prerelease.length ≤ Limits.maxTokenBytes) clause := by
  refine Codes.of_append_nil ?_
  unfold serializeClause
  simp only [List.append_assoc]
  refine .then_ (u8_reads _) (.then_ (u32_reads _) (.then_ (u32_reads _) (.then_ (u32_reads _)
    (.step (string_reads _ _) (fun short => short) fun short => ?_))))
  exact .ofOption (VersionOperator.fromWire_toWire _) (.done _ short)

theorem le_length_serializeClause (clause : VersionClause) :
    13 ≤ (serializeClause clause).length := by
  simp [serializeClause, ByteWriter.u8, ByteWriter.u32, length_string]
  omega

/-- A requirement is read back exactly when it can be stored. -/
theorem deserialize_reads (R : Registry) (q : CapabilityRequirement) :
    Reads (deserialize R) q.serialize (q.Storable R) q.persisted := by
  -- the fields that validation bounds are those of the written requirement
  have fields (storable : q.Storable R) : q.capability.length ≤ Limits.maxNameBytes ∧
      (∃ key, capabilityKeyFromName R q.capability = .ok key ∧ q.value.kind = key.kind) ∧
      q.weight.isFinite = true ∧ q.rationale.length ≤ Limits.maxRationaleBytes := by
    have valid := of_validate storable.valid
    obtain ⟨range, reparsed⟩ := storable.reparsed
    rw [persisted, reparsed] at valid
    exact valid
  refine Codes.of_append_nil ?_
  unfold serialize
  simp only [List.append_assoc]
  refine .then_ (strongId_reads _) (.step (string_reads _ _) (fun s => (fields s).1) fun _ => ?_)
  refine .then_ (u8_reads _) (.then_ (u8_reads _) ?_)
  refine .ofOption (RequirementStrength.fromWire_toWire _)
    (.ofOption (RequirementOperator.fromWire_toWire _) ?_)
  refine ofResult_reads (fun s => (fields s).2.1.imp fun _ found => found.1) fun key found => ?_
  refine .step (CapabilityValue.deserialize_reads _) Storable.value fun value => ?_
  refine .check (fun s => ?_) fun _ => ?_
  · obtain ⟨key', found', kinds⟩ := (fields s).2.1
    rw [found] at found'
    cases found'
    simpa using kinds
  refine .step (list_reads (by decide) q.versionRange.clauses le_length_serializeClause
    fun clause _ => deserializeClause_reads clause) (fun s => ⟨s.clauses, s.prereleases⟩)
    fun clauses => ?_
  rw [List.map_id']
  refine ofResult_reads Storable.reparsed fun range reparsed => ?_
  have back : q.persisted = { q with versionRange := range } := by rw [persisted, reparsed]
  refine .step (f64_reads _) (fun s => (fields s).2.2.1) fun _ => ?_
  refine .step (string_reads _ _) (fun s => (fields s).2.2.2) fun _ => ?_
  refine ofResult_reads (fun s => ⟨(), back ▸ s.valid⟩) fun _ valid => ?_
  rw [← back] at valid ⊢
  exact .done _ ⟨value, clauses.1, clauses.2, ⟨range, reparsed⟩, valid⟩

theorem le_length_serialize (q : CapabilityRequirement) : 8 ≤ q.serialize.length := by
  unfold serialize
  simp only [List.length_append, length_strongId]
  omega

end CapabilityRequirement

namespace WorkloadProfile

/-- The profile as it is read back. -/
def persisted (w : WorkloadProfile) : WorkloadProfile :=
  { w with requirements := w.requirements.map (·.persisted) }

/-- The requirements can be stored and the decoded profile is valid. -/
structure Storable (R : Registry) (w : WorkloadProfile) : Prop where
  requirements : ∀ q ∈ w.requirements, q.Storable R
  valid : w.persisted.validate R = .ok ()

/-- What validation says about the fields of a profile that have limits. -/
theorem of_validate {R : Registry} {w : WorkloadProfile} (valid : w.validate R = .ok ()) :
    w.name.length ≤ Limits.maxNameBytes ∧ w.description.length ≤ Limits.maxDescriptionBytes ∧
      w.requirements.length ≤ Limits.maxRequirementsPerWorkload ∧
      w.requiredPolicyTags.length ≤ Limits.maxPolicyDimensions ∧
      ∀ tag ∈ w.requiredPolicyTags, tag.length ≤ Limits.maxTokenBytes := by
  simp only [validate, bind_eq_ok, ensure_eq_ok, Bool.and_eq_true, decide_eq_true_eq,
    List.all_eq_true] at valid
  obtain ⟨_, _, _, _, _, named, _, described, _, counted, _, _, _, _, _, tagged, _, _, _, tags, _⟩ :=
    valid
  exact ⟨named.2, described, counted, tagged, fun tag listed => (tags tag listed).2⟩

/-- A profile is read back exactly when it can be stored. -/
theorem deserialize_reads (R : Registry) (w : WorkloadProfile) :
    Reads (deserialize R) w.serialize (w.Storable R) w.persisted := by
  have fields (storable : w.Storable R) := of_validate storable.valid
  refine Codes.of_append_nil ?_
  unfold serialize
  simp only [List.append_assoc]
  refine .then_ (strongId_reads _) (.then_ (strongId_reads _) (.then_ (generation_reads _) ?_))
  refine .step (string_reads _ _) (fun s => (fields s).1) fun _ => ?_
  refine .step (string_reads _ _) (fun s => (fields s).2.1) fun _ => ?_
  refine .then_ (u8_reads _) (.then_ (u8_reads _) (.then_ (u8_reads _) (.then_ (boolean_reads _)
    ?_)))
  refine .ofOption (ExecutionMode.fromWire_toWire _) (.ofOption (PortabilityClass.fromWire_toWire _)
    (.ofOption (MigrationNeed.fromWire_toWire _) ?_))
  refine .step (list_reads (by decide) w.requirements CapabilityRequirement.le_length_serialize
    fun q _ => CapabilityRequirement.deserialize_reads R q) (fun s => ⟨?_, s.requirements⟩)
    fun requirements => ?_
  · simpa [persisted] using (fields s).2.2.1
  refine .step (strings_reads _ _ _) (fun s => (fields s).2.2.2) fun _ => ?_
  exact ofResult_reads (fun s => ⟨(), s.valid⟩) fun _ valid => .done _ ⟨requirements.2, valid⟩

theorem le_length_serialize (w : WorkloadProfile) : 8 ≤ w.serialize.length := by
  unfold serialize
  simp only [List.length_append, length_strongId]
  omega

end WorkloadProfile

end Haf
