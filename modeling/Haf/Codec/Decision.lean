/-
# Reading decisions and plans back

Reasons, decisions and plans are read back as they were written. The decoder
recomputes the identity of a decision and of a plan from its content.
-/

import Haf.Codec.Workload

namespace Haf

open Sequence Wire ByteReader

/-! ### Stamps -/

theorem generation_inj {tag : GenerationTag} {a b : Generation tag}
    (same : ByteWriter.generation a = ByteWriter.generation b) : a = b := by
  have values := congrArg ofLittleEndian same
  simp only [ByteWriter.generation, ByteWriter.u64, ofLittleEndian_littleEndian] at values
  rw [Nat.mod_eq_of_lt (by simpa using a.value.toNat_lt),
    Nat.mod_eq_of_lt (by simpa using b.value.toNat_lt)] at values
  exact Generation.ext (UInt64.toNat_inj.mp values)

/-- Bytes that start with a federation, its generation and an epoch determine both counters. -/
theorem stamp_inj {a b : FederationId} {g h : FederationGeneration} {e e' : CoordinatorEpoch}
    {rest rest' : Bytes}
    (same : ByteWriter.strongId a ++ (ByteWriter.generation g ++
        (ByteWriter.generation e ++ rest)) =
      ByteWriter.strongId b ++ (ByteWriter.generation h ++ (ByteWriter.generation e' ++ rest'))) :
    g = h ∧ e = e' := by
  have width : ∀ {tag : GenerationTag} (a b : Generation tag),
      (ByteWriter.generation a).length = (ByteWriter.generation b).length := by
    intro tag a b
    simp [ByteWriter.generation, ByteWriter.u64]
  obtain ⟨_, counters⟩ := List.append_inj same (by simp)
  obtain ⟨generation, epochs⟩ := List.append_inj counters (width g h)
  obtain ⟨epoch, _⟩ := List.append_inj epochs (width e e')
  exact ⟨generation_inj generation, generation_inj epoch⟩

theorem CompatibilityDecision.stamp_of_contentBytes {d d' : CompatibilityDecision}
    (same : d.contentBytes = d'.contentBytes) :
    d.federationGeneration = d'.federationGeneration ∧ d.epoch = d'.epoch := by
  unfold contentBytes at same
  simp only [List.append_assoc] at same
  exact stamp_inj same

theorem MigrationPlan.stamp_of_bytes {p q : MigrationPlan}
    (same : p.bindingBytes ++ p.requirementBytes = q.bindingBytes ++ q.requirementBytes) :
    p.federationGeneration = q.federationGeneration ∧ p.epoch = q.epoch := by
  unfold bindingBytes at same
  simp only [List.append_assoc] at same
  exact stamp_inj same

namespace CompatibilityReason

/-- The code is a listed one and the texts keep to the limits of the wire. -/
structure Storable (r : CompatibilityReason) : Prop where
  code : r.code.value ≤ ErrorCode.maxValue
  subject : r.subject.length ≤ Limits.maxNameBytes
  detail : r.detail.length ≤ Limits.maxDescriptionBytes

theorem deserialize_reads (r : CompatibilityReason) :
    Reads deserialize r.serialize r.Storable r := by
  refine Codes.of_append_nil ?_
  unfold serialize
  simp only [List.append_assoc]
  refine .then_ (u16_reads _) ?_
  refine .step (string_reads _ _) Storable.subject fun subject => ?_
  refine .step (string_reads _ _) Storable.detail fun detail => ?_
  refine .then_ (u8_reads _) (.then_ (u8_reads _) ?_)
  refine .check (fun s => by simpa using s.code) fun code => ?_
  exact .ofOption (RequirementStrength.fromWire_toWire _) (.ofOption
    (CapabilityState.fromWire_toWire _) (.done _ ⟨by simpa using code, subject, detail⟩))

theorem le_length_serialize (r : CompatibilityReason) : 6 ≤ r.serialize.length := by
  simp [serialize, ByteWriter.u16, ByteWriter.u8, length_string]
  omega

end CompatibilityReason

namespace CompatibilityDecision

/-- The reasons can be stored and the identity is the one the content calls for. -/
structure Storable (d : CompatibilityDecision) : Prop where
  reasons : d.reasons.length ≤ Limits.maxPersistedDecisions
  reason : ∀ r ∈ d.reasons, r.Storable
  identified : d.decisionId = d.derivedId

/-- A decision is read back exactly when it can be stored and its reasons keep to the limit of
the place it is read from, and then unchanged. -/
theorem deserializeAt_reads (persistedScale : Bool) (d : CompatibilityDecision) :
    Reads (deserializeAt persistedScale) d.serialize
      (d.Storable ∧ d.reasons.length ≤ reasonLimit persistedScale) d := by
  have within (accepted : d.reasons.length ≤ reasonLimit persistedScale) :
      d.reasons.length ≤ Limits.maxPersistedDecisions :=
    accepted.trans (by cases persistedScale <;> decide)
  refine Codes.of_append_nil ?_
  unfold serialize contentBytes
  simp only [List.append_assoc]
  refine .then_ (strongId_reads _) (.then_ (strongId_reads _) (.then_ (generation_reads _) ?_))
  refine .then_ (strongId_reads _) (.then_ (generation_reads _) (.then_ (generation_reads _) ?_))
  refine .then_ (strongId_reads _) (.then_ (generation_reads _) (.then_ (generation_reads _)
    (.then_ (generation_reads _) ?_)))
  refine .then_ (strongId_reads _) (.then_ (generation_reads _) (.then_ (strongId_reads _)
    (.then_ (strongId_reads _) (.then_ (generation_reads _) ?_))))
  refine .then_ (u8_reads _) (.then_ (u8_reads _) (.then_ (u8_reads _) (.then_ (u8_reads _)
    (.then_ (i64_reads _) ?_))))
  refine .ofOption (CompatibilityOutcome.fromWire_toWire _)
    (.ofOption (PortabilityClass.fromWire_toWire _) (.ofOption (SupportLevel.fromWire_toWire _)
      (.ofOption (EvidenceProvenance.fromWire_toWire _) ?_)))
  refine .step (list_reads (by cases persistedScale <;> decide) d.reasons
    CompatibilityReason.le_length_serialize fun r _ => CompatibilityReason.deserialize_reads r)
    (fun s => ⟨s.2, s.1.reason⟩) fun reasons => ?_
  rw [List.map_id']
  refine .then_ (i64_reads _) (.check (fun s => by simpa using s.1.identified) fun identified => ?_)
  exact .done _ ⟨⟨within reasons.1, reasons.2, by simpa using identified⟩, reasons.1⟩

/-- A decision is read back from a store exactly when it can be stored, and then unchanged. -/
theorem deserialize_reads (d : CompatibilityDecision) :
    Reads deserialize d.serialize d.Storable d := by
  apply (deserializeAt_reads true d).congr rfl
  · constructor
    · exact And.left
    · intro storable
      exact ⟨storable, storable.reasons⟩
  · intro _
    rfl

theorem le_length_serialize (d : CompatibilityDecision) : 8 ≤ d.serialize.length := by
  unfold serialize
  simp only [List.length_append, length_strongId]
  omega

end CompatibilityDecision

namespace MigrationStep

/-- The kind is given and the texts keep to the limits of the wire. -/
structure Storable (s : MigrationStep) : Prop where
  kind : s.kind.length ≤ Limits.maxTokenBytes
  description : s.description.length ≤ Limits.maxDescriptionBytes
  capability : s.requiredCapability.length ≤ Limits.maxNameBytes
  given : s.kind ≠ []

theorem deserialize_reads (s : MigrationStep) : Reads deserialize s.serialize s.Storable s := by
  refine Codes.of_append_nil ?_
  unfold serialize
  simp only [List.append_assoc]
  refine .step (string_reads _ _) Storable.kind fun kind => ?_
  refine .step (string_reads _ _) Storable.description fun description => ?_
  refine .step (string_reads _ _) Storable.capability fun capability => ?_
  refine .check (fun s => by simpa using s.given) fun given => ?_
  exact .done _ ⟨kind, description, capability, by simpa using given⟩

theorem le_length_serialize (s : MigrationStep) : 8 ≤ s.serialize.length := by
  simp [serialize, length_string]
  omega

end MigrationStep

namespace MigrationPlan

/-- Steps and reasons can be stored and the identity is the one the content calls for. -/
structure Storable (p : MigrationPlan) : Prop where
  steps : p.steps.length ≤ Limits.maxRequirementsPerWorkload
  step : ∀ s ∈ p.steps, s.Storable
  reasons : p.refusalReasons.length ≤ Limits.maxRequirementsPerWorkload
  reason : ∀ r ∈ p.refusalReasons, r.Storable
  identified : p.id = p.derivedId

/-- A plan is read back exactly when it can be stored, and then unchanged. -/
theorem deserialize_reads (p : MigrationPlan) : Reads deserialize p.serialize p.Storable p := by
  refine Codes.of_append_nil ?_
  unfold serialize bindingBytes requirementBytes
  simp only [List.append_assoc]
  refine .then_ (strongId_reads _) (.then_ (generation_reads _) ?_)
  refine .then_ (strongId_reads _) (.then_ (generation_reads _) (.then_ (generation_reads _) ?_))
  refine .then_ (strongId_reads _) (.then_ (generation_reads _) (.then_ (generation_reads _) ?_))
  refine .then_ (strongId_reads _) (.then_ (generation_reads _) (.then_ (generation_reads _) ?_))
  refine .then_ (strongId_reads _) (.then_ (generation_reads _) (.then_ (strongId_reads _)
    (.then_ (strongId_reads _) ?_)))
  refine .then_ (u8_reads _) (.then_ (u8_reads _) (.then_ (u8_reads _) ?_))
  refine .then_ (strongId_reads _) (.then_ (generation_reads _) (.then_ (u8_reads _)
    (.then_ (u32_reads _) ?_)))
  refine .ofOption (PortabilityClass.fromWire_toWire _)
    (.ofOption (MigrationOutcome.fromWire_toWire _) (.ofOption (MigrationState.fromWire_toWire _)
      (.ofOption (EvidenceProvenance.fromWire_toWire _) ?_)))
  refine .step (list_reads (by decide) p.steps MigrationStep.le_length_serialize
    fun s _ => MigrationStep.deserialize_reads s) (fun s => ⟨s.steps, s.step⟩) fun steps => ?_
  refine .step (list_reads (by decide) p.refusalReasons CompatibilityReason.le_length_serialize
    fun r _ => CompatibilityReason.deserialize_reads r) (fun s => ⟨s.reasons, s.reason⟩)
    fun reasons => ?_
  rw [List.map_id', List.map_id']
  refine .then_ (i64_reads _) (.check (fun s => by simpa using s.identified) fun identified => ?_)
  exact .done _ ⟨steps.1, steps.2, reasons.1, reasons.2, by simpa using identified⟩

theorem le_length_serialize (p : MigrationPlan) : 8 ≤ p.serialize.length := by
  unfold serialize
  simp only [List.length_append, length_strongId]
  omega

end MigrationPlan

end Haf
