/-
# Reading members back

What the decoder makes of written evidence, descriptors and member records. The
monotonic instant of an observation and the prereleases of the runtime and driver
versions are not written, and the taxonomy identities are derived again.
-/

import Haf.Codec.Capability

namespace Haf

open Sequence Wire ByteReader

/-! ### Evidence -/

namespace EvidenceRecord

/-- The record as it is read back. -/
def persisted (e : EvidenceRecord) : EvidenceRecord := { e with observedMonotonicMarker := 0 }

theorem validate_persisted (e : EvidenceRecord) : e.persisted.validate = e.validate := rfl

theorem of_validate {e : EvidenceRecord} (valid : e.validate = .ok ()) :
    e.adapter.length ≤ Limits.maxNameBytes ∧ e.source.length ≤ Limits.maxDescriptionBytes ∧
      e.adapterVersion.length ≤ Limits.maxTokenBytes := by
  simp only [validate, bind_eq_ok, ensure_eq_ok, Bool.and_eq_true, decide_eq_true_eq] at valid
  obtain ⟨_, _, _, ⟨⟨adapter, source⟩, version⟩, _⟩ := valid
  exact ⟨adapter, source, version⟩

/-- An evidence record is read back exactly when it is valid. -/
theorem deserialize_reads (e : EvidenceRecord) :
    Reads deserialize e.serialize (e.validate = .ok ()) e.persisted := by
  refine Codes.of_append_nil ?_
  unfold serialize
  simp only [List.append_assoc]
  refine .then_ (strongId_reads _) (.then_ (generation_reads _) (.then_ (u8_reads _)
    (.then_ (u8_reads _) ?_)))
  refine .step (string_reads _ _) (fun valid => (of_validate valid).1) fun _ => ?_
  refine .step (string_reads _ _) (fun valid => (of_validate valid).2.1) fun _ => ?_
  refine .step (string_reads _ _) (fun valid => (of_validate valid).2.2) fun _ => ?_
  refine .then_ (strongId_reads _) (.then_ (strongId_reads _) (.then_ (generation_reads _)
    (.then_ (digest_reads _) ?_)))
  refine .then_ (u32_reads _) (.then_ (u32_reads _) (.then_ (u32_reads _) (.then_ (u32_reads _)
    (.then_ (u32_reads _) (.then_ (u32_reads _) ?_)))))
  refine .then_ (i64_reads _) (.then_ (u64_reads _) (.then_ (u64_reads _) (.then_ (boolean_reads _)
    (.then_ (boolean_reads _) ?_))))
  refine .ofOption (EvidenceProvenance.fromWire_toWire _)
    (.ofOption (EvidenceKind.fromWire_toWire _) ?_)
  exact ofResult_reads (fun valid => ⟨(), valid⟩) fun _ valid => .done _ valid

theorem le_length_serialize (e : EvidenceRecord) : 8 ≤ e.serialize.length := by
  unfold serialize
  simp only [List.length_append, length_strongId]
  omega

end EvidenceRecord

/-! ### Descriptors -/

namespace AcceleratorDescriptor

/-- The descriptor as it is read back. -/
def persisted (d : AcceleratorDescriptor) : AcceleratorDescriptor :=
  { d with
    vendor := vendorIdFromToken d.vendorToken
    architecture := architectureIdFromToken d.architectureToken
    runtimeVersion := { d.runtimeVersion with prerelease := [] }
    driverVersion := { d.driverVersion with prerelease := [] }
    evidence := d.evidence.map (·.persisted) }

/-- The capabilities can be stored, the topology references keep to the form of the wire, and
the decoded descriptor is valid. -/
structure Storable (R : Registry) (d : AcceleratorDescriptor) : Prop where
  capabilities : d.capabilities.Storable R
  references : d.topologyReferences.IsChain (· < ·)
  short : ∀ reference ∈ d.topologyReferences, reference.length ≤ Limits.maxNameBytes
  valid : d.persisted.validate = .ok ()

theorem validateEvidence_eq_ok {d : AcceleratorDescriptor} {evidence : List EvidenceRecord} :
    d.validateEvidence evidence = .ok () ↔ ∀ e ∈ evidence,
      e.validate = .ok () ∧ e.subject = d.id ∧ e.provenance = d.provenance := by
  induction evidence with
  | nil => simp [validateEvidence]
  | cons e rest ih =>
      simp only [validateEvidence, bind_eq_ok, ensure_eq_ok, decide_eq_true_eq, ih,
        List.forall_mem_cons]
      constructor
      · rintro ⟨_, valid, _, subject, _, provenance, tail⟩
        exact ⟨⟨valid, subject, provenance⟩, tail⟩
      · rintro ⟨⟨valid, subject, provenance⟩, tail⟩
        exact ⟨(), valid, (), subject, (), provenance, tail⟩

/-- What validation checks of a descriptor. -/
structure Valid (d : AcceleratorDescriptor) : Prop where
  identified : d.id ≠ .nil
  located : d.physicalDevice ≠ .nil
  owned : d.agent ≠ .nil
  booted : d.agentBoot ≠ .nil
  placed : d.node ≠ .nil
  given : ∀ token ∈ d.taxonomyTokens, token ≠ []
  short : ∀ token ∈ d.taxonomyTokens, token.length ≤ Limits.maxTokenBytes
  vendor : d.vendor = vendorIdFromToken d.vendorToken
  architecture : d.architecture = architectureIdFromToken d.architectureToken
  references : d.topologyReferences.length ≤ Limits.maxTopologyReferences
  ordered : d.topologyReferences.IsChain (· ≤ ·)
  capabilities : d.capabilities.validate = .ok ()
  advertised : d.capabilities.records ≠ []
  agrees : d.vendorAgrees = true
  witnesses : d.evidence.length ≤ Limits.maxPersistedEvidence
  evidence : ∀ e ∈ d.evidence,
    e.validate = .ok () ∧ e.subject = d.id ∧ e.provenance = d.provenance
  synthetic : d.provenance = .synthetic → d.supportLevel ≠ .native
  unsupported : d.provenance = .unsupported → d.supportLevel ≠ .native
  native : d.supportLevel = .native → d.evidence ≠ []

theorem validate_eq_ok {d : AcceleratorDescriptor} : d.validate = .ok () ↔ d.Valid := by
  simp only [validate, bind_eq_ok, ensure_eq_ok, Bool.not_eq_true', Bool.or_eq_false_iff,
    Bool.and_eq_true, StrongId.isNil_eq_false, List.all_eq_true, decide_eq_true_eq,
    List.isEmpty_eq_false_iff, Bool.and_eq_false_imp, decide_eq_false_iff_not]
  constructor
  · rintro ⟨_, identified, _, located, _, owned, _, placed, _, given, _, short, _, taxonomy, _,
      references, _, ordered, _, capabilities, _, advertised, _, agrees, _, witnesses, _, evidence,
      _, synthetic, _, unsupported, native⟩
    exact ⟨identified, located, owned.1, owned.2, placed, given, short, taxonomy.1, taxonomy.2,
      references, ordered, capabilities, advertised, agrees, witnesses,
      validateEvidence_eq_ok.mp evidence, synthetic, unsupported, native⟩
  · intro valid
    exact ⟨(), valid.identified, (), valid.located, (), ⟨valid.owned, valid.booted⟩, (),
      valid.placed, (), valid.given, (), valid.short, (), ⟨valid.vendor, valid.architecture⟩, (),
      valid.references, (), valid.ordered, (), valid.capabilities, (), valid.advertised, (),
      valid.agrees, (), valid.witnesses, (), validateEvidence_eq_ok.mpr valid.evidence, (),
      valid.synthetic, (), valid.unsupported, valid.native⟩

/-- Counting the capabilities anew leaves a descriptor valid. -/
theorem Valid.setGeneration {d : AcceleratorDescriptor} (valid : d.Valid)
    (generation : CapabilityGeneration) :
    { d with capabilities := d.capabilities.setGeneration generation }.Valid :=
  { valid with }

theorem readReferences_reads (references : List Bytes) (previous : Option Bytes) :
    Reads (readReferences references.length previous) (references.flatMap ByteWriter.string)
      ((previous.toList ++ references).IsChain (· < ·) ∧
        ∀ reference ∈ references, reference.length ≤ Limits.maxNameBytes) references := by
  induction references generalizing previous with
  | nil =>
      refine .done _ ⟨?_, by simp⟩
      cases previous <;> simp
  | cons reference rest ih =>
      refine Codes.of_append_nil ?_
      rw [List.flatMap_cons, List.append_assoc]
      refine .step (string_reads _ _) (fun all => all.2 _ List.mem_cons_self) fun short => ?_
      refine .check (fun all => ?_) fun above => ?_
      · cases previous with
        | none => rfl
        | some p => simpa using (List.isChain_cons_cons.mp all.1).1
      · have link : (previous.toList ++ reference :: rest).IsChain (· < ·) ↔
            (reference :: rest).IsChain (· < ·) := by
          cases previous with
          | none => rfl
          | some p =>
              have less : p < reference := by simpa using above
              simp [List.isChain_cons_cons, less]
        refine .step (ih (some reference)) (fun all => ⟨link.mp all.1, fun r listed =>
          all.2 r (List.mem_cons_of_mem _ listed)⟩) fun tail => ?_
        exact .done _ ⟨link.mpr tail.1, List.forall_mem_cons.mpr ⟨short, tail.2⟩⟩

/-- A descriptor is read back exactly when it can be stored and its evidence keeps to the limit
of the place it is read from. -/
theorem deserializeAt_reads (persistedScale : Bool) (R : Registry) (d : AcceleratorDescriptor) :
    Reads (deserializeAt persistedScale R) d.serialize
      (d.Storable R ∧ d.evidence.length ≤ evidenceLimit persistedScale) d.persisted := by
  have token {t : Bytes} (listed : t ∈ d.taxonomyTokens)
      (accepted : d.Storable R ∧ d.evidence.length ≤ evidenceLimit persistedScale) :
      t.length ≤ Limits.maxTokenBytes := (validate_eq_ok.mp accepted.1.valid).short t listed
  refine Codes.of_append_nil ?_
  unfold serialize structuralBytes
  simp only [List.append_assoc]
  refine .then_ (strongId_reads _) (.then_ (strongId_reads _) (.then_ (generation_reads _)
    (.then_ (strongId_reads _) (.then_ (strongId_reads _) (.then_ (strongId_reads _) ?_)))))
  refine .step (string_reads _ _) (token (by simp [taxonomyTokens])) fun _ => ?_
  refine .step (string_reads _ _) (token (by simp [taxonomyTokens])) fun _ => ?_
  refine .step (string_reads _ _) (token (by simp [taxonomyTokens])) fun _ => ?_
  refine .step (string_reads _ _) (token (by simp [taxonomyTokens])) fun _ => ?_
  refine .step (string_reads _ _) (token (by simp [taxonomyTokens])) fun _ => ?_
  refine .then_ (u32_reads _) (.then_ (u32_reads _) (.then_ (u32_reads _) (.then_ (u32_reads _)
    (.then_ (u32_reads _) (.then_ (u32_reads _) ?_)))))
  refine .step (CapabilitySet.deserialize_reads R _) (fun accepted => accepted.1.capabilities)
    fun capabilities => ?_
  refine .then_ (u8_reads _) (.then_ (u8_reads _) ?_)
  refine .ofOption (SupportLevel.fromWire_toWire _)
    (.ofOption (EvidenceProvenance.fromWire_toWire _) ?_)
  refine .step (list_reads (by decide) d.evidence EvidenceRecord.le_length_serialize
    fun e _ => EvidenceRecord.deserialize_reads e) (fun accepted => ?_) fun witnesses => ?_
  · have evidence := (validate_eq_ok.mp accepted.1.valid).evidence
    simp only [persisted, List.forall_mem_map, EvidenceRecord.validate_persisted] at evidence
    exact ⟨accepted.2, fun e listed => (evidence e listed).1⟩
  rw [ByteWriter.list, List.append_assoc]
  refine count_reads (by decide) ?_ (fun accepted => (validate_eq_ok.mp accepted.1.valid).references)
    fun _ => ?_
  · rw [List.length_append]
    have enough : d.topologyReferences.length * 4 ≤
        (d.topologyReferences.flatMap ByteWriter.string).length :=
      length_mul_le_flatMap fun s _ => by rw [length_string]; omega
    omega
  refine .step (readReferences_reads _ none) (fun accepted => ⟨accepted.1.references,
    accepted.1.short⟩) fun references => ?_
  refine .then_ (i64_reads _) ?_
  exact ofResult_reads (fun accepted => ⟨(), accepted.1.valid⟩) fun _ valid =>
    .done _ ⟨⟨capabilities, references.1, references.2, valid⟩, witnesses.1⟩

/-- A descriptor is read back from a store exactly when it can be stored. -/
theorem deserialize_reads (R : Registry) (d : AcceleratorDescriptor) :
    Reads (deserialize R) d.serialize (d.Storable R) d.persisted := by
  apply (deserializeAt_reads true R d).congr rfl
  · constructor
    · exact And.left
    · intro storable
      have witnesses := (validate_eq_ok.mp storable.valid).witnesses
      rw [persisted, List.length_map] at witnesses
      exact ⟨storable, witnesses⟩
  · intro _
    rfl

theorem le_length_serialize (d : AcceleratorDescriptor) : 8 ≤ d.serialize.length := by
  unfold serialize structuralBytes
  simp only [List.length_append, length_strongId]
  omega

end AcceleratorDescriptor

/-! ### Member records -/

namespace MemberRecord

/-- The audit trail keeps to its limits and the identities are present. -/
structure Storable (m : MemberRecord) : Prop where
  entries : m.history.length ≤ maxHistoryEntries
  lines : ∀ line ∈ m.history, line.length ≤ Limits.maxDescriptionBytes
  identified : m.accelerator ≠ .nil
  owned : m.agent ≠ .nil

/-- A member record is read back exactly when it can be stored, and then unchanged. -/
theorem deserialize_reads (m : MemberRecord) :
    Reads deserialize m.serialize m.Storable m := by
  refine Codes.of_append_nil ?_
  unfold serialize
  simp only [List.append_assoc]
  refine .then_ (strongId_reads _) (.then_ (generation_reads _) (.then_ (generation_reads _)
    (.then_ (strongId_reads _) (.then_ (strongId_reads _) (.then_ (generation_reads _) ?_)))))
  refine .then_ (strongId_reads _) (.then_ (strongId_reads _) (.then_ (generation_reads _)
    (.then_ (generation_reads _) (.then_ (generation_reads _) (.then_ (generation_reads _) ?_)))))
  refine .then_ (u8_reads _) (.then_ (generation_reads _) (.then_ (u8_reads _)
    (.then_ (u8_reads _) (.then_ (i64_reads _) (.then_ (i64_reads _) ?_)))))
  refine .ofOption (MemberState.fromWire_toWire _) (.ofOption (SupportLevel.fromWire_toWire _)
    (.ofOption (EvidenceProvenance.fromWire_toWire _) ?_))
  refine .step (strings_reads _ _ _) (fun storable => ⟨storable.entries, storable.lines⟩)
    fun trail => ?_
  refine .check (fun storable => ?_) fun present => ?_
  · simp [storable.identified, storable.owned]
  · simp only [Bool.not_eq_true', Bool.or_eq_false_iff, StrongId.isNil_eq_false] at present
    exact .done _ ⟨trail.1, trail.2, present.1, present.2⟩

theorem le_length_serialize (m : MemberRecord) : 8 ≤ m.serialize.length := by
  unfold serialize
  simp only [List.length_append, length_strongId]
  omega

end MemberRecord

end Haf
