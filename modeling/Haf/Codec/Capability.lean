/-
# Reading capabilities back

What the decoder makes of written capability values, records and sets. A set is
written in canonical form, so that it is read back as it is or not at all: the
process must list its keys, and the texts must keep to the limits of the wire.
-/

import Haf.Federation.Snapshot

namespace Haf

open Sequence Wire ByteReader

@[simp]
theorem length_strongId {tag : IdTag} (id : StrongId tag) :
    (ByteWriter.strongId id).length = 16 := id.raw.length_eq

/-! ### Values -/

namespace CapabilityValue

/-- The value keeps to the limits of the wire. -/
def Storable : CapabilityValue → Prop
  | .presence _ => True
  | .version value => value.prerelease.length ≤ Limits.maxTokenBytes
  | .integer _ => True
  | .scalar value => value.isFinite = true
  | .enumeration token => token.length ≤ Limits.maxTokenBytes
  | .tokenSet tokens =>
      tokens.length ≤ Limits.maxTokensPerCapability ∧
        ∀ token ∈ tokens, token.length ≤ Limits.maxTokenBytes

theorem deserializeOfKind_reads (value : CapabilityValue) :
    Reads (deserializeOfKind value.kind) value.payload value.Storable value := by
  cases value with
  | presence flag => exact Codes.map CapabilityValue.presence (boolean_reads flag)
  | version value =>
      refine Codes.of_append_nil ?_
      simp only [payload, List.append_assoc]
      refine .then_ (u32_reads _) (.then_ (u32_reads _) (.then_ (u32_reads _) ?_))
      exact .step (string_reads _ _) id fun short => .done _ short
  | integer value => exact Codes.map CapabilityValue.integer (i64_reads value)
  | scalar value => exact Codes.map CapabilityValue.scalar (f64_reads value)
  | enumeration token => exact Codes.map CapabilityValue.enumeration (string_reads _ token)
  | tokenSet tokens => exact Codes.map CapabilityValue.tokenSet (strings_reads _ _ tokens)

/-- A value is read back exactly when it keeps to the limits of the wire. -/
theorem deserialize_reads (value : CapabilityValue) :
    Reads deserialize value.serialize value.Storable value :=
  .then_ (u8_reads _) (.ofOption (CapabilityKind.fromWire_toWire _)
    (deserializeOfKind_reads value))

end CapabilityValue

/-! ### Records -/

namespace CapabilityRecord

/-- The process lists the key and the value keeps to the limits of the wire. -/
def Storable (R : Registry) (r : CapabilityRecord) : Prop :=
  R.lists r.key.name = true ∧ r.value.Storable

/-- What validation says about a record. -/
theorem of_validate {r : CapabilityRecord} (valid : r.validate = .ok ()) :
    r.key.valid = true ∧ r.value.kind = r.key.kind ∧ r.unit.length ≤ Limits.maxTokenBytes := by
  simp only [validate, bind_eq_ok, ensure_eq_ok] at valid
  obtain ⟨_, resolved, _, kinds, _, _, bounded⟩ := valid
  exact ⟨resolved, by simpa using kinds, by simpa using bounded⟩

/-- A canonical record is read back exactly when it can be stored. -/
theorem deserialize_reads (R : Registry) {r : CapabilityRecord}
    (canonical : r.canonicalRecord = .ok r) :
    Reads (deserialize R) r.serialize (r.Storable R) r := by
  obtain ⟨value, fixed, same, valid⟩ := canonicalRecord_eq_ok_iff.mp canonical
  have fixed : r.value.canonicalize = .ok r.value := by
    rw [fixed, same]
  obtain ⟨resolved, kinds, bounded⟩ := of_validate valid
  have named : r.key.name.length ≤ Limits.maxNameBytes :=
    (r.key.canonical.resolve_left (by simpa [CapabilityKey.valid] using resolved)).bounded
  have keyed := capabilityKeyFromName_name R resolved
  refine Codes.of_append_nil ?_
  simp only [serialize, List.append_assoc]
  refine .step (string_reads _ _) (fun _ => named) fun _ => .then_ (u8_reads _) ?_
  refine .ofOption (CapabilityState.fromWire_toWire _) ?_
  refine .step (string_reads _ _) (fun _ => bounded) fun _ => ?_
  refine ofResult_reads (fun storable => ?_) fun key found => ?_
  · rcases keyed with ⟨found, _⟩ | ⟨_, unlisted⟩
    · exact ⟨r.key, found⟩
    · exact absurd storable.1 (by simp [unlisted])
  · -- the name of a record resolves to its own key or not at all
    obtain ⟨rfl, listed⟩ : key = r.key ∧ R.lists r.key.name = true := by
      rcases keyed with ⟨found', listed⟩ | ⟨⟨e, refused⟩, _⟩
      · rw [found'] at found
        cases found
        exact ⟨rfl, listed⟩
      · rw [refused] at found
        cases found
    refine .step (CapabilityValue.deserialize_reads r.value) And.right fun storable => ?_
    refine .check (fun _ => by simpa using kinds) fun _ => ?_
    refine ofResult_reads (fun _ => ⟨_, fixed⟩) fun value found => ?_
    rw [fixed] at found
    cases found
    exact .done _ ⟨listed, storable⟩

theorem le_length_serialize (r : CapabilityRecord) : 8 ≤ r.serialize.length := by
  simp only [serialize, List.length_append, length_string]
  omega

end CapabilityRecord

/-! ### Sets -/

namespace CapabilitySet

/-- The set was filled, the process lists its keys and its values keep to the limits of the
wire. -/
def Storable (R : Registry) (set : CapabilitySet) : Prop :=
  set.id = capabilitySetIdentity set.records set.closedNamespaces ∧
    ∀ r ∈ set.records, r.Storable R

theorem canonicalRecord_of_mem (set : CapabilitySet) {r : CapabilityRecord}
    (listed : r ∈ set.records) : r.canonicalRecord = .ok r := by
  obtain ⟨_, working, mapped, same, _⟩ := canonicalRecords_eq_ok_iff.mp set.records_canonical
  rw [same] at listed
  obtain ⟨source, _, canonical⟩ := exists_of_mem_mapM mapped (mem_sortOn.mp listed)
  exact CapabilityRecord.canonicalRecord_idem canonical

theorem length_records_le (set : CapabilitySet) :
    set.records.length ≤ Limits.maxCapabilitiesPerSet :=
  (canonicalRecords_eq_ok_iff.mp set.records_canonical).1

theorem namespaces_bounded (set : CapabilitySet) :
    set.closedNamespaces.length ≤ Limits.maxCapabilitiesPerSet ∧
      ∀ name ∈ set.closedNamespaces, name.length ≤ Limits.maxNameBytes := by
  obtain ⟨fits, working, mapped, same⟩ := canonicalNamespaces_eq_ok_iff.mp set.namespaces_canonical
  refine ⟨fits, fun name listed => ?_⟩
  rw [same] at listed
  obtain ⟨source, _, canonical⟩ := exists_of_mem_mapM mapped (sortUnique_subset listed)
  simp only [canonicalNamespace, bind_eq_ok, ensure_eq_ok, pure_eq_ok] at canonical
  obtain ⟨token, found, _, _, rfl⟩ := canonical
  exact (isCanonical_of_canonicalToken found).bounded

@[ext]
theorem ext {set other : CapabilitySet} (id : set.id = other.id)
    (generation : set.generation = other.generation) (records : set.records = other.records)
    (namespaces : set.closedNamespaces = other.closedNamespaces) : set = other := by
  cases set
  cases other
  simp_all

theorem setRecords_eq_ok (set : CapabilitySet) {records : List CapabilityRecord}
    (canonical : canonicalRecords records = .ok records) :
    ∃ out, set.setRecords records = .ok out ∧ out.records = records ∧
      out.closedNamespaces = set.closedNamespaces := by
  rw [setRecords]
  split
  · rename_i e refused
    rw [canonical] at refused
    cases refused
  · rename_i working accepted
    rw [canonical] at accepted
    cases accepted
    exact ⟨_, rfl, rfl, rfl⟩

theorem setClosedNamespaces_eq_ok (set : CapabilitySet) {namespaces : List Bytes}
    (canonical : canonicalNamespaces namespaces = .ok namespaces) :
    ∃ out, set.setClosedNamespaces namespaces = .ok out ∧ out.records = set.records ∧
      out.closedNamespaces = namespaces ∧
      out.id = capabilitySetIdentity set.records namespaces := by
  rw [setClosedNamespaces]
  split
  · rename_i e refused
    rw [canonical] at refused
    cases refused
  · rename_i working accepted
    rw [canonical] at accepted
    cases accepted
    exact ⟨_, rfl, rfl, rfl, rfl⟩

/-- A set is read back exactly when it can be stored, and then unchanged. -/
theorem deserialize_reads (R : Registry) (set : CapabilitySet) :
    Reads (deserialize R) set.serialize (set.Storable R) set := by
  obtain ⟨bounded, short⟩ := set.namespaces_bounded
  obtain ⟨filled, refilled, records, namespaces⟩ :=
    setRecords_eq_ok {} set.records_canonical
  obtain ⟨closed, reclosed, records', namespaces', id⟩ :=
    setClosedNamespaces_eq_ok filled set.namespaces_canonical
  refine Codes.of_append_nil ?_
  simp only [serialize, List.append_assoc]
  refine .then_ (strongId_reads _) (.then_ (generation_reads _) ?_)
  refine .step (list_reads (by decide) set.records CapabilityRecord.le_length_serialize
    fun r listed => CapabilityRecord.deserialize_reads R (set.canonicalRecord_of_mem listed))
    (fun storable => ⟨set.length_records_le, storable.2⟩) fun items => ?_
  refine .step (strings_reads _ _ _) (fun _ => ⟨bounded, short⟩) fun _ => ?_
  rw [List.map_id']
  refine ofResult_reads (fun _ => ⟨_, refilled⟩) fun set' found => ?_
  rw [refilled] at found
  cases found
  refine ofResult_reads (fun _ => ⟨_, reclosed⟩) fun set' found => ?_
  rw [reclosed] at found
  cases found
  rw [records] at id records'
  refine .check (fun storable => by simp [id, storable.1]) fun same => ?_
  have same : closed.id = set.id := by simpa using same
  have whole : closed.setGeneration set.generation = set := by
    ext1
    · exact same
    · rfl
    · exact records'
    · exact namespaces'
  rw [whole]
  exact .done _ ⟨same.symm.trans id, items.2⟩

end CapabilitySet

end Haf
