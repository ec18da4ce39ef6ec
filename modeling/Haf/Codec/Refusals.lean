/-
# How long refusals are

The messages of refusals quote names and tokens of what was refused. A client reads the
message of an error up to a limit, so each check is accounted for by whether everything it
can say keeps to that limit. The checks on decoded values do, since the readers bound what
is quoted; the others bound a text themselves before they quote it.
-/

import Haf.Codec.Decoded
import Haf.Codec.Reasons
import Haf.Lib.Refusal

namespace Haf

open Refusal Wire ByteReader

/-- A client can read the status from an error response. -/
def Status.Legible (s : Status) : Prop :=
  s.code.value ≤ ErrorCode.maxValue ∧ s.message.length ≤ Limits.maxDescriptionBytes

instance : DecidablePred Status.Legible := fun s => inferInstanceAs (Decidable (_ ∧ _))

/-- Whatever the computation refuses, it says so legibly. -/
abbrev Legibly {α : Type} (x : Result α) : Prop := Refuses x Status.Legible

/-- Whatever the reader refuses, it says so legibly. -/
abbrev ReadsLegibly {α : Type} (r : ByteReader α) : Prop := RefusesInput r Status.Legible

@[simp]
theorem Status.Legible.of_short {code : ErrorCode} {message : Bytes} {bound : Nat}
    [short : Short message bound] (known : code.value ≤ ErrorCode.maxValue)
    (room : bound ≤ Limits.maxDescriptionBytes) : Status.Legible ⟨code, message⟩ :=
  ⟨known, short.length_le.trans room⟩

@[simp]
theorem refuses_ensure_iff {condition : Bool} {s : Status} {P : Status → Prop} :
    Refuses (ensure condition s) P ↔ (condition = false → P s) := by
  cases condition <;> simp [ensure]

/-! ### Primitive fields -/

namespace ByteReader

@[simp]
theorem legibly_raw (size : Nat) : ReadsLegibly (raw size) := by
  apply RefusesInput.of_refuses
  intro input
  rw [raw]
  dsimp only
  split
  · simp
  · simp +decide

@[simp]
theorem legibly_u8 : ReadsLegibly u8 := .of_refuses (by simp [u8])

@[simp]
theorem legibly_u16 : ReadsLegibly u16 := .of_refuses (by simp [u16])

@[simp]
theorem legibly_u32 : ReadsLegibly u32 := .of_refuses (by simp [u32])

@[simp]
theorem legibly_u64 : ReadsLegibly u64 := .of_refuses (by simp [u64])

@[simp]
theorem legibly_i64 : ReadsLegibly i64 := .of_refuses (by simp [i64])

@[simp]
theorem legibly_f64 : ReadsLegibly f64 := .of_refuses (by simp +decide [f64])

@[simp]
theorem legibly_boolean : ReadsLegibly boolean := .of_refuses (by simp +decide [boolean])

@[simp]
theorem legibly_strongId {tag : IdTag} : ReadsLegibly (strongId : ByteReader (StrongId tag)) :=
  .of_refuses (by simp [strongId, id128])

@[simp]
theorem legibly_generation {tag : GenerationTag} :
    ReadsLegibly (generation : ByteReader (Generation tag)) :=
  .of_refuses (by simp [generation])

@[simp]
theorem legibly_digest : ReadsLegibly digest := .of_refuses (by simp [digest])

@[simp]
theorem legibly_string (maxBytes : Nat) : ReadsLegibly (string maxBytes) :=
  .of_refuses (by simp +decide [string])

@[simp]
theorem legibly_remaining : ReadsLegibly remaining := ⟨fun never => nomatch never⟩

@[simp]
theorem legibly_count (maxCount minBytes : Nat) : ReadsLegibly (count maxCount minBytes) :=
  .of_refuses (by simp +decide [count])

@[simp]
theorem legibly_list {α : Type} {item : ByteReader α} (maxCount minBytes : Nat)
    (legible : ReadsLegibly item) : ReadsLegibly (list maxCount minBytes item) :=
  .of_refuses (by simp [list, legible.times])

@[simp]
theorem refuses_run_ofResult_iff {α : Type} {x : Result α} {input : Bytes} :
    Refuses ((ofResult x).run input) Status.Legible ↔ Legibly x := by
  cases x <;> simp [ofResult, Reader.fail]

end ByteReader

/-! ### Tokens and names -/

theorem legibly_canonicalToken {token : Bytes} {maxBytes : Nat}
    (short : token.length ≤ Limits.maxNameBytes) : Legibly (canonicalToken token maxBytes) := by
  have quoted : Short token _ := ⟨short⟩
  simp +decide [canonicalToken]

theorem length_of_canonicalToken {token canonical : Bytes} {maxBytes : Nat}
    (accepted : canonicalToken token maxBytes = .ok canonical) : canonical.length ≤ maxBytes :=
  (isCanonical_of_canonicalToken accepted).bounded

instance CapabilityKey.short_name (key : CapabilityKey) : Short key.name Limits.maxNameBytes where
  length_le := by
    rcases key.canonical with empty | canonical
    · rw [empty]
      exact Nat.zero_le _
    · exact canonical.bounded

theorem legibly_capabilityKeyFromName (R : Registry) {name : Bytes}
    (short : name.length ≤ Limits.maxNameBytes) : Legibly (capabilityKeyFromName R name) := by
  have quoted : Short name _ := ⟨short⟩
  unfold capabilityKeyFromName
  split_ifs
  · exact .ok _
  · simp +decide
  · refine Refuses.bind_iff.mpr ⟨legibly_canonicalToken short, fun canonical accepted => ?_⟩
    have bounded : Short canonical _ := ⟨length_of_canonicalToken accepted⟩
    split_ifs <;> simp +decide

/-! ### Capabilities -/

instance CapabilityKind.short_toText (kind : CapabilityKind) : Short kind.toText 16 :=
  ⟨by cases kind <;> decide +kernel⟩

namespace CapabilityValue

@[simp]
theorem legibly_deserialize : ReadsLegibly deserialize := by
  have payload (kind : CapabilityKind) (input : Bytes) :
      Refuses ((deserializeOfKind kind).run input) Status.Legible := by
    cases kind <;> simp [deserializeOfKind]
  exact .of_refuses (by simp +decide [deserialize, payload])

theorem legibly_canonicalize {value : CapabilityValue} (storable : value.Storable) :
    Legibly value.canonicalize := by
  cases value with
  | enumeration token =>
      have short : token.length ≤ Limits.maxNameBytes := le_trans storable (by decide)
      simp [canonicalize, legibly_canonicalToken short]
  | tokenSet tokens =>
      rw [canonicalize]
      split <;> simp +decide
  | _ => simp +decide [canonicalize]

end CapabilityValue

namespace CapabilityRecord

theorem legible_kindMismatch {name : Bytes} (short : name.length ≤ Limits.maxNameBytes)
    (declared carried : CapabilityKind) : (kindMismatch name declared carried).Legible := by
  have short : Short name _ := ⟨short⟩
  exact .of_short (by decide) (by decide)

@[simp]
theorem legibly_validate (r : CapabilityRecord) : Legibly r.validate := by
  simp +decide [validate, legible_kindMismatch (r.key.short_name.length_le)]

theorem legibly_deserialize (R : Registry) : ReadsLegibly (deserialize R) := by
  refine .of_refuses fun input => .run_step (legibly_string _) (ensures_string _) ?_
  intro name named rest
  have quoted : Short name _ := ⟨named⟩
  simp +decide [legibly_capabilityKeyFromName R named, legible_kindMismatch named]
  intros
  rename_i read _ _ _
  exact CapabilityValue.legibly_canonicalize (CapabilityValue.ensures_deserialize.of_run read)

theorem legibly_canonicalRecord {r : CapabilityRecord} (storable : r.value.Storable) :
    Legibly r.canonicalRecord := by
  simp [canonicalRecord, CapabilityValue.legibly_canonicalize storable]

end CapabilityRecord

theorem mem_of_adjacentDuplicate {names : List Bytes} {name : Bytes}
    (repeated : adjacentDuplicate names = some name) : name ∈ names := by
  induction names with
  | nil => cases repeated
  | cons first rest ih =>
      cases rest with
      | nil => cases repeated
      | cons second rest =>
          rw [adjacentDuplicate] at repeated
          split at repeated
          · cases repeated
            simp
          · exact List.mem_cons_of_mem first (ih repeated)

namespace CapabilitySet

theorem legibly_canonicalRecords {records : List CapabilityRecord}
    (storable : ∀ r ∈ records, r.value.Storable) : Legibly (canonicalRecords records) := by
  have each : Legibly (records.mapM CapabilityRecord.canonicalRecord) :=
    .mapM fun r listed => CapabilityRecord.legibly_canonicalRecord (storable r listed)
  simp +decide only [canonicalRecords, Refuses.bind_iff, refuses_ensure_iff, each]
  refine ⟨fun _ => by decide, fun _ _ => ⟨trivial, fun working _ => ?_⟩⟩
  split
  · rename_i name repeated
    obtain ⟨r, _, rfl⟩ := List.mem_map.mp (mem_of_adjacentDuplicate repeated)
    simp +decide
  · exact .ok _

theorem legibly_canonicalNamespace {name : Bytes} (short : name.length ≤ Limits.maxNameBytes) :
    Legibly (canonicalNamespace name) := by
  refine Refuses.bind_iff.mpr ⟨legibly_canonicalToken short, fun canonical accepted => ?_⟩
  have bounded : Short canonical _ := ⟨length_of_canonicalToken accepted⟩
  simp +decide

@[simp]
theorem legibly_validateRecords (records : List CapabilityRecord) (previous : Option Bytes) :
    Legibly (validateRecords records previous) := by
  induction records generalizing previous with
  | nil => exact .ok ()
  | cons r rest ih => simp +decide [validateRecords, ih]

@[simp]
theorem legibly_validate (set : CapabilitySet) : Legibly set.validate := by
  simp +decide [validate]

theorem legibly_setRecords (set : CapabilitySet) {records : List CapabilityRecord}
    (storable : ∀ r ∈ records, r.value.Storable) : Legibly (set.setRecords records) := by
  rw [setRecords]
  split
  · rename_i refused
    exact Refuses.error_iff.mpr ((legibly_canonicalRecords storable).of_error refused)
  · exact .ok _

theorem legibly_setClosedNamespaces (set : CapabilitySet) {namespaces : List Bytes}
    (short : ∀ name ∈ namespaces, name.length ≤ Limits.maxNameBytes) :
    Legibly (set.setClosedNamespaces namespaces) := by
  have each : Legibly (namespaces.mapM canonicalNamespace) :=
    .mapM fun name listed => legibly_canonicalNamespace (short name listed)
  have canonical : Legibly (canonicalNamespaces namespaces) := by
    simp +decide [canonicalNamespaces, each]
  rw [setClosedNamespaces]
  split
  · rename_i refused
    exact Refuses.error_iff.mpr (canonical.of_error refused)
  · exact .ok _

@[simp]
theorem legibly_deserialize (R : Registry) : ReadsLegibly (deserialize R) := by
  refine .of_refuses fun input => ?_
  simp +decide [deserialize, CapabilityRecord.legibly_deserialize R]
  intro _ _ _ _ _ _ records _ filled namespaces _ closed
  have storable := (ensures_list _ _ (CapabilityRecord.ensures_deserialize R)).of_run filled
  have short := (ensures_strings _ _).of_run closed
  exact ⟨legibly_setRecords _ fun r listed => (storable.2 r listed).2,
    fun _ _ _ => legibly_setClosedNamespaces _ short.2⟩

end CapabilitySet

/-! ### Members -/

namespace EvidenceRecord

@[simp]
theorem legibly_validate (e : EvidenceRecord) : Legibly e.validate := by
  simp +decide [validate]

@[simp]
theorem legibly_deserialize : ReadsLegibly deserialize :=
  .of_refuses (by simp +decide [deserialize])

end EvidenceRecord

namespace AcceleratorDescriptor

@[simp]
theorem legibly_validateEvidence (d : AcceleratorDescriptor) (evidence : List EvidenceRecord) :
    Legibly (d.validateEvidence evidence) := by
  induction evidence with
  | nil => exact .ok ()
  | cons e rest ih => simp +decide [validateEvidence, ih]

@[simp]
theorem legibly_validate (d : AcceleratorDescriptor) : Legibly d.validate := by
  simp +decide [validate]

@[simp]
theorem legibly_readReferences (n : Nat) (previous : Option Bytes) :
    ReadsLegibly (readReferences n previous) := by
  apply RefusesInput.of_refuses
  induction n generalizing previous with
  | zero => simp [readReferences]
  | succ n ih => simp +decide [readReferences, ih]

@[simp]
theorem legibly_deserializeAt (persistedScale : Bool) (R : Registry) :
    ReadsLegibly (deserializeAt persistedScale R) :=
  .of_refuses (by simp +decide [deserializeAt])

end AcceleratorDescriptor

/-! ### Workloads -/

/-- A part of a text is no longer than the text. -/
theorem length_of_mem_splitOnP {separates : UInt8 → Bool} {s part : Bytes}
    (listed : part ∈ s.splitOnP separates) : part.length ≤ s.length := by
  induction s generalizing part with
  | nil =>
      rw [List.splitOnP_nil, List.mem_singleton] at listed
      rw [listed]
  | cons c rest ih =>
      rw [List.splitOnP_cons_eq_if_modifyHead] at listed
      split at listed
      · rcases List.mem_cons.mp listed with rfl | later
        · exact Nat.zero_le _
        · exact (ih later).trans (Nat.le_succ _)
      · cases split : rest.splitOnP separates with
        | nil => exact absurd split (List.splitOnP_ne_nil _ _)
        | cons head tail =>
            rw [split] at listed ih
            rcases List.mem_cons.mp listed with rfl | later
            · exact Nat.succ_le_succ (ih List.mem_cons_self)
            · exact (ih (List.mem_cons_of_mem head later)).trans (Nat.le_succ _)

namespace VersionRange

theorem length_of_mem_tokens {s token : Bytes} (listed : token ∈ tokens s) :
    token.length ≤ s.length := by
  have part := length_of_mem_splitOnP (List.mem_filter.mp listed).1
  rwa [List.length_map] at part

theorem legibly_parseTokens {tokens : List Bytes} (short : ∀ token ∈ tokens, token.length ≤ 8000) :
    Legibly (parseTokens tokens) := by
  induction tokens with
  | nil => exact .ok _
  | cons token rest ih =>
      have quoted : Short token _ := ⟨short token List.mem_cons_self⟩
      have parsed : Legibly (VersionClause.parse token) := by
        rw [VersionClause.parse]
        split
        · exact .ok _
        · split <;> simp +decide
      have ends := ih fun other listed => short other (List.mem_cons_of_mem token listed)
      rw [parseTokens]
      split
      · rename_i refused
        exact Refuses.error_iff.mpr (parsed.of_error refused)
      · split
        · rename_i refused
          exact Refuses.error_iff.mpr (ends.of_error refused)
        · exact .ok _

/-- A range text is quoted clause by clause. -/
theorem legibly_parse {s : Bytes} (short : s.length ≤ 8000) : Legibly (parse s) :=
  legibly_parseTokens fun _ listed => (length_of_mem_tokens listed).trans short

end VersionRange

instance RequirementStrength.short_toText (strength : RequirementStrength) :
    Short strength.toText 4 :=
  ⟨by cases strength <;> decide +kernel⟩

instance RequirementOperator.short_toText (op : RequirementOperator) : Short op.toText 17 :=
  ⟨by cases op <;> decide +kernel⟩

namespace CapabilityRequirement

theorem ensures_deserializeClause : Ensures deserializeClause fun clause =>
    clause.version.prerelease.length ≤ Limits.maxTokenBytes := by
  iterate 4
    apply Ensures.then_
    intro _
  apply Ensures.step (ensures_string _)
  intro prerelease short
  apply Ensures.ofOption
  intro _ _
  exact .pure short

@[simp]
theorem legibly_deserializeClause : ReadsLegibly deserializeClause :=
  .of_refuses (by simp +decide [deserializeClause])

theorem length_operatorText (op : VersionOperator) :
    (VersionClause.operatorText op).length ≤ 2 := by
  cases op <;> decide

theorem length_reparsed {clauses : List VersionClause}
    (short : ∀ clause ∈ clauses, clause.version.prerelease.length ≤ Limits.maxTokenBytes) :
    ((text " ").intercalate (clauses.map reparsedClauseText)).length ≤ 164 * clauses.length := by
  induction clauses with
  | nil => decide
  | cons clause rest ih =>
      have version := SemanticVersion.length_toText (short clause List.mem_cons_self)
      have operator := length_operatorText clause.op
      have tail := ih fun other listed => short other (List.mem_cons_of_mem clause listed)
      have space : (text " ").length = 1 := by decide
      cases rest with
      | nil => simp [List.intercalate, reparsedClauseText]; omega
      | cons second rest =>
          rw [List.map_cons, List.map_cons, List.intercalate_cons_cons]
          simp only [List.map_cons, List.length_append, List.length_cons, reparsedClauseText] at tail ⊢
          omega

/-- The clauses that are parsed again come from the wire, so their text is short. -/
theorem legibly_reparseClauses {clauses : List VersionClause} (few : clauses.length ≤ 32)
    (short : ∀ clause ∈ clauses, clause.version.prerelease.length ≤ Limits.maxTokenBytes) :
    Legibly (reparseClauses clauses) := by
  rw [reparseClauses]
  split
  · exact .ok _
  · apply VersionRange.legibly_parse
    have bounded := length_reparsed short
    omega

variable {q : CapabilityRequirement}

@[simp]
theorem legibly_validate (R : Registry) (q : CapabilityRequirement) : Legibly (q.validate R) := by
  refine Refuses.bind_iff.mpr ⟨by simp +decide, fun _ _ => ?_⟩
  refine Refuses.bind_iff.mpr ⟨by simp +decide, fun _ named => ?_⟩
  have short : q.capability.length ≤ Limits.maxNameBytes := by
    simp only [ensure_eq_ok, Bool.and_eq_true, decide_eq_true_eq] at named
    exact named.2
  have quoted : Short q.capability _ := ⟨short⟩
  have operator : Legibly q.validateOperator := by
    rw [validateOperator]
    split <;> simp +decide
  simp +decide [legibly_capabilityKeyFromName R short, operator]

@[simp]
theorem legibly_deserialize (R : Registry) : ReadsLegibly (deserialize R) := by
  refine .of_refuses fun input => Refuses.run_bind_iff.mpr ⟨by simp, fun _ rest _ => ?_⟩
  refine .run_step (legibly_string _) (ensures_string _) fun capability short rest => ?_
  have quoted : Short capability _ := ⟨short⟩
  simp +decide [legibly_capabilityKeyFromName R short]
  intros
  rename_i read
  have bounded := (ensures_list _ _ ensures_deserializeClause).of_run read
  exact legibly_reparseClauses bounded.1 bounded.2

end CapabilityRequirement

namespace WorkloadProfile

theorem legibly_refuseDuplicate {message : String} {entries : List Bytes} {n : Nat}
    (short : ∀ entry ∈ entries, entry.length ≤ n)
    (room : message.utf8ByteSize + n ≤ Limits.maxDescriptionBytes) :
    Legibly (refuseDuplicate message entries) := by
  rw [refuseDuplicate]
  split
  · rename_i entry repeated
    have listed := mem_ascending.mp (mem_of_adjacentDuplicate repeated)
    have short : Short entry n := ⟨short entry listed⟩
    exact Refuses.error_iff.mpr (.of_short (by decide) room)
  · exact .ok ()

@[simp]
theorem legibly_validateRequirements (R : Registry) (requirements : List CapabilityRequirement) :
    Legibly (validateRequirements R requirements) := by
  induction requirements with
  | nil => exact .ok ()
  | cons q rest ih => simp [validateRequirements, ih]

theorem length_requirementSignature {R : Registry} {requirements : List CapabilityRequirement}
    (valid : validateRequirements R requirements = .ok ()) :
    ∀ signature ∈ requirements.map requirementSignature, signature.length ≤ 300 := by
  intro signature listed
  obtain ⟨q, inside, rfl⟩ := List.mem_map.mp listed
  have named : Short q.capability _ := ⟨CapabilityRequirement.length_capability
    (validateRequirements_eq_ok.mp valid q inside)⟩
  rw [requirementSignature]
  exact Short.within (by decide)

theorem legibly_validate (R : Registry) {w : WorkloadProfile}
    (tags : ∀ tag ∈ w.requiredPolicyTags, tag.length ≤ Limits.maxTokenBytes) :
    Legibly (w.validate R) := by
  have tagged {message : String} (room : message.utf8ByteSize + 128 ≤ 8192) :
      Legibly (refuseDuplicate message w.requiredPolicyTags) := legibly_refuseDuplicate tags room
  have signed {message : String} (room : message.utf8ByteSize + 300 ≤ 8192)
      (valid : validateRequirements R w.requirements = .ok ()) :
      Legibly (refuseDuplicate message (w.requirements.map requirementSignature)) :=
    legibly_refuseDuplicate (length_requirementSignature valid) room
  simp +decide +contextual [validate, tagged, signed]

@[simp]
theorem legibly_deserialize (R : Registry) : ReadsLegibly (deserialize R) := by
  apply RefusesInput.of_refuses
  simp +decide [deserialize, -Bool.forall_bool]
  intros
  rename_i read
  exact legibly_validate R ((ensures_strings _ _).of_run read).2

end WorkloadProfile

end Haf
