/-
# Capability values, records and sets

A capability set is a canonical, content-addressed collection of advertised
capabilities together with the namespaces the advertiser speaks for. Records are
canonicalized, validated, sorted and free of duplicates, and the identity is
derived from the content: a set carries these facts with it.
-/

import Haf.Model.CapabilityKey

namespace Haf

open Sequence

inductive CapabilityState
  | unknown | supported | unsupported | degraded
  deriving DecidableEq

namespace CapabilityState

def toText : CapabilityState → Bytes
  | .unknown => text "UNKNOWN"
  | .supported => text "SUPPORTED"
  | .unsupported => text "UNSUPPORTED"
  | .degraded => text "DEGRADED"

def toWire : CapabilityState → UInt8
  | .unknown => 0
  | .supported => 1
  | .unsupported => 2
  | .degraded => 3

def fromWire : UInt8 → Option CapabilityState
  | 0 => some .unknown
  | 1 => some .supported
  | 2 => some .unsupported
  | 3 => some .degraded
  | _ => none

@[simp]
theorem fromWire_toWire (state : CapabilityState) : fromWire state.toWire = some state := by
  cases state <;> rfl

end CapabilityState

/-! ### Values -/

/-- Canonical capability payload, one form per kind. -/
inductive CapabilityValue
  | presence (flag : Bool)
  | version (value : SemanticVersion)
  | integer (value : Int64)
  | scalar (value : Double)
  | enumeration (token : Bytes)
  | tokenSet (tokens : List Bytes)
  deriving DecidableEq

/-- Tokens of a set in canonical form: canonicalized, sorted and deduplicated. -/
def canonicalTokens (tokens : List Bytes) (maxTokens : Nat) : Option (List Bytes) :=
  if maxTokens < tokens.length then none
  else
    match tokens.mapM (canonicalToken · Limits.maxTokenBytes) with
    | .error _ => none
    | .ok normalized => some (sortUnique normalized)

namespace CapabilityValue

instance : Inhabited CapabilityValue := ⟨.presence false⟩

def kind : CapabilityValue → CapabilityKind
  | .presence _ => .presence
  | .version _ => .version
  | .integer _ => .integer
  | .scalar _ => .scalar
  | .enumeration _ => .enumeration
  | .tokenSet _ => .tokenSet

/-! The accessors return the default of the member when the kind is another one. -/

def versionValue : CapabilityValue → SemanticVersion
  | .version value => value
  | _ => {}

def integerValue : CapabilityValue → Int64
  | .integer value => value
  | _ => 0

def token : CapabilityValue → Bytes
  | .enumeration token => token
  | _ => []

def tokens : CapabilityValue → List Bytes
  | .tokenSet tokens => tokens
  | _ => []

/-- Canonicalize the payload. -/
def canonicalize : CapabilityValue → Result CapabilityValue
  | .presence flag => .ok (.presence flag)
  | .version value =>
      if 100000 < value.major ∨ 100000 < value.minor ∨ 100000 < value.patch then
        .error (.failure .impossibleQuantity "capability version component is out of range")
      else .ok (.version value)
  | .integer value => .ok (.integer value)
  | .scalar value =>
      if !value.isFinite then
        .error (.failure .nonFiniteQuantity "capability scalar is not finite")
      else .ok (.scalar (if value.eq .zero then .zero else value))
  | .enumeration token => do
      let token ← canonicalToken token Limits.maxTokenBytes
      pure (.enumeration token)
  | .tokenSet tokens =>
      match canonicalTokens tokens Limits.maxTokensPerCapability with
      | none =>
          .error (.failure .malformedData
            "capability token set contains a malformed or surplus token")
      | some tokens => .ok (.tokenSet tokens)

/-- The value of the given kind that nothing has been said about. -/
def ofKind : CapabilityKind → CapabilityValue
  | .presence => .presence false
  | .version => .version {}
  | .integer => .integer 0
  | .scalar => .scalar .zero
  | .enumeration => .enumeration []
  | .tokenSet => .tokenSet []

/-- The sign of a numeral, and what follows it. -/
def splitSign : Bytes → Int × Bytes
  | 43 :: body => (1, body)
  | 45 :: body => (-1, body)
  | body => (1, body)

/-- At most 18 decimal digits after an optional sign, so that the number fits 64 bits. -/
def parseInteger (payload : Bytes) : Option Int64 :=
  let (sign, body) := splitSign payload
  if body.isEmpty || 18 < body.length || !body.all isDigit then none
  else some (Int64.ofInt (sign * SemanticVersion.digitsValue body))

/-- The tokens between the commas of a text. -/
def splitTokens (payload : Bytes) : List Bytes := payload.splitOn 44

/-- Read a value of the given kind from text. The conversion of decimal text to a quantity,
where it takes in the whole text, is that of the C library. -/
def parse (strtod : Bytes → Option Double) (kind : CapabilityKind) (payload : Bytes) :
    Result CapabilityValue :=
  match kind with
  | .presence => .ok (.presence true)
  | .version =>
      match SemanticVersion.parse payload with
      | some value => .ok (.version value)
      | none => .error ⟨.malformedData,
          text "capability version payload is not a semantic version: '" ++ payload ++ text "'"⟩
  | .integer =>
      match parseInteger payload with
      | some value => .ok (.integer value)
      | none => .error ⟨.malformedData,
          text "capability integer payload is malformed: '" ++ payload ++ text "'"⟩
  | .scalar =>
      if payload.isEmpty || 64 < payload.length then
        .error (.failure .malformedData "capability scalar payload is malformed")
      else
        match strtod payload with
        | none => .error ⟨.malformedData,
            text "capability scalar payload is malformed: '" ++ payload ++ text "'"⟩
        | some value =>
            if value.isFinite then .ok (.scalar value)
            else .error (.failure .nonFiniteQuantity "capability scalar payload is not finite")
  | .enumeration => do
      let token ← canonicalToken payload Limits.maxTokenBytes
      pure (.enumeration token)
  | .tokenSet =>
      let tokens := splitTokens payload
      if Limits.maxTokensPerCapability < tokens.length then
        .error (.failure .boundsExceeded "capability token set exceeds the permitted size")
      else
        match canonicalTokens tokens Limits.maxTokensPerCapability with
        | none =>
            .error (.failure .malformedData "capability token set contains a malformed token")
        | some tokens => .ok (.tokenSet tokens)

/-- Deterministic canonical rendering. -/
def render : CapabilityValue → Bytes
  | .presence flag => if flag then text "present" else text "absent"
  | .version value => value.toText
  | .integer value => signedDecimal value.toInt
  | .scalar value => value.render
  | .enumeration token => token
  | .tokenSet tokens => (text ",").intercalate tokens

/-- Structural equality over canonicalized payloads. -/
def equals : CapabilityValue → CapabilityValue → Bool
  | .presence a, .presence b => a == b
  | .version a, .version b => a.equal b
  | .integer a, .integer b => a == b
  | .scalar a, .scalar b => a.eq b
  | .enumeration a, .enumeration b => a == b
  | .tokenSet a, .tokenSet b => a == b
  | _, _ => false

/-- The payload of a value as written, without its kind tag. -/
def payload : CapabilityValue → Bytes
  | .presence flag => ByteWriter.boolean flag
  | .version value =>
      ByteWriter.u32 value.major ++ ByteWriter.u32 value.minor ++ ByteWriter.u32 value.patch ++
        ByteWriter.string value.prerelease
  | .integer value => ByteWriter.i64 value
  | .scalar value => ByteWriter.f64 value
  | .enumeration token => ByteWriter.string token
  | .tokenSet tokens => ByteWriter.list ByteWriter.string tokens

def serialize (value : CapabilityValue) : Bytes :=
  ByteWriter.u8 value.kind.toWire ++ value.payload

def deserializeOfKind : CapabilityKind → ByteReader CapabilityValue
  | .presence => do
      let flag ← ByteReader.boolean
      pure (.presence flag)
  | .version => do
      let major ← ByteReader.u32
      let minor ← ByteReader.u32
      let patch ← ByteReader.u32
      let prerelease ← ByteReader.string Limits.maxTokenBytes
      pure (.version { major, minor, patch, prerelease })
  | .integer => do
      let value ← ByteReader.i64
      pure (.integer value)
  | .scalar => do
      let value ← ByteReader.f64
      pure (.scalar value)
  | .enumeration => do
      let token ← ByteReader.string Limits.maxTokenBytes
      pure (.enumeration token)
  | .tokenSet => do
      let tokens ← ByteReader.list Limits.maxTokensPerCapability 4
        (ByteReader.string Limits.maxTokenBytes)
      pure (.tokenSet tokens)

def deserialize : ByteReader CapabilityValue := do
  let rawKind ← ByteReader.u8
  let kind ← Wire.Reader.ofOption
    (.failure .malformedData "capability value kind is outside the declared domain")
    (CapabilityKind.fromWire rawKind)
  deserializeOfKind kind

end CapabilityValue

/-! ### Records -/

/-- A single advertised capability. -/
structure CapabilityRecord where
  key : CapabilityKey := {}
  state : CapabilityState := .unknown
  value : CapabilityValue := .presence false
  unit : Bytes := []
  deriving DecidableEq

namespace CapabilityRecord

/-- The refusal of a payload whose kind is not the one its key declares. -/
def kindMismatch (name : Bytes) (declared carried : CapabilityKind) : Status :=
  ⟨.capabilityMismatch, text "capability '" ++ name ++ text "' declares kind " ++
    declared.toText ++ text " but carries a " ++ carried.toText ++ text " payload"⟩

def validate (r : CapabilityRecord) : Result Unit := do
  ensure r.key.valid
    (.failure .unknownCapability "capability record holds an unresolved key")
  ensure (r.value.kind = r.key.kind) (kindMismatch r.key.name r.key.kind r.value.kind)
  ensure (!((r.state = .supported || r.state = .degraded) &&
      (r.value.kind ≠ .presence && r.value.render.isEmpty)))
    ⟨.malformedData,
      text "capability '" ++ r.key.name ++ text "' claims support with an empty payload"⟩
  ensure (r.unit.length ≤ Limits.maxTokenBytes)
    (.failure .boundsExceeded "capability unit exceeds the permitted length")

def serialize (r : CapabilityRecord) : Bytes :=
  ByteWriter.string r.key.name ++ ByteWriter.u8 r.state.toWire ++ ByteWriter.string r.unit ++
    r.value.serialize

def deserialize (R : Registry) : ByteReader CapabilityRecord := do
  let name ← ByteReader.string Limits.maxNameBytes
  let rawState ← ByteReader.u8
  let state ← Wire.Reader.ofOption
    ⟨.malformedData, text "capability state is outside the declared domain for '" ++ name ++ text "'"⟩
    (CapabilityState.fromWire rawState)
  let unit ← ByteReader.string Limits.maxTokenBytes
  let key ← ByteReader.ofResult (capabilityKeyFromName R name)
  let value ← CapabilityValue.deserialize
  Wire.Reader.require (value.kind = key.kind) (kindMismatch name key.kind value.kind)
  let value ← ByteReader.ofResult value.canonicalize
  pure { key, state, value, unit }

/-- Canonicalize the payload and validate the record, as every set does on entry. -/
def canonicalRecord (r : CapabilityRecord) : Result CapabilityRecord := do
  let value ← r.value.canonicalize
  validate { r with value }
  pure { r with value }

end CapabilityRecord

/-! ### Sets -/

/-- The first name that occurs twice in a row. -/
def adjacentDuplicate : List Bytes → Option Bytes
  | a :: b :: rest => if b = a then some b else adjacentDuplicate (b :: rest)
  | _ => none

/-- Records as a set keeps them: canonical, valid, sorted by name, without duplicates. -/
def canonicalRecords (records : List CapabilityRecord) : Result (List CapabilityRecord) := do
  ensure (records.length ≤ Limits.maxCapabilitiesPerSet)
    (.failure .boundsExceeded "capability set exceeds the permitted number of records")
  let working ← records.mapM CapabilityRecord.canonicalRecord
  let sorted := sortOn (·.key.name) working
  match adjacentDuplicate (sorted.map (·.key.name)) with
  | some name =>
      .error ⟨.duplicateIdentity, text "capability set contains duplicate key '" ++ name ++ text "'"⟩
  | none => pure sorted

/-- A closed namespace is a single token. -/
def canonicalNamespace (name : Bytes) : Result Bytes := do
  let canonical ← canonicalToken name Limits.maxNameBytes
  ensure (!canonical.contains 46)
    ⟨.invalidArgument, text "closed namespace must be a single token: '" ++ canonical ++ text "'"⟩
  pure canonical

/-- Closed namespaces as a set keeps them: canonical, sorted, without duplicates. -/
def canonicalNamespaces (namespaces : List Bytes) : Result (List Bytes) := do
  ensure (namespaces.length ≤ Limits.maxCapabilitiesPerSet)
    (.failure .boundsExceeded "closed namespace list exceeds the permitted size")
  let working ← namespaces.mapM canonicalNamespace
  pure (sortUnique working)

/-- The identity of a set, derived from the digest of its canonical encoding. -/
def capabilitySetIdentity (records : List CapabilityRecord) (namespaces : List Bytes) :
    CapabilitySetId :=
  ⟨deriveIdentity (text "haf.capability-set")
    (toHex (Sha256.hash (ByteWriter.list CapabilityRecord.serialize records ++
      ByteWriter.list ByteWriter.string namespaces)).bytes)⟩

/-! ### Canonical forms are fixed points -/

/-- What canonical tokens amount to. -/
theorem canonicalTokens_eq_some_iff {tokens out : List Bytes} {maxTokens : Nat} :
    canonicalTokens tokens maxTokens = some out ↔ tokens.length ≤ maxTokens ∧
      ∃ working, tokens.mapM (canonicalToken · Limits.maxTokenBytes) = .ok working ∧
        sortUnique working = out := by
  rw [canonicalTokens]
  by_cases surplus : maxTokens < tokens.length
  · simp [surplus]
  · cases normalized : tokens.mapM (canonicalToken · Limits.maxTokenBytes) <;>
      simp [surplus, Nat.not_lt.mp surplus]

theorem canonicalTokens_idem {tokens out : List Bytes} {maxTokens : Nat}
    (accepted : canonicalTokens tokens maxTokens = some out) :
    canonicalTokens out maxTokens = some out := by
  obtain ⟨fits, working, normalized, rfl⟩ := canonicalTokens_eq_some_iff.mp accepted
  have length := length_of_mapM normalized
  have shorter := length_sortUnique_le working
  refine canonicalTokens_eq_some_iff.mpr ⟨by omega, _, mapM_eq_self fun token listed => ?_,
    sortUnique_of_pairwise (pairwise_sortUnique working)⟩
  obtain ⟨source, _, canonical⟩ := exists_of_mem_mapM normalized (sortUnique_subset listed)
  exact (isCanonical_of_canonicalToken canonical).canonicalToken_eq

namespace CapabilityValue

/-- What canonicalization makes of a value, kind by kind. -/
inductive Canonicalizes : CapabilityValue → CapabilityValue → Prop
  | presence (flag : Bool) : Canonicalizes (.presence flag) (.presence flag)
  | version {v : SemanticVersion}
      (range : ¬ (100000 < v.major ∨ 100000 < v.minor ∨ 100000 < v.patch)) :
      Canonicalizes (.version v) (.version v)
  | integer (n : Int64) : Canonicalizes (.integer n) (.integer n)
  | scalar {d : Double} (finite : d.isFinite = true) :
      Canonicalizes (.scalar d) (.scalar (if d.eq .zero then .zero else d))
  | enumeration {given token : Bytes}
      (canonical : canonicalToken given Limits.maxTokenBytes = .ok token) :
      Canonicalizes (.enumeration given) (.enumeration token)
  | tokenSet {given tokens : List Bytes}
      (canonical : canonicalTokens given Limits.maxTokensPerCapability = some tokens) :
      Canonicalizes (.tokenSet given) (.tokenSet tokens)

theorem canonicalize_eq_ok_iff {value out : CapabilityValue} :
    value.canonicalize = .ok out ↔ Canonicalizes value out := by
  constructor
  · intro accepted
    cases value with
    | presence flag =>
        cases accepted
        exact .presence flag
    | integer n =>
        cases accepted
        exact .integer n
    | enumeration token =>
        obtain ⟨token', canonical, same⟩ := bind_eq_ok.mp accepted
        cases pure_eq_ok.mp same
        exact .enumeration canonical
    | version v | scalar v | tokenSet v =>
        rw [canonicalize] at accepted
        split at accepted
        · cases accepted
        · cases accepted
          constructor
          simp_all
  · intro canonical
    cases canonical with
    | enumeration canonical =>
        rw [canonicalize, canonical]
        rfl
    | _ => simp [canonicalize, *]

theorem canonicalize_idem {value out : CapabilityValue}
    (accepted : value.canonicalize = .ok out) : out.canonicalize = .ok out := by
  rw [canonicalize_eq_ok_iff] at accepted ⊢
  cases accepted with
  | presence flag => exact .presence flag
  | version range => exact .version range
  | integer n => exact .integer n
  | scalar finite =>
      rename_i d
      by_cases null : d.eq .zero = true
      · rw [if_pos null]
        exact .scalar rfl
      · have fixed := Canonicalizes.scalar finite
        rwa [if_neg null] at fixed ⊢
  | enumeration canonical =>
      exact .enumeration (isCanonical_of_canonicalToken canonical).canonicalToken_eq
  | tokenSet canonical => exact .tokenSet (canonicalTokens_idem canonical)

end CapabilityValue

theorem CapabilityRecord.canonicalRecord_eq_ok_iff {r out : CapabilityRecord} :
    r.canonicalRecord = .ok out ↔
      ∃ value, r.value.canonicalize = .ok value ∧ out = { r with value } ∧
        out.validate = .ok () := by
  simp only [canonicalRecord, bind_eq_ok, pure_eq_ok]
  constructor
  · rintro ⟨value, canonical, _, valid, rfl⟩
    exact ⟨value, canonical, rfl, valid⟩
  · rintro ⟨value, canonical, rfl, valid⟩
    exact ⟨value, canonical, (), valid, rfl⟩

theorem CapabilityRecord.canonicalRecord_idem {r out : CapabilityRecord}
    (accepted : r.canonicalRecord = .ok out) : out.canonicalRecord = .ok out := by
  obtain ⟨value, canonical, rfl, valid⟩ := canonicalRecord_eq_ok_iff.mp accepted
  exact canonicalRecord_eq_ok_iff.mpr
    ⟨value, CapabilityValue.canonicalize_idem canonical, rfl, valid⟩

/-- What a canonical record list amounts to. -/
theorem canonicalRecords_eq_ok_iff {records out : List CapabilityRecord} :
    canonicalRecords records = .ok out ↔
      records.length ≤ Limits.maxCapabilitiesPerSet ∧
        ∃ working, records.mapM CapabilityRecord.canonicalRecord = .ok working ∧
          out = sortOn (·.key.name) working ∧
          adjacentDuplicate (out.map (·.key.name)) = none := by
  simp only [canonicalRecords, bind_eq_ok, ensure_eq_ok, decide_eq_true_eq]
  constructor
  · rintro ⟨_, fits, working, mapped, accepted⟩
    split at accepted
    · cases accepted
    · rename_i clear
      cases pure_eq_ok.mp accepted
      exact ⟨fits, working, mapped, rfl, clear⟩
  · rintro ⟨fits, working, mapped, rfl, clear⟩
    refine ⟨(), fits, working, mapped, ?_⟩
    rw [clear]
    rfl

theorem canonicalRecords_idem {records out : List CapabilityRecord}
    (accepted : canonicalRecords records = .ok out) : canonicalRecords out = .ok out := by
  obtain ⟨fits, working, mapped, rfl, clear⟩ := canonicalRecords_eq_ok_iff.mp accepted
  refine canonicalRecords_eq_ok_iff.mpr ⟨?_, sortOn (·.key.name) working, ?_, ?_, clear⟩
  · rw [length_sortOn, length_of_mapM mapped]
    exact fits
  · apply mapM_eq_self
    intro record listed
    obtain ⟨source, _, canonical⟩ := exists_of_mem_mapM mapped (mem_sortOn.mp listed)
    exact CapabilityRecord.canonicalRecord_idem canonical
  · exact (sortOn_of_pairwise (pairwise_sortOn _ working)).symm

theorem canonicalNamespace_idem {name out : Bytes} (accepted : canonicalNamespace name = .ok out) :
    canonicalNamespace out = .ok out := by
  simp only [canonicalNamespace, bind_eq_ok, ensure_eq_ok, pure_eq_ok] at accepted ⊢
  obtain ⟨canonical, found, _, single, rfl⟩ := accepted
  exact ⟨canonical, (isCanonical_of_canonicalToken found).canonicalToken_eq, (), single, rfl⟩

theorem canonicalNamespaces_eq_ok_iff {namespaces out : List Bytes} :
    canonicalNamespaces namespaces = .ok out ↔
      namespaces.length ≤ Limits.maxCapabilitiesPerSet ∧
        ∃ working, namespaces.mapM canonicalNamespace = .ok working ∧
          out = sortUnique working := by
  simp only [canonicalNamespaces, bind_eq_ok, ensure_eq_ok, pure_eq_ok, decide_eq_true_eq]
  constructor
  · rintro ⟨_, fits, working, mapped, rfl⟩
    exact ⟨fits, working, mapped, rfl⟩
  · rintro ⟨fits, working, mapped, rfl⟩
    exact ⟨(), fits, working, mapped, rfl⟩

theorem canonicalNamespaces_idem {namespaces out : List Bytes}
    (accepted : canonicalNamespaces namespaces = .ok out) : canonicalNamespaces out = .ok out := by
  obtain ⟨fits, working, mapped, rfl⟩ := canonicalNamespaces_eq_ok_iff.mp accepted
  refine canonicalNamespaces_eq_ok_iff.mpr ⟨?_, sortUnique working, ?_, ?_⟩
  · exact (length_sortUnique_le working).trans ((length_of_mapM mapped).trans_le fits)
  · apply mapM_eq_self
    intro name listed
    obtain ⟨source, _, canonical⟩ := exists_of_mem_mapM mapped (sortUnique_subset listed)
    exact canonicalNamespace_idem canonical
  · exact (sortUnique_of_pairwise (pairwise_sortUnique working)).symm

theorem canonicalRecords_nil : canonicalRecords [] = .ok [] := rfl

theorem canonicalNamespaces_nil : canonicalNamespaces [] = .ok [] := rfl

theorem unidentified_nil : (.nil : CapabilitySetId) = capabilitySetIdentity [] [] ∨
    ((.nil : CapabilitySetId) = .nil ∧ ([] : List CapabilityRecord) = [] ∧ ([] : List Bytes) = []) :=
  .inr ⟨rfl, rfl, rfl⟩

/-- A canonical, content-addressed collection of capabilities. A set that was never
filled still has the nil identity. -/
structure CapabilitySet where
  id : CapabilitySetId := .nil
  generation : CapabilityGeneration := ⟨0⟩
  records : List CapabilityRecord := []
  closedNamespaces : List Bytes := []
  records_canonical : canonicalRecords records = .ok records := by exact canonicalRecords_nil
  namespaces_canonical : canonicalNamespaces closedNamespaces = .ok closedNamespaces := by
    exact canonicalNamespaces_nil
  identified : id = capabilitySetIdentity records closedNamespaces ∨
    (id = .nil ∧ records = [] ∧ closedNamespaces = []) := by exact unidentified_nil
  deriving DecidableEq

/-- Result of looking a capability up in a set. -/
structure CapabilityLookup where
  state : CapabilityState := .unknown
  value : Option CapabilityValue := none
  present : Bool := false
  namespaceClosed : Bool := false
  deriving DecidableEq

namespace CapabilitySet

/-- Replace all records. -/
def setRecords (set : CapabilitySet) (records : List CapabilityRecord) : Result CapabilitySet :=
  match accepted : canonicalRecords records with
  | .error e => .error e
  | .ok working => .ok {
      id := capabilitySetIdentity working set.closedNamespaces
      generation := set.generation
      records := working
      closedNamespaces := set.closedNamespaces
      records_canonical := canonicalRecords_idem accepted
      namespaces_canonical := set.namespaces_canonical
      identified := .inl rfl }

/-- Replace the closed namespaces. -/
def setClosedNamespaces (set : CapabilitySet) (namespaces : List Bytes) : Result CapabilitySet :=
  match accepted : canonicalNamespaces namespaces with
  | .error e => .error e
  | .ok working => .ok {
      id := capabilitySetIdentity set.records working
      generation := set.generation
      records := set.records
      closedNamespaces := working
      records_canonical := set.records_canonical
      namespaces_canonical := canonicalNamespaces_idem accepted
      identified := .inl rfl }

def setGeneration (set : CapabilitySet) (generation : CapabilityGeneration) : CapabilitySet :=
  { set with generation }

/-- Absence of a record inside a closed namespace is positive evidence of UNSUPPORTED; absence
anywhere else is UNKNOWN. Names are unique and sorted, so the binary search finds the one
record of that name. -/
def lookup (set : CapabilitySet) (name : Bytes) : CapabilityLookup :=
  match set.records.find? (·.key.name == name) with
  | some r => { state := r.state, value := some r.value, present := true }
  | none =>
      let nameSpace := match splitFirst 46 name with
        | none => name
        | some (before, _) => before
      if set.closedNamespaces.contains nameSpace then
        { state := .unsupported, namespaceClosed := true }
      else {}

/-- Each record is valid and the names are in order. -/
def validateRecords : List CapabilityRecord → Option Bytes → Result Unit
  | [], _ => .ok ()
  | r :: rest, previous => do
      r.validate
      ensure (match previous with | none => true | some name => name < r.key.name)
        (.failure .malformedData "capability set is not in canonical key order")
      validateRecords rest (some r.key.name)

/-- Validate bounds, kinds and canonical order. -/
def validate (set : CapabilitySet) : Result Unit := do
  ensure (set.records.length ≤ Limits.maxCapabilitiesPerSet)
    (.failure .boundsExceeded "capability set exceeds the permitted number of records")
  validateRecords set.records none
  ensure (set.closedNamespaces.IsChain (· < ·))
    (.failure .malformedData "closed namespace list is not in canonical order")

def serialize (set : CapabilitySet) : Bytes :=
  ByteWriter.strongId set.id ++ ByteWriter.generation set.generation ++
    ByteWriter.list CapabilityRecord.serialize set.records ++
    ByteWriter.list ByteWriter.string set.closedNamespaces

/-- The digest of the canonical encoding. -/
def digest (set : CapabilitySet) : Digest :=
  Sha256.hash (ByteWriter.list CapabilityRecord.serialize set.records ++
    ByteWriter.list ByteWriter.string set.closedNamespaces)

/-- The stored identity must agree with the content. -/
def deserialize (R : Registry) : ByteReader CapabilitySet := do
  let id ← ByteReader.strongId
  let generation ← ByteReader.generation
  let records ← ByteReader.list Limits.maxCapabilitiesPerSet 8 (CapabilityRecord.deserialize R)
  let namespaces ← ByteReader.list Limits.maxCapabilitiesPerSet 4
    (ByteReader.string Limits.maxNameBytes)
  let set ← ByteReader.ofResult (({} : CapabilitySet).setRecords records)
  let set ← ByteReader.ofResult (set.setClosedNamespaces namespaces)
  Wire.Reader.require (set.id = id)
    (.failure .integrityFailure "capability set identity does not match its content digest")
  pure (set.setGeneration generation)

end CapabilitySet

end Haf
