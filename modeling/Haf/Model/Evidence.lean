/-
# Evidence records

An evidence record says where an observation of an accelerator came from and how
long it stays usable. The monotonic instant of the observation is process-local
and never persisted.
-/

import Haf.Model.Capability

namespace Haf

/-- Nanoseconds since the Unix epoch. -/
abbrev Timestamp := Int64

/-- Nanoseconds of the monotonic clock. -/
abbrev MonotonicTime := Int64

/-- Non-negative age of one instant relative to a later one. -/
def ageNanos (earlier later : Int64) : UInt64 :=
  if later ≤ earlier then 0 else (later - earlier).toUInt64

/-- Version triple used by vendor runtime and driver reporting. -/
structure RuntimeVersion where
  major : UInt32 := 0
  minor : UInt32 := 0
  patch : UInt32 := 0
  deriving DecidableEq

inductive EvidenceProvenance
  | real | synthetic | unsupported
  deriving DecidableEq

namespace EvidenceProvenance

def toText : EvidenceProvenance → Bytes
  | .real => text "REAL"
  | .synthetic => text "SYNTHETIC"
  | .unsupported => text "UNSUPPORTED"

def toWire : EvidenceProvenance → UInt8
  | .real => 0
  | .synthetic => 1
  | .unsupported => 2

def fromWire : UInt8 → Option EvidenceProvenance
  | 0 => some .real
  | 1 => some .synthetic
  | 2 => some .unsupported
  | _ => none

@[simp]
theorem fromWire_toWire (p : EvidenceProvenance) : fromWire p.toWire = some p := by
  cases p <;> rfl

end EvidenceProvenance

/-- How the observation was produced. -/
inductive EvidenceKind
  | staticDescriptor | dynamicObservation | adapterProbe | declaration | recoveryRestore
  deriving DecidableEq

namespace EvidenceKind

def toWire : EvidenceKind → UInt8
  | .staticDescriptor => 0
  | .dynamicObservation => 1
  | .adapterProbe => 2
  | .declaration => 3
  | .recoveryRestore => 4

def fromWire : UInt8 → Option EvidenceKind
  | 0 => some .staticDescriptor
  | 1 => some .dynamicObservation
  | 2 => some .adapterProbe
  | 3 => some .declaration
  | 4 => some .recoveryRestore
  | _ => none

@[simp]
theorem fromWire_toWire (k : EvidenceKind) : fromWire k.toWire = some k := by
  cases k <;> rfl

end EvidenceKind

/-- Provenance record for one observation of one accelerator. -/
structure EvidenceRecord where
  id : EvidenceId := .nil
  generation : EvidenceGeneration := ⟨0⟩
  provenance : EvidenceProvenance := .unsupported
  kind : EvidenceKind := .staticDescriptor
  adapter : Bytes := []
  source : Bytes := []
  adapterVersion : Bytes := []
  subject : AcceleratorId := .nil
  physicalDevice : PhysicalDeviceId := .nil
  capabilityGeneration : CapabilityGeneration := ⟨0⟩
  payloadDigest : Digest := .zero
  runtimeVersion : RuntimeVersion := {}
  driverVersion : RuntimeVersion := {}
  observedAt : Timestamp := 0
  sequence : UInt64 := 0
  freshnessBudgetNanos : UInt64 := 0
  dynamic : Bool := false
  requiresRevalidation : Bool := true
  observedMonotonicMarker : MonotonicTime := 0
  deriving DecidableEq

namespace EvidenceRecord

def validate (e : EvidenceRecord) : Result Unit := do
  ensure (!e.adapter.isEmpty)
    (.failure .malformedData "evidence record has no adapter identifier")
  ensure (e.adapter.length ≤ Limits.maxNameBytes && e.source.length ≤ Limits.maxDescriptionBytes &&
      e.adapterVersion.length ≤ Limits.maxTokenBytes)
    (.failure .boundsExceeded "evidence record text exceeds the permitted length")
  ensure (!(e.provenance = .unsupported && e.kind ≠ .recoveryRestore) || e.payloadDigest.isZero)
    (.failure .malformedData
      "UNSUPPORTED evidence provenance must not carry an observed payload digest")

/-- Usable live evidence; a record awaiting revalidation is never fresh. -/
def isFresh (e : EvidenceRecord) (now : MonotonicTime) (effectiveBudgetNanos : UInt64) : Bool :=
  if e.requiresRevalidation then false
  else if effectiveBudgetNanos == 0 then true
  else ageNanos e.observedMonotonicMarker now ≤ effectiveBudgetNanos

def serialize (e : EvidenceRecord) : Bytes :=
  ByteWriter.strongId e.id ++ ByteWriter.generation e.generation ++
    ByteWriter.u8 e.provenance.toWire ++ ByteWriter.u8 e.kind.toWire ++
    ByteWriter.string e.adapter ++ ByteWriter.string e.source ++
    ByteWriter.string e.adapterVersion ++ ByteWriter.strongId e.subject ++
    ByteWriter.strongId e.physicalDevice ++ ByteWriter.generation e.capabilityGeneration ++
    ByteWriter.digest e.payloadDigest ++
    ByteWriter.u32 e.runtimeVersion.major ++ ByteWriter.u32 e.runtimeVersion.minor ++
    ByteWriter.u32 e.runtimeVersion.patch ++ ByteWriter.u32 e.driverVersion.major ++
    ByteWriter.u32 e.driverVersion.minor ++ ByteWriter.u32 e.driverVersion.patch ++
    ByteWriter.i64 e.observedAt ++ ByteWriter.u64 e.sequence ++
    ByteWriter.u64 e.freshnessBudgetNanos ++ ByteWriter.boolean e.dynamic ++
    ByteWriter.boolean e.requiresRevalidation

def deserialize : ByteReader EvidenceRecord := do
  let id ← ByteReader.strongId
  let generation ← ByteReader.generation
  let rawProvenance ← ByteReader.u8
  let rawKind ← ByteReader.u8
  let adapter ← ByteReader.string Limits.maxNameBytes
  let source ← ByteReader.string Limits.maxDescriptionBytes
  let adapterVersion ← ByteReader.string Limits.maxTokenBytes
  let subject ← ByteReader.strongId
  let physicalDevice ← ByteReader.strongId
  let capabilityGeneration ← ByteReader.generation
  let payloadDigest ← ByteReader.digest
  let runtimeMajor ← ByteReader.u32
  let runtimeMinor ← ByteReader.u32
  let runtimePatch ← ByteReader.u32
  let driverMajor ← ByteReader.u32
  let driverMinor ← ByteReader.u32
  let driverPatch ← ByteReader.u32
  let observedAt ← ByteReader.i64
  let sequence ← ByteReader.u64
  let freshnessBudgetNanos ← ByteReader.u64
  let dynamic ← ByteReader.boolean
  let requiresRevalidation ← ByteReader.boolean
  let provenance ← Wire.Reader.ofOption
    (.failure .malformedData "evidence provenance is outside the declared domain")
    (EvidenceProvenance.fromWire rawProvenance)
  let kind ← Wire.Reader.ofOption
    (.failure .malformedData "evidence kind is outside the declared domain")
    (EvidenceKind.fromWire rawKind)
  let e : EvidenceRecord := {
    id, generation, provenance, kind, adapter, source, adapterVersion, subject, physicalDevice
    capabilityGeneration, payloadDigest
    runtimeVersion := ⟨runtimeMajor, runtimeMinor, runtimePatch⟩
    driverVersion := ⟨driverMajor, driverMinor, driverPatch⟩
    observedAt, sequence, freshnessBudgetNanos, dynamic, requiresRevalidation }
  ByteReader.ofResult e.validate
  pure e

end EvidenceRecord

end Haf
