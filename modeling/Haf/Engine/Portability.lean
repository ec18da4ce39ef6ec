/-
# Portability classification

The classifier looks at the capability evidence of both endpoints and returns the
strongest class that the evidence justifies. Missing evidence yields UNKNOWN.
-/

import Haf.Model.Migration

namespace Haf

open Sequence

namespace Cap

def vendorId : Bytes := text "vendor.id"
def architectureFamily : Bytes := text "architecture.family"
def runtimeFamily : Bytes := text "runtime.family"
def runtimeVersion : Bytes := text "runtime.version"
def isaCodeObjectTargets : Bytes := text "isa.code_object_targets"
def memoryTotalBytes : Bytes := text "memory.total_bytes"
def memoryFreeBytes : Bytes := text "memory.free_bytes"
def queueConcurrentStreams : Bytes := text "queue.concurrent_streams"
def migrationLiveStateTransfer : Bytes := text "migration.live_state_transfer"
def migrationCheckpointRestore : Bytes := text "migration.checkpoint_restore"
def migrationStateReconstruction : Bytes := text "migration.state_reconstruction"
def migrationCrossVendorState : Bytes := text "migration.cross_vendor_state"
def portabilityRecompileAvailable : Bytes := text "portability.recompile_available"
def portabilityRepackageAvailable : Bytes := text "portability.repackage_available"

end Cap

namespace CapabilitySet

/-- Positively supported. -/
def supports (set : CapabilitySet) (key : Bytes) : Bool :=
  (set.lookup key).present && (set.lookup key).state = .supported

/-- Anything but UNKNOWN. -/
def known (set : CapabilitySet) (key : Bytes) : Bool := (set.lookup key).state ≠ .unknown

/-- The two sets advertise a common token under a key. -/
def sharesToken (a b : CapabilitySet) (key : Bytes) : Bool :=
  match (a.lookup key).value, (b.lookup key).value with
  | some left, some right =>
      (a.lookup key).present && (b.lookup key).present &&
        left.tokens.any fun token => right.tokens.contains token
  | _, _ => false

end CapabilitySet

/-- Dynamic capabilities take part in freshness policy; static ones do not. -/
def isDynamicCapability (name : Bytes) : Bool :=
  (text "health.").isPrefixOf name || name == Cap.memoryFreeBytes ||
    name == Cap.queueConcurrentStreams

/-- Reasons are ordered by strength, subject, code and detail. -/
def reasonOrder (r : CompatibilityReason) : List Bytes :=
  [[r.strength.toWire], r.subject, (ByteWriter.u16 r.code.value).reverse, r.detail]

/-- Deterministic ordering for explanation lists. -/
def sortReasons (reasons : List CompatibilityReason) : List CompatibilityReason :=
  sortOn reasonOrder reasons

/-- Everything the classifier is allowed to look at. -/
structure PortabilityRequest where
  sourceCapabilities : Option CapabilitySet
  destinationCapabilities : Option CapabilitySet
  sourceVendor : Bytes
  destinationVendor : Bytes
  workload : Option WorkloadProfile
  policyAllowsCrossVendorMigration : Bool

structure PortabilityResult where
  value : PortabilityClass
  reasons : List CompatibilityReason

namespace PortabilityRequest

/-- A hard reason about a capability or about nothing in particular. -/
def makeReason (code : ErrorCode) (subject : Bytes) (detail : String) : CompatibilityReason :=
  { code, subject, detail := text detail, strength := .hard, observed := .unknown }

/-- The evidence every strong class rests on. -/
def requiredEvidence : List (Bytes × String) := [
  (Cap.vendorId, "vendor identity"),
  (Cap.architectureFamily, "architecture family"),
  (Cap.isaCodeObjectTargets, "ISA code object targets"),
  (Cap.runtimeFamily, "runtime family")]

/-- The inputs that are UNKNOWN on at least one side. -/
def unknownInputs (source destination : CapabilitySet) : List String :=
  (requiredEvidence.filter fun item =>
    !source.known item.1 || !destination.known item.1).map (·.2)

/-- The same architecture is advertised on both sides. -/
def sameArchitecture (source destination : CapabilitySet) : Bool :=
  match (source.lookup Cap.architectureFamily).value,
      (destination.lookup Cap.architectureFamily).value with
  | some left, some right =>
      source.known Cap.architectureFamily && destination.known Cap.architectureFamily &&
        left.render == right.render
  | _, _ => false

def sameVendor (request : PortabilityRequest) : Bool :=
  !request.sourceVendor.isEmpty && request.sourceVendor == request.destinationVendor

def crossVendorLiveAllowed (request : PortabilityRequest) (source destination : CapabilitySet) :
    Bool :=
  request.sameVendor || (request.policyAllowsCrossVendorMigration &&
    source.supports Cap.migrationCrossVendorState &&
    destination.supports Cap.migrationCrossVendorState)

/-- The strongest class that complete evidence justifies. -/
def strongestClass (request : PortabilityRequest) (source destination : CapabilitySet) :
    PortabilityClass × CompatibilityReason :=
  let sharedCodeObject := source.sharesToken destination Cap.isaCodeObjectTargets
  let liveTransfer := source.supports Cap.migrationLiveStateTransfer &&
    destination.supports Cap.migrationLiveStateTransfer
  let checkpoint := source.supports Cap.migrationCheckpointRestore &&
    destination.supports Cap.migrationCheckpointRestore
  if sharedCodeObject && liveTransfer && request.sameVendor then
    (.liveMigrationSupported, makeReason .ok Cap.migrationLiveStateTransfer
      "both accelerators support live state transfer and share a code object target")
  else if sharedCodeObject && liveTransfer && request.crossVendorLiveAllowed source destination then
    (.liveMigrationSupported, makeReason .ok Cap.migrationLiveStateTransfer
      "cross-vendor live state transfer is explicitly supported by both sides and permitted by policy")
  else if sharedCodeObject && request.sameVendor && sameArchitecture source destination then
    (.native, makeReason .ok Cap.isaCodeObjectTargets
      "both accelerators present the same code object target on the same architecture and vendor")
  else if sharedCodeObject then
    (.binaryCompatible, makeReason .ok Cap.isaCodeObjectTargets
      "the destination presents a code object target that the source already produces")
  else if checkpoint && request.sameVendor then
    (.checkpointRestoreSupported, makeReason .ok Cap.migrationCheckpointRestore
      "no shared code object target, but both sides support checkpoint and restore")
  else if destination.known Cap.isaCodeObjectTargets &&
      destination.supports Cap.portabilityRecompileAvailable then
    (.recompileRequired, makeReason .ok Cap.portabilityRecompileAvailable
      "the destination accepts recompiled code objects but shares no code object target with the source")
  else if destination.supports Cap.portabilityRepackageAvailable then
    (.repackageRequired, makeReason .ok Cap.portabilityRepackageAvailable
      "the destination requires repackaging rather than recompilation")
  else if destination.supports Cap.migrationStateReconstruction then
    (.stateReconstructionRequired, makeReason .ok Cap.migrationStateReconstruction
      "execution state cannot move; the destination can only host a reconstructed workload")
  else
    (.unsupported, makeReason .migrationUnsupported []
      "no shared code object target, no checkpoint path, no recompilation path, and no reconstruction path")

/-- A note for workloads that do not need the live transfer they could have. -/
def liveTransferNote (request : PortabilityRequest) (value : PortabilityClass) :
    List CompatibilityReason :=
  match request.workload with
  | some workload =>
      if value = .liveMigrationSupported && workload.migrationNeed ≠ .liveStateTransfer then
        [makeReason .ok (text "workload.migration_need")
          "live state transfer is available but the workload does not require it"]
      else []
  | none => []

/-- Classify two endpoints whose capability sets are given. -/
def classifyKnown (request : PortabilityRequest) (source destination : CapabilitySet) :
    PortabilityResult :=
  let unknown := unknownInputs source destination
  if !unknown.isEmpty then
    let detail := text
        "portability cannot be established because these inputs are UNKNOWN on at least one side:" ++
      unknown.flatMap (fun item => text " " ++ text item ++ text ";")
    let reason : CompatibilityReason :=
      { code := .unknownCapability, subject := [], detail, strength := .hard, observed := .unknown }
    { value := .unknown, reasons := [reason] }
  else
    let (value, reason) := request.strongestClass source destination
    let reasons := reason :: request.liveTransferNote value
    if !request.sameVendor && value = .liveMigrationSupported &&
        !request.crossVendorLiveAllowed source destination then
      { value := .unsupported
        reasons := sortReasons (reasons ++ [makeReason .migrationUnsupported
          Cap.migrationCrossVendorState
          "cross-vendor live state transfer is not supported by both accelerators and permitted by policy"]) }
    else { value, reasons := sortReasons reasons }

end PortabilityRequest

/-- Classify portability from source to destination. -/
def classifyPortability (request : PortabilityRequest) : PortabilityResult :=
  match request.sourceCapabilities, request.destinationCapabilities with
  | some source, some destination => request.classifyKnown source destination
  | _, _ =>
      { value := .unknown
        reasons := [PortabilityRequest.makeReason .invalidArgument []
          "portability classification requires both a source and a destination capability set"] }

end Haf
