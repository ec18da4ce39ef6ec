/-
# Invariant audit

The audit is a pure function of a snapshot. It runs the checks section by section,
counts them, and reports every violation with a stable code, the entity it refers to
and a text. Violations are reported in the order of these three.
-/

import Haf.Federation.Snapshot

namespace Haf

open Sequence

/-- The names of the error codes. -/
def ErrorCode.names : List (ErrorCode × String) := [
  (.ok, "Ok"), (.invalidArgument, "InvalidArgument"), (.malformedData, "MalformedData"),
  (.malformedAdvertisement, "MalformedAdvertisement"),
  (.malformedVersionRange, "MalformedVersionRange"), (.nonFiniteQuantity, "NonFiniteQuantity"),
  (.impossibleQuantity, "ImpossibleQuantity"), (.boundsExceeded, "BoundsExceeded"),
  (.overflow, "Overflow"), (.unsupportedCapability, "UnsupportedCapability"),
  (.unknownCapability, "UnknownCapability"), (.capabilityMismatch, "CapabilityMismatch"),
  (.capabilityDowngrade, "CapabilityDowngrade"),
  (.contradictoryCapabilities, "ContradictoryCapabilities"),
  (.missingMandatoryCapability, "MissingMandatoryCapability"),
  (.compatibilityRejection, "CompatibilityRejection"), (.vendorMismatch, "VendorMismatch"),
  (.architectureMismatch, "ArchitectureMismatch"), (.runtimeMismatch, "RuntimeMismatch"),
  (.runtimeVersionUnsupported, "RuntimeVersionUnsupported"),
  (.isaIncompatible, "IsaIncompatible"), (.insufficientMemory, "InsufficientMemory"),
  (.numericModeUnsupported, "NumericModeUnsupported"), (.policyMismatch, "PolicyMismatch"),
  (.portabilityConstraintViolated, "PortabilityConstraintViolated"),
  (.migrationUnsupported, "MigrationUnsupported"), (.staleEpoch, "StaleEpoch"),
  (.staleAgent, "StaleAgent"), (.staleBoot, "StaleBoot"),
  (.staleDeviceGeneration, "StaleDeviceGeneration"),
  (.staleCapabilityGeneration, "StaleCapabilityGeneration"), (.stalePolicy, "StalePolicy"),
  (.staleDecision, "StaleDecision"), (.staleMigration, "StaleMigration"),
  (.staleFederationGeneration, "StaleFederationGeneration"), (.staleEvidence, "StaleEvidence"),
  (.authorityRevoked, "AuthorityRevoked"), (.unknownAccelerator, "UnknownAccelerator"),
  (.unknownAgent, "UnknownAgent"), (.unknownEntity, "UnknownEntity"),
  (.duplicateIdentity, "DuplicateIdentity"), (.duplicateLiveBoot, "DuplicateLiveBoot"),
  (.alreadyExists, "AlreadyExists"), (.notFound, "NotFound"),
  (.invalidTransition, "InvalidTransition"), (.notAdmitted, "NotAdmitted"), (.fenced, "Fenced"),
  (.retired, "Retired"), (.duplicateMessage, "DuplicateMessage"),
  (.protocolViolation, "ProtocolViolation"), (.unknownMessageType, "UnknownMessageType"),
  (.unsupportedProtocolVersion, "UnsupportedProtocolVersion"), (.frameTooLarge, "FrameTooLarge"),
  (.truncatedFrame, "TruncatedFrame"), (.corruptPayload, "CorruptPayload"),
  (.transportFailure, "TransportFailure"), (.connectionClosed, "ConnectionClosed"),
  (.handshakeFailed, "HandshakeFailed"), (.persistenceFailure, "PersistenceFailure"),
  (.integrityFailure, "IntegrityFailure"), (.truncatedStore, "TruncatedStore"),
  (.unsupportedStoreVersion, "UnsupportedStoreVersion"), (.corruptStore, "CorruptStore"),
  (.resourceExhausted, "ResourceExhausted"), (.shutdownInProgress, "ShutdownInProgress"),
  (.cancelled, "Cancelled"), (.timeout, "Timeout"),
  (.internalInvariantViolation, "InternalInvariantViolation"), (.unsupported, "Unsupported")]

def ErrorCode.toText (code : ErrorCode) : Bytes :=
  match names.find? (·.1 = code) with
  | some (_, name) => text name
  | none => text "UnknownErrorCode"

/-- A status as it is shown: the name of its code and the message, if there is one. -/
def Status.describe (s : Status) : Bytes :=
  if s.code = .ok then text "Ok"
  else s.code.toText ++ (if s.message.isEmpty then [] else text ": " ++ s.message)

structure AuditViolation where
  code : Bytes
  subject : Bytes
  detail : Bytes
  deriving DecidableEq

structure AuditReport where
  checksRun : Nat
  violations : List AuditViolation
  deriving DecidableEq

namespace AuditReport

/-- One check and what it found. -/
def check (found : List AuditViolation) : AuditReport := ⟨1, found⟩

/-- One check that finds at most one violation. -/
def checkThat (violated : Bool) (code : String) (subject : Bytes) (detail : Bytes) :
    AuditReport :=
  check (if violated then [⟨text code, subject, detail⟩] else [])

/-- The checks of several parts, one part after the other. -/
def join (parts : List AuditReport) : AuditReport :=
  ⟨(parts.map (·.checksRun)).sum, parts.flatMap (·.violations)⟩

end AuditReport

open AuditReport

/-- The keys that were seen before, in the order in which they come again. -/
def repeatedKeys (seen : List Bytes) : List Bytes → List Bytes
  | [] => []
  | key :: rest =>
      if seen.contains key then key :: repeatedKeys seen rest
      else repeatedKeys (key :: seen) rest

/-- One check that no key is used twice. -/
def uniquenessCheck (keys : List Bytes) (detail : String) : AuditReport :=
  check ((repeatedKeys [] keys).map fun key => ⟨text "identity.uniqueness", key, text detail⟩)

namespace FederationSnapshot

variable (s : FederationSnapshot)

def identityChecks : AuditReport :=
  join [
    uniquenessCheck (s.members.map (·.accelerator.toText))
      "accelerator identity appears in more than one member record",
    uniquenessCheck (s.descriptors.map (·.id.toText))
      "accelerator identity appears in more than one descriptor",
    uniquenessCheck (s.decisions.map (·.decisionId.toText)) "decision identity is duplicated"]

/-- Whether a member agrees with its descriptor and with the federation. -/
def consistencyChecks (record : MemberRecord) : AuditReport :=
  let subject := record.accelerator.toText
  match s.findDescriptor record.accelerator with
  | none =>
      checkThat true "membership.descriptor" subject
        (text "member has no matching accelerator descriptor")
  | some d =>
      join [
        check [],
        checkThat (d.agent ≠ record.agent || d.agentBoot ≠ record.agentBoot)
          "membership.ownership" subject
          (text "member agent ownership disagrees with the descriptor"),
        checkThat (d.generation ≠ record.deviceGeneration) "membership.device_generation" subject
          (text "member device generation disagrees with the descriptor"),
        checkThat (d.capabilities.generation ≠ record.capabilityGeneration)
          "membership.capability_generation" subject
          (text "member capability generation disagrees with the descriptor capability set"),
        checkThat (d.supportLevel ≠ record.supportLevel || d.provenance ≠ record.provenance)
          "membership.support_level" subject
          (text "member support level or evidence provenance disagrees with the descriptor"),
        checkThat (record.federation ≠ s.federation) "membership.federation" subject
          (text "member belongs to a different federation identity"),
        checkThat (s.epoch.value < record.epoch.value && record.isLive) "membership.epoch" subject
          (text "live member claims an epoch newer than the federation epoch"),
        checkThat (record.isLive && record.evidenceGeneration.isInitial) "membership.evidence"
          subject (text "live member has no evidence generation")]

/-- One check per member: the live members of a device have the boot that was seen first. -/
def liveBootChecks (claimed : List (Bytes × Bytes)) : List MemberRecord → List AuditReport
  | [] => []
  | record :: rest =>
      if !record.isLive then check [] :: liveBootChecks claimed rest
      else
        let key := record.physicalDevice.toText
        let boot := record.agentBoot.toText
        match claimed.lookup key with
        | none => check [] :: liveBootChecks ((key, boot) :: claimed) rest
        | some first =>
            checkThat (first ≠ boot) "membership.duplicate_live_boot" key
              (text "physical device is claimed by two live boots: " ++ first ++ text " and " ++
                boot) ::
            liveBootChecks claimed rest

def lifecycleChecks (record : MemberRecord) : AuditReport :=
  let subject := record.accelerator.toText
  join [
    checkThat (record.state.isTerminal && record.state ≠ .retired) "lifecycle.terminal" subject
      (text "member is in an undefined terminal state"),
    checkThat record.history.isEmpty "lifecycle.history" subject
      (text "member has no lifecycle history"),
    checkThat (!decide (record.history.IsChain (· ≤ ·))) "lifecycle.history_order" subject
      (text "member history is not in canonical order")]

def policyChecks : AuditReport :=
  join [
    checkThat (s.policy ≠ s.policyData.id) "policy.identity" s.policy.toText
      (text "snapshot policy identity disagrees with the embedded policy"),
    checkThat (s.policyGeneration ≠ s.policyData.generation) "policy.generation" s.policy.toText
      (text "snapshot policy generation disagrees with the embedded policy generation")]

def decisionChecks (d : CompatibilityDecision) : AuditReport :=
  let subject := d.decisionId.toText
  let descriptor := s.findDescriptor d.accelerator
  join [
    checkThat (d.federation ≠ s.federation) "decision.federation" subject
      (text "decision references a different federation identity"),
    checkThat descriptor.isNone "decision.accelerator" subject
      (text "decision references an accelerator that is not present"),
    checkThat (d.policy ≠ s.policy) "decision.policy" subject
      (text "decision references a policy that is not the active policy"),
    checkThat (s.findWorkload d.workload).isNone "decision.workload" subject
      (text "decision references a workload that is not registered"),
    checkThat (d.decisionId ≠ d.derivedId) "decision.fingerprint" subject
      (text "decision identity does not match its content fingerprint"),
    checkThat (descriptor.any (d.capabilityGeneration ≠ ·.capabilities.generation))
      "decision.stale_capability" subject
      (text "decision was produced from a capability generation that is no longer current")]

/-- Whether the endpoints of a plan are present at the generations it is bound to. -/
def endpointChecks (p : MigrationPlan) : AuditReport :=
  let subject := p.id.toText
  match s.findDescriptor p.source, s.findDescriptor p.destination with
  | some source, some destination =>
      join [
        check [],
        checkThat (source.generation ≠ p.sourceGeneration) "migration.source_generation" subject
          (text "migration plan source generation is no longer current"),
        checkThat (destination.generation ≠ p.destinationGeneration)
          "migration.destination_generation" subject
          (text "migration plan destination generation is no longer current"),
        checkThat (source.capabilities.generation ≠ p.sourceCapabilityGeneration)
          "migration.source_capability" subject
          (text "migration plan source capability generation is no longer current"),
        checkThat (destination.capabilities.generation ≠ p.destinationCapabilityGeneration)
          "migration.destination_capability" subject
          (text "migration plan destination capability generation is no longer current")]
  | _, _ =>
      checkThat true "migration.endpoint" subject
        (text "migration plan references a source or destination that is not present")

def planChecks (p : MigrationPlan) : AuditReport :=
  let subject := p.id.toText
  join [
    checkThat (p.federation ≠ s.federation) "migration.federation" subject
      (text "migration plan references a different federation identity"),
    s.endpointChecks p,
    checkThat (p.source = p.destination) "migration.self" subject
      (text "migration plan moves a workload onto itself"),
    checkThat (p.policy ≠ s.policy) "migration.policy" subject
      (text "migration plan references a policy that is not the active policy"),
    checkThat (p.state = .refused && p.refusalReasons.isEmpty) "migration.refusal" subject
      (text "refused migration plan carries no refusal reason")]

/-- One check per plan, and a violation for each workload with several committed plans. -/
def authorityChecks : AuditReport :=
  let committed := (s.plans.filter (·.state = .committed)).map (·.workload.toText)
  ⟨s.plans.length, ((sortUnique committed).filter (1 < committed.count ·)).map fun workload =>
    ⟨text "migration.double_authority", workload,
      text "more than one committed migration plan exists for this workload"⟩⟩

def descriptorChecks (d : AcceleratorDescriptor) : AuditReport :=
  let subject := d.id.toText
  join [
    check (match d.capabilities.validate with
      | .ok _ => []
      | .error status => [⟨text "capability.invalid", subject, status.describe⟩]),
    checkThat d.capabilities.records.isEmpty "capability.empty" subject
      (text "descriptor advertises no capabilities"),
    check ((d.evidence.filter (·.subject ≠ d.id)).map fun _ =>
      ⟨text "evidence.subject", subject,
        text "evidence record is bound to a different accelerator"⟩)]

def workloadChecks (R : Registry) (w : WorkloadProfile) : AuditReport :=
  check (match w.validate R with
    | .ok _ => []
    | .error status => [⟨text "workload.invalid", w.classId.toText, status.describe⟩])

/-- One check over all members. -/
def generationCheck : AuditReport :=
  check ((s.members.filter fun record => record.isLive && record.stateGeneration.isInitial).map
    fun record => ⟨text "generation.monotonic", record.accelerator.toText,
      text "live member has an initial state generation"⟩)

/-- Every section, in the order in which they are checked. -/
def auditSections (R : Registry) : AuditReport :=
  join [
    s.identityChecks, join (s.members.map s.consistencyChecks),
    join (liveBootChecks [] s.members), join (s.members.map lifecycleChecks), s.policyChecks,
    join (s.decisions.map s.decisionChecks), join (s.plans.map s.planChecks), s.authorityChecks,
    join (s.descriptors.map descriptorChecks), join (s.workloads.map (workloadChecks R)),
    s.generationCheck]

end FederationSnapshot

/-- Audit every invariant the federation maintains over a snapshot. -/
def auditSnapshot (R : Registry) (s : FederationSnapshot) : AuditReport :=
  let sections := s.auditSections R
  { sections with
    violations := sortOn (fun v => [v.code, v.subject, v.detail]) sections.violations }

/-! ### Which codes a part can report -/

namespace AuditReport

/-- No violation has one of the codes. -/
def Spares (codes : List Bytes) (r : AuditReport) : Prop := ∀ v ∈ r.violations, v.code ∉ codes

variable {codes : List Bytes}

theorem spares_check {found : List AuditViolation} (other : ∀ v ∈ found, v.code ∉ codes) :
    (check found).Spares codes := other

/-- Violations of one other code are spared. -/
theorem spares_of_code {r : AuditReport} (code : String) (other : text code ∉ codes)
    (each : ∀ v ∈ r.violations, v.code = text code) : r.Spares codes := by
  intro v listed
  rw [each v listed]
  exact other

theorem spares_checkThat {code : String} (other : text code ∉ codes) (violated : Bool)
    (subject detail : Bytes) : (checkThat violated code subject detail).Spares codes := by
  cases violated with
  | true =>
      intro v listed
      cases List.mem_singleton.mp listed
      exact other
  | false =>
      intro v listed
      cases listed

/-- A check whose condition does not hold reports nothing. -/
theorem spares_of_not {violated : Bool} (holds : violated = false) (code : String)
    (subject detail : Bytes) : (checkThat violated code subject detail).Spares codes := by
  subst holds
  intro v listed
  cases listed

theorem spares_join {parts : List AuditReport} (each : ∀ r ∈ parts, r.Spares codes) :
    (join parts).Spares codes := by
  intro v listed
  obtain ⟨part, inside, found⟩ := List.mem_flatMap.mp listed
  exact each part inside v found

theorem spares_join_map {α : Type} {items : List α} {checks : α → AuditReport}
    (each : ∀ a ∈ items, (checks a).Spares codes) : (join (items.map checks)).Spares codes := by
  apply spares_join
  intro r listed
  obtain ⟨a, inside, rfl⟩ := List.mem_map.mp listed
  exact each a inside

end AuditReport

end Haf
