/-
# Typed status and error semantics

Errors are machine-readable first: a stable numeric code with supplementary
text. An error code is any value of the underlying sixteen-bit type, since the
decoder converts every number up to the largest listed one. Texts are byte
strings, as they are hashed, measured and persisted byte by byte.
-/

import Mathlib

namespace Haf

/-- A string of the source: a sequence of bytes with no encoding attached. -/
abbrev Bytes := List UInt8

/-- The bytes of a text literal. -/
def text (s : String) : Bytes := s.toUTF8.data.toList

theorem length_text (s : String) : (text s).length = s.utf8ByteSize := rfl

/-- Stable machine-readable error domain. -/
structure ErrorCode where
  value : UInt16
  deriving DecidableEq, Repr

namespace ErrorCode

@[match_pattern] def ok : ErrorCode := ⟨0⟩
@[match_pattern] def invalidArgument : ErrorCode := ⟨1⟩
@[match_pattern] def malformedData : ErrorCode := ⟨2⟩
@[match_pattern] def malformedAdvertisement : ErrorCode := ⟨3⟩
@[match_pattern] def malformedVersionRange : ErrorCode := ⟨4⟩
@[match_pattern] def nonFiniteQuantity : ErrorCode := ⟨5⟩
@[match_pattern] def impossibleQuantity : ErrorCode := ⟨6⟩
@[match_pattern] def boundsExceeded : ErrorCode := ⟨7⟩
@[match_pattern] def overflow : ErrorCode := ⟨8⟩
@[match_pattern] def unsupportedCapability : ErrorCode := ⟨20⟩
@[match_pattern] def unknownCapability : ErrorCode := ⟨21⟩
@[match_pattern] def capabilityMismatch : ErrorCode := ⟨22⟩
@[match_pattern] def capabilityDowngrade : ErrorCode := ⟨23⟩
@[match_pattern] def contradictoryCapabilities : ErrorCode := ⟨24⟩
@[match_pattern] def missingMandatoryCapability : ErrorCode := ⟨25⟩
@[match_pattern] def compatibilityRejection : ErrorCode := ⟨40⟩
@[match_pattern] def vendorMismatch : ErrorCode := ⟨41⟩
@[match_pattern] def architectureMismatch : ErrorCode := ⟨42⟩
@[match_pattern] def runtimeMismatch : ErrorCode := ⟨43⟩
@[match_pattern] def runtimeVersionUnsupported : ErrorCode := ⟨44⟩
@[match_pattern] def isaIncompatible : ErrorCode := ⟨45⟩
@[match_pattern] def insufficientMemory : ErrorCode := ⟨46⟩
@[match_pattern] def numericModeUnsupported : ErrorCode := ⟨47⟩
@[match_pattern] def policyMismatch : ErrorCode := ⟨48⟩
@[match_pattern] def portabilityConstraintViolated : ErrorCode := ⟨49⟩
@[match_pattern] def migrationUnsupported : ErrorCode := ⟨50⟩
@[match_pattern] def staleEpoch : ErrorCode := ⟨60⟩
@[match_pattern] def staleAgent : ErrorCode := ⟨61⟩
@[match_pattern] def staleBoot : ErrorCode := ⟨62⟩
@[match_pattern] def staleDeviceGeneration : ErrorCode := ⟨63⟩
@[match_pattern] def staleCapabilityGeneration : ErrorCode := ⟨64⟩
@[match_pattern] def stalePolicy : ErrorCode := ⟨65⟩
@[match_pattern] def staleDecision : ErrorCode := ⟨66⟩
@[match_pattern] def staleMigration : ErrorCode := ⟨67⟩
@[match_pattern] def staleFederationGeneration : ErrorCode := ⟨68⟩
@[match_pattern] def staleEvidence : ErrorCode := ⟨69⟩
@[match_pattern] def authorityRevoked : ErrorCode := ⟨70⟩
@[match_pattern] def unknownAccelerator : ErrorCode := ⟨80⟩
@[match_pattern] def unknownAgent : ErrorCode := ⟨81⟩
@[match_pattern] def unknownEntity : ErrorCode := ⟨82⟩
@[match_pattern] def duplicateIdentity : ErrorCode := ⟨83⟩
@[match_pattern] def duplicateLiveBoot : ErrorCode := ⟨84⟩
@[match_pattern] def alreadyExists : ErrorCode := ⟨85⟩
@[match_pattern] def notFound : ErrorCode := ⟨86⟩
@[match_pattern] def invalidTransition : ErrorCode := ⟨87⟩
@[match_pattern] def notAdmitted : ErrorCode := ⟨88⟩
@[match_pattern] def fenced : ErrorCode := ⟨89⟩
@[match_pattern] def retired : ErrorCode := ⟨90⟩
@[match_pattern] def duplicateMessage : ErrorCode := ⟨91⟩
@[match_pattern] def protocolViolation : ErrorCode := ⟨100⟩
@[match_pattern] def unknownMessageType : ErrorCode := ⟨101⟩
@[match_pattern] def unsupportedProtocolVersion : ErrorCode := ⟨102⟩
@[match_pattern] def frameTooLarge : ErrorCode := ⟨103⟩
@[match_pattern] def truncatedFrame : ErrorCode := ⟨104⟩
@[match_pattern] def corruptPayload : ErrorCode := ⟨105⟩
@[match_pattern] def transportFailure : ErrorCode := ⟨106⟩
@[match_pattern] def connectionClosed : ErrorCode := ⟨107⟩
@[match_pattern] def handshakeFailed : ErrorCode := ⟨108⟩
@[match_pattern] def persistenceFailure : ErrorCode := ⟨120⟩
@[match_pattern] def integrityFailure : ErrorCode := ⟨121⟩
@[match_pattern] def truncatedStore : ErrorCode := ⟨122⟩
@[match_pattern] def unsupportedStoreVersion : ErrorCode := ⟨123⟩
@[match_pattern] def corruptStore : ErrorCode := ⟨124⟩
@[match_pattern] def resourceExhausted : ErrorCode := ⟨140⟩
@[match_pattern] def shutdownInProgress : ErrorCode := ⟨141⟩
@[match_pattern] def cancelled : ErrorCode := ⟨142⟩
@[match_pattern] def timeout : ErrorCode := ⟨143⟩
@[match_pattern] def internalInvariantViolation : ErrorCode := ⟨144⟩
@[match_pattern] def unsupported : ErrorCode := ⟨145⟩

/-- The largest listed code; the decoder refuses anything above it. -/
def maxValue : UInt16 := unsupported.value

end ErrorCode

/-- Machine-readable code plus supplementary human text. -/
structure Status where
  code : ErrorCode
  message : Bytes
  deriving DecidableEq, Repr

namespace Status

/-- A failure with a literal message. -/
def failure (code : ErrorCode) (message : String) : Status := ⟨code, text message⟩

end Status

/-- A value, or the status of the failure. -/
abbrev Result (α : Type) := Except Status α

/-- Fail with the status unless the condition holds. -/
def ensure (accepted : Bool) (refusal : Status) : Result Unit :=
  if accepted then .ok () else .error refusal

@[simp]
theorem ensure_eq_ok {accepted : Bool} {refusal : Status} {u : Unit} :
    ensure accepted refusal = .ok u ↔ accepted = true := by
  cases accepted <;> simp [ensure]

end Haf
