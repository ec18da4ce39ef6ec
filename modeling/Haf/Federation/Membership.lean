/-
# Membership operations

Observing an advertisement, moving a member through its lifecycle and updating its
capabilities. Each operation settles on a changed state by a named transformer and
publishes it.
-/

import Haf.Federation.State

namespace Haf

open Sequence

/-- Append a line to an audit trail, sort it and cut it to the number of entries kept. -/
def remember (history : List Bytes) (line : Bytes) : List Bytes :=
  (ascending (history ++ [line])).take maxHistoryEntries

def transitionText (source target : MemberState) : Bytes :=
  source.toText ++ text "->" ++ target.toText

/-- States that block a new incarnation of the same physical device. -/
def holdsCompetingAuthority : MemberState → Bool
  | .admitted | .active | .draining => true
  | _ => false

namespace MemberEntry

/-- The entry retired by a newer incarnation. -/
def superseded (entry : MemberEntry) (by_ : AcceleratorId) (now : Timestamp) : MemberEntry :=
  { record := { entry.record with
      state := .retired
      stateGeneration := entry.record.stateGeneration.next
      updatedAt := now
      history := remember entry.record.history (text "RETIRED superseded-by " ++ by_.toText) }
    descriptor := entry.descriptor
    described := entry.described }

/-- The entry after a lifecycle move in the federation `f`. -/
def moved (entry : MemberEntry) (f : Federation) (target : MemberState) (now : Timestamp) :
    MemberEntry :=
  { record := { entry.record with
      state := target
      stateGeneration := entry.record.stateGeneration.next
      policyGeneration := f.policy.generation
      updatedAt := now
      history := remember entry.record.history (transitionText entry.record.state target)
      federationGeneration := f.generation.next
      epoch := f.epoch }
    descriptor := entry.descriptor
    described := entry.described }

/-- The record after the capability generation moved to the next one. -/
def advancedRecord (entry : MemberEntry) (f : Federation) (now : Timestamp) : MemberRecord :=
  let next := entry.record.capabilityGeneration.next
  { entry.record with
    capabilityGeneration := next
    evidenceGeneration := entry.record.evidenceGeneration.next
    stateGeneration := entry.record.stateGeneration.next
    policyGeneration := f.policy.generation
    updatedAt := now
    history := remember entry.record.history
      (text "CAPABILITY_UPDATE " ++ decimal next.value.toNat)
    federationGeneration := f.generation.next
    epoch := f.epoch }

/-- The entry after an advertisement with another capability digest. -/
def readvertised (entry : MemberEntry) (f : Federation) (d : AcceleratorDescriptor)
    (same : d.id = entry.record.accelerator) (now : Timestamp) : MemberEntry :=
  { record := { entry.advancedRecord f now with
      supportLevel := d.supportLevel
      provenance := d.provenance }
    descriptor := { d with
      capabilities := d.capabilities.setGeneration entry.record.capabilityGeneration.next }
    described := same }

/-- The entry after an advertisement with the capabilities it already has. -/
def refreshed (entry : MemberEntry) (f : Federation) (d : AcceleratorDescriptor)
    (same : d.id = entry.record.accelerator) (now : Timestamp) : MemberEntry :=
  { record := { entry.record with
      evidenceGeneration := entry.record.evidenceGeneration.next
      supportLevel := d.supportLevel
      provenance := d.provenance
      policyGeneration := f.policy.generation
      updatedAt := now
      federationGeneration := f.generation.next
      epoch := f.epoch }
    descriptor := d
    described := same }

/-- The entry after an advertisement for an accelerator that is already a member. -/
def observedAgain (entry : MemberEntry) (f : Federation) (d : AcceleratorDescriptor)
    (same : d.id = entry.record.accelerator) (now : Timestamp) : MemberEntry :=
  if entry.descriptor.capabilities.digest ≠ d.capabilities.digest then
    entry.readvertised f d same now
  else entry.refreshed f d same now

theorem observedAgain_of_digest_ne {entry : MemberEntry} {f : Federation}
    {d : AcceleratorDescriptor} {same : d.id = entry.record.accelerator} {now : Timestamp}
    (changed : entry.descriptor.capabilities.digest ≠ d.capabilities.digest) :
    entry.observedAgain f d same now = entry.readvertised f d same now := if_pos changed

theorem observedAgain_of_digest_eq {entry : MemberEntry} {f : Federation}
    {d : AcceleratorDescriptor} {same : d.id = entry.record.accelerator} {now : Timestamp}
    (unchanged : entry.descriptor.capabilities.digest = d.capabilities.digest) :
    entry.observedAgain f d same now = entry.refreshed f d same now :=
  if_neg (not_not_intro unchanged)

/-- A repeated advertisement moves neither the state nor the ownership of a member. -/
theorem record_observedAgain (entry : MemberEntry) (f : Federation) (d : AcceleratorDescriptor)
    (same : d.id = entry.record.accelerator) (now : Timestamp) :
    (entry.observedAgain f d same now).record.state = entry.record.state ∧
      (entry.observedAgain f d same now).record.accelerator = entry.record.accelerator ∧
      (entry.observedAgain f d same now).record.physicalDevice = entry.record.physicalDevice ∧
      (entry.observedAgain f d same now).record.agentBoot = entry.record.agentBoot := by
  unfold observedAgain
  split <;> exact ⟨rfl, rfl, rfl, rfl⟩

/-- The entry after a capability update: the evidence is replaced by the new record. -/
def updated (entry : MemberEntry) (f : Federation) (capabilities : CapabilitySet)
    (evidence : EvidenceRecord) (now : Timestamp) : MemberEntry :=
  { record := entry.advancedRecord f now
    descriptor := { entry.descriptor with
      capabilities := capabilities.setGeneration entry.record.capabilityGeneration.next
      evidence := [evidence] }
    described := entry.described }

end MemberEntry

namespace Federation

/-- The known incarnations of a physical device. -/
def incarnations (f : Federation) (device : PhysicalDeviceId) : List AcceleratorId :=
  (f.physicalIndex[device]?).getD []

/-- The boot of another incarnation that competes with the advertised one. -/
def competingBoot (f : Federation) (d : AcceleratorDescriptor) : Option AgentBootId :=
  (f.incarnations d.physicalDevice).findSome? fun candidate =>
    if candidate = d.id then none
    else
      match f.members.get? candidate with
      | none => none
      | some entry =>
          if holdsCompetingAuthority entry.record.state && entry.record.agentBoot ≠ d.agentBoot then
            some entry.record.agentBoot
          else none

/-- Retire one earlier incarnation of the same agent. -/
def supersede (d : AcceleratorDescriptor) (env : Environment) (members : MemberTable)
    (candidate : AcceleratorId) : MemberTable :=
  match members.get? candidate with
  | none => members
  | some entry =>
      if candidate ≠ d.id && entry.record.agent = d.agent && !entry.record.state.isTerminal then
        members.insert (entry.superseded d.id (env.wall (.superseded candidate)))
      else members

/-- The record of an accelerator that joins. -/
def enrolledRecord (f : Federation) (d : AcceleratorDescriptor) (now : Timestamp) : MemberRecord :=
  { federation := f.id
    federationGeneration := f.generation.next
    epoch := f.epoch
    agent := d.agent
    agentBoot := d.agentBoot
    agentGeneration := ⟨1⟩
    accelerator := d.id
    physicalDevice := d.physicalDevice
    deviceGeneration := d.generation
    capabilityGeneration := d.capabilities.generation
    evidenceGeneration := ⟨1⟩
    policyGeneration := f.policy.generation
    state := .observed
    stateGeneration := ⟨1⟩
    supportLevel := d.supportLevel
    provenance := d.provenance
    admittedAt := now
    updatedAt := now
    history := ascending [text "DISCOVERED", text "OBSERVED"] }

/-- The federation after a new accelerator joined and its predecessors were retired. -/
def enrolled (f : Federation) (d : AcceleratorDescriptor) (env : Environment) : Federation :=
  let known := f.incarnations d.physicalDevice
  let entry : MemberEntry := ⟨f.enrolledRecord d (env.wall .member), d, rfl⟩
  { f with
    generation := f.generation.next
    members := (known.foldl (supersede d env) f.members).insert entry
    physicalIndex := f.physicalIndex.insert d.physicalDevice (known ++ [d.id]) }

/-- The federation with a member replaced by a later version of it. -/
def withMember (f : Federation) (entry : MemberEntry) : Federation :=
  { f with generation := f.generation.next, members := f.members.insert entry }

/-- Validate an advertisement and create or refresh the member. -/
def settleObserve (f : Federation) (d : AcceleratorDescriptor) (claim : AuthorityClaim)
    (env : Environment) : Result (Settled MemberRecord) := do
  f.validateAuthority claim
  d.validate
  ensure (deriveAcceleratorId d.physicalDevice d.agent d.agentBoot d.generation = d.id)
    (.failure .integrityFailure
      "advertised accelerator identity does not match its physical device, agent boot, and incarnation")
  ensure (!(d.agentBoot ≠ claim.agentBoot && claim.checkAgentBoot))
    (.failure .staleBoot "advertisement presents a boot identity that does not match the claim")
  match f.competingBoot d with
  | some boot =>
      .error ⟨.duplicateLiveBoot, text "physical device " ++ d.physicalDevice.toText ++
        text " is already claimed by live boot " ++ boot.toText⟩
  | none =>
      match found : f.members.get? d.id with
      | none =>
          .ok (.changed (f.enrolledRecord d (env.wall .member)) (f.enrolled d env))
      | some entry => do
          ensure (!entry.record.state.isTerminal)
            (.failure .retired "accelerator incarnation is retired and cannot be revived")
          ensure (entry.record.state ≠ .fenced)
            (.failure .fenced
              "accelerator is fenced; an explicit reopen is required before it can accept advertisements")
          ensure (entry.record.agentBoot = d.agentBoot)
            (.failure .staleBoot
              "advertisement presents a different boot identity for a live incarnation")
          let entry' := entry.observedAgain f d (Keyed.key_of_get? found).symm (env.wall .member)
          .ok (.changed entry'.record (f.withMember entry'))

def observe (f : Federation) (d : AcceleratorDescriptor) (claim : AuthorityClaim)
    (env : Environment) : Outcome MemberRecord :=
  f.conclude env (f.settleObserve d claim env)

/-- The entry of a member, which must exist. -/
def memberEntry (f : Federation) (accelerator : AcceleratorId) : Result MemberEntry :=
  match f.members.get? accelerator with
  | some entry => .ok entry
  | none =>
      .error ⟨.unknownAccelerator, text "no federation member for accelerator " ++
        accelerator.toText⟩

/-- Move a member through its lifecycle. Re-asserting the current state is not an error
and advances no generation. -/
def settleTransition (f : Federation) (accelerator : AcceleratorId) (target : MemberState)
    (claim : AuthorityClaim) (env : Environment) : Result (Settled MemberRecord) := do
  f.validateAuthority claim
  let entry ← f.memberEntry accelerator
  f.validateMemberAuthority claim entry.record accelerator
  if entry.record.state = target then .ok (.unchanged entry.record)
  else do
    ensure (entry.record.state.isLegalTransition target)
      ⟨.invalidTransition, text "illegal member transition " ++
        transitionText entry.record.state target ++ text " for accelerator " ++
        accelerator.toText⟩
    let entry' := entry.moved f target (env.wall .member)
    .ok (.changed entry'.record (f.withMember entry'))

def transition (f : Federation) (accelerator : AcceleratorId) (target : MemberState)
    (claim : AuthorityClaim) (env : Environment) : Outcome MemberRecord :=
  f.conclude env (f.settleTransition accelerator target claim env)

def admitMember (f : Federation) (accelerator : AcceleratorId) (claim : AuthorityClaim)
    (env : Environment) : Outcome MemberRecord := f.transition accelerator .admitted claim env

def activate (f : Federation) (accelerator : AcceleratorId) (claim : AuthorityClaim)
    (env : Environment) : Outcome MemberRecord := f.transition accelerator .active claim env

def fence (f : Federation) (accelerator : AcceleratorId) (claim : AuthorityClaim)
    (env : Environment) : Outcome MemberRecord := f.transition accelerator .fenced claim env

/-- Replace the capabilities of a member. Every accepted update advances the capability
generation, even when the payload is byte-identical. -/
def settleUpdateCapabilities (f : Federation) (accelerator : AcceleratorId)
    (capabilities : CapabilitySet) (evidence : EvidenceRecord) (claim : AuthorityClaim)
    (env : Environment) : Result (Settled MemberRecord) := do
  f.validateAuthority claim
  let entry ← f.memberEntry accelerator
  f.validateMemberAuthority claim entry.record accelerator
  ensure (!(entry.record.state = .fenced || entry.record.state.isTerminal))
    ⟨if entry.record.state = .fenced then .fenced else .retired,
      text "accelerator cannot accept capability updates in state " ++ entry.record.state.toText⟩
  capabilities.validate
  evidence.validate
  ensure (evidence.subject = accelerator)
    (.failure .integrityFailure "evidence record is bound to a different accelerator")
  ensure (evidence.provenance = entry.record.provenance)
    (.failure .integrityFailure
      "evidence provenance does not match the member provenance; provenance cannot be upgraded through a capability update")
  ensure (evidence.payloadDigest = capabilities.digest)
    (.failure .integrityFailure
      "evidence payload digest does not match the advertised capability set")
  let entry' := entry.updated f capabilities evidence (env.wall .member)
  .ok (.changed entry'.record (f.withMember entry'))

def updateCapabilities (f : Federation) (accelerator : AcceleratorId)
    (capabilities : CapabilitySet) (evidence : EvidenceRecord) (claim : AuthorityClaim)
    (env : Environment) : Outcome MemberRecord :=
  f.conclude env (f.settleUpdateCapabilities accelerator capabilities evidence claim env)

end Federation

end Haf
