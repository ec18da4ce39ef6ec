/-
# Opening, recovery and shutdown

Opening a federation on an empty store publishes a fresh state. On a store that
holds a snapshot of the same federation the state is conservatively recovered:
authority of the previous epoch is dead, so that live members come back degraded,
evidence awaits revalidation, decisions are dropped and plans in flight aborted.
-/

import Haf.Federation.Migration

namespace Haf

open Sequence

namespace MemberState

/-- The state in which a member comes back after a restart. -/
def afterRestart : MemberState → MemberState
  | .active | .admitted | .degraded | .draining => .degraded
  | state => state

end MemberState

/-- Evidence never becomes current merely because it exists on disk. -/
def EvidenceRecord.afterRestart (e : EvidenceRecord) : EvidenceRecord :=
  { e with
    requiresRevalidation := true
    observedMonotonicMarker := 0
    generation := e.generation.next }

/-- Why plans in flight are aborted by a restart. -/
def staleEpochReason : CompatibilityReason :=
  { code := .staleEpoch, subject := text "recovery"
    detail := text
      "coordinator authority advanced while this plan was in flight; the plan was aborted"
    strength := .hard, observed := .unknown }

/-- A stored member as it is restored, with the descriptor found for it. -/
def restoredEntry (stored : MemberRecord) (d : AcceleratorDescriptor)
    (same : d.id = stored.accelerator) (epoch : CoordinatorEpoch)
    (generation : FederationGeneration) (now : Timestamp) : MemberEntry :=
  { record := { stored with
      state := stored.state.afterRestart
      epoch, federationGeneration := generation
      stateGeneration := stored.stateGeneration.next
      history := remember stored.history (text "RECOVERED " ++ stored.state.afterRestart.toText ++
        text " epoch=" ++ decimal epoch.value.toNat)
      updatedAt := now }
    descriptor := { d with evidence := d.evidence.map (·.afterRestart) }
    described := same }

namespace FederationSnapshot

theorem id_of_findDescriptor {s : FederationSnapshot} {id : AcceleratorId}
    {d : AcceleratorDescriptor} (found : s.findDescriptor id = some d) : d.id = id := by
  have hit := (Option.filter_eq_some_iff.mp found).2
  simpa using hit

/-- The members of a snapshot that have a descriptor, as they are restored. -/
def restoredEntries (s : FederationSnapshot) (env : Environment) : List MemberEntry :=
  s.members.filterMap fun stored =>
    match found : s.findDescriptor stored.accelerator with
    | none => none
    | some d =>
        some (restoredEntry stored d (id_of_findDescriptor found) s.epoch.next s.generation.next
          (env.wall (.recovered stored.accelerator)))

/-- A stored member as it is restored, if it has a descriptor. -/
def restoredMember (s : FederationSnapshot) (env : Environment) (stored : MemberRecord) :
    Option MemberEntry :=
  match found : s.findDescriptor stored.accelerator with
  | none => none
  | some d =>
      some (restoredEntry stored d (id_of_findDescriptor found) s.epoch.next s.generation.next
        (env.wall (.recovered stored.accelerator)))

/-- What happens to the members, decisions and plans of a snapshot. -/
def recoveryReport (s : FederationSnapshot) : RecoveryReport :=
  let described := s.members.filter fun stored => (s.findDescriptor stored.accelerator).isSome
  let requiring := (described.filter (·.state ≠ .retired)).length
  { recovered := true
    previousEpoch := s.epoch
    newEpoch := s.epoch.next
    newGeneration := s.generation.next
    membersRestored := described.length
    membersRequiringRevalidation := requiring
    decisionsInvalidated := (s.members.length - described.length) + s.decisions.length
    plansAborted := s.plans.length
    retiredMembers := (described.filter (·.state = .retired)).length
    detail := text "epoch " ++ decimal s.epoch.value.toNat ++ text " -> " ++
      decimal s.epoch.next.value.toNat ++ text ", generation " ++
      decimal s.generation.next.value.toNat ++ text ", members restored " ++
      decimal described.length ++ text ", requiring revalidation " ++ decimal requiring }

end FederationSnapshot

namespace Federation

/-- File every restored incarnation under its physical device. -/
def indexed (entries : List MemberEntry) : PhysicalIndex :=
  entries.foldl (fun index entry =>
    index.insert entry.record.physicalDevice
      ((index[entry.record.physicalDevice]?).getD [] ++ [entry.record.accelerator])) ∅

/-- A federation as it is constructed, before the store is consulted. The disk is what the
file at the store path holds. -/
def constructed (R : Registry) (config : FederationConfig) (disk : Option Bytes)
    (env : Environment) : Federation :=
  { registry := R
    id := if config.id.isNil then env.generatedId else config.id
    name := config.name
    generation := ⟨1⟩
    epoch := ⟨1⟩
    policy := if config.policy.id.isNil then .permissiveDefault else config.policy
    members := .empty
    physicalIndex := ∅
    workloads := .empty
    decisions := .empty
    plans := .empty
    isShutdown := false
    persistEnabled := config.persist
    persistOnMutation := config.persistOnMutation
    maxRecordedDecisions := if config.maxRecordedDecisions = 0 then 1
      else config.maxRecordedDecisions
    store := if config.storePath.isEmpty then ⟨.memory, none⟩ else ⟨.file, disk⟩
    recovery := {} }

/-- A federation that found no durable state. -/
def fresh (f : Federation) : Federation :=
  { f with
    recovery := {
      newEpoch := f.epoch
      newGeneration := f.generation
      detail := text "fresh federation; no durable state was found" } }

/-- A federation that takes over the state of a snapshot. -/
def recovered (f : Federation) (s : FederationSnapshot) (env : Environment) : Federation :=
  { f with
    epoch := s.epoch.next
    generation := s.generation.next
    name := if s.name.isEmpty then f.name else s.name
    policy := s.policyData
    members := .ofList (s.restoredEntries env)
    physicalIndex := indexed (s.restoredEntries env)
    workloads := .ofList s.workloads
    plans := .ofList (s.plans.map (·.abortIfOpen staleEpochReason))
    recovery := s.recoveryReport }

/-- The state a constructed federation takes from its store. -/
def restore (f : Federation) (env : Environment) : Result Federation :=
  match f.store.payload with
  | none => .ok f.fresh
  | some payload => do
      let s ← decodeSnapshot f.registry payload
      ensure (s.federation = f.id)
        (.failure .integrityFailure "durable store belongs to a different federation identity")
      .ok (f.recovered s env)

/-- Open or create a federation. The restored state must be published before the instance is
handed out, unless writing is off or deferred. -/
def openOn (R : Registry) (config : FederationConfig) (disk : Option Bytes) (env : Environment) :
    Result Federation := do
  let f ← (constructed R config disk env).restore env
  match f.persistLocked env false with
  | (.ok (), g) => .ok g
  | (.error status, _) => .error status

/-- Write the current state, whatever the persistence mode. -/
def persist (f : Federation) (env : Environment) : Outcome Unit :=
  match f.persistLocked env true with
  | (.ok (), g) => ⟨.ok (), none, g⟩
  | (.error status, g) => ⟨.error status, some status, g⟩

/-- Revoke authority: after shutdown no claim is accepted. -/
def shutdown (f : Federation) (env : Environment) : Outcome Unit :=
  if f.isShutdown then ⟨.ok (), none, f⟩ else publish () { f with isShutdown := true } env

end Federation

end Haf
