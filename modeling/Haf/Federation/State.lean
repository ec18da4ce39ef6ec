/-
# Federation state, authority and persistence

A federation owns its members, policy, workloads, decisions and plans, and the
store it publishes them to. Every public operation first settles, on the state in
memory, what it does; only then is a changed state written to the store. What an
operation takes from outside (clocks, a generated identity, a fault of the store)
is its environment.
-/

import Haf.Federation.Snapshot
import Haf.Lib.Keyed

namespace Haf

/-! ### Authority claims -/

/-- The generations a caller asserts to be current, each with a flag. -/
structure AuthorityClaim where
  federationGeneration : FederationGeneration := ⟨0⟩
  epoch : CoordinatorEpoch := ⟨0⟩
  checkFederationGeneration : Bool := false
  checkEpoch : Bool := true
  checkAgent : Bool := false
  agent : AgentId := .nil
  checkAgentBoot : Bool := false
  agentBoot : AgentBootId := .nil
  checkDeviceGeneration : Bool := false
  deviceGeneration : DeviceGeneration := ⟨0⟩
  checkCapabilityGeneration : Bool := false
  capabilityGeneration : CapabilityGeneration := ⟨0⟩
  checkPolicyGeneration : Bool := false
  policyGeneration : PolicyGeneration := ⟨0⟩
  checkWorkloadRevision : Bool := false
  workloadRevision : WorkloadRevision := ⟨0⟩
  /-- Free-form context, never used for a decision. -/
  purpose : Bytes := []
  deriving DecidableEq

/-- Claim asserting only that the caller knows the current coordinator epoch. -/
def epochOnlyClaim (epoch : CoordinatorEpoch) : AuthorityClaim := { epoch }

/-! ### The store -/

inductive StoreKind
  | file | memory
  deriving DecidableEq

/-- A store holds the last payload it accepted. -/
structure Store where
  kind : StoreKind
  payload : Option Bytes
  deriving DecidableEq

namespace Store

/-- Replace the payload. A file store refuses oversized payloads and may fail for reasons
of its own; in both cases the old payload stays. A memory store never fails. -/
def write (s : Store) (fault : Option Status) (payload : Bytes) : Result Unit × Store :=
  match s.kind with
  | .memory => (.ok (), { s with payload := some payload })
  | .file =>
      if Limits.maxStorePayloadBytes < payload.length then
        (.error (.failure .boundsExceeded "payload exceeds the maximum persisted size"), s)
      else
        match fault with
        | some status => (.error status, s)
        | none => (.ok (), { s with payload := some payload })

end Store

/-! ### Environment and configuration -/

/-- The places where an operation reads a clock. -/
inductive ClockSite
  | superseded (accelerator : AcceleratorId)
  | recovered (accelerator : AcceleratorId)
  | member | decision | sourceDecision | destinationDecision | plan | snapshot
  deriving DecidableEq

/-- What one operation takes from outside the federation. -/
structure Environment where
  wall : ClockSite → Timestamp
  monotonic : ClockSite → MonotonicTime
  /-- The status with which the file system refuses a write, if it does. -/
  writeFault : Option Status
  /-- The identity the generator yields for a federation opened without one. -/
  generatedId : FederationId

structure FederationConfig where
  id : FederationId := .nil
  name : Bytes := text "federation"
  policy : FederationPolicy := {}
  storePath : Bytes := []
  persist : Bool := true
  persistOnMutation : Bool := true
  maxRecordedDecisions : Nat := 100000

/-! ### State -/

/-- A member with the descriptor of the same accelerator. -/
structure MemberEntry where
  record : MemberRecord
  descriptor : AcceleratorDescriptor
  described : descriptor.id = record.accelerator

abbrev MemberTable := Keyed fun entry : MemberEntry => entry.record.accelerator
abbrev WorkloadTable := Keyed WorkloadProfile.classId
abbrev DecisionTable := Keyed CompatibilityDecision.decisionId
abbrev PlanTable := Keyed MigrationPlan.id

instance transCmp_strongId (tag : IdTag) :
    Std.TransCmp (compare : StrongId tag → StrongId tag → Ordering) :=
  inferInstance

/-- The incarnations of each physical device, in the order they were seen. -/
abbrev PhysicalIndex := Std.ExtTreeMap PhysicalDeviceId (List AcceleratorId) compare

/-- Outcome of a conservative recovery. -/
structure RecoveryReport where
  recovered : Bool := false
  previousEpoch : CoordinatorEpoch := ⟨0⟩
  newEpoch : CoordinatorEpoch := ⟨0⟩
  newGeneration : FederationGeneration := ⟨0⟩
  membersRestored : Nat := 0
  membersRequiringRevalidation : Nat := 0
  decisionsInvalidated : Nat := 0
  plansAborted : Nat := 0
  retiredMembers : Nat := 0
  detail : Bytes := []
  deriving DecidableEq

/-- An opened federation. The registry is the capability table of the process it runs in. -/
structure Federation where
  registry : Registry
  id : FederationId
  name : Bytes
  generation : FederationGeneration
  epoch : CoordinatorEpoch
  policy : FederationPolicy
  members : MemberTable
  physicalIndex : PhysicalIndex
  workloads : WorkloadTable
  decisions : DecisionTable
  plans : PlanTable
  isShutdown : Bool
  persistEnabled : Bool
  persistOnMutation : Bool
  maxRecordedDecisions : Nat
  store : Store
  recovery : RecoveryReport

namespace Federation

/-- The snapshot of the current state. Members and descriptors are listed in the order of the
member table; the snapshot then sorts each list by its own identity. -/
def snapshotLocked (f : Federation) (env : Environment) : FederationSnapshot :=
  FederationSnapshot.canonicalize {
    federation := f.id
    generation := f.generation
    epoch := f.epoch
    name := f.name
    policy := f.policy.id
    policyGeneration := f.policy.generation
    policyData := f.policy
    members := f.members.values.map (·.record)
    descriptors := f.members.values.map (·.descriptor)
    workloads := f.workloads.values
    decisions := f.decisions.values
    plans := f.plans.values
    createdAt := env.wall .snapshot }

/-- Write the current state to the store, unless persistence is off or deferred. -/
def persistLocked (f : Federation) (env : Environment) (force : Bool) :
    Result Unit × Federation :=
  if !f.persistEnabled then (.ok (), f)
  else if !f.persistOnMutation && !force then (.ok (), f)
  else
    let (result, store) := f.store.write env.writeFault (encodeSnapshot (f.snapshotLocked env))
    (result, { f with store })

/-! ### Authority -/

/-- The check every mutation makes. -/
def validateAuthority (f : Federation) (claim : AuthorityClaim) : Result Unit := do
  ensure (!f.isShutdown)
    (.failure .shutdownInProgress "federation authority is revoked")
  ensure (!(claim.checkFederationGeneration && claim.federationGeneration ≠ f.generation))
    ⟨.staleFederationGeneration, text "claim asserts federation generation " ++
      decimal claim.federationGeneration.value.toNat ++
      text " but the current generation is " ++ decimal f.generation.value.toNat⟩
  ensure (!(claim.checkEpoch && claim.epoch ≠ f.epoch))
    ⟨.staleEpoch, text "claim asserts coordinator epoch " ++ decimal claim.epoch.value.toNat ++
      text " but the current epoch is " ++ decimal f.epoch.value.toNat⟩

/-- The further check of mutations scoped to one member. -/
def validateMemberAuthority (f : Federation) (claim : AuthorityClaim) (record : MemberRecord)
    (accelerator : AcceleratorId) : Result Unit := do
  f.validateAuthority claim
  ensure (!(claim.checkAgent && claim.agent ≠ record.agent))
    ⟨.staleAgent, text "claim is scoped to a different agent for accelerator " ++
      accelerator.toText⟩
  ensure (!(claim.checkAgentBoot && claim.agentBoot ≠ record.agentBoot))
    ⟨.staleBoot, text "claim presents boot identity " ++ claim.agentBoot.toText ++
      text " but accelerator " ++ accelerator.toText ++ text " is owned by boot " ++
      record.agentBoot.toText⟩
  ensure (!(claim.checkDeviceGeneration && claim.deviceGeneration ≠ record.deviceGeneration))
    ⟨.staleDeviceGeneration, text "claim asserts device generation " ++
      decimal claim.deviceGeneration.value.toNat ++ text " but accelerator " ++
      accelerator.toText ++ text " is at generation " ++
      decimal record.deviceGeneration.value.toNat⟩
  ensure (!(claim.checkCapabilityGeneration &&
      claim.capabilityGeneration ≠ record.capabilityGeneration))
    ⟨.staleCapabilityGeneration, text "claim asserts capability generation " ++
      decimal claim.capabilityGeneration.value.toNat ++ text " but accelerator " ++
      accelerator.toText ++ text " is at generation " ++
      decimal record.capabilityGeneration.value.toNat⟩
  ensure (!(claim.checkPolicyGeneration && claim.policyGeneration ≠ f.policy.generation))
    ⟨.stalePolicy, text "claim asserts policy generation " ++
      decimal claim.policyGeneration.value.toNat ++
      text " but the active policy generation is " ++ decimal f.policy.generation.value.toNat⟩

end Federation

/-! ### Settling and concluding -/

/-- What an operation settles on before anything is written. -/
inductive Settled (α : Type)
  /-- An error is returned, from a state that may already have moved. -/
  | refused (status : Status) (state : Federation)
  /-- A value is returned and nothing has to be written. -/
  | unchanged (value : α)
  /-- A value is returned once the new state is written. -/
  | changed (value : α) (state : Federation)

/-- What a call returns and leaves behind. The fault is the status with which the store refused
the write, if one was attempted and refused. -/
structure Outcome (α : Type) where
  result : Result α
  fault : Option Status
  state : Federation

namespace Federation

/-- Publish a changed state and return the value, or the status of the failed write. -/
def publish {α : Type} (value : α) (g : Federation) (env : Environment) : Outcome α :=
  match g.persistLocked env false with
  | (.ok (), h) => ⟨.ok value, none, h⟩
  | (.error status, h) => ⟨.error status, some status, h⟩

/-- Carry out what an operation on `f` settled on. -/
def conclude {α : Type} (f : Federation) (env : Environment) : Result (Settled α) → Outcome α
  | .error status => ⟨.error status, none, f⟩
  | .ok (.refused status g) => ⟨.error status, none, g⟩
  | .ok (.unchanged value) => ⟨.ok value, none, f⟩
  | .ok (.changed value g) => publish value g env

end Federation

end Haf
