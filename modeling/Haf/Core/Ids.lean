/-
# Strongly typed identities and generations

Every identity is an opaque 128-bit value wrapped in a type of its own, and
every counter is bound to a semantic domain. The tag is a parameter of the type,
so that two identities of different kinds can never be compared.
-/

import Haf.Core.Status
import Haf.Lib.Order

namespace Haf

/-- Opaque 128-bit identity value. -/
structure Id128 where
  bytes : Bytes
  length_eq : bytes.length = 16
  deriving DecidableEq

namespace Id128

/-- The all-zero identity. -/
def nil : Id128 := ⟨List.replicate 16 0, rfl⟩

instance : Inhabited Id128 := ⟨nil⟩

def isNil (id : Id128) : Bool := id.bytes.all (· == 0)

/-- Build an identity from at most 16 bytes, zero padded on the right. -/
def fromBytes (data : Bytes) : Id128 :=
  ⟨data.take 16 ++ List.replicate (16 - data.length) 0, by simp; omega⟩

@[ext]
theorem ext {a b : Id128} (same : a.bytes = b.bytes) : a = b := by
  cases a; cases b; cases same; rfl

theorem isNil_iff (id : Id128) : id.isNil = true ↔ id = nil := by
  obtain ⟨bytes, length⟩ := id
  simp only [isNil, List.all_eq_true, beq_iff_eq, nil, mk.injEq]
  rw [List.eq_replicate_iff]
  exact ⟨fun zero => ⟨length, zero⟩, fun zero => zero.2⟩

instance : LinearOrder Id128 := LinearOrder.lift' Id128.bytes fun _ _ => ext

end Id128

/-- The semantic kinds of identity. -/
inductive IdTag
  | federation | agent | agentBoot | node | accelerator | physicalDevice
  | vendor | architecture | capabilitySet | evidence | workloadClass
  | workloadRequirement | compatibilityDecision | decision | migrationPlan | policy | snapshot
  | session
  deriving DecidableEq

/-- An identity of one semantic kind. -/
structure StrongId (tag : IdTag) where
  raw : Id128
  deriving DecidableEq

namespace StrongId

variable {tag : IdTag}

instance : Inhabited (StrongId tag) := ⟨⟨Id128.nil⟩⟩

/-- The nil identity of a kind, its default value. -/
def nil : StrongId tag := ⟨Id128.nil⟩

def isNil (id : StrongId tag) : Bool := id.raw.isNil

@[ext]
theorem ext {a b : StrongId tag} (same : a.raw = b.raw) : a = b := by
  cases a; cases b; cases same; rfl

theorem isNil_iff (id : StrongId tag) : id.isNil = true ↔ id = nil := by
  rw [isNil, Id128.isNil_iff, StrongId.ext_iff, nil]

@[simp]
theorem isNil_eq_false (id : StrongId tag) : id.isNil = false ↔ id ≠ nil := by
  rw [← Bool.not_eq_true, isNil_iff]

instance : LinearOrder (StrongId tag) := LinearOrder.lift' StrongId.raw fun _ _ => ext

end StrongId

/-- The semantic domains of generation counters. -/
inductive GenerationTag
  | federation | coordinatorEpoch | device | capability | evidence | policy
  | decision | migration | workloadRevision | agent | messageSequence
  deriving DecidableEq

/-- Monotonic generation counter bound to a semantic domain. -/
structure Generation (tag : GenerationTag) where
  value : UInt64
  deriving DecidableEq

namespace Generation

variable {tag : GenerationTag}

instance : Inhabited (Generation tag) := ⟨⟨0⟩⟩

/-- The largest generation. -/
def maxValue : UInt64 := 0xFFFFFFFFFFFFFFFF

/-- Next generation in the same domain. Saturating; never wraps to zero. -/
def next (g : Generation tag) : Generation tag :=
  if g.value == maxValue then g else ⟨g.value + 1⟩

def isInitial (g : Generation tag) : Bool := g.value == 0

@[ext]
theorem ext {a b : Generation tag} (same : a.value = b.value) : a = b := by
  cases a; cases b; cases same; rfl

/-- Below the maximum the counter strictly grows. -/
theorem value_next {g : Generation tag} (below : g.value ≠ maxValue) :
    g.next.value.toNat = g.value.toNat + 1 := by
  have bound : g.value.toNat ≠ 18446744073709551615 := by
    intro top
    exact below (UInt64.toNat_inj.mp top)
  have size := UInt64.toNat_lt g.value
  rw [next, if_neg (by simpa using below)]
  simp only [UInt64.toNat_add, UInt64.reduceToNat]
  omega

/-- The counter moves except at the maximum. -/
theorem next_ne_self {g : Generation tag} (below : g.value ≠ maxValue) : g.next ≠ g := by
  intro same
  have grown := value_next below
  rw [same] at grown
  omega

theorem next_of_max {g : Generation tag} (top : g.value = maxValue) : g.next = g := by
  rw [next, if_pos (by simpa using top)]

theorem value_lt_next {g : Generation tag} (below : g.value ≠ maxValue) :
    g.value < g.next.value := by
  rw [UInt64.lt_iff_toNat_lt, value_next below]
  exact Nat.lt_succ_self _

/-- The counter never goes back. -/
theorem value_le_next (g : Generation tag) : g.value ≤ g.next.value := by
  by_cases top : g.value = maxValue
  · rw [next_of_max top]
    exact UInt64.le_refl _
  · exact UInt64.le_of_lt (value_lt_next top)

end Generation

abbrev FederationId := StrongId .federation
abbrev AgentId := StrongId .agent
abbrev AgentBootId := StrongId .agentBoot
abbrev NodeId := StrongId .node
abbrev AcceleratorId := StrongId .accelerator
abbrev PhysicalDeviceId := StrongId .physicalDevice
abbrev VendorId := StrongId .vendor
abbrev ArchitectureId := StrongId .architecture
abbrev CapabilitySetId := StrongId .capabilitySet
abbrev EvidenceId := StrongId .evidence
abbrev WorkloadClassId := StrongId .workloadClass
abbrev WorkloadRequirementId := StrongId .workloadRequirement
abbrev CompatibilityDecisionId := StrongId .compatibilityDecision
abbrev DecisionId := StrongId .decision
abbrev MigrationPlanId := StrongId .migrationPlan
abbrev PolicyId := StrongId .policy
abbrev SessionId := StrongId .session

abbrev FederationGeneration := Generation .federation
abbrev CoordinatorEpoch := Generation .coordinatorEpoch
abbrev DeviceGeneration := Generation .device
abbrev CapabilityGeneration := Generation .capability
abbrev EvidenceGeneration := Generation .evidence
abbrev PolicyGeneration := Generation .policy
abbrev DecisionGeneration := Generation .decision
abbrev MigrationGeneration := Generation .migration
abbrev WorkloadRevision := Generation .workloadRevision
abbrev AgentGeneration := Generation .agent
abbrev MessageSequence := Generation .messageSequence

end Haf
