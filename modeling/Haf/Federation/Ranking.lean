/-
# Ranking the members

Every member is evaluated for a workload, and the eligible ones are ranked. The free memory that
a member advertises as supported is converted to an unsigned number, whatever its sign, and its
evidence need not be fresh.
-/

import Haf.Engine.Ranking
import Haf.Properties.Freshness

namespace Haf

open Sequence

/-- The free memory a member advertises as supported. -/
def MemberEntry.freeMemory (entry : MemberEntry) : Option Int64 :=
  let free := entry.descriptor.capabilities.lookup Cap.memoryFreeBytes
  if free.present ∧ free.state = .supported then free.value.map (·.integerValue) else none

namespace Federation

/-- A member as a candidate. Every evaluation reads the clocks for itself. -/
def rankingCandidate (f : Federation) (profile : WorkloadProfile)
    (envs : AcceleratorId → Environment) (entry : MemberEntry) : Result RankingCandidate := do
  let accelerator := entry.record.accelerator
  let decision ← f.evaluateLocked profile accelerator {} false (envs accelerator) .decision
  return { accelerator, decision, freeMemoryBytes := (entry.freeMemory.map (·.toUInt64)).getD 0 }

def rankingCandidates (f : Federation) (workload : WorkloadClassId)
    (envs : AcceleratorId → Environment) : Result (List RankingCandidate) := do
  let profile ← f.registeredWorkload workload
  f.members.values.mapM (f.rankingCandidate profile envs)

def rank (f : Federation) (workload : WorkloadClassId) (w : RankingWeights)
    (envs : AcceleratorId → Environment) : Option (Result RankingResult) :=
  match f.rankingCandidates workload envs with
  | .ok candidates => rankCandidates candidates w
  | .error status => some (.error status)

end Federation

variable {f : Federation} {workload : WorkloadClassId} {envs : AcceleratorId → Environment}
  {w : RankingWeights} {c : RankingCandidate} {candidates : List RankingCandidate}

theorem amount_memoryDimension (used : w.useFreeMemory = true) (c : RankingCandidate) :
    (memoryDimension c w).amount =
      (c.freeMemoryBytes.toNat / 1073741824 : Nat) * w.freeMemoryGibBonus.toInt := by
  by_cases none_ : c.freeMemoryBytes = 0 <;> simp [memoryDimension, Dimension.amount, used, none_]

/-- A number is converted to itself, and a negative one to a large one. -/
theorem toNat_toUInt64 (x : Int64) : (0 ≤ x.toInt ∧ (x.toUInt64.toNat : Int) = x.toInt) ∨
    (x.toInt < 0 ∧ 9223372036854775808 ≤ x.toUInt64.toNat) := by
  have signed : x.toInt = x.toUInt64.toBitVec.toInt := rfl
  have bits : x.toUInt64.toNat = x.toUInt64.toBitVec.toNat := rfl
  rw [signed, bits, BitVec.toInt_eq_toNat_cond]
  split <;> omega

namespace Federation

/-- The free memory that the member advertises as supported. -/
def freeMemoryOf (f : Federation) (a : AcceleratorId) : Option Int64 :=
  (f.members.get? a).bind (·.freeMemory)

/-- The evidence of the member is fresh when it is evaluated. -/
def isFreshFor (f : Federation) (envs : AcceleratorId → Environment) (a : AcceleratorId) : Bool :=
  (f.members.get? a).any fun entry =>
    (f.evaluationTarget entry ((envs a).monotonic .decision)).evidenceFresh

theorem freeMemoryBytes_eq (evaluated : f.rankingCandidates workload envs = .ok candidates)
    (listed : c ∈ candidates) :
    c.freeMemoryBytes = ((f.freeMemoryOf c.accelerator).map (·.toUInt64)).getD 0 ∧
      c.topologyDistance = 0 ∧ c.migrationCost = 0 := by
  obtain ⟨profile, _, mapped⟩ := bind_eq_ok.mp evaluated
  obtain ⟨entry, stored, made⟩ := exists_of_mem_mapM mapped listed
  obtain ⟨decision, _, same⟩ := bind_eq_ok.mp made
  cases pure_eq_ok.mp same
  rw [freeMemoryOf, Keyed.mem_values.mp stored]
  exact ⟨rfl, rfl, rfl⟩

/-- Free memory counts only if it is fresh and real, and more of it never lowers a score. -/
structure RanksRealMemory (f : Federation) (envs : AcceleratorId → Environment)
    (candidates : List RankingCandidate) (w : RankingWeights) : Prop where
  real : ∀ c ∈ candidates, c.isEligible → 0 < (memoryDimension c w).amount →
    f.isFreshFor envs c.accelerator ∧ ∃ x, f.freeMemoryOf c.accelerator = some x ∧ 0 ≤ x.toInt
  monotone : ∀ c ∈ candidates, ∀ c' ∈ candidates, c.isEligible → c'.isEligible →
    c.decision.portability = c'.decision.portability →
    c.decision.provenance = c'.decision.provenance → c.decision.score = c'.decision.score →
    ∀ x x', f.freeMemoryOf c.accelerator = some x → f.freeMemoryOf c'.accelerator = some x' →
      x.toInt ≤ x'.toInt → ∀ s s', scoreCandidate c w = some s → scoreCandidate c' w = some s' →
        s ≤ s'

end Federation

namespace Sample

/-- The first boot advertises its device as ready, and less than no free memory. -/
def overdrawn : AcceleratorDescriptor :=
  let records := [healthRecord, supported Cap.memoryFreeBytes (.integer (-1)) (by decide +kernel)]
  { first with capabilities :=
    { id := capabilitySetIdentity records []
      generation := ⟨1⟩
      records
      records_canonical := by decide +kernel
      identified := .inl rfl } }

/-- The candidates for the cautious workload. -/
def candidatesFor (d : AcceleratorDescriptor) : Result (List RankingCandidate) :=
  (opened.after (readying d)).rankingCandidates (ident 20) fun _ => env

end Sample

open Sample

end Haf
