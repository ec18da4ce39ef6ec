/-
# Evaluating the whole fleet

One workload against every member, in the order of the accelerators. Each cell of the
result is the decision that an evaluation of that one target gives; the first target
that cannot be evaluated fails the whole matrix. Nothing is recorded.
-/

import Haf.Federation.Evolution

namespace Haf

open Sequence

namespace Limits

def maxFleetEvaluationTargets : Nat := 1000000

end Limits

structure MatrixCell where
  accelerator : AcceleratorId
  decision : CompatibilityDecision

structure FleetEvaluation where
  workload : WorkloadClassId
  workloadRevision : WorkloadRevision
  cells : List MatrixCell
  eligibleCount : Nat
  ineligibleCount : Nat
  unknownCount : Nat

/-- Targets are ordered by accelerator, device generation and capability generation. -/
def targetOrder (target : EvaluationTarget) : List Bytes :=
  [target.accelerator.raw.bytes, (ByteWriter.u64 target.deviceGeneration.value).reverse,
    (ByteWriter.u64 target.capabilityGeneration.value).reverse]

/-- The number of cells with an outcome. -/
def countCells (cells : List MatrixCell) (outcome : CompatibilityOutcome) : Nat :=
  cells.countP (·.decision.outcome = outcome)

/-- Evaluate one target in the shared context. -/
def evaluateCell (R : Registry) (workload : WorkloadProfile) (context : EvaluationContext)
    (createdAt : AcceleratorId → Timestamp) (target : EvaluationTarget) : Result MatrixCell := do
  let decision ← evaluateCompatibility R workload { context with target }
    (createdAt target.accelerator)
  return { accelerator := target.accelerator, decision }

/-- Evaluate a workload against every supplied target; the target of the context is not used.
Every evaluation reads the clock for itself. -/
def evaluateFleet (R : Registry) (workload : WorkloadProfile) (context : EvaluationContext)
    (targets : List EvaluationTarget) (createdAt : AcceleratorId → Timestamp) :
    Result FleetEvaluation := do
  ensure (targets.length ≤ Limits.maxFleetEvaluationTargets)
    (.failure .boundsExceeded "fleet evaluation exceeds the permitted number of targets")
  let targets := sortOn targetOrder targets
  ensure (adjacentDuplicate (targets.map (·.accelerator.raw.bytes))).isNone
    (.failure .duplicateIdentity "fleet evaluation received a duplicate accelerator target")
  let cells ← targets.mapM (evaluateCell R workload context createdAt)
  return {
    workload := workload.classId
    workloadRevision := context.workloadRevision
    cells
    eligibleCount := countCells cells .eligible
    ineligibleCount := countCells cells .ineligible
    unknownCount := countCells cells .unknown }

/-- A target nothing has been said about. -/
def EvaluationTarget.unset : EvaluationTarget :=
  { accelerator := .nil
    deviceGeneration := ⟨0⟩
    capabilityGeneration := ⟨0⟩
    evidenceGeneration := ⟨0⟩
    supportLevel := .unknown
    provenance := .unsupported
    capabilities := none
    evidenceFresh := true
    acceptsNewWork := true }

namespace Federation

/-- What the evaluations of all members share. -/
def fleetContext (f : Federation) (profile : WorkloadProfile) (source : Option MemberEntry) :
    EvaluationContext :=
  { federation := f.id
    federationGeneration := f.generation
    epoch := f.epoch
    policyGeneration := f.policy.generation
    policy := some f.policy
    workloadRevision := profile.revision
    target := .unset
    source := source.map evaluationSource }

def evaluateFleet (f : Federation) (workload : WorkloadClassId) (options : EvaluationOptions)
    (env : Environment) (createdAt : AcceleratorId → Timestamp) : Result FleetEvaluation := do
  let profile ← f.registeredWorkload workload
  ensure (f.members.size ≤ Limits.maxFleetEvaluationTargets)
    (.failure .boundsExceeded "fleet evaluation exceeds the permitted member count")
  let source ← f.sourceEntry options true
  Haf.evaluateFleet f.registry profile (f.fleetContext profile source)
    (f.members.values.map (f.evaluationTarget · (env.monotonic .decision))) createdAt

/-! ### Each cell -/

/-- A cell of the matrix holds the decision on one of the targets. -/
theorem exists_of_mem_cells {R : Registry} {profile : WorkloadProfile}
    {context : EvaluationContext} {targets : List EvaluationTarget}
    {createdAt : AcceleratorId → Timestamp} {evaluation : FleetEvaluation}
    (evaluated : Haf.evaluateFleet R profile context targets createdAt = .ok evaluation)
    {cell : MatrixCell} (listed : cell ∈ evaluation.cells) :
    ∃ target ∈ targets, cell.accelerator = target.accelerator ∧
      evaluateCompatibility R profile { context with target } (createdAt target.accelerator) =
        .ok cell.decision := by
  simp only [Haf.evaluateFleet, bind_eq_ok, pure_eq_ok] at evaluated
  obtain ⟨_, _, _, _, cells, mapped, rfl⟩ := evaluated
  obtain ⟨target, inside, made⟩ := exists_of_mem_mapM mapped listed
  obtain ⟨decision, decided, same⟩ := bind_eq_ok.mp made
  cases pure_eq_ok.mp same
  exact ⟨target, mem_sortOn.mp inside, rfl, decided⟩

/-- The ways to have a workload evaluated against a member, and the decision they give. -/
inductive Yields (f : Federation) (env : Environment) (workload : WorkloadClassId)
    (a : AcceleratorId) (d : CompatibilityDecision) : Prop
  | recorded {options : EvaluationOptions}
      (returned : (f.evaluate workload a options env).result = .ok d)
  | transient {options : EvaluationOptions}
      (returned : f.evaluateTransient workload a options env = .ok d)
  | fleet {options : EvaluationOptions} {createdAt : AcceleratorId → Timestamp}
      {evaluation : FleetEvaluation}
      (returned : f.evaluateFleet workload options env createdAt = .ok evaluation)
      (listed : ⟨a, d⟩ ∈ evaluation.cells)

variable {f : Federation} {a : AcceleratorId} {d : CompatibilityDecision}
  {options : EvaluationOptions} {w : WorkloadClassId}

/-- A call that returns a value has settled on it. -/
theorem settledOn_of_conclude {α : Type} {env : Environment}
    {settled : Result (Settled α)} {value : α}
    (returned : (f.conclude env settled).result = .ok value) :
    settled = .ok (.unchanged value) ∨ ∃ g, settled = .ok (.changed value g) := by
  cases settled with
  | error status => cases returned
  | ok s =>
      cases s with
      | refused status g => cases returned
      | unchanged kept =>
          cases returned
          exact .inl rfl
      | changed changed g =>
          rw [conclude, publish] at returned
          split at returned
          · cases returned
            exact .inr ⟨g, rfl⟩
          · cases returned

/-- What a successful evaluation had read, and what it left behind. -/
theorem exists_of_evaluate
    {env : Environment}
    (returned : (f.evaluate w a options env).result = .ok d) :
    ∃ profile, f.workloads.get? w = some profile ∧
      f.evaluateLocked profile a options true env .decision = .ok d ∧
      ∃ store, (f.evaluate w a options env).state = { f.withDecision d with store } := by
  rcases settledOn_of_conclude returned with settled | ⟨g, settled⟩
  all_goals
    have changed := settled
    simp only [settleEvaluate, bind_eq_ok, registeredWorkload_eq_ok] at settled
    obtain ⟨_, _, profile, registered, decision, decided, same⟩ := settled
    cases same
  exact ⟨profile, registered, decided, state_of_conclude changed⟩

theorem evaluate_eq_ok
    {env : Environment}
    (evaluated : (f.evaluate w a options env).result = .ok d) :
    ∃ profile, f.workloads.get? w = some profile ∧
      f.evaluateLocked profile a options true env .decision = .ok d := by
  obtain ⟨profile, registered, decided, _⟩ := exists_of_evaluate evaluated
  exact ⟨profile, registered, decided⟩

/-- What a call that returned a plan had read and decided, and what it left behind. -/
theorem exists_of_planMigration
    {b : AcceleratorId} {claim : AuthorityClaim} {env : Environment} {plan : MigrationPlan}
    (returned : (f.planMigration w a b claim env).result = .ok plan) :
    ∃ profile source destination there here, f.workloads.get? w = some profile ∧
      f.members.get? a = some source ∧ f.members.get? b = some destination ∧
      f.evaluateLocked profile a ⟨some b⟩ false env .sourceDecision = .ok there ∧
      f.evaluateLocked profile b ⟨some a⟩ false env .destinationDecision = .ok here ∧
      Haf.planMigration (f.bumped.migrationRequest profile a b source destination there here)
        (env.wall .plan) = .ok plan ∧
      ∃ store, (f.planMigration w a b claim env).state =
        { f.bumped.withPlan plan there here with store } := by
  rcases settledOn_of_conclude returned with settled | ⟨g, settled⟩
  · -- Nothing is settled on without a change.
    obtain ⟨_, _, _, _, _, _, _, _, _, _, _, ⟨_, _, same⟩ | ⟨_, _, same⟩⟩ :=
      settlePlanMigration_cases settled
    · cases same
    · cases same
  · obtain ⟨profile, source, destination, there, here, _, registered, origin, target, decided,
      decided', ⟨_, _, same⟩ | ⟨_, made, same⟩⟩ := settlePlanMigration_cases settled
    · cases same
    · cases same
      exact ⟨profile, source, destination, there, here, registered, origin, target, decided,
        decided', made, state_of_conclude settled⟩

theorem exists_of_evaluateLocked {profile : WorkloadProfile}
    {mustExist : Bool} {env : Environment}
    {site : ClockSite}
    (decided : f.evaluateLocked profile a options mustExist env site = .ok d) :
    ∃ entry source, f.members.get? a = some entry ∧
      evaluateCompatibility f.registry profile
        (f.evaluationContext profile entry source (env.monotonic site)) (env.wall site) = .ok d := by
  simp only [evaluateLocked, bind_eq_ok, memberEntry_eq_ok] at decided
  obtain ⟨entry, found, source, _, made⟩ := decided
  exact ⟨entry, source, found, made⟩

/-- Whichever way is taken, the decision is the engine's on the stored evidence of the member. -/
theorem Yields.exists_evaluation {env : Environment} {workload : WorkloadClassId}
    (yields : Yields f env workload a d) :
    ∃ profile entry source createdAt, f.workloads.get? workload = some profile ∧
      f.members.get? a = some entry ∧
      evaluateCompatibility f.registry profile
        (f.evaluationContext profile entry source (env.monotonic .decision)) createdAt = .ok d := by
  cases yields with
  | recorded returned =>
      obtain ⟨profile, registered, decided⟩ := evaluate_eq_ok returned
      obtain ⟨entry, source, found, made⟩ := exists_of_evaluateLocked decided
      exact ⟨profile, entry, source, _, registered, found, made⟩
  | transient returned =>
      simp only [evaluateTransient, bind_eq_ok, registeredWorkload_eq_ok] at returned
      obtain ⟨profile, registered, decided⟩ := returned
      obtain ⟨entry, source, found, made⟩ := exists_of_evaluateLocked decided
      exact ⟨profile, entry, source, _, registered, found, made⟩
  | fleet returned listed =>
      simp only [evaluateFleet, bind_eq_ok, registeredWorkload_eq_ok] at returned
      obtain ⟨profile, registered, _, _, source, _, evaluated⟩ := returned
      obtain ⟨target, inside, named, made⟩ := exists_of_mem_cells evaluated listed
      obtain ⟨entry, stored, rfl⟩ := List.mem_map.mp inside
      have named : a = entry.record.accelerator := named
      have found : f.members.get? a = some entry := by
        rw [named]
        exact Keyed.mem_values.mp stored
      exact ⟨profile, entry, source, _, registered, found, made⟩

end Federation

end Haf
