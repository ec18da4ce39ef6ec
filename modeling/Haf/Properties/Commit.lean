/-
# Migration plans and authority

A plan is bound to the generations it was authored under. Advancing compares most of
them with the live state, but the workload revision only with the plan itself, and
it does not look at other plans of the same workload.
-/

import Haf.Properties.LiveBoot

namespace Haf

open Federation

/-! ### Plans advance while they are current -/

/-- Epoch, policy and both endpoints are those the plan was authored under. -/
def EndpointsBound (f : Federation) (plan : MigrationPlan) : Prop :=
  plan.epoch = f.epoch ∧ plan.policyGeneration = f.policy.generation ∧
    ∃ source destination, f.members.get? plan.source = some source ∧
      f.members.get? plan.destination = some destination ∧
      plan.sourceGeneration = source.record.deviceGeneration ∧
      plan.destinationGeneration = destination.record.deviceGeneration ∧
      plan.sourceCapabilityGeneration = source.record.capabilityGeneration ∧
      plan.destinationCapabilityGeneration = destination.record.capabilityGeneration

/-- The workload is registered at the revision the plan was authored for. -/
def RevisionBound (f : Federation) (plan : MigrationPlan) : Prop :=
  ∃ profile, f.workloads.get? plan.workload = some profile ∧
    plan.workloadRevision = profile.revision

/-- Every generation the plan depends on is the current one. -/
def PlanBound (f : Federation) (plan : MigrationPlan) : Prop :=
  EndpointsBound f plan ∧ RevisionBound f plan

/-- The plan with an identity advances only while it is current, and the query for currency
answers accordingly. -/
def AdvancesWhileCurrent (f : Federation) (id : MigrationPlanId) : Prop :=
  ∀ plan, f.plans.get? id = some plan →
    (∀ target claim env plan', (f.advanceMigration id target claim env).state.plans.get? id =
      some plan' → plan'.state ≠ plan.state → PlanBound f plan) ∧
    (f.migrationPlanIsCurrent id = .ok true ↔ PlanBound f plan)

/-- The query for currency compares everything but the workload revision. -/
theorem migrationPlanIsCurrent_iff {f : Federation} {id : MigrationPlanId} {plan : MigrationPlan}
    (stored : f.plans.get? id = some plan) :
    f.migrationPlanIsCurrent id = .ok true ↔ EndpointsBound f plan := by
  have found : f.storedPlan id = .ok plan := storedPlan_eq_ok.mpr stored
  simp only [migrationPlanIsCurrent, found, EndpointsBound, bind, Except.bind]
  by_cases bound : plan.epoch = f.epoch ∧ plan.policyGeneration = f.policy.generation
  · rw [if_neg (by simp [bound.1, bound.2])]
    cases origin : f.members.get? plan.source with
    | none => simp
    | some source =>
        cases goal : f.members.get? plan.destination with
        | none => simp
        | some destination => simp [MigrationPlan.isCurrent, bound.1, bound.2, and_assoc]
  · have broken := Decidable.not_and_iff_or_not.mp bound
    rw [if_pos (by simpa using broken)]
    simp only [Except.ok.injEq, Bool.false_eq_true, false_iff]
    exact fun all => bound ⟨all.1, all.2.1⟩

/-- A plan that moved had its endpoints checked. -/
theorem endpointsBound_of_advance {f : Federation} {id : MigrationPlanId} {plan plan' : MigrationPlan}
    {target : MigrationState} {claim : AuthorityClaim} {env : Environment}
    (stored : f.plans.get? id = some plan)
    (later : (f.advanceMigration id target claim env).state.plans.get? id = some plan')
    (moved : plan'.state ≠ plan.state) : EndpointsBound f plan := by
  have still : f.plans.get? id = some plan' → EndpointsBound f plan := by
    intro same
    rw [stored] at same
    cases same
    exact absurd rfl moved
  have conduct := f.execute_conduct (.advanceMigration id target claim) env
  have state : (f.execute (.advanceMigration id target claim) env).state =
      (f.advanceMigration id target claim env).state := rfl
  rw [← state] at later
  rcases conduct.state_cases with same | ⟨_, bump⟩ | ⟨g, change, _⟩
  · rw [same] at later
    exact still later
  · cases bump
  · cases change with
    | advanced authority located current origin goal endpoints legal =>
        rw [stored] at located
        cases located
        simp only [MigrationPlan.isCurrent, Bool.and_eq_true, decide_eq_true_eq] at current
        simp only [endpointsCurrent, Bool.and_eq_true, decide_eq_true_eq] at endpoints
        obtain ⟨⟨⟨source, destination⟩, sourceSet⟩, destinationSet⟩ := endpoints
        exact ⟨current.1.1.1.1.1.1, current.1.1.1.1.1.2, _, _, origin, goal, source.symm,
          destination.symm, sourceSet.symm, destinationSet.symm⟩

/-- A plan advances only while it is current, and the query says so, exactly if the workload
still has the revision of the plan whenever the other bindings hold. -/
theorem advancesWhileCurrent_iff (f : Federation) (id : MigrationPlanId) :
    AdvancesWhileCurrent f id ↔ ∀ plan, f.plans.get? id = some plan →
      EndpointsBound f plan → RevisionBound f plan := by
  constructor
  · intro advances plan stored endpoints
    exact ((advances plan stored).2.mp ((migrationPlanIsCurrent_iff stored).mpr endpoints)).2
  · intro revised plan stored
    constructor
    · intro target claim env plan' later moved
      have endpoints := endpointsBound_of_advance stored later moved
      exact ⟨endpoints, revised plan stored endpoints⟩
    · rw [migrationPlanIsCurrent_iff stored]
      exact ⟨fun endpoints => ⟨endpoints, revised plan stored endpoints⟩, fun bound => bound.1⟩

/-! ### One committed plan per workload -/

/-- At most one plan of each workload is committed. -/
def SingleCommit (f : Federation) : Prop :=
  ∀ p q plan other, f.plans.get? p = some plan → f.plans.get? q = some other →
    plan.state = .committed → other.state = .committed → plan.workload = other.workload → p = q

/-- A verified plan is committed only if no other plan of its workload is. -/
def CommitsAlone (f : Federation) : Event → Prop
  | .call (.advanceMigration p .committed _) _ =>
      ∀ q plan other, f.plans.get? p = some plan → plan.state = .verified →
        f.plans.get? q = some other → other.state = .committed → plan.workload ≠ other.workload
  | _ => True

namespace MigrationPlan

theorem workload_abortIfOpen (plan : MigrationPlan) (reason : CompatibilityReason) :
    (plan.abortIfOpen reason).workload = plan.workload := by
  rw [abortIfOpen]
  split <;> rfl

/-- Aborting commits nothing. -/
theorem committed_of_abortIfOpen {plan : MigrationPlan} {reason : CompatibilityReason}
    (committed : (plan.abortIfOpen reason).state = .committed) : plan.state = .committed := by
  rw [abortIfOpen] at committed
  split at committed
  · exact committed
  · cases committed

end MigrationPlan

/-- A committed plan was committed before, with the same workload, or was verified and has just
been committed. -/
theorem PlanStep.committed {f : Federation} {env : Environment} {c : Command}
    {before : Option MigrationPlan} {plan : MigrationPlan}
    (step : PlanStep f env c before (some plan)) (committed : plan.state = .committed) :
    ∃ earlier, before = some earlier ∧ earlier.workload = plan.workload ∧
      (earlier.state = .committed ∨ earlier.state = .verified ∧
        ∃ id claim, c = .advanceMigration id .committed claim ∧ f.plans.get? id = some earlier) := by
  cases step with
  | same => exact ⟨plan, rfl, rfl, .inl committed⟩
  | authored earlier made =>
      rcases state_planMigration made with planned | refused
      · rw [committed] at planned
        cases planned
      · rw [committed] at refused
        cases refused
  | @advanced id target claim earlier stored legal =>
      have target : target = .committed := committed
      subst target
      refine ⟨earlier, rfl, rfl, .inr ⟨?_, id, claim, rfl, stored⟩⟩
      revert legal
      cases earlier.state <;> decide
  | aborted reason cause =>
      exact ⟨_, rfl, (MigrationPlan.workload_abortIfOpen _ _).symm,
        .inl (MigrationPlan.committed_of_abortIfOpen committed)⟩

/-- A change keeps commits single if it commits nothing next to another commit. -/
theorem singleCommit_of_change {f g : Federation} {env : Environment} {c : Command}
    (single : SingleCommit f) (alone : CommitsAlone f (.call c env)) (change : Change f env c g) :
    SingleCommit g := by
  intro p q plan other found located committed committed' workload
  obtain ⟨plan₀, found₀, workload₀, before⟩ := (found ▸ change.plan p).committed committed
  obtain ⟨other₀, located₀, workload₁, before'⟩ := (located ▸ change.plan q).committed committed'
  have shared : plan₀.workload = other₀.workload := by rw [workload₀, workload₁, workload]
  rcases before with was | ⟨verified, id, claim, rfl, stored⟩
  · rcases before' with was' | ⟨verified', id', claim', rfl, stored'⟩
    · exact single p q plan₀ other₀ found₀ located₀ was was' shared
    · exact absurd shared.symm (alone p other₀ plan₀ stored' verified' found₀ was)
  · rcases before' with was' | ⟨verified', id', claim', same, stored'⟩
    · exact absurd shared (alone q plan₀ other₀ stored verified located₀ was')
    · -- both are the plan that the command names
      obtain ⟨rfl, _, _⟩ := Command.advanceMigration.inj same
      rw [stored] at stored'
      cases stored'
      exact (Keyed.key_of_get? found₀).symm.trans (Keyed.key_of_get? located₀)

theorem singleCommit_fresh (R : Registry) (config : FederationConfig) (disk : Option Bytes)
    (env : Environment) : SingleCommit (constructed R config disk env).fresh := by
  intro p q plan other found
  rw [show (constructed R config disk env).fresh.plans = .empty from rfl] at found
  simp at found

/-- Single commits survive calls that commit nothing next to another commit, and restarts. -/
theorem durable_singleCommit : Durable CommitsAlone SingleCommit where
  stored f store single := single
  bumped f single := single
  changed f env c g single alone change := singleCommit_of_change single alone change
  fresh _ R config disk env _ := singleCommit_fresh R config disk env
  restarted _ R config disk env g report _ single _ := by
    intro p q plan other found located committed committed' workload
    rw [plans_restarted] at found located
    obtain ⟨plan₀, found₀, rfl⟩ := Option.map_eq_some_iff.mp found
    obtain ⟨other₀, located₀, rfl⟩ := Option.map_eq_some_iff.mp located
    rw [MigrationPlan.workload_abortIfOpen, MigrationPlan.workload_abortIfOpen] at workload
    exact single p q plan₀ other₀ found₀ located₀
      (MigrationPlan.committed_of_abortIfOpen committed)
      (MigrationPlan.committed_of_abortIfOpen committed') workload

/-- In every run on a store that was empty, in which plans are only committed while no other
plan of their workload is, each workload has at most one committed plan. -/
theorem singleCommit_of_commitsAlone {R : Registry} {config : FederationConfig}
    {env : Environment} {f g : Federation} (opened : openOn R config none env = .ok f)
    (run : Reaches CommitsAlone f g) : SingleCommit g :=
  durable_singleCommit.reaches opened (singleCommit_fresh R config none env) run

/-! ### A workload with two plans -/

namespace Sample

def workload : WorkloadProfile :=
  { classId := ident 20, requirementId := ident 21, name := text "w" }

/-- The same class with another definition. -/
def redefined : WorkloadProfile := { workload with description := text "second definition" }

/-- Both members are known and the workload is registered. -/
def calls : List Call := [
  (.observe first claim, env), (.observe second claim, env),
  (.registerWorkload workload claim, env)]

/-- A plan to move the workload from the first member to the second. -/
def plan : Call := (.planMigration (ident 20) firstId secondId claim, env)

def firstPlanId : MigrationPlanId :=
  ⟨.fromBytes [91, 27, 63, 41, 177, 68, 211, 198, 50, 212, 120, 131, 181, 172, 203, 118]⟩

def secondPlanId : MigrationPlanId :=
  ⟨.fromBytes [35, 29, 177, 104, 149, 184, 229, 228, 58, 69, 50, 39, 61, 70, 224, 245]⟩

/-- Take a plan through its lifecycle up to the commit. -/
def verify (id : MigrationPlanId) : List Call :=
  [MigrationState.validated, .prepared, .transferring, .verified].map
    fun target => (.advanceMigration id target claim, env)

def commit (id : MigrationPlanId) : Call := (.advanceMigration id .committed claim, env)

def registered : Federation :=
  observedTwice.after [(.registerWorkload workload claim, env)]

theorem after_calls : opened.after calls = registered := by
  simp only [calls, registered, after_cons, execute_first, execute_second]

theorem reaches_registered : Reaches anyEvent opened registered := by
  rw [← after_calls]
  exact reaches_after _ _ fun _ _ _ _ => trivial

/-- The workload is registered anew once a plan has been authored for it. -/
def outdated : Federation := registered.after [plan, (.registerWorkload redefined claim, env)]

/-- Two plans are authored, and the first is verified. -/
def verifiedOnce : Federation := registered.after ([plan, plan] ++ verify firstPlanId)

/-- Both plans are taken through their whole lifecycle. -/
def committedTwice : Federation :=
  verifiedOnce.after ([commit firstPlanId] ++ verify secondPlanId ++ [commit secondPlanId])

/-- An outdated plan is advanced, both plans are committed, the first one to an idle member, and
it is aborted without a reason. -/
theorem plans_registered :
    (∃ p, outdated.plans.get? firstPlanId = some p ∧
      some p.workloadRevision ≠ (outdated.workloads.get? p.workload).map (·.revision) ∧
      ∃ p', (outdated.advanceMigration firstPlanId .validated claim env).state.plans.get?
        firstPlanId = some p' ∧ p'.state ≠ p.state) ∧
    ((∀ p ∈ verifiedOnce.plans.values, p.state ≠ .committed) ∧
      ∃ p, committedTwice.plans.get? firstPlanId = some p ∧
        ∃ q, committedTwice.plans.get? secondPlanId = some q ∧ p.state = .committed ∧
          q.state = .committed ∧ p.workload = q.workload) ∧
    (∃ p, verifiedOnce.plans.get? firstPlanId = some p ∧ p.state ≠ .committed ∧
      (verifiedOnce.members.get? p.destination).map (·.record.acceptsNewWork) = some false ∧
      ∃ p', (verifiedOnce.commitMigration firstPlanId claim env).state.plans.get? firstPlanId =
        some p' ∧ p'.state = .committed) ∧
    ∃ p, (registered.after [plan, (.advanceMigration firstPlanId .aborted claim, env)]).plans.get?
      firstPlanId = some p ∧ p.state = .aborted ∧ p.refusalReasons = [] := by
  decide +kernel

theorem reaches_verifiedOnce : Reaches CommitsAlone opened verifiedOnce := by
  have early : ∀ call ∈ calls ++ ([plan, plan] ++ verify firstPlanId), ∀ f,
      CommitsAlone f (.call call.1 call.2) := by
    simp only [calls, verify, List.map_cons, List.map_nil, List.cons_append, List.nil_append,
      List.forall_mem_cons]
    exact ⟨fun _ => trivial, fun _ => trivial, fun _ => trivial, fun _ => trivial,
      fun _ => trivial, fun _ => trivial, fun _ => trivial, fun _ => trivial, fun _ => trivial,
      by simp⟩
  rw [verifiedOnce, ← after_calls, ← after_append]
  refine reaches_after _ _ fun before call rest split => early call ?_ _
  rw [split]
  simp

end Sample

open Sample in
/-- A plan is advanced and reported as current after its workload was redefined. -/
theorem outdated_plan_advanced : ∃ f, Reaches anyEvent opened f ∧
    ¬ AdvancesWhileCurrent f firstPlanId := by
  refine ⟨outdated, ?_, ?_⟩
  · rw [outdated, ← after_calls, ← after_append]
    exact reaches_after _ _ fun _ _ _ _ => trivial
  · intro advances
    obtain ⟨p, stored, revision, p', stored', moved⟩ := plans_registered.1
    obtain ⟨_, profile, registered, bound⟩ :=
      (advances p stored).1 .validated claim env p' stored' moved
    rw [registered] at revision
    exact revision (congrArg some bound)

open Sample in
theorem singleCommit_one_committed :
    SingleCommit (verifiedOnce.execute (.advanceMigration firstPlanId .committed claim) env).state := by
  refine singleCommit_of_commitsAlone openOn_eq
    (.next (e := .call (.advanceMigration _ _ _) env) reaches_verifiedOnce ?_ rfl)
  intro q p other _ _ located committed
  exact absurd committed (plans_registered.2.1.1 other (Keyed.mem_values_of_get? located))

open Sample in
/-- Two plans of one workload are committed one after the other. -/
theorem two_plans_committed : ∃ f g, openOn .core config none env = .ok f ∧
    Reaches anyEvent f g ∧ ¬ SingleCommit g := by
  refine ⟨opened, committedTwice, openOn_eq, ?_, ?_⟩
  · exact (reaches_verifiedOnce.mono fun _ _ _ => trivial).trans
      (reaches_after _ _ fun _ _ _ _ => trivial)
  · intro single
    obtain ⟨_, p, found, q, located, committed, committed', workload⟩ := plans_registered.2.1
    exact absurd (single _ _ p q found located committed committed' workload) (by decide)

end Haf
