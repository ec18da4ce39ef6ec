/-
# What a commit hands over

Committing a plan drains a working source and leaves every other member alone. That
the destination accepts work is checked neither when the plan is authored nor when
it is committed, so a commit hands work over properly as far as the destination
happens to be active.
-/

import Haf.Properties.Commit

namespace Haf

open Federation Sequence

/-- A commit of the plan hands its work over: the destination accepted work before and is left
as it was, and the source accepts none any more. -/
def HandsOver (f : Federation) (id : MigrationPlanId) : Prop :=
  ∀ claim env plan plan', f.plans.get? id = some plan → plan.state ≠ .committed →
    (f.commitMigration id claim env).state.plans.get? id = some plan' →
    plan'.state = .committed →
    (∃ destination, f.members.get? plan.destination = some destination ∧
      destination.record.acceptsNewWork = true ∧
      (f.commitMigration id claim env).state.members.get? plan.destination =
        some destination) ∧
    ∃ source, (f.commitMigration id claim env).state.members.get? plan.source = some source ∧
      source.record.acceptsNewWork = false

/-- The destination of a verified plan that is still bound accepts new work. -/
def DestinationReady (f : Federation) (id : MigrationPlanId) : Prop :=
  ∀ plan, f.plans.get? id = some plan → plan.state = .verified → f.isShutdown = false →
    EndpointsBound f plan → ∃ destination, f.members.get? plan.destination = some destination ∧
      destination.record.acceptsNewWork = true

/-! ### Plans in flight have two endpoints -/

/-- The endpoints of a plan in flight are distinct. -/
def DistinctEndpoints (f : Federation) : Prop :=
  ∀ id plan, f.plans.get? id = some plan → plan.state.isTerminal = false →
    plan.source ≠ plan.destination

variable {f : Federation}

theorem distinctEndpoints_of_change {g : Federation} {env : Environment} {c : Command}
    (distinct : DistinctEndpoints f) (change : Change f env c g) : DistinctEndpoints g := by
  intro id plan stored open_
  rcases change.plan_cases stored with ⟨earlier, found, continues⟩ | ⟨authored, _⟩
  · rw [continues.fields]
    exact distinct id earlier found (continues.isTerminal_eq_false open_)
  · exact authored.distinct

theorem distinctEndpoints_of_reaches {R : Registry} {config : FederationConfig}
    {disk : Option Bytes} {env : Environment} {g : Federation}
    (opened : openOn R config disk env = .ok f) (run : Reaches anyEvent f g) :
    DistinctEndpoints g := by
  refine reaches_of_atRest ?_ ?_ ?_ ?_ opened run
  · intro f rest id plan stored open_
    rw [rest.plans id plan stored] at open_
    cases open_
  · intro f store distinct
    exact distinct
  · intro f distinct
    exact distinct
  · intro f env c g distinct _ change
    exact distinctEndpoints_of_change distinct change

/-! ### A commit, from both sides -/

theorem isShutdown_of_validateAuthority {claim : AuthorityClaim}
    (authority : f.validateAuthority claim = .ok ()) : f.isShutdown = false := by
  simp only [validateAuthority, bind_eq_ok, ensure_eq_ok, Bool.not_eq_true'] at authority
  obtain ⟨_, running, _⟩ := authority
  exact running

/-- Whoever commits a plan finds it verified and bound, and drains its source. -/
theorem members_of_commit {id : MigrationPlanId} {plan plan' : MigrationPlan}
    {claim : AuthorityClaim} {env : Environment} (stored : f.plans.get? id = some plan)
    (uncommitted : plan.state ≠ .committed)
    (later : (f.commitMigration id claim env).state.plans.get? id = some plan')
    (committed : plan'.state = .committed) :
    plan.state = .verified ∧ f.isShutdown = false ∧
      ∃ source, f.members.get? plan.source = some source ∧
        (f.commitMigration id claim env).state.members =
          f.drainedMembers source .committed (env.wall .member) := by
  have state : (f.execute (.advanceMigration id .committed claim) env).state =
      (f.commitMigration id claim env).state := rfl
  rw [← state] at later ⊢
  rcases (f.execute_conduct (.advanceMigration id .committed claim) env).state_cases with
    same | ⟨_, bump⟩ | ⟨g, change, left⟩
  · rw [same, stored] at later
    cases later
    exact absurd committed uncommitted
  · cases bump
  · cases change with
    | @advanced _ _ _ plan₀ source destination authority located current origin goal endpoints
        legal =>
        rw [stored] at located
        cases located
        refine ⟨?_, isShutdown_of_validateAuthority authority, source, origin, ?_⟩
        · revert legal
          cases plan.state <;> decide
        · rcases left with same | written
          · rw [same]
            rfl
          · rw [written]
            rfl

/-- Draining the source of a plan leaves the destination alone. -/
theorem drainedMembers_of_ne {a b : AcceleratorId} {source : MemberEntry}
    (origin : f.members.get? a = some source) (distinct : a ≠ b) (target : MigrationState)
    (now : Timestamp) : (f.drainedMembers source target now).get? b = f.members.get? b := by
  rw [drainedMembers]
  split
  · apply Keyed.get?_insert_of_ne
    intro same
    exact distinct ((Keyed.key_of_get? origin).symm.trans same)
  · rfl

/-- Once a commit has drained its source, the source accepts no work. -/
theorem drainedMembers_source {a : AcceleratorId} {source : MemberEntry}
    (origin : f.members.get? a = some source) (now : Timestamp) :
    ∃ drained, (f.drainedMembers source .committed now).get? a = some drained ∧
      drained.record.acceptsNewWork = false := by
  have key := Keyed.key_of_get? origin
  rw [drainedMembers]
  split
  · exact ⟨source.drained now, (f.members.get?_insert _ a).trans (if_pos key), rfl⟩
  · rename_i idle
    refine ⟨source, origin, ?_⟩
    by_cases active : source.record.state = .active
    · exact absurd (by simp [active]) idle
    · simpa [MemberRecord.acceptsNewWork] using active

/-- A claim that asserts nothing. -/
def unassertedClaim : AuthorityClaim := { checkEpoch := false }

/-- A verified plan that is still bound can be committed. -/
theorem commitMigration_of_bound {id : MigrationPlanId} {plan : MigrationPlan}
    (env : Environment) (stored : f.plans.get? id = some plan) (verified : plan.state = .verified)
    (running : f.isShutdown = false) (bound : EndpointsBound f plan) :
    (f.commitMigration id unassertedClaim env).state.plans.get? id =
      some { plan with state := .committed } := by
  obtain ⟨epoch, policy, source, destination, origin, goal, sourceGeneration,
    destinationGeneration, sourceSet, destinationSet⟩ := bound
  have authority : f.validateAuthority unassertedClaim = .ok () := by
    simp [validateAuthority, unassertedClaim, ensure, running, bind, Except.bind]
  have current : plan.isCurrent f.epoch f.policy.generation plan.sourceGeneration
      plan.destinationGeneration plan.sourceCapabilityGeneration
      plan.destinationCapabilityGeneration plan.workloadRevision = true := by
    simp [MigrationPlan.isCurrent, epoch, policy]
  have endpoints : endpointsCurrent plan source.record destination.record = true := by
    simp [endpointsCurrent, sourceGeneration, destinationGeneration, sourceSet, destinationSet]
  have settled : f.settleAdvanceMigration id .committed unassertedClaim env =
      .ok (.changed { plan with state := .committed }
        (f.advanced plan source .committed (env.wall .member))) := by
    have located : f.storedPlan id = .ok plan := storedPlan_eq_ok.mpr stored
    simp only [settleAdvanceMigration, authority, located, current, origin, goal, endpoints,
      ensure, bind, Except.bind, verified]
    simp [unassertedClaim, MigrationState.isLegalTransition, MigrationState.legalTransitions]
  have key : plan.id = id := Keyed.key_of_get? stored
  have filed : (f.advanced plan source .committed (env.wall .member)).plans.get? id =
      some { plan with state := .committed } := by
    rw [advanced, Keyed.get?_insert]
    exact if_pos key
  rw [commitMigration, advanceMigration, settled, conclude, publish]
  rcases written : (f.advanced plan source .committed (env.wall .member)).persistLocked env false
    with ⟨⟨status⟩ | ⟨⟩, h⟩
  all_goals
    rcases persistLocked_cases written with rfl | ⟨_, rfl⟩
    · exact filed
    · exact filed

/-- A commit hands work over properly exactly if the destination of a plan that can be
committed is active. -/
theorem handsOver_iff {R : Registry} {config : FederationConfig} {disk : Option Bytes}
    {env : Environment} {f g : Federation} (opened : openOn R config disk env = .ok f)
    (run : Reaches anyEvent f g) (id : MigrationPlanId) :
    HandsOver g id ↔ DestinationReady g id := by
  constructor
  · intro hands plan stored verified running bound
    have later := commitMigration_of_bound env stored verified running bound
    have uncommitted : plan.state ≠ .committed := by
      rw [verified]
      decide
    obtain ⟨⟨destination, goal, accepts, _⟩, _⟩ :=
      hands unassertedClaim env plan _ stored uncommitted later rfl
    exact ⟨destination, goal, accepts⟩
  · intro ready claim env plan plan' stored uncommitted later committed
    obtain ⟨verified, running, source, origin, members⟩ :=
      members_of_commit stored uncommitted later committed
    have bound : EndpointsBound g plan := by
      apply endpointsBound_of_advance stored later
      rw [committed]
      exact uncommitted.symm
    have distinct : plan.source ≠ plan.destination := by
      apply distinctEndpoints_of_reaches opened run id plan stored
      rw [verified]
      rfl
    obtain ⟨destination, goal, accepts⟩ := ready plan stored verified running bound
    rw [members]
    refine ⟨⟨destination, goal, accepts, ?_⟩, drainedMembers_source origin _⟩
    rw [drainedMembers_of_ne origin distinct, goal]

/-! ### A commit to a member that was only observed -/

open Sample in
theorem handsOver_iff_verifiedOnce :
    HandsOver verifiedOnce firstPlanId ↔ DestinationReady verifiedOnce firstPlanId :=
  handsOver_iff openOn_eq (reaches_verifiedOnce.mono fun _ _ _ => trivial) firstPlanId

open Sample in
/-- Work is handed to a member that was never admitted. -/
theorem committed_to_observed : ∃ f g id, openOn .core config none env = .ok f ∧
    Reaches anyEvent f g ∧ ¬ HandsOver g id := by
  refine ⟨opened, verifiedOnce, firstPlanId, openOn_eq,
    reaches_verifiedOnce.mono fun _ _ _ => trivial, ?_⟩
  intro hands
  obtain ⟨p, stored, uncommitted, idle, p', later, committed⟩ := plans_registered.2.2.1
  obtain ⟨⟨destination, goal, accepts, _⟩, _⟩ :=
    hands claim env p p' stored uncommitted later committed
  rw [goal, Option.map_some, accepts] at idle
  cases idle

end Haf
