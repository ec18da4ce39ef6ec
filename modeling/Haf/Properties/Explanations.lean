/-
# Why a plan was given up

A plan that is refused or aborted says why. The planner names what it refuses for, and a
cancelled plan, a new policy and a restart each leave a reason. The lifecycle has two more ways
out: a plan can be advanced to REFUSED or ABORTED like to any other state, and then it says
nothing. A run explains every plan it gives up exactly if it never does that.
-/

import Haf.Properties.Authority

namespace Haf

open Federation Sequence

namespace MigrationPlan

def GivenUp (plan : MigrationPlan) : Prop := plan.state = .refused ∨ plan.state = .aborted

/-- A plan that was given up has a reason; a plan in flight has none yet. -/
structure Accounted (plan : MigrationPlan) : Prop where
  explained : plan.GivenUp → plan.refusalReasons ≠ []
  bare : plan.state.isTerminal = false → plan.refusalReasons = []

theorem sortReasons_ne_nil {reasons : List CompatibilityReason} (some_ : reasons ≠ []) :
    sortReasons reasons ≠ [] := by
  rw [← List.length_pos_iff] at some_ ⊢
  rw [sortReasons, length_sortOn]
  exact some_

theorem Accounted.abortIfOpen {plan : MigrationPlan} (accounted : plan.Accounted)
    (reason : CompatibilityReason) : (plan.abortIfOpen reason).Accounted := by
  rw [MigrationPlan.abortIfOpen]
  split
  · exact accounted
  · exact ⟨fun _ => sortReasons_ne_nil (List.append_ne_nil_of_right_ne_nil _ (by simp)), by rintro ⟨⟩⟩

/-- The planner explains what it refuses. -/
theorem accounted_of_planMigration {request : MigrationRequest} {createdAt : Timestamp}
    {plan : MigrationPlan} (made : Haf.planMigration request createdAt = .ok plan) :
    plan.Accounted := by
  obtain ⟨policy, workload, source, destination, _, _, _, _, _, _, _, rfl⟩ :=
    planMigration_eq_ok.mp made
  dsimp only [MigrationPlan.refreshIdentity, MigrationRequest.decided]
  split
  · rename_i refused
    rw [Bool.not_eq_true', List.isEmpty_eq_false_iff] at refused
    exact ⟨fun _ => sortReasons_ne_nil refused, nofun⟩
  · split
    · exact ⟨fun _ => List.cons_ne_nil _ _, nofun⟩
    · exact ⟨by rintro (⟨⟨⟩⟩ | ⟨⟨⟩⟩), fun _ => rfl⟩

end MigrationPlan

/-- Every plan that was given up says why. -/
def PlansExplained (f : Federation) : Prop :=
  ∀ k plan, f.plans.get? k = some plan → plan.GivenUp → plan.refusalReasons ≠ []

def PlansAccounted (f : Federation) : Prop :=
  ∀ k plan, f.plans.get? k = some plan → plan.Accounted

theorem PlansAccounted.explained {f : Federation} (accounted : PlansAccounted f) :
    PlansExplained f :=
  fun k plan stored => (accounted k plan stored).explained

/-! ### Giving up by advancing -/

/-- The state to which a command advances a plan, if it is one in which plans are given up. -/
def Command.Abandons : Command → Prop
  | .advanceMigration _ target _ => target = .refused ∨ target = .aborted
  | _ => False

/-- A plan in flight is advanced to a state in which it is given up, and the call passes. -/
def GivesUp (f : Federation) : Event → Prop
  | .call (.advanceMigration planId target claim) _ =>
      (target = .refused ∨ target = .aborted) ∧
      Passes f (.advanceMigration planId target claim) ∧
      ∃ plan, f.plans.get? planId = some plan ∧ plan.state.isTerminal = false
  | _ => False

section Advance

variable {f : Federation} {id : MigrationPlanId} {target : MigrationState}
  {claim : AuthorityClaim} {env : Environment}

theorem isTerminal_of_abandons (abandons : target = .refused ∨ target = .aborted) :
    target.isTerminal = true := by
  rcases abandons with rfl | rfl <;> rfl

/-- A call that would give up a plan, but does not, leaves everything as it is. -/
theorem state_of_not_givesUp (abandons : target = .refused ∨ target = .aborted)
    (spared : ¬ GivesUp f (.call (.advanceMigration id target claim) env)) :
    (f.execute (.advanceMigration id target claim) env).state = f := by
  show (f.conclude env (f.settleAdvanceMigration id target claim env)).state = f
  cases settled : f.settleAdvanceMigration id target claim env with
  | error status => rfl
  | ok s =>
      rcases settleAdvanceMigration_eq_ok settled with ⟨plan, _, _, rfl⟩ | ⟨plan, g, rfl, change⟩
      · rfl
      · refine absurd ⟨abandons, (settleAdvanceMigration_ok_iff env).mp ⟨_, settled⟩, ?_⟩ spared
        cases change with
        | advanced _ stored _ _ _ _ legal =>
            exact ⟨_, stored, MigrationState.Moves.isTerminal_eq_false (.inl legal)⟩

/-- A call that gives up a plan leaves it without a reason. -/
theorem unexplained_of_givesUp (accounted : PlansAccounted f)
    (gives : GivesUp f (.call (.advanceMigration id target claim) env)) :
    ¬ PlansExplained (f.execute (.advanceMigration id target claim) env).state := by
  obtain ⟨abandons, passes, plan, stored, open_⟩ := gives
  obtain ⟨s, settled⟩ := (settleAdvanceMigration_ok_iff env).mpr passes
  have later : (f.execute (.advanceMigration id target claim) env).state.plans.get? id =
      some { plan with state := target } := by
    show (f.conclude env (f.settleAdvanceMigration id target claim env)).state.plans.get? id = _
    rcases settleAdvanceMigration_eq_ok settled with ⟨plan', stored', same, rfl⟩ |
      ⟨plan', g, rfl, change⟩
    · cases Option.some.inj (stored.symm.trans stored')
      rw [same, isTerminal_of_abandons abandons] at open_
      cases open_
    · obtain ⟨store, state⟩ : ∃ store, (f.conclude env
          (f.settleAdvanceMigration id target claim env)).state = { g with store } :=
        state_of_conclude settled
      rw [state]
      cases change with
      | @advanced _ _ _ plan' _ _ _ stored' =>
          cases Option.some.inj (stored.symm.trans stored')
          rw [Federation.advanced, Keyed.get?_insert, if_pos (Keyed.key_of_get? stored)]
  intro explained
  exact explained id _ later abandons ((accounted id plan stored).bare open_)

end Advance

/-! ### Runs -/

theorem plansAccounted_of_change {f g : Federation} {env : Environment} {c : Command}
    (accounted : PlansAccounted f) (kept : ¬ c.Abandons) (change : Change f env c g) :
    PlansAccounted g := by
  intro k plan stored
  have step := change.plan k
  rw [stored] at step
  generalize before : f.plans.get? k = earlier at step
  cases step with
  | same => exact accounted k plan before
  | authored earlier made => exact MigrationPlan.accounted_of_planMigration made
  | @advanced id target claim plan found legal =>
      have open_ : plan.state.isTerminal = false :=
        MigrationState.Moves.isTerminal_eq_false (.inl legal)
      exact ⟨fun given => absurd given kept, fun _ => (accounted k plan before).bare open_⟩
  | aborted reason cause => exact (accounted k _ before).abortIfOpen reason

theorem plansAccounted_fresh (R : Registry) (config : FederationConfig) (disk : Option Bytes)
    (env : Environment) : PlansAccounted (constructed R config disk env).fresh := by
  intro k plan stored
  rw [show (constructed R config disk env).fresh.plans = .empty from rfl,
    Keyed.get?_empty] at stored
  cases stored

/-- The event advances no plan to a state in which it is given up. -/
def AbandonsNothing (_ : Federation) : Event → Prop
  | .call c _ => ¬ c.Abandons
  | .reopen _ _ _ => True

theorem durable_plansAccounted : Durable AbandonsNothing PlansAccounted where
  stored f store accounted := accounted
  bumped f accounted := accounted
  changed f env c g accounted kept change := plansAccounted_of_change accounted kept change
  fresh _ R config disk env _ := plansAccounted_fresh R config disk env
  restarted _ R config disk env g report _ accounted _ := by
    intro k plan stored
    rw [plans_restarted] at stored
    obtain ⟨saved, found, rfl⟩ := Option.map_eq_some_iff.mp stored
    exact (accounted k saved found).abortIfOpen staleEpochReason

theorem recorded_of_not_givesUp {f g : Federation} {e : Event}
    (recorded : Durable.Recorded PlansAccounted f) (taken : Step f e g) (spared : ¬ GivesUp f e) :
    Durable.Recorded PlansAccounted g := by
  by_cases plain : AbandonsNothing f e
  · exact durable_plansAccounted.recorded_of_step recorded plain taken
  · cases e with
    | reopen => exact absurd trivial plain
    | call c env =>
        have abandons : c.Abandons := not_not.mp plain
        cases c with
        | advanceMigration id target claim =>
            rw [show g = f from taken.trans (state_of_not_givesUp abandons spared)]
            exact recorded
        | _ => cases abandons

/-- **Plans that are given up are explained** throughout a run from an empty store exactly if no
call of the run advances a plan in flight to REFUSED or ABORTED. -/
theorem explained_throughout_iff {R : Registry} {config : FederationConfig} {env : Environment}
    {f g : Federation} {taken : List (Federation × Event × Federation)}
    (opened : openOn R config none env = .ok f) (run : Run.Passage Step f taken g) :
    (PlansExplained f ∧ ∀ x ∈ taken, PlansExplained x.2.2) ↔
      ∀ x ∈ taken, ¬ GivesUp x.1 x.2.1 := by
  have first : Durable.Recorded PlansAccounted f :=
    durable_plansAccounted.recorded_of_empty opened (plansAccounted_fresh R config none env)
  rw [and_iff_right first.1.explained]
  have sound : ∀ s e t, Durable.Recorded PlansAccounted s → Step s e t → ¬ GivesUp s e →
      PlansExplained t ∧ Durable.Recorded PlansAccounted t := by
    intro s e t recorded step spared
    have later := recorded_of_not_givesUp recorded step spared
    exact ⟨later.1.explained, later⟩
  have complete : ∀ s e t, Durable.Recorded PlansAccounted s → Step s e t → PlansExplained t →
      ¬ GivesUp s e := by
    intro s e t recorded step explained gives
    cases e with
    | reopen => exact gives
    | call c env =>
        cases c with
        | advanceMigration id target claim =>
            rw [show t = _ from step] at explained
            exact unexplained_of_givesUp recorded.1 gives explained
        | _ => exact gives
  exact run.forall_iff first sound complete

namespace Sample

/-- A plan is authored and advanced to ABORTED. -/
def abandonedOnce : Federation :=
  registered.after [plan, (.advanceMigration firstPlanId .aborted claim, env)]

theorem reaches_abandonedOnce : Reaches anyEvent opened abandonedOnce :=
  reaches_registered.trans (reaches_after _ _ fun _ _ _ _ => trivial)

end Sample

open Sample in
/-- An aborted plan that does not say why. -/
theorem abandoned_silently : ∃ f g, openOn .core config none env = .ok f ∧
    Reaches anyEvent f g ∧ ¬ PlansExplained g := by
  refine ⟨opened, abandonedOnce, openOn_eq, reaches_abandonedOnce, fun explained => ?_⟩
  obtain ⟨p, stored, state, silent⟩ := plans_registered.2.2.2
  exact explained firstPlanId p stored (.inr state) silent

open Sample in
theorem explained_until_abandoned : ∃ taken, Run.Passage Step opened taken abandonedOnce ∧
    ((PlansExplained opened ∧ ∀ x ∈ taken, PlansExplained x.2.2) ↔
      ∀ x ∈ taken, ¬ GivesUp x.1 x.2.1) := by
  obtain ⟨taken, run⟩ := Run.Passage.exists_of_reaches reaches_abandonedOnce
  exact ⟨taken, run, explained_throughout_iff openOn_eq run⟩

end Haf
