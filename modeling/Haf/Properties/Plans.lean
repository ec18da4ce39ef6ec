/-
# The life of a plan

A plan is filed under an identity that is derived from its content, and its content
names the generation in which it was authored. Planning can therefore replace no
earlier plan, and whatever else happens to a plan moves its state along the
lifecycle or aborts it. Both survive restarts as long as every change is written.
-/

import Haf.Properties.Commit

namespace Haf

open Federation

/-- Every stored plan has the identity of its content and belongs to a generation that has been
reached. -/
def PlansStamped (f : Federation) : Prop :=
  ∀ k plan, f.plans.get? k = some plan →
    plan.id = plan.derivedId ∧ plan.federationGeneration.value ≤ f.generation.value

/-- A later version of a plan after any number of moves. -/
structure MigrationPlan.Descends (plan later : MigrationPlan) : Prop where
  fields : later = { plan with state := later.state, refusalReasons := later.refusalReasons }
  path : Relation.ReflTransGen MigrationState.Moves plan.state later.state
  settled : plan.state.isTerminal = true → later.state = plan.state

/-- No generation saturates, and plans that differ in what is hashed get different
identities. -/
def PlansApart (f : Federation) : Event → Prop
  | .call c env => f.generation.value ≠ Generation.maxValue ∧
      ∀ k l plan other, (f.execute c env).state.plans.get? k = some plan →
        f.plans.get? l = some other → plan.derivedId = other.derivedId →
        plan.bindingBytes ++ plan.requirementBytes = other.bindingBytes ++ other.requirementBytes
  | .reopen _ _ _ => True

/-- The events of a run in the default mode without faults, saturation or collisions. -/
def PlanRun (f : Federation) (e : Event) : Prop := WritesThrough f e ∧ PlansApart f e

/-- What becomes of the plans of a state. -/
structure PlanHistory (f : Federation) : Prop where
  identified : ∀ k plan, f.plans.get? k = some plan → plan.id = plan.derivedId
  step : ∀ e g, PlanRun f e → Step f e g → ∀ k plan, f.plans.get? k = some plan →
    ∃ later, g.plans.get? k = some later ∧ plan.Continues later
  run : ∀ g, Reaches PlanRun f g → ∀ k plan, f.plans.get? k = some plan →
    ∃ later, g.plans.get? k = some later ∧ plan.Descends later

/-! ### Identities -/

theorem plansStamped_of_change {f g : Federation} {env : Environment} {c : Command}
    (stamped : PlansStamped f) (change : Change f env c g) : PlansStamped g := by
  intro k plan stored
  rcases change.plan_cases stored with ⟨earlier, found, continues⟩ | ⟨authored, generation⟩
  · obtain ⟨identified, reached⟩ := stamped k earlier found
    rw [continues.derivedId, continues.fields]
    exact ⟨identified, UInt64.le_trans reached change.generation_le⟩
  · refine ⟨authored.identified, ?_⟩
    rw [authored.federationGeneration, generation]
    exact UInt64.le_refl _

theorem plansStamped_fresh (R : Registry) (config : FederationConfig) (disk : Option Bytes)
    (env : Environment) : PlansStamped (constructed R config disk env).fresh := by
  intro k plan stored
  rw [show (constructed R config disk env).fresh.plans = .empty from rfl,
    Keyed.get?_empty] at stored
  cases stored

/-- Stamps survive calls and restarts. -/
theorem durable_plansStamped : Durable anyEvent PlansStamped where
  stored f store stamped := stamped
  bumped f stamped := by
    intro k plan stored
    obtain ⟨identified, reached⟩ := stamped k plan stored
    exact ⟨identified, UInt64.le_trans reached f.generation.value_le_next⟩
  changed f env c g stamped _ change := plansStamped_of_change stamped change
  fresh _ R config disk env _ := plansStamped_fresh R config disk env
  restarted _ R config disk env g report _ stamped _ := by
    intro k plan stored
    rw [plans_restarted] at stored
    obtain ⟨saved, found, rfl⟩ := Option.map_eq_some_iff.mp stored
    obtain ⟨identified, reached⟩ := stamped k saved found
    have continues := saved.continues_abortIfOpen staleEpochReason
    rw [continues.derivedId, continues.fields]
    exact ⟨identified, UInt64.le_trans reached g.generation.value_le_next⟩

/-! ### One event -/

/-- Nothing replaces a stored plan but a later version of it: a plan with its identity would
have been authored in the generation that comes next. -/
theorem continues_of_change {f g : Federation} {env : Environment} {c : Command}
    (stamped : PlansStamped f) (below : f.generation.value ≠ Generation.maxValue)
    (apart : ∀ k l plan other, g.plans.get? k = some plan → f.plans.get? l = some other →
      plan.derivedId = other.derivedId →
      plan.bindingBytes ++ plan.requirementBytes = other.bindingBytes ++ other.requirementBytes)
    (change : Change f env c g) {k : MigrationPlanId} {plan : MigrationPlan}
    (stored : f.plans.get? k = some plan) :
    ∃ later, g.plans.get? k = some later ∧ plan.Continues later := by
  have step := change.plan k
  rw [stored] at step
  obtain ⟨later, found⟩ := step.stays
  refine ⟨later, found, ?_⟩
  rcases change.plan_cases found with ⟨earlier, located, continues⟩ | ⟨authored, _⟩
  · rw [stored] at located
    cases located
    exact continues
  · exfalso
    obtain ⟨identified, reached⟩ := stamped k plan stored
    have key : plan.id = k := Keyed.key_of_get? stored
    have key' : later.id = k := Keyed.key_of_get? found
    have identity : later.derivedId = plan.derivedId := by
      rw [← authored.identified, ← identified, key, key']
    have stamp := (MigrationPlan.stamp_of_bytes (apart k k later plan found stored identity)).1
    rw [← stamp, authored.federationGeneration] at reached
    exact absurd (Generation.value_lt_next below) (UInt64.not_lt.mpr reached)

/-- An event of such a run leaves every plan stored, in the same or a later version. -/
theorem continues_of_step {f g : Federation} {e : Event} (stamped : PlansStamped f)
    (published : Published (·.plans) f) (permitted : PlanRun f e) (taken : Step f e g)
    {k : MigrationPlanId} {plan : MigrationPlan} (stored : f.plans.get? k = some plan) :
    ∃ later, g.plans.get? k = some later ∧ plan.Continues later := by
  cases e with
  | call c env =>
      have state : g = (f.execute c env).state := taken
      obtain ⟨_, below, apart⟩ := permitted
      rw [← state] at apart
      rcases (f.execute_conduct c env).state_cases with same | ⟨moved, _⟩ | ⟨h, change, left⟩
      · rw [state, same]
        exact ⟨plan, stored, .refl plan⟩
      · rw [state, moved]
        exact ⟨plan, stored, .refl plan⟩
      · have plans : g.plans = h.plans := by
          rcases left with same | written
          · rw [state, same]
          · rw [state, written]
            rfl
        rw [plans] at apart ⊢
        exact continues_of_change stamped below apart change stored
  | reopen R config env =>
      obtain ⟨_, file, opened⟩ := taken
      obtain ⟨saved, report, store, agrees, rfl⟩ :=
        reopened_of_backed published.backed file opened
      refine ⟨plan.abortIfOpen staleEpochReason, ?_, plan.continues_abortIfOpen _⟩
      dsimp only
      rw [plans_restarted, show saved.plans = f.plans from agrees, stored]
      rfl

/-! ### Every run -/

namespace MigrationPlan

theorem Descends.refl (plan : MigrationPlan) : plan.Descends plan :=
  ⟨rfl, .refl, fun _ => rfl⟩

theorem Descends.next {plan later last : MigrationPlan} (descends : plan.Descends later)
    (continues : later.Continues last) : plan.Descends last := by
  refine ⟨?_, ?_, ?_⟩
  · rw [continues.fields, descends.fields]
  · rcases continues.moves with same | moves
    · rw [same]
      exact descends.path
    · exact descends.path.tail moves
  · intro terminal
    rcases continues.moves with same | moves
    · rw [same]
      exact descends.settled terminal
    · have open_ := moves.isTerminal_eq_false
      rw [descends.settled terminal, terminal] at open_
      cases open_

end MigrationPlan

/-- In every run from an empty store, in which every change is written at once and no
generation saturates and no identities collide, plans keep the identity of their content,
never disappear, change nothing but their state and its reasons, and rest once they are
terminal. -/
theorem planHistory_of_reaches {R : Registry} {config : FederationConfig} {env : Environment}
    {f g : Federation} (opened : openOn R config none env = .ok f)
    (enabled : config.persist = true) (immediate : config.persistOnMutation = true)
    (run : Reaches PlanRun f g) : PlanHistory g := by
  have stamped : ∀ h, Reaches PlanRun f h → PlansStamped h := by
    intro h reached
    exact durable_plansStamped.reaches opened (plansStamped_fresh R config none env)
      (reached.mono fun _ _ _ => trivial)
  have published : ∀ h, Reaches PlanRun f h → Published (·.plans) h := by
    intro h reached
    exact published_of_writesThrough (fun _ _ => rfl) (fun _ => rfl) (fun _ _ allowed => allowed.1)
      (published_of_open opened (fun _ _ => rfl) enabled immediate) reached
  constructor
  · intro k plan stored
    exact (stamped g run k plan stored).1
  · intro e h permitted taken k plan stored
    exact continues_of_step (stamped g run) (published g run) permitted taken stored
  · intro h later k plan stored
    induction later with
    | refl => exact ⟨plan, stored, .refl plan⟩
    | next earlier permitted taken ih =>
        obtain ⟨plan', stored', descends⟩ := ih
        obtain ⟨last, found, continues⟩ := continues_of_step (stamped _ (run.trans earlier))
          (published _ (run.trans earlier)) permitted taken stored'
        exact ⟨last, found, descends.next continues⟩

namespace Sample

/-- One plan has been authored. -/
def plannedOnce : Federation := (registered.execute plan.1 plan.2).state

theorem generations_registered : opened.generation = ⟨1⟩ ∧ observedOnce.generation = ⟨2⟩ ∧
    observedTwice.generation = ⟨3⟩ ∧ registered.generation = ⟨4⟩ ∧
    registered.plans.values = [] := by
  decide +kernel

/-- As long as there is no plan, nothing can collide with one. -/
theorem planRun_of_empty {f : Federation} {c : Command} {env : Environment}
    (memory : f.store.kind = .memory) (below : f.generation.value ≠ Generation.maxValue)
    (empty : f.plans.values = []) : PlanRun f (.call c env) := by
  refine ⟨fault_of_memory memory c env, below, ?_⟩
  intro k l plan other _ located
  have listed := Keyed.mem_values_of_get? located
  rw [empty] at listed
  cases listed

theorem reaches_plannedOnce : Reaches PlanRun opened plannedOnce := by
  obtain ⟨first, second, third, fourth, empty⟩ := generations_registered
  refine .next (s := registered) (e := .call plan.1 plan.2)
    (.next (e := .call (.registerWorkload workload claim) env)
      (.next (e := .call (.observe Sample.second claim) env)
        (.next (e := .call (.observe Sample.first claim) env) .refl ?_ execute_first.symm) ?_
        execute_second.symm) ?_ rfl) ?_ rfl
  · exact planRun_of_empty rfl (by rw [first]; decide) rfl
  · exact planRun_of_empty rfl (by rw [second]; decide) rfl
  · exact planRun_of_empty rfl (by rw [third]; decide) rfl
  · exact planRun_of_empty (by decide +kernel) (by rw [fourth]; decide) empty

end Sample

open Sample in
/-- The history of a plan that was just authored. -/
theorem planHistory_plannedOnce : PlanHistory plannedOnce :=
  planHistory_of_reaches openOn_eq rfl rfl reaches_plannedOnce

end Haf
