/-
# How single members and plans evolve

A change touches few entries of a table, and each of them in one of a fixed list of
ways. The step relations of this module say which, entry by entry, so that a
property of all members or of all plans is checked one step at a time.
-/

import Haf.Federation.Invariant

namespace Haf

open Sequence

/-- What one command does to one member. -/
inductive MemberStep (f : Federation) (env : Environment) :
    Command → Option MemberEntry → Option MemberEntry → Prop
  | same {c : Command} (entry : Option MemberEntry) : MemberStep f env c entry entry
  | joined {d : AcceleratorDescriptor} {claim : AuthorityClaim} (valid : d.validate = .ok ())
      (derived : deriveAcceleratorId d.physicalDevice d.agent d.agentBoot d.generation = d.id) :
      MemberStep f env (.observe d claim) none
        (some ⟨f.enrolledRecord d (env.wall .member), d, rfl⟩)
  | superseded {d : AcceleratorDescriptor} {claim : AuthorityClaim} {entry : MemberEntry}
      (now : Timestamp) (open_ : entry.record.state.isTerminal = false) :
      MemberStep f env (.observe d claim) (some entry) (some (entry.superseded d.id now))
  | observedAgain {d : AcceleratorDescriptor} {claim : AuthorityClaim} {entry : MemberEntry}
      (valid : d.validate = .ok ()) (same : d.id = entry.record.accelerator)
      (open_ : entry.record.state.isTerminal = false)
      (boot : entry.record.agentBoot = d.agentBoot) (found : f.members.get? d.id = some entry)
      (derived : deriveAcceleratorId d.physicalDevice d.agent d.agentBoot d.generation = d.id) :
      MemberStep f env (.observe d claim) (some entry)
        (some (entry.observedAgain f d same (env.wall .member)))
  | moved {a : AcceleratorId} {target : MemberState} {claim : AuthorityClaim}
      {entry : MemberEntry} (named : entry.record.accelerator = a)
      (legal : entry.record.state.isLegalTransition target = true) :
      MemberStep f env (.transition a target claim) (some entry)
        (some (entry.moved f target (env.wall .member)))
  | updated {a : AcceleratorId} {capabilities : CapabilitySet} {evidence : EvidenceRecord}
      {claim : AuthorityClaim} {entry : MemberEntry} (named : entry.record.accelerator = a)
      (open_ : entry.record.state.isTerminal = false) (valid : capabilities.validate = .ok ())
      (witnessed : evidence.validate = .ok ()) (subject : evidence.subject = a)
      (provenance : evidence.provenance = entry.record.provenance)
      (digest : evidence.payloadDigest = capabilities.digest) :
      MemberStep f env (.updateCapabilities a capabilities evidence claim) (some entry)
        (some (entry.updated f capabilities evidence (env.wall .member)))
  | underPolicy {p : FederationPolicy} {claim : AuthorityClaim} {entry : MemberEntry} :
      MemberStep f env (.setPolicy p claim) (some entry)
        (some (entry.underPolicy p.refreshIdentity.generation))
  | drained {id : MigrationPlanId} {claim : AuthorityClaim} {plan : MigrationPlan}
      {entry : MemberEntry} (stored : f.plans.get? id = some plan)
      (source : plan.source = entry.record.accelerator)
      (working : entry.record.state = .active ∨ entry.record.state = .degraded) :
      MemberStep f env (.advanceMigration id .committed claim) (some entry)
        (some (entry.drained (env.wall .member)))

/-- What one command does to one plan. -/
inductive PlanStep (f : Federation) (env : Environment) :
    Command → Option MigrationPlan → Option MigrationPlan → Prop
  | same {c : Command} (plan : Option MigrationPlan) : PlanStep f env c plan plan
  | authored {workload : WorkloadClassId} {a b : AcceleratorId} {claim : AuthorityClaim}
      {request : MigrationRequest} {plan : MigrationPlan} (earlier : Option MigrationPlan)
      (made : planMigration request (env.wall .plan) = .ok plan) :
      PlanStep f env (.planMigration workload a b claim) earlier (some plan)
  | advanced {id : MigrationPlanId} {target : MigrationState} {claim : AuthorityClaim}
      {plan : MigrationPlan} (stored : f.plans.get? id = some plan)
      (legal : plan.state.isLegalTransition target = true) :
      PlanStep f env (.advanceMigration id target claim) (some plan)
        (some { plan with state := target })
  | aborted {c : Command} {plan : MigrationPlan} (reason : CompatibilityReason)
      (cause : (∃ p claim, c = .setPolicy p claim ∧ reason = stalePolicyReason) ∨
        ∃ id detail claim, c = .abortMigration id detail claim ∧
          reason = cancelledReason detail) :
      PlanStep f env c (some plan) (some (plan.abortIfOpen reason))

namespace MemberStep

variable {f : Federation} {env : Environment} {c : Command}

/-- Replacing one entry of the table is a step of that entry only. -/
theorem of_insert {k : AcceleratorId} {entry entry' : MemberEntry}
    (found : f.members.get? entry.record.accelerator = some entry)
    (same : entry'.record.accelerator = entry.record.accelerator)
    (step : MemberStep f env c (some entry) (some entry')) :
    MemberStep f env c (f.members.get? k) ((f.members.insert entry').get? k) := by
  rw [Keyed.get?_insert]
  split
  · rename_i here
    rw [← here, same, found]
    exact step
  · exact .same _

/-- Superseding one incarnation after the other retires each at most once. -/
theorem of_supersede {d : AcceleratorDescriptor} {claim : AuthorityClaim} {k : AcceleratorId}
    (candidates : List AcceleratorId) {members : MemberTable}
    (step : MemberStep f env (.observe d claim) (f.members.get? k) (members.get? k))
    (settled : members.get? k = f.members.get? k ∨
      ∀ entry, members.get? k = some entry → entry.record.state.isTerminal = true) :
    MemberStep f env (.observe d claim) (f.members.get? k)
      ((candidates.foldl (Federation.supersede d env) members).get? k) := by
  induction candidates generalizing members with
  | nil => exact step
  | cons candidate rest ih =>
      rw [List.foldl_cons, Federation.supersede]
      split
      · exact ih step settled
      · rename_i entry found
        split
        · rename_i matching
          have key := Keyed.key_of_get? found
          have open_ : entry.record.state.isTerminal = false := by
            simp only [Bool.and_eq_true, Bool.not_eq_true'] at matching
            exact matching.2
          by_cases here : candidate = k
          · -- the entry is retired now, so that no later round changes it again
            subst here
            have untouched : f.members.get? candidate = some entry := by
              rcases settled with same | retired
              · rw [← same, found]
              · rw [retired entry found] at open_
                cases open_
            have replaced : (members.insert (entry.superseded d.id
                (env.wall (.superseded candidate)))).get? candidate =
                some (entry.superseded d.id (env.wall (.superseded candidate))) := by
              rw [Keyed.get?_insert]
              exact if_pos key
            refine ih ?_ (.inr ?_)
            · rw [replaced, untouched]
              exact .superseded _ open_
            · rintro _ located
              rw [replaced] at located
              cases located
              rfl
          · have kept : (members.insert (entry.superseded d.id
                (env.wall (.superseded candidate)))).get? k = members.get? k := by
              rw [Keyed.get?_insert]
              exact if_neg fun same => here (key.symm.trans same)
            refine ih ?_ ?_
            · rw [kept]
              exact step
            · rw [kept]
              exact settled
        · exact ih step settled

end MemberStep

namespace Change

variable {f g : Federation} {env : Environment} {c : Command}

/-- Every member changes by a member step. -/
theorem member (change : Change f env c g) (k : AcceleratorId) :
    MemberStep f env c (f.members.get? k) (g.members.get? k) := by
  cases change with
  | @enrolled d claim authority valid derived alone absent =>
      rw [Federation.enrolled, Keyed.get?_insert]
      split
      · rename_i here
        have same : d.id = k := here
        rw [← same, absent]
        exact .joined valid derived
      · exact .of_supersede _ (.same _) (.inl rfl)
  | observedAgain authority valid found same open_ unfenced boot derived =>
      have located := found
      rw [same] at located
      exact .of_insert located (MemberEntry.record_observedAgain _ _ _ same _).2.1
        (.observedAgain valid same open_ boot found derived)
  | moved found authority legal =>
      have key := Keyed.key_of_get? found
      rw [← key] at found
      exact .of_insert found rfl (.moved key legal)
  | updated found authority unfenced open_ valid witnessed subject provenance digest =>
      have key := Keyed.key_of_get? found
      rw [← key] at found
      exact .of_insert found rfl (.updated key open_ valid witnessed subject provenance digest)
  | policy authority valid =>
      rw [Federation.underPolicy, Keyed.get?_map]
      cases f.members.get? k with
      | none => exact .same _
      | some entry => exact .underPolicy
  | @advanced id target claim plan source destination authority stored current origin goal
      endpoints legal =>
      rw [Federation.advanced, Federation.drainedMembers]
      split
      · rename_i drains
        simp only [Bool.and_eq_true, Bool.or_eq_true, decide_eq_true_eq] at drains
        obtain ⟨rfl, working⟩ := drains
        have key := Keyed.key_of_get? origin
        have located := origin
        rw [← key] at located
        exact .of_insert located rfl (.drained stored key.symm working)
      · exact .same _
  | workload | evaluated | planned | aborted | swept | persisted | shutdown => exact .same _

/-- Every plan changes by a plan step. -/
theorem plan (change : Change f env c g) (k : MigrationPlanId) :
    PlanStep f env c (f.plans.get? k) (g.plans.get? k) := by
  cases change with
  | policy authority valid =>
      rw [Federation.underPolicy, Keyed.get?_map]
      cases f.plans.get? k with
      | none => exact .same _
      | some plan => exact .aborted _ (.inl ⟨_, _, rfl, rfl⟩)
  | planned authority registered origin target decidedSource decidedDestination authored =>
      rw [Federation.withPlan, Keyed.get?_insert]
      split
      · exact .authored _ authored
      · exact .same _
  | @advanced id target claim plan source destination authority stored current origin goal
      endpoints legal =>
      rw [Federation.advanced, Keyed.get?_insert]
      split
      · rename_i here
        have key : plan.id = id := Keyed.key_of_get? stored
        have same : id = k := key.symm.trans here
        subst same
        rw [stored]
        exact .advanced stored legal
      · exact .same _
  | @aborted id reason claim plan authority stored open_ =>
      rw [Federation.withStoredPlan, Keyed.get?_insert]
      split
      · rename_i here
        rw [MigrationPlan.id_abortIfOpen] at here
        have same : id = k := (Keyed.key_of_get? stored).symm.trans here
        subst same
        rw [stored]
        exact .aborted _ (.inr ⟨_, _, _, rfl, rfl⟩)
      · exact .same _
  | enrolled | observedAgain | moved | updated | workload | evaluated | swept | persisted
  | shutdown => exact .same _

end Change

/-! ### Where plans come from -/

/-- A plan may move from one state to another: along the lifecycle, or because it is aborted. -/
def MigrationState.Moves (source target : MigrationState) : Prop :=
  source.isLegalTransition target = true ∨ source.isTerminal = false ∧ target = .aborted

/-- A later version of a plan differs from it in the state and its reasons at most. -/
structure MigrationPlan.Continues (plan later : MigrationPlan) : Prop where
  fields : later = { plan with state := later.state, refusalReasons := later.refusalReasons }
  moves : later.state = plan.state ∨ plan.state.Moves later.state

/-- A terminal state is never left. -/
theorem MigrationState.Moves.isTerminal_eq_false {source target : MigrationState}
    (moves : source.Moves target) : source.isTerminal = false := by
  rcases moves with legal | ⟨open_, _⟩
  · revert legal
    cases source <;> cases target <;> decide
  · exact open_

namespace MigrationPlan

theorem Continues.refl (plan : MigrationPlan) : plan.Continues plan := ⟨rfl, .inl rfl⟩

/-- A plan in flight was in flight before. -/
theorem Continues.isTerminal_eq_false {plan later : MigrationPlan} (continues : plan.Continues later)
    (open_ : later.state.isTerminal = false) : plan.state.isTerminal = false := by
  rcases continues.moves with same | moves
  · rw [← same]
    exact open_
  · exact moves.isTerminal_eq_false

theorem continues_abortIfOpen (plan : MigrationPlan) (reason : CompatibilityReason) :
    plan.Continues (plan.abortIfOpen reason) := by
  rw [abortIfOpen]
  split
  · exact .refl plan
  · rename_i open_
    exact ⟨rfl, .inr (.inr ⟨by simpa using open_, rfl⟩)⟩

end MigrationPlan

/-- The plan was authored in the state `f`: what the planner binds a plan to. -/
structure Authored (f : Federation) (plan : MigrationPlan) : Prop where
  federationGeneration : plan.federationGeneration = f.generation.next
  epoch : plan.epoch = f.epoch
  policy : plan.policy = f.policy.id
  policyGeneration : plan.policyGeneration = f.policy.generation
  origin : ∃ entry, f.members.get? plan.source = some entry ∧
    plan.sourceCapabilityGeneration = entry.record.capabilityGeneration
  goal : ∃ entry, f.members.get? plan.destination = some entry ∧
    plan.destinationCapabilityGeneration = entry.record.capabilityGeneration
  distinct : plan.source ≠ plan.destination
  identified : plan.id = plan.derivedId

variable {a : AcceleratorId} {f g : Federation} {profile : WorkloadProfile} {c : Command}
  {d : CompatibilityDecision} {α : Type}

theorem authored_of_planMigration {env : Environment} {b : AcceleratorId}
    {source destination : MemberEntry}
    {sourceDecision destinationDecision : CompatibilityDecision} {plan : MigrationPlan}
    (origin : f.members.get? a = some source) (target : f.members.get? b = some destination)
    (made : planMigration (f.bumped.migrationRequest profile a b source destination
      sourceDecision destinationDecision) (env.wall .plan) = .ok plan) : Authored f plan := by
  obtain ⟨policy, workload, _, _, chosen, _, _, _, _, _, distinct, rfl⟩ :=
    planMigration_eq_ok.mp made
  cases chosen
  obtain ⟨outcome, state, steps, cost, reasons, equal⟩ := MigrationRequest.decided_eq
    (f.bumped.migrationRequest profile a b source destination sourceDecision destinationDecision)
    f.policy workload _ _ (MigrationRequest.bound _ f.policy workload (env.wall .plan))
  rw [show f.bumped.policy = f.policy from rfl, equal]
  exact ⟨rfl, rfl, rfl, rfl, ⟨source, origin, rfl⟩, ⟨destination, target, rfl⟩, distinct,
    (MigrationPlan.derivedId_refreshIdentity _).symm⟩

/-- A stored plan continues an earlier one or has just been authored. -/
theorem Change.plan_cases {env : Environment}
    (change : Change f env c g) {k : MigrationPlanId} {plan : MigrationPlan}
    (stored : g.plans.get? k = some plan) :
    (∃ earlier, f.plans.get? k = some earlier ∧ earlier.Continues plan) ∨
      (Authored f plan ∧ g.generation = f.generation.next) := by
  have step := change.plan k
  rw [stored] at step
  generalize before : f.plans.get? k = earlier at step
  cases step with
  | same => exact .inl ⟨plan, rfl, .refl plan⟩
  | advanced found legal => exact .inl ⟨_, rfl, rfl, .inr (.inl legal)⟩
  | aborted reason cause => exact .inl ⟨_, rfl, MigrationPlan.continues_abortIfOpen _ _⟩
  | authored earlier made =>
      cases change with
      | planned authority registered origin target decidedSource decidedDestination authored =>
          rw [Federation.withPlan, Keyed.get?_insert] at stored
          split at stored
          · cases stored
            exact .inr ⟨authored_of_planMigration origin target authored, rfl⟩
          · exact .inl ⟨plan, before.symm.trans stored, .refl plan⟩

theorem MigrationPlan.Continues.derivedId {plan later : MigrationPlan}
    (continues : plan.Continues later) : later.derivedId = plan.derivedId := by
  rw [continues.fields]
  rfl

/-- A stored plan stays stored. -/
theorem PlanStep.stays {env : Environment} {plan : MigrationPlan}
    {after : Option MigrationPlan} (step : PlanStep f env c (some plan) after) :
    ∃ later, after = some later := by
  cases step with
  | same => exact ⟨plan, rfl⟩
  | authored earlier made => exact ⟨_, rfl⟩
  | advanced stored legal => exact ⟨_, rfl⟩
  | aborted reason cause => exact ⟨_, rfl⟩

/-- A change moves the generation on, unless it leaves everything that is evaluated alone. -/
theorem Change.generation_cases {env : Environment}
    (change : Change f env c g) : g.generation = f.generation.next ∨
      (g.generation = f.generation ∧ g.members = f.members ∧ g.policy = f.policy ∧
        g.workloads = f.workloads) := by
  cases change with
  | evaluated | swept | persisted | shutdown => exact .inr ⟨rfl, rfl, rfl, rfl⟩
  | enrolled | observedAgain | moved | updated | policy | workload | planned | advanced
  | aborted => exact .inl rfl

theorem Change.generation_le {env : Environment}
    (change : Change f env c g) : f.generation.value ≤ g.generation.value := by
  rcases change.generation_cases with moved | ⟨same, _⟩
  · rw [moved]
    exact f.generation.value_le_next
  · rw [same]
    exact UInt64.le_refl _

/-- A change of policy leaves nothing in flight. -/
theorem Change.policy_or_atRest {env : Environment}
    (change : Change f env c g) : g.policy = f.policy ∨ AtRest g := by
  cases change with
  | policy authority valid =>
      refine .inr ⟨rfl, ?_⟩
      intro k plan stored
      rw [Federation.underPolicy, Keyed.get?_map] at stored
      obtain ⟨earlier, _, rfl⟩ := Option.map_eq_some_iff.mp stored
      exact earlier.isTerminal_abortIfOpen _
  | enrolled | observedAgain | moved | updated | workload | evaluated | planned | advanced
  | aborted | swept | persisted | shutdown => exact .inl rfl

/-! ### Where decisions come from -/

/-- The decision was made in the state `f`: what an evaluation binds a decision to. -/
structure Decided (f : Federation) (d : CompatibilityDecision) : Prop where
  federationGeneration : d.federationGeneration = f.generation
  epoch : d.epoch = f.epoch
  policy : d.policy = f.policy.id
  policyGeneration : d.policyGeneration = f.policy.generation
  target : ∃ entry, f.members.get? d.accelerator = some entry ∧
    d.capabilityGeneration = entry.record.capabilityGeneration
  identified : d.decisionId = d.derivedId

/-- An evaluation assesses the profile in the context of its member and its origin. -/
theorem Federation.evaluateLocked_eq_ok
    {options : EvaluationOptions} {mustExist : Bool} {env : Environment}
    {site : ClockSite} :
    f.evaluateLocked profile a options mustExist env site = .ok d ↔
      ∃ entry source, f.members.get? a = some entry ∧
        f.sourceEntry options mustExist = .ok source ∧
        evaluateCompatibility f.registry profile
          (f.evaluationContext profile entry source (env.monotonic site)) (env.wall site) =
            .ok d := by
  simp only [evaluateLocked, bind_eq_ok, memberEntry_eq_ok]
  constructor
  · rintro ⟨entry, found, source, origin, made⟩
    exact ⟨entry, source, found, origin, made⟩
  · rintro ⟨entry, source, found, origin, made⟩
    exact ⟨entry, found, source, origin, made⟩

theorem decided_of_evaluateLocked
    {options : EvaluationOptions} {mustExist : Bool} {env : Environment}
    {site : ClockSite}
    (made : f.evaluateLocked profile a options mustExist env site = .ok d) : Decided f d := by
  obtain ⟨entry, source, found, _, made⟩ := Federation.evaluateLocked_eq_ok.mp made
  obtain ⟨_, policy, capabilities, chosen, _, _, _, rfl⟩ := evaluateCompatibility_eq_ok.mp made
  cases chosen
  have key := Keyed.key_of_get? found
  refine ⟨rfl, rfl, rfl, rfl, ⟨entry, ?_, rfl⟩,
    (CompatibilityDecision.derivedId_refreshIdentity _).symm⟩
  show f.members.get? entry.record.accelerator = some entry
  rw [key, found]

/-- A recorded decision was recorded before or is made by an evaluation in the state before. -/
theorem Change.decision_evaluated {env : Environment}
    (change : Change f env c g) {k : DecisionId}
    (recorded : g.decisions.get? k = some d) :
    f.decisions.get? k = some d ∨ ∃ profile a options mustExist site,
      f.evaluateLocked profile a options mustExist env site = .ok d := by
  cases change with
  | policy authority valid =>
      rw [Federation.underPolicy, Keyed.get?_empty] at recorded
      cases recorded
  | evaluated running registered decided =>
      have kept := Keyed.get?_of_shrink recorded
      rw [Keyed.get?_insert] at kept
      split at kept
      · cases kept
        exact .inr ⟨_, _, _, _, _, decided⟩
      · exact .inl kept
  | planned authority registered origin target decidedSource decidedDestination authored =>
      have kept := Keyed.get?_of_shrink recorded
      rw [Keyed.get?_insert, Keyed.get?_insert] at kept
      split at kept
      · cases kept
        exact .inr ⟨_, _, _, _, _, decidedDestination⟩
      · split at kept
        · cases kept
          exact .inr ⟨_, _, _, _, _, decidedSource⟩
        · exact .inl kept
  | swept =>
      rw [Federation.swept, Keyed.get?_filter] at recorded
      exact .inl (Option.filter_eq_some_iff.mp recorded).1
  | enrolled | observedAgain | moved | updated | workload | advanced | aborted | persisted
  | shutdown => exact .inl recorded

/-- A recorded decision was recorded before or has just been made. -/
theorem Change.decision_cases {env : Environment}
    (change : Change f env c g) {k : DecisionId}
    (recorded : g.decisions.get? k = some d) :
    f.decisions.get? k = some d ∨ Decided f d := by
  rcases change.decision_evaluated recorded with found | ⟨_, _, _, _, _, decided⟩
  · exact .inl found
  · exact .inr (decided_of_evaluateLocked decided)

/-- Whatever becomes of a call, every member makes at most one step. -/
theorem Federation.member_of_execute (f : Federation) (c : Command) (env : Environment)
    (k : AcceleratorId) :
    MemberStep f env c (f.members.get? k) ((f.execute c env).state.members.get? k) := by
  rcases (f.execute_conduct c env).state_cases with same | ⟨moved, _⟩ | ⟨g, change, left⟩
  · rw [same]
    exact .same _
  · rw [moved]
    exact .same _
  · have step := change.member k
    rcases left with same | written
    · rw [same]
      exact step
    · rw [written]
      exact step

/-! ### Calls that succeed -/

/-- An operation succeeds only if it settled on something. -/
theorem Federation.settled_of_conclude {env : Environment}
    {settled : Result (Settled α)} {value : α}
    (succeeded : (f.conclude env settled).result = .ok value) : ∃ s, settled = .ok s := by
  cases settled with
  | error status => cases succeeded
  | ok s => exact ⟨s, rfl⟩

/-- An operation that settled on nothing but changes has made one if it succeeded. -/
theorem Federation.change_of_conclude {env : Environment}
    {settled : Result (Settled α)} {value : α}
    (changes : ∀ s, settled = .ok s → ∃ v g, s = .changed v g ∧ Change f env c g)
    (succeeded : (f.conclude env settled).result = .ok value) :
    ∃ g, Change f env c g ∧ ((f.conclude env settled).state = g ∨
      (f.conclude env settled).state = g.saved env) := by
  cases settled with
  | error status => cases succeeded
  | ok s =>
      obtain ⟨v, g, rfl, change⟩ := changes s rfl
      refine ⟨g, change, ?_⟩
      rw [conclude, publish]
      rcases written : g.persistLocked env false with ⟨⟨status⟩ | ⟨⟩, h⟩
      · exact (persistLocked_cases written).imp_right And.right
      · exact (persistLocked_cases written).imp_right And.right

/-- A change that was settled on is what the call leaves behind, apart from the store. -/
theorem Federation.state_of_conclude {env : Environment}
    {settled : Result (Settled α)} {value : α} (changed : settled = .ok (.changed value g)) :
    ∃ store, (f.conclude env settled).state = { g with store } := by
  rw [changed, conclude, publish]
  rcases written : g.persistLocked env false with ⟨⟨status⟩ | ⟨⟩, h⟩
  all_goals
    rcases persistLocked_cases written with rfl | ⟨_, rfl⟩
    · exact ⟨_, rfl⟩
    · exact ⟨_, rfl⟩

/-- The result of an operation succeeds if its reply does. -/
theorem Outcome.result_of_map {β : Type} {o : Outcome α} {convert : α → β} {reply : β}
    (succeeded : (o.map convert).result = .ok reply) : ∃ value, o.result = .ok value := by
  cases result : o.result with
  | error status =>
      rw [Outcome.map, result] at succeeded
      cases succeeded
  | ok value => exact ⟨value, rfl⟩

/-! ### Members through whole runs -/

section Keeping

variable {allowed : Federation → Event → Prop} {holds : MemberEntry → Prop}
  {f f₀ g : Federation} {a : AcceleratorId}

/-- A member keeps, over one event, what steps of members and restarts keep. -/
theorem member_keeps {e : Event}
    (stepped : ∀ f env c entry after, allowed f (.call c env) →
      MemberStep f env c (some entry) after → holds entry → ∃ entry', after = some entry' ∧ holds entry')
    (restored : ∀ f env entry, holds entry → holds (Federation.restoredIn f env entry))
    (published : Published (·.members) f) (permitted : allowed f e) (taken : Step f e g)
    (held : ∃ entry, f.members.get? a = some entry ∧ holds entry) :
    ∃ entry, g.members.get? a = some entry ∧ holds entry := by
  obtain ⟨entry, found, now⟩ := held
  cases e with
  | call c env =>
      rw [show g = (f.execute c env).state from taken]
      rcases (f.execute_conduct c env).state_cases with same | ⟨moved, _⟩ | ⟨h, change, left⟩
      · rw [same]
        exact ⟨entry, found, now⟩
      · rw [moved]
        exact ⟨entry, found, now⟩
      · have step := change.member a
        rw [found] at step
        have later := stepped f env c entry _ permitted step now
        rcases left with same | written
        · rw [same]
          exact later
        · rw [written]
          exact later
  | reopen R config env =>
      obtain ⟨_, file, opened⟩ := taken
      obtain ⟨saved, report, store, agrees, rfl⟩ :=
        reopened_of_backed published.backed file opened
      refine ⟨saved.restoredIn env entry, ?_, restored saved env entry now⟩
      dsimp only
      rw [Federation.members_restarted, show saved.members = f.members from agrees, found]
      rfl

/-- In runs that write every change at once, it keeps that for good. -/
theorem member_keeps_of_reaches {R : Registry} {config : FederationConfig}
    {disk : Option Bytes} {env : Environment}
    (stepped : ∀ f env c entry after, allowed f (.call c env) →
      MemberStep f env c (some entry) after → holds entry → ∃ entry', after = some entry' ∧ holds entry')
    (restored : ∀ f env entry, holds entry → holds (Federation.restoredIn f env entry))
    (through : ∀ f e, allowed f e → WritesThrough f e)
    (opened : Federation.openOn R config disk env = .ok f₀) (enabled : config.persist = true)
    (immediate : config.persistOnMutation = true) (before : Reaches allowed f₀ f)
    (held : ∃ entry, f.members.get? a = some entry ∧ holds entry) (run : Reaches allowed f g) :
    ∃ entry, g.members.get? a = some entry ∧ holds entry := by
  have published : ∀ h, Reaches allowed f₀ h → Published (·.members) h := by
    intro h reached
    exact published_of_writesThrough (fun _ _ => rfl) (fun _ => rfl) through
      (published_of_open opened (fun _ _ => rfl) enabled immediate) reached
  induction run with
  | refl => exact held
  | next earlier permitted taken ih =>
      exact member_keeps stepped restored (published _ (before.trans earlier)) permitted taken ih

end Keeping

end Haf
