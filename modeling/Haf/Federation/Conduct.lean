/-
# What a call can do

Every accepted command changes the federation in one of a fixed list of ways, each
with the facts its guards established. A call refuses without effect, keeps the
state, publishes such a change, or fails to publish it; the one exception is a
migration whose endpoints the planner refuses after the generation has moved.
-/

import Haf.Federation.System

namespace Haf

open Sequence

/-- The ways in which an accepted command changes the state in memory. -/
inductive Change (f : Federation) (env : Environment) : Command → Federation → Prop
  | enrolled {d : AcceleratorDescriptor} {claim : AuthorityClaim}
      (authority : f.validateAuthority claim = .ok ()) (valid : d.validate = .ok ())
      (derived : deriveAcceleratorId d.physicalDevice d.agent d.agentBoot d.generation = d.id)
      (alone : f.competingBoot d = none) (absent : f.members.get? d.id = none) :
      Change f env (.observe d claim) (f.enrolled d env)
  | observedAgain {d : AcceleratorDescriptor} {claim : AuthorityClaim} {entry : MemberEntry}
      (authority : f.validateAuthority claim = .ok ()) (valid : d.validate = .ok ())
      (found : f.members.get? d.id = some entry) (same : d.id = entry.record.accelerator)
      (open_ : entry.record.state.isTerminal = false) (unfenced : entry.record.state ≠ .fenced)
      (boot : entry.record.agentBoot = d.agentBoot)
      (derived : deriveAcceleratorId d.physicalDevice d.agent d.agentBoot d.generation = d.id) :
      Change f env (.observe d claim)
        (f.withMember (entry.observedAgain f d same (env.wall .member)))
  | moved {a : AcceleratorId} {target : MemberState} {claim : AuthorityClaim}
      {entry : MemberEntry} (found : f.members.get? a = some entry)
      (authority : f.validateMemberAuthority claim entry.record a = .ok ())
      (legal : entry.record.state.isLegalTransition target = true) :
      Change f env (.transition a target claim)
        (f.withMember (entry.moved f target (env.wall .member)))
  | updated {a : AcceleratorId} {capabilities : CapabilitySet} {evidence : EvidenceRecord}
      {claim : AuthorityClaim} {entry : MemberEntry} (found : f.members.get? a = some entry)
      (authority : f.validateMemberAuthority claim entry.record a = .ok ())
      (unfenced : entry.record.state ≠ .fenced) (open_ : entry.record.state.isTerminal = false)
      (valid : capabilities.validate = .ok ()) (witnessed : evidence.validate = .ok ())
      (subject : evidence.subject = a) (provenance : evidence.provenance = entry.record.provenance)
      (digest : evidence.payloadDigest = capabilities.digest) :
      Change f env (.updateCapabilities a capabilities evidence claim)
        (f.withMember (entry.updated f capabilities evidence (env.wall .member)))
  | policy {p : FederationPolicy} {claim : AuthorityClaim}
      (authority : f.validateAuthority claim = .ok ())
      (valid : p.refreshIdentity.validate f.registry = .ok ()) :
      Change f env (.setPolicy p claim) (f.underPolicy p.refreshIdentity)
  | workload {w : WorkloadProfile} {claim : AuthorityClaim}
      (authority : f.validateAuthority claim = .ok ())
      (valid : (Federation.registeredProfile w).validate f.registry = .ok ()) :
      Change f env (.registerWorkload w claim) (f.withWorkload (Federation.registeredProfile w))
  | evaluated {workload : WorkloadClassId} {a : AcceleratorId} {options : EvaluationOptions}
      {profile : WorkloadProfile} {decision : CompatibilityDecision}
      (running : f.isShutdown = false) (registered : f.workloads.get? workload = some profile)
      (decided : f.evaluateLocked profile a options true env .decision = .ok decision) :
      Change f env (.evaluate workload a options) (f.withDecision decision)
  | planned {workload : WorkloadClassId} {a b : AcceleratorId} {claim : AuthorityClaim}
      {profile : WorkloadProfile} {source destination : MemberEntry}
      {sourceDecision destinationDecision : CompatibilityDecision} {plan : MigrationPlan}
      (authority : f.validateAuthority claim = .ok ())
      (registered : f.workloads.get? workload = some profile)
      (origin : f.members.get? a = some source) (target : f.members.get? b = some destination)
      (decidedSource :
        f.evaluateLocked profile a ⟨some b⟩ false env .sourceDecision = .ok sourceDecision)
      (decidedDestination : f.evaluateLocked profile b ⟨some a⟩ false env .destinationDecision =
        .ok destinationDecision)
      (authored : planMigration (f.bumped.migrationRequest profile a b source destination
        sourceDecision destinationDecision) (env.wall .plan) = .ok plan) :
      Change f env (.planMigration workload a b claim)
        (f.bumped.withPlan plan sourceDecision destinationDecision)
  | advanced {id : MigrationPlanId} {target : MigrationState} {claim : AuthorityClaim}
      {plan : MigrationPlan} {source destination : MemberEntry}
      (authority : f.validateAuthority claim = .ok ()) (stored : f.plans.get? id = some plan)
      (current : plan.isCurrent f.epoch f.policy.generation plan.sourceGeneration
        plan.destinationGeneration plan.sourceCapabilityGeneration
        plan.destinationCapabilityGeneration plan.workloadRevision = true)
      (origin : f.members.get? plan.source = some source)
      (goal : f.members.get? plan.destination = some destination)
      (endpoints : Federation.endpointsCurrent plan source.record destination.record = true)
      (legal : plan.state.isLegalTransition target = true) :
      Change f env (.advanceMigration id target claim)
        (f.advanced plan source target (env.wall .member))
  | aborted {id : MigrationPlanId} {reason : Bytes} {claim : AuthorityClaim}
      {plan : MigrationPlan} (authority : f.validateAuthority claim = .ok ())
      (stored : f.plans.get? id = some plan) (open_ : plan.state.isTerminal = false) :
      Change f env (.abortMigration id reason claim)
        (f.withStoredPlan (plan.abortIfOpen (cancelledReason reason)))
  | swept : Change f env .invalidateStaleDecisions f.swept
  | persisted : Change f env .persist f
  | shutdown (running : f.isShutdown = false) :
      Change f env .shutdown { f with isShutdown := true }

/-- The planner refused the endpoints of a migration after the generation moved. -/
inductive Bump (f : Federation) (env : Environment) : Command → Prop
  | refused {workload : WorkloadClassId} {a b : AcceleratorId} {claim : AuthorityClaim}
      {profile : WorkloadProfile} {source destination : MemberEntry}
      {sourceDecision destinationDecision : CompatibilityDecision} {status : Status}
      (authority : f.validateAuthority claim = .ok ())
      (registered : f.workloads.get? workload = some profile)
      (origin : f.members.get? a = some source) (target : f.members.get? b = some destination)
      (decidedSource :
        f.evaluateLocked profile a ⟨some b⟩ false env .sourceDecision = .ok sourceDecision)
      (decidedDestination : f.evaluateLocked profile b ⟨some a⟩ false env .destinationDecision =
        .ok destinationDecision)
      (unplanned : planMigration (f.bumped.migrationRequest profile a b source destination
        sourceDecision destinationDecision) (env.wall .plan) = .error status) :
      Bump f env (.planMigration workload a b claim)

namespace Command

/-- An explicit request to persist writes in every persistence mode. -/
def forces : Command → Bool
  | .persist => true
  | _ => false

end Command

/-- How a call ends. -/
inductive Conduct (f : Federation) (env : Environment) (c : Command) : Outcome Reply → Prop
  | refused (status : Status) : Conduct f env c ⟨.error status, none, f⟩
  | kept (reply : Reply) : Conduct f env c ⟨.ok reply, none, f⟩
  | bumped (status : Status) (bump : Bump f env c) :
      Conduct f env c ⟨.error status, none, f.bumped⟩
  | published {g h : Federation} (reply : Reply) (change : Change f env c g)
      (written : g.persistLocked env c.forces = (.ok (), h)) :
      Conduct f env c ⟨.ok reply, none, h⟩
  | faulted {g h : Federation} {status : Status} (result : Result Reply)
      (change : Change f env c g) (failed : g.persistLocked env c.forces = (.error status, h)) :
      Conduct f env c ⟨result, some status, h⟩

namespace Federation

variable {f : Federation} {env : Environment}

/-! ### Guards, inverted -/

variable {a : AcceleratorId} {s : Settled MigrationPlan}

theorem memberEntry_eq_ok {entry : MemberEntry} :
    f.memberEntry a = .ok entry ↔ f.members.get? a = some entry := by
  rw [memberEntry]
  split <;> simp_all

theorem registeredWorkload_eq_ok {workload : WorkloadClassId} {profile : WorkloadProfile} :
    f.registeredWorkload workload = .ok profile ↔ f.workloads.get? workload = some profile := by
  rw [registeredWorkload]
  split <;> simp_all

theorem storedPlan_eq_ok {id : MigrationPlanId} {plan : MigrationPlan} :
    f.storedPlan id = .ok plan ↔ f.plans.get? id = some plan := by
  rw [storedPlan]
  split <;> simp_all

theorem settleObserve_eq_ok {d : AcceleratorDescriptor} {claim : AuthorityClaim}
    {s : Settled MemberRecord} (settled : f.settleObserve d claim env = .ok s) :
    ∃ record g, s = .changed record g ∧ Change f env (.observe d claim) g := by
  simp only [settleObserve, bind_eq_ok, ensure_eq_ok] at settled
  obtain ⟨_, authority, _, valid, _, derived, _, _, settled⟩ := settled
  split at settled
  · cases settled
  · rename_i alone
    split at settled
    · rename_i absent
      cases settled
      exact ⟨_, _, rfl, .enrolled authority valid (by simpa using derived) alone absent⟩
    · rename_i entry found
      simp only [bind_eq_ok, ensure_eq_ok] at settled
      obtain ⟨_, open_, _, unfenced, _, boot, settled⟩ := settled
      cases settled
      exact ⟨_, _, rfl, .observedAgain authority valid found _ (by simpa using open_)
        (by simpa using unfenced) (by simpa using boot) (by simpa using derived)⟩

theorem settleTransition_eq_ok {target : MemberState}
    {claim : AuthorityClaim} {s : Settled MemberRecord}
    (settled : f.settleTransition a target claim env = .ok s) :
    (∃ entry, f.members.get? a = some entry ∧ entry.record.state = target ∧
        s = .unchanged entry.record) ∨
      ∃ record g, s = .changed record g ∧ Change f env (.transition a target claim) g := by
  simp only [settleTransition, bind_eq_ok, memberEntry_eq_ok] at settled
  obtain ⟨_, _, entry, found, _, authority, settled⟩ := settled
  split at settled
  · rename_i already
    cases settled
    exact .inl ⟨entry, found, already, rfl⟩
  · simp only [bind_eq_ok, ensure_eq_ok] at settled
    obtain ⟨_, legal, settled⟩ := settled
    cases settled
    exact .inr ⟨_, _, rfl, .moved found authority legal⟩

theorem settleUpdateCapabilities_eq_ok {capabilities : CapabilitySet}
    {evidence : EvidenceRecord} {claim : AuthorityClaim} {s : Settled MemberRecord}
    (settled : f.settleUpdateCapabilities a capabilities evidence claim env = .ok s) :
    ∃ record g, s = .changed record g ∧
      Change f env (.updateCapabilities a capabilities evidence claim) g := by
  simp only [settleUpdateCapabilities, bind_eq_ok, memberEntry_eq_ok, ensure_eq_ok] at settled
  obtain ⟨_, _, entry, found, _, authority, _, working, _, valid, _, witnessed, _, subject, _,
    provenance, _, digest, settled⟩ := settled
  cases settled
  simp only [Bool.not_eq_true', Bool.or_eq_false_iff, decide_eq_false_iff_not] at working
  exact ⟨_, _, rfl, .updated found authority working.1 working.2 valid witnessed
    (by simpa using subject) (by simpa using provenance) (by simpa using digest)⟩

theorem settleSetPolicy_eq_ok {p : FederationPolicy} {claim : AuthorityClaim}
    {s : Settled PolicyGeneration} (settled : f.settleSetPolicy p claim = .ok s) :
    ∃ generation g, s = .changed generation g ∧ Change f env (.setPolicy p claim) g := by
  simp only [settleSetPolicy, bind_eq_ok] at settled
  obtain ⟨_, authority, _, valid, settled⟩ := settled
  cases settled
  exact ⟨_, _, rfl, .policy authority valid⟩

theorem settleRegisterWorkload_eq_ok {w : WorkloadProfile} {claim : AuthorityClaim}
    {s : Settled WorkloadRevision} (settled : f.settleRegisterWorkload w claim = .ok s) :
    ∃ revision g, s = .changed revision g ∧ Change f env (.registerWorkload w claim) g := by
  simp only [settleRegisterWorkload, bind_eq_ok] at settled
  obtain ⟨_, authority, _, valid, settled⟩ := settled
  cases settled
  exact ⟨_, _, rfl, .workload authority valid⟩

theorem settleEvaluate_eq_ok {workload : WorkloadClassId}
    {options : EvaluationOptions} {s : Settled CompatibilityDecision}
    (settled : f.settleEvaluate workload a options env = .ok s) :
    ∃ decision g, s = .changed decision g ∧ Change f env (.evaluate workload a options) g := by
  simp only [settleEvaluate, bind_eq_ok, ensure_eq_ok, registeredWorkload_eq_ok] at settled
  obtain ⟨_, running, profile, registered, decision, decided, settled⟩ := settled
  cases settled
  exact ⟨_, _, rfl, .evaluated (by simpa using running) registered decided⟩

/-- What a call that gets as far as the planner has read, and what it settles on. -/
theorem settlePlanMigration_cases {workload : WorkloadClassId} {b : AcceleratorId}
    {claim : AuthorityClaim}
    (settled : f.settlePlanMigration workload a b claim env = .ok s) :
    ∃ profile source destination there here, f.validateAuthority claim = .ok () ∧
      f.workloads.get? workload = some profile ∧ f.members.get? a = some source ∧
      f.members.get? b = some destination ∧
      f.evaluateLocked profile a ⟨some b⟩ false env .sourceDecision = .ok there ∧
      f.evaluateLocked profile b ⟨some a⟩ false env .destinationDecision = .ok here ∧
      ((∃ status, Haf.planMigration (f.bumped.migrationRequest profile a b source destination
          there here) (env.wall .plan) = .error status ∧ s = .refused status f.bumped) ∨
        ∃ plan, Haf.planMigration (f.bumped.migrationRequest profile a b source destination
          there here) (env.wall .plan) = .ok plan ∧
          s = .changed plan (f.bumped.withPlan plan there here)) := by
  simp only [settlePlanMigration, bind_eq_ok, registeredWorkload_eq_ok] at settled
  obtain ⟨_, authority, profile, registered, settled⟩ := settled
  split at settled
  next source origin =>
    split at settled
    next destination target =>
      simp only [bind_eq_ok] at settled
      obtain ⟨there, decidedSource, here, decidedDestination, settled⟩ := settled
      refine ⟨profile, source, destination, there, here, authority, registered, origin, target,
        decidedSource, decidedDestination, ?_⟩
      split at settled
      next status unplanned =>
        cases settled
        exact .inl ⟨status, unplanned, rfl⟩
      next plan authored =>
        cases settled
        exact .inr ⟨plan, authored, rfl⟩
    next => cases settled
  next => cases settled

theorem settlePlanMigration_eq_ok {workload : WorkloadClassId} {b : AcceleratorId}
    {claim : AuthorityClaim}
    (settled : f.settlePlanMigration workload a b claim env = .ok s) :
    (∃ status, s = .refused status f.bumped ∧ Bump f env (.planMigration workload a b claim)) ∨
      ∃ plan g, s = .changed plan g ∧ Change f env (.planMigration workload a b claim) g := by
  obtain ⟨profile, source, destination, there, here, authority, registered, origin, target,
    decidedSource, decidedDestination, ⟨status, unplanned, rfl⟩ | ⟨plan, authored, rfl⟩⟩ :=
    settlePlanMigration_cases settled
  · exact .inl ⟨_, rfl, .refused authority registered origin target decidedSource
      decidedDestination unplanned⟩
  · exact .inr ⟨_, _, rfl, .planned authority registered origin target decidedSource
      decidedDestination authored⟩

theorem settleAdvanceMigration_eq_ok {id : MigrationPlanId} {target : MigrationState}
    {claim : AuthorityClaim}
    (settled : f.settleAdvanceMigration id target claim env = .ok s) :
    (∃ plan, f.plans.get? id = some plan ∧ plan.state = target ∧ s = .unchanged plan) ∨
      ∃ plan g, s = .changed plan g ∧ Change f env (.advanceMigration id target claim) g := by
  simp only [settleAdvanceMigration, bind_eq_ok, storedPlan_eq_ok, ensure_eq_ok] at settled
  obtain ⟨_, authority, plan, stored, _, _, _, current, settled⟩ := settled
  split at settled
  · rename_i source destination found
    obtain ⟨origin, goal⟩ := Prod.mk.inj found
    simp only [bind_eq_ok, ensure_eq_ok] at settled
    obtain ⟨_, endpoints, settled⟩ := settled
    split at settled
    · rename_i already
      cases settled
      exact .inl ⟨plan, stored, already, rfl⟩
    · simp only [bind_eq_ok, ensure_eq_ok] at settled
      obtain ⟨_, legal, settled⟩ := settled
      cases settled
      exact .inr ⟨_, _, rfl, .advanced authority stored current origin goal endpoints legal⟩
  · cases settled

theorem settleAbortMigration_eq_ok {id : MigrationPlanId} {reason : Bytes}
    {claim : AuthorityClaim}
    (settled : f.settleAbortMigration id reason claim = .ok s) :
    ∃ plan g, s = .changed plan g ∧ Change f env (.abortMigration id reason claim) g := by
  simp only [settleAbortMigration, bind_eq_ok, storedPlan_eq_ok, ensure_eq_ok] at settled
  obtain ⟨_, authority, plan, stored, _, open_, settled⟩ := settled
  cases settled
  exact ⟨_, _, rfl, .aborted authority stored (by simpa using open_)⟩

/-! ### Every call -/

/-- An operation that settles on a permitted change is carried out as one. -/
theorem conclude_conduct {α : Type} {c : Command} {settled : Result (Settled α)}
    {reply : α → Reply} (unforced : c.forces = false)
    (refused : ∀ status g, settled = .ok (.refused status g) → g = f.bumped ∧ Bump f env c)
    (changed : ∀ value g, settled = .ok (.changed value g) → Change f env c g) :
    Conduct f env c ((f.conclude env settled).map reply) := by
  cases settled with
  | error status => exact .refused status
  | ok s =>
      cases s with
      | refused status g =>
          obtain ⟨rfl, bump⟩ := refused status g rfl
          exact .bumped status bump
      | unchanged value => exact .kept (reply value)
      | changed value g =>
          have change := changed value g rfl
          rw [conclude, publish]
          rcases written : g.persistLocked env false with ⟨⟨status⟩ | ⟨⟩, h⟩
          · exact .faulted _ change (by rw [unforced]; exact written)
          · exact .published _ change (by rw [unforced]; exact written)

/-- The same for an operation that only ever settles on a change. -/
theorem conclude_conduct_of_changed {α : Type} {c : Command} {settled : Result (Settled α)}
    {reply : α → Reply} (unforced : c.forces = false)
    (changed : ∀ s, settled = .ok s → ∃ value g, s = .changed value g ∧ Change f env c g) :
    Conduct f env c ((f.conclude env settled).map reply) := by
  refine conclude_conduct unforced ?_ ?_
  · intro status g equal
    obtain ⟨_, _, same, _⟩ := changed _ equal
    cases same
  · intro value g equal
    obtain ⟨_, _, same, change⟩ := changed _ equal
    cases same
    exact change

/-- Every call refuses, keeps the state, or publishes a permitted change. -/
theorem execute_conduct (f : Federation) (c : Command) (env : Environment) :
    Conduct f env c (f.execute c env) := by
  cases c with
  | observe d claim => exact conclude_conduct_of_changed rfl fun s => settleObserve_eq_ok
  | transition a target claim =>
      refine conclude_conduct rfl ?_ ?_
      · intro status g equal
        rcases settleTransition_eq_ok equal with ⟨_, _, _, same⟩ | ⟨_, _, same, _⟩ <;> cases same
      · intro value g equal
        rcases settleTransition_eq_ok equal with ⟨_, _, _, same⟩ | ⟨_, _, same, change⟩
        · cases same
        · cases same
          exact change
  | updateCapabilities a capabilities evidence claim =>
      exact conclude_conduct_of_changed rfl fun s => settleUpdateCapabilities_eq_ok
  | setPolicy policy claim =>
      exact conclude_conduct_of_changed rfl fun s => settleSetPolicy_eq_ok
  | registerWorkload profile claim =>
      exact conclude_conduct_of_changed rfl fun s => settleRegisterWorkload_eq_ok
  | evaluate workload a options =>
      exact conclude_conduct_of_changed rfl fun s => settleEvaluate_eq_ok
  | planMigration workload a b claim =>
      refine conclude_conduct rfl ?_ ?_
      · intro status g equal
        rcases settlePlanMigration_eq_ok equal with ⟨_, same, bump⟩ | ⟨_, _, same, _⟩
        · cases same
          exact ⟨rfl, bump⟩
        · cases same
      · intro value g equal
        rcases settlePlanMigration_eq_ok equal with ⟨_, same, _⟩ | ⟨_, _, same, change⟩
        · cases same
        · cases same
          exact change
  | advanceMigration id target claim =>
      refine conclude_conduct rfl ?_ ?_
      · intro status g equal
        rcases settleAdvanceMigration_eq_ok equal with ⟨_, _, _, same⟩ | ⟨_, _, same, _⟩ <;>
          cases same
      · intro value g equal
        rcases settleAdvanceMigration_eq_ok equal with ⟨_, _, _, same⟩ | ⟨_, _, same, change⟩
        · cases same
        · cases same
          exact change
  | abortMigration id reason claim =>
      exact conclude_conduct_of_changed rfl fun s => settleAbortMigration_eq_ok
  | invalidateStaleDecisions =>
      rw [execute, invalidateStaleDecisions]
      split
      · exact .kept _
      · rcases written : f.swept.persistLocked env false with ⟨⟨status⟩ | ⟨⟩, h⟩
        · exact .faulted _ .swept written
        · exact .published _ .swept written
  | persist =>
      rw [execute, persist]
      rcases written : f.persistLocked env true with ⟨⟨status⟩ | ⟨⟩, h⟩
      · exact .faulted _ .persisted written
      · exact .published _ .persisted written
  | shutdown =>
      rw [execute, shutdown]
      split
      · exact .kept _
      · rename_i running
        have change : Change f env .shutdown { f with isShutdown := true } :=
          .shutdown (by simpa using running)
        rw [publish]
        rcases written : ({ f with isShutdown := true } : Federation).persistLocked env false with
          ⟨⟨status⟩ | ⟨⟩, h⟩
        · exact .faulted _ change written
        · exact .published _ change written

end Federation

end Haf
