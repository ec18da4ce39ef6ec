/-
# Claims of authority

A mutation carries a claim of what its caller believes to be current. Each operation
compares parts of the claim with the state and ignores the rest: the policy generation
is compared by three operations only, the owner of a member by two, and the revision of
a workload by none. A stale assertion is refused exactly where it is compared.
-/

import Haf.Properties.Refusal

namespace Haf

open Federation Sequence

/-! ### Stale assertions -/

namespace AuthorityClaim

variable (claim : AuthorityClaim)

/-- An epoch or a federation generation is asserted that is not the current one. -/
def staleTerm (f : Federation) : Bool :=
  claim.checkEpoch && claim.epoch ≠ f.epoch ||
    claim.checkFederationGeneration && claim.federationGeneration ≠ f.generation

def stalePolicy (f : Federation) : Bool :=
  claim.checkPolicyGeneration && claim.policyGeneration ≠ f.policy.generation

def staleBoot (record : MemberRecord) : Bool :=
  claim.checkAgentBoot && claim.agentBoot ≠ record.agentBoot

/-- An agent or a generation is asserted that is not the one of a member. -/
def staleOwner (record : MemberRecord) : Bool :=
  claim.checkAgent && claim.agent ≠ record.agent ||
    claim.checkDeviceGeneration && claim.deviceGeneration ≠ record.deviceGeneration ||
    claim.checkCapabilityGeneration && claim.capabilityGeneration ≠ record.capabilityGeneration

def staleRevision (profile : WorkloadProfile) : Bool :=
  claim.checkWorkloadRevision && claim.workloadRevision ≠ profile.revision

end AuthorityClaim

namespace Command

/-- The claim of a mutation. -/
def claim? : Command → Option AuthorityClaim
  | .observe _ claim | .transition _ _ claim | .updateCapabilities _ _ _ claim
  | .setPolicy _ claim | .registerWorkload _ claim | .planMigration _ _ _ claim
  | .advanceMigration _ _ claim | .abortMigration _ _ claim => some claim
  | .evaluate _ _ _ | .invalidateStaleDecisions | .persist | .shutdown => none

/-- The accelerators a mutation names, directly or through a plan. -/
def named (f : Federation) : Command → List AcceleratorId
  | .observe d _ => [d.id]
  | .transition a _ _ | .updateCapabilities a _ _ _ => [a]
  | .planMigration _ a b _ => [a, b]
  | .advanceMigration planId _ _ | .abortMigration planId _ _ =>
      (f.plans.get? planId).toList.flatMap fun plan => [plan.source, plan.destination]
  | _ => []

/-- The workloads a mutation concerns. -/
def concerned (f : Federation) : Command → List WorkloadClassId
  | .registerWorkload w _ => [(registeredProfile w).classId]
  | .planMigration w _ _ _ => [w]
  | .advanceMigration planId _ _ | .abortMigration planId _ _ =>
      (f.plans.get? planId).toList.map (·.workload)
  | _ => []

def comparesPolicy : Command → Bool
  | .transition _ _ _ | .updateCapabilities _ _ _ _ | .advanceMigration _ _ _ => true
  | _ => false

def comparesBoot : Command → Bool
  | .observe _ _ | .transition _ _ _ | .updateCapabilities _ _ _ _ => true
  | _ => false

def comparesOwner : Command → Bool
  | .transition _ _ _ | .updateCapabilities _ _ _ _ => true
  | _ => false

end Command

/-- A mutation whose claim asserts something that is not current. -/
def StaleClaim (f : Federation) (c : Command) : Prop :=
  ∃ claim, c.claim? = some claim ∧ (claim.staleTerm f = true ∨ claim.stalePolicy f = true ∨
    (∃ a ∈ c.named f, ∃ entry, f.members.get? a = some entry ∧
      (claim.staleBoot entry.record = true ∨ claim.staleOwner entry.record = true)) ∨
    ∃ w ∈ c.concerned f, ∃ profile, f.workloads.get? w = some profile ∧
      claim.staleRevision profile = true)

/-- A mutation whose claim asserts something that is not current and is not compared with
anything. -/
def Overlooks (f : Federation) (c : Command) : Prop :=
  ∃ claim, c.claim? = some claim ∧ (c.comparesPolicy = false ∧ claim.stalePolicy f = true ∨
    (∃ a ∈ c.named f, ∃ entry, f.members.get? a = some entry ∧
      (c.comparesBoot = false ∧ claim.staleBoot entry.record = true ∨
        c.comparesOwner = false ∧ claim.staleOwner entry.record = true)) ∨
    ∃ w ∈ c.concerned f, ∃ profile, f.workloads.get? w = some profile ∧
      claim.staleRevision profile = true)

variable {c : Command} {f : Federation} {a : AcceleratorId} {α : Type}

theorem Overlooks.staleClaim (overlooks : Overlooks f c) :
    StaleClaim f c := by
  obtain ⟨claim, given, ⟨_, policy⟩ | ⟨a, listed, entry, found, stale⟩ | revision⟩ := overlooks
  · exact ⟨claim, given, .inr (.inl policy)⟩
  · exact ⟨claim, given, .inr (.inr (.inl ⟨a, listed, entry, found, stale.imp And.right And.right⟩))⟩
  · exact ⟨claim, given, .inr (.inr (.inr revision))⟩

/-! ### The checks of an operation -/

theorem validateAuthority_eq_ok {claim : AuthorityClaim} :
    f.validateAuthority claim = .ok () ↔ f.isShutdown = false ∧ claim.staleTerm f = false := by
  simp only [validateAuthority, bind_eq_ok, ensure_eq_ok, AuthorityClaim.staleTerm,
    Bool.not_eq_true', Bool.or_eq_false_iff]
  constructor
  · rintro ⟨_, running, _, generation, epoch⟩
    exact ⟨running, epoch, generation⟩
  · rintro ⟨running, epoch, generation⟩
    exact ⟨(), running, (), generation, epoch⟩

theorem validateMemberAuthority_eq_ok {claim : AuthorityClaim}
    {record : MemberRecord} :
    f.validateMemberAuthority claim record a = .ok () ↔ f.validateAuthority claim = .ok () ∧
      claim.staleBoot record = false ∧ claim.staleOwner record = false ∧
      claim.stalePolicy f = false := by
  simp only [validateMemberAuthority, bind_eq_ok, ensure_eq_ok, AuthorityClaim.staleBoot,
    AuthorityClaim.staleOwner, AuthorityClaim.stalePolicy, Bool.not_eq_true',
    Bool.or_eq_false_iff]
  constructor
  · rintro ⟨_, authority, _, agent, _, boot, _, device, _, capability, policy⟩
    exact ⟨authority, boot, ⟨⟨agent, device⟩, capability⟩, policy⟩
  · rintro ⟨authority, boot, ⟨⟨agent, device⟩, capability⟩, policy⟩
    exact ⟨(), authority, (), agent, (), boot, (), device, (), capability, policy⟩

/-- The checks a mutation makes before it changes anything. -/
def Passes (f : Federation) : Command → Prop
  | .observe d claim => f.validateAuthority claim = .ok () ∧ d.validate = .ok () ∧
      deriveAcceleratorId d.physicalDevice d.agent d.agentBoot d.generation = d.id ∧
      (claim.checkAgentBoot = true → claim.agentBoot = d.agentBoot) ∧
      f.competingBoot d = none ∧ ∀ entry, f.members.get? d.id = some entry →
        entry.record.state.isTerminal = false ∧ entry.record.state ≠ .fenced ∧
          entry.record.agentBoot = d.agentBoot
  | .transition a target claim => ∃ entry, f.members.get? a = some entry ∧
      f.validateMemberAuthority claim entry.record a = .ok () ∧
      (entry.record.state = target ∨ entry.record.state.isLegalTransition target = true)
  | .updateCapabilities a capabilities evidence claim => ∃ entry,
      f.members.get? a = some entry ∧ f.validateMemberAuthority claim entry.record a = .ok () ∧
      entry.record.state ≠ .fenced ∧ entry.record.state.isTerminal = false ∧
      capabilities.validate = .ok () ∧ evidence.validate = .ok () ∧ evidence.subject = a ∧
      evidence.provenance = entry.record.provenance ∧
      evidence.payloadDigest = capabilities.digest
  | .setPolicy p claim => f.validateAuthority claim = .ok () ∧
      p.refreshIdentity.validate f.registry = .ok ()
  | .registerWorkload w claim => f.validateAuthority claim = .ok () ∧
      (registeredProfile w).validate f.registry = .ok ()
  | .planMigration w a b claim => f.validateAuthority claim = .ok () ∧ Evaluates f w a ∧
      Evaluates f w b ∧ (a = b → f.generation.value ≠ Generation.maxValue)
  | .advanceMigration planId target claim => f.validateAuthority claim = .ok () ∧
      claim.stalePolicy f = false ∧ ∃ plan source destination, f.plans.get? planId = some plan ∧
      plan.isCurrent f.epoch f.policy.generation plan.sourceGeneration
        plan.destinationGeneration plan.sourceCapabilityGeneration
        plan.destinationCapabilityGeneration plan.workloadRevision = true ∧
      f.members.get? plan.source = some source ∧
      f.members.get? plan.destination = some destination ∧
      endpointsCurrent plan source.record destination.record = true ∧
      (plan.state = target ∨ plan.state.isLegalTransition target = true)
  | .abortMigration planId _ claim => f.validateAuthority claim = .ok () ∧
      ∃ plan, f.plans.get? planId = some plan ∧ plan.state.isTerminal = false
  | .evaluate _ _ _ | .invalidateStaleDecisions | .persist | .shutdown => True

theorem settleObserve_ok_iff {d : AcceleratorDescriptor}
    {claim : AuthorityClaim} (env : Environment) :
    (∃ s, f.settleObserve d claim env = .ok s) ↔ Passes f (.observe d claim) := by
  simp only [settleObserve, bind_eq_ok, ensure_eq_ok, Passes]
  constructor
  · rintro ⟨s, _, authority, _, valid, _, derived, _, boot, settled⟩
    split at settled
    · cases settled
    · rename_i alone
      refine ⟨authority, valid, of_decide_eq_true derived, ?_, alone, ?_⟩
      · intro checked
        by_contra other
        simp [checked, Ne.symm other] at boot
      · intro entry found
        split at settled
        · rename_i absent
          rw [absent] at found
          cases found
        · rename_i entry' found'
          rw [found'] at found
          cases found
          simp only [bind_eq_ok, ensure_eq_ok] at settled
          obtain ⟨_, open_, _, unfenced, _, same, _⟩ := settled
          exact ⟨by simpa using open_, by simpa using unfenced, by simpa using same⟩
  · rintro ⟨authority, valid, derived, boot, alone, known⟩
    have matched : (!(d.agentBoot ≠ claim.agentBoot && claim.checkAgentBoot)) = true := by
      cases checked : claim.checkAgentBoot with
      | false => simp
      | true => simp [boot checked]
    simp only [authority, valid, derived, matched, alone, decide_true, true_and, exists_const]
    split
    · exact ⟨_, rfl⟩
    · rename_i entry found
      obtain ⟨open_, unfenced, same⟩ := known entry found
      simp [ensure, open_, unfenced, same, bind, Except.bind]

theorem passes_of_settleTransition {env : Environment}
    {target : MemberState} {claim : AuthorityClaim} {s : Settled MemberRecord}
    (settled : f.settleTransition a target claim env = .ok s) :
    Passes f (.transition a target claim) := by
  simp only [settleTransition, bind_eq_ok, memberEntry_eq_ok] at settled
  obtain ⟨_, _, entry, found, _, authority, settled⟩ := settled
  refine ⟨entry, found, authority, ?_⟩
  by_cases same : entry.record.state = target
  · exact .inl same
  · simp only [if_neg same, bind_eq_ok, ensure_eq_ok] at settled
    obtain ⟨_, legal, _⟩ := settled
    exact .inr legal

theorem passes_of_settleUpdateCapabilities {env : Environment}
    {capabilities : CapabilitySet} {evidence : EvidenceRecord}
    {claim : AuthorityClaim} {s : Settled MemberRecord}
    (settled : f.settleUpdateCapabilities a capabilities evidence claim env = .ok s) :
    Passes f (.updateCapabilities a capabilities evidence claim) := by
  obtain ⟨_, _, _, change⟩ := settleUpdateCapabilities_eq_ok settled
  cases change with
  | updated found authority unfenced open_ valid witnessed subject provenance digest =>
      exact ⟨_, found, authority, unfenced, open_, valid, witnessed, subject, provenance, digest⟩

theorem settleSetPolicy_ok_iff {p : FederationPolicy} {claim : AuthorityClaim} :
    (∃ s, f.settleSetPolicy p claim = .ok s) ↔ Passes f (.setPolicy p claim) := by
  simp only [settleSetPolicy, bind_eq_ok, Passes]
  constructor
  · rintro ⟨_, _, authority, _, valid, _⟩
    exact ⟨authority, valid⟩
  · rintro ⟨authority, valid⟩
    exact ⟨_, (), authority, (), valid, rfl⟩

theorem settleRegisterWorkload_ok_iff {w : WorkloadProfile}
    {claim : AuthorityClaim} :
    (∃ s, f.settleRegisterWorkload w claim = .ok s) ↔ Passes f (.registerWorkload w claim) := by
  simp only [settleRegisterWorkload, bind_eq_ok, Passes]
  constructor
  · rintro ⟨_, _, authority, _, valid, _⟩
    exact ⟨authority, valid⟩
  · rintro ⟨authority, valid⟩
    exact ⟨_, (), authority, (), valid, rfl⟩

theorem settleAdvanceMigration_ok_iff {planId : MigrationPlanId}
    {target : MigrationState} {claim : AuthorityClaim} (env : Environment) :
    (∃ s, f.settleAdvanceMigration planId target claim env = .ok s) ↔
      Passes f (.advanceMigration planId target claim) := by
  simp only [settleAdvanceMigration, bind_eq_ok, storedPlan_eq_ok, ensure_eq_ok, Passes,
    Bool.not_eq_true']
  constructor
  · rintro ⟨s, _, authority, plan, stored, _, policy, _, current, settled⟩
    split at settled
    · rename_i source destination found
      obtain ⟨origin, goal⟩ := Prod.mk.inj found
      simp only [bind_eq_ok, ensure_eq_ok] at settled
      obtain ⟨_, endpoints, settled⟩ := settled
      refine ⟨authority, policy, plan, source, destination, stored, current, origin, goal,
        endpoints, ?_⟩
      by_cases same : plan.state = target
      · exact .inl same
      · simp only [if_neg same, bind_eq_ok, ensure_eq_ok] at settled
        obtain ⟨_, legal, _⟩ := settled
        exact .inr legal
    · cases settled
  · rintro ⟨authority, policy, plan, source, destination, stored, current, origin, goal,
      endpoints, legal⟩
    by_cases same : plan.state = target
    · refine ⟨.unchanged plan, (), authority, plan, stored, (), policy, (), current, ?_⟩
      rw [origin, goal]
      exact bind_eq_ok.mpr ⟨(), ensure_eq_ok.mpr endpoints, if_pos same⟩
    · refine ⟨.changed { plan with state := target } (f.advanced plan source target
        (env.wall .member)), (), authority, plan, stored, (), policy, (), current, ?_⟩
      rw [origin, goal]
      refine bind_eq_ok.mpr ⟨(), ensure_eq_ok.mpr endpoints, (if_neg same).trans ?_⟩
      exact bind_eq_ok.mpr ⟨(), ensure_eq_ok.mpr (legal.resolve_left same), rfl⟩

theorem settleAbortMigration_ok_iff {planId : MigrationPlanId} {reason : Bytes}
    {claim : AuthorityClaim} :
    (∃ s, f.settleAbortMigration planId reason claim = .ok s) ↔
      Passes f (.abortMigration planId reason claim) := by
  simp only [settleAbortMigration, bind_eq_ok, storedPlan_eq_ok, ensure_eq_ok, Passes,
    Bool.not_eq_true']
  constructor
  · rintro ⟨_, _, authority, plan, stored, _, open_, _⟩
    exact ⟨authority, plan, stored, open_⟩
  · rintro ⟨authority, plan, stored, open_⟩
    exact ⟨_, (), authority, plan, stored, (), open_, rfl⟩

/-! ### Refused and accepted -/

/-- Every change by a mutation moves the generation on. -/
theorem Change.generation_of_claim {g : Federation} {env : Environment}
    (change : Change f env c g) (claimed : c.claim?.isSome = true) :
    g.generation = f.generation.next := by
  cases change with
  | enrolled | observedAgain | moved | updated | policy | workload | planned | advanced
  | aborted => rfl
  | evaluated | swept | persisted | shutdown => cases claimed

/-- The call is refused and has left nothing behind. -/
def Refused (f : Federation) (o : Outcome Reply) : Prop :=
  (∃ status, o.result = .error status) ∧ SameContent f o.state

theorem refused_of_unsettled {env : Environment}
    {settled : Result (Settled α)} {reply : α → Reply} (unsettled : ¬ ∃ s, settled = .ok s) :
    Refused f ((f.conclude env settled).map reply) := by
  cases settled with
  | error status => exact ⟨⟨status, rfl⟩, .refl f⟩
  | ok s => exact absurd ⟨s, rfl⟩ unsettled

/-- A mutation that settled is not refused: it moves the generation or returns its value. -/
theorem not_refused_of_settled {env : Environment}
    {settled : Result (Settled α)} {reply : α → Reply} {s : Settled α} (ready : settled = .ok s)
    (refused : ∀ status g, s = .refused status g → g.generation ≠ f.generation)
    (changed : ∀ value g, s = .changed value g → g.generation = f.generation.next)
    (visible : f.generation.value ≠ Generation.maxValue ∨
      ((f.conclude env settled).map reply).fault = none) :
    ¬ Refused f ((f.conclude env settled).map reply) := by
  rintro ⟨⟨status, failed⟩, same⟩
  subst ready
  cases s with
  | refused status g => exact refused status g rfl same.generation
  | unchanged value => cases failed
  | changed value g =>
      have moved := changed value g rfl
      rw [conclude, publish] at failed same visible
      rcases written : g.persistLocked env false with ⟨⟨status⟩ | ⟨⟩, h⟩
      · rw [written] at same visible
        have left : h.generation = g.generation := by
          rcases persistLocked_cases written with rfl | ⟨_, rfl⟩
          · rfl
          · rfl
        rcases visible with below | accepted
        · exact Generation.next_ne_self below
            (moved.symm.trans (left.symm.trans same.generation))
        · cases accepted
      · rw [written] at failed
        cases failed

/-- The same for a mutation that settled on a change. -/
theorem not_refused_of_change {env : Environment}
    {settled : Result (Settled α)} {reply : α → Reply} {s : Settled α} (ready : settled = .ok s)
    (changes : ∃ value g, s = .changed value g ∧ Change f env c g)
    (claimed : c.claim?.isSome = true)
    (visible : f.generation.value ≠ Generation.maxValue ∨
      ((f.conclude env settled).map reply).fault = none) :
    ¬ Refused f ((f.conclude env settled).map reply) := by
  obtain ⟨value, g, rfl, change⟩ := changes
  apply not_refused_of_settled ready _ _ visible
  · rintro _ _ ⟨⟩
  · rintro _ _ ⟨⟩
    exact change.generation_of_claim claimed

/-- A mutation that fails one of its checks is refused. -/
theorem refused_of_not_passes (claimed : c.claim?.isSome = true)
    (fails : ¬ Passes f c) (env : Environment) : Refused f (f.execute c env) := by
  cases c with
  | observe d claim =>
      exact refused_of_unsettled fun ready => fails ((settleObserve_ok_iff env).mp ready)
  | transition a target claim =>
      exact refused_of_unsettled fun ⟨_, ready⟩ => fails (passes_of_settleTransition ready)
  | updateCapabilities a capabilities evidence claim =>
      exact refused_of_unsettled fun ⟨_, ready⟩ => fails (passes_of_settleUpdateCapabilities ready)
  | setPolicy p claim =>
      exact refused_of_unsettled fun ready => fails (settleSetPolicy_ok_iff.mp ready)
  | registerWorkload w claim =>
      exact refused_of_unsettled fun ready => fails (settleRegisterWorkload_ok_iff.mp ready)
  | planMigration w a b claim =>
      by_cases ready : ∃ s, f.settlePlanMigration w a b claim env = .ok s
      · obtain ⟨authority, start, finish⟩ := (settlePlanMigration_ok_iff env).mp ready
        -- what is left is a move to itself at the last generation, where nothing can move
        have stuck : a = b ∧ f.generation.value = Generation.maxValue := by
          by_contra other
          refine fails ⟨authority, start, finish, ?_⟩
          intro same top
          exact other ⟨same, top⟩
        obtain ⟨rfl, top⟩ := stuck
        obtain ⟨status, settled⟩ := settlePlanMigration_self env authority start
        rw [execute, Federation.planMigration, settled, conclude, bumped_of_max top]
        exact ⟨⟨status, rfl⟩, .refl f⟩
      · exact refused_of_unsettled ready
  | advanceMigration planId target claim =>
      exact refused_of_unsettled fun ready => fails ((settleAdvanceMigration_ok_iff env).mp ready)
  | abortMigration planId reason claim =>
      exact refused_of_unsettled fun ready => fails (settleAbortMigration_ok_iff.mp ready)
  | evaluate | invalidateStaleDecisions | persist | shutdown => cases claimed

/-- A mutation that compares less than its claim asserts is not refused once it passes its
checks. -/
theorem not_refused_of_passes (claimed : c.claim?.isSome = true)
    (loose : c.comparesOwner = false) (passes : Passes f c) {env : Environment}
    (visible : f.generation.value ≠ Generation.maxValue ∨ (f.execute c env).fault = none) :
    ¬ Refused f (f.execute c env) := by
  cases c with
  | observe d claim =>
      obtain ⟨s, ready⟩ := (settleObserve_ok_iff env).mpr passes
      exact not_refused_of_change ready (settleObserve_eq_ok ready) claimed visible
  | setPolicy p claim =>
      obtain ⟨s, ready⟩ := settleSetPolicy_ok_iff.mpr passes
      exact not_refused_of_change ready (settleSetPolicy_eq_ok ready) claimed visible
  | registerWorkload w claim =>
      obtain ⟨s, ready⟩ := settleRegisterWorkload_ok_iff.mpr passes
      exact not_refused_of_change ready (settleRegisterWorkload_eq_ok ready) claimed visible
  | planMigration w a b claim =>
      obtain ⟨authority, start, finish, below⟩ := passes
      obtain ⟨s, ready⟩ := (settlePlanMigration_ok_iff env).mpr ⟨authority, start, finish⟩
      apply not_refused_of_settled ready _ _ visible
      · intro status g same
        rcases settlePlanMigration_eq_ok ready with ⟨_, moved, bump⟩ | ⟨_, _, changed, _⟩
        · rw [same] at moved
          cases moved
          exact Generation.next_ne_self (below bump.self.1)
        · rw [same] at changed
          cases changed
      · intro plan g same
        rcases settlePlanMigration_eq_ok ready with ⟨_, moved, _⟩ | ⟨_, _, changed, change⟩
        · rw [same] at moved
          cases moved
        · rw [same] at changed
          cases changed
          exact change.generation_of_claim rfl
  | advanceMigration planId target claim =>
      obtain ⟨s, ready⟩ := (settleAdvanceMigration_ok_iff env).mpr passes
      apply not_refused_of_settled ready _ _ visible
      · intro status g same
        rcases settleAdvanceMigration_eq_ok ready with ⟨_, _, _, kept⟩ | ⟨_, _, changed, _⟩
        · rw [same] at kept
          cases kept
        · rw [same] at changed
          cases changed
      · intro plan g same
        rcases settleAdvanceMigration_eq_ok ready with ⟨_, _, _, kept⟩ | ⟨_, _, changed, change⟩
        · rw [same] at kept
          cases kept
        · rw [same] at changed
          cases changed
          exact change.generation_of_claim rfl
  | abortMigration planId reason claim =>
      obtain ⟨s, ready⟩ := settleAbortMigration_ok_iff.mpr passes
      exact not_refused_of_change ready (settleAbortMigration_eq_ok ready) claimed visible
  | transition | updateCapabilities => cases loose
  | evaluate | invalidateStaleDecisions | persist | shutdown => cases claimed

/-! ### Stale claims -/

theorem validateAuthority_of_passes {claim : AuthorityClaim}
    (given : c.claim? = some claim) (passes : Passes f c) : f.validateAuthority claim = .ok () := by
  cases c with
  | transition a target claim' =>
      cases given
      obtain ⟨_, _, authority, _⟩ := passes
      exact (validateMemberAuthority_eq_ok.mp authority).1
  | updateCapabilities a capabilities evidence claim' =>
      cases given
      obtain ⟨_, _, authority, _⟩ := passes
      exact (validateMemberAuthority_eq_ok.mp authority).1
  | observe | setPolicy | registerWorkload | planMigration | advanceMigration
  | abortMigration =>
      cases given
      exact passes.1
  | evaluate | invalidateStaleDecisions | persist | shutdown => cases given

/-- Where the policy generation is compared, it is the current one. -/
theorem stalePolicy_of_passes {claim : AuthorityClaim}
    (given : c.claim? = some claim) (passes : Passes f c) (compares : c.comparesPolicy = true) :
    claim.stalePolicy f = false := by
  cases c with
  | transition a target claim' =>
      cases given
      obtain ⟨_, _, authority, _⟩ := passes
      exact (validateMemberAuthority_eq_ok.mp authority).2.2.2
  | updateCapabilities a capabilities evidence claim' =>
      cases given
      obtain ⟨_, _, authority, _⟩ := passes
      exact (validateMemberAuthority_eq_ok.mp authority).2.2.2
  | advanceMigration planId target claim' =>
      cases given
      exact passes.2.1
  | observe | setPolicy | registerWorkload | planMigration | abortMigration | evaluate
  | invalidateStaleDecisions | persist | shutdown => cases compares

/-- Where the owner of a member is compared, nothing about it is stale. -/
theorem staleOwner_of_passes {claim : AuthorityClaim}
    {entry : MemberEntry} (given : c.claim? = some claim)
    (passes : Passes f c) (compares : c.comparesOwner = true) (listed : a ∈ c.named f)
    (found : f.members.get? a = some entry) :
    claim.staleBoot entry.record = false ∧ claim.staleOwner entry.record = false := by
  cases c with
  | transition b target claim' =>
      cases given
      cases List.mem_singleton.mp listed
      obtain ⟨entry', found', authority, _⟩ := passes
      rw [found] at found'
      cases found'
      obtain ⟨_, boot, owner, _⟩ := validateMemberAuthority_eq_ok.mp authority
      exact ⟨boot, owner⟩
  | updateCapabilities b capabilities evidence claim' =>
      cases given
      cases List.mem_singleton.mp listed
      obtain ⟨entry', found', authority, _⟩ := passes
      rw [found] at found'
      cases found'
      obtain ⟨_, boot, owner, _⟩ := validateMemberAuthority_eq_ok.mp authority
      exact ⟨boot, owner⟩
  | observe | setPolicy | registerWorkload | planMigration | advanceMigration | abortMigration
  | evaluate | invalidateStaleDecisions | persist | shutdown => cases compares

/-- An advertisement carries the boot of its member, so that it is compared with the claim. -/
theorem staleBoot_of_passes {claim : AuthorityClaim}
    {entry : MemberEntry} (given : c.claim? = some claim)
    (passes : Passes f c) (compares : c.comparesBoot = true) (listed : a ∈ c.named f)
    (found : f.members.get? a = some entry) : claim.staleBoot entry.record = false := by
  cases c with
  | observe d claim' =>
      cases given
      cases List.mem_singleton.mp listed
      obtain ⟨_, _, _, boot, _, known⟩ := passes
      obtain ⟨_, _, same⟩ := known entry found
      rw [AuthorityClaim.staleBoot, same]
      cases checked : claim.checkAgentBoot with
      | false => rfl
      | true => simp [boot checked]
  | transition b target claim' => exact (staleOwner_of_passes given passes rfl listed found).1
  | updateCapabilities b capabilities evidence claim' =>
      exact (staleOwner_of_passes given passes rfl listed found).1
  | setPolicy | registerWorkload | planMigration | advanceMigration | abortMigration | evaluate
  | invalidateStaleDecisions | persist | shutdown => cases compares

/-- What is stale in the claim of a mutation that passes its checks has been overlooked. -/
theorem overlooks_of_passes (passes : Passes f c)
    (stale : StaleClaim f c) : Overlooks f c := by
  obtain ⟨claim, given, term | policy | ⟨a, listed, entry, found, stale⟩ | revision⟩ := stale
  · have authority := validateAuthority_of_passes given passes
    rw [(validateAuthority_eq_ok.mp authority).2] at term
    cases term
  · refine ⟨claim, given, .inl ⟨?_, policy⟩⟩
    by_contra compares
    rw [stalePolicy_of_passes given passes (by simpa using compares)] at policy
    cases policy
  · refine ⟨claim, given, .inr (.inl ⟨a, listed, entry, found, ?_⟩)⟩
    rcases stale with boot | owner
    · refine .inl ⟨?_, boot⟩
      by_contra compares
      rw [staleBoot_of_passes given passes (by simpa using compares) listed found] at boot
      cases boot
    · refine .inr ⟨?_, owner⟩
      by_contra compares
      rw [(staleOwner_of_passes given passes (by simpa using compares) listed found).2] at owner
      cases owner
  · exact ⟨claim, given, .inr (.inr revision)⟩

/-- The two operations that compare the owner of a member overlook nothing. -/
theorem Overlooks.comparesOwner (overlooks : Overlooks f c) :
    c.comparesOwner = false := by
  obtain ⟨claim, given, ⟨loose, _⟩ | ⟨a, _, _, _, ⟨loose, _⟩ | ⟨loose, _⟩⟩ | ⟨w, listed, _⟩⟩ :=
    overlooks
  · cases c <;> first | rfl | cases loose
  · cases c <;> first | rfl | cases loose
  · exact loose
  · cases c <;> first | rfl | cases listed

/-- A stale claim is refused, and nothing is changed. -/
def StaleRefused (f : Federation) (c : Command) (env : Environment) : Prop :=
  StaleClaim f c → Refused f (f.execute c env)

/-- A stale claim is refused wherever what is stale is compared or another check fails, and
nowhere else: a mutation that passes its checks although its claim is stale is not refused,
unless the store refuses a change that cannot be seen at the last generation. -/
theorem staleRefused_iff (f : Federation) (c : Command) (env : Environment) :
    (¬ (Overlooks f c ∧ Passes f c) → StaleRefused f c env) ∧
      (f.generation.value ≠ Generation.maxValue ∨ (f.execute c env).fault = none →
        StaleRefused f c env → ¬ (Overlooks f c ∧ Passes f c)) := by
  constructor
  · intro caught stale
    have claimed : c.claim?.isSome = true := by
      obtain ⟨claim, given, _⟩ := stale
      rw [given]
      rfl
    apply refused_of_not_passes claimed
    intro passes
    exact caught ⟨overlooks_of_passes passes stale, passes⟩
  · rintro visible refuses ⟨overlooks, passes⟩
    have claimed : c.claim?.isSome = true := by
      obtain ⟨claim, given, _⟩ := overlooks
      rw [given]
      rfl
    exact not_refused_of_passes claimed overlooks.comparesOwner passes visible
      (refuses overlooks.staleClaim)

open Sample in
/-- A workload is registered once more under a claim of a revision it does not have. -/
theorem stale_revision_accepted : ∃ f c, openOn .core config none env = .ok opened ∧
    Reaches anyEvent opened f ∧ ¬ StaleRefused f c env := by
  let stale : AuthorityClaim := { claim with checkWorkloadRevision := true }
  have facts : (registered.workloads.get? (registeredProfile workload).classId).any
      stale.staleRevision = true ∧
      (registered.execute (.registerWorkload workload stale) env).result.isOk = true := by
    decide +kernel
  refine ⟨registered, .registerWorkload workload stale, openOn_eq, reaches_registered, ?_⟩
  intro refuses
  obtain ⟨profile, found, revision⟩ := (Option.any_eq_true ..).mp facts.1
  obtain ⟨⟨status, failed⟩, _⟩ := refuses ⟨stale, rfl, .inr (.inr (.inr
    ⟨_, List.mem_singleton_self _, profile, found, revision⟩))⟩
  have accepted := facts.2
  rw [failed] at accepted
  cases accepted

end Haf
