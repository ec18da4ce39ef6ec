/-
# What a federation can tell a client

The answers to requests carry member records, decisions and plans of the federation and the
refusals of its operations. A federation is presentable if its members can be read by a client
and its checks refuse legibly. An opened federation is, whatever its store held, and every
change keeps it so except one: a migration that is committed adds a line to the trail of its
source without cutting it.
-/

import Haf.Codec.Refusals
import Haf.Federation.Fleet
import Haf.Properties.Decoding
import Haf.Properties.Recoverability

namespace Haf

open Refusal Sequence

/-- Members can be read, the policy refuses legibly and the workloads are valid. -/
structure Federation.Presentable (f : Federation) : Prop where
  policy : Legibly (f.policy.validate f.registry)
  member : ∀ k entry, f.members.get? k = some entry → entry.record.Storable
  workload : ∀ k w, f.workloads.get? k = some w → w.validate f.registry = .ok ()

/-- The command commits a migration. -/
def Command.commits : Command → Bool
  | .advanceMigration _ target _ => target = .committed
  | _ => false

/-! ### Changes -/

section Changes

variable {f g : Federation} {env : Environment} {c : Command}

/-- Members stay readable, unless one of them is drained. -/
theorem MemberStep.storable {before after : Option MemberEntry}
    (step : MemberStep f env c before after) (uncommitted : c.commits = false)
    (earlier : ∀ entry, before = some entry → entry.record.Storable) {entry : MemberEntry}
    (found : after = some entry) : entry.record.Storable := by
  cases step with
  | same => exact earlier entry found
  | joined valid derived =>
      cases found
      exact f.storable_enrolledRecord (AcceleratorDescriptor.validate_eq_ok.mp valid) _
  | superseded now open_ =>
      cases found
      exact MemberEntry.storable_superseded (earlier _ rfl) _ now
  | observedAgain valid same open_ boot here derived =>
      cases found
      exact MemberEntry.storable_observedAgain (earlier _ rfl) f same _
  | moved named legal =>
      cases found
      exact MemberEntry.storable_moved (earlier _ rfl) f _ _
  | updated named open_ valid witnessed subject provenance digest =>
      cases found
      exact MemberEntry.storable_advancedRecord (earlier _ rfl) f _
  | underPolicy =>
      cases found
      exact { earlier _ rfl with }
  | drained stored source working => cases uncommitted

/-- A policy that is put in force is valid. -/
theorem Change.legibly_validate (change : Change f env c g) (presentable : f.Presentable) :
    Legibly (g.policy.validate g.registry) := by
  cases change with
  | policy authority valid => exact .of_ok valid
  | enrolled | observedAgain | moved | updated | workload | evaluated | planned | advanced
  | aborted | swept | persisted | shutdown => exact presentable.policy

/-- A workload that is registered is valid. -/
theorem Change.valid_workload (change : Change f env c g) (presentable : f.Presentable)
    {k : WorkloadClassId} {w : WorkloadProfile} (registered : g.workloads.get? k = some w) :
    w.validate g.registry = .ok () := by
  cases change with
  | workload authority valid =>
      rw [Federation.withWorkload, Keyed.get?_insert] at registered
      split at registered
      · cases registered
        exact valid
      · exact presentable.workload k w registered
  | enrolled | observedAgain | moved | updated | policy | evaluated | planned | advanced
  | aborted | swept | persisted | shutdown => exact presentable.workload k w registered

namespace Federation

theorem Presentable.changed (presentable : f.Presentable) (uncommitted : c.commits = false)
    (change : Change f env c g) : g.Presentable where
  policy := change.legibly_validate presentable
  member := fun k _ found =>
    (change.member k).storable uncommitted (presentable.member k) found
  workload := fun _ _ registered => change.valid_workload presentable registered

/-- A call that commits no migration leaves the federation presentable. -/
theorem Presentable.execute (presentable : f.Presentable) (uncommitted : c.commits = false) :
    (f.execute c env).state.Presentable := by
  apply (f.execute_conduct c env).keeps
  · intro g store holds
    exact { holds with }
  · intro g holds
    exact { holds with }
  · intro g change
    exact presentable.changed uncommitted change
  · exact presentable

end Federation

end Changes

/-! ### Opening -/

namespace Federation

variable {R : Registry} {config : FederationConfig} {disk : Option Bytes} {env : Environment}

theorem presentable_fresh (legible : Legibly (config.policy.validate R)) :
    (constructed R config disk env).fresh.Presentable where
  policy := by
    show Legibly (FederationPolicy.validate R (if config.policy.id.isNil then .permissiveDefault
      else config.policy))
    split
    · exact .of_ok (FederationPolicy.sound_permissiveDefault R).valid
    · exact legible
  member := by
    intro k entry found
    rw [show (constructed R config disk env).fresh.members.get? k = none from Keyed.get?_empty k]
      at found
    cases found
  workload := by
    intro k w found
    rw [show (constructed R config disk env).fresh.workloads.get? k = none from
      Keyed.get?_empty k] at found
    cases found

/-- Whatever was decoded can be told again. -/
theorem presentable_recovered {payload : Bytes} {s : FederationSnapshot}
    (decoded : decodeSnapshot R payload = .ok s) :
    ((constructed R config disk env).recovered s env).Presentable where
  policy := .of_ok (FederationSnapshot.validPolicy_of_decodeSnapshot decoded)
  member := by
    intro k entry found
    rw [recovered, Keyed.get?_ofList] at found
    obtain ⟨stored, listed, restored⟩ := List.mem_filterMap.mp (List.mem_of_find?_eq_some found)
    split at restored
    · cases restored
    · cases restored
      exact storable_restoredEntry
        ((FederationSnapshot.of_decodeSnapshot decoded).1.member stored listed) _ _ _
  workload := by
    intro k w found
    rw [recovered, Keyed.get?_ofList] at found
    exact ((FederationSnapshot.of_decodeSnapshot decoded).1.workload w
      (List.mem_of_find?_eq_some found)).1

theorem presentable_of_open {f : Federation} (legible : Legibly (config.policy.validate R))
    (opened : openOn R config disk env = .ok f) : f.Presentable := by
  obtain ⟨g, written, restored⟩ := openOn_eq_ok opened
  have presentable : g.Presentable := by
    rcases restored with ⟨_, rfl⟩ | ⟨payload, s, _, decoded, _, rfl⟩
    · exact presentable_fresh legible
    · exact presentable_recovered decoded
  rcases persistLocked_cases written with rfl | ⟨_, rfl⟩
  · exact presentable
  · exact { presentable with }

end Federation

/-! ### Refusals -/

theorem legibly_planMigration (request : MigrationRequest) (createdAt : Timestamp) :
    Legibly (planMigration request createdAt) := by
  unfold planMigration
  repeat' split
  all_goals simp +decide

namespace Federation

variable {f : Federation} {env : Environment}

@[simp]
theorem legibly_validateAuthority (f : Federation) (claim : AuthorityClaim) :
    Legibly (f.validateAuthority claim) := by
  simp +decide [validateAuthority]

/-- The checks on one member name its identity, its owner and its generations. -/
@[simp]
theorem legibly_validateMemberAuthority (f : Federation) (claim : AuthorityClaim)
    (record : MemberRecord) (a : AcceleratorId) :
    Legibly (f.validateMemberAuthority claim record a) := by
  simp +decide [validateMemberAuthority]

@[simp]
theorem legibly_memberEntry (f : Federation) (a : AcceleratorId) : Legibly (f.memberEntry a) := by
  rw [memberEntry]
  split <;> simp +decide

theorem legibly_settleObserve (f : Federation) (d : AcceleratorDescriptor)
    (claim : AuthorityClaim) (env : Environment) : Legibly (f.settleObserve d claim env) := by
  simp +decide [settleObserve]
  intros
  split
  · simp +decide
  · split <;> simp +decide

theorem legibly_settleTransition (f : Federation) (a : AcceleratorId) (target : MemberState)
    (claim : AuthorityClaim) (env : Environment) :
    Legibly (f.settleTransition a target claim env) := by
  simp +decide [settleTransition]

/-- The check of a profile quotes its tags, so they have to be short. -/
theorem legibly_settleRegisterWorkload (f : Federation) {w : WorkloadProfile}
    (claim : AuthorityClaim)
    (tags : ∀ tag ∈ w.requiredPolicyTags, tag.length ≤ Limits.maxTokenBytes) :
    Legibly (f.settleRegisterWorkload w claim) := by
  have stored : ∀ tag ∈ (registeredProfile w).requiredPolicyTags,
      tag.length ≤ Limits.maxTokenBytes := tags
  simp [settleRegisterWorkload, WorkloadProfile.legibly_validate f.registry stored]

@[simp]
theorem legibly_registeredWorkload (f : Federation) (workload : WorkloadClassId) :
    Legibly (f.registeredWorkload workload) := by
  rw [registeredWorkload]
  split <;> simp +decide

@[simp]
theorem legibly_sourceEntry (f : Federation) (options : EvaluationOptions) (mustExist : Bool) :
    Legibly (f.sourceEntry options mustExist) := by
  rw [sourceEntry]
  split
  · simp
  · split <;> simp +decide

/-- An evaluation can only fail over the policy, since registered workloads are valid. -/
theorem Presentable.legibly_evaluateLocked (presentable : f.Presentable)
    {workload : WorkloadClassId} {profile : WorkloadProfile}
    (registered : f.registeredWorkload workload = .ok profile) (a : AcceleratorId)
    (options : EvaluationOptions) (mustExist : Bool) (env : Environment) (site : ClockSite) :
    Legibly (f.evaluateLocked profile a options mustExist env site) := by
  have valid : profile.validate f.registry = .ok () := by
    rw [registeredWorkload] at registered
    split at registered
    · rename_i stored found
      cases registered
      exact presentable.workload workload _ found
    · cases registered
  have policy := presentable.policy
  simp +decide [evaluateLocked, evaluateCompatibility, evaluationContext, evaluationTarget, valid,
    policy]

theorem Presentable.legibly_settleEvaluate (presentable : f.Presentable)
    (workload : WorkloadClassId) (a : AcceleratorId) (options : EvaluationOptions)
    (env : Environment) : Legibly (f.settleEvaluate workload a options env) := by
  simp +decide [settleEvaluate]
  intro _ profile registered
  exact presentable.legibly_evaluateLocked registered a options true env .decision

theorem Presentable.legibly_settlePlanMigration (presentable : f.Presentable)
    (workload : WorkloadClassId) (a b : AcceleratorId) (claim : AuthorityClaim)
    (env : Environment) : Legibly (f.settlePlanMigration workload a b claim env) := by
  simp only [settlePlanMigration, Refuses.bind_iff, legibly_validateAuthority,
    legibly_registeredWorkload, true_and]
  intro _ _ profile registered
  repeat' split
  · simp only [Refuses.bind_iff, presentable.legibly_evaluateLocked registered, true_and]
    intros
    split <;> simp
  all_goals simp +decide

/-- What is settled on is what the planner answers, also when it refuses the endpoints after the
generation has moved. -/
theorem planned_of_settlePlanMigration {workload : WorkloadClassId} {a b : AcceleratorId}
    {claim : AuthorityClaim} {s : Settled MigrationPlan}
    (settled : f.settlePlanMigration workload a b claim env = .ok s) :
    ∃ request, (∃ status, Haf.planMigration request (env.wall .plan) = .error status ∧
        s = .refused status f.bumped) ∨
      ∃ plan g, Haf.planMigration request (env.wall .plan) = .ok plan ∧ s = .changed plan g := by
  obtain ⟨_, _, _, _, _, _, _, _, _, _, _, ⟨status, refused, rfl⟩ | ⟨plan, made, rfl⟩⟩ :=
    settlePlanMigration_cases settled
  · exact ⟨_, .inl ⟨status, refused, rfl⟩⟩
  · exact ⟨_, .inr ⟨plan, _, made, rfl⟩⟩

/-! ### Results -/

/-- A failed write reports the fault of the environment or that the payload is too large. -/
theorem legibly_persistLocked (f : Federation) (force : Bool)
    (fault : ∀ status, env.writeFault = some status → status.Legible) :
    Legibly (f.persistLocked env force).1 := by
  rw [persistLocked]
  dsimp only
  unfold Store.write
  repeat' split
  all_goals simp +decide
  exact fault _ ‹_›

/-- What an operation refuses, it refuses legibly, if its checks do and the write does. -/
theorem legibly_conclude {α : Type} {settled : Result (Settled α)} (legible : Legibly settled)
    (refused : ∀ status g, settled = .ok (.refused status g) → status.Legible)
    (fault : ∀ status, env.writeFault = some status → status.Legible) :
    Legibly (f.conclude env settled).result := by
  cases settled with
  | error status => exact Refuses.error_iff.mpr (legible.of_error rfl)
  | ok s =>
      cases s with
      | refused status g => exact Refuses.error_iff.mpr (refused status g rfl)
      | unchanged value => exact .ok value
      | changed value g =>
          have written := g.legibly_persistLocked false fault
          rw [conclude, publish]
          rcases ended : g.persistLocked env false with ⟨⟨status⟩ | ⟨⟩, h⟩
          · rw [ended] at written
            exact Refuses.error_iff.mpr (written.of_error rfl)
          · exact .ok value

section Operations

variable (fault : ∀ status, env.writeFault = some status → status.Legible)
include fault

theorem legibly_observe (f : Federation) (d : AcceleratorDescriptor) (claim : AuthorityClaim) :
    Legibly (f.observe d claim env).result := by
  apply legibly_conclude (f.legibly_settleObserve d claim env) _ fault
  intro status g settled
  obtain ⟨_, _, never, _⟩ := settleObserve_eq_ok settled
  cases never

theorem legibly_transition (f : Federation) (a : AcceleratorId) (target : MemberState)
    (claim : AuthorityClaim) : Legibly (f.transition a target claim env).result := by
  apply legibly_conclude (f.legibly_settleTransition a target claim env) _ fault
  intro status g settled
  rcases settleTransition_eq_ok settled with ⟨_, _, _, never⟩ | ⟨_, _, never, _⟩
  · cases never
  · cases never

theorem legibly_registerWorkload (f : Federation) {w : WorkloadProfile} (claim : AuthorityClaim)
    (tags : ∀ tag ∈ w.requiredPolicyTags, tag.length ≤ Limits.maxTokenBytes) :
    Legibly (f.registerWorkload w claim env).result := by
  apply legibly_conclude (f.legibly_settleRegisterWorkload claim tags) _ fault
  intro status g settled
  have accepted : ∃ revision g', .refused status g = Settled.changed revision g' ∧
      Change f env (.registerWorkload w claim) g' := settleRegisterWorkload_eq_ok settled
  obtain ⟨_, _, never, _⟩ := accepted
  cases never

theorem Presentable.legibly_evaluate (presentable : f.Presentable) (workload : WorkloadClassId)
    (a : AcceleratorId) (options : EvaluationOptions) :
    Legibly (f.evaluate workload a options env).result := by
  apply legibly_conclude (presentable.legibly_settleEvaluate workload a options env) _ fault
  intro status g settled
  obtain ⟨_, _, never, _⟩ := settleEvaluate_eq_ok settled
  cases never

theorem Presentable.legibly_planMigration (presentable : f.Presentable)
    (workload : WorkloadClassId) (a b : AcceleratorId) (claim : AuthorityClaim) :
    Legibly (f.planMigration workload a b claim env).result := by
  apply legibly_conclude (presentable.legibly_settlePlanMigration workload a b claim env) _ fault
  intro status g settled
  obtain ⟨request, ⟨_, refused, same⟩ | ⟨_, _, _, never⟩⟩ := planned_of_settlePlanMigration settled
  · cases same
    exact (Haf.legibly_planMigration request _).of_error refused
  · cases never

end Operations

/-- A decision can be read from a message if what its reasons quote is short; there are never
too many reasons. -/
theorem storable_iff_of_evaluate {workload : WorkloadClassId} {a : AcceleratorId}
    {options : EvaluationOptions} {d : CompatibilityDecision}
    (evaluated : (f.evaluate workload a options env).result = .ok d) :
    (d.Storable ↔ ∀ r ∈ d.reasons, r.Storable) ∧
      d.reasons.length ≤ CompatibilityDecision.reasonLimit false := by
  obtain ⟨profile, _, decided⟩ := evaluate_eq_ok evaluated
  obtain ⟨entry, source, _, made⟩ := exists_of_evaluateLocked decided
  obtain ⟨valid, policy, set, _, _, _, sound, rfl⟩ := evaluateCompatibility_eq_ok.mp made
  have few : (evaluationFindings profile (f.evaluationContext profile entry source
      (env.monotonic .decision)) policy set).length ≤ CompatibilityDecision.reasonLimit false :=
    length_evaluationFindings _ valid (FederationPolicy.bounded_of_validate sound)
  have reasons : (assessed profile (f.evaluationContext profile entry source
      (env.monotonic .decision)) policy set (env.wall .decision)).reasons.length ≤
      CompatibilityDecision.reasonLimit false := by
    simpa only [assessed, sortReasons, length_sortOn, List.length_map] using few
  refine ⟨⟨fun storable => storable.reason, fun fit => ?_⟩, reasons⟩
  exact CompatibilityDecision.storable_refreshIdentity (reasons.trans (by decide)) fit

theorem storable_of_planMigration {workload : WorkloadClassId} {a b : AcceleratorId}
    {claim : AuthorityClaim} {plan : MigrationPlan}
    (planned : (f.planMigration workload a b claim env).result = .ok plan) : plan.Storable := by
  rcases settledOn_of_conclude planned with settled | ⟨g, settled⟩
  all_goals
    obtain ⟨request, ⟨_, _, same⟩ | ⟨_, _, made, same⟩⟩ := planned_of_settlePlanMigration settled
    all_goals cases same
  exact (sound_planMigration made).storable

end Federation

end Haf
