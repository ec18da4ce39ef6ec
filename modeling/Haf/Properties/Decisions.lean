/-
# Current decisions can be made again

An evaluation reads the members, the policy and the workloads, a freshness flag and
nothing else. Whatever changes one of the three moves the generation on, and a
restart moves the epoch on. A decision that is bound to the current generation and
epoch was therefore made from what is stored now.
-/

import Haf.Federation.Fleet
import Haf.Properties.Bindings
import Haf.Properties.Epochs

namespace Haf

open Federation Sequence

/-- The same instance, at most further on; at the same generation it evaluates alike. -/
structure SameTenure (f g : Federation) : Prop where
  epoch : g.epoch = f.epoch
  registry : g.registry = f.registry
  id : g.id = f.id
  generation : f.generation.value ≤ g.generation.value
  unmoved : g.generation = f.generation → g.generation.value ≠ Generation.maxValue →
    g.members = f.members ∧ g.policy = f.policy ∧ g.workloads = f.workloads

/-- What lies between a state and a later one: a restart, or nothing but calls. -/
inductive Since (f g : Federation) : Prop
  | saturated (top : g.epoch.value = Generation.maxValue)
  | restarted (later : f.epoch.value < g.epoch.value)
  | tenure (same : SameTenure f g)

/-! ### Between two states -/

theorem SameTenure.refl (f : Federation) : SameTenure f f :=
  ⟨rfl, rfl, rfl, UInt64.le_refl _, fun _ _ => ⟨rfl, rfl, rfl⟩⟩

/-- Once the generation has moved past another one, it never comes back. -/
theorem Generation.ne_of_next {tag : GenerationTag} {a b : Generation tag}
    (below : a.value ≤ b.value) (unsaturated : b.next.value ≠ Generation.maxValue) :
    b.next ≠ a := by
  intro same
  have open_ : b.value ≠ Generation.maxValue := by
    intro top
    rw [Generation.next_of_max top] at unsaturated
    exact unsaturated top
  have grown := Generation.value_lt_next open_
  rw [same] at grown
  exact absurd grown (UInt64.not_lt.mpr below)

variable {f g : Federation}

theorem SameTenure.of_change {h : Federation} {env : Environment} {c : Command}
    (same : SameTenure f g) (change : Change g env c h) : SameTenure f h := by
  have frame := change.frame
  refine ⟨frame.epoch.trans same.epoch, frame.registry.trans same.registry,
    frame.id.trans same.id, UInt64.le_trans same.generation change.generation_le, ?_⟩
  intro equal unsaturated
  rcases change.generation_cases with moved | ⟨kept, members, policy, workloads⟩
  · rw [moved] at equal unsaturated
    exact absurd equal (Generation.ne_of_next same.generation unsaturated)
  · rw [kept] at equal unsaturated
    rw [members, policy, workloads]
    exact same.unmoved equal unsaturated

theorem SameTenure.bumped (same : SameTenure f g) : SameTenure f g.bumped := by
  refine ⟨same.epoch, same.registry, same.id,
    UInt64.le_trans same.generation g.generation.value_le_next, ?_⟩
  intro equal unsaturated
  exact absurd equal (Generation.ne_of_next same.generation unsaturated)

theorem SameTenure.of_call (same : SameTenure f g) (c : Command)
    (env : Environment) : SameTenure f (g.execute c env).state := by
  apply (g.execute_conduct c env).keeps _ _ _ same
  · intro h store kept
    exact ⟨kept.epoch, kept.registry, kept.id, kept.generation, kept.unmoved⟩
  · intro h kept
    exact kept.bumped
  · intro h change
    exact same.of_change change

theorem sameTenure_evaluate (f : Federation) (w : WorkloadClassId) (a : AcceleratorId)
    (options : EvaluationOptions) (env : Environment) :
    SameTenure f (f.evaluate w a options env).state :=
  (SameTenure.refl f).of_call (.evaluate w a options) env

/-- One more event leaves a state at or after its tenure. -/
theorem Since.of_step {h : Federation} {e : Event} (since : Since f g)
    (backed : EpochBacked g) (permitted : KeepsEpoch g e) (taken : Step g e h) : Since f h := by
  cases e with
  | call c env =>
      rw [show h = (g.execute c env).state from taken]
      have epoch := epoch_execute g c env
      cases since with
      | saturated top => exact .saturated (by rw [epoch]; exact top)
      | restarted later => exact .restarted (by rw [epoch]; exact later)
      | tenure same => exact .tenure (same.of_call c env)
  | reopen R config env =>
      have epoch := epoch_of_reopen backed permitted taken
      by_cases top : g.epoch.value = Generation.maxValue
      · apply Since.saturated
        rw [epoch, Generation.next_of_max top, top]
      · apply Since.restarted
        rw [epoch]
        have grown := Generation.value_lt_next top
        cases since with
        | saturated full => exact absurd full top
        | restarted later => exact UInt64.lt_trans later grown
        | tenure same =>
            rw [← same.epoch]
            exact grown

theorem since_of_reaches (backed : EpochBacked f)
    (run : Reaches KeepsEpoch f g) : Since f g := by
  induction run with
  | refl => exact .tenure (.refl f)
  | next earlier permitted taken ih =>
      exact ih.of_step (epochBacked_of_reaches backed earlier) permitted taken

/-! ### Evaluating again -/

/-- The creation time enters a decision as nothing else. -/
theorem assessed_createdAt (w : WorkloadProfile) (context : EvaluationContext)
    (policy : FederationPolicy) (capabilities : CapabilitySet) (now later : Timestamp) :
    assessed w context policy capabilities later =
      { assessed w context policy capabilities now with createdAt := later } := rfl

/-- Two decisions have the same result. -/
structure SameResult (d t : CompatibilityDecision) : Prop where
  outcome : t.outcome = d.outcome
  portability : t.portability = d.portability
  reasons : t.reasons = d.reasons
  score : t.score = d.score
  fingerprint : t.fingerprint = d.fingerprint

theorem SameResult.refreshed (d : CompatibilityDecision) (later : Timestamp) :
    SameResult d.refreshIdentity
      ({ d with createdAt := later } : CompatibilityDecision).refreshIdentity :=
  ⟨rfl, rfl, rfl, rfl, rfl⟩

/-- A missing origin was an error, so that one that was found is found again. -/
theorem sourceEntry_of_mustExist {options : EvaluationOptions}
    {source : Option MemberEntry} (members : g.members = f.members)
    (found : f.sourceEntry options true = .ok source) (mustExist : Bool) :
    g.sourceEntry options mustExist = .ok source := by
  rw [sourceEntry] at found ⊢
  rw [members]
  split at found
  · exact found
  · split at found
    · exact found
    · cases found

/-- In a state with the same members, policy and workloads and the same freshness, evaluating
again gives the same result. -/
theorem evaluateTransient_of_same {profile : WorkloadProfile}
    {w : WorkloadClassId} {a : AcceleratorId} {options : EvaluationOptions}
    {env env' : Environment} {d : CompatibilityDecision}
    (registered : f.workloads.get? w = some profile)
    (made : f.evaluateLocked profile a options true env .decision = .ok d)
    (tenure : SameTenure f g) (generation : g.generation = f.generation)
    (members : g.members = f.members) (policy : g.policy = f.policy)
    (workloads : g.workloads = f.workloads)
    (fresh : ∀ entry, f.members.get? a = some entry →
      evidenceFresh f.policy (env'.monotonic .decision) entry.descriptor.evidence =
        evidenceFresh f.policy (env.monotonic .decision) entry.descriptor.evidence) :
    ∃ t, g.evaluateTransient w a options env' = .ok t ∧ SameResult d t := by
  obtain ⟨entry, source, found, origin, evaluated⟩ := evaluateLocked_eq_ok.mp made
  obtain ⟨valid, chosen, capabilities, policed, given, identified, sound, rfl⟩ :=
    evaluateCompatibility_eq_ok.mp evaluated
  have context : g.evaluationContext profile entry source (env'.monotonic .decision) =
      f.evaluationContext profile entry source (env.monotonic .decision) := by
    simp only [evaluationContext, evaluationTarget, tenure.id, generation, tenure.epoch, policy,
      fresh entry found]
  refine ⟨(assessed profile (f.evaluationContext profile entry source (env.monotonic .decision))
    chosen capabilities (env'.wall .decision)).refreshIdentity, ?_, ?_⟩
  · have named : g.registeredWorkload w = .ok profile :=
      registeredWorkload_eq_ok.mpr (by rw [workloads]; exact registered)
    simp only [evaluateTransient, bind_eq_ok]
    refine ⟨profile, named, evaluateLocked_eq_ok.mpr ⟨entry, source, ?_, ?_, ?_⟩⟩
    · rw [members]
      exact found
    · exact sourceEntry_of_mustExist members origin false
    · rw [context, tenure.registry]
      exact evaluateCompatibility_eq_ok.mpr
        ⟨valid, chosen, capabilities, policed, given, identified, sound, rfl⟩
  · rw [assessed_createdAt _ _ _ _ (env.wall .decision) (env'.wall .decision)]
    exact .refreshed _ _

/-! ### Recorded decisions -/

/-- Every recorded decision has the identity of its content. -/
def DecisionsIdentified (f : Federation) : Prop :=
  ∀ k d, f.decisions.get? k = some d → d.decisionId = d.derivedId

theorem decisionsIdentified_of_reaches {allowed : Federation → Event → Prop} {R : Registry}
    {config : FederationConfig} {disk : Option Bytes} {env : Environment}
    (opened : openOn R config disk env = .ok f) (run : Reaches allowed f g) :
    DecisionsIdentified g := by
  refine reaches_of_atRest ?_ ?_ ?_ ?_ opened run
  · intro f rest k d recorded
    rw [rest.decisions, Keyed.get?_empty] at recorded
    cases recorded
  · intro f store identified
    exact identified
  · intro f identified
    exact identified
  · intro f env c g identified _ change k d recorded
    rcases change.decision_cases recorded with found | decided
    · exact identified k d found
    · exact decided.identified

/-- A recorded decision that is current carries the current generation and epoch. -/
theorem stamp_of_decisionIsCurrent {id : DecisionId}
    (current : f.decisionIsCurrent id = .ok true) : ∃ d, f.decisions.get? id = some d ∧
      d.federationGeneration = f.generation ∧ d.epoch = f.epoch := by
  rw [decisionIsCurrent] at current
  split at current
  · cases current
  · rename_i d recorded
    split at current
    · simp only [CompatibilityDecision.isCurrent, Except.ok.injEq, Bool.and_eq_true,
        decide_eq_true_eq] at current
      exact ⟨d, recorded, current.1.1.1.1.1.1, current.1.1.1.1.1.2⟩
    · cases current

/-- A decision that is reported as current, at whatever later point, is made again with the
same result: outcome, portability, reasons, score and fingerprint. -/
theorem evaluateTransient_of_decisionIsCurrent {R : Registry} {config : FederationConfig}
    {disk : Option Bytes} {env₀ env env' : Environment} {f₀ f g : Federation}
    {w : WorkloadClassId} {a : AcceleratorId} {options : EvaluationOptions}
    {d : CompatibilityDecision} (opened : openOn R config disk env₀ = .ok f₀)
    (before : Reaches anyEvent f₀ f) (evaluated : (f.evaluate w a options env).result = .ok d)
    (run : Reaches KeepsEpoch (f.evaluate w a options env).state g)
    (current : g.decisionIsCurrent d.decisionId = .ok true)
    (apart : ∀ d', g.decisions.get? d.decisionId = some d' → d'.derivedId = d.derivedId →
      d'.contentBytes = d.contentBytes)
    (unsaturated : g.generation.value ≠ Generation.maxValue)
    (below : g.epoch.value ≠ Generation.maxValue)
    (fresh : ∀ entry entry', f.members.get? a = some entry → g.members.get? a = some entry' →
      evidenceFresh g.policy (env'.monotonic .decision) entry'.descriptor.evidence =
        evidenceFresh f.policy (env.monotonic .decision) entry.descriptor.evidence) :
    ∃ t, g.evaluateTransient w a options env' = .ok t ∧ SameResult d t := by
  obtain ⟨profile, registered, made⟩ := evaluate_eq_ok evaluated
  have decided := decided_of_evaluateLocked made
  -- the call itself is a step of the run, in which everything it read stays
  have called : Step f (.call (.evaluate w a options) env) (f.evaluate w a options env).state := rfl
  have whole : Reaches anyEvent f₀ g :=
    (before.next trivial called).trans (run.mono fun _ _ _ => trivial)
  have backed := epochBacked_of_reaches (epochBacked_of_open opened) before
  have since : Since f g :=
    since_of_reaches backed ((Run.Reaches.refl.next trivial called).trans run)
  -- the recorded decision has the content of `d`, and with it its stamp
  obtain ⟨d', recorded, generation, epoch⟩ := stamp_of_decisionIsCurrent current
  have identity : d'.derivedId = d.derivedId := by
    rw [← decisionsIdentified_of_reaches opened whole _ d' recorded, ← decided.identified]
    exact Keyed.key_of_get? recorded
  obtain ⟨sameGeneration, sameEpoch⟩ :=
    CompatibilityDecision.stamp_of_contentBytes (apart d' recorded identity)
  rw [decided.federationGeneration, generation] at sameGeneration
  rw [decided.epoch, epoch] at sameEpoch
  cases since with
  | saturated top => exact absurd top below
  | restarted later =>
      rw [sameEpoch] at later
      exact absurd later (UInt64.lt_irrefl _)
  | tenure same =>
      obtain ⟨members, policy, workloads⟩ := same.unmoved sameGeneration unsaturated
      apply evaluateTransient_of_same registered made same sameGeneration members policy workloads
      intro entry found
      rw [members, policy] at fresh
      exact fresh entry entry found found

namespace Sample

/-- The workload is evaluated for the first member. -/
abbrev evaluatedOnce : Outcome CompatibilityDecision :=
  registered.evaluate (ident 20) firstId {} env

/-- The decision is made, recorded with its content and current. -/
theorem recorded_evaluatedOnce : (∃ d, evaluatedOnce.result = .ok d ∧
      evaluatedOnce.state.decisionIsCurrent d.decisionId = .ok true ∧
      (evaluatedOnce.state.decisions.get? d.decisionId).map (·.contentBytes) =
        some d.contentBytes) ∧
    evaluatedOnce.state.epoch.value ≠ Generation.maxValue ∧
    evaluatedOnce.state.generation.value ≠ Generation.maxValue ∧
    evaluatedOnce.state.generation = registered.generation := by
  decide +kernel

end Sample

open Sample in
/-- The decision is made again right after it was recorded. -/
theorem evaluateTransient_evaluatedOnce : ∃ d t, evaluatedOnce.result = .ok d ∧
    evaluatedOnce.state.evaluateTransient (ident 20) firstId {} env = .ok t ∧
    SameResult d t := by
  obtain ⟨⟨d, evaluated, current, content⟩, below, unsaturated, still⟩ := recorded_evaluatedOnce
  have apart : ∀ d', evaluatedOnce.state.decisions.get? d.decisionId = some d' →
      d'.derivedId = d.derivedId → d'.contentBytes = d.contentBytes := by
    intro d' located _
    rw [located] at content
    exact Option.some.inj content
  have kept : SameTenure registered evaluatedOnce.state := sameTenure_evaluate ..
  obtain ⟨members, policy, _⟩ := kept.unmoved still unsaturated
  have fresh : ∀ entry entry', registered.members.get? firstId = some entry →
      evaluatedOnce.state.members.get? firstId = some entry' →
      evidenceFresh evaluatedOnce.state.policy (env.monotonic .decision)
          entry'.descriptor.evidence =
        evidenceFresh registered.policy (env.monotonic .decision) entry.descriptor.evidence := by
    intro entry entry' found found'
    rw [members, found] at found'
    cases found'
    rw [policy]
  have again : ∃ t, evaluatedOnce.state.evaluateTransient (ident 20) firstId {} env = .ok t ∧
      SameResult d t :=
    evaluateTransient_of_decisionIsCurrent openOn_eq reaches_registered evaluated .refl current
      apart unsaturated below fresh
  obtain ⟨t, made, same⟩ := again
  exact ⟨d, t, evaluated, made, same⟩

/-! ### An epoch that is used twice -/

/-- The only input of an evaluation that depends on the clock. -/
def Federation.targetFresh (f : Federation) (a : AcceleratorId) (env : Environment) :
    Option Bool :=
  (f.members.get? a).map fun entry =>
    evidenceFresh f.policy (env.monotonic .decision) entry.descriptor.evidence

namespace Sample

/-- The second boot advertises the device with fewer capabilities. -/
def secondReduced : AcceleratorDescriptor := { second with capabilities := vendorOnly }

/-- The workload is evaluated for the first member as a move from the second. -/
abbrev evaluatedDeferred : Outcome CompatibilityDecision :=
  (openedDeferred.after calls).evaluate (ident 20) firstId { source := some secondId } env

/-- What happens after the restart: the second boot advertises less than before, and the
workload is evaluated without an origin. -/
def laterCalls : List Call := [
  (.observe first claim, env), (.observe secondReduced claim, env),
  (.registerWorkload workload claim, env), (.evaluate (ident 20) firstId {}, env)]

/-- Both evaluations found the move to be native, at the same generation of the same epoch; the
first one does not any more. -/
theorem recorded_evaluatedDeferred :
    evaluatedDeferred.state.store = ⟨.file, none⟩ ∧
    (∃ d, evaluatedDeferred.result = .ok d ∧ d.portability = .native ∧
      (openedDeferred.after laterCalls).decisionIsCurrent d.decisionId = .ok true) ∧
    (∃ t, (openedDeferred.after laterCalls).evaluateTransient (ident 20) firstId
      { source := some secondId } env = .ok t ∧ t.portability ≠ .native) ∧
    (openedDeferred.after laterCalls).targetFresh firstId env =
      (openedDeferred.after calls).targetFresh firstId env ∧
    (openedDeferred.after laterCalls).epoch.value ≠ Generation.maxValue ∧
    (openedDeferred.after laterCalls).generation.value ≠ Generation.maxValue := by
  decide +kernel

end Sample

open Sample in
/-- A decision of an instance that deferred its writes is reported as current by the next one,
which would decide otherwise. -/
theorem reused_epoch_decision : ∃ f g d, openOn .core deferred none env = .ok openedDeferred ∧
    Reaches anyEvent openedDeferred f ∧
    (f.evaluate (ident 20) firstId { source := some secondId } env).result = .ok d ∧
    Reaches anyEvent (f.evaluate (ident 20) firstId { source := some secondId } env).state g ∧
    g.decisionIsCurrent d.decisionId = .ok true ∧
    g.targetFresh firstId env = f.targetFresh firstId env ∧
    g.epoch.value ≠ Generation.maxValue ∧ g.generation.value ≠ Generation.maxValue ∧
    ¬ ∃ t, g.evaluateTransient (ident 20) firstId { source := some secondId } env = .ok t ∧
      SameResult d t := by
  obtain ⟨store, ⟨d, evaluated, native, current⟩, ⟨t, transient, other⟩, fresh, below,
    unsaturated⟩ := recorded_evaluatedDeferred
  refine ⟨openedDeferred.after calls, openedDeferred.after laterCalls, d, openOn_deferred,
    reaches_after _ _ fun _ _ _ _ => trivial, evaluated, ?_, current, fresh, below,
    unsaturated, ?_⟩
  · have restart : Step evaluatedDeferred.state (.reopen .core deferred env) openedDeferred :=
      reopen_deferred (by rw [store]) (by rw [store])
    exact (Run.Reaches.refl.next trivial restart).trans
      (reaches_after _ _ fun _ _ _ _ => trivial)
  · rintro ⟨t', transient', same⟩
    cases transient.symm.trans transient'
    exact other (same.portability.trans native)

end Haf
