/-
# Three ways to evaluate a workload

A workload is evaluated against a member with the decision recorded, without recording it,
or for the whole fleet at once. All three come down to one evaluation in one context. They
differ in what they do before and after: the transient evaluation passes over an origin that
is not a member, where the others refuse, and only the recording one depends on the store.
-/

import Haf.Codec.Refusals
import Haf.Properties.Decisions
import Haf.Properties.Vocabulary

namespace Haf

open Refusal Sequence

/-! ### What the engine refuses -/

/-- No refusal blames an unknown accelerator. -/
abbrev KnowsAccelerators {α : Type} (x : Result α) : Prop :=
  Refuses x (·.code ≠ .unknownAccelerator)

section Engine

@[simp]
theorem knowsAccelerators_canonicalToken (token : Bytes) (maxBytes : Nat) :
    KnowsAccelerators (canonicalToken token maxBytes) := by
  simp +decide [canonicalToken]

@[simp]
theorem knowsAccelerators_capabilityKeyFromName (R : Registry) (name : Bytes) :
    KnowsAccelerators (capabilityKeyFromName R name) := by
  simp +decide [capabilityKeyFromName]

@[simp]
theorem knowsAccelerators_validateRequirement (R : Registry) (q : CapabilityRequirement) :
    KnowsAccelerators (q.validate R) := by
  have operator : KnowsAccelerators q.validateOperator := by
    rw [CapabilityRequirement.validateOperator]
    split <;> simp +decide
  simp +decide [CapabilityRequirement.validate, operator]

@[simp]
theorem knowsAccelerators_validateRequirements (R : Registry) (qs : List CapabilityRequirement) :
    KnowsAccelerators (WorkloadProfile.validateRequirements R qs) := by
  induction qs with
  | nil => exact .ok ()
  | cons q rest ih => simp [WorkloadProfile.validateRequirements, ih]

@[simp]
theorem knowsAccelerators_refuseDuplicate (message : String) (entries : List Bytes) :
    KnowsAccelerators (WorkloadProfile.refuseDuplicate message entries) := by
  unfold WorkloadProfile.refuseDuplicate
  split <;> simp +decide

@[simp]
theorem knowsAccelerators_validateWorkload (R : Registry) (w : WorkloadProfile) :
    KnowsAccelerators (w.validate R) := by
  simp +decide [WorkloadProfile.validate]

@[simp]
theorem knowsAccelerators_resolveCapabilities (R : Registry) (what : String) (names : List Bytes) :
    KnowsAccelerators (FederationPolicy.resolveCapabilities R what names) := by
  induction names with
  | nil => exact .ok ()
  | cons name rest ih =>
      rw [FederationPolicy.resolveCapabilities]
      split
      next e refused =>
        have other := (knowsAccelerators_capabilityKeyFromName R name).of_error refused
        exact Refuses.error_iff.mpr other
      next => exact ih

@[simp]
theorem knowsAccelerators_validatePolicy (R : Registry) (p : FederationPolicy) :
    KnowsAccelerators (p.validate R) := by
  rw [FederationPolicy.validate]
  split <;> split <;> simp +decide

theorem knowsAccelerators_evaluateCompatibility (R : Registry) (w : WorkloadProfile)
    (context : EvaluationContext) (createdAt : Timestamp) :
    KnowsAccelerators (evaluateCompatibility R w context createdAt) := by
  rw [evaluateCompatibility]
  repeat' split
  all_goals simp +decide

end Engine

/-! ### What a caller sees -/

/-- What is compared of two results: the code of a refusal, or the fingerprint of a decision. -/
def observed : Result CompatibilityDecision → Except ErrorCode Digest
  | .error s => .error s.code
  | .ok d => .ok d.fingerprint

/-- The wall clock makes no difference. -/
theorem observed_evaluateCompatibility (R : Registry) (w : WorkloadProfile)
    (context : EvaluationContext) (now later : Timestamp) :
    observed (evaluateCompatibility R w context now) =
      observed (evaluateCompatibility R w context later) := by
  cases governed : context.policy with
  | none => rw [evaluateCompatibility, evaluateCompatibility, governed]
  | some policy =>
      cases evident : context.target.capabilities with
      | none => rw [evaluateCompatibility, evaluateCompatibility, governed, evident]
      | some set =>
          rw [evaluateCompatibility_of_given R w governed evident,
            evaluateCompatibility_of_given R w governed evident]
          -- Both run the same checks before they assess.
          generalize (do
            w.validate R
            ensure (!context.target.accelerator.isNil) (.failure .invalidArgument
              "compatibility evaluation requires a target accelerator identity")
            policy.validate R) = check
          cases check with
          | error status => rfl
          | ok _ =>
              have same := SameResult.refreshed (assessed w context policy set later) now
              exact congrArg Except.ok same.fingerprint

namespace Federation

variable {f : Federation} {w : WorkloadClassId} {a : AcceleratorId} {entry : MemberEntry}
  {options : EvaluationOptions} {profile : WorkloadProfile} {env env' env'' : Environment}

/-- One evaluation in one context, whichever entry point asks for it. -/
structure OneSemantics (f : Federation) (w : WorkloadClassId) (a : AcceleratorId)
    (options : EvaluationOptions) (env env' env'' : Environment) : Prop where
  alone : observed (f.evaluate w a options env).result =
    observed (f.evaluateTransient w a options env')
  fleet : ∀ createdAt evaluation, f.evaluateFleet w options env'' createdAt = .ok evaluation →
    (∃ cell ∈ evaluation.cells, cell.accelerator = a) ∧
      ∀ cell ∈ evaluation.cells, cell.accelerator = a →
        observed (f.evaluate w a options env).result = .ok cell.decision.fingerprint

theorem evaluateLocked_of_member (found : f.members.get? a = some entry) (mustExist : Bool)
    {source : Option MemberEntry} (origin : f.sourceEntry options mustExist = .ok source)
    (site : ClockSite) :
    f.evaluateLocked profile a options mustExist env site =
      evaluateCompatibility f.registry profile
        (f.evaluationContext profile entry source (env.monotonic site)) (env.wall site) := by
  rw [evaluateLocked, memberEntry_eq_ok.mpr found]
  show f.sourceEntry options mustExist >>= _ = _
  rw [origin]
  rfl

theorem result_publish {α : Type} (value : α) (g : Federation) :
    (publish value g env).result = (g.persistLocked env false).1.map fun _ => value := by
  rw [publish]
  obtain ⟨result, h⟩ := g.persistLocked env false
  cases result <;> rfl

/-- What the recording evaluation adds: a write that may be refused. -/
theorem evaluate_of_registered (running : f.isShutdown = false)
    (registered : f.workloads.get? w = some profile) :
    (f.evaluate w a options env).result =
      f.evaluateLocked profile a options true env .decision >>= fun d =>
        ((f.withDecision d).persistLocked env false).1.map fun _ => d := by
  rw [evaluate, settleEvaluate, running, registeredWorkload_eq_ok.mpr registered]
  show (f.conclude env (f.evaluateLocked profile a options true env .decision >>= _)).result = _
  cases f.evaluateLocked profile a options true env .decision with
  | error s => rfl
  | ok d => exact result_publish d (f.withDecision d)

theorem evaluateTransient_of_registered (registered : f.workloads.get? w = some profile) :
    f.evaluateTransient w a options env =
      f.evaluateLocked profile a options false env .decision := by
  rw [evaluateTransient, registeredWorkload_eq_ok.mpr registered]
  rfl

/-- An origin is refused by its name, or it makes no difference whether it has to exist. -/
theorem sourceEntry_cases (f : Federation) (options : EvaluationOptions) :
    (∃ source, f.sourceEntry options true = .ok source ∧ f.sourceEntry options false = .ok source ∧
      ∀ id, options.source = some id → f.members.get? id ≠ none) ∨
    ∃ s id, f.sourceEntry options true = .error s ∧ s.code = .unknownAccelerator ∧
      f.sourceEntry options false = .ok none ∧ options.source = some id ∧
      f.members.get? id = none := by
  cases named : options.source with
  | none =>
      refine .inl ⟨none, ?_, ?_, nofun⟩
      · rw [sourceEntry, named]
      · rw [sourceEntry, named]
  | some id =>
      cases found : f.members.get? id with
      | some entry =>
          refine .inl ⟨some entry, ?_, ?_, ?_⟩
          · simp only [sourceEntry, named, found]
          · simp only [sourceEntry, named, found]
          · rintro _ ⟨⟩
            simp [found]
      | none =>
          have refused : f.sourceEntry options true = .error ⟨.unknownAccelerator,
              text "no federation member for source accelerator " ++ id.toText⟩ := by
            simp only [sourceEntry, named, found, if_true]
          exact .inr ⟨_, id, refused, rfl, by simp [sourceEntry, named, found], rfl, found⟩

/-- An origin that is not a member tells the entry points apart. -/
theorem not_oneSemantics_of_stranger (running : f.isShutdown = false)
    (registered : f.workloads.get? w = some profile) (found : f.members.get? a = some entry)
    {s : Status} (refused : f.sourceEntry options true = .error s)
    (unknown : s.code = .unknownAccelerator) (passed : f.sourceEntry options false = .ok none) :
    ¬ OneSemantics f w a options env env' env'' := by
  intro one
  have same := one.alone
  have recorded : (f.evaluate w a options env).result = .error s := by
    rw [evaluate_of_registered running registered, evaluateLocked, memberEntry_eq_ok.mpr found]
    show ((f.sourceEntry options true >>= _) >>= _) = _
    rw [refused]
    rfl
  rw [recorded, evaluateTransient_of_registered registered,
    evaluateLocked_of_member found false passed] at same
  -- The engine, which is asked without an origin, refuses for other reasons if at all.
  have other := knowsAccelerators_evaluateCompatibility f.registry profile
    (f.evaluationContext profile entry none (env'.monotonic .decision)) (env'.wall .decision)
  cases verdict : evaluateCompatibility f.registry profile
      (f.evaluationContext profile entry none (env'.monotonic .decision)) (env'.wall .decision) with
  | ok d =>
      rw [verdict] at same
      cases same
  | error s' =>
      rw [verdict] at same
      have code : s.code = s'.code := Except.error.inj same
      exact other.of_error verdict (code.symm.trans unknown)

/-- What a matrix is made of: one evaluation for each member, in the context of all others. -/
theorem of_evaluateFleet (found : f.members.get? a = some entry)
    {createdAt : AcceleratorId → Timestamp} {evaluation : FleetEvaluation}
    (evaluated : f.evaluateFleet w options env'' createdAt = .ok evaluation) :
    ∃ profile source, f.workloads.get? w = some profile ∧
      f.sourceEntry options true = .ok source ∧
      (∃ cell ∈ evaluation.cells, cell.accelerator = a) ∧
      ∀ cell ∈ evaluation.cells, cell.accelerator = a →
        evaluateCompatibility f.registry profile
          (f.evaluationContext profile entry source (env''.monotonic .decision)) (createdAt a) =
            .ok cell.decision := by
  simp only [evaluateFleet, bind_eq_ok, registeredWorkload_eq_ok] at evaluated
  obtain ⟨profile, registered, _, _, source, origin, evaluated⟩ := evaluated
  have named : entry.record.accelerator = a := by
    have key := Keyed.key_of_get? found
    exact key
  refine ⟨profile, source, registered, origin, ?_, fun cell listed same => ?_⟩
  · simp only [Haf.evaluateFleet, bind_eq_ok, pure_eq_ok] at evaluated
    obtain ⟨_, _, _, _, cells, mapped, rfl⟩ := evaluated
    have targeted : f.evaluationTarget entry (env''.monotonic .decision) ∈ sortOn targetOrder
        (f.members.values.map (f.evaluationTarget · (env''.monotonic .decision))) :=
      mem_sortOn.mpr (List.mem_map_of_mem (Keyed.mem_values_of_get? found))
    obtain ⟨cell, listed, made⟩ := exists_of_mapM mapped targeted
    obtain ⟨decision, decided, same⟩ := bind_eq_ok.mp made
    cases pure_eq_ok.mp same
    exact ⟨_, listed, named⟩
  · obtain ⟨target, inside, matched, made⟩ := exists_of_mem_cells evaluated listed
    obtain ⟨other, stored, rfl⟩ := List.mem_map.mp inside
    have located : other.record.accelerator = a := matched.symm.trans same
    have twin : other = entry := by
      have there := Keyed.mem_values.mp stored
      rw [located, found] at there
      exact (Option.some.inj there).symm
    rw [twin] at made
    rw [← named]
    exact made

/-- An origin that is a member leaves the store as the only difference. -/
theorem oneSemantics_of_member (running : f.isShutdown = false)
    (registered : f.workloads.get? w = some profile) (found : f.members.get? a = some entry)
    (clock' : env'.monotonic .decision = env.monotonic .decision)
    (clock'' : env''.monotonic .decision = env.monotonic .decision)
    {source : Option MemberEntry} (origin : f.sourceEntry options true = .ok source)
    (origin' : f.sourceEntry options false = .ok source) :
    OneSemantics f w a options env env' env'' ↔
      ∀ d, f.evaluateLocked profile a options true env .decision = .ok d →
        ((f.withDecision d).persistLocked env false).1 = .ok () := by
  have locked : f.evaluateLocked profile a options true env .decision = _ :=
    evaluateLocked_of_member found true origin .decision
  have transient : observed (f.evaluateTransient w a options env') =
      observed (f.evaluateLocked profile a options true env .decision) := by
    rw [evaluateTransient_of_registered registered, evaluateLocked_of_member found false origin',
      locked, clock']
    exact observed_evaluateCompatibility _ _ _ _ _
  constructor
  · intro one d decided
    have same := one.alone
    rw [transient, evaluate_of_registered running registered, decided] at same
    cases written : ((f.withDecision d).persistLocked env false).1 with
    | ok _ => rfl
    | error s =>
        change observed (((f.withDecision d).persistLocked env false).1.map fun _ => d) = _ at same
        rw [written] at same
        cases same
  · intro takes
    have returned : (f.evaluate w a options env).result =
        f.evaluateLocked profile a options true env .decision := by
      rw [evaluate_of_registered running registered]
      cases decided : f.evaluateLocked profile a options true env .decision with
      | error s => rfl
      | ok d =>
          show ((f.withDecision d).persistLocked env false).1.map (fun _ => d) = _
          rw [takes d decided]
          rfl
    refine ⟨by rw [returned, transient], fun createdAt evaluation evaluated => ?_⟩
    obtain ⟨profile', source', registered', origin'', present, each⟩ :=
      of_evaluateFleet found evaluated
    cases Option.some.inj (registered.symm.trans registered')
    cases Except.ok.inj (origin.symm.trans origin'')
    refine ⟨present, fun cell listed named => ?_⟩
    rw [returned, locked, observed_evaluateCompatibility _ _ _ _ (createdAt a), ← clock'',
      each cell listed named]
    rfl

/-- A workload that is not registered is refused alike. -/
theorem oneSemantics_of_unregistered (running : f.isShutdown = false)
    (unregistered : f.workloads.get? w = none) (found : f.members.get? a = some entry) :
    OneSemantics f w a options env env' env'' := by
  constructor
  · rw [evaluate, settleEvaluate, evaluateTransient, registeredWorkload, running, unregistered]
    rfl
  · intro createdAt evaluation evaluated
    obtain ⟨profile, _, registered, _⟩ := of_evaluateFleet found evaluated
    cases unregistered.symm.trans registered

end Federation

open Federation in
/-- **One semantics for all entry points** is what a federation has exactly if the origin named
in the options is a member and the store takes the decision that is recorded. -/
theorem one_semantics_iff {f : Federation} {w : WorkloadClassId} {a : AcceleratorId}
    {entry : MemberEntry} {options : EvaluationOptions} {env env' env'' : Environment}
    (running : f.isShutdown = false) (found : f.members.get? a = some entry)
    (clock' : env'.monotonic .decision = env.monotonic .decision)
    (clock'' : env''.monotonic .decision = env.monotonic .decision) :
    OneSemantics f w a options env env' env'' ↔
      ∀ profile, f.workloads.get? w = some profile →
        (∀ source, options.source = some source → f.members.get? source ≠ none) ∧
          ∀ d, f.evaluateLocked profile a options true env .decision = .ok d →
            ((f.withDecision d).persistLocked env false).1 = .ok () := by
  cases registered : f.workloads.get? w with
  | none => exact iff_of_true (oneSemantics_of_unregistered running registered found) nofun
  | some profile =>
      rcases f.sourceEntry_cases options with ⟨source, origin, origin', members⟩ |
        ⟨s, id, refused, unknown, passed, named, stranger⟩
      · rw [oneSemantics_of_member running registered found clock' clock'' origin origin']
        constructor
        · rintro takes _ ⟨⟩
          exact ⟨members, takes⟩
        · intro holds
          exact (holds profile rfl).2
      · refine iff_of_false
          (not_oneSemantics_of_stranger running registered found refused unknown passed) ?_
        intro holds
        exact (holds profile rfl).1 id named stranger

namespace Sample

/-- A move from a device that never joined. -/
def fromStranger : EvaluationOptions := { source := some (ident 77) }

theorem member_registered : (registered.members.get? firstId).isSome = true ∧
    registered.isShutdown = false := by
  decide +kernel

theorem observed_fromStranger :
    observed (registered.evaluate (ident 20) firstId fromStranger env).result =
        .error .unknownAccelerator ∧
      (registered.evaluateTransient (ident 20) firstId fromStranger env).isOk = true := by
  decide +kernel

end Sample

open Sample Federation in
/-- A move from a device that never joined is refused when it is to be recorded, and evaluated as
if nothing moved when it is not. -/
theorem stranger_passed_over : registered.isShutdown = false ∧
    (registered.members.get? firstId).isSome = true ∧
    observed (registered.evaluate (ident 20) firstId fromStranger env).result =
      .error .unknownAccelerator ∧
    (∃ d, registered.evaluateTransient (ident 20) firstId fromStranger env = .ok d) ∧
    ¬ OneSemantics registered (ident 20) firstId fromStranger env env env := by
  obtain ⟨refused, passed⟩ := observed_fromStranger
  obtain ⟨d, made⟩ := exists_of_isOk passed
  refine ⟨member_registered.2, member_registered.1, refused, ⟨d, made⟩, fun one => ?_⟩
  have same := one.alone
  rw [refused, made] at same
  cases same

open Sample Federation in
theorem one_semantics_registered : ∃ entry, registered.members.get? firstId = some entry ∧
    (OneSemantics registered (ident 20) firstId {} env env env ↔
      ∀ profile, registered.workloads.get? (ident 20) = some profile →
        (∀ source, ({} : EvaluationOptions).source = some source →
          registered.members.get? source ≠ none) ∧
          ∀ d, registered.evaluateLocked profile firstId {} true env .decision = .ok d →
            ((registered.withDecision d).persistLocked env false).1 = .ok ()) := by
  obtain ⟨entry, found⟩ := Option.isSome_iff_exists.mp member_registered.1
  exact ⟨entry, found, one_semantics_iff member_registered.2 found rfl rfl⟩

end Haf
