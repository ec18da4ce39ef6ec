/-
# Calls that are refused

A call that is refused should leave nothing behind. The one that does is the planning
of a migration from an accelerator to itself: the planner refuses it only after the
generation has moved. In this module what a call does is compared with the checks it
makes, first for refusals in general and then for claims of stale authority, not all
of which are compared with anything.
-/

import Haf.Properties.Epochs

namespace Haf

open Federation Sequence

/-- Everything a caller can tell two states apart by, apart from when they are looked at. -/
structure SameContent (f g : Federation) : Prop where
  members : g.members = f.members
  policy : g.policy = f.policy
  workloads : g.workloads = f.workloads
  decisions : g.decisions = f.decisions
  plans : g.plans = f.plans
  generation : g.generation = f.generation
  epoch : g.epoch = f.epoch

theorem SameContent.refl (f : Federation) : SameContent f f :=
  ⟨rfl, rfl, rfl, rfl, rfl, rfl, rfl⟩

/-! ### Planning a move -/

/-- What the evaluations of a planned move need: a valid workload and policy, and members with
an identity. -/
structure Evaluates (f : Federation) (w : WorkloadClassId) (a : AcceleratorId) : Prop where
  registered : ∃ profile, f.workloads.get? w = some profile ∧ profile.validate f.registry = .ok ()
  policy : f.policy.validate f.registry = .ok ()
  member : ∃ entry, f.members.get? a = some entry
  identified : a ≠ .nil

variable {f : Federation} {w : WorkloadClassId} {a b : AcceleratorId}

theorem evaluateLocked_ok_iff {profile : WorkloadProfile}
    (registered : f.workloads.get? w = some profile) (a b : AcceleratorId) (env : Environment)
    (site : ClockSite) :
    (∃ d, f.evaluateLocked profile a ⟨some b⟩ false env site = .ok d) ↔ Evaluates f w a := by
  constructor
  · rintro ⟨d, made⟩
    obtain ⟨entry, source, found, _, made⟩ := evaluateLocked_eq_ok.mp made
    obtain ⟨valid, policy, _, chosen, _, identified, sound, _⟩ :=
      evaluateCompatibility_eq_ok.mp made
    have key := Keyed.key_of_get? found
    cases chosen
    refine ⟨⟨profile, registered, valid⟩, sound, ⟨entry, found⟩, ?_⟩
    rw [← key]
    exact identified
  · intro evaluates
    obtain ⟨profile', registered', valid⟩ := evaluates.registered
    rw [registered] at registered'
    cases registered'
    obtain ⟨entry, found⟩ := evaluates.member
    have key := Keyed.key_of_get? found
    obtain ⟨source, origin⟩ : ∃ source, f.sourceEntry ⟨some b⟩ false = .ok source := by
      rw [sourceEntry]
      dsimp only
      split
      · exact ⟨_, rfl⟩
      · exact ⟨_, rfl⟩
    refine ⟨_, evaluateLocked_eq_ok.mpr ⟨entry, source, found, origin,
      evaluateCompatibility_eq_ok.mpr ⟨valid, _, _, rfl, rfl, ?_, evaluates.policy, rfl⟩⟩⟩
    show entry.record.accelerator ≠ .nil
    rw [key]
    exact evaluates.identified

/-- A move that could be evaluated is planned unless it leads where it starts. -/
theorem planMigration_ok_iff (profile : WorkloadProfile)
    (source destination : MemberEntry) (sourceDecision destinationDecision : CompatibilityDecision)
    (now : Timestamp) (origin : a ≠ .nil) (goal : b ≠ .nil) :
    (∃ plan, Haf.planMigration (f.migrationRequest profile a b source destination sourceDecision
      destinationDecision) now = .ok plan) ↔ a ≠ b := by
  constructor
  · rintro ⟨plan, made⟩
    obtain ⟨_, _, _, _, _, _, _, _, _, _, distinct, _⟩ := planMigration_eq_ok.mp made
    exact distinct
  · intro distinct
    exact ⟨_, planMigration_eq_ok.mpr
      ⟨_, _, _, _, rfl, rfl, rfl, rfl, origin, goal, distinct, rfl⟩⟩

/-- Planning settles exactly if the claim is accepted and both ends can be evaluated. -/
theorem settlePlanMigration_ok_iff
    {claim : AuthorityClaim} (env : Environment) :
    (∃ s, f.settlePlanMigration w a b claim env = .ok s) ↔
      f.validateAuthority claim = .ok () ∧ Evaluates f w a ∧ Evaluates f w b := by
  constructor
  · rintro ⟨s, settled⟩
    rcases settlePlanMigration_eq_ok settled with ⟨_, _, bump⟩ | ⟨_, _, _, change⟩
    · cases bump with
      | refused authority registered origin target decidedSource decidedDestination unplanned =>
          exact ⟨authority, (evaluateLocked_ok_iff registered a b env _).mp ⟨_, decidedSource⟩,
            (evaluateLocked_ok_iff registered b a env _).mp ⟨_, decidedDestination⟩⟩
    · cases change with
      | planned authority registered origin target decidedSource decidedDestination authored =>
          exact ⟨authority, (evaluateLocked_ok_iff registered a b env _).mp ⟨_, decidedSource⟩,
            (evaluateLocked_ok_iff registered b a env _).mp ⟨_, decidedDestination⟩⟩
  · rintro ⟨authority, start, finish⟩
    obtain ⟨profile, registered, _⟩ := start.registered
    obtain ⟨source, origin⟩ := start.member
    obtain ⟨destination, goal⟩ := finish.member
    obtain ⟨sourceDecision, decided⟩ :=
      (evaluateLocked_ok_iff registered a b env .sourceDecision).mpr start
    obtain ⟨destinationDecision, decided'⟩ :=
      (evaluateLocked_ok_iff registered b a env .destinationDecision).mpr finish
    rw [settlePlanMigration, authority]
    simp only [registeredWorkload, registered, origin, goal, decided, decided', bind, Except.bind]
    split
    · exact ⟨_, rfl⟩
    · exact ⟨_, rfl⟩

/-- A move that leads where it starts is refused, with the generation moved. -/
theorem settlePlanMigration_self
    {claim : AuthorityClaim} (env : Environment) (authority : f.validateAuthority claim = .ok ())
    (evaluates : Evaluates f w a) :
    ∃ status, f.settlePlanMigration w a a claim env = .ok (.refused status f.bumped) := by
  obtain ⟨s, settled⟩ :=
    (settlePlanMigration_ok_iff env).mpr ⟨authority, evaluates, evaluates⟩
  rcases settlePlanMigration_eq_ok settled with ⟨status, rfl, _⟩ | ⟨_, _, _, change⟩
  · exact ⟨status, settled⟩
  · cases change with
    | planned _ _ _ _ _ _ authored =>
        exact absurd rfl ((planMigration_ok_iff _ _ _ _ _ _ evaluates.identified
          evaluates.identified).mp ⟨_, authored⟩)

/-- Only such moves are refused that late. -/
theorem Bump.self {env : Environment}
    {claim : AuthorityClaim} (bump : Bump f env (.planMigration w a b claim)) :
    a = b ∧ f.validateAuthority claim = .ok () ∧ Evaluates f w a := by
  cases bump with
  | refused authority registered origin target decidedSource decidedDestination unplanned =>
      have start := (evaluateLocked_ok_iff registered a b env _).mp ⟨_, decidedSource⟩
      have finish := (evaluateLocked_ok_iff registered b a env _).mp ⟨_, decidedDestination⟩
      refine ⟨?_, authority, start⟩
      by_contra distinct
      obtain ⟨plan, made⟩ := (planMigration_ok_iff _ _ _ _ _ _ start.identified
        finish.identified).mpr distinct
      rw [unplanned] at made
      cases made

/-! ### Refusals -/

/-- A move from an accelerator to itself that passes every check before the planner. -/
def MovesToItself (f : Federation) : Command → Prop
  | .planMigration w a b claim => a = b ∧ f.validateAuthority claim = .ok () ∧ Evaluates f w a ∧
      f.generation.value ≠ Generation.maxValue
  | _ => False

/-- If the call is refused, and not by the store, it has left nothing behind. -/
def RefusesCleanly (f : Federation) (c : Command) (env : Environment) : Prop :=
  ∀ status, (f.execute c env).result = .error status → (f.execute c env).fault = none →
    SameContent f (f.execute c env).state

/-- Moving a generation that is at its maximum does nothing. -/
theorem bumped_of_max (top : f.generation.value = Generation.maxValue) :
    f.bumped = f := by
  rw [bumped, Generation.next_of_max top]

/-- The generation moves on without anything else only in a move to itself. -/
theorem Bump.movesToItself {env : Environment} {c : Command}
    (bump : Bump f env c) : MovesToItself f c ∨ f.bumped = f := by
  by_cases top : f.generation.value = Generation.maxValue
  · exact .inr (bumped_of_max top)
  · cases bump with
    | refused authority registered origin target decidedSource decidedDestination unplanned =>
        obtain ⟨same, accepted, evaluates⟩ := Bump.self (.refused authority registered origin
          target decidedSource decidedDestination unplanned)
        exact .inl ⟨same, accepted, evaluates, top⟩

/-- Every refusal leaves nothing behind, but for moves from an accelerator to itself. -/
theorem refusesCleanly_iff (f : Federation) (c : Command) (env : Environment) :
    RefusesCleanly f c env ↔ ¬ MovesToItself f c := by
  constructor
  · intro clean moves
    cases c with
    | planMigration w a b claim =>
        obtain ⟨rfl, authority, evaluates, below⟩ := moves
        obtain ⟨status, settled⟩ := settlePlanMigration_self env authority evaluates
        have outcome : f.planMigration w a a claim env = ⟨.error status, none, f.bumped⟩ := by
          rw [Federation.planMigration, settled]
          rfl
        have same := clean status (by rw [execute, outcome]; rfl) (by rw [execute, outcome]; rfl)
        have moved : (f.execute (.planMigration w a a claim) env).state.generation =
            f.generation.next := by
          rw [execute, outcome]
          rfl
        exact Generation.next_ne_self below (moved.symm.trans same.generation)
    | observe | transition | updateCapabilities | setPolicy | registerWorkload | evaluate
    | advanceMigration | abortMigration | invalidateStaleDecisions | persist | shutdown =>
        exact moves
  · intro stays status refused accepted
    have conduct := f.execute_conduct c env
    generalize f.execute c env = o at conduct refused accepted ⊢
    cases conduct with
    | refused status => exact .refl f
    | kept reply => cases refused
    | bumped status bump =>
        rcases bump.movesToItself with moves | same
        · exact absurd moves stays
        · dsimp only
          rw [same]
          exact .refl f
    | published reply change written => cases refused
    | faulted result change failed => cases accepted

namespace Sample

/-- The plan to move the workload from the first member to itself is refused. -/
theorem refused_registered :
    (registered.execute (.planMigration (ident 20) firstId firstId claim) env).result.isOk = false ∧
      (registered.execute (.planMigration (ident 20) firstId firstId claim) env).fault = none ∧
      (registered.execute (.planMigration (ident 20) firstId firstId claim) env).state.generation ≠
        registered.generation := by
  decide +kernel

end Sample

open Sample in
/-- A refused move from an accelerator to itself has moved the generation on. -/
theorem refused_self_move : ∃ f c, openOn .core config none env = .ok opened ∧
    Reaches anyEvent opened f ∧ ¬ RefusesCleanly f c env := by
  refine ⟨registered, .planMigration (ident 20) firstId firstId claim, openOn_eq,
    reaches_registered, ?_⟩
  intro clean
  obtain ⟨failed, accepted, moved⟩ := refused_registered
  cases result : (registered.execute (.planMigration (ident 20) firstId firstId claim) env).result with
  | ok reply =>
      rw [result] at failed
      cases failed
  | error status => exact moved (clean status result accepted).generation

end Haf
