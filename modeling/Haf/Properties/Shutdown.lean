/-
# After shutdown

Shutdown revokes authority: every operation that checks a claim refuses from then on,
and so does the evaluation of a workload. The sweep of stale decisions checks nothing.
It still removes what is stale at that time, and nothing else changes any more.
-/

import Haf.Properties.Authority

namespace Haf

open Federation Sequence

variable {f g : Federation}

theorem SameContent.trans {h : Federation} (first : SameContent f g)
    (second : SameContent g h) : SameContent f h where
  members := second.members.trans first.members
  policy := second.policy.trans first.policy
  workloads := second.workloads.trans first.workloads
  decisions := second.decisions.trans first.decisions
  plans := second.plans.trans first.plans
  generation := second.generation.trans first.generation
  epoch := second.epoch.trans first.epoch

theorem SameContent.of_saved (same : SameContent f g) (env : Environment) :
    SameContent f (g.saved env) :=
  ⟨same.members, same.policy, same.workloads, same.decisions, same.plans, same.generation,
    same.epoch⟩

/-- A running federation is needed for every change but a sweep and an explicit write. -/
theorem Change.running {env : Environment} {c : Command}
    (change : Change f env c g) : f.isShutdown = false ∨ g = f.swept ∨ g = f := by
  cases change with
  | enrolled authority | observedAgain authority | policy authority | workload authority
  | planned authority | advanced authority | aborted authority =>
      exact .inl (validateAuthority_eq_ok.mp authority).1
  | moved _ authority | updated _ authority =>
      exact .inl (validateAuthority_eq_ok.mp (validateMemberAuthority_eq_ok.mp authority).1).1
  | evaluated running | shutdown running => exact .inl running
  | swept => exact .inr (.inl rfl)
  | persisted => exact .inr (.inr rfl)

theorem Bump.running {env : Environment} {c : Command} (bump : Bump f env c) :
    f.isShutdown = false := by
  cases bump with
  | refused authority => exact (validateAuthority_eq_ok.mp authority).1

/-- Every recorded decision passes the test of the sweep. -/
def NothingStale (f : Federation) : Prop :=
  ∀ id d, f.decisions.get? id = some d → f.sweepKeeps d = true

theorem sweepKeeps_congr (same : SameContent f g) (d : CompatibilityDecision) :
    g.sweepKeeps d = f.sweepKeeps d := by
  rw [sweepKeeps, sweepKeeps, same.generation, same.epoch, same.policy, same.members,
    same.workloads]

theorem NothingStale.congr (none : NothingStale f) (same : SameContent f g) :
    NothingStale g := by
  intro id d found
  rw [same.decisions] at found
  rw [sweepKeeps_congr same]
  exact none id d found

/-- With nothing stale, the sweep has no effect. -/
theorem NothingStale.swept (none : NothingStale f) : SameContent f f.swept := by
  have decisions : f.decisions.filter f.sweepKeeps = f.decisions := by
    apply Keyed.ext
    intro id
    rw [Keyed.get?_filter]
    cases found : f.decisions.get? id with
    | none => rfl
    | some d => rw [Option.filter_some, if_pos (none id d found)]
  exact ⟨rfl, rfl, rfl, decisions, rfl, rfl, rfl⟩

/-- A shut down federation with nothing stale stays as it is. -/
theorem execute_of_shutdown (down : f.isShutdown = true)
    (none : NothingStale f) (c : Command) (env : Environment) :
    (f.execute c env).state.isShutdown = true ∧ SameContent f (f.execute c env).state := by
  rcases (f.execute_conduct c env).state_cases with same | ⟨_, bump⟩ | ⟨g, change, reached⟩
  · rw [same]
    exact ⟨down, .refl f⟩
  · rw [bump.running] at down
    cases down
  · have kept : g.isShutdown = true ∧ SameContent f g := by
      rcases change.running with running | rfl | rfl
      · rw [running] at down
        cases down
      · exact ⟨down, none.swept⟩
      · exact ⟨down, .refl _⟩
    rcases reached with same | written
    · rw [same]
      exact kept
    · rw [written]
      exact ⟨kept.1, kept.2.of_saved env⟩

theorem after_of_shutdown (down : f.isShutdown = true) (none : NothingStale f)
    (calls : List Call) : SameContent f (f.after calls) := by
  induction calls generalizing f with
  | nil => exact .refl f
  | cons call calls ih =>
      obtain ⟨down', same⟩ := execute_of_shutdown down none call.1 call.2
      exact same.trans (ih down' (none.congr same))

/-- Writing the state changes nothing a caller can see. -/
theorem state_publish {α : Type} (value : α) (g : Federation) (env : Environment) :
    (publish value g env).state.isShutdown = g.isShutdown ∧
      SameContent g (publish value g env).state := by
  rw [publish]
  split
  all_goals
    rename_i written
    rcases persistLocked_cases written with rfl | ⟨_, rfl⟩
    · exact ⟨rfl, .refl _⟩
    · exact ⟨rfl, (SameContent.refl g).of_saved env⟩

/-- Shutdown itself changes nothing a caller can see. -/
theorem execute_shutdown (f : Federation) (env : Environment) :
    (f.execute .shutdown env).state.isShutdown = true ∧
      SameContent f (f.execute .shutdown env).state := by
  show (f.shutdown env).state.isShutdown = true ∧ SameContent f (f.shutdown env).state
  rw [shutdown]
  by_cases down : f.isShutdown = true
  · rw [if_pos down]
    exact ⟨down, .refl f⟩
  · rw [if_neg down]
    obtain ⟨down', same⟩ := state_publish () { f with isShutdown := true } env
    have marked : SameContent f { f with isShutdown := true } :=
      ⟨rfl, rfl, rfl, rfl, rfl, rfl, rfl⟩
    exact ⟨down', marked.trans same⟩

/-- The sweep removes a stale decision, whatever its write does. -/
theorem decisions_invalidate {id : DecisionId} {d : CompatibilityDecision}
    (found : f.decisions.get? id = some d) (stale : f.sweepKeeps d = false) (env : Environment) :
    (f.execute .invalidateStaleDecisions env).state.decisions.get? id = none := by
  have listed : d ∈ f.decisions.values.filter (!f.sweepKeeps ·) := by
    rw [List.mem_filter, stale]
    exact ⟨Keyed.mem_values_of_get? found, rfl⟩
  have some_ : (f.decisions.values.filter (!f.sweepKeeps ·)).length ≠ 0 := by
    intro empty
    rw [List.length_eq_zero_iff.mp empty] at listed
    cases listed
  have gone : f.swept.decisions.get? id = none := by
    rw [swept, Keyed.get?_filter, found, Option.filter_some, stale]
    rfl
  show (f.invalidateStaleDecisions env).state.decisions.get? id = none
  rw [invalidateStaleDecisions, if_neg some_]
  split
  all_goals
    rename_i written
    rcases persistLocked_cases written with rfl | ⟨_, rfl⟩
    · exact gone
    · exact gone

/-- After shutdown nothing changes any more exactly if no stale decision was left to sweep. -/
theorem unchanged_after_shutdown_iff (f : Federation) (env : Environment) :
    (∀ calls, SameContent (f.execute .shutdown env).state
      ((f.execute .shutdown env).state.after calls)) ↔ NothingStale f := by
  obtain ⟨down, same⟩ := execute_shutdown f env
  constructor
  · intro unchanged id d found
    by_contra stale
    rw [← same.decisions] at found
    rw [← sweepKeeps_congr same, Bool.not_eq_true] at stale
    have kept := (unchanged [(.invalidateStaleDecisions, env)]).decisions
    rw [after_cons, after_nil] at kept
    have gone := decisions_invalidate found stale env
    rw [kept, found] at gone
    cases gone
  · intro none calls
    exact after_of_shutdown down (none.congr same) calls

namespace Sample

/-- A decision is recorded, and then the member it is about moves on. -/
def outdatedOnce : Federation :=
  registered.after [(.evaluate (ident 20) firstId {}, env),
    (.transition firstId .admitted claim, env)]

theorem reaches_outdatedOnce : Reaches anyEvent opened outdatedOnce :=
  reaches_registered.trans (reaches_after _ _ fun _ _ _ _ => trivial)

theorem decisions_outdatedOnce :
    (outdatedOnce.execute .shutdown env).state.decisions.values.length = 1 ∧
      ((outdatedOnce.execute .shutdown env).state.after
        [(.invalidateStaleDecisions, env)]).decisions.values.length = 0 := by
  decide +kernel

end Sample

open Sample in
/-- A decision is swept after the federation was shut down. -/
theorem swept_after_shutdown : ∃ f calls, openOn .core config none env = .ok opened ∧
    Reaches anyEvent opened f ∧
    ¬ SameContent (f.execute .shutdown env).state ((f.execute .shutdown env).state.after calls) := by
  refine ⟨outdatedOnce, [(.invalidateStaleDecisions, env)], openOn_eq, reaches_outdatedOnce, ?_⟩
  intro same
  obtain ⟨before, after⟩ := decisions_outdatedOnce
  rw [same.decisions, before] at after
  cases after

end Haf
