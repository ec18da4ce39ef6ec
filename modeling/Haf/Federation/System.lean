/-
# The federation as a system

The public operations that can change a federation are the commands; a command is
executed in an environment. Between commands the process may stop and a later one
may open the same store again. Runs of the federation are sequences of such events.
-/

import Haf.Federation.Recovery
import Haf.Lib.Run

namespace Haf

/-- A call to a public operation that may change the federation. -/
inductive Command
  | observe (descriptor : AcceleratorDescriptor) (claim : AuthorityClaim)
  | transition (accelerator : AcceleratorId) (target : MemberState) (claim : AuthorityClaim)
  | updateCapabilities (accelerator : AcceleratorId) (capabilities : CapabilitySet)
      (evidence : EvidenceRecord) (claim : AuthorityClaim)
  | setPolicy (policy : FederationPolicy) (claim : AuthorityClaim)
  | registerWorkload (profile : WorkloadProfile) (claim : AuthorityClaim)
  | evaluate (workload : WorkloadClassId) (accelerator : AcceleratorId)
      (options : EvaluationOptions)
  | planMigration (workload : WorkloadClassId) (source destination : AcceleratorId)
      (claim : AuthorityClaim)
  | advanceMigration (id : MigrationPlanId) (target : MigrationState) (claim : AuthorityClaim)
  | abortMigration (id : MigrationPlanId) (reason : Bytes) (claim : AuthorityClaim)
  | invalidateStaleDecisions
  | persist
  | shutdown

/-- What a successful call returns. -/
inductive Reply
  | member (record : MemberRecord)
  | policy (generation : PolicyGeneration)
  | workload (revision : WorkloadRevision)
  | decision (decision : CompatibilityDecision)
  | plan (plan : MigrationPlan)
  | swept (removed : Nat)
  | done

/-- The outcome with the returned value read as a reply. -/
def Outcome.map {α β : Type} (convert : α → β) (o : Outcome α) : Outcome β :=
  ⟨o.result.map convert, o.fault, o.state⟩

namespace Federation

def execute (f : Federation) (command : Command) (env : Environment) : Outcome Reply :=
  match command with
  | .observe d claim => (f.observe d claim env).map .member
  | .transition a target claim => (f.transition a target claim env).map .member
  | .updateCapabilities a capabilities evidence claim =>
      (f.updateCapabilities a capabilities evidence claim env).map .member
  | .setPolicy policy claim => (f.setPolicy policy claim env).map .policy
  | .registerWorkload profile claim => (f.registerWorkload profile claim env).map .workload
  | .evaluate workload a options => (f.evaluate workload a options env).map .decision
  | .planMigration workload source destination claim =>
      (f.planMigration workload source destination claim env).map .plan
  | .advanceMigration id target claim => (f.advanceMigration id target claim env).map .plan
  | .abortMigration id reason claim => (f.abortMigration id reason claim env).map .plan
  | .invalidateStaleDecisions => (f.invalidateStaleDecisions env).map .swept
  | .persist => (f.persist env).map fun _ => .done
  | .shutdown => (f.shutdown env).map fun _ => .done

end Federation

/-- A command and the environment in which it is executed. -/
abbrev Call := Command × Environment

/-- The federation after a sequence of calls. -/
def Federation.after (f : Federation) (calls : List Call) : Federation :=
  calls.foldl (fun g call => (g.execute call.1 call.2).state) f

/-- An event of a run: a call, or a later process opening the store again. -/
inductive Event
  | call (command : Command) (env : Environment)
  | reopen (registry : Registry) (config : FederationConfig) (env : Environment)

/-- One event takes a federation to another. Reopening needs a file, and its content is what
the last instance left there. -/
def Step (f : Federation) : Event → Federation → Prop
  | .call command env, g => g = (f.execute command env).state
  | .reopen R config env, g =>
      f.store.kind = .file ∧ config.storePath ≠ [] ∧
        Federation.openOn R config f.store.payload env = .ok g

/-- The states a federation reaches by allowed events. -/
abbrev Reaches (allowed : Federation → Event → Prop) (f g : Federation) : Prop :=
  Run.Reaches Step allowed f g

/-- Every event is allowed. -/
def anyEvent (_ : Federation) (_ : Event) : Prop := True

namespace Federation

@[simp]
theorem after_nil (f : Federation) : f.after [] = f := rfl

@[simp]
theorem after_cons (f : Federation) (call : Call) (calls : List Call) :
    f.after (call :: calls) = (f.execute call.1 call.2).state.after calls := rfl

@[simp]
theorem after_append (f : Federation) (calls later : List Call) :
    f.after (calls ++ later) = (f.after calls).after later := List.foldl_append

/-- A sequence of calls is a run. -/
theorem reaches_after {allowed : Federation → Event → Prop} (f : Federation) (calls : List Call)
    (permitted : ∀ before call rest, calls = before ++ call :: rest →
      allowed (f.after before) (.call call.1 call.2)) : Reaches allowed f (f.after calls) := by
  induction calls using List.reverseRecOn with
  | nil => exact .refl
  | append_singleton calls call ih =>
      rw [after_append]
      refine .next (ih ?_) (permitted calls call [] rfl) rfl
      rintro before other rest rfl
      exact permitted before other (rest ++ [call]) (by simp)

end Federation

end Haf
