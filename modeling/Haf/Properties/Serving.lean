/-
# What a connection can do

Behind a server the federation is driven by whatever bytes arrive. It is shown that they lead to
the calls of the request handlers and to nothing else: no stream of bytes sets the policy, commits
a migration or shuts the federation down.
-/

import Haf.Net.Server
import Haf.Properties.Activation

namespace Haf

/-- The calls that requests and disconnections make. -/
def Command.isRemote : Command → Bool
  | .observe .. | .transition .. | .registerWorkload .. | .evaluate .. | .planMigration .. => true
  | _ => false

def RemoteCall (_ : Federation) : Event → Prop
  | .call c _ => c.isRemote = true
  | .reopen .. => False

variable {f g : Federation}

theorem authority_of_remote (run : Reaches RemoteCall f g) :
    g.policy = f.policy ∧ g.epoch = f.epoch := by
  induction run with
  | refl => exact ⟨rfl, rfl⟩
  | @next g _ e _ remote taken ih =>
      cases e with
      | reopen => cases remote
      | call c env =>
          cases taken
          refine ⟨(Net.policy_execute ?_).trans ih.1, (epoch_execute g c env).trans ih.2⟩
          rintro p claim rfl
          cases remote

/-- What is committed in the second federation was committed in the first. -/
def CommittedBefore (f g : Federation) : Prop :=
  ∀ p plan, g.plans.get? p = some plan → plan.state = .committed →
    ∃ earlier, f.plans.get? p = some earlier ∧ earlier.state = .committed

theorem committedBefore_of_remote (run : Reaches RemoteCall f g) : CommittedBefore f g := by
  induction run with
  | refl => exact fun _ plan found committed => ⟨plan, found, committed⟩
  | @next g _ e _ remote taken ih =>
      cases e with
      | reopen => cases remote
      | call c env =>
          cases taken
          refine @Conduct.keeps g env c _ (CommittedBefore f) (g.execute_conduct c env)
            (fun _ _ kept => kept) (fun _ kept => kept) ?_ ih
          intro h change p plan found committed
          obtain ⟨plan₀, found₀, _, was | ⟨_, _, _, rfl, _⟩⟩ :=
            (found ▸ change.plan p).committed committed
          · exact ih p plan₀ found₀ was
          · cases remote

namespace Net

/-- The events of a control plane take its federation through remote calls. -/
theorem reaches_of_leads {texts : Rendering} {start plane : ControlPlane}
    (leads : Leads texts start plane) : Reaches RemoteCall start.federation plane.federation := by
  induction leads with
  | refl => exact .refl
  | @next plane _ e _ _ taken earlier =>
      cases taken
      cases e with
      | disconnected connection envs =>
          have accounted := accounted_disconnect plane connection envs
          refine accounted.federation ▸ accounted.each.keeps earlier ?_
          rintro g c env run ⟨a, claim, rfl⟩
          exact run.next (e := .call (.transition a .fenced claim) env) rfl rfl
      | request r =>
          obtain ⟨federation, each⟩ := @calls_work plane r texts
          refine federation ▸ each.keeps earlier ?_
          intro g c env run warranted
          have remote : c.isRemote = true := by cases warranted <;> rfl
          exact run.next (e := .call c env) remote rfl

section Serving

variable (texts : Rendering) (config : ServerConfig) (turns : Nat → Turn) (last : Turn)
  (connection : ConnectionState) (plane : ControlPlane) (stream : Bytes)

/-- **What a connection can do.** Whatever bytes arrive on a connection, and whatever happens on
others meanwhile, the federation goes through remote calls only. -/
theorem serving_makes_remote_calls : Reaches RemoteCall plane.federation
    (serveConnection config texts turns last connection plane stream).2.federation :=
  reaches_of_leads (leads_serveConnection texts config turns last connection plane stream)

/-- No connection changes the policy or the epoch under which the federation decides. -/
theorem serving_keeps_authority :
    (serveConnection config texts turns last connection plane stream).2.federation.policy =
        plane.federation.policy ∧
      (serveConnection config texts turns last connection plane stream).2.federation.epoch =
        plane.federation.epoch :=
  authority_of_remote (reaches_of_leads (leads_serveConnection ..))

/-- No connection commits a migration. -/
theorem serving_commits_nothing : CommittedBefore plane.federation
    (serveConnection config texts turns last connection plane stream).2.federation :=
  committedBefore_of_remote (reaches_of_leads (leads_serveConnection ..))

end Serving

end Net

end Haf
