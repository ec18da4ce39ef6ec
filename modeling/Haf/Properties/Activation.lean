/-
# Real evidence for active members

A policy can require real evidence for active membership. The handler of advertisements
asks for it when it activates an admitted member. It does not ask when it restores a
degraded member, and nothing asks when an agent requests the move itself. So the gate
holds in a run if no member without real evidence is moved to be active by a request, and
none that is degraded is advertised without it.
-/

import Haf.Properties.Attendance
import Haf.Properties.Evidence

namespace Haf.Net

open Federation Sequence

/-! ### The gate -/

/-- No member without real evidence has become active. -/
def RealGate (f g : Federation) : Prop :=
  ∀ k entry, g.members.get? k = some entry → entry.record.state = .active →
    entry.record.provenance = .real ∨
      ∃ entry₀, f.members.get? k = some entry₀ ∧ entry₀.record.state = .active

/-- No call of a sequence makes a member active without real evidence. -/
def KeepsGate (f : Federation) (calls : List Call) : Prop :=
  ∀ before call rest, calls = before ++ call :: rest →
    RealGate (f.after before) (f.after (before ++ [call]))

/-- An event that does not go around the gate:
* a member is moved to be active at the request of an agent only if its evidence is real;
* a member that is degraded is advertised only with real evidence. -/
def Gated (plane : ControlPlane) : PlaneEvent → Prop
  | .disconnected _ _ => True
  | .request r =>
      (r.type = .transition → ∀ session request entry, Requested plane r session request →
        request.target = .active →
        plane.federation.members.get? request.accelerator = some entry →
        plane.federation.validateMemberAuthority request.claim entry.record
          request.accelerator = .ok () →
        entry.record.state.isLegalTransition .active = true →
        entry.record.provenance = .real) ∧
      (r.type = .advertise → ∀ session request d entry, Advertised plane r session request →
        d ∈ request.devices → plane.federation.members.get? d.id = some entry →
        entry.record.state = .degraded → d.provenance = .real)

/-! ### Calls -/

/-- A call keeps the gate if it makes no member active but one with real evidence. -/
theorem realGate_execute {g : Federation} {c : Command} {env : Environment}
    (activates : ∀ k claim before after, c = .transition k .active claim →
      g.members.get? k = some before → before.record.state ≠ .active →
      (g.execute c env).state.members.get? k = some after → after.record.state = .active →
      before.record.provenance = .real) : RealGate g (g.execute c env).state := by
  intro k after located active
  rcases continues_of_execute located with ⟨before, found, continues⟩ | ⟨_, joins⟩
  · by_cases already : before.record.state = .active
    · exact .inr ⟨before, found, already⟩
    · obtain ⟨⟨claim, asked⟩, kept⟩ :=
        (continues.entered active nofun nofun).resolve_left already
      left
      rw [kept]
      exact activates k claim before after asked found already located active
  · rw [joins.state] at active
    cases active

theorem policy_execute {f : Federation} {c : Command} {env : Environment}
    (other : ∀ p claim, c ≠ .setPolicy p claim) : (f.execute c env).state.policy = f.policy := by
  apply @Conduct.keeps f env c _ (fun g => g.policy = f.policy) (f.execute_conduct c env)
    (fun _ _ kept => kept) (fun _ kept => kept) _ rfl
  intro g change
  cases change with
  | policy authority valid => exact absurd rfl (other _ _)
  | enrolled | observedAgain | moved | updated | workload | evaluated | planned | advanced
  | aborted | swept | persisted | shutdown => rfl

/-- The first calls of a sequence are made for the same reasons. -/
theorem Each.of_append {may : Federation → Command → Prop} {f : Federation}
    {calls later : List Call} (each : Each may f (calls ++ later)) : Each may f calls := by
  intro before call rest split
  apply each before call (rest ++ later)
  rw [split, List.append_assoc]
  rfl

section Requests

variable {plane : ControlPlane} {r : Request}

/-- The moves that lead to activity, and that no other move is made. -/
theorem Promotes.cases {policy : FederationPolicy} {provenance : EvidenceProvenance}
    {s target : MemberState} (promotes : Promotes policy provenance s target) :
    target = .admitted ∨ target = .active ∧ (Ungated policy provenance ∨ s = .degraded) := by
  cases promotes with
  | admits => exact .inl rfl
  | activates ungated => exact .inr ⟨rfl, .inl ungated⟩
  | restores => exact .inr ⟨rfl, .inr rfl⟩

/-- The members that are degraded now were so when the request came. -/
def DegradedBefore (plane : ControlPlane) (g : Federation) : Prop :=
  ∀ k entry, g.members.get? k = some entry → entry.record.state = .degraded →
    ∃ entry₀, plane.federation.members.get? k = some entry₀ ∧ entry₀.record.state = .degraded

/-- An advertisement degrades nothing. -/
theorem DegradedBefore.warranted {g : Federation} {c : Command} {env : Environment}
    (type : r.type = .advertise) (before : DegradedBefore plane g)
    (warranted : Warranted plane r g c) : DegradedBefore plane (g.execute c env).state := by
  intro k after located degraded
  rcases continues_of_execute located with ⟨entry, found, continues⟩ | ⟨_, joins⟩
  · rcases continues.entered degraded nofun nofun with already | ⟨⟨claim, asked⟩, _⟩
    · exact before k entry found already
    · cases warranted with
      | promoted _ _ _ _ _ _ _ promotes =>
          cases asked
          rcases promotes.cases with other | ⟨other, _⟩ <;> cases other
      | moved other | evaluated other | planned other | registered other =>
          rw [type] at other
          cases other
      | observed => cases asked
  · rw [joins.state] at degraded
    cases degraded

theorem not_setPolicy_of_warranted {g : Federation} {c : Command}
    (warranted : Warranted plane r g c) (p : FederationPolicy) (claim : AuthorityClaim) :
    c ≠ .setPolicy p claim := by
  intro same
  cases warranted <;> cases same

/-- A call that a request leads to keeps the gate. -/
theorem realGate_of_warranted {g : Federation} {c : Command} {env : Environment}
    (required : plane.federation.policy.requireRealEvidenceForActive = true)
    (gated : Gated plane (.request r))
    (degraded : r.type = .advertise → DegradedBefore plane g)
    (warranted : Warranted plane r g c) : RealGate g (g.execute c env).state := by
  apply realGate_execute
  intro k claim before after asked found inactive located active
  cases warranted with
  | @promoted session request d entry target type accepted listed found' _ provenance _ promotes =>
      cases asked
      cases found.symm.trans found'
      rcases promotes.cases with other | ⟨_, ungated | state⟩
      · cases other
      · exact ungated required
      · obtain ⟨entry₀, located₀, degraded₀⟩ := degraded type d.id before found state
        rw [provenance]
        exact gated.2 type session request d entry₀ accepted listed located₀ degraded₀
  | @moved session request type accepted first =>
      obtain ⟨named, wanted, _⟩ := Command.transition.inj asked
      subst first named
      have changed : plane.federation.members.get? request.accelerator ≠ some after := by
        intro same
        cases found.symm.trans same
        exact inactive active
      obtain ⟨entry, found', authority, legal⟩ := passes_of_transition located changed
      cases found.symm.trans found'
      rw [wanted] at legal
      exact gated.1 type session request before accepted wanted found authority legal
  | observed | evaluated | planned | registered => cases asked

/-- The calls of a request keep the gate, and leave the policy. -/
theorem keepsGate_work (texts : Rendering)
    (required : plane.federation.policy.requireRealEvidenceForActive = true)
    (gated : Gated plane (.request r)) :
    KeepsGate plane.federation (plane.work texts r).calls ∧
      (plane.work texts r).plane.federation.policy = plane.federation.policy := by
  obtain ⟨federation, made⟩ := @calls_work plane r texts
  constructor
  · intro before call rest split
    have each := made
    rw [split] at each
    rw [after_append]
    apply realGate_of_warranted required gated _ (made before call rest split)
    intro type
    apply each.of_append.keeps (fun k entry found degraded => ⟨entry, found, degraded⟩)
    intro g c env earlier warranted
    exact earlier.warranted type warranted
  · rw [federation]
    refine @Each.keeps _ _ _ (fun g => g.policy = plane.federation.policy) made rfl ?_
    intro g c env same warranted
    rw [policy_execute (not_setPolicy_of_warranted warranted), same]

end Requests

/-! ### Runs -/

/-- Whatever happens to a control plane, its policy is the one it was created with, and the gate
holds at each call if the event does not go around it. -/
theorem keepsGate_event (texts : Rendering) {plane : ControlPlane} {e : PlaneEvent}
    (required : plane.federation.policy.requireRealEvidenceForActive = true)
    (gated : Gated plane e) : KeepsGate plane.federation (e.work texts plane).calls ∧
      (e.work texts plane).plane.federation.policy = plane.federation.policy := by
  cases e with
  | request r => exact keepsGate_work texts required gated
  | disconnected connection envs =>
      have accounted := accounted_disconnect plane connection envs
      constructor
      · intro before call rest split
        obtain ⟨a, claim, fence⟩ := accounted.each before call rest split
        rw [after_append]
        apply realGate_execute
        intro k claim' _ _ asked
        cases fence.symm.trans asked
      · show (plane.disconnect connection envs).plane.federation.policy = _
        rw [accounted.federation]
        refine @Each.keeps _ _ _ (fun g => g.policy = plane.federation.policy) accounted.each rfl ?_
        rintro g c env same ⟨a, claim, rfl⟩
        rw [policy_execute (fun _ _ other => Command.noConfusion other), same]

/-- **The gate for real evidence.** In every run of a control plane whose policy requires real
evidence for active membership, and whose events do not go around the gate, no call makes a
member active whose provenance is not real. -/
theorem keepsGate_of_gated (texts : Rendering) {plane₀ plane : ControlPlane} {e : PlaneEvent}
    (required : plane₀.federation.policy.requireRealEvidenceForActive = true)
    (reached : Run.Reaches (PlaneStep texts) Gated plane₀ plane) (gated : Gated plane e) :
    KeepsGate plane.federation (e.work texts plane).calls := by
  have kept : plane.federation.policy.requireRealEvidenceForActive = true := by
    clear gated
    induction reached with
    | refl => exact required
    | next _ permitted taken ih =>
        rw [taken, (keepsGate_event texts ih permitted).2]
        exact ih
  exact (keepsGate_event texts kept gated).1

namespace Sample

open Haf.Sample

/-- A policy that requires real evidence. -/
def gatedPolicy : FederationPolicy :=
  { id := ident 40, generation := ⟨1⟩, requireRealEvidenceForActive := true }

def gatedConfig : ControlPlaneConfig := { planeConfig with policy := gatedPolicy }

def gatedOpened : Federation :=
  (constructed .core { config with policy := gatedPolicy } none env).fresh.saved env

/-- The control plane over an empty store, under that policy. -/
def gatedFresh : ControlPlane := ⟨gatedConfig, gatedOpened, ∅⟩

theorem create_gated : ControlPlane.create .core gatedConfig none env = .ok gatedFresh := rfl

/-- The first boot has made its handshake. -/
def gatedGreeted : ControlPlane := gatedFresh.establish connection hello

/-- The first boot has also advertised its device, as a synthetic one. -/
def gatedEquipped : ControlPlane :=
  (gatedGreeted.work texts (listingRequest synthetic false)).plane

/-- The device is admitted and not active, and its boot may ask for it to be made active. -/
theorem standing_gatedEquipped :
    (∃ entry, gatedEquipped.federation.members.get? firstId = some entry ∧
      entry.record.state = .admitted ∧ entry.record.provenance = .synthetic) ∧
    (∃ session, gatedEquipped.sessions[connection.id]? = some session ∧ session.role = .agent ∧
      session.epoch = gatedEquipped.federation.epoch ∧ ident 2 = session.agent ∧
      ident 3 = session.agentBoot) ∧
    ∃ entry, (gatedEquipped.federation.execute (.transition firstId .active movingClaim)
      env).state.members.get? firstId = some entry ∧ entry.record.state = .active ∧
        entry.record.provenance = .synthetic := by
  decide +kernel

/-- The request of the first boot to make its device active. -/
def activationMessage : TransitionRequest :=
  { accelerator := firstId, target := .active, claim := movingClaim }

def activationRequest : Request :=
  { connection, type := .transition, payload := activationMessage.encodeMessage, envs }

theorem requested_activation : ∃ session,
    Requested gatedEquipped activationRequest session activationMessage := by
  obtain ⟨session, found, role, epoch, agent, boot⟩ := standing_gatedEquipped.2.1
  exact ⟨session, ⟨found, role, epoch⟩, decode_of_reads (readTransitionRequest_reads _)
    (by decide) (by decide), agent, boot⟩

theorem step_gatedListing :
    PlaneStep texts gatedGreeted (.request (listingRequest synthetic false)) gatedEquipped := by
  rw [gatedEquipped]
  rfl

end Sample

open Haf.Sample Sample in
/-- A synthetic device that is advertised is admitted and does not get past the gate. -/
theorem keepsGate_synthetic :
    (∃ entry, gatedEquipped.federation.members.get? firstId = some entry ∧
      entry.record.state = .admitted ∧ entry.record.provenance = .synthetic) ∧
    KeepsGate gatedGreeted.federation
      (PlaneEvent.work texts gatedGreeted (.request (listingRequest synthetic false))).calls := by
  have greets : Gated gatedFresh (.request helloRequest) := ⟨nofun, nofun⟩
  have lists : Gated gatedGreeted (.request (listingRequest synthetic false)) := by
    refine ⟨nofun, fun _ _ _ d entry _ _ found _ => ?_⟩
    have absent : gatedGreeted.federation.members.get? d.id = none := Keyed.get?_empty d.id
    rw [absent] at found
    cases found
  have required : gatedFresh.federation.policy.requireRealEvidenceForActive = true := rfl
  refine ⟨standing_gatedEquipped.1, ?_⟩
  exact keepsGate_of_gated texts required
    (.next (e := .request helloRequest) .refl greets (step_hello rfl)) lists

open Haf.Sample Sample in
/-- The same device becomes active when its agent asks for it. -/
theorem synthetic_activated : ∃ plane₀ plane,
    ControlPlane.create .core gatedConfig none env = .ok plane₀ ∧
      plane₀.federation.policy.requireRealEvidenceForActive = true ∧
      Run.Reaches (PlaneStep texts) (fun _ _ => True) plane₀ plane ∧
      ¬ KeepsGate plane.federation
        (PlaneEvent.work texts plane (.request activationRequest)).calls := by
  refine ⟨gatedFresh, gatedEquipped, create_gated, rfl, ?_, ?_⟩
  · apply Run.Reaches.next (e := .request (listingRequest synthetic false)) _ trivial
      step_gatedListing
    exact .next (e := .request helloRequest) .refl trivial (step_hello rfl)
  · intro keeps
    obtain ⟨session, accepted⟩ := requested_activation
    obtain ⟨⟨entry, found, admitted, _⟩, _, entry', found', active, synthetic⟩ :=
      standing_gatedEquipped
    have worked : (PlaneEvent.work texts gatedEquipped (.request activationRequest)).calls =
        [] ++ (.transition firstId .active movingClaim, env) :: [] := by
      show (gatedEquipped.work texts activationRequest).calls = _
      rw [work_transition texts rfl accepted]
      rfl
    have gate : RealGate gatedEquipped.federation (gatedEquipped.federation.execute
        (.transition firstId .active movingClaim) env).state := by
      simpa only [List.nil_append, after_cons, after_nil] using keeps [] _ [] worked
    rcases gate firstId entry' found' active with real | ⟨entry₀, located, already⟩
    · rw [synthetic] at real
      cases real
    · cases found.symm.trans located
      rw [admitted] at already
      cases already

end Haf.Net
