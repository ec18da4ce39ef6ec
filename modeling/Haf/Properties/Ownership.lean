/-
# Members of other agents

A request is worked on under the session of its connection. Advertisements are held to
the agent and boot of that session. A request to move a member is held to them only in
the claim it carries, and the claim is compared with the owner of the member only if it
asks for that: without its flags, an agent moves the members of any other.
-/

import Haf.Net.Requests
import Haf.Properties.Footprint

namespace Haf.Net

open Federation Sequence

/-! ### Calls and the members of others -/

section Calls

variable {f : Federation} {env : Environment} {k : AcceleratorId} {entry : MemberEntry}

/-- A member that no change of a command touches stays. -/
theorem stays {c : Command} (found : f.members.get? k = some entry)
    (untouched : ∀ g, Change f env c g → g.members.get? k = some entry) :
    (f.execute c env).state.members.get? k = some entry :=
  @Conduct.keeps f env c _ (fun g => g.members.get? k = some entry) (f.execute_conduct c env)
    (fun _ _ kept => kept) (fun _ kept => kept) untouched found

theorem get?_withMember_self (named : entry.record.accelerator = k) :
    (f.withMember entry).members.get? k = some entry :=
  (Keyed.get?_insert f.members entry k).trans (if_pos named)

theorem get?_withMember_of_ne (other : entry.record.accelerator ≠ k) :
    (f.withMember entry).members.get? k = f.members.get? k :=
  (Keyed.get?_insert f.members entry k).trans (if_neg other)

/-- Observing a device touches the members of its own agent, and the one with its identity if
that is the derived one. -/
theorem get?_observe_of_agent_ne {d : AcceleratorDescriptor} {claim : AuthorityClaim}
    (found : f.members.get? k = some entry) (foreign : entry.record.agent ≠ d.agent)
    (apart : deriveAcceleratorId d.physicalDevice d.agent d.agentBoot d.generation = d.id →
      k ≠ d.id) :
    (f.execute (.observe d claim) env).state.members.get? k = some entry := by
  apply stays found
  intro g change
  cases change with
  | enrolled authority valid derived alone absent =>
      have spared : entry.succeeded d env = entry := by
        rw [MemberEntry.succeeded, if_neg]
        simp [foreign]
      have other : (f.enrolledRecord d (env.wall .member)).accelerator ≠ k :=
        Ne.symm (apart derived)
      have inserted := Keyed.get?_insert_of_ne ((f.incarnations d.physicalDevice).foldl
        (supersede d env) f.members)
        (b := ⟨f.enrolledRecord d (env.wall .member), d, rfl⟩) other
      apply inserted.trans
      rw [get?_foldl_supersede, found, Option.map_some, spared, ite_self]
  | @observedAgain _ _ seen authority valid located same open_ unfenced boot derived =>
      have named := (seen.record_observedAgain f d same (env.wall .member)).2.1.trans same.symm
      rw [get?_withMember_of_ne (named ▸ Ne.symm (apart derived))]
      exact found

/-- Moving a member touches that member. -/
theorem get?_transition_of_ne {a : AcceleratorId} {target : MemberState}
    {claim : AuthorityClaim} (found : f.members.get? k = some entry) (other : k ≠ a) :
    (f.execute (.transition a target claim) env).state.members.get? k = some entry := by
  apply stays found
  intro g change
  cases change with
  | @moved _ _ _ seen located authority legal =>
      have named := Keyed.key_of_get? located
      have apart : (seen.moved f target (env.wall .member)).record.accelerator ≠ k :=
        fun same => other (same.symm.trans named)
      rw [get?_withMember_of_ne apart]
      exact found

end Calls

/-! ### Requests and the members of others -/

/-- The members of other agents keep their record and their descriptor. -/
def OthersKept (agent : AgentId) (f g : Federation) : Prop :=
  ∀ k entry, f.members.get? k = some entry → entry.record.agent ≠ agent →
    g.members.get? k = some entry

/-- A request to move a member of another agent, which every check lets pass. -/
def Trespasses (plane : ControlPlane) (r : Request) (session : SessionData) : Prop :=
  r.type = .transition ∧ ∃ request entry, Requested plane r session request ∧
    plane.federation.members.get? request.accelerator = some entry ∧
    entry.record.agent ≠ session.agent ∧
    plane.federation.validateMemberAuthority request.claim entry.record request.accelerator =
      .ok () ∧
    entry.record.state.isLegalTransition request.target = true

/-- No identity derived for an advertised device, from this agent and the other fields, is the
identity of a member of another agent. -/
def Unimpersonated (plane : ControlPlane) (r : Request) (agent : AgentId) : Prop :=
  r.type = .advertise → ∀ request,
    decodeAdvertiseRequest plane.federation.registry r.payload = .ok request →
    ∀ d ∈ request.devices,
      deriveAcceleratorId d.physicalDevice d.agent d.agentBoot d.generation = d.id →
      ∀ entry, plane.federation.members.get? d.id = some entry → entry.record.agent = agent

section Requests

variable {plane : ControlPlane} {r : Request} {session : SessionData}

/-- A warranted call that does not trespass keeps the members of others. -/
theorem OthersKept.warranted {g : Federation} {c : Command} (env : Environment)
    (established : plane.sessions[r.connection.id]? = some session)
    (distinct : Unimpersonated plane r session.agent) (peaceful : ¬ Trespasses plane r session)
    (kept : OthersKept session.agent plane.federation g) (warranted : Warranted plane r g c) :
    OthersKept session.agent plane.federation (g.execute c env).state := by
  intro k entry found foreign
  have located := kept k entry found foreign
  cases warranted with
  | @observed session' request d type accepted listed =>
      cases established.symm.trans accepted.standing.established
      apply get?_observe_of_agent_ne located
      · rw [(accepted.owned d listed).1]
        exact foreign
      · rintro derived rfl
        exact foreign (distinct type request accepted.decoded d listed derived entry found)
  | @promoted session' request d _ _ type accepted listed _ _ _ derived =>
      apply get?_transition_of_ne located
      rintro rfl
      exact foreign (distinct type request accepted.decoded d listed derived entry found)
  | @moved session' request type accepted first =>
      cases established.symm.trans accepted.standing.established
      subst first
      by_cases here : k = request.accelerator
      · -- the checks of the move fail, so that nothing changes
        subst here
        apply stays found
        intro g change
        cases change with
        | moved stored authority legal =>
            rw [found] at stored
            cases stored
            exact absurd ⟨type, request, entry, accepted, found, foreign, authority, legal⟩
              peaceful
      · exact get?_transition_of_ne located here
  | evaluated | planned | registered =>
      apply stays located
      intro h change
      cases change
      exact located

/-- A legal move leads to another state. -/
theorem ne_of_isLegalTransition {source target : MemberState}
    (legal : source.isLegalTransition target = true) : source ≠ target := by
  rintro rfl
  cases source <;> cases legal

/-- A move that passes every check is carried out. -/
theorem get?_transition_of_passes {f : Federation} {env : Environment} {a : AcceleratorId}
    {target : MemberState} {claim : AuthorityClaim} {entry : MemberEntry}
    (found : f.members.get? a = some entry)
    (authority : f.validateMemberAuthority claim entry.record a = .ok ())
    (legal : entry.record.state.isLegalTransition target = true) :
    (f.execute (.transition a target claim) env).state.members.get? a =
      some (entry.moved f target (env.wall .member)) := by
  have settled : f.settleTransition a target claim env = .ok (.changed
      (entry.moved f target (env.wall .member)).record
      (f.withMember (entry.moved f target (env.wall .member)))) := by
    have term : f.validateAuthority claim = .ok () := by
      simp only [validateMemberAuthority, bind_eq_ok] at authority
      obtain ⟨_, term, _⟩ := authority
      exact term
    simp only [settleTransition, bind_eq_ok, memberEntry_eq_ok]
    refine ⟨(), term, entry, found, (), authority, ?_⟩
    rw [if_neg (ne_of_isLegalTransition legal)]
    exact bind_eq_ok.mpr ⟨(), ensure_eq_ok.mpr legal, rfl⟩
  have named := Keyed.key_of_get? found
  show (f.transition a target claim env).state.members.get? a = _
  rw [transition, settled, members_conclude_changed]
  exact get?_withMember_self named

/-- A request that trespasses is carried out on the member it names. -/
theorem Trespasses.not_othersKept (texts : Rendering) (trespass : Trespasses plane r session) :
    ¬ OthersKept session.agent plane.federation (plane.work texts r).plane.federation := by
  obtain ⟨type, request, entry, accepted, found, foreign, authority, legal⟩ := trespass
  intro kept
  have stayed := kept request.accelerator entry found foreign
  rw [work_transition texts type accepted] at stayed
  have carried := (get?_transition_of_passes found authority legal).symm.trans stayed
  have unmoved : request.target = entry.record.state :=
    congrArg (fun entry => entry.record.state) (Option.some.inj carried)
  exact ne_of_isLegalTransition legal unmoved.symm

/-- Under a session of an agent, whatever is requested, the members of other agents keep their
record and descriptor if and only if the request does not move one of them with a claim that
leaves out whose member it is. -/
theorem othersKept_iff (texts : Rendering)
    (established : plane.sessions[r.connection.id]? = some session)
    (distinct : Unimpersonated plane r session.agent) :
    OthersKept session.agent plane.federation (plane.work texts r).plane.federation ↔
      ¬ Trespasses plane r session := by
  constructor
  · intro kept trespass
    exact trespass.not_othersKept texts kept
  · intro peaceful
    obtain ⟨federation, each⟩ := @calls_work plane r texts
    rw [federation]
    exact each.keeps (fun k entry found _ => found)
      fun g c env kept warranted => kept.warranted env established distinct peaceful warranted

end Requests

namespace Sample

open Haf.Sample

def texts : Rendering := ⟨fun _ _ _ => [], fun _ => [], fun _ => []⟩

def envs : Nat → Environment := fun _ => env

def connection : ConnectionState := { id := ident 20 }

/-- A control plane with one session. -/
def planeOf (f : Federation) (session : SessionData) : ControlPlane where
  config := { federation := ident 9 }
  federation := f
  sessions := (∅ : SessionTable).insert connection.id session

theorem established (f : Federation) (session : SessionData) :
    (planeOf f session).sessions[connection.id]? = some session :=
  Std.ExtTreeMap.getElem?_insert_self

/-- The session of the boot 4 of the agent 5. -/
def stranger : SessionData :=
  { role := .agent, agent := ident 5, agentBoot := ident 4, epoch := ⟨1⟩ }

/-- A claim that names the stranger, to be compared or not. -/
def strangerClaim (compared : Bool) : AuthorityClaim :=
  { claim with agent := ident 5, agentBoot := ident 4, checkAgent := compared }

/-- The request to admit the member of the agent 2. -/
def admission (compared : Bool) : TransitionRequest :=
  { accelerator := firstId, target := .admitted, claim := strangerClaim compared }

def strangerRequest (compared : Bool) : Request :=
  { connection, type := .transition, payload := (admission compared).encodeMessage, envs }

theorem requested (compared : Bool) : Requested (planeOf observedOnce stranger)
    (strangerRequest compared) stranger (admission compared) where
  standing := ⟨established _ _, rfl, rfl⟩
  decoded := decode_of_reads (readTransitionRequest_reads _) (by cases compared <;> decide)
    (by cases compared <;> decide)
  named := ⟨rfl, rfl⟩

end Sample

open Haf.Sample Sample in
/-- An agent that asks for its claim to be compared is refused, and nothing is touched. -/
theorem othersKept_compared : OthersKept stranger.agent (planeOf observedOnce stranger).federation
    ((planeOf observedOnce stranger).work texts (strangerRequest true)).plane.federation := by
  have distinct : Unimpersonated (planeOf observedOnce stranger) (strangerRequest true)
      stranger.agent := by
    intro advertises
    cases advertises
  apply (othersKept_iff texts (established observedOnce stranger) distinct).mpr
  rintro ⟨_, request, entry, accepted, found, _, authority, _⟩
  cases (requested true).decoded.symm.trans accepted.decoded
  cases byFirst_first.get?_enrolledWith.symm.trans found
  exact absurd authority (by decide +kernel)

open Haf.Sample Sample in
/-- An agent that does not ask for it admits the member of another agent. -/
theorem admitted_by_stranger :
    ¬ OthersKept stranger.agent (planeOf observedOnce stranger).federation
      ((planeOf observedOnce stranger).work texts (strangerRequest false)).plane.federation := by
  have trespass : Trespasses (planeOf observedOnce stranger) (strangerRequest false) stranger :=
    ⟨rfl, admission false, enrolledEntry first, requested false,
      byFirst_first.get?_enrolledWith, by decide, by decide +kernel, by decide⟩
  exact trespass.not_othersKept texts

end Haf.Net
