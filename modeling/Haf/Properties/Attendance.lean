/-
# Active members and the sessions of their owners

A member is to be active only while a session of its agent and boot is established. A
connection that goes away has its members fenced. A farewell, or a second handshake on
the same connection, removes the session and fences nothing, so that the connection can
go away afterwards and leave its members active; and a claim that leaves out whose member
it is activates the member of an agent that has no session at all.
-/

import Haf.Properties.Advertisement
import Haf.Properties.Handshakes

namespace Haf.Net

open Federation Sequence

/-! ### What a call does to one member -/

/-- A call leaves the owner of a member alone. It leaves its state alone as well unless it asks
for another one, retires the member or drains it. -/
structure Continues (c : Command) (k : AcceleratorId) (before after : MemberEntry) : Prop where
  agent : after.record.agent = before.record.agent
  boot : after.record.agentBoot = before.record.agentBoot
  state : after.record.state = before.record.state ∨
    ((∃ claim, c = .transition k after.record.state claim) ∧
      after.record.provenance = before.record.provenance) ∨
    after.record.state = .retired ∨ after.record.state = .draining

/-- A member that was not there before has been observed and nothing else. -/
structure Joins (c : Command) (after : MemberEntry) : Prop where
  observed : ∃ d claim, c = .observe d claim ∧ after.record.agent = d.agent
  state : after.record.state = .observed

theorem Continues.refl (c : Command) (k : AcceleratorId) (entry : MemberEntry) :
    Continues c k entry entry := ⟨rfl, rfl, .inl rfl⟩

variable {c : Command} {k : AcceleratorId} {f : Federation}

/-- The ways into a state in which a member can work. -/
theorem Continues.entered {before after : MemberEntry}
    (continues : Continues c k before after) {s : MemberState} (reached : after.record.state = s)
    (unretired : s ≠ .retired) (undrained : s ≠ .draining) : before.record.state = s ∨
      (∃ claim, c = .transition k s claim) ∧
        after.record.provenance = before.record.provenance := by
  subst reached
  rcases continues.state with same | asked | retired | drained
  · exact .inl same.symm
  · exact .inr asked
  · exact absurd retired unretired
  · exact absurd drained undrained

theorem agent_observedAgain (entry : MemberEntry) (f : Federation) (d : AcceleratorDescriptor)
    (same : d.id = entry.record.accelerator) (now : Timestamp) :
    (entry.observedAgain f d same now).record.agent = entry.record.agent := by
  unfold MemberEntry.observedAgain
  split <;> rfl

/-- What a step of a member can do to it. -/
theorem MemberStep.continues {env : Environment}
    {before : Option MemberEntry} {after : MemberEntry}
    (step : MemberStep f env c before (some after)) (named : after.record.accelerator = k) :
    (∃ entry, before = some entry ∧ Continues c k entry after) ∨
      (before = none ∧ Joins c after) := by
  cases step with
  | same => exact .inl ⟨after, rfl, .refl c k after⟩
  | joined valid derived => exact .inr ⟨rfl, ⟨_, _, rfl, rfl⟩, rfl⟩
  | superseded now open_ => exact .inl ⟨_, rfl, rfl, rfl, .inr (.inr (.inl rfl))⟩
  | @observedAgain d claim entry valid same open_ boot found derived =>
      obtain ⟨state, _, _, kept⟩ := entry.record_observedAgain f d same (env.wall .member)
      exact .inl ⟨entry, rfl, agent_observedAgain entry f d same _, kept, .inl state⟩
  | @moved a target claim entry stored legal =>
      refine .inl ⟨entry, rfl, rfl, rfl, .inr (.inl ⟨⟨claim, ?_⟩, rfl⟩)⟩
      have here : a = k := stored.symm.trans named
      rw [here]
      rfl
  | updated => exact .inl ⟨_, rfl, rfl, rfl, .inl rfl⟩
  | @underPolicy p claim entry =>
      generalize p.refreshIdentity.generation = current
      exact .inl ⟨entry, rfl, rfl, rfl, .inl rfl⟩
  | drained => exact .inl ⟨_, rfl, rfl, rfl, .inr (.inr (.inr rfl))⟩

/-- What a call can do to a member. -/
theorem continues_of_execute {env : Environment}
    {after : MemberEntry}
    (found : (f.execute c env).state.members.get? k = some after) :
    (∃ entry, f.members.get? k = some entry ∧ Continues c k entry after) ∨
      (f.members.get? k = none ∧ Joins c after) := by
  have stays (kept : f.members.get? k = some after) :
      (∃ entry, f.members.get? k = some entry ∧ Continues c k entry after) ∨
        (f.members.get? k = none ∧ Joins c after) := .inl ⟨after, kept, .refl c k after⟩
  rcases (f.execute_conduct c env).state_cases with same | ⟨same, _⟩ | ⟨g, change, same⟩
  · rw [same] at found
    exact stays found
  · rw [same] at found
    exact stays found
  · have located : g.members.get? k = some after := by
      rcases same with same | same <;> rw [same] at found <;> exact found
    have named := Keyed.key_of_get? located
    have step := change.member k
    rw [located] at step
    exact MemberStep.continues step named

/-- A move that changes a member has passed its checks. -/
theorem passes_of_transition {env : Environment} {a : AcceleratorId}
    {target : MemberState} {claim : AuthorityClaim} {after : MemberEntry}
    (found : (f.execute (.transition a target claim) env).state.members.get? a = some after)
    (changed : f.members.get? a ≠ some after) : ∃ entry, f.members.get? a = some entry ∧
      f.validateMemberAuthority claim entry.record a = .ok () ∧
      entry.record.state.isLegalTransition target = true := by
  by_contra refused
  have kept : ∀ entry, f.members.get? a = entry →
      (f.execute (.transition a target claim) env).state.members.get? a = entry := by
    intro entry located
    apply @Conduct.keeps f env _ _ (fun g => g.members.get? a = entry) (f.execute_conduct _ env)
      (fun _ _ kept => kept) (fun _ kept => kept) _ located
    intro g change
    cases change with
    | moved stored authority legal => exact absurd ⟨_, stored, authority, legal⟩ refused
  exact changed (by rw [← found, kept _ rfl])

/-- A federation opened over no durable state has no members. -/
theorem openOn_none {R : Registry} {config : FederationConfig} {env : Environment}
    (opened : openOn R config none env = .ok f) :
    f.members = .empty ∧ f.isShutdown = false := by
  obtain ⟨g, written, found⟩ := openOn_eq_ok opened
  have empty : (constructed R config none env).store.payload = none := by
    unfold constructed
    dsimp only
    split <;> rfl
  have new : g = (constructed R config none env).fresh := by
    rcases found with ⟨_, new⟩ | ⟨payload, _, stored, _⟩
    · exact new
    · rw [empty] at stored
      cases stored
  rcases persistLocked_cases written with same | ⟨_, same⟩ <;>
    rw [same, new] <;> exact ⟨rfl, rfl⟩

/-! ### Attendance -/

theorem hasLiveBoot_eq_true {plane : ControlPlane} {agent : AgentId} {boot : AgentBootId} :
    plane.hasLiveBoot agent boot = true ↔ ∃ (id : SessionId) (session : SessionData),
      plane.sessions[id]? = some session ∧ session.isBoot agent boot = true := by
  rw [ControlPlane.hasLiveBoot, List.any_eq_true]
  constructor
  · rintro ⟨⟨id, session⟩, listed, bound⟩
    exact ⟨id, session, Std.ExtTreeMap.mem_toList_iff_getElem?_eq_some.mp listed, bound⟩
  · rintro ⟨id, session, found, bound⟩
    exact ⟨(id, session), Std.ExtTreeMap.mem_toList_iff_getElem?_eq_some.mpr found, bound⟩

/-- The sessions of a control plane attend to every active member of a federation. -/
def ControlPlane.Attends (plane : ControlPlane) (g : Federation) : Prop :=
  ∀ k entry, g.members.get? k = some entry → entry.record.state = .active →
    plane.hasLiveBoot entry.record.agent entry.record.agentBoot = true

/-- Every active member has an established session of its agent and boot. -/
def Attended (plane : ControlPlane) : Prop := plane.Attends plane.federation

/-- The session of a connection is the only one that attends to a member. -/
def ControlPlane.Alone (plane : ControlPlane) (connection : ConnectionState)
    (record : MemberRecord) : Prop :=
  (∃ session, plane.sessions[connection.id]? = some session ∧
    session.isBoot record.agent record.agentBoot = true) ∧
  ∀ (id : SessionId) (session : SessionData), plane.sessions[id]? = some session →
    id ≠ connection.id → session.isBoot record.agent record.agentBoot = false

/-- An event that takes from no active member the session it needs:
* a farewell is not sent over a connection whose session alone attends to an active member, and
  a handshake is repeated over such a connection only under the same agent and boot;
* a member is moved to be active only if its agent and boot have a session;
* no device is advertised with a derived identity that belongs to a member of another agent. -/
def Orderly (plane : ControlPlane) : PlaneEvent → Prop
  | .disconnected _ _ => True
  | .request r =>
      (r.type = .hello → ∀ request response, decodeHelloRequest r.payload = .ok request →
        plane.scanHello r.connection request = .ok response →
        ∀ k entry, plane.federation.members.get? k = some entry → entry.record.state = .active →
          plane.Alone r.connection entry.record →
          request.isBoot entry.record.agent entry.record.agentBoot = true) ∧
      (r.type = .goodbye → ∀ request, decodeGoodbyeRequest r.payload = .ok request →
        ∀ k entry, plane.federation.members.get? k = some entry → entry.record.state = .active →
          ¬ plane.Alone r.connection entry.record) ∧
      (r.type = .transition → ∀ session request entry, Requested plane r session request →
        request.target = .active →
        plane.federation.members.get? request.accelerator = some entry →
        plane.federation.validateMemberAuthority request.claim entry.record
          request.accelerator = .ok () →
        entry.record.state.isLegalTransition .active = true →
        plane.hasLiveBoot entry.record.agent entry.record.agentBoot = true) ∧
      ∀ session, plane.sessions[r.connection.id]? = some session →
        Unimpersonated plane r session.agent

/-! ### Requests that call the federation -/

section Requests

variable {plane : ControlPlane} {r : Request} {g : Federation}

/-- How far a request has got: the active members are attended to, and the owner of each member
is the one it had before the request or the one that advertises it. -/
structure Progress (plane : ControlPlane) (r : Request) (g : Federation) : Prop where
  attended : plane.Attends g
  running : g.isShutdown = false
  owners : ∀ k entry, g.members.get? k = some entry →
    (∃ entry₀, plane.federation.members.get? k = some entry₀ ∧
      entry.record.agent = entry₀.record.agent) ∨
    ∃ session, plane.sessions[r.connection.id]? = some session ∧
      entry.record.agent = session.agent

/-- A warranted call that makes a member active concerns a member that is attended to. -/
theorem Progress.hasLiveBoot {env : Environment} {c : Command} {k : AcceleratorId}
    {before after : MemberEntry} {claim : AuthorityClaim} (orderly : Orderly plane (.request r))
    (progress : Progress plane r g) (warranted : Warranted plane r g c)
    (activates : c = .transition k .active claim) (found : g.members.get? k = some before)
    (located : (g.execute c env).state.members.get? k = some after)
    (active : after.record.state = .active) (inactive : before.record.state ≠ .active) :
    plane.hasLiveBoot before.record.agent before.record.agentBoot = true := by
  obtain ⟨_, _, moves, distinct⟩ := orderly
  cases warranted with
  | @promoted session request d entry target type accepted listed found' boot _ derived =>
      cases activates
      cases found.symm.trans found'
      have standing := accepted.standing
      obtain ⟨agent, owned⟩ := accepted.owned d listed
      have named : before.record.agent = session.agent := by
        rcases progress.owners d.id before found with ⟨entry₀, located₀, same⟩ | ⟨_, same, named⟩
        · rw [same]
          exact distinct session standing.established type request accepted.decoded d listed
            derived entry₀ located₀
        · cases standing.established.symm.trans same
          exact named
      rw [hasLiveBoot_eq_true]
      refine ⟨r.connection.id, session, standing.established, ?_⟩
      simp [SessionData.isBoot, standing.agent, named, boot, owned]
  | @moved session request type accepted first =>
      obtain ⟨named, wanted, _⟩ := Command.transition.inj activates
      subst first named
      have changed : plane.federation.members.get? request.accelerator ≠ some after := by
        intro same
        cases found.symm.trans same
        exact inactive active
      obtain ⟨entry, found', authority, legal⟩ := passes_of_transition located changed
      cases found.symm.trans found'
      rw [wanted] at legal
      exact moves type session request before accepted wanted found authority legal
  | observed | evaluated | planned | registered => cases activates

theorem Progress.warranted {env : Environment} {c : Command}
    (orderly : Orderly plane (.request r)) (progress : Progress plane r g)
    (warranted : Warranted plane r g c) : Progress plane r (g.execute c env).state where
  attended := by
    intro k after located active
    rcases continues_of_execute located with ⟨before, found, continues⟩ | ⟨_, joins⟩
    · rw [continues.agent, continues.boot]
      by_cases already : before.record.state = .active
      · exact progress.attended k before found already
      · obtain ⟨⟨claim, activates⟩, _⟩ := (continues.entered active nofun nofun).resolve_left already
        exact progress.hasLiveBoot orderly warranted activates found located active already
    · rw [joins.state] at active
      cases active
  running := by
    rw [isShutdown_execute]
    · exact progress.running
    · rintro rfl
      cases warranted
  owners := by
    intro k after located
    rcases continues_of_execute located with ⟨before, found, continues⟩ | ⟨_, joins⟩
    · rw [continues.agent]
      exact progress.owners k before found
    · obtain ⟨d, claim, rfl, agent⟩ := joins.observed
      right
      cases warranted with
      | @observed session request _ type accepted listed =>
          exact ⟨session, accepted.standing.established,
            agent.trans (accepted.owned d listed).1⟩

end Requests

/-! ### The end of a connection -/

section Disconnection

variable {plane : ControlPlane} {session : SessionData} {envs : Nat → Environment}

/-- The fencing of the members of an ended session, once some have been dealt with: a member
that is active was so from the start, and is not one of those. -/
structure Fencing (plane : ControlPlane) (session : SessionData) (dealt : List MemberRecord)
    (w : Work) : Prop where
  running : w.plane.federation.isShutdown = false
  spared : ∀ k entry, w.plane.federation.members.get? k = some entry →
    entry.record.state = .active → ∃ entry₀, plane.federation.members.get? k = some entry₀ ∧
      entry₀.record.state = .active ∧ entry.record.agent = entry₀.record.agent ∧
      entry.record.agentBoot = entry₀.record.agentBoot ∧
      (session.fences entry₀.record = true → entry₀.record ∉ dealt)

/-- The claim with which a member is fenced is current. -/
theorem validate_sessionEndedClaim {f : Federation} {record record₀ : MemberRecord}
    {a : AcceleratorId} (running : f.isShutdown = false) (agent : record.agent = record₀.agent)
    (boot : record.agentBoot = record₀.agentBoot) :
    f.validateMemberAuthority (sessionEndedClaim f.epoch record₀) record a = .ok () := by
  simp [validateMemberAuthority, validateAuthority, sessionEndedClaim, epochOnlyClaim, running,
    agent, boot, ensure, bind, Except.bind]

theorem Fencing.fenced {dealt : List MemberRecord} {w : Work} (record : MemberRecord)
    (fencing : Fencing plane session dealt w) :
    Fencing plane session (record :: dealt) (w.fenced envs session record) := by
  unfold Work.fenced
  by_cases due : session.fences record = true
  · rw [if_pos due]
    have executed : (w.called envs (.fence record.accelerator (sessionEndedClaim
        w.plane.federation.epoch record))).plane.federation = (w.plane.federation.execute
          (.transition record.accelerator .fenced (sessionEndedClaim w.plane.federation.epoch
            record)) (w.env envs)).state := rfl
    constructor
    · rw [executed, isShutdown_execute (fun other => Command.noConfusion other)]
      exact fencing.running
    · intro k after located active
      rw [executed] at located
      rcases continues_of_execute located with ⟨before, found, continues⟩ | ⟨_, joins⟩
      · have already : before.record.state = .active := by
          rcases continues.entered active nofun nofun with already | ⟨⟨_, other⟩, _⟩
          · exact already
          · cases other
        obtain ⟨entry₀, found₀, active₀, agent, boot, unseen⟩ :=
          fencing.spared k before found already
        refine ⟨entry₀, found₀, active₀, continues.agent.trans agent,
          continues.boot.trans boot, fun owned => ?_⟩
        have other : entry₀.record ≠ record := by
          -- otherwise the call has just fenced the member
          rintro rfl
          have here := Keyed.key_of_get? found₀
          have authority : w.plane.federation.validateMemberAuthority (sessionEndedClaim
              w.plane.federation.epoch entry₀.record) before.record k = .ok () :=
            validate_sessionEndedClaim fencing.running agent boot
          have legal : before.record.state.isLegalTransition .fenced = true := by
            rw [already]
            rfl
          rw [← here] at located found authority
          rw [get?_transition_of_passes found authority legal] at located
          cases located
          cases active
        intro listed
        rcases List.mem_cons.mp listed with same | earlier
        · exact other same
        · exact unseen owned earlier
      · rw [joins.state] at active
        cases active
  · rw [if_neg due]
    refine ⟨fencing.running, fun k entry found active => ?_⟩
    obtain ⟨entry₀, found₀, active₀, agent, boot, unseen⟩ := fencing.spared k entry found active
    refine ⟨entry₀, found₀, active₀, agent, boot, fun owned listed => ?_⟩
    rcases List.mem_cons.mp listed with same | earlier
    · rw [same] at owned
      exact due owned
    · exact unseen owned earlier

/-- Once all have been dealt with, no active member is one of the ended session. -/
theorem Fencing.foldl {dealt : List MemberRecord} {w : Work} (records : List MemberRecord)
    (fencing : Fencing plane session dealt w) :
    Fencing plane session (records.reverse ++ dealt) (records.foldl (·.fenced envs session) w) := by
  induction records generalizing dealt w with
  | nil => exact fencing
  | cons record rest ih =>
      rw [List.foldl_cons, List.reverse_cons, List.append_assoc]
      exact ih (fencing.fenced record)

end Disconnection

/-! ### Runs -/

/-- What holds of a control plane between requests. -/
structure Sound (plane : ControlPlane) : Prop where
  attended : Attended plane
  running : plane.federation.isShutdown = false
  named : ∀ (id : SessionId) (session : SessionData), plane.sessions[id]? = some session →
    session.role = .agent → session.agent.isNil = false

namespace Sound

variable {plane : ControlPlane} {texts : Rendering}

/-- A session on another connection survives the end of one. -/
theorem hasLiveBoot_of_other {connection : ConnectionState} {agent : AgentId}
    {boot : AgentBootId} {id : SessionId} {session : SessionData}
    (found : plane.sessions[id]? = some session) (bound : session.isBoot agent boot = true)
    (other : id ≠ connection.id) :
    (plane.endSession connection).hasLiveBoot agent boot = true := by
  rw [hasLiveBoot_eq_true]
  refine ⟨id, session, ?_, bound⟩
  show (plane.sessions.erase connection.id)[id]? = some session
  rw [Std.ExtTreeMap.getElem?_erase, if_neg fun same => other (compare_eq_iff_eq.mp same).symm]
  exact found

/-- An active member that a session does not attend to alone is attended to without it. -/
theorem hasLiveBoot_endSession {connection : ConnectionState} {k : AcceleratorId}
    {entry : MemberEntry} (sound : Sound plane)
    (found : plane.federation.members.get? k = some entry) (active : entry.record.state = .active)
    (shared : ¬ plane.Alone connection entry.record) :
    (plane.endSession connection).hasLiveBoot entry.record.agent
      entry.record.agentBoot = true := by
  obtain ⟨id, session, located, bound⟩ :=
    hasLiveBoot_eq_true.mp (sound.attended k entry found active)
  by_cases here : id = connection.id
  · subst here
    by_contra gone
    apply shared
    refine ⟨⟨session, located, bound⟩, fun id' session' located' other => ?_⟩
    by_contra bound'
    exact gone (hasLiveBoot_of_other located' (Bool.eq_true_of_not_eq_false bound') other)
  · exact hasLiveBoot_of_other located bound here

theorem named_endSession {connection : ConnectionState} (sound : Sound plane) :
    ∀ (id : SessionId) (session : SessionData),
      (plane.sessions.erase connection.id)[id]? = some session →
      session.role = .agent → session.agent.isNil = false :=
  fun id session found => sound.named id session (getElem?_of_erase found)

variable {r : Request}

theorem goodbye (sound : Sound plane) (orderly : Orderly plane (.request r))
    (type : r.type = .goodbye) : Sound (plane.work texts r).plane := by
  rcases work_goodbye texts type with same | ⟨request, decoded, same⟩
  · rw [same]
    exact sound
  · rw [same]
    refine ⟨fun k entry found active => ?_, sound.running, sound.named_endSession⟩
    exact sound.hasLiveBoot_endSession found active
      (orderly.2.1 type request decoded k entry found active)

theorem hello (sound : Sound plane) (orderly : Orderly plane (.request r))
    (type : r.type = .hello) : Sound (plane.work texts r).plane := by
  rcases work_hello texts type with same | ⟨request, response, decoded, passed, same⟩
  · rw [same]
    exact sound
  · rw [same]
    have inserted : ∀ (id : SessionId), (plane.establish r.connection request).sessions[id]? =
        if r.connection.id = id then some (plane.session request) else plane.sessions[id]? := by
      intro id
      show (plane.sessions.insert r.connection.id (plane.session request))[id]? = _
      rw [Std.ExtTreeMap.getElem?_insert]
      by_cases here : r.connection.id = id
      · rw [if_pos (compare_eq_iff_eq.mpr here), if_pos here]
      · rw [if_neg fun same => here (compare_eq_iff_eq.mp same), if_neg here]
    constructor
    · intro k entry found active
      rw [hasLiveBoot_eq_true]
      by_cases alone : plane.Alone r.connection entry.record
      · have presented := orderly.1 type request response decoded passed k entry found active alone
        refine ⟨r.connection.id, plane.session request, ?_, presented⟩
        rw [inserted, if_pos rfl]
      · obtain ⟨id, session, located, bound⟩ :=
          hasLiveBoot_eq_true.mp (sound.hasLiveBoot_endSession found active alone)
        have erased : (plane.sessions.erase r.connection.id)[id]? = some session := located
        rw [Std.ExtTreeMap.getElem?_erase] at erased
        split at erased
        · cases erased
        · rename_i other
          refine ⟨id, session, ?_, bound⟩
          rw [inserted, if_neg fun same => other (compare_eq_iff_eq.mpr same)]
          exact erased
    · exact sound.running
    · intro id session found agent
      dsimp only at found
      rw [inserted] at found
      split at found
      · cases found
        exact (scanHello_eq_ok passed agent).1
      · exact sound.named id session found agent

/-- Requests that leave the sessions alone. -/
theorem call (sound : Sound plane) (orderly : Orderly plane (.request r))
    (opens : r.type ≠ .hello) (closes : r.type ≠ .goodbye) :
    Sound (plane.work texts r).plane := by
  have accounted : Accounted (Warranted plane r) plane (plane.work texts r) :=
    accounted_work texts opens closes
  have start : Progress plane r plane.federation :=
    ⟨sound.attended, sound.running, fun k entry found => .inl ⟨entry, found, rfl⟩⟩
  have progress : Progress plane r (plane.work texts r).plane.federation := by
    rw [accounted.federation]
    exact accounted.each.keeps start fun g c env progress warranted =>
      progress.warranted orderly warranted
  have back : SameSessions (plane.work texts r).plane.sessions plane.sessions :=
    fun id => (accounted.sessions id).symm
  constructor
  · intro k entry found active
    obtain ⟨id, session, located, bound⟩ :=
      hasLiveBoot_eq_true.mp (progress.attended k entry found active)
    obtain ⟨session', located', same⟩ := back.exists_isBoot located
    rw [same] at bound
    exact hasLiveBoot_eq_true.mpr ⟨id, session', located', bound⟩
  · exact progress.running
  · intro id session found agent
    have matched := accounted.sessions id
    rw [found, Option.map_some] at matched
    obtain ⟨session₀, located, equal⟩ := Option.map_eq_some_iff.mp matched.symm
    have role : session₀.identity.role = .agent := by
      rw [equal]
      exact agent
    have owner : session₀.identity.agent = session.agent := by
      rw [equal]
      rfl
    rw [← owner]
    exact sound.named id session₀ located role

theorem disconnected {connection : ConnectionState} {envs : Nat → Environment}
    (sound : Sound plane) : Sound (plane.disconnect connection envs).plane := by
  have named : ∀ (id : SessionId) (session : SessionData),
      (plane.disconnect connection envs).plane.sessions[id]? = some session →
      session.role = .agent → session.agent.isNil = false := by
    rw [sessions_disconnect]
    exact sound.named_endSession
  -- a session of another agent or boot did not attend to a member
  have survives : ∀ k entry, plane.federation.members.get? k = some entry →
      entry.record.state = .active → (∀ session, plane.sessions[connection.id]? = some session →
        session.isBoot entry.record.agent entry.record.agentBoot = false) →
      (plane.endSession connection).hasLiveBoot entry.record.agent
        entry.record.agentBoot = true := by
    intro k entry found active unrelated
    apply sound.hasLiveBoot_endSession found active
    rintro ⟨⟨session, located, bound⟩, _⟩
    rw [unrelated session located] at bound
    cases bound
  cases established : plane.sessions[connection.id]? with
  | none =>
      rw [disconnect_eq, established]
      refine ⟨fun k entry found active => survives k entry found active ?_, sound.running,
        sound.named_endSession⟩
      intro session located
      rw [established] at located
      cases located
  | some session =>
      by_cases agent : session.role = .agent
      · have start : Fencing plane session [] ⟨plane.endSession connection, []⟩ :=
          ⟨sound.running, fun k entry found active =>
            ⟨entry, found, active, rfl, rfl, fun _ => List.not_mem_nil⟩⟩
        have fencing := @Fencing.foldl plane session envs [] _
          (plane.federation.members.values.map (·.record)) start
        have ended : plane.disconnect connection envs =
            (plane.federation.members.values.map (·.record)).foldl (·.fenced envs session)
              ⟨plane.endSession connection, []⟩ := by
          rw [disconnect_eq, established]
          simp [agent, sound.named _ session established agent]
        rw [ended] at named ⊢
        refine ⟨fun k entry found active => ?_, fencing.running, named⟩
        obtain ⟨entry₀, found₀, active₀, owner, boot, unseen⟩ :=
          fencing.spared k entry found active
        have listed : entry₀.record ∈ (plane.federation.members.values.map
            (·.record)).reverse ++ [] := by
          rw [List.append_nil, List.mem_reverse]
          exact List.mem_map_of_mem (Keyed.mem_values_of_get? found₀)
        have unowned : session.fences entry₀.record ≠ true := fun owned => unseen owned listed
        have attended := survives k entry₀ found₀ active₀ (by
          intro other located
          cases established.symm.trans located
          by_contra bound
          apply unowned
          simp only [SessionData.isBoot, Bool.and_eq_true, decide_eq_true_eq,
            Bool.not_eq_false] at bound
          simp [SessionData.fences, MemberRecord.isLive, MemberState.isLive, bound, active₀])
        rw [owner, boot]
        rw [hasLiveBoot_eq_true] at attended ⊢
        rw [sessions_fenced]
        exact attended
      · rw [disconnect_eq, established]
        simp only [agent, ne_eq, not_false_eq_true, decide_true, Bool.true_or, if_true]
        refine ⟨fun k entry found active => survives k entry found active ?_, sound.running,
          sound.named_endSession⟩
        intro other located
        cases established.symm.trans located
        simp [SessionData.isBoot, agent]

theorem step {e : PlaneEvent} {plane' : ControlPlane} (sound : Sound plane)
    (orderly : Orderly plane e) (taken : PlaneStep texts plane e plane') : Sound plane' := by
  cases taken
  cases e with
  | disconnected connection envs => exact sound.disconnected
  | request r =>
      by_cases opens : r.type = .hello
      · exact sound.hello orderly opens
      · by_cases closes : r.type = .goodbye
        · exact sound.goodbye orderly closes
        · exact sound.call orderly opens closes

/-- A control plane over an empty store has no members and no sessions. -/
theorem create {R : Registry} {config : ControlPlaneConfig} {env : Environment}
    (created : ControlPlane.create R config none env = .ok plane) : Sound plane := by
  have unestablished := sessions_create created
  simp only [ControlPlane.create, bind_eq_ok] at created
  obtain ⟨f, opened, same⟩ := created
  obtain ⟨empty, running⟩ := openOn_none opened
  cases same
  constructor
  · intro k entry found
    rw [show f.members = .empty from empty] at found
    cases found
  · exact running
  · intro id session found
    rw [unestablished] at found
    simp at found

end Sound

/-- **No session, no work.** In every run of a control plane over an empty store whose events are
all orderly, every active member has an established session of its agent and boot. -/
theorem attended_of_orderly (R : Registry) (config : ControlPlaneConfig) (env : Environment)
    (texts : Rendering) {plane₀ plane : ControlPlane}
    (created : ControlPlane.create R config none env = .ok plane₀)
    (reached : Run.Reaches (PlaneStep texts) Orderly plane₀ plane) : Attended plane := by
  have sound : Sound plane := by
    apply Run.Reaches.invariant (Sound.create created) _ reached
    intro plane e plane' sound orderly taken
    exact sound.step orderly taken
  exact sound.attended

namespace Sample

open Haf.Sample

def helloRequest : Request := { connection, type := .hello, payload := hello.encodeMessage, envs }

def goodbyeRequest : Request :=
  { connection, type := .goodbye, payload := ({} : GoodbyeRequest).encodeMessage, envs }

/-- The first boot makes its handshake with a control plane that nobody is connected to. -/
theorem step_hello {plane : ControlPlane} (unestablished : plane.sessions = ∅) :
    PlaneStep texts plane (.request helloRequest) (plane.establish connection hello) := by
  obtain ⟨response, passed⟩ := scan_hello (duplicateBoot_of_empty unestablished connection)
  have worked : plane.work texts helloRequest = ⟨plane.establish connection hello, []⟩ :=
    work_hello_of_scan texts rfl decode_hello passed
  exact (congrArg Work.plane worked).symm

/-- The control plane once the first boot has made its handshake. -/
def greeted : ControlPlane := planeOf opened (fresh.session hello)

theorem decode_goodbye : decodeGoodbyeRequest ({} : GoodbyeRequest).encodeMessage = .ok {} :=
  decode_of_reads (readGoodbyeRequest_reads _) (by decide) (by decide)

/-- The control plane once the first boot has also advertised its device. -/
def equipped : ControlPlane := (greeted.work texts (listingRequest first false)).plane

/-- The control plane once the first boot has taken its leave, and once its connection has
gone. -/
def left : ControlPlane := equipped.endSession connection

def gone : ControlPlane := (left.disconnect connection envs).plane

/-- The device is active once it has been advertised, and still when its boot has gone. -/
theorem standing_gone :
    (∃ entry, equipped.federation.members.get? firstId = some entry ∧
      entry.record.state = .active) ∧
    ∃ entry, gone.federation.members.get? firstId = some entry ∧ entry.record.state = .active ∧
      gone.hasLiveBoot entry.record.agent entry.record.agentBoot = false := by
  decide +kernel

theorem step_listing : PlaneStep texts greeted (.request (listingRequest first false)) equipped := by
  rw [equipped]
  rfl

theorem step_goodbye : PlaneStep texts equipped (.request goodbyeRequest) left := by
  have worked : equipped.work texts goodbyeRequest = ⟨left, []⟩ :=
    work_goodbye_of_decoded texts rfl decode_goodbye
  exact (congrArg Work.plane worked).symm

theorem step_gone : PlaneStep texts left (.disconnected connection envs) gone := by
  rw [gone]
  rfl

end Sample

open Haf.Sample Sample in
/-- A boot that makes its handshake and advertises its device attends to it. -/
theorem attended_after_advertisement :
    (∃ entry, equipped.federation.members.get? firstId = some entry ∧
      entry.record.state = .active) ∧ Attended equipped := by
  have unequipped : ∀ (k : AcceleratorId) (entry : MemberEntry),
      opened.members.get? k ≠ some entry := by
    intro k entry found
    rw [show opened.members.get? k = none from Keyed.get?_empty k] at found
    cases found
  have greets : Orderly fresh (.request helloRequest) :=
    ⟨fun _ _ _ _ _ k entry found => absurd found (unequipped k entry), nofun, nofun,
      fun _ _ => nofun⟩
  have lists : Orderly greeted (.request (listingRequest first false)) :=
    ⟨nofun, nofun, nofun, fun _ _ _ _ _ _ _ _ entry found => absurd found (unequipped _ entry)⟩
  refine ⟨standing_gone.1, ?_⟩
  exact attended_of_orderly .core planeConfig env texts create_eq
    (.next (e := .request (listingRequest first false))
      (.next (e := .request helloRequest) .refl greets (step_hello rfl)) lists step_listing)

open Haf.Sample Sample in
/-- A boot that takes its leave before its connection goes away leaves its device active, with
no session of anyone. -/
theorem active_after_farewell : ∃ plane₀ plane,
    ControlPlane.create .core planeConfig none env = .ok plane₀ ∧
      Run.Reaches (PlaneStep texts) (fun _ _ => True) plane₀ plane ∧ ¬ Attended plane := by
  refine ⟨fresh, gone, create_eq, ?_, ?_⟩
  · apply Run.Reaches.next (e := .disconnected connection envs) _ trivial step_gone
    apply Run.Reaches.next (e := .request goodbyeRequest) _ trivial step_goodbye
    apply Run.Reaches.next (e := .request (listingRequest first false)) _ trivial step_listing
    exact .next (e := .request helloRequest) .refl trivial (step_hello rfl)
  · intro attended
    obtain ⟨entry, found, active, alone⟩ := standing_gone.2
    rw [attended _ entry found active] at alone
    cases alone

end Haf.Net
