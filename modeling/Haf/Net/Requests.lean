/-
# What a request can do

A request changes the federation by calls only, and each of its calls is made for a
reason: the session it was made under, the message it was decoded from and, for the
steps of an advertisement, the member it found. The calls of a request are accounted for
one by one, so that whatever every such call keeps is kept by the request.
-/

import Haf.Federation.Evolution
import Haf.Net.ControlPlane

namespace Haf

open Sequence

/-! ### What membership calls return -/

namespace Federation

variable {f : Federation} {env : Environment}

/-- A call that settles on a change leaves the members of that change. -/
theorem members_conclude_changed {α : Type} (value : α) (g : Federation) :
    (f.conclude env (.ok (.changed value g))).state.members = g.members := by
  rw [conclude, publish]
  rcases written : g.persistLocked env false with ⟨⟨status⟩ | ⟨⟩, h⟩ <;>
    · rcases persistLocked_cases written with same | ⟨_, same⟩ <;> rw [same]
      rfl

theorem value_of_conclude_changed {α : Type} {value value' : α} {g : Federation}
    (succeeded : (f.conclude env (.ok (.changed value g))).result = .ok value') :
    value' = value := by
  rw [conclude, publish] at succeeded
  rcases written : g.persistLocked env false with ⟨⟨status⟩ | ⟨⟩, h⟩
  · rw [written] at succeeded
    cases succeeded
  · rw [written] at succeeded
    cases succeeded
    rfl

/-- The state in which an advertisement finds its member or puts it. -/
def advertisedState (f : Federation) (d : AcceleratorDescriptor) : MemberState :=
  match f.members.get? d.id with
  | none => .observed
  | some entry => entry.record.state

/-- An advertisement that is accepted leaves the member it returns. -/
theorem settleObserve_entry {d : AcceleratorDescriptor} {claim : AuthorityClaim}
    {s : Settled MemberRecord} (settled : f.settleObserve d claim env = .ok s) :
    ∃ entry g, s = .changed entry.record g ∧ g.members.get? d.id = some entry ∧
      entry.record.state = f.advertisedState d ∧ entry.record.agentBoot = d.agentBoot ∧
      entry.record.provenance = d.provenance ∧
      deriveAcceleratorId d.physicalDevice d.agent d.agentBoot d.generation = d.id := by
  simp only [settleObserve, bind_eq_ok, ensure_eq_ok, decide_eq_true_eq] at settled
  obtain ⟨_, _, _, _, _, derived, _, _, settled⟩ := settled
  split at settled
  · cases settled
  · split at settled
    · rename_i absent
      cases settled
      refine ⟨⟨f.enrolledRecord d (env.wall .member), d, rfl⟩, _, rfl, ?_, ?_, rfl, rfl, derived⟩
      · exact Keyed.get?_insert_self _ _
      · rw [advertisedState, absent]
        rfl
    · rename_i entry found
      simp only [bind_eq_ok, ensure_eq_ok, decide_eq_true_eq] at settled
      obtain ⟨_, _, _, _, _, boot, settled⟩ := settled
      cases settled
      have same := (Keyed.key_of_get? found).symm
      obtain ⟨state, named, _, kept⟩ :=
        entry.record_observedAgain f d same (env.wall .member)
      refine ⟨entry.observedAgain f d same (env.wall .member), _, rfl, ?_, ?_, ?_, ?_, derived⟩
      · rw [withMember, Keyed.get?_insert]
        exact if_pos (named.trans same.symm)
      · rw [state, advertisedState, found]
      · rw [kept]
        exact boot
      · unfold MemberEntry.observedAgain
        split <;> rfl

/-- A lifecycle move that is accepted leaves the member it returns, still owned as it was. -/
theorem settleTransition_entry {a : AcceleratorId} {target : MemberState}
    {claim : AuthorityClaim} {s : Settled MemberRecord} {entry : MemberEntry}
    (found : f.members.get? a = some entry)
    (settled : f.settleTransition a target claim env = .ok s) :
    ∃ entry' g, (s = .unchanged entry'.record ∧ g = f ∨ s = .changed entry'.record g) ∧
      g.members.get? a = some entry' ∧ entry'.record.state = target ∧
      entry'.record.agentBoot = entry.record.agentBoot ∧
      entry'.record.provenance = entry.record.provenance := by
  simp only [settleTransition, bind_eq_ok, memberEntry_eq_ok] at settled
  obtain ⟨_, _, _, found', _, _, settled⟩ := settled
  rw [found] at found'
  cases found'
  split at settled
  · rename_i already
    cases settled
    exact ⟨entry, f, .inl ⟨rfl, rfl⟩, found, already, rfl, rfl⟩
  · simp only [bind_eq_ok, ensure_eq_ok] at settled
    obtain ⟨_, _, settled⟩ := settled
    cases settled
    refine ⟨entry.moved f target (env.wall .member), _, .inr rfl, ?_, rfl, rfl, rfl⟩
    rw [withMember, Keyed.get?_insert]
    exact if_pos (Keyed.key_of_get? found)

/-- The member that an accepted advertisement returns. -/
theorem entry_of_observe {d : AcceleratorDescriptor} {claim : AuthorityClaim}
    {record : MemberRecord} (accepted : (f.observe d claim env).result = .ok record) :
    ∃ entry, (f.observe d claim env).state.members.get? d.id = some entry ∧
      entry.record = record ∧ record.state = f.advertisedState d ∧
      record.agentBoot = d.agentBoot ∧ record.provenance = d.provenance ∧
      deriveAcceleratorId d.physicalDevice d.agent d.agentBoot d.generation = d.id := by
  rw [observe] at accepted ⊢
  obtain ⟨s, settled⟩ := settled_of_conclude accepted
  obtain ⟨entry, g, rfl, found, state, boot, provenance, derived⟩ := settleObserve_entry settled
  rw [settled] at accepted ⊢
  rw [value_of_conclude_changed accepted, members_conclude_changed]
  exact ⟨entry, found, rfl, state, boot, provenance, derived⟩

/-- The member that an accepted lifecycle move returns. -/
theorem entry_of_transition {a : AcceleratorId} {target : MemberState} {claim : AuthorityClaim}
    {record : MemberRecord} {entry : MemberEntry} (found : f.members.get? a = some entry)
    (accepted : (f.transition a target claim env).result = .ok record) :
    ∃ entry', (f.transition a target claim env).state.members.get? a = some entry' ∧
      entry'.record = record ∧ record.state = target ∧
      record.agentBoot = entry.record.agentBoot ∧
      record.provenance = entry.record.provenance := by
  rw [transition] at accepted ⊢
  obtain ⟨s, settled⟩ := settled_of_conclude accepted
  obtain ⟨entry', g, ⟨rfl, rfl⟩ | rfl, found', state, boot, provenance⟩ :=
    settleTransition_entry found settled
  · rw [settled] at accepted ⊢
    cases accepted
    exact ⟨entry', found', rfl, state, boot, provenance⟩
  · rw [settled] at accepted ⊢
    rw [value_of_conclude_changed accepted, members_conclude_changed]
    exact ⟨entry', found', rfl, state, boot, provenance⟩

end Federation

namespace Net

open Federation Procedure

/-! ### Accounts of calls -/

/-- Each call of a sequence is made in a state in which it may be made. -/
def Each (may : Federation → Command → Prop) (f : Federation) (calls : List Call) : Prop :=
  ∀ before call rest, calls = before ++ call :: rest → may (f.after before) call.1

namespace Each

variable {may : Federation → Command → Prop} {f : Federation} {calls : List Call}

theorem nil : Each may f [] := by
  intro before call rest never
  cases List.nil_eq_append_iff.mp never |>.2

theorem concat (each : Each may f calls) {call : Call} (last : may (f.after calls) call.1) :
    Each may f (calls ++ [call]) := by
  intro before other rest split
  induction rest using List.reverseRecOn with
  | nil =>
      obtain ⟨rfl, same⟩ := List.append_inj' split rfl
      cases same
      exact last
  | append_singleton rest final =>
      rw [← List.cons_append, ← List.append_assoc] at split
      obtain ⟨same, _⟩ := List.append_inj' split rfl
      exact each before other rest same

/-- What holds at first and is kept by every call that may be made holds after them all. -/
theorem keeps {holds : Federation → Prop} (each : Each may f calls) (initially : holds f)
    (kept : ∀ g c env, holds g → may g c → holds (g.execute c env).state) :
    holds (f.after calls) := by
  induction calls using List.reverseRecOn with
  | nil => exact initially
  | append_singleton calls call ih =>
      have earlier : holds (f.after calls) := by
        apply ih
        intro before other rest split
        apply each before other (rest ++ [call])
        rw [split, List.append_assoc]
        rfl
      rw [after_append]
      exact kept _ _ _ earlier (each calls call [] rfl)

end Each

/-- A session apart from the generation last noted in it. -/
def SessionData.identity (session : SessionData) : SessionData :=
  { session with generation := ⟨0⟩ }

/-- Two tables hold the same sessions, apart from the generations noted in them. -/
def SameSessions (sessions sessions' : SessionTable) : Prop :=
  ∀ id : SessionId, (sessions'[id]?).map SessionData.identity =
    (sessions[id]?).map SessionData.identity

/-- The calls of a request account for the federation, and the sessions are those it found. -/
structure Accounted (may : Federation → Command → Prop) (start : ControlPlane) (w : Work) :
    Prop where
  federation : w.plane.federation = start.federation.after w.calls
  each : Each may start.federation w.calls
  sessions : SameSessions start.sessions w.plane.sessions

namespace Accounted

variable {may : Federation → Command → Prop} {start : ControlPlane} {w : Work}

theorem initial : Accounted may start ⟨start, []⟩ := ⟨rfl, .nil, fun _ => rfl⟩

/-- A call is accounted for if it may be made. -/
theorem called {α : Type} {envs : Nat → Environment} {op : Operation α}
    (accounted : Accounted may start w) (warranted : may w.plane.federation op.command) :
    Accounted may start (w.called envs op) where
  federation := by
    rw [Work.called, after_append, ← accounted.federation]
    show _ = (w.plane.federation.execute op.command (w.env envs)).state
    rw [op.executed]
    rfl
  each := by
    apply accounted.each.concat
    rw [← accounted.federation]
    exact warranted
  sessions := accounted.sessions

theorem noteGeneration {connection : ConnectionState} (accounted : Accounted may start w) :
    Accounted may start { w with plane := w.plane.noteGeneration connection } where
  federation := accounted.federation
  each := accounted.each
  sessions := by
    intro id
    rw [← accounted.sessions id]
    show ((w.plane.sessions.modify connection.id _)[id]?).map _ = _
    rw [Std.ExtTreeMap.getElem?_modify]
    split
    · rename_i same
      rw [← compare_eq_iff_eq.mp same, Option.map_map]
      rfl
    · rfl

end Accounted

/-! ### Rules for handlers -/

section Rules

variable {α β : Type} {P E : Work → Prop} {R : β → Work → Prop}

/-- A check changes nothing, and what it found is known from then on. -/
theorem meets_check {detail : Bytes} {view : ControlPlane → Result α} {next : α → Handler β}
    (refused : ∀ w, P w → E w)
    (passed : ∀ a, Meets (fun w => P w ∧ view w.plane = .ok a) (next a) R E) :
    Meets P (Handler.check detail view >>= next) R E := by
  refine Meets.bind (Q := fun a w => P w ∧ view w.plane = .ok a) (Meets.look ?_ ?_) passed
  · intro w a holds found
    refine ⟨holds, ?_⟩
    cases result : view w.plane with
    | ok b =>
        rw [result] at found
        cases found
        rfl
    | error status =>
        rw [result] at found
        cases found
  · intro w answer holds _
    exact refused w holds

/-- Looking at the control plane. -/
theorem meets_plane {next : ControlPlane → Handler β}
    (then_ : ∀ plane, Meets (fun w => P w ∧ w.plane = plane) (next plane) R E) :
    Meets P (Handler.plane >>= next) R E := by
  refine Meets.bind (Q := fun plane w => P w ∧ w.plane = plane) (Meets.look ?_ ?_) then_
  · intro w plane holds found
    cases found
    exact ⟨holds, rfl⟩
  · intro w answer _ never
    cases never

/-- A call leaves its effect whether it succeeds or not. -/
theorem meets_perform {envs : Nat → Environment} {op : Operation α} {detail : Bytes}
    {Q : α → Work → Prop}
    (succeeded : ∀ w a, P w → (op.run w.plane.federation (w.env envs)).result = .ok a →
      Q a (w.called envs op))
    (failed : ∀ w status, P w → (op.run w.plane.federation (w.env envs)).result = .error status →
      E (w.called envs op)) : Meets P (perform envs op detail) Q E := by
  intro w holds
  have ran : (perform envs op detail).run w =
    (orError detail (op.run w.plane.federation (w.env envs)).result, w.called envs op) := rfl
  rw [ran]
  cases result : (op.run w.plane.federation (w.env envs)).result with
  | ok a => exact succeeded w a holds result
  | error status => exact failed w status holds result

theorem meets_update {change : ControlPlane → ControlPlane} {Q : Unit → Work → Prop}
    (holds : ∀ w, P w → Q () { w with plane := change w.plane }) :
    Meets P (Handler.update change) Q E := holds

end Rules

/-! ### Reasons for calls -/

/-- A session of an agent that was established under the current epoch. -/
structure Standing (plane : ControlPlane) (connection : ConnectionState)
    (session : SessionData) : Prop where
  established : plane.sessions[connection.id]? = some session
  agent : session.role = .agent
  current : session.epoch = plane.federation.epoch

/-- An advertisement that passed the checks made before the federation is called. -/
structure Advertised (plane : ControlPlane) (r : Request) (session : SessionData)
    (request : AdvertiseRequest) : Prop where
  standing : Standing plane r.connection session
  decoded : decodeAdvertiseRequest plane.federation.registry r.payload = .ok request
  named : request.claim.agent = session.agent ∧ request.claim.agentBoot = session.agentBoot
  owned : ∀ d ∈ request.devices, d.agent = session.agent ∧ d.agentBoot = session.agentBoot
  present : request.devices ≠ []

/-- A request to move a member that passed the checks made before the federation is called. -/
structure Requested (plane : ControlPlane) (r : Request) (session : SessionData)
    (request : TransitionRequest) : Prop where
  standing : Standing plane r.connection session
  decoded : decodeTransitionRequest r.payload = .ok request
  named : request.claim.agent = session.agent ∧ request.claim.agentBoot = session.agentBoot

/-- The policy lets an admitted member with this provenance become active. -/
def Ungated (policy : FederationPolicy) (provenance : EvidenceProvenance) : Prop :=
  policy.requireRealEvidenceForActive = true → provenance = .real

/-- The moves that follow an accepted advertisement. -/
inductive Promotes (policy : FederationPolicy) (provenance : EvidenceProvenance) :
    MemberState → MemberState → Prop
  | admits : Promotes policy provenance .observed .admitted
  | activates (ungated : Ungated policy provenance) : Promotes policy provenance .admitted .active
  | restores : Promotes policy provenance .degraded .active

/-- The calls that a request may lead to, each with the reason for it. -/
inductive Warranted (plane : ControlPlane) (r : Request) (g : Federation) : Command → Prop
  | observed {session : SessionData} {request : AdvertiseRequest} {d : AcceleratorDescriptor}
      (type : r.type = .advertise) (accepted : Advertised plane r session request)
      (listed : d ∈ request.devices) :
      Warranted plane r g (.observe d (advertisedClaim request.claim))
  | promoted {session : SessionData} {request : AdvertiseRequest} {d : AcceleratorDescriptor}
      {entry : MemberEntry} {target : MemberState} (type : r.type = .advertise)
      (accepted : Advertised plane r session request) (listed : d ∈ request.devices)
      (found : g.members.get? d.id = some entry)
      (boot : entry.record.agentBoot = d.agentBoot)
      (provenance : entry.record.provenance = d.provenance)
      (derived : deriveAcceleratorId d.physicalDevice d.agent d.agentBoot d.generation = d.id)
      (promotes : Promotes plane.federation.policy entry.record.provenance entry.record.state
        target) :
      Warranted plane r g (.transition d.id target (advertisedClaim request.claim))
  | moved {session : SessionData} {request : TransitionRequest} (type : r.type = .transition)
      (accepted : Requested plane r session request) (first : g = plane.federation) :
      Warranted plane r g (.transition request.accelerator request.target request.claim)
  | evaluated {workload : WorkloadClassId} {a : AcceleratorId} {options : EvaluationOptions}
      (type : r.type = .evaluate) : Warranted plane r g (.evaluate workload a options)
  | planned {workload : WorkloadClassId} {a b : AcceleratorId} {claim : AuthorityClaim}
      (type : r.type = .planMigration) : Warranted plane r g (.planMigration workload a b claim)
  | registered {profile : WorkloadProfile} {claim : AuthorityClaim}
      (type : r.type = .registerWorkload) :
      Warranted plane r g (.registerWorkload profile claim)

/-- The work done on a request so far, every call of which is warranted. -/
abbrev Served (plane : ControlPlane) (r : Request) : Work → Prop :=
  Accounted (Warranted plane r) plane

/-! ### The calls of an advertisement -/

section Advertising

variable {plane : ControlPlane} {r : Request} {session : SessionData}
  {request : AdvertiseRequest} {d : AcceleratorDescriptor}

/-- The member an advertisement has got to so far, as the last call returned it. -/
def Reached (plane : ControlPlane) (r : Request) (d : AcceleratorDescriptor)
    (record : MemberRecord) (w : Work) : Prop :=
  Accounted (Warranted plane r) plane w ∧ ∃ entry,
    w.plane.federation.members.get? d.id = some entry ∧ entry.record = record ∧
    record.agentBoot = d.agentBoot ∧ record.provenance = d.provenance ∧
    deriveAcceleratorId d.physicalDevice d.agent d.agentBoot d.generation = d.id

variable {record : MemberRecord}

variable (type : r.type = .advertise) (accepted : Advertised plane r session request)
include type accepted

section Device

variable (listed : d ∈ request.devices)
include listed

/-- One more move of the member. -/
theorem meets_promote {target : MemberState} {op : Operation MemberRecord}
    (moves : op = .transition d.id target (advertisedClaim request.claim))
    (promotes : Promotes plane.federation.policy record.provenance record.state target) :
    Meets (Reached plane r d record) (perform r.envs op d.id.toText) (Reached plane r d)
      (Served plane r) := by
  subst moves
  have warranted : ∀ w, Reached plane r d record w →
      Warranted plane r w.plane.federation
        (.transition d.id target (advertisedClaim request.claim)) := by
    rintro w ⟨_, entry, found, rfl, boot, provenance, derived⟩
    exact .promoted type accepted listed found boot provenance derived promotes
  apply meets_perform
  · intro w moved reached succeeded
    have sound := warranted w reached
    obtain ⟨accounted, entry, found, rfl, boot, provenance, derived⟩ := reached
    obtain ⟨entry', found', rfl, _, boot', provenance'⟩ := entry_of_transition found succeeded
    exact ⟨accounted.called sound, entry', found', rfl, boot'.trans boot,
      provenance'.trans provenance, derived⟩
  · intro w status reached _
    exact reached.1.called (warranted w reached)

theorem meets_admitObserved :
    Meets (Reached plane r d record)
      (admitObserved r.envs (advertisedClaim request.claim) d record) (Reached plane r d)
      (Served plane r) := by
  unfold admitObserved
  split
  · rename_i state
    apply meets_promote type accepted listed rfl
    rw [state]
    exact .admits
  · exact Meets.pure fun _ holds => holds

theorem meets_activateAdmitted {detail : Bytes} :
    Meets (Reached plane r d record)
      (activateAdmitted r.envs plane.federation.policy (advertisedClaim request.claim) d detail
        record) (fun moved => Reached plane r d moved.1) (Served plane r) := by
  unfold activateAdmitted
  split
  · rename_i state
    split
    · exact Meets.pure fun _ holds => holds
    · rename_i ungated
      have promotes : Promotes plane.federation.policy record.provenance record.state
          .active := by
        rw [state]
        apply Promotes.activates
        intro required
        simpa [required] using ungated
      apply Meets.bind (meets_promote type accepted listed rfl promotes)
      intro moved
      exact Meets.pure fun _ holds => holds
  · exact Meets.pure fun _ holds => holds

theorem meets_activateDegraded :
    Meets (Reached plane r d record)
      (activateDegraded r.envs (advertisedClaim request.claim) d record) (Reached plane r d)
      (Served plane r) := by
  unfold activateDegraded
  split
  · rename_i state
    apply meets_promote type accepted listed rfl
    rw [state]
    exact .restores
  · exact Meets.pure fun _ holds => holds

theorem meets_advertiseDevice {response : AdvertiseResponse} :
    Meets (Served plane r)
      (advertiseDevice r.envs r.connection plane.federation.policy request.claim response d)
      (fun _ => Served plane r) (Served plane r) := by
  have warranted : ∀ w : Work, Warranted plane r w.plane.federation
      (.observe d (advertisedClaim request.claim)) := fun w => .observed type accepted listed
  refine Meets.bind (Q := Reached plane r d) (meets_perform ?_ ?_) fun observed => ?_
  · intro w observed accounted succeeded
    obtain ⟨entry, found, rfl, _, boot, provenance, derived⟩ := entry_of_observe succeeded
    exact ⟨accounted.called (warranted w), entry, found, rfl, boot, provenance, derived⟩
  · intro w status accounted _
    exact accounted.called (warranted w)
  apply Meets.bind (meets_admitObserved type accepted listed)
  intro admitted
  apply Meets.bind (meets_activateAdmitted type accepted listed)
  intro activated
  apply Meets.bind (meets_activateDegraded type accepted listed)
  intro last
  apply Meets.bind (Q := fun _ => Served plane r)
  · exact meets_update fun w reached => reached.1.noteGeneration
  · intro _
    exact Meets.pure fun _ accounted => accounted

end Device

theorem meets_advertiseDevices {response : AdvertiseResponse}
    {devices : List AcceleratorDescriptor} (listed : ∀ d ∈ devices, d ∈ request.devices) :
    Meets (Served plane r)
      (advertiseDevices r.envs r.connection plane.federation.policy request.claim response devices)
      (fun _ => Served plane r) (Served plane r) := by
  induction devices generalizing response with
  | nil => exact Meets.pure fun _ accounted => accounted
  | cons d rest ih =>
      apply Meets.bind (meets_advertiseDevice type accepted (listed d List.mem_cons_self))
      intro response'
      exact ih fun d' member => listed d' (List.mem_cons_of_mem d member)

end Advertising

/-! ### The calls of a request -/

section Requests

variable {plane : ControlPlane} {r : Request}

theorem requireSession_eq_ok {connection : ConnectionState} {session : SessionData} :
    plane.requireSession connection = .ok session ↔
      plane.sessions[connection.id]? = some session := by
  rw [ControlPlane.requireSession]
  split <;> simp_all

theorem requireAgentSession_eq_ok {connection : ConnectionState} {session : SessionData} :
    plane.requireAgentSession connection = .ok session ↔
      plane.sessions[connection.id]? = some session ∧ session.role = .agent := by
  simp only [ControlPlane.requireAgentSession, bind_eq_ok, ensure_eq_ok, requireSession_eq_ok,
    decide_eq_true_eq]
  constructor
  · rintro ⟨_, found, _, agent, same⟩
    cases same
    exact ⟨found, agent⟩
  · rintro ⟨found, agent⟩
    exact ⟨session, found, (), agent, rfl⟩

theorem validateSessionAuthority_eq_ok {session : SessionData} :
    plane.validateSessionAuthority session = .ok () ↔
      session.epoch = plane.federation.epoch := by
  rw [ControlPlane.validateSessionAuthority, ensure_eq_ok, decide_eq_true_eq]

variable {detail : Bytes} {α : Type}

/-- A handler that calls the federation once, after checks that change nothing. -/
theorem meets_single {may : Federation → Command → Prop} {P : Work → Prop}
    {envs : Nat → Environment} {op : Operation α}
    {finish : α → Result ResponseMessage} (initially : ∀ w, P w → w = ⟨plane, []⟩)
    (warranted : ∀ w, P w → may w.plane.federation op.command) :
    Meets P (do let a ← perform envs op detail; pure (finish a))
      (fun _ => Accounted may plane) (Accounted may plane) := by
  have accounted : ∀ w, P w → Accounted may plane (w.called envs op) := by
    intro w holds
    apply Accounted.called _ (warranted w holds)
    rw [initially w holds]
    exact .initial
  apply Meets.bind (Q := fun _ => Accounted may plane)
  · exact meets_perform (fun w _ holds _ => accounted w holds) fun w _ holds _ =>
      accounted w holds
  · intro a
    exact Meets.pure fun _ holds => holds

/-- The checks with which every request of an agent begins. -/
theorem meets_standing {E : Work → Prop} {R : α → Work → Prop}
    {next : SessionData → Handler α} (refused : E ⟨plane, []⟩)
    (passed : ∀ session, Standing plane r.connection session →
      Meets (· = ⟨plane, []⟩) (next session) R E) :
    Meets (· = ⟨plane, []⟩) (do
      let session ← Handler.check r.connection.peer (·.requireAgentSession r.connection)
      Handler.check r.connection.peer (·.validateSessionAuthority session)
      next session) R E := by
  have stays : ∀ w : Work, w = ⟨plane, []⟩ → E w := fun w same => same ▸ refused
  refine meets_check stays fun session => meets_check (fun w holds => stays w holds.1) fun _ => ?_
  rintro w ⟨⟨rfl, found⟩, current⟩
  obtain ⟨established, agent⟩ := requireAgentSession_eq_ok.mp found
  exact passed session ⟨established, agent, validateSessionAuthority_eq_ok.mp current⟩ _ rfl

theorem meets_handleTransition (type : r.type = .transition) :
    Meets (· = ⟨plane, []⟩) (handleTransition r.envs r.connection r.payload)
      (fun _ => Served plane r) (Served plane r) := by
  refine meets_standing .initial fun session standing => ?_
  refine meets_check (fun w same => same ▸ .initial) fun request => ?_
  refine meets_check (fun w holds => holds.1 ▸ .initial) fun _ => ?_
  apply meets_single
  · rintro w ⟨⟨rfl, _⟩, _⟩
    rfl
  · rintro w ⟨⟨rfl, decoded⟩, named⟩
    simp only [ensure_eq_ok, Bool.and_eq_true, decide_eq_true_eq] at named
    exact .moved type ⟨standing, decoded, named⟩ rfl

/-- The checks of an advertisement before the federation is called. -/
theorem meets_advertised {E : Work → Prop} {R : α → Work → Prop}
    {next : AdvertiseRequest → Handler α} (refused : E ⟨plane, []⟩)
    (passed : ∀ session request, Advertised plane r session request →
      Meets (· = ⟨plane, []⟩) (next request) R E) :
    Meets (· = ⟨plane, []⟩) (do
      let session ← Handler.check r.connection.peer (·.requireAgentSession r.connection)
      Handler.check r.connection.peer (·.validateSessionAuthority session)
      let request ← Handler.check r.connection.peer fun plane =>
        decodeAdvertiseRequest plane.federation.registry r.payload
      admitAdvertisement r.connection session request
      next request) R E := by
  refine meets_standing refused fun session standing => ?_
  refine meets_check (fun w same => same ▸ refused) fun request => ?_
  refine Meets.bind (Q := fun _ w => w = ⟨plane, []⟩ ∧ Advertised plane r session request)
    ?_ fun _ => ?_
  · refine meets_check (fun w holds => holds.1 ▸ refused) fun _ => ?_
    refine meets_check (fun w holds => holds.1.1 ▸ refused) fun _ => ?_
    split
    · rename_i unowned
      refine Meets.pure ?_
      rintro w ⟨⟨⟨rfl, decoded⟩, present⟩, named⟩
      simp only [ensure_eq_ok, Bool.and_eq_true, decide_eq_true_eq, Bool.not_eq_true',
        List.isEmpty_eq_false_iff] at present named
      refine ⟨rfl, standing, decoded, named, fun d listed => ?_, present⟩
      have owned := List.find?_eq_none.mp unowned d listed
      simpa using owned
    · refine Meets.leave ?_
      rintro w ⟨⟨⟨rfl, _⟩, _⟩, _⟩
      exact refused
  · rintro w ⟨rfl, accepted⟩
    exact passed session request accepted _ rfl

theorem meets_handleAdvertise (type : r.type = .advertise) :
    Meets (· = ⟨plane, []⟩) (handleAdvertise r.envs r.connection r.payload)
      (fun _ => Served plane r) (Served plane r) := by
  refine meets_advertised .initial fun session request accepted => ?_
  refine meets_plane fun plane' => ?_
  apply Meets.bind (Q := fun _ => Served plane r)
  · rintro w ⟨rfl, rfl⟩
    exact meets_advertiseDevices type accepted (fun _ listed => listed) _ .initial
  · intro response
    exact Meets.pure fun _ accounted => accounted

/-- The checks with which the requests that any session may make begin. -/
theorem meets_session {β : Type} {view : SessionData → ControlPlane → Result α}
    {decoded : ControlPlane → Result β} {next : β → Handler (Result ResponseMessage)}
    (passed : ∀ request, Meets (· = ⟨plane, []⟩) (next request)
      (fun _ => Served plane r) (Served plane r)) :
    Meets (· = ⟨plane, []⟩) (do
      let session ← Handler.check r.connection.peer (·.requireSession r.connection)
      let _ ← Handler.check r.connection.peer (view session)
      let request ← Handler.check r.connection.peer decoded
      next request) (fun _ => Served plane r) (Served plane r) := by
  refine meets_check (fun w same => same ▸ .initial) fun session => ?_
  refine meets_check (fun w holds => holds.1 ▸ .initial) fun _ => ?_
  refine meets_check (fun w holds => holds.1.1 ▸ .initial) fun request => ?_
  exact (passed request).consequence (fun w holds => holds.1.1.1) fun _ _ served => served

theorem meets_handle (texts : Rendering) (opens : r.type ≠ .hello) (closes : r.type ≠ .goodbye) :
    Meets (· = ⟨plane, []⟩) (handle texts r.envs r.connection r.type r.payload)
      (fun _ => Served plane r) (Served plane r) := by
  have initially : ∀ w : Work, w = ⟨plane, []⟩ → Served plane r w := fun w same => same ▸ .initial
  cases type : r.type with
  | hello => exact absurd type opens
  | goodbye => exact absurd type closes
  | advertise => exact meets_handleAdvertise type
  | transition => exact meets_handleTransition type
  | query =>
      exact meets_session fun request => meets_plane fun plane' =>
        Meets.pure fun w holds => initially w holds.1
  | evaluate =>
      exact meets_session fun request => meets_single (fun w same => same) fun _ _ => .evaluated type
  | planMigration =>
      exact meets_session fun request => meets_single (fun w same => same) fun _ _ => .planned type
  | registerWorkload =>
      exact meets_session fun request => meets_single (fun w same => same) fun _ _ => .registered type
  | heartbeat =>
      refine meets_check initially fun session => meets_check (fun w holds => initially w holds.1)
        fun request => meets_check (fun w holds => initially w holds.1.1) fun _ =>
          meets_check (fun w holds => initially w holds.1.1.1) fun _ =>
            meets_check (fun w holds => initially w holds.1.1.1.1) fun _ =>
              meets_plane fun plane' => Meets.pure fun w holds => initially w holds.1.1.1.1.1.1
  | helloAck | advertiseAck | queryResponse | evaluateResponse | planMigrationResponse
  | transitionResponse | heartbeatAck | errorResponse | registerWorkloadAck =>
      exact Meets.pure initially

theorem run_check_ok {β : Type} {view : ControlPlane → Result α} {w : Work}
    {a : α} (passed : view w.plane = .ok a) (next : α → Handler β) :
    (Handler.check detail view >>= next).run w = (next a).run w := by
  apply run_bind_ok
  show (orError detail (view w.plane), w) = _
  rw [passed]
  rfl

theorem run_check_error {β : Type} {view : ControlPlane → Result α} {w : Work}
    {status : Status} (refused : view w.plane = .error status) (next : α → Handler β) :
    (Handler.check detail view >>= next).run w =
      (.error (makeError status.code status.message detail), w) := by
  apply run_bind_error
  show (orError detail (view w.plane), w) = _
  rw [refused]
  rfl

theorem work_eq (texts : Rendering) {type : MessageType} (typed : r.type = type) :
    plane.work texts r = ((handle texts r.envs r.connection type r.payload).run ⟨plane, []⟩).2 := by
  rw [ControlPlane.work, typed]

/-- A handshake that passes its scan establishes a session. -/
theorem work_hello_of_scan (texts : Rendering) {request : HelloRequest}
    {response : HelloResponse} (type : r.type = .hello)
    (decoded : decodeHelloRequest r.payload = .ok request)
    (passed : plane.scanHello r.connection request = .ok response) :
    plane.work texts r = ⟨plane.establish r.connection request, []⟩ := by
  rw [work_eq texts type, handle, handleHello, run_check_ok decoded, run_bind_ok (t := ⟨plane, []⟩) (a := response)]
  · rfl
  · show ((plane.scanHello r.connection request).mapError helloAck, _) = _
    rw [passed]
    rfl

/-- A handshake establishes a session or does nothing. -/
theorem work_hello (texts : Rendering) (type : r.type = .hello) :
    plane.work texts r = ⟨plane, []⟩ ∨ ∃ request response,
      decodeHelloRequest r.payload = .ok request ∧
      plane.scanHello r.connection request = .ok response ∧
      plane.work texts r = ⟨plane.establish r.connection request, []⟩ := by
  cases decoded : decodeHelloRequest r.payload with
  | error status =>
      left
      rw [work_eq texts type, handle, handleHello, run_check_error decoded]
  | ok request =>
      cases scanned : plane.scanHello r.connection request with
      | error refusal =>
          left
          rw [work_eq texts type, handle, handleHello, run_check_ok decoded,
            run_bind_error (t := ⟨plane, []⟩)]
          show ((plane.scanHello r.connection request).mapError helloAck, _) = _
          rw [scanned]
          rfl
      | ok response =>
          right
          exact ⟨request, response, rfl, scanned, work_hello_of_scan texts type decoded scanned⟩

/-- A farewell that is decoded ends the session of its connection. -/
theorem work_goodbye_of_decoded (texts : Rendering) {request : GoodbyeRequest}
    (type : r.type = .goodbye) (decoded : decodeGoodbyeRequest r.payload = .ok request) :
    plane.work texts r = ⟨plane.endSession r.connection, []⟩ := by
  rw [work_eq texts type, handle, handleGoodbye, run_check_ok decoded]
  rfl

/-- A farewell ends the session of its connection or does nothing. -/
theorem work_goodbye (texts : Rendering) (type : r.type = .goodbye) :
    plane.work texts r = ⟨plane, []⟩ ∨ ∃ request, decodeGoodbyeRequest r.payload = .ok request ∧
      plane.work texts r = ⟨plane.endSession r.connection, []⟩ := by
  cases decoded : decodeGoodbyeRequest r.payload with
  | error status =>
      left
      rw [work_eq texts type, handle, handleGoodbye, run_check_error decoded]
  | ok request => exact .inr ⟨request, rfl, work_goodbye_of_decoded texts type decoded⟩

/-- A request to move a member that passes its checks leads to that one call. -/
theorem work_transition (texts : Rendering) {session : SessionData}
    {request : TransitionRequest} (type : r.type = .transition)
    (accepted : Requested plane r session request) :
    plane.work texts r = (⟨plane, []⟩ : Work).called r.envs
      (.transition request.accelerator request.target request.claim) := by
  have named : ensure (request.claim.agent = session.agent &&
      request.claim.agentBoot = session.agentBoot) (.failure .staleBoot
        "transition claim does not match the identity established during the handshake") =
      .ok () := by
    rw [ensure_eq_ok]
    simpa using accepted.named
  have standing := accepted.standing
  rw [work_eq texts type, handle, handleTransition,
    run_check_ok (requireAgentSession_eq_ok.mpr ⟨standing.established, standing.agent⟩),
    run_check_ok (validateSessionAuthority_eq_ok.mpr standing.current),
    run_check_ok accepted.decoded, run_check_ok named, run_bind]
  split
  · rename_i ran
    exact (congrArg Prod.snd ran).symm
  · rename_i ran
    exact (congrArg Prod.snd ran).symm

/-- Every call that a request makes is warranted, and together they are what it does to the
federation. -/
theorem accounted_work (texts : Rendering) (opens : r.type ≠ .hello)
    (closes : r.type ≠ .goodbye) :
    Served plane r (plane.work texts r) :=
  (meets_handle texts opens closes).state rfl

/-- Handshakes and farewells make no calls, so that all calls are warranted. -/
theorem calls_work (texts : Rendering) :
    (plane.work texts r).plane.federation = plane.federation.after (plane.work texts r).calls ∧
      Each (Warranted plane r) plane.federation (plane.work texts r).calls := by
  by_cases opens : r.type = .hello
  · rcases work_hello texts opens with same | ⟨_, _, _, _, same⟩ <;> rw [same] <;>
      exact ⟨rfl, .nil⟩
  · by_cases closes : r.type = .goodbye
    · rcases work_goodbye texts closes with same | ⟨_, _, same⟩ <;> rw [same] <;>
        exact ⟨rfl, .nil⟩
    · have accounted := @accounted_work plane r texts opens closes
      exact ⟨accounted.federation, accounted.each⟩

end Requests

/-! ### The calls of a disconnection -/

/-- A member that is fenced when its session ends. -/
def SessionData.fences (session : SessionData) (record : MemberRecord) : Bool :=
  record.agent = session.agent && record.agentBoot = session.agentBoot && record.isLive &&
    record.state ≠ .fenced

/-- The work after one member of an ended session has been dealt with. -/
def Work.fenced (envs : Nat → Environment) (session : SessionData) (w : Work)
    (record : MemberRecord) : Work :=
  if session.fences record then
    w.called envs (.fence record.accelerator (sessionEndedClaim w.plane.federation.epoch record))
  else w

theorem run_fenceOwned (envs : Nat → Environment) (session : SessionData)
    (records : List MemberRecord) (w : Work) :
    (fenceOwned envs session records).run w = (.ok (), records.foldl (·.fenced envs session) w) := by
  induction records generalizing w with
  | nil => rfl
  | cons record rest ih =>
      rw [List.foldl_cons, ← ih, fenceOwned, Work.fenced, SessionData.fences]
      split
      · rfl
      · rfl

/-- An ended session is forgotten, and the members it owned are fenced one by one. -/
theorem disconnect_eq (plane : ControlPlane) (connection : ConnectionState)
    (envs : Nat → Environment) : plane.disconnect connection envs =
      match plane.sessions[connection.id]? with
      | none => ⟨plane.endSession connection, []⟩
      | some session =>
          if session.role ≠ .agent || session.agent.isNil then ⟨plane.endSession connection, []⟩
          else (plane.federation.members.values.map (·.record)).foldl (·.fenced envs session)
            ⟨plane.endSession connection, []⟩ := by
  have handled : plane.disconnect connection envs = ((match plane.sessions[connection.id]? with
      | none => pure ()
      | some session =>
          if session.role ≠ .agent || session.agent.isNil then pure ()
          else fenceOwned envs session (plane.federation.members.values.map (·.record)) :
      Handler Unit).run ⟨plane.endSession connection, []⟩).2 := rfl
  rw [handled]
  split
  · rfl
  · split
    · rfl
    · rw [run_fenceOwned]

/-- A disconnection only fences. -/
theorem accounted_disconnect (plane : ControlPlane) (connection : ConnectionState)
    (envs : Nat → Environment) :
    Accounted (fun _ c => ∃ a claim, c = .transition a .fenced claim)
      (plane.endSession connection) (plane.disconnect connection envs) := by
  rw [disconnect_eq]
  split
  · exact .initial
  · split
    · exact .initial
    · refine List.foldlRecOn _ _ .initial fun w accounted record _ => ?_
      rw [Work.fenced]
      split
      · exact accounted.called ⟨_, _, rfl⟩
      · exact accounted

theorem sessions_fenced (envs : Nat → Environment) (session : SessionData)
    (records : List MemberRecord) (w : Work) :
    (records.foldl (·.fenced envs session) w).plane.sessions = w.plane.sessions := by
  induction records generalizing w with
  | nil => rfl
  | cons record rest ih =>
      rw [List.foldl_cons, ih, Work.fenced]
      split
      · rfl
      · rfl

theorem sessions_disconnect (plane : ControlPlane) (connection : ConnectionState)
    (envs : Nat → Environment) : (plane.disconnect connection envs).plane.sessions =
      plane.sessions.erase connection.id := by
  rw [disconnect_eq]
  split
  · rfl
  · split
    · rfl
    · rw [sessions_fenced]
      rfl

end Net

end Haf
