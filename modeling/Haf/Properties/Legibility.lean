/-
# Answers that a client can read

Every handler is followed to each of its answers, to say what the answer carries and when the
reader on the other side accepts it. Refusals, member records and plans are always accepted.
What is not are the texts that are composed without a limit and the answer to a farewell, which
carries a member record that nobody filled in.
-/

import Haf.Net.Responses
import Haf.Properties.Attendance
import Haf.Properties.Presentable

namespace Haf.Net

open Federation Procedure Refusal Sequence Wire ByteReader

/-! ### Requests -/

theorem legibly_decode {α : Type} {reader : ByteReader α} (legible : ReadsLegibly reader)
    (payload : Bytes) : Legibly (decode reader payload) := by
  rw [decode]
  exact Refuses.map_iff.mpr (legible.run payload)

@[simp]
theorem legibly_readAuthorityClaim : ReadsLegibly readAuthorityClaim :=
  .of_refuses (by simp [readAuthorityClaim])

theorem legibly_decodeHelloRequest : ∀ payload, Legibly (decodeHelloRequest payload) :=
  legibly_decode (.of_refuses (by simp +decide [readHelloRequest]))

theorem legibly_decodeAdvertiseRequest (R : Registry) :
    ∀ payload, Legibly (decodeAdvertiseRequest R payload) :=
  legibly_decode (.of_refuses (by simp +decide [readAdvertiseRequest]))

theorem legibly_decodeQueryRequest : ∀ payload, Legibly (decodeQueryRequest payload) :=
  legibly_decode (.of_refuses (by simp +decide [readQueryRequest]))

theorem legibly_decodeEvaluateRequest : ∀ payload, Legibly (decodeEvaluateRequest payload) :=
  legibly_decode (.of_refuses (by simp [readEvaluateRequest]))

theorem legibly_decodePlanMigrationRequest :
    ∀ payload, Legibly (decodePlanMigrationRequest payload) :=
  legibly_decode (.of_refuses (by simp [readPlanMigrationRequest]))

theorem legibly_decodeTransitionRequest : ∀ payload, Legibly (decodeTransitionRequest payload) :=
  legibly_decode (.of_refuses (by simp +decide [readTransitionRequest]))

theorem legibly_decodeHeartbeatRequest : ∀ payload, Legibly (decodeHeartbeatRequest payload) :=
  legibly_decode (.of_refuses (by simp [readHeartbeatRequest]))

theorem legibly_decodeGoodbyeRequest : ∀ payload, Legibly (decodeGoodbyeRequest payload) :=
  legibly_decode (.of_refuses (by simp [readGoodbyeRequest]))

theorem legibly_decodeRegisterWorkloadRequest (R : Registry) :
    ∀ payload, Legibly (decodeRegisterWorkloadRequest R payload) :=
  legibly_decode (.of_refuses (by simp [readRegisterWorkloadRequest]))

/-! ### Sessions -/

@[simp]
theorem legibly_requireSession (plane : ControlPlane) (connection : ConnectionState) :
    Legibly (plane.requireSession connection) := by
  rw [ControlPlane.requireSession]
  split <;> simp +decide

theorem legibly_requireAgentSession (plane : ControlPlane) (connection : ConnectionState) :
    Legibly (plane.requireAgentSession connection) := by
  simp +decide [ControlPlane.requireAgentSession]

theorem legibly_validateSessionAuthority (plane : ControlPlane) (session : SessionData) :
    Legibly (plane.validateSessionAuthority session) := by
  simp +decide [ControlPlane.validateSessionAuthority]

/-- The connection has a session that was established under the current epoch. -/
def ControlPlane.Admits (plane : ControlPlane) (connection : ConnectionState) : Prop :=
  ∃ session, plane.sessions[connection.id]? = some session ∧
    session.epoch = plane.federation.epoch

/-! ### What answers carry -/

/-- The answer carries a response, which its reader accepts exactly under the condition. -/
def Carries (holds : Prop) (answer : Result ResponseMessage) : Prop :=
  ∀ m, answer = .ok m →
    ∃ response : Response, response.CarriedBy m ∧ (response.Bounded ↔ holds)

theorem carries_makeError {holds : Prop} {code : ErrorCode} {message detail : Bytes}
    (legible : Status.Legible ⟨code, message⟩)
    (short : detail.length ≤ Limits.maxDescriptionBytes) (now : holds) :
    Carries holds (makeError code message detail) := by
  intro m made
  obtain rfl := Except.ok.inj made
  exact ⟨.error { code, message, detail }, ⟨rfl, rfl⟩,
    iff_of_true ⟨legible.1, legible.2, short⟩ now⟩

theorem carries_makeResponse {holds : Prop} (response : Response) {payload : Bytes}
    (encoded : response.encode = .ok payload) (accepted : response.Bounded ↔ holds) :
    Carries holds (makeResponse response.type payload) := by
  intro m made
  obtain rfl := Except.ok.inj made
  exact ⟨response, ⟨rfl, encoded⟩, accepted⟩

/-- All answers of a handler, from the control plane as it is found. -/
def Tells (plane : ControlPlane) (holds : Prop) (handler : Handler (Result ResponseMessage)) :
    Prop :=
  Answers (· = ⟨plane, []⟩) handler (fun answer _ => Carries holds answer) (Carries holds)

section Rules

variable {α : Type} {plane : ControlPlane} {holds : Prop} {detail : Bytes}

theorem tells_pure {answer : Result ResponseMessage} (carries : Carries holds answer) :
    Tells plane holds (pure answer) := fun _ _ => carries

/-- A check that fails is answered with the status it failed with. -/
theorem answers_check {β : Type} {view : ControlPlane → Result α} {next : α → Handler β}
    {Q : β → Work → Prop} (short : detail.length ≤ Limits.maxDescriptionBytes)
    (legible : Legibly (view plane)) (refused : ∀ status, view plane = .error status → holds)
    (passed : ∀ a, view plane = .ok a → Answers (· = ⟨plane, []⟩) (next a) Q (Carries holds)) :
    Answers (· = ⟨plane, []⟩) (Handler.check detail view >>= next) Q (Carries holds) := by
  intro w same
  subst same
  cases seen : view plane with
  | error status =>
      rw [run_check_error seen]
      exact carries_makeError (legible.of_error seen) short (refused status seen)
  | ok a =>
      rw [run_check_ok seen]
      exact passed a seen _ rfl

theorem tells_check {view : ControlPlane → Result α}
    {next : α → Handler (Result ResponseMessage)}
    (short : detail.length ≤ Limits.maxDescriptionBytes) (legible : Legibly (view plane))
    (refused : ∀ status, view plane = .error status → holds)
    (passed : ∀ a, view plane = .ok a → Tells plane holds (next a)) :
    Tells plane holds (Handler.check detail view >>= next) :=
  answers_check short legible refused passed

theorem tells_plane {next : ControlPlane → Handler (Result ResponseMessage)}
    (then_ : Tells plane holds (next plane)) : Tells plane holds (Handler.plane >>= next) := by
  intro w same
  subst same
  exact then_ _ rfl

theorem run_perform (envs : Nat → Environment) (op : Operation α) (detail : Bytes) (w : Work) :
    (perform envs op detail).run w =
      (orError detail (op.run w.plane.federation (w.env envs)).result, w.called envs op) := rfl

/-- A handler that ends with one call. -/
theorem tells_single {envs : Nat → Environment} {op : Operation α}
    {finish : α → Result ResponseMessage}
    (short : detail.length ≤ Limits.maxDescriptionBytes)
    (legible : Legibly (op.run plane.federation (envs 0)).result)
    (refused : ∀ status, (op.run plane.federation (envs 0)).result = .error status → holds)
    (made : ∀ a, (op.run plane.federation (envs 0)).result = .ok a → Carries holds (finish a)) :
    Tells plane holds (do let a ← perform envs op detail; pure (finish a)) := by
  intro w same
  subst same
  have ran := run_perform envs op detail ⟨plane, []⟩
  cases ended : (op.run plane.federation (envs 0)).result with
  | error status =>
      have left : (perform envs op detail).run ⟨plane, []⟩ =
          (.error (makeError status.code status.message detail), _) :=
        ran.trans (congrArg (fun result => (orError detail result, _)) ended)
      rw [run_bind_error left]
      exact carries_makeError (legible.of_error ended) short (refused status ended)
  | ok a =>
      have went : (perform envs op detail).run ⟨plane, []⟩ = (.ok a, _) :=
        ran.trans (congrArg (fun result => (orError detail result, _)) ended)
      rw [run_bind_ok went]
      exact made a ended

/-- The checks that most handlers begin with. -/
theorem tells_admitted {connection : ConnectionState}
    {next : Handler (Result ResponseMessage)}
    (short : connection.peer.length ≤ Limits.maxDescriptionBytes)
    (refused : ¬ plane.Admits connection → holds)
    (passed : plane.Admits connection → Tells plane holds next) :
    Tells plane holds (do
      let session ← Handler.check connection.peer (·.requireSession connection)
      Handler.check connection.peer (·.validateSessionAuthority session)
      next) := by
  apply tells_check short (legibly_requireSession plane connection)
  · intro status missing
    apply refused
    rintro ⟨session, found, _⟩
    rw [requireSession_eq_ok.mpr found] at missing
    cases missing
  · intro session required
    have found := requireSession_eq_ok.mp required
    apply tells_check short (legibly_validateSessionAuthority plane session)
    · intro status stale
      apply refused
      rintro ⟨session', located, current⟩
      rw [found] at located
      cases located
      rw [validateSessionAuthority_eq_ok.mpr current] at stale
      cases stale
    · intro _ current
      exact passed ⟨session, found, validateSessionAuthority_eq_ok.mp current⟩

end Rules

/-! ### Members in answers -/

section Members

variable {f : Federation} {env : Environment} {record : MemberRecord}

theorem storable_observe {d : AcceleratorDescriptor} {claim : AuthorityClaim}
    (presentable : f.Presentable) (accepted : (f.observe d claim env).result = .ok record) :
    record.Storable := by
  obtain ⟨entry, found, same, _⟩ := Federation.entry_of_observe accepted
  have after : (f.observe d claim env).state.Presentable :=
    presentable.execute (c := .observe d claim) rfl
  exact same ▸ after.member _ entry found

theorem storable_transition {a : AcceleratorId} {target : MemberState} {claim : AuthorityClaim}
    (presentable : f.Presentable)
    (accepted : (f.transition a target claim env).result = .ok record) : record.Storable := by
  obtain ⟨s, settled⟩ := Federation.settled_of_conclude accepted
  simp only [Federation.settleTransition, bind_eq_ok, Federation.memberEntry_eq_ok] at settled
  obtain ⟨_, _, entry, located, _⟩ := settled
  obtain ⟨entry', found, same, _⟩ := Federation.entry_of_transition located accepted
  have after : (f.transition a target claim env).state.Presentable :=
    presentable.execute (c := .transition a target claim) rfl
  exact same ▸ after.member _ entry' found

end Members

/-- A call that commits no migration leaves the federation presentable. -/
theorem presentable_called {α : Type} {envs : Nat → Environment} {w : Work} {op : Operation α}
    (uncommitted : op.command.commits = false) (presentable : w.plane.federation.Presentable) :
    (w.called envs op).plane.federation.Presentable := by
  have executed : (w.plane.federation.execute op.command (w.env envs)).state.Presentable :=
    presentable.execute uncommitted
  rw [op.executed] at executed
  exact executed

/-! ### Advertisements -/

/-- What a handler does to the sessions keeps the federation as it is. -/
theorem answers_update {change : ControlPlane → ControlPlane} {P Q : Work → Prop}
    {A : Result ResponseMessage → Prop} (holds : ∀ w, P w → Q { w with plane := change w.plane }) :
    Answers P (Handler.update change) (fun _ => Q) A := holds

theorem length_notActivated (d : AcceleratorDescriptor) : (notActivated d).length ≤ 121 := by
  rw [notActivated]
  exact Short.within (by decide)

section Advertising

variable {envs : Nat → Environment} {claim : AuthorityClaim} {d : AcceleratorDescriptor}

/-- The federation is presentable, and so is the member an advertisement has got to. -/
def Shown (record : MemberRecord) (w : Work) : Prop :=
  w.plane.federation.Presentable ∧ record.Storable

/-- A call that returns a member answers legibly or shows it. -/
theorem answers_member {op : Operation MemberRecord} {detail : Bytes} {P : Work → Prop}
    (presentable : ∀ w, P w → w.plane.federation.Presentable)
    (short : detail.length ≤ Limits.maxDescriptionBytes)
    (uncommitted : op.command.commits = false)
    (legible : ∀ w : Work, Legibly (op.run w.plane.federation (w.env envs)).result)
    (storable : ∀ w record, P w → (op.run w.plane.federation (w.env envs)).result = .ok record →
      record.Storable) :
    Answers P (perform envs op detail) Shown (Carries True) := by
  intro w holds
  rw [run_perform]
  cases ended : (op.run w.plane.federation (w.env envs)).result with
  | error status => exact carries_makeError ((legible w).of_error ended) short trivial
  | ok record =>
      exact ⟨presentable_called uncommitted (presentable w holds), storable w record holds ended⟩

variable (faults : ∀ n status, (envs n).writeFault = some status → status.Legible)
include faults

theorem answers_observe :
    Answers (fun w => w.plane.federation.Presentable)
      (perform envs (.observe d claim) d.id.toText) Shown (Carries True) := by
  apply answers_member
  · exact fun _ holds => holds
  · rw [d.id.length_toText]
    decide
  · rfl
  · exact fun w => Federation.legibly_observe (faults _) _ d claim
  · exact fun w record holds accepted => storable_observe holds accepted

variable {record : MemberRecord} {policy : FederationPolicy}

/-- A member that has been shown is moved. -/
theorem answers_move {op : Operation MemberRecord} {target : MemberState}
    (moves : op = .transition d.id target claim) :
    Answers (Shown record) (perform envs op d.id.toText) Shown (Carries True) := by
  subst moves
  apply answers_member
  · exact fun _ holds => holds.1
  · rw [d.id.length_toText]
    decide
  · rfl
  · exact fun w => Federation.legibly_transition (faults _) _ d.id target claim
  · exact fun w record holds accepted => storable_transition holds.1 accepted

theorem answers_admitObserved :
    Answers (Shown record) (admitObserved envs claim d record) Shown (Carries True) := by
  unfold admitObserved
  split
  · exact answers_move faults rfl
  · exact .pure fun _ holds => holds

theorem answers_activateAdmitted {detail : Bytes} :
    Answers (Shown record) (activateAdmitted envs policy claim d detail record)
      (fun moved w => Shown moved.1 w ∧ moved.2.length ≤ detail.length + 121) (Carries True) := by
  unfold activateAdmitted
  split
  · split
    · apply Answers.pure
      intro w holds
      refine ⟨holds, ?_⟩
      rw [List.length_append]
      exact Nat.add_le_add_left (length_notActivated d) _
    · apply Answers.bind (answers_move faults rfl)
      intro activated
      apply Answers.pure
      intro w holds
      exact ⟨holds, Nat.le_add_right _ _⟩
  · apply Answers.pure
    intro w holds
    exact ⟨holds, Nat.le_add_right _ _⟩

theorem answers_activateDegraded :
    Answers (Shown record) (activateDegraded envs claim d record) Shown (Carries True) := by
  unfold activateDegraded
  split
  · exact answers_move faults rfl
  · exact .pure fun _ holds => holds

/-- The members listed so far can be read, and the remarks on them take little room. -/
structure Listing (response : AdvertiseResponse) (n : Nat) (w : Work) : Prop where
  presentable : w.plane.federation.Presentable
  member : ∀ m ∈ response.members, m.Storable
  detail : response.detail.length ≤ 121 * n

theorem answers_advertiseDevice {connection : ConnectionState}
    {response : AdvertiseResponse} {n : Nat}
    (member : ∀ m ∈ response.members, m.Storable) (detail : response.detail.length ≤ 121 * n) :
    Answers (fun w => w.plane.federation.Presentable)
      (advertiseDevice envs connection policy claim response d)
      (fun response' => Listing response' (n + 1)) (Carries True) := by
  apply Answers.bind (answers_observe faults)
  intro observed
  apply Answers.bind (answers_admitObserved faults)
  intro admitted
  apply Answers.bind (answers_activateAdmitted faults)
  rintro ⟨activated, remarks⟩
  apply Answers.bind (.knowing fun _ => answers_activateDegraded faults)
  intro shown
  apply Answers.bind (Q := fun _ w => Shown shown w ∧
    remarks.length ≤ response.detail.length + 121)
  · exact answers_update fun w holds => holds
  · intro _
    apply Answers.pure
    intro w holds
    refine ⟨holds.1.1, ?_, ?_⟩
    · intro m listed
      rcases List.mem_append.mp listed with earlier | last
      · exact member m earlier
      · rw [List.mem_singleton.mp last]
        exact holds.1.2
    · have few := holds.2
      show remarks.length ≤ _
      omega

theorem answers_advertiseDevices {connection : ConnectionState}
    (devices : List AcceleratorDescriptor) {response : AdvertiseResponse} {n : Nat} :
    Answers (Listing response n)
      (advertiseDevices envs connection policy claim response devices)
      (fun response' => Listing response' (n + devices.length)) (Carries True) := by
  induction devices generalizing response n with
  | nil => exact .pure fun _ holds => holds
  | cons d rest ih =>
      intro w holds
      have first : Answers (fun w => w.plane.federation.Presentable)
          (advertiseDevice envs connection policy claim response d)
          (fun response' => Listing response' (n + 1)) (Carries True) :=
        answers_advertiseDevice faults holds.member holds.detail
      have all := Answers.bind first fun response' => ih
      rw [List.length_cons, Nat.add_comm rest.length, ← Nat.add_assoc]
      exact all w holds.presentable

end Advertising

/-! ### Handlers -/

/-- No farewell is decoded, and the texts that are composed for the answer to a request keep to
the limits of the readers: the version of the server, the rendering of what is asked for, and
what the reasons of a decision quote. -/
def ControlPlane.WithinLimits (texts : Rendering) (plane : ControlPlane) (r : Request) : Prop :=
  match r.type with
  | .hello => ∀ request, decodeHelloRequest r.payload = .ok request →
      plane.config.serverVersion.length ≤ Limits.maxTokenBytes
  | .goodbye => ∀ request, decodeGoodbyeRequest r.payload ≠ .ok request
  | .query => ∀ request, plane.Admits r.connection → decodeQueryRequest r.payload = .ok request →
      (texts.query plane.federation (r.envs 0) request).length ≤ Limits.maxDescriptionBytes
  | .evaluate => ∀ request decision, plane.Admits r.connection →
      decodeEvaluateRequest r.payload = .ok request →
      (plane.federation.evaluate request.workload request.accelerator
        ⟨if request.hasSource then some request.source else none⟩ (r.envs 0)).result =
          .ok decision →
      (∀ reason ∈ decision.reasons, reason.Storable) ∧
        (texts.decision decision).length ≤ Limits.maxDescriptionBytes
  | .planMigration => ∀ request plan, plane.Admits r.connection →
      decodePlanMigrationRequest r.payload = .ok request →
      (plane.federation.planMigration request.workload request.source request.destination
        (withoutAgent request.claim) (r.envs 0)).result = .ok plan →
      (texts.plan plan).length ≤ Limits.maxDescriptionBytes
  | _ => True

section Handlers

variable {texts : Rendering} {plane : ControlPlane} {connection : ConnectionState}
  {payload : Bytes} {envs : Nat → Environment}

/-- The texts of a handshake's answer, whether it is refused or may go on. -/
theorem scanHello_bounds (plane : ControlPlane) (connection : ConnectionState)
    (request : HelloRequest) :
    match plane.scanHello connection request with
    | .error refusal => refusal.serverVersion = plane.config.serverVersion ∧
        refusal.detail.length ≤ Limits.maxDescriptionBytes
    | .ok response => response.serverVersion = plane.config.serverVersion := by
  have version (n : UInt16) : Short (decimal n.toNat) 5 :=
    ⟨length_decimal_le (by decide) (lt_trans n.toNat_lt (by decide))⟩
  rw [ControlPlane.scanHello]
  split_ifs
  iterate 4 exact ⟨rfl, Short.within (by decide)⟩
  iterate 2 rfl

instance short_generationLine (f : Federation) : Short (generationLine f) 256 where
  length_le := by
    rw [generationLine]
    exact Short.within (by decide)

theorem carries_helloAck {holds : Prop} {response : HelloResponse}
    (detail : response.detail.length ≤ Limits.maxDescriptionBytes)
    (version : response.serverVersion.length ≤ Limits.maxTokenBytes ↔ holds) :
    Carries holds (helloAck response) :=
  carries_makeResponse (.hello response) rfl
    ⟨fun bounded => version.mp bounded.serverVersion, fun now => ⟨version.mpr now, detail⟩⟩

variable (short : connection.peer.length ≤ Limits.maxDescriptionBytes)
include short

theorem tells_handleHello :
    Tells plane (plane.WithinLimits texts { connection, type := .hello, payload, envs })
      (handleHello connection payload) := by
  apply tells_check short (legibly_decodeHelloRequest payload)
  · intro status refused request decoded
    rw [refused] at decoded
    cases decoded
  · intro request decoded
    have version : plane.config.serverVersion.length ≤ Limits.maxTokenBytes ↔
        plane.WithinLimits texts { connection, type := .hello, payload, envs } :=
      ⟨fun holds _ _ => holds, fun holds => holds request decoded⟩
    intro w same
    subst same
    have bounds := scanHello_bounds plane connection request
    cases scanned : plane.scanHello connection request with
    | error refusal =>
        rw [scanned] at bounds
        have left : (Procedure.look fun w : Work =>
            (w.plane.scanHello connection request).mapError helloAck).run ⟨plane, []⟩ =
              (.error (helloAck refusal), ⟨plane, []⟩) := by
          show ((plane.scanHello connection request).mapError helloAck, _) = _
          rw [scanned]
          rfl
        rw [run_bind_error left]
        exact carries_helloAck bounds.2 (bounds.1 ▸ version)
    | ok response =>
        rw [scanned] at bounds
        have same : response.serverVersion = plane.config.serverVersion := bounds
        rw [run_bind_ok (t := ⟨plane, []⟩) (a := response)]
        · refine carries_helloAck ?_ (same ▸ version)
          have role : Short request.role.toText 16 := ⟨by cases request.role <;> decide⟩
          exact Short.within (by decide)
        · show ((plane.scanHello connection request).mapError helloAck, _) = _
          rw [scanned]
          rfl

theorem tells_handleQuery :
    Tells plane (plane.WithinLimits texts { connection, type := .query, payload, envs })
      (handleQuery texts envs connection payload) := by
  apply tells_admitted short
  · exact fun unadmitted _ admitted => absurd admitted unadmitted
  · intro admitted
    apply tells_check short (legibly_decodeQueryRequest payload)
    · intro status refused request _ decoded
      rw [refused] at decoded
      cases decoded
    · intro request decoded
      apply tells_plane
      apply tells_pure
      apply carries_makeResponse (.query _) rfl
      constructor
      · intro bounded request' _ decoded'
        rw [decoded] at decoded'
        cases decoded'
        exact bounded
      · intro holds
        exact holds request admitted decoded

theorem answers_admitAdvertisement {session : SessionData} {request : AdvertiseRequest} :
    Answers (· = ⟨plane, []⟩) (admitAdvertisement connection session request)
      (fun _ w => w = ⟨plane, []⟩) (Carries True) := by
  apply answers_check short (by simp +decide) fun _ _ => trivial
  intro _ _
  apply answers_check short (by simp +decide) fun _ _ => trivial
  intro _ _
  split
  · exact .pure fun _ same => same
  · rename_i d _
    exact .leave fun _ _ =>
      carries_makeError (by decide) (Short.within (by decide)) trivial

section Operations

variable (faults : ∀ n status, (envs n).writeFault = some status → status.Legible)
include faults

theorem tells_handleEvaluate (presentable : plane.federation.Presentable) :
    Tells plane (plane.WithinLimits texts { connection, type := .evaluate, payload, envs })
      (handleEvaluate texts envs connection payload) := by
  apply tells_admitted short
  · exact fun unadmitted _ _ admitted => absurd admitted unadmitted
  · intro admitted
    apply tells_check short (legibly_decodeEvaluateRequest payload)
    · intro status refused request _ _ decoded
      rw [refused] at decoded
      cases decoded
    · intro request decoded
      apply tells_single short (presentable.legibly_evaluate (faults 0) _ _ _)
      · intro status failed request' decision _ decoded' evaluated
        rw [decoded] at decoded'
        cases decoded'
        cases failed.symm.trans evaluated
      · intro decision evaluated
        obtain ⟨storable, few⟩ := storable_iff_of_evaluate evaluated
        apply carries_makeResponse (.evaluate _) rfl
        constructor
        · intro bounded request' decision' _ decoded' evaluated'
          rw [decoded] at decoded'
          cases decoded'
          cases evaluated.symm.trans evaluated'
          exact ⟨storable.mp bounded.decision, bounded.rendered⟩
        · intro holds
          obtain ⟨reasons, rendered⟩ := holds request decision admitted decoded evaluated
          exact ⟨storable.mpr reasons, few, rendered⟩

theorem tells_handlePlan (presentable : plane.federation.Presentable) :
    Tells plane (plane.WithinLimits texts { connection, type := .planMigration, payload, envs })
      (handlePlan texts envs connection payload) := by
  apply tells_admitted short
  · exact fun unadmitted _ _ admitted => absurd admitted unadmitted
  · intro admitted
    apply tells_check short (legibly_decodePlanMigrationRequest payload)
    · intro status refused request _ _ decoded
      rw [refused] at decoded
      cases decoded
    · intro request decoded
      apply tells_single short (presentable.legibly_planMigration (faults 0) _ _ _ _)
      · intro status failed request' plan _ decoded' planned
        rw [decoded] at decoded'
        cases decoded'
        cases failed.symm.trans planned
      · intro plan planned
        apply carries_makeResponse (.planMigration _) rfl
        constructor
        · intro bounded request' plan' _ decoded' planned'
          rw [decoded] at decoded'
          cases decoded'
          cases planned.symm.trans planned'
          exact bounded.rendered
        · intro holds
          exact ⟨storable_of_planMigration planned, holds request plan admitted decoded planned⟩

theorem tells_handleRegisterWorkload :
    Tells plane True (handleRegisterWorkload envs connection payload) := by
  apply tells_admitted short fun _ => trivial
  intro _
  apply tells_check short (legibly_decodeRegisterWorkloadRequest _ payload) fun _ _ => trivial
  intro request decoded
  have read : Ensures (readRegisterWorkloadRequest plane.federation.registry) fun request =>
      request.profile.validate plane.federation.registry = .ok () := by
    apply Ensures.step (WorkloadProfile.ensures_deserialize _)
    intro profile valid
    apply Ensures.then_
    intro _
    exact .pure valid.1
  have valid : request.profile.validate plane.federation.registry = .ok () :=
    of_decode (P := fun request : RegisterWorkloadRequest =>
      request.profile.validate plane.federation.registry = .ok ()) read decoded
  have tags := (WorkloadProfile.of_validate_sizes valid).2.2
  apply tells_single short (legibly_registerWorkload (faults 0) _ _ tags) fun _ _ => trivial
  intro revision _
  apply carries_makeResponse (.registerWorkload _) rfl
  exact iff_of_true (Short.within (by decide)) trivial

theorem tells_handleTransition (presentable : plane.federation.Presentable) :
    Tells plane True (handleTransition envs connection payload) := by
  apply tells_check short (legibly_requireAgentSession plane connection) fun _ _ => trivial
  intro session _
  apply tells_check short (legibly_validateSessionAuthority plane session) fun _ _ => trivial
  intro _ _
  apply tells_check short (legibly_decodeTransitionRequest payload) fun _ _ => trivial
  intro request _
  apply tells_check short (by simp +decide) fun _ _ => trivial
  intro _ _
  apply tells_single short (legibly_transition (faults 0) _ _ _ _) fun _ _ => trivial
  intro member accepted
  apply carries_makeResponse (.transition _) rfl
  exact iff_of_true ⟨storable_transition presentable accepted, Short.within (by decide)⟩ trivial

/-- An advertisement lists at most as many remarks as devices. -/
theorem tells_handleAdvertise (presentable : plane.federation.Presentable) :
    Tells plane True (handleAdvertise envs connection payload) := by
  apply tells_check short (legibly_requireAgentSession plane connection) fun _ _ => trivial
  intro session _
  apply tells_check short (legibly_validateSessionAuthority plane session) fun _ _ => trivial
  intro _ _
  apply tells_check short (legibly_decodeAdvertiseRequest _ payload) fun _ _ => trivial
  intro request decoded
  have few := length_devices_le decoded
  apply Answers.bind (answers_admitAdvertisement short)
  intro _
  apply tells_plane
  apply Answers.bind (Q := fun response => Listing response (0 + request.devices.length))
  · intro w same
    subst same
    exact answers_advertiseDevices faults request.devices _
      ⟨presentable, List.forall_mem_nil _, Nat.zero_le _⟩
  · intro response
    apply Answers.pure
    intro w listing m made
    obtain ⟨encoded, written, carried⟩ := bind_eq_ok.mp made
    obtain rfl := Except.ok.inj carried
    refine ⟨.advertise _, ⟨rfl, written⟩, iff_of_true ⟨?_, listing.member, ?_⟩ trivial⟩
    · rw [AdvertiseResponse.encodeMessage] at written
      split at written
      · cases written
      · rename_i within
        exact Nat.le_of_not_lt within
    · have count : Short (decimal request.devices.length) 2 :=
        ⟨length_decimal_le (by decide) (lt_of_le_of_lt few (by decide))⟩
      have remarks : Short response.detail 7744 :=
        ⟨listing.detail.trans ((Nat.zero_add _).symm ▸ Nat.mul_le_mul_left 121 few)⟩
      exact Short.within (by decide)

end Operations

theorem tells_handleHeartbeat :
    Tells plane True (handleHeartbeat connection payload) := by
  have empty : ([] : Bytes).length ≤ Limits.maxDescriptionBytes := Nat.zero_le _
  apply tells_check short (legibly_requireSession plane connection) fun _ _ => trivial
  intro session _
  apply tells_check short (legibly_decodeHeartbeatRequest payload) fun _ _ => trivial
  intro request _
  apply tells_check empty (by simp +decide)
    fun _ _ => trivial
  intro _ _
  apply tells_check empty (by simp +decide)
    fun _ _ => trivial
  intro _ _
  apply tells_check empty (by simp +decide) fun _ _ => trivial
  intro _ _
  apply tells_plane
  apply tells_pure
  exact carries_makeResponse (.heartbeat _) rfl Iff.rfl

/-- A farewell is answered with a member record that nobody filled in. -/
theorem tells_handleGoodbye :
    Tells plane (plane.WithinLimits texts { connection, type := .goodbye, payload, envs })
      (handleGoodbye connection payload) := by
  apply tells_check short (legibly_decodeGoodbyeRequest payload)
  · intro status refused request decoded
    rw [refused] at decoded
    cases decoded
  · intro request decoded
    apply Answers.bind (Q := fun _ _ => True)
    · exact answers_update fun _ _ => trivial
    · intro _
      apply Answers.pure
      intro _ _
      apply carries_makeResponse (.transition _) rfl
      apply iff_of_false
      · exact fun bounded => bounded.member.identified rfl
      · exact fun holds => holds request decoded

omit short in
/-- Whatever is asked, the answer is accepted exactly within the limits. -/
theorem tells_handle {r : Request} (presentable : plane.federation.Presentable)
    (short : r.connection.peer.length ≤ Limits.maxDescriptionBytes)
    (faults : ∀ n status, (r.envs n).writeFault = some status → status.Legible) :
    Tells plane (plane.WithinLimits texts r)
      (handle texts r.envs r.connection r.type r.payload) := by
  obtain ⟨connection, type, payload, envs⟩ := r
  cases type with
  | hello => exact tells_handleHello short
  | advertise => exact tells_handleAdvertise short faults presentable
  | query => exact tells_handleQuery short
  | evaluate => exact tells_handleEvaluate short faults presentable
  | planMigration => exact tells_handlePlan short faults presentable
  | transition => exact tells_handleTransition short faults presentable
  | heartbeat => exact tells_handleHeartbeat short
  | goodbye => exact tells_handleGoodbye short
  | registerWorkload => exact tells_handleRegisterWorkload short faults
  | helloAck | advertiseAck | queryResponse | evaluateResponse | planMigrationResponse
  | transitionResponse | heartbeatAck | errorResponse | registerWorkloadAck =>
      refine tells_pure (carries_makeError (by decide) ?_ trivial)
      exact Nat.le_of_ble_eq_true rfl

end Handlers

/-! ### Runs -/

theorem Warranted.commits {plane : ControlPlane} {r : Request} {g : Federation} {c : Command}
    (warranted : Warranted plane r g c) : c.commits = false := by
  cases warranted <;> rfl

/-- No event of a control plane commits a migration. -/
theorem presentable_step {texts : Rendering} {plane plane' : ControlPlane} {e : PlaneEvent}
    (presentable : plane.federation.Presentable) (taken : PlaneStep texts plane e plane') :
    plane'.federation.Presentable := by
  rw [show plane' = _ from taken]
  cases e with
  | disconnected connection envs =>
      have accounted := accounted_disconnect plane connection envs
      show (plane.disconnect connection envs).plane.federation.Presentable
      rw [accounted.federation]
      apply accounted.each.keeps presentable
      rintro g c env holds ⟨a, claim, rfl⟩
      exact holds.execute rfl
  | request r =>
      obtain ⟨federation, each⟩ := @calls_work plane r texts
      show (plane.work texts r).plane.federation.Presentable
      rw [federation]
      apply each.keeps presentable
      intro g c env holds warranted
      exact holds.execute warranted.commits

theorem presentable_reached {texts : Rendering} {plane₀ plane : ControlPlane}
    (first : plane₀.federation.Presentable)
    (reached : Run.Reaches (PlaneStep texts) (fun _ _ => True) plane₀ plane) :
    plane.federation.Presentable := by
  induction reached with
  | refl => exact first
  | next _ _ taken ih => exact presentable_step ih taken

namespace Sample

open Haf.Sample

def queryRequest : Request :=
  { connection, type := .query, payload := ({} : QueryRequest).encodeMessage, envs }

theorem decode_query : decodeQueryRequest ({} : QueryRequest).encodeMessage = .ok {} := rfl

theorem reached_greeted : Run.Reaches (PlaneStep texts) (fun _ _ => True) fresh greeted :=
  .next (e := .request helloRequest) .refl trivial (step_hello rfl)

theorem legible_planeConfig (status : Status)
    (refused : planeConfig.policy.validate .core = .error status) : status.Legible := by
  cases refused
  decide

theorem legible_envs (n : Nat) (status : Status) (failed : (envs n).writeFault = some status) :
    status.Legible := by
  cases failed

/-- The answer to the first boot's question. -/
theorem answer_query : greeted.answer texts queryRequest =
    makeResponse .queryResponse (QueryResponse.encodeMessage {
      kind := .federationSummary
      text := []
      itemCount := UInt32.ofNat greeted.federation.members.size }) := by
  have session := requireSession_eq_ok.mpr (established opened (fresh.session hello))
  have current : greeted.validateSessionAuthority (fresh.session hello) = .ok () :=
    validateSessionAuthority_eq_ok.mpr rfl
  apply answer_of_run (t := ⟨greeted, []⟩)
  show (handleQuery texts envs connection ({} : QueryRequest).encodeMessage).run _ = _
  rw [handleQuery, run_check_ok session, run_check_ok current, run_check_ok decode_query]
  rfl

/-- The answer to the first boot's farewell is about no member. -/
theorem answer_goodbye : greeted.answer texts goodbyeRequest =
    makeResponse .transitionResponse (TransitionResponse.encodeMessage
      { detail := text "session closed: " }) := by
  apply answer_of_run (t := ⟨greeted.endSession connection, []⟩)
  show (handleGoodbye connection ({} : GoodbyeRequest).encodeMessage).run _ = _
  rw [handleGoodbye, run_check_ok decode_goodbye]
  rfl

end Sample

end Haf.Net
