/-
# The control plane

The coordinator answers the requests of its connections by calls to the federation and
keeps one session per connection. A request is answered early when a check fails, and
what it did to the federation before stays done. The calls of a request are recorded, so
that the federation at any moment of the request can be spoken of.
-/

import Haf.Federation.System
import Haf.Lib.Procedure
import Haf.Net.Frame
import Haf.Net.Messages

namespace Haf.Net

/-! ### State -/

/-- What the server knows about a connection and the handlers read. -/
structure ConnectionState where
  id : SessionId
  peer : Bytes := []
  deriving DecidableEq

/-- An established session. -/
structure SessionData where
  role : ClientRole := .inspector
  federation : FederationId := .nil
  agent : AgentId := .nil
  agentBoot : AgentBootId := .nil
  epoch : CoordinatorEpoch := ⟨0⟩
  generation : FederationGeneration := ⟨0⟩
  clientName : Bytes := []
  clientVersion : Bytes := []
  nodeToken : Bytes := []
  deriving DecidableEq

/-- The sessions, filed under the identity of their connection. -/
abbrev SessionTable := Std.ExtTreeMap SessionId SessionData compare

structure ControlPlaneConfig where
  federation : FederationId := .nil
  name : Bytes := text "federation"
  policy : FederationPolicy := {}
  storePath : Bytes := []
  persist : Bool := true
  serverVersion : Bytes := text "haf_coordinator/1.0.0"

structure ControlPlane where
  config : ControlPlaneConfig
  federation : Federation
  sessions : SessionTable

/-- The texts that are composed for a reader and that nothing else reads. -/
structure Rendering where
  query : Federation → Environment → QueryRequest → Bytes
  decision : CompatibilityDecision → Bytes
  plan : MigrationPlan → Bytes

/-- What the answer to a query about the way from one member to another is composed from: a
remark that an identity is missing, why a member is not found, or the class of the move. No
workload is looked at. -/
def explainPortability (f : Federation) (request : QueryRequest) :
    Option (Result PortabilityResult) :=
  if request.accelerator.isNil || request.secondary.isNil then none
  else some (do
    let source ← f.memberEntry request.accelerator
    let destination ← f.memberEntry request.secondary
    return classifyPortability {
      sourceCapabilities := some source.descriptor.capabilities
      destinationCapabilities := some destination.descriptor.capabilities
      sourceVendor := Federation.vendorOf source.descriptor
      destinationVendor := Federation.vendorOf destination.descriptor
      workload := none
      policyAllowsCrossVendorMigration := f.policy.allowCrossVendorMigration })

/-! ### Calls to the federation -/

/-- An operation of the federation with the value it returns. -/
structure Operation (α : Type) where
  command : Command
  run : Federation → Environment → Outcome α
  reply : α → Reply
  executed : ∀ f env, f.execute command env = (run f env).map reply

namespace Operation

def observe (d : AcceleratorDescriptor) (claim : AuthorityClaim) : Operation MemberRecord :=
  ⟨.observe d claim, fun f env => f.observe d claim env, .member, fun _ _ => rfl⟩

def transition (a : AcceleratorId) (target : MemberState) (claim : AuthorityClaim) :
    Operation MemberRecord :=
  ⟨.transition a target claim, fun f env => f.transition a target claim env, .member,
    fun _ _ => rfl⟩

def admitMember (a : AcceleratorId) (claim : AuthorityClaim) : Operation MemberRecord :=
  ⟨.transition a .admitted claim, fun f env => f.admitMember a claim env, .member,
    fun _ _ => rfl⟩

def activate (a : AcceleratorId) (claim : AuthorityClaim) : Operation MemberRecord :=
  ⟨.transition a .active claim, fun f env => f.activate a claim env, .member, fun _ _ => rfl⟩

def fence (a : AcceleratorId) (claim : AuthorityClaim) : Operation MemberRecord :=
  ⟨.transition a .fenced claim, fun f env => f.fence a claim env, .member, fun _ _ => rfl⟩

def registerWorkload (profile : WorkloadProfile) (claim : AuthorityClaim) :
    Operation WorkloadRevision :=
  ⟨.registerWorkload profile claim, fun f env => f.registerWorkload profile claim env, .workload,
    fun _ _ => rfl⟩

def evaluate (workload : WorkloadClassId) (a : AcceleratorId) (options : EvaluationOptions) :
    Operation CompatibilityDecision :=
  ⟨.evaluate workload a options, fun f env => f.evaluate workload a options env, .decision,
    fun _ _ => rfl⟩

def planMigration (workload : WorkloadClassId) (source destination : AcceleratorId)
    (claim : AuthorityClaim) : Operation MigrationPlan :=
  ⟨.planMigration workload source destination claim,
    fun f env => f.planMigration workload source destination claim env, .plan, fun _ _ => rfl⟩

end Operation

/-- The control plane at work, with the calls it has made. -/
structure Work where
  plane : ControlPlane
  calls : List Call := []

/-- A handler leaves with the answer to its request. -/
abbrev Handler := Procedure Work (Result ResponseMessage)

/-- The answer that carries an encoded response. -/
def makeResponse (type : MessageType) (payload : Bytes) : Result ResponseMessage :=
  .ok { type, payload, error := false }

/-- The answer that carries a typed error. -/
def makeError (code : ErrorCode) (message : Bytes) (detail : Bytes := []) :
    Result ResponseMessage :=
  .ok {
    type := .errorResponse
    payload := ErrorResponse.encodeMessage { code, message, detail }
    error := true }

/-- A status is answered as an error. -/
def orError {α : Type} (detail : Bytes) : Result α → Except (Result ResponseMessage) α
  | .ok a => .ok a
  | .error status => .error (makeError status.code status.message detail)

namespace Handler

/-- A check on the control plane that is answered when it fails. -/
def check {α : Type} (detail : Bytes) (view : ControlPlane → Result α) : Handler α :=
  Procedure.look fun w => orError detail (view w.plane)

/-- What the control plane looks like now. -/
def plane : Handler ControlPlane := Procedure.look fun w => .ok w.plane

end Handler

namespace Work

/-- The environment of the next call. -/
def env (envs : Nat → Environment) (w : Work) : Environment := envs w.calls.length

/-- The work after a call. -/
def called {α : Type} (envs : Nat → Environment) (w : Work) (op : Operation α) : Work where
  plane := { w.plane with federation := (op.run w.plane.federation (w.env envs)).state }
  calls := w.calls ++ [(op.command, w.env envs)]

end Work

/-- Call the federation; an error is answered. -/
def perform {α : Type} (envs : Nat → Environment) (op : Operation α) (detail : Bytes) : Handler α :=
  ⟨fun w => (orError detail (op.run w.plane.federation (w.env envs)).result, w.called envs op)⟩

/-- Call the federation and ignore what it returns. -/
def attempt {α : Type} (envs : Nat → Environment) (op : Operation α) : Handler Unit :=
  Procedure.change fun w => w.called envs op

/-! ### Sessions -/

def generationLine (f : Federation) : Bytes :=
  text "epoch=" ++ decimal f.epoch.value.toNat ++ text " generation=" ++
    decimal f.generation.value.toNat ++ text " policy_generation=" ++
    decimal f.policy.generation.value.toNat

namespace SessionData

/-- The session of a boot of an agent. -/
def isBoot (session : SessionData) (agent : AgentId) (boot : AgentBootId) : Bool :=
  session.role = .agent && session.agent = agent && session.agentBoot = boot

end SessionData

namespace ControlPlane

/-- Open the federation, with no session established. The disk is the content of the
configured file. -/
def create (R : Registry) (config : ControlPlaneConfig) (disk : Option Bytes)
    (env : Environment) : Result ControlPlane := do
  let federation ← Federation.openOn R {
    id := config.federation
    name := config.name
    policy := config.policy
    storePath := config.storePath
    persist := config.persist } disk env
  .ok { config, federation, sessions := ∅ }

/-- An agent session is bound to the given agent and boot. -/
def hasLiveBoot (plane : ControlPlane) (agent : AgentId) (boot : AgentBootId) : Bool :=
  plane.sessions.toList.any fun entry => entry.2.isBoot agent boot

def requireSession (plane : ControlPlane) (connection : ConnectionState) : Result SessionData :=
  match plane.sessions[connection.id]? with
  | some session => .ok session
  | none =>
      .error (.failure .handshakeFailed
        "no session is established on this connection; send HELLO first")

def requireAgentSession (plane : ControlPlane) (connection : ConnectionState) :
    Result SessionData := do
  let session ← plane.requireSession connection
  ensure (session.role = .agent)
    (.failure .protocolViolation "this operation requires an agent session")
  .ok session

def validateSessionAuthority (plane : ControlPlane) (session : SessionData) : Result Unit :=
  ensure (session.epoch = plane.federation.epoch)
    ⟨.staleEpoch, text "session was established under coordinator epoch " ++
      decimal session.epoch.value.toNat ++ text " but the current epoch is " ++
      decimal plane.federation.epoch.value.toNat⟩

/-! ### HELLO -/

/-- Another connection holds a session of the agent and boot that a handshake presents. -/
def duplicateBoot (plane : ControlPlane) (connection : ConnectionState) (request : HelloRequest) :
    Bool :=
  plane.sessions.toList.any fun entry =>
    entry.1 ≠ connection.id && entry.2.isBoot request.agent request.agentBoot

/-- The checks of a handshake, up to and including the scan for a duplicate boot. A refusal
is a negotiated outcome and carries the response that says so. -/
def scanHello (plane : ControlPlane) (connection : ConnectionState) (request : HelloRequest) :
    Except HelloResponse HelloResponse :=
  let response : HelloResponse := {
    serverVersion := plane.config.serverVersion
    epoch := plane.federation.epoch
    generation := plane.federation.generation
    policyGeneration := plane.federation.policy.generation
    session := connection.id }
  if request.protocolVersion < minimumProtocolVersion ||
      protocolVersion < request.protocolVersion then
    .error { response with
      detail := text "server supports protocol versions " ++
        decimal minimumProtocolVersion.toNat ++ text ".." ++ decimal protocolVersion.toNat ++
        text " but the client offered " ++ decimal request.protocolVersion.toNat }
  else
    let response := { response with
      negotiatedVersion := min request.protocolVersion protocolVersion }
    if !request.federation.isNil && request.federation ≠ plane.federation.id then
      .error { response with
        detail := text "client targets federation " ++ request.federation.toText ++
          text " but this coordinator owns " ++ plane.federation.id.toText }
    else if request.role = .agent then
      if request.agent.isNil || request.agentBoot.isNil then
        .error { response with
          detail := text "an agent handshake must present a non-nil agent and boot identity" }
      else if plane.duplicateBoot connection request then
        .error { response with
          detail := text "agent boot identity is already established on another live session" }
      else .ok response
    else .ok response

/-- The session of an accepted handshake. -/
def session (plane : ControlPlane) (request : HelloRequest) : SessionData where
  role := request.role
  federation := request.federation
  agent := request.agent
  agentBoot := request.agentBoot
  epoch := plane.federation.epoch
  generation := plane.federation.generation
  clientName := request.clientName
  clientVersion := request.clientVersion
  nodeToken := request.nodeToken

/-- File the session of an accepted handshake, in place of the one the connection had. -/
def establish (plane : ControlPlane) (connection : ConnectionState) (request : HelloRequest) :
    ControlPlane :=
  { plane with sessions := plane.sessions.insert connection.id (plane.session request) }

/-- Forget the session of a connection. -/
def endSession (plane : ControlPlane) (connection : ConnectionState) : ControlPlane :=
  { plane with sessions := plane.sessions.erase connection.id }

/-- Note the generation of the federation in the session of a connection. -/
def noteGeneration (plane : ControlPlane) (connection : ConnectionState) : ControlPlane :=
  { plane with
    sessions := plane.sessions.modify connection.id fun session =>
      { session with generation := plane.federation.generation } }

end ControlPlane

/-- Change the control plane itself. -/
def Handler.update (change : ControlPlane → ControlPlane) : Handler Unit :=
  Procedure.change fun w => { w with plane := change w.plane }

def helloAck (response : HelloResponse) : Result ResponseMessage :=
  makeResponse .helloAck response.encodeMessage

open Handler

section Handlers

variable (texts : Rendering) (envs : Nat → Environment) (connection : ConnectionState)

def handleHello (payload : Bytes) : Handler (Result ResponseMessage) := do
  let request ← check connection.peer fun _ => decodeHelloRequest payload
  let response ← Procedure.look fun w =>
    (w.plane.scanHello connection request).mapError helloAck
  update (·.establish connection request)
  let plane ← plane
  pure (helloAck { response with
    accepted := true
    detail := text "session established as " ++ request.role.toText ++ text "; " ++
      generationLine plane.federation })

/-! ### ADVERTISE -/

/-- Admit a member that was only observed. -/
def admitObserved (claim : AuthorityClaim) (d : AcceleratorDescriptor) (observed : MemberRecord) :
    Handler MemberRecord :=
  if observed.state = .observed then perform envs (.admitMember d.id claim) d.id.toText
  else pure observed

/-- The remark on a member that the policy keeps from becoming active. -/
def notActivated (d : AcceleratorDescriptor) : Bytes :=
  text "member " ++ d.id.toText ++
    text " admitted but not activated: policy requires REAL evidence for active membership; "

/-- Activate an admitted member, unless the policy asks for evidence it does not have. -/
def activateAdmitted (policy : FederationPolicy) (claim : AuthorityClaim)
    (d : AcceleratorDescriptor) (detail : Bytes) (observed : MemberRecord) :
    Handler (MemberRecord × Bytes) :=
  if observed.state = .admitted then
    if policy.requireRealEvidenceForActive && observed.provenance ≠ .real then
      pure (observed, detail ++ notActivated d)
    else do
      let activated ← perform envs (.activate d.id claim) d.id.toText
      pure (activated, detail)
  else pure (observed, detail)

/-- Activate a degraded member, whatever the policy asks for. -/
def activateDegraded (claim : AuthorityClaim) (d : AcceleratorDescriptor)
    (observed : MemberRecord) : Handler MemberRecord :=
  if observed.state = .degraded then perform envs (.activate d.id claim) d.id.toText
  else pure observed

/-- The claim with which the devices of an advertisement are observed and moved. -/
def advertisedClaim (claim : AuthorityClaim) : AuthorityClaim :=
  { claim with checkPolicyGeneration := false }

def advertiseDevice (policy : FederationPolicy) (claim : AuthorityClaim)
    (response : AdvertiseResponse) (d : AcceleratorDescriptor) : Handler AdvertiseResponse := do
  let observed ← perform envs (.observe d (advertisedClaim claim)) d.id.toText
  let observed ← admitObserved envs (advertisedClaim claim) d observed
  let (observed, detail) ←
    activateAdmitted envs policy (advertisedClaim claim) d response.detail observed
  let observed ← activateDegraded envs (advertisedClaim claim) d observed
  update (·.noteGeneration connection)
  pure { members := response.members ++ [observed], detail }

def advertiseDevices (policy : FederationPolicy) (claim : AuthorityClaim) :
    AdvertiseResponse → List AcceleratorDescriptor → Handler AdvertiseResponse
  | response, [] => pure response
  | response, d :: rest => do
      let response ← advertiseDevice envs connection policy claim response d
      advertiseDevices policy claim response rest

/-- The checks of an advertisement before the federation is called. -/
def admitAdvertisement (session : SessionData) (request : AdvertiseRequest) : Handler Unit := do
  check connection.peer fun _ => ensure (!request.devices.isEmpty)
    (.failure .malformedAdvertisement "an advertisement must contain at least one accelerator")
  check connection.peer fun _ =>
    ensure (request.claim.agent = session.agent && request.claim.agentBoot = session.agentBoot)
      (.failure .staleBoot
        "advertisement claim does not match the identity established during the handshake")
  match request.devices.find? fun d =>
      d.agent ≠ session.agent || d.agentBoot ≠ session.agentBoot with
  | none => pure ()
  | some d =>
      Procedure.leave (makeError .staleBoot
        (text "advertised accelerator is owned by a different agent or boot identity")
        d.id.toText)

def handleAdvertise (payload : Bytes) : Handler (Result ResponseMessage) := do
  let session ← check connection.peer (·.requireAgentSession connection)
  check connection.peer (·.validateSessionAuthority session)
  let request ← check connection.peer fun plane =>
    decodeAdvertiseRequest plane.federation.registry payload
  admitAdvertisement connection session request
  let plane ← plane
  let response ← advertiseDevices envs connection plane.federation.policy request.claim {}
    request.devices
  let response := { response with
    detail := response.detail ++ text "advertisement accepted for " ++
      decimal request.devices.length ++ text " accelerator(s)" }
  pure (response.encodeMessage >>= makeResponse .advertiseAck)

/-! ### The other requests -/

def handleQuery (payload : Bytes) : Handler (Result ResponseMessage) := do
  let session ← check connection.peer (·.requireSession connection)
  check connection.peer (·.validateSessionAuthority session)
  let request ← check connection.peer fun _ => decodeQueryRequest payload
  let plane ← plane
  pure (makeResponse .queryResponse (QueryResponse.encodeMessage {
    kind := request.kind
    text := texts.query plane.federation (envs 0) request
    itemCount := UInt32.ofNat plane.federation.members.size }))

def handleEvaluate (payload : Bytes) : Handler (Result ResponseMessage) := do
  let session ← check connection.peer (·.requireSession connection)
  check connection.peer (·.validateSessionAuthority session)
  let request ← check connection.peer fun _ => decodeEvaluateRequest payload
  let options : EvaluationOptions := ⟨if request.hasSource then some request.source else none⟩
  let decision ← perform envs (.evaluate request.workload request.accelerator options)
    connection.peer
  pure (makeResponse .evaluateResponse (EvaluateResponse.encodeMessage {
    decision, rendered := texts.decision decision }))

/-- The claim of a request that is not scoped to the agent of its session. -/
def withoutAgent (claim : AuthorityClaim) : AuthorityClaim :=
  { claim with checkAgent := false, checkAgentBoot := false }

def handlePlan (payload : Bytes) : Handler (Result ResponseMessage) := do
  let session ← check connection.peer (·.requireSession connection)
  check connection.peer (·.validateSessionAuthority session)
  let request ← check connection.peer fun _ => decodePlanMigrationRequest payload
  let plan ← perform envs (.planMigration request.workload request.source request.destination
    (withoutAgent request.claim)) connection.peer
  pure (makeResponse .planMigrationResponse (PlanMigrationResponse.encodeMessage {
    plan, rendered := texts.plan plan }))

def handleTransition (payload : Bytes) : Handler (Result ResponseMessage) := do
  let session ← check connection.peer (·.requireAgentSession connection)
  check connection.peer (·.validateSessionAuthority session)
  let request ← check connection.peer fun _ => decodeTransitionRequest payload
  check connection.peer fun _ =>
    ensure (request.claim.agent = session.agent && request.claim.agentBoot = session.agentBoot)
      (.failure .staleBoot
        "transition claim does not match the identity established during the handshake")
  let member ← perform envs (.transition request.accelerator request.target request.claim)
    connection.peer
  pure (makeResponse .transitionResponse (TransitionResponse.encodeMessage {
    member, detail := text "member transitioned to " ++ member.state.toText }))

def handleHeartbeat (payload : Bytes) : Handler (Result ResponseMessage) := do
  let session ← check connection.peer (·.requireSession connection)
  let request ← check connection.peer fun _ => decodeHeartbeatRequest payload
  check [] fun plane =>
    ensure (!(request.claim.checkEpoch && request.claim.epoch ≠ plane.federation.epoch))
      ⟨.staleEpoch, text "heartbeat presents coordinator epoch " ++
        decimal request.claim.epoch.value.toNat ++ text " but the current epoch is " ++
        decimal plane.federation.epoch.value.toNat⟩
  check [] fun plane =>
    ensure (!(request.claim.checkFederationGeneration &&
        request.claim.federationGeneration ≠ plane.federation.generation))
      ⟨.staleFederationGeneration, text "heartbeat presents federation generation " ++
        decimal request.claim.federationGeneration.value.toNat ++
        text " but the current generation is " ++
        decimal plane.federation.generation.value.toNat⟩
  check [] fun _ =>
    ensure (!(session.role = .agent && (request.claim.agent ≠ session.agent ||
        request.claim.agentBoot ≠ session.agentBoot)))
      (.failure .staleBoot
        "heartbeat presents an agent boot identity that differs from the established session")
  let plane ← plane
  pure (makeResponse .heartbeatAck (HeartbeatResponse.encodeMessage {
    epoch := plane.federation.epoch
    generation := plane.federation.generation
    policyGeneration := plane.federation.policy.generation }))

def handleRegisterWorkload (payload : Bytes) : Handler (Result ResponseMessage) := do
  let session ← check connection.peer (·.requireSession connection)
  check connection.peer (·.validateSessionAuthority session)
  let request ← check connection.peer fun plane =>
    decodeRegisterWorkloadRequest plane.federation.registry payload
  let revision ← perform envs (.registerWorkload request.profile (withoutAgent request.claim))
    connection.peer
  pure (makeResponse .registerWorkloadAck (RegisterWorkloadResponse.encodeMessage {
    classId := request.profile.classId
    revision
    detail := text "workload registered with revision " ++ decimal revision.value.toNat }))

def handleGoodbye (payload : Bytes) : Handler (Result ResponseMessage) := do
  let request ← check connection.peer fun _ => decodeGoodbyeRequest payload
  update (·.endSession connection)
  pure (makeResponse .transitionResponse (TransitionResponse.encodeMessage {
    detail := text "session closed: " ++ request.reason }))

def handle (type : MessageType) (payload : Bytes) : Handler (Result ResponseMessage) :=
  match type with
  | .hello => handleHello connection payload
  | .advertise => handleAdvertise envs connection payload
  | .query => handleQuery texts envs connection payload
  | .evaluate => handleEvaluate texts envs connection payload
  | .planMigration => handlePlan texts envs connection payload
  | .transition => handleTransition envs connection payload
  | .heartbeat => handleHeartbeat connection payload
  | .goodbye => handleGoodbye connection payload
  | .registerWorkload => handleRegisterWorkload envs connection payload
  | _ => pure (makeError .unknownMessageType
      (text "message type is not handled by the control plane") type.toText)

/-! ### Disconnection -/

/-- The claim with which the members of a session that ended are fenced. -/
def sessionEndedClaim (epoch : CoordinatorEpoch) (record : MemberRecord) : AuthorityClaim :=
  { epochOnlyClaim epoch with
    purpose := text "session ended"
    checkAgent := true, agent := record.agent
    checkAgentBoot := true, agentBoot := record.agentBoot }

/-- Fence the members of an ended session, one after the other. -/
def fenceOwned (session : SessionData) : List MemberRecord → Handler Unit
  | [] => pure ()
  | record :: rest => do
      if record.agent = session.agent && record.agentBoot = session.agentBoot &&
          record.isLive && record.state ≠ .fenced then do
        let plane ← plane
        attempt envs (.fence record.accelerator
          (sessionEndedClaim plane.federation.epoch record))
      fenceOwned session rest

def onDisconnected : Handler Unit := do
  let before ← plane
  update (·.endSession connection)
  match before.sessions[connection.id]? with
  | none => pure ()
  | some session =>
      if session.role ≠ .agent || session.agent.isNil then pure ()
      else fenceOwned envs session (before.federation.members.values.map (·.record))

end Handlers

/-! ### Events -/

/-- A request on a connection, with the environments of the calls it leads to. -/
structure Request where
  connection : ConnectionState
  type : MessageType
  payload : Bytes
  envs : Nat → Environment

namespace ControlPlane

variable (plane : ControlPlane) (texts : Rendering)

/-- The control plane once a request has been answered, with the calls made for it. -/
def work (r : Request) : Work :=
  ((handle texts r.envs r.connection r.type r.payload).run ⟨plane, []⟩).2

/-- The answer to a request. -/
def answer (r : Request) : Result ResponseMessage :=
  (handle texts r.envs r.connection r.type r.payload).answer ⟨plane, []⟩

/-- The control plane once a connection has gone. -/
def disconnect (connection : ConnectionState) (envs : Nat → Environment) : Work :=
  ((onDisconnected envs connection).run ⟨plane, []⟩).2

end ControlPlane

/-- What happens to a control plane. -/
inductive PlaneEvent
  | request (r : Request)
  | disconnected (connection : ConnectionState) (envs : Nat → Environment)

/-- The work that an event leads to. -/
def PlaneEvent.work (texts : Rendering) (plane : ControlPlane) : PlaneEvent → Work
  | .request r => plane.work texts r
  | .disconnected connection envs => plane.disconnect connection envs

/-- One event takes a control plane to the next one. -/
def PlaneStep (texts : Rendering) (plane : ControlPlane) (e : PlaneEvent)
    (plane' : ControlPlane) : Prop :=
  plane' = (e.work texts plane).plane

end Haf.Net
