/-
# Control-plane messages

The requests a client sends, the responses it is given, and their encodings. Every
decoder reads all fields of its message before it looks at the ones that name a role, a
kind of query or a member state, and only the advertisement decoder refuses bytes that
are left over.
-/

import Haf.Codec.Member
import Haf.Federation.State

namespace Haf.Net

open Wire ByteReader

/-! ### Message types -/

inductive MessageType
  | hello | helloAck | advertise | advertiseAck | query | queryResponse | evaluate
  | evaluateResponse | planMigration | planMigrationResponse | transition | transitionResponse
  | heartbeat | heartbeatAck | goodbye | errorResponse | registerWorkload | registerWorkloadAck
  deriving DecidableEq

def MessageType.toText : MessageType → Bytes
  | .hello => text "HELLO"
  | .helloAck => text "HELLO_ACK"
  | .advertise => text "ADVERTISE"
  | .advertiseAck => text "ADVERTISE_ACK"
  | .query => text "QUERY"
  | .queryResponse => text "QUERY_RESPONSE"
  | .evaluate => text "EVALUATE"
  | .evaluateResponse => text "EVALUATE_RESPONSE"
  | .planMigration => text "PLAN_MIGRATION"
  | .planMigrationResponse => text "PLAN_MIGRATION_RESPONSE"
  | .transition => text "TRANSITION"
  | .transitionResponse => text "TRANSITION_RESPONSE"
  | .heartbeat => text "HEARTBEAT"
  | .heartbeatAck => text "HEARTBEAT_ACK"
  | .goodbye => text "GOODBYE"
  | .errorResponse => text "ERROR"
  | .registerWorkload => text "REGISTER_WORKLOAD"
  | .registerWorkloadAck => text "REGISTER_WORKLOAD_ACK"

inductive ClientRole
  | agent | inspector
  deriving DecidableEq

namespace ClientRole

def toText : ClientRole → Bytes
  | .agent => text "agent"
  | .inspector => text "inspector"

def toWire : ClientRole → UInt8
  | .agent => 0
  | .inspector => 1

def fromWire : UInt8 → Option ClientRole
  | 0 => some .agent
  | 1 => some .inspector
  | _ => none

theorem fromWire_toWire (role : ClientRole) : fromWire role.toWire = some role := by
  cases role <;> rfl

end ClientRole

inductive QueryKind
  | federationSummary | memberList | memberDetail | memberExplain | policy | capabilityList
  | audit | storeVerify | adapterAvailability | workloadList | planList | recoveryReport
  | compatibilityMatrix | portabilityExplain
  deriving DecidableEq

namespace QueryKind

def toWire : QueryKind → UInt8
  | .federationSummary => 0
  | .memberList => 1
  | .memberDetail => 2
  | .memberExplain => 3
  | .policy => 4
  | .capabilityList => 5
  | .audit => 6
  | .storeVerify => 7
  | .adapterAvailability => 8
  | .workloadList => 9
  | .planList => 10
  | .recoveryReport => 11
  | .compatibilityMatrix => 12
  | .portabilityExplain => 13

def fromWire : UInt8 → Option QueryKind
  | 0 => some .federationSummary
  | 1 => some .memberList
  | 2 => some .memberDetail
  | 3 => some .memberExplain
  | 4 => some .policy
  | 5 => some .capabilityList
  | 6 => some .audit
  | 7 => some .storeVerify
  | 8 => some .adapterAvailability
  | 9 => some .workloadList
  | 10 => some .planList
  | 11 => some .recoveryReport
  | 12 => some .compatibilityMatrix
  | 13 => some .portabilityExplain
  | _ => none

end QueryKind

/-! ### Shared fragments -/

def writeAuthorityClaim (claim : AuthorityClaim) : Bytes :=
  ByteWriter.boolean claim.checkFederationGeneration ++
    ByteWriter.generation claim.federationGeneration ++
    ByteWriter.boolean claim.checkEpoch ++ ByteWriter.generation claim.epoch ++
    ByteWriter.boolean claim.checkAgent ++ ByteWriter.strongId claim.agent ++
    ByteWriter.boolean claim.checkAgentBoot ++ ByteWriter.strongId claim.agentBoot ++
    ByteWriter.boolean claim.checkDeviceGeneration ++
    ByteWriter.generation claim.deviceGeneration ++
    ByteWriter.boolean claim.checkCapabilityGeneration ++
    ByteWriter.generation claim.capabilityGeneration ++
    ByteWriter.boolean claim.checkPolicyGeneration ++
    ByteWriter.generation claim.policyGeneration ++
    ByteWriter.boolean claim.checkWorkloadRevision ++
    ByteWriter.generation claim.workloadRevision ++ ByteWriter.string claim.purpose

def readAuthorityClaim : ByteReader AuthorityClaim := do
  let checkFederationGeneration ← boolean
  let federationGeneration ← generation
  let checkEpoch ← boolean
  let epoch ← generation
  let checkAgent ← boolean
  let agent ← strongId
  let checkAgentBoot ← boolean
  let agentBoot ← strongId
  let checkDeviceGeneration ← boolean
  let deviceGeneration ← generation
  let checkCapabilityGeneration ← boolean
  let capabilityGeneration ← generation
  let checkPolicyGeneration ← boolean
  let policyGeneration ← generation
  let checkWorkloadRevision ← boolean
  let workloadRevision ← generation
  let purpose ← string Limits.maxDescriptionBytes
  pure {
    checkFederationGeneration, federationGeneration, checkEpoch, epoch, checkAgent, agent
    checkAgentBoot, agentBoot, checkDeviceGeneration, deviceGeneration
    checkCapabilityGeneration, capabilityGeneration, checkPolicyGeneration, policyGeneration
    checkWorkloadRevision, workloadRevision, purpose }

/-- What a reader makes of a payload; bytes it does not consume are ignored. -/
def decode {α : Type} (reader : ByteReader α) (payload : Bytes) : Result α :=
  (reader.run payload).map Prod.fst

theorem of_decode {α : Type} {reader : ByteReader α} {P : α → Prop} {payload : Bytes} {a : α}
    (ensures : Wire.Ensures reader P) (decoded : decode reader payload = .ok a) : P a := by
  rw [decode] at decoded
  cases read : reader.run payload with
  | error status =>
      rw [read] at decoded
      cases decoded
  | ok result =>
      rw [read] at decoded
      cases decoded
      exact ensures.of_run read

/-! ### Requests -/

structure HelloRequest where
  protocolVersion : UInt16 := 1
  role : ClientRole := .inspector
  federation : FederationId := .nil
  agent : AgentId := .nil
  agentBoot : AgentBootId := .nil
  node : NodeId := .nil
  nodeToken : Bytes := []
  clientName : Bytes := []
  clientVersion : Bytes := []
  nonce : UInt64 := 0
  deriving DecidableEq

def HelloRequest.encodeMessage (message : HelloRequest) : Bytes :=
  ByteWriter.u16 message.protocolVersion ++ ByteWriter.u8 message.role.toWire ++
    ByteWriter.strongId message.federation ++ ByteWriter.strongId message.agent ++
    ByteWriter.strongId message.agentBoot ++ ByteWriter.strongId message.node ++
    ByteWriter.string message.nodeToken ++ ByteWriter.string message.clientName ++
    ByteWriter.string message.clientVersion ++ ByteWriter.u64 message.nonce

def readHelloRequest : ByteReader HelloRequest := do
  let protocolVersion ← u16
  let rawRole ← u8
  let federation ← strongId
  let agent ← strongId
  let agentBoot ← strongId
  let node ← strongId
  let nodeToken ← string Limits.maxNameBytes
  let clientName ← string Limits.maxNameBytes
  let clientVersion ← string Limits.maxTokenBytes
  let nonce ← u64
  let role ← Reader.ofOption
    (.failure .malformedData "hello request declares an unknown client role")
    (ClientRole.fromWire rawRole)
  pure {
    protocolVersion, role, federation, agent, agentBoot, node, nodeToken, clientName
    clientVersion, nonce }

def decodeHelloRequest (payload : Bytes) : Result HelloRequest := decode readHelloRequest payload

structure AdvertiseRequest where
  claim : AuthorityClaim := {}
  devices : List AcceleratorDescriptor := []
  deriving DecidableEq

def readAdvertiseRequest (R : Registry) : ByteReader AdvertiseRequest := do
  let claim ← readAuthorityClaim
  let devices ← ByteReader.list Limits.maxAdvertisementsPerMessage 8
    (AcceleratorDescriptor.deserializeAt false R)
  let left ← remaining
  Reader.require (left = 0)
    (.failure .malformedAdvertisement "advertisement payload has trailing bytes")
  pure { claim, devices }

def decodeAdvertiseRequest (R : Registry) (payload : Bytes) : Result AdvertiseRequest :=
  decode (readAdvertiseRequest R) payload

structure QueryRequest where
  kind : QueryKind := .federationSummary
  accelerator : AcceleratorId := .nil
  secondary : AcceleratorId := .nil
  workload : WorkloadClassId := .nil
  hasWorkload : Bool := false
  deriving DecidableEq

def QueryRequest.encodeMessage (message : QueryRequest) : Bytes :=
  ByteWriter.u8 message.kind.toWire ++ ByteWriter.strongId message.accelerator ++
    ByteWriter.strongId message.secondary ++ ByteWriter.strongId message.workload ++
    ByteWriter.boolean message.hasWorkload

def readQueryRequest : ByteReader QueryRequest := do
  let rawKind ← u8
  let accelerator ← strongId
  let secondary ← strongId
  let workload ← strongId
  let hasWorkload ← boolean
  let kind ← Reader.ofOption
    (.failure .malformedData "query request declares an unknown query kind")
    (QueryKind.fromWire rawKind)
  pure { kind, accelerator, secondary, workload, hasWorkload }

def decodeQueryRequest (payload : Bytes) : Result QueryRequest := decode readQueryRequest payload

structure EvaluateRequest where
  workload : WorkloadClassId := .nil
  accelerator : AcceleratorId := .nil
  hasSource : Bool := false
  source : AcceleratorId := .nil
  deriving DecidableEq

def EvaluateRequest.encodeMessage (message : EvaluateRequest) : Bytes :=
  ByteWriter.strongId message.workload ++ ByteWriter.strongId message.accelerator ++
    ByteWriter.boolean message.hasSource ++ ByteWriter.strongId message.source

def readEvaluateRequest : ByteReader EvaluateRequest := do
  let workload ← strongId
  let accelerator ← strongId
  let hasSource ← boolean
  let source ← strongId
  pure { workload, accelerator, hasSource, source }

def decodeEvaluateRequest (payload : Bytes) : Result EvaluateRequest :=
  decode readEvaluateRequest payload

structure PlanMigrationRequest where
  workload : WorkloadClassId := .nil
  source : AcceleratorId := .nil
  destination : AcceleratorId := .nil
  claim : AuthorityClaim := {}
  deriving DecidableEq

def PlanMigrationRequest.encodeMessage (message : PlanMigrationRequest) : Bytes :=
  ByteWriter.strongId message.workload ++ ByteWriter.strongId message.source ++
    ByteWriter.strongId message.destination ++ writeAuthorityClaim message.claim

def readPlanMigrationRequest : ByteReader PlanMigrationRequest := do
  let workload ← strongId
  let source ← strongId
  let destination ← strongId
  let claim ← readAuthorityClaim
  pure { workload, source, destination, claim }

def decodePlanMigrationRequest (payload : Bytes) : Result PlanMigrationRequest :=
  decode readPlanMigrationRequest payload

structure TransitionRequest where
  accelerator : AcceleratorId := .nil
  target : MemberState := .observed
  claim : AuthorityClaim := {}
  deriving DecidableEq

def TransitionRequest.encodeMessage (message : TransitionRequest) : Bytes :=
  ByteWriter.strongId message.accelerator ++ ByteWriter.u8 message.target.toWire ++
    writeAuthorityClaim message.claim

def readTransitionRequest : ByteReader TransitionRequest := do
  let accelerator ← strongId
  let rawTarget ← u8
  let claim ← readAuthorityClaim
  let target ← Reader.ofOption
    (.failure .malformedData "transition request declares an unknown member state")
    (MemberState.fromWire rawTarget)
  pure { accelerator, target, claim }

def decodeTransitionRequest (payload : Bytes) : Result TransitionRequest :=
  decode readTransitionRequest payload

structure HeartbeatRequest where
  claim : AuthorityClaim := {}
  sequence : MessageSequence := ⟨0⟩
  deriving DecidableEq

def HeartbeatRequest.encodeMessage (message : HeartbeatRequest) : Bytes :=
  writeAuthorityClaim message.claim ++ ByteWriter.generation message.sequence

def readHeartbeatRequest : ByteReader HeartbeatRequest := do
  let claim ← readAuthorityClaim
  let sequence ← generation
  pure { claim, sequence }

def decodeHeartbeatRequest (payload : Bytes) : Result HeartbeatRequest :=
  decode readHeartbeatRequest payload

structure GoodbyeRequest where
  reason : Bytes := []
  deriving DecidableEq

def GoodbyeRequest.encodeMessage (message : GoodbyeRequest) : Bytes :=
  ByteWriter.string message.reason

def readGoodbyeRequest : ByteReader GoodbyeRequest := do
  let reason ← string Limits.maxDescriptionBytes
  pure { reason }

def decodeGoodbyeRequest (payload : Bytes) : Result GoodbyeRequest :=
  decode readGoodbyeRequest payload

structure RegisterWorkloadRequest where
  profile : WorkloadProfile
  claim : AuthorityClaim := {}

def readRegisterWorkloadRequest (R : Registry) : ByteReader RegisterWorkloadRequest := do
  let profile ← WorkloadProfile.deserialize R
  let claim ← readAuthorityClaim
  pure { profile, claim }

def decodeRegisterWorkloadRequest (R : Registry) (payload : Bytes) :
    Result RegisterWorkloadRequest := decode (readRegisterWorkloadRequest R) payload

/-! ### Responses -/

structure HelloResponse where
  accepted : Bool := false
  negotiatedVersion : UInt16 := 1
  epoch : CoordinatorEpoch := ⟨0⟩
  generation : FederationGeneration := ⟨0⟩
  policyGeneration : PolicyGeneration := ⟨0⟩
  session : SessionId := .nil
  serverVersion : Bytes := []
  detail : Bytes := []

def HelloResponse.encodeMessage (message : HelloResponse) : Bytes :=
  ByteWriter.boolean message.accepted ++ ByteWriter.u16 message.negotiatedVersion ++
    ByteWriter.generation message.epoch ++ ByteWriter.generation message.generation ++
    ByteWriter.generation message.policyGeneration ++ ByteWriter.strongId message.session ++
    ByteWriter.string message.serverVersion ++ ByteWriter.string message.detail

structure AdvertiseResponse where
  members : List MemberRecord := []
  detail : Bytes := []

def AdvertiseResponse.encodeMessage (message : AdvertiseResponse) : Result Bytes :=
  if Limits.maxMembersPerResponse < message.members.length then
    .error (.failure .boundsExceeded
      "advertisement response exceeds the permitted member count")
  else
    .ok (ByteWriter.list MemberRecord.serialize message.members ++
      ByteWriter.string message.detail)

structure QueryResponse where
  kind : QueryKind := .federationSummary
  itemCount : UInt32 := 0
  text : Bytes := []

def QueryResponse.encodeMessage (message : QueryResponse) : Bytes :=
  ByteWriter.u8 message.kind.toWire ++ ByteWriter.u32 message.itemCount ++
    ByteWriter.string message.text

structure EvaluateResponse where
  decision : CompatibilityDecision
  rendered : Bytes := []

def EvaluateResponse.encodeMessage (message : EvaluateResponse) : Bytes :=
  message.decision.serialize ++ ByteWriter.string message.rendered

structure PlanMigrationResponse where
  plan : MigrationPlan
  rendered : Bytes := []

def PlanMigrationResponse.encodeMessage (message : PlanMigrationResponse) : Bytes :=
  message.plan.serialize ++ ByteWriter.string message.rendered

structure TransitionResponse where
  member : MemberRecord := {}
  detail : Bytes := []

def TransitionResponse.encodeMessage (message : TransitionResponse) : Bytes :=
  message.member.serialize ++ ByteWriter.string message.detail

structure HeartbeatResponse where
  epoch : CoordinatorEpoch := ⟨0⟩
  generation : FederationGeneration := ⟨0⟩
  policyGeneration : PolicyGeneration := ⟨0⟩
  authorityStillValid : Bool := true

def HeartbeatResponse.encodeMessage (message : HeartbeatResponse) : Bytes :=
  ByteWriter.generation message.epoch ++ ByteWriter.generation message.generation ++
    ByteWriter.generation message.policyGeneration ++
    ByteWriter.boolean message.authorityStillValid

structure RegisterWorkloadResponse where
  classId : WorkloadClassId := .nil
  revision : WorkloadRevision := ⟨0⟩
  detail : Bytes := []

def RegisterWorkloadResponse.encodeMessage (message : RegisterWorkloadResponse) : Bytes :=
  ByteWriter.strongId message.classId ++ ByteWriter.generation message.revision ++
    ByteWriter.string message.detail

structure ErrorResponse where
  code : ErrorCode := .ok
  message : Bytes := []
  detail : Bytes := []

def ErrorResponse.encodeMessage (error : ErrorResponse) : Bytes :=
  ByteWriter.u16 error.code.value ++ ByteWriter.string error.message ++
    ByteWriter.string error.detail

/-- The answer to one request. -/
structure ResponseMessage where
  type : MessageType := .errorResponse
  payload : Bytes := []
  error : Bool := false
  deriving DecidableEq

/-! ### Requests read back -/

theorem decode_of_reads {α : Type} {reader : ByteReader α} {w : Bytes} {accepted : Prop} {a : α}
    (reads : Reads reader w accepted a) (short : w.length < 4294967296) (holds : accepted) :
    decode reader w = .ok a := by
  have read := (reads short []).1 holds
  rw [List.append_nil] at read
  rw [decode, read]
  rfl

theorem readAuthorityClaim_reads (claim : AuthorityClaim) :
    Reads readAuthorityClaim (writeAuthorityClaim claim)
      (claim.purpose.length ≤ Limits.maxDescriptionBytes) claim := by
  refine Codes.of_append_nil ?_
  unfold writeAuthorityClaim
  simp only [List.append_assoc]
  refine .then_ (boolean_reads _) (.then_ (generation_reads _) (.then_ (boolean_reads _)
    (.then_ (generation_reads _) (.then_ (boolean_reads _) (.then_ (strongId_reads _)
    (.then_ (boolean_reads _) (.then_ (strongId_reads _) ?_)))))))
  refine .then_ (boolean_reads _) (.then_ (generation_reads _) (.then_ (boolean_reads _)
    (.then_ (generation_reads _) (.then_ (boolean_reads _) (.then_ (generation_reads _)
    (.then_ (boolean_reads _) (.then_ (generation_reads _) ?_)))))))
  exact .step (string_reads _ _) id fun short => .done _ short

/-- The texts of a handshake keep to their limits. -/
structure HelloRequest.Bounded (message : HelloRequest) : Prop where
  nodeToken : message.nodeToken.length ≤ Limits.maxNameBytes
  clientName : message.clientName.length ≤ Limits.maxNameBytes
  clientVersion : message.clientVersion.length ≤ Limits.maxTokenBytes

theorem readHelloRequest_reads (message : HelloRequest) :
    Reads readHelloRequest message.encodeMessage message.Bounded message := by
  refine Codes.of_append_nil ?_
  unfold HelloRequest.encodeMessage
  simp only [List.append_assoc]
  refine .then_ (u16_reads _) (.then_ (u8_reads _) (.then_ (strongId_reads _)
    (.then_ (strongId_reads _) (.then_ (strongId_reads _) (.then_ (strongId_reads _) ?_)))))
  refine .step (string_reads _ _) HelloRequest.Bounded.nodeToken fun token => ?_
  refine .step (string_reads _ _) HelloRequest.Bounded.clientName fun name => ?_
  refine .step (string_reads _ _) HelloRequest.Bounded.clientVersion fun version => ?_
  exact .then_ (u64_reads _) (.ofOption (ClientRole.fromWire_toWire _)
    (.done _ ⟨token, name, version⟩))

theorem readTransitionRequest_reads (message : TransitionRequest) :
    Reads readTransitionRequest message.encodeMessage
      (message.claim.purpose.length ≤ Limits.maxDescriptionBytes) message := by
  refine Codes.of_append_nil ?_
  unfold TransitionRequest.encodeMessage
  simp only [List.append_assoc]
  refine .then_ (strongId_reads _) (.then_ (u8_reads _) ?_)
  refine .step (readAuthorityClaim_reads _) id fun short => ?_
  exact .ofOption (MemberState.fromWire_toWire _) (.done _ short)

theorem readGoodbyeRequest_reads (message : GoodbyeRequest) :
    Reads readGoodbyeRequest message.encodeMessage
      (message.reason.length ≤ Limits.maxDescriptionBytes) message :=
  Codes.map GoodbyeRequest.mk (string_reads _ _)

end Haf.Net
