/-
# Responses as a client reads them

A client decodes the payload of a response with the reader for its message type. Unlike the
encoders, the readers put limits on texts and counts and ask for the identities of a member,
so that not every response that can be written can be read. Each reader is accounted for by
the condition under which it returns the message that was written.
-/

import Haf.Codec.Decision
import Haf.Net.ControlPlane

namespace Haf.Net

open Wire ByteReader

@[simp]
theorem QueryKind.fromWire_toWire (kind : QueryKind) : fromWire kind.toWire = some kind := by
  cases kind <;> rfl

/-! ### Readers -/

def readHelloResponse : ByteReader HelloResponse := do
  let accepted ← boolean
  let negotiatedVersion ← u16
  let epoch ← ByteReader.generation
  let generation ← ByteReader.generation
  let policyGeneration ← ByteReader.generation
  let session ← strongId
  let serverVersion ← string Limits.maxTokenBytes
  let detail ← string Limits.maxDescriptionBytes
  pure {
    accepted, negotiatedVersion, epoch, generation, policyGeneration, session, serverVersion
    detail }

def decodeHelloResponse (payload : Bytes) : Result HelloResponse :=
  decode readHelloResponse payload

def readAdvertiseResponse : ByteReader AdvertiseResponse := do
  let members ← ByteReader.list Limits.maxMembersPerResponse 8 MemberRecord.deserialize
  let detail ← string Limits.maxDescriptionBytes
  pure { members, detail }

def decodeAdvertiseResponse (payload : Bytes) : Result AdvertiseResponse :=
  decode readAdvertiseResponse payload

def readQueryResponse : ByteReader QueryResponse := do
  let rawKind ← u8
  let itemCount ← u32
  let text ← string Limits.maxDescriptionBytes
  let kind ← Reader.ofOption
    (.failure .malformedData "query response declares an unknown query kind")
    (QueryKind.fromWire rawKind)
  pure { kind, itemCount, text }

def decodeQueryResponse (payload : Bytes) : Result QueryResponse :=
  decode readQueryResponse payload

def readEvaluateResponse : ByteReader EvaluateResponse := do
  let decision ← CompatibilityDecision.deserializeAt false
  let rendered ← string Limits.maxDescriptionBytes
  pure { decision, rendered }

def decodeEvaluateResponse (payload : Bytes) : Result EvaluateResponse :=
  decode readEvaluateResponse payload

def readPlanMigrationResponse : ByteReader PlanMigrationResponse := do
  let plan ← MigrationPlan.deserialize
  let rendered ← string Limits.maxDescriptionBytes
  pure { plan, rendered }

def decodePlanMigrationResponse (payload : Bytes) : Result PlanMigrationResponse :=
  decode readPlanMigrationResponse payload

def readTransitionResponse : ByteReader TransitionResponse := do
  let member ← MemberRecord.deserialize
  let detail ← string Limits.maxDescriptionBytes
  pure { member, detail }

def decodeTransitionResponse (payload : Bytes) : Result TransitionResponse :=
  decode readTransitionResponse payload

def readHeartbeatResponse : ByteReader HeartbeatResponse := do
  let epoch ← ByteReader.generation
  let generation ← ByteReader.generation
  let policyGeneration ← ByteReader.generation
  let authorityStillValid ← boolean
  pure { epoch, generation, policyGeneration, authorityStillValid }

def decodeHeartbeatResponse (payload : Bytes) : Result HeartbeatResponse :=
  decode readHeartbeatResponse payload

def readRegisterWorkloadResponse : ByteReader RegisterWorkloadResponse := do
  let classId ← strongId
  let revision ← ByteReader.generation
  let detail ← string Limits.maxDescriptionBytes
  pure { classId, revision, detail }

def decodeRegisterWorkloadResponse (payload : Bytes) : Result RegisterWorkloadResponse :=
  decode readRegisterWorkloadResponse payload

def readErrorResponse : ByteReader ErrorResponse := do
  let code ← u16
  let message ← string Limits.maxDescriptionBytes
  let detail ← string Limits.maxDescriptionBytes
  Reader.require (code ≤ ErrorCode.maxValue)
    (.failure .malformedData "error response declares an unknown error code")
  pure { code := ⟨code⟩, message, detail }

def decodeErrorResponse (payload : Bytes) : Result ErrorResponse :=
  decode readErrorResponse payload

/-! ### What the readers accept -/

/-- The texts of a handshake's answer keep to their limits. -/
structure HelloResponse.Bounded (message : HelloResponse) : Prop where
  serverVersion : message.serverVersion.length ≤ Limits.maxTokenBytes
  detail : message.detail.length ≤ Limits.maxDescriptionBytes

theorem readHelloResponse_reads (message : HelloResponse) :
    Reads readHelloResponse message.encodeMessage message.Bounded message := by
  apply Codes.of_append_nil
  unfold HelloResponse.encodeMessage
  simp only [List.append_assoc]
  refine .then_ (boolean_reads _) (.then_ (u16_reads _) (.then_ (generation_reads _)
    (.then_ (generation_reads _) (.then_ (generation_reads _) (.then_ (strongId_reads _) ?_)))))
  apply Codes.step (string_reads _ _) HelloResponse.Bounded.serverVersion
  intro version
  apply Codes.step (string_reads _ _) HelloResponse.Bounded.detail
  intro detail
  exact .done _ ⟨version, detail⟩

/-- The members can be read and there are not too many of them. -/
structure AdvertiseResponse.Bounded (message : AdvertiseResponse) : Prop where
  members : message.members.length ≤ Limits.maxMembersPerResponse
  member : ∀ m ∈ message.members, m.Storable
  detail : message.detail.length ≤ Limits.maxDescriptionBytes

theorem readAdvertiseResponse_reads (message : AdvertiseResponse) :
    Reads readAdvertiseResponse
      (ByteWriter.list MemberRecord.serialize message.members ++ ByteWriter.string message.detail)
      message.Bounded message := by
  apply Codes.of_append_nil
  rw [List.append_assoc]
  apply Codes.step (list_reads (by decide) message.members MemberRecord.le_length_serialize
    fun m _ => MemberRecord.deserialize_reads m) fun bounded => ⟨bounded.members, bounded.member⟩
  intro members
  rw [List.map_id']
  apply Codes.step (string_reads _ _) AdvertiseResponse.Bounded.detail
  intro detail
  exact .done _ ⟨members.1, members.2, detail⟩

theorem readQueryResponse_reads (message : QueryResponse) :
    Reads readQueryResponse message.encodeMessage
      (message.text.length ≤ Limits.maxDescriptionBytes) message := by
  apply Codes.of_append_nil
  unfold QueryResponse.encodeMessage
  simp only [List.append_assoc]
  refine .then_ (u8_reads _) (.then_ (u32_reads _) ?_)
  apply Codes.step (string_reads _ _) id
  intro short
  exact .ofOption (QueryKind.fromWire_toWire _) (.done _ short)

/-- The decision can be read from a message, and its rendering keeps to its limit. -/
structure EvaluateResponse.Bounded (message : EvaluateResponse) : Prop where
  decision : message.decision.Storable
  reasons : message.decision.reasons.length ≤ CompatibilityDecision.reasonLimit false
  rendered : message.rendered.length ≤ Limits.maxDescriptionBytes

theorem readEvaluateResponse_reads (message : EvaluateResponse) :
    Reads readEvaluateResponse message.encodeMessage message.Bounded message := by
  apply Codes.of_append_nil
  unfold EvaluateResponse.encodeMessage
  rw [List.append_assoc]
  apply Codes.step (CompatibilityDecision.deserializeAt_reads false message.decision)
    fun bounded => ⟨bounded.decision, bounded.reasons⟩
  intro decision
  apply Codes.step (string_reads _ _) EvaluateResponse.Bounded.rendered
  intro rendered
  exact .done _ ⟨decision.1, decision.2, rendered⟩

/-- The plan can be read, and its rendering keeps to its limit. -/
structure PlanMigrationResponse.Bounded (message : PlanMigrationResponse) : Prop where
  plan : message.plan.Storable
  rendered : message.rendered.length ≤ Limits.maxDescriptionBytes

theorem readPlanMigrationResponse_reads (message : PlanMigrationResponse) :
    Reads readPlanMigrationResponse message.encodeMessage message.Bounded message := by
  apply Codes.of_append_nil
  unfold PlanMigrationResponse.encodeMessage
  rw [List.append_assoc]
  apply Codes.step (MigrationPlan.deserialize_reads message.plan) PlanMigrationResponse.Bounded.plan
  intro plan
  apply Codes.step (string_reads _ _) PlanMigrationResponse.Bounded.rendered
  intro rendered
  exact .done _ ⟨plan, rendered⟩

/-- The member can be read, and the remark on it keeps to its limit. -/
structure TransitionResponse.Bounded (message : TransitionResponse) : Prop where
  member : message.member.Storable
  detail : message.detail.length ≤ Limits.maxDescriptionBytes

theorem readTransitionResponse_reads (message : TransitionResponse) :
    Reads readTransitionResponse message.encodeMessage message.Bounded message := by
  apply Codes.of_append_nil
  unfold TransitionResponse.encodeMessage
  rw [List.append_assoc]
  apply Codes.step (MemberRecord.deserialize_reads message.member) TransitionResponse.Bounded.member
  intro member
  apply Codes.step (string_reads _ _) TransitionResponse.Bounded.detail
  intro detail
  exact .done _ ⟨member, detail⟩

theorem readHeartbeatResponse_reads (message : HeartbeatResponse) :
    Reads readHeartbeatResponse message.encodeMessage True message := by
  apply Codes.of_append_nil
  unfold HeartbeatResponse.encodeMessage
  simp only [List.append_assoc]
  exact .then_ (generation_reads _) (.then_ (generation_reads _) (.then_ (generation_reads _)
    (.then_ (boolean_reads _) (.done _ trivial))))

theorem readRegisterWorkloadResponse_reads (message : RegisterWorkloadResponse) :
    Reads readRegisterWorkloadResponse message.encodeMessage
      (message.detail.length ≤ Limits.maxDescriptionBytes) message := by
  apply Codes.of_append_nil
  unfold RegisterWorkloadResponse.encodeMessage
  simp only [List.append_assoc]
  refine .then_ (strongId_reads _) (.then_ (generation_reads _) ?_)
  apply Codes.step (string_reads _ _) id
  intro short
  exact .done _ short

/-- The code of an error is a listed one, and its texts keep to their limits. -/
structure ErrorResponse.Bounded (error : ErrorResponse) : Prop where
  code : error.code.value ≤ ErrorCode.maxValue
  message : error.message.length ≤ Limits.maxDescriptionBytes
  detail : error.detail.length ≤ Limits.maxDescriptionBytes

theorem readErrorResponse_reads (error : ErrorResponse) :
    Reads readErrorResponse error.encodeMessage error.Bounded error := by
  apply Codes.of_append_nil
  unfold ErrorResponse.encodeMessage
  simp only [List.append_assoc]
  apply Codes.then_ (u16_reads _)
  apply Codes.step (string_reads _ _) ErrorResponse.Bounded.message
  intro message
  apply Codes.step (string_reads _ _) ErrorResponse.Bounded.detail
  intro detail
  apply Codes.check fun bounded => by simpa using bounded.code
  intro code
  exact .done _ ⟨by simpa using code, message, detail⟩

/-! ### Responses -/

/-- A response of any type. -/
inductive Response
  | hello (message : HelloResponse)
  | advertise (message : AdvertiseResponse)
  | query (message : QueryResponse)
  | evaluate (message : EvaluateResponse)
  | planMigration (message : PlanMigrationResponse)
  | transition (message : TransitionResponse)
  | heartbeat (message : HeartbeatResponse)
  | registerWorkload (message : RegisterWorkloadResponse)
  | error (message : ErrorResponse)

namespace Response

def type : Response → MessageType
  | .hello _ => .helloAck
  | .advertise _ => .advertiseAck
  | .query _ => .queryResponse
  | .evaluate _ => .evaluateResponse
  | .planMigration _ => .planMigrationResponse
  | .transition _ => .transitionResponse
  | .heartbeat _ => .heartbeatAck
  | .registerWorkload _ => .registerWorkloadAck
  | .error _ => .errorResponse

def encode : Response → Result Bytes
  | .hello message => .ok message.encodeMessage
  | .advertise message => message.encodeMessage
  | .query message => .ok message.encodeMessage
  | .evaluate message => .ok message.encodeMessage
  | .planMigration message => .ok message.encodeMessage
  | .transition message => .ok message.encodeMessage
  | .heartbeat message => .ok message.encodeMessage
  | .registerWorkload message => .ok message.encodeMessage
  | .error message => .ok message.encodeMessage

/-- The decoder for a message type; there is none for the types of requests. -/
def decode (type : MessageType) (payload : Bytes) : Option (Result Response) :=
  match type with
  | .helloAck => some ((decodeHelloResponse payload).map .hello)
  | .advertiseAck => some ((decodeAdvertiseResponse payload).map .advertise)
  | .queryResponse => some ((decodeQueryResponse payload).map .query)
  | .evaluateResponse => some ((decodeEvaluateResponse payload).map .evaluate)
  | .planMigrationResponse => some ((decodePlanMigrationResponse payload).map .planMigration)
  | .transitionResponse => some ((decodeTransitionResponse payload).map .transition)
  | .heartbeatAck => some ((decodeHeartbeatResponse payload).map .heartbeat)
  | .registerWorkloadAck => some ((decodeRegisterWorkloadResponse payload).map .registerWorkload)
  | .errorResponse => some ((decodeErrorResponse payload).map .error)
  | _ => none

/-- What the reader of its type asks of a response. -/
def Bounded : Response → Prop
  | .hello message => message.Bounded
  | .advertise message => message.Bounded
  | .query message => message.text.length ≤ Limits.maxDescriptionBytes
  | .evaluate message => message.Bounded
  | .planMigration message => message.Bounded
  | .transition message => message.Bounded
  | .heartbeat _ => True
  | .registerWorkload message => message.detail.length ≤ Limits.maxDescriptionBytes
  | .error message => message.Bounded

/-- The payload is the encoding of the response. -/
def CarriedBy (response : Response) (answer : ResponseMessage) : Prop :=
  answer.type = response.type ∧ response.encode = .ok answer.payload

end Response

/-- The client reads from an answer the message that was encoded into it. -/
def ResponseMessage.Readable (answer : ResponseMessage) : Prop :=
  ∃ response : Response, response.CarriedBy answer ∧
    Response.decode answer.type answer.payload = some (.ok response)

/-- What a reader makes of a written payload. -/
theorem decode_eq_ok_iff {α : Type} {reader : ByteReader α} {w : Bytes} {accepted : Prop} {a b : α}
    (reads : Reads reader w accepted a) (short : w.length < 4294967296) :
    decode reader w = .ok b ↔ accepted ∧ b = a := by
  by_cases holds : accepted
  · rw [decode_of_reads reads short holds]
    simp [holds, eq_comm]
  · obtain ⟨e, refused⟩ := (reads short []).2 holds
    rw [List.append_nil] at refused
    rw [decode, refused]
    simp [holds, Except.map]

namespace Response

theorem map_decode_eq_iff {α : Type} {reader : ByteReader α} {w : Bytes} {accepted : Prop} {a : α}
    {wrap : α → Response} (reads : Reads reader w accepted a) (short : w.length < 4294967296)
    {response : Response} :
    some ((Net.decode reader w).map wrap) = some (.ok response) ↔ accepted ∧ response = wrap a := by
  constructor
  · intro decoded
    cases read : Net.decode reader w with
    | error status =>
        rw [read] at decoded
        cases decoded
    | ok b =>
        rw [read] at decoded
        cases decoded
        obtain ⟨holds, rfl⟩ := (decode_eq_ok_iff reads short).mp read
        exact ⟨holds, rfl⟩
  · rintro ⟨holds, rfl⟩
    rw [decode_of_reads reads short holds]
    rfl

/-- A response is read back exactly when the reader of its type accepts it. -/
theorem decode_iff {response response' : Response} {payload : Bytes}
    (encoded : response.encode = .ok payload) (short : payload.length < 4294967296) :
    decode response.type payload = some (.ok response') ↔
      response.Bounded ∧ response' = response := by
  cases response with
  | hello message =>
      obtain rfl := Except.ok.inj encoded
      exact map_decode_eq_iff (readHelloResponse_reads message) short
  | advertise message =>
      simp only [encode, AdvertiseResponse.encodeMessage] at encoded
      split at encoded
      · cases encoded
      · obtain rfl := Except.ok.inj encoded
        exact map_decode_eq_iff (readAdvertiseResponse_reads message) short
  | query message =>
      obtain rfl := Except.ok.inj encoded
      exact map_decode_eq_iff (readQueryResponse_reads message) short
  | evaluate message =>
      obtain rfl := Except.ok.inj encoded
      exact map_decode_eq_iff (readEvaluateResponse_reads message) short
  | planMigration message =>
      obtain rfl := Except.ok.inj encoded
      exact map_decode_eq_iff (readPlanMigrationResponse_reads message) short
  | transition message =>
      obtain rfl := Except.ok.inj encoded
      exact map_decode_eq_iff (readTransitionResponse_reads message) short
  | heartbeat message =>
      obtain rfl := Except.ok.inj encoded
      exact map_decode_eq_iff (readHeartbeatResponse_reads message) short
  | registerWorkload message =>
      obtain rfl := Except.ok.inj encoded
      exact map_decode_eq_iff (readRegisterWorkloadResponse_reads message) short
  | error message =>
      obtain rfl := Except.ok.inj encoded
      exact map_decode_eq_iff (readErrorResponse_reads message) short

/-- An answer is readable exactly when the reader of its type accepts what it carries. -/
theorem CarriedBy.readable_iff {response : Response} {answer : ResponseMessage}
    (carried : response.CarriedBy answer)
    (fits : answer.payload.length ≤ maxFramePayloadBytes) :
    answer.Readable ↔ response.Bounded := by
  have short : answer.payload.length < 4294967296 := lt_of_le_of_lt fits (by decide)
  constructor
  · rintro ⟨response', _, decoded⟩
    rw [carried.1] at decoded
    exact ((decode_iff carried.2 short).mp decoded).1
  · intro bounded
    refine ⟨response, carried, ?_⟩
    rw [carried.1]
    exact (decode_iff carried.2 short).mpr ⟨bounded, rfl⟩

end Response

end Haf.Net
