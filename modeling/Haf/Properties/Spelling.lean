/-
# The encodings of a request

Each field of a request has one spelling: booleans are 0 or 1, enumerations have one number per
value, lengths and numbers are of fixed width. A decoder therefore takes in exactly the encoding
of the message it returns. It does not look at what follows, except for advertisements, so that a
payload is the encoding of its message only if it ends where its own length fields say.
-/

import Haf.Core.Layout
import Haf.Net.Messages

namespace Haf

open Wire ByteReader

namespace Net

/-- The requests whose decoders do not ask whether the payload is exhausted. -/
inductive PlainRequest
  | hello | query | evaluate | planMigration | transition | heartbeat | goodbye
  deriving DecidableEq

namespace PlainRequest

abbrev Message : PlainRequest → Type
  | .hello => HelloRequest
  | .query => QueryRequest
  | .evaluate => EvaluateRequest
  | .planMigration => PlanMigrationRequest
  | .transition => TransitionRequest
  | .heartbeat => HeartbeatRequest
  | .goodbye => GoodbyeRequest

def reader : (kind : PlainRequest) → ByteReader kind.Message
  | .hello => readHelloRequest
  | .query => readQueryRequest
  | .evaluate => readEvaluateRequest
  | .planMigration => readPlanMigrationRequest
  | .transition => readTransitionRequest
  | .heartbeat => readHeartbeatRequest
  | .goodbye => readGoodbyeRequest

def decode : (kind : PlainRequest) → Bytes → Result kind.Message
  | .hello => decodeHelloRequest
  | .query => decodeQueryRequest
  | .evaluate => decodeEvaluateRequest
  | .planMigration => decodePlanMigrationRequest
  | .transition => decodeTransitionRequest
  | .heartbeat => decodeHeartbeatRequest
  | .goodbye => decodeGoodbyeRequest

def encodeMessage : (kind : PlainRequest) → kind.Message → Bytes
  | .hello => HelloRequest.encodeMessage
  | .query => QueryRequest.encodeMessage
  | .evaluate => EvaluateRequest.encodeMessage
  | .planMigration => PlanMigrationRequest.encodeMessage
  | .transition => TransitionRequest.encodeMessage
  | .heartbeat => HeartbeatRequest.encodeMessage
  | .goodbye => GoodbyeRequest.encodeMessage

/-- The length of a claim that starts at the offset: flags, generations and identities, and a
text after its length. -/
def claimLength (payload : Bytes) (offset : Nat) : Nat :=
  92 + (getU32 payload (offset + 88)).toNat

/-- The length of a message according to the length fields in its payload. -/
def declaredLength : PlainRequest → Bytes → Nat
  | .hello, payload =>
      let token := (getU32 payload 67).toNat
      let name := (getU32 payload (71 + token)).toNat
      let version := (getU32 payload (75 + token + name)).toNat
      87 + token + name + version
  | .query, _ => 50
  | .evaluate, _ => 49
  | .planMigration, payload => 48 + claimLength payload 48
  | .transition, payload => 17 + claimLength payload 17
  | .heartbeat, payload => claimLength payload 0 + 8
  | .goodbye, payload => 4 + (getU32 payload 0).toNat

end PlainRequest

/-! ### Every request is spelled in one way -/

theorem ClientRole.toWire_of_fromWire {raw : UInt8} {role : ClientRole}
    (known : fromWire raw = some role) : role.toWire = raw := by
  revert raw role
  decide +kernel

theorem QueryKind.toWire_of_fromWire {raw : UInt8} {kind : QueryKind}
    (known : fromWire raw = some kind) : kind.toWire = raw := by
  revert raw kind
  decide +kernel

theorem memberState_toWire_of_fromWire {raw : UInt8} {state : MemberState}
    (known : MemberState.fromWire raw = some state) : state.toWire = raw := by
  revert raw state
  decide +kernel

theorem spells_authorityClaim : Spells readAuthorityClaim writeAuthorityClaim := by
  refine .step spells_boolean fun _ => .step spells_generation fun _ => .step spells_boolean fun _ =>
    .step spells_generation fun _ => .step spells_boolean fun _ => .step spells_strongId fun _ =>
    .step spells_boolean fun _ => .step spells_strongId fun _ => ?_
  refine .step spells_boolean fun _ => .step spells_generation fun _ => .step spells_boolean fun _ =>
    .step spells_generation fun _ => .step spells_boolean fun _ => .step spells_generation fun _ =>
    .step spells_boolean fun _ => .step spells_generation fun _ => ?_
  refine .step (spells_string _) fun _ => .pure ?_
  simp only [writeAuthorityClaim, List.nil_append]

theorem spells_hello : Spells readHelloRequest HelloRequest.encodeMessage := by
  refine .step spells_u16 fun _ => .step spells_u8 fun _ => .step spells_strongId fun _ =>
    .step spells_strongId fun _ => .step spells_strongId fun _ => .step spells_strongId fun _ => ?_
  refine .step (spells_string _) fun _ => .step (spells_string _) fun _ =>
    .step (spells_string _) fun _ => .step spells_u64 fun _ => .ofOption fun role known => .pure ?_
  simp only [HelloRequest.encodeMessage, ClientRole.toWire_of_fromWire known, List.nil_append]

theorem spells_query : Spells readQueryRequest QueryRequest.encodeMessage := by
  refine .step spells_u8 fun _ => .step spells_strongId fun _ => .step spells_strongId fun _ =>
    .step spells_strongId fun _ => .step spells_boolean fun _ => .ofOption fun kind known => .pure ?_
  simp only [QueryRequest.encodeMessage, QueryKind.toWire_of_fromWire known, List.nil_append]

theorem spells_evaluate : Spells readEvaluateRequest EvaluateRequest.encodeMessage := by
  refine .step spells_strongId fun _ => .step spells_strongId fun _ => .step spells_boolean fun _ =>
    .step spells_strongId fun _ => .pure ?_
  simp only [EvaluateRequest.encodeMessage, List.nil_append]

theorem spells_planMigration :
    Spells readPlanMigrationRequest PlanMigrationRequest.encodeMessage := by
  refine .step spells_strongId fun _ => .step spells_strongId fun _ => .step spells_strongId fun _ =>
    .step spells_authorityClaim fun _ => .pure ?_
  simp only [PlanMigrationRequest.encodeMessage, List.nil_append]

theorem spells_transition : Spells readTransitionRequest TransitionRequest.encodeMessage := by
  refine .step spells_strongId fun _ => .step spells_u8 fun _ =>
    .step spells_authorityClaim fun _ => .ofOption fun target known => .pure ?_
  simp only [TransitionRequest.encodeMessage, memberState_toWire_of_fromWire known, List.nil_append]

theorem spells_heartbeat : Spells readHeartbeatRequest HeartbeatRequest.encodeMessage := by
  refine .step spells_authorityClaim fun _ => .step spells_generation fun _ => .pure ?_
  simp only [HeartbeatRequest.encodeMessage, List.nil_append]

theorem spells_goodbye : Spells readGoodbyeRequest GoodbyeRequest.encodeMessage := by
  refine .step (spells_string _) fun _ => .pure ?_
  simp only [GoodbyeRequest.encodeMessage, List.nil_append]

/-! ### Lengths that are declared -/

/-- The length field before a text that is written at the offset. -/
theorem getU32_string {before value : Bytes} {offset : Nat} (start : before.length = offset)
    (short : value.length < 4294967296) (after : Bytes) :
    (getU32 (before ++ (ByteWriter.string value ++ after)) offset).toNat = value.length := by
  have faithful : (UInt32.ofNat value.length).toNat = value.length :=
    UInt32.toNat_ofNat_of_lt' short
  have width : (ByteWriter.u32 (UInt32.ofNat value.length)).length = 4 := length_u32 _
  have inside : offset + 4 ≤ (before ++ (ByteWriter.string value ++ after)).length := by
    simp only [List.length_append, length_string]
    omega
  rw [(getU32_eq_iff inside).mpr _, faithful]
  rw [field, List.drop_left' start, ByteWriter.string, List.append_assoc, List.take_left' width]

/-- A claim is 88 bytes and a text. -/
theorem exists_writeAuthorityClaim (claim : AuthorityClaim) : ∃ head : Bytes, head.length = 88 ∧
    writeAuthorityClaim claim = head ++ ByteWriter.string claim.purpose := by
  refine ⟨_, ?_, rfl⟩
  simp only [List.length_append, length_boolean, length_generation, length_strongId]

theorem claimLength_eq {before after : Bytes} {claim : AuthorityClaim} {offset : Nat}
    (start : before.length = offset)
    (short : claim.purpose.length ≤ Limits.maxDescriptionBytes) :
    PlainRequest.claimLength (before ++ (writeAuthorityClaim claim ++ after)) offset =
      (writeAuthorityClaim claim).length := by
  obtain ⟨head, width, written⟩ := exists_writeAuthorityClaim claim
  have place : (before ++ head).length = offset + 88 := by
    rw [List.length_append, start, width]
  have small : claim.purpose.length < 4294967296 := short.trans_lt (by decide)
  rw [PlainRequest.claimLength, written, List.append_assoc head, ← List.append_assoc before,
    getU32_string place small, List.length_append, width, length_string]
  omega

theorem ensures_authorityClaim : Ensures readAuthorityClaim fun claim =>
    claim.purpose.length ≤ Limits.maxDescriptionBytes := by
  iterate 16
    apply Ensures.then_
    intro _
  apply Ensures.step (ensures_string _)
  intro purpose short
  exact Ensures.pure short

/-- A handshake is 67 bytes, three texts and a number. -/
theorem exists_encodeMessage (message : HelloRequest) : ∃ head : Bytes, head.length = 67 ∧
    message.encodeMessage = head ++ (ByteWriter.string message.nodeToken ++
      (ByteWriter.string message.clientName ++
        (ByteWriter.string message.clientVersion ++ ByteWriter.u64 message.nonce))) := by
  refine ⟨ByteWriter.u16 message.protocolVersion ++ ByteWriter.u8 message.role.toWire ++
    ByteWriter.strongId message.federation ++ ByteWriter.strongId message.agent ++
    ByteWriter.strongId message.agentBoot ++ ByteWriter.strongId message.node, ?_, ?_⟩
  · simp only [List.length_append, length_u16, length_u8, length_strongId]
  · simp only [HelloRequest.encodeMessage, List.append_assoc]

theorem ensures_hello : Ensures readHelloRequest HelloRequest.Bounded := by
  iterate 6
    apply Ensures.then_
    intro _
  apply Ensures.step (ensures_string _)
  intro token short
  apply Ensures.step (ensures_string _)
  intro name short'
  apply Ensures.step (ensures_string _)
  intro version short''
  apply Ensures.then_
  intro _
  apply Ensures.ofOption
  intro _ _
  exact Ensures.pure ⟨short, short', short''⟩

theorem ensures_goodbye : Ensures readGoodbyeRequest fun message =>
    message.reason.length ≤ Limits.maxDescriptionBytes := by
  apply Ensures.step (ensures_string _)
  intro reason short
  exact Ensures.pure short

namespace PlainRequest

/-- The texts of a message keep to the limits of its decoder. -/
def Bounded : (kind : PlainRequest) → kind.Message → Prop
  | .hello, message => HelloRequest.Bounded message
  | .query, _ => True
  | .evaluate, _ => True
  | .planMigration, message =>
      (message : PlanMigrationRequest).claim.purpose.length ≤ Limits.maxDescriptionBytes
  | .transition, message =>
      (message : TransitionRequest).claim.purpose.length ≤ Limits.maxDescriptionBytes
  | .heartbeat, message =>
      (message : HeartbeatRequest).claim.purpose.length ≤ Limits.maxDescriptionBytes
  | .goodbye, message => (message : GoodbyeRequest).reason.length ≤ Limits.maxDescriptionBytes

theorem spells (kind : PlainRequest) : Spells kind.reader kind.encodeMessage := by
  cases kind with
  | hello => exact spells_hello
  | query => exact spells_query
  | evaluate => exact spells_evaluate
  | planMigration => exact spells_planMigration
  | transition => exact spells_transition
  | heartbeat => exact spells_heartbeat
  | goodbye => exact spells_goodbye

theorem ensures (kind : PlainRequest) : Ensures kind.reader kind.Bounded := by
  cases kind with
  | hello => exact ensures_hello
  | query => exact ⟨fun _ => trivial⟩
  | evaluate => exact ⟨fun _ => trivial⟩
  | planMigration =>
      iterate 3
        apply Ensures.then_
        intro _
      exact Ensures.step ensures_authorityClaim fun claim short => Ensures.pure short
  | transition =>
      iterate 2
        apply Ensures.then_
        intro _
      exact Ensures.step ensures_authorityClaim fun claim short =>
        Ensures.ofOption fun _ _ => Ensures.pure short
  | heartbeat =>
      exact Ensures.step ensures_authorityClaim fun claim short =>
        Ensures.then_ fun _ => Ensures.pure short
  | goodbye => exact ensures_goodbye

theorem decode_eq (kind : PlainRequest) (payload : Bytes) :
    kind.decode payload = Net.decode kind.reader payload := by
  cases kind <;> rfl

theorem declaredLength_hello {message : HelloRequest} (bounded : message.Bounded) (rest : Bytes) :
    declaredLength .hello (message.encodeMessage ++ rest) = message.encodeMessage.length := by
  have token : message.nodeToken.length < 4294967296 := bounded.nodeToken.trans_lt (by decide)
  have name : message.clientName.length < 4294967296 := bounded.clientName.trans_lt (by decide)
  have version : message.clientVersion.length < 4294967296 :=
    bounded.clientVersion.trans_lt (by decide)
  obtain ⟨head, width, written⟩ := exists_encodeMessage message
  have second : (head ++ ByteWriter.string message.nodeToken).length =
      71 + message.nodeToken.length := by
    rw [List.length_append, width, length_string]
    omega
  have third : (head ++ ByteWriter.string message.nodeToken ++
      ByteWriter.string message.clientName).length =
        75 + message.nodeToken.length + message.clientName.length := by
    rw [List.length_append, second, length_string]
    omega
  -- each length field is found behind the text before it
  have atToken := getU32_string width token (ByteWriter.string message.clientName ++
    (ByteWriter.string message.clientVersion ++ (ByteWriter.u64 message.nonce ++ rest)))
  have atName := getU32_string second name
    (ByteWriter.string message.clientVersion ++ (ByteWriter.u64 message.nonce ++ rest))
  have atVersion := getU32_string third version (ByteWriter.u64 message.nonce ++ rest)
  simp only [List.append_assoc] at atToken atName atVersion
  rw [written]
  simp only [declaredLength, List.append_assoc, atToken, atName, atVersion, List.length_append,
    length_string, length_u64, width]
  omega

/-- The length fields of an encoding declare its length, whatever follows. -/
theorem declaredLength_encodeMessage {kind : PlainRequest} {message : kind.Message}
    (bounded : kind.Bounded message) (rest : Bytes) :
    kind.declaredLength (kind.encodeMessage message ++ rest) =
      (kind.encodeMessage message).length := by
  cases kind with
  | hello =>
      exact declaredLength_hello bounded rest
  | query =>
      simp only [declaredLength, encodeMessage, QueryRequest.encodeMessage, List.length_append,
        length_u8, length_strongId, length_boolean]
  | evaluate =>
      simp only [declaredLength, encodeMessage, EvaluateRequest.encodeMessage, List.length_append,
        length_strongId, length_boolean]
  | planMigration =>
      simp only [declaredLength, encodeMessage, PlanMigrationRequest.encodeMessage]
      rw [List.append_assoc, claimLength_eq (by simp only [List.length_append, length_strongId]) bounded]
      simp only [List.length_append, length_strongId]
  | transition =>
      simp only [declaredLength, encodeMessage, TransitionRequest.encodeMessage]
      rw [List.append_assoc, claimLength_eq (by simp only [List.length_append, length_strongId, length_u8]) bounded]
      simp only [List.length_append, length_strongId, length_u8]
  | heartbeat =>
      simp only [declaredLength, encodeMessage, HeartbeatRequest.encodeMessage]
      rw [List.append_assoc, ← List.nil_append (writeAuthorityClaim _ ++ _), claimLength_eq List.length_nil bounded]
      simp only [List.length_append, length_generation, List.nil_append]
  | goodbye =>
      have short : (message : GoodbyeRequest).reason.length < 4294967296 :=
        Nat.lt_of_le_of_lt bounded (by decide)
      simp only [declaredLength, encodeMessage, GoodbyeRequest.encodeMessage]
      rw [← List.nil_append (ByteWriter.string _ ++ _), getU32_string List.length_nil short,
        length_string]

/-- **When a request has one encoding.** A payload that a decoder accepts is the encoding of the
message exactly if it is as long as its own length fields declare: trailing bytes are accepted
and lost. -/
theorem encodeMessage_eq_iff {kind : PlainRequest} {payload : Bytes} {message : kind.Message}
    (accepted : kind.decode payload = .ok message) :
    kind.encodeMessage message = payload ↔ payload.length = kind.declaredLength payload := by
  rw [decode_eq, Net.decode] at accepted
  cases read : kind.reader.run payload with
  | error e =>
      rw [read] at accepted
      cases accepted
  | ok result =>
      obtain ⟨message', rest⟩ := result
      rw [read] at accepted
      cases accepted
      have split : payload = kind.encodeMessage message' ++ rest := kind.spells.of_run read
      rw [split, declaredLength_encodeMessage (kind.ensures.of_run read), List.length_append]
      constructor
      · intro whole
        rw [List.self_eq_append_right.mp whole]
        rfl
      · intro exact_
        have none : rest = [] := List.eq_nil_of_length_eq_zero (by omega)
        rw [none, List.append_nil]

end PlainRequest

/-- A goodbye without a reason, and one byte more. -/
theorem trailing_byte_accepted :
    PlainRequest.goodbye.decode [0, 0, 0, 0, 7] = .ok ({} : GoodbyeRequest) ∧
      PlainRequest.goodbye.encodeMessage ({} : GoodbyeRequest) = [0, 0, 0, 0] := by
  decide +kernel

theorem goodbye_one_encoding :
    PlainRequest.goodbye.encodeMessage ({} : GoodbyeRequest) = [0, 0, 0, 0] := by
  have accepted : PlainRequest.goodbye.decode [0, 0, 0, 0] = .ok ({} : GoodbyeRequest) := by
    decide +kernel
  exact (PlainRequest.encodeMessage_eq_iff accepted).mpr (by decide +kernel)

end Net

end Haf
