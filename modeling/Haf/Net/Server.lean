/-
# The server of a connection

One loop serves a connection: it reads a frame, verifies it, has the control plane handle
the request in it and writes the answer. The loop has many ways out, and several frames
are answered without being handled. What may happen on a connection is stated as a
conversation, in which the handled requests have rising sequence numbers and nothing
follows a frame that failed verification, and the loop is shown to hold such a
conversation whatever bytes arrive and whatever the rest of the coordinator does.
-/

import Haf.Net.ControlPlane

namespace Haf.Net

/-! ### Message types on the wire -/

namespace MessageType

def toWire : MessageType → UInt16
  | .hello => 1
  | .helloAck => 2
  | .advertise => 3
  | .advertiseAck => 4
  | .query => 5
  | .queryResponse => 6
  | .evaluate => 7
  | .evaluateResponse => 8
  | .planMigration => 9
  | .planMigrationResponse => 10
  | .transition => 11
  | .transitionResponse => 12
  | .heartbeat => 13
  | .heartbeatAck => 14
  | .goodbye => 15
  | .errorResponse => 16
  | .registerWorkload => 17
  | .registerWorkloadAck => 18

def fromWire : UInt16 → Option MessageType
  | 1 => some .hello
  | 2 => some .helloAck
  | 3 => some .advertise
  | 4 => some .advertiseAck
  | 5 => some .query
  | 6 => some .queryResponse
  | 7 => some .evaluate
  | 8 => some .evaluateResponse
  | 9 => some .planMigration
  | 10 => some .planMigrationResponse
  | 11 => some .transition
  | 12 => some .transitionResponse
  | 13 => some .heartbeat
  | 14 => some .heartbeatAck
  | 15 => some .goodbye
  | 16 => some .errorResponse
  | 17 => some .registerWorkload
  | 18 => some .registerWorkloadAck
  | _ => none

/-- The types a client may send. -/
def isKnownRequest : MessageType → Bool
  | .hello | .advertise | .query | .evaluate | .planMigration | .transition | .heartbeat
  | .goodbye | .registerWorkload => true
  | _ => false

end MessageType

namespace FrameFlags

def response : UInt16 := 1
def error : UInt16 := 2

end FrameFlags

/-! ### Receiving -/

/-- The next bytes of a stream, if that many arrive. -/
def readExact (count : Nat) (stream : Bytes) : Option (Bytes × Bytes) :=
  if stream.length < count then none else some (stream.take count, stream.drop count)

/-- What the server makes of the next bytes of a connection. -/
inductive Reception
  /-- The bytes of a frame did not arrive. -/
  | lost
  /-- The header or the trailer of the frame failed verification. -/
  | fault (status : Status)
  | verified (header : FrameHeader) (payload rest : Bytes)

def receiveFrame (maximumPayload : Nat) (stream : Bytes) : Reception :=
  match readExact frameHeaderBytes stream with
  | none => .lost
  | some (headerBytes, stream) =>
      match decodeFrameHeader headerBytes maximumPayload with
      | .error status => .fault status
      | .ok header =>
          match readExact header.payloadLength.toNat stream with
          | none => .lost
          | some (payload, stream) =>
              match readExact frameTrailerBytes stream with
              | none => .lost
              | some (trailer, stream) =>
                  match verifyFrameTrailer headerBytes payload trailer with
                  | .error _ => .fault (.failure .corruptPayload "frame integrity check failed")
                  | .ok _ => .verified header payload stream

variable {rest stream : Bytes} {header : FrameHeader}

theorem length_of_readExact {count : Nat} {first : Bytes}
    (read : readExact count stream = some (first, rest)) :
    stream.length = count + rest.length := by
  rw [readExact] at read
  split at read
  · cases read
  · cases read
    rw [List.length_drop]
    omega

/-- A verified frame has used up bytes of the stream. -/
theorem length_lt_of_verified {maximumPayload : Nat} {payload : Bytes}
    (received : receiveFrame maximumPayload stream =
      .verified header payload rest) : rest.length < stream.length := by
  unfold receiveFrame at received
  split at received
  · cases received
  · rename_i headerBytes afterHeader first
    split at received
    · cases received
    · split at received
      · cases received
      · rename_i afterPayload second
        split at received
        · cases received
        · rename_i afterTrailer third
          split at received
          · cases received
          · cases received
            have header := length_of_readExact first
            have payload := length_of_readExact second
            have trailer := length_of_readExact third
            rw [frameHeaderBytes] at header
            omega

/-! ### The loop -/

structure ServerConfig where
  maxPayloadBytes : Nat := maxFramePayloadBytes

/-- A connection as the server keeps it: what the handlers read, and the sequence number of
the last request. -/
structure ServedConnection extends ConnectionState where
  lastRequestSequence : UInt64 := 0
  sawRequest : Bool := false

/-- The surroundings of one turn of the loop. -/
structure Turn where
  /-- The server has been told to stop when the turn begins. -/
  stopping : Bool
  /-- What other connections make the control plane do before the turn. -/
  meanwhile : List PlaneEvent
  /-- The environments of the calls that the request of the turn leads to. -/
  envs : Nat → Environment
  /-- The response could be written. -/
  written : Bool

/-- A connection and the control plane that serves it. -/
structure Serving where
  connection : ServedConnection
  plane : ControlPlane

/-- What the loop does, as it can be seen from outside. -/
inductive Activity
  /-- A frame has passed verification. -/
  | received (header : FrameHeader) (payload : Bytes)
  /-- A frame has failed verification. -/
  | rejected
  /-- The handler is invoked for the request of a frame. -/
  | handled (sequence : UInt64) (type : MessageType) (payload : Bytes)
  /-- A frame that answers a verified one is sent. -/
  | responded (frame : Frame)
  /-- A frame that reports a failed verification is sent. -/
  | complained (frame : Frame)
  | disconnected

/-- The error that the server answers by itself. -/
def serverError (code : ErrorCode) (message detail : Bytes) : ResponseMessage where
  type := .errorResponse
  payload := ErrorResponse.encodeMessage { code, message, detail }
  error := true

/-- The frame that carries a response to the frame with the given header. -/
def responseFrame (header : FrameHeader) (response : ResponseMessage) : Frame where
  header := {
    protocolVersion := header.protocolVersion
    type := response.type.toWire
    flags := if response.error then FrameFlags.response ||| FrameFlags.error
      else FrameFlags.response
    sequence := header.sequence }
  payload := response.payload

/-- The frame that reports a fault; it names no sequence number. -/
def faultFrame (peer : Bytes) (status : Status) : Frame where
  header := {
    type := MessageType.errorResponse.toWire
    flags := FrameFlags.response ||| FrameFlags.error }
  payload := ErrorResponse.encodeMessage {
    code := status.code, message := status.message, detail := peer }

/-- The frame, if it can be sent. -/
def sendable (frame : Frame) : Option Frame :=
  match encodeFrame frame with
  | .ok _ => some frame
  | .error _ => none

/-- What one verified frame leads to. -/
structure Exchange where
  header : FrameHeader
  payload : Bytes
  /-- The type of the request for which the handler was invoked. -/
  request : Option MessageType
  response : Option Frame

def Exchange.activities (x : Exchange) : List Activity :=
  .received x.header x.payload ::
    ((x.request.map fun type => Activity.handled x.header.sequence type x.payload).toList ++
      (x.response.map Activity.responded).toList)

namespace ServedConnection

/-- The request with this sequence number would be a repetition. -/
def repeats (connection : ServedConnection) (sequence : UInt64) : Bool :=
  connection.sawRequest && sequence ≤ connection.lastRequestSequence

/-- Note the sequence number of a request. -/
def noted (connection : ServedConnection) (sequence : UInt64) : ServedConnection :=
  { connection with sawRequest := true, lastRequestSequence := sequence }

end ServedConnection

namespace Serving

variable (texts : Rendering) (turn : Turn) (s : Serving)

/-- The control plane once the other connections have had their way. -/
def planeNow : ControlPlane :=
  turn.meanwhile.foldl (fun plane e => (e.work texts plane).plane) s.plane

/-- Answer a frame without invoking the handler. -/
def refuse (header : FrameHeader) (payload : Bytes) (response : ResponseMessage) :
    Exchange × Serving :=
  (⟨header, payload, none, sendable (responseFrame header response)⟩,
    { s with plane := s.planeNow texts turn })

/-- Have a request handled and answer with what the handler returns. -/
def invoke (header : FrameHeader) (payload : Bytes) (type : MessageType) : Exchange × Serving :=
  let connection := s.connection.noted header.sequence
  let request : Request := ⟨connection.toConnectionState, type, payload, turn.envs⟩
  let response :=
    match (s.planeNow texts turn).answer texts request with
    | .ok response => response
    | .error status => serverError status.code status.message connection.peer
  (⟨header, payload, some type, sendable (responseFrame header response)⟩,
    ⟨connection, ((s.planeNow texts turn).work texts request).plane⟩)

/-- Deal with a verified frame. -/
def exchange (header : FrameHeader) (payload : Bytes) : Exchange × Serving :=
  match MessageType.fromWire header.type with
  | none =>
      s.refuse texts turn header payload
        (serverError .unknownMessageType (text "unknown control-plane message type") [])
  | some type =>
      if !type.isKnownRequest then
        s.refuse texts turn header payload
          (serverError .protocolViolation (text "message type is not a client request") type.toText)
      else if s.connection.repeats header.sequence then
        s.refuse texts turn header payload
          (serverError .duplicateMessage
            (text "request sequence is not greater than the previous request sequence") [])
      else s.invoke texts turn header payload type

end Serving

/-- The loop goes on after an exchange: its response was written, and it was no farewell. -/
def Exchange.goesOn (x : Exchange) (turn : Turn) : Bool :=
  x.response.isSome && turn.written && MessageType.fromWire x.header.type ≠ some .goodbye

/-- Serve the bytes that arrive on a connection, from its `n`-th turn on. -/
def connectionLoop (config : ServerConfig) (texts : Rendering) (turns : Nat → Turn) (n : Nat)
    (s : Serving) (stream : Bytes) : List Activity × Serving :=
  if (turns n).stopping then ([], s)
  else
    match received : receiveFrame config.maxPayloadBytes stream with
    | .lost => ([], s)
    | .fault status =>
        (.rejected ::
          ((sendable (faultFrame s.connection.peer status)).map Activity.complained).toList, s)
    | .verified header payload rest =>
        let (exchange, s) := s.exchange texts (turns n) header payload
        if exchange.goesOn (turns n) then
          have := length_lt_of_verified received
          let (later, s) := connectionLoop config texts turns (n + 1) s rest
          (exchange.activities ++ later, s)
        else (exchange.activities, s)
  termination_by stream.length

/-- Serve a new connection until it is over, and tell the control plane that it has gone. -/
def serveConnection (config : ServerConfig) (texts : Rendering) (turns : Nat → Turn) (last : Turn)
    (connection : ConnectionState) (plane : ControlPlane) (stream : Bytes) :
    List Activity × ControlPlane :=
  let (activities, s) := connectionLoop config texts turns 0 ⟨{ toConnectionState := connection },
    plane⟩ stream
  (activities ++ [.disconnected],
    ((s.planeNow texts last).disconnect s.connection.toConnectionState last.envs).plane)

/-! ### Conversations -/

namespace ServedConnection

/-- Every request so far has a smaller sequence number. -/
def Precedes (connection : ServedConnection) (sequence : UInt64) : Prop :=
  connection.sawRequest = true → connection.lastRequestSequence < sequence

theorem precedes_of_repeats {connection : ServedConnection} {sequence : UInt64}
    (fresh : connection.repeats sequence = false) : connection.Precedes sequence := by
  intro saw
  simpa [repeats, saw] using fresh

theorem noted_precedes_iff {connection : ServedConnection} {sequence later : UInt64} :
    (connection.noted sequence).Precedes later ↔ sequence < later := by
  simp [noted, Precedes]

end ServedConnection

/-- The response to a frame carries the sequence number of the frame. -/
def Exchange.Answered (x : Exchange) : Prop :=
  ∀ frame, x.response = some frame → frame.header.sequence = x.header.sequence

/-- What may happen on a connection: the frames are dealt with one after the other, a request
is handled only if its sequence number is above those before, and after a frame that failed
verification there is at most the report of it. -/
inductive Conversation : ServedConnection → List Exchange → List Activity → Prop
  | ended {connection : ServedConnection} : Conversation connection [] []
  | rejected {connection : ServedConnection} (complaint : Option Frame) :
      Conversation connection []
        (.rejected :: (complaint.map Activity.complained).toList)
  | refused {connection : ServedConnection} {x : Exchange} {later : List Exchange}
      {activities : List Activity} (unhandled : x.request = none) (answered : x.Answered)
      (rest : Conversation connection later activities) :
      Conversation connection (x :: later) (x.activities ++ activities)
  | handled {connection : ServedConnection} {x : Exchange} {type : MessageType}
      {later : List Exchange} {activities : List Activity} (invoked : x.request = some type)
      (answered : x.Answered) (fresh : connection.Precedes x.header.sequence)
      (rest : Conversation (connection.noted x.header.sequence) later activities) :
      Conversation connection (x :: later) (x.activities ++ activities)

theorem answered_sendable (payload : Bytes) (request : Option MessageType)
    (response : ResponseMessage) :
    Exchange.Answered ⟨header, payload, request, sendable (responseFrame header response)⟩ := by
  intro frame sent
  simp only [sendable] at sent
  split at sent
  · cases sent
    rfl
  · cases sent

/-- What is said after an exchange continues the conversation. -/
theorem Conversation.exchange {texts : Rendering} {turn : Turn} {s s' : Serving}
    {payload : Bytes} {x : Exchange} {later : List Exchange}
    {activities : List Activity} (exchanged : s.exchange texts turn header payload = (x, s'))
    (rest : Conversation s'.connection later activities) :
    Conversation s.connection (x :: later) (x.activities ++ activities) := by
  unfold Serving.exchange at exchanged
  split at exchanged
  · cases exchanged
    exact .refused rfl (answered_sendable payload none _) rest
  · split_ifs at exchanged with request repeated
    · cases exchanged
      exact .refused rfl (answered_sendable payload none _) rest
    · cases exchanged
      exact .refused rfl (answered_sendable payload none _) rest
    · cases exchanged
      have fresh := ServedConnection.precedes_of_repeats (Bool.eq_false_iff.mpr repeated)
      exact .handled rfl (answered_sendable payload _ _) fresh rest

/-- The loop holds a conversation, whatever bytes arrive. -/
theorem conversation_connectionLoop (config : ServerConfig) (texts : Rendering)
    (turns : Nat → Turn) (n : Nat) (s : Serving) (stream : Bytes) :
    ∃ exchanges, Conversation s.connection exchanges
      (connectionLoop config texts turns n s stream).1 := by
  -- the induction is on the bytes that are left
  fun_induction connectionLoop config texts turns n s stream with
  | case1 n s stream stopping => exact ⟨[], .ended⟩
  | case2 n s stream running lost => exact ⟨[], .ended⟩
  | case3 n s stream running status fault => exact ⟨[], .rejected _⟩
  | case4 n s stream running header payload rest received x s' exchanged on smaller later s''
      looped ih =>
      rw [looped] at ih
      obtain ⟨exchanges, conversation⟩ := ih
      exact ⟨x :: exchanges, conversation.exchange exchanged⟩
  | case5 n s stream running header payload rest received x s' exchanged off =>
      have conversation := Conversation.ended.exchange exchanged
      rw [List.append_nil] at conversation
      exact ⟨[x], conversation⟩

/-! ### What a conversation shows -/

/-- An invocation of the handler. -/
structure Invocation where
  sequence : UInt64
  type : MessageType
  payload : Bytes

namespace Activity

/-- The frames that passed verification, in order. -/
def verified : List Activity → List (FrameHeader × Bytes) :=
  List.filterMap fun
    | .received header payload => some (header, payload)
    | _ => none

/-- The invocations of the handler, in order. -/
def invocations : List Activity → List Invocation :=
  List.filterMap fun
    | .handled sequence type payload => some ⟨sequence, type, payload⟩
    | _ => none

/-- The frames sent in answer to verified ones, in order. -/
def responses : List Activity → List Frame :=
  List.filterMap fun
    | .responded frame => some frame
    | _ => none

/-- No frame is taken up. -/
def Idle : Activity → Prop
  | .received _ _ | .handled _ _ _ => False
  | _ => True

end Activity

namespace Exchange

/-- The invocation of the handler in an exchange. -/
def invocation (x : Exchange) : Option Invocation :=
  x.request.map fun type => ⟨x.header.sequence, type, x.payload⟩

open Activity

variable (x : Exchange) (later : List Activity)

@[simp]
theorem verified_activities :
    verified (x.activities ++ later) = (x.header, x.payload) :: verified later := by
  cases x with
  | mk header payload request response => cases request <;> cases response <;> rfl

@[simp]
theorem invocations_activities :
    invocations (x.activities ++ later) = x.invocation.toList ++ invocations later := by
  cases x with
  | mk header payload request response => cases request <;> cases response <;> rfl

@[simp]
theorem responses_activities :
    responses (x.activities ++ later) = x.response.toList ++ responses later := by
  cases x with
  | mk header payload request response => cases request <;> cases response <;> rfl

/-- An exchange is about a frame that passed verification. -/
theorem ne_rejected_of_mem {x : Exchange} {a : Activity} (mem : a ∈ x.activities) :
    a ≠ .rejected := by
  intro rejected
  subst rejected
  simp [activities] at mem

theorem idle_after_activities {later : List Activity}
    (idle : later.Pairwise fun a b => a = .rejected → b.Idle) :
    (x.activities ++ later).Pairwise fun a b => a = .rejected → b.Idle := by
  apply List.pairwise_append.mpr
  refine ⟨List.pairwise_of_forall_mem_list ?_, idle, ?_⟩
  · intro a mem b _ rejected
    exact absurd rejected (ne_rejected_of_mem mem)
  · intro a mem b _ rejected
    exact absurd rejected (ne_rejected_of_mem mem)

end Exchange

open Activity

/-- The activities are those of the exchanges: each verified frame is answered at most once,
in its turn. -/
structure Shows (exchanges : List Exchange) (activities : List Activity) : Prop where
  verified_eq : verified activities = exchanges.map fun x => (x.header, x.payload)
  invocations_eq : invocations activities = exchanges.filterMap Exchange.invocation
  responses_eq : responses activities = exchanges.filterMap Exchange.response

theorem Shows.cons {exchanges : List Exchange} {activities : List Activity}
    (shows : Shows exchanges activities) (x : Exchange) :
    Shows (x :: exchanges) (x.activities ++ activities) where
  verified_eq := by rw [x.verified_activities, shows.verified_eq, List.map_cons]
  invocations_eq := by
    rw [x.invocations_activities, shows.invocations_eq, List.filterMap_eq_flatMap_toList,
      List.filterMap_eq_flatMap_toList, List.flatMap_cons]
  responses_eq := by
    rw [x.responses_activities, shows.responses_eq, List.filterMap_eq_flatMap_toList,
      List.filterMap_eq_flatMap_toList, List.flatMap_cons]

namespace Conversation

variable {connection : ServedConnection} {exchanges : List Exchange} {activities : List Activity}

theorem toShows (conversation : Conversation connection exchanges activities) :
    Shows exchanges activities := by
  induction conversation with
  | ended => exact ⟨rfl, rfl, rfl⟩
  | rejected complaint =>
      cases complaint with
      | none => exact ⟨rfl, rfl, rfl⟩
      | some frame => exact ⟨rfl, rfl, rfl⟩
  | refused _ _ _ ih => exact ih.cons _
  | handled _ _ _ _ ih => exact ih.cons _

theorem answered_of_mem (conversation : Conversation connection exchanges activities)
    {x : Exchange} (mem : x ∈ exchanges) : x.Answered := by
  induction conversation with
  | ended => cases mem
  | rejected complaint => cases mem
  | refused _ answered _ ih =>
      cases mem with
      | head => exact answered
      | tail _ later => exact ih later
  | handled _ answered _ _ ih =>
      cases mem with
      | head => exact answered
      | tail _ later => exact ih later

/-- Every handled request comes after those before the conversation. -/
theorem precedes_of_mem (conversation : Conversation connection exchanges activities)
    {i : Invocation} (mem : i ∈ exchanges.filterMap Exchange.invocation) :
    connection.Precedes i.sequence := by
  induction conversation with
  | ended => cases mem
  | rejected complaint => cases mem
  | refused unhandled _ _ ih =>
      rw [List.filterMap_cons, Exchange.invocation, unhandled] at mem
      exact ih mem
  | handled invoked _ fresh _ ih =>
      rw [List.filterMap_cons, Exchange.invocation, invoked] at mem
      cases mem with
      | head => exact fresh
      | tail _ later =>
          intro saw
          exact UInt64.lt_trans (fresh saw) (ServedConnection.noted_precedes_iff.mp (ih later))

/-- The handled requests have rising sequence numbers. -/
theorem ascending (conversation : Conversation connection exchanges activities) :
    (exchanges.filterMap Exchange.invocation).Pairwise fun i j => i.sequence < j.sequence := by
  induction conversation with
  | ended => exact .nil
  | rejected complaint => exact .nil
  | refused unhandled _ _ ih =>
      rw [List.filterMap_cons, Exchange.invocation, unhandled]
      exact ih
  | handled invoked _ _ rest ih =>
      rw [List.filterMap_cons, Exchange.invocation, invoked]
      apply List.Pairwise.cons _ ih
      intro i mem
      exact ServedConnection.noted_precedes_iff.mp (rest.precedes_of_mem mem)

/-- Nothing is taken up after a frame that failed verification. -/
theorem idle_after_rejected (conversation : Conversation connection exchanges activities) :
    activities.Pairwise fun earlier later => earlier = .rejected → later.Idle := by
  induction conversation with
  | ended => exact .nil
  | rejected complaint =>
      cases complaint with
      | none => exact List.pairwise_singleton _ _
      | some frame => exact List.pairwise_pair.mpr fun _ => trivial
  | refused _ _ _ ih => exact Exchange.idle_after_activities _ ih
  | handled _ _ _ _ ih => exact Exchange.idle_after_activities _ ih

end Conversation

theorem Shows.disconnected {exchanges : List Exchange} {activities : List Activity}
    (shows : Shows exchanges activities) : Shows exchanges (activities ++ [.disconnected]) where
  verified_eq := by simpa [verified] using shows.verified_eq
  invocations_eq := by simpa [invocations] using shows.invocations_eq
  responses_eq := by simpa [responses] using shows.responses_eq

/-- No replay on a connection: the handled requests have rising sequence numbers, every
verified frame is answered at most once and in its turn, with its own sequence number, and
nothing is taken up after a frame that failed verification. -/
theorem no_replay (config : ServerConfig) (texts : Rendering) (turns : Nat → Turn) (last : Turn)
    (connection : ConnectionState) (plane : ControlPlane) (stream : Bytes) :
    let activities := (serveConnection config texts turns last connection plane stream).1
    ((invocations activities).Pairwise fun i j => i.sequence < j.sequence) ∧
      (∃ exchanges, Shows exchanges activities ∧ ∀ x ∈ exchanges, x.Answered) ∧
      activities.Pairwise fun earlier later => earlier = .rejected → later.Idle := by
  obtain ⟨exchanges, conversation⟩ := conversation_connectionLoop config texts turns 0
    ⟨{ toConnectionState := connection }, plane⟩ stream
  have shows : Shows exchanges
      (serveConnection config texts turns last connection plane stream).1 :=
    conversation.toShows.disconnected
  refine ⟨?_, ⟨exchanges, shows, fun x mem => conversation.answered_of_mem mem⟩, ?_⟩
  · rw [shows.invocations_eq]
    exact conversation.ascending
  · apply List.pairwise_append.mpr
    refine ⟨conversation.idle_after_rejected, List.pairwise_singleton _ _, ?_⟩
    intro earlier _ later gone _
    rw [List.mem_singleton.mp gone]
    trivial

/-! ### The control plane behind the loop -/

section Planes

variable (texts : Rendering)

/-- The control plane goes from one state to the other by its own events. -/
abbrev Leads : ControlPlane → ControlPlane → Prop :=
  Run.Reaches (PlaneStep texts) fun _ _ => True

theorem leads_planeNow (turn : Turn) (s : Serving) :
    Leads texts s.plane (s.planeNow texts turn) := by
  have leads (events : List PlaneEvent) (plane : ControlPlane) :
      Leads texts plane (events.foldl (fun plane e => (e.work texts plane).plane) plane) := by
    induction events generalizing plane with
    | nil => exact .refl
    | cons e events ih =>
        exact (Run.Reaches.refl.next trivial rfl : Leads texts plane _).trans (ih _)
  exact leads turn.meanwhile s.plane

theorem leads_exchange {turn : Turn} {s s' : Serving} {header : FrameHeader} {payload : Bytes}
    {x : Exchange} (exchanged : s.exchange texts turn header payload = (x, s')) :
    Leads texts s.plane s'.plane := by
  have before := leads_planeNow texts turn s
  unfold Serving.exchange at exchanged
  split at exchanged
  · cases exchanged
    exact before
  · split_ifs at exchanged with request repeated
    · cases exchanged
      exact before
    · cases exchanged
      exact before
    · cases exchanged
      exact before.next (e := .request _) trivial rfl

theorem leads_connectionLoop (config : ServerConfig) (turns : Nat → Turn) (n : Nat) (s : Serving)
    (stream : Bytes) :
    Leads texts s.plane (connectionLoop config texts turns n s stream).2.plane := by
  fun_induction connectionLoop config texts turns n s stream with
  | case1 n s stream stopping => exact .refl
  | case2 n s stream running lost => exact .refl
  | case3 n s stream running status fault => exact .refl
  | case4 n s stream running header payload rest received x s' exchanged on smaller later s''
      looped ih =>
      rw [looped] at ih
      exact (leads_exchange texts exchanged).trans ih
  | case5 n s stream running header payload rest received x s' exchanged off =>
      exact leads_exchange texts exchanged

/-- Serving a connection is nothing but requests and a disconnection to the control plane, so
what holds in all its runs holds behind a server. -/
theorem leads_serveConnection (config : ServerConfig) (turns : Nat → Turn) (last : Turn)
    (connection : ConnectionState) (plane : ControlPlane) (stream : Bytes) :
    Leads texts plane (serveConnection config texts turns last connection plane stream).2 := by
  have served := leads_connectionLoop texts config turns 0
    ⟨{ toConnectionState := connection }, plane⟩ stream
  have waited := served.trans (leads_planeNow texts last _)
  exact waited.next (e := .disconnected _ last.envs) trivial rfl

end Planes

end Haf.Net
