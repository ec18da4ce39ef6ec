/-
# Handshakes at the same time

A handshake scans the sessions for its agent and boot in one critical section and files
its own session in another. Handlers of several connections interleave between the two.
If no handshake scans while one of the same boot is between its scan and its filing, a
boot never holds two sessions; otherwise it may.
-/

import Haf.Properties.Ownership

namespace Haf.Net

/-! ### Sessions and scans -/

section Sessions

variable {plane : ControlPlane}

theorem getElem?_of_erase {sessions : SessionTable} {id id' : SessionId} {session : SessionData}
    (found : (sessions.erase id')[id]? = some session) : sessions[id]? = some session := by
  rw [Std.ExtTreeMap.getElem?_erase] at found
  split at found
  · cases found
  · exact found

theorem duplicateBoot_eq_false {connection : ConnectionState} {request : HelloRequest} :
    plane.duplicateBoot connection request = false ↔
      ∀ id session, id ≠ connection.id → plane.sessions[id]? = some session →
        session.isBoot request.agent request.agentBoot = false := by
  rw [ControlPlane.duplicateBoot, List.any_eq_false]
  constructor
  · intro absent id session other found
    have listed := Std.ExtTreeMap.mem_toList_iff_getElem?_eq_some.mpr found
    simpa [other] using absent (id, session) listed
  · rintro absent ⟨id, session⟩ listed
    have found := Std.ExtTreeMap.mem_toList_iff_getElem?_eq_some.mp listed
    by_cases other : id = connection.id
    · simp [other]
    · simp [absent id session other found]

/-- What the scan of an agent's handshake has made sure of. -/
theorem scanHello_eq_ok {connection : ConnectionState} {request : HelloRequest}
    {response : HelloResponse} (passed : plane.scanHello connection request = .ok response)
    (agent : request.role = .agent) :
    request.agent.isNil = false ∧ plane.duplicateBoot connection request = false := by
  unfold ControlPlane.scanHello at passed
  dsimp only at passed
  split at passed
  · cases passed
  · split at passed
    · cases passed
    · split at passed
      · cases passed
      · rename_i named
        split at passed
        · cases passed
        · rename_i unique
          simp only [Bool.or_eq_true, not_or, Bool.not_eq_true] at named unique
          exact ⟨named.1, unique⟩

/-- A handshake that presents a boot of an agent. -/
def HelloRequest.isBoot (request : HelloRequest) (agent : AgentId) (boot : AgentBootId) : Bool :=
  request.role = .agent && request.agent = agent && request.agentBoot = boot

/-- The session that a handshake files is bound to the boot it presents. -/
theorem isBoot_session (request : HelloRequest) (agent : AgentId) (boot : AgentBootId) :
    (plane.session request).isBoot agent boot = request.isBoot agent boot := rfl

theorem SameSessions.exists_isBoot {sessions sessions' : SessionTable}
    (same : SameSessions sessions sessions') {id : SessionId} {session' : SessionData}
    (found : sessions'[id]? = some session') {agent : AgentId} {boot : AgentBootId} :
    ∃ session, sessions[id]? = some session ∧
      session'.isBoot agent boot = session.isBoot agent boot := by
  have matched := same id
  rw [found, Option.map_some] at matched
  obtain ⟨session, located, equal⟩ := Option.map_eq_some_iff.mp matched.symm
  exact ⟨session, located, congrArg (·.isBoot agent boot) equal.symm⟩

/-- The sessions of boots after a request that is no handshake were there before. -/
theorem exists_isBoot_of_work (texts : Rendering) {r : Request} (opens : r.type ≠ .hello)
    {id : SessionId} {session' : SessionData}
    (found : (plane.work texts r).plane.sessions[id]? = some session') {agent : AgentId}
    {boot : AgentBootId} : ∃ session, plane.sessions[id]? = some session ∧
      session'.isBoot agent boot = session.isBoot agent boot := by
  by_cases closes : r.type = .goodbye
  · rcases work_goodbye texts closes with same | ⟨request, _, same⟩
    · rw [same] at found
      exact ⟨session', found, rfl⟩
    · rw [same] at found
      exact ⟨session', getElem?_of_erase found, rfl⟩
  · exact (accounted_work texts opens closes).sessions.exists_isBoot found

end Sessions

/-! ### Interleaved handlers -/

/-- The control plane while handlers are at work on several connections. -/
structure Handshakes where
  plane : ControlPlane
  /-- The handshakes between their scan and their filing, by connection. -/
  pending : Std.ExtTreeMap SessionId HelloRequest compare

namespace Handshakes

/-- A critical section of a handshake, or something else that happens to the control plane. -/
inductive Event
  | scan (connection : ConnectionState) (payload : Bytes)
  | file (connection : ConnectionState)
  | other (e : PlaneEvent)

/-- No handshake of a connection is under way. -/
def Idle (h : Handshakes) (connection : ConnectionState) : Prop :=
  h.pending[connection.id]? = none

/-- The handlers once a handshake has passed its scan. -/
def awaiting (h : Handshakes) (connection : ConnectionState) (request : HelloRequest) :
    Handshakes :=
  { h with pending := h.pending.insert connection.id request }

/-- The handlers after the scan of a handshake. -/
def scanned (h : Handshakes) (connection : ConnectionState) (payload : Bytes) : Handshakes :=
  match decodeHelloRequest payload with
  | .error _ => h
  | .ok request =>
      match h.plane.scanHello connection request with
      | .error _ => h
      | .ok _ => h.awaiting connection request

/-- The handlers after a handshake has filed its session. -/
def filed (h : Handshakes) (connection : ConnectionState) (request : HelloRequest) : Handshakes :=
  { plane := h.plane.establish connection request
    pending := h.pending.erase connection.id }

/-- A connection handles one request at a time. -/
inductive Step (texts : Rendering) (h : Handshakes) : Event → Handshakes → Prop
  | scan {connection : ConnectionState} {payload : Bytes} (idle : h.Idle connection) :
      Step texts h (.scan connection payload) (h.scanned connection payload)
  | file {connection : ConnectionState} {request : HelloRequest}
      (waiting : h.pending[connection.id]? = some request) :
      Step texts h (.file connection) (h.filed connection request)
  | request {r : Request} (idle : h.Idle r.connection) (other : r.type ≠ .hello) :
      Step texts h (.other (.request r)) { h with plane := (h.plane.work texts r).plane }
  | disconnected {connection : ConnectionState} {envs : Nat → Environment}
      (idle : h.Idle connection) :
      Step texts h (.other (.disconnected connection envs))
        { h with plane := (h.plane.disconnect connection envs).plane }

/-- A connection holds a boot with its session, or is about to. -/
def Holds (h : Handshakes) (id : SessionId) (agent : AgentId) (boot : AgentBootId) : Prop :=
  (∃ session, h.plane.sessions[id]? = some session ∧ session.isBoot agent boot = true) ∨
    ∃ request, h.pending[id]? = some request ∧ request.isBoot agent boot = true

/-- No two connections hold the same boot, or are about to. -/
def Exclusive (h : Handshakes) : Prop :=
  ∀ agent boot id id', h.Holds id agent boot → h.Holds id' agent boot → id = id'

/-- A handshake scans only while no other connection is between the scan and the filing of a
handshake with the same boot. -/
def Disciplined (h : Handshakes) : Event → Prop
  | .scan connection payload => ∀ request, decodeHelloRequest payload = .ok request →
      request.role = .agent → ∀ id other, id ≠ connection.id → h.pending[id]? = some other →
        other.isBoot request.agent request.agentBoot = false
  | _ => True

variable {h : Handshakes} {request : HelloRequest}

theorem Exclusive.of_holds {h' : Handshakes} (exclusive : h.Exclusive)
    (earlier : ∀ id agent boot, h'.Holds id agent boot → h.Holds id agent boot) :
    h'.Exclusive := by
  intro agent boot id id' held held'
  exact exclusive agent boot id id' (earlier id agent boot held) (earlier id' agent boot held')

/-- Filing turns what a connection was about to hold into what it holds. -/
theorem Holds.of_filed {connection : ConnectionState}
    (waiting : h.pending[connection.id]? = some request) {id : SessionId} {agent : AgentId}
    {boot : AgentBootId} (held : (h.filed connection request).Holds id agent boot) :
    h.Holds id agent boot := by
  rcases held with ⟨session, found, bound⟩ | ⟨other, found, bound⟩
  · have inserted : (h.plane.sessions.insert connection.id (h.plane.session request))[id]? =
        some session := found
    rw [Std.ExtTreeMap.getElem?_insert] at inserted
    split at inserted
    · rename_i here
      cases inserted
      rw [isBoot_session] at bound
      rw [compare_eq_iff_eq.mp here] at waiting
      exact .inr ⟨request, waiting, bound⟩
    · exact .inl ⟨session, inserted, bound⟩
  · have erased : (h.pending.erase connection.id)[id]? = some other := found
    rw [Std.ExtTreeMap.getElem?_erase] at erased
    split at erased
    · cases erased
    · exact .inr ⟨other, erased, bound⟩

/-- A disciplined scan lets a connection be about to hold a boot that no other one holds. -/
theorem Exclusive.scanned {connection : ConnectionState} {payload : Bytes}
    (exclusive : h.Exclusive) (disciplined : h.Disciplined (.scan connection payload)) :
    (h.scanned connection payload).Exclusive := by
  unfold Handshakes.scanned
  split
  · exact exclusive
  · rename_i request decoded
    split
    · exact exclusive
    · rename_i response passed
      -- whoever holds the boot of the handshake is the connection itself
      have alone : ∀ id agent boot, request.isBoot agent boot = true →
          h.Holds id agent boot → id = connection.id := by
        intro id agent boot presented held
        by_contra elsewhere
        simp only [HelloRequest.isBoot, Bool.and_eq_true, decide_eq_true_eq] at presented
        obtain ⟨⟨role, rfl⟩, rfl⟩ := presented
        rcases held with ⟨session, found, bound⟩ | ⟨other, found, bound⟩
        · have absent := duplicateBoot_eq_false.mp (scanHello_eq_ok passed role).2
          rw [absent id session elsewhere found] at bound
          cases bound
        · rw [disciplined request decoded role id other elsewhere found] at bound
          cases bound
      -- what is held afterwards was held before, or is the boot of the handshake
      have earlier : ∀ id agent boot, (h.awaiting connection request).Holds id agent boot →
          h.Holds id agent boot ∨ (id = connection.id ∧ request.isBoot agent boot = true) := by
        intro id agent boot held
        rcases held with held | ⟨other, found, bound⟩
        · exact .inl (.inl held)
        · have inserted : (h.pending.insert connection.id request)[id]? = some other := found
          rw [Std.ExtTreeMap.getElem?_insert] at inserted
          split at inserted
          · rename_i here
            cases inserted
            exact .inr ⟨(compare_eq_iff_eq.mp here).symm, bound⟩
          · exact .inl (.inr ⟨other, inserted, bound⟩)
      intro agent boot id id' held held'
      rcases earlier id agent boot held with before | ⟨rfl, bound⟩
      · rcases earlier id' agent boot held' with before' | ⟨rfl, bound'⟩
        · exact exclusive agent boot id id' before before'
        · exact alone id agent boot bound' before
      · rcases earlier id' agent boot held' with before' | ⟨rfl, bound'⟩
        · exact (alone id' agent boot bound before').symm
        · rfl

theorem Exclusive.step {texts : Rendering} {h' : Handshakes} {e : Event}
    (exclusive : h.Exclusive) (disciplined : h.Disciplined e) (taken : Step texts h e h') :
    h'.Exclusive := by
  cases taken with
  | scan idle => exact exclusive.scanned disciplined
  | file waiting =>
      apply exclusive.of_holds
      intro id agent boot held
      exact held.of_filed waiting
  | request idle other =>
      apply exclusive.of_holds
      rintro id agent boot (⟨session', found, bound⟩ | waiting)
      · obtain ⟨session, located, same⟩ := exists_isBoot_of_work texts other found
        rw [same] at bound
        exact .inl ⟨session, located, bound⟩
      · exact .inr waiting
  | disconnected idle =>
      apply exclusive.of_holds
      rintro id agent boot (⟨session', found, bound⟩ | waiting)
      · dsimp only at found
        rw [sessions_disconnect] at found
        exact .inl ⟨session', getElem?_of_erase found, bound⟩
      · exact .inr waiting

theorem scanned_eq {connection : ConnectionState} {payload : Bytes}
    {response : HelloResponse}
    (decoded : decodeHelloRequest payload = .ok request)
    (passed : h.plane.scanHello connection request = .ok response) :
    h.scanned connection payload = h.awaiting connection request := by
  rw [scanned, decoded]
  dsimp only
  rw [passed]

/-- A handshake that is not interrupted is a scan followed by a filing. -/
theorem filed_awaiting {connection : ConnectionState}
    (idle : h.Idle connection) : (h.awaiting connection request).filed connection request =
      { h with plane := h.plane.establish connection request } := by
  have settled : (h.pending.insert connection.id request).erase connection.id = h.pending := by
    apply Std.ExtTreeMap.ext_getElem?
    intro id
    rw [Std.ExtTreeMap.getElem?_erase]
    split
    · rename_i here
      rw [← compare_eq_iff_eq.mp here]
      exact idle.symm
    · rename_i elsewhere
      rw [Std.ExtTreeMap.getElem?_insert, if_neg elsewhere]
  rw [filed, awaiting, settled]

/-- Before any connection is made. -/
def start (plane : ControlPlane) : Handshakes := ⟨plane, ∅⟩

/-- The states that interleaved handlers reach, by events that are allowed where they occur. -/
abbrev Reaches (texts : Rendering) (allowed : Handshakes → Event → Prop) (h : Handshakes) :
    Handshakes → Prop :=
  Run.Reaches (Step texts) allowed h

end Handshakes

/-- No two connections have an established session of the same boot of an agent. -/
def ControlPlane.UniqueBoots (plane : ControlPlane) : Prop :=
  ∀ agent boot (id id' : SessionId) (session session' : SessionData),
    plane.sessions[id]? = some session → plane.sessions[id']? = some session' →
    session.isBoot agent boot = true → session'.isBoot agent boot = true → id = id'

theorem sessions_create {R : Registry} {config : ControlPlaneConfig} {disk : Option Bytes}
    {env : Environment} {plane : ControlPlane}
    (created : ControlPlane.create R config disk env = .ok plane) : plane.sessions = ∅ := by
  simp only [ControlPlane.create, Sequence.bind_eq_ok] at created
  obtain ⟨federation, _, same⟩ := created
  cases same
  rfl

namespace Sample

open Haf.Sample

def planeConfig : ControlPlaneConfig := { federation := ident 9 }

/-- The control plane over an empty store. -/
def fresh : ControlPlane := ⟨planeConfig, opened, ∅⟩

theorem create_eq : ControlPlane.create .core planeConfig none env = .ok fresh := rfl

def otherConnection : ConnectionState := { id := ident 21 }

/-- The handshake of the boot 3 of the agent 2. -/
def hello : HelloRequest := { role := .agent, agent := ident 2, agentBoot := ident 3 }

theorem decode_hello : decodeHelloRequest hello.encodeMessage = .ok hello :=
  decode_of_reads (readHelloRequest_reads hello) (by decide) ⟨by decide, by decide, by decide⟩

theorem scan_hello {plane : ControlPlane} {connection : ConnectionState}
    (unique : plane.duplicateBoot connection hello = false) :
    ∃ response, plane.scanHello connection hello = .ok response := by
  have anywhere : (!hello.federation.isNil && hello.federation ≠ plane.federation.id) = false := by
    rw [show hello.federation.isNil = true from by decide]
    rfl
  have named : (hello.agent.isNil || hello.agentBoot.isNil) = false := by decide
  unfold ControlPlane.scanHello
  simp only [anywhere, named, unique]
  exact ⟨_, rfl⟩

theorem duplicateBoot_of_empty {plane : ControlPlane} (unestablished : plane.sessions = ∅)
    (connection : ConnectionState) : plane.duplicateBoot connection hello = false := by
  rw [duplicateBoot_eq_false]
  intro id session _ found
  rw [unestablished] at found
  simp at found

/-- One connection has scanned. -/
def scannedOnce : Handshakes := (Handshakes.start fresh).awaiting connection hello

/-- Without a session filed, a scan passes. -/
theorem scan_fresh {pending : Std.ExtTreeMap SessionId HelloRequest compare}
    {connection : ConnectionState} (idle : pending[connection.id]? = none) :
    Handshakes.Step texts ⟨fresh, pending⟩ (.scan connection hello.encodeMessage)
      ((⟨fresh, pending⟩ : Handshakes).awaiting connection hello) := by
  have step : Handshakes.Step texts ⟨fresh, pending⟩ (.scan connection hello.encodeMessage)
    ((⟨fresh, pending⟩ : Handshakes).scanned connection hello.encodeMessage) := .scan idle
  have unestablished : fresh.sessions = ∅ := rfl
  obtain ⟨response, passed⟩ := scan_hello (duplicateBoot_of_empty unestablished connection)
  rw [Handshakes.scanned_eq decode_hello passed] at step
  exact step

theorem not_pending (connection : ConnectionState) :
    (∅ : Std.ExtTreeMap SessionId HelloRequest compare)[connection.id]? = none :=
  Std.ExtTreeMap.getElem?_empty

/-- Both connections have scanned, and then filed their sessions. -/
def filedTwice : Handshakes :=
  ((scannedOnce.awaiting otherConnection hello).filed connection hello).filed otherConnection hello

end Sample

end Haf.Net
