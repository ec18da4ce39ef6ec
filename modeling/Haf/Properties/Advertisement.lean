/-
# Advertisements, device by device

An advertisement lists devices, and each of them takes up to three calls: it is observed,
admitted and made active. The handler stops at the first call that fails and answers with
an error; what the calls before it did stays. So an advertisement is all or nothing only
if its first device is refused by the checks, or if every call of every device goes
through. A claim that names the generation of the federation shows the difference with a
single device: its observation moves the generation, and the admission that follows is
refused as stale.
-/

import Haf.Properties.Authority
import Haf.Properties.Ownership

namespace Haf

open Sequence

/-! ### Sequences of calls -/

namespace Federation

/-- A call goes through: its checks pass, and what it leaves is written where it has to be. -/
structure GoesThrough (f : Federation) (c : Command) (env : Environment) : Prop where
  passes : Passes f c
  written : (f.execute c env).fault = none

/-- Each command of a sequence goes through in the state that the ones before it left. -/
def Proceeds (envs : Nat → Environment) : Federation → Nat → List Command → Prop
  | _, _, [] => True
  | f, n, c :: rest =>
      GoesThrough f c (envs n) ∧ Proceeds envs (f.execute c (envs n)).state (n + 1) rest

/-- The state that a sequence of commands leaves. -/
def proceed (envs : Nat → Environment) : Federation → Nat → List Command → Federation
  | f, _, [] => f
  | f, n, c :: rest => proceed envs (f.execute c (envs n)).state (n + 1) rest

section Calls

variable {f : Federation} {env : Environment}

theorem generation_le_execute (f : Federation) (c : Command) (env : Environment) :
    f.generation.value ≤ (f.execute c env).state.generation.value := by
  rcases (f.execute_conduct c env).state_cases with same | ⟨same, bump⟩ | ⟨g, change, same⟩
  · rw [same]
    exact UInt64.le_refl _
  · rw [same]
    exact f.generation.value_le_next
  · rcases same with same | same <;> rw [same] <;> exact change.generation_le

/-- Only a shutdown revokes authority. -/
theorem isShutdown_execute {c : Command} {env : Environment}
    (other : c ≠ .shutdown) : (f.execute c env).state.isShutdown = f.isShutdown := by
  apply @Conduct.keeps f env c _ (fun g => g.isShutdown = f.isShutdown) (f.execute_conduct c env)
    (fun _ _ kept => kept) (fun _ kept => kept) _ rfl
  intro g change
  cases change with
  | shutdown running => exact absurd rfl other
  | enrolled | observedAgain | moved | updated | policy | workload | evaluated | planned
  | advanced | aborted | swept | persisted => rfl

/-- A settled change returns its value unless the write fails. -/
theorem publish_ok_iff {α : Type} {value : α} {g : Federation} :
    (∃ a, (publish value g env).result = .ok a) ↔ (publish value g env).fault = none := by
  rw [publish]
  rcases g.persistLocked env false with ⟨⟨status⟩ | ⟨⟩, h⟩
  · simp
  · simp

theorem generation_le_proceed (envs : Nat → Environment) (f : Federation) (n : Nat)
    (commands : List Command) :
    f.generation.value ≤ (f.proceed envs n commands).generation.value := by
  induction commands generalizing f n with
  | nil => exact UInt64.le_refl _
  | cons c rest ih => exact UInt64.le_trans (generation_le_execute f c (envs n)) (ih ..)

variable {d : AcceleratorDescriptor}

/-- A device is observed exactly if the call goes through. -/
theorem observe_ok_iff {claim : AuthorityClaim} :
    (∃ record, (f.observe d claim env).result = .ok record) ↔
      GoesThrough f (.observe d claim) env := by
  constructor
  · rintro ⟨record, accepted⟩
    have passes := accepted
    rw [observe] at passes
    obtain ⟨s, settled⟩ := settled_of_conclude passes
    refine ⟨(settleObserve_ok_iff env).mp ⟨s, settled⟩, ?_⟩
    obtain ⟨entry, g, rfl, _⟩ := settleObserve_entry settled
    rw [observe, settled] at accepted
    show (f.observe d claim env).fault = none
    rw [observe, settled]
    exact publish_ok_iff.mp ⟨record, accepted⟩
  · rintro ⟨passes, written⟩
    obtain ⟨s, settled⟩ := (settleObserve_ok_iff env).mpr passes
    obtain ⟨entry, g, rfl, _⟩ := settleObserve_entry settled
    have unfaulted : (f.observe d claim env).fault = none := written
    rw [observe, settled] at unfaulted ⊢
    exact publish_ok_iff.mpr unfaulted

/-- A member is moved exactly if the call goes through. -/
theorem transition_ok_iff {a : AcceleratorId} {target : MemberState} {claim : AuthorityClaim} :
    (∃ record, (f.transition a target claim env).result = .ok record) ↔
      GoesThrough f (.transition a target claim) env := by
  constructor
  · rintro ⟨record, accepted⟩
    rw [transition] at accepted
    obtain ⟨s, settled⟩ := settled_of_conclude accepted
    have passes := passes_of_settleTransition settled
    refine ⟨passes, ?_⟩
    show (f.transition a target claim env).fault = none
    obtain ⟨entry, found, _⟩ := passes
    rw [transition]
    obtain ⟨_, g, ⟨rfl, _⟩ | rfl, _⟩ := settleTransition_entry found settled
    · rw [settled]
      rfl
    · rw [settled] at accepted ⊢
      exact publish_ok_iff.mp ⟨record, accepted⟩
  · rintro ⟨⟨entry, found, authority, open_⟩, written⟩
    have unfaulted : (f.transition a target claim env).fault = none := written
    have current := (validateMemberAuthority_eq_ok.mp authority).1
    rw [transition] at unfaulted ⊢
    have settled : ∃ s, f.settleTransition a target claim env = .ok s := by
      simp only [settleTransition, bind_eq_ok, memberEntry_eq_ok]
      by_cases same : entry.record.state = target
      · exact ⟨_, (), current, entry, found, (), authority, if_pos same⟩
      · have legal := open_.resolve_left same
        let entry' := entry.moved f target (env.wall .member)
        refine ⟨.changed entry'.record (f.withMember entry'), (), current, entry, found, (),
          authority, ?_⟩
        rw [if_neg same, legal]
        rfl
    obtain ⟨s, settled⟩ := settled
    obtain ⟨entry', g, ⟨rfl, _⟩ | rfl, _⟩ := settleTransition_entry found settled
    · rw [settled]
      exact ⟨_, rfl⟩
    · rw [settled] at unfaulted ⊢
      exact publish_ok_iff.mpr unfaulted

/-- A device that the checks refuse leaves the federation as it was. -/
theorem state_observe_of_not_passes {claim : AuthorityClaim}
    (fails : ¬ Passes f (.observe d claim)) : (f.execute (.observe d claim) env).state = f := by
  show (f.observe d claim env).state = f
  rw [observe]
  cases settled : f.settleObserve d claim env with
  | error status => rfl
  | ok s => exact absurd ((settleObserve_ok_iff env).mp ⟨s, settled⟩) fails

/-- A device that passes the checks moves the generation, whether it is written or not. -/
theorem generation_observe_of_passes {claim : AuthorityClaim}
    (passes : Passes f (.observe d claim)) :
    (f.execute (.observe d claim) env).state.generation = f.generation.next := by
  show (f.observe d claim env).state.generation = f.generation.next
  obtain ⟨s, settled⟩ := (settleObserve_ok_iff env).mpr passes
  obtain ⟨value, g, rfl, change⟩ := settleObserve_eq_ok settled
  rw [observe, settled, conclude, publish, ← change.generation_of_claim rfl]
  rcases written : g.persistLocked env false with ⟨⟨status⟩ | ⟨⟩, h⟩ <;>
    · rcases persistLocked_cases written with same | ⟨_, same⟩ <;> rw [same]
      rfl

end Calls

end Federation

namespace Net

open Federation Procedure

/-! ### The calls of one device -/

/-- The move that follows admission, unless the policy asks for evidence that is not there. -/
def activation (policy : FederationPolicy) (provenance : EvidenceProvenance) : List MemberState :=
  if policy.requireRealEvidenceForActive && provenance ≠ .real then [] else [.active]

/-- The moves that follow the observation of a device, by the state it is found in. -/
def advertisedMoves (policy : FederationPolicy) (provenance : EvidenceProvenance) :
    MemberState → List MemberState
  | .observed => .admitted :: activation policy provenance
  | .admitted => activation policy provenance
  | .degraded => [.active]
  | _ => []

/-- The commands that move an observed device on. -/
def promotions (policy : FederationPolicy) (claim : AuthorityClaim) (d : AcceleratorDescriptor)
    (provenance : EvidenceProvenance) (state : MemberState) : List Command :=
  (advertisedMoves policy provenance state).map (.transition d.id · (advertisedClaim claim))

/-- The commands of a device whose turn it is. -/
def advertisedCommands (policy : FederationPolicy) (claim : AuthorityClaim) (f : Federation)
    (d : AcceleratorDescriptor) : List Command :=
  .observe d (advertisedClaim claim) :: promotions policy claim d d.provenance (f.advertisedState d)

/-- Some commands of a sequence are still due, and the others have gone through; the generation
has got to a bound. -/
structure Due (envs : Nat → Environment) (f : Federation) (n : Nat) (all : List Command)
    (bound : UInt64) (rest : List Command) (w : Work) : Prop where
  proceeds : Proceeds envs f n all ↔ Proceeds envs w.plane.federation w.calls.length rest
  ends : f.proceed envs n all = w.plane.federation.proceed envs w.calls.length rest
  length : n + all.length = w.calls.length + rest.length
  reached : bound ≤ w.plane.federation.generation.value

/-- A command of a sequence has failed, after the generation has got to a bound. -/
structure Halted (envs : Nat → Environment) (f : Federation) (n : Nat) (all : List Command)
    (bound : UInt64) (w : Work) : Prop where
  stops : ¬ Proceeds envs f n all
  reached : bound ≤ w.plane.federation.generation.value

section Device

variable {envs : Nat → Environment} {f : Federation} {n : Nat} {all rest : List Command}
  {bound : UInt64} {d : AcceleratorDescriptor} {policy : FederationPolicy}
  {claim : AuthorityClaim}

variable {w : Work} {record : MemberRecord}

/-- One more call goes through, or the sequence has failed. -/
theorem Due.called {α : Type} {op : Operation α}
    (through : (∃ a, (op.run w.plane.federation (w.env envs)).result = .ok a) ↔
      GoesThrough w.plane.federation op.command (w.env envs))
    (due : Due envs f n all bound (op.command :: rest) w) :
    (∀ a, (op.run w.plane.federation (w.env envs)).result = .ok a →
      Due envs f n all bound rest (w.called envs op)) ∧
    ∀ status, (op.run w.plane.federation (w.env envs)).result = .error status →
      Halted envs f n all bound (w.called envs op) := by
  have executed : (w.called envs op).plane.federation =
      (w.plane.federation.execute op.command (w.env envs)).state := by
    rw [op.executed]
    rfl
  have counted : (w.called envs op).calls.length = w.calls.length + 1 := by
    simp [Work.called]
  have further : bound ≤ (w.called envs op).plane.federation.generation.value := by
    rw [executed]
    exact UInt64.le_trans due.reached (generation_le_execute ..)
  constructor
  · intro a succeeded
    refine ⟨?_, ?_, ?_, further⟩
    · rw [due.proceeds, executed, counted]
      exact and_iff_right (through.mp ⟨a, succeeded⟩)
    · rw [due.ends, executed, counted]
      rfl
    · rw [due.length, counted, List.length_cons]
      omega
  · intro status failed
    refine ⟨fun proceeds => ?_, further⟩
    obtain ⟨a, succeeded⟩ := through.mpr (due.proceeds.mp proceeds).1
    rw [failed] at succeeded
    cases succeeded

/-- The member a device has got to, as the last call returned it. -/
def Holds (d : AcceleratorDescriptor) (record : MemberRecord) (w : Work) : Prop :=
  ∃ entry, w.plane.federation.members.get? d.id = some entry ∧ entry.record = record

theorem meets_move {target : MemberState} {detail : Bytes}
    {op : Operation MemberRecord} (moves : op = .transition d.id target (advertisedClaim claim)) :
    Meets (fun w => Due envs f n all bound
        (.transition d.id target (advertisedClaim claim) :: rest) w ∧ Holds d record w)
      (perform envs op detail)
      (fun moved w => Due envs f n all bound rest w ∧ Holds d moved w ∧ moved.state = target ∧
        moved.provenance = record.provenance)
      (Halted envs f n all bound) := by
  subst moves
  apply meets_perform
  · rintro w moved ⟨due, entry, found, rfl⟩ succeeded
    obtain ⟨entry', found', rfl, state, _, provenance⟩ := entry_of_transition found succeeded
    exact ⟨(due.called transition_ok_iff).1 _ succeeded, ⟨entry', found', rfl⟩, state, provenance⟩
  · rintro w status ⟨due, _⟩ failed
    exact (due.called transition_ok_iff).2 status failed

theorem admitObserved_due :
    Meets (fun w => Due envs f n all bound
        (promotions policy claim d record.provenance record.state) w ∧ Holds d record w)
      (admitObserved envs (advertisedClaim claim) d record)
      (fun moved w => Due envs f n all bound
        (promotions policy claim d moved.provenance moved.state) w ∧ Holds d moved w ∧
        moved.state ≠ .observed)
      (Halted envs f n all bound) := by
  unfold admitObserved
  split
  · rename_i observed
    rw [observed]
    apply (meets_move rfl).consequence (fun _ holds => holds)
    rintro moved w ⟨due, holds, admitted, provenance⟩
    rw [admitted, provenance]
    exact ⟨due, holds, nofun⟩
  · rename_i observed
    exact Meets.pure fun w holds => ⟨holds.1, holds.2, observed⟩

theorem activateAdmitted_due {detail : Bytes}
    (further : record.state ≠ .observed) :
    Meets (fun w => Due envs f n all bound
        (promotions policy claim d record.provenance record.state) w ∧ Holds d record w)
      (activateAdmitted envs policy (advertisedClaim claim) d detail record)
      (fun moved w => Due envs f n all bound
        (if moved.1.state = .degraded then [.transition d.id .active (advertisedClaim claim)]
          else []) w ∧ Holds d moved.1 w)
      (Halted envs f n all bound) := by
  unfold activateAdmitted
  split
  · rename_i admitted
    split
    · rename_i gated
      refine Meets.pure ?_
      rintro w ⟨due, holds⟩
      simp only [admitted, promotions, advertisedMoves, activation, if_pos gated,
        List.map_nil] at due
      simp only [admitted, reduceCtorEq, if_false]
      exact ⟨due, holds⟩
    · rename_i ungated
      have moves : promotions policy claim d record.provenance record.state =
          [.transition d.id .active (advertisedClaim claim)] := by
        simp only [admitted, promotions, advertisedMoves, activation, if_neg ungated,
          List.map_cons, List.map_nil]
      rw [moves]
      refine Meets.bind (meets_move rfl) fun moved => Meets.pure ?_
      rintro w ⟨due, holds, active, _⟩
      simp only [active, reduceCtorEq, if_false]
      exact ⟨due, holds⟩
  · rename_i unadmitted
    refine Meets.pure ?_
    rintro w ⟨due, holds⟩
    refine ⟨?_, holds⟩
    cases state : record.state <;> simp_all [promotions, advertisedMoves]

theorem activateDegraded_due :
    Meets (fun w => Due envs f n all bound
        (if record.state = .degraded then [.transition d.id .active (advertisedClaim claim)]
          else []) w ∧ Holds d record w)
      (activateDegraded envs (advertisedClaim claim) d record)
      (fun _ => Due envs f n all bound [])
      (Halted envs f n all bound) := by
  unfold activateDegraded
  split
  · exact (meets_move rfl).consequence (fun _ holds => holds) fun _ _ moved => moved.1
  · exact Meets.pure fun _ holds => holds.1

/-- The work has got to a state of the federation after a number of calls. -/
structure At (f : Federation) (n : Nat) (w : Work) : Prop where
  federation : w.plane.federation = f
  length : w.calls.length = n

theorem At.due (here : At f n w) (all : List Command) :
    Due envs f n all f.generation.value all w := by
  obtain ⟨rfl, rfl⟩ := here
  exact ⟨Iff.rfl, rfl, rfl, UInt64.le_refl _⟩

/-- What is left when a sequence that begins with an observation stops: the generation has moved
if the checks were passed, and everything is as it was otherwise. -/
structure Stopped (f : Federation) (c : Command) (w : Work) : Prop where
  moved : Passes f c → f.generation.next.value ≤ w.plane.federation.generation.value
  unmoved : ¬ Passes f c → w.plane.federation = f

theorem Stopped.generation_le {c : Command} (stopped : Stopped f c w) :
    f.generation.value ≤ w.plane.federation.generation.value := by
  by_cases passes : Passes f c
  · exact UInt64.le_trans f.generation.value_le_next (stopped.moved passes)
  · rw [stopped.unmoved passes]
    exact UInt64.le_refl _

/-- A device that the checks refuse. -/
theorem observe_refused (fails : ¬ Passes f (.observe d (advertisedClaim claim))) :
    Meets (At f n) (perform envs (.observe d (advertisedClaim claim)) d.id.toText)
      (fun _ _ => False) (fun w => w.plane.federation = f) := by
  apply meets_perform
  · rintro w record ⟨rfl, _⟩ succeeded
    exact absurd (observe_ok_iff.mp ⟨record, succeeded⟩).passes fails
  · rintro w status ⟨rfl, _⟩ _
    exact state_observe_of_not_passes fails

/-- A device that passes the checks. -/
theorem observe_due (passes : Passes f (.observe d (advertisedClaim claim))) :
    Meets (At f n) (perform envs (.observe d (advertisedClaim claim)) d.id.toText)
      (fun observed w => Due envs f n (advertisedCommands policy claim f d)
        f.generation.next.value
        (promotions policy claim d observed.provenance observed.state) w ∧ Holds d observed w)
      (Halted envs f n (advertisedCommands policy claim f d) f.generation.next.value) := by
  have reached : ∀ env, f.generation.next.value ≤
      (f.execute (.observe d (advertisedClaim claim)) env).state.generation.value := by
    intro env
    rw [generation_observe_of_passes passes]
    exact UInt64.le_refl _
  have initially : ∀ w, At f n w → Due envs f n (advertisedCommands policy claim f d)
      f.generation.value ((Operation.observe d (advertisedClaim claim)).command ::
        promotions policy claim d d.provenance (f.advertisedState d)) w :=
    fun w here => here.due _
  apply meets_perform
  · intro w observed here succeeded
    obtain ⟨entry, found, rfl, state, _, provenance, _⟩ := entry_of_observe succeeded
    have due := ((initially w here).called observe_ok_iff).1 _ succeeded
    obtain ⟨rfl, _⟩ := here
    rw [state, provenance]
    exact ⟨⟨due.proceeds, due.ends, due.length, reached _⟩, entry, found, rfl⟩
  · intro w status here failed
    have halted := ((initially w here).called observe_ok_iff).2 _ failed
    obtain ⟨rfl, _⟩ := here
    exact ⟨halted.stops, reached _⟩

/-- A device goes through as a whole, or stops the advertisement. -/
theorem advertiseDevice_proceeds {connection : ConnectionState} {response : AdvertiseResponse} :
    Meets (At f n) (advertiseDevice envs connection policy claim response d)
      (fun response' w => Proceeds envs f n (advertisedCommands policy claim f d) ∧
        At (f.proceed envs n (advertisedCommands policy claim f d))
          (n + (advertisedCommands policy claim f d).length) w ∧
        response'.members.length = response.members.length + 1)
      (fun w => ¬ Proceeds envs f n (advertisedCommands policy claim f d) ∧
        Stopped f (.observe d (advertisedClaim claim)) w) := by
  by_cases passes : Passes f (.observe d (advertisedClaim claim))
  · have stopped : ∀ w, Halted envs f n (advertisedCommands policy claim f d)
        f.generation.next.value w → ¬ Proceeds envs f n (advertisedCommands policy claim f d) ∧
          Stopped f (.observe d (advertisedClaim claim)) w :=
      fun w halted => ⟨halted.stops, fun _ => halted.reached, fun fails => absurd passes fails⟩
    refine Meets.leaving ?_ stopped
    refine Meets.bind (observe_due passes) fun observed => ?_
    refine Meets.bind admitObserved_due fun admitted => ?_
    refine Meets.bind (Q := fun moved w => Due envs f n (advertisedCommands policy claim f d)
        f.generation.next.value
        (if moved.1.state = .degraded then [.transition d.id .active (advertisedClaim claim)]
          else []) w ∧ Holds d moved.1 w) ?_ fun activated => ?_
    · rintro w ⟨due, holds, further⟩
      exact activateAdmitted_due further w ⟨due, holds⟩
    refine Meets.bind activateDegraded_due fun last => ?_
    refine Meets.bind (Q := fun _ => Due envs f n (advertisedCommands policy claim f d)
      f.generation.next.value []) (meets_update fun w due =>
        ⟨due.proceeds, due.ends, due.length, due.reached⟩) fun _ => Meets.pure ?_
    intro w due
    refine ⟨due.proceeds.mpr trivial, ⟨due.ends.symm, due.length.symm⟩, ?_⟩
    simp
  · refine Meets.bind ((observe_refused passes).leaving ?_) fun observed => ?_
    · intro w same
      exact ⟨fun proceeds => passes proceeds.1.passes, fun never => absurd never passes,
        fun _ => same⟩
    · intro w never
      cases never

end Device

/-! ### The calls of an advertisement -/

section Batch

variable (envs : Nat → Environment) (policy : FederationPolicy) (claim : AuthorityClaim)

/-- Every call of every device goes through, in the state that the ones before it left. -/
def BatchProceeds : Federation → Nat → List AcceleratorDescriptor → Prop
  | _, _, [] => True
  | f, n, d :: rest =>
      Proceeds envs f n (advertisedCommands policy claim f d) ∧
        BatchProceeds (f.proceed envs n (advertisedCommands policy claim f d))
          (n + (advertisedCommands policy claim f d).length) rest

/-- The state that the devices of an advertisement leave. -/
def batch : Federation → Nat → List AcceleratorDescriptor → Federation
  | f, _, [] => f
  | f, n, d :: rest =>
      batch (f.proceed envs n (advertisedCommands policy claim f d))
        (n + (advertisedCommands policy claim f d).length) rest

end Batch

section Handler

variable {envs : Nat → Environment} {policy : FederationPolicy} {claim : AuthorityClaim}

/-- An advertisement goes through as a whole, or stops after its first device has left its
mark. -/
theorem advertiseDevices_proceeds {connection : ConnectionState}
    (devices : List AcceleratorDescriptor) {f : Federation} {n : Nat}
    {response : AdvertiseResponse} :
    Meets (At f n) (advertiseDevices envs connection policy claim response devices)
      (fun response' w => BatchProceeds envs policy claim f n devices ∧
        w.plane.federation = batch envs policy claim f n devices ∧
        response'.members.length = response.members.length + devices.length)
      (fun w => ¬ BatchProceeds envs policy claim f n devices ∧ ∃ first rest,
        devices = first :: rest ∧ Stopped f (.observe first (advertisedClaim claim)) w) := by
  induction devices generalizing f n response with
  | nil => exact Meets.pure fun w here => ⟨trivial, here.federation, rfl⟩
  | cons d rest ih =>
      refine Meets.bind (advertiseDevice_proceeds.leaving ?_) fun response' => ?_
      · rintro w ⟨stops, stopped⟩
        exact ⟨fun proceeds => stops proceeds.1, d, rest, rfl, stopped⟩
      · rintro w ⟨proceeds, here, counted⟩
        refine Meets.leaving (ih.consequence (fun _ holds => holds) ?_) ?_ w here
        · rintro last w ⟨others, same, total⟩
          refine ⟨⟨proceeds, others⟩, same, ?_⟩
          rw [total, counted, List.length_cons]
          omega
        · rintro w ⟨stops, second, rest', _, stopped⟩
          refine ⟨fun both => stops both.2, d, rest, rfl, fun passes => ?_,
            fun fails => absurd proceeds.1.passes fails⟩
          calc f.generation.next.value
              = (f.execute (.observe d (advertisedClaim claim)) (envs n)).state.generation.value := by
                rw [generation_observe_of_passes passes]
            _ ≤ (f.proceed envs n (advertisedCommands policy claim f d)).generation.value :=
                generation_le_proceed ..
            _ ≤ w.plane.federation.generation.value := stopped.generation_le

/-- The answer to a request that failed. -/
def Failed : Result ResponseMessage → Prop
  | .error _ => True
  | .ok response => response.error = true

instance : DecidablePred Failed
  | .error _ => .isTrue trivial
  | .ok _ => inferInstanceAs (Decidable (_ = true))

variable {plane : ControlPlane} {r : Request} {session : SessionData}
  {request : AdvertiseRequest}

theorem check_leavesWith {α : Type} {detail : Bytes} {view : ControlPlane → Result α} :
    LeavesWith (Handler.check detail view) Failed := by
  apply LeavesWith.look
  intro w answer left
  cases seen : view w.plane with
  | ok a =>
      rw [seen] at left
      cases left
  | error status =>
      rw [seen] at left
      cases left
      rfl

theorem plane_leavesWith : LeavesWith Handler.plane Failed := by
  intro w answer t ran
  cases ran

theorem perform_leavesWith {α : Type} {op : Operation α} {detail : Bytes} :
    LeavesWith (perform envs op detail) Failed := by
  intro w answer t ran
  have left := (Prod.mk.inj ran).1
  cases result : (op.run w.plane.federation (w.env envs)).result with
  | ok a =>
      rw [result] at left
      cases left
  | error status =>
      rw [result] at left
      cases left
      rfl

theorem advertiseDevice_leavesWith {connection : ConnectionState} {response : AdvertiseResponse}
    {d : AcceleratorDescriptor} :
    LeavesWith (advertiseDevice envs connection policy claim response d) Failed := by
  refine .bind perform_leavesWith fun observed => .bind ?_ fun admitted => .bind ?_ fun active =>
    .bind ?_ fun last => .bind (.change _) fun _ => .pure _
  · unfold admitObserved
    split
    · exact perform_leavesWith
    · exact .pure _
  · unfold activateAdmitted
    split
    · split
      · exact .pure _
      · exact .bind perform_leavesWith fun _ => .pure _
    · exact .pure _
  · unfold activateDegraded
    split
    · exact perform_leavesWith
    · exact .pure _

theorem advertiseDevices_leavesWith {connection : ConnectionState}
    (devices : List AcceleratorDescriptor) {response : AdvertiseResponse} :
    LeavesWith (advertiseDevices envs connection policy claim response devices) Failed := by
  induction devices generalizing response with
  | nil => exact .pure _
  | cons d rest ih => exact .bind advertiseDevice_leavesWith fun _ => ih

/-- A handler of advertisements that leaves early answers with an error. -/
theorem handleAdvertise_leavesWith {connection : ConnectionState} {payload : Bytes} :
    LeavesWith (handleAdvertise envs connection payload) Failed := by
  refine .bind check_leavesWith fun session => .bind check_leavesWith fun _ =>
    .bind check_leavesWith fun request => .bind ?_ fun _ => .bind plane_leavesWith fun plane =>
      .bind (advertiseDevices_leavesWith request.devices) fun _ => .pure _
  refine .bind check_leavesWith fun _ => .bind check_leavesWith fun _ => ?_
  split
  · exact .pure _
  · exact .leave rfl

/-- What holds of every device that is read holds of the ones that are advertised, and these are
not more than a message may list. -/
theorem ensures_readAdvertiseRequest {R : Registry} {P : AcceleratorDescriptor → Prop}
    (each : Wire.Ensures (AcceleratorDescriptor.deserializeAt false R) P) :
    Wire.Ensures (readAdvertiseRequest R) fun request =>
      request.devices.length ≤ Limits.maxAdvertisementsPerMessage ∧ ∀ d ∈ request.devices, P d := by
  apply Wire.Ensures.then_
  intro claim
  apply Wire.Ensures.step (ByteReader.ensures_list _ _ each)
  intro devices listed
  apply Wire.Ensures.then_
  intro _
  apply Wire.Ensures.then_
  intro _
  exact Wire.Ensures.pure listed

theorem length_devices_le {R : Registry} {payload : Bytes}
    (decoded : decodeAdvertiseRequest R payload = .ok request) :
    request.devices.length ≤ Limits.maxAdvertisementsPerMessage :=
  (of_decode (ensures_readAdvertiseRequest ⟨fun _ => trivial⟩) decoded).1

theorem run_admitAdvertisement {w : Work} (accepted : Advertised plane r session request) :
    (admitAdvertisement r.connection session request).run w = (.ok (), w) := by
  have present : ensure (!request.devices.isEmpty) (.failure .malformedAdvertisement
      "an advertisement must contain at least one accelerator") = .ok () := by
    rw [ensure_eq_ok]
    simpa using accepted.present
  have named : ensure (request.claim.agent = session.agent &&
      request.claim.agentBoot = session.agentBoot) (.failure .staleBoot
        "advertisement claim does not match the identity established during the handshake") =
      .ok () := by
    rw [ensure_eq_ok]
    simpa using accepted.named
  have owned : (request.devices.find? fun d =>
      d.agent ≠ session.agent || d.agentBoot ≠ session.agentBoot) = none := by
    rw [List.find?_eq_none]
    intro d listed
    simpa using accepted.owned d listed
  rw [admitAdvertisement, run_check_ok present, run_check_ok named, owned]
  rfl

/-- An advertisement that passes the first checks is dealt with device by device. -/
theorem run_handleAdvertise (accepted : Advertised plane r session request) :
    (handleAdvertise r.envs r.connection r.payload).run ⟨plane, []⟩ =
      (do
        let response ← advertiseDevices r.envs r.connection plane.federation.policy
          request.claim {} request.devices
        let response := { response with
          detail := response.detail ++ text "advertisement accepted for " ++
            decimal request.devices.length ++ text " accelerator(s)" }
        pure (response.encodeMessage >>= makeResponse .advertiseAck) :
        Handler (Result ResponseMessage)).run ⟨plane, []⟩ := by
  have standing := accepted.standing
  rw [handleAdvertise,
    run_check_ok (requireAgentSession_eq_ok.mpr ⟨standing.established, standing.agent⟩),
    run_check_ok (validateSessionAuthority_eq_ok.mpr standing.current),
    run_check_ok accepted.decoded, run_bind_ok (run_admitAdvertisement accepted)]
  rfl

/-- An advertisement that passes the first checks succeeds exactly if every call of it goes
through. -/
theorem handleAdvertise_proceeds (accepted : Advertised plane r session request) :
    Meets (· = ⟨plane, []⟩) (handleAdvertise r.envs r.connection r.payload)
      (fun answer w => BatchProceeds r.envs plane.federation.policy request.claim
          plane.federation 0 request.devices ∧
        w.plane.federation = batch r.envs plane.federation.policy request.claim
          plane.federation 0 request.devices ∧ ¬ Failed answer)
      (fun w => ¬ BatchProceeds r.envs plane.federation.policy request.claim
          plane.federation 0 request.devices ∧ ∃ first rest, request.devices = first :: rest ∧
        Stopped plane.federation (.observe first (advertisedClaim request.claim)) w) := by
  rintro w rfl
  rw [run_handleAdvertise accepted]
  refine Meets.bind (advertiseDevices_proceeds request.devices) (fun response => Meets.pure ?_)
    ⟨plane, []⟩ ⟨rfl, rfl⟩
  rintro w ⟨proceeds, same, counted⟩
  refine ⟨proceeds, same, ?_⟩
  have fits : ¬ Limits.maxMembersPerResponse < response.members.length := by
    rw [counted, List.length_nil, Nat.zero_add, not_lt]
    exact (length_devices_le accepted.decoded).trans (by decide)
  simp only [AdvertiseResponse.encodeMessage, if_neg fits]
  exact Bool.false_ne_true

/-- An advertisement that does not pass the first checks changes nothing. -/
theorem handleAdvertise_refused
    (refused : ¬ ∃ session request, Advertised plane r session request) :
    Meets (· = ⟨plane, []⟩) (handleAdvertise r.envs r.connection r.payload)
      (fun _ _ => False) (· = ⟨plane, []⟩) :=
  meets_advertised rfl fun session request accepted => absurd ⟨session, request, accepted⟩ refused

end Handler

/-! ### All or nothing -/

/-- The request to advertise what a payload lists. -/
def advertisement (connection : ConnectionState) (payload : Bytes) (envs : Nat → Environment) :
    Request := { connection, type := .advertise, payload, envs }

/-- A request that is answered with an error has changed no member, no descriptor and no
generation. -/
def AllOrNothing (texts : Rendering) (plane : ControlPlane) (r : Request) : Prop :=
  Failed (plane.answer texts r) →
    (plane.work texts r).plane.federation.members = plane.federation.members ∧
      (plane.work texts r).plane.federation.generation = plane.federation.generation

/-- If the first device of an accepted advertisement passes its checks, then every call of the
advertisement goes through. -/
def Undivided (plane : ControlPlane) (r : Request) : Prop :=
  ∀ session request first rest, Advertised plane r session request →
    request.devices = first :: rest →
    Passes plane.federation (.observe first (advertisedClaim request.claim)) →
    BatchProceeds r.envs plane.federation.policy request.claim plane.federation 0 request.devices

section Atomicity

variable {texts : Rendering} {plane : ControlPlane} {connection : ConnectionState}
  {payload : Bytes} {envs : Nat → Environment}

/-- How a request to advertise can end. -/
theorem work_advertisement (texts : Rendering) (plane : ControlPlane)
    (connection : ConnectionState) (payload : Bytes) (envs : Nat → Environment) :
    let r := advertisement connection payload envs
    let w := plane.work texts r
    (w.plane.federation = plane.federation ∧
      ¬ ∃ session request, Advertised plane r session request) ∨
    ∃ session request, Advertised plane r session request ∧
      (BatchProceeds envs plane.federation.policy request.claim plane.federation 0
          request.devices ∧
        w.plane.federation = batch envs plane.federation.policy request.claim plane.federation 0
          request.devices ∧ ¬ Failed (plane.answer texts r) ∨
      ¬ BatchProceeds envs plane.federation.policy request.claim plane.federation 0
          request.devices ∧ Failed (plane.answer texts r) ∧
        ∃ first rest, request.devices = first :: rest ∧
          Stopped plane.federation (.observe first (advertisedClaim request.claim)) w) := by
  intro r w
  have worked : w = ((handleAdvertise envs connection payload).run ⟨plane, []⟩).2 := rfl
  have answered : plane.answer texts r =
    (handleAdvertise envs connection payload).answer ⟨plane, []⟩ := rfl
  by_cases refused : ∃ session request, Advertised plane r session request
  · obtain ⟨session, request, accepted⟩ := refused
    refine .inr ⟨session, request, accepted, ?_⟩
    rw [worked, answered, Procedure.answer]
    rcases (handleAdvertise_proceeds accepted).ends rfl with
      ⟨answer, t, ran, ended⟩ | ⟨answer, t, ran, ended⟩
    · have ran : (handleAdvertise envs connection payload).run ⟨plane, []⟩ = _ := ran
      rw [ran]
      exact .inl ended
    · have ran : (handleAdvertise envs connection payload).run ⟨plane, []⟩ = _ := ran
      rw [ran]
      exact .inr ⟨ended.1, handleAdvertise_leavesWith _ _ _ ran, ended.2⟩
  · refine .inl ⟨?_, refused⟩
    rw [worked]
    rcases (handleAdvertise_refused refused).ends rfl with ⟨_, _, _, never⟩ | ⟨answer, t, ran, same⟩
    · cases never
    · have ran : (handleAdvertise envs connection payload).run ⟨plane, []⟩ = _ := ran
      rw [ran, same]

theorem Undivided.allOrNothing (texts : Rendering)
    (undivided : Undivided plane (advertisement connection payload envs)) :
    AllOrNothing texts plane (advertisement connection payload envs) := by
  intro failed
  rcases work_advertisement texts plane connection payload envs with ⟨same, _⟩ |
    ⟨session, request, accepted, ⟨_, _, succeeded⟩ | ⟨stops, _, first, rest, listed, stopped⟩⟩
  · rw [same]
    exact ⟨rfl, rfl⟩
  · exact absurd failed succeeded
  · have refused : ¬ Passes plane.federation (.observe first (advertisedClaim request.claim)) :=
      fun passes => stops (undivided session request first rest accepted listed passes)
    rw [stopped.unmoved refused]
    exact ⟨rfl, rfl⟩

/-- An advertisement that stops after its first device has passed has moved the generation. -/
theorem not_allOrNothing (texts : Rendering) {session : SessionData} {request : AdvertiseRequest}
    {first : AcceleratorDescriptor} {rest : List AcceleratorDescriptor}
    (below : plane.federation.generation.value ≠ Generation.maxValue)
    (accepted : Advertised plane (advertisement connection payload envs) session request)
    (listed : request.devices = first :: rest)
    (passes : Passes plane.federation (.observe first (advertisedClaim request.claim)))
    (stops : ¬ BatchProceeds envs plane.federation.policy request.claim plane.federation 0
      request.devices) :
    ¬ AllOrNothing texts plane (advertisement connection payload envs) := by
  intro atomic
  rcases work_advertisement texts plane connection payload envs with ⟨_, refused⟩ |
    ⟨session', request', accepted', ended⟩
  · exact refused ⟨session, request, accepted⟩
  · cases accepted.decoded.symm.trans accepted'.decoded
    rcases ended with ⟨proceeds, _⟩ | ⟨_, failed, first', rest', listed', stopped⟩
    · exact stops proceeds
    · cases listed.symm.trans listed'
      have moved := stopped.moved passes
      rw [(atomic failed).2] at moved
      exact absurd (UInt64.le_antisymm moved plane.federation.generation.value_le_next)
        fun same => Generation.next_ne_self below (Generation.ext same)

/-- **Advertisements are all or nothing** whenever the first device is refused or every call
goes through; and only then, as long as the generation can move. -/
theorem allOrNothing_iff (texts : Rendering) (plane : ControlPlane)
    (connection : ConnectionState) (payload : Bytes) (envs : Nat → Environment) :
    let r := advertisement connection payload envs
    (Undivided plane r → AllOrNothing texts plane r) ∧
      (plane.federation.generation.value ≠ Generation.maxValue →
        AllOrNothing texts plane r → Undivided plane r) := by
  intro r
  refine ⟨fun undivided => undivided.allOrNothing texts, fun below atomic => ?_⟩
  intro session request first rest accepted listed passes
  by_contra stops
  exact not_allOrNothing texts below accepted listed passes stops atomic

end Atomicity

end Net

namespace Sample

/-- The first boot claims its device, at the generation of the federation if asked to. -/
def ownerClaim (dated : Bool) : AuthorityClaim :=
  { claim with
    agent := ident 2
    agentBoot := ident 3
    checkFederationGeneration := dated
    federationGeneration := ⟨1⟩ }

/-- The claim under which the devices of an undated advertisement are moved. -/
def movingClaim : AuthorityClaim := Net.advertisedClaim (ownerClaim false)

end Sample

namespace Net

open Federation

namespace Sample

open Haf.Sample

/-- The message with which the first boot advertises its device. -/
def listing (d : AcceleratorDescriptor) (dated : Bool) : AdvertiseRequest :=
  { claim := ownerClaim dated, devices := [d] }

def listingBytes (d : AcceleratorDescriptor) (dated : Bool) : Bytes :=
  writeAuthorityClaim (ownerClaim dated) ++ ByteWriter.list AcceleratorDescriptor.serialize [d]

/-- The request with which the first boot advertises its device. -/
def listingRequest (d : AcceleratorDescriptor) (dated : Bool) : Request :=
  advertisement connection (listingBytes d dated) envs

/-- The session of the first boot. -/
def owner : SessionData :=
  { role := .agent, agent := ident 2, agentBoot := ident 3, epoch := ⟨1⟩ }

end Sample

open Haf.Sample Sample in
/-- A claim that names the generation lets the device be observed and refuses its admission: the
answer is an error, and the device has joined. -/
theorem advertisement_half_done :
    ¬ AllOrNothing texts (planeOf opened owner) (listingRequest first true) := by
  have moved : ∀ (plane : ControlPlane) r, Failed (plane.answer texts r) ∧
      (plane.work texts r).plane.federation.generation ≠ plane.federation.generation →
      ¬ AllOrNothing texts plane r :=
    fun _ _ ended atomic => ended.2 (atomic ended.1).2
  apply moved
  decide +kernel

end Net

end Haf
