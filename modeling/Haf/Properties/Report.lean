/-
# The recovery report

What a restart reports about the members, decisions and plans of a snapshot, compared with what
it made of them. The report counts every stored plan as aborted, adds the members that it could
not restore to the decisions it dropped, and counts a member twice that is stored twice.
-/

import Haf.Properties.Recoverability

namespace Haf

open Federation Sequence

section Opening

variable {R : Registry} {config : FederationConfig} {disk : Option Bytes} {env : Environment}
  {payload : Bytes} {s : FederationSnapshot} {g : Federation}

/-- What an instance has taken from the snapshot on which it was opened. -/
theorem recovered_of_open (opened : openOn R config disk env = .ok g)
    (present : (constructed R config disk env).store.payload = some payload)
    (decoded : decodeSnapshot R payload = .ok s) :
    g.recovery = s.recoveryReport ∧ g.members = .ofList (s.restoredEntries env) ∧
      g.plans = .ofList (s.plans.map (·.abortIfOpen staleEpochReason)) := by
  obtain ⟨f, written, ⟨empty, _⟩ | ⟨payload', s', present', decoded', _, rfl⟩⟩ :=
    openOn_eq_ok opened
  · cases present.symm.trans empty
  · cases Option.some.inj (present.symm.trans present')
    cases Except.ok.inj (decoded.symm.trans decoded')
    rcases persistLocked_cases written with rfl | ⟨_, rfl⟩
    · exact ⟨rfl, rfl, rfl⟩
    · exact ⟨rfl, rfl, rfl⟩

namespace FederationSnapshot

/-- The stored members that can be restored. -/
def described (s : FederationSnapshot) : List MemberRecord :=
  s.members.filter fun stored => (s.findDescriptor stored.accelerator).isSome

/-- As many members are dropped as have no descriptor. -/
theorem decisionsInvalidated_iff : s.recoveryReport.decisionsInvalidated = s.decisions.length ↔
    ∀ stored ∈ s.members, (s.findDescriptor stored.accelerator).isSome = true := by
  have bound := s.members.length_filter_le fun stored => (s.findDescriptor stored.accelerator).isSome
  have counted : s.recoveryReport.decisionsInvalidated =
      (s.members.length - s.described.length) + s.decisions.length := rfl
  rw [← List.length_filter_eq_length_iff, counted, described]
  omega

/-- Restoring drops the members without a descriptor and leaves the others in their order. -/
theorem map_restoredEntries {α : Type} {view : MemberEntry → α} {view' : MemberRecord → α}
    (same : ∀ stored entry, s.restoredMember env stored = some entry →
      view entry = view' stored) :
    (s.restoredEntries env).map view = s.described.map view' := by
  rw [restoredEntries_eq, described]
  generalize s.members = records
  induction records with
  | nil => rfl
  | cons stored rest ih =>
      have present := s.isSome_restoredMember env stored
      cases made : s.restoredMember env stored with
      | none =>
          rw [made] at present
          rw [List.filterMap_cons_none made, List.filter_cons_of_neg (by simp [← present]), ih]
      | some entry =>
          rw [made] at present
          rw [List.filterMap_cons_some made, List.filter_cons_of_pos (by simp [← present]),
            List.map_cons, List.map_cons, ih, same stored entry made]

theorem accelerators_restoredEntries (s : FederationSnapshot) (env : Environment) :
    (s.restoredEntries env).map (·.record.accelerator) = s.described.map (·.accelerator) :=
  map_restoredEntries fun _ _ => accelerator_of_restoredMember

theorem length_restoredEntries (s : FederationSnapshot) (env : Environment) :
    (s.restoredEntries env).length = s.described.length := by
  simpa using congrArg List.length (s.accelerators_restoredEntries env)

/-- A member is restored as retired exactly if it was stored as such. -/
theorem afterRestart_eq_retired {state : MemberState} :
    state.afterRestart = .retired ↔ state = .retired := by
  cases state <;> decide

theorem states_restoredEntries (s : FederationSnapshot) (env : Environment) :
    (s.restoredEntries env).map (·.record.state) = s.described.map (·.state.afterRestart) := by
  refine map_restoredEntries fun stored entry made => ?_
  obtain ⟨_, _, rfl⟩ := restoredMember_eq_some.mp made
  rfl

/-- If no member is stored twice, those that are restored as retired are counted. -/
theorem retiredMembers_eq (distinct : (s.described.map (·.accelerator)).Nodup) :
    s.recoveryReport.retiredMembers =
      ((Keyed.ofList (s.restoredEntries env) : MemberTable).values.filter
        (·.record.state = .retired)).length := by
  rw [← s.accelerators_restoredEntries env] at distinct
  have listed := (Keyed.perm_values_ofList distinct).filter (·.record.state = .retired)
  have counted : s.recoveryReport.retiredMembers =
      (s.described.filter (·.state = .retired)).length := rfl
  rw [listed.length_eq, counted, ← List.countP_eq_length_filter, ← List.countP_eq_length_filter]
  have states := congrArg (List.countP (· = MemberState.retired)) (s.states_restoredEntries env)
  rw [List.countP_map, List.countP_map] at states
  refine Eq.trans (List.countP_congr ?_) states.symm
  intro stored _
  simp [afterRestart_eq_retired]

/-- Every member that is restored is counted as retired or as requiring revalidation. -/
theorem membersRestored_eq : s.recoveryReport.membersRestored =
    s.recoveryReport.retiredMembers + s.recoveryReport.membersRequiringRevalidation := by
  have parts := List.length_eq_length_filter_add (l := s.described) (·.state = .retired)
  have others : s.described.filter (fun stored => !decide (stored.state = .retired)) =
      s.described.filter (·.state ≠ .retired) := by simp
  rw [others] at parts
  exact parts

/-- As many members are counted as the table holds exactly if no member is stored twice. -/
theorem membersRestored_iff : s.recoveryReport.membersRestored =
    (Keyed.ofList (s.restoredEntries env) : MemberTable).size ↔
      (s.described.map (·.accelerator)).Nodup := by
  rw [← s.accelerators_restoredEntries env, ← Keyed.size_ofList_eq_iff,
    length_restoredEntries]
  exact eq_comm

/-- As many plans are counted as were in flight and are aborted now exactly if all were in
flight. -/
theorem plansAborted_iff : s.recoveryReport.plansAborted = (s.plans.filter fun plan =>
    !plan.state.isTerminal &&
      ((Keyed.ofList (s.plans.map (·.abortIfOpen staleEpochReason)) : PlanTable).get? plan.id).any
        (·.state = .aborted)).length ↔
    ∀ plan ∈ s.plans, plan.state.isTerminal = false := by
  have counted : s.recoveryReport.plansAborted = s.plans.length := rfl
  rw [counted, eq_comm, List.length_filter_eq_length_iff]
  constructor
  · intro all plan listed
    have met := all plan listed
    rw [Bool.and_eq_true, Bool.not_eq_true'] at met
    exact met.1
  · intro open_ plan listed
    rw [Bool.and_eq_true, Bool.not_eq_true']
    refine ⟨open_ plan listed, ?_⟩
    -- the plan stored under the identity is one that was in flight
    rw [Keyed.get?_ofList]
    obtain ⟨first, found, _⟩ := Keyed.exists_find? MigrationPlan.id
      (List.mem_map_of_mem (f := (·.abortIfOpen staleEpochReason)) listed)
    rw [MigrationPlan.id_abortIfOpen] at found
    obtain ⟨stored, among, rfl⟩ := List.mem_map.mp (List.mem_of_find?_eq_some found)
    rw [found, Option.any_some, MigrationPlan.abortIfOpen, open_ stored among]
    rfl

end FederationSnapshot

/-- **The recovery report counts what happened** exactly if every stored plan was in flight,
every stored member has a descriptor and no member is stored twice. -/
theorem report_exact_iff (opened : openOn R config disk env = .ok g)
    (present : (constructed R config disk env).store.payload = some payload)
    (decoded : decodeSnapshot R payload = .ok s) :
    (g.recovery.plansAborted = (s.plans.filter fun plan => !plan.state.isTerminal &&
        (g.plans.get? plan.id).any (·.state = .aborted)).length ∧
      g.recovery.decisionsInvalidated = s.decisions.length ∧
      g.recovery.retiredMembers =
        (g.members.values.filter (·.record.state = .retired)).length ∧
      g.recovery.membersRestored =
        g.recovery.retiredMembers + g.recovery.membersRequiringRevalidation ∧
      g.recovery.membersRestored = g.members.size) ↔
    (∀ plan ∈ s.plans, plan.state.isTerminal = false) ∧
      (∀ stored ∈ s.members, (s.findDescriptor stored.accelerator).isSome = true) ∧
      (s.members.map (·.accelerator)).Nodup := by
  obtain ⟨report, members, plans⟩ := recovered_of_open opened present decoded
  rw [report, members, plans, FederationSnapshot.plansAborted_iff,
    FederationSnapshot.decisionsInvalidated_iff, FederationSnapshot.membersRestored_iff,
    and_iff_right FederationSnapshot.membersRestored_eq]
  apply and_congr_right
  intro _
  apply and_congr_right
  intro all
  have every : s.described = s.members := List.filter_eq_self.mpr all
  rw [← every]
  exact ⟨And.right, fun distinct => ⟨FederationSnapshot.retiredMembers_eq distinct, distinct⟩⟩

end Opening

namespace Sample

/-- A plan that was refused. -/
def refusedPlan : MigrationPlan :=
  MigrationPlan.refreshIdentity { state := .refused, refusalReasons := [stalePolicyReason] }

/-- A federation that knows of nothing but that plan. -/
def holdingRefused : Federation := { opened with plans := Keyed.empty.insert refusedPlan }

def refusedPayload : Bytes := encodeSnapshot (holdingRefused.snapshotLocked env)

theorem fits_holdingRefused : Fits holdingRefused env := by
  constructor <;> decide +kernel

theorem wellFormed_holdingRefused : WellFormed .core holdingRefused := by
  have fresh : WellFormed .core (constructed .core config none env).fresh :=
    wellFormed_fresh keepsForm_config
  refine { fresh with plan := ?_ }
  intro k plan stored
  have stored : (Keyed.empty.insert refusedPlan : PlanTable).get? k = some plan := stored
  rw [Keyed.get?_insert, Keyed.get?_empty] at stored
  split at stored
  · cases stored
    refine MigrationPlan.sound_refreshIdentity (by decide) (by simp) (by decide) ?_ nofun
    simpa using storable_stalePolicyReason
  · cases stored

theorem decoded_refusedPayload :
    decodeSnapshot .core refusedPayload = .ok (holdingRefused.readBack .core env) :=
  wellFormed_holdingRefused.decoded fits_holdingRefused

/-- Opening a file that holds a snapshot of the sample federation, with deferred writes. -/
theorem openOn_of_decoded {payload : Bytes} {s : FederationSnapshot}
    (decoded : decodeSnapshot .core payload = .ok s) (owned : s.federation = config.id) :
    openOn .core deferred (some payload) env =
      .ok ((constructed .core deferred (some payload) env).recovered s env) := by
  have restored : (constructed .core deferred (some payload) env).restore env =
      .ok ((constructed .core deferred (some payload) env).recovered s env) := by
    refine bind_eq_ok.mpr ⟨s, decoded, bind_eq_ok.mpr ⟨(), ensure_eq_ok.mpr ?_, rfl⟩⟩
    exact decide_eq_true owned
  exact bind_eq_ok.mpr ⟨_, restored, rfl⟩

theorem opened_refusedPayload : ∃ g, openOn .core deferred (some refusedPayload) env = .ok g :=
  ⟨_, openOn_of_decoded decoded_refusedPayload (by
    rw [readBack, snapshotLocked_eq]
    rfl)⟩

end Sample

open Sample in
/-- A stored plan that was refused long ago is reported as aborted. -/
theorem refused_counted_aborted : ∃ s g,
    openOn .core deferred (some refusedPayload) env = .ok g ∧
      decodeSnapshot .core refusedPayload = .ok s ∧ g.recovery.plansAborted = 1 ∧
      (s.plans.filter fun plan => !plan.state.isTerminal).length = 0 := by
  obtain ⟨g, opened⟩ := opened_refusedPayload
  obtain ⟨report, _⟩ := recovered_of_open opened rfl decoded_refusedPayload
  have plans : (holdingRefused.readBack .core env).plans = [refusedPlan] := by
    rw [readBack, snapshotLocked_eq]
    rfl
  refine ⟨_, g, opened, decoded_refusedPayload, ?_, ?_⟩
  · rw [report]
    show (holdingRefused.readBack .core env).plans.length = 1
    rw [plans]
    rfl
  · rw [plans]
    rfl

open Sample in
theorem report_exact_refused : ∃ s g,
    openOn .core deferred (some refusedPayload) env = .ok g ∧
      decodeSnapshot .core refusedPayload = .ok s ∧
      ((g.recovery.plansAborted = (s.plans.filter fun plan => !plan.state.isTerminal &&
          (g.plans.get? plan.id).any (·.state = .aborted)).length ∧
        g.recovery.decisionsInvalidated = s.decisions.length ∧
        g.recovery.retiredMembers =
          (g.members.values.filter (·.record.state = .retired)).length ∧
        g.recovery.membersRestored =
          g.recovery.retiredMembers + g.recovery.membersRequiringRevalidation ∧
        g.recovery.membersRestored = g.members.size) ↔
      (∀ plan ∈ s.plans, plan.state.isTerminal = false) ∧
        (∀ stored ∈ s.members, (s.findDescriptor stored.accelerator).isSome = true) ∧
        (s.members.map (·.accelerator)).Nodup) := by
  obtain ⟨g, opened⟩ := opened_refusedPayload
  exact ⟨_, g, opened, decoded_refusedPayload,
    report_exact_iff opened rfl decoded_refusedPayload⟩

end Haf
