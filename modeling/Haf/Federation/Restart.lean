/-
# What a restart brings back

The payload in the store was encoded by some state of a federation. If it is
decoded at all, then members, workloads and plans come back as that state held them,
up to what recovery changes on purpose and the fields the format does not carry.
-/

import Haf.Codec.Snapshot
import Haf.Federation.Recovery

namespace Haf

open Sequence

/-- A member as a restart restores it from the payload in which it was saved. -/
def MemberEntry.restored (entry : MemberEntry) (epoch : CoordinatorEpoch)
    (generation : FederationGeneration) (now : Timestamp) : MemberEntry :=
  restoredEntry entry.record entry.descriptor.persisted entry.described epoch generation now

/-- A write is accepted or leaves the store alone. -/
theorem Store.write_cases (s : Store) (fault : Option Status) (payload : Bytes) :
    s.write fault payload = (.ok (), { s with payload := some payload }) ∨
      ∃ status, s.write fault payload = (.error status, s) := by
  unfold write
  split
  · exact .inl rfl
  · split
    · exact .inr ⟨_, rfl⟩
    · split
      · exact .inr ⟨_, rfl⟩
      · exact .inl rfl

namespace Federation

variable {f g h : Federation} {env env' : Environment}

/-! ### Writing -/

/-- The federation once its state has been written. -/
def saved (g : Federation) (env : Environment) : Federation :=
  { g with store := { g.store with payload := some (encodeSnapshot (g.snapshotLocked env)) } }

/-- A write replaces the payload by the current state or leaves everything alone. -/
theorem persistLocked_cases {force : Bool} {result : Result Unit}
    (written : g.persistLocked env force = (result, h)) :
    h = g ∨ (result = .ok () ∧ h = g.saved env) := by
  rw [persistLocked] at written
  split at written
  · cases written
    exact .inl rfl
  · split at written
    · cases written
      exact .inl rfl
    · rcases g.store.write_cases env.writeFault (encodeSnapshot (g.snapshotLocked env)) with
        accepted | ⟨status, refused⟩
      · rw [accepted] at written
        exact .inr ⟨(Prod.mk.inj written).1.symm, (Prod.mk.inj written).2.symm⟩
      · rw [refused] at written
        exact .inl (Prod.mk.inj written).2.symm

/-- With persistence on, a write that succeeds has replaced the payload. -/
theorem persistLocked_saved {force : Bool} (enabled : g.persistEnabled = true)
    (immediate : g.persistOnMutation = true ∨ force = true)
    (written : g.persistLocked env force = (.ok (), h)) : h = g.saved env := by
  rw [persistLocked, if_neg (by simp [enabled]),
    if_neg (by rcases immediate with on | forced <;> simp_all)] at written
  rcases g.store.write_cases env.writeFault (encodeSnapshot (g.snapshotLocked env)) with
    accepted | ⟨status, refused⟩
  · rw [accepted] at written
    exact (Prod.mk.inj written).2.symm
  · rw [refused] at written
    cases (Prod.mk.inj written).1

/-! ### Reading back -/

theorem pairwise_members (f : Federation) :
    f.members.values.Pairwise (·.record.accelerator < ·.record.accelerator) :=
  f.members.pairwise_values

/-- The tables of a federation list their entries in canonical order. -/
theorem snapshotLocked_eq (f : Federation) (env : Environment) :
    f.snapshotLocked env = {
      federation := f.id
      generation := f.generation
      epoch := f.epoch
      name := f.name
      policy := f.policy.id
      policyGeneration := f.policy.generation
      policyData := f.policy
      members := f.members.values.map (·.record)
      descriptors := f.members.values.map (·.descriptor)
      workloads := f.workloads.values
      decisions := f.decisions.values
      plans := f.plans.values
      createdAt := env.wall .snapshot } := by
  have descriptors : (f.members.values.map (·.descriptor)).Pairwise (·.id ≤ ·.id) := by
    rw [List.pairwise_map]
    refine f.pairwise_members.imp ?_
    intro a b below
    rw [a.described, b.described]
    exact below.le
  simp only [snapshotLocked, FederationSnapshot.canonicalize, sortOn_of_pairwise descriptors,
    sortOn_of_pairwise (List.pairwise_map.mpr (f.pairwise_members.imp fun below => below.le)),
    sortOn_of_pairwise (f.workloads.pairwise_values.imp fun below => below.le),
    sortOn_of_pairwise (f.decisions.pairwise_values.imp fun below => below.le),
    sortOn_of_pairwise (f.plans.pairwise_values.imp fun below => below.le)]

/-- The sections of a saved state as the decoder returns them. -/
def readBack (R : Registry) (g : Federation) (env : Environment) : FederationSnapshot :=
  { g.snapshotLocked env with
    policyData := g.policy.persisted R
    descriptors := g.members.values.map (·.descriptor.persisted)
    workloads := g.workloads.values.map (·.persisted) }

theorem pairwise_persisted_descriptors (g : Federation) :
    (g.members.values.map (·.descriptor.persisted)).Pairwise (·.id < ·.id) := by
  rw [List.pairwise_map]
  refine g.pairwise_members.imp ?_
  intro a b below
  show a.descriptor.id < b.descriptor.id
  rw [a.described, b.described]
  exact below

theorem classId_persisted (w : WorkloadProfile) : w.persisted.classId = w.classId := rfl

/-- The read-back of a saved state is in canonical order already. -/
theorem canonicalize_persisted (R : Registry) (g : Federation) (env : Environment) :
    ((g.snapshotLocked env).persisted R).canonicalize = g.readBack R env := by
  have workloads : (g.workloads.values.map (·.persisted)).Pairwise (·.classId ≤ ·.classId) := by
    rw [List.pairwise_map]
    exact g.workloads.pairwise_values.imp fun below => below.le
  simp only [readBack, snapshotLocked_eq, FederationSnapshot.persisted,
    FederationSnapshot.canonicalize, List.map_map, Function.comp_def,
    sortOn_of_pairwise (g.pairwise_persisted_descriptors.imp fun below => below.le),
    sortOn_of_pairwise (List.pairwise_map.mpr (g.pairwise_members.imp fun below => below.le)),
    sortOn_of_pairwise workloads,
    sortOn_of_pairwise (g.decisions.pairwise_values.imp fun below => below.le),
    sortOn_of_pairwise (g.plans.pairwise_values.imp fun below => below.le)]

/-- What is decoded from the payload of a saved state. -/
theorem decoded_eq {R : Registry} {t : FederationSnapshot}
    (decoded : decodeSnapshot R (encodeSnapshot (g.snapshotLocked env)) = .ok t) :
    t = g.readBack R env := by
  rw [(FederationSnapshot.decodeSnapshot_eq_ok.mp decoded).2, canonicalize_persisted]

/-! ### Restoring -/

theorem findDescriptor_readBack (R : Registry) (env : Environment) {entry : MemberEntry}
    (listed : entry ∈ g.members.values) :
    (g.readBack R env).findDescriptor entry.record.accelerator =
      some entry.descriptor.persisted := by
  rw [← entry.described]
  exact searchOn_of_mem g.pairwise_persisted_descriptors (List.mem_map.mpr ⟨entry, listed, rfl⟩)

/-- An entry of the member table as a restart of the state `g` restores it. -/
def restoredIn (g : Federation) (env : Environment) (entry : MemberEntry) : MemberEntry :=
  entry.restored g.epoch.next g.generation.next (env.wall (.recovered entry.record.accelerator))

theorem accelerator_restoredIn (g : Federation) (env : Environment) (entry : MemberEntry) :
    (g.restoredIn env entry).record.accelerator = entry.record.accelerator := rfl

theorem restoredEntries_readBack (R : Registry) (g : Federation) (env env' : Environment) :
    (g.readBack R env).restoredEntries env' = g.members.values.map (g.restoredIn env') := by
  have members : (g.readBack R env).members = g.members.values.map (·.record) := by
    rw [readBack, snapshotLocked_eq]
  rw [FederationSnapshot.restoredEntries, members, List.filterMap_map, ← List.filterMap_eq_map]
  refine List.filterMap_congr fun entry listed => ?_
  have found := findDescriptor_readBack R env listed
  simp only [Function.comp_apply]
  split
  · rename_i missing
    rw [found] at missing
    cases missing
  · rename_i d located
    rw [found] at located
    cases located
    simp only [readBack, snapshotLocked_eq]
    rfl

/-- The federation that a restart of `f` makes of the state `g`. -/
def restarted (f g : Federation) (env : Environment) (report : RecoveryReport) : Federation :=
  { f with
    epoch := g.epoch.next
    generation := g.generation.next
    name := if g.name.isEmpty then f.name else g.name
    policy := g.policy.persisted f.registry
    members := g.members.map (g.restoredIn env) (g.accelerator_restoredIn env)
    physicalIndex := indexed (g.members.values.map (g.restoredIn env))
    workloads := g.workloads.map (·.persisted) classId_persisted
    plans := g.plans.map (·.abortIfOpen staleEpochReason) (by simp)
    recovery := report }

theorem members_restarted (f g : Federation) (env : Environment) (report : RecoveryReport)
    (k : AcceleratorId) : (f.restarted g env report).members.get? k =
      (g.members.get? k).map (g.restoredIn env) := by
  rw [restarted, Keyed.get?_map]

theorem plans_restarted (f g : Federation) (env : Environment) (report : RecoveryReport)
    (k : MigrationPlanId) : (f.restarted g env report).plans.get? k =
      (g.plans.get? k).map (·.abortIfOpen staleEpochReason) := by
  rw [restarted, Keyed.get?_map]

/-- Recovery from the payload of a saved state is a restart of that state. -/
theorem recovered_readBack (f g : Federation) (env env' : Environment) :
    f.recovered (g.readBack f.registry env) env' =
      f.restarted g env' (g.readBack f.registry env).recoveryReport := by
  rw [recovered, restarted, restoredEntries_readBack]
  simp only [readBack, snapshotLocked_eq]
  rw [Keyed.ofList_map_values _ _ (g.accelerator_restoredIn env'),
    Keyed.ofList_map_values _ _ classId_persisted,
    Keyed.ofList_map_values _ _ fun p => p.id_abortIfOpen _]

end Federation

/-! ### Restored members -/

namespace FederationSnapshot

variable {s : FederationSnapshot} {env : Environment} {stored : MemberRecord}
  {entry : MemberEntry}

theorem restoredEntries_eq (s : FederationSnapshot) (env : Environment) :
    s.restoredEntries env = s.members.filterMap (s.restoredMember env) := rfl

theorem restoredMember_eq_some : s.restoredMember env stored = some entry ↔
    ∃ d, ∃ found : s.findDescriptor stored.accelerator = some d,
      entry = restoredEntry stored d (id_of_findDescriptor found) s.epoch.next
        s.generation.next (env.wall (.recovered stored.accelerator)) := by
  rw [restoredMember]
  constructor
  · intro made
    split at made
    · cases made
    · rename_i d found
      exact ⟨d, found, (Option.some.inj made).symm⟩
  · rintro ⟨d, found, rfl⟩
    split
    · rename_i missing
      cases found.symm.trans missing
    · rename_i d' found'
      cases Option.some.inj (found.symm.trans found')
      rfl

theorem isSome_restoredMember (s : FederationSnapshot) (env : Environment)
    (stored : MemberRecord) : (s.restoredMember env stored).isSome =
      (s.findDescriptor stored.accelerator).isSome := by
  rw [Bool.eq_iff_iff, Option.isSome_iff_exists, Option.isSome_iff_exists]
  simp [restoredMember_eq_some]

theorem accelerator_of_restoredMember (restored : s.restoredMember env stored = some entry) :
    entry.record.accelerator = stored.accelerator := by
  obtain ⟨_, _, rfl⟩ := restoredMember_eq_some.mp restored
  rfl

/-- The member restored under an identity comes from the first record of that identity. -/
theorem get?_restoredEntries (s : FederationSnapshot) (env : Environment) (a : AcceleratorId) :
    (Keyed.ofList (s.restoredEntries env) : MemberTable).get? a =
      (s.members.find? (·.accelerator = a)).bind (s.restoredMember env) := by
  rw [Keyed.get?_ofList, restoredEntries_eq]
  refine find?_filterMap_key (a := a) (fun _ => by simp) (fun _ => by simp)
    (fun _ _ => accelerator_of_restoredMember) ?_ s.members
  intro stored other same
  rw [isSome_restoredMember, isSome_restoredMember, same]

end FederationSnapshot

namespace Federation

variable {f g h : Federation} {env env' : Environment}

/-! ### Opening -/

/-- A federation finds in its store what the disk holds, if it uses one. -/
theorem disk_of_payload {R : Registry} {config : FederationConfig} {disk : Option Bytes}
    {payload : Bytes} (found : (constructed R config disk env).store.payload = some payload) :
    disk = some payload := by
  have store : (constructed R config disk env).store =
      if config.storePath.isEmpty then ⟨.memory, none⟩ else ⟨.file, disk⟩ := rfl
  rw [store] at found
  split at found
  · cases found
  · exact found

/-- An opened federation is a fresh or a recovered one, once published. -/
theorem openOn_eq_ok {R : Registry} {config : FederationConfig} {disk : Option Bytes}
    (opened : openOn R config disk env = .ok h) :
    let f := constructed R config disk env
    ∃ g, g.persistLocked env false = (.ok (), h) ∧
      ((f.store.payload = none ∧ g = f.fresh) ∨
        ∃ payload t, f.store.payload = some payload ∧ decodeSnapshot R payload = .ok t ∧
          t.federation = f.id ∧ g = f.recovered t env) := by
  intro f
  obtain ⟨g, restored, published⟩ := bind_eq_ok.mp opened
  have written : g.persistLocked env false = (.ok (), h) := by
    split at published
    · rename_i equal
      cases published
      exact equal
    · cases published
  refine ⟨g, written, ?_⟩
  rw [restore] at restored
  split at restored
  · rename_i empty
    cases restored
    exact .inl ⟨empty, rfl⟩
  · rename_i payload found
    obtain ⟨t, decoded, restored⟩ := bind_eq_ok.mp restored
    simp only [bind_eq_ok, ensure_eq_ok, decide_eq_true_eq] at restored
    obtain ⟨_, owned, restored⟩ := restored
    cases restored
    exact .inr ⟨payload, t, found, decoded, owned, rfl⟩

end Federation

end Haf
