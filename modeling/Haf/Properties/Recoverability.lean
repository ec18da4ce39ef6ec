/-
# Recovering what was accepted

The operations accept more than the decoder does. This module says, operation by
operation, which input keeps a federation in the form of the store, and shows that
with such input every state reached is decoded again and the store can be opened
later. Without it an accepted policy is enough to lose the store.
-/

import Haf.Codec.Reasons
import Haf.Properties.Epochs

namespace Haf

open Federation Sequence

/-! ### Members -/

theorem StrongId.length_toText {tag : IdTag} (a : StrongId tag) : a.toText.length = 32 := by
  simp [toText, toHex, List.length_flatMap, a.raw.length_eq]

instance StrongId.short_toText {tag : IdTag} (a : StrongId tag) : Short a.toText 32 :=
  ⟨a.length_toText.le⟩

instance MemberState.short_toText (state : MemberState) : Short state.toText 16 :=
  ⟨by cases state <;> decide⟩

instance short_transitionText (source target : MemberState) :
    Short (transitionText source target) 34 where
  length_le := by
    rw [transitionText]
    exact Short.within (by decide)

namespace MemberRecord

/-- The lines of the audit trail fit, and the identities are present. -/
theorem Storable.of_history {m m' : MemberRecord} (storable : m.Storable)
    (entries : m'.history.length ≤ maxHistoryEntries)
    (lines : ∀ line ∈ m'.history, line ∈ m.history ∨ line.length ≤ Limits.maxDescriptionBytes)
    (accelerator : m'.accelerator = m.accelerator) (agent : m'.agent = m.agent) :
    m'.Storable := by
  refine ⟨entries, ?_, accelerator ▸ storable.identified, agent ▸ storable.owned⟩
  intro line listed
  rcases lines line listed with earlier | short
  · exact storable.lines line earlier
  · exact short

/-- A trail that is cut after each line has room for the next one. -/
theorem Storable.remember {m m' : MemberRecord} (storable : m.Storable) {line : Bytes}
    (short : line.length ≤ Limits.maxDescriptionBytes)
    (history : m'.history = Haf.remember m.history line)
    (accelerator : m'.accelerator = m.accelerator) (agent : m'.agent = m.agent) :
    m'.Storable := by
  apply storable.of_history _ _ accelerator agent
  · rw [history]
    exact List.length_take_le _ _
  · intro other listed
    rw [history] at listed
    rcases List.mem_append.mp (mem_ascending.mp (List.mem_of_mem_take listed)) with
      earlier | last
    · exact .inl earlier
    · rw [List.mem_singleton.mp last]
      exact .inr short

end MemberRecord

/-- The record of a member that joins. -/
theorem Federation.storable_enrolledRecord (f : Federation) {d : AcceleratorDescriptor}
    (valid : d.Valid) (now : Timestamp) : (f.enrolledRecord d now).Storable := by
  refine ⟨?_, ?_, valid.identified, valid.owned⟩
  · show (ascending [text "DISCOVERED", text "OBSERVED"]).length ≤ maxHistoryEntries
    rw [ascending, length_sortOn]
    decide
  · intro line listed
    rcases List.mem_cons.mp (mem_ascending.mp listed) with rfl | last
    · decide
    · rw [List.mem_singleton.mp last]
      decide

/-- The record of a member that a restart brings back. -/
theorem storable_restoredEntry {stored : MemberRecord} (storable : stored.Storable)
    {d : AcceleratorDescriptor} {same : d.id = stored.accelerator} (epoch : CoordinatorEpoch)
    (generation : FederationGeneration) (now : Timestamp) :
    (restoredEntry stored d same epoch generation now).record.Storable :=
  storable.remember (Short.within (by decide)) rfl rfl rfl

namespace AcceleratorDescriptor

variable {R : Registry} {d : AcceleratorDescriptor}

theorem Admissible.setGeneration (admissible : d.Admissible R)
    (generation : CapabilityGeneration) :
    { d with capabilities := d.capabilities.setGeneration generation }.Admissible R :=
  { admissible with }

/-- Other capabilities, witnessed by one record, leave a descriptor valid if they name the same
vendor. -/
theorem Valid.updated (valid : d.Valid) {set : CapabilitySet} {e : EvidenceRecord}
    (checked : set.validate = .ok ()) (filled : set.records ≠ [])
    (agrees : { d with capabilities := set }.vendorAgrees = true)
    (witness : e.validate = .ok () ∧ e.subject = d.id ∧ e.provenance = d.provenance) :
    { d with capabilities := set, evidence := [e] }.Valid :=
  { valid with
    capabilities := checked
    advertised := filled
    agrees := agrees
    witnesses := show 1 ≤ Limits.maxPersistedEvidence by decide
    evidence := by
      intro other listed
      rw [List.mem_singleton.mp listed]
      exact witness
    native := by
      intro _ empty
      cases empty }

/-- So does the restart of its evidence. -/
theorem Valid.afterRestart (valid : d.Valid) :
    { d with evidence := d.evidence.map EvidenceRecord.afterRestart }.Valid :=
  { valid with
    witnesses := by simpa using valid.witnesses
    evidence := by
      intro e listed
      obtain ⟨earlier, inside, rfl⟩ := List.mem_map.mp listed
      exact valid.evidence earlier inside
    native := by
      intro level empty
      exact valid.native level (List.map_eq_nil_iff.mp empty) }

end AcceleratorDescriptor

namespace MemberEntry

section Records

variable {entry : MemberEntry} (storable : entry.record.Storable)
include storable

theorem storable_superseded (by_ : AcceleratorId) (now : Timestamp) :
    (entry.superseded by_ now).record.Storable :=
  storable.remember (Short.within (by decide)) rfl rfl rfl

theorem storable_moved (f : Federation) (target : MemberState) (now : Timestamp) :
    (entry.moved f target now).record.Storable :=
  storable.remember (Short.within (by decide)) rfl rfl rfl

/-- Draining does not cut the trail: there has to be room for one more line. -/
theorem storable_drained (now : Timestamp)
    (room : entry.record.history.length < maxHistoryEntries) :
    (entry.drained now).record.Storable := by
  refine storable.of_history ?_ ?_ rfl rfl
  · show (ascending _).length ≤ _
    rw [ascending, length_sortOn, List.length_append]
    exact room
  · intro line listed
    rcases List.mem_append.mp (mem_ascending.mp listed) with earlier | last
    · exact .inl earlier
    · rw [List.mem_singleton.mp last]
      exact .inr (by decide)

/-- The record after the capability generation moved on. -/
theorem storable_advancedRecord (f : Federation) (now : Timestamp) :
    (entry.advancedRecord f now).Storable :=
  storable.remember (Short.within (by decide)) rfl rfl rfl

theorem storable_observedAgain (f : Federation) {d : AcceleratorDescriptor}
    (same : d.id = entry.record.accelerator) (now : Timestamp) :
    (entry.observedAgain f d same now).record.Storable := by
  rw [MemberEntry.observedAgain]
  split
  · exact { storable_advancedRecord storable f now with }
  · exact { storable with }

end Records

/-- A member in the form of the store. -/
structure WellFormed (R : Registry) (entry : MemberEntry) : Prop where
  record : entry.record.Storable
  valid : entry.descriptor.Valid
  admissible : entry.descriptor.Admissible R
  provenance : entry.record.provenance = entry.descriptor.provenance

namespace WellFormed

variable {R : Registry} {entry : MemberEntry}

/-- A change of the record alone. -/
theorem of_record (formed : entry.WellFormed R) {entry' : MemberEntry}
    (storable : entry'.record.Storable)
    (provenance : entry'.record.provenance = entry.record.provenance)
    (descriptor : entry'.descriptor = entry.descriptor) : entry'.WellFormed R := by
  refine ⟨storable, ?_, ?_, ?_⟩
  · rw [descriptor]
    exact formed.valid
  · rw [descriptor]
    exact formed.admissible
  · rw [provenance, descriptor]
    exact formed.provenance

theorem superseded (formed : entry.WellFormed R) (by_ : AcceleratorId) (now : Timestamp) :
    (entry.superseded by_ now).WellFormed R :=
  formed.of_record (storable_superseded formed.record by_ now) rfl rfl

theorem moved (formed : entry.WellFormed R) (f : Federation) (target : MemberState)
    (now : Timestamp) : (entry.moved f target now).WellFormed R :=
  formed.of_record (storable_moved formed.record f target now) rfl rfl

theorem drained (formed : entry.WellFormed R) (now : Timestamp)
    (room : entry.record.history.length < maxHistoryEntries) :
    (entry.drained now).WellFormed R :=
  formed.of_record (storable_drained formed.record now room) rfl rfl

theorem underPolicy (formed : entry.WellFormed R) (generation : PolicyGeneration) :
    (entry.underPolicy generation).WellFormed R :=
  formed.of_record { formed.record with } rfl rfl

theorem observedAgain (formed : entry.WellFormed R) (f : Federation)
    {d : AcceleratorDescriptor} (same : d.id = entry.record.accelerator) (now : Timestamp)
    (valid : d.Valid) (admissible : d.Admissible R) :
    (entry.observedAgain f d same now).WellFormed R := by
  have storable := storable_observedAgain formed.record f same now
  rw [MemberEntry.observedAgain] at storable ⊢
  split
  · rename_i changed
    rw [if_pos changed] at storable
    exact ⟨storable, valid.setGeneration _, admissible.setGeneration _, rfl⟩
  · rename_i unchanged
    rw [if_neg unchanged] at storable
    exact ⟨storable, valid, admissible, rfl⟩

theorem updated (formed : entry.WellFormed R) (f : Federation) {set : CapabilitySet}
    {e : EvidenceRecord} (now : Timestamp) (checked : set.validate = .ok ())
    (filled : set.records ≠ []) (admissible : set.Admissible R)
    (agrees : { entry.descriptor with capabilities := set }.vendorAgrees = true)
    (witnessed : e.validate = .ok ()) (subject : e.subject = entry.record.accelerator)
    (provenance : e.provenance = entry.record.provenance) :
    (entry.updated f set e now).WellFormed R := by
  have witness : e.validate = .ok () ∧ e.subject = entry.descriptor.id ∧
      e.provenance = entry.descriptor.provenance :=
    ⟨witnessed, subject.trans entry.described.symm, provenance.trans formed.provenance⟩
  have valid := formed.valid.updated checked filled agrees witness
  exact ⟨storable_advancedRecord formed.record f now, valid.setGeneration _,
    { formed.admissible with capabilities := admissible }, formed.provenance⟩

/-- A restart brings a member back in the form of the store. -/
theorem restored (formed : entry.WellFormed R) (g : Federation) (env : Environment) :
    (g.restoredIn env entry).WellFormed R :=
  ⟨storable_restoredEntry formed.record _ _ _, formed.valid.persisted.afterRestart,
    { formed.admissible with }, formed.provenance⟩

end WellFormed

end MemberEntry

/-! ### Plans and decisions -/

namespace MigrationPlan.Sound

variable {p : MigrationPlan}

/-- A plan that moves on was in flight, so that it gives no reasons. -/
theorem advanced (sound : p.Sound) {target : MigrationState}
    (legal : p.state.isLegalTransition target = true) : { p with state := target }.Sound := by
  have open_ : p.state.isTerminal = false := MigrationState.Moves.isTerminal_eq_false (.inl legal)
  exact ⟨{ sound.storable with }, fun _ => sound.silent open_⟩

/-- The reason for which a plan is aborted is the only one it gives. -/
theorem abortIfOpen (sound : p.Sound) {reason : CompatibilityReason} (fits : reason.Storable) :
    (p.abortIfOpen reason).Sound := by
  rw [MigrationPlan.abortIfOpen]
  split
  · exact sound
  · rename_i open_
    have only : p.refusalReasons ++ [reason] = [reason] := by
      rw [sound.silent (by simpa using open_), List.nil_append]
    rw [only]
    refine ⟨{ sound.storable with reasons := ?_, reason := ?_ }, fun closed => by cases closed⟩
    · rw [sortReasons, length_sortOn]
      exact show 1 ≤ Limits.maxRequirementsPerWorkload by decide
    · intro r listed
      rw [sortReasons, mem_sortOn] at listed
      rw [List.mem_singleton.mp listed]
      exact fits

end MigrationPlan.Sound

theorem storable_stalePolicyReason : stalePolicyReason.Storable := by
  constructor <;> decide

theorem storable_staleEpochReason : staleEpochReason.Storable := by
  constructor <;> decide

theorem storable_cancelledReason {reason : Bytes}
    (short : reason.length ≤ Limits.maxDescriptionBytes) :
    (cancelledReason reason).Storable :=
  ⟨show ErrorCode.cancelled.value ≤ ErrorCode.maxValue by decide,
    show (text "abort").length ≤ Limits.maxNameBytes by decide, short⟩

/-! ### Federations -/

/-- A federation in the form of the store, as far as the decoder of a process with the
registry `R` is concerned. -/
structure WellFormed (R : Registry) (f : Federation) : Prop where
  registry : f.registry = R
  identified : f.id ≠ .nil
  name : f.name.length ≤ Limits.maxNameBytes
  policy : f.policy.Sound R
  member : ∀ k entry, f.members.get? k = some entry → entry.WellFormed R
  workload : ∀ k w, f.workloads.get? k = some w → w.Sound R
  decision : ∀ k d, f.decisions.get? k = some d → d.Storable
  plan : ∀ k p, f.plans.get? k = some p → p.Sound

/-- What the requirements of a workload expect and what a member advertises can be quoted in
a reason. -/
def Federation.Quotes (f : Federation) (workload : WorkloadClassId) (a : AcceleratorId) : Prop :=
  ∀ profile entry, f.workloads.get? workload = some profile → f.members.get? a = some entry →
    ∀ q ∈ profile.requirements, q.Brief entry.descriptor.capabilities

/-- The source of a plan has room in its trail for one more line. -/
def Federation.HasRoom (f : Federation) (planId : MigrationPlanId) : Prop :=
  ∀ plan entry, f.plans.get? planId = some plan → f.members.get? plan.source = some entry →
    entry.record.history.length < maxHistoryEntries

/-- Input that keeps a federation in the form of the store. -/
def Command.KeepsForm (f : Federation) : Command → Prop
  | .observe d _ => d.Admissible f.registry
  | .updateCapabilities a set _ _ => set.Admissible f.registry ∧ set.records ≠ [] ∧
      ∀ entry, f.members.get? a = some entry →
        { entry.descriptor with capabilities := set }.vendorAgrees = true
  | .setPolicy p _ => p.Admissible f.registry
  | .registerWorkload w _ => ∀ q ∈ w.requirements, q.Admissible
  | .evaluate workload a _ => f.Quotes workload a
  | .planMigration workload a b _ => f.Quotes workload a ∧ f.Quotes workload b
  | .advanceMigration planId target _ => target = .committed → f.HasRoom planId
  | .abortMigration _ reason _ => reason.length ≤ Limits.maxDescriptionBytes
  | .transition .. | .invalidateStaleDecisions | .persist | .shutdown => True

section Changes

variable {R : Registry} {f g : Federation} {env : Environment} {c : Command}

/-- Members stay in the form of the store. -/
theorem MemberStep.wellFormed {before after : Option MemberEntry}
    (step : MemberStep f env c before after) (keeps : c.KeepsForm f) (formed : WellFormed R f)
    (located : ∀ entry, before = some entry →
      f.members.get? entry.record.accelerator = some entry) {entry : MemberEntry}
    (found : after = some entry) : entry.WellFormed R := by
  have earlier : ∀ entry, before = some entry → entry.WellFormed R := fun entry here =>
    formed.member _ entry (located entry here)
  cases step with
  | same => exact earlier entry found
  | @joined d claim valid derived =>
      cases found
      have checked := AcceleratorDescriptor.validate_eq_ok.mp valid
      exact ⟨f.storable_enrolledRecord checked _, checked, formed.registry ▸ keeps, rfl⟩
  | superseded now open_ =>
      cases found
      exact (earlier _ rfl).superseded _ now
  | observedAgain valid same open_ boot here derived =>
      cases found
      exact (earlier _ rfl).observedAgain f same _ (AcceleratorDescriptor.validate_eq_ok.mp valid)
        (formed.registry ▸ keeps)
  | moved named legal =>
      cases found
      exact (earlier _ rfl).moved f _ _
  | @updated a set evidence claim entry named open_ valid witnessed subject provenance digest =>
      cases found
      obtain ⟨admissible, filled, agrees⟩ := keeps
      have here := located entry rfl
      rw [named] at here
      exact (earlier _ rfl).updated f _ valid filled (formed.registry ▸ admissible)
        (agrees entry here) witnessed (subject.trans named.symm) provenance
  | underPolicy =>
      cases found
      exact (earlier _ rfl).underPolicy _
  | @drained planId claim plan entry stored source working =>
      cases found
      have here := located entry rfl
      rw [← source] at here
      exact (earlier _ rfl).drained _ (keeps rfl plan entry stored here)

/-- Plans stay in the form of the store. -/
theorem PlanStep.sound {before after : Option MigrationPlan}
    (step : PlanStep f env c before after) (keeps : c.KeepsForm f)
    (earlier : ∀ p, before = some p → p.Sound) {p : MigrationPlan} (found : after = some p) :
    p.Sound := by
  cases step with
  | same => exact earlier p found
  | authored before made =>
      cases found
      exact sound_planMigration made
  | advanced stored legal =>
      cases found
      exact (earlier _ rfl).advanced legal
  | aborted reason cause =>
      cases found
      refine (earlier _ rfl).abortIfOpen ?_
      rcases cause with ⟨_, _, _, rfl⟩ | ⟨_, detail, _, rfl, rfl⟩
      · exact storable_stalePolicyReason
      · exact storable_cancelledReason keeps

/-- An evaluation whose texts can be quoted gives a decision that can be stored. -/
theorem WellFormed.storable_evaluateLocked (formed : WellFormed R f) {workload : WorkloadClassId}
    {profile : WorkloadProfile} {a : AcceleratorId} {options : EvaluationOptions}
    {mustExist : Bool} {site : ClockSite} {d : CompatibilityDecision}
    (registered : f.workloads.get? workload = some profile) (quotes : f.Quotes workload a)
    (made : f.evaluateLocked profile a options mustExist env site = .ok d) : d.Storable := by
  obtain ⟨entry, source, found, _, made⟩ := evaluateLocked_eq_ok.mp made
  rw [formed.registry] at made
  apply storable_evaluateCompatibility made
  · intro policy chosen
    cases chosen
    exact formed.policy
  · intro set advertised
    cases advertised
    exact ⟨(formed.member a entry found).admissible.capabilities,
      quotes profile entry registered found⟩

/-- Decisions stay in the form of the store. -/
theorem Change.storable_decision (change : Change f env c g) (keeps : c.KeepsForm f)
    (formed : WellFormed R f) {k : DecisionId} {d : CompatibilityDecision}
    (recorded : g.decisions.get? k = some d) : d.Storable := by
  cases change with
  | policy authority valid =>
      rw [Federation.underPolicy, Keyed.get?_empty] at recorded
      cases recorded
  | evaluated running registered decided =>
      have kept := Keyed.get?_of_shrink recorded
      rw [Keyed.get?_insert] at kept
      split at kept
      · cases kept
        exact formed.storable_evaluateLocked registered keeps decided
      · exact formed.decision k d kept
  | planned authority registered origin target decidedSource decidedDestination authored =>
      have kept := Keyed.get?_of_shrink recorded
      rw [Keyed.get?_insert, Keyed.get?_insert] at kept
      split at kept
      · cases kept
        exact formed.storable_evaluateLocked registered keeps.2 decidedDestination
      · split at kept
        · cases kept
          exact formed.storable_evaluateLocked registered keeps.1 decidedSource
        · exact formed.decision k d kept
  | swept =>
      rw [Federation.swept, Keyed.get?_filter] at recorded
      exact formed.decision k d (Option.filter_eq_some_iff.mp recorded).1
  | enrolled | observedAgain | moved | updated | workload | advanced | aborted | persisted
  | shutdown => exact formed.decision k d recorded

/-- Workloads stay in the form of the store. -/
theorem Change.sound_workload (change : Change f env c g) (keeps : c.KeepsForm f)
    (formed : WellFormed R f) {k : WorkloadClassId} {w : WorkloadProfile}
    (registered : g.workloads.get? k = some w) : w.Sound R := by
  cases change with
  | @workload profile claim authority valid =>
      rw [Federation.withWorkload, Keyed.get?_insert] at registered
      split at registered
      · cases registered
        exact ⟨formed.registry ▸ valid, keeps⟩
      · exact formed.workload k w registered
  | enrolled | observedAgain | moved | updated | policy | evaluated | planned | advanced
  | aborted | swept | persisted | shutdown => exact formed.workload k w registered

/-- The policy stays in the form of the store. -/
theorem Change.sound_policy (change : Change f env c g) (keeps : c.KeepsForm f)
    (formed : WellFormed R f) : g.policy.Sound R := by
  cases change with
  | @policy p claim authority valid =>
      have admissible : p.Admissible R := formed.registry ▸ keeps
      exact ⟨{ admissible with }, formed.registry ▸ valid,
        FederationPolicy.id_refreshIdentity_refreshIdentity p⟩
  | enrolled | observedAgain | moved | updated | workload | evaluated | planned | advanced
  | aborted | swept | persisted | shutdown => exact formed.policy

/-- A change by such input keeps the federation in the form of the store. -/
theorem Change.wellFormed (change : Change f env c g) (keeps : c.KeepsForm f)
    (formed : WellFormed R f) : WellFormed R g where
  registry := change.frame.registry.trans formed.registry
  identified := change.frame.id ▸ formed.identified
  name := change.frame.name ▸ formed.name
  policy := change.sound_policy keeps formed
  member := by
    intro k entry found
    apply (change.member k).wellFormed keeps formed _ found
    intro earlier here
    have key := Keyed.key_of_get? here
    rw [key]
    exact here
  workload := fun k w => change.sound_workload keeps formed
  decision := fun k d => change.storable_decision keeps formed
  plan := fun k p => (change.plan k).sound keeps (formed.plan k)

end Changes

/-! ### Decoding a state -/

/-- The tables keep to the counts that are persisted and the payload to the limit of the
store. -/
structure Fits (f : Federation) (env : Environment) : Prop where
  members : f.members.size ≤ Limits.maxPersistedMembers
  workloads : f.workloads.size ≤ Limits.maxPersistedWorkloads
  decisions : f.decisions.size ≤ Limits.maxPersistedDecisions
  plans : f.plans.size ≤ Limits.maxPersistedPlans
  payload : (encodeSnapshot (f.snapshotLocked env)).length ≤ Limits.maxStorePayloadBytes

theorem list_map_congr {α β : Type} {write : β → Bytes} {left right : α → β} (items : List α)
    (same : ∀ a ∈ items, write (left a) = write (right a)) :
    ByteWriter.list write (items.map left) = ByteWriter.list write (items.map right) := by
  simp only [ByteWriter.list, List.length_map, List.flatMap_map]
  rw [List.flatMap_congr same]

namespace WellFormed

variable {R : Registry} {f : Federation} {env : Environment}

theorem storable (formed : WellFormed R f) (fits : Fits f env) :
    (f.snapshotLocked env).Storable R := by
  have members : ∀ entry ∈ f.members.values, entry.WellFormed R := fun entry listed =>
    formed.member _ entry (Keyed.mem_values.mp listed)
  rw [snapshotLocked_eq]
  constructor
  · exact formed.name
  · exact formed.policy.storable
  · simpa [Keyed.length_values] using fits.members
  · simpa using fun entry listed => (members entry listed).record
  · simpa [Keyed.length_values] using fits.members
  · simpa using fun entry listed => (members entry listed).admissible.storable
      (members entry listed).valid
  · simpa [Keyed.length_values] using fits.workloads
  · exact fun w listed => (formed.workload _ w (Keyed.mem_values.mp listed)).storable
  · simpa [Keyed.length_values] using fits.decisions
  · exact fun d listed => formed.decision _ d (Keyed.mem_values.mp listed)
  · simpa [Keyed.length_values] using fits.plans
  · exact fun p listed => (formed.plan _ p (Keyed.mem_values.mp listed)).storable

/-- The digest covers nothing that reading back changes. -/
theorem digest_readBack (formed : WellFormed R f) :
    (f.readBack R env).digest = (f.snapshotLocked env).digest := by
  have workloads : f.workloads.values.map (·.persisted) = f.workloads.values := by
    conv_rhs => rw [← List.map_id f.workloads.values]
    exact List.map_congr_left fun w listed =>
      (formed.workload _ w (Keyed.mem_values.mp listed)).persisted_eq
  have descriptors : ByteWriter.list FederationSnapshot.descriptorDigestBytes
        (f.members.values.map (·.descriptor.persisted)) =
      ByteWriter.list FederationSnapshot.descriptorDigestBytes
        (f.members.values.map (·.descriptor)) := list_map_congr _ fun _ _ => rfl
  rw [readBack, snapshotLocked_eq, workloads]
  simp only [FederationSnapshot.digest]
  rw [descriptors]

/-- The payload of a federation in the form of the store is decoded. -/
theorem decoded (formed : WellFormed R f) (fits : Fits f env) :
    decodeSnapshot R (encodeSnapshot (f.snapshotLocked env)) = .ok (f.readBack R env) := by
  refine FederationSnapshot.decodeSnapshot_eq_ok.mpr
    ⟨⟨formed.storable fits, fits.payload, ?_, ?_, ?_⟩, (canonicalize_persisted R f env).symm⟩
  · rw [canonicalize_persisted]
    exact formed.digest_readBack
  · rw [snapshotLocked_eq]
    exact formed.policy.id_persisted.symm
  · rw [snapshotLocked_eq]
    exact (StrongId.isNil_eq_false _).mpr formed.identified

end WellFormed

/-! ### Opening -/

/-- A configuration with an identity, whose name and policy keep to the form of the store. -/
structure FederationConfig.KeepsForm (R : Registry) (config : FederationConfig) : Prop where
  identified : config.id ≠ .nil
  name : config.name.length ≤ Limits.maxNameBytes
  policy : config.policy.id ≠ .nil → config.policy.Sound R

section Opening

variable {R : Registry} {config : FederationConfig} {disk : Option Bytes} {env : Environment}

theorem FederationConfig.KeepsForm.id_constructed (keeps : config.KeepsForm R)
    (disk : Option Bytes) (env : Environment) : (constructed R config disk env).id =
      config.id :=
  if_neg (by simpa [StrongId.isNil_iff] using keeps.identified)

theorem wellFormed_fresh (keeps : config.KeepsForm R) :
    WellFormed R (constructed R config disk env).fresh where
  registry := rfl
  identified := by
    rw [show (constructed R config disk env).fresh.id = config.id from
      keeps.id_constructed disk env]
    exact keeps.identified
  name := keeps.name
  policy := by
    show (if config.policy.id.isNil then FederationPolicy.permissiveDefault
      else config.policy).Sound R
    split
    · exact FederationPolicy.sound_permissiveDefault R
    · rename_i given
      exact keeps.policy (by simpa [StrongId.isNil_iff] using given)
  member := by
    intro k entry found
    cases found.symm.trans (Keyed.get?_empty k)
  workload := by
    intro k w found
    cases found.symm.trans (Keyed.get?_empty k)
  decision := by
    intro k d found
    cases found.symm.trans (Keyed.get?_empty k)
  plan := by
    intro k p found
    cases found.symm.trans (Keyed.get?_empty k)

theorem WellFormed.restarted {g : Federation} (formed : WellFormed R g)
    (keeps : config.KeepsForm R) (report : RecoveryReport) :
    WellFormed R ((constructed R config disk env).restarted g env report) where
  registry := rfl
  identified := by
    rw [show ((constructed R config disk env).restarted g env report).id = config.id from
      keeps.id_constructed disk env]
    exact keeps.identified
  name := by
    show (if g.name.isEmpty then config.name else g.name).length ≤ _
    split
    · exact keeps.name
    · exact formed.name
  policy := formed.policy.persisted
  member := by
    intro k entry found
    rw [members_restarted] at found
    obtain ⟨earlier, here, rfl⟩ := Option.map_eq_some_iff.mp found
    exact (formed.member k earlier here).restored g env
  workload := by
    intro k w found
    rw [Federation.restarted, Keyed.get?_map] at found
    obtain ⟨earlier, here, rfl⟩ := Option.map_eq_some_iff.mp found
    have sound := formed.workload k earlier here
    rw [sound.persisted_eq]
    exact sound
  decision := by
    intro k d found
    cases found.symm.trans (Keyed.get?_empty k)
  plan := by
    intro k p found
    rw [plans_restarted] at found
    obtain ⟨earlier, here, rfl⟩ := Option.map_eq_some_iff.mp found
    exact (formed.plan k earlier here).abortIfOpen storable_staleEpochReason

end Opening

/-- Events of runs in the default mode without faults whose input keeps to the form of the
store, under one registry. -/
def KeepsForm (R : Registry) (f : Federation) : Event → Prop
  | .call c env => WritesThrough f (.call c env) ∧ c.KeepsForm f
  | .reopen R' config env => WritesThrough f (.reopen R' config env) ∧ R' = R ∧
      config.KeepsForm R

theorem durable_wellFormed (R : Registry) : Durable (KeepsForm R) (WellFormed R) where
  stored := fun _ _ formed => { formed with }
  bumped := fun _ formed => { formed with }
  changed := fun _ _ _ _ formed permitted change => change.wellFormed permitted.2 formed
  fresh := by
    rintro f R' config disk env ⟨_, rfl, keeps⟩
    exact wellFormed_fresh keeps
  restarted := by
    rintro f R' config disk env g report ⟨_, rfl, keeps⟩ formed _
    exact formed.restarted keeps report

/-! ### Recovery -/

/-- A federation without its generation and its store. -/
def Federation.contents (f : Federation) : Federation :=
  { f with generation := ⟨0⟩, store := ⟨.memory, none⟩ }

/-- A later process that uses the same store under the same identity takes the state over, and
hands it out once its own write is accepted. -/
def Reopens (f : Federation) : Prop :=
  ∀ config env, config.id = f.id → config.storePath ≠ [] → ∃ g,
    (constructed f.registry config f.store.payload env).restore env = .ok g ∧
      ∀ h, g.persistLocked env false = (.ok (), h) →
        openOn f.registry config f.store.payload env = .ok h

/-- The snapshot of the current state can be decoded, and the store can be opened again. -/
structure Recoverable (f : Federation) (env : Environment) : Prop where
  decoded : ∃ s, decodeSnapshot f.registry (encodeSnapshot (f.snapshotLocked env)) = .ok s
  reopens : Reopens f

section Contents

variable {R : Registry} {f g : Federation} {env : Environment}

theorem WellFormed.of_contents (formed : WellFormed R g) (same : f.contents = g.contents) :
    WellFormed R f := by
  have shared : WellFormed R g.contents := { formed with }
  rw [← same] at shared
  exact { shared with }

/-- Generations, times and digests are of fixed width. -/
theorem length_encodeSnapshot_contents (f : Federation) (env env' : Environment) :
    (encodeSnapshot (f.snapshotLocked env)).length =
      (encodeSnapshot (f.contents.snapshotLocked env')).length := by
  simp only [snapshotLocked_eq, encodeSnapshot, FederationSnapshot.headerBytes,
    FederationSnapshot.sectionBytes, List.length_append, ByteWriter.generation, ByteWriter.u64,
    ByteWriter.i64, ByteWriter.digest, ByteReader.length_littleEndian, Digest.length_eq]
  rfl

theorem Fits.of_contents (fits : Fits g env) (same : f.contents = g.contents)
    (env' : Environment) : Fits f env' := by
  have sizes : Fits g.contents env :=
    { fits with payload := (length_encodeSnapshot_contents g env env).symm.trans_le fits.payload }
  rw [← same] at sizes
  exact { sizes with
    payload := (length_encodeSnapshot_contents f env' env).trans_le sizes.payload }

/-- A payload with the contents of a federation in the form of the store is taken over. -/
theorem WellFormed.reopens (formed : WellFormed R f) (fits : Fits f env)
    (backed : Backed contents f) : Reopens f := by
  obtain ⟨saved, written, stored, same⟩ := backed
  have decoded := (formed.of_contents same).decoded (fits.of_contents same written)
  intro config env' owner file
  have registry := formed.registry
  subst registry
  have id : (constructed f.registry config f.store.payload env').id = f.id := by
    refine (if_neg ?_).trans owner
    rw [owner, (StrongId.isNil_eq_false _).mpr formed.identified]
    simp
  have payload : (constructed f.registry config f.store.payload env').store.payload =
      some (encodeSnapshot (saved.snapshotLocked written)) := by
    have store : (constructed f.registry config f.store.payload env').store =
        if config.storePath.isEmpty then ⟨.memory, none⟩ else ⟨.file, f.store.payload⟩ := rfl
    rw [store, if_neg (by simpa using file)]
    exact stored
  have owned : (saved.readBack f.registry written).federation = f.id := by
    rw [readBack, snapshotLocked_eq]
    exact show saved.contents.id = f.contents.id by rw [same]
  have restored : (constructed f.registry config f.store.payload env').restore env' =
      .ok ((constructed f.registry config f.store.payload env').recovered
        (saved.readBack f.registry written) env') := by
    rw [restore, payload]
    refine bind_eq_ok.mpr ⟨_, decoded, bind_eq_ok.mpr ⟨(), ensure_eq_ok.mpr ?_, rfl⟩⟩
    rw [owned, id]
    exact decide_eq_true rfl
  refine ⟨_, restored, ?_⟩
  intro h accepted
  rw [openOn, restored]
  refine bind_eq_ok.mpr ⟨_, rfl, ?_⟩
  rw [accepted]

end Contents

/-- In every run in the default mode, from an empty store, in which every write is accepted and
all input keeps to the form of the store, every state that keeps to the limits is recoverable. -/
theorem recoverable_of_keepsForm {R : Registry} {config : FederationConfig} {env env' : Environment}
    {f g : Federation} (opened : openOn R config none env = .ok f)
    (enabled : config.persist = true) (immediate : config.persistOnMutation = true)
    (keeps : config.KeepsForm R) (run : Reaches (KeepsForm R) f g) (fits : Fits g env') :
    Recoverable g env' := by
  have formed : WellFormed R g :=
    (durable_wellFormed R).reaches opened (wellFormed_fresh keeps) run
  have published : Published contents g := by
    refine published_of_writesThrough (fun _ _ => rfl) (fun _ => rfl) ?_
      (published_of_open opened (fun _ _ => rfl) enabled immediate) run
    rintro f (⟨c, env⟩ | ⟨R', config, env⟩) permitted
    · exact permitted.1
    · exact permitted.1
  refine ⟨⟨g.readBack R env', ?_⟩, formed.reopens fits published.backed⟩
  rw [formed.registry]
  exact formed.decoded fits

/-! ### An advertisement and a policy -/

namespace Sample

/-- The core vocabulary lists what the sample device advertises. -/
theorem admissible_first : first.Admissible .core := by
  refine ⟨?_, by decide, by decide⟩
  have listed : ∀ r ∈ records, Registry.core.lists r.key.name = true := by decide +kernel
  have unversioned : ∀ r ∈ records, r.value.kind ≠ .version := by decide +kernel
  intro r inside
  refine ⟨listed r inside, ?_⟩
  intro v carried
  exact absurd (congrArg CapabilityValue.kind carried) (unversioned r inside)

theorem keepsForm_config : config.KeepsForm .core :=
  ⟨by decide, by decide, fun given => absurd rfl given⟩

theorem fits_observedOnce : Fits observedOnce env := by
  constructor <;> decide +kernel

/-- A policy that names a vendor twice. -/
def repetitive : FederationPolicy := { allowedVendors := [text "acme", text "acme"] }

/-- The federation under that policy. -/
def repeating : Federation := (opened.execute (.setPolicy repetitive claim) env).state

/-- The policy is accepted, and what is written then is refused. -/
theorem refused_repeating : (opened.execute (.setPolicy repetitive claim) env).result.isOk = true ∧
    (decodeSnapshot repeating.registry
      (encodeSnapshot (repeating.snapshotLocked env))).isOk = false := by
  decide +kernel

theorem fits_repeating : Fits repeating env := by
  constructor <;> decide +kernel

end Sample

open Sample in
/-- The state after the first advertisement is recoverable. -/
theorem recoverable_observedOnce : Recoverable observedOnce env := by
  have advertised : Reaches (KeepsForm .core) opened observedOnce :=
    .next (e := .call (.observe first claim) env) .refl
      ⟨fault_of_memory rfl _ _, admissible_first⟩ execute_first.symm
  exact recoverable_of_keepsForm openOn_eq rfl rfl keepsForm_config advertised fits_observedOnce

open Sample in
/-- A policy that names a vendor twice is accepted, and the state that results is not decoded. -/
theorem repeated_vendor_unrecoverable : ∃ f g, openOn .core config none env = .ok f ∧
    config.persist = true ∧ config.persistOnMutation = true ∧ config.KeepsForm .core ∧
    Reaches WritesThrough f g ∧ Fits g env ∧ ¬ Recoverable g env := by
  refine ⟨opened, repeating, openOn_eq, rfl, rfl, keepsForm_config,
    .next (e := .call (.setPolicy repetitive claim) env) .refl (fault_of_memory rfl _ _) rfl,
    fits_repeating, ?_⟩
  intro recoverable
  obtain ⟨s, decoded⟩ := recoverable.decoded
  have refused := refused_repeating.2
  rw [decoded] at refused
  cases refused

end Haf
