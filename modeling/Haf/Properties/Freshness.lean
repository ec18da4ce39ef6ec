/-
# Live evidence

Evidence is fresh while none of it awaits revalidation and none of its dynamic records
is older than the policy allows. Two things are not what they look like. Evidence that
does not exist is fresh, so a member without any satisfies requirements on dynamic
capabilities; runs in which every advertisement carries evidence are not affected. And
the instant of an observation does not travel: a record that was received counts from
the origin of the clock of this process and not from its receipt.
-/

import Haf.Codec.Decoded
import Haf.Federation.Fleet
import Haf.Properties.Advertisement
import Haf.Properties.Constraints
import Haf.Properties.Evidence

namespace Haf

open Federation

/-! ### What fresh evidence is -/

/-- There is evidence, and all of it is usable at an instant. -/
structure Live (policy : FederationPolicy) (now : MonotonicTime) (evidence : List EvidenceRecord) :
    Prop where
  witnessed : evidence ≠ []
  validated : ∀ e ∈ evidence, e.requiresRevalidation = false
  recent : ∀ e ∈ evidence, e.dynamic = true → policy.requiredEvidenceFreshnessNanos ≠ 0 →
    ageNanos e.observedMonotonicMarker now ≤ policy.requiredEvidenceFreshnessNanos

variable {evidence : List EvidenceRecord} {now : MonotonicTime} {f : Federation}

theorem evidenceFresh_eq_true {policy : FederationPolicy}
    :
    evidenceFresh policy now evidence = true ↔ ∀ e ∈ evidence, e.requiresRevalidation = false ∧
      (e.dynamic = true → policy.requiredEvidenceFreshnessNanos ≠ 0 →
        ageNanos e.observedMonotonicMarker now ≤ policy.requiredEvidenceFreshnessNanos) := by
  rw [evidenceFresh, List.all_eq_true]
  apply forall₂_congr
  intro e _
  by_cases awaiting : e.requiresRevalidation = true
  · simp [awaiting]
  · by_cases unlimited : policy.requiredEvidenceFreshnessNanos = 0
    · simp [awaiting, unlimited]
    · cases e.dynamic <;> simp [awaiting, unlimited, EvidenceRecord.isFresh]

theorem live_of_evidenceFresh {policy : FederationPolicy}
    (witnessed : evidence ≠ [])
    (fresh : evidenceFresh policy now evidence = true) : Live policy now evidence := by
  have usable := evidenceFresh_eq_true.mp fresh
  exact ⟨witnessed, fun e listed => (usable e listed).1, fun e listed => (usable e listed).2⟩

/-! ### Members with evidence -/

/-- Every member has evidence. -/
def EveryWitnessed (f : Federation) : Prop :=
  ∀ a entry, f.members.get? a = some entry → entry.descriptor.evidence ≠ []

/-- Devices are advertised with evidence. -/
def CarriesEvidence (_ : Federation) : Event → Prop
  | .call (.observe d _) _ => d.evidence ≠ []
  | _ => True

theorem MemberEntry.evidence_observedAgain (entry : MemberEntry) (f : Federation)
    (d : AcceleratorDescriptor) (same : d.id = entry.record.accelerator) (now : Timestamp) :
    (entry.observedAgain f d same now).descriptor.evidence = d.evidence := by
  rw [observedAgain]
  split
  · rfl
  · rfl

theorem MemberStep.evidence_ne_nil {env : Environment} {c : Command}
    {before : Option MemberEntry} {entry : MemberEntry}
    (step : MemberStep f env c before (some entry)) (carries : CarriesEvidence f (.call c env))
    (earlier : ∀ entry, before = some entry → entry.descriptor.evidence ≠ []) :
    entry.descriptor.evidence ≠ [] := by
  cases step with
  | same => exact earlier entry rfl
  | joined valid derived => exact carries
  | @superseded d claim entry₀ now open_ => exact earlier entry₀ rfl
  | observedAgain valid same open_ boot found derived =>
      rw [MemberEntry.evidence_observedAgain]
      exact carries
  | @moved a target claim entry₀ named legal => exact earlier entry₀ rfl
  | updated named open_ valid witnessed subject provenance digest => exact List.cons_ne_nil _ _
  | @underPolicy p claim entry₀ => exact earlier entry₀ rfl
  | @drained id claim plan entry₀ stored source working => exact earlier entry₀ rfl

/-- A restart marks evidence for revalidation, but removes none. -/
theorem durable_everyWitnessed : Durable CarriesEvidence EveryWitnessed where
  stored f store witnessed := witnessed
  bumped f witnessed := witnessed
  changed f env c g witnessed carries change := by
    intro a entry found
    have step := change.member a
    rw [found] at step
    exact step.evidence_ne_nil carries fun earlier located => witnessed a earlier located
  fresh _ R config disk env _ := by
    intro a entry found
    cases (Keyed.get?_empty a).symm.trans found
  restarted _ R config disk env g report _ witnessed _ := by
    intro a entry found
    rw [members_restarted] at found
    obtain ⟨saved, located, rfl⟩ := Option.map_eq_some_iff.mp found
    intro empty
    exact witnessed a saved located (List.map_eq_nil_iff.mp (List.map_eq_nil_iff.mp empty))

/-- Eligibility rests on fresh evidence wherever a hard requirement is about a dynamic
capability. -/
theorem evidenceFresh_of_eligible {R : Registry} {w : WorkloadProfile}
    {context : EvaluationContext} {createdAt : Timestamp} {d : CompatibilityDecision}
    (made : evaluateCompatibility R w context createdAt = .ok d) (eligible : d.outcome = .eligible)
    {q : CapabilityRequirement} (listed : q ∈ w.requirements) (hard : q.strength = .hard)
    (dynamic : isDynamicCapability q.capability = true) : context.target.evidenceFresh = true := by
  obtain ⟨valid, policy, capabilities, _, _, _, _, rfl⟩ := evaluateCompatibility_eq_ok.mp made
  have clears := (eligible_iff_clears valid).mp eligible
  have decided := ((clears.requirements q listed) hard).1 rfl
  exact decided.2 dynamic

/-- **Dynamic requirements need live evidence.** In every run on a store that was empty, in which
devices are advertised with evidence, a member that is eligible for a workload with a hard
requirement on a dynamic capability has evidence, and all of it is usable. -/
theorem live_of_carriesEvidence {R : Registry} {config : FederationConfig}
    {env₀ env : Environment} {f₀ f : Federation} (opened : openOn R config none env₀ = .ok f₀)
    (run : Reaches CarriesEvidence f₀ f) {w : WorkloadClassId} {a : AcceleratorId}
    {d : CompatibilityDecision} (yields : Yields f env w a d) (eligible : d.outcome = .eligible)
    {profile : WorkloadProfile} (registered : f.workloads.get? w = some profile)
    {q : CapabilityRequirement} (listed : q ∈ profile.requirements) (hard : q.strength = .hard)
    (dynamic : isDynamicCapability q.capability = true) :
    ∃ entry, f.members.get? a = some entry ∧
      Live f.policy (env.monotonic .decision) entry.descriptor.evidence := by
  have start : EveryWitnessed (constructed R config none env₀).fresh :=
    durable_everyWitnessed.fresh f₀ R config none env₀ trivial
  have witnessed : EveryWitnessed f := durable_everyWitnessed.reaches opened start run
  obtain ⟨profile', entry, source, createdAt, registered', found, made⟩ := yields.exists_evaluation
  cases registered.symm.trans registered'
  have fresh := evidenceFresh_of_eligible made eligible listed hard dynamic
  exact ⟨entry, found, live_of_evidenceFresh (witnessed a entry found) fresh⟩

namespace Sample

/-- What the first boot knows about the health of its device. -/
def healthRecord : CapabilityRecord :=
  supported (text "health.readiness") (.enumeration (text "ready")) (by decide +kernel)

def healthy : CapabilitySet :=
  { id := capabilitySetIdentity [healthRecord] []
    generation := ⟨1⟩
    records := [healthRecord]
    records_canonical := by decide +kernel
    identified := .inl rfl }

/-- The first boot advertises its device as ready, without any evidence. -/
def unwitnessed : AcceleratorDescriptor := { first with capabilities := healthy }

/-- A dynamic observation of the first accelerator. -/
def pulse : EvidenceRecord := { probe .zero with dynamic := true, requiresRevalidation := false }

/-- The first boot advertises its device as ready, with evidence. -/
def attested : AcceleratorDescriptor := { unwitnessed with evidence := [pulse] }

/-- A hard requirement on a dynamic capability. -/
def readiness : CapabilityRequirement :=
  { id := ⟨.fromBytes [1]⟩, capability := text "health.readiness"
    value := .enumeration (text "ready") }

/-- A workload with that requirement. -/
def cautious : WorkloadProfile :=
  { classId := ident 20, requirementId := ⟨.fromBytes [2]⟩, name := text "w"
    requirements := [readiness] }

/-- The member is activated, and the workload is registered. -/
def readying (d : AcceleratorDescriptor) : List Call := [
  (.observe d claim, env), (.transition firstId .admitted claim, env),
  (.transition firstId .active claim, env), (.registerWorkload cautious claim, env)]

/-- The verdict on the member, what evidence it has and what the workload requires. -/
def verdictIn (f : Federation) :
    Option (CompatibilityOutcome × List EvidenceRecord × List CapabilityRequirement) :=
  match f.evaluateTransient (ident 20) firstId {} env, f.members.get? firstId,
      f.workloads.get? (ident 20) with
  | .ok decision, some entry, some profile =>
      some (decision.outcome, entry.descriptor.evidence, profile.requirements)
  | _, _, _ => none

theorem verdictIn_eq_some {f : Federation} {outcome : CompatibilityOutcome}
    {evidence : List EvidenceRecord} {requirements : List CapabilityRequirement}
    (verdict : verdictIn f = some (outcome, evidence, requirements)) :
    ∃ d entry profile, Yields f env (ident 20) firstId d ∧ d.outcome = outcome ∧
      f.members.get? firstId = some entry ∧ entry.descriptor.evidence = evidence ∧
      f.workloads.get? (ident 20) = some profile ∧ profile.requirements = requirements := by
  rw [verdictIn] at verdict
  split at verdict
  · rename_i d entry profile evaluated found registered
    cases verdict
    exact ⟨d, entry, profile, .transient evaluated, rfl, found, rfl, registered, rfl⟩
  · cases verdict

theorem verdict_unwitnessed :
    verdictIn (opened.after (readying unwitnessed)) = some (.eligible, [], [readiness]) := by
  decide +kernel

theorem verdict_attested :
    verdictIn (opened.after (readying attested)) = some (.eligible, [pulse], [readiness]) := by
  decide +kernel

end Sample

open Sample in
/-- A member without any evidence is eligible for a workload that requires it to be ready. -/
theorem unwitnessed_eligible : ∃ f₀ f d entry profile q, openOn .core config none env = .ok f₀ ∧
    Reaches anyEvent f₀ f ∧ Yields f env (ident 20) firstId d ∧ d.outcome = .eligible ∧
    f.workloads.get? (ident 20) = some profile ∧ q ∈ profile.requirements ∧ q.strength = .hard ∧
    isDynamicCapability q.capability = true ∧ f.members.get? firstId = some entry ∧
    entry.descriptor.evidence = [] := by
  obtain ⟨d, entry, profile, yields, eligible, found, empty, registered, requires⟩ :=
    verdictIn_eq_some verdict_unwitnessed
  refine ⟨opened, _, d, entry, profile, readiness, openOn_eq, reaches_after _ _ ?_, yields,
    eligible, registered, ?_, rfl, by decide +kernel, found, empty⟩
  · intro _ _ _ _
    trivial
  · rw [requires]
    exact List.mem_singleton.mpr rfl

open Sample in
/-- The same member, advertised with evidence. -/
theorem live_attested : ∃ entry,
    (opened.after (readying attested)).members.get? firstId = some entry ∧
      Live (opened.after (readying attested)).policy 0 entry.descriptor.evidence := by
  obtain ⟨d, entry, profile, yields, eligible, found, empty, registered, requires⟩ :=
    verdictIn_eq_some verdict_attested
  have run : Reaches CarriesEvidence opened (opened.after (readying attested)) := by
    apply reaches_after
    intro before call rest split
    have listed : call ∈ readying attested := by simp [split]
    simp only [readying, List.mem_cons, List.not_mem_nil, or_false] at listed
    rcases listed with rfl | rfl | rfl | rfl
    · exact List.cons_ne_nil _ _
    all_goals trivial
  have listed : readiness ∈ profile.requirements := by simp [requires]
  exact live_of_carriesEvidence openOn_eq run yields eligible registered listed rfl
    (by decide +kernel)

/-! ### Age since receipt -/

/-- A call that neither advertises the accelerator nor updates its capabilities. -/
def Command.Unobserved (a : AcceleratorId) : Command → Prop
  | .observe d _ => d.id ≠ a
  | .updateCapabilities b _ _ _ => b ≠ a
  | _ => True

theorem MemberStep.evidence_eq {env : Environment} {c : Command}
    {a : AcceleratorId} {entry : MemberEntry} {after : Option MemberEntry}
    (step : MemberStep f env c (some entry) after) (named : entry.record.accelerator = a)
    (unobserved : c.Unobserved a) :
    ∃ entry', after = some entry' ∧ entry'.descriptor.evidence = entry.descriptor.evidence := by
  cases step with
  | same => exact ⟨entry, rfl, rfl⟩
  | superseded now open_ => exact ⟨_, rfl, rfl⟩
  | observedAgain valid same open_ boot found derived =>
      exact absurd (same.trans named) unobserved
  | moved named' legal => exact ⟨_, rfl, rfl⟩
  | updated named' open_ valid witnessed subject provenance digest =>
      exact absurd (named'.symm.trans named) unobserved
  | underPolicy => exact ⟨_, rfl, rfl⟩
  | drained stored source working => exact ⟨_, rfl, rfl⟩

/-- The evidence of a member stays what it was until the member is observed again. -/
theorem evidence_after {a : AcceleratorId}
    (held : ∃ entry, f.members.get? a = some entry ∧ entry.descriptor.evidence = evidence)
    (calls : List Call) (unobserved : ∀ call ∈ calls, call.1.Unobserved a) :
    ∃ entry, (f.after calls).members.get? a = some entry ∧
      entry.descriptor.evidence = evidence := by
  induction calls generalizing f with
  | nil => exact held
  | cons call calls ih =>
      rw [after_cons]
      apply ih _ fun later listed => unobserved later (List.mem_cons_of_mem _ listed)
      obtain ⟨entry, found, same⟩ := held
      rcases (f.execute_conduct call.1 call.2).state_cases with kept | ⟨moved, _⟩ | ⟨g, change, left⟩
      · rw [kept]
        exact ⟨entry, found, same⟩
      · rw [moved]
        exact ⟨entry, found, same⟩
      · have step := change.member a
        rw [found] at step
        have named : entry.record.accelerator = a := f.members.key_of_get? found
        obtain ⟨entry', later, carried⟩ :=
          step.evidence_eq named (unobserved call List.mem_cons_self)
        have held : ∃ entry, g.members.get? a = some entry ∧ entry.descriptor.evidence = evidence :=
          ⟨entry', later, carried.trans same⟩
        rcases left with same | written
        · rw [same]
          exact held
        · rw [written]
          exact held

/-- An accepted advertisement leaves the member with the evidence it carried. -/
theorem evidence_of_observe {d : AcceleratorDescriptor} {claim : AuthorityClaim}
    {env : Environment} {record : MemberRecord}
    (accepted : (f.observe d claim env).result = .ok record) :
    ∃ entry, (f.observe d claim env).state.members.get? d.id = some entry ∧
      entry.descriptor.evidence = d.evidence := by
  obtain ⟨g, change, left⟩ := change_of_conclude
    (fun s settled => by
      obtain ⟨record, g, same, change⟩ := settleObserve_eq_ok settled
      exact ⟨record, g, same, change⟩) accepted
  have held : ∃ entry, g.members.get? d.id = some entry ∧
      entry.descriptor.evidence = d.evidence := by
    cases change with
    | enrolled authority valid derived alone absent =>
        refine ⟨⟨f.enrolledRecord d (env.wall .member), d, rfl⟩, ?_, rfl⟩
        rw [enrolled, Keyed.get?_insert]
        exact if_pos rfl
    | @observedAgain _ _ entry authority valid found same open_ unfenced boot derived =>
        refine ⟨entry.observedAgain f d same (env.wall .member), ?_,
          entry.evidence_observedAgain f d same _⟩
        have named := (entry.record_observedAgain f d same (env.wall .member)).2.1
        rw [withMember, Keyed.get?_insert]
        exact if_pos (named.trans same.symm)
  rcases left with same | written
  · rw [observe, same]
    exact held
  · rw [observe, written]
    exact held

/-- The instant of an observation is not sent: received evidence carries the default. -/
theorem marker_of_received {R : Registry} {payload : Bytes} {request : Net.AdvertiseRequest}
    (received : Net.decodeAdvertiseRequest R payload = .ok request) {d : AcceleratorDescriptor}
    (listed : d ∈ request.devices) {e : EvidenceRecord} (inside : e ∈ d.evidence) :
    e.observedMonotonicMarker = 0 := by
  have ensured := Net.ensures_readAdvertiseRequest
    (AcceleratorDescriptor.ensures_deserializeAt false R)
  have same := ((Net.of_decode ensured received).2 d listed).2
  have evidence : d.evidence.map (·.persisted) = d.evidence :=
    congrArg AcceleratorDescriptor.evidence same
  rw [← evidence] at inside
  obtain ⟨e', _, rfl⟩ := List.mem_map.mp inside
  rfl

/-- The age of an unmarked record is the reading of the clock. -/
theorem ageNanos_zero_le {budget : UInt64} :
    ageNanos 0 now ≤ budget ↔ now.toInt ≤ budget.toNat := by
  rw [ageNanos]
  split_ifs with early
  · have early : now.toInt ≤ 0 := Int64.le_iff_toInt_le.mp early
    have bounded := budget.toNat_lt
    rw [UInt64.le_iff_toNat_le]
    constructor
    · intro _
      omega
    · intro _
      exact Nat.zero_le _
  · have positive : 0 < now.toInt := by
      have := mt Int64.le_iff_toInt_le.mpr early
      simpa using this
    have value : now.toInt = if 2 * now.toUInt64.toNat < 2 ^ 64 then (now.toUInt64.toNat : Int)
        else (now.toUInt64.toNat : Int) - (2 ^ 64 : Nat) := BitVec.toInt_eq_toNat_cond _
    have bounded := now.toUInt64.toNat_lt
    rw [Int64.sub_zero, UInt64.le_iff_toNat_le]
    split_ifs at value <;> omega

/-- **Freshness counts from the origin of the clock.** A device is received with dynamic evidence
that needs no revalidation, and is accepted at the instant `t`. When it is evaluated at `t'`, with
no observation in between, the policy is applied to the age since receipt exactly if this makes no
difference to applying it to the reading of the clock. -/
theorem fresh_since_receipt_iff {R : Registry} {payload : Bytes} {request : Net.AdvertiseRequest}
    (received : Net.decodeAdvertiseRequest R payload = .ok request) {d : AcceleratorDescriptor}
    (listed : d ∈ request.devices) (witnessed : d.evidence ≠ [])
    (dynamic : ∀ e ∈ d.evidence, e.dynamic = true ∧ e.requiresRevalidation = false)
    {f : Federation} {claim : AuthorityClaim} {env : Environment} {record : MemberRecord}
    (accepted : (f.observe d claim env).result = .ok record) {calls : List Call}
    (unobserved : ∀ call ∈ calls, call.1.Unobserved d.id) {g : Federation}
    (reached : g = (f.observe d claim env).state.after calls)
    (limited : g.policy.requiredEvidenceFreshnessNanos ≠ 0) (t t' : MonotonicTime) :
    ∃ entry, g.members.get? d.id = some entry ∧
      (((g.evaluationTarget entry t').evidenceFresh = true ↔
          t'.toInt - t.toInt ≤ g.policy.requiredEvidenceFreshnessNanos.toNat) ↔
        (t'.toInt ≤ g.policy.requiredEvidenceFreshnessNanos.toNat ↔
          t'.toInt - t.toInt ≤ g.policy.requiredEvidenceFreshnessNanos.toNat)) := by
  obtain ⟨entry, found, evidence⟩ := evidence_after (evidence_of_observe accepted) calls unobserved
  rw [← reached] at found
  refine ⟨entry, found, ?_⟩
  have age : (g.evaluationTarget entry t').evidenceFresh = true ↔
      t'.toInt ≤ g.policy.requiredEvidenceFreshnessNanos.toNat := by
    have fresh : (g.evaluationTarget entry t').evidenceFresh =
        evidenceFresh g.policy t' d.evidence := by
      rw [← evidence]
      rfl
    rw [fresh, evidenceFresh_eq_true, ← ageNanos_zero_le]
    constructor
    · intro usable
      obtain ⟨e, inside⟩ := List.exists_mem_of_ne_nil _ witnessed
      have recent := (usable e inside).2 (dynamic e inside).1 limited
      rwa [marker_of_received received listed inside] at recent
    · intro recent e inside
      refine ⟨(dynamic e inside).2, fun _ _ => ?_⟩
      rwa [marker_of_received received listed inside]
  rw [age]

namespace Sample

open Net.Sample

/-- The first boot advertises its device with a dynamic observation. -/
def timed : AcceleratorDescriptor := { first with evidence := [pulse] }

/-- A policy under which observations count for a microsecond. -/
def impatient : FederationPolicy :=
  { FederationPolicy.permissiveDefault with requiredEvidenceFreshnessNanos := 1000 }

theorem decode_timed : Net.decodeAdvertiseRequest .core (listingBytes timed false) =
    .ok (listing timed false) := by
  decide +kernel

/-- The advertisement is accepted, and the policy is set. -/
def timedBefore : Federation := (opened.observe timed claim env).state

def policing : List Call := [(.setPolicy impatient claim, env)]

theorem accepted_timed : ∃ record, (opened.observe timed claim env).result = .ok record :=
  Sequence.exists_of_isOk (by decide +kernel)

theorem stale_timed :
    (timedBefore.after policing).policy.requiredEvidenceFreshnessNanos = 1000 ∧
    ∃ entry, (timedBefore.after policing).members.get? firstId = some entry ∧
      ((timedBefore.after policing).evaluationTarget entry 5000).evidenceFresh = false := by
  decide +kernel

end Sample

open Sample Net.Sample in
/-- Evidence is received and evaluated at one and the same instant, and is stale. -/
theorem stale_on_receipt : ∃ request record g entry,
    Net.decodeAdvertiseRequest .core (listingBytes timed false) = .ok request ∧
    timed ∈ request.devices ∧ timed.evidence = [pulse] ∧ pulse.dynamic = true ∧
    pulse.requiresRevalidation = false ∧ (opened.observe timed claim env).result = .ok record ∧
    g = (opened.observe timed claim env).state.after [(.setPolicy impatient claim, env)] ∧
    g.policy.requiredEvidenceFreshnessNanos = 1000 ∧ g.members.get? timed.id = some entry ∧
    (g.evaluationTarget entry 5000).evidenceFresh = false := by
  obtain ⟨record, accepted⟩ := accepted_timed
  obtain ⟨limited, entry, found, stale⟩ := stale_timed
  have reached : timedBefore.after policing =
      (opened.observe timed claim env).state.after [(.setPolicy impatient claim, env)] := by
    rw [timedBefore, policing]
  exact ⟨listing timed false, record, timedBefore.after policing, entry,
    decode_timed, List.mem_singleton.mpr rfl, rfl, rfl, rfl, accepted, reached,
    limited, found, stale⟩

open Sample Net.Sample in
theorem fresh_since_receipt_timed : ∃ entry,
    (timedBefore.after policing).members.get? timed.id = some entry ∧
      ((((timedBefore.after policing).evaluationTarget entry 5000).evidenceFresh = true ↔
          (5000 : Int64).toInt - (5000 : Int64).toInt ≤
            (timedBefore.after policing).policy.requiredEvidenceFreshnessNanos.toNat) ↔
        ((5000 : Int64).toInt ≤
            (timedBefore.after policing).policy.requiredEvidenceFreshnessNanos.toNat ↔
          (5000 : Int64).toInt - (5000 : Int64).toInt ≤
            (timedBefore.after policing).policy.requiredEvidenceFreshnessNanos.toNat)) := by
  obtain ⟨record, accepted⟩ := accepted_timed
  have dynamic : ∀ e ∈ timed.evidence, e.dynamic = true ∧ e.requiresRevalidation = false := by
    intro e listed
    cases List.mem_singleton.mp listed
    exact ⟨rfl, rfl⟩
  have unobserved : ∀ call ∈ policing, call.1.Unobserved timed.id := by
    intro call listed
    cases List.mem_singleton.mp listed
    trivial
  have reached : timedBefore.after policing =
      (opened.observe timed claim env).state.after policing := by
    rw [timedBefore]
  have limited : (timedBefore.after policing).policy.requiredEvidenceFreshnessNanos ≠ 0 := by
    rw [stale_timed.1]
    decide
  exact fresh_since_receipt_iff decode_timed (List.mem_singleton.mpr rfl)
    (List.cons_ne_nil _ _) dynamic accepted unobserved reached limited 5000 5000

end Haf
