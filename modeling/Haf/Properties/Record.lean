/-
# Decisions on record

What an evaluation returns is recorded, and as soon as there are too many records some are
erased: after an evaluation the oldest, after planning those with the smallest identities. The
new decisions are not spared. Planning moreover moves the generation on between making its
decisions and recording them, so that they are outdated from the start.

Sweeping and the query for currency test different fields. They agree all the same: the one
field that only the query tests, the generation of the evidence, cannot change without the
generation of the federation.
-/

import Haf.Properties.Destinations

namespace Haf

open Federation Sequence

/-! ### Currency -/

variable {d : CompatibilityDecision} {f : Federation}

/-- A decision carries the generations of the state in which it is made. -/
theorem current_of_evaluateLocked {profile : WorkloadProfile}
    {a : AcceleratorId} {options : EvaluationOptions} {mustExist : Bool} {env : Environment}
    {site : ClockSite}
    (made : f.evaluateLocked profile a options mustExist env site = .ok d) :
    ∃ entry, f.members.get? a = some entry ∧ d.accelerator = a ∧ d.workload = profile.classId ∧
      d.isCurrent f.generation f.epoch f.policy.generation entry.record.deviceGeneration
        entry.record.capabilityGeneration entry.record.evidenceGeneration profile.revision =
        true := by
  obtain ⟨entry, source, found, _, made⟩ := evaluateLocked_eq_ok.mp made
  obtain ⟨_, policy, capabilities, chosen, _, _, _, rfl⟩ := evaluateCompatibility_eq_ok.mp made
  cases chosen
  have key := Keyed.key_of_get? found
  refine ⟨entry, found, key, rfl, ?_⟩
  simp [CompatibilityDecision.isCurrent, assessed, CompatibilityDecision.refreshIdentity,
    evaluationContext, evaluationTarget]

/-- The two tests for currency differ in the generation of the evidence only. -/
theorem decisionIsCurrent_iff {k : DecisionId}
    (recorded : f.decisions.get? k = some d) :
    f.decisionIsCurrent k = .ok true ↔ f.sweepKeeps d = true ∧
      ∀ entry, f.members.get? d.accelerator = some entry →
        d.evidenceGeneration = entry.record.evidenceGeneration := by
  rw [decisionIsCurrent, recorded, sweepKeeps]
  cases member : f.members.get? d.accelerator with
  | none => simp [member]
  | some entry =>
      cases registered : f.workloads.get? d.workload with
      | none => simp [member, registered]
      | some profile =>
          simp only [member, registered, CompatibilityDecision.isCurrent, Except.ok.injEq,
            Bool.and_eq_true, decide_eq_true_eq, Option.some.injEq, forall_eq']
          constructor
          · rintro ⟨⟨⟨⟨⟨⟨generation, epoch⟩, policy⟩, device⟩, capability⟩, evidence⟩, revision⟩
            exact ⟨⟨⟨⟨⟨generation, epoch⟩, policy⟩, device, capability⟩, revision.symm⟩, evidence⟩
          · rintro ⟨⟨⟨⟨⟨generation, epoch⟩, policy⟩, device, capability⟩, revision⟩, evidence⟩
            exact ⟨⟨⟨⟨⟨⟨generation, epoch⟩, policy⟩, device⟩, capability⟩, evidence⟩,
              revision.symm⟩

theorem step_evaluate (f : Federation) (w : WorkloadClassId) (a : AcceleratorId)
    (options : EvaluationOptions) (env : Environment) :
    Step f (.call (.evaluate w a options) env) (f.evaluate w a options env).state := rfl

/-! ### Sweeping -/

/-- The generation has not come to its end. -/
def BelowEnd (f : Federation) : Event → Prop
  | .call _ _ => f.generation.value ≠ Generation.maxValue
  | .reopen _ _ _ => True

/-- A decision of the current generation was made from the evidence there is. -/
def EvidenceStamped (f : Federation) : Prop :=
  ∀ k d, f.decisions.get? k = some d → d.federationGeneration.value ≤ f.generation.value ∧
    (d.federationGeneration = f.generation → ∀ entry, f.members.get? d.accelerator = some entry →
      d.evidenceGeneration = entry.record.evidenceGeneration)

theorem evidenceStamped_of_change {g : Federation} {env : Environment} {c : Command}
    (stamped : EvidenceStamped f) (below : f.generation.value ≠ Generation.maxValue)
    (change : Change f env c g) : EvidenceStamped g := by
  intro k d recorded
  have made : d.federationGeneration.value ≤ f.generation.value ∧
      (d.federationGeneration = f.generation →
        ∀ entry, f.members.get? d.accelerator = some entry →
          d.evidenceGeneration = entry.record.evidenceGeneration) := by
    rcases change.decision_evaluated recorded with found | ⟨_, _, _, _, _, decided⟩
    · exact stamped k d found
    · obtain ⟨entry, found, rfl, _, current⟩ := current_of_evaluateLocked decided
      simp only [CompatibilityDecision.isCurrent, Bool.and_eq_true, decide_eq_true_eq] at current
      refine ⟨by rw [current.1.1.1.1.1.1]; exact UInt64.le_refl _, fun _ entry' found' => ?_⟩
      cases Option.some.inj (found.symm.trans found')
      exact current.1.2
  refine ⟨UInt64.le_trans made.1 change.generation_le, fun same => ?_⟩
  rcases change.generation_cases with moved | ⟨generation, members, _⟩
  · rw [same, moved] at made
    exact absurd (Generation.value_lt_next below) (UInt64.not_lt.mpr made.1)
  · rw [generation] at same
    rw [members]
    exact made.2 same

theorem evidenceStamped_bumped (stamped : EvidenceStamped f) :
    EvidenceStamped f.bumped := by
  intro k d recorded
  obtain ⟨reached, evidence⟩ := stamped k d recorded
  refine ⟨UInt64.le_trans reached f.generation.value_le_next, fun same => ?_⟩
  by_cases below : f.generation.value = Generation.maxValue
  · exact evidence (same.trans (Generation.next_of_max below))
  · rw [same] at reached
    exact absurd (Generation.value_lt_next below) (UInt64.not_lt.mpr reached)

theorem evidenceStamped_of_reaches {R : Registry} {config : FederationConfig}
    {disk : Option Bytes} {env : Environment} {g : Federation}
    (opened : openOn R config disk env = .ok f) (run : Reaches BelowEnd f g) :
    EvidenceStamped g := by
  refine reaches_of_atRest ?_ ?_ ?_ ?_ opened run
  · intro f rest k d recorded
    rw [rest.decisions, Keyed.get?_empty] at recorded
    cases recorded
  · intro f store stamped
    exact stamped
  · intro f stamped
    exact evidenceStamped_bumped stamped
  · intro f env c g stamped below change
    exact evidenceStamped_of_change stamped below change

/-- **Sweeping agrees with currency**: it removes the recorded decisions that are not reported
as current, leaves the others alone and returns how many it removed. -/
theorem sweep_agrees {R : Registry} {config : FederationConfig} {disk : Option Bytes}
    {env env' : Environment} {f g : Federation} (opened : openOn R config disk env = .ok f)
    (run : Reaches BelowEnd f g) :
    (g.invalidateStaleDecisions env').result = .ok (g.decisions.values.filter fun d =>
        g.decisionIsCurrent d.decisionId ≠ .ok true).length ∧
      ∀ k, (g.invalidateStaleDecisions env').state.decisions.get? k =
        (g.decisions.get? k).filter fun _ => g.decisionIsCurrent k = .ok true := by
  have stamped := evidenceStamped_of_reaches opened run
  have agree : ∀ k d, g.decisions.get? k = some d →
      (g.sweepKeeps d = decide (g.decisionIsCurrent k = .ok true)) := by
    intro k d recorded
    rw [Bool.eq_iff_iff, decide_eq_true_eq, decisionIsCurrent_iff recorded]
    refine ⟨fun kept => ⟨kept, (stamped k d recorded).2 ?_⟩, And.left⟩
    simp only [sweepKeeps, Bool.and_eq_true, decide_eq_true_eq] at kept
    exact kept.1.1.1.1
  have removed : g.decisions.values.filter (!g.sweepKeeps ·) =
      g.decisions.values.filter fun d => g.decisionIsCurrent d.decisionId ≠ .ok true := by
    apply List.filter_congr
    intro d listed
    rw [agree d.decisionId d (Keyed.mem_values.mp listed)]
    simp
  have swept : ∀ k, g.swept.decisions.get? k =
      (g.decisions.get? k).filter fun _ => g.decisionIsCurrent k = .ok true := by
    intro k
    rw [Federation.swept, Keyed.get?_filter]
    cases recorded : g.decisions.get? k with
    | none => rfl
    | some d => rw [Option.filter_some, Option.filter_some, agree k d recorded]
  rw [invalidateStaleDecisions, removed]
  split
  · rename_i none_
    refine ⟨by rw [none_], fun k => ?_⟩
    rw [← swept, Federation.swept, Keyed.get?_filter]
    cases recorded : g.decisions.get? k with
    | none => rfl
    | some d =>
        rw [Option.filter_some, agree k d recorded, if_pos]
        rw [List.length_eq_zero_iff, List.filter_eq_nil_iff] at none_
        have listed := Keyed.mem_values_of_get? recorded
        have key := Keyed.key_of_get? recorded
        simpa [key] using none_ d listed
  · rcases written : g.swept.persistLocked env' false with ⟨⟨status⟩ | ⟨⟩, h⟩
    all_goals
      refine ⟨rfl, fun k => ?_⟩
      rw [← swept]
      rcases persistLocked_cases written with rfl | ⟨_, rfl⟩
      · rfl
      · rfl

namespace Sample

theorem generation_calls : opened.generation = ⟨1⟩ ∧ observedOnce.generation = ⟨2⟩ ∧
    observedTwice.generation = ⟨3⟩ ∧ registered.generation = ⟨4⟩ := by
  decide +kernel

theorem reaches_evaluatedOnce : Reaches BelowEnd opened evaluatedOnce.state := by
  obtain ⟨first, second, third, fourth⟩ := generation_calls
  refine .next (s := registered) (.next (e := .call (.registerWorkload workload claim) env)
      (.next (e := .call (.observe Sample.second claim) env)
        (.next (e := .call (.observe Sample.first claim) env) .refl ?_ execute_first.symm) ?_
        execute_second.symm) ?_ rfl) ?_ (step_evaluate registered (ident 20) firstId {} env)
  · rw [BelowEnd, first]
    decide
  · rw [BelowEnd, second]
    decide
  · rw [BelowEnd, third]
    decide
  · rw [BelowEnd, fourth]
    decide

end Sample

open Sample in
/-- A decision that was just made is not swept. -/
theorem sweep_agrees_evaluatedOnce :
    (evaluatedOnce.state.invalidateStaleDecisions env).result =
        .ok (evaluatedOnce.state.decisions.values.filter fun d =>
          evaluatedOnce.state.decisionIsCurrent d.decisionId ≠ .ok true).length ∧
      ∀ k, (evaluatedOnce.state.invalidateStaleDecisions env).state.decisions.get? k =
        (evaluatedOnce.state.decisions.get? k).filter fun _ =>
          evaluatedOnce.state.decisionIsCurrent k = .ok true :=
  sweep_agrees openOn_eq reaches_evaluatedOnce

/-! ### Keeping what was returned -/

/-- The order in which evaluations erase records: by age, then by identity. -/
def CompatibilityDecision.age (d : CompatibilityDecision) : ℤ ×ₗ DecisionId :=
  toLex (d.createdAt.toInt, d.decisionId)

theorem CompatibilityDecision.age_lt {o : CompatibilityDecision} : d.age < o.age ↔
    d.createdAt < o.createdAt ∨ d.createdAt = o.createdAt ∧ d.decisionId < o.decisionId := by
  rw [age, age, Prod.Lex.toLex_lt_toLex, Int64.lt_iff_toInt_lt, Int64.toInt_inj]

/-- The search for the oldest record, from a candidate on. -/
theorem exists_oldest (o : CompatibilityDecision) (items : List CompatibilityDecision) :
    ∃ m ∈ o :: items, (∀ c ∈ o :: items, m.age ≤ c.age) ∧
      items.foldl (fun oldest d =>
        match oldest with
        | none => some d
        | some o =>
            if d.createdAt < o.createdAt ||
                (d.createdAt = o.createdAt && d.decisionId < o.decisionId)
            then some d else some o) (some o) = some m := by
  induction items generalizing o with
  | nil => exact ⟨o, by simp, by simp, rfl⟩
  | cons d rest ih =>
      have younger : (d.createdAt < o.createdAt ||
          (d.createdAt = o.createdAt && d.decisionId < o.decisionId)) = true ↔ d.age < o.age := by
        rw [CompatibilityDecision.age_lt]
        simp
      rw [List.foldl_cons]
      dsimp only
      split
      · rename_i older
        obtain ⟨m, listed, least, found⟩ := ih d
        refine ⟨m, List.mem_cons_of_mem _ listed, ?_, found⟩
        have below := (least d (by simp)).trans (younger.mp older).le
        exact List.forall_mem_cons.mpr ⟨below, least⟩
      · rename_i newer
        obtain ⟨m, listed, least, found⟩ := ih o
        have below := (least o (by simp)).trans (not_lt.mp (mt younger.mpr newer))
        have inside : m ∈ o :: d :: rest := by
          rcases List.mem_cons.mp listed with rfl | later
          · simp
          · exact List.mem_cons_of_mem _ (List.mem_cons_of_mem _ later)
        refine ⟨m, inside, ?_, found⟩
        rw [List.forall_mem_cons] at least ⊢
        exact ⟨least.1, List.forall_mem_cons.mpr ⟨below, least.2⟩⟩

theorem choosesLeast_oldestDecision :
    Keyed.ChoosesLeast oldestDecision CompatibilityDecision.age := by
  intro table listed
  rw [oldestDecision]
  cases records : table.values with
  | nil =>
      rw [records] at listed
      simp at listed
  | cons o rest =>
      obtain ⟨m, inside, least, found⟩ := exists_oldest o rest
      exact ⟨m, congrArg (Option.map _) found, inside, least⟩

theorem choosesLeast_firstDecision :
    Keyed.ChoosesLeast firstDecision CompatibilityDecision.decisionId := by
  intro table listed
  rw [firstDecision]
  have sorted := table.pairwise_values
  cases records : table.values with
  | nil =>
      rw [records] at listed
      simp at listed
  | cons o rest =>
      rw [records, List.pairwise_cons] at sorted
      refine ⟨o, rfl, by simp, List.forall_mem_cons.mpr ⟨le_rfl, ?_⟩⟩
      intro c later
      exact (sorted.1 c later).le

/-- As many records as are too many come before a decision. -/
def Outlasts {ρ : Type} [LinearOrder ρ] (table : DecisionTable) (limit : Nat)
    (rank : CompatibilityDecision → ρ) (d : CompatibilityDecision) : Prop :=
  table.size ≤ limit + table.values.countP (rank · < rank d)

/-- The decision is recorded, and reported as current. -/
structure OnRecord (g : Federation) (d : CompatibilityDecision) : Prop where
  recorded : g.decisions.get? d.decisionId = some d
  current : g.decisionIsCurrent d.decisionId = .ok true

/-- Entries of a table that have the same key are the same. -/
theorem eq_of_decisionId {table : DecisionTable} {o : CompatibilityDecision}
    (listed : d ∈ table.values) (listed' : o ∈ table.values)
    (same : d.decisionId = o.decisionId) : d = o := by
  rw [Keyed.mem_values] at listed listed'
  rw [same] at listed
  exact Option.some.inj (listed.symm.trans listed')

section Evaluate

variable {f : Federation} {w : WorkloadClassId} {a b : AcceleratorId}
  {options : EvaluationOptions} {env : Environment} {profile : WorkloadProfile}

/-- An evaluation keeps its decision on record unless it is among the oldest that have to go. -/
theorem onRecord_withDecision {d : CompatibilityDecision} (store : Store)
    (registered : f.workloads.get? w = some profile)
    (decided : f.evaluateLocked profile a options true env .decision = .ok d) :
    OnRecord { f.withDecision d with store } d ↔
      Outlasts (f.decisions.insert d) f.maxRecordedDecisions CompatibilityDecision.age d := by
  have kept : (f.withDecision d).decisions.get? d.decisionId = some d ↔
      Outlasts (f.decisions.insert d) f.maxRecordedDecisions CompatibilityDecision.age d := by
    refine (Keyed.get?_shrink choosesLeast_oldestDecision ?_ (by omega)).trans ?_
    · intro d listed o listed' same
      exact eq_of_decisionId listed listed' (Prod.mk.inj (toLex.injective same)).2
    · rw [and_iff_right (Keyed.get?_insert_self _ _)]
      rfl
  rw [← kept]
  refine ⟨OnRecord.recorded, fun recorded => ⟨recorded, ?_⟩⟩
  obtain ⟨entry, found, rfl, work, current⟩ := current_of_evaluateLocked decided
  have key := Keyed.key_of_get? registered
  have member : (f.withDecision d).members.get? d.accelerator = some entry := found
  have workload : (f.withDecision d).workloads.get? d.workload = some profile := by
    rw [work, key]
    exact registered
  rw [decisionIsCurrent, recorded]
  simp only [member, workload]
  exact congrArg Except.ok current

/-- The decisions of a plan are outdated as soon as they are recorded, unless the generation is
at its end. -/
theorem decisionIsCurrent_planned {plan : MigrationPlan} {site : ClockSite}
    {there here d : CompatibilityDecision} (store : Store)
    (registered : f.workloads.get? w = some profile)
    (decided : f.evaluateLocked profile a options false env site = .ok d)
    (recorded : (f.bumped.withPlan plan there here).decisions.get? d.decisionId = some d) :
    decisionIsCurrent { f.bumped.withPlan plan there here with store } d.decisionId = .ok true ↔
      f.generation.value = Generation.maxValue := by
  obtain ⟨entry, found, rfl, work, current⟩ := current_of_evaluateLocked decided
  have key := Keyed.key_of_get? registered
  have member : (f.bumped.withPlan plan there here).members.get? d.accelerator = some entry := found
  have workload : (f.bumped.withPlan plan there here).workloads.get? d.workload = some profile := by
    rw [work, key]
    exact registered
  rw [decisionIsCurrent, recorded]
  simp only [member, workload, Except.ok.injEq]
  simp only [CompatibilityDecision.isCurrent, Bool.and_eq_true, decide_eq_true_eq] at current ⊢
  obtain ⟨⟨⟨⟨⟨⟨generation, epoch⟩, policy⟩, device⟩, capability⟩, evidence⟩, revision⟩ := current
  constructor
  · rintro ⟨⟨⟨⟨⟨⟨moved, _⟩, _⟩, _⟩, _⟩, _⟩, _⟩
    by_contra below
    exact Generation.next_ne_self below (moved.symm.trans generation)
  · intro top
    exact ⟨⟨⟨⟨⟨⟨generation.trans (Generation.next_of_max top).symm, epoch⟩, policy⟩, device⟩,
      capability⟩, evidence⟩, revision⟩

theorem onRecord_withPlan {plan : MigrationPlan} {there here : CompatibilityDecision}
    (store : Store) (distinct : a ≠ b) (registered : f.workloads.get? w = some profile)
    (decided : f.evaluateLocked profile a ⟨some b⟩ false env .sourceDecision = .ok there)
    (decided' : f.evaluateLocked profile b ⟨some a⟩ false env .destinationDecision = .ok here) :
    OnRecord { f.bumped.withPlan plan there here with store } there ∧
        OnRecord { f.bumped.withPlan plan there here with store } here ↔
      f.generation.value = Generation.maxValue ∧ there.decisionId ≠ here.decisionId ∧
        ∀ d, d = there ∨ d = here → Outlasts ((f.decisions.insert there).insert here)
          f.maxRecordedDecisions CompatibilityDecision.decisionId d := by
  have kept (d : CompatibilityDecision) :
      (f.bumped.withPlan plan there here).decisions.get? d.decisionId = some d ↔
        ((f.decisions.insert there).insert here).get? d.decisionId = some d ∧
          Outlasts ((f.decisions.insert there).insert here) f.maxRecordedDecisions
            CompatibilityDecision.decisionId d :=
    Keyed.get?_shrink choosesLeast_firstDecision
      (fun d listed o listed' => eq_of_decisionId listed listed') (by omega)
  have filed : ((f.decisions.insert there).insert here).get? there.decisionId = some there ↔
      there.decisionId ≠ here.decisionId := by
    rw [Keyed.get?_insert]
    split
    · rename_i same
      refine iff_of_false (fun equal => distinct ?_) (not_not_intro same.symm)
      obtain ⟨_, _, named, _⟩ := current_of_evaluateLocked decided
      obtain ⟨_, _, named', _⟩ := current_of_evaluateLocked decided'
      rw [← named, ← named', Option.some.inj equal]
    · rename_i other
      exact iff_of_true (Keyed.get?_insert_self _ _) (Ne.symm other)
  have filed' : ((f.decisions.insert there).insert here).get? here.decisionId = some here :=
    Keyed.get?_insert_self _ _
  constructor
  · rintro ⟨first, second⟩
    obtain ⟨stored, lasts⟩ := (kept there).mp first.recorded
    obtain ⟨_, lasts'⟩ := (kept here).mp second.recorded
    refine ⟨(decisionIsCurrent_planned store registered decided' second.recorded).mp
      second.current, filed.mp stored, ?_⟩
    rintro d (rfl | rfl)
    · exact lasts
    · exact lasts'
  · rintro ⟨top, apart, lasts⟩
    have recorded := (kept there).mpr ⟨filed.mpr apart, lasts there (.inl rfl)⟩
    have recorded' := (kept here).mpr ⟨filed', lasts here (.inr rfl)⟩
    exact ⟨⟨recorded, (decisionIsCurrent_planned store registered decided recorded).mpr top⟩,
      ⟨recorded', (decisionIsCurrent_planned store registered decided' recorded').mpr top⟩⟩

end Evaluate

/-- **Returned decisions are on record** under these conditions only. After an evaluation, as
many records as are too many have to be older than the new one; after planning, as many have to
have smaller identities than the two new ones, which must differ, and the generation must be at
its end. The number of records never exceeds the limit. -/
theorem returned_on_record_iff (f : Federation) (w : WorkloadClassId) (env : Environment) :
    (∀ a options d, (f.evaluate w a options env).result = .ok d →
      let g := (f.evaluate w a options env).state
      g.decisions.size ≤ g.maxRecordedDecisions ∧
        (OnRecord g d ↔
          Outlasts (f.decisions.insert d) f.maxRecordedDecisions CompatibilityDecision.age d)) ∧
    ∀ a b claim plan, (f.planMigration w a b claim env).result = .ok plan →
      let g := (f.planMigration w a b claim env).state
      ∃ profile there here, f.workloads.get? w = some profile ∧
        f.evaluateLocked profile a ⟨some b⟩ false env .sourceDecision = .ok there ∧
        f.evaluateLocked profile b ⟨some a⟩ false env .destinationDecision = .ok here ∧
        plan.sourceDecision = there.id ∧ plan.destinationDecision = here.id ∧
        g.decisions.size ≤ g.maxRecordedDecisions ∧
        (OnRecord g there ∧ OnRecord g here ↔
          f.generation.value = Generation.maxValue ∧ there.decisionId ≠ here.decisionId ∧
            ∀ d, d = there ∨ d = here → Outlasts ((f.decisions.insert there).insert here)
              f.maxRecordedDecisions CompatibilityDecision.decisionId d) := by
  constructor
  · intro a options d returned
    obtain ⟨profile, registered, decided, store, state⟩ := exists_of_evaluate returned
    dsimp only
    rw [state]
    exact ⟨Keyed.size_shrink_le choosesLeast_oldestDecision (by omega),
      onRecord_withDecision store registered decided⟩
  · intro a b claim plan returned
    obtain ⟨profile, source, destination, there, here, registered, origin, target, decided,
      decided', made, store, state⟩ := exists_of_planMigration returned
    obtain ⟨_, referred, referred'⟩ :=
      MigrationRequest.bindings_of_planMigration rfl rfl rfl rfl made
    obtain ⟨_, _, _, _, _, _, _, _, _, _, distinct, _⟩ := planMigration_eq_ok.mp made
    dsimp only
    rw [state]
    exact ⟨profile, there, here, registered, decided, decided', referred, referred',
      Keyed.size_shrink_le choosesLeast_firstDecision (by omega),
      onRecord_withPlan store distinct registered decided decided'⟩

namespace Sample

/-- What the clock says when a decision is made. -/
def at_ (now : Timestamp) : Environment := { env with wall := fun _ => now }

/-- A federation that keeps two decisions. -/
def openedNarrow : Federation :=
  (constructed .core { config with maxRecordedDecisions := 2 } none env).fresh.saved env

/-- Two decisions have been made at the time 10, and then the workload was defined anew. -/
def crowdingCalls : List Call := calls ++ [
  (.evaluate (ident 20) firstId {}, at_ 10), (.evaluate (ident 20) secondId {}, at_ 10),
  (.registerWorkload redefined claim, env)]

def crowded : Federation := openedNarrow.after crowdingCalls

/-- The clock has been set back when the third decision is made. -/
abbrev evaluatedLate : Outcome CompatibilityDecision :=
  crowded.evaluate (ident 20) firstId {} (at_ 0)

theorem exists_late : ∃ d, evaluatedLate.result = .ok d ∧
    (evaluatedLate.state.decisions.get? d.decisionId).isNone = true := by
  decide +kernel

abbrev plannedMove : Outcome MigrationPlan :=
  registered.planMigration (ident 20) firstId secondId claim env

theorem exists_outdated : ∃ plan, plannedMove.result = .ok plan ∧
    ∃ d ∈ plannedMove.state.decisions.values, plan.destinationDecision = d.id ∧
      plannedMove.state.decisionIsCurrent d.decisionId = .ok false := by
  decide +kernel

end Sample

open Sample in
/-- A decision made after the clock was set back is erased before it is returned, and the
decision that a new plan refers to is outdated when it is recorded. -/
theorem returned_off_record :
    openOn .core { config with maxRecordedDecisions := 2 } none env = .ok openedNarrow ∧
      (∃ d, evaluatedLate.result = .ok d ∧
        evaluatedLate.state.decisions.get? d.decisionId = none) ∧
      ∃ plan d, plannedMove.result = .ok plan ∧ plan.destinationDecision = d.id ∧
        plannedMove.state.decisions.get? d.decisionId = some d ∧
        plannedMove.state.decisionIsCurrent d.decisionId = .ok false := by
  obtain ⟨late, returned, erased⟩ := exists_late
  obtain ⟨plan, planned, d, listed, referred, outdated⟩ := exists_outdated
  exact ⟨rfl, ⟨late, returned, Option.isNone_iff_eq_none.mp erased⟩, plan, d, planned, referred,
    Keyed.mem_values.mp listed, outdated⟩

open Sample in
theorem returned_on_record_late : ∃ d, evaluatedLate.result = .ok d ∧
    evaluatedLate.state.decisions.size ≤ evaluatedLate.state.maxRecordedDecisions ∧
    (OnRecord evaluatedLate.state d ↔ Outlasts (crowded.decisions.insert d)
      crowded.maxRecordedDecisions CompatibilityDecision.age d) := by
  obtain ⟨d, returned, _⟩ := exists_late
  obtain ⟨kept, _⟩ := returned_on_record_iff crowded (ident 20) (at_ 0)
  unfold evaluatedLate at returned ⊢
  exact ⟨d, returned, kept firstId {} d returned⟩

end Haf
