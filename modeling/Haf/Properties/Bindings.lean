/-
# What decisions and plans are bound to

Decisions and plans carry the epoch, the policy and the capability generations they
were made under. Nothing recorded outlives its epoch or its policy. A change of the
capabilities of a member outdates everything that was bound to it, as far as the
capability generation, whose first value the advertisement chooses, can still grow.
-/

import Haf.Properties.Commit

namespace Haf

open Federation

/-! ### Nothing outlives its authority -/

/-- Every recorded decision and every plan in flight carries the current epoch and policy. -/
structure UnderAuthority (f : Federation) : Prop where
  decisions : ∀ k d, f.decisions.get? k = some d →
    d.epoch = f.epoch ∧ d.policy = f.policy.id ∧ d.policyGeneration = f.policy.generation
  plans : ∀ k plan, f.plans.get? k = some plan → plan.state.isTerminal = false →
    plan.epoch = f.epoch ∧ plan.policy = f.policy.id ∧ plan.policyGeneration = f.policy.generation

variable {f g : Federation} {c : Command} {entry : MemberEntry}

theorem AtRest.underAuthority (rest : AtRest f) : UnderAuthority f := by
  constructor
  · intro k d recorded
    rw [rest.decisions, Keyed.get?_empty] at recorded
    cases recorded
  · intro k plan stored open_
    rw [rest.plans k plan stored] at open_
    cases open_

theorem underAuthority_of_change {env : Environment}
    (under : UnderAuthority f) (change : Change f env c g) : UnderAuthority g := by
  rcases change.policy_or_atRest with policy | rest
  · constructor
    · intro k d recorded
      rw [change.frame.epoch, policy]
      rcases change.decision_cases recorded with found | decided
      · exact under.decisions k d found
      · exact ⟨decided.epoch, decided.policy, decided.policyGeneration⟩
    · intro k plan stored open_
      rw [change.frame.epoch, policy]
      rcases change.plan_cases stored with ⟨earlier, found, continues⟩ | ⟨authored, _⟩
      · rw [continues.fields]
        exact under.plans k earlier found (continues.isTerminal_eq_false open_)
      · exact ⟨authored.epoch, authored.policy, authored.policyGeneration⟩
  · exact rest.underAuthority

/-- Whatever the disk held and whatever happened since, recorded decisions and plans in flight
are under the current epoch and the current policy. -/
theorem underAuthority_of_reaches {R : Registry} {config : FederationConfig}
    {disk : Option Bytes} {env : Environment} {f g : Federation}
    (opened : openOn R config disk env = .ok f) (run : Reaches anyEvent f g) :
    UnderAuthority g := by
  refine reaches_of_atRest ?_ ?_ ?_ ?_ opened run
  · intro f rest
    exact rest.underAuthority
  · intro f store under
    exact ⟨under.decisions, under.plans⟩
  · intro f under
    exact ⟨under.decisions, under.plans⟩
  · intro f env c g under _ change
    exact underAuthority_of_change under change

open Sample in
/-- A plan was authored and verified. -/
theorem underAuthority_verifiedOnce : UnderAuthority verifiedOnce :=
  underAuthority_of_reaches openOn_eq (reaches_verifiedOnce.mono fun _ _ _ => trivial)

/-! ### Capability generations -/

/-- The member exists and has reached a capability generation. -/
def HasReached (f : Federation) (a : AcceleratorId) (generation : CapabilityGeneration) : Prop :=
  ∃ entry, f.members.get? a = some entry ∧
    generation.value ≤ entry.record.capabilityGeneration.value

/-- Nothing is bound to a capability generation that its member has not reached. -/
structure BoundBelow (f : Federation) : Prop where
  sources : ∀ k plan, f.plans.get? k = some plan →
    HasReached f plan.source plan.sourceCapabilityGeneration
  destinations : ∀ k plan, f.plans.get? k = some plan →
    HasReached f plan.destination plan.destinationCapabilityGeneration
  decisions : ∀ k d, f.decisions.get? k = some d →
    HasReached f d.accelerator d.capabilityGeneration

/-- No command takes a capability generation back. -/
theorem MemberStep.grows {env : Environment}
    {after : Option MemberEntry}
    (step : MemberStep f env c (some entry) after) :
    ∃ entry', after = some entry' ∧
      entry.record.capabilityGeneration.value ≤ entry'.record.capabilityGeneration.value := by
  cases step with
  | same => exact ⟨entry, rfl, UInt64.le_refl _⟩
  | superseded now open_ => exact ⟨_, rfl, UInt64.le_refl _⟩
  | observedAgain valid same open_ boot found derived =>
      refine ⟨_, rfl, ?_⟩
      rw [MemberEntry.observedAgain]
      split
      · exact entry.record.capabilityGeneration.value_le_next
      · exact UInt64.le_refl _
  | moved named legal => exact ⟨_, rfl, UInt64.le_refl _⟩
  | updated named open_ valid witnessed subject provenance digest =>
      exact ⟨_, rfl, entry.record.capabilityGeneration.value_le_next⟩
  | underPolicy => exact ⟨_, rfl, UInt64.le_refl _⟩
  | drained stored source working => exact ⟨_, rfl, UInt64.le_refl _⟩

theorem HasReached.of_change {env : Environment}
    {a : AcceleratorId} {generation : CapabilityGeneration} (reached : HasReached f a generation)
    (change : Change f env c g) : HasReached g a generation := by
  obtain ⟨entry, found, below⟩ := reached
  have step := change.member a
  rw [found] at step
  obtain ⟨entry', found', grown⟩ := step.grows
  exact ⟨entry', found', UInt64.le_trans below grown⟩

theorem boundBelow_of_change {env : Environment}
    (bound : BoundBelow f) (change : Change f env c g) : BoundBelow g := by
  constructor
  · intro k plan stored
    rcases change.plan_cases stored with ⟨earlier, found, continues⟩ | ⟨authored, _⟩
    · rw [continues.fields]
      exact (bound.sources k earlier found).of_change change
    · obtain ⟨entry, origin, same⟩ := authored.origin
      exact HasReached.of_change ⟨entry, origin, same ▸ UInt64.le_refl _⟩ change
  · intro k plan stored
    rcases change.plan_cases stored with ⟨earlier, found, continues⟩ | ⟨authored, _⟩
    · rw [continues.fields]
      exact (bound.destinations k earlier found).of_change change
    · obtain ⟨entry, goal, same⟩ := authored.goal
      exact HasReached.of_change ⟨entry, goal, same ▸ UInt64.le_refl _⟩ change
  · intro k d recorded
    rcases change.decision_cases recorded with found | decided
    · exact (bound.decisions k d found).of_change change
    · obtain ⟨entry, target, same⟩ := decided.target
      exact HasReached.of_change ⟨entry, target, same ▸ UInt64.le_refl _⟩ change

theorem boundBelow_fresh (R : Registry) (config : FederationConfig) (disk : Option Bytes)
    (env : Environment) : BoundBelow (constructed R config disk env).fresh := by
  constructor
  all_goals
    intro k item found
    exact absurd found (by simp [fresh, constructed])

/-- Bindings stay below the generations of their members through calls and restarts. -/
theorem durable_boundBelow : Durable anyEvent BoundBelow where
  stored f store bound := ⟨bound.sources, bound.destinations, bound.decisions⟩
  bumped f bound := ⟨bound.sources, bound.destinations, bound.decisions⟩
  changed f env c g bound _ change := boundBelow_of_change bound change
  fresh _ R config disk env _ := boundBelow_fresh R config disk env
  restarted _ R config disk env g report _ bound _ := by
    have kept : ∀ a generation, HasReached g a generation →
        HasReached ((constructed R config disk env).restarted g env report) a generation := by
      rintro a generation ⟨entry, found, below⟩
      refine ⟨g.restoredIn env entry, ?_, below⟩
      rw [members_restarted, found]
      rfl
    constructor
    · intro k plan stored
      rw [plans_restarted] at stored
      obtain ⟨saved, found, rfl⟩ := Option.map_eq_some_iff.mp stored
      rw [(saved.continues_abortIfOpen _).fields]
      exact kept _ _ (bound.sources k saved found)
    · intro k plan stored
      rw [plans_restarted] at stored
      obtain ⟨saved, found, rfl⟩ := Option.map_eq_some_iff.mp stored
      rw [(saved.continues_abortIfOpen _).fields]
      exact kept _ _ (bound.destinations k saved found)
    · intro k d recorded
      exact absurd recorded (by simp [restarted, constructed])

/-! ### Changes of capabilities -/

/-- The command advertises capabilities of a member. -/
def Command.advertises : Command → Bool
  | .observe _ _ | .updateCapabilities _ _ _ _ => true
  | _ => false

/-- A change of the capabilities of a member between two states shows: the capability
generation has grown, and nothing recorded about the member before is current after it. -/
structure ChangeShows (f g : Federation) (a : AcceleratorId) (entry entry' : MemberEntry) :
    Prop where
  grown : entry.record.capabilityGeneration.value < entry'.record.capabilityGeneration.value
  plans : ∀ id plan, f.plans.get? id = some plan → plan.source = a ∨ plan.destination = a →
    g.migrationPlanIsCurrent id ≠ .ok true
  decisions : ∀ id d, f.decisions.get? id = some d → d.accelerator = a →
    g.decisionIsCurrent id ≠ .ok true

/-- Stored capabilities change their digest only together with the next generation. -/
theorem MemberStep.capabilityGeneration_of_digest {env : Environment}
    {entry' : MemberEntry}
    (step : MemberStep f env c (some entry) (some entry'))
    (changed : entry'.descriptor.capabilities.digest ≠ entry.descriptor.capabilities.digest) :
    entry'.record.capabilityGeneration = entry.record.capabilityGeneration.next := by
  cases step with
  | same => exact absurd rfl changed
  | superseded now open_ => exact absurd rfl changed
  | observedAgain valid same open_ boot found derived =>
      rw [MemberEntry.observedAgain] at changed ⊢
      split
      · rfl
      · rename_i equal
        rw [if_neg equal] at changed
        exact absurd (not_not.mp equal).symm changed
  | moved named legal => exact absurd rfl changed
  | updated named open_ valid witnessed subject provenance digest => rfl
  | underPolicy => exact absurd rfl changed
  | drained stored source working => exact absurd rfl changed

/-- Advertising leaves the recorded decisions and plans alone. -/
theorem Change.tables_of_advertises {env : Environment}
    (change : Change f env c g) (advertises : c.advertises = true) :
    g.plans = f.plans ∧ g.decisions = f.decisions := by
  cases change with
  | enrolled | observedAgain | updated => exact ⟨rfl, rfl⟩
  | moved | policy | workload | evaluated | planned | advanced | aborted | swept | persisted
  | shutdown => cases advertises

/-- A decision that is current is bound to the capability generation of its member. -/
theorem capabilityGeneration_of_isCurrent {id : DecisionId}
    {d : CompatibilityDecision} (recorded : f.decisions.get? id = some d)
    (found : f.members.get? d.accelerator = some entry)
    (current : f.decisionIsCurrent id = .ok true) :
    d.capabilityGeneration = entry.record.capabilityGeneration := by
  simp only [decisionIsCurrent, recorded, found] at current
  split at current
  · rename_i same _
    cases same
    simp only [CompatibilityDecision.isCurrent, Except.ok.injEq, Bool.and_eq_true,
      decide_eq_true_eq] at current
    exact current.1.1.2
  · cases current

/-- Once the generation of a member has grown, nothing bound below it is current. -/
theorem changeShows_of_grown {a : AcceleratorId} {entry' : MemberEntry}
    (bound : BoundBelow f) (plans : g.plans = f.plans) (decisions : g.decisions = f.decisions)
    (before : f.members.get? a = some entry) (after : g.members.get? a = some entry')
    (grown : entry.record.capabilityGeneration.value < entry'.record.capabilityGeneration.value) :
    ChangeShows f g a entry entry' := by
  -- a binding to the generation of the new entry would be above that of the old one
  have outdated : ∀ generation : CapabilityGeneration, HasReached f a generation →
      generation ≠ entry'.record.capabilityGeneration := by
    rintro generation ⟨_, found, below⟩ same
    rw [before] at found
    cases found
    rw [same] at below
    exact absurd grown (UInt64.not_lt.mpr below)
  refine ⟨grown, ?_, ?_⟩
  · intro id plan stored named current
    rw [← plans] at stored
    obtain ⟨_, _, source, destination, origin, goal, _, _, sourceSet, destinationSet⟩ :=
      (migrationPlanIsCurrent_iff stored).mp current
    rw [plans] at stored
    rcases named with rfl | rfl
    · rw [after] at origin
      cases origin
      exact outdated _ (bound.sources id plan stored) sourceSet
    · rw [after] at goal
      cases goal
      exact outdated _ (bound.destinations id plan stored) destinationSet
  · intro id d recorded named current
    subst named
    rw [← decisions] at recorded
    have same := capabilityGeneration_of_isCurrent recorded after current
    rw [decisions] at recorded
    exact outdated _ (bound.decisions id d recorded) same

/-- In every run on a store that was empty, a changed advertisement shows exactly if the
capability generation of the member was not at its maximum. -/
theorem changeShows_iff {R : Registry} {config : FederationConfig} {env₀ env : Environment}
    {f g : Federation} (opened : openOn R config none env₀ = .ok f) (run : Reaches anyEvent f g)
    {c : Command} (advertises : c.advertises = true) {a : AcceleratorId}
    {entry entry' : MemberEntry} (before : g.members.get? a = some entry)
    (after : (g.execute c env).state.members.get? a = some entry')
    (changed : entry'.descriptor.capabilities.digest ≠ entry.descriptor.capabilities.digest) :
    ChangeShows g (g.execute c env).state a entry entry' ↔
      entry.record.capabilityGeneration.value ≠ Generation.maxValue := by
  have bound := durable_boundBelow.reaches opened (boundBelow_fresh R config none env₀) run
  have unmoved : g.members.get? a = some entry' → entry = entry' := by
    intro same
    rw [before] at same
    exact Option.some.inj same
  obtain ⟨h, change, members, plans, decisions⟩ : ∃ h, Change g env c h ∧
      (g.execute c env).state.members = h.members ∧ (g.execute c env).state.plans = h.plans ∧
      (g.execute c env).state.decisions = h.decisions := by
    rcases (g.execute_conduct c env).state_cases with same | ⟨_, bump⟩ | ⟨h, change, left⟩
    · rw [same] at after
      rw [unmoved after] at changed
      exact absurd rfl changed
    · cases bump
      cases advertises
    · rcases left with same | written
      · exact ⟨h, change, by rw [same], by rw [same], by rw [same]⟩
      · exact ⟨h, change, by rw [written]; rfl, by rw [written]; rfl, by rw [written]; rfl⟩
  have generation : entry'.record.capabilityGeneration =
      entry.record.capabilityGeneration.next := by
    have step := change.member a
    rw [before, ← members, after] at step
    exact step.capabilityGeneration_of_digest changed
  obtain ⟨samePlans, sameDecisions⟩ := change.tables_of_advertises advertises
  constructor
  · intro shows top
    have grown := shows.grown
    rw [generation, Generation.next_of_max top] at grown
    exact UInt64.lt_irrefl _ grown
  · intro below
    apply changeShows_of_grown bound (plans.trans samePlans) (decisions.trans sameDecisions)
      before after
    rw [generation]
    exact Generation.value_lt_next below

/-! ### An advertisement at the last generation -/

namespace Sample

/-- Fewer capabilities than before. -/
def vendorOnly : CapabilitySet :=
  { id := capabilitySetIdentity vendorRecords []
    generation := ⟨1⟩
    records := vendorRecords
    records_canonical := by decide +kernel
    identified := .inl rfl }

/-- The first boot advertises the device with other capabilities. -/
def reduced : AcceleratorDescriptor := { first with capabilities := vendorOnly }

/-- The first boot advertises the device with the last capability generation there is. -/
def saturated : AcceleratorDescriptor :=
  { first with capabilities := capabilities.setGeneration ⟨Generation.maxValue⟩ }

def observedSaturated : Federation := (opened.enrolled saturated env).saved env

theorem byFirst_saturated : ByFirst saturated := by
  have valid := AcceleratorDescriptor.validate_eq_ok.mp validate_first
  exact ⟨AcceleratorDescriptor.validate_eq_ok.mpr (valid.setGeneration _), rfl, rfl, rfl, rfl, rfl⟩

theorem execute_saturated :
    (opened.execute (.observe saturated claim) env).state = observedSaturated :=
  byFirst_saturated.execute

/-- The first member is advertised with fewer capabilities, and its generations before and
after. -/
def Reduced (f : Federation) (earlier later : CapabilityGeneration) : Prop :=
  ∃ entry, f.members.get? firstId = some entry ∧
    ∃ entry', (f.execute (.observe reduced claim) env).state.members.get? firstId = some entry' ∧
      entry'.descriptor.capabilities.digest ≠ entry.descriptor.capabilities.digest ∧
      entry.record.capabilityGeneration = earlier ∧ entry'.record.capabilityGeneration = later

instance (f : Federation) (earlier later : CapabilityGeneration) :
    Decidable (Reduced f earlier later) := by
  unfold Reduced
  infer_instance

theorem reduced_observedOnce : Reduced observedOnce ⟨1⟩ ⟨2⟩ := by decide +kernel

/-- There is no next generation. -/
theorem reduced_observedSaturated :
    Reduced observedSaturated ⟨Generation.maxValue⟩ ⟨Generation.maxValue⟩ := by
  decide +kernel

end Sample

open Sample in
/-- The capabilities change at the first generation. -/
theorem changeShows_reduced : ∃ entry entry', observedOnce.members.get? firstId = some entry ∧
    (observedOnce.execute (.observe reduced claim) env).state.members.get? firstId = some entry' ∧
    ChangeShows observedOnce (observedOnce.execute (.observe reduced claim) env).state firstId
      entry entry' := by
  obtain ⟨entry, found, entry', found', changed, generation, _⟩ := reduced_observedOnce
  refine ⟨entry, entry', found, found', ?_⟩
  refine (changeShows_iff openOn_eq
    (.next (e := .call (.observe first claim) env) .refl trivial execute_first.symm) rfl found
    found' changed).mpr ?_
  rw [generation]
  decide

open Sample in
/-- At the last generation other capabilities are taken over without any sign of it. -/
theorem saturated_change_hidden : ∃ f g entry entry', openOn .core config none env = .ok f ∧
    Reaches anyEvent f g ∧ g.members.get? firstId = some entry ∧
    (g.execute (.observe reduced claim) env).state.members.get? firstId = some entry' ∧
    entry'.descriptor.capabilities.digest ≠ entry.descriptor.capabilities.digest ∧
    ¬ ChangeShows g (g.execute (.observe reduced claim) env).state firstId entry entry' := by
  obtain ⟨entry, found, entry', found', changed, generation, generation'⟩ :=
    reduced_observedSaturated
  refine ⟨opened, observedSaturated, entry, entry', openOn_eq,
    .next (e := .call (.observe saturated claim) env) .refl trivial execute_saturated.symm, found,
    found', changed, fun shows => ?_⟩
  have grown := shows.grown
  rw [generation, generation'] at grown
  exact UInt64.lt_irrefl _ grown

end Haf
