/-
# The physical index and the footprint of a call

Observing reaches the other incarnations of a device through an index that is kept
next to the member table. The index lists exactly the members of each device, so
that searching it is scanning the table. With that, every successful call is known to
touch the members it names, those it supersedes, and no others.
-/

import Haf.Properties.LiveBoot

namespace Haf

open Federation Sequence

/-- The table has a member with an identity on a device. -/
def OnDevice (members : MemberTable) (device : PhysicalDeviceId) (a : AcceleratorId) : Prop :=
  ∃ entry, members.get? a = some entry ∧ entry.record.physicalDevice = device

/-- The index lists precisely the members of each device, each once. -/
structure IndexExact (f : Federation) : Prop where
  nodup : ∀ device, (f.incarnations device).Nodup
  mem_iff : ∀ device a, a ∈ f.incarnations device ↔ OnDevice f.members device a

/-! ### Tables -/

variable {entry : MemberEntry} {f g : Federation} {c : Command}

theorem onDevice_insert {members : MemberTable} {entry' : MemberEntry}
    (found : members.get? entry'.record.accelerator = some entry)
    (same : entry'.record.physicalDevice = entry.record.physicalDevice)
    (device : PhysicalDeviceId) (a : AcceleratorId) :
    OnDevice (members.insert entry') device a ↔ OnDevice members device a := by
  by_cases here : entry'.record.accelerator = a
  · subst here
    simp [OnDevice, found, same]
  · simp [OnDevice, here]

/-- A new member is on its own device, whatever was there before. -/
theorem onDevice_insert_absent {members : MemberTable}
    (absent : members.get? entry.record.accelerator = none) (device : PhysicalDeviceId)
    (a : AcceleratorId) : OnDevice (members.insert entry) device a ↔
      (a = entry.record.accelerator ∧ entry.record.physicalDevice = device) ∨
        OnDevice members device a := by
  by_cases here : entry.record.accelerator = a
  · subst here
    simp [OnDevice, absent]
  · simp [OnDevice, here, Ne.symm here]

theorem onDevice_underPolicy (f : Federation) (p : FederationPolicy) (device : PhysicalDeviceId)
    (a : AcceleratorId) :
    OnDevice (f.underPolicy p).members device a ↔ OnDevice f.members device a := by
  simp [OnDevice, Federation.underPolicy, MemberEntry.underPolicy]

/-! ### Superseding -/

/-- An incarnation once a new one by the same agent has joined: retired, unless it is already. -/
def MemberEntry.succeeded (d : AcceleratorDescriptor) (env : Environment) (entry : MemberEntry) :
    MemberEntry :=
  if entry.record.accelerator ≠ d.id && entry.record.agent = d.agent &&
      !entry.record.state.isTerminal then
    entry.superseded d.id (env.wall (.superseded entry.record.accelerator))
  else entry

/-- The same, found by scanning: an incarnation of another device is left alone. -/
def MemberEntry.succeededOn (d : AcceleratorDescriptor) (env : Environment)
    (entry : MemberEntry) : MemberEntry :=
  if entry.record.physicalDevice = d.physicalDevice then entry.succeeded d env else entry

theorem MemberEntry.accelerator_succeeded (d : AcceleratorDescriptor) (env : Environment)
    (entry : MemberEntry) : (entry.succeeded d env).record.accelerator =
      entry.record.accelerator := by
  rw [succeeded]
  split <;> rfl

theorem MemberEntry.device_succeeded (d : AcceleratorDescriptor) (env : Environment)
    (entry : MemberEntry) : (entry.succeeded d env).record.physicalDevice =
      entry.record.physicalDevice := by
  rw [succeeded]
  split <;> rfl

theorem MemberEntry.accelerator_succeededOn (d : AcceleratorDescriptor) (env : Environment)
    (entry : MemberEntry) : (entry.succeededOn d env).record.accelerator =
      entry.record.accelerator := by
  rw [succeededOn]
  split
  · exact entry.accelerator_succeeded d env
  · rfl

/-- A retired incarnation is not retired again. -/
theorem MemberEntry.succeeded_succeeded (d : AcceleratorDescriptor) (env : Environment)
    (entry : MemberEntry) : (entry.succeeded d env).succeeded d env = entry.succeeded d env := by
  by_cases open_ : (entry.record.accelerator ≠ d.id && entry.record.agent = d.agent &&
      !entry.record.state.isTerminal) = true
  · have retired : entry.succeeded d env =
        entry.superseded d.id (env.wall (.superseded entry.record.accelerator)) := by
      rw [succeeded, if_pos open_]
    rw [retired, succeeded, if_neg (by simp [superseded, MemberState.isTerminal])]
  · have kept : entry.succeeded d env = entry := by rw [succeeded, if_neg open_]
    rw [kept, kept]

/-- One round of the loop retires the candidate, if there is one. -/
theorem get?_supersede (d : AcceleratorDescriptor) (env : Environment) (members : MemberTable)
    (candidate k : AcceleratorId) : (supersede d env members candidate).get? k =
      if k = candidate then (members.get? k).map (·.succeeded d env) else members.get? k := by
  rw [supersede]
  split
  · rename_i missing
    by_cases here : k = candidate
    · rw [if_pos here, here, missing]
      rfl
    · rw [if_neg here]
  · rename_i entry found
    have key := Keyed.key_of_get? found
    by_cases here : k = candidate
    · subst here
      rw [if_pos rfl, found, Option.map_some, MemberEntry.succeeded, key]
      split
      · rw [Keyed.get?_insert]
        exact if_pos key
      · exact found
    · rw [if_neg here]
      split
      · rw [Keyed.get?_insert]
        exact if_neg fun same => here (same.symm.trans key)
      · rfl

/-- The whole loop retires the candidates, each at most once. -/
theorem get?_foldl_supersede (d : AcceleratorDescriptor) (env : Environment)
    (candidates : List AcceleratorId) (members : MemberTable) (k : AcceleratorId) :
    (candidates.foldl (supersede d env) members).get? k =
      if k ∈ candidates then (members.get? k).map (·.succeeded d env) else members.get? k := by
  induction candidates generalizing members with
  | nil => simp
  | cons candidate rest ih =>
      rw [List.foldl_cons, ih, get?_supersede]
      by_cases here : k = candidate
      · have listed : k ∈ candidate :: rest := here ▸ List.mem_cons_self
        have twice : MemberEntry.succeeded d env ∘ MemberEntry.succeeded d env =
            MemberEntry.succeeded d env := by
          funext entry
          exact entry.succeeded_succeeded d env
        rw [if_pos here, if_pos listed, Option.map_map, twice, ite_self]
      · simp [here]

/-! ### The index after a call -/

theorem incarnations_insert (f : Federation) (index : PhysicalIndex) (device : PhysicalDeviceId)
    (ids : List AcceleratorId) (other : PhysicalDeviceId)
    (same : index = f.physicalIndex.insert device ids) :
    ((index[other]?).getD []) = if device = other then ids else f.incarnations other := by
  rw [same, incarnations, Std.ExtTreeMap.getElem?_insert]
  by_cases here : device = other
  · simp [here]
  · simp [here]

theorem IndexExact.of_members (exact_ : IndexExact f)
    (index : g.physicalIndex = f.physicalIndex)
    (members : ∀ device a, OnDevice g.members device a ↔ OnDevice f.members device a) :
    IndexExact g := by
  have lists : ∀ device, g.incarnations device = f.incarnations device := by
    intro device
    rw [incarnations, index, incarnations]
  constructor
  · intro device
    rw [lists]
    exact exact_.nodup device
  · intro device a
    rw [lists, members]
    exact exact_.mem_iff device a

/-- Joining appends the new incarnation to the list of its device. -/
theorem indexExact_enrolled {d : AcceleratorDescriptor} (env : Environment)
    (exact_ : IndexExact f) (absent : f.members.get? d.id = none) :
    IndexExact (f.enrolled d env) := by
  have lists : ∀ device, (f.enrolled d env).incarnations device =
      if d.physicalDevice = device then f.incarnations d.physicalDevice ++ [d.id]
      else f.incarnations device := by
    intro device
    exact incarnations_insert f _ d.physicalDevice _ device rfl
  have unlisted : d.id ∉ f.incarnations d.physicalDevice := by
    intro listed
    obtain ⟨entry, found, _⟩ := (exact_.mem_iff d.physicalDevice d.id).mp listed
    rw [absent] at found
    cases found
  have superseded : ∀ device a, OnDevice ((f.incarnations d.physicalDevice).foldl
      (supersede d env) f.members) device a ↔ OnDevice f.members device a := by
    intro device a
    rw [OnDevice, OnDevice, get?_foldl_supersede]
    split
    · simp [MemberEntry.device_succeeded]
    · rfl
  have members : ∀ device a, OnDevice (f.enrolled d env).members device a ↔
      (a = d.id ∧ d.physicalDevice = device) ∨ OnDevice f.members device a := by
    intro device a
    rw [← superseded]
    apply onDevice_insert_absent
    rw [get?_foldl_supersede]
    split
    · rw [show (f.enrolledRecord d (env.wall .member)).accelerator = d.id from rfl, absent]
      rfl
    · exact absent
  constructor
  · intro device
    rw [lists]
    split
    · apply (exact_.nodup d.physicalDevice).append (List.nodup_singleton _)
      simpa using unlisted
    · exact exact_.nodup device
  · intro device a
    rw [lists, members, ← exact_.mem_iff]
    split
    · rename_i here
      simp [here, or_comm]
    · rename_i elsewhere
      simp [elsewhere]

theorem indexExact_withMember {entry' : MemberEntry}
    (exact_ : IndexExact f) (found : f.members.get? entry'.record.accelerator = some entry)
    (same : entry'.record.physicalDevice = entry.record.physicalDevice) :
    IndexExact (f.withMember entry') :=
  exact_.of_members rfl (onDevice_insert found same)

theorem indexExact_of_change {env : Environment}
    (exact_ : IndexExact f) (change : Change f env c g) : IndexExact g := by
  cases change with
  | enrolled authority valid derived alone absent => exact indexExact_enrolled env exact_ absent
  | @observedAgain d claim entry authority valid found same open_ unfenced boot derived =>
      obtain ⟨_, key, device, _⟩ := entry.record_observedAgain f d same (env.wall .member)
      apply indexExact_withMember exact_ _ device
      rw [key, ← same]
      exact found
  | moved found authority legal =>
      have stored := (congrArg f.members.get? (Keyed.key_of_get? found)).trans found
      exact indexExact_withMember exact_ stored rfl
  | updated found authority unfenced open_ valid witnessed subject provenance digest =>
      have stored := (congrArg f.members.get? (Keyed.key_of_get? found)).trans found
      exact indexExact_withMember exact_ stored rfl
  | @policy p claim authority valid =>
      exact exact_.of_members rfl (onDevice_underPolicy f p.refreshIdentity)
  | @advanced id target claim plan source destination authority stored current origin goal
      endpoints legal =>
      apply exact_.of_members (g := f.advanced plan source target (env.wall .member)) rfl
      intro device a
      rw [Federation.advanced, drainedMembers]
      split
      · have key := Keyed.key_of_get? origin
        have stored : f.members.get? (source.drained (env.wall .member)).record.accelerator =
            some source := (congrArg f.members.get? key).trans origin
        exact onDevice_insert stored rfl device a
      · rfl
  | workload | evaluated | planned | aborted | swept | persisted | shutdown =>
      exact exact_.of_members rfl fun _ _ => Iff.rfl

/-! ### The index after a restart -/

/-- Filing entries one after the other lists, per device, their identities in this order. -/
theorem getD_foldl_index (entries : List MemberEntry) (index : PhysicalIndex)
    (device : PhysicalDeviceId) :
    ((entries.foldl (fun index entry => index.insert entry.record.physicalDevice
        ((index[entry.record.physicalDevice]?).getD [] ++ [entry.record.accelerator])) index)[device]?).getD
          [] =
      (index[device]?).getD [] ++
        (entries.filter (·.record.physicalDevice = device)).map (·.record.accelerator) := by
  induction entries generalizing index with
  | nil => simp
  | cons entry rest ih =>
      rw [List.foldl_cons, ih, Std.ExtTreeMap.getElem?_insert]
      by_cases here : entry.record.physicalDevice = device
      · simp [here]
      · simp [here]

theorem incarnations_indexed {entries : List MemberEntry}
    (index : f.physicalIndex = indexed entries) (device : PhysicalDeviceId) :
    f.incarnations device =
      (entries.filter (·.record.physicalDevice = device)).map (·.record.accelerator) := by
  rw [incarnations, index, indexed, getD_foldl_index]
  simp

/-- An index that was filed from the table itself is exact. -/
theorem indexExact_of_indexed
    (index : f.physicalIndex = indexed f.members.values) : IndexExact f := by
  constructor
  · intro device
    rw [incarnations_indexed index]
    have ordered : (f.members.values.filter (·.record.physicalDevice = device)).Pairwise
        (·.record.accelerator < ·.record.accelerator) := f.pairwise_members.filter _
    exact (List.pairwise_map.mpr ordered).imp fun below => below.ne
  · intro device a
    rw [incarnations_indexed index, List.mem_map]
    constructor
    · rintro ⟨entry, listed, rfl⟩
      obtain ⟨inside, here⟩ := List.mem_filter.mp listed
      exact ⟨entry, Keyed.mem_values.mp inside, of_decide_eq_true here⟩
    · rintro ⟨entry, found, here⟩
      have key := Keyed.key_of_get? found
      exact ⟨entry, List.mem_filter.mpr ⟨Keyed.mem_values_of_get? found, decide_eq_true here⟩, key⟩

theorem indexExact_fresh (R : Registry) (config : FederationConfig) (disk : Option Bytes)
    (env : Environment) : IndexExact (constructed R config disk env).fresh := by
  constructor
  · intro device
    simp [incarnations, fresh, constructed]
  · intro device a
    simp [incarnations, fresh, constructed, OnDevice]

/-- The index stays exact through calls and restarts. -/
theorem durable_indexExact : Durable anyEvent IndexExact where
  stored f store exact_ := exact_.of_members rfl fun _ _ => Iff.rfl
  bumped f exact_ := exact_.of_members rfl fun _ _ => Iff.rfl
  changed f env c g exact_ _ change := indexExact_of_change exact_ change
  fresh _ R config disk env _ := indexExact_fresh R config disk env
  restarted _ R config disk env g report _ _ _ := by
    apply indexExact_of_indexed
    exact congrArg indexed (Keyed.values_map g.members _ (g.accelerator_restoredIn env)).symm

theorem indexExact_of_reaches {R : Registry} {config : FederationConfig} {env : Environment}
    (opened : openOn R config none env = .ok f) (run : Reaches anyEvent f g) :
    IndexExact g :=
  durable_indexExact.reaches opened (indexExact_fresh R config none env) run

/-! ### Searching the index is scanning the table -/

/-- A member that competes with an advertisement for the same device. -/
def MemberEntry.competesWith (entry : MemberEntry) (d : AcceleratorDescriptor) : Bool :=
  entry.record.physicalDevice = d.physicalDevice && entry.record.accelerator ≠ d.id &&
    holdsCompetingAuthority entry.record.state && entry.record.agentBoot ≠ d.agentBoot

theorem IndexExact.competingBoot (exact_ : IndexExact f)
    (d : AcceleratorDescriptor) :
    (f.competingBoot d).isSome = f.members.values.any (·.competesWith d) := by
  rw [Bool.eq_iff_iff, Federation.competingBoot, List.findSome?_isSome_iff, List.any_eq_true]
  constructor
  · rintro ⟨candidate, listed, hit⟩
    obtain ⟨entry, found, device⟩ := (exact_.mem_iff _ candidate).mp listed
    have key := Keyed.key_of_get? found
    refine ⟨entry, Keyed.mem_values_of_get? found, ?_⟩
    rw [found] at hit
    by_cases self : candidate = d.id
    · simp [self] at hit
    · simp only [self, if_false, Option.isSome_ite] at hit
      simp_all [MemberEntry.competesWith]
  · rintro ⟨entry, listed, competes⟩
    have found := Keyed.mem_values.mp listed
    simp only [MemberEntry.competesWith, Bool.and_eq_true, decide_eq_true_eq] at competes
    obtain ⟨⟨⟨device, other⟩, holds⟩, boot⟩ := competes
    refine ⟨entry.record.accelerator, (exact_.mem_iff _ _).mpr ⟨entry, found, device⟩, ?_⟩
    rw [if_neg other, found]
    simp [holds, boot]

/-- The members once the earlier incarnations of an advertised device, found by scanning, have
been retired. -/
def Federation.scanSuperseded (f : Federation) (d : AcceleratorDescriptor) (env : Environment) :
    MemberTable :=
  f.members.map (·.succeededOn d env) (MemberEntry.accelerator_succeededOn d env)

theorem IndexExact.superseded (exact_ : IndexExact f)
    (d : AcceleratorDescriptor) (env : Environment) :
    (f.incarnations d.physicalDevice).foldl (supersede d env) f.members =
      f.scanSuperseded d env := by
  ext1 k
  rw [get?_foldl_supersede, scanSuperseded, Keyed.get?_map]
  cases found : f.members.get? k with
  | none => simp
  | some entry =>
      have listed : k ∈ f.incarnations d.physicalDevice ↔
          entry.record.physicalDevice = d.physicalDevice := by
        rw [exact_.mem_iff, OnDevice, found]
        simp
      simp only [listed, Option.map_some, MemberEntry.succeededOn]
      split
      · rfl
      · rfl

/-- In every state reached from an empty store the physical index lists precisely the members
of each device, each once, and what observing finds through it is what a scan of all members
finds. -/
theorem physicalIndex_exact {R : Registry} {config : FederationConfig} {env₀ : Environment}
    {f g : Federation} (opened : openOn R config none env₀ = .ok f) (run : Reaches anyEvent f g) :
    IndexExact g ∧ ∀ d env,
      (g.competingBoot d).isSome = g.members.values.any (·.competesWith d) ∧
        (g.incarnations d.physicalDevice).foldl (supersede d env) g.members =
          g.scanSuperseded d env := by
  have exact_ := indexExact_of_reaches opened run
  exact ⟨exact_, fun d env => ⟨exact_.competingBoot d, exact_.superseded d env⟩⟩

open Sample in
/-- Both boots are listed under the device they advertise. -/
theorem physicalIndex_exact_observedTwice : IndexExact observedTwice ∧ ∀ d env,
    (observedTwice.competingBoot d).isSome =
        observedTwice.members.values.any (·.competesWith d) ∧
      (observedTwice.incarnations d.physicalDevice).foldl (supersede d env)
        observedTwice.members = observedTwice.scanSuperseded d env :=
  physicalIndex_exact openOn_eq
    (.next (e := .call (.observe second claim) env)
      (.next (e := .call (.observe first claim) env) .refl trivial execute_first.symm) trivial
      execute_second.symm)

/-! ### Footprints -/

/-- What a call may have done to the members, by the members it names. -/
def TouchesOnlyNamed (f g : Federation) (env : Environment) : Command → Prop
  | .observe d _ =>
      (f.members.get? d.id ≠ none → ∀ a ≠ d.id, g.members.get? a = f.members.get? a) ∧
      (f.members.get? d.id = none → ∀ a ≠ d.id, g.members.get? a =
        (f.members.get? a).map fun entry =>
          if entry.record.physicalDevice = d.physicalDevice ∧ entry.record.agent = d.agent ∧
              entry.record.state ≠ .retired then
            entry.superseded d.id (env.wall (.superseded a))
          else entry)
  | .transition a _ _ | .updateCapabilities a _ _ _ =>
      ∀ b ≠ a, g.members.get? b = f.members.get? b
  | .setPolicy _ _ => ∀ a, g.members.get? a =
      (f.members.get? a).map (·.underPolicy g.policy.generation)
  | .advanceMigration planId target _ => ∀ plan, f.plans.get? planId = some plan →
      ∀ a, (target = .committed → a ≠ plan.source) → g.members.get? a = f.members.get? a
  | .registerWorkload _ _ | .evaluate _ _ _ | .planMigration _ _ _ _ | .abortMigration _ _ _
  | .invalidateStaleDecisions | .persist | .shutdown => g.members = f.members

/-- A change touches the members its command names. -/
theorem Change.touchesOnlyNamed {env : Environment}
    (exact_ : IndexExact f) (change : Change f env c g) : TouchesOnlyNamed f g env c := by
  cases change with
  | @enrolled d claim authority valid derived alone absent =>
      refine ⟨fun present => absurd absent present, ?_⟩
      intro _ a other
      have beyond : (f.enrolled d env).members.get? a = (f.scanSuperseded d env).get? a := by
        rw [← exact_.superseded]
        exact Keyed.get?_insert_of_ne _ (Ne.symm other)
      rw [beyond, scanSuperseded, Keyed.get?_map]
      cases found : f.members.get? a with
      | none => rfl
      | some entry =>
          have key := Keyed.key_of_get? found
          simp only [Option.map_some, MemberEntry.succeededOn, MemberEntry.succeeded, key]
          by_cases device : entry.record.physicalDevice = d.physicalDevice
          · simp [device, other, MemberState.isTerminal]
          · simp [device]
  | @observedAgain d claim entry authority valid found same open_ unfenced boot derived =>
      refine ⟨?_, fun absent => absurd (found.symm.trans absent) (by simp)⟩
      intro _ a other
      apply Keyed.get?_insert_of_ne
      rw [(entry.record_observedAgain f d same (env.wall .member)).2.1, ← same]
      exact Ne.symm other
  | @moved a target claim entry found authority legal =>
      intro b other
      apply Keyed.get?_insert_of_ne
      have key := Keyed.key_of_get? found
      intro same
      exact other (same.symm.trans key)
  | @updated a capabilities evidence claim entry found authority unfenced open_ valid witnessed
      subject provenance digest =>
      intro b other
      apply Keyed.get?_insert_of_ne
      have key := Keyed.key_of_get? found
      intro same
      exact other (same.symm.trans key)
  | policy authority valid =>
      intro a
      rw [Federation.underPolicy, Keyed.get?_map]
  | @advanced id target claim plan source destination authority stored current origin goal
      endpoints legal =>
      intro plan' stored' a apart
      rw [stored] at stored'
      cases stored'
      rw [Federation.advanced, drainedMembers]
      split
      · rename_i drains
        simp only [Bool.and_eq_true, decide_eq_true_eq] at drains
        apply Keyed.get?_insert_of_ne
        have key := Keyed.key_of_get? origin
        intro same
        exact apart drains.1 (same.symm.trans key)
      · rfl
  | workload | evaluated | planned | aborted | swept | persisted | shutdown => rfl

theorem Change.policy_of_ne {env : Environment}
    (change : Change f env c g) (other : ∀ p claim, c ≠ .setPolicy p claim) :
    g.policy = f.policy := by
  cases change with
  | policy authority valid => exact absurd rfl (other _ _)
  | enrolled | observedAgain | moved | updated | workload | evaluated | planned | advanced
  | aborted | swept | persisted | shutdown => rfl

/-- A command whose success is always a change of the state. -/
def Command.alwaysChanges : Command → Bool
  | .observe _ _ | .setPolicy _ _ => true
  | _ => false

theorem change_of_success {env : Environment} {reply : Reply}
    (always : c.alwaysChanges = true) (succeeded : (f.execute c env).result = .ok reply) :
    ∃ g, Change f env c g ∧
      ((f.execute c env).state = g ∨ (f.execute c env).state = g.saved env) := by
  cases c with
  | observe d claim =>
      obtain ⟨value, result⟩ := Outcome.result_of_map succeeded
      exact change_of_conclude (fun s => settleObserve_eq_ok) result
  | setPolicy p claim =>
      obtain ⟨value, result⟩ := Outcome.result_of_map succeeded
      exact change_of_conclude (fun s => settleSetPolicy_eq_ok) result
  | transition | updateCapabilities | registerWorkload | evaluate | planMigration
  | advanceMigration | abortMigration | invalidateStaleDecisions | persist | shutdown =>
      cases always

/-- A command that may succeed without a change allows all members to stay. -/
theorem touchesOnlyNamed_of_members {env : Environment}
    (idle : c.alwaysChanges = false) (members : g.members = f.members) :
    TouchesOnlyNamed f g env c := by
  cases c with
  | observe | setPolicy => cases idle
  | transition a target claim =>
      intro b _
      rw [members]
  | updateCapabilities a capabilities evidence claim =>
      intro b _
      rw [members]
  | advanceMigration id target claim =>
      intro plan _ a _
      rw [members]
  | registerWorkload | evaluate | planMigration | abortMigration | invalidateStaleDecisions
  | persist | shutdown => exact members

/-- Footprints only look at members and the policy. -/
theorem TouchesOnlyNamed.congr {h : Federation} {env : Environment}
    (members : h.members = g.members) (policy : h.policy = g.policy)
    (touches : TouchesOnlyNamed f g env c) : TouchesOnlyNamed f h env c := by
  cases c <;> simpa only [TouchesOnlyNamed, members, policy] using touches

/-- In every state reached from an empty store a successful call leaves every member alone but
those it names and, when a new incarnation joins, its predecessors; and no call but a change
of policy changes the policy. -/
theorem touchesOnlyNamed_of_success {R : Registry} {config : FederationConfig}
    {env₀ env : Environment} {f₀ f : Federation} (opened : openOn R config none env₀ = .ok f₀)
    (run : Reaches anyEvent f₀ f) {c : Command} {reply : Reply}
    (succeeded : (f.execute c env).result = .ok reply) :
    TouchesOnlyNamed f (f.execute c env).state env c ∧
      ((∀ p claim, c ≠ .setPolicy p claim) → (f.execute c env).state.policy = f.policy) := by
  have exact_ := indexExact_of_reaches opened run
  -- a change, or a call that left members and policy alone
  have outcome : (c.alwaysChanges = false ∧ (f.execute c env).state.members = f.members ∧
      (f.execute c env).state.policy = f.policy) ∨
      ∃ g, Change f env c g ∧
        ((f.execute c env).state = g ∨ (f.execute c env).state = g.saved env) := by
    cases always : c.alwaysChanges with
    | true => exact .inr (change_of_success always succeeded)
    | false =>
        rcases (f.execute_conduct c env).state_cases with same | ⟨moved, _⟩ | changed
        · exact .inl ⟨rfl, by rw [same], by rw [same]⟩
        · exact .inl ⟨rfl, by rw [moved]; rfl, by rw [moved]; rfl⟩
        · exact .inr changed
  rcases outcome with ⟨idle, members, policy⟩ | ⟨g, change, left⟩
  · exact ⟨touchesOnlyNamed_of_members idle members, fun _ => policy⟩
  · have tables : (f.execute c env).state.members = g.members ∧
        (f.execute c env).state.policy = g.policy := by
      rcases left with same | written
      · rw [same]
        exact ⟨rfl, rfl⟩
      · rw [written]
        exact ⟨rfl, rfl⟩
    refine ⟨(change.touchesOnlyNamed exact_).congr tables.1 tables.2, ?_⟩
    intro other
    rw [tables.2, change.policy_of_ne other]

open Sample in
/-- The second boot advertises the device, and nothing else is touched. -/
theorem touchesOnlyNamed_second :
    TouchesOnlyNamed observedOnce observedTwice env (.observe second claim) ∧
      ((∀ p claim', Command.observe second claim ≠ .setPolicy p claim') →
        observedTwice.policy = observedOnce.policy) := by
  have succeeds : (observedOnce.execute (.observe second claim) env).result.isOk = true := by
    decide +kernel
  cases result : (observedOnce.execute (.observe second claim) env).result with
  | error status =>
      rw [result] at succeeds
      cases succeeds
  | ok reply =>
      rw [← execute_second]
      exact touchesOnlyNamed_of_success openOn_eq
        (.next (e := .call (.observe first claim) env) .refl trivial execute_first.symm) result

end Haf
