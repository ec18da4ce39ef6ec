/-
# Retirement and revival

A retired member stays in the table as what it was, through calls and restarts, and
no call that names it changes it again. A member that comes back after a restart is
not active; but nothing makes the coordinator look at its device again before the
member is activated.
-/

import Haf.Properties.Epochs

namespace Haf

attribute [local irreducible] Sha256.hash

open Federation Sequence

/-! ### Retirement -/

/-- The member is retired, and otherwise what an earlier entry says. -/
structure MemberEntry.RetiredAs (past entry : MemberEntry) : Prop where
  retired : entry.record.state = .retired
  agent : entry.record.agent = past.record.agent
  agentBoot : entry.record.agentBoot = past.record.agentBoot
  deviceGeneration : entry.record.deviceGeneration = past.record.deviceGeneration
  capabilities : entry.descriptor.capabilities = past.descriptor.capabilities
  describedAgent : entry.descriptor.agent = past.descriptor.agent
  describedBoot : entry.descriptor.agentBoot = past.descriptor.agentBoot
  describedGeneration : entry.descriptor.generation = past.descriptor.generation

/-- No call that names the member changes it; only retiring it once more is accepted. -/
structure Immutable (f : Federation) (a : AcceleratorId) : Prop where
  observe : ∀ d claim env record, d.id = a → (f.observe d claim env).result ≠ .ok record
  updateCapabilities : ∀ capabilities evidence claim env record,
    (f.updateCapabilities a capabilities evidence claim env).result ≠ .ok record
  transition : ∀ target claim env record, (f.transition a target claim env).result = .ok record →
    target = .retired ∧ (f.transition a target claim env).state = f

theorem MemberState.isLegalTransition_retired (target : MemberState) :
    MemberState.retired.isLegalTransition target = false := by
  cases target <;> rfl

variable {c : Command} {entry : MemberEntry} {f : Federation}

theorem MemberStep.retiredAs {env : Environment}
    {past : MemberEntry} {after : Option MemberEntry}
    (step : MemberStep f env c (some entry) after) (before : past.RetiredAs entry) :
    ∃ entry', after = some entry' ∧ past.RetiredAs entry' := by
  have closed : entry.record.state.isTerminal = true := by
    rw [before.retired]
    rfl
  cases step with
  | same => exact ⟨entry, rfl, before⟩
  | superseded now open_ => exact absurd (closed.symm.trans open_) (by decide)
  | observedAgain valid same open_ boot found derived =>
      exact absurd (closed.symm.trans open_) (by decide)
  | moved named legal =>
      rw [before.retired, MemberState.isLegalTransition_retired] at legal
      cases legal
  | updated named open_ valid witnessed subject provenance digest =>
      exact absurd (closed.symm.trans open_) (by decide)
  | underPolicy =>
      exact ⟨_, rfl, before.retired, before.agent, before.agentBoot, before.deviceGeneration,
        before.capabilities, before.describedAgent, before.describedBoot,
        before.describedGeneration⟩
  | drained stored source working =>
      rw [before.retired] at working
      rcases working with active | degraded
      · cases active
      · cases degraded

theorem MemberEntry.RetiredAs.restoredIn {past : MemberEntry} (f : Federation)
    (env : Environment) (before : past.RetiredAs entry) :
    past.RetiredAs (f.restoredIn env entry) := by
  refine ⟨?_, before.agent, before.agentBoot, before.deviceGeneration, before.capabilities,
    before.describedAgent, before.describedBoot, before.describedGeneration⟩
  show entry.record.state.afterRestart = .retired
  rw [before.retired]
  rfl

/-- A change of a retired member by a call that names it is impossible. -/
theorem no_change_of_retired {g : Federation} {env : Environment}
    (found : f.members.get? entry.record.accelerator = some entry)
    (retired : entry.record.state = .retired) (change : Change f env c g) :
    (∀ d claim, c = .observe d claim → d.id ≠ entry.record.accelerator) ∧
      (∀ capabilities evidence claim,
        c ≠ .updateCapabilities entry.record.accelerator capabilities evidence claim) ∧
      ∀ target claim, c ≠ .transition entry.record.accelerator target claim := by
  have closed : entry.record.state.isTerminal = true := by
    rw [retired]
    rfl
  refine ⟨?_, ?_, ?_⟩
  · rintro d claim rfl same
    cases change with
    | enrolled authority valid derived alone absent =>
        rw [same, found] at absent
        cases absent
    | observedAgain authority valid located named open_ unfenced boot derived =>
        rw [same, found] at located
        cases located
        exact absurd (closed.symm.trans open_) (by decide)
  · rintro capabilities evidence claim rfl
    cases change with
    | updated located authority unfenced open_ valid witnessed subject provenance digest =>
        rw [found] at located
        cases located
        exact absurd (closed.symm.trans open_) (by decide)
  · rintro target claim rfl
    cases change with
    | moved located authority legal =>
        rw [found] at located
        cases located
        rw [retired, MemberState.isLegalTransition_retired] at legal
        cases legal

theorem immutable_of_retired {a : AcceleratorId}
    (found : f.members.get? a = some entry) (retired : entry.record.state = .retired) :
    Immutable f a := by
  have key := Keyed.key_of_get? found
  subst key
  constructor
  · intro d claim env record same succeeded
    obtain ⟨s, settled⟩ := settled_of_conclude succeeded
    obtain ⟨_, g, _, change⟩ := settleObserve_eq_ok settled
    exact (no_change_of_retired found retired change).1 d claim rfl same
  · intro capabilities evidence claim env record succeeded
    obtain ⟨s, settled⟩ := settled_of_conclude succeeded
    obtain ⟨_, g, _, change⟩ := settleUpdateCapabilities_eq_ok settled
    exact (no_change_of_retired found retired change).2.1 capabilities evidence claim rfl
  · intro target claim env record succeeded
    obtain ⟨s, settled⟩ := settled_of_conclude succeeded
    rcases settleTransition_eq_ok settled with ⟨entry', located, same, rfl⟩ | ⟨_, g, _, change⟩
    · rw [found] at located
      cases located
      refine ⟨same.symm.trans retired, ?_⟩
      rw [transition, settled]
      rfl
    · exact absurd rfl ((no_change_of_retired found retired change).2.2 target claim)

/-- In every run in the default mode without faults, from whatever disk, a retired member stays
in the table as it was, and no call that names it changes it. -/
theorem retired_forever {R : Registry} {config : FederationConfig} {disk : Option Bytes}
    {env : Environment} {f₀ f g : Federation} (opened : openOn R config disk env = .ok f₀)
    (enabled : config.persist = true) (immediate : config.persistOnMutation = true)
    (before : Reaches WritesThrough f₀ f) {a : AcceleratorId} {past : MemberEntry}
    (found : f.members.get? a = some past) (retired : past.record.state = .retired)
    (run : Reaches WritesThrough f g) :
    (∃ entry, g.members.get? a = some entry ∧ past.RetiredAs entry) ∧ Immutable g a := by
  have start : past.RetiredAs past := ⟨retired, rfl, rfl, rfl, rfl, rfl, rfl, rfl⟩
  have later : ∃ entry, g.members.get? a = some entry ∧ past.RetiredAs entry := by
    apply member_keeps_of_reaches _ _ _ opened enabled immediate before ⟨past, found, start⟩ run
    · intro f env c entry after _ step kept
      exact step.retiredAs kept
    · intro f env entry kept
      exact kept.restoredIn f env
    · intro f e permitted
      exact permitted
  obtain ⟨entry, located, kept⟩ := later
  exact ⟨⟨entry, located, kept⟩, immutable_of_retired located kept.retired⟩

namespace Sample

/-- The first member has been retired. -/
def retiredOnce : Federation := observedOnce.after [(.transition firstId .retired claim, env)]

theorem state_retiredOnce : ∃ past, retiredOnce.members.get? firstId = some past ∧
    past.record.state = .retired := by
  decide +kernel

end Sample

open Sample in
/-- The device is advertised once more after its member retired. -/
theorem retired_forever_advertised : ∃ past,
    retiredOnce.members.get? firstId = some past ∧ past.record.state = .retired ∧
    let g := (retiredOnce.execute (.observe first claim) env).state
    (∃ entry, g.members.get? firstId = some entry ∧ past.RetiredAs entry) ∧
      Immutable g firstId := by
  obtain ⟨past, found, retired⟩ := state_retiredOnce
  have start : Reaches WritesThrough opened retiredOnce :=
    .next (e := .call (.transition firstId .retired claim) env)
      (.next (e := .call (.observe first claim) env) .refl (fault_of_memory rfl _ _)
        execute_first.symm) (fault_of_memory rfl _ _) rfl
  have memory : retiredOnce.store.kind = .memory := by decide +kernel
  exact ⟨past, found, retired, retired_forever openOn_eq rfl rfl start found retired
    (.next (e := .call (.observe first claim) env) .refl (fault_of_memory memory _ _) rfl)⟩

/-! ### Revival -/

/-- The member whose device a command makes the coordinator look at again. -/
def Command.revalidates : Command → Option AcceleratorId
  | .observe d _ => some d.id
  | .updateCapabilities a _ _ _ => some a
  | _ => none

/-- A federation together with the members it was opened with, and those of which a device has
been looked at again since. -/
structure Watched where
  federation : Federation
  restored : List AcceleratorId
  revalidated : List AcceleratorId

namespace Watched

def opened (f : Federation) : Watched :=
  ⟨f, f.members.values.map (·.record.accelerator), []⟩

def called (w : Watched) (c : Command) (env : Environment) : Watched :=
  { w with
    federation := (w.federation.execute c env).state
    revalidated :=
      if (w.federation.execute c env).result.isOk then c.revalidates.toList ++ w.revalidated
      else w.revalidated }

/-- The events of a federation, watched. -/
def Step (w : Watched) : Event → Watched → Prop
  | .call c env, v => v = w.called c env
  | .reopen R config env, v => ∃ g, Haf.Step w.federation (.reopen R config env) g ∧ v = opened g

/-- A restored member is activated only once its device has been looked at again. -/
def RevalidatesFirst (w : Watched) : Event → Prop
  | .call (.transition a .active _) _ => a ∈ w.restored → a ∈ w.revalidated
  | _ => True

/-- Of every restored member that is active, the device has been looked at again. -/
def ActiveRevalidated (w : Watched) : Prop :=
  ∀ a entry, a ∈ w.restored → w.federation.members.get? a = some entry →
    entry.record.acceptsNewWork = true → a ∈ w.revalidated

end Watched

theorem MemberState.afterRestart_ne_active (state : MemberState) :
    state.afterRestart ≠ .active := by
  cases state <;> decide

/-- No member of a federation that was just opened is active. -/
theorem idle_of_open {R : Registry} {config : FederationConfig} {disk : Option Bytes}
    {env : Environment} {g : Federation} (opened : openOn R config disk env = .ok g)
    {a : AcceleratorId} (found : g.members.get? a = some entry) :
    entry.record.acceptsNewWork = false := by
  obtain ⟨f, written, restored⟩ := openOn_eq_ok opened
  have same : f.members.get? a = some entry := by
    rcases persistLocked_cases written with rfl | ⟨_, rfl⟩
    · exact found
    · exact found
  rcases restored with ⟨_, rfl⟩ | ⟨_, t, _, _, _, rfl⟩
  · rw [fresh, constructed, Keyed.get?_empty] at same
    cases same
  · rw [recovered, Keyed.get?_ofList] at same
    have listed := List.mem_of_find?_eq_some same
    obtain ⟨stored, _, filed⟩ := List.mem_filterMap.mp listed
    split at filed
    · cases filed
    · cases filed
      simpa [MemberRecord.acceptsNewWork, restoredEntry] using
        stored.state.afterRestart_ne_active

/-- A member becomes active only by a transition that says so. -/
theorem MemberStep.active {env : Environment}
    {before : Option MemberEntry}
    (step : MemberStep f env c before (some entry))
    (active : entry.record.acceptsNewWork = true) :
    before.any (·.record.acceptsNewWork) = true ∨
      ∃ claim, c = .transition entry.record.accelerator .active claim := by
  cases step with
  | same => exact .inl active
  | joined valid derived => cases active
  | superseded now open_ => cases active
  | observedAgain valid same open_ boot found derived =>
      rw [MemberRecord.acceptsNewWork, (MemberEntry.record_observedAgain _ f _ same _).1] at active
      exact .inl active
  | @moved a target claim earlier named legal =>
      have target : target = .active := by
        simpa [MemberRecord.acceptsNewWork, MemberEntry.moved] using active
      subst target
      exact .inr ⟨claim, by rw [← named]; rfl⟩
  | updated named open_ valid witnessed subject provenance digest => exact .inl active
  | underPolicy => exact .inl active
  | drained stored source working => cases active

namespace Watched

theorem activeRevalidated_opened {R : Registry} {config : FederationConfig}
    {disk : Option Bytes} {env : Environment} {f : Federation}
    (started : openOn R config disk env = .ok f) : (opened f).ActiveRevalidated := by
  intro a entry _ found active
  rw [idle_of_open started found] at active
  cases active

theorem activeRevalidated_called {w : Watched} {c : Command} {env : Environment}
    (before : w.ActiveRevalidated) (first : w.RevalidatesFirst (.call c env)) :
    (w.called c env).ActiveRevalidated := by
  intro a entry restored found active
  -- nothing is taken off the list
  have grows : a ∈ w.revalidated → a ∈ (w.called c env).revalidated := by
    intro listed
    rw [called]
    dsimp only
    split
    · exact List.mem_append_right _ listed
    · exact listed
  apply grows
  rcases (w.federation.execute_conduct c env).state_cases with same | ⟨moved, _⟩ |
    ⟨h, change, left⟩
  · rw [called, same] at found
    exact before a entry restored found active
  · rw [called, moved] at found
    exact before a entry restored found active
  · have located : h.members.get? a = some entry := by
      rcases left with same | written
      · rw [called, same] at found
        exact found
      · rw [called, written] at found
        exact found
    have step := change.member a
    rw [located] at step
    rcases step.active active with earlier | ⟨claim, rfl⟩
    · cases known : w.federation.members.get? a with
      | none =>
          rw [known] at earlier
          cases earlier
      | some entry₀ =>
          rw [known] at earlier
          exact before a entry₀ restored known earlier
    · have key := Keyed.key_of_get? located
      rw [← key] at restored ⊢
      exact first restored

end Watched

namespace Sample

/-- The first member is activated, and the state is written. -/
def activation : List Call := [
  (.observe first claim, env), (.transition firstId .admitted claim, env),
  (.transition firstId .active claim, env), (.persist, env)]

/-- What the file then holds. -/
def activePayload : Option Bytes := (openedDeferred.after activation).store.payload

/-- The claim of the coordinator after the restart. -/
def laterClaim : AuthorityClaim := epochOnlyClaim ⟨2⟩

/-- The restart degrades the member, and a bare transition makes it active. -/
theorem revived : ∃ f, openOn .core deferred activePayload env = .ok f ∧
    let w := (Watched.opened f).called (.transition firstId .active laterClaim) env
    firstId ∈ w.restored ∧ firstId ∉ w.revalidated ∧ ∃ entry,
      w.federation.members.get? firstId = some entry ∧ entry.record.acceptsNewWork = true := by
  decide +kernel

end Sample

end Haf
