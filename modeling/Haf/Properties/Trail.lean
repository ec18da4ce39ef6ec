/-
# The trail of a member

Every move of a member through its lifecycle leaves a line in its history. The history is
sorted before it is cut to its length, so that what is cut is the line that sorts last and not
the oldest one; a commit does not cut it at all.
-/

import Haf.Properties.Authority
import Haf.Properties.Footprint

namespace Haf

attribute [local irreducible] Sha256.hash

open Federation Sequence

/-! ### Lines -/

/-- Fewer lines of the history than are kept sort before the line. -/
def MemberRecord.HasRoom (record : MemberRecord) (line : Bytes) : Prop :=
  record.history.countP (· < line) < maxHistoryEntries

theorem mem_remember {history : List Bytes} {line : Bytes} :
    line ∈ remember history line ↔ history.countP (· < line) < maxHistoryEntries := by
  have listed : line ∈ ascending (history ++ [line]) := by simp
  have sorted : (ascending (history ++ [line])).Pairwise (· ≤ ·) := pairwise_sortOn _ _
  rw [remember, mem_take_iff sorted listed, (perm_sortOn _ _).countP_eq, List.countP_append,
    List.countP_singleton, if_neg (by simp), Nat.add_zero]
  convert Iff.rfl

theorem length_remember_le (history : List Bytes) (line : Bytes) :
    (remember history line).length ≤ maxHistoryEntries := List.length_take_le _ _

def supersededText (successor : AcceleratorId) : Bytes :=
  text "RETIRED superseded-by " ++ successor.toText

def recoveredText (state : MemberState) (epoch : CoordinatorEpoch) : Bytes :=
  text "RECOVERED " ++ state.toText ++ text " epoch=" ++ decimal epoch.value.toNat

/-- The line by which an event records a change of state. -/
def changeLine (source : MemberState) (later : MemberRecord) : Event → Bytes
  | .call (.transition _ _ _) _ => transitionText source later.state
  | .call (.observe d _) _ => supersededText d.id
  | .call _ _ => text "DRAINING migration-commit"
  | .reopen _ _ _ => recoveredText later.state later.epoch

/-- The state of a member before an event; before a restart, as it is stored. -/
def Federation.stateBefore (f : Federation) (a : AcceleratorId) : Event → Option MemberState
  | .call _ _ => (f.members.get? a).map (·.record.state)
  | .reopen R _ _ => do
      let payload ← f.store.payload
      let stored ← (decodeSnapshot R payload).toOption
      (stored.members.find? (·.accelerator = a)).map (·.state)

/-! ### What is demanded, and when it is met -/

def HistoriesBounded (f : Federation) : Prop :=
  ∀ a entry, f.members.get? a = some entry → entry.record.history.length ≤ maxHistoryEntries

/-- Every member whose state the event changed has the line for it. -/
def Traced (f : Federation) (e : Event) (g : Federation) : Prop :=
  ∀ a source entry, f.stateBefore a e = some source → g.members.get? a = some entry →
    entry.record.state ≠ source → changeLine source entry.record e ∈ entry.record.history

def Succeeds (f : Federation) : Event → Prop
  | .call c env => ∃ reply, (f.execute c env).result = .ok reply
  | .reopen _ _ _ => True

/-- The members that the event moves have room for the line. -/
def RoomToTrace (f : Federation) : Event → Prop
  | .call (.transition a target _) _ => ∀ entry, f.members.get? a = some entry →
      entry.record.state ≠ target →
      entry.record.HasRoom (transitionText entry.record.state target)
  | .call (.observe d _) _ => f.members.get? d.id = none →
      ∀ a ∈ f.incarnations d.physicalDevice, ∀ entry, f.members.get? a = some entry →
        entry.record.agent = d.agent → entry.record.state.isTerminal = false →
        entry.record.HasRoom (supersededText d.id)
  | .call _ _ => True
  | .reopen R _ _ => ∀ payload stored, f.store.payload = some payload →
      decodeSnapshot R payload = .ok stored →
      ∀ a record, stored.members.find? (·.accelerator = a) = some record →
        (stored.findDescriptor a).isSome = true → record.state.afterRestart ≠ record.state →
        record.HasRoom (recoveredText record.state.afterRestart stored.epoch.next)

/-- The history of a source that a commit drains is not full. -/
def RoomToDrain (f : Federation) : Event → Prop
  | .call (.advanceMigration planId .committed claim) _ =>
      Passes f (.advanceMigration planId .committed claim) →
      ∀ plan entry, f.plans.get? planId = some plan → plan.state ≠ .committed →
        f.members.get? plan.source = some entry →
        entry.record.state = .active ∨ entry.record.state = .degraded →
        entry.record.history.length < maxHistoryEntries
  | _ => True

/-! ### Calls -/

section Calls

variable {f : Federation} {env : Environment}

variable {c : Command} {g : Federation}

/-- A step of a member keeps its history within bounds, if a commit has room. -/
theorem MemberStep.bounded {before : Option MemberEntry} {later : MemberEntry}
    (step : MemberStep f env c before (some later))
    (bounded : ∀ entry, before = some entry → entry.record.history.length ≤ maxHistoryEntries)
    (drains : ∀ planId claim plan entry, c = .advanceMigration planId .committed claim →
      f.plans.get? planId = some plan → before = some entry →
      plan.source = entry.record.accelerator →
      entry.record.state = .active ∨ entry.record.state = .degraded →
      entry.record.history.length < maxHistoryEntries) :
    later.record.history.length ≤ maxHistoryEntries := by
  cases step with
  | same => exact bounded later rfl
  | joined =>
      show (ascending [text "DISCOVERED", text "OBSERVED"]).length ≤ maxHistoryEntries
      rw [length_sortOn]
      decide
  | superseded | moved | updated => exact length_remember_le _ _
  | @underPolicy _ _ entry => exact bounded entry rfl
  | @observedAgain _ _ entry =>
      rw [MemberEntry.observedAgain]
      split
      · exact length_remember_le _ _
      · exact bounded entry rfl
  | drained stored source working =>
      show (ascending _).length ≤ maxHistoryEntries
      rw [length_sortOn, List.length_append]
      exact drains _ _ _ _ rfl stored rfl source working

/-- An advance of a plan to another state drains its source. -/
theorem members_of_settled {planId : MigrationPlanId} {target : MigrationState}
    {claim : AuthorityClaim} {s : Settled MigrationPlan} {plan : MigrationPlan}
    (settled : f.settleAdvanceMigration planId target claim env = .ok s)
    (stored : f.plans.get? planId = some plan) (moves : plan.state ≠ target) :
    ∃ source, f.members.get? plan.source = some source ∧
      (f.execute (.advanceMigration planId target claim) env).state.members =
        f.drainedMembers source target (env.wall .member) := by
  rcases settleAdvanceMigration_eq_ok settled with ⟨plan', stored', same, _⟩ |
    ⟨plan', g, rfl, change⟩
  · cases Option.some.inj (stored.symm.trans stored')
    exact absurd same moves
  · obtain ⟨store, state⟩ : ∃ store, (f.conclude env
        (f.settleAdvanceMigration planId target claim env)).state = { g with store } :=
      state_of_conclude settled
    have members : (f.execute (.advanceMigration planId target claim) env).state.members =
        g.members := (congrArg Federation.members state).trans rfl
    cases change with
    | advanced _ stored' _ origin =>
        cases Option.some.inj (stored.symm.trans stored')
        exact ⟨_, origin, members⟩

/-- An advance that does anything passes its checks and moves the plan. -/
theorem passes_of_advance {planId : MigrationPlanId} {target : MigrationState}
    {claim : AuthorityClaim} {plan : MigrationPlan} (stored : f.plans.get? planId = some plan)
    (active : (f.execute (.advanceMigration planId target claim) env).state ≠ f) :
    Passes f (.advanceMigration planId target claim) ∧ plan.state ≠ target := by
  have left : (f.execute (.advanceMigration planId target claim) env).state =
      (f.conclude env (f.settleAdvanceMigration planId target claim env)).state := rfl
  rw [left] at active
  cases settled : f.settleAdvanceMigration planId target claim env with
  | error status =>
      rw [settled] at active
      exact absurd rfl active
  | ok s =>
      refine ⟨(settleAdvanceMigration_ok_iff env).mp ⟨s, settled⟩, fun same => ?_⟩
      rcases settleAdvanceMigration_eq_ok settled with ⟨_, _, _, rfl⟩ | ⟨_, g, rfl, change⟩
      · rw [settled] at active
        exact absurd rfl active
      · cases change with
        | advanced _ stored' _ _ _ _ legal =>
            cases Option.some.inj (stored.symm.trans stored')
            rw [same] at legal
            revert legal
            cases target <;> decide

theorem bounded_of_call (bounded : HistoriesBounded f)
    (room : RoomToDrain f (.call c env)) : HistoriesBounded (f.execute c env).state := by
  intro a later found
  by_cases idle : (f.execute c env).state = f
  · rw [idle] at found
    exact bounded a later found
  · have step := f.member_of_execute c env a
    rw [found] at step
    refine step.bounded (fun entry => bounded a entry) ?_
    rintro planId claim plan entry rfl stored before source working
    obtain ⟨passes, moves⟩ := passes_of_advance stored idle
    have key := Keyed.key_of_get? before
    rw [← key, ← source] at before
    exact room passes plan entry stored moves before working

/-- A commit with a full history makes it too long. -/
theorem room_of_bounded (bounded : HistoriesBounded (f.execute c env).state) :
    RoomToDrain f (.call c env) := by
  cases c with
  | advanceMigration planId target claim =>
      cases target with
      | committed =>
          intro passes plan entry stored moves found working
          obtain ⟨s, settled⟩ := (settleAdvanceMigration_ok_iff env).mpr passes
          obtain ⟨source, origin, members⟩ := members_of_settled settled stored moves
          cases Option.some.inj (found.symm.trans origin)
          have key := Keyed.key_of_get? found
          have drained : f.drainedMembers entry .committed (env.wall .member) =
              f.members.insert (entry.drained (env.wall .member)) :=
            if_pos (by simpa using working)
          have later : (f.execute (.advanceMigration planId .committed claim) env).state.members.get?
              plan.source = some (entry.drained (env.wall .member)) := by
            rw [members, drained, Keyed.get?_insert]
            exact if_pos key
          have long := bounded _ _ later
          rw [MemberEntry.drained, length_sortOn, List.length_append] at long
          exact long
      | _ => trivial
  | _ => trivial

/-- What is demanded of a call, in terms of the entries before and after it. -/
theorem traced_call_iff : Traced f (.call c env) g ↔
    ∀ a entry later, f.members.get? a = some entry → g.members.get? a = some later →
      later.record.state ≠ entry.record.state →
      changeLine entry.record.state later.record (.call c env) ∈ later.record.history := by
  constructor
  · intro traced a entry later found
    exact traced a _ later (congrArg (Option.map _) found)
  · intro traced a source later before
    obtain ⟨entry, found, rfl⟩ := Option.map_eq_some_iff.mp before
    exact traced a entry later found

theorem traced_store {e : Event} (store : Store) :
    Traced f e { g with store } ↔ Traced f e g := Iff.rfl

/-- A call that leaves the members alone leaves nothing to trace. -/
theorem traced_of_members (members : g.members = f.members) :
    Traced f (.call c env) g := by
  refine traced_call_iff.mpr fun a entry later found found' moved => ?_
  rw [members, found] at found'
  cases found'
  exact absurd rfl moved

/-- A transition that succeeds leaves its line exactly if there is room. -/
theorem traced_transition_iff {a : AcceleratorId} {target : MemberState} {claim : AuthorityClaim}
    (succeeded : Succeeds f (.call (.transition a target claim) env)) :
    Traced f (.call (.transition a target claim) env)
        (f.execute (.transition a target claim) env).state ↔
      RoomToTrace f (.call (.transition a target claim) env) := by
  obtain ⟨reply, result⟩ := succeeded
  obtain ⟨value, result⟩ := Outcome.result_of_map result
  obtain ⟨s, settled⟩ := settled_of_conclude result
  have left : (f.execute (.transition a target claim) env).state =
      (f.conclude env (f.settleTransition a target claim env)).state := rfl
  rw [left]
  rcases settleTransition_eq_ok settled with ⟨entry, found, same, rfl⟩ | ⟨record, g, rfl, change⟩
  · refine iff_of_true (traced_of_members ?_) ?_
    · rw [settled]
      rfl
    · intro entry' found' moved
      cases Option.some.inj (found.symm.trans found')
      exact absurd same moved
  · obtain ⟨store, state⟩ := state_of_conclude (f := f) settled
    rw [state, traced_store, traced_call_iff]
    cases change with
    | @moved _ _ _ entry found authority legal =>
        have named := Keyed.key_of_get? found
        have key : (entry.moved f target (env.wall .member)).record.accelerator = a := named
        have later : (f.withMember (entry.moved f target (env.wall .member))).members.get? a =
            some (entry.moved f target (env.wall .member)) := by
          rw [withMember, Keyed.get?_insert, if_pos key]
        constructor
        · intro traced entry' found' moved
          cases Option.some.inj (found.symm.trans found')
          exact mem_remember.mp (traced a entry _ found later (Ne.symm moved))
        · intro room k entry' later' found' after moved
          by_cases here : a = k
          · subst here
            cases Option.some.inj (found.symm.trans found')
            cases Option.some.inj (later.symm.trans after)
            exact mem_remember.mpr (room entry found (Ne.symm moved))
          · have other : f.members.get? k = some later' := by
              rw [← after]
              exact (Keyed.get?_insert_of_ne _ (by rwa [key])).symm
            cases Option.some.inj (found'.symm.trans other)
            exact absurd rfl moved

/-- An advertisement that succeeds leaves a line with every predecessor it retires exactly if
they have room. -/
theorem traced_observe_iff {d : AcceleratorDescriptor} {claim : AuthorityClaim}
    (succeeded : Succeeds f (.call (.observe d claim) env)) :
    Traced f (.call (.observe d claim) env) (f.execute (.observe d claim) env).state ↔
      RoomToTrace f (.call (.observe d claim) env) := by
  obtain ⟨reply, result⟩ := succeeded
  obtain ⟨value, result⟩ := Outcome.result_of_map result
  obtain ⟨s, settled⟩ := settled_of_conclude result
  have left : (f.execute (.observe d claim) env).state =
      (f.conclude env (f.settleObserve d claim env)).state := rfl
  obtain ⟨record, g, rfl, change⟩ := settleObserve_eq_ok settled
  obtain ⟨store, state⟩ := state_of_conclude (f := f) settled
  rw [left, state, traced_store, traced_call_iff]
  cases change with
  | enrolled authority valid derived alone absent =>
      have beyond (k : AcceleratorId) (other : d.id ≠ k) :
          (f.enrolled d env).members.get? k = if k ∈ f.incarnations d.physicalDevice then
            (f.members.get? k).map (·.succeeded d env) else f.members.get? k := by
        rw [← get?_foldl_supersede]
        exact Keyed.get?_insert_of_ne _ other
      have apart {k : AcceleratorId} {entry : MemberEntry} (found : f.members.get? k = some entry) :
          d.id ≠ k := by
        rintro rfl
        cases found.symm.trans absent
      constructor
      · intro traced _ k listed entry found agent open_
        have key := Keyed.key_of_get? found
        have retires : entry.succeeded d env =
            entry.superseded d.id (env.wall (.superseded entry.record.accelerator)) := by
          refine if_pos ?_
          simp [show entry.record.accelerator = k from key, (apart found).symm, agent, open_]
        have later : (f.enrolled d env).members.get? k =
            some (entry.superseded d.id (env.wall (.superseded entry.record.accelerator))) := by
          rw [beyond k (apart found), if_pos listed, found, ← retires]
          rfl
        refine mem_remember.mp (traced k entry _ found later fun same => ?_)
        rw [← show MemberState.retired = entry.record.state from same] at open_
        cases open_
      · intro room k entry later found after moved
        rw [beyond k (apart found), found] at after
        split at after
        · rename_i listed
          have final : entry.succeeded d env = later := Option.some.inj after
          rw [MemberEntry.succeeded] at final
          split at final
          · rename_i retires
            subst final
            simp only [Bool.and_eq_true, decide_eq_true_eq, Bool.not_eq_true'] at retires
            exact mem_remember.mpr (room absent k listed entry found retires.1.2 retires.2)
          · subst final
            exact absurd rfl moved
        · cases after
          exact absurd rfl moved
  | @observedAgain _ _ entry authority valid found same =>
      refine iff_of_true ?_ fun absent => ?_
      · intro k entry' later found' after moved
        obtain ⟨state, key, _⟩ := entry.record_observedAgain f d same (env.wall .member)
        rw [withMember, Keyed.get?_insert] at after
        split at after
        · rename_i here
          rw [← here, key, ← same, found] at found'
          cases found'
          cases after
          exact absurd state moved
        · cases Option.some.inj (found'.symm.trans after)
          exact absurd rfl moved
      · cases found.symm.trans absent

/-- Any other call leaves a line for whatever it does to the state of a member. -/
theorem traced_of_other (moves : ∀ a target claim, c ≠ .transition a target claim)
    (observes : ∀ d claim, c ≠ .observe d claim) :
    Traced f (.call c env) (f.execute c env).state := by
  refine traced_call_iff.mpr fun a entry later found after moved => ?_
  have step := f.member_of_execute c env a
  rw [found, after] at step
  cases step with
  | same | updated | underPolicy => exact absurd rfl moved
  | superseded | observedAgain => exact absurd rfl (observes _ _)
  | moved => exact absurd rfl (moves _ _ _)
  | drained => exact mem_sortOn.mpr (List.mem_append_right _ (List.mem_singleton.mpr rfl))

theorem traced_iff_of_call (succeeded : Succeeds f (.call c env)) :
    Traced f (.call c env) (f.execute c env).state ↔ RoomToTrace f (.call c env) := by
  cases c with
  | transition a target claim => exact traced_transition_iff succeeded
  | observe d claim => exact traced_observe_iff succeeded
  | _ =>
      refine iff_of_true (traced_of_other ?_ ?_) trivial
      · rintro _ _ _ ⟨⟩
      · rintro _ _ ⟨⟩

end Calls

/-! ### Opening -/

/-- Opening cuts every history, and leaves a line with every member whose state it changes
exactly if there is room. -/
theorem trail_of_open {f g : Federation} {R : Registry} {config : FederationConfig}
    {disk : Option Bytes} {env : Environment} (opened : openOn R config disk env = .ok g)
    (payload : f.store.payload = (constructed R config disk env).store.payload) :
    HistoriesBounded g ∧
      (Traced f (.reopen R config env) g ↔ RoomToTrace f (.reopen R config env)) := by
  obtain ⟨h, written, restored⟩ := openOn_eq_ok opened
  have members : g.members = h.members := by
    rcases persistLocked_cases written with rfl | ⟨_, rfl⟩
    · rfl
    · rfl
  rcases restored with ⟨empty, rfl⟩ | ⟨bytes, t, present, decoded, _, rfl⟩
  · rw [empty] at payload
    refine ⟨?_, iff_of_true ?_ ?_⟩
    · intro a entry found
      rw [members, show (constructed R config disk env).fresh.members = .empty from rfl,
        Keyed.get?_empty] at found
      cases found
    · intro a source entry before
      rw [stateBefore, payload] at before
      cases before
    · intro bytes stored present
      rw [payload] at present
      cases present
  · rw [present] at payload
    have before (a : AcceleratorId) : f.stateBefore a (.reopen R config env) =
        (t.members.find? (·.accelerator = a)).map (·.state) := by
      rw [stateBefore, payload]
      show (decodeSnapshot R bytes).toOption.bind _ = _
      rw [decoded]
      rfl
    have after (a : AcceleratorId) : g.members.get? a =
        (t.members.find? (·.accelerator = a)).bind (t.restoredMember env) := by
      rw [members, ← FederationSnapshot.get?_restoredEntries]
      rfl
    refine ⟨?_, ?_, ?_⟩
    · intro a entry found
      rw [after] at found
      obtain ⟨record, _, made⟩ := Option.bind_eq_some_iff.mp found
      obtain ⟨d, _, rfl⟩ := FederationSnapshot.restoredMember_eq_some.mp made
      exact length_remember_le _ _
    · intro traced bytes' stored present' decoded' a record first described moved
      cases Option.some.inj (payload.symm.trans present')
      cases Except.ok.inj (decoded.symm.trans decoded')
      have key : record.accelerator = a := by simpa using List.find?_some first
      rw [← key, ← t.isSome_restoredMember env record] at described
      obtain ⟨entry, restored⟩ := Option.isSome_iff_exists.mp described
      have known : f.stateBefore a (.reopen R config env) = some record.state := by
        rw [before, first]
        rfl
      have found : g.members.get? a = some entry := by
        rw [after, first]
        exact restored
      obtain ⟨d, located, rfl⟩ := FederationSnapshot.restoredMember_eq_some.mp restored
      exact mem_remember.mp (traced a record.state _ known found moved)
    · intro room a source entry known found moved
      rw [before] at known
      rw [after] at found
      obtain ⟨record, first, rfl⟩ := Option.map_eq_some_iff.mp known
      rw [first, Option.bind_some] at found
      obtain ⟨d, located, rfl⟩ := FederationSnapshot.restoredMember_eq_some.mp found
      have key : record.accelerator = a := by simpa using List.find?_some first
      refine mem_remember.mpr (room bytes t payload decoded a record first ?_ moved)
      rw [← key, located]
      rfl

/-! ### Runs -/

theorem trail_of_step {f g : Federation} {e : Event} (bounded : HistoriesBounded f)
    (taken : Step f e g) : (HistoriesBounded g ↔ RoomToDrain f e) ∧
      (Succeeds f e → (Traced f e g ↔ RoomToTrace f e)) := by
  cases e with
  | call c env =>
      rw [show g = (f.execute c env).state from taken]
      exact ⟨⟨room_of_bounded, bounded_of_call bounded⟩, traced_iff_of_call⟩
  | reopen R config env =>
      obtain ⟨_, file, opened⟩ := taken
      have store : (constructed R config f.store.payload env).store =
          if config.storePath.isEmpty then ⟨.memory, none⟩ else ⟨.file, f.store.payload⟩ := rfl
      rw [if_neg (by simpa using file)] at store
      obtain ⟨cut, traced⟩ := trail_of_open (f := f) opened (by rw [store])
      exact ⟨iff_of_true cut trivial, fun _ => traced⟩

/-- **Histories are bounded and keep the latest event** throughout a run, from its opening on,
exactly if every commit finds room in the history of the source that it drains, and every other
event that succeeds finds, for each member that it moves, fewer lines than are kept that sort
before the new one. -/
theorem latest_kept_iff {R : Registry} {config : FederationConfig} {disk : Option Bytes}
    {env : Environment} {f g : Federation} {taken : List (Federation × Event × Federation)}
    (opened : openOn R config disk env = .ok f) (run : Run.Passage Step f taken g) :
    (∀ x ∈ (constructed R config disk env, Event.reopen R config env, f) :: taken,
        HistoriesBounded x.2.2 ∧ (Succeeds x.1 x.2.1 → Traced x.1 x.2.1 x.2.2)) ↔
      ∀ x ∈ (constructed R config disk env, Event.reopen R config env, f) :: taken,
        RoomToDrain x.1 x.2.1 ∧ (Succeeds x.1 x.2.1 → RoomToTrace x.1 x.2.1) := by
  obtain ⟨cut, first⟩ := trail_of_open opened rfl
  rw [List.forall_mem_cons, List.forall_mem_cons]
  have start : HistoriesBounded f ∧ (Succeeds (constructed R config disk env)
        (.reopen R config env) → Traced (constructed R config disk env) (.reopen R config env) f) ↔
      RoomToDrain (constructed R config disk env) (.reopen R config env) ∧
        (Succeeds (constructed R config disk env) (.reopen R config env) →
          RoomToTrace (constructed R config disk env) (.reopen R config env)) :=
    and_congr (iff_of_true cut trivial) (imp_congr_right fun _ => first)
  have sound : ∀ s e t, HistoriesBounded s → Step s e t →
      RoomToDrain s e ∧ (Succeeds s e → RoomToTrace s e) →
      (HistoriesBounded t ∧ (Succeeds s e → Traced s e t)) ∧ HistoriesBounded t := by
    intro s e t bounded step room
    obtain ⟨drains, traces⟩ := trail_of_step bounded step
    have cut := drains.mpr room.1
    exact ⟨⟨cut, fun succeeds => (traces succeeds).mpr (room.2 succeeds)⟩, cut⟩
  have complete : ∀ s e t, HistoriesBounded s → Step s e t →
      HistoriesBounded t ∧ (Succeeds s e → Traced s e t) →
      RoomToDrain s e ∧ (Succeeds s e → RoomToTrace s e) := by
    intro s e t bounded step kept
    obtain ⟨drains, traces⟩ := trail_of_step bounded step
    exact ⟨drains.mp kept.1, fun succeeds => (traces succeeds).mp (kept.2 succeeds)⟩
  exact and_congr start (run.forall_iff cut sound complete)

namespace Sample

/-- The first member is activated and then degraded and activated again, over and over. -/
def wavering : List Call :=
  [(.transition firstId .admitted claim, env), (.transition firstId .active claim, env)] ++
    (List.replicate 31 [(.transition firstId .degraded claim, env),
      (.transition firstId .active claim, env)]).flatten ++
    [(.transition firstId .degraded claim, env)]

def wavered : Federation := observedOnce.after wavering

/-- The member is to be drained at last. -/
abbrev drainedAtLast : Outcome Reply := wavered.execute (.transition firstId .draining claim) env

theorem history_drainedAtLast : drainedAtLast.result.isOk = true ∧
    (wavered.members.get? firstId).map (·.record.state) = some .degraded ∧
    ∃ later, drainedAtLast.state.members.get? firstId = some later ∧
      later.record.state = .draining ∧ text "DEGRADED->DRAINING" ∉ later.record.history := by
  decide +kernel

theorem reaches_wavered : Reaches anyEvent opened wavered :=
  .trans (.next (e := .call (.observe first claim) env) .refl trivial execute_first.symm)
    (reaches_after _ _ fun _ _ _ _ => trivial)

end Sample

open Sample in
/-- A transition that succeeds and leaves no line. -/
theorem latest_lost : Reaches anyEvent opened wavered ∧ drainedAtLast.result.isOk = true ∧
    ¬ Traced wavered (.call (.transition firstId .draining claim) env) drainedAtLast.state := by
  obtain ⟨succeeds, before, later, found, state, silent⟩ := history_drainedAtLast
  refine ⟨reaches_wavered, succeeds, fun traced => silent ?_⟩
  have line := traced firstId .degraded later before found (by rw [state]; decide)
  rw [changeLine, state] at line
  exact line

open Sample in
theorem latest_kept_wavered : ∃ taken, Run.Passage Step opened taken wavered ∧
    ((∀ x ∈ (constructed .core config none env, Event.reopen .core config env, opened) :: taken,
        HistoriesBounded x.2.2 ∧ (Succeeds x.1 x.2.1 → Traced x.1 x.2.1 x.2.2)) ↔
      ∀ x ∈ (constructed .core config none env, Event.reopen .core config env, opened) :: taken,
        RoomToDrain x.1 x.2.1 ∧ (Succeeds x.1 x.2.1 → RoomToTrace x.1 x.2.1)) := by
  obtain ⟨taken, run⟩ := Run.Passage.exists_of_reaches reaches_wavered
  exact ⟨taken, run, latest_kept_iff openOn_eq run⟩

end Haf
