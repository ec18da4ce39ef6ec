/-
# Properties that survive calls and restarts

A property of the state in memory is durable if every change keeps it and a
restart of a state with the property has it again. A durable property holds
throughout every run: whatever was written, was written by a state that had it.
-/

import Haf.Federation.Conduct
import Haf.Federation.Restart

namespace Haf

/-- What a change of the state in memory leaves alone. -/
structure Frame (f g : Federation) : Prop where
  registry : g.registry = f.registry
  id : g.id = f.id
  name : g.name = f.name
  epoch : g.epoch = f.epoch
  persistEnabled : g.persistEnabled = f.persistEnabled
  persistOnMutation : g.persistOnMutation = f.persistOnMutation
  maxRecordedDecisions : g.maxRecordedDecisions = f.maxRecordedDecisions
  store : g.store = f.store

variable {f g : Federation}

theorem Change.frame {env : Environment} {c : Command}
    (change : Change f env c g) : Frame f g := by
  cases change <;> constructor <;> rfl

namespace Conduct

variable {f : Federation} {env : Environment} {c : Command} {o : Outcome Reply}

/-- Where a call can leave the federation. -/
theorem state_cases (conduct : Conduct f env c o) :
    o.state = f ∨ (o.state = f.bumped ∧ Bump f env c) ∨
      ∃ g, Change f env c g ∧ (o.state = g ∨ o.state = g.saved env) := by
  cases conduct with
  | refused status => exact .inl rfl
  | kept reply => exact .inl rfl
  | bumped status bump => exact .inr (.inl ⟨rfl, bump⟩)
  | published reply change written =>
      exact .inr (.inr ⟨_, change, (Federation.persistLocked_cases written).imp id And.right⟩)
  | faulted result change failed =>
      exact .inr (.inr ⟨_, change, (Federation.persistLocked_cases failed).imp id And.right⟩)

/-- With persistence on, a call whose write does not fail leaves the store as it was, and then
changes at most the generation, or leaves it with the new state. -/
theorem state_of_written (conduct : Conduct f env c o) (enabled : f.persistEnabled = true)
    (immediate : f.persistOnMutation = true) (accepted : o.fault = none) :
    o.state = f ∨ (o.state = f.bumped ∧ Bump f env c) ∨
      ∃ g, Change f env c g ∧ o.state = g.saved env := by
  cases conduct with
  | refused status => exact .inl rfl
  | kept reply => exact .inl rfl
  | bumped status bump => exact .inr (.inl ⟨rfl, bump⟩)
  | published reply change written =>
      have frame := change.frame
      exact .inr (.inr ⟨_, change, Federation.persistLocked_saved
        (frame.persistEnabled.trans enabled) (.inl (frame.persistOnMutation.trans immediate))
        written⟩)
  | faulted result change failed => cases accepted

/-- A property that does not depend on the store or the generation is kept by a call that
keeps it in memory. -/
theorem keeps {holds : Federation → Prop} (conduct : Conduct f env c o)
    (stored : ∀ g store, holds g → holds { g with store })
    (bumped : ∀ g, holds g → holds g.bumped)
    (changed : ∀ g, Change f env c g → holds g) (now : holds f) : holds o.state := by
  rcases conduct.state_cases with same | ⟨moved, _⟩ | ⟨g, change, same | written⟩
  · rw [same]
    exact now
  · rw [moved]
    exact bumped f now
  · rw [same]
    exact changed g change
  · rw [written]
    exact stored g _ (changed g change)

end Conduct

/-- The payload was written by a federation with a property. -/
def WrittenBy (holds : Federation → Prop) (payload : Bytes) : Prop :=
  ∃ g env, holds g ∧ payload = encodeSnapshot (Federation.snapshotLocked g env)

/-- A property of the state in memory that allowed calls and restarts keep. -/
structure Durable (allowed : Federation → Event → Prop) (holds : Federation → Prop) : Prop where
  stored : ∀ f store, holds f → holds { f with store }
  bumped : ∀ f, holds f → holds f.bumped
  changed : ∀ f env c g, holds f → allowed f (.call c env) → Change f env c g → holds g
  fresh : ∀ f R config disk env, allowed f (.reopen R config env) →
    holds (Federation.constructed R config disk env).fresh
  restarted : ∀ f R config disk env g report, allowed f (.reopen R config env) → holds g →
    g.id = (Federation.constructed R config disk env).id →
    holds ((Federation.constructed R config disk env).restarted g env report)

namespace Durable

variable {allowed : Federation → Event → Prop} {holds : Federation → Prop}
  {f g : Federation} {R : Registry} {config : FederationConfig} {disk : Option Bytes}
  {env : Environment}

/-- The property holds, and held of whatever is in the store when it was written. -/
def Recorded (holds : Federation → Prop) (f : Federation) : Prop :=
  holds f ∧ ∀ payload, f.store.payload = some payload → WrittenBy holds payload

theorem recorded_of_persistLocked (durable : Durable allowed holds) {force : Bool}
    {result : Result Unit} (written : f.persistLocked env force = (result, g))
    (recorded : Recorded holds f) : Recorded holds g := by
  rcases Federation.persistLocked_cases written with rfl | ⟨_, rfl⟩
  · exact recorded
  · refine ⟨durable.stored f _ recorded.1, ?_⟩
    rintro _ ⟨⟩
    exact ⟨f, env, recorded.1, rfl⟩

/-- Opening a store written by federations with the property gives one, if a fresh start and a
restart do. -/
theorem recorded_of_open (durable : Durable allowed holds)
    (opened : Federation.openOn R config disk env = .ok g)
    (history : ∀ payload, disk = some payload → WrittenBy holds payload)
    (fresh : holds (Federation.constructed R config disk env).fresh)
    (restarted : ∀ saved report, holds saved →
      saved.id = (Federation.constructed R config disk env).id →
      holds ((Federation.constructed R config disk env).restarted saved env report)) :
    Recorded holds g := by
  have kept : ∀ payload, (Federation.constructed R config disk env).store.payload =
      some payload → WrittenBy holds payload :=
    fun payload found => history payload (Federation.disk_of_payload found)
  obtain ⟨f, written, ⟨empty, rfl⟩ | ⟨payload, t, found, decoded, owned, rfl⟩⟩ :=
    Federation.openOn_eq_ok opened
  · exact durable.recorded_of_persistLocked written ⟨fresh, kept⟩
  · obtain ⟨saved, env', held, rfl⟩ := kept payload found
    rw [Federation.decoded_eq decoded] at written owned
    have equal := Federation.recovered_readBack (Federation.constructed R config disk env) saved
      env' env
    have same : (Federation.constructed R config disk env).registry = R := rfl
    rw [same] at equal
    rw [equal] at written
    exact durable.recorded_of_persistLocked written ⟨restarted saved _ held owned, kept⟩

theorem recorded_of_step (durable : Durable allowed holds) {e : Event}
    (recorded : Recorded holds f) (permitted : allowed f e) (taken : Step f e g) :
    Recorded holds g := by
  cases e with
  | call c env =>
      rw [show g = (f.execute c env).state from taken]
      refine ⟨(f.execute_conduct c env).keeps durable.stored durable.bumped
        (fun g => durable.changed f env c g recorded.1 permitted) recorded.1, ?_⟩
      rcases (f.execute_conduct c env).state_cases with same | ⟨moved, _⟩ |
        ⟨g, change, same | written⟩
      · rw [same]
        exact recorded.2
      · rw [moved]
        exact recorded.2
      · rw [same, change.frame.store]
        exact recorded.2
      · rw [written]
        rintro _ ⟨⟩
        exact ⟨g, env, durable.changed f env c g recorded.1 permitted change, rfl⟩
  | reopen R config env =>
      obtain ⟨_, _, opened⟩ := taken
      exact durable.recorded_of_open opened recorded.2
        (durable.fresh f R config _ env permitted)
        fun saved report => durable.restarted f R config _ env saved report permitted

/-- On an empty store there is nothing but what a fresh federation writes. -/
theorem recorded_of_empty (durable : Durable allowed holds)
    (opened : Federation.openOn R config none env = .ok f)
    (start : holds (Federation.constructed R config none env).fresh) : Recorded holds f := by
  obtain ⟨f', written, ⟨empty, rfl⟩ | ⟨payload, t, found, _⟩⟩ := Federation.openOn_eq_ok opened
  · refine durable.recorded_of_persistLocked written ⟨start, fun payload found => ?_⟩
    rw [show (Federation.constructed R config none env).fresh.store.payload = none from empty]
      at found
    cases found
  · cases Federation.disk_of_payload found

/-- A durable property that a fresh federation has holds in every state of a run on a store
that was empty. -/
theorem reaches (durable : Durable allowed holds)
    (opened : Federation.openOn R config none env = .ok f)
    (start : holds (Federation.constructed R config none env).fresh)
    (run : Reaches allowed f g) : holds g :=
  (run.invariant (durable.recorded_of_empty opened start)
    fun _ _ _ => durable.recorded_of_step).1

end Durable

/-! ### What opening establishes -/

theorem MigrationPlan.isTerminal_abortIfOpen (plan : MigrationPlan)
    (reason : CompatibilityReason) : (plan.abortIfOpen reason).state.isTerminal = true := by
  rw [abortIfOpen]
  split
  · assumption
  · rfl

/-- Nothing is recorded for an earlier authority: no decision, and no plan in flight. -/
structure AtRest (f : Federation) : Prop where
  decisions : f.decisions = .empty
  plans : ∀ k plan, f.plans.get? k = some plan → plan.state.isTerminal = true

/-- Whatever the disk holds, an opened federation is at rest. -/
theorem atRest_of_open {R : Registry} {config : FederationConfig} {disk : Option Bytes}
    {env : Environment}
    (opened : Federation.openOn R config disk env = .ok g) : AtRest g := by
  obtain ⟨f, written, restored⟩ := Federation.openOn_eq_ok opened
  have rest : AtRest f := by
    rcases restored with ⟨_, rfl⟩ | ⟨_, s, _, _, _, rfl⟩
    · constructor
      · rfl
      · intro k plan stored
        rw [show (Federation.constructed R config disk env).fresh.plans = .empty from rfl,
          Keyed.get?_empty] at stored
        cases stored
    · constructor
      · rfl
      · intro k plan stored
        rw [Federation.recovered, Keyed.get?_ofList] at stored
        obtain ⟨saved, _, rfl⟩ := List.mem_map.mp (List.mem_of_find?_eq_some stored)
        exact saved.isTerminal_abortIfOpen _
  rcases Federation.persistLocked_cases written with rfl | ⟨_, rfl⟩
  · exact rest
  · exact ⟨rest.decisions, rest.plans⟩

/-- A property of every federation at rest that allowed changes keep holds whenever the
federation has been opened, on any disk. -/
theorem reaches_of_atRest {allowed : Federation → Event → Prop} {holds : Federation → Prop}
    (rest : ∀ f, AtRest f → holds f) (stored : ∀ f store, holds f → holds { f with store })
    (bumped : ∀ f, holds f → holds f.bumped)
    (changed : ∀ f env c g, holds f → allowed f (.call c env) → Change f env c g → holds g)
    {R : Registry} {config : FederationConfig} {disk : Option Bytes} {env : Environment}
    (opened : Federation.openOn R config disk env = .ok f)
    (run : Reaches allowed f g) : holds g := by
  apply run.invariant (rest f (atRest_of_open opened))
  intro f e g now permitted taken
  cases e with
  | call c env =>
      rw [show g = (f.execute c env).state from taken]
      exact (f.execute_conduct c env).keeps stored bumped
        (fun g => changed f env c g now permitted) now
  | reopen R config env =>
      obtain ⟨_, _, opened⟩ := taken
      exact rest g (atRest_of_open opened)

/-! ### What the store holds -/

/-- The payload in the store encodes a state that agrees with the current one in a view. -/
def Backed {α : Type} (view : Federation → α) (f : Federation) : Prop :=
  ∃ g env, f.store.payload = some (encodeSnapshot (Federation.snapshotLocked g env)) ∧
    view g = view f

/-- Every change is written at once, and the store is in step with a view. -/
structure Published {α : Type} (view : Federation → α) (f : Federation) : Prop where
  enabled : f.persistEnabled = true
  immediate : f.persistOnMutation = true
  backed : Backed view f

section Backing

variable {α : Type} {view : Federation → α} {f g : Federation} {env : Environment}

theorem backed_saved (unstored : ∀ g store, view { g with store } = view g) :
    Backed view (f.saved env) := ⟨f, env, rfl, (unstored f _).symm⟩

/-- A call whose write is accepted keeps the store in step with the view. -/
theorem Published.of_conduct {c : Command} {o : Outcome Reply} (conduct : Conduct f env c o)
    (unstored : ∀ g store, view { g with store } = view g)
    (unmoved : Bump f env c → view f.bumped = view f) (accepted : o.fault = none)
    (published : Published view f) : Published view o.state := by
  obtain ⟨enabled, immediate, backed⟩ := published
  rcases conduct.state_of_written enabled immediate accepted with
    same | ⟨moved, bump⟩ | ⟨g, change, written⟩
  · rw [same]
    exact ⟨enabled, immediate, backed⟩
  · obtain ⟨g, env', stored, agrees⟩ := backed
    rw [moved]
    exact ⟨enabled, immediate, g, env', stored, agrees.trans (unmoved bump).symm⟩
  · have frame := change.frame
    rw [written]
    exact ⟨frame.persistEnabled.trans enabled, frame.persistOnMutation.trans immediate,
      backed_saved unstored⟩

/-- Opening with both flags set publishes the state. -/
theorem published_of_open {R : Registry} {config : FederationConfig} {disk : Option Bytes}
    (opened : Federation.openOn R config disk env = .ok g)
    (unstored : ∀ g store, view { g with store } = view g)
    (enabled : config.persist = true) (immediate : config.persistOnMutation = true) :
    Published view g := by
  obtain ⟨f, written, restored⟩ := Federation.openOn_eq_ok opened
  have flags : f.persistEnabled = true ∧ f.persistOnMutation = true := by
    rcases restored with ⟨_, rfl⟩ | ⟨_, _, _, _, _, rfl⟩
    · exact ⟨enabled, immediate⟩
    · exact ⟨enabled, immediate⟩
  rw [Federation.persistLocked_saved flags.1 (.inl flags.2) written]
  exact ⟨flags.1, flags.2, backed_saved unstored⟩

/-- In a run whose writes are accepted the store stays in step with the view. -/
theorem published_reaches {allowed : Federation → Event → Prop}
    (unstored : ∀ g store, view { g with store } = view g)
    (accepted : ∀ f c env, allowed f (.call c env) →
      (f.execute c env).fault = none ∧ (Bump f env c → view f.bumped = view f))
    (defaults : ∀ f R config env, allowed f (.reopen R config env) →
      config.persist = true ∧ config.persistOnMutation = true)
    (start : Published view f) (run : Reaches allowed f g) : Published view g := by
  refine run.invariant start ?_
  rintro f e g published permitted taken
  cases e with
  | call c env =>
      rw [show g = (f.execute c env).state from taken]
      obtain ⟨written, unmoved⟩ := accepted f c env permitted
      exact .of_conduct (f.execute_conduct c env) unstored unmoved written published
  | reopen R config env =>
      obtain ⟨_, _, opened⟩ := taken
      obtain ⟨enabled, immediate⟩ := defaults f R config env permitted
      exact published_of_open opened unstored enabled immediate

/-- Reopening a store that is in step with a view restarts a state with that view. -/
theorem reopened_of_backed {R : Registry} {config : FederationConfig} (backed : Backed view f)
    (file : config.storePath ≠ [])
    (opened : Federation.openOn R config f.store.payload env = .ok g) :
    ∃ saved report store, view saved = view f ∧
      g = { (Federation.constructed R config f.store.payload env).restarted saved env report with
        store } := by
  obtain ⟨saved, env', stored, agrees⟩ := backed
  have payload : (Federation.constructed R config f.store.payload env).store.payload =
      some (encodeSnapshot (saved.snapshotLocked env')) := by
    have store : (Federation.constructed R config f.store.payload env).store =
        if config.storePath.isEmpty then ⟨.memory, none⟩ else ⟨.file, f.store.payload⟩ := rfl
    rw [store, if_neg (by simpa using file)]
    exact stored
  obtain ⟨h, written, ⟨empty, _⟩ | ⟨bytes, t, found, decoded, _, restored⟩⟩ :=
    Federation.openOn_eq_ok opened
  · rw [payload] at empty
    cases empty
  · rw [payload] at found
    cases found
    have equal := Federation.recovered_readBack
      (Federation.constructed R config f.store.payload env) saved env' env
    rw [show (Federation.constructed R config f.store.payload env).registry = R from rfl] at equal
    rw [Federation.decoded_eq decoded, equal] at restored
    subst restored
    refine ⟨saved, (saved.readBack R env').recoveryReport, g.store, agrees, ?_⟩
    rcases Federation.persistLocked_cases written with rfl | ⟨_, rfl⟩
    · rfl
    · rfl

end Backing

/-- A federation without a file never meets a fault. -/
theorem fault_of_memory (memory : f.store.kind = .memory) (c : Command)
    (env : Environment) : (f.execute c env).fault = none := by
  have conduct := f.execute_conduct c env
  generalize f.execute c env = o at conduct
  cases conduct with
  | refused status => rfl
  | kept reply => rfl
  | bumped status bump => rfl
  | published reply change written => rfl
  | @faulted g h status result change failed =>
      have kind : g.store.kind = .memory := by rw [change.frame.store, memory]
      rw [Federation.persistLocked] at failed
      split at failed
      · cases failed
      · split at failed
        · cases failed
        · simp only [Store.write, kind] at failed
          cases failed

/-- Every write is accepted, and instances are only opened in the default mode, in which each
change is written at once. -/
def WritesThrough (f : Federation) : Event → Prop
  | .call c env => (f.execute c env).fault = none
  | .reopen _ config _ => config.persist = true ∧ config.persistOnMutation = true

/-- In such runs the store stays in step with whatever a bare move of the generation leaves
alone. -/
theorem published_of_writesThrough {α : Type} {view : Federation → α}
    {allowed : Federation → Event → Prop}
    (unstored : ∀ g store, view { g with store } = view g)
    (unmoved : ∀ g : Federation, view g.bumped = view g)
    (through : ∀ f e, allowed f e → WritesThrough f e) (start : Published view f)
    (run : Reaches allowed f g) : Published view g := by
  refine published_reaches unstored ?_ ?_ start run
  · intro f c env permitted
    exact ⟨through f _ permitted, fun _ => unmoved f⟩
  · intro f R config env permitted
    exact through f _ permitted

end Haf
