/-
# Epochs across restarts

Opening a store again takes the epoch it holds and moves one on. An instance that
writes its changes at once has its own epoch there from the start. One that defers
its writes may be gone before it wrote anything; the next instance then gets the same
epoch once more.
-/

import Haf.Properties.Commit

namespace Haf

open Federation Sequence

/-- The store holds a state of the current epoch, for a reader with a registry. -/
def EpochWritten (R : Registry) (f : Federation) : Prop :=
  ∃ payload s, f.store.payload = some payload ∧ decodeSnapshot R payload = .ok s ∧
    s.epoch = f.epoch

/-- An instance is only followed by another if it writes its changes at once or has written its
epoch. -/
def KeepsEpoch (f : Federation) : Event → Prop
  | .call _ _ => True
  | .reopen R _ _ => (f.persistEnabled = true ∧ f.persistOnMutation = true) ∨ EpochWritten R f

/-! ### The epoch on disk -/

/-- An instance that writes at once has its epoch on disk. -/
def EpochBacked (f : Federation) : Prop :=
  f.persistEnabled = true → f.persistOnMutation = true → Backed (·.epoch) f

variable {R : Registry} {g f : Federation}

theorem epochBacked_of_open {config : FederationConfig} {disk : Option Bytes}
    {env : Environment} (opened : openOn R config disk env = .ok g) :
    EpochBacked g := by
  obtain ⟨f, written, restored⟩ := openOn_eq_ok opened
  have flags : g.persistEnabled = config.persist ∧
      g.persistOnMutation = config.persistOnMutation := by
    rcases persistLocked_cases written with rfl | ⟨_, rfl⟩
    all_goals
      rcases restored with ⟨_, rfl⟩ | ⟨_, _, _, _, _, rfl⟩
      · exact ⟨rfl, rfl⟩
      · exact ⟨rfl, rfl⟩
  intro enabled immediate
  rw [flags.1] at enabled
  rw [flags.2] at immediate
  exact (published_of_open opened (fun _ _ => rfl) enabled immediate).backed

theorem epochBacked_of_call (backed : EpochBacked f) (c : Command)
    (env : Environment) : EpochBacked (f.execute c env).state := by
  rcases (f.execute_conduct c env).state_cases with same | ⟨moved, _⟩ |
    ⟨g, change, same | written⟩
  · rw [same]
    exact backed
  · rw [moved]
    exact backed
  · have frame := change.frame
    intro enabled immediate
    rw [same] at enabled immediate ⊢
    obtain ⟨saved, env', stored, epoch⟩ :=
      backed (frame.persistEnabled.symm.trans enabled) (frame.persistOnMutation.symm.trans immediate)
    exact ⟨saved, env', frame.store ▸ stored, epoch.trans frame.epoch.symm⟩
  · intro _ _
    rw [written]
    exact backed_saved fun _ _ => rfl

theorem epochBacked_of_step {e : Event} (backed : EpochBacked f)
    (taken : Step f e g) : EpochBacked g := by
  cases e with
  | call c env =>
      rw [show g = (f.execute c env).state from taken]
      exact epochBacked_of_call backed c env
  | reopen R config env =>
      obtain ⟨_, _, opened⟩ := taken
      exact epochBacked_of_open opened

/-! ### Calls -/

/-- No call moves the epoch. -/
theorem epoch_execute (f : Federation) (c : Command) (env : Environment) :
    (f.execute c env).state.epoch = f.epoch := by
  rcases (f.execute_conduct c env).state_cases with same | ⟨moved, _⟩ |
    ⟨g, change, same | written⟩
  · rw [same]
  · rw [moved]
    rfl
  · rw [same]
    exact change.frame.epoch
  · rw [written]
    exact change.frame.epoch

/-! ### Restarts -/

/-- Opening a store with a snapshot goes one epoch on from it. -/
theorem epoch_of_decoded {config : FederationConfig} {payload : Bytes}
    {env : Environment} {s : FederationSnapshot} (file : config.storePath ≠ [])
    (decoded : decodeSnapshot R payload = .ok s)
    (opened : openOn R config (some payload) env = .ok g) : g.epoch = s.epoch.next := by
  have held : (constructed R config (some payload) env).store.payload = some payload := by
    have store : (constructed R config (some payload) env).store =
        if config.storePath.isEmpty then ⟨.memory, none⟩ else ⟨.file, some payload⟩ := rfl
    rw [store, if_neg (by simpa using file)]
  obtain ⟨h, written, ⟨empty, _⟩ | ⟨bytes, t, found, read, _, rfl⟩⟩ := openOn_eq_ok opened
  · rw [held] at empty
    cases empty
  · rw [held] at found
    cases found
    rw [decoded] at read
    cases read
    rcases persistLocked_cases written with rfl | ⟨_, rfl⟩
    · rfl
    · rfl

/-- Whichever way an instance left its epoch on disk, the next one goes one on from it. -/
theorem epoch_of_reopen {config : FederationConfig} {env : Environment}
    {h : Federation} (backed : EpochBacked g) (permitted : KeepsEpoch g (.reopen R config env))
    (taken : Step g (.reopen R config env) h) : h.epoch = g.epoch.next := by
  obtain ⟨_, file, opened⟩ := taken
  rcases permitted with ⟨enabled, immediate⟩ | ⟨payload, s, stored, decoded, epoch⟩
  · obtain ⟨saved, report, store, agrees, rfl⟩ :=
      reopened_of_backed (backed enabled immediate) file opened
    exact congrArg Generation.next agrees
  · rw [stored] at opened
    rw [epoch_of_decoded file decoded opened, epoch]

theorem epoch_le_of_step {e : Event} (backed : EpochBacked f)
    (permitted : KeepsEpoch f e) (taken : Step f e g) : f.epoch.value ≤ g.epoch.value := by
  cases e with
  | call c env =>
      rw [show g = (f.execute c env).state from taken, epoch_execute]
      exact UInt64.le_refl _
  | reopen R config env =>
      rw [epoch_of_reopen backed permitted taken]
      exact f.epoch.value_le_next

theorem epochBacked_of_reaches {allowed : Federation → Event → Prop}
    (backed : EpochBacked f) (run : Reaches allowed f g) : EpochBacked g := by
  apply run.invariant backed
  intro f e g now _ taken
  exact epochBacked_of_step now taken

theorem epoch_le_of_reaches (backed : EpochBacked f)
    (run : Reaches KeepsEpoch f g) : f.epoch.value ≤ g.epoch.value := by
  induction run with
  | refl => exact UInt64.le_refl _
  | next earlier permitted taken ih =>
      have now := epochBacked_of_reaches backed earlier
      exact UInt64.le_trans ih (epoch_le_of_step now permitted taken)

/-- In every run in which each instance but the last leaves its epoch on disk, an instance that
is opened later has a larger epoch. -/
theorem epoch_lt_of_reopen {R R' : Registry} {config config' : FederationConfig}
    {disk : Option Bytes} {env env' : Environment} {f₀ f g h : Federation}
    (opened : openOn R config disk env = .ok f₀) (before : Reaches KeepsEpoch f₀ f)
    (run : Reaches KeepsEpoch f g) (permitted : KeepsEpoch g (.reopen R' config' env'))
    (taken : Step g (.reopen R' config' env') h) (below : g.epoch.value ≠ Generation.maxValue) :
    f.epoch.value < h.epoch.value := by
  have start := epochBacked_of_reaches (epochBacked_of_open opened) before
  have now := epochBacked_of_reaches start run
  have reached := epoch_le_of_reaches start run
  rw [epoch_of_reopen now permitted taken]
  exact UInt64.lt_of_le_of_lt reached (Generation.value_lt_next below)

namespace Sample

/-- A configuration that uses a file. -/
def filed : FederationConfig := { config with storePath := [115] }

/-- A configuration that uses a file and defers its writes. -/
def deferred : FederationConfig := { filed with persistOnMutation := false }

/-- The federation as it is opened on an empty file with deferred writes. -/
def openedDeferred : Federation := (constructed .core deferred none env).fresh

/-- In the default mode the file can be opened, and then opened again. -/
theorem reopens_filed : ∃ f, openOn .core filed none env = .ok f ∧ f.store.kind = .file ∧
    (f.persistEnabled = true ∧ f.persistOnMutation = true) ∧ f.epoch.value ≠ Generation.maxValue ∧
    (openOn .core filed f.store.payload env).isOk = true := by
  decide +kernel

theorem openOn_deferred : openOn .core deferred none env = .ok openedDeferred := rfl

theorem reopen_deferred {f : Federation} (kind : f.store.kind = .file)
    (unwritten : f.store.payload = none) : Step f (.reopen .core deferred env) openedDeferred := by
  refine ⟨kind, by decide, ?_⟩
  rw [unwritten]
  exact openOn_deferred

end Sample

open Sample in
/-- An instance in the default mode is followed by one with a larger epoch. -/
theorem epoch_lt_of_reopen_filed : ∃ f h, openOn .core filed none env = .ok f ∧
    Step f (.reopen .core filed env) h ∧ f.epoch.value < h.epoch.value := by
  obtain ⟨f, opened, kind, immediate, below, again⟩ := reopens_filed
  obtain ⟨h, reopened⟩ := exists_of_isOk again
  have taken : Step f (.reopen .core filed env) h := ⟨kind, by decide, reopened⟩
  refine ⟨f, h, opened, taken, ?_⟩
  exact epoch_lt_of_reopen opened .refl .refl (.inl immediate) taken below

open Sample in
/-- An instance that deferred its writes is followed by one with the same epoch. -/
theorem deferred_epoch_reused : ∃ f g, openOn .core deferred none env = .ok f ∧
    deferred.persist = true ∧ Step f (.reopen .core deferred env) g ∧ g.epoch = f.epoch ∧
    f.epoch.value ≠ Generation.maxValue :=
  ⟨openedDeferred, openedDeferred, openOn_deferred, rfl, reopen_deferred rfl rfl, rfl, by decide⟩

end Haf
