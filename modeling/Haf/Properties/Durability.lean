/-
# What readers see and what the store holds

A federation that writes every change at once shows its readers the state of its
payload, as long as the store accepts what is written: an operation whose write is
refused keeps its change in memory, and a refused move of the generation is never
written at all.
-/

import Haf.Properties.Refusal

namespace Haf

open Federation Sequence

/-- The payload in the store is the encoding of the current state, taken at some time. -/
def ShowsStored (f : Federation) : Prop :=
  ∃ env, f.store.payload = some (encodeSnapshot (f.snapshotLocked env))

/-- The events of a run in the default mode without faults and without moves that lead where
they start. -/
def DurableRun (f : Federation) (e : Event) : Prop :=
  WritesThrough f e ∧ ∀ c env, e = .call c env → ¬ MovesToItself f c

/-- In every run in the default mode, from whatever disk, in which every write is accepted and
no migration is planned from an accelerator to itself, readers see the state that was last
written. -/
theorem showsStored_of_durableRun {R : Registry} {config : FederationConfig}
    {disk : Option Bytes} {env : Environment} {f g : Federation}
    (opened : openOn R config disk env = .ok f) (enabled : config.persist = true)
    (immediate : config.persistOnMutation = true) (run : Reaches DurableRun f g) :
    ShowsStored g := by
  -- the view is the snapshot itself, at any time it may be taken
  have unstored : ∀ (g : Federation) (store : Store),
      snapshotLocked { g with store } = snapshotLocked g := fun _ _ => rfl
  have published : Published snapshotLocked g := by
    apply published_reaches unstored _ _ (published_of_open opened unstored enabled immediate) run
    · intro f c env allowed
      refine ⟨allowed.1, ?_⟩
      intro bump
      rcases bump.movesToItself with moves | same
      · exact absurd moves (allowed.2 c env rfl)
      · rw [same]
    · intro f R config env allowed
      exact allowed.1
  obtain ⟨saved, env', stored, same⟩ := published.backed
  refine ⟨env', ?_⟩
  rw [stored, same]

open Sample in
/-- The device was advertised, and the store accepted it. -/
theorem showsStored_observedOnce : ShowsStored observedOnce := by
  have advertised : Reaches DurableRun opened observedOnce := by
    refine .next (e := .call (.observe first claim) env) .refl ⟨fault_of_memory rfl _ _, ?_⟩
      execute_first.symm
    rintro c env' same
    cases same
    exact not_false
  exact showsStored_of_durableRun openOn_eq rfl rfl advertised

/-! ### A write that is refused -/

/-- What is read back from a stored state has a record for each of its members. -/
theorem length_members_of_showsStored {f : Federation} (shows : ShowsStored f) {R : Registry}
    {payload : Bytes} {t : FederationSnapshot} (stored : f.store.payload = some payload)
    (decoded : decodeSnapshot R payload = .ok t) : t.members.length = f.members.size := by
  obtain ⟨env, written⟩ := shows
  rw [stored] at written
  cases written
  rw [decoded_eq decoded, readBack, snapshotLocked_eq]
  exact (List.length_map _).trans (Keyed.length_values _)

namespace Sample

/-- The store refuses what is written. -/
def failing : Environment := { env with writeFault := some (.failure .persistenceFailure "full") }

/-- The file is opened, and the first advertisement is not written. -/
theorem unwritten_filed : ∃ f, openOn .core filed none env = .ok f ∧
    let g := (f.execute (.observe first claim) failing).state
    g.members.size = 1 ∧ ∃ payload, g.store.payload = some payload ∧
      ∃ t, decodeSnapshot .core payload = .ok t ∧ t.members.length = 0 := by
  decide +kernel

end Sample

open Sample in
/-- The member of an advertisement that could not be written is visible all the same. -/
theorem unwritten_member_visible : ∃ f g, openOn .core filed none env = .ok f ∧
    filed.persist = true ∧ filed.persistOnMutation = true ∧ Reaches anyEvent f g ∧
    ¬ ShowsStored g := by
  obtain ⟨f, started, one, payload, stored, t, decoded, empty⟩ := unwritten_filed
  refine ⟨f, _, started, rfl, rfl,
    .next (e := .call (.observe first claim) failing) .refl trivial rfl, ?_⟩
  intro shows
  rw [length_members_of_showsStored shows stored decoded, one] at empty
  cases empty

end Haf
