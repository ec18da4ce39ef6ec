/-
# Counting the changes of members

A member counts its changes in its state generation. A repeated advertisement with the same
capabilities and a change of policy alter the record without counting.
-/

import Haf.Properties.Footprint

namespace Haf

open Federation Sequence

/-- The later entry differs in more than the time of its last update. -/
def MemberEntry.Altered (entry later : MemberEntry) : Prop :=
  { later.record with updatedAt := entry.record.updatedAt } ≠ entry.record ∨
    later.descriptor ≠ entry.descriptor

/-- The counters of the later record are not behind. -/
structure MemberRecord.NotBehind (record later : MemberRecord) : Prop where
  device : record.deviceGeneration.value ≤ later.deviceGeneration.value
  capability : record.capabilityGeneration.value ≤ later.capabilityGeneration.value
  evidence : record.evidenceGeneration.value ≤ later.evidenceGeneration.value
  state : record.stateGeneration.value ≤ later.stateGeneration.value

/-- The counters that every call may have to move can be moved. -/
structure MemberRecord.CountersBelowEnd (record : MemberRecord) : Prop where
  evidence : record.evidenceGeneration.value ≠ Generation.maxValue
  state : record.stateGeneration.value ≠ Generation.maxValue

/-- An alteration moves the state generation on. -/
def MemberEntry.Counts (entry later : MemberEntry) : Prop :=
  entry.Altered later → entry.record.stateGeneration.value < later.record.stateGeneration.value

/-- The command alters no member without counting. -/
def Command.CountsChanges (f : Federation) : Command → Prop
  | .observe d _ => ∀ entry, f.members.get? d.id = some entry →
      entry.descriptor.capabilities.digest ≠ d.capabilities.digest
  | .setPolicy p _ => ∀ a entry, f.members.get? a = some entry →
      entry.record.policyGeneration = p.refreshIdentity.generation
  | _ => True

namespace MemberEntry

theorem counts_refl (entry : MemberEntry) : entry.Counts entry := by
  rintro (record | descriptor)
  · exact absurd rfl record
  · exact absurd rfl descriptor

theorem counts_of_next {entry later : MemberEntry} (below : entry.record.CountersBelowEnd)
    (next : later.record.stateGeneration = entry.record.stateGeneration.next) :
    entry.Counts later := by
  intro _
  rw [next]
  exact Generation.value_lt_next below.state

/-- A change of policy is counted exactly if it changes nothing. -/
theorem counts_underPolicy {entry : MemberEntry} {generation : PolicyGeneration} :
    entry.Counts (entry.underPolicy generation) ↔ entry.record.policyGeneration = generation := by
  constructor
  · intro counts
    by_contra other
    refine absurd (counts (.inl fun same => ?_)) (UInt64.lt_irrefl _)
    exact other (congrArg MemberRecord.policyGeneration same).symm
  · rintro rfl
    exact entry.counts_refl

/-- An advertisement without news is not counted. -/
theorem not_counts_refreshed {entry : MemberEntry} {f : Federation} {d : AcceleratorDescriptor}
    {same : d.id = entry.record.accelerator} {now : Timestamp}
    (below : entry.record.CountersBelowEnd) : ¬ entry.Counts (entry.refreshed f d same now) := by
  intro counts
  refine absurd (counts (.inl fun same => ?_)) (UInt64.lt_irrefl _)
  exact Generation.next_ne_self below.evidence (congrArg MemberRecord.evidenceGeneration same)

end MemberEntry

namespace MemberStep

variable {f : Federation} {env : Environment} {c : Command} {entry : MemberEntry}
  {after : Option MemberEntry}

/-- No step takes a member away or sets one of its counters back. -/
theorem notBehind (step : MemberStep f env c (some entry) after) :
    ∃ later, after = some later ∧ entry.record.NotBehind later.record := by
  have stays (n : UInt64) : n ≤ n := UInt64.le_refl n
  cases step with
  | same => exact ⟨_, rfl, stays _, stays _, stays _, stays _⟩
  | superseded | moved | drained => exact ⟨_, rfl, stays _, stays _, stays _, Generation.value_le_next _⟩
  | underPolicy => exact ⟨_, rfl, stays _, stays _, stays _, stays _⟩
  | updated =>
      exact ⟨_, rfl, stays _, Generation.value_le_next _, Generation.value_le_next _,
        Generation.value_le_next _⟩
  | @observedAgain d claim _ _ same =>
      refine ⟨_, rfl, ?_⟩
      rw [MemberEntry.observedAgain]
      split
      · exact ⟨stays _, Generation.value_le_next _, Generation.value_le_next _,
          Generation.value_le_next _⟩
      · exact ⟨stays _, stays _, Generation.value_le_next _, stays _⟩

/-- A step counts what it alters, but for the two kinds that do not count. -/
theorem counts {later : MemberEntry} {a : AcceleratorId}
    (step : MemberStep f env c (some entry) (some later)) (found : f.members.get? a = some entry)
    (below : entry.record.CountersBelowEnd) (counting : c.CountsChanges f) :
    entry.Counts later := by
  cases step with
  | same => exact entry.counts_refl
  | superseded | moved | updated | drained => exact MemberEntry.counts_of_next below rfl
  | underPolicy => exact MemberEntry.counts_underPolicy.mpr (counting a entry found)
  | observedAgain _ _ _ _ known =>
      rw [MemberEntry.observedAgain_of_digest_ne (counting entry known)]
      exact MemberEntry.counts_of_next below rfl

end MemberStep

/-- **Alterations of members are counted** by a successful call exactly if it neither advertises
again what a member already has nor puts a member under a policy of another generation. No
counter ever goes back. -/
theorem changes_counted_iff {f : Federation} {env : Environment} {c : Command} {reply : Reply}
    (succeeded : (f.execute c env).result = .ok reply)
    (below : ∀ a entry, f.members.get? a = some entry → entry.record.CountersBelowEnd) :
    let g := (f.execute c env).state
    (∀ a entry, f.members.get? a = some entry →
        ∃ later, g.members.get? a = some later ∧ entry.record.NotBehind later.record) ∧
      ((∀ a entry later, f.members.get? a = some entry → g.members.get? a = some later →
          entry.Altered later →
          entry.record.stateGeneration.value < later.record.stateGeneration.value) ↔
        c.CountsChanges f) := by
  intro g
  have step (a : AcceleratorId) : MemberStep f env c (f.members.get? a) (g.members.get? a) :=
    f.member_of_execute c env a
  refine ⟨fun a entry found => (found ▸ step a).notBehind, fun counts => ?_, ?_⟩
  · have made (always : c.alwaysChanges = true) : ∃ h, Change f env c h ∧ g.members = h.members := by
      obtain ⟨h, change, left⟩ := change_of_success always succeeded
      refine ⟨h, change, ?_⟩
      rcases left with same | written
      · exact congrArg Federation.members same
      · exact (congrArg Federation.members written).trans rfl
    cases c with
    | observe d claim =>
        intro entry found unchanged
        obtain ⟨h, change, members⟩ := made rfl
        cases change with
        | enrolled _ _ _ _ absent => cases found.symm.trans absent
        | @observedAgain _ _ known _ _ found' same =>
            cases Option.some.inj (found.symm.trans found')
            have later : g.members.get? d.id =
                some (entry.refreshed f d same (env.wall .member)) := by
              rw [members, withMember, MemberEntry.observedAgain_of_digest_eq unchanged,
                Keyed.get?_insert]
              exact if_pos same.symm
            exact MemberEntry.not_counts_refreshed (below d.id entry found)
              (counts d.id entry _ found later)
    | setPolicy p claim =>
        intro a entry found
        obtain ⟨h, change, members⟩ := made rfl
        cases change with
        | policy =>
            refine MemberEntry.counts_underPolicy.mp (counts a entry _ found ?_)
            rw [members, Federation.underPolicy, Keyed.get?_map, found]
            rfl
    | _ => trivial
  · intro counting a entry later found found'
    have taken := step a
    rw [found, found'] at taken
    exact taken.counts found (below a entry found) counting

namespace Sample

/-- The first boot advertises once more what it already advertised. -/
abbrev observedAgain : Outcome Reply := observedOnce.execute (.observe first claim) env

theorem counters_observedAgain : observedAgain.result.isOk = true ∧
    (∃ entry, observedOnce.members.get? firstId = some entry ∧
      ∃ later, observedAgain.state.members.get? firstId = some later ∧
        entry.record.evidenceGeneration ≠ later.record.evidenceGeneration ∧
        later.record.stateGeneration = entry.record.stateGeneration) ∧
    ∀ entry ∈ observedOnce.members.values,
      entry.record.evidenceGeneration.value ≠ Generation.maxValue ∧
        entry.record.stateGeneration.value ≠ Generation.maxValue := by
  decide +kernel

end Sample

open Sample in
/-- The evidence of a member is counted anew and the state of the member is not. -/
theorem refreshed_uncounted : Reaches anyEvent opened observedOnce ∧ ∃ entry later,
    observedAgain.result.isOk = true ∧
    observedOnce.members.get? firstId = some entry ∧
    observedAgain.state.members.get? firstId = some later ∧ entry.Altered later ∧
    later.record.stateGeneration = entry.record.stateGeneration := by
  obtain ⟨succeeds, ⟨entry, found, later, found', evidence, state⟩, _⟩ := counters_observedAgain
  refine ⟨.next (e := .call (.observe first claim) env) .refl trivial execute_first.symm, entry,
    later, succeeds, found, found', .inl fun same => ?_, state⟩
  exact evidence (congrArg MemberRecord.evidenceGeneration same).symm

open Sample in
theorem changes_counted_again :
    (∀ a entry, observedOnce.members.get? a = some entry →
        ∃ later, observedAgain.state.members.get? a = some later ∧
          entry.record.NotBehind later.record) ∧
      ((∀ a entry later, observedOnce.members.get? a = some entry →
          observedAgain.state.members.get? a = some later → entry.Altered later →
          entry.record.stateGeneration.value < later.record.stateGeneration.value) ↔
        (Command.observe first claim).CountsChanges observedOnce) := by
  obtain ⟨succeeds, _, below⟩ := counters_observedAgain
  obtain ⟨reply, result⟩ := exists_of_isOk succeeds
  refine changes_counted_iff result fun a entry found => ?_
  obtain ⟨evidence, state⟩ := below entry (Keyed.mem_values_of_get? found)
  exact ⟨evidence, state⟩

end Haf
