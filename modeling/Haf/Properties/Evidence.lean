/-
# Evidence and provenance

Evidence enters the federation with an advertisement or with a capability update.
Both check whose evidence it is and where it came from. Only the update compares the
digest with the capabilities, and an advertisement replaces the provenance of a
member by its own.
-/

import Haf.Properties.LiveBoot

namespace Haf

open Federation

/-! ### What evidence describes -/

/-- The evidence of a member is about that member, has its provenance and was produced from the
capabilities that are stored. -/
def MemberEntry.Witnessed (entry : MemberEntry) : Prop :=
  ∀ e ∈ entry.descriptor.evidence, e.subject = entry.record.accelerator ∧
    e.provenance = entry.record.provenance ∧
    e.payloadDigest = entry.descriptor.capabilities.digest

/-- The evidence of every member describes what is stored. -/
def EvidenceDescribes (f : Federation) : Prop :=
  ∀ a entry, f.members.get? a = some entry → entry.Witnessed

/-- The evidence of an advertisement was produced from the advertised capabilities. -/
def DigestsMatch (_ : Federation) : Event → Prop
  | .call (.observe d _) _ => ∀ e ∈ d.evidence, e.payloadDigest = d.capabilities.digest
  | _ => True

/-- The evidence of a valid advertisement is about it, and from where it claims to be. -/
theorem AcceleratorDescriptor.evidence_of_validate {d : AcceleratorDescriptor}
    (valid : d.validate = .ok ()) {e : EvidenceRecord} (listed : e ∈ d.evidence) :
    e.subject = d.id ∧ e.provenance = d.provenance :=
  ((AcceleratorDescriptor.validate_eq_ok.mp valid).evidence e listed).2

variable {entry : MemberEntry} {c : Command} {f : Federation}

/-- Both forms of a repeated advertisement take over its evidence and its provenance. -/
theorem MemberEntry.witnessed_observedAgain {d : AcceleratorDescriptor}
    (valid : d.validate = .ok ()) (matching : ∀ e ∈ d.evidence, e.payloadDigest =
      d.capabilities.digest) (f : Federation) (same : d.id = entry.record.accelerator)
    (now : Timestamp) : (entry.observedAgain f d same now).Witnessed := by
  rw [observedAgain]
  split
  all_goals
    intro e listed
    obtain ⟨subject, provenance⟩ := AcceleratorDescriptor.evidence_of_validate valid listed
    exact ⟨subject.trans same, provenance, matching e listed⟩

theorem MemberStep.witnessed {env : Environment}
    {before : Option MemberEntry}
    (step : MemberStep f env c before (some entry)) (matching : DigestsMatch f (.call c env))
    (earlier : ∀ entry, before = some entry → entry.Witnessed) : entry.Witnessed := by
  cases step with
  | same => exact earlier entry rfl
  | joined valid derived =>
      intro e listed
      obtain ⟨subject, provenance⟩ := AcceleratorDescriptor.evidence_of_validate valid listed
      exact ⟨subject, provenance, matching e listed⟩
  | @superseded d claim entry₀ now open_ => exact earlier entry₀ rfl
  | observedAgain valid same open_ boot found derived =>
      exact MemberEntry.witnessed_observedAgain valid matching f same _
  | @moved a target claim entry₀ named legal => exact earlier entry₀ rfl
  | updated named open_ valid witnessed subject provenance digest =>
      intro e listed
      cases List.mem_singleton.mp listed
      exact ⟨subject.trans named.symm, provenance, digest⟩
  | @underPolicy p claim entry₀ => exact earlier entry₀ rfl
  | @drained id claim plan entry₀ stored source working => exact earlier entry₀ rfl

theorem evidenceDescribes_of_change {g : Federation} {env : Environment}
    (describes : EvidenceDescribes f) (matching : DigestsMatch f (.call c env))
    (change : Change f env c g) : EvidenceDescribes g := by
  intro a entry found
  have step := change.member a
  rw [found] at step
  exact step.witnessed matching fun earlier located => describes a earlier located

theorem evidenceDescribes_fresh (R : Registry) (config : FederationConfig) (disk : Option Bytes)
    (env : Environment) : EvidenceDescribes (constructed R config disk env).fresh := by
  intro a entry found
  rw [show (constructed R config disk env).fresh.members = .empty from rfl,
    Keyed.get?_empty] at found
  cases found

/-- Restarting marks evidence for revalidation, but leaves what it describes alone. -/
theorem durable_evidenceDescribes : Durable DigestsMatch EvidenceDescribes where
  stored f store describes := describes
  bumped f describes := describes
  changed f env c g describes matching change :=
    evidenceDescribes_of_change describes matching change
  fresh _ R config disk env _ := evidenceDescribes_fresh R config disk env
  restarted _ R config disk env g report _ describes _ := by
    intro a entry found
    rw [members_restarted] at found
    obtain ⟨saved, located, rfl⟩ := Option.map_eq_some_iff.mp found
    intro e listed
    obtain ⟨e', listed', rfl⟩ := List.mem_map.mp listed
    obtain ⟨original, inside, rfl⟩ := List.mem_map.mp listed'
    exact describes a saved located original inside

/-- In every run on a store that was empty, in which evidence is only advertised with the
capabilities it was produced from, the evidence of every member describes what is stored. -/
theorem evidenceDescribes_of_digestsMatch {R : Registry} {config : FederationConfig}
    {env : Environment} {f g : Federation} (opened : openOn R config none env = .ok f)
    (run : Reaches DigestsMatch f g) : EvidenceDescribes g :=
  durable_evidenceDescribes.reaches opened (evidenceDescribes_fresh R config none env) run

/-! ### Provenance -/

/-- The member exists and does not report real evidence. -/
def NotReal (f : Federation) (a : AcceleratorId) : Prop :=
  ∃ entry, f.members.get? a = some entry ∧ entry.record.provenance ≠ .real

/-- A member without real evidence is never advertised again with real evidence. -/
def KeepsProvenance (f : Federation) : Event → Prop
  | .call (.observe d _) _ => ∀ entry, f.members.get? d.id = some entry →
      entry.record.provenance ≠ .real → d.provenance ≠ .real
  | _ => True

/-- The events of a run in the default mode without faults, in which provenance is kept. -/
def ProvenanceRun (f : Federation) (e : Event) : Prop := WritesThrough f e ∧ KeepsProvenance f e

theorem MemberEntry.provenance_observedAgain (entry : MemberEntry) (f : Federation)
    (d : AcceleratorDescriptor) (same : d.id = entry.record.accelerator) (now : Timestamp) :
    (entry.observedAgain f d same now).record.provenance = d.provenance := by
  rw [observedAgain]
  split
  · rfl
  · rfl

theorem MemberStep.notReal {env : Environment}
    {after : Option MemberEntry}
    (step : MemberStep f env c (some entry) after) (keeps : KeepsProvenance f (.call c env))
    (synthetic : entry.record.provenance ≠ .real) :
    ∃ entry', after = some entry' ∧ entry'.record.provenance ≠ .real := by
  cases step with
  | same => exact ⟨entry, rfl, synthetic⟩
  | superseded now open_ => exact ⟨_, rfl, synthetic⟩
  | observedAgain valid same open_ boot found derived =>
      refine ⟨_, rfl, ?_⟩
      rw [MemberEntry.provenance_observedAgain]
      exact keeps entry found synthetic
  | moved named legal => exact ⟨_, rfl, synthetic⟩
  | updated named open_ valid witnessed subject provenance digest => exact ⟨_, rfl, synthetic⟩
  | underPolicy => exact ⟨_, rfl, synthetic⟩
  | drained stored source working => exact ⟨_, rfl, synthetic⟩

/-- In every run in the default mode without faults, in which no member without real evidence
is advertised again with real evidence, such a member stays one. -/
theorem notReal_of_keepsProvenance {R : Registry} {config : FederationConfig}
    {disk : Option Bytes} {env : Environment} {f₀ f g : Federation}
    (opened : openOn R config disk env = .ok f₀) (enabled : config.persist = true)
    (immediate : config.persistOnMutation = true) (before : Reaches ProvenanceRun f₀ f)
    {a : AcceleratorId} (notReal : NotReal f a) (run : Reaches ProvenanceRun f g) :
    NotReal g a := by
  apply member_keeps_of_reaches _ _ _ opened enabled immediate before notReal run
  · intro f env c entry after permitted step synthetic
    exact step.notReal permitted.2 synthetic
  · intro f env entry synthetic
    exact synthetic
  · intro f e permitted
    exact permitted.1

/-! ### Evidence from elsewhere -/

namespace Sample

/-- Evidence about the first accelerator. -/
def probe (payloadDigest : Digest) : EvidenceRecord :=
  { id := ident 30, provenance := .real, adapter := text "probe", subject := firstId
    payloadDigest }

/-- The first boot advertises the device with evidence for a digest. -/
def witnessed (payloadDigest : Digest) : AcceleratorDescriptor :=
  { first with evidence := [probe payloadDigest] }

/-- The first boot advertises the device as a synthetic one. -/
def synthetic : AcceleratorDescriptor := { first with provenance := .synthetic }

/-- Evidence about the first accelerator leaves its advertisement valid. -/
theorem byFirst_witnessed (payloadDigest : Digest) : ByFirst (witnessed payloadDigest) := by
  have valid := AcceleratorDescriptor.validate_eq_ok.mp validate_first
  refine ⟨AcceleratorDescriptor.validate_eq_ok.mpr { valid with
    witnesses := ?_, evidence := ?_, native := ?_ }, rfl, rfl, rfl, rfl, rfl⟩
  · exact show 1 ≤ Limits.maxPersistedEvidence by decide
  · intro e listed
    cases List.mem_singleton.mp listed
    exact ⟨rfl, rfl, rfl⟩
  · intro _ empty
    cases empty

theorem byFirst_synthetic : ByFirst synthetic := by
  have valid := AcceleratorDescriptor.validate_eq_ok.mp validate_first
  refine ⟨AcceleratorDescriptor.validate_eq_ok.mpr { valid with
    evidence := ?_, synthetic := ?_, unsupported := ?_ }, rfl, rfl, rfl, rfl, rfl⟩
  · intro e listed
    cases listed
  · intro _ native
    cases native
  · intro _ native
    cases native

end Sample

open Sample in
/-- Evidence for the advertised capabilities is taken over. -/
theorem evidenceDescribes_witnessed :
    EvidenceDescribes (opened.execute (.observe (witnessed capabilities.digest) claim) env).state := by
  refine evidenceDescribes_of_digestsMatch openOn_eq
    (.next (e := .call (.observe _ _) env) .refl ?_ rfl)
  intro e listed
  cases List.mem_singleton.mp listed
  rfl

open Sample in
/-- Evidence for other capabilities is taken over as well. -/
theorem foreign_evidence_stored : ∃ f g, openOn .core config none env = .ok f ∧
    Reaches anyEvent f g ∧ ¬ EvidenceDescribes g := by
  have advertised := byFirst_witnessed .zero
  refine ⟨opened, enrolledWith (witnessed .zero), openOn_eq,
    .next (e := .call (.observe (witnessed .zero) claim) env) .refl trivial
      advertised.execute.symm, ?_⟩
  intro describes
  have member := describes firstId _ advertised.get?_enrolledWith
  obtain ⟨_, _, digest⟩ := member (probe .zero) List.mem_cons_self
  exact absurd digest (by decide +kernel)

/-! ### A synthetic member that becomes a real one -/

namespace Sample

def observedSynthetic : Federation := (opened.enrolled synthetic env).saved env

theorem execute_synthetic :
    (opened.execute (.observe synthetic claim) env).state = observedSynthetic :=
  byFirst_synthetic.execute

theorem notReal_observedSynthetic : NotReal observedSynthetic firstId :=
  ⟨_, byFirst_synthetic.get?_enrolledWith, by decide⟩

end Sample

open Sample in
/-- A synthetic member is advertised as a synthetic one once more. -/
theorem notReal_synthetic_again :
    NotReal (observedSynthetic.execute (.observe synthetic claim) env).state firstId := by
  have start : Reaches ProvenanceRun opened observedSynthetic := by
    refine .next (e := .call (.observe synthetic claim) env) .refl ⟨?_, ?_⟩ execute_synthetic.symm
    · exact fault_of_memory rfl _ _
    · intro entry _ _
      decide
  refine notReal_of_keepsProvenance openOn_eq rfl rfl start notReal_observedSynthetic
    (.next (e := .call (.observe synthetic claim) env) .refl ⟨?_, ?_⟩ rfl)
  · exact fault_of_memory rfl _ _
  · intro entry _ _
    decide

open Sample in
/-- The same boot advertises the device as a real one, and the member becomes one. -/
theorem synthetic_becomes_real : ∃ f g h a, openOn .core config none env = .ok f ∧
    Reaches anyEvent f g ∧ NotReal g a ∧ Reaches anyEvent g h ∧
    ∃ entry, h.members.get? a = some entry ∧ entry.record.provenance = .real := by
  refine ⟨opened, observedSynthetic,
    (observedSynthetic.execute (.observe first claim) env).state, firstId, openOn_eq,
    .next (e := .call (.observe synthetic claim) env) .refl trivial execute_synthetic.symm,
    notReal_observedSynthetic,
    .next (e := .call (.observe first claim) env) .refl trivial rfl, ?_⟩
  decide +kernel

end Haf
