/-
# One live boot per device

A physical device is meant to be owned by one agent boot at a time. Observing checks
the other incarnations of the device, but only those that already hold authority;
admission checks nothing. The members of a device that are live agree on their boot
as long as nobody is admitted next to a live member of another boot.
-/

import Haf.Federation.Evolution

namespace Haf

open Federation

/-- The live members of each physical device have one agent boot. -/
def SingleLiveBoot (f : Federation) : Prop :=
  ∀ a b entry other, f.members.get? a = some entry → f.members.get? b = some other →
    entry.record.isLive = true → other.record.isLive = true →
    entry.record.physicalDevice = other.record.physicalDevice →
    entry.record.agentBoot = other.record.agentBoot

/-- A member is admitted only next to live members of its own boot. -/
def AdmitsAlone (f : Federation) : Event → Prop
  | .call (.transition a .admitted _) _ =>
      ∀ b entry other, f.members.get? a = some entry → entry.record.state = .observed →
        f.members.get? b = some other → other.record.isLive = true →
        entry.record.physicalDevice = other.record.physicalDevice →
        entry.record.agentBoot = other.record.agentBoot
  | _ => True

/-! ### One step -/

namespace MemberState

/-- The lifecycle table makes a member live by admission only. -/
theorem live_of_isLegalTransition {source target : MemberState}
    (legal : source.isLegalTransition target = true) (live : target.isLive = true) :
    source.isLive = true ∨ (source = .observed ∧ target = .admitted) := by
  revert legal live
  cases source <;> cases target <;> decide

@[simp]
theorem isLive_afterRestart (state : MemberState) : state.afterRestart.isLive = state.isLive := by
  cases state <;> rfl

end MemberState

/-- A live entry was live before with the same device and boot, or has just been admitted. -/
theorem MemberStep.live {f : Federation} {env : Environment} {c : Command}
    {before : Option MemberEntry} {entry : MemberEntry}
    (step : MemberStep f env c before (some entry)) (live : entry.record.isLive = true) :
    ∃ earlier, before = some earlier ∧
      earlier.record.physicalDevice = entry.record.physicalDevice ∧
      earlier.record.agentBoot = entry.record.agentBoot ∧
      (earlier.record.isLive = true ∨ earlier.record.state = .observed ∧
        ∃ claim, c = .transition earlier.record.accelerator .admitted claim) := by
  cases step with
  | same => exact ⟨entry, rfl, rfl, rfl, .inl live⟩
  | joined valid derived => cases live
  | superseded now open_ => cases live
  | @observedAgain d claim earlier valid same open_ boot found derived =>
      obtain ⟨state, _, device, owner⟩ := earlier.record_observedAgain f d same (env.wall .member)
      rw [MemberRecord.isLive, state] at live
      exact ⟨earlier, rfl, device.symm, owner.symm, .inl live⟩
  | @moved a target claim earlier named legal =>
      dsimp only [MemberEntry.moved, MemberRecord.isLive] at live ⊢
      refine ⟨earlier, rfl, rfl, rfl, ?_⟩
      rcases MemberState.live_of_isLegalTransition legal live with before | ⟨observed, rfl⟩
      · exact .inl before
      · exact .inr ⟨observed, claim, by rw [named]⟩
  | @updated a capabilities evidence claim earlier named open_ valid witnessed subject provenance
      digest =>
      dsimp only [MemberEntry.updated, MemberEntry.advancedRecord, MemberRecord.isLive] at live ⊢
      exact ⟨earlier, rfl, rfl, rfl, .inl live⟩
  | @underPolicy p claim earlier =>
      dsimp only [MemberEntry.underPolicy, MemberRecord.isLive] at live ⊢
      exact ⟨earlier, rfl, rfl, rfl, .inl live⟩
  | @drained id claim plan earlier stored source working =>
      dsimp only [MemberEntry.drained, MemberRecord.isLive] at live ⊢
      refine ⟨earlier, rfl, rfl, rfl, .inl ?_⟩
      rcases working with active | degraded
      · rw [active]
        rfl
      · rw [degraded]
        rfl

/-- A change keeps the live boots single if it admits nobody next to another boot. -/
theorem singleLiveBoot_of_change {f g : Federation} {env : Environment} {c : Command}
    (single : SingleLiveBoot f) (alone : AdmitsAlone f (.call c env))
    (change : Change f env c g) : SingleLiveBoot g := by
  -- two members cannot be admitted by one command, so that one of the two was live before
  intro a b entry other found located live live' device
  obtain ⟨entry₀, found₀, device₀, boot₀, before⟩ := (found ▸ change.member a).live live
  obtain ⟨other₀, located₀, device₁, boot₁, before'⟩ := (located ▸ change.member b).live live'
  have shared : entry₀.record.physicalDevice = other₀.record.physicalDevice := by
    rw [device₀, device₁, device]
  rw [← boot₀, ← boot₁]
  rcases before with was | ⟨observed, claim, rfl⟩
  · rcases before' with was' | ⟨observed', claim', rfl⟩
    · exact single a b entry₀ other₀ found₀ located₀ was was' shared
    · have key := Keyed.key_of_get? located₀
      exact (alone a other₀ entry₀ (key ▸ located₀) observed' found₀ was shared.symm).symm
  · have key := Keyed.key_of_get? found₀
    rcases before' with was' | ⟨observed', claim', same⟩
    · exact alone b entry₀ other₀ (key ▸ found₀) observed located₀ was' shared
    · have key' := Keyed.key_of_get? located₀
      have equal : a = b := by
        rw [← key, ← key']
        exact (Command.transition.inj same).1
      rw [equal, located₀] at found₀
      cases found₀
      rfl

/-! ### Every run -/

theorem singleLiveBoot_fresh (R : Registry) (config : FederationConfig) (disk : Option Bytes)
    (env : Environment) : SingleLiveBoot (constructed R config disk env).fresh := by
  intro a b entry other found
  rw [show (constructed R config disk env).fresh.members = .empty from rfl] at found
  simp at found

/-- Single live boots survive calls that admit nobody next to another boot, and restarts. -/
theorem durable_singleLiveBoot : Durable AdmitsAlone SingleLiveBoot where
  stored f store single := single
  bumped f single := single
  changed f env c g single alone change := singleLiveBoot_of_change single alone change
  fresh _ R config disk env _ := singleLiveBoot_fresh R config disk env
  restarted _ R config disk env g report _ single _ := by
    intro a b entry other found located live live' device
    rw [members_restarted] at found located
    obtain ⟨entry₀, found₀, rfl⟩ := Option.map_eq_some_iff.mp found
    obtain ⟨other₀, located₀, rfl⟩ := Option.map_eq_some_iff.mp located
    exact single a b entry₀ other₀ found₀ located₀
      ((MemberState.isLive_afterRestart _).symm.trans live)
      ((MemberState.isLive_afterRestart _).symm.trans live') device

/-- A call whose write cannot fail leaves the new state behind, and written. -/
theorem Federation.state_conclude_changed {α : Type} {f g : Federation} {env : Environment}
    {value : α} {settled : Result (Settled α)} (changed : settled = .ok (.changed value g))
    (memory : g.store.kind = .memory) (enabled : g.persistEnabled = true)
    (immediate : g.persistOnMutation = true) :
    (f.conclude env settled).state = g.saved env := by
  have write : g.store.write env.writeFault (encodeSnapshot (g.snapshotLocked env)) =
      (.ok (), { g.store with payload := some (encodeSnapshot (g.snapshotLocked env)) }) := by
    unfold Store.write
    split
    · rfl
    · rename_i file
      rw [memory] at file
      cases file
  have published : g.persistLocked env false = (.ok (), g.saved env) := by
    rw [persistLocked, if_neg (by simp [enabled]), if_neg (by simp [immediate]), write]
    rfl
  rw [changed, conclude, publish, published]

/-- In memory, an advertisement for an accelerator that is not a member yet enrols it. -/
theorem Federation.state_observe_of_absent {f : Federation} {d : AcceleratorDescriptor}
    {claim : AuthorityClaim} {env : Environment} (authority : f.validateAuthority claim = .ok ())
    (valid : d.validate = .ok ())
    (derived : deriveAcceleratorId d.physicalDevice d.agent d.agentBoot d.generation = d.id)
    (unchecked : claim.checkAgentBoot = false) (alone : f.competingBoot d = none)
    (absent : f.members.get? d.id = none) (memory : f.store.kind = .memory)
    (enabled : f.persistEnabled = true) (immediate : f.persistOnMutation = true) :
    (f.execute (.observe d claim) env).state = (f.enrolled d env).saved env := by
  have settled : f.settleObserve d claim env =
      .ok (.changed (f.enrolledRecord d (env.wall .member)) (f.enrolled d env)) := by
    simp only [settleObserve, authority, valid, derived, unchecked, ensure, bind, Except.bind]
    rw [alone]
    simp only [Bool.and_false, Bool.not_false, decide_true, if_true]
    split
    · rfl
    · rename_i found
      rw [absent] at found
      cases found
  exact state_conclude_changed settled memory enabled immediate

namespace Sample

/-- An identity that is told apart by its first byte. -/
def ident {tag : IdTag} (n : UInt8) : StrongId tag := ⟨.fromBytes [n]⟩

def env : Environment := ⟨fun _ => 0, fun _ => 0, none, ident 7⟩

def config : FederationConfig := { id := ident 9 }

def claim : AuthorityClaim := epochOnlyClaim ⟨1⟩

/-- A supported capability of the core vocabulary. -/
def supported (name : Bytes) (value : CapabilityValue) (listed : Registry.core.lists name = true) :
    CapabilityRecord :=
  { key := ⟨name, .inr (Registry.core.isCanonical_of_lists listed)⟩, state := .supported, value }

/-- What the classifier has to know about both ends of a move. -/
def records : List CapabilityRecord := [
  supported (text "architecture.family") (.enumeration (text "a1")) (by decide +kernel),
  supported (text "isa.code_object_targets") (.tokenSet [text "t1"]) (by decide +kernel),
  supported (text "runtime.family") (.enumeration (text "r1")) (by decide +kernel),
  supported (text "vendor.id") (.enumeration (text "acme")) (by decide +kernel)]

def vendorRecords : List CapabilityRecord :=
  [supported (text "vendor.id") (.enumeration (text "acme")) (by decide +kernel)]

def capabilities : CapabilitySet :=
  { id := capabilitySetIdentity records []
    generation := ⟨1⟩
    records
    records_canonical := by decide +kernel
    identified := .inl rfl }

/-- An advertisement for the device 1 by an agent and its boot. -/
def device (id : AcceleratorId) (agent : AgentId) (boot : AgentBootId) : AcceleratorDescriptor :=
  { id
    physicalDevice := Sample.ident 1
    generation := ⟨1⟩
    agent
    agentBoot := boot
    node := Sample.ident 6
    vendorToken := text "acme"
    vendor := ⟨.fromBytes [107, 155, 39, 154, 160, 34, 163, 78, 34, 48, 120, 206, 163, 242, 10, 238]⟩
    productToken := text "p1"
    architectureToken := text "a1"
    architecture :=
      ⟨.fromBytes [168, 39, 25, 174, 203, 166, 77, 218, 29, 211, 254, 212, 159, 220, 66, 149]⟩
    deviceGenerationToken := text "g1"
    runtimeFamily := text "r1"
    capabilities
    supportLevel := .translated
    provenance := .real }

def firstId : AcceleratorId :=
  ⟨.fromBytes [207, 123, 222, 240, 137, 74, 236, 87, 54, 144, 134, 83, 60, 178, 209, 181]⟩

def secondId : AcceleratorId :=
  ⟨.fromBytes [26, 246, 119, 238, 244, 65, 227, 199, 3, 70, 13, 86, 34, 2, 69, 45]⟩

/-- The device as the boot 3 of the agent 2 advertises it. -/
def first : AcceleratorDescriptor := device firstId (ident 2) (ident 3)

/-- The same device as the boot 4 of the agent 5 advertises it. -/
def second : AcceleratorDescriptor := device secondId (ident 5) (ident 4)

theorem derive_first : deriveAcceleratorId first.physicalDevice first.agent first.agentBoot
    first.generation = first.id := by
  decide +kernel

theorem derive_second : deriveAcceleratorId second.physicalDevice second.agent second.agentBoot
    second.generation = second.id := by
  decide +kernel

theorem validate_first : first.validate = .ok () := by decide +kernel

theorem validate_second : second.validate = .ok () := by decide +kernel

/-- The federation as it is opened without a file. -/
def opened : Federation := (constructed .core config none env).fresh.saved env

theorem openOn_eq : openOn .core config none env = .ok opened := rfl

/-- The federation once the first boot has advertised the device. -/
def observedOnce : Federation := (opened.enrolled first env).saved env

/-- The federation once both boots have. -/
def observedTwice : Federation := (observedOnce.enrolled second env).saved env

/-- A valid advertisement by the first boot. -/
structure ByFirst (d : AcceleratorDescriptor) : Prop where
  valid : d.validate = .ok ()
  named : d.id = firstId
  device : d.physicalDevice = first.physicalDevice
  agent : d.agent = first.agent
  boot : d.agentBoot = first.agentBoot
  generation : d.generation = first.generation

/-- The member that an advertisement makes. -/
def enrolledEntry (d : AcceleratorDescriptor) : MemberEntry :=
  ⟨opened.enrolledRecord d (env.wall .member), d,
    show d.id = (opened.enrolledRecord d (env.wall .member)).accelerator from rfl⟩

/-- The federation once its first advertisement has been made. -/
def enrolledWith (d : AcceleratorDescriptor) : Federation := (opened.enrolled d env).saved env

namespace ByFirst

variable {d : AcceleratorDescriptor}

theorem derived (advertised : ByFirst d) :
    deriveAcceleratorId d.physicalDevice d.agent d.agentBoot d.generation = d.id := by
  rw [advertised.device, advertised.agent, advertised.boot, advertised.generation, derive_first,
    advertised.named]
  rfl

/-- The device is not known yet. -/
theorem incarnations_opened (advertised : ByFirst d) :
    opened.incarnations d.physicalDevice = [] := by
  rw [advertised.device]
  decide +kernel

theorem execute (advertised : ByFirst d) :
    (opened.execute (.observe d claim) env).state = enrolledWith d := by
  have alone : opened.competingBoot d = none := by
    rw [competingBoot, advertised.incarnations_opened]
    rfl
  have absent : opened.members.get? d.id = none := Keyed.get?_empty _
  exact state_observe_of_absent (by decide +kernel) advertised.valid advertised.derived rfl alone
    absent rfl rfl rfl

theorem get?_enrolledWith (advertised : ByFirst d) :
    (enrolledWith d).members.get? firstId = some (enrolledEntry d) := by
  show Keyed.get? (Keyed.insert _ _) firstId = _
  rw [Keyed.get?_insert]
  exact if_pos advertised.named

end ByFirst

theorem byFirst_first : ByFirst first := ⟨validate_first, rfl, rfl, rfl, rfl, rfl⟩

theorem execute_first : (opened.execute (.observe first claim) env).state = observedOnce :=
  byFirst_first.execute

theorem execute_second :
    (observedOnce.execute (.observe second claim) env).state = observedTwice :=
  state_observe_of_absent (by decide +kernel) validate_second derive_second rfl (by decide +kernel)
    (by decide +kernel) rfl rfl rfl

/-- The first boot is alone. -/
theorem single_observedOnce {a b : AcceleratorId} {entry other : MemberEntry}
    (found : observedOnce.members.get? a = some entry)
    (located : observedOnce.members.get? b = some other) : entry = other := by
  have table : observedOnce.members =
      Keyed.insert .empty ⟨opened.enrolledRecord first (env.wall .member), first, rfl⟩ := rfl
  rw [table, Keyed.get?_insert, Keyed.get?_empty] at found located
  split at found
  · split at located
    · cases found
      cases located
      rfl
    · cases located
  · cases found

/-- The federation once both boots have also been admitted. -/
def admittedTwice : Federation :=
  observedTwice.after [(.transition firstId .admitted claim, env),
    (.transition secondId .admitted claim, env)]

/-- Both members are live, for one device under two boots. -/
theorem standing_admittedTwice : ∃ entry, admittedTwice.members.get? firstId = some entry ∧
    ∃ other, admittedTwice.members.get? secondId = some other ∧ entry.record.isLive = true ∧
      other.record.isLive = true ∧ entry.record.physicalDevice = other.record.physicalDevice ∧
      entry.record.agentBoot ≠ other.record.agentBoot := by
  decide +kernel

end Sample

end Haf
