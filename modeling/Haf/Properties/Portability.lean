/-
# What justifies a portability class

Each class rests on evidence of its own, and the classifier returns the strongest class that
is justified. Its answer is monotone in what the endpoints can do. It is less careful about
what is not known: beyond four gating capabilities, a missing record counts as missing
support, so that a weak class is returned where evidence is wanting. And of the records that
justify sharing a binary or an architecture it only asks that they are there, not that they
are SUPPORTED.
-/

import Haf.Properties.Extension

namespace Haf

open Sequence

namespace CapabilitySet

/-- A set lists a token under a capability, in whatever state the capability is. -/
def Lists (set : CapabilitySet) (key token : Bytes) : Prop :=
  ∃ value, (set.lookup key).value = some value ∧ token ∈ value.tokens

/-- Both sets positively support a capability. -/
def BothSupport (source destination : CapabilitySet) (key : Bytes) : Prop :=
  source.supports key = true ∧ destination.supports key = true

theorem sharesToken_iff {a b : CapabilitySet} {key : Bytes} :
    a.sharesToken b key = true ↔ ∃ token, a.Lists key token ∧ b.Lists key token := by
  rw [sharesToken]
  constructor
  · intro shared
    split at shared
    next left right foundLeft foundRight =>
      simp only [Bool.and_eq_true, List.any_eq_true, List.contains_iff_mem] at shared
      obtain ⟨-, token, listedLeft, listedRight⟩ := shared
      exact ⟨token, ⟨left, foundLeft, listedLeft⟩, right, foundRight, listedRight⟩
    next => cases shared
  · rintro ⟨token, ⟨left, foundLeft, listedLeft⟩, right, foundRight, listedRight⟩
    rw [foundLeft, foundRight, present_of_value foundLeft, present_of_value foundRight]
    simpa using ⟨token, listedLeft, listedRight⟩

theorem known_of_supports {set : CapabilitySet} {key : Bytes}
    (supported : set.supports key = true) : set.known key = true := by
  simp only [supports, Bool.and_eq_true, decide_eq_true_eq] at supported
  simp [known, supported.2]

end CapabilitySet

namespace PortabilityRequest

open CapabilitySet

/-! ### Justifications -/

/-- The gating capabilities are known on both sides. -/
def Evident (source destination : CapabilitySet) : Prop :=
  ∀ item ∈ requiredEvidence, source.known item.1 = true ∧ destination.known item.1 = true

/-- What has to be the case for a class, where the two sides are taken to have the given
abilities. Nothing warrants that a class is UNKNOWN, and no evidence is considered that would
warrant repackaging together with a restart. -/
def Warrants (request : PortabilityRequest) (source destination : CapabilitySet)
    (exports imports : Bytes → Prop) : PortabilityClass → Prop
  | .liveMigrationSupported => source.sharesToken destination Cap.isaCodeObjectTargets = true ∧
      (exports Cap.migrationLiveStateTransfer ∧ imports Cap.migrationLiveStateTransfer) ∧
      (request.sameVendor = true ∨ request.policyAllowsCrossVendorMigration = true ∧
        exports Cap.migrationCrossVendorState ∧ imports Cap.migrationCrossVendorState)
  | .native => source.sharesToken destination Cap.isaCodeObjectTargets = true ∧
      request.sameVendor = true ∧ sameArchitecture source destination = true
  | .binaryCompatible => source.sharesToken destination Cap.isaCodeObjectTargets = true
  | .checkpointRestoreSupported => request.sameVendor = true ∧
      exports Cap.migrationCheckpointRestore ∧ imports Cap.migrationCheckpointRestore
  | .recompileRequired => imports Cap.portabilityRecompileAvailable
  | .repackageRequired => imports Cap.portabilityRepackageAvailable
  | .stateReconstructionRequired => imports Cap.migrationStateReconstruction
  | .unsupported => True
  | .unknown | .repackageAndRestartRequired => False

/-- The evidence justifies a class. -/
def Justifies (request : PortabilityRequest) (source destination : CapabilitySet) :
    PortabilityClass → Prop :=
  request.Warrants source destination (source.supports · = true) (destination.supports · = true)

instance (request : PortabilityRequest) (source destination : CapabilitySet) :
    DecidablePred (request.Justifies source destination)
  | .liveMigrationSupported =>
      inferInstanceAs (Decidable (_ = true ∧ (_ = true ∧ _ = true) ∧
        (_ = true ∨ _ = true ∧ _ = true ∧ _ = true)))
  | .native => inferInstanceAs (Decidable (_ = true ∧ _ = true ∧ _ = true))
  | .binaryCompatible => inferInstanceAs (Decidable (_ = true))
  | .checkpointRestoreSupported => inferInstanceAs (Decidable (_ = true ∧ _ = true ∧ _ = true))
  | .recompileRequired => inferInstanceAs (Decidable (_ = true))
  | .repackageRequired => inferInstanceAs (Decidable (_ = true))
  | .stateReconstructionRequired => inferInstanceAs (Decidable (_ = true))
  | .unsupported => inferInstanceAs (Decidable True)
  | .unknown => inferInstanceAs (Decidable False)
  | .repackageAndRestartRequired => inferInstanceAs (Decidable False)

/-- The classes in the order in which they are tried. -/
def ladder : List PortabilityClass := [
  .liveMigrationSupported, .native, .binaryCompatible, .checkpointRestoreSupported,
  .recompileRequired, .repackageRequired, .stateReconstructionRequired, .unsupported]

section Classification

variable (request : PortabilityRequest) {source destination : CapabilitySet}

theorem unknownInputs_eq_nil : unknownInputs source destination = [] ↔
    Evident source destination := by
  simp [unknownInputs, Evident, List.filter_eq_nil_iff]

/-- The cascade returns the first class that is justified. -/
theorem strongestClass_eq (evident : Evident source destination) :
    ladder.find? (request.Justifies source destination ·) =
      some (request.strongestClass source destination).1 := by
  have targets : destination.known Cap.isaCodeObjectTargets = true :=
    (evident (Cap.isaCodeObjectTargets, "ISA code object targets") (by simp [requiredEvidence])).2
  rw [strongestClass, targets]
  split_ifs
  all_goals
    simp only [ladder, List.find?_cons_eq_some, Justifies, Warrants, Bool.not_eq_true']
    grind [crossVendorLiveAllowed]

theorem strongestClass_justified (evident : Evident source destination) :
    request.Justifies source destination (request.strongestClass source destination).1 := by
  have found := List.find?_some (request.strongestClass_eq evident)
  exact of_decide_eq_true found

theorem classifyKnown_of_evident (evident : Evident source destination) :
    (request.classifyKnown source destination).value =
      (request.strongestClass source destination).1 := by
  have justified := request.strongestClass_justified evident
  simp only [classifyKnown, unknownInputs_eq_nil.mpr evident, List.isEmpty_nil, Bool.not_true,
    Bool.false_eq_true, if_false]
  split
  next downgraded =>
    -- Live migration is only ever returned where it is allowed.
    obtain ⟨⟨-, live⟩, denied⟩ : (_ ∧ _) ∧ _ := by simpa using downgraded
    rw [live] at justified
    have allowed := justified.2.2
    simp only [crossVendorLiveAllowed] at denied
    grind
  next => rfl

theorem classifyKnown_of_not_evident (missing : ¬ Evident source destination) :
    (request.classifyKnown source destination).value = .unknown := by
  have unknown : (unknownInputs source destination).isEmpty = false := by
    rw [List.isEmpty_eq_false_iff]
    exact fun none => missing (unknownInputs_eq_nil.mp none)
  simp [classifyKnown, unknown]

/-- Known evidence is classified by the strongest class that it justifies. -/
theorem classifyKnown_spec (evident : Evident source destination) :
    request.Justifies source destination (request.classifyKnown source destination).value ∧
      ∀ c, request.Justifies source destination c →
        c.strength ≤ (request.classifyKnown source destination).value.strength := by
  rw [request.classifyKnown_of_evident evident]
  refine ⟨request.strongestClass_justified evident, fun c justified => ?_⟩
  have descending : ladder.Pairwise fun a b => b.strength ≤ a.strength := by decide
  have listed : c ∈ ladder := by
    cases c
    case unknown => exact justified.elim
    case repackageAndRestartRequired => exact justified.elim
    all_goals decide
  exact (find_greatest descending (request.strongestClass_eq evident)).2 c listed
    (decide_eq_true justified)

theorem classifyKnown_ne_unknown :
    (request.classifyKnown source destination).value ≠ .unknown ↔ Evident source destination := by
  by_cases evident : Evident source destination
  · have justified := (request.classifyKnown_spec evident).1
    exact iff_of_true (fun unknown => by rwa [unknown] at justified) evident
  · exact iff_of_false (absurd (request.classifyKnown_of_not_evident evident)) evident

end Classification

/-! ### The evidence behind a strong class -/

/-- A class is founded on SUPPORTED records of both sides. -/
structure Founded (request : PortabilityRequest) (source destination : CapabilitySet)
    (value : PortabilityClass) : Prop where
  code : value = .native ∨ value = .binaryCompatible ∨ value = .liveMigrationSupported →
    BothSupport source destination Cap.isaCodeObjectTargets ∧
      ∃ token, source.Lists Cap.isaCodeObjectTargets token ∧
        destination.Lists Cap.isaCodeObjectTargets token
  live : value = .liveMigrationSupported →
    BothSupport source destination Cap.migrationLiveStateTransfer
  crossing : value = .liveMigrationSupported →
    request.sourceVendor ≠ request.destinationVendor ∨ request.sourceVendor = [] →
      BothSupport source destination Cap.migrationCrossVendorState ∧
        request.policyAllowsCrossVendorMigration = true
  checkpoint : value = .checkpointRestoreSupported →
    BothSupport source destination Cap.migrationCheckpointRestore ∧
      request.sourceVendor = request.destinationVendor
  native : value = .native → BothSupport source destination Cap.architectureFamily ∧
    (source.lookup Cap.architectureFamily).value =
      (destination.lookup Cap.architectureFamily).value ∧
    request.sourceVendor = request.destinationVendor

/-- Where a code object target is shared, both sides SUPPORT the targets they list, and where
that makes for the same device they SUPPORT their architecture as well. -/
def Backed (request : PortabilityRequest) (source destination : CapabilitySet) : Prop :=
  Evident source destination → source.sharesToken destination Cap.isaCodeObjectTargets = true →
    BothSupport source destination Cap.isaCodeObjectTargets ∧
      (request.sameVendor = true → sameArchitecture source destination = true →
        ¬ BothSupport source destination Cap.migrationLiveStateTransfer →
        BothSupport source destination Cap.architectureFamily)

section Founded

variable {request : PortabilityRequest} {source destination : CapabilitySet}

theorem sameVendor_iff : request.sameVendor = true ↔
    request.sourceVendor ≠ [] ∧ request.sourceVendor = request.destinationVendor := by
  simp [sameVendor]

/-- An architecture is one token, so that what is rendered alike is the same. -/
theorem family_eq_of_sameArchitecture (same : sameArchitecture source destination = true) :
    (source.lookup Cap.architectureFamily).value =
      (destination.lookup Cap.architectureFamily).value := by
  have core : coreKind Cap.architectureFamily = some .enumeration := by decide +kernel
  rw [sameArchitecture] at same
  split at same
  next left right foundLeft foundRight =>
    have kindLeft := kind_of_lookup core foundLeft
    have kindRight := kind_of_lookup core foundRight
    rw [foundLeft, foundRight]
    cases left <;> cases kindLeft
    cases right <;> cases kindRight
    simp only [CapabilityValue.render, Bool.and_eq_true, beq_iff_eq] at same
    rw [same.2]
  next => cases same

/-- What is native would be live if both sides could transfer their state. -/
theorem classifyKnown_eq_native (evident : Evident source destination) :
    (request.classifyKnown source destination).value = .native ↔
      request.Justifies source destination .native ∧
        ¬ BothSupport source destination Cap.migrationLiveStateTransfer := by
  obtain ⟨justified, strongest⟩ := request.classifyKnown_spec evident
  generalize (request.classifyKnown source destination).value = value at justified strongest
  constructor
  · rintro rfl
    refine ⟨justified, fun live => ?_⟩
    exact absurd (strongest .liveMigrationSupported ⟨justified.1, live, .inl justified.2.1⟩)
      (by decide)
  · rintro ⟨native, idle⟩
    have above := strongest .native native
    cases value
    case liveMigrationSupported => exact absurd justified.2.1 idle
    case native => rfl
    all_goals exact absurd above (by decide)

theorem founded_of_backed (backed : request.Backed source destination) :
    request.Founded source destination (request.classifyKnown source destination).value := by
  by_cases evident : Evident source destination
  · have justified := (request.classifyKnown_spec evident).1
    refine ⟨fun strong => ?_, fun live => ?_, fun live apart => ?_, fun checkpoint => ?_,
      fun native => ?_⟩
    · have shared : source.sharesToken destination Cap.isaCodeObjectTargets = true := by
        rcases strong with native | binary | live
        · rw [native] at justified
          exact justified.1
        · rw [binary] at justified
          exact justified
        · rw [live] at justified
          exact justified.1
      exact ⟨(backed evident shared).1, sharesToken_iff.mp shared⟩
    · rw [live] at justified
      exact justified.2.1
    · rw [live] at justified
      have foreign : ¬ request.sameVendor = true := by
        rw [sameVendor_iff]
        rintro ⟨named, same⟩
        exact apart.elim (absurd same) named
      exact (justified.2.2.resolve_left foreign).symm
    · rw [checkpoint] at justified
      exact ⟨justified.2, (sameVendor_iff.mp justified.1).2⟩
    · obtain ⟨⟨shared, vendor, architecture⟩, idle⟩ := (classifyKnown_eq_native evident).mp native
      exact ⟨(backed evident shared).2 vendor architecture idle,
        family_eq_of_sameArchitecture architecture, (sameVendor_iff.mp vendor).2⟩
  · rw [request.classifyKnown_of_not_evident evident]
    constructor <;> simp

theorem backed_of_founded
    (founded : request.Founded source destination
      (request.classifyKnown source destination).value) :
    request.Backed source destination := by
  intro evident shared
  have strong := (request.classifyKnown_spec evident).2 .binaryCompatible shared
  refine ⟨(founded.code ?_).1, fun vendor architecture idle => (founded.native ?_).1⟩
  · generalize (request.classifyKnown source destination).value = value at strong
    cases value
    case native => exact .inl rfl
    case binaryCompatible => exact .inr (.inl rfl)
    case liveMigrationSupported => exact .inr (.inr rfl)
    all_goals exact absurd strong (by decide)
  · exact (classifyKnown_eq_native evident).mpr ⟨⟨shared, vendor, architecture⟩, idle⟩

end Founded

end PortabilityRequest

/-- A strong class rests on SUPPORTED records of both sides exactly if, wherever a code object
target is shared, the records that were compared are SUPPORTED. -/
theorem strong_classes_founded_iff (request : PortabilityRequest) :
    (∀ source destination, request.sourceCapabilities = some source →
      request.destinationCapabilities = some destination →
      request.Founded source destination (classifyPortability request).value) ↔
    ∀ source destination, request.sourceCapabilities = some source →
      request.destinationCapabilities = some destination → request.Backed source destination := by
  have same : ∀ {source destination}, request.sourceCapabilities = some source →
      request.destinationCapabilities = some destination →
      classifyPortability request = request.classifyKnown source destination := by
    intro source destination origin target
    rw [classifyPortability, origin, target]
  constructor
  · intro founded source destination origin target
    exact PortabilityRequest.backed_of_founded (same origin target ▸ founded _ _ origin target)
  · intro backed source destination origin target
    rw [same origin target]
    exact PortabilityRequest.founded_of_backed (backed _ _ origin target)

namespace Sample

/-- The code object targets are listed, but said to be UNSUPPORTED. -/
def withheldRecords : List CapabilityRecord := records.map fun r =>
  if r.key.name = Cap.isaCodeObjectTargets then { r with state := .unsupported } else r

def withheld : CapabilitySet :=
  { id := capabilitySetIdentity withheldRecords []
    generation := ⟨1⟩
    records := withheldRecords
    records_canonical := by decide +kernel
    identified := .inl rfl }

/-- A move between two devices of one vendor. -/
def between (source destination : CapabilitySet) : PortabilityRequest :=
  { sourceCapabilities := some source
    destinationCapabilities := some destination
    sourceVendor := text "acme"
    destinationVendor := text "acme"
    workload := none
    policyAllowsCrossVendorMigration := false }

end Sample

open Sample in
/-- Code is taken to run natively on a device that does not support it. -/
theorem native_withheld : (classifyPortability (between capabilities withheld)).value = .native ∧
    ¬ (between capabilities withheld).Founded capabilities withheld .native := by
  refine ⟨by decide +kernel, fun founded => ?_⟩
  have supported := (founded.code (.inl rfl)).1.2
  exact absurd supported (by decide +kernel)

/-! ### Less and more evidence, fewer and more abilities -/

namespace PortabilityRequest

open CapabilitySet

/-- The abilities that classes other than the native ones rest on. -/
def abilities : List Bytes := [
  Cap.migrationLiveStateTransfer, Cap.migrationCrossVendorState, Cap.migrationCheckpointRestore,
  Cap.portabilityRecompileAvailable, Cap.portabilityRepackageAvailable,
  Cap.migrationStateReconstruction]

/-- What warrants a class still does when more tokens are shared and more abilities are had. -/
theorem Warrants.imp {request request' : PortabilityRequest}
    {source destination source' destination' : CapabilitySet}
    {exports imports exports' imports' : Bytes → Prop}
    (targets : source.sharesToken destination Cap.isaCodeObjectTargets = true →
      source'.sharesToken destination' Cap.isaCodeObjectTargets = true)
    (architecture : sameArchitecture source destination = true →
      sameArchitecture source' destination' = true)
    (vendor : request.sameVendor = true → request'.sameVendor = true)
    (policy : request.policyAllowsCrossVendorMigration = true →
      request'.policyAllowsCrossVendorMigration = true)
    (exported : ∀ key ∈ abilities, exports key → exports' key)
    (imported : ∀ key ∈ abilities, imports key → imports' key) {c : PortabilityClass}
    (warranted : request.Warrants source destination exports imports c) :
    request'.Warrants source' destination' exports' imports' c := by
  simp only [abilities, List.forall_mem_cons, List.not_mem_nil, false_implies, implies_true,
    and_true] at exported imported
  obtain ⟨exportsLive, exportsCross, exportsCheckpoint, -, -, -⟩ := exported
  obtain ⟨importsLive, importsCross, importsCheckpoint, recompiles, repackages, reconstructs⟩ :=
    imported
  cases c
  case liveMigrationSupported =>
    obtain ⟨shared, live, allowed⟩ := warranted
    refine ⟨targets shared, live.imp exportsLive importsLive, allowed.imp vendor fun crossing => ?_⟩
    exact ⟨policy crossing.1, crossing.2.imp exportsCross importsCross⟩
  case native =>
    exact ⟨targets warranted.1, vendor warranted.2.1, architecture warranted.2.2⟩
  case binaryCompatible => exact targets warranted
  case checkpointRestoreSupported =>
    exact ⟨vendor warranted.1, warranted.2.imp exportsCheckpoint importsCheckpoint⟩
  case recompileRequired => exact recompiles warranted
  case repackageRequired => exact repackages warranted
  case stateReconstructionRequired => exact reconstructs warranted
  case unsupported => trivial
  case unknown => exact warranted
  case repackageAndRestartRequired => exact warranted

end PortabilityRequest

/-! ### Evidence that is wanting -/

namespace CapabilitySet

/-- A capability that is supported, or of which there is no record and one could say so. -/
def MightSupport (set : CapabilitySet) (key : Bytes) : Prop :=
  set.supports key = true ∨ set.lookup key = {}

section Extends

variable {set more : CapabilitySet} (extends' : set.Extends more) {key : Bytes}
include extends'

theorem Extends.known (before : set.known key = true) : more.known key = true := by
  have same : more.lookup key = set.lookup key :=
    extends'.lookup_eq (by simpa [CapabilitySet.known] using before)
  rwa [known_congr same]

theorem Extends.supports (before : set.supports key = true) : more.supports key = true := by
  have same : more.lookup key = set.lookup key :=
    extends'.lookup_eq (by simpa [CapabilitySet.known] using known_of_supports before)
  rwa [supports_congr same]

/-- What an extension supports was supported or open. -/
theorem Extends.mightSupport (after : more.supports key = true) : set.MightSupport key := by
  by_cases known : (set.lookup key).state = .unknown
  · rcases set.lookup_cases key with ⟨r, listed, rfl, same⟩ | ⟨_, same | same⟩
    · -- A record that says UNKNOWN is still there.
      rw [same] at known
      rw [CapabilitySet.supports, lookup_of_mem (extends'.kept r listed)] at after
      simp [show r.state = .unknown from known] at after
    · rw [same] at known
      cases known
    · exact .inr same
  · exact .inl (by rwa [← supports_congr (extends'.lookup_eq known)])

end Extends

/-- An extension in which everything is supported that could be, given the records that would
say so. -/
theorem exists_fullest {R : Registry} {set : CapabilitySet} {claims : List CapabilityRecord}
    (resolved : ∀ r ∈ set.records ++ claims, R.lists r.key.name = true)
    (canonical : ∀ r ∈ claims, r.canonicalRecord = .ok r)
    (distinct : (claims.map (·.key.name)).Nodup) (supported : ∀ r ∈ claims, r.state = .supported) :
    ∃ more : CapabilitySet, set.Extends more ∧
      ∀ r ∈ claims, set.MightSupport r.key.name → more.supports r.key.name = true := by
  let fresh := claims.filter fun r => set.lookup r.key.name = {}
  have claimed : ∀ r ∈ fresh, r ∈ claims ∧ set.lookup r.key.name = {} := by
    intro r listed
    simpa [fresh] using listed
  have listed : ∀ r ∈ set.records ++ fresh, R.lists r.key.name = true := by
    intro r listed
    apply resolved r
    rcases List.mem_append.mp listed with old | new
    · exact List.mem_append_left _ old
    · exact List.mem_append_right _ (claimed r new).1
  obtain ⟨more, extends', added⟩ := exists_extends listed
    (fun r new => canonical r (claimed r new).1)
    (distinct.sublist (List.filter_sublist.map _)) fun r new => (claimed r new).2
  refine ⟨more, extends', ?_⟩
  rintro r claim (already | free)
  · exact extends'.supports already
  · have new : r ∈ more.records := added r (List.mem_filter.mpr ⟨claim, by simpa using free⟩)
    rw [CapabilitySet.supports, lookup_of_mem new, supported r claim]
    rfl

end CapabilitySet

namespace PortabilityRequest

open CapabilitySet

theorem named_of_lists {name : Bytes} (listed : Registry.core.lists name = true) :
    name = [] ∨ IsCanonical name Limits.maxNameBytes :=
  .inr (Registry.core.isCanonical_of_lists listed)

/-- The record that says that an ability is there. -/
def abilityRecord (name : Bytes) (listed : Registry.core.lists name = true) : CapabilityRecord :=
  { key := ⟨name, named_of_lists listed⟩
    state := .supported
    value := .presence true }

def abilityRecords : List CapabilityRecord := [
  abilityRecord Cap.migrationLiveStateTransfer (by decide +kernel),
  abilityRecord Cap.migrationCrossVendorState (by decide +kernel),
  abilityRecord Cap.migrationCheckpointRestore (by decide +kernel),
  abilityRecord Cap.portabilityRecompileAvailable (by decide +kernel),
  abilityRecord Cap.portabilityRepackageAvailable (by decide +kernel),
  abilityRecord Cap.migrationStateReconstruction (by decide +kernel)]

theorem exists_ablest {R : Registry} {set : CapabilitySet}
    (resolved : ∀ r ∈ set.records, R.lists r.key.name = true) :
    ∃ more : CapabilitySet, set.Extends more ∧
      ∀ key ∈ abilities, set.MightSupport key → more.supports key = true := by
  have core : ∀ r ∈ abilityRecords, (coreKind r.key.name).isSome = true := by decide +kernel
  have listed : ∀ r ∈ set.records ++ abilityRecords, R.lists r.key.name = true := by
    intro r listed
    rcases List.mem_append.mp listed with old | new
    · exact resolved r old
    · simp [Registry.lists, core r new]
  obtain ⟨more, extends', able⟩ := exists_fullest listed (by decide +kernel) (by decide +kernel)
    (by decide +kernel)
  refine ⟨more, extends', fun key ability might => ?_⟩
  have named : abilities = abilityRecords.map (·.key.name) := rfl
  rw [named] at ability
  obtain ⟨r, claim, rfl⟩ := List.mem_map.mp ability
  exact able r claim might

/-- A request with more evidence about the same endpoints. -/
structure Extends (request more : PortabilityRequest) : Prop where
  source : Option.Rel CapabilitySet.Extends request.sourceCapabilities more.sourceCapabilities
  destination : Option.Rel CapabilitySet.Extends request.destinationCapabilities
    more.destinationCapabilities
  sourceVendor : more.sourceVendor = request.sourceVendor
  destinationVendor : more.destinationVendor = request.destinationVendor
  policy : more.policyAllowsCrossVendorMigration = request.policyAllowsCrossVendorMigration
  workload : more.workload = request.workload

/-- What might justify a class if open capabilities turned out to be supported. -/
def MightJustify (request : PortabilityRequest) (source destination : CapabilitySet) :
    PortabilityClass → Prop :=
  request.Warrants source destination source.MightSupport destination.MightSupport

section Extends

variable {request more : PortabilityRequest}
  {source destination source' destination' : CapabilitySet}

theorem Evident.of_extends (evident : Evident source destination) (origin : source.Extends source')
    (target : destination.Extends destination') : Evident source' destination' :=
  fun item listed => ⟨origin.known (evident item listed).1, target.known (evident item listed).2⟩

/-- What is gated is the same with more evidence. -/
theorem Evident.shared_eq (evident : Evident source destination) (origin : source.Extends source')
    (target : destination.Extends destination') :
    source'.sharesToken destination' Cap.isaCodeObjectTargets =
        source.sharesToken destination Cap.isaCodeObjectTargets ∧
      sameArchitecture source' destination' = sameArchitecture source destination := by
  have same : ∀ item ∈ requiredEvidence, source'.lookup item.1 = source.lookup item.1 ∧
      destination'.lookup item.1 = destination.lookup item.1 := by
    intro item listed
    obtain ⟨knownSource, knownDestination⟩ := evident item listed
    simp only [known, decide_eq_true_eq] at knownSource knownDestination
    exact ⟨origin.lookup_eq knownSource, target.lookup_eq knownDestination⟩
  simp only [requiredEvidence, List.forall_mem_cons] at same
  obtain ⟨-, family, targets, -⟩ := same
  exact ⟨sharesToken_congr targets.1 targets.2, sameArchitecture_congr family.1 family.2⟩

theorem Extends.sameVendor_eq (extends' : request.Extends more) :
    more.sameVendor = request.sameVendor := by
  rw [sameVendor, sameVendor, extends'.sourceVendor, extends'.destinationVendor]

/-- A class that more evidence justifies might have been justified. -/
theorem Extends.mightJustify (extends' : request.Extends more) (origin : source.Extends source')
    (target : destination.Extends destination') (evident : Evident source destination)
    {c : PortabilityClass} (justified : more.Justifies source' destination' c) :
    request.MightJustify source destination c := by
  obtain ⟨targets, architecture⟩ := evident.shared_eq origin target
  apply Warrants.imp _ _ _ _ _ _ justified
  · exact fun shared => targets ▸ shared
  · exact fun same => architecture ▸ same
  · exact fun same => extends'.sameVendor_eq ▸ same
  · exact fun allowed => extends'.policy ▸ allowed
  · exact fun key _ supported => origin.mightSupport supported
  · exact fun key _ supported => target.mightSupport supported

/-- A class that might be justified is justified where all that might be supported is. -/
theorem Extends.justifies (extends' : request.Extends more) (origin : source.Extends source')
    (target : destination.Extends destination') (evident : Evident source destination)
    (ableSource : ∀ key ∈ abilities, source.MightSupport key → source'.supports key = true)
    (ableDestination : ∀ key ∈ abilities,
      destination.MightSupport key → destination'.supports key = true)
    {c : PortabilityClass} (might : request.MightJustify source destination c) :
    more.Justifies source' destination' c := by
  obtain ⟨targets, architecture⟩ := evident.shared_eq origin target
  apply Warrants.imp _ _ _ _ ableSource ableDestination might
  · exact fun shared => targets.trans shared
  · exact fun same => architecture.trans same
  · exact fun same => extends'.sameVendor_eq.trans same
  · exact fun allowed => extends'.policy.trans allowed

end Extends

end PortabilityRequest

open PortabilityRequest in
/-- The classifier fails closed exactly if every class that might be justified is outranked by
one that is. The keys of the records come from a table of names, as all keys do. -/
theorem fails_closed_iff {R : Registry} {request : PortabilityRequest}
    {source destination : CapabilitySet} (origin : request.sourceCapabilities = some source)
    (target : request.destinationCapabilities = some destination)
    (resolved : ∀ r ∈ source.records ++ destination.records, R.lists r.key.name = true)
    (concrete : (classifyPortability request).value ≠ .unknown) :
    (∀ more : PortabilityRequest, request.Extends more →
      (classifyPortability more).value.strength ≤ (classifyPortability request).value.strength) ↔
    ∀ c, request.MightJustify source destination c →
      ∃ c', request.Justifies source destination c' ∧ c.strength ≤ c'.strength := by
  rw [classifyPortability, origin, target] at concrete ⊢
  have evident := request.classifyKnown_ne_unknown.mp concrete
  obtain ⟨justified, strongest⟩ := request.classifyKnown_spec evident
  constructor
  · intro closed c might
    obtain ⟨source', more, able⟩ := exists_ablest (R := R) fun r (listed : r ∈ source.records) =>
      resolved r (List.mem_append_left _ listed)
    obtain ⟨destination', more', able'⟩ := exists_ablest (R := R)
      fun r (listed : r ∈ destination.records) => resolved r (List.mem_append_right _ listed)
    let fuller : PortabilityRequest := { request with
      sourceCapabilities := some source', destinationCapabilities := some destination' }
    have extends' : request.Extends fuller :=
      ⟨origin ▸ .some more, target ▸ .some more', rfl, rfl, rfl, rfl⟩
    have reached := (fuller.classifyKnown_spec (evident.of_extends more more')).2 c
      (extends'.justifies more more' evident able able' might)
    exact ⟨_, justified, reached.trans (closed fuller extends')⟩
  · intro conclusive more extends'
    obtain ⟨source', given, extended⟩ := exists_of_rel_some (origin ▸ extends'.source)
    obtain ⟨destination', given', extended'⟩ := exists_of_rel_some (target ▸ extends'.destination)
    rw [classifyPortability, given, given']
    have found := (more.classifyKnown_spec (evident.of_extends extended extended')).1
    obtain ⟨c', known, above⟩ := conclusive _
      (extends'.mightJustify extended extended' evident found)
    exact above.trans (strongest c' known)

namespace Sample

def checkpointRecord : CapabilityRecord :=
  PortabilityRequest.abilityRecord Cap.migrationCheckpointRestore (by decide +kernel)

def liveRecord : CapabilityRecord :=
  PortabilityRequest.abilityRecord Cap.migrationLiveStateTransfer (by decide +kernel)

/-- The devices produce other code objects. -/
def foreignRecords : List CapabilityRecord := records.map fun r =>
  if r.key.name = Cap.isaCodeObjectTargets then { r with value := .tokenSet [text "t2"] } else r

def foreign : CapabilitySet :=
  { id := capabilitySetIdentity foreignRecords []
    generation := ⟨1⟩
    records := foreignRecords
    records_canonical := by decide +kernel
    identified := .inl rfl }

/-- The same device, of which it is known that it takes recompiled code. -/
def rebuildingRecords : List CapabilityRecord :=
  sortOn (·.key.name) (PortabilityRequest.abilityRecord Cap.portabilityRecompileAvailable
    (by decide +kernel) :: foreignRecords)

def rebuilding : CapabilitySet :=
  { id := capabilitySetIdentity rebuildingRecords []
    generation := ⟨1⟩
    records := rebuildingRecords
    records_canonical := by decide +kernel
    identified := .inl rfl }

theorem extends_refl (set : CapabilitySet) : set.Extends set :=
  ⟨rfl, fun _ listed => listed, fun _ listed new => absurd listed new⟩

theorem extends_rebuilding : foreign.Extends rebuilding := by
  refine ⟨rfl, ?_, ?_⟩
  · decide +kernel
  · decide +kernel

theorem extends_between {source destination more : CapabilitySet}
    (extends' : destination.Extends more) :
    (between source destination).Extends (between source more) :=
  ⟨.some (extends_refl source), .some extends', rfl, rfl, rfl, rfl⟩

theorem class_between :
    (classifyPortability (between capabilities foreign)).value = .unsupported := by
  decide +kernel

end Sample

open Sample in
/-- A move is UNSUPPORTED until it is known that the destination takes recompiled code. -/
theorem unsupported_until_known :
    (between capabilities foreign).Extends (between capabilities rebuilding) ∧
      (classifyPortability (between capabilities foreign)).value = .unsupported ∧
      (classifyPortability (between capabilities rebuilding)).value = .recompileRequired :=
  ⟨extends_between extends_rebuilding, class_between, by decide +kernel⟩

open Sample in
theorem fails_closed_between :
    (∀ more : PortabilityRequest, (between capabilities foreign).Extends more →
      (classifyPortability more).value.strength ≤
        (classifyPortability (between capabilities foreign)).value.strength) ↔
    ∀ c, (between capabilities foreign).MightJustify capabilities foreign c →
      ∃ c', (between capabilities foreign).Justifies capabilities foreign c' ∧
        c.strength ≤ c'.strength := by
  refine fails_closed_iff (R := .core) rfl rfl (by decide +kernel) ?_
  rw [class_between]
  decide

/-! ### Further abilities -/

namespace CapabilitySet

/-- The capabilities that an upgrade makes available. -/
def IsAbility (name : Bytes) : Prop :=
  nameSpace name = text "migration" ∨ nameSpace name = text "portability"

/-- The second set is the first with some abilities made SUPPORTED and tokens added to the code
object targets. -/
structure Upgrades (set more : CapabilitySet) : Prop where
  kept : ∀ name, ¬ IsAbility name → name ≠ Cap.isaCodeObjectTargets →
    more.lookup name = set.lookup name
  abilities : ∀ name, IsAbility name →
    more.lookup name = set.lookup name ∨ more.supports name = true
  targets : more.known Cap.isaCodeObjectTargets = set.known Cap.isaCodeObjectTargets ∧
    ∀ token, set.Lists Cap.isaCodeObjectTargets token → more.Lists Cap.isaCodeObjectTargets token

/-- An extension by SUPPORTED abilities is an upgrade. -/
theorem Extends.upgrades {set more : CapabilitySet} (extends' : set.Extends more)
    (able : ∀ r ∈ more.records, r ∉ set.records →
      (nameSpace r.key.name = text "migration" ∨ nameSpace r.key.name = text "portability") ∧
        r.state = .supported) : set.Upgrades more := by
  have same : ∀ name, (∀ r ∈ more.records, r.key.name = name → r ∈ set.records) →
      more.lookup name = set.lookup name := by
    intro name old
    apply lookup_congr
    · exact fun r named => ⟨fun listed => old r listed named, extends'.kept r⟩
    · rw [extends'.namespaces]
  have kept : ∀ name, ¬ IsAbility name → more.lookup name = set.lookup name := by
    intro name plain
    apply same
    intro r listed named
    by_contra new
    exact plain (named ▸ (able r listed new).1)
  have targets : more.lookup Cap.isaCodeObjectTargets = set.lookup Cap.isaCodeObjectTargets := by
    apply kept
    rw [IsAbility]
    decide +kernel
  refine ⟨fun name plain _ => kept name plain, fun name _ => ?_, known_congr targets, ?_⟩
  · by_cases old : ∀ r ∈ more.records, r.key.name = name → r ∈ set.records
    · exact .inl (same name old)
    · push Not at old
      obtain ⟨r, listed, rfl, new⟩ := old
      right
      rw [CapabilitySet.supports, lookup_of_mem listed, (able r listed new).2]
      rfl
  · intro token listed
    rwa [Lists, targets]

end CapabilitySet

namespace PortabilityRequest

open CapabilitySet

/-- The second request is the first with upgraded endpoints and perhaps a more liberal policy. -/
structure Upgrades (request more : PortabilityRequest) : Prop where
  source : Option.Rel CapabilitySet.Upgrades request.sourceCapabilities more.sourceCapabilities
  destination : Option.Rel CapabilitySet.Upgrades request.destinationCapabilities
    more.destinationCapabilities
  sourceVendor : more.sourceVendor = request.sourceVendor
  destinationVendor : more.destinationVendor = request.destinationVendor
  policy : request.policyAllowsCrossVendorMigration = true →
    more.policyAllowsCrossVendorMigration = true
  workload : more.workload = request.workload

section Upgrades

variable {request more : PortabilityRequest}
  {source destination source' destination' : CapabilitySet}

theorem Evident.of_upgrades (evident : Evident source destination)
    (origin : source.Upgrades source') (target : destination.Upgrades destination') :
    Evident source' destination' := by
  have plain : ∀ item ∈ requiredEvidence, nameSpace item.1 ≠ text "migration" ∧
      nameSpace item.1 ≠ text "portability" := by decide +kernel
  have kept : ∀ {set more : CapabilitySet}, set.Upgrades more → ∀ item ∈ requiredEvidence,
      set.known item.1 = true → more.known item.1 = true := by
    intro set more upgrades item listed known
    by_cases targets : item.1 = Cap.isaCodeObjectTargets
    · rw [targets] at known ⊢
      rwa [upgrades.targets.1]
    · rwa [known_congr (upgrades.kept item.1 (not_or.mpr (plain item listed)) targets)]
  exact fun item listed => ⟨kept origin item listed (evident item listed).1,
    kept target item listed (evident item listed).2⟩

theorem supports_of_upgrades {set more : CapabilitySet} (upgrades : set.Upgrades more) {key : Bytes}
    (ability : key ∈ abilities) (supported : set.supports key = true) :
    more.supports key = true := by
  have named : ∀ key ∈ abilities, nameSpace key = text "migration" ∨
      nameSpace key = text "portability" := by decide +kernel
  rcases upgrades.abilities key (named key ability) with same | now
  · rwa [supports_congr same]
  · exact now

theorem Upgrades.justifies (upgrades : request.Upgrades more) (origin : source.Upgrades source')
    (target : destination.Upgrades destination') {c : PortabilityClass}
    (justified : request.Justifies source destination c) :
    more.Justifies source' destination' c := by
  apply Warrants.imp _ _ _ upgrades.policy _ _ justified
  · intro shared
    obtain ⟨token, left, right⟩ := sharesToken_iff.mp shared
    exact sharesToken_iff.mpr ⟨token, origin.targets.2 token left, target.targets.2 token right⟩
  · intro same
    have plain : ¬ IsAbility Cap.architectureFamily := by
      rw [IsAbility]
      decide +kernel
    have other : Cap.architectureFamily ≠ Cap.isaCodeObjectTargets := by decide +kernel
    rwa [sameArchitecture_congr (origin.kept _ plain other) (target.kept _ plain other)]
  · intro same
    rwa [sameVendor, upgrades.sourceVendor, upgrades.destinationVendor]
  · exact fun key ability supported => supports_of_upgrades origin ability supported
  · exact fun key ability supported => supports_of_upgrades target ability supported

end Upgrades

end PortabilityRequest

open PortabilityRequest in
/-- Where the gating capabilities are known, further abilities never lower the class. -/
theorem upgrades_never_lower {request more : PortabilityRequest}
    {source destination : CapabilitySet} (origin : request.sourceCapabilities = some source)
    (target : request.destinationCapabilities = some destination)
    (evident : Evident source destination) (upgrades : request.Upgrades more) :
    (classifyPortability request).value.strength ≤ (classifyPortability more).value.strength := by
  obtain ⟨source', given, upgraded⟩ := exists_of_rel_some (origin ▸ upgrades.source)
  obtain ⟨destination', given', upgraded'⟩ := exists_of_rel_some (target ▸ upgrades.destination)
  rw [classifyPortability, origin, target, classifyPortability, given, given']
  have justified := (request.classifyKnown_spec evident).1
  exact (more.classifyKnown_spec (evident.of_upgrades upgraded upgraded')).2 _
    (upgrades.justifies upgraded upgraded' justified)

namespace Sample

theorem upgrades_between {source source' destination destination' : CapabilitySet}
    (origin : source.Upgrades source') (target : destination.Upgrades destination') :
    (between source destination).Upgrades (between source' destination') :=
  ⟨.some origin, .some target, rfl, rfl, id, rfl⟩

theorem upgrades_rebuilding : foreign.Upgrades rebuilding := by
  apply extends_rebuilding.upgrades
  decide +kernel

theorem evident_foreign : PortabilityRequest.Evident capabilities foreign := by
  rw [PortabilityRequest.Evident]
  decide +kernel

end Sample

open Sample in
/-- A device that takes recompiled code from then on. -/
theorem lowered_by_no_compiler :
    (between capabilities foreign).Upgrades (between capabilities rebuilding) ∧
      (classifyPortability (between capabilities foreign)).value.strength ≤
        (classifyPortability (between capabilities rebuilding)).value.strength := by
  have upgrades : (between capabilities foreign).Upgrades (between capabilities rebuilding) :=
    upgrades_between ((extends_refl capabilities).upgrades fun _ listed new => absurd listed new)
      upgrades_rebuilding
  exact ⟨upgrades, upgrades_never_lower rfl rfl evident_foreign upgrades⟩

end Haf
