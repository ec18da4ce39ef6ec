/-
# Capability keys

The core vocabulary is a closed table of names with value domains. Extension
names of the form "x.<namespace>.<name>" are interned on first use into a
process-wide table of bounded size. A handle is modelled by the canonical name it
resolves to, and the table by the names the process ever interns: since names are
never removed, a lookup that has to intern a name fails exactly when the name never
makes it into the table.
-/

import Haf.Lib.Sequence
import Haf.Model.Taxonomy

namespace Haf

/-- Value domain of a capability key. -/
inductive CapabilityKind
  | presence | version | integer | scalar | enumeration | tokenSet
  deriving DecidableEq

namespace CapabilityKind

def toText : CapabilityKind → Bytes
  | .presence => text "presence"
  | .version => text "version"
  | .integer => text "integer"
  | .scalar => text "scalar"
  | .enumeration => text "enumeration"
  | .tokenSet => text "token_set"

def toWire : CapabilityKind → UInt8
  | .presence => 0
  | .version => 1
  | .integer => 2
  | .scalar => 3
  | .enumeration => 4
  | .tokenSet => 5

def fromWire : UInt8 → Option CapabilityKind
  | 0 => some .presence
  | 1 => some .version
  | 2 => some .integer
  | 3 => some .scalar
  | 4 => some .enumeration
  | 5 => some .tokenSet
  | _ => none

@[simp]
theorem fromWire_toWire (kind : CapabilityKind) : fromWire kind.toWire = some kind := by
  cases kind <;> rfl

end CapabilityKind

/-- The closed vocabulary of the federation core, sorted by name. -/
def coreKeys : List (Bytes × CapabilityKind) := [
  (text "api.family", .tokenSet),
  (text "architecture.device_generation", .integer),
  (text "architecture.family", .enumeration),
  (text "comm.collectives", .tokenSet),
  (text "comm.direct_peer_memory", .presence),
  (text "comm.host_staging_required", .presence),
  (text "comm.rdma", .presence),
  (text "compute.capability", .version),
  (text "driver.version", .version),
  (text "evidence.provenance", .enumeration),
  (text "execution.features", .tokenSet),
  (text "health.error_state", .enumeration),
  (text "health.readiness", .enumeration),
  (text "health.thermal_state", .enumeration),
  (text "interconnect.links", .tokenSet),
  (text "isa.code_object_targets", .tokenSet),
  (text "kernel.cooperative_launch", .presence),
  (text "kernel.dynamic_parallelism", .presence),
  (text "kernel.max_shared_memory_per_block_bytes", .integer),
  (text "kernel.max_threads_per_block", .integer),
  (text "memory.address_bits", .integer),
  (text "memory.allocation_alignment_bytes", .integer),
  (text "memory.classes", .tokenSet),
  (text "memory.ecc_enabled", .presence),
  (text "memory.free_bytes", .integer),
  (text "memory.host_pinned_transfer", .presence),
  (text "memory.managed_allocation", .presence),
  (text "memory.page_granularity_bytes", .integer),
  (text "memory.total_bytes", .integer),
  (text "memory.unified_addressing", .presence),
  (text "memory.virtual_management", .presence),
  (text "migration.checkpoint_restore", .presence),
  (text "migration.cross_vendor_state", .presence),
  (text "migration.live_state_transfer", .presence),
  (text "migration.state_export", .presence),
  (text "migration.state_reconstruction", .presence),
  (text "numeric.bf16", .presence),
  (text "numeric.denormals_preserved", .presence),
  (text "numeric.formats", .tokenSet),
  (text "numeric.fma_contraction", .presence),
  (text "numeric.fp16", .presence),
  (text "numeric.fp32", .presence),
  (text "numeric.fp4_e2m1", .presence),
  (text "numeric.fp64", .presence),
  (text "numeric.fp6_e2m3", .presence),
  (text "numeric.fp8_e4m3", .presence),
  (text "numeric.fp8_e5m2", .presence),
  (text "numeric.int8", .presence),
  (text "numeric.tf32", .presence),
  (text "partition.mode", .enumeration),
  (text "partition.observed_profiles", .tokenSet),
  (text "peer.access", .tokenSet),
  (text "peer.unified_access", .presence),
  (text "portability.recompile_available", .presence),
  (text "portability.repackage_available", .presence),
  (text "queue.concurrent_streams", .integer),
  (text "runtime.family", .enumeration),
  (text "runtime.version", .version),
  (text "support.level", .enumeration),
  (text "sync.events", .presence),
  (text "sync.graph_capture", .presence),
  (text "sync.stream_semantics", .enumeration),
  (text "tensor.block_scaled_mma", .presence),
  (text "tensor.matrix_engine", .presence),
  (text "tensor.structured_sparsity", .presence),
  (text "tensor.warp_group_mma", .presence),
  (text "vendor.id", .enumeration),
  (text "vendor.product", .enumeration)]

/-- The value domain of a core name. -/
def coreKind (name : Bytes) : Option CapabilityKind :=
  (coreKeys.find? fun entry => entry.1 == name).map (·.2)

/-- Extension namespace: "x.<namespace>.<name>". -/
def isExtensionName : Bytes → Bool
  | 120 :: 46 :: rest =>
      3 ≤ rest.length &&
        match splitFirst 46 rest with
        | none => false
        | some (_, after) => !after.isEmpty
  | _ => false

/-- The extension names the process ever interns. -/
structure Registry where
  extensions : List Bytes
  interned : ∀ name ∈ extensions,
    isExtensionName name = true ∧ IsCanonical name Limits.maxNameBytes
  capacity : coreKeys.length + extensions.length ≤ 4096

namespace Registry

/-- A process that never interns an extension. -/
def core : Registry := ⟨[], by simp, by decide⟩

/-- A name that the table resolves. -/
def lists (R : Registry) (name : Bytes) : Bool := (coreKind name).isSome || name ∈ R.extensions

end Registry

theorem isCanonical_of_mem_coreKeys {entry : Bytes × CapabilityKind} (listed : entry ∈ coreKeys) :
    IsCanonical entry.1 Limits.maxNameBytes := by
  have table : ∀ entry ∈ coreKeys, entry.1 ≠ [] ∧ entry.1.all isTokenChar = true ∧
      entry.1.length ≤ Limits.maxNameBytes := by decide +kernel
  obtain ⟨nonempty, alphabet, bounded⟩ := table entry listed
  exact ⟨nonempty, by simpa using alphabet, bounded⟩

theorem Registry.mem_of_lists (R : Registry) {name : Bytes} (listed : R.lists name = true) :
    name ∈ coreKeys.map (·.1) ++ R.extensions := by
  rcases Bool.or_eq_true _ _ ▸ listed with core | extension
  · rw [coreKind, Option.isSome_map] at core
    obtain ⟨entry, found⟩ := Option.isSome_iff_exists.mp core
    have same : entry.1 = name := by simpa using List.find?_some found
    exact List.mem_append_left _ (same ▸ List.mem_map_of_mem (List.mem_of_find?_eq_some found))
  · exact List.mem_append_right _ (by simpa using extension)

/-- Names the table resolves are canonical. -/
theorem Registry.isCanonical_of_lists (R : Registry) {name : Bytes} (listed : R.lists name = true) :
    IsCanonical name Limits.maxNameBytes := by
  rcases List.mem_append.mp (R.mem_of_lists listed) with core | extension
  · obtain ⟨entry, tabled, rfl⟩ := List.mem_map.mp core
    exact isCanonical_of_mem_coreKeys tabled
  · exact (R.interned name extension).2

/-- Handle of a capability key, given by the canonical name; empty when unresolved. -/
structure CapabilityKey where
  name : Bytes := []
  canonical : name = [] ∨ IsCanonical name Limits.maxNameBytes := by exact Or.inl rfl
  deriving DecidableEq

namespace CapabilityKey

def valid (key : CapabilityKey) : Bool := !key.name.isEmpty

/-- Extension keys carry token sets; an unresolved handle reads as a presence key. -/
def kind (key : CapabilityKey) : CapabilityKind :=
  if key.valid then (coreKind key.name).getD .tokenSet else .presence

end CapabilityKey

/-- Resolve a name, interning an extension name on first use. -/
def capabilityKeyFromName (R : Registry) (name : Bytes) : Result CapabilityKey :=
  if listed : R.lists name then .ok ⟨name, .inr (R.isCanonical_of_lists listed)⟩
  else if !isExtensionName name then
    .error ⟨.unknownCapability,
      text "capability key is not part of the federation vocabulary and is not an extension key: '"
        ++ name ++ text "'"⟩
  else do
    let canonical ← canonicalToken name Limits.maxNameBytes
    if !isExtensionName canonical then
      .error ⟨.unknownCapability,
        text "extension capability key is malformed: '" ++ canonical ++ text "'"⟩
    else if listed : R.lists canonical then .ok ⟨canonical, .inr (R.isCanonical_of_lists listed)⟩
    else
      .error (.failure .resourceExhausted "capability extension namespace table is full")

/-! ### Resolved names -/

/-- The name of a handle resolves to the handle itself when the table lists it, and to
nothing otherwise. -/
theorem capabilityKeyFromName_name (R : Registry) {key : CapabilityKey} (valid : key.valid = true) :
    capabilityKeyFromName R key.name = .ok key ∧ R.lists key.name = true ∨
      (∃ e, capabilityKeyFromName R key.name = .error e) ∧ R.lists key.name = false := by
  have canonical : canonicalToken key.name Limits.maxNameBytes = .ok key.name :=
    (key.canonical.resolve_left (by simpa [CapabilityKey.valid] using valid)).canonicalToken_eq
  rw [capabilityKeyFromName]
  by_cases listed : R.lists key.name = true
  · exact .inl ⟨by rw [dif_pos listed], listed⟩
  · refine .inr ⟨?_, by simpa using listed⟩
    rw [dif_neg listed]
    split
    · exact ⟨_, rfl⟩
    · rw [canonical]
      simp only [bind, Except.bind, listed]
      split
      · exact ⟨_, rfl⟩
      · exact ⟨_, rfl⟩

/-- A resolved key names an entry of the table. -/
theorem lists_of_capabilityKeyFromName {R : Registry} {name : Bytes} {key : CapabilityKey}
    (resolved : capabilityKeyFromName R name = .ok key) : R.lists key.name = true := by
  rw [capabilityKeyFromName] at resolved
  split at resolved
  · rename_i listed
    cases resolved
    exact listed
  · split at resolved
    · cases resolved
    · cases canonical : canonicalToken name Limits.maxNameBytes with
      | error e =>
          rw [canonical] at resolved
          cases resolved
      | ok canonicalName =>
          rw [canonical] at resolved
          change (if _ then _ else dite _ _ _) = _ at resolved
          split at resolved
          · cases resolved
          · split at resolved
            · rename_i listed
              cases resolved
              exact listed
            · cases resolved

/-- No key of the vocabulary carries a floating-point value. -/
theorem CapabilityKey.kind_ne_scalar (key : CapabilityKey) : key.kind ≠ .scalar := by
  have table : ∀ entry ∈ coreKeys, entry.2 ≠ .scalar := by decide +kernel
  rw [kind]
  split
  · cases found : coreKind key.name with
    | none => simp
    | some k =>
        obtain ⟨entry, located, rfl⟩ := Option.map_eq_some_iff.mp found
        exact table entry (List.mem_of_find?_eq_some located)
  · simp

end Haf
