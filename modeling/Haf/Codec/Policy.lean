/-
# Reading policies back

The decoder canonicalizes the lists of a policy and parses the text of its minimum
runtime version, so that a policy may come back in another form than it was
written, or not at all.
-/

import Haf.Codec.Member

namespace Haf

open Sequence Wire ByteReader

namespace FederationPolicy

/-- The checks a decoded policy goes through, applied to the policy that was written. -/
def readBack (R : Registry) (p : FederationPolicy) : Result FederationPolicy := do
  let minimumRuntimeVersion ← VersionRange.parse p.minimumRuntimeVersion.toText
  admitDecoded R { p with minimumRuntimeVersion }

/-- The policy as it is read back, if it is. -/
def persisted (R : Registry) (p : FederationPolicy) : FederationPolicy :=
  match p.readBack R with
  | .ok q => q
  | .error _ => p

/-- A dimension keeps to the limits of the wire. -/
def ShortList (maxBytes : Nat) (values : List Bytes) : Prop :=
  values.length ≤ Limits.maxPolicyDimensions ∧ ∀ value ∈ values, value.length ≤ maxBytes

/-- Every text and list keeps to the limits of the wire and the decoded policy is admitted. -/
structure Storable (R : Registry) (p : FederationPolicy) : Prop where
  name : p.name.length ≤ Limits.maxNameBytes
  allowed : ShortList Limits.maxTokenBytes p.allowedVendors
  forbidden : ShortList Limits.maxTokenBytes p.forbiddenVendors
  accelerators : p.forbiddenAccelerators.length ≤ Limits.maxPolicyDimensions
  deprecated : ShortList Limits.maxTokenBytes p.deprecatedArchitectures
  version : p.minimumRuntimeVersion.toText.length ≤ Limits.maxStringBytes
  required : ShortList Limits.maxNameBytes p.requiredCapabilities
  denied : ShortList Limits.maxNameBytes p.deniedCapabilities
  classes : p.allowedPortabilityClasses.length ≤ Limits.maxPolicyDimensions
  tags : ShortList Limits.maxTokenBytes p.tags
  admitted : ∃ q, p.readBack R = .ok q

theorem persisted_eq {R : Registry} {p q : FederationPolicy} (back : p.readBack R = .ok q) :
    p.persisted R = q := by
  rw [persisted, back]

/-- A policy is read back exactly when it can be stored. -/
theorem deserialize_reads (R : Registry) (p : FederationPolicy) :
    Reads (deserialize R) p.serialize (p.Storable R) (p.persisted R) := by
  refine Codes.of_append_nil ?_
  unfold serialize
  simp only [List.append_assoc]
  refine .then_ (strongId_reads _) (.then_ (generation_reads _) ?_)
  refine .step (string_reads _ _) Storable.name fun name => ?_
  refine .step (strings_reads _ _ _) Storable.allowed fun allowed => ?_
  refine .step (strings_reads _ _ _) Storable.forbidden fun forbidden => ?_
  refine .step (list_reads (by decide) p.forbiddenAccelerators (fun id => (length_strongId id).ge)
    fun id _ => strongId_reads id) (fun storable => ⟨storable.accelerators, by simp⟩)
    fun accelerators => ?_
  rw [List.map_id']
  refine .step (strings_reads _ _ _) Storable.deprecated fun deprecated => ?_
  refine .step (string_reads _ _) Storable.version fun version => ?_
  refine .then_ (u64_reads _) (.then_ (u8_reads _) (.then_ (boolean_reads _) ?_))
  refine .ofOption (SyntheticEvidencePolicy.fromWire_toWire _) ?_
  refine .step (strings_reads _ _ _) Storable.required fun required => ?_
  refine .step (strings_reads _ _ _) Storable.denied fun denied => ?_
  refine .step (list_reads (by decide) p.allowedPortabilityClasses (fun _ => le_rfl)
    fun value _ => .of_append_nil (.then_ (u8_reads _)
      (.ofOption_done (PortabilityClass.fromWire_toWire value))))
    (fun storable => ⟨storable.classes, by simp⟩) fun classes => ?_
  rw [List.map_id']
  refine .then_ (boolean_reads _) (.then_ (boolean_reads _) (.then_ (boolean_reads _)
    (.then_ (u64_reads _) ?_)))
  refine .step (strings_reads _ _ _) Storable.tags fun tags => ?_
  have decoded : ∀ range, VersionRange.parse p.minimumRuntimeVersion.toText = .ok range →
      p.readBack R = admitDecoded R { p with minimumRuntimeVersion := range } := by
    intro range parsed
    rw [readBack, parsed]
    rfl
  refine ofResult_reads (fun storable => ?_) fun range parsed => ?_
  · obtain ⟨q, back⟩ := storable.admitted
    obtain ⟨range, parsed, _⟩ := bind_eq_ok.mp back
    exact ⟨range, parsed⟩
  · refine ofResult_done (fun storable => ?_) fun q back => ?_
    · obtain ⟨q, back⟩ := storable.admitted
      rw [decoded range parsed] at back
      exact ⟨q, back⟩
    · rw [← decoded range parsed] at back
      exact ⟨(persisted_eq back).symm, name, allowed, forbidden, accelerators.1, deprecated,
        version, required, denied, classes.1, tags, q, back⟩

end FederationPolicy

end Haf
