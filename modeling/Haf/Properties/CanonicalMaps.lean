/-
# Canonical tokens and maps

Tokens, values and sets are brought into canonical form before they are stored, hashed or
compared. What is in canonical form stays as it is, and what becomes of a list of records or of
namespaces does not depend on its order: a set is the map that the lists describe, and the two
searches of a lookup find in it what the lists say.
-/

import Haf.Properties.CanonicalForm
import Haf.Properties.Declaration
import Haf.Properties.Vocabulary

namespace Haf

open Sequence

/-- **Canonical forms are fixed points.** Canonical tokens are accepted unchanged, slugs are short
and canonical, and a value that is canonical is canonicalized to itself, the tokens of a set in
strictly increasing order. -/
theorem canonical_forms_are_fixed :
    (∀ token maxBytes out, canonicalToken token maxBytes = .ok out →
        canonicalToken out maxBytes = .ok out) ∧
      (∀ text maxBytes out, slugToken text maxBytes = .ok out →
        out.length ≤ maxBytes ∧ out ≠ [] ∧ canonicalToken out maxBytes = .ok out) ∧
      ∀ value out : CapabilityValue, value.kind ≠ .scalar → value.canonicalize = .ok out →
        out.canonicalize = .ok out ∧ ∀ tokens, out = .tokenSet tokens → tokens.Pairwise (· < ·) := by
  refine ⟨?_, ?_, ?_⟩
  · intro token maxBytes out accepted
    exact (isCanonical_of_canonicalToken accepted).canonicalToken_eq
  · intro text maxBytes out made
    have canonical := isCanonical_of_slugToken made
    exact ⟨canonical.bounded, canonical.nonempty, canonical.canonicalToken_eq⟩
  · intro value out _ accepted
    refine ⟨CapabilityValue.canonicalize_idem accepted, ?_⟩
    rintro tokens rfl
    cases CapabilityValue.canonicalize_eq_ok_iff.mp accepted with
    | tokenSet canonical =>
        obtain ⟨_, working, _, rfl⟩ := canonicalTokens_eq_some_iff.mp canonical
        exact pairwise_sortUnique working

/-- The separator at the cut goes, the one before it stays. -/
theorem slug_is_fixed : slugToken (text "Acme & Co, Ltd.") 8 = .ok (text "acme-co") ∧
    canonicalToken (text "acme-co") 8 = .ok (text "acme-co") := by
  have made : slugToken (text "Acme & Co, Ltd.") 8 = .ok (text "acme-co") := by decide
  exact ⟨made, (canonical_forms_are_fixed.2.1 _ _ _ made).2.2⟩

namespace CapabilitySet

variable {set out : CapabilitySet} {records : List CapabilityRecord} {namespaces : List Bytes}

/-- The order in which namespaces come is immaterial. -/
theorem setClosedNamespaces_perm {namespaces' : List Bytes} (perm : namespaces.Perm namespaces')
    (closed : set.setClosedNamespaces namespaces = .ok out) :
    set.setClosedNamespaces namespaces' = .ok out := by
  obtain ⟨canonical, rest⟩ := setClosedNamespaces_eq_ok_iff.mp closed
  obtain ⟨few, working, mapped, unique⟩ := canonicalNamespaces_eq_ok_iff.mp canonical
  obtain ⟨results, mapped', moved⟩ := perm_of_mapM perm mapped
  have arrivals : SameArrivals (fun name => name) working results :=
    .of_perm moved fun _ _ _ _ same => same
  have alike : ascending working = ascending results := arrivals.sortOn_eq
  have sorted : sortUnique working = sortUnique results := by rw [sortUnique, alike, sortUnique]
  exact setClosedNamespaces_eq_ok_iff.mpr ⟨canonicalNamespaces_eq_ok_iff.mpr
    ⟨perm.length_eq ▸ few, results, mapped', unique.trans sorted⟩, rest⟩

/-! ### The searches of a lookup -/

/-- The lookup as it is made: a search for the first record that is not below the name, then one
for the first closed namespace that is not below the part of the name before its first dot. -/
def searchLookup (set : CapabilitySet) (name : Bytes) : CapabilityLookup :=
  match searchOn (·.key.name) set.records name with
  | some r => { state := r.state, value := some r.value, present := true }
  | none =>
      if (searchOn (fun n => n) set.closedNamespaces (nameSpace name)).isSome then
        { state := .unsupported, namespaceClosed := true }
      else {}

/-- Records and namespaces are sorted, and so the searches find what there is. -/
theorem searchLookup_eq (set : CapabilitySet) (name : Bytes) :
    set.searchLookup name = set.lookup name := by
  obtain ⟨_, working, _, unique⟩ := canonicalNamespaces_eq_ok_iff.mp set.namespaces_canonical
  have within : (searchOn (fun n => n) set.closedNamespaces (nameSpace name)).isSome =
      set.closedNamespaces.contains (nameSpace name) := by
    rw [Bool.eq_iff_iff, List.contains_iff_mem,
      isSome_searchOn (unique ▸ pairwise_sortUnique working)]
    exact exists_eq_right
  rw [searchLookup, within, ← find_eq_searchOn]
  rfl

/-! ### The map that a set is -/

/-- Fills of a fresh set, of which the last ones were with these records and these namespaces. -/
inductive FilledWith : CapabilitySet → List CapabilityRecord → List Bytes → Prop
  | fresh (generation : CapabilityGeneration) : FilledWith { generation } [] []
  | records {set out : CapabilitySet} {before records : List CapabilityRecord}
      {namespaces : List Bytes} (filled : FilledWith set before namespaces)
      (accepted : set.setRecords records = .ok out) : FilledWith out records namespaces
  | namespaces {set out : CapabilitySet} {records : List CapabilityRecord}
      {before namespaces : List Bytes} (filled : FilledWith set records before)
      (accepted : set.setClosedNamespaces namespaces = .ok out) :
      FilledWith out records namespaces

/-- The map that records and namespaces describe. -/
def described (records : List CapabilityRecord) (namespaces : List Bytes) (name : Bytes) :
    CapabilityLookup :=
  match records.find? (·.key.name == name) with
  | some r => { state := r.state, value := some r.value.canonical, present := true }
  | none =>
      if namespaces.any (canonicalNamespace · = .ok (nameSpace name)) then
        { state := .unsupported, namespaceClosed := true }
      else {}

namespace FilledWith

/-- A set holds the canonical forms of what it was last filled with. -/
theorem canonical (filled : FilledWith set records namespaces) :
    canonicalRecords records = .ok set.records ∧
      canonicalNamespaces namespaces = .ok set.closedNamespaces := by
  induction filled with
  | fresh generation => exact ⟨rfl, rfl⟩
  | records _ accepted ih =>
      obtain ⟨listed, closed, _⟩ := setRecords_eq_ok_iff.mp accepted
      exact ⟨listed, closed ▸ ih.2⟩
  | namespaces _ accepted ih =>
      obtain ⟨closed, listed, _⟩ := setClosedNamespaces_eq_ok_iff.mp accepted
      exact ⟨listed ▸ ih.1, closed⟩

theorem lookup_eq (filled : FilledWith set records namespaces) (name : Bytes) :
    set.lookup name = described records namespaces name := by
  obtain ⟨listed, closed⟩ := filled.canonical
  obtain ⟨_, working, mapped, sorted, _⟩ := canonicalRecords_eq_ok_iff.mp listed
  obtain ⟨_, working', mapped', unique⟩ := canonicalNamespaces_eq_ok_iff.mp closed
  rw [described]
  cases given : records.find? (·.key.name == name) with
  | some r =>
      have named : r.key.name = name := by simpa using List.find?_some given
      obtain ⟨r', inside, canonical⟩ := exists_of_mapM mapped (List.mem_of_find?_eq_some given)
      obtain ⟨value, formed, rfl, _⟩ := CapabilityRecord.canonicalRecord_eq_ok_iff.mp canonical
      have found := lookup_of_mem (sorted ▸ mem_sortOn.mpr inside : { r with value } ∈ set.records)
      rw [← CapabilityValue.canonical_of_ok formed, named] at found
      exact found
  | none =>
      have missed : set.records.find? (·.key.name == name) = none := by
        rw [List.find?_eq_none] at given ⊢
        intro r' inside
        obtain ⟨r, source, canonical⟩ := exists_of_mem_mapM mapped (mem_sortOn.mp (sorted ▸ inside))
        obtain ⟨value, _, rfl, _⟩ := CapabilityRecord.canonicalRecord_eq_ok_iff.mp canonical
        exact given r source
      have within : set.closedNamespaces.contains (nameSpace name) =
          namespaces.any (canonicalNamespace · = .ok (nameSpace name)) := by
        rw [Bool.eq_iff_iff, List.contains_iff_mem, List.any_eq_true, unique, mem_sortUnique]
        simp only [decide_eq_true_eq]
        constructor
        · exact fun inside => exists_of_mem_mapM mapped' inside
        · rintro ⟨n, source, canonical⟩
          obtain ⟨n', inside, same⟩ := exists_of_mapM mapped' source
          cases same.symm.trans canonical
          exact inside
      rw [← within, lookup, missed]
      rfl

end FilledWith

/-- **Sets are canonical maps.** Records and namespaces are accepted in every order or in none,
and make the same set, with its digest and identity; and what the searches find in a set is what
the records and namespaces it was filled with describe. -/
theorem sets_are_canonical_maps :
    (∀ (set : CapabilitySet) (records records' : List CapabilityRecord), records.Perm records' →
        ∀ out, set.setRecords records = .ok out ↔ set.setRecords records' = .ok out) ∧
      (∀ (set : CapabilitySet) (namespaces namespaces' : List Bytes), namespaces.Perm namespaces' →
        ∀ out, set.setClosedNamespaces namespaces = .ok out ↔
          set.setClosedNamespaces namespaces' = .ok out) ∧
      ∀ set records namespaces, FilledWith set records namespaces →
        ∀ name, set.searchLookup name = described records namespaces name := by
  refine ⟨?_, ?_, ?_⟩
  · intro set records records' perm out
    exact ⟨setRecords_perm perm, setRecords_perm perm.symm⟩
  · intro set namespaces namespaces' perm out
    exact ⟨setClosedNamespaces_perm perm, setClosedNamespaces_perm perm.symm⟩
  · intro set records namespaces filled name
    rw [searchLookup_eq, filled.lookup_eq]

end CapabilitySet

open CapabilitySet in
theorem capabilities_are_a_map : FilledWith Sample.capabilities Sample.records [] ∧
    Sample.capabilities.searchLookup Cap.vendorId = described Sample.records [] Cap.vendorId := by
  have accepted : ({ generation := ⟨1⟩ } : CapabilitySet).setRecords Sample.records =
      .ok Sample.capabilities :=
    rfl
  have filled := FilledWith.records (.fresh ⟨1⟩) accepted
  exact ⟨filled, sets_are_canonical_maps.2.2 _ _ _ filled _⟩

end Haf
