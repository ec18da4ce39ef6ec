/-
# What is asked for and what is advertised

A device's capabilities are put into canonical form when they enter a set: names and tokens
are trimmed and lowered, token lists sorted without repetitions. A requirement is only
validated, and is matched with the name and the value it was given. Which requirements match
as their canonical forms do is decided operator by operator: an equality compares the value as
it stands, the other operators ask only whether tokens are listed.
-/

import Haf.Properties.Extension

namespace Haf

open Sequence

theorem mem_sortUnique {κ : Type} [LinearOrder κ] {items : List κ} {a : κ} :
    a ∈ sortUnique items ↔ a ∈ items := by
  have sorted : (ascending items).Pairwise (· ≤ ·) := pairwise_sortOn id items
  rw [sortUnique, sorted.destutter_eq_dedup, List.mem_dedup]
  exact mem_sortOn

/-- A traversal succeeds where every item has an image. -/
theorem exists_mapM_eq_ok {ε α β : Type} {f : α → Except ε β} {items : List α}
    (each : ∀ a ∈ items, ∃ b, f a = .ok b) : ∃ results, items.mapM f = .ok results := by
  induction items with
  | nil => exact ⟨[], rfl⟩
  | cons a as ih =>
      obtain ⟨b, first⟩ := each a List.mem_cons_self
      obtain ⟨bs, rest⟩ := ih fun a' listed => each a' (List.mem_cons_of_mem a listed)
      exact ⟨b :: bs, mapM_cons_eq_ok.mpr ⟨b, bs, first, rest, rfl⟩⟩

variable {maxTokens : Nat} {out : List Bytes} {key : CapabilityKey}

/-- Every token that is given has its canonical form in the set. -/
theorem exists_of_canonicalTokens {tokens : List Bytes}
    (accepted : canonicalTokens tokens maxTokens = some out) {given : Bytes}
    (listed : given ∈ tokens) :
    ∃ token ∈ out, canonicalToken given Limits.maxTokenBytes = .ok token := by
  obtain ⟨_, working, normalized, rfl⟩ := canonicalTokens_eq_some_iff.mp accepted
  obtain ⟨token, inside, canonical⟩ := exists_of_mapM normalized listed
  exact ⟨token, mem_sortUnique.mpr inside, canonical⟩

/-- The tokens of a canonical set are the canonical forms of the given ones. -/
theorem mem_of_canonicalTokens {tokens : List Bytes}
    (accepted : canonicalTokens tokens maxTokens = some out) {token : Bytes} :
    token ∈ out ↔ ∃ given ∈ tokens, canonicalToken given Limits.maxTokenBytes = .ok token := by
  constructor
  · obtain ⟨_, working, normalized, rfl⟩ := canonicalTokens_eq_some_iff.mp accepted
    intro listed
    exact exists_of_mem_mapM normalized (mem_sortUnique.mp listed)
  · rintro ⟨given, listed, canonical⟩
    obtain ⟨token', inside, same⟩ := exists_of_canonicalTokens accepted listed
    cases canonical.symm.trans same
    exact inside

namespace CapabilityValue

/-- The value in canonical form; one that has none is left as it is. -/
def canonical (value : CapabilityValue) : CapabilityValue :=
  match value.canonicalize with
  | .ok out => out
  | .error _ => value

variable {out value : CapabilityValue}

theorem canonical_of_ok (accepted : value.canonicalize = .ok out) :
    value.canonical = out := by
  rw [canonical, accepted]

theorem canonical_of_error {e : Status}
    (refused : value.canonicalize = .error e) : value.canonical = value := by
  rw [canonical, refused]

/-- Values without tokens are canonical as they stand, quantities apart. -/
theorem canonical_of_kind (scalar : value.kind ≠ .scalar)
    (enumeration : value.kind ≠ .enumeration) (tokenSet : value.kind ≠ .tokenSet) :
    value.canonical = value := by
  cases value with
  | presence flag => rfl
  | version v =>
      rw [canonical, canonicalize]
      by_cases range : 100000 < v.major ∨ 100000 < v.minor ∨ 100000 < v.patch
      · rw [if_pos range]
      · rw [if_neg range]
  | integer n => rfl
  | scalar d => exact absurd rfl scalar
  | enumeration token => exact absurd rfl enumeration
  | tokenSet tokens => exact absurd rfl tokenSet

theorem kind_of_canonicalize (accepted : value.canonicalize = .ok out) :
    out.kind = value.kind := by
  cases canonicalize_eq_ok_iff.mp accepted <;> rfl

theorem kind_canonical (value : CapabilityValue) : value.canonical.kind = value.kind := by
  cases outcome : value.canonicalize with
  | error e => rw [canonical_of_error outcome]
  | ok out => rw [canonical_of_ok outcome, kind_of_canonicalize outcome]

/-- The tokens of a canonicalized value are the canonical forms of its tokens. -/
theorem mem_asTokenVector (accepted : value.canonicalize = .ok out)
    {token : Bytes} : token ∈ asTokenVector out ↔
      ∃ given ∈ asTokenVector value, canonicalToken given Limits.maxTokenBytes = .ok token := by
  cases canonicalize_eq_ok_iff.mp accepted with
  | enumeration canonical => simp [asTokenVector, canonical, eq_comm]
  | tokenSet canonical => exact mem_of_canonicalTokens canonical
  | _ => simp [asTokenVector]

/-- Every token of a value has its canonical form in the canonicalized one. -/
theorem exists_of_listed (accepted : value.canonicalize = .ok out)
    {given : Bytes} (listed : given ∈ asTokenVector value) :
    ∃ token ∈ asTokenVector out, canonicalToken given Limits.maxTokenBytes = .ok token := by
  cases canonicalize_eq_ok_iff.mp accepted with
  | enumeration canonical =>
      cases List.mem_singleton.mp listed
      exact ⟨_, List.mem_singleton.mpr rfl, canonical⟩
  | tokenSet canonical => exact exists_of_canonicalTokens canonical listed
  | _ => cases listed

theorem isCanonical_of_mem (accepted : value.canonicalize = .ok out)
    {token : Bytes} (listed : token ∈ asTokenVector out) :
    IsCanonical token Limits.maxTokenBytes := by
  obtain ⟨_, _, canonical⟩ := (mem_asTokenVector accepted).mp listed
  exact isCanonical_of_canonicalToken canonical

/-- A canonical token that is listed stays listed. -/
theorem mem_canonical {token : Bytes}
    (canonical : IsCanonical token Limits.maxTokenBytes) (listed : token ∈ asTokenVector value) :
    token ∈ asTokenVector value.canonical := by
  cases outcome : value.canonicalize with
  | error e => rwa [canonical_of_error outcome]
  | ok out =>
      rw [canonical_of_ok outcome, mem_asTokenVector outcome]
      exact ⟨token, listed, canonical.canonicalToken_eq⟩

/-- If all tokens are in canonical form, no other form is listed. -/
theorem canonical_subset
    (formed : asTokenVector value ⊆ asTokenVector value.canonical) :
    asTokenVector value.canonical ⊆ asTokenVector value := by
  cases outcome : value.canonicalize with
  | error e =>
      rw [canonical_of_error outcome]
      exact List.Subset.refl _
  | ok out =>
      rw [canonical_of_ok outcome] at formed ⊢
      intro token listed
      obtain ⟨given, inside, canonical⟩ := (mem_asTokenVector outcome).mp listed
      have same := (isCanonical_of_mem outcome (formed inside)).canonicalToken_eq
      cases canonical.symm.trans same
      exact inside

/-- Only enumerations and token sets list tokens. -/
theorem kind_of_listed {token : Bytes}
    (listed : token ∈ asTokenVector value) :
    value.kind = .enumeration ∨ value.kind = .tokenSet := by
  cases value with
  | enumeration t => exact .inl rfl
  | tokenSet ts => exact .inr rfl
  | _ => cases listed

theorem equals_iff {a b : CapabilityValue}
    (tokens : a.kind = .enumeration ∨ a.kind = .tokenSet) : a.equals b = true ↔ a = b := by
  cases a with
  | enumeration t => cases b <;> simp [equals]
  | tokenSet ts => cases b <;> simp [equals]
  | _ => simp [kind] at tokens

/-- A value that lists a canonical token is rendered as some text. -/
theorem render_ne_nil (accepted : value.canonicalize = .ok out)
    {token : Bytes} (listed : token ∈ asTokenVector out) : out.render ≠ [] := by
  cases out with
  | enumeration t =>
      cases List.mem_singleton.mp listed
      exact (isCanonical_of_mem accepted listed).nonempty
  | tokenSet ts =>
      cases ts with
      | nil => cases listed
      | cons t rest =>
          have first := (@isCanonical_of_mem _ _ accepted t List.mem_cons_self).nonempty
          cases rest <;> simp [render, List.intercalate, first]
  | _ => cases listed

/-- If canonicalization changes a value, it is one with tokens. -/
theorem exists_listed (accepted : value.canonicalize = .ok out)
    (scalar : value.kind ≠ .scalar) (differs : out ≠ value) : ∃ token, token ∈ asTokenVector out := by
  cases canonicalize_eq_ok_iff.mp accepted with
  | enumeration canonical => exact ⟨_, List.mem_singleton.mpr rfl⟩
  | tokenSet canonical =>
      rename_i given tokens
      cases given with
      | nil =>
          obtain ⟨_, _, normalized, rfl⟩ := canonicalTokens_eq_some_iff.mp canonical
          cases normalized
          exact absurd rfl differs
      | cons token rest =>
          obtain ⟨token', inside, _⟩ := exists_of_canonicalTokens canonical List.mem_cons_self
          exact ⟨token', inside⟩
  | scalar finite => exact absurd rfl scalar
  | _ => exact absurd rfl differs

end CapabilityValue

/-- Tokens are not ordered. -/
theorem numericAtLeast_of_tokens {provided required : CapabilityValue}
    (tokens : required.kind = .enumeration ∨ required.kind = .tokenSet) :
    numericAtLeast provided required = false := by
  cases required <;> first | (cases provided <;> rfl) | simp [CapabilityValue.kind] at tokens

theorem numericAtMost_of_tokens {provided required : CapabilityValue}
    (tokens : required.kind = .enumeration ∨ required.kind = .tokenSet) :
    numericAtMost provided required = false := by
  cases required <;> first | (cases provided <;> rfl) | simp [CapabilityValue.kind] at tokens

namespace CapabilityRequirement

/-- The requirement with the name of its key and its value in canonical form. -/
def canonicalForm (R : Registry) (q : CapabilityRequirement) : CapabilityRequirement :=
  match capabilityKeyFromName R q.capability with
  | .ok key => { q with capability := key.name, value := q.value.canonical }
  | .error _ => q

/-- The value that is asked for can be told from the canonical values that are advertised as its
canonical form can. -/
def AsksCanonically (q : CapabilityRequirement) : Prop :=
  match q.op with
  | .equals | .notEquals => q.value.canonical = q.value
  | .inSet | .subsetOf | .intersectsWith => asTokenVector q.value.canonical ⊆ asTokenVector q.value
  | .supersetOf => asTokenVector q.value ⊆ asTokenVector q.value.canonical
  | _ => True

/-- A value that is asked for canonically matches what its canonical form does. -/
theorem AsksCanonically.matchValue_eq {q : CapabilityRequirement} (asks : q.AsksCanonically)
    (scalar : q.value.kind ≠ .scalar) {provided : CapabilityValue}
    (advertised : provided.canonicalize = .ok provided) :
    matchValue { q with value := q.value.canonical } provided = matchValue q provided := by
  by_cases plain : q.value.canonical = q.value
  · rw [plain]
  have tokens : q.value.kind = .enumeration ∨ q.value.kind = .tokenSet := by
    by_contra other
    obtain ⟨enumeration, tokenSet⟩ := not_or.mp other
    exact plain (CapabilityValue.canonical_of_kind scalar enumeration tokenSet)
  have tokens' : q.value.canonical.kind = .enumeration ∨ q.value.canonical.kind = .tokenSet := by
    rwa [CapabilityValue.kind_canonical]
  -- tokens that are advertised are canonical, and so listed in both forms or in neither
  have known (covered : asTokenVector q.value.canonical ⊆ asTokenVector q.value) :
      ∀ token ∈ asTokenVector provided, (asTokenVector q.value.canonical).contains token =
        (asTokenVector q.value).contains token := by
    intro token listed
    rw [Bool.eq_iff_iff, List.contains_iff_mem, List.contains_iff_mem]
    exact ⟨fun inside => covered inside,
      CapabilityValue.mem_canonical (CapabilityValue.isCanonical_of_mem advertised listed)⟩
  cases op : q.op with
  | equals | notEquals =>
      rw [AsksCanonically, op] at asks
      exact absurd asks plain
  | inSet | subsetOf =>
      rw [AsksCanonically, op] at asks
      have same : (asTokenVector provided).all (asTokenVector q.value.canonical).contains =
          (asTokenVector provided).all (asTokenVector q.value).contains := by
        rw [Bool.eq_iff_iff, List.all_eq_true, List.all_eq_true]
        exact forall₂_congr fun token listed => by rw [known asks token listed]
      simp only [matchValue, op]
      rw [same]
  | intersectsWith =>
      rw [AsksCanonically, op] at asks
      have same : (asTokenVector provided).any (asTokenVector q.value.canonical).contains =
          (asTokenVector provided).any (asTokenVector q.value).contains := by
        rw [Bool.eq_iff_iff, List.any_eq_true, List.any_eq_true]
        exact exists_congr fun token => and_congr_right fun listed => by
          rw [known asks token listed]
      simp only [matchValue, op]
      exact congrArg MatchOutcome.ofBool same
  | supersetOf =>
      rw [AsksCanonically, op] at asks
      have same : (asTokenVector q.value.canonical).all (asTokenVector provided).contains =
          (asTokenVector q.value).all (asTokenVector provided).contains := by
        rw [Bool.eq_iff_iff, List.all_eq_true, List.all_eq_true]
        exact ⟨fun all token listed => all token (asks listed),
          fun all token listed => all token (CapabilityValue.canonical_subset asks listed)⟩
      simp only [matchValue, op]
      exact congrArg MatchOutcome.ofBool same
  | atLeast | greaterThan =>
      simp only [matchValue, op, numericAtLeast_of_tokens tokens, numericAtLeast_of_tokens tokens',
        Bool.false_and]
  | atMost | lessThan =>
      simp only [matchValue, op, numericAtMost_of_tokens tokens, numericAtMost_of_tokens tokens',
        Bool.false_and]
  | present | absent | versionSatisfies => simp only [matchValue, op]

end CapabilityRequirement

/-! ### What can be advertised -/

/-- A canonical value makes a set that advertises it and nothing else. -/
theorem CapabilitySet.exists_supporting (value : CapabilityValue)
    (named : key.valid = true) (kind : value.kind = key.kind)
    (canonical : value.canonicalize = .ok value) (shown : value.render ≠ []) :
    ∃ set : CapabilitySet,
      set.lookup key.name = { state := .supported, value := some value, present := true } ∧
        ∀ name, name ≠ key.name → set.lookup name = {} := by
  let r : CapabilityRecord := { key, state := .supported, value }
  have valid : r.validate = .ok () := by
    simp only [CapabilityRecord.validate, bind_eq_ok, ensure_eq_ok, decide_eq_true_eq]
    exact ⟨(), named, (), kind, (), by simp [r, shown], Nat.zero_le _⟩
  have single : canonicalRecords [r] = .ok [r] := by
    refine canonicalRecords_eq_ok_iff.mpr ⟨Nat.one_le_ofNat, [r], ?_, rfl, rfl⟩
    apply mapM_eq_self
    intro record listed
    cases List.mem_singleton.mp listed
    exact CapabilityRecord.canonicalRecord_eq_ok_iff.mpr ⟨value, canonical, rfl, valid⟩
  let set : CapabilitySet :=
    { id := capabilitySetIdentity [r] [], records := [r], records_canonical := single
      identified := .inl rfl }
  refine ⟨set, @CapabilitySet.lookup_of_mem set r (List.mem_singleton.mpr rfl), ?_⟩
  intro name other
  have missed : ([r].find? fun record => record.key.name == name) = none := by
    simpa [r] using other.symm
  rw [CapabilitySet.lookup, missed]
  rfl

/-- Every kind has a value that can be advertised. -/
theorem CapabilityValue.exists_of_kind (kind : CapabilityKind) :
    ∃ value : CapabilityValue, value.kind = kind ∧ value.canonicalize = .ok value ∧
      value.render ≠ [] := by
  cases kind with
  | presence => exact ⟨.presence true, by decide⟩
  | version => exact ⟨.version {}, by decide⟩
  | integer => exact ⟨.integer 0, by decide⟩
  | scalar => exact ⟨.scalar .zero, by decide⟩
  | enumeration => exact ⟨.enumeration (text "a"), by decide⟩
  | tokenSet => exact ⟨.tokenSet [text "a"], by decide⟩

/-- A token of either kind can be advertised alone. -/
theorem CapabilityValue.exists_of_token {kind : CapabilityKind} {token : Bytes}
    (tokens : kind = .enumeration ∨ kind = .tokenSet)
    (canonical : IsCanonical token Limits.maxTokenBytes) :
    ∃ value : CapabilityValue, value.kind = kind ∧ value.canonicalize = .ok value ∧
      value.render ≠ [] ∧ asTokenVector value = [token] := by
  have fixed := canonical.canonicalToken_eq
  rcases tokens with rfl | rfl
  · refine ⟨.enumeration token, rfl, ?_, canonical.nonempty, rfl⟩
    rw [canonicalize, fixed]
    rfl
  · refine ⟨.tokenSet [token], rfl, ?_, ?_, rfl⟩
    · have kept : [token].mapM (canonicalToken · Limits.maxTokenBytes) = .ok [token] := by
        apply mapM_eq_self
        intro t listed
        cases List.mem_singleton.mp listed
        exact fixed
      have within : ¬ Limits.maxTokensPerCapability < [token].length := by
        simp [Limits.maxTokensPerCapability]
      rw [canonicalize, canonicalTokens, if_neg within, kept]
      rfl
    · simpa [render, List.intercalate] using canonical.nonempty

namespace CapabilityRequirement

theorem matchRequirement_supported (q : CapabilityRequirement) (provided : CapabilityValue)
    (allowDegraded : Bool) (op : q.op ≠ .absent) :
    matchRequirement q { state := .supported, value := some provided, present := true }
      allowDegraded = matchValue q provided := by
  simp [matchRequirement, op]

theorem matchValue_ne_indeterminate {q : CapabilityRequirement} {provided : CapabilityValue}
    (ranged : q.op = .versionSatisfies → provided.kind = .version) :
    matchValue q provided ≠ .indeterminate := by
  have decided (b : Bool) : MatchOutcome.ofBool b ≠ .indeterminate := by cases b <;> decide
  cases op : q.op with
  | versionSatisfies =>
      simp only [matchValue, op, ranged op, ne_eq, not_true_eq_false, if_false]
      exact decided _
  | present | absent =>
      simp only [matchValue, op]
      decide
  | _ =>
      simp only [matchValue, op]
      exact decided _

/-- What validation says about a requirement's key. -/
theorem exists_key {R : Registry} {q : CapabilityRequirement} (valid : q.validate R = .ok ()) :
    ∃ key, capabilityKeyFromName R q.capability = .ok key ∧ q.value.kind = key.kind ∧
      (q.op = .versionSatisfies → q.value.kind = .version) := by
  simp only [validate, bind_eq_ok, ensure_eq_ok, decide_eq_true_eq] at valid
  obtain ⟨_, _, _, _, key, resolved, _, kind, _, _, _, _, _, _, _, _, operator⟩ := valid
  refine ⟨key, resolved, kind, fun op => ?_⟩
  simp only [validateOperator, op, bind_eq_ok, ensure_eq_ok, decide_eq_true_eq] at operator
  obtain ⟨_, version, _⟩ := operator
  exact version

variable {R : Registry} {q : CapabilityRequirement}

/-- What is told apart by values that can be advertised is asked for canonically. -/
theorem asksCanonically_of_seen (scalar : q.value.kind ≠ .scalar)
    (seen : ∀ {p : CapabilityValue}, p.kind = q.value.kind → p.canonicalize = .ok p →
      p.render ≠ [] → q.op ≠ .absent →
      matchValue { q with value := q.value.canonical } p = matchValue q p) :
    q.AsksCanonically := by
  cases outcome : q.value.canonicalize with
  | error e =>
      have plain := CapabilityValue.canonical_of_error outcome
      rw [AsksCanonically, plain]
      cases q.op <;> simp
  | ok out =>
      have plain := CapabilityValue.canonical_of_ok outcome
      have kind := CapabilityValue.kind_of_canonicalize outcome
      have fixed := CapabilityValue.canonicalize_idem outcome
      rw [plain] at seen
      -- a single token of the canonical form tells whether it is listed
      have covered (op : q.op ≠ .absent) (single : ∀ value p : CapabilityValue, ∀ token,
          asTokenVector p = [token] → (matchValue { q with value } p = .satisfied ↔
            token ∈ asTokenVector value)) : asTokenVector out ⊆ asTokenVector q.value := by
        intro token listed
        obtain ⟨p, kind', canonical, shown, alone⟩ := CapabilityValue.exists_of_token
          (CapabilityValue.kind_of_listed listed) (CapabilityValue.isCanonical_of_mem outcome listed)
        have agreed := seen (kind'.trans kind) canonical shown op
        rw [(single out p token alone).mpr listed] at agreed
        exact (single q.value p token alone).mp agreed.symm
      cases op : q.op with
      | equals | notEquals =>
          rw [AsksCanonically, op, plain]
          by_contra differs
          obtain ⟨token, listed⟩ := CapabilityValue.exists_listed outcome scalar differs
          have tokens := CapabilityValue.kind_of_listed listed
          have agreed := seen kind fixed (CapabilityValue.render_ne_nil outcome listed) (by simp [op])
          have unequal : out.equals q.value = false := by
            rw [← Bool.not_eq_true, CapabilityValue.equals_iff tokens]
            exact differs
          simp [matchValue, op, (CapabilityValue.equals_iff tokens).mpr rfl, unequal,
            MatchOutcome.ofBool] at agreed
      | inSet | subsetOf | intersectsWith =>
          rw [AsksCanonically, op, plain]
          refine covered (by simp [op]) fun value p token one => ?_
          simp [matchValue, op, one, MatchOutcome.ofBool]
      | supersetOf =>
          rw [AsksCanonically, op, plain]
          intro token listed
          obtain ⟨token', inside, _⟩ := CapabilityValue.exists_of_listed outcome listed
          have agreed := seen kind fixed (CapabilityValue.render_ne_nil outcome inside) (by simp [op])
          have asked : matchValue q out = .satisfied := by
            rw [← agreed]
            simp [matchValue, op, MatchOutcome.ofBool]
          simp only [matchValue, op, ofBool_eq_satisfied, List.all_eq_true, List.contains_iff_mem]
            at asked
          exact asked token listed
      | _ => rw [AsksCanonically, op]; trivial

/-- **Which requirements match by canonical form.** A validated requirement is matched on every
set of capabilities as its canonical form is exactly if its name is canonical and the operator
does not see that its value is not. -/
theorem matches_canonicalForm_iff (valid : q.validate R = .ok ()) :
    (∀ (set : CapabilitySet) (allowDegraded : Bool),
        matchRequirement (q.canonicalForm R) (set.lookup (q.canonicalForm R).capability)
            allowDegraded =
          matchRequirement q (set.lookup q.capability) allowDegraded) ↔
      (q.canonicalForm R).capability = q.capability ∧ q.AsksCanonically := by
  obtain ⟨key, resolved, kind, ranged⟩ := exists_key valid
  have form : q.canonicalForm R = { q with capability := key.name, value := q.value.canonical } := by
    rw [canonicalForm, resolved]
  have scalar : q.value.kind ≠ .scalar := kind ▸ key.kind_ne_scalar
  have named : key.valid = true := by
    have listed := R.isCanonical_of_lists (lists_of_capabilityKeyFromName resolved)
    simpa [CapabilityKey.valid] using listed.nonempty
  rw [form]
  constructor
  · intro same
    have name : key.name = q.capability := by
      by_contra other
      obtain ⟨value, kind', canonical, shown⟩ := CapabilityValue.exists_of_kind key.kind
      obtain ⟨set, found, missed⟩ := CapabilitySet.exists_supporting value named kind' canonical shown
      have differs := same set false
      rw [found, missed _ (Ne.symm other)] at differs
      by_cases absent : q.op = .absent
      · simp [matchRequirement, absent, MatchOutcome.ofBool] at differs
      · have asked := matchRequirement_supported
          { q with capability := key.name, value := q.value.canonical } value false absent
        rw [asked] at differs
        refine matchValue_ne_indeterminate (fun op => ?_) differs
        exact kind'.trans (kind.symm.trans (ranged op))
    refine ⟨name, ?_⟩
    have seen {p : CapabilityValue} (kind' : p.kind = q.value.kind)
        (canonical : p.canonicalize = .ok p) (shown : p.render ≠ []) (op : q.op ≠ .absent) :
        matchValue { q with value := q.value.canonical } p = matchValue q p := by
      obtain ⟨set, found, _⟩ :=
        CapabilitySet.exists_supporting p named (kind'.trans kind) canonical shown
      have asked := matchRequirement_supported
        { q with capability := key.name, value := q.value.canonical } p false op
      have agreed := same set false
      rw [← name, found, asked, matchRequirement_supported q p false op] at agreed
      exact agreed
    exact asksCanonically_of_seen scalar seen
  · rintro ⟨name, asks⟩ set allowDegraded
    rw [name]
    cases found : (set.lookup q.capability).value with
    | none => simp only [matchRequirement, found]
    | some provided =>
        have agreed := asks.matchValue_eq scalar (CapabilitySet.canonicalize_of_lookup found)
        simp only [matchRequirement, found]
        rw [← agreed]
        rfl

end CapabilityRequirement

namespace Sample

/-- A vendor, as it is spelled. -/
def madeBy (vendor : Bytes) : CapabilityRequirement :=
  { id := ident 1, capability := Cap.vendorId, op := .equals, value := .enumeration vendor }

theorem valid_madeBy : (madeBy (text "Acme")).validate .core = .ok () ∧
    (madeBy (text "acme")).validate .core = .ok () := by
  decide +kernel

end Sample

/-- A device of the vendor acme is not one of the vendor Acme. -/
theorem spelling_decides : (Sample.madeBy (text "Acme")).validate .core = .ok () ∧
    matchRequirement (Sample.madeBy (text "Acme")) (Sample.capabilities.lookup Cap.vendorId)
      false = .violated ∧
    (Sample.madeBy (text "Acme")).canonicalForm .core = Sample.madeBy (text "acme") ∧
    matchRequirement (Sample.madeBy (text "acme")) (Sample.capabilities.lookup Cap.vendorId)
      false = .satisfied := by
  refine ⟨Sample.valid_madeBy.1, ?_⟩
  decide +kernel

theorem acme_matches_canonicalForm :
    (CapabilityValue.enumeration (text "acme")).canonical = .enumeration (text "acme") ∧
    ∀ (set : CapabilitySet) (allowDegraded : Bool),
    matchRequirement ((Sample.madeBy (text "acme")).canonicalForm .core)
        (set.lookup ((Sample.madeBy (text "acme")).canonicalForm .core).capability) allowDegraded =
      matchRequirement (Sample.madeBy (text "acme")) (set.lookup Cap.vendorId) allowDegraded := by
  have canonical : (CapabilityValue.enumeration (text "acme")).canonical = .enumeration (text "acme") := by
    decide +kernel
  exact ⟨canonical, (CapabilityRequirement.matches_canonicalForm_iff Sample.valid_madeBy.2).mpr
    ⟨by decide +kernel, canonical⟩⟩

/-! ### Asking for tokens of a set -/

theorem ofLittleEndian_of_zero {bytes : Bytes} (zero : ∀ b ∈ bytes, b = 0) :
    ByteReader.ofLittleEndian bytes = 0 := by
  induction bytes with
  | nil => rfl
  | cons b bytes ih =>
      rw [ByteReader.ofLittleEndian, zero b List.mem_cons_self,
        ih fun b' listed => zero b' (List.mem_cons_of_mem b listed)]
      rfl

/-- The derivation sets a bit where both hashes are zero. -/
theorem isNil_deriveIdentity (domain token : Bytes) :
    (deriveIdentity domain token).isNil = false := by
  have nonzero (low high : UInt64) (length : _) : Id128.isNil
      ⟨(if low == 0 && high == 0 then 1 else UInt8.ofNat low.toNat) ::
        ByteWriter.littleEndian 7 (low.toNat / 256) ++ ByteWriter.u64 high, length⟩ = false := by
    rw [← Bool.not_eq_true]
    intro zero
    simp only [Id128.isNil, List.all_eq_true, beq_iff_eq, List.cons_append, List.mem_cons,
      List.mem_append] at zero
    have upper := ofLittleEndian_of_zero fun b listed => zero b (.inr (.inr listed))
    have middle := ofLittleEndian_of_zero fun b listed => zero b (.inr (.inl listed))
    have first := zero _ (.inl rfl)
    rw [ByteWriter.u64, ByteReader.ofLittleEndian_littleEndian] at upper
    rw [ByteReader.ofLittleEndian_littleEndian] at middle
    have bound := low.toNat_lt
    have bound' := high.toNat_lt
    have none : high = 0 := UInt64.toNat_inj.mp (by simpa using (by omega : high.toNat = 0))
    split at first
    · cases first
    · rename_i some
      have byte : low.toNat % 256 = 0 := by
        have := congrArg UInt8.toNat first
        simpa using this
      have none' : low = 0 := UInt64.toNat_inj.mp (by simpa using (by omega : low.toNat = 0))
      simp [none, none'] at some
  exact nonzero _ _ _

/-- The requirement is made and valid, and is met by those who advertise nothing but tokens of
the list. -/
def TokenInMeansMembership (R : Registry) (name : Bytes) (tokens : List Bytes)
    (strength : RequirementStrength) : Prop :=
  ∃ q, requireTokenIn R name tokens strength = .ok q ∧ q.validate R = .ok () ∧
    ∀ (set : CapabilitySet) (value : CapabilityValue) (allowDegraded : Bool),
      set.lookup name = { state := .supported, value := some value, present := true } →
      asTokenVector value ≠ [] →
      (matchRequirement q (set.lookup q.capability) allowDegraded = .satisfied ↔
        ∀ token ∈ asTokenVector value, ∃ given ∈ tokens,
          canonicalToken given Limits.maxTokenBytes = .ok token)

/-- The key of a core name. -/
theorem exists_coreKey (R : Registry) {name : Bytes} {kind : CapabilityKind}
    (core : coreKind name = some kind) :
    ∃ key, capabilityKeyFromName R name = .ok key ∧ key.name = name ∧ key.kind = kind := by
  have listed : R.lists name = true := by
    rw [Registry.lists, core]
    rfl
  have canonical := R.isCanonical_of_lists listed
  refine ⟨⟨name, .inr canonical⟩, ?_, rfl, ?_⟩
  · rw [capabilityKeyFromName, dif_pos listed]
  · have valid : CapabilityKey.valid ⟨name, .inr canonical⟩ = true := by
      simpa [CapabilityKey.valid] using canonical.nonempty
    rw [CapabilityKey.kind, if_pos valid, core]
    rfl

/-- The requirement that is made for a key, before it is validated. -/
def CapabilityRequirement.tokenIn (key : CapabilityKey) (strength : RequirementStrength)
    (out : List Bytes) : CapabilityRequirement :=
  { capability := key.name
    strength
    op := .inSet
    value := .tokenSet out
    id := ⟨deriveIdentity (text "haf.requirement")
      (key.name ++ text "|in|" ++ (CapabilityValue.tokenSet out).render)⟩ }

theorem requireTokenIn_eq_ok_iff {R : Registry} {name : Bytes}
    {tokens : List Bytes} (strength : RequirementStrength) (q : CapabilityRequirement)
    (resolved : capabilityKeyFromName R name = .ok key)
    (formed : canonicalTokens tokens Limits.maxTokensPerCapability = some out) :
    requireTokenIn R name tokens strength = .ok q ↔
      q = .tokenIn key strength out ∧ q.validate R = .ok () := by
  have value : (CapabilityValue.tokenSet tokens).canonicalize = .ok (.tokenSet out) := by
    rw [CapabilityValue.canonicalize, formed]
  simp only [requireTokenIn, baseRequirement, bind_eq_ok, pure_eq_ok, resolved, value,
    Except.ok.injEq]
  constructor
  · rintro ⟨base, ⟨_, rfl, rfl⟩, _, rfl, _, valid, rfl⟩
    exact ⟨rfl, valid⟩
  · rintro ⟨rfl, valid⟩
    exact ⟨_, ⟨_, rfl, rfl⟩, _, rfl, (), valid, rfl⟩

/-- A token set is asked of a capability exactly if it is one. -/
theorem CapabilityRequirement.validate_tokenIn_iff {R : Registry}
    {strength : RequirementStrength}
    (resolved : capabilityKeyFromName R key.name = .ok key) :
    (tokenIn key strength out).validate R = .ok () ↔ key.kind = .tokenSet := by
  have canonical := R.isCanonical_of_lists (lists_of_capabilityKeyFromName resolved)
  constructor
  · intro valid
    obtain ⟨key', resolved', kind, _⟩ := exists_key valid
    cases resolved.symm.trans resolved'
    exact kind.symm
  · intro kind
    have weightless : (!(decide (strength = .hard) && !Double.zero.eq .zero)) = true := by
      cases strength <;> decide
    simp only [validate, validateOperator, bind_eq_ok, ensure_eq_ok, tokenIn]
    refine ⟨(), ?_, (), ?_, key, resolved, (), decide_eq_true kind.symm, (), by decide, (),
      by decide, (), weightless, (), decide_eq_true (Nat.zero_le _), rfl⟩
    · rw [StrongId.isNil, isNil_deriveIdentity]
      rfl
    · rw [Bool.and_eq_true]
      exact ⟨by simpa using canonical.nonempty, decide_eq_true canonical.bounded⟩

/-- **When asking for tokens means membership.** For a core capability and a list of tokens that
canonicalize, the requirement is made, and means that nothing else is advertised, exactly if the
capability is a token set: a token set is not a value of an enumeration. -/
theorem tokenInMeansMembership_iff {R : Registry} {name : Bytes} {kind : CapabilityKind}
    {tokens : List Bytes} {strength : RequirementStrength} (core : coreKind name = some kind)
    (few : tokens.length ≤ Limits.maxTokensPerCapability)
    (canonical : ∀ token ∈ tokens, ∃ out, canonicalToken token Limits.maxTokenBytes = .ok out) :
    TokenInMeansMembership R name tokens strength ↔ kind = .tokenSet := by
  obtain ⟨key, resolved, rfl, rfl⟩ := exists_coreKey R core
  obtain ⟨working, normalized⟩ := exists_mapM_eq_ok canonical
  have formed : canonicalTokens tokens Limits.maxTokensPerCapability = some (sortUnique working) := by
    rw [canonicalTokens, if_neg (Nat.not_lt.mpr few), normalized]
  have made (q : CapabilityRequirement) := requireTokenIn_eq_ok_iff strength q resolved formed
  rw [← CapabilityRequirement.validate_tokenIn_iff resolved]
  constructor
  · rintro ⟨q, asked, valid, _⟩
    obtain ⟨rfl, _⟩ := (made q).mp asked
    exact valid
  · intro valid
    refine ⟨_, (made _).mpr ⟨rfl, valid⟩, valid, ?_⟩
    intro set value allowDegraded found shown
    have looked : set.lookup (CapabilityRequirement.tokenIn key strength (sortUnique working)).capability =
      { state := .supported, value := some value, present := true } := found
    rw [looked, CapabilityRequirement.matchRequirement_supported _ _ _
      (by simp [CapabilityRequirement.tokenIn])]
    simp only [matchValue, CapabilityRequirement.tokenIn, CapabilityRequirement.ofBool_eq_satisfied,
      Bool.and_eq_true, Bool.not_eq_true', List.isEmpty_eq_false_iff, List.all_eq_true, List.contains_iff_mem]
    rw [and_iff_right shown]
    exact forall₂_congr fun token _ => mem_of_canonicalTokens formed

/-- No list of vendors can be asked for. -/
theorem vendor_list_refused : coreKind Cap.vendorId = some .enumeration ∧
    (requireTokenIn .core Cap.vendorId [text "acme"] .hard).isOk = false ∧
    ¬ TokenInMeansMembership .core Cap.vendorId [text "acme"] .hard := by
  have refused : (requireTokenIn .core Cap.vendorId [text "acme"] .hard).isOk = false := by
    decide +kernel
  refine ⟨by decide +kernel, refused, ?_⟩
  rintro ⟨q, made, _⟩
  rw [made] at refused
  cases refused

theorem targets_in_list :
    TokenInMeansMembership .core Cap.isaCodeObjectTargets [text "T1"] .hard := by
  have core : coreKind Cap.isaCodeObjectTargets = some .tokenSet := by decide +kernel
  refine (tokenInMeansMembership_iff core (by decide) ?_).mpr rfl
  intro token listed
  cases List.mem_singleton.mp listed
  exact ⟨text "t1", by decide +kernel⟩

end Haf
