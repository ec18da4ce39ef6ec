/-
# Tables keyed by their own entries

Many stores file each entry under a key that the entry itself carries. Such a
table is an ordered map together with the fact that every entry sits under its own
key, so that an entry can only be replaced by one with the same key and the entries
are listed in the strict order of their keys.
-/

import Mathlib

section Order

variable {κ : Type} [LinearOrder κ]

instance LinearOrder.lawfulEqCmp : Std.LawfulEqCmp (compare : κ → κ → Ordering) where
  eq_of_compare := compare_eq_iff_eq.mp

end Order

/-- A map that files each entry under the key of the entry. -/
structure Keyed {κ β : Type} [LinearOrder κ] (key : β → κ) where
  entries : Std.ExtTreeMap κ β compare
  keyed : ∀ k b, entries[k]? = some b → key b = k

namespace Keyed

variable {κ β : Type} [LinearOrder κ] {key : β → κ}

/-- The entry filed under a key. -/
def get? (t : Keyed key) (k : κ) : Option β := t.entries[k]?

/-- The entries in the order of their keys. -/
def values (t : Keyed key) : List β := t.entries.toList.map Prod.snd

def size (t : Keyed key) : Nat := t.entries.size

@[ext]
theorem ext {t u : Keyed key} (same : ∀ k, t.get? k = u.get? k) : t = u := by
  obtain ⟨entries, keyed⟩ := t
  obtain ⟨entries', keyed'⟩ := u
  have equal : entries = entries' := Std.ExtTreeMap.ext_getElem? fun k => same k
  subst equal
  rfl

theorem key_of_get? {t : Keyed key} {k : κ} {b : β} (found : t.get? k = some b) : key b = k :=
  t.keyed k b found

/-! ### Operations -/

def empty : Keyed key where
  entries := ∅
  keyed := by simp

instance : Inhabited (Keyed key) := ⟨empty⟩

/-- File an entry, replacing the one under its key. -/
def insert (t : Keyed key) (b : β) : Keyed key where
  entries := t.entries.insert (key b) b
  keyed := by
    intro k c found
    rw [Std.ExtTreeMap.getElem?_insert] at found
    split at found
    · rename_i same
      cases found
      exact compare_eq_iff_eq.mp same
    · exact t.keyed k c found

/-- File an entry unless its key is taken. -/
def emplace (t : Keyed key) (b : β) : Keyed key :=
  match t.get? (key b) with
  | some _ => t
  | none => t.insert b

/-- File the entries of a list one after the other; the first one with a key stays. -/
def ofList (items : List β) : Keyed key := items.foldl emplace empty

/-- Change every entry, keeping its key. -/
def map (t : Keyed key) (f : β → β) (same : ∀ b, key (f b) = key b) : Keyed key where
  entries := t.entries.map fun _ => f
  keyed := by
    intro k c found
    rw [Std.ExtTreeMap.getElem?_map] at found
    obtain ⟨b, located, rfl⟩ := Option.map_eq_some_iff.mp found
    rw [same]
    exact t.keyed k b located

/-- Keep the entries that satisfy a test. -/
def filter (t : Keyed key) (p : β → Bool) : Keyed key where
  entries := t.entries.filter fun _ => p
  keyed := by
    intro k c found
    rw [Std.ExtTreeMap.getElem?_filter, Option.pfilter_eq_filter] at found
    exact t.keyed k c (Option.filter_eq_some_iff.mp found).1

def erase (t : Keyed key) (k : κ) : Keyed key where
  entries := t.entries.erase k
  keyed := by
    intro k' c found
    rw [Std.ExtTreeMap.getElem?_erase] at found
    split at found
    · cases found
    · exact t.keyed k' c found

/-- While the table is over a limit, erase the entry a rule chooses. One round per entry
is enough. -/
def shrink (choose : Keyed key → Option κ) (limit : Nat) : Nat → Keyed key → Keyed key
  | 0, t => t
  | rounds + 1, t =>
      if limit < t.size then
        match choose t with
        | none => t
        | some k => shrink choose limit rounds (t.erase k)
      else t

/-! ### Lookup -/

@[simp]
theorem get?_empty (k : κ) : (empty : Keyed key).get? k = none := by
  simp [get?, empty]

@[simp]
theorem get?_insert (t : Keyed key) (b : β) (k : κ) :
    (t.insert b).get? k = if key b = k then some b else t.get? k := by
  simp [get?, insert, Std.ExtTreeMap.getElem?_insert]

theorem get?_insert_self (t : Keyed key) (b : β) : (t.insert b).get? (key b) = some b := by
  simp

theorem get?_insert_of_ne (t : Keyed key) {b : β} {k : κ} (other : key b ≠ k) :
    (t.insert b).get? k = t.get? k := by
  simp [other]

@[simp]
theorem get?_map (t : Keyed key) (f : β → β) (same : ∀ b, key (f b) = key b) (k : κ) :
    (t.map f same).get? k = (t.get? k).map f := by
  simp [get?, map]

@[simp]
theorem get?_filter (t : Keyed key) (p : β → Bool) (k : κ) :
    (t.filter p).get? k = (t.get? k).filter p := by
  simp [get?, filter, Std.ExtTreeMap.getElem?_filter, Option.pfilter_eq_filter]

@[simp]
theorem get?_erase (t : Keyed key) (k k' : κ) :
    (t.erase k).get? k' = if k = k' then none else t.get? k' := by
  simp [get?, erase, Std.ExtTreeMap.getElem?_erase]

theorem get?_emplace (t : Keyed key) (b : β) (k : κ) :
    (t.emplace b).get? k = (t.get? k).or (if key b = k then some b else none) := by
  rw [emplace]
  split
  · rename_i c taken
    split
    · rename_i same
      rw [← same, taken]
      rfl
    · rw [Option.or_none]
  · rename_i free
    rw [get?_insert]
    split
    · rename_i same
      rw [← same, free]
      rfl
    · rw [Option.or_none]

theorem get?_foldl_emplace (items : List β) (t : Keyed key) (k : κ) :
    (items.foldl emplace t).get? k = (t.get? k).or (items.find? (key · = k)) := by
  induction items generalizing t with
  | nil => simp
  | cons b rest ih =>
      rw [List.foldl_cons, ih, get?_emplace, Option.or_assoc, List.find?_cons]
      by_cases same : key b = k
      · simp [same]
      · simp [same]

/-- The first entry of the list with a key is the one that is filed. -/
@[simp]
theorem get?_ofList (items : List β) (k : κ) :
    (ofList items : Keyed key).get? k = items.find? (key · = k) := by
  rw [ofList, get?_foldl_emplace, get?_empty, Option.none_or]

/-- Shrinking only removes entries. -/
theorem get?_of_shrink {choose : Keyed key → Option κ} {limit rounds : Nat} {t : Keyed key}
    {k : κ} {b : β} (found : (shrink choose limit rounds t).get? k = some b) :
    t.get? k = some b := by
  induction rounds generalizing t with
  | zero => exact found
  | succ rounds ih =>
      rw [shrink] at found
      split at found
      · split at found
        · exact found
        · have kept := ih found
          rw [get?_erase] at kept
          split at kept
          · cases kept
          · exact kept
      · exact found

/-! ### Listing -/

@[simp]
theorem mem_values {t : Keyed key} {b : β} : b ∈ t.values ↔ t.get? (key b) = some b := by
  rw [values, List.mem_map]
  constructor
  · rintro ⟨⟨k, c⟩, listed, rfl⟩
    have found := Std.ExtTreeMap.mem_toList_iff_getElem?_eq_some.mp listed
    rw [t.keyed k c found]
    exact found
  · intro found
    exact ⟨(key b, b), Std.ExtTreeMap.mem_toList_iff_getElem?_eq_some.mpr found, rfl⟩

theorem mem_values_of_get? {t : Keyed key} {k : κ} {b : β} (found : t.get? k = some b) :
    b ∈ t.values := by
  rw [mem_values, key_of_get? found]
  exact found

/-- Entries are listed in the strict order of their keys. -/
theorem pairwise_values (t : Keyed key) : t.values.Pairwise (key · < key ·) := by
  rw [values, List.pairwise_map]
  refine t.entries.ordered_keys_toList.imp_of_mem ?_
  intro a b listed listed' below
  have found := Std.ExtTreeMap.mem_toList_iff_getElem?_eq_some.mp listed
  have found' := Std.ExtTreeMap.mem_toList_iff_getElem?_eq_some.mp listed'
  rw [t.keyed _ _ found, t.keyed _ _ found']
  exact compare_lt_iff_lt.mp below

/-- Looking for the key of something listed finds an entry of that key. -/
theorem exists_find? (key : β → κ) {items : List β} {b : β} (listed : b ∈ items) :
    ∃ c, items.find? (key · = key b) = some c ∧ key c = key b := by
  obtain ⟨c, found⟩ : ∃ c, items.find? (key · = key b) = some c := by
    rw [← Option.isSome_iff_exists, List.find?_isSome]
    exact ⟨b, listed, by simp⟩
  exact ⟨c, found, by simpa using List.find?_some found⟩

/-- Searching the list of entries is looking the key up. -/
theorem find?_values (t : Keyed key) (k : κ) : t.values.find? (key · = k) = t.get? k := by
  cases found : t.get? k with
  | none =>
      rw [List.find?_eq_none]
      intro b listed
      rw [mem_values] at listed
      intro same
      rw [of_decide_eq_true same, found] at listed
      cases listed
  | some b =>
      obtain ⟨c, hit, same⟩ := exists_find? key (mem_values_of_get? found)
      rw [key_of_get? found] at hit same
      have listed := mem_values.mp (List.mem_of_find?_eq_some hit)
      rw [same, found] at listed
      rw [hit, listed]

/-- Filing changed entries anew is changing them in place. -/
theorem ofList_map_values (t : Keyed key) (f : β → β) (same : ∀ b, key (f b) = key b) :
    ofList (t.values.map f) = t.map f same := by
  ext1 k
  rw [get?_ofList, get?_map, List.find?_map, ← find?_values]
  simp only [Function.comp_def, same]

theorem values_map (t : Keyed key) (f : β → β) (same : ∀ b, key (f b) = key b) :
    (t.map f same).values = t.values.map f := by
  rw [values, values, map, Std.ExtTreeMap.toList_map, List.map_map, List.map_map]
  rfl

theorem length_values (t : Keyed key) : t.values.length = t.size := by
  rw [values, List.length_map, Std.ExtTreeMap.length_toList]
  rfl

section Filed

variable {items : List β}

/-- Filing a list files something under each of its keys. -/
theorem mem_keys_ofList {k : κ} :
    k ∈ (ofList items : Keyed key).values.map key ↔ k ∈ items.map key := by
  simp only [List.mem_map, mem_values, get?_ofList]
  constructor
  · rintro ⟨b, found, rfl⟩
    exact ⟨b, List.mem_of_find?_eq_some found, rfl⟩
  · rintro ⟨b, listed, rfl⟩
    obtain ⟨c, found, same⟩ := exists_find? key listed
    exact ⟨c, by rw [same, found], same⟩

theorem nodup_keys (t : Keyed key) : (t.values.map key).Nodup :=
  List.pairwise_map.mpr (t.pairwise_values.imp ne_of_lt)

/-- As many entries are filed as are listed exactly if no two of them have the same key. -/
theorem size_ofList_eq_iff :
    (ofList items : Keyed key).size = items.length ↔ (items.map key).Nodup := by
  have keys : ((ofList items : Keyed key).values.map key).toFinset = (items.map key).toFinset := by
    ext k
    rw [List.mem_toFinset, List.mem_toFinset, mem_keys_ofList]
  have counted := List.toFinset_card_of_nodup (nodup_keys (ofList items : Keyed key))
  rw [keys, List.length_map, length_values] at counted
  rw [← counted, ← List.length_map key]
  exact Multiset.toFinset_card_eq_card_iff_nodup

/-- Then the table lists what was filed. -/
theorem perm_values_ofList (distinct : (items.map key).Nodup) :
    (ofList items : Keyed key).values.Perm items := by
  rw [List.perm_ext_iff_of_nodup (List.Nodup.of_map key (nodup_keys _)) (.of_map key distinct)]
  intro b
  rw [mem_values, get?_ofList]
  constructor
  · exact List.mem_of_find?_eq_some
  · intro listed
    obtain ⟨c, found, same⟩ := exists_find? key listed
    rw [found, List.inj_on_of_nodup_map distinct (List.mem_of_find?_eq_some found) listed same]
end Filed

/-- Erasing an entry takes just that one from the list. -/
theorem perm_values_erase {t : Keyed key} {k : κ} {b : β} (found : t.get? k = some b) :
    t.values.Perm (b :: (t.erase k).values) := by
  have distinct (u : Keyed key) : u.values.Nodup :=
    u.pairwise_values.imp fun below same => (same ▸ below).false
  have key_eq := key_of_get? found
  have absent : b ∉ (t.erase k).values := by
    simp [key_eq]
  rw [List.perm_ext_iff_of_nodup (distinct t) (List.nodup_cons.mpr ⟨absent, distinct _⟩)]
  intro c
  rw [List.mem_cons, mem_values, mem_values, get?_erase]
  by_cases same : k = key c
  · rw [if_pos same, ← same, found]
    simp only [Option.some.injEq, reduceCtorEq, or_false]
    exact eq_comm
  · rw [if_neg same]
    refine ⟨.inr, Or.rec ?_ id⟩
    rintro rfl
    exact absurd key_eq.symm same

theorem size_erase {t : Keyed key} {k : κ} {b : β} (found : t.get? k = some b) :
    t.size = (t.erase k).size + 1 := by
  rw [← length_values, (perm_values_erase found).length_eq, List.length_cons, length_values]

/-! ### Shrinking -/

section Shrink

variable {ρ : Type} [LinearOrder ρ]

/-- The rule chooses the entry of least rank, if there is an entry. -/
def ChoosesLeast (choose : Keyed key → Option κ) (rank : β → ρ) : Prop :=
  ∀ t : Keyed key, (∃ b, b ∈ t.values) → ∃ b, choose t = some (key b) ∧ b ∈ t.values ∧
    ∀ c ∈ t.values, rank b ≤ rank c

variable {choose : Keyed key → Option κ} {rank : β → ρ} {limit rounds : Nat} {t : Keyed key}

theorem shrink_of_size_le (small : t.size ≤ limit) : shrink choose limit rounds t = t := by
  cases rounds with
  | zero => rfl
  | succ rounds => rw [shrink, if_neg (Nat.not_lt.mpr small)]

/-- One round of shrinking a table that is too large. -/
theorem exists_shrink_succ (least : ChoosesLeast choose rank) (large : limit < t.size)
    (rounds : Nat) :
    ∃ b, t.get? (key b) = some b ∧ (∀ c ∈ t.values, rank b ≤ rank c) ∧
      shrink choose limit (rounds + 1) t = shrink choose limit rounds (t.erase (key b)) := by
  have listed : ∃ b, b ∈ t.values := by
    apply List.exists_mem_of_length_pos
    rw [length_values]
    exact Nat.zero_lt_of_lt large
  obtain ⟨b, chosen, member, first⟩ := least t listed
  refine ⟨b, mem_values.mp member, first, ?_⟩
  rw [shrink, if_pos large, chosen]

theorem size_shrink_le (least : ChoosesLeast choose rank) (enough : t.size ≤ limit + rounds) :
    (shrink choose limit rounds t).size ≤ limit := by
  induction rounds generalizing t with
  | zero => exact enough
  | succ rounds ih =>
      by_cases large : limit < t.size
      · obtain ⟨b, found, _, shrunk⟩ := exists_shrink_succ least large rounds
        rw [shrunk]
        apply ih
        have size := size_erase found
        omega
      · rw [shrink_of_size_le (Nat.not_lt.mp large)]
        exact Nat.not_lt.mp large

/-- An entry outlasts the shrinking exactly if as many entries as have to go rank below it. -/
theorem get?_shrink (least : ChoosesLeast choose rank)
    (injective : ∀ b ∈ t.values, ∀ c ∈ t.values, rank b = rank c → b = c)
    (enough : t.size ≤ limit + rounds) {k : κ} {b : β} :
    (shrink choose limit rounds t).get? k = some b ↔
      t.get? k = some b ∧ t.size ≤ limit + t.values.countP (rank · < rank b) := by
  induction rounds generalizing t with
  | zero =>
      refine ⟨fun found => ⟨found, ?_⟩, And.left⟩
      omega
  | succ rounds ih =>
      by_cases large : limit < t.size
      · obtain ⟨first, found, lowest, shrunk⟩ := exists_shrink_succ least large rounds
        have rest := perm_values_erase found
        have kept : ∀ c ∈ (t.erase (key first)).values, c ∈ t.values := fun c listed =>
          rest.mem_iff.mpr (List.mem_cons_of_mem _ listed)
        have size := size_erase found
        rw [shrunk, ih (fun b listed c listed' => injective b (kept b listed) c (kept c listed'))
          (by omega), get?_erase, rest.countP_eq, List.countP_cons]
        by_cases same : key first = k
        · -- The entry that goes has nothing below it.
          subst same
          rw [if_pos rfl, found]
          constructor
          · rintro ⟨gone, _⟩
            cases gone
          · rintro ⟨⟨⟩, room⟩
            have none_below : (t.erase (key b)).values.countP (rank · < rank b) = 0 := by
              rw [List.countP_eq_zero]
              intro c listed
              simpa using lowest c (kept c listed)
            rw [none_below, if_neg (by simp)] at room
            omega
        · rw [if_neg same]
          apply and_congr_right
          intro located
          have listed := mem_values_of_get? located
          have below : rank first < rank b := by
            refine lt_of_le_of_ne (lowest b listed) fun equal => same ?_
            rw [injective first (mem_values.mpr found) b listed equal]
            exact key_of_get? located
          rw [if_pos (decide_eq_true below)]
          omega
      · rw [shrink_of_size_le (Nat.not_lt.mp large)]
        refine ⟨fun found => ⟨found, ?_⟩, And.left⟩
        omega

end Shrink

end Keyed
