/-
# Sorted sequences and fallible traversals

Sorting by a key, removing adjacent duplicates, and mapping a function that may
fail over a list: what the results satisfy, and that a sequence already in the
canonical form is returned unchanged.
-/

import Haf.Lib.Order

namespace Sequence

section Sorting

variable {α κ : Type} [LinearOrder κ]

/-- Sort by a key; equal keys keep their order. -/
def sortOn (key : α → κ) (items : List α) : List α :=
  items.insertionSort fun a b => key a ≤ key b

theorem perm_sortOn (key : α → κ) (items : List α) : (sortOn key items).Perm items :=
  List.perm_insertionSort _ items

@[simp]
theorem mem_sortOn {key : α → κ} {items : List α} {a : α} :
    a ∈ sortOn key items ↔ a ∈ items := (perm_sortOn key items).mem_iff

@[simp]
theorem length_sortOn (key : α → κ) (items : List α) :
    (sortOn key items).length = items.length := (perm_sortOn key items).length_eq

theorem pairwise_sortOn (key : α → κ) (items : List α) :
    (sortOn key items).Pairwise fun a b => key a ≤ key b := by
  have total : Std.Total fun a b => key a ≤ key b := ⟨fun a b => le_total (key a) (key b)⟩
  have trans : IsTrans α fun a b => key a ≤ key b := ⟨fun _ _ _ => le_trans⟩
  exact List.pairwise_insertionSort _ items

/-- A sequence in key order is left alone. -/
theorem sortOn_of_pairwise {key : α → κ} {items : List α}
    (sorted : items.Pairwise fun a b => key a ≤ key b) : sortOn key items = items :=
  List.Pairwise.insertionSort_eq sorted

theorem sortOn_sortOn (key : α → κ) (items : List α) :
    sortOn key (sortOn key items) = sortOn key items :=
  sortOn_of_pairwise (pairwise_sortOn key items)

/-- The keys of a sorted sequence are distinct exactly when they strictly increase. -/
theorem nodup_iff_isChain {key : α → κ} {items : List α}
    (sorted : sortOn key items = items) :
    (items.map key).Nodup ↔ (items.map key).IsChain (· < ·) := by
  have weak : (items.map key).Pairwise (· ≤ ·) := by
    rw [← sorted, List.pairwise_map]
    exact pairwise_sortOn key items
  constructor
  · intro distinct
    exact (weak.and distinct).imp (fun both => lt_of_le_of_ne both.1 both.2) |>.isChain
  · intro increasing
    exact increasing.pairwise.imp ne_of_lt

end Sorting

/-! ### Arrivals

Sorting by a key forgets in which order items of different keys arrived, and nothing else. Two
sequences in which the items of each key arrive in the same order are sorted alike. -/

section Arrivals

variable {α κ : Type} [LinearOrder κ] {key : α → κ} {xs ys : List α}

/-- For each key, the same items arrive in the same order. -/
def SameArrivals (key : α → κ) (xs ys : List α) : Prop :=
  ∀ k, xs.filter (key · = k) = ys.filter (key · = k)

namespace SameArrivals

theorem refl (key : α → κ) (xs : List α) : SameArrivals key xs xs := fun _ => rfl

theorem symm (same : SameArrivals key xs ys) : SameArrivals key ys xs := fun k => (same k).symm

theorem append {xs' ys' : List α} (first : SameArrivals key xs ys)
    (second : SameArrivals key xs' ys') : SameArrivals key (xs ++ xs') (ys ++ ys') := by
  intro k
  rw [List.filter_append, List.filter_append, first k, second k]

theorem mem (same : SameArrivals key xs ys) {a : α} (listed : a ∈ xs) : a ∈ ys := by
  have kept : a ∈ xs.filter (key · = key a) := List.mem_filter.mpr ⟨listed, by simp⟩
  rw [same (key a)] at kept
  exact List.mem_of_mem_filter kept

/-- The order of items that their keys determine is immaterial. -/
theorem of_perm (perm : xs.Perm ys) (determined : ∀ a ∈ xs, ∀ b ∈ xs, key a = key b → a = b) :
    SameArrivals key xs ys := by
  intro k
  have filtered := perm.filter (key · = k)
  cases kept : xs.filter (key · = k) with
  | nil =>
      rw [kept] at filtered
      exact filtered.nil_eq.symm ▸ rfl
  | cons a rest =>
      -- everything that is kept is this one item, however often
      have first := List.mem_filter.mp (kept ▸ List.mem_cons_self : a ∈ xs.filter (key · = k))
      have alike : ∀ b ∈ xs.filter (key · = k), b = a := by
        intro b inside
        have found := List.mem_filter.mp inside
        apply determined b found.1 a first.1
        rw [of_decide_eq_true found.2, of_decide_eq_true first.2]
      have repeated := List.eq_replicate_of_mem alike
      rw [repeated] at filtered
      rw [← kept, repeated]
      exact (List.perm_replicate.mp filtered.symm).symm

/-- Sequences in key order in which the same items arrive are equal. -/
theorem eq_of_pairwise (same : SameArrivals key xs ys)
    (sorted : xs.Pairwise fun a b => key a ≤ key b)
    (sorted' : ys.Pairwise fun a b => key a ≤ key b) : xs = ys := by
  induction xs generalizing ys with
  | nil =>
      cases ys with
      | nil => rfl
      | cons b rest => cases same.symm.mem List.mem_cons_self
  | cons a rest ih =>
      cases ys with
      | nil => cases same.mem List.mem_cons_self
      | cons b rest' =>
          obtain ⟨least, ordered⟩ := List.pairwise_cons.mp sorted
          obtain ⟨least', ordered'⟩ := List.pairwise_cons.mp sorted'
          -- each of the two heads is listed in the other sequence
          have below : key a ≤ key b := by
            rcases List.mem_cons.mp (same.symm.mem List.mem_cons_self) with rfl | later
            · exact le_rfl
            · exact least b later
          have above : key b ≤ key a := by
            rcases List.mem_cons.mp (same.mem List.mem_cons_self) with rfl | later
            · exact le_rfl
            · exact least' a later
          have level : key a = key b := le_antisymm below above
          have heads := same (key b)
          rw [List.filter_cons_of_pos (by simpa using level),
            List.filter_cons_of_pos (by simp)] at heads
          obtain ⟨rfl, _⟩ := List.cons.inj heads
          have rests : SameArrivals key rest rest' := by
            intro k
            have all := same k
            by_cases met : key a = k
            · rw [List.filter_cons_of_pos (by simpa using met),
                List.filter_cons_of_pos (by simpa using met)] at all
              exact (List.cons.inj all).2
            · rw [List.filter_cons_of_neg (by simpa using met),
                List.filter_cons_of_neg (by simpa using met)] at all
              exact all
          rw [ih rests ordered ordered']

end SameArrivals

/-- Sorting keeps the order in which the items of a key arrive. -/
theorem sameArrivals_sortOn (key : α → κ) (items : List α) :
    SameArrivals key (sortOn key items) items := by
  intro k
  have level : (items.filter (key · = k)).Pairwise fun a b => key a ≤ key b := by
    apply List.pairwise_of_forall_mem_list
    intro a inside b inside'
    have met : key a = k := by simpa using (List.mem_filter.mp inside).2
    have met' : key b = k := by simpa using (List.mem_filter.mp inside').2
    rw [met, met']
  have total : Std.Total fun a b => key a ≤ key b := ⟨fun a b => le_total (key a) (key b)⟩
  have trans : IsTrans α fun a b => key a ≤ key b := ⟨fun _ _ _ => le_trans⟩
  have kept : (items.filter (key · = k)).Sublist (sortOn key items) :=
    List.sublist_insertionSort level List.filter_sublist
  have twice := kept.filter (key · = k)
  rw [List.filter_filter] at twice
  simp only [Bool.and_self] at twice
  exact (twice.eq_of_length ((perm_sortOn key items).symm.filter _).length_eq).symm

theorem SameArrivals.sortOn_eq (same : SameArrivals key xs ys) :
    sortOn key xs = sortOn key ys := by
  have arrivals : SameArrivals key (sortOn key xs) (sortOn key ys) := by
    intro k
    rw [sameArrivals_sortOn key xs k, sameArrivals_sortOn key ys k, same k]
  exact arrivals.eq_of_pairwise (pairwise_sortOn key xs) (pairwise_sortOn key ys)

end Arrivals

/-- The first match in a sequence whose keys descend is the greatest one. -/
theorem find_greatest {α κ : Type} [LinearOrder κ] {key : α → κ} {items : List α} {p : α → Bool}
    {a : α} (descending : items.Pairwise fun a b => key b ≤ key a)
    (found : items.find? p = some a) : p a = true ∧ ∀ b ∈ items, p b = true → key b ≤ key a := by
  refine ⟨List.find?_some found, ?_⟩
  induction items with
  | nil => cases found
  | cons first rest ih =>
      obtain ⟨above, ordered⟩ := List.pairwise_cons.mp descending
      intro b listed matched
      by_cases hit : p first = true
      · rw [List.find?_cons_of_pos hit] at found
        cases found
        rcases List.mem_cons.mp listed with rfl | later
        · exact le_rfl
        · exact above b later
      · rw [List.find?_cons_of_neg hit] at found
        rcases List.mem_cons.mp listed with rfl | later
        · exact absurd matched hit
        · exact ih ordered found b later matched

section Unique

variable {κ : Type} [LinearOrder κ]

/-- Sort in ascending order. -/
abbrev ascending (items : List κ) : List κ := sortOn id items

/-- A member of an ascending sequence is among the first `n` exactly if fewer than `n` come
before it. -/
theorem mem_take_iff {items : List κ} (sorted : items.Pairwise (· ≤ ·)) {a : κ}
    (listed : a ∈ items) (n : Nat) : a ∈ items.take n ↔ items.countP (· < a) < n := by
  induction items generalizing n with
  | nil => cases listed
  | cons b rest ih =>
      obtain ⟨least, sorted⟩ := List.pairwise_cons.mp sorted
      cases n with
      | zero => simp
      | succ n =>
          rw [List.take_succ_cons, List.mem_cons, List.countP_cons]
          rcases eq_or_ne a b with rfl | other
          · have none_ : rest.countP (· < a) = 0 := by
              rw [List.countP_eq_zero]
              intro c inside
              simpa using least c inside
            simp [none_]
          · have later := List.mem_of_ne_of_mem other listed
            have below : b < a := lt_of_le_of_ne (least a later) other.symm
            rw [ih sorted later n, or_iff_right other, if_pos (by simpa using below)]
            omega

/-- Sort and remove duplicates. -/
def sortUnique (items : List κ) : List κ := (ascending items).destutter (· ≠ ·)

theorem sortUnique_subset {items : List κ} {a : κ} (listed : a ∈ sortUnique items) :
    a ∈ items := by
  have sub := (ascending items).destutter_sublist (· ≠ ·)
  exact mem_sortOn.mp (sub.subset listed)

theorem length_sortUnique_le (items : List κ) : (sortUnique items).length ≤ items.length := by
  have sub := (ascending items).destutter_sublist (· ≠ ·)
  exact sub.length_le.trans_eq (length_sortOn id items)

theorem isChain_lt {items : List κ} (weak : items.IsChain (· ≤ ·))
    (distinct : items.IsChain (· ≠ ·)) : items.IsChain (· < ·) := by
  induction items with
  | nil => exact .nil
  | cons a as ih =>
      cases as with
      | nil => exact .singleton a
      | cons b bs =>
          rw [List.isChain_cons_cons] at weak distinct ⊢
          exact ⟨lt_of_le_of_ne weak.1 distinct.1, ih weak.2 distinct.2⟩

/-- What is left is strictly increasing. -/
theorem pairwise_sortUnique (items : List κ) : (sortUnique items).Pairwise (· < ·) := by
  have weak : (sortUnique items).Pairwise (· ≤ ·) :=
    (pairwise_sortOn id items).sublist ((ascending items).destutter_sublist (· ≠ ·))
  have distinct : (sortUnique items).IsChain (· ≠ ·) :=
    (ascending items).isChain_destutter (· ≠ ·)
  exact (isChain_lt weak.isChain distinct).pairwise

/-- A strictly increasing sequence is left alone. -/
theorem sortUnique_of_pairwise {items : List κ} (sorted : items.Pairwise (· < ·)) :
    sortUnique items = items := by
  have kept : ascending items = items := sortOn_of_pairwise (sorted.imp le_of_lt)
  rw [sortUnique, kept]
  exact List.destutter_of_isChain _ _ (sorted.imp ne_of_lt).isChain

end Unique

section Search

variable {κ : Type} [LinearOrder κ]

/-- The halving loop of a lower-bound search over the positions `first` to `first + len`. It
probes the middle and keeps the half that a sorted sequence would call for. -/
def lowerBound (items : List κ) (a : κ) : Nat → Nat → Nat → Nat
  | 0, first, _ => first
  | fuel + 1, first, len =>
      if len = 0 then first
      else
        let half := len / 2
        match items[first + half]? with
        | none => first
        | some middle =>
            if middle < a then lowerBound items a fuel (first + half + 1) (len - half - 1)
            else lowerBound items a fuel first half

/-- The first item that is not below a key, if its key is the one sought. -/
def searchOn {α : Type} (key : α → κ) (items : List α) (a : κ) : Option α :=
  (items[lowerBound (items.map key) a items.length 0 items.length]?).filter (key · = a)

/-- Binary search, on sequences that need not be sorted. -/
def binarySearch (items : List κ) (a : κ) : Bool :=
  match items[lowerBound items a items.length 0 items.length]? with
  | none => false
  | some found => !(a < found)

theorem lowerBound_not_lt {items : List κ} {a : κ} {fuel first len : Nat}
    (bounded : len ≤ fuel) (inside : first + len ≤ items.length)
    (probed : ∀ b, items[first + len]? = some b → ¬ b < a) :
    ∀ b, items[lowerBound items a fuel first len]? = some b → ¬ b < a := by
  induction fuel generalizing first len with
  | zero =>
      obtain rfl : len = 0 := by omega
      exact probed
  | succ fuel ih =>
      rw [lowerBound]
      by_cases done : len = 0
      · rw [if_pos done]
        subst done
        exact probed
      · rw [if_neg done]
        have within : first + len / 2 < items.length := by omega
        have middle : items[first + len / 2]? = some items[first + len / 2] :=
          List.getElem?_eq_getElem within
        simp only [middle]
        split
        · refine ih (by omega) (by omega) ?_
          have same : first + len / 2 + 1 + (len - len / 2 - 1) = first + len := by omega
          rw [same]
          exact probed
        · rename_i above
          refine ih (by omega) (by omega) ?_
          intro b found
          rw [middle] at found
          cases found
          exact above

/-- In a sorted sequence everything before the bound is below the key. -/
theorem lt_of_lt_lowerBound {items : List κ} {a : κ} {fuel first len : Nat}
    (sorted : items.Pairwise (· < ·)) (below : ∀ j < first, ∀ b, items[j]? = some b → b < a) :
    ∀ j < lowerBound items a fuel first len, ∀ b, items[j]? = some b → b < a := by
  induction fuel generalizing first len with
  | zero => exact below
  | succ fuel ih =>
      rw [lowerBound]
      split
      · exact below
      · dsimp only
        split
        · exact below
        · rename_i middle located
          split
          · rename_i less
            refine ih fun j before b found => ?_
            rcases Nat.lt_succ_iff_lt_or_eq.mp before with earlier | rfl
            · have ordered := List.pairwise_iff_getElem.mp sorted
              obtain ⟨inside, rfl⟩ := List.getElem?_eq_some_iff.mp found
              obtain ⟨inside', rfl⟩ := List.getElem?_eq_some_iff.mp located
              exact (ordered j _ inside inside' earlier).trans less
            · rw [located] at found
              cases found
              exact less
          · exact ih below

/-- Every item of a strictly sorted sequence is found under its key. -/
theorem searchOn_of_mem {α : Type} {key : α → κ} {items : List α} {a : α}
    (sorted : items.Pairwise (key · < key ·)) (listed : a ∈ items) :
    searchOn key items (key a) = some a := by
  have keys : (items.map key).Pairwise (· < ·) := List.pairwise_map.mpr sorted
  obtain ⟨i, inside, rfl⟩ := List.getElem_of_mem listed
  set p := lowerBound (items.map key) (key items[i]) items.length 0 items.length with bound
  have before : ∀ j < p, ∀ b, (items.map key)[j]? = some b → b < key items[i] :=
    lt_of_lt_lowerBound keys fun j never => absurd never (Nat.not_lt_zero j)
  have after : ∀ b, (items.map key)[p]? = some b → ¬ b < key items[i] :=
    lowerBound_not_lt le_rfl (by simp) (by intro b beyond; simp at beyond)
  have least : p ≤ i := by
    by_contra later
    have less := before i (by omega) (key items[i]) (by simp [inside])
    exact lt_irrefl _ less
  have exact' : p = i := by
    by_contra different
    have earlier : p < i := by omega
    have less := List.pairwise_iff_getElem.mp sorted p i (by omega) inside earlier
    exact after (key items[p]) (by simp [show p < items.length by omega]) less
  rw [searchOn, ← bound, exact', List.getElem?_eq_getElem inside]
  simp

/-- Every hit of a search on keys is an item with that key, and in a strictly sorted sequence
every such item is hit. -/
theorem isSome_searchOn {α : Type} {key : α → κ} {items : List α}
    (sorted : items.Pairwise (key · < key ·)) {a : κ} :
    (searchOn key items a).isSome = true ↔ ∃ item ∈ items, key item = a := by
  constructor
  · intro hit
    obtain ⟨item, found⟩ := Option.isSome_iff_exists.mp hit
    obtain ⟨located, same⟩ := Option.filter_eq_some_iff.mp found
    exact ⟨item, List.mem_of_getElem? located, by simpa using same⟩
  · rintro ⟨item, listed, rfl⟩
    rw [searchOn_of_mem sorted listed]
    rfl

/-- A hit is always an element, whatever the order of the sequence. -/
theorem mem_of_binarySearch {items : List κ} {a : κ} (hit : binarySearch items a = true) :
    a ∈ items := by
  rw [binarySearch] at hit
  split at hit
  · cases hit
  · rename_i found located
    have notBelow : ¬ found < a := by
      refine lowerBound_not_lt le_rfl (by omega) ?_ found located
      intro b beyond
      rw [Nat.zero_add, List.getElem?_eq_none le_rfl] at beyond
      cases beyond
    have notAbove : ¬ a < found := by simpa using hit
    have same : found = a := le_antisymm (not_lt.mp notAbove) (not_lt.mp notBelow)
    exact same ▸ List.mem_of_getElem? located

/-- Every element of a strictly sorted sequence is a hit. -/
theorem binarySearch_of_mem {items : List κ} {a : κ} (sorted : items.Pairwise (· < ·))
    (listed : a ∈ items) : binarySearch items a = true := by
  have found : searchOn id items a = some a := searchOn_of_mem sorted listed
  rw [searchOn, List.map_id, Option.filter_eq_some_iff] at found
  rw [binarySearch, found.1]
  simp

end Search

section Traversal

variable {ε α β : Type} {f : α → Except ε β}

/-- A sequence of fallible steps succeeds exactly when each step does. -/
theorem bind_eq_ok {x : Except ε α} {g : α → Except ε β} {b : β} :
    (x >>= g) = .ok b ↔ ∃ a, x = .ok a ∧ g a = .ok b := by
  cases x with
  | error e => simp [bind, Except.bind]
  | ok a => simp [bind, Except.bind]

theorem pure_eq_ok {a b : α} : (pure a : Except ε α) = .ok b ↔ a = b := by
  simp [pure, Except.pure]

theorem exists_of_isOk {x : Except ε α} (succeeds : x.isOk = true) : ∃ a, x = .ok a := by
  cases x with
  | error e => cases succeeds
  | ok a => exact ⟨a, rfl⟩

theorem mapM_cons_eq_ok {a : α} {as : List α} {results : List β} :
    (a :: as).mapM f = .ok results ↔
      ∃ b bs, f a = .ok b ∧ as.mapM f = .ok bs ∧ results = b :: bs := by
  rw [List.mapM_cons]
  simp only [bind_eq_ok, pure_eq_ok]
  constructor
  · rintro ⟨b, first, bs, rest, rfl⟩
    exact ⟨b, bs, first, rest, rfl⟩
  · rintro ⟨b, bs, first, rest, rfl⟩
    exact ⟨b, first, bs, rest, rfl⟩

/-- Every result of a successful traversal is the image of an item. -/
theorem exists_of_mem_mapM {items : List α} {results : List β}
    (accepted : items.mapM f = .ok results) {b : β} (listed : b ∈ results) :
    ∃ a ∈ items, f a = .ok b := by
  induction items generalizing results with
  | nil =>
      cases accepted
      cases listed
  | cons a as ih =>
      obtain ⟨head, tail, first, rest, rfl⟩ := mapM_cons_eq_ok.mp accepted
      rcases List.mem_cons.mp listed with rfl | listed
      · exact ⟨a, List.mem_cons_self, first⟩
      · obtain ⟨a', member, found⟩ := ih rest listed
        exact ⟨a', List.mem_cons_of_mem a member, found⟩

/-- Every item of a successful traversal has an image. -/
theorem exists_of_mapM {items : List α} {results : List β} (accepted : items.mapM f = .ok results)
    {a : α} (listed : a ∈ items) : ∃ b ∈ results, f a = .ok b := by
  induction items generalizing results with
  | nil => cases listed
  | cons first rest ih =>
      obtain ⟨head, tail, made, others, rfl⟩ := mapM_cons_eq_ok.mp accepted
      rcases List.mem_cons.mp listed with rfl | later
      · exact ⟨head, List.mem_cons_self, made⟩
      · obtain ⟨b, inside, same⟩ := ih others later
        exact ⟨b, List.mem_cons_of_mem _ inside, same⟩

theorem length_of_mapM {items : List α} {results : List β}
    (accepted : items.mapM f = .ok results) : results.length = items.length := by
  induction items generalizing results with
  | nil =>
      cases accepted
      rfl
  | cons a as ih =>
      obtain ⟨head, tail, _, rest, rfl⟩ := mapM_cons_eq_ok.mp accepted
      rw [List.length_cons, List.length_cons, ih rest]

/-- A traversal of the same items in another order has the same results in another order. -/
theorem perm_of_mapM {items items' : List α} (perm : items.Perm items') {results : List β}
    (accepted : items.mapM f = .ok results) :
    ∃ results', items'.mapM f = .ok results' ∧ results.Perm results' := by
  induction perm generalizing results with
  | nil => exact ⟨results, accepted, .rfl⟩
  | cons a _ ih =>
      obtain ⟨b, bs, first, others, rfl⟩ := mapM_cons_eq_ok.mp accepted
      obtain ⟨bs', others', same⟩ := ih others
      exact ⟨b :: bs', mapM_cons_eq_ok.mpr ⟨b, bs', first, others', rfl⟩, same.cons b⟩
  | swap a a' rest =>
      obtain ⟨b', _, second, others, rfl⟩ := mapM_cons_eq_ok.mp accepted
      obtain ⟨b, bs, first, rests, rfl⟩ := mapM_cons_eq_ok.mp others
      exact ⟨b :: b' :: bs, mapM_cons_eq_ok.mpr
        ⟨b, _, first, mapM_cons_eq_ok.mpr ⟨b', bs, second, rests, rfl⟩, rfl⟩, .swap b b' bs⟩
  | trans _ _ ih ih' =>
      obtain ⟨_, middle, same⟩ := ih accepted
      obtain ⟨results', final, same'⟩ := ih' middle
      exact ⟨results', final, same.trans same'⟩

/-- A traversal that fixes every item fixes the sequence. -/
theorem mapM_eq_self {f : α → Except ε α} {items : List α}
    (fixed : ∀ a ∈ items, f a = .ok a) : items.mapM f = .ok items := by
  induction items with
  | nil => rfl
  | cons a as ih =>
      rw [List.mapM_cons, fixed a List.mem_cons_self,
        ih fun b listed => fixed b (List.mem_cons_of_mem a listed)]
      rfl

/-- Items that are mapped without repetition are mapped apart. -/
theorem eq_of_mapM_nodup {items : List α} {results : List β} (mapped : items.mapM f = .ok results)
    (distinct : results.Nodup) {a a' : α} (listed : a ∈ items) (listed' : a' ∈ items) {b : β}
    (made : f a = .ok b) (made' : f a' = .ok b) : a = a' := by
  induction items generalizing results with
  | nil => cases listed
  | cons first rest ih =>
      obtain ⟨head, tail, begun, others, rfl⟩ := mapM_cons_eq_ok.mp mapped
      obtain ⟨fresh, distinct⟩ := List.nodup_cons.mp distinct
      -- an item of the rest that is mapped to the head would repeat it
      have apart {a : α} (later : a ∈ rest) (same : f a = .ok head) : False := by
        obtain ⟨b, inside, made⟩ := exists_of_mapM others later
        cases made.symm.trans same
        exact fresh inside
      rcases List.mem_cons.mp listed with rfl | later
      · cases made.symm.trans begun
        rcases List.mem_cons.mp listed' with rfl | later'
        · rfl
        · exact (apart later' made').elim
      · rcases List.mem_cons.mp listed' with rfl | later'
        · cases made'.symm.trans begun
          exact (apart later made).elim
        · exact ih others distinct later later'

/-- A list is left alone by a map that repeats nothing and makes only what the list already has
and the map leaves alone. -/
theorem eq_of_mapM_fixed {f : α → Except ε α} {items results : List α}
    (mapped : items.mapM f = .ok results) (distinct : results.Nodup)
    (fixed : ∀ a ∈ results, f a = .ok a ∧ a ∈ items) : results = items := by
  have same : items.mapM f = .ok items := by
    apply mapM_eq_self
    intro a listed
    obtain ⟨b, inside, made⟩ := exists_of_mapM mapped listed
    obtain ⟨kept, listed'⟩ := fixed b inside
    obtain rfl := eq_of_mapM_nodup mapped distinct listed listed' made kept
    exact made
  exact Except.ok.inj (mapped.symm.trans same)

end Traversal

/-! ### Results that can be looked at -/

section Outcomes

variable {ε α : Type} {p : α → Prop} [DecidablePred p]

instance decidableExistsSome : (found : Option α) → Decidable (∃ a, found = some a ∧ p a)
  | none => .isFalse nofun
  | some a => decidable_of_iff (p a) (by simp)

instance decidableExistsOk : (result : Except ε α) → Decidable (∃ a, result = .ok a ∧ p a)
  | .error _ => .isFalse nofun
  | .ok a => decidable_of_iff (p a) (by simp)

end Outcomes

section Views

/-- Sequences that agree under two views agree under a third one that the two decide. -/
theorem map_eq_of_map_eq {α β γ δ : Type} {f : α → β} {g : α → γ} {h : α → δ}
    {as bs : List α} (first : as.map f = bs.map f) (second : as.map g = bs.map g)
    (decided : ∀ a ∈ as, ∀ b ∈ bs, f a = f b → g a = g b → h a = h b) : as.map h = bs.map h := by
  induction as generalizing bs with
  | nil =>
      cases bs with
      | nil => rfl
      | cons b bs => cases first
  | cons a as ih =>
      cases bs with
      | nil => cases first
      | cons b bs =>
          obtain ⟨head, tail⟩ := List.cons.inj first
          obtain ⟨head', tail'⟩ := List.cons.inj second
          rw [List.map_cons, List.map_cons,
            decided a List.mem_cons_self b List.mem_cons_self head head', ih tail tail']
          intro a' inside b' inside'
          exact decided a' (List.mem_cons_of_mem a inside) b' (List.mem_cons_of_mem b inside')

end Views

/-! ### First items of a key -/

section Keys

variable {α β κ : Type} {f : α → Option β} {key : α → κ} {key' : β → κ} {a : κ} {p : β → Bool}
  {q : α → Bool}

/-- If a partial function keeps keys and is defined or not on all items of a key, then the first
value of a key belongs to the first item of it. -/
theorem find?_filterMap_key (value : ∀ y, p y = true ↔ key' y = a)
    (item : ∀ x, q x = true ↔ key x = a) (keeps : ∀ x y, f x = some y → key' y = key x)
    (uniform : ∀ x x', key x = key x' → (f x).isSome = (f x').isSome) (xs : List α) :
    (xs.filterMap f).find? p = (xs.find? q).bind f := by
  induction xs with
  | nil => rfl
  | cons x rest ih =>
      rw [List.find?_cons]
      cases made : f x with
      | none =>
          rw [List.filterMap_cons_none made, ih]
          cases here : q x with
          | false => rfl
          | true =>
              -- later items of the key have no values either
              cases later : rest.find? q with
              | none => exact made.symm
              | some x' =>
                  have same := (item x).mp here |>.trans ((item x').mp (List.find?_some later)).symm
                  have absent := uniform x x' same
                  rw [made] at absent
                  rw [Option.bind_some, Option.bind_some, made]
                  exact Option.isNone_iff_eq_none.mp (by simpa using absent.symm)
      | some y =>
          rw [List.filterMap_cons_some made, List.find?_cons]
          have alike : p y = q x := by
            rw [Bool.eq_iff_iff, value, item, keeps x y made]
          cases here : q x with
          | false => simpa [alike, here] using ih
          | true => simp [alike, here, made]

end Keys

end Sequence
