/-
# The order of versions

The comparison walks two prerelease texts identifier by identifier until both are exhausted, and
takes the exhausted one for an empty identifier. On whatever texts, this is a total preorder.
It is the precedence of Semantic Versioning only in part: an empty identifier ranks above every
number, so a prerelease that goes on with a number is ranked below the one it continues, and
numerals that do not fit 32 bits are read as zero.
-/

import Haf.Codec.Version
import Haf.Lib.Aligned

namespace Haf.SemanticVersion

open Std (TransCmp OrientedCmp TransOrd OrientedOrd)

/-! ### Identifiers -/

/-- The number that a numeral is read as. -/
def readNumeral (s : Bytes) : Nat := ((parseU32 s).getD 0).toNat

/-- Numbers rank below words; numbers are ordered by their value and words by their bytes. -/
def identifierOrder (value : Bytes → Nat) (a b : Bytes) : Ordering :=
  match isNumericIdentifier a, isNumericIdentifier b with
  | true, true => compare (value a) (value b)
  | true, false => .lt
  | false, true => .gt
  | false, false => compare a b

theorem compareIdentifier_eq (a b : Bytes) :
    compareIdentifier a b = identifierOrder readNumeral a b := by
  rw [compareIdentifier, identifierOrder]
  cases isNumericIdentifier a <;> cases isNumericIdentifier b <;> rfl

instance (value : Bytes → Nat) : TransCmp (identifierOrder value) where
  eq_swap {a b} := by
    simp only [identifierOrder]
    cases isNumericIdentifier a <;> cases isNumericIdentifier b
    · exact OrientedOrd.eq_swap
    · rfl
    · rfl
    · exact OrientedOrd.eq_swap
  isLE_trans {a b c} := by
    simp only [identifierOrder]
    cases isNumericIdentifier a <;> cases isNumericIdentifier b <;> cases isNumericIdentifier c
    all_goals first
      | exact TransOrd.isLE_trans
      | exact fun _ _ => rfl
      | (intro never; cases never; done)
      | (intro _ never; cases never; done)

instance : TransCmp compareIdentifier := by
  rw [show compareIdentifier = identifierOrder readNumeral from
    funext fun a => funext fun b => compareIdentifier_eq a b]
  infer_instance

/-! ### The loop -/

/-- The comparison of prerelease texts, with what is left of both when the loop begins anew. -/
def comparisonLoop : Nat → Bytes → Bytes → Option Ordering
  | 0, _, _ => none
  | fuel + 1, a, b =>
      if a.isEmpty && b.isEmpty then some .eq
      else
        match compareIdentifier (a.takeWhile (· != 46)) (b.takeWhile (· != 46)) with
        | .lt => some .lt
        | .gt => some .gt
        | .eq =>
            if (a.dropWhile (· != 46)).isEmpty && (b.dropWhile (· != 46)).isEmpty then some .eq
            else comparisonLoop fuel (a.dropWhile (· != 46)).tail (b.dropWhile (· != 46)).tail

/-- A text is its first identifier and, if there is one, the text after the dot. -/
theorem splitOn_dot (s : Bytes) : s.splitOn 46 = s.takeWhile (· != 46) ::
    if (s.dropWhile (· != 46)).isEmpty then [] else (s.dropWhile (· != 46)).tail.splitOn 46 := by
  induction s with
  | nil => rfl
  | cons c rest ih =>
      rw [List.splitOn_cons_eq_if_modifyHead]
      by_cases dot : c = 46
      · simp [dot]
      · rw [if_neg (by simpa using dot), ih, List.takeWhile_cons_of_pos (by simpa using dot),
          List.dropWhile_cons_of_pos (by simpa using dot)]
        rfl

theorem length_splitOn_le (s : Bytes) : (s.splitOn 46).length ≤ s.length + 1 := by
  induction s with
  | nil => exact le_rfl
  | cons c rest ih =>
      rw [List.splitOn_cons_eq_if_modifyHead]
      split <;> simp [ih] <;> omega

open Aligned

/-- One pass of the loop: an exhausted text goes on with empty identifiers. -/
theorem upTo_splitOn (n : Nat) (a b : Bytes) :
    upTo compareIdentifier [] (n + 1) (a.splitOn 46) (b.splitOn 46) =
      (compareIdentifier (a.takeWhile (· != 46)) (b.takeWhile (· != 46))).then
        (upTo compareIdentifier [] n ((a.dropWhile (· != 46)).tail.splitOn 46)
          ((b.dropWhile (· != 46)).tail.splitOn 46)) := by
  have exhausted : ∀ s : Bytes, ∃ rest : List Bytes, s.splitOn 46 = s.takeWhile (· != 46) :: rest ∧
      rest.headD [] = ((s.dropWhile (· != 46)).tail.splitOn 46).headD [] ∧
      rest.tail = ((s.dropWhile (· != 46)).tail.splitOn 46).tail := by
    intro s
    refine ⟨_, splitOn_dot s, ?_⟩
    split
    · rename_i empty
      rw [List.isEmpty_iff.mp empty]
      exact ⟨rfl, rfl⟩
    · exact ⟨rfl, rfl⟩
  obtain ⟨rest, left, head, tail⟩ := exhausted a
  obtain ⟨rest', right, head', tail'⟩ := exhausted b
  rw [left, right, upTo]
  congr 1
  cases n with
  | zero => rfl
  | succ n => rw [upTo, upTo, List.tail_cons, List.tail_cons, head, head', tail, tail']

theorem upTo_empty (n : Nat) : upTo compareIdentifier [] n [[]] [[]] = .eq := by
  cases n with
  | zero => rfl
  | succ n => exact upTo_nil rfl n

/-- The loop ends, since each pass leaves less of the texts. -/
theorem comparisonLoop_eq {fuel n : Nat} {a b : Bytes} (enough : a.length + b.length < fuel)
    (all : a.length + b.length < n) : comparisonLoop fuel a b =
      some (upTo compareIdentifier [] n (a.splitOn 46) (b.splitOn 46)) := by
  induction fuel generalizing n a b with
  | zero => cases enough
  | succ fuel ih =>
      obtain ⟨n, rfl⟩ : ∃ m, n = m + 1 := ⟨n - 1, by omega⟩
      have shorter : ∀ s : Bytes, (s.dropWhile (· != 46)).length ≤ s.length :=
        fun s => (List.dropWhile_sublist _).length_le
      have left := shorter a
      have right := shorter b
      rw [comparisonLoop]
      split
      · rename_i empty
        simp only [Bool.and_eq_true, List.isEmpty_iff] at empty
        rw [empty.1, empty.2]
        exact congrArg some (upTo_empty _).symm
      · rw [upTo_splitOn]
        cases order : compareIdentifier (a.takeWhile (· != 46)) (b.takeWhile (· != 46)) with
        | lt => rfl
        | gt => rfl
        | eq =>
            dsimp only
            rw [Ordering.eq_then]
            split
            · rename_i empty
              simp only [Bool.and_eq_true, List.isEmpty_iff] at empty
              rw [empty.1, empty.2]
              exact congrArg some (upTo_empty _).symm
            · rename_i going
              have fewer : (a.dropWhile (· != 46)).tail.length +
                  (b.dropWhile (· != 46)).tail.length < a.length + b.length := by
                simp only [Bool.and_eq_true, List.isEmpty_iff, ← List.length_eq_zero_iff] at going
                rw [List.length_tail, List.length_tail]
                omega
              exact ih (by omega) (by omega)

theorem comparePrerelease_eq {n : Nat} {a b : Bytes} (left : a.length < n) (right : b.length < n) :
    comparePrerelease a b = (compare a.isEmpty b.isEmpty).then
      (upTo compareIdentifier [] n (a.splitOn 46) (b.splitOn 46)) := by
  rw [comparePrerelease]
  cases a with
  | nil =>
      cases b with
      | nil => exact (upTo_empty n).symm
      | cons => rfl
  | cons c a =>
      cases b with
      | nil => rfl
      | cons d b =>
          have folded := foldl_range_eq compareIdentifier [] (max ((c :: a).splitOn 46).length
            ((d :: b).splitOn 46).length) ((c :: a).splitOn 46) ((d :: b).splitOn 46) .eq
          have first := length_splitOn_le (c :: a)
          have second := length_splitOn_le (d :: b)
          refine folded.trans (congrArg _ ?_)
          exact (upTo_of_le rfl (le_max_left ..) (le_max_right ..)
            (max_le (by omega) (by omega))).symm

/-! ### Versions -/

/-- The comparison of versions, if the identifiers are compared up to a position. -/
def orderUpTo (n : Nat) : SemanticVersion → SemanticVersion → Ordering :=
  compareLex (compareOn (·.major.toNat)) <| compareLex (compareOn (·.minor.toNat)) <|
    compareLex (compareOn (·.patch.toNat)) <| compareLex (compareOn (·.prerelease.isEmpty))
      fun a b => upTo compareIdentifier [] n (a.prerelease.splitOn 46) (b.prerelease.splitOn 46)

instance (n : Nat) : TransCmp (orderUpTo n) := by
  have last : TransCmp fun a b : SemanticVersion =>
      upTo compareIdentifier [] n (a.prerelease.splitOn 46) (b.prerelease.splitOn 46) :=
    { eq_swap := OrientedCmp.eq_swap, isLE_trans := TransCmp.isLE_trans }
  unfold orderUpTo
  infer_instance

theorem ite_ne_compare (x y : UInt32) (rest : Ordering) :
    (if x ≠ y then compare x.toNat y.toNat else rest) = (compare x.toNat y.toNat).then rest := by
  by_cases same : x = y
  · rw [if_neg (not_not.mpr same), same, Std.compare_self, Ordering.eq_then]
  · have other : compare x.toNat y.toNat ≠ .eq := by
      rw [Ne, Std.compare_eq_iff_eq, UInt32.toNat_inj]
      exact same
    rw [if_pos same]
    cases order : compare x.toNat y.toNat with
    | eq => exact absurd order other
    | lt | gt => rfl

theorem compareVersion_eq {n : Nat} {a b : SemanticVersion} (left : a.prerelease.length < n)
    (right : b.prerelease.length < n) : compareVersion a b = orderUpTo n a b := by
  rw [compareVersion, ite_ne_compare, ite_ne_compare, ite_ne_compare,
    comparePrerelease_eq left right]
  rfl

/-- The comparison of two prerelease texts as the source makes it: the empty text is told apart,
and then the loop is run, here at most a number of times. -/
def comparePrereleaseLoop (fuel : Nat) (a b : Bytes) : Option Ordering :=
  if a.isEmpty && b.isEmpty then some .eq
  else if a.isEmpty then some .gt
  else if b.isEmpty then some .lt
  else comparisonLoop fuel a b

/-- **Versions are totally preordered.** On whatever prerelease texts, the loop ends with the
order of the texts, comparing the other way round gives the reverse, and being not greater is
transitive. -/
theorem comparison_is_preorder :
    (∀ a b : Bytes, ∃ fuel, comparePrereleaseLoop fuel a b = some (comparePrerelease a b)) ∧
      (∀ a b, compareVersion b a = (compareVersion a b).swap) ∧
      ∀ a b c, (compareVersion a b).isLE = true ∧ (compareVersion b c).isLE = true →
        (compareVersion a c).isLE = true := by
  refine ⟨fun a b => ⟨a.length + b.length + 1, ?_⟩, fun a b => ?_, fun a b c => ?_⟩
  · rw [comparePrereleaseLoop, comparePrerelease_eq (n := a.length + b.length + 1)
      (by omega) (by omega), comparisonLoop_eq (n := a.length + b.length + 1) (by omega) (by omega)]
    cases a with
    | nil =>
        cases b with
        | nil => exact congrArg some (upTo_empty _).symm
        | cons => rfl
    | cons => cases b <;> rfl
  · let n := a.prerelease.length + b.prerelease.length + 1
    rw [compareVersion_eq (n := n) (by omega) (by omega),
      compareVersion_eq (n := n) (by omega) (by omega)]
    exact OrientedCmp.eq_swap
  · let n := a.prerelease.length + b.prerelease.length + c.prerelease.length + 1
    rw [compareVersion_eq (n := n) (by omega) (by omega),
      compareVersion_eq (n := n) (by omega) (by omega),
      compareVersion_eq (n := n) (by omega) (by omega)]
    exact fun both => TransCmp.isLE_trans both.1 both.2

/-! ### Precedence -/

/-- The order of two lists of identifiers: the first difference decides, and a list ranks below
the ones that continue it. -/
def identifiersOrder (value : Bytes → Nat) : List Bytes → List Bytes → Ordering
  | [], [] => .eq
  | [], _ :: _ => .lt
  | _ :: _, [] => .gt
  | a :: as, b :: bs => (identifierOrder value a b).then (identifiersOrder value as bs)

/-- The precedence that Semantic Versioning gives to versions, by the value of numerals. -/
def precedence (value : Bytes → Nat) (a b : SemanticVersion) : Ordering :=
  (compare a.major.toNat b.major.toNat).then <| (compare a.minor.toNat b.minor.toNat).then <|
    (compare a.patch.toNat b.patch.toNat).then <|
      if a.prerelease.isEmpty || b.prerelease.isEmpty then
        compare a.prerelease.isEmpty b.prerelease.isEmpty
      else identifiersOrder value (a.prerelease.splitOn 46) (b.prerelease.splitOn 46)

/-- One of the lists continues the other, and does so with a number. -/
def GoesOn (value : Bytes → Nat) : List Bytes → List Bytes → Prop
  | [], [] => False
  | [], b :: _ => isNumericIdentifier b = true
  | a :: _, [] => isNumericIdentifier a = true
  | a :: as, b :: bs => identifierOrder value a b = .eq ∧ GoesOn value as bs

/-- Two prereleases of one version, of which one continues the other with a number. -/
def ContinuesNumerically (value : Bytes → Nat) (a b : SemanticVersion) : Prop :=
  (a.major = b.major ∧ a.minor = b.minor ∧ a.patch = b.patch) ∧
    (a.prerelease ≠ [] ∧ b.prerelease ≠ []) ∧
    GoesOn value (a.prerelease.splitOn 46) (b.prerelease.splitOn 46)

theorem GoesOn.length_ne {value : Bytes → Nat} {as bs : List Bytes} (goes : GoesOn value as bs) :
    as.length ≠ bs.length := by
  induction as generalizing bs with
  | nil =>
      cases bs with
      | nil => cases goes
      | cons => exact nofun
  | cons a as ih =>
      cases bs with
      | nil => exact nofun
      | cons b bs => exact fun same => ih goes.2 (Nat.succ.inj same)

theorem length_of_identifiersOrder {value : Bytes → Nat} {as bs : List Bytes}
    (same : identifiersOrder value as bs = .eq) : as.length = bs.length := by
  induction as generalizing bs with
  | nil =>
      cases bs with
      | nil => rfl
      | cons => cases same
  | cons a as ih =>
      cases bs with
      | nil => cases same
      | cons b bs => exact congrArg Nat.succ (ih (Ordering.then_eq_eq.mp same).2)

/-- The exhausted list ranks above a number and below a word. -/
theorem compareIdentifier_nil {a : Bytes} (nonempty : a ≠ []) :
    compareIdentifier [] a = (if isNumericIdentifier a then .gt else .lt) ∧
      compareIdentifier a [] = if isNumericIdentifier a then .lt else .gt := by
  obtain ⟨c, rest, rfl⟩ := List.exists_cons_of_ne_nil nonempty
  rw [compareIdentifier_eq, compareIdentifier_eq, identifierOrder, identifierOrder]
  cases isNumericIdentifier (c :: rest) <;> exact ⟨rfl, rfl⟩

open Classical in
/-- What the loop makes of lists of identifiers, none of which is empty. -/
theorem upTo_eq_identifiersOrder {n : Nat} {as bs : List Bytes} (left : as.length ≤ n)
    (right : bs.length ≤ n) (first : ∀ a ∈ as, a ≠ []) (second : ∀ b ∈ bs, b ≠ []) :
    upTo compareIdentifier [] n as bs = if GoesOn readNumeral as bs
      then (identifiersOrder readNumeral as bs).swap else identifiersOrder readNumeral as bs := by
  induction as generalizing bs n with
  | nil =>
      cases bs with
      | nil => rw [upTo_nil rfl, if_neg (show ¬ GoesOn readNumeral [] [] from id), identifiersOrder]
      | cons b bs =>
          obtain ⟨n, rfl⟩ := Nat.exists_eq_add_of_le' (le_trans (Nat.le_add_left 1 bs.length) right)
          rw [upTo, List.headD_nil, List.headD_cons,
            (compareIdentifier_nil (second b List.mem_cons_self)).1]
          by_cases numeric : isNumericIdentifier b = true <;> simp [GoesOn, identifiersOrder, numeric]
  | cons a as ih =>
      obtain ⟨n, rfl⟩ := Nat.exists_eq_add_of_le' (le_trans (Nat.le_add_left 1 as.length) left)
      cases bs with
      | nil =>
          rw [upTo, List.headD_nil, List.headD_cons,
            (compareIdentifier_nil (first a List.mem_cons_self)).2]
          by_cases numeric : isNumericIdentifier a = true <;> simp [GoesOn, identifiersOrder, numeric]
      | cons b bs =>
          have rest := ih (n := n) (Nat.le_of_succ_le_succ left)
            (Nat.le_of_succ_le_succ right) (fun x listed => first x (List.mem_cons_of_mem _ listed))
            fun x listed => second x (List.mem_cons_of_mem _ listed)
          rw [upTo, List.headD_cons, List.headD_cons, List.tail_cons, List.tail_cons, rest,
            compareIdentifier_eq]
          cases order : identifierOrder readNumeral a b <;> simp [GoesOn, identifiersOrder, order]

theorem ne_nil_of_wellformed {v : SemanticVersion} (formed : v.Wellformed)
    (present : v.prerelease ≠ []) : ∀ part ∈ v.prerelease.splitOn 46, part ≠ [] := by
  intro part listed
  have valid := List.all_eq_true.mp (formed.resolve_left present) part listed
  simp only [Bool.and_eq_true, Bool.not_eq_true', List.isEmpty_eq_false_iff] at valid
  exact valid.1

open Classical in
/-- The comparison of parsed versions goes wrong where one continues the other with a number. -/
theorem compareVersion_eq_precedence {a b : SemanticVersion} (left : a.Wellformed)
    (right : b.Wellformed) : compareVersion a b =
      if ContinuesNumerically readNumeral a b then (precedence readNumeral a b).swap
      else precedence readNumeral a b := by
  let n := a.prerelease.length + b.prerelease.length + 1
  rw [compareVersion, ite_ne_compare, ite_ne_compare, ite_ne_compare,
    comparePrerelease_eq (n := n) (by omega) (by omega)]
  by_cases numbers : a.major = b.major ∧ a.minor = b.minor ∧ a.patch = b.patch
  · obtain ⟨major, minor, patch⟩ := numbers
    simp only [precedence, ContinuesNumerically, major, minor, patch, Std.compare_self,
      Ordering.eq_then, true_and]
    by_cases present : a.prerelease ≠ [] ∧ b.prerelease ≠ []
    · have first := length_splitOn_le a.prerelease
      have second := length_splitOn_le b.prerelease
      have empty : a.prerelease.isEmpty = false ∧ b.prerelease.isEmpty = false := by
        simpa using present
      rw [upTo_eq_identifiersOrder (n := n) (by omega) (by omega)
        (ne_nil_of_wellformed left present.1) (ne_nil_of_wellformed right present.2)]
      simp [empty, present]
    · rw [if_neg fun both => present both.1]
      cases before : a.prerelease with
      | nil =>
          cases b.prerelease with
          | nil => exact upTo_empty n
          | cons => rfl
      | cons =>
          cases after : b.prerelease with
          | nil => rfl
          | cons => exact absurd ⟨by simp [before], by simp [after]⟩ present
  · rw [if_neg fun both => numbers both.1, precedence]
    cases major : compare a.major.toNat b.major.toNat with
    | lt | gt => rfl
    | eq =>
        cases minor : compare a.minor.toNat b.minor.toNat with
        | lt | gt => rfl
        | eq =>
            cases patch : compare a.patch.toNat b.patch.toNat with
            | lt | gt => rfl
            | eq =>
                rw [Std.compare_eq_iff_eq, UInt32.toNat_inj] at major minor patch
                exact absurd ⟨major, minor, patch⟩ numbers

/-- Versions one of which continues the other differ in precedence, however numerals are read. -/
theorem ContinuesNumerically.precedence_ne {value reading : Bytes → Nat} {a b : SemanticVersion}
    (continues : ContinuesNumerically value a b) : precedence reading a b ≠ .eq := by
  obtain ⟨_, ⟨first, second⟩, goes⟩ := continues
  have empty : a.prerelease.isEmpty = false ∧ b.prerelease.isEmpty = false := by
    simpa using And.intro first second
  intro same
  simp only [precedence, Ordering.then_eq_eq, empty, Bool.or_self, Bool.false_eq_true,
    if_false] at same
  exact goes.length_ne (length_of_identifiersOrder same.2.2.2)

/-- **The precedence of versions.** The comparison of two parsed versions gives the precedence of
Semantic Versioning exactly if reading long numerals as zero makes a difference to the precedence
just when, of the prereleases so read, one continues the other with a number. -/
theorem compareVersion_eq_precedence_iff {s t : Bytes} {a b : SemanticVersion}
    (first : parse s = some a) (second : parse t = some b) :
    compareVersion a b = precedence digitsValue a b ↔
      (precedence digitsValue a b = precedence readNumeral a b ↔
        ¬ ContinuesNumerically readNumeral a b) := by
  rw [compareVersion_eq_precedence (wellformed_of_parse first) (wellformed_of_parse second)]
  split
  · rename_i continues
    have read : precedence readNumeral a b ≠ .eq := continues.precedence_ne
    have given : precedence digitsValue a b ≠ .eq := continues.precedence_ne
    rw [iff_false_right (not_not.mpr continues)]
    revert read given
    cases precedence readNumeral a b <;> cases precedence digitsValue a b <;> simp
  · rename_i apart
    rw [iff_true_right apart, eq_comm]

/-- A prerelease is ranked above the one that continues it with a number. -/
theorem continued_ranks_below : ∃ a b, parse (text "1.0.0-alpha") = some a ∧
    parse (text "1.0.0-alpha.1") = some b ∧ precedence digitsValue a b = .lt ∧
    compareVersion a b = .gt := by
  refine ⟨⟨1, 0, 0, text "alpha"⟩, ⟨1, 0, 0, text "alpha.1"⟩, ?_⟩
  decide +kernel

theorem precedence_of_numbers :
    compareVersion ⟨1, 0, 0, text "rc.2"⟩ ⟨1, 0, 0, text "rc.10"⟩ =
      precedence digitsValue ⟨1, 0, 0, text "rc.2"⟩ ⟨1, 0, 0, text "rc.10"⟩ := by
  have read : parse (text "1.0.0-rc.2") = some ⟨1, 0, 0, text "rc.2"⟩ ∧
      parse (text "1.0.0-rc.10") = some ⟨1, 0, 0, text "rc.10"⟩ := by
    decide +kernel
  have orders : precedence digitsValue ⟨1, 0, 0, text "rc.2"⟩ ⟨1, 0, 0, text "rc.10"⟩ =
      precedence readNumeral ⟨1, 0, 0, text "rc.2"⟩ ⟨1, 0, 0, text "rc.10"⟩ := by
    decide +kernel
  refine (compareVersion_eq_precedence_iff read.1 read.2).mpr (iff_of_true orders ?_)
  rintro ⟨_, _, goes⟩
  exact goes.length_ne (by decide +kernel)

end Haf.SemanticVersion
