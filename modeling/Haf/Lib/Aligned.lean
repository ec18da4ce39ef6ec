/-
# Aligned comparison

Two sequences are compared position by position, and the one that ends first is continued with
blanks. Over any number of positions this is a preorder if the comparison of the entries is one.
-/

import Mathlib.Order.Basic

namespace Aligned

open Std

variable {α : Type} (cmp : α → α → Ordering) (blank : α)

/-- Compare the first positions of two sequences. -/
def upTo : Nat → List α → List α → Ordering
  | 0, _, _ => .eq
  | n + 1, as, bs => (cmp (as.headD blank) (bs.headD blank)).then (upTo n as.tail bs.tail)

/-- The comparison as a loop over positions. -/
theorem foldl_range_eq (n : Nat) (as bs : List α) (before : Ordering) :
    (List.range n).foldl (fun order i => order.then (cmp (as.getD i blank) (bs.getD i blank)))
      before = before.then (upTo cmp blank n as bs) := by
  induction n generalizing as bs before with
  | zero => cases before <;> rfl
  | succ n ih =>
      have step : ∀ (xs : List α) (i : Nat), xs.getD (i + 1) blank = xs.tail.getD i blank := by
        intro xs i
        cases xs <;> rfl
      have first : ∀ xs : List α, xs.getD 0 blank = xs.headD blank := by
        intro xs
        cases xs <;> rfl
      rw [List.range_succ_eq_map, List.foldl_cons, List.foldl_map]
      simp only [Nat.succ_eq_add_one, step, first]
      rw [ih, upTo, Ordering.then_assoc]

variable {cmp blank}

theorem upTo_nil (same : cmp blank blank = .eq) (n : Nat) : upTo cmp blank n [] [] = .eq := by
  induction n with
  | zero => rfl
  | succ n ih => rw [upTo, List.headD_nil, same, List.tail_nil, ih, Ordering.then_eq]

/-- Positions past the end of both sequences do not count. -/
theorem upTo_of_le (same : cmp blank blank = .eq) {n m : Nat} {as bs : List α}
    (left : as.length ≤ n) (right : bs.length ≤ n) (more : n ≤ m) :
    upTo cmp blank m as bs = upTo cmp blank n as bs := by
  induction n generalizing m as bs with
  | zero =>
      rw [List.eq_nil_of_length_eq_zero (Nat.le_zero.mp left),
        List.eq_nil_of_length_eq_zero (Nat.le_zero.mp right), upTo_nil same, upTo_nil same]
  | succ n ih =>
      cases m with
      | zero => cases more
      | succ m =>
          rw [upTo, upTo]
          congr 1
          exact ih (by rw [List.length_tail]; omega) (by rw [List.length_tail]; omega)
            (Nat.le_of_succ_le_succ more)

instance [TransCmp cmp] (n : Nat) : TransCmp (upTo cmp blank n) := by
  induction n with
  | zero => exact { eq_swap := rfl, isLE_trans := fun _ _ => rfl }
  | succ n ih =>
      have head : TransCmp fun as bs : List α => cmp (as.headD blank) (bs.headD blank) :=
        { eq_swap := OrientedCmp.eq_swap, isLE_trans := TransCmp.isLE_trans }
      have tail : TransCmp fun as bs : List α => upTo cmp blank n as.tail bs.tail :=
        { eq_swap := OrientedCmp.eq_swap, isLE_trans := TransCmp.isLE_trans }
      exact inferInstanceAs (TransCmp (compareLex _ _))

end Aligned
