/-
# Detecting a damaged sequence

A checksum mixes the items of a sequence into a state, one by one. If a mixing step
loses neither the state it starts from nor the item it mixes in, then two sequences
that differ in a single item never lead from one state to the same state, whatever
the width of the state. No assumption about collisions is involved.
-/

import Mathlib

namespace Checksum

variable {σ α : Type}

/-! ### Sequences that differ in one item -/

/-- The second sequence is the first one with a single item changed. -/
def Altered (xs ys : List α) : Prop :=
  ∃ before a b after, a ≠ b ∧ xs = before ++ a :: after ∧ ys = before ++ b :: after

namespace Altered

theorem length_eq {xs ys : List α} (altered : Altered xs ys) : ys.length = xs.length := by
  obtain ⟨before, a, b, after, _, rfl, rfl⟩ := altered
  simp

theorem ne {xs ys : List α} (altered : Altered xs ys) : xs ≠ ys := by
  obtain ⟨before, a, b, after, distinct, rfl, rfl⟩ := altered
  intro same
  exact distinct (List.cons.inj (List.append_cancel_left same)).1

theorem append_left {xs ys : List α} (altered : Altered xs ys) (zs : List α) :
    Altered (zs ++ xs) (zs ++ ys) := by
  obtain ⟨before, a, b, after, distinct, rfl, rfl⟩ := altered
  exact ⟨zs ++ before, a, b, after, distinct, by simp, by simp⟩

/-- A change of a concatenation is a change of one of its parts. -/
theorem of_append {xs ys zs : List α} (altered : Altered (xs ++ ys) zs) :
    (∃ xs', Altered xs xs' ∧ zs = xs' ++ ys) ∨ ∃ ys', Altered ys ys' ∧ zs = xs ++ ys' := by
  obtain ⟨before, a, b, after, distinct, whole, rfl⟩ := altered
  rcases List.append_eq_append_iff.mp whole with ⟨middle, rfl, rfl⟩ | ⟨middle, rfl, rest⟩
  · exact .inr ⟨middle ++ b :: after, ⟨middle, a, b, after, distinct, rfl, rfl⟩, by simp⟩
  · cases middle with
    | nil =>
        -- The change is at the very front of the second part.
        refine .inr ⟨b :: after, ⟨[], a, b, after, distinct, by simpa using rest.symm, rfl⟩, ?_⟩
        simp
    | cons c middle =>
        obtain ⟨rfl, rfl⟩ := List.cons.inj rest
        exact .inl ⟨before ++ b :: middle, ⟨before, a, b, middle, distinct, rfl, rfl⟩, by simp⟩

end Altered

/-! ### Mixing steps -/

/-- A step from which the state can be recovered given the item, and the item given the
state. -/
structure Mixing (step : σ → α → σ) : Prop where
  state : ∀ a, Function.Injective fun s => step s a
  item : ∀ s, Function.Injective (step s)

namespace Mixing

variable {step : σ → α → σ}

theorem foldl_injective (mixing : Mixing step) (xs : List α) :
    Function.Injective fun s => xs.foldl step s := by
  induction xs with
  | nil => exact fun _ _ same => same
  | cons a xs ih => exact fun s t same => mixing.state a (ih same)

/-- A single changed item changes the final state. -/
theorem foldl_ne (mixing : Mixing step) {xs ys : List α} (altered : Altered xs ys) (s : σ) :
    xs.foldl step s ≠ ys.foldl step s := by
  obtain ⟨before, a, b, after, distinct, rfl, rfl⟩ := altered
  rw [List.foldl_append, List.foldl_append, List.foldl_cons, List.foldl_cons]
  intro same
  exact distinct (mixing.item _ (mixing.foldl_injective after same))

end Mixing

/-! ### Stamped sequences -/

/-- A sequence followed by a stamp of a fixed length that notices single changes is not turned
into another such sequence by a single change. -/
theorem not_altered_stamped {stamp : List α → List α} {n : Nat}
    (width : ∀ xs, (stamp xs).length = n) (notices : ∀ xs ys, Altered xs ys → stamp xs ≠ stamp ys)
    (xs ys : List α) : ¬ Altered (xs ++ stamp xs) (ys ++ stamp ys) := by
  intro altered
  have length := altered.length_eq
  simp only [List.length_append, width, Nat.add_right_cancel_iff] at length
  rcases altered.of_append with ⟨xs', changed, whole⟩ | ⟨stamp', changed, whole⟩
  · obtain ⟨rfl, same⟩ := List.append_inj whole (length.trans changed.length_eq.symm)
    exact notices xs ys changed same.symm
  · obtain ⟨rfl, same⟩ := List.append_inj whole length
    exact changed.ne same

end Checksum
