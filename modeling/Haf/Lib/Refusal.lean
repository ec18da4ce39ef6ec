/-
# What refusals say

A computation that may fail says why. `Refuses` states what holds of every error a
computation can end with, and `RefusesInput` the same of a reader, whatever its input is.
Both are decided along the steps of the computation, by rules that rewrite the statement about
a sequence into statements about its steps; what an earlier step returned is known to the later
ones, since their errors may quote it.
-/

import Haf.Lib.Wire

namespace Refusal

variable {ε α β : Type} {P : ε → Prop}

/-! ### Computations -/

/-- Every error with which the computation can end has `P`. -/
structure Refuses (x : Except ε α) (P : ε → Prop) : Prop where
  of_error : ∀ {e : ε}, x = .error e → P e

namespace Refuses

@[simp]
theorem ok (a : α) : Refuses (.ok a) P := ⟨fun never => nomatch never⟩

@[simp]
theorem pure (a : α) : Refuses (Pure.pure a : Except ε α) P := ok a

@[simp]
theorem error_iff {e : ε} : Refuses (.error e : Except ε α) P ↔ P e := by
  constructor
  · intro refuses
    exact refuses.of_error rfl
  · intro holds
    constructor
    intro e' same
    cases same
    exact holds

/-- A computation that succeeds says nothing. -/
theorem of_ok {x : Except ε α} {a : α} (succeeds : x = .ok a) : Refuses x P := by
  rw [succeeds]
  exact ok a

@[simp]
theorem bind_iff {x : Except ε α} {f : α → Except ε β} :
    Refuses (x >>= f) P ↔ Refuses x P ∧ ∀ a, x = .ok a → Refuses (f a) P := by
  cases x with
  | ok a =>
      show Refuses (f a) P ↔ _
      simp
  | error e =>
      show Refuses (.error e) P ↔ _
      simp

@[simp]
theorem map_iff {x : Except ε α} {g : α → β} : Refuses (g <$> x) P ↔ Refuses x P := by
  cases x with
  | ok a => exact iff_of_true (ok (g a)) (ok a)
  | error e =>
      show Refuses (.error e) P ↔ _
      simp

@[simp]
theorem ite_iff {c : Prop} [Decidable c] {x y : Except ε α} :
    Refuses (if c then x else y) P ↔ (c → Refuses x P) ∧ (¬ c → Refuses y P) := by
  split <;> simp [*]

@[simp]
theorem dite_iff {c : Prop} [Decidable c] {x : c → Except ε α} {y : ¬ c → Except ε α} :
    Refuses (if h : c then x h else y h) P ↔ (∀ h, Refuses (x h) P) ∧ ∀ h, Refuses (y h) P := by
  split <;> simp [*]

theorem mapM {f : α → Except ε β} {items : List α} (each : ∀ a ∈ items, Refuses (f a) P) :
    Refuses (items.mapM f) P := by
  induction items with
  | nil => exact ok []
  | cons a rest ih =>
      have others := ih fun other listed => each other (List.mem_cons_of_mem a listed)
      simp [each a List.mem_cons_self, others]

end Refuses

/-! ### Readers -/

open Wire

/-- Every error with which the reader can refuse its input has `P`. -/
structure RefusesInput (r : Reader ε α) (P : ε → Prop) : Prop where
  of_run : ∀ {input : List UInt8} {e : ε}, r.run input = .error e → P e

namespace RefusesInput

@[simp]
theorem run {r : Reader ε α} (refuses : RefusesInput r P) (input : List UInt8) :
    Refuses (r.run input) P :=
  ⟨refuses.of_run⟩

theorem of_refuses {r : Reader ε α} (each : ∀ input, Refuses (r.run input) P) :
    RefusesInput r P :=
  ⟨fun {input _} => (each input).of_error⟩

end RefusesInput

namespace Refuses

variable {input : List UInt8}

@[simp]
theorem run_bind_iff {r : Reader ε α} {f : α → Reader ε β} :
    Refuses ((r >>= f).run input) P ↔ Refuses (r.run input) P ∧
      ∀ a rest, r.run input = .ok (a, rest) → Refuses ((f a).run rest) P := by
  rw [Reader.run_bind]
  cases read : r.run input with
  | error e => simp
  | ok result => simp [Prod.ext_iff]

/-- What an earlier field ensures is known to the later ones. -/
theorem run_step {r : Reader ε α} {f : α → Reader ε β} {Q : α → Prop} (first : RefusesInput r P)
    (ensures : Ensures r Q) (next : ∀ a, Q a → ∀ rest, Refuses ((f a).run rest) P) :
    Refuses ((r >>= f).run input) P :=
  run_bind_iff.mpr ⟨first.run input, fun a rest read => next a (ensures.of_run read) rest⟩

@[simp]
theorem run_require_iff {condition : Bool} {e : ε} :
    Refuses ((Reader.require condition e).run input) P ↔ (condition = false → P e) := by
  cases condition <;> simp [Reader.require, Reader.fail]

@[simp]
theorem run_ofOption_iff {o : Option α} {e : ε} :
    Refuses ((Reader.ofOption e o).run input) P ↔ (o = none → P e) := by
  cases o <;> simp [Reader.ofOption, Reader.fail]

end Refuses

theorem RefusesInput.times {r : Reader ε α} (item : RefusesInput r P) (n : Nat) :
    RefusesInput (Reader.times r n) P := by
  apply of_refuses
  induction n with
  | zero => simp [Reader.times]
  | succ n ih => simp [Reader.times, item, ih]

end Refusal
