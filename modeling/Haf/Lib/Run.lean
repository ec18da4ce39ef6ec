/-
# Runs of a transition system

A run is a sequence of events from a starting state. Claims about a system that
only behaves under conditions on its use are stated over the runs whose events are
all allowed in the state they occur in; an invariant of such runs needs to be kept
by allowed steps only.
-/

import Mathlib

namespace Run

variable {σ ε : Type}

/-- The states reached from `start` by steps whose events are allowed where they occur. -/
inductive Reaches (step : σ → ε → σ → Prop) (allowed : σ → ε → Prop) (start : σ) : σ → Prop
  | refl : Reaches step allowed start start
  | next {s t : σ} {e : ε} (earlier : Reaches step allowed start s) (permitted : allowed s e)
      (taken : step s e t) : Reaches step allowed start t

namespace Reaches

variable {step : σ → ε → σ → Prop} {allowed : σ → ε → Prop} {start s t : σ}

/-- A property that holds at the start and is kept by allowed steps holds throughout. -/
theorem invariant {holds : σ → Prop} (initially : holds start)
    (kept : ∀ s e t, holds s → allowed s e → step s e t → holds t)
    (run : Reaches step allowed start s) : holds s := by
  induction run with
  | refl => exact initially
  | next _ permitted taken ih => exact kept _ _ _ ih permitted taken

/-- Runs compose. -/
theorem trans (first : Reaches step allowed start s) (second : Reaches step allowed s t) :
    Reaches step allowed start t := by
  induction second with
  | refl => exact first
  | next _ permitted taken ih => exact .next ih permitted taken

/-- Allowing more events keeps the runs there were. -/
theorem mono {allowed' : σ → ε → Prop} (weaker : ∀ s e, allowed s e → allowed' s e)
    (run : Reaches step allowed start s) : Reaches step allowed' start s := by
  induction run with
  | refl => exact .refl
  | next _ permitted taken ih => exact .next ih (weaker _ _ permitted) taken

end Reaches

/-! ### Runs with their steps -/

/-- A run from `start`, with the steps it took: the state before, the event, the state after. -/
inductive Passage (step : σ → ε → σ → Prop) (start : σ) : List (σ × ε × σ) → σ → Prop
  | nil : Passage step start [] start
  | snoc {taken : List (σ × ε × σ)} {s t : σ} {e : ε} (earlier : Passage step start taken s)
      (last : step s e t) : Passage step start (taken ++ [(s, e, t)]) t

namespace Passage

variable {step : σ → ε → σ → Prop} {start s : σ} {taken : List (σ × ε × σ)}

/-- Suppose that, as long as an invariant holds, a step behaves exactly if its event is allowed,
and then keeps the invariant. A run behaves at every step exactly if all its events are
allowed. -/
theorem forall_iff {allowed : σ → ε → Prop} {holds : σ → Prop} {behaves : σ → ε → σ → Prop}
    (initially : holds start)
    (sound : ∀ s e t, holds s → step s e t → allowed s e → behaves s e t ∧ holds t)
    (complete : ∀ s e t, holds s → step s e t → behaves s e t → allowed s e)
    (run : Passage step start taken s) :
    (∀ x ∈ taken, behaves x.1 x.2.1 x.2.2) ↔ ∀ x ∈ taken, allowed x.1 x.2.1 := by
  have both : ((∀ x ∈ taken, allowed x.1 x.2.1) → holds s) ∧
      ((∀ x ∈ taken, behaves x.1 x.2.1 x.2.2) ↔ ∀ x ∈ taken, allowed x.1 x.2.1) := by
    induction run with
    | nil => exact ⟨fun _ => initially, by simp⟩
    | @snoc taken s t e earlier last ih =>
        obtain ⟨kept, same⟩ := ih
        simp only [List.forall_mem_append, List.forall_mem_singleton]
        refine ⟨fun permitted => (sound s e t (kept permitted.1) last permitted.2).2, ?_⟩
        rw [same]
        apply and_congr_right
        intro permitted
        exact ⟨complete s e t (kept permitted) last,
          fun now => (sound s e t (kept permitted) last now).1⟩
  exact both.2

/-- Every run takes some steps. -/
theorem exists_of_reaches {allowed : σ → ε → Prop} (run : Reaches step allowed start s) :
    ∃ taken, Passage step start taken s := by
  induction run with
  | refl => exact ⟨[], .nil⟩
  | next _ _ last ih =>
      obtain ⟨taken, earlier⟩ := ih
      exact ⟨_, .snoc earlier last⟩

end Passage

end Run
