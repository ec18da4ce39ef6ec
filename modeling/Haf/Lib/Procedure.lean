/-
# Procedures that may answer early

A procedure works on a state and either goes on with a value or leaves with an answer.
What it did to the state before it left stays done. Statements about procedures have a
precondition on the state, a postcondition on the value and the state it goes on with,
and another on the answer and the state it leaves with.
-/

import Mathlib

/-- A procedure on states `σ` that leaves with an answer `ρ` or goes on with a value. -/
structure Procedure (σ ρ α : Type) where
  run : σ → Except ρ α × σ

namespace Procedure

variable {σ ρ α β : Type}

instance : Monad (Procedure σ ρ) where
  pure a := ⟨fun s => (.ok a, s)⟩
  bind p next := ⟨fun s =>
    match p.run s with
    | (.error answer, t) => (.error answer, t)
    | (.ok a, t) => (next a).run t⟩

/-- Leave with an answer. -/
def leave (answer : ρ) : Procedure σ ρ α := ⟨fun s => (.error answer, s)⟩

/-- Look at the state, and leave with an answer if what is looked for is not there. -/
def look (view : σ → Except ρ α) : Procedure σ ρ α := ⟨fun s => (view s, s)⟩

/-- Change the state. -/
def change (update : σ → σ) : Procedure σ ρ Unit := ⟨fun s => (.ok (), update s)⟩

/-- The answer of a procedure whose value is an answer. -/
def answer (p : Procedure σ ρ ρ) (s : σ) : ρ :=
  match (p.run s).1 with
  | .ok answer => answer
  | .error answer => answer

theorem run_bind (p : Procedure σ ρ α) (next : α → Procedure σ ρ β) (s : σ) :
    (p >>= next).run s = match p.run s with
      | (Except.error answer, t) => (Except.error answer, t)
      | (Except.ok a, t) => (next a).run t := rfl

theorem run_bind_ok {p : Procedure σ ρ α} {s t : σ} {a : α} (ran : p.run s = (.ok a, t))
    (next : α → Procedure σ ρ β) : (p >>= next).run s = (next a).run t := by
  rw [run_bind, ran]

theorem run_bind_error {p : Procedure σ ρ α} {s t : σ} {answer : ρ}
    (ran : p.run s = (.error answer, t)) (next : α → Procedure σ ρ β) :
    (p >>= next).run s = (.error answer, t) := by
  rw [run_bind, ran]

theorem answer_of_run {p : Procedure σ ρ ρ} {s t : σ} {a : ρ} (ran : p.run s = (.ok a, t)) :
    p.answer s = a := by
  rw [answer, ran]

/-- The answers with which a procedure can leave. -/
def LeavesWith (p : Procedure σ ρ α) (A : ρ → Prop) : Prop :=
  ∀ s answer t, p.run s = (.error answer, t) → A answer

namespace LeavesWith

variable {p : Procedure σ ρ α} {A : ρ → Prop}

theorem pure (a : α) : LeavesWith (Pure.pure a : Procedure σ ρ α) A := by
  intro s answer t ran
  cases ran

theorem leave {answer : ρ} (holds : A answer) :
    LeavesWith (Procedure.leave answer : Procedure σ ρ α) A := by
  intro s answer' t ran
  cases ran
  exact holds

theorem change (update : σ → σ) : LeavesWith (Procedure.change update : Procedure σ ρ Unit) A := by
  intro s answer t ran
  cases ran

theorem look {view : σ → Except ρ α} (holds : ∀ s answer, view s = .error answer → A answer) :
    LeavesWith (Procedure.look view) A := by
  intro s answer t ran
  exact holds s answer (Prod.mk.inj ran).1

theorem bind {next : α → Procedure σ ρ β} (first : LeavesWith p A)
    (then_ : ∀ a, LeavesWith (next a) A) : LeavesWith (p >>= next) A := by
  intro s answer t ran
  cases ended : p.run s with
  | mk result u =>
      cases result with
      | ok a =>
          rw [run_bind_ok ended] at ran
          exact then_ a u answer t ran
      | error answer' =>
          rw [run_bind_error ended] at ran
          cases ran
          exact first s answer _ ended

end LeavesWith

/-- From states with `P` the procedure goes on with `Q` or leaves with `E`. -/
def Meets (P : σ → Prop) (p : Procedure σ ρ α) (Q : α → σ → Prop) (E : σ → Prop) : Prop :=
  ∀ s, P s →
    match p.run s with
    | (.ok a, t) => Q a t
    | (.error _, t) => E t

namespace Meets

variable {P P' : σ → Prop} {p : Procedure σ ρ α} {Q Q' : α → σ → Prop} {E : σ → Prop}

theorem pure {a : α} (holds : ∀ s, P s → Q a s) : Meets P (Pure.pure a : Procedure σ ρ α) Q E :=
  holds

theorem leave {answer : ρ} (holds : ∀ s, P s → E s) :
    Meets P (Procedure.leave answer : Procedure σ ρ α) Q E := holds

theorem bind {next : α → Procedure σ ρ β} {R : β → σ → Prop} (first : Meets P p Q E)
    (then_ : ∀ a, Meets (Q a) (next a) R E) : Meets P (p >>= next) R E := by
  intro s holds
  have met := first s holds
  split at met
  · rename_i a t ran
    rw [run_bind_ok ran]
    exact then_ a t met
  · rename_i answer t ran
    rw [run_bind_error ran]
    exact met

theorem look {view : σ → Except ρ α} (found : ∀ s a, P s → view s = .ok a → Q a s)
    (missing : ∀ s answer, P s → view s = .error answer → E s) :
    Meets P (Procedure.look view) Q E := by
  intro s holds
  show match (view s, s) with
    | (.ok a, t) => Q a t
    | (.error _, t) => E t
  cases seen : view s with
  | ok a => exact found s a holds seen
  | error answer => exact missing s answer holds seen

theorem consequence (met : Meets P p Q E) (before : ∀ s, P' s → P s)
    (after : ∀ a s, Q a s → Q' a s) : Meets P' p Q' E := by
  intro s holds
  have ended := met s (before s holds)
  split at ended
  · exact after _ _ ended
  · exact ended

theorem leaving {E' : σ → Prop} (met : Meets P p Q E) (weaker : ∀ s, E s → E' s) :
    Meets P p Q E' := by
  intro s holds
  have ended := met s holds
  split at ended
  · exact ended
  · exact weaker _ ended

/-- The two ways a procedure can end. -/
theorem ends (met : Meets P p Q E) {s : σ} (holds : P s) :
    (∃ a t, p.run s = (.ok a, t) ∧ Q a t) ∨ ∃ answer t, p.run s = (.error answer, t) ∧ E t := by
  have ended := met s holds
  split at ended
  · rename_i a t ran
    exact .inl ⟨a, t, ran, ended⟩
  · rename_i answer t ran
    exact .inr ⟨answer, t, ran, ended⟩

/-- However the procedure ends, it ends in a state that both postconditions allow. -/
theorem state {R : σ → Prop} (met : Meets P p (fun _ => R) R) {s : σ} (holds : P s) :
    R (p.run s).2 := by
  rcases met.ends holds with ⟨_, _, ran, ended⟩ | ⟨_, _, ran, ended⟩
  · rw [ran]
    exact ended
  · rw [ran]
    exact ended

end Meets

/-- From states with `P` the procedure goes on with `Q` or leaves with an answer in `A`. -/
def Answers (P : σ → Prop) (p : Procedure σ ρ α) (Q : α → σ → Prop) (A : ρ → Prop) : Prop :=
  ∀ s, P s →
    match p.run s with
    | (.ok a, t) => Q a t
    | (.error answer, _) => A answer

namespace Answers

variable {P : σ → Prop} {p : Procedure σ ρ α} {Q : α → σ → Prop} {A : ρ → Prop}

theorem pure {a : α} (holds : ∀ s, P s → Q a s) : Answers P (Pure.pure a : Procedure σ ρ α) Q A :=
  holds

theorem leave {answer : ρ} (holds : ∀ s, P s → A answer) :
    Answers P (Procedure.leave answer : Procedure σ ρ α) Q A := holds

theorem bind {next : α → Procedure σ ρ β} {R : β → σ → Prop} (first : Answers P p Q A)
    (then_ : ∀ a, Answers (Q a) (next a) R A) : Answers P (p >>= next) R A := by
  intro s holds
  have answered := first s holds
  split at answered
  · rename_i a t ran
    rw [run_bind_ok ran]
    exact then_ a t answered
  · rename_i answer t ran
    rw [run_bind_error ran]
    exact answered

/-- A fact that is not about the state is known after the procedure as it was before. -/
theorem knowing {fact : Prop} (answers : fact → Answers P p Q A) :
    Answers (fun s => P s ∧ fact) p (fun a s => Q a s ∧ fact) A := by
  intro s holds
  have answered := answers holds.2 s holds.1
  cases ran : p.run s with
  | mk result t =>
      rw [ran] at answered
      cases result with
      | ok a => exact ⟨answered, holds.2⟩
      | error answer => exact answered

/-- The answer of a procedure that returns one. -/
theorem of_answer {p : Procedure σ ρ ρ} (answers : Answers P p (fun answer _ => A answer) A)
    {s : σ} (holds : P s) : A (p.answer s) := by
  have answered := answers s holds
  rw [answer]
  split at answered
  · rename_i a t ran
    rw [ran]
    exact answered
  · rename_i a t ran
    rw [ran]
    exact answered

end Answers

end Procedure
