/-
# Programs that may be interrupted

A program works on a state by calls, each of them atomic. A call may fail, and the
program may be stopped before any of them, in which case it returns nothing and leaves
the state as it was at that point. Which calls fail and where the program is stopped is
its course. A property of how a program ends is proved along its calls: it has to hold
if the program is stopped there, and of the continuation after success and failure.
-/

import Mathlib

namespace Interrupted

/-- The calls that fail, and the calls before which the program is stopped. -/
structure Course (ι : Type) where
  fails : ι → Bool
  stops : ι → Bool

/-- A program on states. It ends with a value, or with none if it is stopped. -/
structure Attempt (σ α : Type) where
  run : σ → Option α × σ

namespace Attempt

variable {ι σ α β : Type}

instance : Monad (Attempt σ) where
  pure a := ⟨fun s => (some a, s)⟩
  bind x next := ⟨fun s =>
    match x.run s with
    | (none, t) => (none, t)
    | (some a, t) => (next a).run t⟩

/-- Look at the state. -/
def look (view : σ → α) : Attempt σ α := ⟨fun s => (some (view s), s)⟩

/-- One call: it succeeds if it does not fail and what it needs is there. -/
def call (course : Course ι) (i : ι) (effect : σ → Option σ) : Attempt σ Bool :=
  ⟨fun s =>
    if course.stops i then (none, s)
    else if course.fails i then (some false, s)
    else
      match effect s with
      | some t => (some true, t)
      | none => (some false, s)⟩

theorem look_bind (view : σ → α) (next : α → Attempt σ β) (s : σ) :
    (look view >>= next).run s = (next (view s)).run s := rfl

/-- What holds when the program is stopped at a call, fails at it and goes on, or succeeds
and goes on, holds of the program from that call on. -/
theorem call_bind {course : Course ι} {i : ι} {effect : σ → Option σ} {next : Bool → Attempt σ β}
    {s : σ} {Q : Option β × σ → Prop} (stopped : course.stops i = true → Q (none, s))
    (failed : course.stops i = false → course.fails i = true ∨ effect s = none →
      Q ((next false).run s))
    (done : ∀ t, course.stops i = false → course.fails i = false → effect s = some t →
      Q ((next true).run t)) :
    Q ((call course i effect >>= next).run s) := by
  cases stops : course.stops i with
  | true =>
      simpa only [bind, call, stops, if_true] using stopped stops
  | false =>
      cases fails : course.fails i with
      | true =>
          simpa only [bind, call, stops, fails, if_true, Bool.false_eq_true, if_false] using
            failed stops (.inl fails)
      | false =>
          cases reached : effect s with
          | none =>
              simpa only [bind, call, stops, fails, reached, Bool.false_eq_true, if_false] using
                failed stops (.inr reached)
          | some t =>
              simpa only [bind, call, stops, fails, reached, Bool.false_eq_true, if_false] using
                done t stops fails reached

end Attempt

end Interrupted
