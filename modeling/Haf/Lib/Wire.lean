/-
# Readers over byte strings

A reader consumes a prefix of its input and returns a value, or fails. The
relation `Codes` says what a reader makes of one written string, whatever
follows it: the value it returns, and the condition without which it refuses.
Sequencing a reader with a continuation concatenates the written strings, so that the
account of a whole format is assembled from the accounts of its fields: the condition
on the whole must imply the condition on each field, and hold once they all do.
The relation `Ensures` says what holds of every value that a reader returns, whatever
its input was, and `Spells` that the reader takes in nothing but the string that is written
for the value it returns.
-/

import Mathlib

namespace Wire

/-- A reader consumes a prefix of its input, or fails with an error. -/
structure Reader (ε α : Type) where
  run : List UInt8 → Except ε (α × List UInt8)

namespace Reader

variable {ε α β : Type}

instance : Monad (Reader ε) where
  pure a := ⟨fun input => .ok (a, input)⟩
  bind r f := ⟨fun input =>
    match r.run input with
    | .error e => .error e
    | .ok (a, rest) => (f a).run rest⟩

/-- Refuse the input. -/
def fail (e : ε) : Reader ε α := ⟨fun _ => .error e⟩

/-- Refuse the input unless a condition on what was read holds. -/
def require (accepted : Bool) (e : ε) : Reader ε Unit :=
  if accepted then pure () else fail e

/-- Refuse the input when a partial conversion of what was read is undefined. -/
def ofOption (e : ε) : Option α → Reader ε α
  | some a => pure a
  | none => fail e

/-- Read a fixed number of items. -/
def times (r : Reader ε α) : Nat → Reader ε (List α)
  | 0 => pure []
  | n + 1 => do
      let a ← r
      let as ← times r n
      pure (a :: as)

@[simp]
theorem run_pure (a : α) (input : List UInt8) :
    (pure a : Reader ε α).run input = .ok (a, input) := rfl

theorem run_bind (r : Reader ε α) (f : α → Reader ε β) (input : List UInt8) :
    (r >>= f).run input =
      match r.run input with
      | .error e => .error e
      | .ok (a, rest) => (f a).run rest := rfl

variable {input rest : List UInt8}

theorem run_bind_ok {r : Reader ε α} {a : α}
    (read : r.run input = .ok (a, rest)) (f : α → Reader ε β) :
    (r >>= f).run input = (f a).run rest := by
  rw [run_bind, read]

theorem run_bind_error {r : Reader ε α} {e : ε}
    (read : r.run input = .error e) (f : α → Reader ε β) :
    (r >>= f).run input = .error e := by
  rw [run_bind, read]

theorem run_bind_eq_ok {r : Reader ε α} {f : α → Reader ε β} {b : β} :
    (r >>= f).run input = .ok (b, rest) ↔
      ∃ a mid, r.run input = .ok (a, mid) ∧ (f a).run mid = .ok (b, rest) := by
  cases read : r.run input with
  | error e => simp [run_bind_error read]
  | ok first =>
      rw [run_bind_ok read]
      constructor
      · intro ran
        exact ⟨first.1, first.2, rfl, ran⟩
      · rintro ⟨a, mid, same, ran⟩
        cases same
        exact ran

theorem run_require_eq_ok {accepted : Bool} {e : ε} {u : Unit} :
    (require accepted e).run input = .ok (u, rest) ↔ accepted = true ∧ input = rest := by
  cases accepted with
  | true => simp [require]
  | false => simp [require, fail]

end Reader

open Reader

variable {ε α β : Type} {limit : Nat}

/-- On every input that starts with the written string `w`, the reader `r` consumes
exactly `w` and returns `a` if `accepted` holds, and fails otherwise. Written strings
are only accounted for below the length `limit` up to which lengths are written
faithfully. -/
def Codes (limit : Nat) (r : Reader ε α) (w : List UInt8) (accepted : Prop) (a : α) : Prop :=
  w.length < limit → ∀ rest,
    (accepted → r.run (w ++ rest) = .ok (a, rest)) ∧
      (¬ accepted → ∃ e, r.run (w ++ rest) = .error e)

namespace Codes

variable {accepted : Prop} {w w' : List UInt8}

theorem congr {r : Reader ε α} {accepted' : Prop} {a a' : α}
    (codes : Codes limit r w accepted a) (written : w = w') (same : accepted ↔ accepted')
    (value : accepted' → a = a') : Codes limit r w' accepted' a' := by
  intro short rest
  subst written
  obtain ⟨read, refused⟩ := codes short rest
  refine ⟨fun holds => ?_, fun fails => refused fun holds => fails (same.mp holds)⟩
  rw [← value holds]
  exact read (same.mpr holds)

theorem pure (a : α) : Codes limit (Pure.pure a : Reader ε α) [] True a :=
  fun _ _ => ⟨fun _ => rfl, fun never => absurd trivial never⟩

/-- At the end of a format nothing is left to check. -/
theorem done (a : α) (holds : accepted) :
    Codes limit (Pure.pure a : Reader ε α) [] accepted a :=
  (pure a).congr rfl (iff_of_true trivial holds) fun _ => rfl

/-- A format may be followed by nothing. -/
theorem of_append_nil {r : Reader ε α} {a : α}
    (codes : Codes limit r (w ++ []) accepted a) : Codes limit r w accepted a :=
  codes.congr (List.append_nil w) Iff.rfl fun _ => rfl

/-- Sequencing after a field that has to be accepted for the whole to be. -/
theorem step {r : Reader ε α} {f : α → Reader ε β} {first : Prop}
    {a : α} {b : β} (read : Codes limit r w first a) (needed : accepted → first)
    (next : first → Codes limit (f a) w' accepted b) :
    Codes limit (r >>= f) (w ++ w') accepted b := by
  intro short rest
  rw [List.length_append] at short
  rw [List.append_assoc]
  obtain ⟨taken, refused⟩ := read (by omega) (w' ++ rest)
  by_cases holds : first
  · rw [run_bind_ok (taken holds) f]
    exact next holds (by omega) rest
  · obtain ⟨e, failed⟩ := refused holds
    exact ⟨fun all => absurd (needed all) holds, fun _ => ⟨e, run_bind_error failed f⟩⟩

/-- Sequencing after a field that is always read back. -/
theorem then_ {r : Reader ε α} {f : α → Reader ε β} {a : α}
    {b : β} (read : Codes limit r w True a)
    (next : Codes limit (f a) w' accepted b) :
    Codes limit (r >>= f) (w ++ w') accepted b :=
  step read (fun _ => trivial) fun _ => next

/-- Converting what was read writes nothing more. -/
theorem map {r : Reader ε α} {a : α} (convert : α → β)
    (read : Codes limit r w accepted a) :
    Codes limit (do let a ← r; Pure.pure (convert a)) w accepted (convert a) :=
  of_append_nil (step read id fun holds => done (convert a) holds)

/-- A condition on what was read guards the rest of the format. -/
theorem check {f : Unit → Reader ε β} {condition : Bool} {e : ε}
    {b : β} (needed : accepted → condition = true)
    (next : condition = true → Codes limit (f ()) w accepted b) :
    Codes limit (Reader.require condition e >>= f) w accepted b := by
  cases condition with
  | false => exact fun _ _ => ⟨fun all => absurd (needed all) (by simp), fun _ => ⟨e, rfl⟩⟩
  | true => exact then_ (w := []) (pure ()) (next rfl)

/-- A partial conversion that is defined on what was read. -/
theorem ofOption {f : α → Reader ε β} {o : Option α} {a : α} {e : ε}
    {b : β} (defined : o = some a)
    (next : Codes limit (f a) w accepted b) :
    Codes limit (Reader.ofOption e o >>= f) w accepted b := by
  subst defined
  exact then_ (w := []) (pure a) next

/-- A conversion that is defined on what was read and ends the format. -/
theorem ofOption_done {o : Option α} {a : α} {e : ε} (defined : o = some a) :
    Codes limit (Reader.ofOption e o) [] True a := by
  subst defined
  exact pure a

/-- The written items of a list are read back one by one, up to the first refusal. -/
theorem times {r : Reader ε β} {write : α → List UInt8} {accepted : α → Prop} {back : α → β}
    (items : List α) (item : ∀ a ∈ items, Codes limit r (write a) (accepted a) (back a)) :
    Codes limit (Reader.times r items.length) (items.flatMap write)
      (∀ a ∈ items, accepted a) (items.map back) := by
  induction items with
  | nil => exact done [] (by simp)
  | cons a as ih =>
      have head := item a List.mem_cons_self
      have tail := ih fun b listed => item b (List.mem_cons_of_mem a listed)
      rw [List.flatMap_cons, List.map_cons]
      refine step head (fun all => all a List.mem_cons_self) fun first => ?_
      refine (map (back a :: ·) tail).congr rfl ?_ fun _ => rfl
      rw [List.forall_mem_cons]
      exact (and_iff_right first).symm

/-- A string that is short enough can stand in a string of any length. -/
theorem within {r : Reader ε α} {a : α}
    (codes : Codes limit r w accepted a) (short : w.length < limit) (other : Nat) :
    Codes other r w accepted a :=
  fun _ => codes short

/-- A format that is not followed by anything. -/
theorem run_eq_ok_iff {r : Reader ε α} {a b : α}
    (codes : Codes limit r w accepted a) (short : w.length < limit) :
    r.run w = .ok (b, []) ↔ accepted ∧ b = a := by
  obtain ⟨taken, refused⟩ := codes short []
  rw [List.append_nil] at taken refused
  by_cases holds : accepted
  · rw [taken holds]
    simp [holds, eq_comm]
  · obtain ⟨e, failed⟩ := refused holds
    rw [failed]
    simp [holds]

end Codes

/-! ### What a reader returns -/

/-- Whatever the input is, a value that the reader returns has the property. -/
structure Ensures (r : Reader ε α) (P : α → Prop) : Prop where
  of_run : ∀ {input a rest}, r.run input = .ok (a, rest) → P a

namespace Ensures

theorem pure {a : α} {P : α → Prop} (holds : P a) : Ensures (Pure.pure a : Reader ε α) P := by
  constructor
  intro input a' rest read
  cases read
  exact holds

theorem weaken {r : Reader ε α} {P Q : α → Prop} (ensures : Ensures r P) (weaker : ∀ a, P a → Q a) :
    Ensures r Q :=
  ⟨fun read => weaker _ (ensures.of_run read)⟩

/-- What a field ensures is known to the rest of the format. -/
theorem step {r : Reader ε α} {f : α → Reader ε β} {P : α → Prop} {Q : β → Prop}
    (first : Ensures r P) (next : ∀ a, P a → Ensures (f a) Q) : Ensures (r >>= f) Q := by
  constructor
  intro input b rest read
  obtain ⟨a, mid, taken, read⟩ := run_bind_eq_ok.mp read
  exact (next a (first.of_run taken)).of_run read

/-- A field of which nothing has to be known. -/
theorem then_ {r : Reader ε α} {f : α → Reader ε β} {Q : β → Prop}
    (next : ∀ a, Ensures (f a) Q) : Ensures (r >>= f) Q :=
  step (P := fun _ => True) ⟨fun _ => trivial⟩ fun a _ => next a

theorem check {f : Unit → Reader ε β} {condition : Bool} {e : ε} {Q : β → Prop}
    (next : condition = true → Ensures (f ()) Q) :
    Ensures (Reader.require condition e >>= f) Q := by
  cases condition with
  | false => exact ⟨fun read => nomatch read⟩
  | true => exact next rfl

theorem ofOption {f : α → Reader ε β} {o : Option α} {e : ε} {Q : β → Prop}
    (next : ∀ a, o = some a → Ensures (f a) Q) : Ensures (Reader.ofOption e o >>= f) Q := by
  cases o with
  | none => exact ⟨fun read => nomatch read⟩
  | some a => exact next a rfl

/-- Every item of a list has what the reader of the items ensures. -/
theorem times {r : Reader ε α} {P : α → Prop} (item : Ensures r P) (n : Nat) :
    Ensures (Reader.times r n) fun items => items.length = n ∧ ∀ a ∈ items, P a := by
  induction n with
  | zero => exact pure ⟨rfl, by simp⟩
  | succ n ih =>
      apply step item
      intro a first
      apply step ih
      intro items tail
      apply pure
      exact ⟨by rw [List.length_cons, tail.1], List.forall_mem_cons.mpr ⟨first, tail.2⟩⟩

end Ensures

/-! ### What a reader consumes -/

/-- After `taken`, the reader consumes exactly what is still to be written of the value that it
returns. -/
structure SpellsAfter (taken : List UInt8) (r : Reader ε α) (write : α → List UInt8) : Prop where
  of_run : ∀ {input a rest}, r.run input = .ok (a, rest) → taken ++ input = write a ++ rest

/-- Whatever the input is, the reader consumes what is written for the value that it returns. -/
abbrev Spells (r : Reader ε α) (write : α → List UInt8) : Prop := SpellsAfter [] r write

namespace SpellsAfter

variable {taken : List UInt8}

theorem pure {a : α} {write : α → List UInt8} (written : taken = write a) :
    SpellsAfter taken (Pure.pure a : Reader ε α) write := by
  constructor
  intro input a' rest read
  cases read
  rw [written]

/-- A field is followed by what is still to be read. -/
theorem step {r : Reader ε α} {f : α → Reader ε β} {field : α → List UInt8}
    {write : β → List UInt8} (first : Spells r field)
    (next : ∀ a, SpellsAfter (taken ++ field a) (f a) write) :
    SpellsAfter taken (r >>= f) write := by
  constructor
  intro input b rest read
  obtain ⟨a, mid, consumed, read⟩ := run_bind_eq_ok.mp read
  have split : input = field a ++ mid := first.of_run consumed
  rw [split, ← List.append_assoc]
  exact (next a).of_run read

theorem check {f : Unit → Reader ε β} {condition : Bool} {e : ε} {write : β → List UInt8}
    (next : condition = true → SpellsAfter taken (f ()) write) :
    SpellsAfter taken (Reader.require condition e >>= f) write := by
  cases condition with
  | false => exact ⟨fun read => nomatch read⟩
  | true => exact next rfl

theorem ofOption {f : α → Reader ε β} {o : Option α} {e : ε} {write : β → List UInt8}
    (next : ∀ a, o = some a → SpellsAfter taken (f a) write) :
    SpellsAfter taken (Reader.ofOption e o >>= f) write := by
  cases o with
  | none => exact ⟨fun read => nomatch read⟩
  | some a => exact next a rfl

/-- A field that is converted as it is read. -/
theorem map {r : Reader ε α} {field : α → List UInt8} {write : β → List UInt8} {convert : α → β}
    (spells : Spells r field) (same : ∀ a, field a = write (convert a)) :
    Spells (do let a ← r; Pure.pure (convert a)) write :=
  step spells fun a => pure (same a)

end SpellsAfter

/-! ### What a written string determines -/

/-- Below the limit, a written string ends where it ends whatever follows it, and determines
what `seen` shows of the value it was written for. -/
structure Delimits {κ : Type} (limit : Nat) (write : α → List UInt8) (seen : α → κ) : Prop where
  split : ∀ {a b : α} {x y : List UInt8}, (write a ++ x).length < limit →
    (write b ++ y).length < limit → write a ++ x = write b ++ y → seen a = seen b ∧ x = y

namespace Delimits

variable {κ κ' : Type} {write : α → List UInt8} {seen : α → κ}

/-- The string alone determines what is seen. -/
theorem determines (delimits : Delimits limit write seen) {a b : α} (short : (write a).length < limit)
    (same : write a = write b) : seen a = seen b := by
  have first : (write a ++ []).length < limit := by simpa using short
  have second : (write b ++ []).length < limit := by simpa [← same] using short
  exact (delimits.split first second (by simp [same])).1

/-- Strings of one length end where they end. -/
theorem of_length (width : Nat) (length : ∀ a, (write a).length = width)
    (injective : ∀ a b, write a = write b → seen a = seen b) : Delimits limit write seen := by
  constructor
  intro a b x y _ _ same
  obtain ⟨first, rest⟩ := List.append_inj same ((length a).trans (length b).symm)
  exact ⟨injective a b first, rest⟩

/-- A fixed string shows nothing. -/
theorem fixed (w : List UInt8) : Delimits limit (fun _ : α => w) fun _ => () :=
  of_length w.length (fun _ => rfl) fun _ _ _ => rfl

/-- What a reader takes off the front is determined, and so is what it leaves. -/
theorem of_codes {r : Reader ε κ} {accepted : α → Prop}
    (codes : ∀ a, Codes limit r (write a) (accepted a) (seen a))
    (always : ∀ a, (write a).length < limit → accepted a) : Delimits limit write seen := by
  constructor
  intro a b x y short short' same
  rw [List.length_append] at short short'
  have first := (codes a (by omega) x).1 (always a (by omega))
  have second := (codes b (by omega) y).1 (always b (by omega))
  rw [same, second] at first
  obtain ⟨seen, rest⟩ := Prod.mk.inj (Except.ok.inj first)
  exact ⟨seen.symm, rest.symm⟩

/-- Less may be looked at. -/
theorem seeing (delimits : Delimits limit write seen) {view : α → κ'}
    (shown : ∀ a b, seen a = seen b → view a = view b) : Delimits limit write view := by
  constructor
  intro a b x y short short' same
  obtain ⟨first, rest⟩ := delimits.split short short' same
  exact ⟨shown a b first, rest⟩

/-- What is written of one part of a value. -/
theorem of (delimits : Delimits limit write seen) (part : β → α) :
    Delimits limit (fun b => write (part b)) fun b => seen (part b) :=
  ⟨delimits.split⟩

/-- One part after the other. -/
theorem append (delimits : Delimits limit write seen) {write' : α → List UInt8} {seen' : α → κ'}
    (delimits' : Delimits limit write' seen') :
    Delimits limit (fun a => write a ++ write' a) fun a => (seen a, seen' a) := by
  constructor
  intro a b x y short short' same
  rw [List.append_assoc] at short short'
  rw [List.append_assoc, List.append_assoc] at same
  obtain ⟨first, tail⟩ := delimits.split short short' same
  rw [List.length_append] at short short'
  obtain ⟨second, rest⟩ := delimits'.split (by omega) (by omega) tail
  exact ⟨Prod.ext first second, rest⟩

/-- Equally many items are told apart one by one. -/
theorem flatMap (delimits : Delimits limit write seen) {as bs : List α} {x y : List UInt8}
    (counted : as.length = bs.length) (short : (as.flatMap write ++ x).length < limit)
    (short' : (bs.flatMap write ++ y).length < limit)
    (same : as.flatMap write ++ x = bs.flatMap write ++ y) : as.map seen = bs.map seen ∧ x = y := by
  induction as generalizing bs with
  | nil =>
      cases List.length_eq_zero_iff.mp counted.symm
      exact ⟨rfl, same⟩
  | cons a as ih =>
      cases bs with
      | nil => cases counted
      | cons b bs =>
          rw [List.flatMap_cons, List.append_assoc] at short short'
          rw [List.flatMap_cons, List.flatMap_cons, List.append_assoc, List.append_assoc] at same
          obtain ⟨first, tail⟩ := delimits.split short short' same
          rw [List.length_append] at short short'
          obtain ⟨items, rest⟩ := ih (Nat.succ.inj counted) (by omega) (by omega) tail
          exact ⟨by rw [List.map_cons, List.map_cons, first, items], rest⟩

end Delimits

end Wire
