/-
# Double-precision quantities

A double is its 64-bit pattern. Magnitudes are compared exactly, as integers in
units of the smallest subnormal, and the few arithmetic operations the engines
use round to nearest, ties to even.
-/

import Haf.Core.Version

namespace Haf

/-- A binary64 value, given by its bit pattern. -/
structure Double where
  bits : UInt64
  deriving DecidableEq

namespace Double

def zero : Double := ⟨0⟩

instance : Inhabited Double := ⟨zero⟩

def fraction (d : Double) : Nat := d.bits.toNat % 2 ^ 52

def exponent (d : Double) : Nat := d.bits.toNat / 2 ^ 52 % 2048

def isNegative (d : Double) : Bool := 2 ^ 63 ≤ d.bits.toNat

def isFinite (d : Double) : Bool := d.exponent != 2047

def isNaN (d : Double) : Bool := d.exponent == 2047 && d.fraction != 0

/-- The exponent of a value in units of the smallest subnormal, `2 ^ (-1074)`. -/
def unitExponent : Nat := 1074

/-- The magnitude in units of the smallest subnormal. -/
def magnitude (d : Double) : Nat :=
  if d.exponent = 0 then d.fraction else (2 ^ 52 + d.fraction) <<< (d.exponent - 1)

/-- The signed value in units of the smallest subnormal. -/
def scaled (d : Double) : Int := if d.isNegative then -(d.magnitude : Int) else d.magnitude

def lt (a b : Double) : Bool := !a.isNaN && !b.isNaN && a.scaled < b.scaled

def le (a b : Double) : Bool := !a.isNaN && !b.isNaN && a.scaled ≤ b.scaled

def eq (a b : Double) : Bool := !a.isNaN && !b.isNaN && a.scaled == b.scaled

/-- A quotient of naturals rounded to nearest, ties to even. -/
def roundHalfEven (num den : Nat) : Nat :=
  let q := num / den
  let r := num % den
  if den < 2 * r ∨ (2 * r = den ∧ q % 2 = 1) then q + 1 else q

/-- A magnitude rounded to 53 significant bits. -/
def roundMagnitude (m : Nat) : Nat :=
  let shift := m.log2 - 52
  roundHalfEven m (2 ^ shift) <<< shift

/-- The nearest double of a signed 64-bit integer. -/
def ofInt64 (n : Int64) : Double :=
  let m := roundMagnitude n.toInt.natAbs
  let magnitudeBits :=
    if m = 0 then 0
    else if m.log2 ≤ 52 then (m.log2 + 1023) * 2 ^ 52 + (m * 2 ^ (52 - m.log2) - 2 ^ 52)
    else (m.log2 + 1023) * 2 ^ 52 + (m / 2 ^ (m.log2 - 52) - 2 ^ 52)
  ⟨UInt64.ofNat (magnitudeBits + if n < 0 then 2 ^ 63 else 0)⟩

/-- `llround(d * factor)` for a non-negative quantity: the product is rounded to a double and
then to the nearest integer, halves away from zero. -/
def roundedProduct (d : Double) (factor : Nat) : Nat :=
  (roundMagnitude (d.magnitude * factor) + 2 ^ (unitExponent - 1)) / 2 ^ unitExponent

/-- One billion, the largest requirement weight. -/
def oneBillion : Double := ⟨0x41CDCD6500000000⟩

/-! ### Rendering with nine significant digits -/

/-- `|d| / 10 ^ x` for an integer exponent, as a fraction. -/
def decimalFraction (d : Double) (x : Int) : Nat × Nat :=
  if 0 ≤ x then (d.magnitude, 2 ^ unitExponent * 10 ^ x.toNat)
  else (d.magnitude * 10 ^ (-x).toNat, 2 ^ unitExponent)

/-- The decimal exponent of a nonzero quantity, searched downwards. -/
def decimalExponent (d : Double) : Nat → Int
  | 0 => -324
  | n + 1 =>
      let x : Int := n - 323
      let (num, den) := d.decimalFraction x
      if den ≤ num then x else d.decimalExponent n

/-- Drop the zeros at the end of a digit string. -/
def stripZeros (digits : Bytes) : Bytes := (digits.reverse.dropWhile (· == 48)).reverse

/-- A digit string with a point after `n` digits, without trailing zeros. -/
def withPoint (digits : Bytes) (n : Nat) : Bytes :=
  let decimals := stripZeros (digits.drop n)
  digits.take n ++ if decimals.isEmpty then [] else 46 :: decimals

/-- The exponent part of scientific rendering, at least two digits. -/
def exponentText (x : Int) : Bytes :=
  let digits := decimal x.natAbs
  [101, if x < 0 then 45 else 43] ++ (if digits.length < 2 then 48 :: digits else digits)

/-- The "%.9g" rendering of the magnitude of a finite quantity. -/
def renderMagnitude (d : Double) : Bytes :=
  if d.magnitude = 0 then [48]
  else
    let x := d.decimalExponent 632
    let (num, den) := d.decimalFraction (x - 8)
    let rounded := roundHalfEven num den
    let (digits, x) := if rounded = 10 ^ 9 then (decimal (10 ^ 8), x + 1) else (decimal rounded, x)
    if x < -4 ∨ 9 ≤ x then withPoint digits 1 ++ exponentText x
    else if 0 ≤ x then withPoint digits (x.toNat + 1)
    else withPoint (48 :: List.replicate ((-x).toNat - 1) 48 ++ digits) 1

/-- The "%.9g" rendering. -/
def render (d : Double) : Bytes :=
  (if d.isNegative then [45] else []) ++
    if d.isNaN then text "nan" else if d.isFinite then d.renderMagnitude else text "inf"

end Double

/-! ### Double fields -/

namespace ByteWriter

def f64 (value : Double) : Bytes := u64 value.bits

end ByteWriter

namespace ByteReader

open Wire.Reader

def f64 : ByteReader Double := do
  let bits ← u64
  require (Double.isFinite ⟨bits⟩)
    (.failure .nonFiniteQuantity "decoded floating point quantity is not finite")
  pure ⟨bits⟩

theorem f64_reads (value : Double) :
    Reads f64 (ByteWriter.f64 value) (value.isFinite = true) value :=
  .of_append_nil (.then_ (u64_reads value.bits)
    (.check id fun finite => .done (⟨value.bits⟩ : Double) finite))

theorem shows_f64 : Shows ByteWriter.f64 id := by
  apply (shows_u64.of Double.bits).seeing
  intro a b same
  cases a
  cases b
  cases same
  rfl

end ByteReader

end Haf
