/-
# Checksums

Frames are protected by a CRC-32 of their header and an FNV-1a digest of the whole.
Both mix one byte at a time. The step of FNV-1a is an exclusive or followed by a
multiplication with an odd number; the step of the CRC, a look-up in a table of 256
words, is eight shifts of the remainder. Either can be undone, so a single changed
byte is always noticed.
-/

import Haf.Core.Hash
import Haf.Lib.Checksum

namespace Haf

open Checksum

/-! ### FNV-1a -/

namespace Fnv1a64

/-- One byte mixed into the state. -/
def mix (state : UInt64) (b : UInt8) : UInt64 := (state ^^^ b.toUInt64) * prime

theorem update_append (h : Fnv1a64) (xs ys : Bytes) :
    h.update (xs ++ ys) = (h.update xs).update ys := by
  simp only [update, List.foldl_append]

/-- The prime is odd, so multiplying with it can be undone. -/
theorem mul_prime_injective : Function.Injective (· * prime) := by
  have inverse : prime * 14886173955864302971 = 1 := by decide
  intro a b same
  have undone := congrArg (· * 14886173955864302971) same
  simpa only [UInt64.mul_assoc, inverse, UInt64.mul_one] using undone

theorem mixing : Mixing mix where
  state _ _ _ same := (UInt64.xor_left_inj _).mp (mul_prime_injective same)
  item _ _ _ same := UInt8.toUInt64_inj.mp ((UInt64.xor_right_inj _).mp (mul_prime_injective same))

/-- A digest notices a single changed byte. -/
theorem digest_ne (h : Fnv1a64) {xs ys : Bytes} (altered : Altered xs ys) :
    (h.update xs).digest ≠ (h.update ys).digest :=
  mixing.foldl_ne altered h.state

end Fnv1a64

/-! ### CRC-32 -/

def crcPolynomial : UInt32 := 0xEDB88320

/-- Shift the remainder by one bit. -/
def crcShift (value : UInt32) : UInt32 :=
  if value &&& 1 ≠ 0 then crcPolynomial ^^^ (value >>> 1) else value >>> 1

def crcShifts : Nat → UInt32 → UInt32
  | 0, value => value
  | n + 1, value => crcShifts n (crcShift value)

/-- The word of each byte. -/
def crcTable : List UInt32 := (List.range 256).map fun i => crcShifts 8 (UInt32.ofNat i)

/-- One byte mixed into the remainder. -/
def crcStep (crc : UInt32) (b : UInt8) : UInt32 :=
  crcTable.getD ((crc ^^^ b.toUInt32) &&& 0xFF).toNat 0 ^^^ (crc >>> 8)

/-- The CRC-32 of IEEE 802.3: reflected, with inverted initial and final value. -/
def crc32Ieee (bytes : Bytes) : UInt32 := bytes.foldl crcStep 0xFFFFFFFF ^^^ 0xFFFFFFFF

/-! The published check value. -/
example : crc32Ieee (text "123456789") = 0xCBF43926 := by decide +kernel

/-! ### One shift -/

theorem and_one_ne_zero (value : UInt32) :
    value &&& 1 ≠ 0 ↔ value.toBitVec.getLsbD 0 = true := by
  have low := BitVec.and_one_eq_setWidth_ofBool_getLsbD (x := value.toBitVec)
  rw [ne_eq, ← UInt32.toBitVec_inj, UInt32.toBitVec_and]
  change ¬ (value.toBitVec &&& 1#32) = 0#32 ↔ _
  rw [low]
  cases value.toBitVec.getLsbD 0 <;> decide

theorem crcShift_of_odd {value : UInt32} (odd : value.toBitVec.getLsbD 0 = true) :
    crcShift value = crcPolynomial ^^^ (value >>> 1) :=
  if_pos ((and_one_ne_zero value).mpr odd)

theorem crcShift_of_even {value : UInt32} (even : value.toBitVec.getLsbD 0 = false) :
    crcShift value = value >>> 1 := by
  rw [crcShift, if_neg]
  rw [and_one_ne_zero, even]
  exact Bool.false_ne_true

theorem toBitVec_half (value : UInt32) : (value >>> 1).toBitVec = value.toBitVec >>> 1 := by
  simp

theorem half_xor (a b : UInt32) : (a ^^^ b) >>> 1 = (a >>> 1) ^^^ (b >>> 1) := by
  apply UInt32.toBitVec_inj.mp
  rw [UInt32.toBitVec_xor, toBitVec_half, toBitVec_half, toBitVec_half, UInt32.toBitVec_xor,
    BitVec.ushiftRight_xor_distrib]

theorem xor_xor_cancel (p a b : UInt32) : p ^^^ a ^^^ (p ^^^ b) = a ^^^ b := by
  rw [UInt32.xor_comm p a, UInt32.xor_assoc, ← UInt32.xor_assoc p, UInt32.xor_self,
    UInt32.zero_xor]

/-- Shifting is linear in the exclusive or. -/
theorem crcShift_xor (a b : UInt32) : crcShift (a ^^^ b) = crcShift a ^^^ crcShift b := by
  have low : (a ^^^ b).toBitVec.getLsbD 0 = (a.toBitVec.getLsbD 0 ^^ b.toBitVec.getLsbD 0) := by
    rw [UInt32.toBitVec_xor, BitVec.getLsbD_xor]
  cases oddA : a.toBitVec.getLsbD 0 <;> cases oddB : b.toBitVec.getLsbD 0 <;>
    rw [oddA, oddB] at low
  · rw [crcShift_of_even low, crcShift_of_even oddA, crcShift_of_even oddB, half_xor]
  · rw [crcShift_of_odd low, crcShift_of_even oddA, crcShift_of_odd oddB, half_xor]
    ac_rfl
  · rw [crcShift_of_odd low, crcShift_of_odd oddA, crcShift_of_even oddB, half_xor]
    ac_rfl
  · rw [crcShift_of_even low, crcShift_of_odd oddA, crcShift_of_odd oddB, half_xor,
      xor_xor_cancel]

/-- The highest bit of the polynomial is set, so it shows which bit was shifted out. -/
theorem getLsbD_crcShift (value : UInt32) :
    (crcShift value).toBitVec.getLsbD 31 = value.toBitVec.getLsbD 0 := by
  have shifted : (value.toBitVec >>> 1).getLsbD 31 = false := by
    rw [BitVec.getLsbD_ushiftRight]
    exact BitVec.getLsbD_of_ge _ _ (by decide)
  cases odd : value.toBitVec.getLsbD 0
  · rw [crcShift_of_even odd, toBitVec_half, shifted]
  · rw [crcShift_of_odd odd, UInt32.toBitVec_xor, toBitVec_half, BitVec.getLsbD_xor, shifted]
    decide

theorem crcShift_injective : Function.Injective crcShift := by
  intro a b same
  have low : a.toBitVec.getLsbD 0 = b.toBitVec.getLsbD 0 := by
    rw [← getLsbD_crcShift, ← getLsbD_crcShift, same]
  have rest : a >>> 1 = b >>> 1 := by
    cases odd : a.toBitVec.getLsbD 0
    · rwa [crcShift_of_even odd, crcShift_of_even (low.symm.trans odd)] at same
    · rw [crcShift_of_odd odd, crcShift_of_odd (low.symm.trans odd)] at same
      exact (UInt32.xor_right_inj _).mp same
  apply UInt32.toBitVec_inj.mp
  apply BitVec.eq_of_getLsbD_eq
  intro i bound
  cases i with
  | zero => exact low
  | succ i =>
      have bits := congrArg (fun value => (UInt32.toBitVec value).getLsbD i) rest
      simpa only [toBitVec_half, BitVec.getLsbD_ushiftRight, Nat.add_comm 1 i] using bits

/-! ### One byte -/

theorem crcShifts_xor (n : Nat) (a b : UInt32) :
    crcShifts n (a ^^^ b) = crcShifts n a ^^^ crcShifts n b := by
  induction n generalizing a b with
  | zero => rfl
  | succ n ih => rw [crcShifts, crcShift_xor, ih, crcShifts, crcShifts]

theorem crcShifts_injective (n : Nat) : Function.Injective (crcShifts n) := by
  induction n with
  | zero => exact fun _ _ same => same
  | succ n ih => exact fun _ _ same => crcShift_injective (ih same)

/-- A remainder whose low bits are clear only moves down. -/
theorem toBitVec_crcShifts (n : Nat) (value : UInt32)
    (clear : ∀ i < n, value.toBitVec.getLsbD i = false) :
    (crcShifts n value).toBitVec = value.toBitVec >>> n := by
  induction n generalizing value with
  | zero => exact (BitVec.ushiftRight_zero _).symm
  | succ n ih =>
      rw [crcShifts, crcShift_of_even (clear 0 (by omega)), ih, toBitVec_half, Nat.add_comm,
        BitVec.shiftRight_add]
      intro i bound
      rw [toBitVec_half, BitVec.getLsbD_ushiftRight]
      exact clear (1 + i) (by omega)

theorem getLsbD_byteMask (i : Nat) : (255#32).getLsbD i = decide (i < 8) := by
  rw [BitVec.getLsbD_ofNat, show (255 : Nat) = 2 ^ 8 - 1 from rfl, Nat.testBit_two_pow_sub_one]
  by_cases small : i < 8
  · simp [small, show i < 32 by omega]
  · simp [small]

/-- A word is its low byte and the rest. -/
theorem xor_byteMask (x : UInt32) : (x &&& 0xFF) ^^^ (x &&& ~~~ 0xFF) = x := by
  apply UInt32.toBitVec_inj.mp
  change (x.toBitVec &&& 255#32) ^^^ (x.toBitVec &&& ~~~ 255#32) = x.toBitVec
  ext i bound
  simp only [BitVec.getElem_xor, BitVec.getElem_and, BitVec.getElem_not]
  cases x.toBitVec[i] <;> cases (255#32)[i] <;> rfl

theorem toBitVec_shiftByte (x : UInt32) : (x >>> 8).toBitVec = x.toBitVec >>> 8 := by
  simp

/-- Without its low byte a word moves down by a byte. -/
theorem crcShifts_high (x : UInt32) : crcShifts 8 (x &&& ~~~ 0xFF) = x >>> 8 := by
  have masked : (x &&& ~~~ 0xFF).toBitVec = x.toBitVec &&& ~~~ 255#32 := rfl
  apply UInt32.toBitVec_inj.mp
  rw [toBitVec_crcShifts, masked, toBitVec_shiftByte]
  · apply BitVec.eq_of_getLsbD_eq
    intro i bound
    simp only [BitVec.getLsbD_ushiftRight, BitVec.getLsbD_and, BitVec.getLsbD_not,
      getLsbD_byteMask]
    by_cases inside : 8 + i < 32
    · simp [inside]
    · simp [BitVec.getLsbD_of_ge x.toBitVec (8 + i) (by omega)]
  · intro i small
    rw [masked, BitVec.getLsbD_and, BitVec.getLsbD_not, getLsbD_byteMask]
    simp [small]

theorem crcTable_getD {i : UInt32} (byte : i.toNat < 256) :
    crcTable.getD i.toNat 0 = crcShifts 8 i := by
  rw [crcTable, List.getD_eq_getElem _ _ (by simpa using byte)]
  simp

theorem byte_shiftByte (b : UInt8) : b.toUInt32 >>> 8 = 0 := by
  apply UInt32.toNat_inj.mp
  have bound := b.toNat_lt
  simp only [UInt32.toNat_shiftRight, UInt8.toNat_toUInt32, Nat.shiftRight_eq_div_pow]
  exact Nat.div_eq_of_lt (by simpa using bound)

theorem shiftByte_xor (a b : UInt32) : (a ^^^ b) >>> 8 = (a >>> 8) ^^^ (b >>> 8) := by
  apply UInt32.toBitVec_inj.mp
  rw [UInt32.toBitVec_xor, toBitVec_shiftByte, toBitVec_shiftByte, toBitVec_shiftByte,
    UInt32.toBitVec_xor, BitVec.ushiftRight_xor_distrib]

/-- The look-up in the table is eight shifts. -/
theorem crcStep_eq (crc : UInt32) (b : UInt8) :
    crcStep crc b = crcShifts 8 (crc ^^^ b.toUInt32) := by
  have byte : ((crc ^^^ b.toUInt32) &&& 0xFF).toNat < 256 := by
    rw [UInt32.toNat_and]
    exact Nat.lt_of_le_of_lt Nat.and_le_right (by decide)
  calc crcStep crc b
      = crcShifts 8 ((crc ^^^ b.toUInt32) &&& 0xFF) ^^^ (crc >>> 8) := by
        rw [crcStep, crcTable_getD byte]
    _ = crcShifts 8 ((crc ^^^ b.toUInt32) &&& 0xFF) ^^^
          crcShifts 8 ((crc ^^^ b.toUInt32) &&& ~~~ 0xFF) := by
        rw [crcShifts_high, shiftByte_xor, byte_shiftByte, UInt32.xor_zero]
    _ = crcShifts 8 (crc ^^^ b.toUInt32) := by
        rw [← crcShifts_xor, xor_byteMask]

theorem crcStep_mixing : Mixing crcStep where
  state b _ _ same := by
    simp only [crcStep_eq] at same
    exact (UInt32.xor_left_inj _).mp (crcShifts_injective 8 same)
  item _ _ _ same := by
    simp only [crcStep_eq] at same
    exact UInt8.toUInt32_inj.mp ((UInt32.xor_right_inj _).mp (crcShifts_injective 8 same))

/-- The CRC notices a single changed byte. -/
theorem crc32Ieee_ne {xs ys : Bytes} (altered : Altered xs ys) : crc32Ieee xs ≠ crc32Ieee ys := by
  intro same
  exact crcStep_mixing.foldl_ne altered _ ((UInt32.xor_left_inj _).mp same)

end Haf
