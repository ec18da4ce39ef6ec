/-
# Byte order

Bytes are linearly ordered by value, and byte strings lexicographically.
-/

import Mathlib

instance UInt8.instLinearOrder : LinearOrder UInt8 where
  le_refl := UInt8.le_refl
  le_trans _ _ _ := UInt8.le_trans
  le_antisymm _ _ := UInt8.le_antisymm
  lt_iff_le_not_ge a b := by
    rw [UInt8.lt_iff_toNat_lt, UInt8.le_iff_toNat_le, UInt8.le_iff_toNat_le]
    omega
  le_total := UInt8.le_total
  toDecidableLE := inferInstance
  toDecidableLT := inferInstance
