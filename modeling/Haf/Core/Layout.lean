/-
# Fixed layouts

Frames and store files keep their fields at fixed offsets. A field is a window of the
bytes; the integers are read from and written to such windows, least significant byte
first.
-/

import Haf.Core.Bytes

namespace Haf

/-- The window of the given size at the given offset. -/
def field (bytes : Bytes) (offset size : Nat) : Bytes := (bytes.drop offset).take size

def getU16 (bytes : Bytes) (offset : Nat) : UInt16 :=
  UInt16.ofNat (ByteReader.ofLittleEndian (field bytes offset 2))

def getU32 (bytes : Bytes) (offset : Nat) : UInt32 :=
  UInt32.ofNat (ByteReader.ofLittleEndian (field bytes offset 4))

def getU64 (bytes : Bytes) (offset : Nat) : UInt64 :=
  UInt64.ofNat (ByteReader.ofLittleEndian (field bytes offset 8))

variable {bytes : Bytes} {offset : Nat}

theorem length_field {size : Nat} (inside : offset + size ≤ bytes.length) :
    (field bytes offset size).length = size := by
  rw [field, List.length_take, List.length_drop]
  omega

/-- What precedes a window and the window make up what precedes its end. -/
theorem take_append_field (bytes : Bytes) (offset size : Nat) :
    bytes.take offset ++ field bytes offset size = bytes.take (offset + size) :=
  List.take_add.symm

/-- The leading bytes are a concatenation exactly if its last part is in the last window. -/
theorem take_eq_append_iff {before last : Bytes} {total : Nat} (offset size : Nat)
    (whole : offset + size = total) (inside : total ≤ bytes.length)
    (start : before.length = offset) :
    bytes.take total = before ++ last ↔
      bytes.take offset = before ∧ field bytes offset size = last := by
  rw [← whole, ← take_append_field]
  constructor
  · intro same
    apply List.append_inj same
    rw [List.length_take, start]
    omega
  · rintro ⟨rfl, rfl⟩
    rfl

theorem littleEndian_ofLittleEndian (bytes : Bytes) :
    ByteWriter.littleEndian bytes.length (ByteReader.ofLittleEndian bytes) = bytes := by
  induction bytes with
  | nil => rfl
  | cons b bytes ih =>
      have low : UInt8.ofNat (b.toNat + 256 * ByteReader.ofLittleEndian bytes) = b := by
        apply UInt8.toNat_inj.mp
        rw [UInt8.toNat_ofNat', Nat.add_mul_mod_self_left]
        exact Nat.mod_eq_of_lt b.toNat_lt
      have high : (b.toNat + 256 * ByteReader.ofLittleEndian bytes) / 256 =
          ByteReader.ofLittleEndian bytes := by
        have := b.toNat_lt
        omega
      rw [List.length_cons, ByteReader.ofLittleEndian, ByteWriter.littleEndian, low, high, ih]

theorem ofLittleEndian_lt (bytes : Bytes) :
    ByteReader.ofLittleEndian bytes < 256 ^ bytes.length := by
  induction bytes with
  | nil => decide
  | cons b bytes ih =>
      have := b.toNat_lt
      rw [ByteReader.ofLittleEndian, List.length_cons, Nat.pow_succ]
      omega

/-- A number is read from a window exactly if it is written there. -/
theorem ofLittleEndian_eq_iff {window : Bytes} {n value : Nat} (width : window.length = n)
    (bound : value < 256 ^ n) :
    ByteReader.ofLittleEndian window = value ↔ window = ByteWriter.littleEndian n value := by
  subst width
  constructor
  · rintro rfl
    exact (littleEndian_ofLittleEndian window).symm
  · intro written
    rw [written, ByteReader.ofLittleEndian_littleEndian, Nat.mod_eq_of_lt bound]

theorem littleEndian_inj {n a b : Nat} (left : a < 256 ^ n) (right : b < 256 ^ n)
    (same : ByteWriter.littleEndian n a = ByteWriter.littleEndian n b) : a = b := by
  have read := congrArg ByteReader.ofLittleEndian same
  rwa [ByteReader.ofLittleEndian_littleEndian, ByteReader.ofLittleEndian_littleEndian,
    Nat.mod_eq_of_lt left, Nat.mod_eq_of_lt right] at read

theorem u32_injective : Function.Injective ByteWriter.u32 :=
  fun a b same => UInt32.toNat_inj.mp (littleEndian_inj a.toNat_lt b.toNat_lt same)

theorem u64_injective : Function.Injective ByteWriter.u64 :=
  fun a b same => UInt64.toNat_inj.mp (littleEndian_inj a.toNat_lt b.toNat_lt same)

theorem getU16_eq_iff {value : UInt16}
    (inside : offset + 2 ≤ bytes.length) :
    getU16 bytes offset = value ↔ field bytes offset 2 = ByteWriter.u16 value := by
  have width := length_field inside
  have bound := ofLittleEndian_lt (field bytes offset 2)
  rw [width] at bound
  rw [ByteWriter.u16, ← ofLittleEndian_eq_iff width value.toNat_lt, ← UInt16.toNat_inj, getU16,
    UInt16.toNat_ofNat_of_lt' bound]

theorem getU32_eq_iff {value : UInt32}
    (inside : offset + 4 ≤ bytes.length) :
    getU32 bytes offset = value ↔ field bytes offset 4 = ByteWriter.u32 value := by
  have width := length_field inside
  have bound := ofLittleEndian_lt (field bytes offset 4)
  rw [width] at bound
  rw [ByteWriter.u32, ← ofLittleEndian_eq_iff width value.toNat_lt, ← UInt32.toNat_inj, getU32,
    UInt32.toNat_ofNat_of_lt' bound]

theorem getU64_eq_iff {value : UInt64}
    (inside : offset + 8 ≤ bytes.length) :
    getU64 bytes offset = value ↔ field bytes offset 8 = ByteWriter.u64 value := by
  have width := length_field inside
  have bound := ofLittleEndian_lt (field bytes offset 8)
  rw [width] at bound
  rw [ByteWriter.u64, ← ofLittleEndian_eq_iff width value.toNat_lt, ← UInt64.toNat_inj, getU64,
    UInt64.toNat_ofNat_of_lt' bound]

/-! ### Fields are spelled in one way -/

namespace ByteReader

open Wire

/-- Bytes of a fixed number are spelled as they are, also when they are converted. -/
theorem spells_raw {α : Type} (size : Nat) {convert : Bytes → α} {write : α → Bytes}
    (same : ∀ bytes : Bytes, bytes.length = size → write (convert bytes) = bytes) :
    Spells (do let bytes ← raw size; pure (convert bytes)) write := by
  constructor
  intro input a rest read
  obtain ⟨bytes, mid, taken, read⟩ := Reader.run_bind_eq_ok.mp read
  cases read
  rw [raw] at taken
  dsimp only at taken
  split at taken
  · rename_i inside
    cases taken
    rw [same _ (List.length_take_of_le inside), List.take_append_drop]
    rfl
  · cases taken

theorem spells_u8 : Spells u8 ByteWriter.u8 := by
  apply spells_raw
  intro bytes width
  obtain ⟨b, rfl⟩ := List.length_eq_one_iff.mp width
  simp [ofLittleEndian, ByteWriter.u8]

theorem spells_u16 : Spells u16 ByteWriter.u16 := by
  apply spells_raw
  intro bytes width
  have bound := ofLittleEndian_lt bytes
  rw [width] at bound
  rw [ByteWriter.u16, UInt16.toNat_ofNat_of_lt' bound, ← width, littleEndian_ofLittleEndian]

theorem spells_u32 : Spells u32 ByteWriter.u32 := by
  apply spells_raw
  intro bytes width
  have bound := ofLittleEndian_lt bytes
  rw [width] at bound
  rw [ByteWriter.u32, UInt32.toNat_ofNat_of_lt' bound, ← width, littleEndian_ofLittleEndian]

theorem spells_u64 : Spells u64 ByteWriter.u64 := by
  apply spells_raw
  intro bytes width
  have bound := ofLittleEndian_lt bytes
  rw [width] at bound
  rw [ByteWriter.u64, UInt64.toNat_ofNat_of_lt' bound, ← width, littleEndian_ofLittleEndian]

theorem spells_boolean : Spells boolean ByteWriter.boolean := by
  refine .step spells_u8 fun raw => .check fun small => .pure ?_
  have range : raw.toNat ≤ 1 := UInt8.le_iff_toNat_le.mp (by simpa using small)
  have either : raw = 0 ∨ raw = 1 := by
    rw [← UInt8.toNat_inj, ← UInt8.toNat_inj]
    exact Nat.le_one_iff_eq_zero_or_eq_one.mp range
  rcases either with rfl | rfl <;> rfl

theorem spells_strongId {tag : IdTag} : Spells (@strongId tag) ByteWriter.strongId := by
  have bare : Spells id128 ByteWriter.id128 := by
    apply spells_raw
    intro bytes width
    simp [ByteWriter.id128, Id128.fromBytes, width]
  exact .map bare fun _ => rfl

theorem spells_generation {tag : GenerationTag} :
    Spells (@generation tag) ByteWriter.generation :=
  .map spells_u64 fun _ => rfl

theorem spells_string (maxBytes : Nat) : Spells (string maxBytes) ByteWriter.string := by
  constructor
  intro input value rest read
  obtain ⟨declared, mid, taken, read⟩ := Reader.run_bind_eq_ok.mp read
  obtain ⟨_, _, _, read⟩ := Reader.run_bind_eq_ok.mp read
  obtain ⟨_, rfl⟩ := Reader.run_require_eq_ok.mp ‹_›
  have start : input = ByteWriter.u32 declared ++ _ := spells_u32.of_run taken
  rw [raw] at read
  dsimp only at read
  split at read
  · rename_i inside
    cases read
    rw [ByteWriter.string, List.length_take_of_le inside, UInt32.ofNat_toNat, List.append_assoc,
      List.take_append_drop]
    exact start
  · cases read

end ByteReader

end Haf
