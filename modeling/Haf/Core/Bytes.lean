/-
# Bounded, deterministic byte codec

Serialization is explicit little-endian and length-prefixed. Every read checks
that the bytes exist, and every count is clamped by a limit of the caller.
-/

import Haf.Core.Ids
import Haf.Lib.Wire

namespace Haf

/-! ### Resource limits -/

namespace Limits

def maxNameBytes : Nat := 256
def maxTokenBytes : Nat := 128
def maxStringBytes : Nat := 4096
def maxDescriptionBytes : Nat := 8192
def maxRationaleBytes : Nat := 1024
def maxCapabilitiesPerSet : Nat := 4096
def maxTokensPerCapability : Nat := 512
def maxRequirementsPerWorkload : Nat := 4096
def maxPolicyDimensions : Nat := 1024
def maxTopologyReferences : Nat := 64
def maxAdvertisementsPerMessage : Nat := 64
def maxMembersPerResponse : Nat := 4096
def maxPersistedMembers : Nat := 1000000
def maxPersistedDecisions : Nat := 1000000
def maxPersistedPlans : Nat := 1000000
def maxPersistedEvidence : Nat := 4000000
def maxPersistedWorkloads : Nat := 1000000
def maxStorePayloadBytes : Nat := 512 * 1024 * 1024
def maxEvidenceAgeNanos : UInt64 := 3600000000000

end Limits

/-! ### Writing -/

namespace ByteWriter

/-- The `n` low bytes of a number, least significant first. -/
def littleEndian : Nat → Nat → Bytes
  | 0, _ => []
  | n + 1, value => UInt8.ofNat value :: littleEndian n (value / 256)

def u8 (value : UInt8) : Bytes := [value]

def boolean (value : Bool) : Bytes := u8 (if value then 1 else 0)

def u16 (value : UInt16) : Bytes := littleEndian 2 value.toNat

def u32 (value : UInt32) : Bytes := littleEndian 4 value.toNat

def u64 (value : UInt64) : Bytes := littleEndian 8 value.toNat

def i64 (value : Int64) : Bytes := u64 value.toUInt64

/-- Length-prefixed byte string; the length is cut to 32 bits. -/
def string (value : Bytes) : Bytes := u32 (UInt32.ofNat value.length) ++ value

def id128 (value : Id128) : Bytes := value.bytes

def strongId {tag : IdTag} (value : StrongId tag) : Bytes := id128 value.raw

def generation {tag : GenerationTag} (value : Generation tag) : Bytes := u64 value.value

/-- The 32-bit count written before a sequence. -/
def count (n : Nat) : Bytes := u32 (UInt32.ofNat n)

/-- A sequence: its count, then its items. -/
def list {α : Type} (write : α → Bytes) (items : List α) : Bytes :=
  count items.length ++ items.flatMap write

end ByteWriter

/-! ### Reading -/

/-- A bounded reader: each accessor first checks that the requested bytes exist. -/
abbrev ByteReader := Wire.Reader Status

namespace ByteReader

open Wire.Reader

/-- The status of a read past the end of the buffer. -/
def underrun : Status := .failure .truncatedFrame "buffer underrun while decoding"

/-- The next `size` bytes of the buffer. -/
def raw (size : Nat) : ByteReader Bytes := ⟨fun input =>
  if size ≤ input.length then .ok (input.take size, input.drop size) else .error underrun⟩

/-- The number whose bytes, least significant first, are given. -/
def ofLittleEndian : Bytes → Nat
  | [] => 0
  | b :: bs => b.toNat + 256 * ofLittleEndian bs

/-- Bytes not yet consumed. -/
def remaining : ByteReader Nat := ⟨fun input => .ok (input.length, input)⟩

def u8 : ByteReader UInt8 := do
  let bytes ← raw 1
  pure (UInt8.ofNat (ofLittleEndian bytes))

def boolean : ByteReader Bool := do
  let value ← u8
  require (value ≤ 1)
    (.failure .malformedData "boolean field holds a value other than 0 or 1")
  pure (value == 1)

def u16 : ByteReader UInt16 := do
  let bytes ← raw 2
  pure (UInt16.ofNat (ofLittleEndian bytes))

def u32 : ByteReader UInt32 := do
  let bytes ← raw 4
  pure (UInt32.ofNat (ofLittleEndian bytes))

def u64 : ByteReader UInt64 := do
  let bytes ← raw 8
  pure (UInt64.ofNat (ofLittleEndian bytes))

def i64 : ByteReader Int64 := do
  let value ← u64
  pure value.toInt64

/-- A length-prefixed byte string no longer than the caller allows. -/
def string (maxBytes : Nat) : ByteReader Bytes := do
  let declared ← u32
  require (declared.toNat ≤ maxBytes)
    (.failure .boundsExceeded "declared string length exceeds the permitted maximum")
  raw declared.toNat

def id128 : ByteReader Id128 := do
  let bytes ← raw 16
  pure (.fromBytes bytes)

def strongId {tag : IdTag} : ByteReader (StrongId tag) := do
  let value ← id128
  pure ⟨value⟩

def generation {tag : GenerationTag} : ByteReader (Generation tag) := do
  let value ← u64
  pure ⟨value⟩

/-- A checking step that may refuse what was read. -/
def ofResult {α : Type} : Result α → ByteReader α
  | .ok a => pure a
  | .error e => fail e

/-- A count that will size a loop: within the limit of the caller, and such that the
items can still fit in the remaining buffer. -/
def count (maxCount : Nat) (minBytesPerItem : Nat) : ByteReader Nat := do
  let declared ← u32
  require (declared.toNat ≤ maxCount)
    (.failure .boundsExceeded "declared item count exceeds the permitted maximum")
  let left ← remaining
  require (declared.toNat * minBytesPerItem ≤ left)
    (.failure .truncatedFrame "declared item count cannot fit in the remaining buffer")
  pure declared.toNat

/-- A counted sequence of items. -/
def list {α : Type} (maxCount minBytesPerItem : Nat) (item : ByteReader α) :
    ByteReader (List α) := do
  let n ← count maxCount minBytesPerItem
  times item n

/-! ### What is returned -/

theorem ensures_string (maxBytes : Nat) :
    Wire.Ensures (string maxBytes) fun value => value.length ≤ maxBytes := by
  apply Wire.Ensures.then_
  intro declared
  apply Wire.Ensures.check
  intro within
  constructor
  intro input value rest read
  rw [raw] at read
  dsimp only at read
  split at read
  · cases read
    have within : declared.toNat ≤ maxBytes := by simpa using within
    simp only [List.length_take]
    omega
  · cases read

variable {α β : Type} {w : Bytes} {tag : GenerationTag} {accepted : Prop}
  {limit maxCount minBytes n : Nat}

/-- What the check of a result establishes is known to the rest of the format. -/
theorem ensures_ofResult {f : α → ByteReader β} {x : Result α} {Q : β → Prop}
    (next : ∀ a, x = .ok a → Wire.Ensures (f a) Q) : Wire.Ensures (ofResult x >>= f) Q := by
  cases x with
  | ok a => exact next a rfl
  | error e => exact ⟨fun read => nomatch read⟩

/-- A format may end with the check of a result. -/
theorem ensures_result {x : Result α} {Q : α → Prop} (checked : ∀ a, x = .ok a → Q a) :
    Wire.Ensures (ofResult x) Q := by
  cases x with
  | ok a => exact .pure (checked a rfl)
  | error e => exact ⟨fun read => nomatch read⟩

/-- No more items are read than the caller permits, and each is one that its reader returns. -/
theorem ensures_list {item : ByteReader α} {P : α → Prop} (maxCount minBytes : Nat)
    (each : Wire.Ensures item P) :
    Wire.Ensures (list maxCount minBytes item) fun items =>
      items.length ≤ maxCount ∧ ∀ a ∈ items, P a := by
  have counted : Wire.Ensures (count maxCount minBytes) (· ≤ maxCount) := by
    apply Wire.Ensures.then_
    intro declared
    apply Wire.Ensures.check
    intro within
    apply Wire.Ensures.then_
    intro left
    apply Wire.Ensures.check
    intro _
    apply Wire.Ensures.pure
    simpa using within
  apply Wire.Ensures.step counted
  intro n within
  apply (each.times n).weaken
  intro items listed
  exact ⟨listed.1 ▸ within, listed.2⟩

/-! ### What is read back -/

/-- Length fields are 32 bits wide, so written strings are read back as a whole only
below this length. -/
abbrev Reads {α : Type} (r : ByteReader α) (w : Bytes) (accepted : Prop) (a : α) : Prop :=
  Wire.Codes 4294967296 r w accepted a

open Wire

@[simp]
theorem length_littleEndian (n value : Nat) :
    (ByteWriter.littleEndian n value).length = n := by
  induction n generalizing value with
  | zero => rfl
  | succ n ih => rw [ByteWriter.littleEndian, List.length_cons, ih]

theorem ofLittleEndian_littleEndian (n value : Nat) :
    ofLittleEndian (ByteWriter.littleEndian n value) = value % 256 ^ n := by
  induction n generalizing value with
  | zero => simp [ByteWriter.littleEndian, ofLittleEndian, Nat.mod_one]
  | succ n ih =>
      rw [ByteWriter.littleEndian, ofLittleEndian, ih, Nat.pow_succ', Nat.mod_mul]
      simp

theorem raw_reads {size : Nat} (length : w.length = size) :
    Reads (raw size) w True w := by
  intro _ rest
  subst length
  simp [raw]

/-- A little-endian field, read through a conversion from numbers. -/
theorem littleEndian_reads (size value : Nat) (convert : Nat → α) :
    Reads (do let bytes ← raw size; pure (convert (ofLittleEndian bytes)))
      (ByteWriter.littleEndian size value) True (convert (value % 256 ^ size)) := by
  rw [← ofLittleEndian_littleEndian]
  exact Codes.map (fun bytes => convert (ofLittleEndian bytes))
    (raw_reads (length_littleEndian size value))

theorem u8_reads (value : UInt8) : Reads u8 (ByteWriter.u8 value) True value := by
  have same : ByteWriter.u8 value = ByteWriter.littleEndian 1 value.toNat := by
    simp [ByteWriter.u8, ByteWriter.littleEndian]
  refine (littleEndian_reads 1 value.toNat UInt8.ofNat).congr same.symm Iff.rfl fun _ => ?_
  rw [Nat.mod_eq_of_lt (by simpa using value.toNat_lt), UInt8.ofNat_toNat]

theorem u16_reads (value : UInt16) : Reads u16 (ByteWriter.u16 value) True value := by
  refine (littleEndian_reads 2 value.toNat UInt16.ofNat).congr rfl Iff.rfl fun _ => ?_
  rw [Nat.mod_eq_of_lt (by simpa using value.toNat_lt), UInt16.ofNat_toNat]

theorem u32_reads (value : UInt32) : Reads u32 (ByteWriter.u32 value) True value := by
  refine (littleEndian_reads 4 value.toNat UInt32.ofNat).congr rfl Iff.rfl fun _ => ?_
  rw [Nat.mod_eq_of_lt (by simpa using value.toNat_lt), UInt32.ofNat_toNat]

theorem u64_reads (value : UInt64) : Reads u64 (ByteWriter.u64 value) True value := by
  refine (littleEndian_reads 8 value.toNat UInt64.ofNat).congr rfl Iff.rfl fun _ => ?_
  rw [Nat.mod_eq_of_lt (by simpa using value.toNat_lt), UInt64.ofNat_toNat]

theorem i64_reads (value : Int64) : Reads i64 (ByteWriter.i64 value) True value := by
  refine (Codes.map UInt64.toInt64 (u64_reads value.toUInt64)).congr rfl Iff.rfl fun _ => ?_
  simp

theorem boolean_reads (value : Bool) : Reads boolean (ByteWriter.boolean value) True value := by
  have checked (raw : UInt8) : Reads (do
      require (raw ≤ 1)
        (.failure .malformedData "boolean field holds a value other than 0 or 1")
      pure (raw == 1)) [] (raw ≤ 1) (raw == 1) :=
    .check (by simp) fun small => .done _ (by simpa using small)
  refine (Codes.then_ (u8_reads _) (checked _)).congr (List.append_nil _) ?_ fun _ => ?_
  · cases value <;> decide
  · cases value <;> rfl

theorem id128_reads (value : Id128) : Reads id128 (ByteWriter.id128 value) True value := by
  refine (Codes.map Id128.fromBytes (raw_reads value.length_eq)).congr rfl Iff.rfl fun _ => ?_
  ext1
  simp [Id128.fromBytes, value.length_eq]

theorem strongId_reads {tag : IdTag} (value : StrongId tag) :
    Reads strongId (ByteWriter.strongId value) True value :=
  Codes.map StrongId.mk (id128_reads value.raw)

theorem generation_reads (value : Generation tag) :
    Reads generation (ByteWriter.generation value) True value :=
  Codes.map Generation.mk (u64_reads value.value)

/-- A checking step guards the rest of the format. -/
theorem ofResult_reads {f : α → ByteReader β} {x : Result α}
    {b : β} (needed : accepted → ∃ a, x = .ok a)
    (next : ∀ a, x = .ok a → Reads (f a) w accepted b) :
    Reads (ofResult x >>= f) w accepted b := by
  cases x with
  | error e =>
      refine fun _ _ => ⟨fun all => ?_, fun _ => ⟨e, rfl⟩⟩
      obtain ⟨a, never⟩ := needed all
      cases never
  | ok a => exact Codes.then_ (w := []) (Codes.pure a) (next a rfl)

/-- A checking step that ends the format. -/
theorem ofResult_done {x : Result α} {b : α}
    (needed : accepted → ∃ a, x = .ok a) (passed : ∀ a, x = .ok a → a = b ∧ accepted) :
    Reads (ofResult x) [] accepted b := by
  cases x with
  | error e =>
      refine fun _ _ => ⟨fun all => ?_, fun _ => ⟨e, rfl⟩⟩
      obtain ⟨a, never⟩ := needed all
      cases never
  | ok a =>
      obtain ⟨rfl, holds⟩ := passed a rfl
      exact Codes.done a holds

/-- A string is read back exactly when it keeps to the limit of the reader. -/
theorem string_reads (maxBytes : Nat) (value : Bytes) :
    Reads (string maxBytes) (ByteWriter.string value) (value.length ≤ maxBytes) value := by
  intro short rest
  have faithful : (UInt32.ofNat value.length).toNat = value.length := by
    simp only [ByteWriter.string, List.length_append] at short
    exact UInt32.toNat_ofNat_of_lt' (by simp only [UInt32.size]; omega)
  have codes : Reads (string maxBytes) (ByteWriter.string value)
      (value.length ≤ maxBytes) value := by
    refine .then_ (u32_reads (UInt32.ofNat value.length)) (.check ?_ fun within => ?_)
    · simp [faithful]
    · refine (raw_reads faithful.symm).congr rfl (iff_of_true trivial ?_) fun _ => rfl
      simpa [faithful] using within
  exact codes short rest

/-- A count below the range of its field is read back in a string of any length, if it keeps to
the limit of the reader and the items that follow are as long as the reader expects. -/
theorem count_codes {f : Nat → ByteReader β} {b : β}
    (small : (ByteWriter.count n ++ w).length < limit → n < 4294967296)
    (fits : n * minBytes ≤ w.length) (needed : accepted → n ≤ maxCount)
    (next : n ≤ maxCount → Codes limit (f n) w accepted b) :
    Codes limit (count maxCount minBytes >>= f) (ByteWriter.count n ++ w) accepted b := by
  intro short rest
  have faithful : (UInt32.ofNat n).toNat = n := UInt32.toNat_ofNat_of_lt' (small short)
  rw [List.length_append] at short
  rw [List.append_assoc]
  have counted := ((u32_reads (UInt32.ofNat n)) (by simp [ByteWriter.u32]) (w ++ rest)).1 trivial
  by_cases within : n ≤ maxCount
  · have read : (count maxCount minBytes).run (ByteWriter.count n ++ (w ++ rest)) =
        .ok (n, w ++ rest) := by
      rw [count, ByteWriter.count, run_bind_ok counted, faithful]
      have room : n * minBytes ≤ (w ++ rest).length := by
        rw [List.length_append]
        omega
      simp only [require, decide_eq_true_eq, if_pos within, run_bind, run_pure, remaining,
        if_pos room]
    rw [run_bind_ok read]
    exact next within (by omega) rest
  · refine ⟨fun all => absurd (needed all) within, fun _ => ?_⟩
    have refused : ∃ e, (count maxCount minBytes).run
        (ByteWriter.count n ++ (w ++ rest)) = .error e := by
      rw [count, ByteWriter.count, run_bind_ok counted, faithful]
      simp [require, within, run_bind, fail]
    obtain ⟨e, refused⟩ := refused
    exact ⟨e, run_bind_error refused f⟩

/-- Where every item takes a byte, a count is as small as the string that is written. -/
theorem count_reads {f : Nat → ByteReader β} {b : β}
    (positive : 0 < minBytes) (fits : n * minBytes ≤ w.length)
    (needed : accepted → n ≤ maxCount) (next : n ≤ maxCount → Reads (f n) w accepted b) :
    Reads (count maxCount minBytes >>= f) (ByteWriter.count n ++ w) accepted b := by
  apply count_codes _ fits needed next
  intro short
  have small : n ≤ n * minBytes := Nat.le_mul_of_pos_right n positive
  rw [List.length_append] at short
  omega

theorem length_mul_le_flatMap {write : α → Bytes} {items : List α}
    (long : ∀ a ∈ items, minBytes ≤ (write a).length) :
    items.length * minBytes ≤ (items.flatMap write).length := by
  induction items with
  | nil => simp
  | cons a as ih =>
      have head := long a List.mem_cons_self
      have tail := ih fun b listed => long b (List.mem_cons_of_mem a listed)
      rw [List.flatMap_cons, List.length_append, List.length_cons, Nat.succ_mul]
      omega

/-- A sequence is read back item by item when it keeps to the count limit. -/
theorem list_reads {r : ByteReader β} {write : α → Bytes} {accepted : α → Prop}
    {back : α → β} (positive : 0 < minBytes) (items : List α)
    (long : ∀ a, minBytes ≤ (write a).length)
    (item : ∀ a ∈ items, Reads r (write a) (accepted a) (back a)) :
    Reads (list maxCount minBytes r) (ByteWriter.list write items)
      (items.length ≤ maxCount ∧ ∀ a ∈ items, accepted a) (items.map back) := by
  refine count_reads positive (length_mul_le_flatMap fun a _ => long a) And.left fun within => ?_
  exact (Codes.times items item).congr rfl (and_iff_right within).symm fun _ => rfl

/-- A sequence within the count limit is read back in a string of any length. -/
theorem list_codes {r : ByteReader β} {write : α → Bytes} {back : α → β}
    {items : List α} (small : maxCount < 4294967296)
    (few : items.length ≤ maxCount) (long : ∀ a, minBytes ≤ (write a).length)
    (item : ∀ a ∈ items, Codes limit r (write a) True (back a)) :
    Codes limit (list maxCount minBytes r) (ByteWriter.list write items) True
      (items.map back) := by
  refine count_codes (fun _ => few.trans_lt small) (length_mul_le_flatMap fun a _ => long a)
    (fun _ => few) fun _ => ?_
  exact (Codes.times items item).congr rfl (iff_true_intro fun _ _ => trivial) fun _ => rfl

/-- A check that is known to pass can be skipped. -/
theorem ofResult_codes {f : α → ByteReader β} {x : Result α} {a : α}
    {b : β} (passed : x = .ok a)
    (next : Codes limit (f a) w accepted b) : Codes limit (ofResult x >>= f) w accepted b := by
  subst passed
  exact Codes.then_ (w := []) (Codes.pure a) next

/-! ### Lengths of fields -/

theorem length_u8 (n : UInt8) : (ByteWriter.u8 n).length = 1 := rfl

theorem length_boolean (b : Bool) : (ByteWriter.boolean b).length = 1 := rfl

theorem length_u16 (n : UInt16) : (ByteWriter.u16 n).length = 2 := length_littleEndian _ _

theorem length_u32 (n : UInt32) : (ByteWriter.u32 n).length = 4 := length_littleEndian _ _

theorem length_u64 (n : UInt64) : (ByteWriter.u64 n).length = 8 := length_littleEndian _ _

theorem length_i64 (n : Int64) : (ByteWriter.i64 n).length = 8 := length_littleEndian _ _

theorem length_generation (g : Generation tag) :
    (ByteWriter.generation g).length = 8 := length_littleEndian _ _

theorem length_string (s : Bytes) : (ByteWriter.string s).length = 4 + s.length := by
  simp [ByteWriter.string, ByteWriter.u32]

/-- An encoded list is at most as long as its items can be. -/
theorem length_list_le {write : α → Bytes} {items : List α} {m : Nat}
    (few : items.length ≤ n) (small : ∀ a ∈ items, (write a).length ≤ m) :
    (ByteWriter.list write items).length ≤ 4 + n * m := by
  have total : (items.flatMap write).length ≤ items.length * m := by
    clear few
    induction items with
    | nil => simp
    | cons a as ih =>
        have head := small a List.mem_cons_self
        have tail := ih fun b listed => small b (List.mem_cons_of_mem a listed)
        rw [List.flatMap_cons, List.length_append, List.length_cons, Nat.succ_mul]
        omega
  have scaled : items.length * m ≤ n * m := Nat.mul_le_mul_right m few
  simp only [ByteWriter.list, ByteWriter.count, ByteWriter.u32, List.length_append,
    length_littleEndian]
  omega

/-- A sequence of strings is read back exactly when it keeps to both limits. -/
theorem strings_reads (maxCount maxBytes : Nat) (items : List Bytes) :
    Reads (list maxCount 4 (string maxBytes)) (ByteWriter.list ByteWriter.string items)
      (items.length ≤ maxCount ∧ ∀ s ∈ items, s.length ≤ maxBytes) items := by
  refine (list_reads (by decide) items (fun s => ?_) fun s _ =>
    string_reads maxBytes s).congr rfl Iff.rfl fun _ => List.map_id items
  rw [length_string]
  omega

/-! ### What written fields determine -/

/-- A writer whose strings, below the length up to which lengths are written faithfully,
determine what `seen` shows of a value. -/
abbrev Shows {α κ : Type} (write : α → Bytes) (seen : α → κ) : Prop :=
  Wire.Delimits 4294967296 write seen

theorem shows_u8 : Shows ByteWriter.u8 id := .of_codes u8_reads fun _ _ => trivial

theorem shows_u16 : Shows ByteWriter.u16 id := .of_codes u16_reads fun _ _ => trivial

theorem shows_u32 : Shows ByteWriter.u32 id := .of_codes u32_reads fun _ _ => trivial

theorem shows_u64 : Shows ByteWriter.u64 id := .of_codes u64_reads fun _ _ => trivial

theorem shows_i64 : Shows ByteWriter.i64 id := .of_codes i64_reads fun _ _ => trivial

theorem shows_boolean : Shows ByteWriter.boolean id := .of_codes boolean_reads fun _ _ => trivial

theorem shows_strongId {tag : IdTag} : Shows (@ByteWriter.strongId tag) id :=
  .of_codes strongId_reads fun _ _ => trivial

theorem shows_generation : Shows (@ByteWriter.generation tag) id :=
  .of_codes generation_reads fun _ _ => trivial

theorem shows_string : Shows ByteWriter.string id := by
  apply Delimits.of_codes (string_reads 4294967296)
  intro value short
  rw [length_string] at short
  omega

/-- A sequence shows what its items show, if none of them is written as nothing. -/
theorem shows_list {κ : Type} {write : α → Bytes} {seen : α → κ} (item : Shows write seen)
    (long : ∀ a, 0 < (write a).length) : Shows (ByteWriter.list write) (List.map seen) := by
  have within {items : List α} {x : Bytes}
      (short : (ByteWriter.list write items ++ x).length < 4294967296) :
      items.length < 4294967296 ∧ (items.flatMap write ++ x).length < 4294967296 := by
    have least : items.length * 1 ≤ (items.flatMap write).length :=
      length_mul_le_flatMap fun a _ => long a
    simp only [ByteWriter.list, List.length_append] at short ⊢
    omega
  constructor
  intro as bs x y short short' same
  obtain ⟨few, items⟩ := within short
  obtain ⟨few', items'⟩ := within short'
  simp only [ByteWriter.list, ByteWriter.count, List.append_assoc] at short short' same
  obtain ⟨counts, same⟩ := shows_u32.split short short' same
  have counted : as.length = bs.length := by
    have sizes := congrArg UInt32.toNat counts
    simpa [Nat.mod_eq_of_lt few, Nat.mod_eq_of_lt few'] using sizes
  exact item.flatMap counted items items' same

theorem shows_strings : Shows (ByteWriter.list ByteWriter.string) id :=
  (shows_list shows_string fun s => by rw [length_string]; omega).seeing fun a b same => by
    simpa using same

end ByteReader

end Haf
