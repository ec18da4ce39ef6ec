/-
# The store container

A store file holds one payload in a container that says twice how long it is, carries
its SHA-256 digest, and checks its own header. Every byte of a container is determined
by the payload, and a file is read only if it is the container of what is returned. So
whatever a file was damaged by, it is read as another payload only if it became the
container of that payload.
-/

import Haf.Core.Hash
import Haf.Core.Layout
import Haf.Lib.Checksum
import Haf.Lib.Sequence

namespace Haf

open Checksum Sequence

/-! ### Layout -/

def containerMagic : Bytes := text "HAFSTR01"
def footerMagic : Bytes := text "HAFEND01"
def containerVersion : UInt32 := 1
def containerHeaderBytes : Nat := 64
def containerFooterBytes : Nat := 16

/-- The checksum over the header up to the checksum itself. -/
def headerCrc (header : Bytes) : UInt64 :=
  (({} : Fnv1a64).update (header.take (containerHeaderBytes - 8))).digest

/-- The header up to its checksum. -/
def containerFields (payload : Bytes) : Bytes :=
  containerMagic ++ ByteWriter.u32 containerVersion ++ ByteWriter.u32 0 ++
    ByteWriter.u64 (UInt64.ofNat payload.length) ++ (Sha256.hash payload).bytes

/-- The bytes of a store file. -/
def container (payload : Bytes) : Bytes :=
  containerFields payload ++ ByteWriter.u64 (headerCrc (containerFields payload)) ++ payload ++
    footerMagic ++ ByteWriter.u64 (UInt64.ofNat payload.length)

/-- The payload of a store file, once everything around it has been validated. -/
def readContainer (file : Bytes) : Result Bytes := do
  ensure (!(file.length < containerHeaderBytes + containerFooterBytes))
    (.failure .truncatedStore "store file is smaller than an empty container")
  ensure (!(Limits.maxStorePayloadBytes + containerHeaderBytes + containerFooterBytes <
      file.length))
    (.failure .boundsExceeded "store file exceeds the maximum permitted size")
  ensure (field file 0 8 = containerMagic)
    (.failure .corruptStore "store file magic is not HAFFederation container magic")
  ensure (getU32 file 8 = containerVersion)
    (.failure .unsupportedStoreVersion "store container version is not supported")
  ensure (getU32 file 12 = 0)
    (.failure .corruptStore "store header reserved word is not zero")
  ensure (getU64 file 56 = headerCrc file)
    (.failure .integrityFailure "store header checksum does not match")
  let declared := (getU64 file 16).toNat
  ensure (!(Limits.maxStorePayloadBytes < declared))
    (.failure .boundsExceeded "store declares a payload larger than the supported maximum")
  ensure (containerHeaderBytes + declared + containerFooterBytes = file.length)
    (.failure .truncatedStore "store file size does not match the declared payload length")
  let footer := containerHeaderBytes + declared
  ensure (field file footer 8 = footerMagic)
    (.failure .truncatedStore "store footer magic is missing")
  ensure (getU64 file (footer + 8) = getU64 file 16)
    (.failure .truncatedStore "store footer length does not match the header")
  ensure ((Sha256.hash (field file containerHeaderBytes declared)).bytes = field file 24 32)
    (.failure .integrityFailure "store payload digest does not match")
  pure (field file containerHeaderBytes declared)

/-! ### What is read -/

@[simp]
theorem length_containerFields (payload : Bytes) : (containerFields payload).length = 56 := by
  have digest := (Sha256.hash payload).length_eq
  simp only [containerFields, List.length_append, ByteWriter.u32, ByteWriter.u64,
    ByteReader.length_littleEndian, digest]
  rfl

theorem length_container (payload : Bytes) : (container payload).length =
    containerHeaderBytes + payload.length + containerFooterBytes := by
  have magic : footerMagic.length = 8 := rfl
  simp only [container, List.length_append, length_containerFields, ByteWriter.u64,
    ByteReader.length_littleEndian, magic, containerHeaderBytes, containerFooterBytes]

/-- The fields of a header, each in its window. -/
theorem take_eq_containerFields_iff {file payload : Bytes} (long : 56 ≤ file.length) :
    file.take 56 = containerFields payload ↔ field file 0 8 = containerMagic ∧
      getU32 file 8 = containerVersion ∧ getU32 file 12 = 0 ∧
      getU64 file 16 = UInt64.ofNat payload.length ∧
      field file 24 32 = (Sha256.hash payload).bytes := by
  have start : file.take 8 = field file 0 8 := rfl
  have magic : containerMagic.length = 8 := rfl
  rw [getU32_eq_iff (by omega), getU32_eq_iff (by omega), getU64_eq_iff (by omega),
    containerFields,
    take_eq_append_iff 24 32 rfl (by omega) (by simp [ByteWriter.u32, ByteWriter.u64, magic]),
    take_eq_append_iff 16 8 rfl (by omega) (by simp [ByteWriter.u32, magic]),
    take_eq_append_iff 12 4 rfl (by omega) (by simp [ByteWriter.u32, magic]),
    take_eq_append_iff 8 4 rfl (by omega) magic, start]
  simp only [and_assoc]

theorem headerCrc_of_take {file payload : Bytes} (fields : file.take 56 = containerFields payload) :
    headerCrc file = headerCrc (containerFields payload) := by
  have whole : (containerFields payload).take 56 = containerFields payload :=
    List.take_of_length_le (length_containerFields payload).le
  rw [headerCrc, headerCrc, show containerHeaderBytes - 8 = 56 from rfl, fields, whole]

/-- A file is the container of a payload exactly if each part is in its window. -/
theorem eq_container_iff {file payload : Bytes}
    (size : file.length = containerHeaderBytes + payload.length + containerFooterBytes) :
    file = container payload ↔
      file.take 56 = containerFields payload ∧ getU64 file 56 = headerCrc file ∧
        field file containerHeaderBytes payload.length = payload ∧
        field file (containerHeaderBytes + payload.length) 8 = footerMagic ∧
        getU64 file (containerHeaderBytes + payload.length + 8) =
          UInt64.ofNat payload.length := by
  have magic : footerMagic.length = 8 := rfl
  have whole : file = file.take (64 + payload.length + 8 + 8) := by
    rw [List.take_of_length_le]
    rw [size, containerHeaderBytes, containerFooterBytes]
  rw [containerHeaderBytes, containerFooterBytes] at size
  rw [containerHeaderBytes, getU64_eq_iff (by omega), getU64_eq_iff (by omega)]
  conv_lhs => rw [whole]
  rw [container,
    take_eq_append_iff (64 + payload.length + 8) 8 rfl (by omega)
      (by simp [ByteWriter.u64, magic]; omega),
    take_eq_append_iff (64 + payload.length) 8 rfl (by omega) (by simp [ByteWriter.u64]; omega),
    take_eq_append_iff 64 payload.length rfl (by omega) (by simp [ByteWriter.u64]),
    take_eq_append_iff 56 8 rfl (by omega) (length_containerFields payload)]
  simp only [and_assoc]
  apply and_congr_right
  intro fields
  rw [headerCrc_of_take fields]

/-- A file is read exactly if it is the container of the payload returned. -/
theorem readContainer_eq_ok {file payload : Bytes} :
    readContainer file = .ok payload ↔
      file = container payload ∧ payload.length ≤ Limits.maxStorePayloadBytes := by
  simp only [readContainer, bind_eq_ok, ensure_eq_ok, Bool.not_eq_true', decide_eq_true_eq,
    decide_eq_false_iff_not, Nat.not_lt, pure_eq_ok]
  constructor
  · rintro ⟨_, long, _, _, _, magic, _, version, _, reserved, _, crc, _, bounded, _, size, _,
      footer, _, repeated, _, digest, rfl⟩
    have length : (field file containerHeaderBytes (getU64 file 16).toNat).length =
        (getU64 file 16).toNat := by
      apply length_field
      omega
    have declared : UInt64.ofNat (getU64 file 16).toNat = getU64 file 16 := UInt64.ofNat_toNat
    rw [eq_container_iff (by rw [length]; exact size.symm), length, declared]
    refine ⟨⟨?_, crc, rfl, footer, repeated⟩, bounded⟩
    rw [containerHeaderBytes, containerFooterBytes] at long
    rw [take_eq_containerFields_iff (by omega), length, declared]
    exact ⟨magic, version, reserved, rfl, digest.symm⟩
  · rintro ⟨rfl, bounded⟩
    have size := length_container payload
    obtain ⟨fields, crc, middle, footer, repeated⟩ := (eq_container_iff size).mp rfl
    rw [containerHeaderBytes, containerFooterBytes] at size
    obtain ⟨magic, version, reserved, declared, digest⟩ :=
      (take_eq_containerFields_iff (by omega)).mp fields
    have faithful : (getU64 (container payload) 16).toNat = payload.length := by
      rw [Limits.maxStorePayloadBytes] at bounded
      rw [declared]
      exact UInt64.toNat_ofNat_of_lt' (by simp only [UInt64.size]; omega)
    rw [containerHeaderBytes] at middle footer repeated
    rw [faithful, containerHeaderBytes, containerFooterBytes, middle]
    refine ⟨(), by omega, (), by omega, (), magic, (), version, (), reserved, (), crc, (), bounded,
      (), size.symm, (), footer, (), ?_, (), digest.symm, rfl⟩
    rw [repeated, declared]

/-! ### Damage -/

/-- The file was cut short, or continued, or a single byte of it was changed. -/
def Damaged (file changed : Bytes) : Prop :=
  (∃ n < file.length, changed = file.take n) ∨ (∃ extra ≠ [], changed = file ++ extra) ∨
    Altered file changed

/-- The bytes of a file between the header and the footer. -/
def payloadPart (file : Bytes) : Bytes :=
  field file containerHeaderBytes
    (file.length - (containerHeaderBytes + containerFooterBytes))

theorem payloadPart_container (payload : Bytes) : payloadPart (container payload) = payload := by
  have size := length_container payload
  obtain ⟨_, _, middle, _⟩ := (eq_container_iff size).mp rfl
  rw [payloadPart, size, show containerHeaderBytes + payload.length + containerFooterBytes -
    (containerHeaderBytes + containerFooterBytes) = payload.length by omega, middle]

theorem declared_container (payload : Bytes) :
    getU64 (container payload) 16 = UInt64.ofNat payload.length := by
  have size := length_container payload
  obtain ⟨fields, _⟩ := (eq_container_iff size).mp rfl
  rw [containerHeaderBytes, containerFooterBytes] at size
  obtain ⟨_, _, _, declared, _⟩ := (take_eq_containerFields_iff (by omega)).mp fields
  exact declared

/-- Two containers that begin alike are of payloads of one length. -/
theorem length_eq_of_take {p p' : Bytes} (within : p.length ≤ Limits.maxStorePayloadBytes)
    (within' : p'.length ≤ Limits.maxStorePayloadBytes)
    (alike : (container p).take 24 = (container p').take 24) : p.length = p'.length := by
  have window (file : Bytes) : field file 16 8 = (file.take 24).drop 16 := by
    rw [field, List.drop_take]
  have same : getU64 (container p) 16 = getU64 (container p') 16 := by
    rw [getU64, getU64, window, window, alike]
  rw [declared_container, declared_container] at same
  rw [Limits.maxStorePayloadBytes] at within within'
  have numbers := congrArg UInt64.toNat same
  rwa [UInt64.toNat_ofNat_of_lt' (by simp only [UInt64.size]; omega),
    UInt64.toNat_ofNat_of_lt' (by simp only [UInt64.size]; omega)] at numbers

theorem hash_eq_of_containerFields {p p' : Bytes}
    (same : containerFields p = containerFields p') : Sha256.hash p = Sha256.hash p' := by
  apply Digest.ext
  apply List.append_inj_right' same
  rw [(Sha256.hash p).length_eq, (Sha256.hash p').length_eq]

/-- A single changed byte does not turn a container into another, unless the digests of the
payloads collide. -/
theorem not_altered_container {p p' : Bytes}
    (collisionFree : Sha256.hash p' = Sha256.hash p → p' = p) :
    ¬ Altered (container p) (container p') := by
  intro altered
  have distinct : p' ≠ p := fun same => altered.ne (by rw [same])
  have size := altered.length_eq
  rw [length_container, length_container] at size
  have length : p'.length = p.length := by omega
  simp only [container, List.append_assoc] at altered
  rcases altered.of_append with ⟨fields, changed, whole⟩ | ⟨rest, changed, whole⟩
  · -- The change is in the header: the payloads are the same.
    have width : (containerFields p').length = fields.length := by
      rw [changed.length_eq, length_containerFields, length_containerFields]
    have rest := (List.append_inj whole width).2
    have tail := (List.append_inj rest (by simp [ByteWriter.u64])).2
    exact distinct (List.append_inj tail length).1
  · -- The change is behind the header: the digests are the same.
    have width : (containerFields p').length = (containerFields p).length := by
      rw [length_containerFields, length_containerFields]
    have fields := (List.append_inj whole width).1
    exact distinct (collisionFree (hash_eq_of_containerFields fields))

/-- A container is read back, and every damaged one is refused unless the digests of the two
payloads collide. -/
theorem container_integrity (p : Bytes) (within : p.length ≤ Limits.maxStorePayloadBytes) :
    readContainer (container p) = .ok p ∧
      ∀ changed, Damaged (container p) changed →
        (Sha256.hash (payloadPart changed) = Sha256.hash p → payloadPart changed = p) →
        ∃ status, readContainer changed = .error status := by
  refine ⟨readContainer_eq_ok.mpr ⟨rfl, within⟩, ?_⟩
  intro changed damaged collisionFree
  cases read : readContainer changed with
  | error status => exact ⟨status, rfl⟩
  | ok p' =>
      exfalso
      obtain ⟨rfl, within'⟩ := readContainer_eq_ok.mp read
      have size := length_container p
      have size' := length_container p'
      rw [containerHeaderBytes, containerFooterBytes] at size size'
      rcases damaged with ⟨n, shorter, cut⟩ | ⟨extra, some_, continued⟩ | altered
      · have length : (container p').length = n := by
          rw [cut, List.length_take]
          omega
        have alike : (container p).take 24 = (container p').take 24 := by
          rw [cut, List.take_take, Nat.min_eq_left (by omega)]
        have same := length_eq_of_take within within' alike
        omega
      · have longer : (container p').length = (container p).length + extra.length := by
          rw [continued, List.length_append]
        have nonempty := List.length_pos_iff.mpr some_
        have alike : (container p).take 24 = (container p').take 24 := by
          rw [continued, List.take_append_of_le_length (by omega)]
        have same := length_eq_of_take within within' alike
        omega
      · rw [payloadPart_container] at collisionFree
        exact not_altered_container collisionFree altered

/-- The container of one byte, with that byte changed. -/
def changedByte : Bytes :=
  containerFields [7] ++ ByteWriter.u64 (headerCrc (containerFields [7])) ++ [8] ++ footerMagic ++
    ByteWriter.u64 1

theorem container_integrity_byte : [(7 : UInt8)].length ≤ Limits.maxStorePayloadBytes ∧
    Damaged (container [7]) changedByte ∧ ∃ status, readContainer changedByte = .error status := by
  have part : payloadPart changedByte = [8] := by decide +kernel
  have distinct : Sha256.hash [8] ≠ Sha256.hash [7] := by decide +kernel
  have damaged : Damaged (container [7]) changedByte := by
    apply Or.inr
    apply Or.inr
    exact ⟨containerFields [7] ++ ByteWriter.u64 (headerCrc (containerFields [7])), 7, 8,
      footerMagic ++ ByteWriter.u64 1, by decide, by simp [container], by simp [changedByte]⟩
  refine ⟨by decide, damaged, (container_integrity [7] (by decide)).2 changedByte damaged ?_⟩
  rw [part]
  intro collision
  exact absurd collision distinct

end Haf
