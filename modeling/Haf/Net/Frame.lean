/-
# Framing

One frame of the control plane is a header of fixed layout with its own CRC, a payload,
and a digest over both. A header is accepted only in the one form in which it is
written, and the trailer only if it is the digest of the bytes received, so a frame of
which a single byte was changed is refused by one of the two checks.
-/

import Haf.Core.Checksum
import Haf.Core.Layout
import Haf.Lib.Sequence

namespace Haf.Net

open Checksum Sequence

/-! ### Frames -/

/-- Current control-plane protocol version. -/
def protocolVersion : UInt16 := 1

/-- Oldest protocol version this build still accepts. -/
def minimumProtocolVersion : UInt16 := 1

def frameHeaderBytes : Nat := 28
def frameTrailerBytes : Nat := 8
def maxFramePayloadBytes : Nat := 4 * 1024 * 1024

/-- The magic `HAF1`. -/
def frameMagic : Bytes := text "HAF1"

namespace FrameFlags

def none : UInt16 := 0

end FrameFlags

/-- Decoded, validated frame header. -/
structure FrameHeader where
  protocolVersion : UInt16 := protocolVersion
  type : UInt16 := 0
  flags : UInt16 := FrameFlags.none
  sequence : UInt64 := 0
  payloadLength : UInt32 := 0
  deriving DecidableEq

structure Frame where
  header : FrameHeader
  payload : Bytes

/-- The bytes of a header under its CRC. -/
def headerFields (h : FrameHeader) : Bytes :=
  frameMagic ++ ByteWriter.u16 h.protocolVersion ++ ByteWriter.u16 h.type ++
    ByteWriter.u16 h.flags ++ ByteWriter.u16 0 ++ ByteWriter.u64 h.sequence ++
    ByteWriter.u32 h.payloadLength

def writeHeader (h : FrameHeader) : Bytes :=
  headerFields h ++ ByteWriter.u32 (crc32Ieee (headerFields h))

/-- The digest over the header and the payload. -/
def frameTrailerDigest (header payload : Bytes) : UInt64 :=
  ((({} : Fnv1a64).update header).update payload).digest

def encodeFrame (frame : Frame) : Result Bytes :=
  if maxFramePayloadBytes < frame.payload.length then
    .error (.failure .frameTooLarge "payload exceeds the maximum frame payload size")
  else
    let header := writeHeader
      { frame.header with payloadLength := UInt32.ofNat frame.payload.length }
    .ok (header ++ frame.payload ++ ByteWriter.u64 (frameTrailerDigest header frame.payload))

/-- Validate the fixed-size header and report the declared payload length. -/
def decodeFrameHeader (header : Bytes) (maximumPayload : Nat) : Result FrameHeader := do
  ensure (!(header.length < frameHeaderBytes))
    (.failure .truncatedFrame "frame header is shorter than the fixed header size")
  ensure (field header 0 4 = frameMagic)
    (.failure .protocolViolation "frame magic is not the federation control-plane magic")
  ensure (getU16 header 10 = 0)
    (.failure .protocolViolation "frame reserved word is not zero")
  ensure (getU32 header 24 = crc32Ieee (header.take 24))
    (.failure .corruptPayload "frame header checksum does not match")
  let decoded : FrameHeader := {
    protocolVersion := getU16 header 4
    type := getU16 header 6
    flags := getU16 header 8
    sequence := getU64 header 12
    payloadLength := getU32 header 20 }
  ensure (!(decoded.protocolVersion < minimumProtocolVersion ||
      protocolVersion < decoded.protocolVersion))
    (.failure .unsupportedProtocolVersion "frame declares an unsupported protocol version")
  ensure (!(maxFramePayloadBytes < decoded.payloadLength.toNat))
    (.failure .frameTooLarge "frame declares a payload larger than the protocol maximum")
  ensure (!(maximumPayload < decoded.payloadLength.toNat))
    (.failure .frameTooLarge "frame declares a payload larger than this connection permits")
  pure decoded

/-- Verify the trailer digest against the bytes actually received. -/
def verifyFrameTrailer (header payload trailer : Bytes) : Result Unit := do
  ensure (!(trailer.length < frameTrailerBytes))
    (.failure .truncatedFrame "frame trailer is incomplete")
  ensure (frameTrailerDigest header payload = getU64 trailer 0)
    (.failure .corruptPayload "frame trailer digest does not match")

/-! ### Headers -/

/-- The version and the payload length of a header that a connection accepts. -/
structure FrameHeader.Accepted (h : FrameHeader) (maximumPayload : Nat) : Prop where
  recent : minimumProtocolVersion ≤ h.protocolVersion
  known : h.protocolVersion ≤ Net.protocolVersion
  bounded : h.payloadLength.toNat ≤ maxFramePayloadBytes
  permitted : h.payloadLength.toNat ≤ maximumPayload

@[simp]
theorem length_frameMagic : frameMagic.length = 4 := rfl

@[simp]
theorem length_headerFields (h : FrameHeader) : (headerFields h).length = 24 := by
  simp [headerFields, ByteWriter.u16, ByteWriter.u32, ByteWriter.u64]

@[simp]
theorem length_writeHeader (h : FrameHeader) : (writeHeader h).length = frameHeaderBytes := by
  simp [writeHeader, ByteWriter.u32, frameHeaderBytes]

variable {bytes header : Bytes} {h : FrameHeader}

/-- The fields of a header, each in its window. -/
theorem take_eq_headerFields_iff (long : 24 ≤ bytes.length) :
    bytes.take 24 = headerFields h ↔ field bytes 0 4 = frameMagic ∧
      getU16 bytes 4 = h.protocolVersion ∧ getU16 bytes 6 = h.type ∧ getU16 bytes 8 = h.flags ∧
      getU16 bytes 10 = 0 ∧ getU64 bytes 12 = h.sequence ∧ getU32 bytes 20 = h.payloadLength := by
  have start : bytes.take 4 = field bytes 0 4 := rfl
  rw [getU16_eq_iff (by omega), getU16_eq_iff (by omega), getU16_eq_iff (by omega),
    getU16_eq_iff (by omega), getU64_eq_iff (by omega), getU32_eq_iff (by omega), headerFields,
    take_eq_append_iff 20 4 rfl (by omega) (by simp [ByteWriter.u16, ByteWriter.u64]),
    take_eq_append_iff 12 8 rfl (by omega) (by simp [ByteWriter.u16]),
    take_eq_append_iff 10 2 rfl (by omega) (by simp [ByteWriter.u16]),
    take_eq_append_iff 8 2 rfl (by omega) (by simp [ByteWriter.u16]),
    take_eq_append_iff 6 2 rfl (by omega) (by simp [ByteWriter.u16]),
    take_eq_append_iff 4 2 rfl (by omega) rfl, start]
  simp only [and_assoc]

theorem take_eq_writeHeader_iff
    (long : frameHeaderBytes ≤ bytes.length) :
    bytes.take frameHeaderBytes = writeHeader h ↔
      bytes.take 24 = headerFields h ∧ getU32 bytes 24 = crc32Ieee (bytes.take 24) := by
  rw [frameHeaderBytes] at long ⊢
  rw [writeHeader, take_eq_append_iff 24 4 rfl long (length_headerFields h),
    getU32_eq_iff (by omega)]
  constructor
  · rintro ⟨fields, crc⟩
    exact ⟨fields, by rw [crc, fields]⟩
  · rintro ⟨fields, crc⟩
    exact ⟨fields, by rw [crc, fields]⟩

/-- A header is accepted exactly in the form in which it is written. -/
theorem decodeFrameHeader_eq_ok {maximumPayload : Nat} :
    decodeFrameHeader bytes maximumPayload = .ok h ↔
      bytes.take frameHeaderBytes = writeHeader h ∧ h.Accepted maximumPayload := by
  simp only [decodeFrameHeader, bind_eq_ok, ensure_eq_ok, Bool.not_eq_true', decide_eq_true_eq,
    decide_eq_false_iff_not, Bool.or_eq_false_iff, Nat.not_lt]
  constructor
  · rintro ⟨_, long, _, magic, _, reserved, _, crc, _, version, _, bounded, _, permitted, decoded⟩
    cases decoded
    refine ⟨(take_eq_writeHeader_iff long).mpr ⟨?_, crc⟩, ?_⟩
    · exact (take_eq_headerFields_iff (le_trans (by decide) long)).mpr
        ⟨magic, rfl, rfl, rfl, reserved, rfl, rfl⟩
    · exact ⟨UInt16.not_lt.mp version.1, UInt16.not_lt.mp version.2, bounded, permitted⟩
  · rintro ⟨written, accepted⟩
    have long : frameHeaderBytes ≤ bytes.length := by
      have length := congrArg List.length written
      rw [length_writeHeader, List.length_take] at length
      omega
    obtain ⟨fields, crc⟩ := (take_eq_writeHeader_iff long).mp written
    obtain ⟨magic, version, type, flags, reserved, sequence, payloadLength⟩ :=
      (take_eq_headerFields_iff (le_trans (by decide) long)).mp fields
    refine ⟨(), long, (), magic, (), reserved, (), crc, (), ?_, (), ?_, (), ?_, ?_⟩
    · rw [version]
      exact ⟨UInt16.not_lt.mpr accepted.recent, UInt16.not_lt.mpr accepted.known⟩
    · rw [payloadLength]
      exact accepted.bounded
    · rw [payloadLength]
      exact accepted.permitted
    · rw [version, type, flags, sequence, payloadLength]
      rfl

theorem writeHeader_injective : Function.Injective writeHeader := by
  intro h h' same
  have fields : headerFields h = headerFields h' :=
    (List.append_inj same (by rw [length_headerFields, length_headerFields])).1
  have long : 24 ≤ (headerFields h).length := (length_headerFields h).ge
  have whole : (headerFields h).take 24 = headerFields h :=
    List.take_of_length_le (length_headerFields h).le
  obtain ⟨_, version, type, flags, _, sequence, length⟩ :=
    (take_eq_headerFields_iff long).mp whole
  obtain ⟨_, version', type', flags', _, sequence', length'⟩ :=
    (take_eq_headerFields_iff long).mp (whole.trans fields)
  cases h
  cases h'
  simp_all

/-- A single changed byte does not turn a header into another one. -/
theorem not_altered_writeHeader (h h' : FrameHeader) :
    ¬ Altered (writeHeader h) (writeHeader h') := by
  have notices (xs ys : Bytes) (altered : Altered xs ys) :
      ByteWriter.u32 (crc32Ieee xs) ≠ ByteWriter.u32 (crc32Ieee ys) :=
    fun same => crc32Ieee_ne altered (u32_injective same)
  exact not_altered_stamped (fun xs => ByteReader.length_littleEndian 4 _) notices _ _

/-! ### Whole frames -/

/-- The header of an encoded frame: the declared length is that of the payload. -/
def Frame.encodedHeader (frame : Frame) : FrameHeader :=
  { frame.header with payloadLength := UInt32.ofNat frame.payload.length }

/-- The digest of a frame as it is written after it. -/
def frameTrailer (sealed : Bytes) : Bytes := ByteWriter.u64 (({} : Fnv1a64).update sealed).digest

theorem frameTrailerDigest_eq (header payload : Bytes) :
    frameTrailerDigest header payload = (({} : Fnv1a64).update (header ++ payload)).digest := by
  rw [frameTrailerDigest, Fnv1a64.update_append]

@[simp]
theorem length_frameTrailer (sealed : Bytes) : (frameTrailer sealed).length = frameTrailerBytes :=
  ByteReader.length_littleEndian 8 _

theorem encodeFrame_eq {frame : Frame} (within : frame.payload.length ≤ maxFramePayloadBytes) :
    encodeFrame frame = .ok (writeHeader frame.encodedHeader ++ frame.payload ++
      frameTrailer (writeHeader frame.encodedHeader ++ frame.payload)) := by
  rw [encodeFrame, if_neg (Nat.not_lt.mpr within), frameTrailer, ← frameTrailerDigest_eq]
  rfl

theorem verifyFrameTrailer_eq_ok {payload trailer : Bytes} {u : Unit} :
    verifyFrameTrailer header payload trailer = .ok u ↔
      trailer.take frameTrailerBytes = frameTrailer (header ++ payload) := by
  have window : trailer.take frameTrailerBytes = field trailer 0 8 := rfl
  simp only [verifyFrameTrailer, bind_eq_ok, ensure_eq_ok, Bool.not_eq_true', decide_eq_true_eq,
    decide_eq_false_iff_not, Nat.not_lt, frameTrailerDigest_eq, window, frameTrailer]
  constructor
  · rintro ⟨_, long, digest⟩
    exact (getU64_eq_iff long).mp digest.symm
  · intro written
    have long : frameTrailerBytes ≤ trailer.length := by
      have length := congrArg List.length written
      rw [← window, List.length_take, ByteWriter.u64, ByteReader.length_littleEndian] at length
      rw [frameTrailerBytes] at length ⊢
      omega
    exact ⟨(), long, ((getU64_eq_iff long).mpr written).symm⟩

/-- A single changed byte does not turn a sealed frame into another one. -/
theorem not_altered_frame (xs ys : Bytes) :
    ¬ Altered (xs ++ frameTrailer xs) (ys ++ frameTrailer ys) :=
  not_altered_stamped length_frameTrailer
    (fun _ _ altered same => Fnv1a64.digest_ne {} altered (u64_injective same)) xs ys

/-- The parts of a frame, as a receiver takes it apart. -/
theorem frame_parts (payload trailer : Bytes)
    (width : header.length = frameHeaderBytes) :
    (header ++ payload ++ trailer).take frameHeaderBytes = header ∧
      field (header ++ payload ++ trailer) frameHeaderBytes payload.length = payload ∧
      (header ++ payload ++ trailer).drop (frameHeaderBytes + payload.length) = trailer := by
  refine ⟨?_, ?_, ?_⟩
  · rw [List.append_assoc, List.take_left' width]
  · rw [field, List.append_assoc, List.drop_left' width, List.take_left' rfl]
  · rw [List.drop_left']
    rw [List.length_append, width]

/-- A stamped frame of which the rest was changed does not pass. -/
theorem verifyFrameTrailer_altered {payload rest : Bytes}
    (width : header.length = frameHeaderBytes)
    (altered : Altered (payload ++ frameTrailer (header ++ payload)) rest) :
    ∃ status, verifyFrameTrailer ((header ++ rest).take frameHeaderBytes)
      (field (header ++ rest) frameHeaderBytes payload.length)
      ((header ++ rest).drop (frameHeaderBytes + payload.length)) = .error status := by
  have length := altered.length_eq
  rw [List.length_append, length_frameTrailer] at length
  obtain ⟨payload', trailer', size, size', rfl⟩ : ∃ payload' trailer' : Bytes,
      payload'.length = payload.length ∧ trailer'.length = frameTrailerBytes ∧
        rest = payload' ++ trailer' := by
    refine ⟨rest.take payload.length, rest.drop payload.length, ?_, ?_,
      (List.take_append_drop _ rest).symm⟩
    · rw [List.length_take]
      omega
    · rw [List.length_drop]
      omega
  obtain ⟨first, middle, last⟩ := frame_parts payload' trailer' width
  rw [← List.append_assoc, ← size, first, middle, last]
  cases verified : verifyFrameTrailer header payload' trailer' with
  | error status => exact ⟨status, rfl⟩
  | ok u =>
      exfalso
      have stamped := verifyFrameTrailer_eq_ok.mp verified
      rw [List.take_of_length_le size'.le] at stamped
      rw [stamped] at altered
      apply not_altered_frame (header ++ payload) (header ++ payload')
      rw [List.append_assoc, List.append_assoc]
      exact altered.append_left header

theorem Frame.payloadLength_toNat {frame : Frame}
    (within : frame.payload.length ≤ maxFramePayloadBytes) :
    frame.encodedHeader.payloadLength.toNat = frame.payload.length := by
  rw [maxFramePayloadBytes] at within
  exact UInt32.toNat_ofNat_of_lt' (by simp only [UInt32.size]; omega)

/-- A changed frame whose header is still accepted has its header as it was. -/
theorem altered_payload {h' : FrameHeader} {rest : Bytes} {maximumPayload : Nat}
    (altered : Altered (writeHeader h ++ rest) bytes)
    (decoded : decodeFrameHeader (bytes.take frameHeaderBytes) maximumPayload = .ok h') :
    h' = h ∧ ∃ rest', Altered rest rest' ∧ bytes = writeHeader h ++ rest' := by
  obtain ⟨written, _⟩ := decodeFrameHeader_eq_ok.mp decoded
  rw [List.take_take, Nat.min_self] at written
  have header := length_writeHeader h
  rcases altered.of_append with ⟨header', changed, rfl⟩ | ⟨rest', changed, rfl⟩
  · rw [List.take_left' (changed.length_eq.trans header)] at written
    exact absurd (written ▸ changed) (not_altered_writeHeader h h')
  · rw [List.take_left' header] at written
    exact ⟨writeHeader_injective written.symm, rest', changed, rfl⟩

/-- A frame is read back, and every change of a single byte of it is noticed. -/
theorem frame_integrity (frame : Frame)
    (recent : minimumProtocolVersion ≤ frame.header.protocolVersion)
    (known : frame.header.protocolVersion ≤ protocolVersion)
    (within : frame.payload.length ≤ maxFramePayloadBytes) :
    ∃ bytes, encodeFrame frame = .ok bytes ∧
      (∀ maximumPayload, frame.payload.length ≤ maximumPayload →
        decodeFrameHeader (bytes.take frameHeaderBytes) maximumPayload =
          .ok frame.encodedHeader) ∧
      verifyFrameTrailer (bytes.take frameHeaderBytes) frame.payload
        (bytes.drop (frameHeaderBytes + frame.payload.length)) = .ok () ∧
      ∀ changed, Altered bytes changed → ∀ maximumPayload h,
        decodeFrameHeader (changed.take frameHeaderBytes) maximumPayload = .ok h →
        ∃ status, verifyFrameTrailer (changed.take frameHeaderBytes)
          (field changed frameHeaderBytes h.payloadLength.toNat)
          (changed.drop (frameHeaderBytes + h.payloadLength.toNat)) = .error status := by
  have length := Frame.payloadLength_toNat within
  have width := length_writeHeader frame.encodedHeader
  obtain ⟨header, _, trailer⟩ := frame_parts frame.payload
    (frameTrailer (writeHeader frame.encodedHeader ++ frame.payload)) width
  refine ⟨_, encodeFrame_eq within, ?_, ?_, ?_⟩
  · intro maximumPayload permitted
    rw [header]
    apply decodeFrameHeader_eq_ok.mpr
    refine ⟨List.take_of_length_le width.le, recent, known, ?_, ?_⟩
    · rw [length]
      exact within
    · rw [length]
      exact permitted
  · rw [header, trailer]
    apply verifyFrameTrailer_eq_ok.mpr
    exact List.take_of_length_le (length_frameTrailer _).le
  · intro changed altered maximumPayload h decoded
    rw [List.append_assoc] at altered
    obtain ⟨rfl, rest, changedRest, rfl⟩ := altered_payload altered decoded
    rw [length]
    exact verifyFrameTrailer_altered width changedRest

/-- A heartbeat with a payload of three bytes. -/
theorem frame_integrity_heartbeat :
    ∃ bytes, encodeFrame ⟨{ type := 13, sequence := 7 }, [1, 2, 3]⟩ = .ok bytes ∧
      ∀ changed, Altered bytes changed → ∀ maximumPayload h,
        decodeFrameHeader (changed.take frameHeaderBytes) maximumPayload = .ok h →
        ∃ status, verifyFrameTrailer (changed.take frameHeaderBytes)
          (field changed frameHeaderBytes h.payloadLength.toNat)
          (changed.drop (frameHeaderBytes + h.payloadLength.toNat)) = .error status := by
  obtain ⟨bytes, encoded, _, _, noticed⟩ :=
    frame_integrity ⟨{ type := 13, sequence := 7 }, [1, 2, 3]⟩ (by decide) (by decide) (by decide)
  exact ⟨bytes, encoded, noticed⟩

end Haf.Net
