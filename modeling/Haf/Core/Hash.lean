/-
# Canonical hashing

FNV-1a for cheap identities of names, and SHA-256 for fingerprints of canonical
byte sequences. Both are computed as the source computes them, so that derived
identities of concrete values can be evaluated.
-/

import Haf.Core.Bytes

namespace Haf

/-! ### FNV-1a 64 -/

/-- Incremental FNV-1a 64-bit hash. -/
structure Fnv1a64 where
  state : UInt64 := 14695981039346656037
  deriving DecidableEq

namespace Fnv1a64

def prime : UInt64 := 1099511628211

/-- Mix the bytes into the state, one by one. -/
def update (h : Fnv1a64) (bytes : Bytes) : Fnv1a64 :=
  ⟨bytes.foldl (fun state b => (state ^^^ b.toUInt64) * prime) h.state⟩

def digest (h : Fnv1a64) : UInt64 := h.state

end Fnv1a64

/-! ### SHA-256 -/

/-- A digest of 32 bytes. -/
structure Digest where
  bytes : Bytes
  length_eq : bytes.length = 32
  deriving DecidableEq

namespace Digest

@[ext]
theorem ext {a b : Digest} (same : a.bytes = b.bytes) : a = b := by
  cases a; cases b; cases same; rfl

/-- The all-zero digest, the default value. -/
def zero : Digest := ⟨List.replicate 32 0, rfl⟩

def isZero (d : Digest) : Bool := d.bytes.all (· == 0)

/-- Build a digest from at most 32 bytes, zero padded on the right. -/
def fromBytes (data : Bytes) : Digest :=
  ⟨data.take 32 ++ List.replicate (32 - data.length) 0, by simp; omega⟩

theorem fromBytes_bytes (d : Digest) : fromBytes d.bytes = d := by
  ext1
  simp [fromBytes, d.length_eq]

end Digest

/-- The byte of a hexadecimal digit. -/
def hexDigit (d : UInt8) : UInt8 := if d < 10 then 48 + d else 87 + d

/-- Two lowercase hexadecimal digits per byte. -/
def toHex (bytes : Bytes) : Bytes :=
  bytes.flatMap fun (b : UInt8) => [hexDigit (b >>> 4 &&& 15), hexDigit (b &&& 15)]

/-- Identities are rendered as hexadecimal text. -/
def StrongId.toText {tag : IdTag} (id : StrongId tag) : Bytes := toHex id.raw.bytes

/-- The chaining state of the compression function. -/
structure Sha256State where
  a : UInt32 := 0x6a09e667
  b : UInt32 := 0xbb67ae85
  c : UInt32 := 0x3c6ef372
  d : UInt32 := 0xa54ff53a
  e : UInt32 := 0x510e527f
  f : UInt32 := 0x9b05688c
  g : UInt32 := 0x1f83d9ab
  h : UInt32 := 0x5be0cd19

/-- Incremental SHA-256: chaining state, partial block, and message length. -/
structure Sha256 where
  state : Sha256State := {}
  buffer : Bytes := []
  totalBits : UInt64 := 0

namespace Sha256

/-- The round constants. -/
def roundConstants : List UInt32 := [
  0x428a2f98, 0x71374491, 0xb5c0fbcf, 0xe9b5dba5, 0x3956c25b, 0x59f111f1, 0x923f82a4, 0xab1c5ed5,
  0xd807aa98, 0x12835b01, 0x243185be, 0x550c7dc3, 0x72be5d74, 0x80deb1fe, 0x9bdc06a7, 0xc19bf174,
  0xe49b69c1, 0xefbe4786, 0x0fc19dc6, 0x240ca1cc, 0x2de92c6f, 0x4a7484aa, 0x5cb0a9dc, 0x76f988da,
  0x983e5152, 0xa831c66d, 0xb00327c8, 0xbf597fc7, 0xc6e00bf3, 0xd5a79147, 0x06ca6351, 0x14292967,
  0x27b70a85, 0x2e1b2138, 0x4d2c6dfc, 0x53380d13, 0x650a7354, 0x766a0abb, 0x81c2c92e, 0x92722c85,
  0xa2bfe8a1, 0xa81a664b, 0xc24b8b70, 0xc76c51a3, 0xd192e819, 0xd6990624, 0xf40e3585, 0x106aa070,
  0x19a4c116, 0x1e376c08, 0x2748774c, 0x34b0bcb5, 0x391c0cb3, 0x4ed8aa4a, 0x5b9cca4f, 0x682e6ff3,
  0x748f82ee, 0x78a5636f, 0x84c87814, 0x8cc70208, 0x90befffa, 0xa4506ceb, 0xbef9a3f7, 0xc67178f2]

def rotr (value bits : UInt32) : UInt32 := (value >>> bits) ||| (value <<< (32 - bits))

/-- The big-endian words of a block. -/
def blockWords : Bytes → List UInt32
  | b0 :: b1 :: b2 :: b3 :: rest =>
      ((b0.toUInt32 <<< 24) ||| (b1.toUInt32 <<< 16) ||| (b2.toUInt32 <<< 8) ||| b3.toUInt32)
        :: blockWords rest
  | _ => []

/-- The message schedule, emitted from a window of the last sixteen words. -/
def schedule : Nat → List UInt32 → List UInt32
  | 0, _ => []
  | _, [] => []
  | n + 1, w0 :: window =>
      let w1 := window.getD 0 0
      let w9 := window.getD 8 0
      let w14 := window.getD 13 0
      let s0 := rotr w1 7 ^^^ rotr w1 18 ^^^ (w1 >>> 3)
      let s1 := rotr w14 17 ^^^ rotr w14 19 ^^^ (w14 >>> 10)
      w0 :: schedule n (window ++ [w0 + s0 + w9 + s1])

/-- One of the sixty-four rounds. -/
def round (s : Sha256State) (input : UInt32 × UInt32) : Sha256State :=
  let s1 := rotr s.e 6 ^^^ rotr s.e 11 ^^^ rotr s.e 25
  let ch := (s.e &&& s.f) ^^^ ((~~~ s.e) &&& s.g)
  let temp1 := s.h + s1 + ch + input.1 + input.2
  let s0 := rotr s.a 2 ^^^ rotr s.a 13 ^^^ rotr s.a 22
  let maj := (s.a &&& s.b) ^^^ (s.a &&& s.c) ^^^ (s.b &&& s.c)
  let temp2 := s0 + maj
  ⟨temp1 + temp2, s.a, s.b, s.c, s.d + temp1, s.e, s.f, s.g⟩

/-- Fold one 64-byte block into the chaining state. -/
def compress (s : Sha256State) (block : Bytes) : Sha256State :=
  let t := (roundConstants.zip (schedule 64 (blockWords block))).foldl round s
  ⟨s.a + t.a, s.b + t.b, s.c + t.c, s.d + t.d, s.e + t.e, s.f + t.f, s.g + t.g, s.h + t.h⟩

/-- Compress `n` whole blocks from the front of the data. -/
def compressBlocks : Nat → Sha256State → Bytes → Sha256State × Bytes
  | 0, s, data => (s, data)
  | n + 1, s, data => compressBlocks n (compress s (data.take 64)) (data.drop 64)

/-- Absorb data: complete a partial block, compress whole blocks, keep the rest. -/
def update (h : Sha256) (data : Bytes) : Sha256 :=
  let totalBits := h.totalBits + UInt64.ofNat data.length * 8
  let room := if h.buffer.length ≠ 0 then 64 - h.buffer.length else 0
  let filled := h.buffer ++ data.take room
  let rest := data.drop room
  let full := filled.length == 64
  let state := if full then compress h.state filled else h.state
  let buffer := if full then [] else filled
  let (state, rest) := compressBlocks (rest.length / 64) state rest
  { state, buffer := buffer ++ rest, totalBits }

/-- Append zero bytes until the length field fits. -/
def pad : Nat → Sha256 → Sha256
  | 0, h => h
  | n + 1, h => if h.buffer.length == 56 then h else pad n (h.update [0])

/-- The eight big-endian bytes of the message length. -/
def lengthBytes (bits : UInt64) : Bytes := (ByteWriter.u64 bits).reverse

/-- The big-endian bytes of a word. -/
def wordBytes (w : UInt32) : Bytes := (ByteWriter.u32 w).reverse

/-- Pad, append the length and read the digest off the chaining state. -/
def finalize (h : Sha256) : Digest :=
  let padded := pad 64 (h.update [0x80])
  let s := compress padded.state (padded.buffer ++ lengthBytes h.totalBits)
  ⟨wordBytes s.a ++ wordBytes s.b ++ wordBytes s.c ++ wordBytes s.d ++ wordBytes s.e ++
    wordBytes s.f ++ wordBytes s.g ++ wordBytes s.h, by
      simp [wordBytes, ByteWriter.u32]⟩

/-- The digest of one byte sequence. -/
def hash (data : Bytes) : Digest := (({} : Sha256).update data).finalize

end Sha256

/-! The published digest of "abc". -/
example : toHex (Sha256.hash (text "abc")).bytes =
    text "ba7816bf8f01cfea414140de5dae2223b00361a396177a9cb410ff61f20015ad" := by
  decide +kernel

/-! ### Digest fields -/

namespace ByteWriter

def digest (value : Digest) : Bytes := value.bytes

end ByteWriter

namespace ByteReader

def digest : ByteReader Digest := do
  let bytes ← raw 32
  pure (.fromBytes bytes)

theorem digest_reads (value : Digest) : Reads digest (ByteWriter.digest value) True value :=
  (Wire.Codes.map Digest.fromBytes (raw_reads value.length_eq)).congr rfl Iff.rfl
    fun _ => Digest.fromBytes_bytes value

theorem shows_digest : Shows ByteWriter.digest id := .of_codes digest_reads fun _ _ => trivial

end ByteReader

end Haf
