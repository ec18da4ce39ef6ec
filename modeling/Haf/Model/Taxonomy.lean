/-
# Taxonomy tokens and derived identities

Tokens are trimmed, lowercased and restricted to a small alphabet. An identity
can be derived from a canonical token by two domain-separated hash streams.
-/

import Haf.Core.Double

namespace Haf

def isTokenChar (c : UInt8) : Bool :=
  isLower c || isDigit c || c == 46 || c == 95 || c == 43 || c == 45

def toLower (c : UInt8) : UInt8 := if isUpper c then c + 32 else c

/-- Trim, lowercase, and reject characters outside `[a-z0-9._+-]`. -/
def canonicalToken (token : Bytes) (maxBytes : Nat) : Result Bytes :=
  let body := (trim token).map toLower
  if body.isEmpty then .error (.failure .invalidArgument "taxonomy token is empty")
  else if !body.all isTokenChar then
    .error ⟨.invalidArgument,
      text "taxonomy token contains a character outside [a-z0-9._+-]: '" ++ token ++ text "'"⟩
  else if maxBytes < body.length then
    .error (.failure .boundsExceeded "taxonomy token exceeds the permitted length")
  else .ok body

/-- What a slug is built with: the bytes so far, and whether a separator is due. -/
def slugStep (s : Bytes × Bool) (raw : UInt8) : Bytes × Bool :=
  let lowered := toLower raw
  if isTokenChar lowered then
    ((if s.2 && !s.1.isEmpty then s.1 ++ [45] else s.1) ++ [lowered], false)
  else (s.1, true)

/-- A token from free text: runs of other characters become one separator, and what is too long
is cut, with the separators at the cut. -/
def slugToken (text : Bytes) (maxBytes : Nat) : Result Bytes :=
  let out := (text.foldl slugStep ([], false)).1
  if out.isEmpty then
    .error (.failure .invalidArgument "text contains no character usable in a taxonomy token")
  else if maxBytes < out.length then
    let cut := (out.take maxBytes).rdropWhile (· == 45)
    if cut.isEmpty then
      .error (.failure .boundsExceeded "taxonomy token is empty after truncation")
    else .ok cut
  else .ok out

/-- A token in the form the canonicalization leaves alone. -/
structure IsCanonical (token : Bytes) (maxBytes : Nat) : Prop where
  nonempty : token ≠ []
  alphabet : ∀ c ∈ token, isTokenChar c = true
  bounded : token.length ≤ maxBytes

/-- Deterministic 128-bit identity of a domain separator and a token. -/
def deriveIdentity (domain token : Bytes) : Id128 :=
  let low := ((({} : Fnv1a64).update domain).update [0x1f]).update token |>.digest
  let high := (((({} : Fnv1a64).update (text "haf.identity.v1")).update token).update domain).update
    [0x1e] |>.digest
  let first := if low == 0 && high == 0 then 1 else UInt8.ofNat low.toNat
  ⟨first :: ByteWriter.littleEndian 7 (low.toNat / 256) ++ ByteWriter.u64 high, by
    simp [ByteWriter.u64]⟩

def vendorIdFromToken (token : Bytes) : VendorId := ⟨deriveIdentity (text "haf.vendor") token⟩

def architectureIdFromToken (token : Bytes) : ArchitectureId :=
  ⟨deriveIdentity (text "haf.architecture") token⟩

def workloadClassIdFromToken (token : Bytes) : WorkloadClassId :=
  ⟨deriveIdentity (text "haf.workload-class") token⟩

/-! ### Canonical tokens -/

theorem isTokenChar_not_isSpace {c : UInt8} (token : isTokenChar c = true) :
    isSpace c = false := by
  revert c
  decide +kernel

theorem isTokenChar_toLower {c : UInt8} (token : isTokenChar c = true) : toLower c = c := by
  revert c
  decide +kernel

theorem trim_eq_self {s : Bytes} (visible : ∀ c ∈ s, isSpace c = false) : trim s = s := by
  have keep (l : Bytes) (clear : ∀ c ∈ l, isSpace c = false) : l.dropWhile isSpace = l := by
    cases l with
    | nil => rfl
    | cons c cs => simp [clear c List.mem_cons_self]
  rw [trim, keep s visible, keep s.reverse fun c listed => visible c (by simpa using listed),
    List.reverse_reverse]

/-- What the canonicalization returns is canonical. -/
theorem isCanonical_of_canonicalToken {token out : Bytes} {maxBytes : Nat}
    (accepted : canonicalToken token maxBytes = .ok out) : IsCanonical out maxBytes := by
  simp only [canonicalToken] at accepted
  split at accepted
  · cases accepted
  · split at accepted
    · cases accepted
    · split at accepted
      · cases accepted
      · rename_i nonempty alphabet bounded
        cases accepted
        exact ⟨by simpa using nonempty, by simpa using alphabet, by simpa using bounded⟩

/-- Canonical tokens are left alone. -/
theorem IsCanonical.canonicalToken_eq {token : Bytes} {maxBytes : Nat}
    (canonical : IsCanonical token maxBytes) : canonicalToken token maxBytes = .ok token := by
  have kept : (trim token).map toLower = token := by
    rw [trim_eq_self fun c listed => isTokenChar_not_isSpace (canonical.alphabet c listed)]
    conv_rhs => rw [← List.map_id token]
    exact List.map_congr_left fun c listed => isTokenChar_toLower (canonical.alphabet c listed)
  have nonempty : token.isEmpty = false := by simpa using canonical.nonempty
  have alphabet : token.all isTokenChar = true := by simpa using canonical.alphabet
  simp only [canonicalToken, kept, nonempty, alphabet, Bool.not_true, Bool.false_eq_true,
    if_false]
  rw [if_neg (by simpa using canonical.bounded)]

/-! ### Slugs -/

/-- Only token characters and separators are appended. -/
theorem isTokenChar_of_mem_slug (text : Bytes) {s : Bytes × Bool}
    (before : ∀ c ∈ s.1, isTokenChar c = true) :
    ∀ c ∈ (text.foldl slugStep s).1, isTokenChar c = true := by
  induction text generalizing s with
  | nil => exact before
  | cons raw text ih =>
      apply ih
      intro c listed
      simp only [slugStep] at listed
      split at listed
      · rename_i usable
        rcases List.mem_append.mp listed with earlier | last
        · split at earlier
          · rcases List.mem_append.mp earlier with kept | separator
            · exact before c kept
            · rw [List.mem_singleton.mp separator]
              decide
          · exact before c earlier
        · rw [List.mem_singleton.mp last]
          exact usable
      · exact before c listed

theorem isCanonical_of_slugToken {text out : Bytes} {maxBytes : Nat}
    (made : slugToken text maxBytes = .ok out) : IsCanonical out maxBytes := by
  have usable := isTokenChar_of_mem_slug text (s := ([], false)) (List.forall_mem_nil _)
  simp only [slugToken] at made
  split at made
  · cases made
  · split at made
    · split at made
      · cases made
      · rename_i rest
        cases made
        have initial := List.rdropWhile_prefix (· == 45)
          (l := (text.foldl slugStep ([], false)).1.take maxBytes)
        exact ⟨by simpa using rest, fun c listed => usable c (List.mem_of_mem_take
          (initial.subset listed)), initial.length_le.trans (List.length_take_le _ _)⟩
    · rename_i some_ short
      cases made
      exact ⟨by simpa using some_, usable, Nat.le_of_not_lt short⟩

end Haf
