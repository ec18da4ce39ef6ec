/-
# Versions and version ranges

Semantic versions are compared by numeric components and then by prerelease
identifiers; a range is a conjunction of clauses. Build metadata never takes part
in comparison, hashing or persistence, so a version carries none; the parser
still validates it.
-/

import Haf.Core.Hash

namespace Haf

/-! ### Text helpers -/

/-- The decimal digits of a number. -/
def decimal (n : Nat) : Bytes := (Nat.toDigits 10 n).map fun c => c.toNat.toUInt8

/-- The decimal rendering of a signed number. -/
def signedDecimal (n : Int) : Bytes :=
  if n < 0 then 45 :: decimal n.natAbs else decimal n.natAbs

def isDigit (c : UInt8) : Bool := 48 ≤ c && c ≤ 57

def isLower (c : UInt8) : Bool := 97 ≤ c && c ≤ 122

def isUpper (c : UInt8) : Bool := 65 ≤ c && c ≤ 90

def isSpace (c : UInt8) : Bool := c == 32 || (9 ≤ c && c ≤ 13)

/-- The parts of a text before and after the first occurrence of a byte. -/
def splitFirst (c : UInt8) (s : Bytes) : Option (Bytes × Bytes) :=
  match s.dropWhile (· != c) with
  | [] => none
  | _ :: after => some (s.takeWhile (· != c), after)

/-- Trim whitespace at both ends. -/
def trim (s : Bytes) : Bytes := ((s.dropWhile isSpace).reverse.dropWhile isSpace).reverse

/-! ### Semantic versions -/

/-- Version components and prerelease identifiers. -/
structure SemanticVersion where
  major : UInt32 := 0
  minor : UInt32 := 0
  patch : UInt32 := 0
  prerelease : Bytes := []
  deriving DecidableEq

namespace SemanticVersion

def isIdentifierChar (c : UInt8) : Bool := isDigit c || isLower c || isUpper c || c == 45

def isNumericIdentifier (s : Bytes) : Bool := !s.isEmpty && s.all isDigit

/-- Dot-separated, non-empty identifiers. -/
def validIdentifiers (s : Bytes) : Bool :=
  (s.splitOn 46).all fun part => !part.isEmpty && part.all isIdentifierChar

/-- The number a digit string denotes. -/
def digitsValue (s : Bytes) : Nat := s.foldl (fun acc c => 10 * acc + (c.toNat - 48)) 0

/-- A decimal number of at most ten digits that fits 32 bits. -/
def parseU32 (s : Bytes) : Option UInt32 :=
  if s.isEmpty || s.length > 10 || !s.all isDigit then none
  else if digitsValue s < 4294967296 then some (UInt32.ofNat (digitsValue s)) else none

/-- Compare one pair of prerelease identifiers; a numeric one ranks lower. -/
def compareIdentifier (a b : Bytes) : Ordering :=
  if isNumericIdentifier a && isNumericIdentifier b then
    compare ((parseU32 a).getD 0).toNat ((parseU32 b).getD 0).toNat
  else if isNumericIdentifier a != isNumericIdentifier b then
    if isNumericIdentifier a then .lt else .gt
  else compare a b

/-- The identifier at a position; past the end the scan yields the empty text. -/
def identifierAt (s : Bytes) (i : Nat) : Bytes := (s.splitOn 46).getD i []

/-- Precedence of prerelease texts. The scan goes on until both are exhausted, and
the exhausted one is compared as an empty identifier. -/
def comparePrerelease (a b : Bytes) : Ordering :=
  if a.isEmpty && b.isEmpty then .eq
  else if a.isEmpty then .gt
  else if b.isEmpty then .lt
  else
    (List.range (max (a.splitOn 46).length (b.splitOn 46).length)).foldl
      (fun order i => order.then (compareIdentifier (identifierAt a i) (identifierAt b i))) .eq

/-- Three-way comparison of versions. -/
def compareVersion (a b : SemanticVersion) : Ordering :=
  if a.major ≠ b.major then compare a.major.toNat b.major.toNat
  else if a.minor ≠ b.minor then compare a.minor.toNat b.minor.toNat
  else if a.patch ≠ b.patch then compare a.patch.toNat b.patch.toNat
  else comparePrerelease a.prerelease b.prerelease

/-- Equality is equality of precedence. -/
def equal (a b : SemanticVersion) : Bool := compareVersion a b == .eq

/-- Canonical "major.minor.patch[-prerelease]" form. -/
def toText (v : SemanticVersion) : Bytes :=
  decimal v.major.toNat ++ [46] ++ decimal v.minor.toNat ++ [46] ++ decimal v.patch.toNat ++
    (if v.prerelease.isEmpty then [] else 45 :: v.prerelease)

/-- The numeric components and the prerelease of a version text without metadata. -/
def parseCore (body pre : Bytes) : Option SemanticVersion :=
  match body.splitOn 46 with
  | [major, minor, patch] => do
      let major ← parseU32 major
      let minor ← parseU32 minor
      let patch ← parseU32 patch
      pure { major, minor, patch, prerelease := pre }
  | _ => none

/-- Split off the prerelease, which must consist of valid identifiers. -/
def parseRelease (body : Bytes) : Option SemanticVersion :=
  match splitFirst 45 body with
  | none => parseCore body []
  | some (core, pre) => if validIdentifiers pre then parseCore core pre else none

/-- Parse a version text; build metadata is validated and dropped. -/
def parse (s : Bytes) : Option SemanticVersion :=
  match splitFirst 43 s with
  | none => parseRelease s
  | some (body, build) => if validIdentifiers build then parseRelease body else none

end SemanticVersion

/-! ### Version ranges -/

inductive VersionOperator
  | any | equal | notEqual | less | lessEqual | greater | greaterEqual | compatible | tilde
  deriving DecidableEq

/-- One comparison of a range. -/
structure VersionClause where
  op : VersionOperator := .any
  version : SemanticVersion := {}
  deriving DecidableEq

namespace VersionClause

def satisfied (clause : VersionClause) (version : SemanticVersion) : Bool :=
  let order := version.compareVersion clause.version
  match clause.op with
  | .any => true
  | .equal => order == .eq
  | .notEqual => order != .eq
  | .less => order == .lt
  | .lessEqual => order != .gt
  | .greater => order == .gt
  | .greaterEqual => order != .lt
  | .compatible => order != .lt && version.major == clause.version.major
  | .tilde =>
      order != .lt && version.major == clause.version.major &&
        version.minor == clause.version.minor

/-- The operator and the version text of a clause token. -/
def splitOperator (token : Bytes) : VersionOperator × Bytes :=
  match token with
  | 62 :: 61 :: rest => (.greaterEqual, rest)
  | 60 :: 61 :: rest => (.lessEqual, rest)
  | 33 :: 61 :: rest => (.notEqual, rest)
  | 61 :: 61 :: rest => (.equal, rest)
  | 62 :: rest => (.greater, rest)
  | 60 :: rest => (.less, rest)
  | 61 :: rest => (.equal, rest)
  | 94 :: rest => (.compatible, rest)
  | 126 :: rest => (.tilde, rest)
  | _ => (.equal, token)

/-- Parse one token of a range. -/
def parse (token : Bytes) : Result VersionClause :=
  if token = text "*" ∨ token = text "any" then .ok {}
  else
    match SemanticVersion.parse (splitOperator token).2 with
    | some version => .ok { op := (splitOperator token).1, version }
    | none =>
        .error ⟨.malformedVersionRange,
          text "version range clause is not a semantic version: '" ++ token ++ text "'"⟩

/-- The operator text a clause is rendered with. -/
def operatorText : VersionOperator → Bytes
  | .any => text "*"
  | .equal => text "="
  | .notEqual => text "!="
  | .less => text "<"
  | .lessEqual => text "<="
  | .greater => text ">"
  | .greaterEqual => text ">="
  | .compatible => text "^"
  | .tilde => text "~"

def toText (clause : VersionClause) : Bytes :=
  if clause.op = .any then text "*" else operatorText clause.op ++ clause.version.toText

end VersionClause

theorem VersionClause.parsed_nil : ∀ clause ∈ ([] : List VersionClause),
    ∃ token, VersionClause.parse token = .ok clause := by
  simp

/-- A conjunction of clauses. Ranges come out of the parser only. -/
structure VersionRange where
  clauses : List VersionClause := []
  parsed : ∀ clause ∈ clauses, ∃ token, VersionClause.parse token = .ok clause := by
    exact VersionClause.parsed_nil
  deriving DecidableEq

namespace VersionRange

instance : Inhabited VersionRange := ⟨{}⟩

/-- The whitespace or comma separated tokens of a range text. -/
def tokens (s : Bytes) : List Bytes :=
  ((s.map fun c => if c == 44 then 32 else c).splitOnP isSpace).filter (!·.isEmpty)

/-- Parse the tokens left to right. -/
def parseTokens : List Bytes → Result VersionRange
  | [] => .ok {}
  | token :: rest =>
      match read : VersionClause.parse token with
      | .error e => .error e
      | .ok clause =>
          match parseTokens rest with
          | .error e => .error e
          | .ok range => .ok ⟨clause :: range.clauses, by
              intro other listed
              rcases List.mem_cons.mp listed with rfl | listed
              · exact ⟨token, read⟩
              · exact range.parsed other listed⟩

def parse (s : Bytes) : Result VersionRange := parseTokens (tokens s)

def isMatch (range : VersionRange) (version : SemanticVersion) : Bool :=
  range.clauses.all (·.satisfied version)

def isAny (range : VersionRange) : Bool := range.clauses.isEmpty

def toText (range : VersionRange) : Bytes :=
  if range.clauses.isEmpty then text "*"
  else (text " ").intercalate (range.clauses.map (·.toText))

end VersionRange

end Haf
