/-
# Reading versions back

A parsed version is rendered to a text that is parsed to the same version, clause by
clause and range by range. The empty range comes back as a single wildcard, which is
rendered in the same way.
-/

import Haf.Model.Workload

namespace Haf

open Sequence

/-! ### Decimal numbers -/

variable {n : Nat} {c : UInt8} {s : Bytes}

/-- A digit character is the byte of its code. -/
theorem toNat_digit {d : Char} (digit : d ∈ Nat.toDigits 10 n) :
    48 ≤ d.toNat ∧ d.toNat ≤ 57 ∧ d.toNat.toUInt8.toNat = d.toNat := by
  have range := Nat.isDigit_of_mem_toDigits (by decide) (by decide) digit
  simp only [Char.isDigit, Bool.and_eq_true, decide_eq_true_eq, ge_iff_le] at range
  have low : 48 ≤ d.toNat := UInt32.le_iff_toNat_le.mp range.1
  have high : d.toNat ≤ 57 := UInt32.le_iff_toNat_le.mp range.2
  refine ⟨low, high, ?_⟩
  simp only [Nat.toUInt8, UInt8.toNat_ofNat']
  omega

/-- The decimal digits of a number are digits. -/
theorem isDigit_of_mem_decimal (listed : c ∈ decimal n) :
    isDigit c = true := by
  obtain ⟨d, digit, rfl⟩ := List.mem_map.mp listed
  obtain ⟨low, high, value⟩ := toNat_digit digit
  simp only [isDigit, Bool.and_eq_true, decide_eq_true_eq, UInt8.le_iff_toNat_le, value]
  exact ⟨low, high⟩

theorem digitsValue_decimal (n : Nat) : SemanticVersion.digitsValue (decimal n) = n := by
  rw [SemanticVersion.digitsValue, decimal, List.foldl_map]
  have same : ∀ acc : Nat, ∀ d ∈ Nat.toDigits 10 n,
      10 * acc + (d.toNat.toUInt8.toNat - 48) = 10 * acc + (d.toNat - '0'.toNat) := by
    intro acc d digit
    rw [(toNat_digit digit).2.2]
    rfl
  rw [List.foldl_ext _ _ _ same]
  exact Nat.ofDigitChars_toDigits (by decide) (by decide)

theorem decimal_ne_nil (n : Nat) : decimal n ≠ [] := by
  rw [decimal, Ne, List.map_eq_nil_iff]
  exact Nat.toDigits_ne_nil

/-- A number below a power of ten has at most that many digits. -/
theorem length_decimal_le {k : Nat} (positive : 0 < k) (bound : n < 10 ^ k) :
    (decimal n).length ≤ k := by
  rw [decimal, List.length_map]
  exact (Nat.length_toDigits_le_iff (by decide) positive).mpr bound

theorem length_decimal_uint32 (n : UInt32) : (decimal n.toNat).length ≤ 10 :=
  length_decimal_le (by decide) (lt_trans (UInt32.toNat_lt n) (by decide))

theorem parseU32_decimal (n : UInt32) : SemanticVersion.parseU32 (decimal n.toNat) = some n := by
  have digits : (decimal n.toNat).all isDigit = true :=
    List.all_eq_true.mpr fun _ listed => isDigit_of_mem_decimal listed
  have short := length_decimal_uint32 n
  have small := UInt32.toNat_lt n
  rw [SemanticVersion.parseU32, if_neg (by simp [decimal_ne_nil, digits]; omega),
    digitsValue_decimal, if_pos small]
  simp

/-! ### Versions -/

theorem splitFirst_of_not_mem (absent : c ∉ s) : splitFirst c s = none := by
  have all : s.dropWhile (· != c) = [] := by
    rw [List.dropWhile_eq_nil_iff]
    intro d listed
    simpa using fun same : d = c => absent (same ▸ listed)
  rw [splitFirst, all]

theorem splitFirst_append {before after : Bytes} (absent : c ∉ before) :
    splitFirst c (before ++ c :: after) = some (before, after) := by
  have others : ∀ d ∈ before, (d != c) = true := by
    intro d listed
    simpa using fun same : d = c => absent (same ▸ listed)
  have dropped : (before ++ c :: after).dropWhile (· != c) = c :: after := by
    rw [List.dropWhile_append_of_pos others]
    simp
  have taken : (before ++ c :: after).takeWhile (· != c) = before := by
    rw [List.takeWhile_append_of_pos others]
    simp
  rw [splitFirst, dropped, taken]

/-- Splitting a text loses only the separators. -/
theorem exists_mem_splitOn {sep : UInt8} (listed : c ∈ s) (other : c ≠ sep) :
    ∃ part ∈ s.splitOn sep, c ∈ part := by
  induction s with
  | nil => cases listed
  | cons d rest ih =>
      rw [List.splitOn_cons_eq_if_modifyHead]
      split
      · rename_i separator
        have same : d = sep := by simpa using separator
        rcases List.mem_cons.mp listed with here | later
        · exact absurd (here.trans same) other
        · obtain ⟨part, inside, member⟩ := ih later
          exact ⟨part, List.mem_cons_of_mem _ inside, member⟩
      · cases split : rest.splitOn sep with
        | nil => exact absurd split (List.splitOn_ne_nil _ _)
        | cons head tail =>
            rcases List.mem_cons.mp listed with rfl | later
            · exact ⟨c :: head, List.mem_cons_self, List.mem_cons_self⟩
            · obtain ⟨part, inside, member⟩ := ih later
              rw [split] at inside
              rcases List.mem_cons.mp inside with rfl | inside
              · exact ⟨d :: part, List.mem_cons_self, List.mem_cons_of_mem _ member⟩
              · exact ⟨part, List.mem_cons_of_mem _ inside, member⟩

/-- The characters of a prerelease text. -/
theorem isIdentifierChar_of_validIdentifiers
    (valid : SemanticVersion.validIdentifiers s = true) (listed : c ∈ s) :
    SemanticVersion.isIdentifierChar c = true ∨ c = 46 := by
  by_cases dot : c = 46
  · exact .inr dot
  · obtain ⟨part, inside, member⟩ := exists_mem_splitOn listed dot
    simp only [SemanticVersion.validIdentifiers, List.all_eq_true, Bool.and_eq_true] at valid
    exact .inl ((valid part inside).2 c member)

namespace SemanticVersion

/-- A prerelease text as the parser leaves it. -/
def Wellformed (v : SemanticVersion) : Prop :=
  v.prerelease = [] ∨ validIdentifiers v.prerelease = true

variable {v : SemanticVersion} {c : UInt8}

theorem wellformed_of_parseCore {body pre : Bytes}
    (read : parseCore body pre = some v) : v.prerelease = pre := by
  rw [parseCore] at read
  split at read
  · simp only [bind, Option.bind_eq_some_iff, pure, Option.some.injEq] at read
    obtain ⟨_, _, _, _, _, _, rfl⟩ := read
    rfl
  · cases read

theorem wellformed_of_parse {s : Bytes} (read : parse s = some v) :
    v.Wellformed := by
  have release : ∀ body, parseRelease body = some v → v.Wellformed := by
    intro body read
    rw [parseRelease] at read
    split at read
    · exact .inl (wellformed_of_parseCore read)
    · split at read
      · rename_i valid
        right
        rw [wellformed_of_parseCore read]
        exact valid
      · cases read
  rw [parse] at read
  split at read
  · exact release _ read
  · split at read
    · exact release _ read
    · cases read

/-- The three numbers of a version text. -/
def coreText (v : SemanticVersion) : Bytes :=
  decimal v.major.toNat ++ 46 :: (decimal v.minor.toNat ++ 46 :: decimal v.patch.toNat)

theorem toText_eq (v : SemanticVersion) :
    v.toText = v.coreText ++ if v.prerelease.isEmpty then [] else 45 :: v.prerelease := by
  simp [toText, coreText]

theorem mem_coreText (listed : c ∈ v.coreText) :
    isDigit c = true ∨ c = 46 := by
  simp only [coreText, List.mem_append, List.mem_cons] at listed
  rcases listed with digit | dot | digit | dot | digit
  · exact .inl (isDigit_of_mem_decimal digit)
  · exact .inr dot
  · exact .inl (isDigit_of_mem_decimal digit)
  · exact .inr dot
  · exact .inl (isDigit_of_mem_decimal digit)

theorem not_mem_decimal {n : Nat} (other : isDigit c = false) : c ∉ decimal n := by
  intro listed
  rw [isDigit_of_mem_decimal listed] at other
  cases other

theorem parseCore_coreText (v : SemanticVersion) (pre : Bytes) :
    parseCore v.coreText pre = some { v with prerelease := pre } := by
  have parts : v.coreText.splitOn 46 =
      [decimal v.major.toNat, decimal v.minor.toNat, decimal v.patch.toNat] := by
    have joined : v.coreText = [46].intercalate
        [decimal v.major.toNat, decimal v.minor.toNat, decimal v.patch.toNat] := by
      simp [coreText, List.intercalate]
    rw [joined, List.splitOn_intercalate 46 _ (by simp)]
    intro part listed
    simp only [List.mem_cons, List.not_mem_nil, or_false] at listed
    rcases listed with rfl | rfl | rfl <;> exact not_mem_decimal (by decide)
  simp only [parseCore, parts, parseU32_decimal]
  rfl

/-- The characters of a version text. -/
theorem mem_toText (formed : v.Wellformed)
    (listed : c ∈ v.toText) : isIdentifierChar c = true ∨ c = 46 := by
  rw [toText_eq, List.mem_append] at listed
  rcases listed with core | rest
  · exact (mem_coreText core).imp (fun digit => by simp [isIdentifierChar, digit]) id
  · split at rest
    · cases rest
    · rename_i nonempty
      rcases List.mem_cons.mp rest with minus | listed
      · exact .inl (by rw [minus]; decide)
      · exact isIdentifierChar_of_validIdentifiers
          (formed.resolve_left (by simpa using nonempty)) listed

/-- A version as the parser leaves it is rendered to a text of itself. -/
theorem parse_toText (formed : v.Wellformed) : parse v.toText = some v := by
  have plain : 45 ∉ v.coreText := by
    intro listed
    rcases mem_coreText listed with digit | dot
    · exact absurd digit (by decide)
    · exact absurd dot (by decide)
  have unbuilt : 43 ∉ v.toText := by
    intro listed
    rcases mem_toText formed listed with letter | dot
    · exact absurd letter (by decide)
    · exact absurd dot (by decide)
  rw [parse, splitFirst_of_not_mem unbuilt]
  show parseRelease v.toText = some v
  rw [toText_eq]
  split
  · rename_i empty
    have absent : v.prerelease = [] := by simpa using empty
    rw [List.append_nil, parseRelease, splitFirst_of_not_mem plain]
    show parseCore v.coreText [] = some v
    rw [parseCore_coreText, ← absent]
  · rename_i nonempty
    have valid := formed.resolve_left (by simpa using nonempty)
    rw [parseRelease, splitFirst_append plain]
    show (if _ then _ else _) = _
    rw [if_pos valid, parseCore_coreText]

end SemanticVersion

/-! ### Clauses -/

namespace VersionClause

variable {clause : VersionClause}

/-- What the parser makes a clause of. -/
theorem of_parse {token : Bytes} (read : parse token = .ok clause) :
    clause = {} ∨ clause.op ≠ .any ∧ clause.version.Wellformed := by
  rw [parse] at read
  split at read
  · cases read
    exact .inl rfl
  · split at read
    · rename_i version parsed
      cases read
      refine .inr ⟨?_, SemanticVersion.wellformed_of_parse parsed⟩
      show (splitOperator token).1 ≠ .any
      unfold splitOperator
      split <;> simp
    · cases read

/-- The operator of a rendered clause is split off again. -/
theorem splitOperator_operatorText {op : VersionOperator} (bounded : op ≠ .any) {d : UInt8}
    {rest : Bytes} (digit : isDigit d = true) :
    splitOperator (operatorText op ++ d :: rest) = (op, d :: rest) := by
  have other : d ≠ 61 := by
    rintro rfl
    cases digit
  cases op with
  | any => exact absurd rfl bounded
  | equal | less | greater =>
      simp only [operatorText]
      show splitOperator (_ :: d :: rest) = _
      unfold splitOperator
      split <;> simp_all
  | notEqual | lessEqual | greaterEqual | compatible | tilde => rfl

/-- A rendered clause with an operator is none of the wildcards. -/
theorem operatorText_append_ne {op : VersionOperator} (bounded : op ≠ .any) (s : Bytes) :
    ¬ (operatorText op ++ s = text "*" ∨ operatorText op ++ s = text "any") := by
  have head : (operatorText op ++ s).head? = (operatorText op).head? := by cases op <;> rfl
  have first : (operatorText op).head? ≠ (text "*").head? ∧
      (operatorText op).head? ≠ (text "any").head? := by
    revert bounded
    cases op <;> decide
  rintro (same | same)
  · exact first.1 (head.symm.trans (congrArg List.head? same))
  · exact first.2 (head.symm.trans (congrArg List.head? same))

/-- A clause as the parser leaves it is rendered to a text of itself. -/
theorem parse_toText (formed : ∃ token, parse token = .ok clause) :
    parse clause.toText = .ok clause := by
  obtain ⟨token, read⟩ := formed
  rcases of_parse read with rfl | ⟨bounded, version⟩
  · rfl
  · have split : splitOperator (operatorText clause.op ++ clause.version.toText) =
        (clause.op, clause.version.toText) := by
      cases digits : decimal clause.version.major.toNat with
      | nil => exact absurd digits (decimal_ne_nil _)
      | cons d rest =>
          have start : clause.version.toText = d :: clause.version.toText.tail := by
            rw [SemanticVersion.toText, digits]
            rfl
          rw [start]
          exact splitOperator_operatorText bounded
            (isDigit_of_mem_decimal (digits ▸ List.mem_cons_self))
    rw [toText, if_neg bounded, parse, if_neg (operatorText_append_ne bounded _), split,
      SemanticVersion.parse_toText version]

/-- The text of a clause is one token. -/
theorem isToken_toText (formed : ∃ token, parse token = .ok clause) :
    clause.toText ≠ [] ∧ ∀ c ∈ clause.toText, c ≠ 44 ∧ isSpace c = false := by
  obtain ⟨token, read⟩ := formed
  rcases of_parse read with rfl | ⟨bounded, version⟩
  · decide +kernel
  · rw [toText, if_neg bounded]
    constructor
    · simp [SemanticVersion.toText]
    · intro c listed
      rcases List.mem_append.mp listed with operator | inside
      · have table : ∀ op : VersionOperator, ∀ c ∈ operatorText op, c ≠ 44 ∧ isSpace c = false := by
          intro op
          cases op <;> decide +kernel
        exact table _ c operator
      · have letters : ∀ c : UInt8, SemanticVersion.isIdentifierChar c = true ∨ c = 46 →
            c ≠ 44 ∧ isSpace c = false := by decide +kernel
        exact letters c (SemanticVersion.mem_toText version inside)

end VersionClause

/-! ### Ranges -/

namespace VersionRange

/-- A text that separates no tokens. -/
def IsToken (part : Bytes) : Prop := part ≠ [] ∧ ∀ c ∈ part, c ≠ 44 ∧ isSpace c = false

variable {part : Bytes}

theorem map_comma_of_isToken (single : IsToken part) :
    part.map (fun c => if c == 44 then 32 else c) = part := by
  conv_rhs => rw [← List.map_id part]
  refine List.map_congr_left fun c listed => if_neg ?_
  simpa using (single.2 c listed).1

theorem tokens_of_isToken (single : IsToken part) : tokens part = [part] := by
  rw [tokens, map_comma_of_isToken single,
    List.splitOnP_eq_singleton fun c listed => (single.2 c listed).2]
  simp [single.1]

theorem tokens_append (single : IsToken part) (rest : Bytes) :
    tokens (part ++ 32 :: rest) = part :: tokens rest := by
  rw [tokens, List.map_append, map_comma_of_isToken single, List.map_cons]
  rw [if_neg (by decide), List.splitOnP_append_cons_of_forall_mem
    (fun c listed => (single.2 c listed).2) 32 (by decide), List.filter_cons]
  simp [single.1, tokens]

/-- Texts without separators are the tokens of the text that joins them. -/
theorem tokens_intercalate {parts : List Bytes} (single : ∀ part ∈ parts, IsToken part) :
    tokens ((text " ").intercalate parts) = parts := by
  have blank : text " " = [32] := by decide
  rw [blank]
  induction parts with
  | nil => rfl
  | cons part rest ih =>
      have first := single part List.mem_cons_self
      have later := ih fun other listed => single other (List.mem_cons_of_mem _ listed)
      cases rest with
      | nil => simpa [List.intercalate] using tokens_of_isToken first
      | cons next rest =>
          have joined : [32].intercalate (part :: next :: rest) =
              part ++ 32 :: [32].intercalate (next :: rest) := by
            simp [List.intercalate]
          rw [joined, tokens_append first, later]

/-- Clauses as the parser leaves them are parsed from their texts. -/
theorem parseTokens_toText (range : VersionRange) :
    parseTokens (range.clauses.map (·.toText)) = .ok range := by
  obtain ⟨clauses, parsed⟩ := range
  induction clauses with
  | nil => rfl
  | cons clause rest ih =>
      have first := VersionClause.parse_toText (parsed clause List.mem_cons_self)
      have tail := ih fun other listed => parsed other (List.mem_cons_of_mem _ listed)
      rw [List.map_cons, parseTokens]
      split
      · rename_i failed
        rw [first] at failed
        cases failed
      · rename_i read
        rw [first] at read
        cases read
        rw [tail]

/-- The range as it is read back from its text. -/
def reread (range : VersionRange) : VersionRange :=
  if range.clauses.isEmpty then ⟨[{}], by simpa using ⟨text "*", rfl⟩⟩ else range

theorem toText_reread (range : VersionRange) : range.reread.toText = range.toText := by
  rw [reread]
  split
  · rename_i empty
    rw [toText, toText, if_pos empty]
    decide +kernel
  · rfl

/-- A range is rendered to a text of itself, or of the wildcard. -/
theorem parse_toText (range : VersionRange) : parse range.toText = .ok range.reread := by
  rw [toText, reread]
  split
  · decide +kernel
  · rw [parse, tokens_intercalate, parseTokens_toText]
    intro part listed
    obtain ⟨clause, inside, rfl⟩ := List.mem_map.mp listed
    exact VersionClause.isToken_toText (range.parsed clause inside)

end VersionRange

/-- A requirement without wildcard clauses gets its range back. -/
theorem CapabilityRequirement.reparseClauses_eq_ok (range : VersionRange)
    (bounded : ∀ clause ∈ range.clauses, clause.op ≠ .any) :
    reparseClauses range.clauses = .ok range := by
  rw [reparseClauses]
  split
  · rename_i empty
    obtain ⟨clauses, parsed⟩ := range
    have none' : clauses = [] := by simpa using empty
    subst none'
    rfl
  · have same : range.clauses.map reparsedClauseText = range.clauses.map (·.toText) := by
      refine List.map_congr_left fun clause listed => ?_
      rw [reparsedClauseText, VersionClause.toText, if_neg (bounded clause listed)]
    rw [same, VersionRange.parse, VersionRange.tokens_intercalate, VersionRange.parseTokens_toText]
    intro part listed
    obtain ⟨clause, inside, rfl⟩ := List.mem_map.mp listed
    exact VersionClause.isToken_toText (range.parsed clause inside)

/-- Every token of a parsed text is a clause. -/
theorem VersionRange.parse_of_mem {tokens : List Bytes} {range : VersionRange}
    (read : parseTokens tokens = .ok range) {token : Bytes} (listed : token ∈ tokens) :
    ∃ clause, VersionClause.parse token = .ok clause := by
  induction tokens generalizing range with
  | nil => cases listed
  | cons first rest ih =>
      rw [parseTokens] at read
      split at read
      · cases read
      · rename_i clause parsed
        split at read
        · cases read
        · rename_i tail later
          rcases List.mem_cons.mp listed with rfl | listed
          · exact ⟨clause, parsed⟩
          · exact ih later listed

/-- A wildcard clause is written with the version it does not have, and refused. -/
theorem CapabilityRequirement.ne_any_of_reparseClauses {range out : VersionRange}
    (reparsed : reparseClauses range.clauses = .ok out) :
    ∀ clause ∈ range.clauses, clause.op ≠ .any := by
  intro clause listed wildcard
  have single : ∀ part ∈ range.clauses.map reparsedClauseText, VersionRange.IsToken part := by
    intro part written
    obtain ⟨other, inside, rfl⟩ := List.mem_map.mp written
    obtain ⟨token, read⟩ := range.parsed other inside
    rcases VersionClause.of_parse read with rfl | ⟨bounded, _⟩
    · exact ⟨by decide +kernel, by decide +kernel⟩
    · have same : reparsedClauseText other = other.toText := by
        rw [reparsedClauseText, VersionClause.toText, if_neg bounded]
      rw [same]
      exact VersionClause.isToken_toText ⟨token, read⟩
  rw [reparseClauses, if_neg (by simpa using List.ne_nil_of_mem listed), VersionRange.parse,
    VersionRange.tokens_intercalate single] at reparsed
  obtain ⟨other, parsed⟩ := VersionRange.parse_of_mem reparsed (List.mem_map_of_mem listed)
  obtain ⟨token, read⟩ := range.parsed clause listed
  rcases VersionClause.of_parse read with rfl | ⟨bounded, _⟩
  · have refused : (VersionClause.parse (reparsedClauseText {})).isOk = false := by decide +kernel
    rw [parsed] at refused
    cases refused
  · exact bounded wildcard

end Haf
