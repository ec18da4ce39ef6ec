/-
# Reading what was rendered

Version ranges and capability values are rendered for digests, reasons and stored policies, and
read from text by the same library. What is rendered is not always read back: a range without
clauses is written as the wildcard, numbers of 19 digits are written and not read, and the
rendering of no tokens is read as one token that is empty.
-/

import Haf.Properties.CanonicalForm

namespace Haf

open Sequence

/-! ### Version ranges -/

namespace VersionRange

/-- A range has a clause for every token of its text. -/
theorem length_of_parseTokens {tokens : List Bytes} {range : VersionRange}
    (read : parseTokens tokens = .ok range) : range.clauses.length = tokens.length := by
  induction tokens generalizing range with
  | nil =>
      cases read
      rfl
  | cons token rest ih =>
      rw [parseTokens] at read
      split at read
      · cases read
      · split at read
        · cases read
        · rename_i tail
          cases read
          rw [List.length_cons, List.length_cons, ih tail]

/-- The rendering of the range is read as a range that is met by the same versions and is
unconstrained if this one is. -/
def SurvivesRendering (range : VersionRange) : Prop :=
  ∃ back, parse range.toText = .ok back ∧ back.isAny = range.isAny ∧
    ∀ v, back.isMatch v = range.isMatch v

/-- **Which ranges survive rendering.** A range that was read from a text survives exactly if the
text had a token: the range without clauses is written as a wildcard, which is a clause. -/
theorem survivesRendering_iff_tokens {s : Bytes} {range : VersionRange} (read : parse s = .ok range) :
    range.SurvivesRendering ↔ tokens s ≠ [] := by
  have count := length_of_parseTokens read
  have bare : range.clauses = [] ↔ tokens s = [] := by
    rw [← List.length_eq_zero_iff, count, List.length_eq_zero_iff]
  rw [Ne, ← bare]
  constructor
  · rintro ⟨back, again, unconstrained, _⟩ empty
    rw [parse_toText] at again
    cases again
    simp [isAny, reread, empty] at unconstrained
  · intro clauses
    have same : range.reread = range := by
      rw [reread, if_neg (by simpa using clauses)]
    exact ⟨range, by rw [parse_toText, same], rfl, fun _ => rfl⟩

end VersionRange

/-- The empty text is an unconstrained range, and its rendering is a constrained one. -/
theorem empty_range_constrained : VersionRange.parse [] = .ok {} ∧
    ({} : VersionRange).isAny = true ∧
    (VersionRange.parse ({} : VersionRange).toText).map (·.isAny) = .ok false := by
  decide +kernel

theorem wildcard_survivesRendering :
    VersionRange.SurvivesRendering ⟨[{}], by simpa using ⟨text "*", rfl⟩⟩ :=
  (VersionRange.survivesRendering_iff_tokens (s := text "*") (by rfl)).mpr (by decide)

/-! ### Capability values -/

namespace CapabilityValue

/-- Numbers of at most 18 digits and token sets that are not empty; all else but presence flags
and quantities. -/
def Rereadable : CapabilityValue → Prop
  | .integer n => n.toInt.natAbs < 1000000000000000000
  | .tokenSet tokens => tokens ≠ []
  | _ => True

theorem splitSign_signedDecimal (n : Int) :
    splitSign (signedDecimal n) = (if n < 0 then -1 else 1, decimal n.natAbs) := by
  rw [signedDecimal]
  split
  · rfl
  · cases digits : decimal n.natAbs with
    | nil => exact absurd digits (decimal_ne_nil _)
    | cons c rest =>
        have digit : isDigit c = true := isDigit_of_mem_decimal (digits ▸ List.mem_cons_self)
        have plus : c ≠ 43 := by
          rintro rfl
          cases digit
        have minus : c ≠ 45 := by
          rintro rfl
          cases digit
        simp [splitSign, plus, minus]

/-- The numeral of a number is read back if it has at most 18 digits. -/
theorem parseInteger_signedDecimal (n : Int64) :
    parseInteger (signedDecimal n.toInt) =
      if n.toInt.natAbs < 1000000000000000000 then some n else none := by
  have few : (decimal n.toInt.natAbs).length ≤ 18 ↔ n.toInt.natAbs < 1000000000000000000 := by
    rw [decimal, List.length_map]
    exact Nat.length_toDigits_le_iff (by decide) (by decide)
  have digits : (decimal n.toInt.natAbs).all isDigit = true :=
    List.all_eq_true.mpr fun c listed => isDigit_of_mem_decimal listed
  have some_ : (decimal n.toInt.natAbs).isEmpty = false := by simpa using decimal_ne_nil _
  have signed : (if n.toInt < 0 then -1 else 1) * (n.toInt.natAbs : Int) = n.toInt := by
    split <;> omega
  simp only [parseInteger, splitSign_signedDecimal, digits, some_, digitsValue_decimal, signed,
    Int64.ofInt_toInt, Bool.false_or, Bool.not_true, Bool.or_false, decide_eq_true_eq]
  by_cases within : n.toInt.natAbs < 1000000000000000000
  · rw [if_pos within, if_neg (by omega)]
  · rw [if_neg within, if_pos (by omega)]

/-- Tokens are read between the commas they are joined with. -/
theorem splitTokens_intercalate {tokens : List Bytes} (some_ : tokens ≠ [])
    (formed : ∀ token ∈ tokens, IsCanonical token Limits.maxTokenBytes) :
    splitTokens ((text ",").intercalate tokens) = tokens := by
  apply List.splitOn_intercalate 44 _ some_
  intro token listed comma
  cases (formed token listed).alphabet 44 comma

/-- The value is read back from the rendering of its canonical form. -/
def SurvivesRendering (strtod : Bytes → Option Double) (value : CapabilityValue) : Prop :=
  ∃ canonical, value.canonicalize = .ok canonical ∧
    parse strtod value.kind canonical.render = .ok canonical

/-- **Which values survive rendering.** A value that canonicalizes and is no flag and no quantity
is read back from its rendering exactly if it is not a number of 19 digits or an empty set of
tokens. Versions are taken with a prerelease that the parser accepts. -/
theorem survivesRendering_iff_rereadable {strtod : Bytes → Option Double} {value out : CapabilityValue}
    (accepted : value.canonicalize = .ok out)
    (textual : value.kind ≠ .presence ∧ value.kind ≠ .scalar)
    (version : ∀ v, value = .version v →
      ∃ s w, SemanticVersion.parse s = some w ∧ w.prerelease = v.prerelease) :
    value.SurvivesRendering strtod ↔ value.Rereadable := by
  have reads : value.SurvivesRendering strtod ↔ parse strtod value.kind out.render = .ok out := by
    rw [SurvivesRendering, accepted]
    simp
  rw [reads]
  cases canonicalize_eq_ok_iff.mp accepted with
  | presence flag => exact absurd rfl textual.1
  | scalar finite => exact absurd rfl textual.2
  | version range =>
      obtain ⟨s, w, read, same⟩ := version _ rfl
      have formed := SemanticVersion.wellformed_of_parse read
      rw [SemanticVersion.Wellformed, same] at formed
      simp [kind, parse, render, SemanticVersion.parse_toText formed, Rereadable]
  | integer n =>
      simp only [kind, parse, render, parseInteger_signedDecimal, Rereadable]
      by_cases within : n.toInt.natAbs < 1000000000000000000
      · simp [within]
      · simp [within]
  | enumeration canonical =>
      have fixed := (isCanonical_of_canonicalToken canonical).canonicalToken_eq
      simp only [kind, parse, render, fixed, Rereadable, iff_true]
      rfl
  | tokenSet canonical =>
      rename_i tokens tokens'
      have fixed := canonicalTokens_idem canonical
      simp only [kind, parse, render, Rereadable]
      by_cases bare : tokens = []
      · subst bare
        have empty : canonicalTokens [] Limits.maxTokensPerCapability = some [] := by decide
        cases empty.symm.trans canonical
        -- the empty text has one token, which is empty
        have refused : ¬ Limits.maxTokensPerCapability <
              (splitTokens ((text ",").intercalate [])).length ∧
            canonicalTokens (splitTokens ((text ",").intercalate []))
              Limits.maxTokensPerCapability = none := by
          decide
        simp only [if_neg refused.1, refused.2, reduceCtorEq, ne_eq, not_true_eq_false]
      · have some_ : tokens' ≠ [] := by
          rintro rfl
          obtain ⟨token, given⟩ := List.exists_mem_of_ne_nil tokens bare
          obtain ⟨_, never, _⟩ := exists_of_canonicalTokens canonical given
          cases never
        have few : ¬ Limits.maxTokensPerCapability < tokens'.length := by
          intro many
          rw [canonicalTokens, if_pos many] at fixed
          cases fixed
        have split : splitTokens ((text ",").intercalate tokens') = tokens' := by
          apply splitTokens_intercalate some_
          intro token listed
          obtain ⟨_, _, form⟩ := (mem_of_canonicalTokens canonical).mp listed
          exact isCanonical_of_canonicalToken form
        simp [split, few, fixed, bare]

end CapabilityValue

/-- A quintillion is written with 19 digits. -/
theorem quintillion_not_read :
    (CapabilityValue.integer 1000000000000000000).canonicalize =
      .ok (.integer 1000000000000000000) ∧
    (CapabilityValue.parse (fun _ => none) .integer
      (CapabilityValue.integer 1000000000000000000).render).isOk = false := by
  decide +kernel

theorem tokens_survivesRendering :
    (CapabilityValue.tokenSet [text "B", text "a"]).SurvivesRendering fun _ => none := by
  have accepted : (CapabilityValue.tokenSet [text "B", text "a"]).canonicalize =
      .ok (.tokenSet [text "a", text "b"]) := by
    decide +kernel
  exact (CapabilityValue.survivesRendering_iff_rereadable accepted ⟨nofun, nofun⟩ nofun).mpr nofun

end Haf
