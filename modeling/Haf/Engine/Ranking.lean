/-
# Ranking

Eligible candidates are ordered by an integer score, then by the strength of their portability
class, then by identity; the others are reported beside them. Each dimension of the score is a
product of a weight that the caller chooses. Signed arithmetic that leaves the range of its type
is undefined in the source, and so a score that overflows anywhere is no score at all.
-/

import Haf.Model.Migration

namespace Haf

open Sequence

namespace Limits

def maxRankingCandidates : Nat := 1000000

end Limits

structure RankingWeights where
  nativePortabilityBonus : Int32 := 1000
  transformationStepPenalty : Int32 := 250
  migrationCostPenalty : Int32 := 1
  syntheticEvidencePenalty : Int32 := 500
  topologyDistancePenalty : Int32 := 100
  freeMemoryGibBonus : Int32 := 10
  useFreeMemory : Bool := false
  useTopologyDistance : Bool := false

structure RankingCandidate where
  accelerator : AcceleratorId := .nil
  decision : CompatibilityDecision := {}
  topologyDistance : UInt32 := 0
  freeMemoryBytes : UInt64 := 0
  migrationCost : UInt32 := 0

structure RankedCandidate where
  rank : Nat := 0
  accelerator : AcceleratorId := .nil
  rankScore : Int := 0
  outcome : CompatibilityOutcome := .unknown
  portability : PortabilityClass := .unknown
  migrationOutcome : MigrationOutcome := .unknown
  provenance : EvidenceProvenance := .unsupported
  rationale : List Bytes := []

structure RankingResult where
  ranked : List RankedCandidate
  excluded : List RankedCandidate

/-! ### Scores -/

/-- A number is a value of the signed type of so many bits. -/
def FitsIn (bits : Nat) (n : Int) : Prop := -2 ^ (bits - 1) ≤ n ∧ n < 2 ^ (bits - 1)

instance FitsIn.decidable (bits : Nat) (n : Int) : Decidable (FitsIn bits n) :=
  inferInstanceAs (Decidable (_ ∧ _))

/-- One dimension of a score: a product, computed in so many bits, that is added or subtracted
if the dimension applies. -/
structure Dimension where
  applies : Bool
  label : Bytes
  product : Int
  penalty : Bool := false
  bits : Nat := 64
  shown : Bool := applies

namespace Dimension

def amount (k : Dimension) : Int :=
  if k.applies then if k.penalty then -k.product else k.product else 0

/-- The score with the dimension, unless the product or the new score overflows. -/
def apply (score : Int) (k : Dimension) : Option Int :=
  if (k.applies → FitsIn k.bits k.product) ∧ FitsIn 64 (score + k.amount) then
    some (score + k.amount)
  else none

end Dimension

/-- The dimensions that are scored before free memory. -/
def leadingDimensions (c : RankingCandidate) (w : RankingWeights) : List Dimension :=
  let portability := c.decision.portability
  let steps := portability.transformationSteps
  [ { applies := portability = .native
      label := text "portability=native +"
      product := w.nativePortabilityBonus.toInt },
    { applies := portability = .liveMigrationSupported
      label := text "portability=live_migration +"
      product := w.nativePortabilityBonus.toInt.tdiv 2 },
    { applies := steps ≠ 0 ∧ steps ≠ 255, penalty := true
      label := text "transformation_steps=" ++ decimal steps.toNat ++ text " -"
      product := steps.toNat * w.transformationStepPenalty.toInt },
    { applies := c.migrationCost ≠ 0, penalty := true
      label := text "migration_cost=" ++ decimal c.migrationCost.toNat ++ text " -"
      product := c.migrationCost.toNat * w.migrationCostPenalty.toInt },
    { applies := c.decision.provenance = .synthetic, penalty := true
      label := text "evidence=synthetic -"
      product := w.syntheticEvidencePenalty.toInt },
    -- the weight is doubled in its own type
    { applies := c.decision.provenance = .unsupported, penalty := true, bits := 32
      label := text "evidence=unsupported -"
      product := w.syntheticEvidencePenalty.toInt * 2 },
    { applies := w.useTopologyDistance ∧ c.topologyDistance ≠ 0, penalty := true
      label := text "topology_distance=" ++ decimal c.topologyDistance.toNat ++ text " -"
      product := c.topologyDistance.toNat * w.topologyDistancePenalty.toInt } ]

def memoryDimension (c : RankingCandidate) (w : RankingWeights) : Dimension :=
  let gib := c.freeMemoryBytes.toNat / 1073741824
  { applies := w.useFreeMemory ∧ c.freeMemoryBytes ≠ 0
    label := text "free_memory_gib=" ++ decimal gib ++ text " +"
    product := gib * w.freeMemoryGibBonus.toInt }

/-- The score of the decision is always added, and shown unless it is zero. -/
def decisionDimension (c : RankingCandidate) : Dimension :=
  let score := c.decision.score.toInt
  { applies := true, shown := score ≠ 0
    label := text "compatibility_score " ++ if 0 ≤ score then text "+" else []
    product := score }

/-- The dimensions of a score, in the order in which they are added up. -/
def dimensions (c : RankingCandidate) (w : RankingWeights) : List Dimension :=
  leadingDimensions c w ++ [memoryDimension c w, decisionDimension c]

def scoreCandidate (c : RankingCandidate) (w : RankingWeights) : Option Int :=
  (dimensions c w).foldlM Dimension.apply 0

/-- One line for each dimension that is shown. -/
def scoreRationale (c : RankingCandidate) (w : RankingWeights) : List Bytes :=
  ((dimensions c w).filter (·.shown)).map fun k => k.label ++ signedDecimal k.product

/-! ### The order -/

namespace RankingCandidate

def isEligible (c : RankingCandidate) : Bool := c.decision.outcome = .eligible

def entry (c : RankingCandidate) : RankedCandidate :=
  { accelerator := c.accelerator
    outcome := c.decision.outcome
    portability := c.decision.portability
    provenance := c.decision.provenance }

def scoredEntry (w : RankingWeights) (c : RankingCandidate) : Option RankedCandidate :=
  (scoreCandidate c w).map fun rankScore =>
    { c.entry with rankScore, rationale := scoreRationale c w }

def excludedEntry (c : RankingCandidate) : RankedCandidate :=
  { c.entry with rationale := [text "excluded: outcome is " ++ c.decision.outcome.toText] }

end RankingCandidate

namespace RankedCandidate

/-- The comparison by which the ranked candidates are sorted. -/
def before (a b : RankedCandidate) : Bool :=
  if a.rankScore ≠ b.rankScore then b.rankScore < a.rankScore
  else if a.portability ≠ b.portability then b.portability.strength < a.portability.strength
  else a.accelerator < b.accelerator

/-- Ranks count from one. -/
def numbered (entries : List RankedCandidate) : List RankedCandidate :=
  (entries.zipIdx 1).map fun p => { p.1 with rank := p.2 }

end RankedCandidate

open RankingCandidate RankedCandidate

/-- Rank the eligible candidates and report the others; nothing if a score overflows. -/
def rankCandidates (candidates : List RankingCandidate) (w : RankingWeights) :
    Option (Result RankingResult) :=
  if Limits.maxRankingCandidates < candidates.length then
    some (.error (.failure .boundsExceeded "ranking exceeds the permitted number of candidates"))
  else
    let eligible := candidates.filter isEligible
    if eligible.all fun c => (scoreCandidate c w).isSome then
      some (.ok {
        ranked := numbered ((eligible.filterMap (scoredEntry w)).insertionSort
          fun a b => !b.before a)
        excluded := sortOn (·.accelerator) ((candidates.filter (!·.isEligible)).map excludedEntry) })
    else none

namespace RankedCandidate

/-- Scores descend, then strengths of portability, then identities ascend. -/
def Ahead (a b : RankedCandidate) : Prop :=
  b.rankScore < a.rankScore ∨ a.rankScore = b.rankScore ∧
    (b.portability.strength < a.portability.strength ∨
      a.portability = b.portability ∧ a.accelerator < b.accelerator)

/-- What the comparison compares. -/
def sortKey (a : RankedCandidate) : ℤ ×ₗ ℤ ×ₗ AcceleratorId :=
  toLex (-a.rankScore, toLex (-(a.portability.strength.toNat : ℤ), a.accelerator))

theorem sortKey_lt_iff {a b : RankedCandidate} : a.sortKey < b.sortKey ↔ a.Ahead b := by
  have level : -(a.portability.strength.toNat : ℤ) = -(b.portability.strength.toNat : ℤ) ↔
      a.portability = b.portability := by
    rw [neg_inj, Nat.cast_inj, UInt8.toNat_inj]
    refine ⟨fun same => ?_, congrArg _⟩
    simpa [PortabilityClass.strength] using congrArg PortabilityClass.fromWire same
  rw [sortKey, sortKey, Prod.Lex.toLex_lt_toLex, Prod.Lex.toLex_lt_toLex, level]
  simp [Ahead, UInt8.lt_iff_toNat_lt]

theorem sort_eq (entries : List RankedCandidate) :
    entries.insertionSort (fun a b => !b.before a) = sortOn sortKey entries := by
  have level : (fun a b : RankedCandidate => (!b.before a) = true) =
      fun a b => a.sortKey ≤ b.sortKey := by
    funext a b
    rw [← not_lt, sortKey_lt_iff, Ahead, before]
    split <;> [skip; split] <;> simp_all
  simp only [sortOn, level]

theorem accelerator_of_sortKey {a b : RankedCandidate} (same : a.sortKey = b.sortKey) :
    a.accelerator = b.accelerator :=
  congrArg (fun k : ℤ ×ₗ ℤ ×ₗ AcceleratorId => (ofLex (ofLex k).2).2) same

theorem map_rank_numbered (entries : List RankedCandidate) :
    (numbered entries).map (·.rank) = List.range' 1 entries.length := by
  rw [numbered, List.map_map, ← List.zipIdx_map_snd]
  rfl

/-- Numbering changes nothing but the ranks. -/
theorem map_numbered {β : Type} {g : RankedCandidate → β}
    (blind : ∀ r rank, g { r with rank } = g r) (entries : List RankedCandidate) :
    (numbered entries).map g = entries.map g := by
  have kept := congrArg (List.map g) (List.zipIdx_map_fst 1 entries)
  rw [numbered, List.map_map, ← kept, List.map_map]
  exact List.map_congr_left fun p _ => blind p.1 p.2

theorem pairwise_numbered {entries : List RankedCandidate} (sorted : entries.Pairwise Ahead) :
    (numbered entries).Pairwise Ahead := by
  rw [← List.zipIdx_map_fst 1 entries, List.pairwise_map] at sorted
  exact List.pairwise_map.mpr sorted

end RankedCandidate

/-! ### When a score is defined -/

/-- Adding up is defined exactly if every product and every partial sum is in its range. -/
theorem foldlM_apply_eq_some {score total : Int} {terms : List Dimension}
    (within : FitsIn 64 score) : terms.foldlM Dimension.apply score = some total ↔
      (∀ k ∈ terms, k.applies → FitsIn k.bits k.product) ∧
        (∀ first ∈ terms.inits, FitsIn 64 (score + (first.map (·.amount)).sum)) ∧
        total = score + (terms.map (·.amount)).sum := by
  induction terms generalizing score with
  | nil => simpa [within] using eq_comm
  | cons k terms ih =>
      rw [List.foldlM_cons, Dimension.apply]
      split
      case isTrue fits => simp +contextual [ih fits.2, fits.1, within, add_assoc]
      case isFalse fails =>
        simp only [Option.bind_eq_bind, Option.bind_none, reduceCtorEq, false_iff]
        rintro ⟨products, sums, -⟩
        have first := sums [k] (by simp)
        exact fails ⟨products k (by simp), by simpa using first⟩

theorem scoreCandidate_eq_some {c : RankingCandidate} {w : RankingWeights} {score : Int} :
    scoreCandidate c w = some score ↔
      (∀ k ∈ dimensions c w, k.applies → FitsIn k.bits k.product) ∧
        (∀ first ∈ (dimensions c w).inits, FitsIn 64 (first.map (·.amount)).sum) ∧
        score = ((dimensions c w).map (·.amount)).sum := by
  rw [scoreCandidate, foldlM_apply_eq_some (by decide)]
  simp only [zero_add]

/-- A weight times a number of 32 bits is a number of 64 bits. -/
theorem fitsIn_mul_weight {n : Nat} (small : n < 4294967296) (x : Int32) :
    FitsIn 64 (n * x.toInt) := by
  have low : -2147483648 ≤ x.toInt := x.le_toInt
  have high : x.toInt < 2147483648 := x.toInt_lt
  constructor
  · show -9223372036854775808 ≤ _
    nlinarith
  · show _ < (9223372036854775808 : Int)
    nlinarith

/-- Entries of different accelerators are sorted alike in whichever order they come, if the key
determines the accelerator. -/
theorem sortOn_eq_of_perm {κ : Type} [LinearOrder κ] {key : RankedCandidate → κ}
    (names : ∀ {a b : RankedCandidate}, key a = key b → a.accelerator = b.accelerator)
    {xs ys : List RankedCandidate} (perm : xs.Perm ys)
    (distinct : (xs.map (·.accelerator)).Nodup) : sortOn key xs = sortOn key ys := by
  have arrivals : SameArrivals key xs ys := by
    apply SameArrivals.of_perm perm
    intro a listed b listed' same
    exact List.inj_on_of_nodup_map distinct listed listed' (names same)
  exact arrivals.sortOn_eq

end Haf
