import Mathlib.Algebra.Order.Field.Rat
import Mathlib.Data.Rat.Floor
import Mathlib.Tactic.GCongr
import Treatise.Weights.Analysis
import Treatise.Weights.Config

/-!
# Exact numbers and the score

On rational numbers the weighing of elements is free from rounding.  There the
score of an element grows with the weight that leads to it and with its
influence, and it shrinks with the weight that leads away.  Base scores may be
negative, but no score is.
-/

namespace Treatise

instance : Scalar ℚ where
  ofNat n := n
  isZero x := decide (x = 0)
  isFinite _ := true
  isBelow x y := decide (x < y)
  nearestWord x := UInt64.ofNat (min ⌊x + 1 / 2⌋.toNat (UInt64.size - 1))

namespace Scalar

theorem isBelow_iff {x y : ℚ} : isBelow x y ↔ x < y := decide_eq_true_iff

theorem atMostOne_eq_min (x : ℚ) : atMostOne x = min x 1 := by
  have hone : ofNat 1 = (1 : ℚ) := Nat.cast_one
  simp only [atMostOne, hone, isBelow_iff, min_def_lt]

theorem atLeastZero_eq_max (x : ℚ) : atLeastZero x = max 0 x := by
  simp only [atLeastZero, isBelow_iff, max_def_lt]

end Scalar

namespace WeightConfig

theorem mem_weighted_iff {α : Type} {config : WeightConfig α} {predicate : Predicate}
    {weight : α} :
    (predicate, weight) ∈ config.weighted ↔ config.weight predicate = some weight := by
  simp only [weighted, List.mem_filterMap, Option.map_eq_some_iff, Prod.mk.injEq]
  constructor
  · intro hmem
    obtain ⟨_, -, _, hweight, rfl, rfl⟩ := hmem
    exact hweight
  · intro hweight
    exact ⟨predicate, predicate.mem_all, weight, hweight, rfl, rfl⟩

theorem IsValid.weight_nonneg {config : WeightConfig ℚ} (hvalid : config.IsValid)
    {predicate : Predicate} {weight : ℚ} (hweight : config.weight predicate = some weight) :
    0 ≤ weight := by
  have hmem : (predicate, weight) ∈ config.weighted := mem_weighted_iff.mpr hweight
  by_contra hnegative
  have hproblem : ConfigProblem.weight predicate weight ∈ config.problems := by
    have hrefused : Scalar.isNonNegative weight = false := by
      simpa [Scalar.isNonNegative, Scalar.isFinite, Scalar.isBelow] using hnegative
    simp only [problems, List.mem_append]
    left; left; left; left
    exact List.mem_flatMap.mpr ⟨_, hmem, by simp [hrefused]⟩
  rw [hvalid] at hproblem
  cases hproblem

theorem IsValid.factor_nonneg {config : WeightConfig ℚ} (hvalid : config.IsValid)
    (factor : Factor) : 0 ≤ config.factor factor := by
  have hall : factor ∈ Factor.all := by
    cases factor <;> decide
  by_contra hnegative
  have hproblem : ConfigProblem.factor factor (config.factor factor) ∈ config.problems := by
    have hrefused : Scalar.isNonNegative (config.factor factor) = false := by
      simpa [Scalar.isNonNegative, Scalar.isFinite, Scalar.isBelow] using hnegative
    simp only [problems, List.mem_append]
    left; right
    exact List.mem_map.mpr ⟨factor, List.mem_filter.mpr ⟨hall, by simp [hrefused]⟩, rfl⟩
  rw [hvalid] at hproblem
  cases hproblem

theorem IsValid.maxInfluenceDepth_lt {α : Type} [Scalar α] {config : WeightConfig α}
    (hvalid : config.IsValid) :
    config.maxInfluenceDepth.toNat < config.depthCeiling.toNat := by
  by_contra hreached
  have hproblem : ConfigProblem.depth config.maxInfluenceDepth config.depthCeiling ∈
      config.problems := by
    have hrefused : ¬ config.maxInfluenceDepth < config.depthCeiling := hreached
    simp [problems, hrefused]
  rw [hvalid] at hproblem
  cases hproblem

end WeightConfig

end Treatise

namespace Treatise.Weights

theorem supportRatio_of_ne_zero (inbound : ℚ) {outbound : ℚ} (houtbound : outbound ≠ 0) :
    supportRatio inbound outbound = min (inbound / outbound) 1 := by
  have hzero : Scalar.isZero outbound = false := decide_eq_false houtbound
  rw [supportRatio, hzero, if_neg Bool.false_ne_true, Scalar.atMostOne_eq_min]

theorem supportRatio_zero (inbound : ℚ) : supportRatio inbound 0 = 1 := rfl

theorem supportRatio_le_one (inbound outbound : ℚ) : supportRatio inbound outbound ≤ 1 := by
  by_cases hzero : outbound = 0
  · rw [hzero, supportRatio_zero]
  · rw [supportRatio_of_ne_zero inbound hzero]
    exact min_le_right _ _

theorem supportRatio_mono {inbound larger outbound smaller : ℚ} (hinbound : inbound ≤ larger)
    (houtbound : smaller ≤ outbound) (hnonneg : 0 ≤ larger) (hsmaller : 0 ≤ smaller) :
    supportRatio inbound outbound ≤ supportRatio larger smaller := by
  by_cases hzero : smaller = 0
  · rw [hzero, supportRatio_zero]
    exact supportRatio_le_one inbound outbound
  · have hpos : 0 < smaller := lt_of_le_of_ne hsmaller (Ne.symm hzero)
    have houtboundPos : 0 < outbound := hpos.trans_le houtbound
    have hquotient : inbound / outbound ≤ larger / smaller := by
      calc
        inbound / outbound ≤ larger / outbound := by gcongr
        _ ≤ larger / smaller := by gcongr
    rw [supportRatio_of_ne_zero inbound houtboundPos.ne', supportRatio_of_ne_zero larger hzero]
    exact min_le_min hquotient le_rfl

theorem foundationalScore_mono {config : WeightConfig ℚ} (hvalid : config.IsValid)
    (catalog : Catalog) (id : ElementId) {inbound larger outbound smaller influence further : ℚ}
    (hinbound : inbound ≤ larger) (houtbound : smaller ≤ outbound)
    (hinfluence : influence ≤ further) (hnonneg : 0 ≤ larger) (hsmaller : 0 ≤ smaller) :
    foundationalScore config catalog id inbound outbound influence ≤
      foundationalScore config catalog id larger smaller further := by
  have hratio := supportRatio_mono hinbound houtbound hnonneg hsmaller
  have hinboundFactor : 0 ≤ config.inboundFactor := hvalid.factor_nonneg .inbound
  have hinfluenceFactor : 0 ≤ config.influenceFactor := hvalid.factor_nonneg .influence
  have hratioFactor : 0 ≤ config.ratioFactor := hvalid.factor_nonneg .ratio
  unfold foundationalScore
  rw [Scalar.atLeastZero_eq_max, Scalar.atLeastZero_eq_max]
  apply max_le_max le_rfl
  have hterms := add_le_add (add_le_add
    (mul_le_mul_of_nonneg_right hinbound hinboundFactor)
    (mul_le_mul_of_nonneg_right hinfluence hinfluenceFactor))
    (mul_le_mul_of_nonneg_right hratio hratioFactor)
  change baseScore config catalog id + _ + _ + _ ≤ baseScore config catalog id + _ + _ + _
  linarith

theorem foundationalScore_nonneg (config : WeightConfig ℚ) (catalog : Catalog) (id : ElementId)
    (inbound outbound influence : ℚ) :
    0 ≤ foundationalScore config catalog id inbound outbound influence := by
  rw [foundationalScore, Scalar.atLeastZero_eq_max]
  exact le_max_left _ _

/-- The score rewards what depends on an element, also where nothing leads away
from it, and it is never negative. -/
theorem foundationalScore_rewards_dependents {config : WeightConfig ℚ} (hvalid : config.IsValid)
    (catalog : Catalog) (id : ElementId) :
    (∀ inbound outbound influence : ℚ,
      0 ≤ foundationalScore config catalog id inbound outbound influence) ∧
    ∀ inbound larger outbound smaller influence further : ℚ,
      0 ≤ inbound → inbound ≤ larger → 0 ≤ smaller → smaller ≤ outbound →
        influence ≤ further →
          foundationalScore config catalog id inbound outbound influence ≤
            foundationalScore config catalog id larger smaller further := by
  constructor
  · exact foundationalScore_nonneg config catalog id
  · intro inbound larger outbound smaller influence further
      hnonneg hinbound hsmaller houtbound hinfluence
    exact foundationalScore_mono hvalid catalog id hinbound houtbound hinfluence
      (hnonneg.trans hinbound) hsmaller

/-- Notes are held against an element. -/
def notesCount : WeightConfig ℚ where
  weight _ := none
  baseScore
    | .note => some (-10)
    | _ => none
  maxInfluenceDepth := 4
  depthCeiling := 5
  inboundFactor := 3 / 2
  influenceFactor := 1 / 5
  ratioFactor := 5
  reachDivisor := 10

theorem isValid_notesCount : notesCount.IsValid := by
  have hproblems : notesCount.problems.isEmpty = true := by decide +kernel
  exact List.isEmpty_iff.mp hproblems

theorem baseScore_notesCount : baseScore notesCount .empty ⟨"I.prop.1.note"⟩ = -10 := by
  rw [baseScore, Catalog.categoryOf?, Catalog.get?_empty]
  decide +kernel

theorem foundationalScore_note :
    let score := foundationalScore notesCount .empty ⟨"I.prop.1.note"⟩
    score 1 2 0 = 0 ∧ score 4 0 5 = 2 ∧ 0 ≤ score 1 2 0 ∧ score 1 2 0 ≤ score 4 0 5 := by
  intro score
  obtain ⟨hnonneg, hmono⟩ :=
    foundationalScore_rewards_dependents isValid_notesCount .empty ⟨"I.prop.1.note"⟩
  refine ⟨?_, ?_, hnonneg 1 2 0, ?_⟩
  · simp only [score, foundationalScore, baseScore_notesCount]
    decide +kernel
  · simp only [score, foundationalScore, baseScore_notesCount]
    decide +kernel
  · exact hmono 1 4 2 0 0 5 (by decide) (by decide) (by decide) (by decide) (by decide)

end Treatise.Weights
