import Treatise.Decimal
import Treatise.Element.Address
import Treatise.Statement

/-!
# Tables for weighing elements

Weights of predicates, base scores of categories and the factors of the score, over any numbers
with the few operations that weighing needs.  A configuration is checked before it is used.
-/

namespace Treatise

class Scalar (α : Type) extends Zero α, Add α, Mul α, Div α where
  ofNat : Nat → α
  isZero : α → Bool
  isFinite : α → Bool
  /-- Whether the first number is less than the second; false where they do not compare. -/
  isBelow : α → α → Bool
  /-- The nearest whole number that a word holds, a half going away from zero. -/
  nearestWord : α → UInt64

namespace Scalar

variable {α : Type} [Scalar α]

def atMostOne (x : α) : α := if isBelow x (ofNat 1) then x else ofNat 1

def atLeastZero (x : α) : α := if isBelow 0 x then x else 0

def isNonNegative (x : α) : Bool := isFinite x && !isBelow x 0

end Scalar

instance : Scalar Float where
  zero := 0
  ofNat := Float.ofNat
  isZero x := x == 0
  isFinite x :=
    match Decimal.decode x with
    | .finite _ => true
    | _ => false
  isBelow x y := decide (x < y)
  nearestWord := Decimal.nearestWord

structure WeightConfig (α : Type) where
  weight : Predicate → Option α
  baseScore : Category → Option α
  maxInfluenceDepth : UInt32
  /-- At depth `d` a weight counts as often as `d` falls short of this. -/
  depthCeiling : UInt32
  inboundFactor : α
  influenceFactor : α
  ratioFactor : α
  reachDivisor : α

namespace WeightConfig

variable {α : Type}

def weighted (config : WeightConfig α) : List (Predicate × α) :=
  Predicate.all.filterMap fun predicate => (config.weight predicate).map (predicate, ·)

def scored (config : WeightConfig α) : List (Category × α) :=
  Category.all.filterMap fun category => (config.baseScore category).map (category, ·)

def standardWeight : Predicate → Option Float
  | .cites => some 1.0
  | .necessarilyFollows => some 3.0
  | .clearlyFollowsFrom | .provedBy | .appliesResultFrom | .groundedIn | .demonstratedBy =>
    some 2.0
  | .refutedByAbsurdity | .buildsUpon => some 1.5
  | _ => none

def standardBaseScore : Category → Option Float
  | .definition => some 10.0
  | .axiomItem => some 8.0
  | .proposition => some 3.0
  | .corollary => some 2.0
  | .proof => some 1.0
  | .note => some 0.5
  | _ => none

def standard : WeightConfig Float where
  weight := standardWeight
  baseScore := standardBaseScore
  maxInfluenceDepth := 4
  depthCeiling := 5
  inboundFactor := 1.5
  influenceFactor := 0.2
  ratioFactor := 5.0
  reachDivisor := 10.0

def citationsOnly : WeightConfig Float :=
  { standard with
    weight := fun
      | .cites => some 1.0
      | _ => none }

end WeightConfig

inductive Factor where
  | inbound
  | influence
  | ratio
  deriving DecidableEq

namespace Factor

def all : List Factor := [.inbound, .influence, .ratio]

def fieldName : Factor → String
  | inbound => "inbound_factor"
  | influence => "influence_factor"
  | ratio => "ratio_factor"

end Factor

inductive ConfigProblem (α : Type) where
  | derivedWeight (predicate : Predicate)
  | weight (predicate : Predicate) (value : α)
  | baseScore (category : Category) (value : α)
  | depth (maximum ceiling : UInt32)
  | factor (which : Factor) (value : α)
  | divisor (value : α)

namespace WeightConfig

variable {α : Type} [Scalar α]

def factor (config : WeightConfig α) : Factor → α
  | .inbound => config.inboundFactor
  | .influence => config.influenceFactor
  | .ratio => config.ratioFactor

/-- All problems of a configuration, in the order in which it is checked. -/
def problems (config : WeightConfig α) : List (ConfigProblem α) :=
  (config.weighted.flatMap fun (predicate, weight) =>
    (if predicate.isDerived then [.derivedWeight predicate] else []) ++
      if Scalar.isNonNegative weight then [] else [.weight predicate weight]) ++
  ((config.scored.filter fun (_, score) => !Scalar.isFinite score).map fun (category, score) =>
    .baseScore category score) ++
  (if config.maxInfluenceDepth < config.depthCeiling then []
    else [.depth config.maxInfluenceDepth config.depthCeiling]) ++
  ((Factor.all.filter fun factor => !Scalar.isNonNegative (config.factor factor)).map fun factor =>
    .factor factor (config.factor factor)) ++
  if Scalar.isFinite config.reachDivisor && Scalar.isBelow 0 config.reachDivisor then []
  else [.divisor config.reachDivisor]

def problem? (config : WeightConfig α) : Option (ConfigProblem α) := config.problems.head?

def IsValid (config : WeightConfig α) : Prop := config.problems = []

end WeightConfig

def ConfigProblem.layout : Decimal.Layout where
  tie := .away
  isPositional _ := true
  wholeEnding := ""

def ConfigProblem.words (problem : ConfigProblem Float) : String :=
  match problem with
  | derivedWeight predicate =>
    "weights may only name asserted predicates (found " ++ predicate.wireName ++ ")"
  | weight predicate value =>
    "weight for " ++ predicate.wireName ++ " must be a non-negative number " ++ got value
  | baseScore category value =>
    "base score for " ++ category.className ++ " must be finite " ++ got value
  | depth maximum ceiling =>
    "max_influence_depth (" ++ Decimal.ofNat maximum.toNat ++
      ") must stay below depth_multiplier_ceiling (" ++ Decimal.ofNat ceiling.toNat ++ ")"
  | factor which value =>
    which.fieldName ++ " must be a non-negative number " ++ got value
  | divisor value => "reach_divisor must be > 0 " ++ got value
where
  got (value : Float) : String := "(got " ++ layout.text value ++ ")"

def ConfigProblem.message (problem : ConfigProblem Float) : String :=
  "Invalid configuration: " ++ problem.words

end Treatise
