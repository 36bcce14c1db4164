import Std.Data.HashMap
import Treatise.Element.Catalog
import Treatise.Store.Basic
import Treatise.Weights.Config

/-!
# The weights of one element

An analysis lists what each weighted predicate contributes on either side, follows the influence
of the element through its dependents and the chains it rests on, and sums all up in a score.
-/

namespace Treatise.Weights

section Influence

variable {κ α : Type} [DecidableEq κ] [Scalar α]

/-- The influence found below an element, and the elements expanded so far.  `levels` counts the
levels still open, that of the element itself among them. -/
def influenceFrom (dependents : κ → List (κ × α)) (multiplier : Nat → α) :
    (levels depth : Nat) → κ → (expanded : List κ) → α × List κ
  | 0, _, _, expanded => (0, expanded)
  | levels + 1, depth, element, expanded =>
    if element ∈ expanded then (0, expanded)
    else
      (dependents element).foldl
        (fun (sum, expanded) (dependent, weight) =>
          let (below, expanded) :=
            influenceFrom dependents multiplier levels (depth + 1) dependent expanded
          (sum + weight * multiplier depth + below, expanded))
        (0, element :: expanded)

def influence (dependents : κ → List (κ × α)) (multiplier : Nat → α) (maxDepth : Nat)
    (element : κ) : α :=
  (influenceFrom dependents multiplier (maxDepth + 1) 0 element []).1

end Influence

section Depth

variable {κ : Type} [BEq κ] [LawfulBEq κ] [Hashable κ]

/-- A longest chain found from an element, and whether the path had no part in it. -/
structure Measured where
  depth : Nat
  isIndependent : Bool
  deriving DecidableEq

def Measured.extend (measured next : Measured) : Measured where
  depth := max measured.depth (next.depth + 1)
  isIndependent := measured.isIndependent && next.isIndependent

abbrev Settled (κ : Type) [BEq κ] [Hashable κ] := Std.HashMap κ Nat

/-- Measures an element at the end of a path.  `bound` is at least the number of elements that the
path can still grow by. -/
def depthFrom (supports : κ → List κ) :
    (bound : Nat) → κ → (path : List κ) → Settled κ → Measured × Settled κ
  | 0, _, _, settled => (⟨0, false⟩, settled)
  | bound + 1, element, path, settled =>
    if path.contains element then (⟨0, false⟩, settled)
    else
      match settled[element]? with
      | some depth => (⟨depth, true⟩, settled)
      | none =>
        let (measured, settled) :=
          (supports element).foldl
            (fun (measured, settled) support =>
              let (next, settled) :=
                depthFrom supports bound support (element :: path) settled
              (measured.extend next, settled))
            (⟨0, true⟩, settled)
        (measured,
          if measured.isIndependent then settled.insert element measured.depth else settled)

def dependencyDepth (supports : κ → List κ) (elementCount : Nat) (element : κ) : Nat :=
  (depthFrom supports (elementCount + 1) element [] ∅).1.depth

end Depth

end Treatise.Weights

namespace Treatise

structure BreakdownEntry (α : Type) where
  predicate : Predicate
  direction : Direction
  count : Nat
  weight : α
  /-- The other ends of the matches, in the order of the store. -/
  related : List ElementId

structure WeightAnalysis (α : Type) where
  elementId : ElementId
  inboundWeight : α
  outboundWeight : α
  transitiveInfluence : α
  foundationalScore : α
  dependencyDepth : Nat
  influenceReach : UInt64
  breakdown : List (BreakdownEntry α)

namespace Weights

variable {α : Type} [Scalar α]

def contribution? (config : WeightConfig α) (store : Store) (id : ElementId) (predicate : Predicate)
    (direction : Direction) : Option (BreakdownEntry α) :=
  match config.weight predicate, store.matching (direction.pattern id predicate) with
  | none, _ | _, [] => none
  | some weight, found =>
    some {
      predicate
      direction
      count := found.length
      weight := Scalar.ofNat found.length * weight
      related := found.map direction.otherEnd }

def breakdown (config : WeightConfig α) (store : Store) (id : ElementId) :
    List (BreakdownEntry α) :=
  Predicate.all.flatMap fun predicate =>
    Direction.all.filterMap fun direction => contribution? config store id predicate direction

def directionalWeight (entries : List (BreakdownEntry α)) (direction : Direction) : α :=
  ((entries.filter (·.direction == direction)).map (·.weight)).foldl (· + ·) 0

def dependents (config : WeightConfig α) (store : Store) (id : ElementId) :
    List (ElementId × α) :=
  config.weighted.flatMap fun (predicate, weight) =>
    (store.matching (.arriving predicate id)).map fun statement => (statement.subject, weight)

def supports (config : WeightConfig α) (store : Store) (id : ElementId) : List ElementId :=
  config.weighted.flatMap fun (predicate, _) =>
    (store.matching (.leaving id predicate)).map (·.object)

def multiplier (config : WeightConfig α) (depth : Nat) : α :=
  Scalar.ofNat (config.depthCeiling.toNat - depth)

def transitiveInfluence (config : WeightConfig α) (store : Store) (id : ElementId) : α :=
  influence (dependents config store) (multiplier config) config.maxInfluenceDepth.toNat id

def depthOf (config : WeightConfig α) (store : Store) (id : ElementId) : Nat :=
  dependencyDepth (supports config store) store.nodeCount id

def baseScore (config : WeightConfig α) (catalog : Catalog) (id : ElementId) : α :=
  ((catalog.categoryOf? id).bind config.baseScore).getD 0

/-- How much more leads to an element than away from it, up to one. -/
def supportRatio (inbound outbound : α) : α :=
  if Scalar.isZero outbound then Scalar.ofNat 1 else Scalar.atMostOne (inbound / outbound)

def foundationalScore (config : WeightConfig α) (catalog : Catalog) (id : ElementId)
    (inbound outbound influence : α) : α :=
  Scalar.atLeastZero
    (baseScore config catalog id + inbound * config.inboundFactor +
      influence * config.influenceFactor + supportRatio inbound outbound * config.ratioFactor)

def analyze (config : WeightConfig α) (catalog : Catalog) (store : Store) (id : ElementId) :
    WeightAnalysis α :=
  let entries := breakdown config store id
  let inbound := directionalWeight entries .inbound
  let outbound := directionalWeight entries .outbound
  let influence := transitiveInfluence config store id
  { elementId := id
    inboundWeight := inbound
    outboundWeight := outbound
    transitiveInfluence := influence
    foundationalScore := foundationalScore config catalog id inbound outbound influence
    dependencyDepth := depthOf config store id
    influenceReach := Scalar.nearestWord (influence / config.reachDivisor)
    breakdown := entries }

end Weights

def WeightAnalysis.entryFor? {α : Type} (analysis : WeightAnalysis α) (predicate : Predicate)
    (direction : Direction) : Option (BreakdownEntry α) :=
  analysis.breakdown.find? fun entry =>
    entry.predicate == predicate && entry.direction == direction

end Treatise
