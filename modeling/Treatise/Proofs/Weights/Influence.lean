import Mathlib.Algebra.BigOperators.Ring.List
import Mathlib.Algebra.Order.BigOperators.Group.List
import Treatise.Proofs.Weights.Expansion

/-!
# What the transitive influence sums

The influence of an element is a sum over asserted statements.  A weighted
statement counts as often as the depth at which its object was expanded falls
short of the ceiling, and not at all if its object was not expanded.  No
element is expanded twice, so no statement is counted twice.
-/

namespace Treatise.Weights

theorem dependents_perm {α : Type} (config : WeightConfig α) (store : Store)
    (id : ElementId) :
    (dependents config store id).Perm
      ((store.toList.filter (·.object == id)).filterMap fun statement =>
        (config.weight statement.predicate).map (statement.subject, ·)) := by
  have hbucket : ∀ predicate ∈ Predicate.all,
      (((config.weight predicate).map (predicate, ·)).toList.flatMap fun entry =>
        (store.matching (.arriving entry.1 id)).map fun statement =>
          (statement.subject, entry.2)) =
        (store.matching (.arriving predicate id)).filterMap fun statement =>
          (config.weight statement.predicate).map (statement.subject, ·) := by
    intro predicate _
    have hsame : ∀ statement ∈ store.matching (.arriving predicate id),
        (config.weight statement.predicate).map (statement.subject, ·) =
          (config.weight predicate).map (statement.subject, ·) := by
      intro statement hmem
      obtain ⟨-, haccepts⟩ := Store.mem_matching_iff.mp hmem
      simp only [Pattern.accepts, Pattern.arriving, Option.all_none, Option.all_some,
        Bool.true_and, Bool.and_eq_true, beq_iff_eq] at haccepts
      rw [haccepts.1]
    rw [List.filterMap_congr hsame]
    cases config.weight predicate <;> simp
  have hdependents : dependents config store id =
      (Predicate.all.flatMap fun predicate =>
        store.matching (.arriving predicate id)).filterMap fun statement =>
          (config.weight statement.predicate).map (statement.subject, ·) := by
    rw [dependents, WeightConfig.weighted, List.filterMap_eq_flatMap_toList,
      List.flatMap_assoc, List.flatMap_congr hbucket, List.filterMap_flatMap]
  rw [hdependents]
  exact (Store.perm_flatMap_pattern store .inbound id).filterMap _

theorem dependents_ofList {α : Type} (config : WeightConfig α) (statements : List Statement) :
    dependents config (Store.ofList statements) = fun id =>
      config.weighted.flatMap fun entry =>
        (statements.filter (Pattern.arriving entry.1 id).accepts).map fun statement =>
          (statement.subject, entry.2) := by
  funext id
  simp only [dependents, Store.matching_eq, Store.toList_ofList]

theorem weightedStep_of_mem_dependents {α : Type} (config : WeightConfig α) (store : Store) :
    ∀ id, ∀ dependent ∈ dependents config store id, WeightedStep config store dependent.1 id := by
  intro id dependent hdependent
  obtain ⟨statement, hstatement, hweighted⟩ :=
    List.mem_filterMap.mp ((dependents_perm config store id).mem_iff.mp hdependent)
  obtain ⟨hmem, hobject⟩ := List.mem_filter.mp hstatement
  obtain ⟨weight, hweight, rfl⟩ := Option.map_eq_some_iff.mp hweighted
  obtain rfl : statement.object = id := by simpa using hobject
  exact ⟨statement.predicate, by simp [hweight], hmem⟩

/-! ## Sums over statements -/

/-- The weights of the weighted statements that end at an element. -/
def weightsInto (config : WeightConfig ℚ) (store : Store) (id : ElementId) : List ℚ :=
  (store.toList.filter (·.object == id)).filterMap (config.weight ·.predicate)

/-- The weight of a statement, which is zero where it takes no part. -/
def weightOf (config : WeightConfig ℚ) (statement : Statement) : ℚ :=
  (config.weight statement.predicate).getD 0

def totalWeight (config : WeightConfig ℚ) (store : Store) : ℚ :=
  (store.toList.map (weightOf config)).sum

/-- How often the statements that end at an element are counted. -/
def countAt (config : WeightConfig ℚ) (trace : List (ElementId × ℕ)) (id : ElementId) : ℚ :=
  match trace.lookup id with
  | some depth => config.depthCeiling.toNat - depth
  | none => 0

@[simp]
theorem countAt_cons_self (config : WeightConfig ℚ) (id : ElementId) (depth : ℕ)
    (later : List (ElementId × ℕ)) :
    countAt config ((id, depth) :: later) id = config.depthCeiling.toNat - depth := by
  simp [countAt]

theorem countAt_cons_of_ne {config : WeightConfig ℚ} {id other : ElementId} (hne : other ≠ id)
    (depth : ℕ) (later : List (ElementId × ℕ)) :
    countAt config ((id, depth) :: later) other = countAt config later other := by
  have hbeq : (other == id) = false := beq_eq_false_iff_ne.mpr hne
  simp [countAt, List.lookup_cons, hbeq]

theorem countAt_of_not_mem {config : WeightConfig ℚ} {trace : List (ElementId × ℕ)}
    {id : ElementId} (habsent : id ∉ trace.map Prod.fst) : countAt config trace id = 0 := by
  have hlookup : trace.lookup id = none := by
    rw [List.lookup_eq_none_iff]
    intro expansion hmem
    have hne : id ≠ expansion.1 := by
      intro hsame
      exact habsent (hsame ▸ List.mem_map_of_mem hmem)
    simpa using hne
  rw [countAt, hlookup]

theorem countAt_mem_Icc {config : WeightConfig ℚ} {trace : List (ElementId × ℕ)}
    (hdepth : ∀ expansion ∈ trace, expansion.2 < config.depthCeiling.toNat)
    (id : ElementId) :
    countAt config trace id ∈ Set.Icc 0 (config.depthCeiling.toNat : ℚ) := by
  unfold countAt
  cases hfound : trace.lookup id with
  | none => simp
  | some depth =>
      obtain ⟨earlier, later, hsplit, -⟩ := List.lookup_eq_some_iff.mp hfound
      have hlt : depth < config.depthCeiling.toNat := hdepth (id, depth) (by simp [hsplit])
      have hle : (depth : ℚ) ≤ config.depthCeiling.toNat := by exact_mod_cast hlt.le
      have hzero : (0 : ℚ) ≤ depth := Nat.cast_nonneg depth
      simp only [Set.mem_Icc]
      constructor <;> linarith

theorem weightOf_nonneg {config : WeightConfig ℚ} (hvalid : config.IsValid)
    (statement : Statement) : 0 ≤ weightOf config statement := by
  unfold weightOf
  cases hweight : config.weight statement.predicate with
  | none => exact le_rfl
  | some weight => exact hvalid.weight_nonneg hweight

theorem sum_filterMap_weight (config : WeightConfig ℚ) (factor : ℚ)
    (statements : List Statement) :
    ((statements.filterMap (config.weight ·.predicate)).map (· * factor)).sum =
      (statements.map fun statement => weightOf config statement * factor).sum := by
  induction statements with
  | nil => rfl
  | cons statement others ih =>
      cases hweight : config.weight statement.predicate with
      | none => simp [hweight, weightOf, ih]
      | some weight => simp [hweight, weightOf, ih]

theorem sum_filter_object (f : Statement → ℚ) (id : ElementId) (statements : List Statement) :
    ((statements.filter (·.object == id)).map f).sum =
      (statements.map fun statement => if statement.object = id then f statement else 0).sum := by
  induction statements with
  | nil => rfl
  | cons statement others ih =>
      by_cases hobject : statement.object = id
      · simp [hobject, ih]
      · simp [hobject, ih]

theorem contribution_eq {config : WeightConfig ℚ} {depth : ℕ}
    (hdepth : depth < config.depthCeiling.toNat) (store : Store) (id : ElementId) :
    contribution (dependents config store) (multiplier config) (id, depth) =
      ((weightsInto config store id).map
        (· * ((config.depthCeiling.toNat : ℚ) - depth))).sum := by
  have hmultiplier : multiplier config depth = (config.depthCeiling.toNat : ℚ) - depth := by
    exact Nat.cast_sub hdepth.le
  have hperm := (dependents_perm config store id).map fun dependent =>
    dependent.2 * multiplier config depth
  unfold contribution
  rw [hperm.sum_eq, hmultiplier, weightsInto, List.map_filterMap, List.map_filterMap]
  simp [Function.comp_def]

theorem contribution_eq_sum {config : WeightConfig ℚ} {depth : ℕ}
    (hdepth : depth < config.depthCeiling.toNat) (store : Store) (id : ElementId) :
    contribution (dependents config store) (multiplier config) (id, depth) =
      (store.toList.map fun statement =>
        if statement.object = id then
          weightOf config statement * ((config.depthCeiling.toNat : ℚ) - depth)
        else 0).sum := by
  rw [contribution_eq hdepth, weightsInto, sum_filterMap_weight, sum_filter_object]

/-- A sum over the expansions is one over all statements, because the object of
a statement is expanded at one depth only. -/
theorem contributions_eq_sum {config : WeightConfig ℚ} (store : Store)
    {trace : List (ElementId × ℕ)} (hnodup : (trace.map Prod.fst).Nodup)
    (hdepth : ∀ expansion ∈ trace, expansion.2 < config.depthCeiling.toNat) :
    contributions (dependents config store) (multiplier config) trace =
      (store.toList.map fun statement =>
        weightOf config statement * countAt config trace statement.object).sum := by
  induction trace with
  | nil => simp [contributions, countAt]
  | cons expansion later ih =>
      obtain ⟨id, depth⟩ := expansion
      obtain ⟨hfresh, hrest⟩ := List.nodup_cons.mp hnodup
      have hlater := ih hrest fun other hmem => hdepth other (List.mem_cons_of_mem _ hmem)
      have hfirst := contribution_eq_sum (hdepth (id, depth) List.mem_cons_self) store id
      rw [contributions_cons, hfirst, hlater, ← List.sum_map_add]
      congr 1
      apply List.map_congr_left
      intro statement _
      by_cases hobject : statement.object = id
      · simp [hobject, countAt_of_not_mem hfresh]
      · simp [hobject, countAt_cons_of_ne hobject]

theorem countedWeight_mem_Icc {config : WeightConfig ℚ} (hvalid : config.IsValid) (store : Store)
    {trace : List (ElementId × ℕ)}
    (hdepth : ∀ expansion ∈ trace, expansion.2 < config.depthCeiling.toNat) :
    (store.toList.map fun statement =>
        weightOf config statement * countAt config trace statement.object).sum ∈
      Set.Icc 0 (config.depthCeiling.toNat * totalWeight config store) := by
  have hcount : ∀ id, countAt config trace id ∈ Set.Icc 0 (config.depthCeiling.toNat : ℚ) :=
    countAt_mem_Icc hdepth
  constructor
  · apply List.sum_nonneg
    intro term hmem
    obtain ⟨statement, -, rfl⟩ := List.mem_map.mp hmem
    exact mul_nonneg (weightOf_nonneg hvalid statement) (hcount _).1
  · rw [mul_comm, totalWeight, ← List.sum_map_mul_right]
    apply List.sum_le_sum
    intro statement _
    exact mul_le_mul_of_nonneg_left (hcount _).2 (weightOf_nonneg hvalid statement)

/-- What the influence of an element amounts to, told by the expansions of the
traversal and their depths. -/
structure InfluenceAccount (config : WeightConfig ℚ) (store : Store) (id : ElementId)
    (trace : List (ElementId × ℕ)) : Prop where
  expanded_eq : trace.map Prod.fst =
    (influenceFrom (dependents config store) (multiplier config)
      (config.maxInfluenceDepth.toNat + 1) 0 id []).2.reverse
  head : trace.head? = some (id, 0)
  nodup : (trace.map Prod.fst).Nodup
  depth_le : ∀ expansion ∈ trace, expansion.2 ≤ config.maxInfluenceDepth.toNat
  leads : ∀ expansion ∈ trace, LeadsIn (WeightedStep config store) id expansion.2 expansion.1
  /-- The multiplier is at least one, and the next depth is still a word. -/
  depth_lt : ∀ expansion ∈ trace,
    expansion.2 < config.depthCeiling.toNat ∧ expansion.2 + 1 < UInt32.size
  influence_eq : transitiveInfluence config store id =
    (trace.map fun expansion => ((weightsInto config store expansion.1).map
      (· * ((config.depthCeiling.toNat : ℚ) - expansion.2))).sum).sum
  /-- Each statement counts once, and only if its object was expanded. -/
  influence_eq_statements : transitiveInfluence config store id =
    (store.toList.map fun statement =>
      weightOf config statement * countAt config trace statement.object).sum
  influence_nonneg : 0 ≤ transitiveInfluence config store id
  influence_le : transitiveInfluence config store id ≤
    config.depthCeiling.toNat * totalWeight config store

/-- The influence of an element sums the weights of the statements that end at
the expanded elements, each of them counted by the depth of its expansion. -/
theorem transitiveInfluence_account (config : WeightConfig ℚ) (hvalid : config.IsValid)
    (store : Store) (id : ElementId) :
    InfluenceAccount config store id
      (expansions (dependents config store) config.maxInfluenceDepth.toNat id) := by
  have hgood := expansionInvariant_expansions (weightedStep_of_mem_dependents config store)
    config.maxInfluenceDepth.toNat id
  have hceiling := hvalid.maxInfluenceDepth_lt
  have hword : config.depthCeiling.toNat < UInt32.size := config.depthCeiling.toNat_lt_size
  have hsum : transitiveInfluence config store id =
      contributions (dependents config store) (multiplier config)
        (expansions (dependents config store) config.maxInfluenceDepth.toNat id) :=
    influence_eq_contributions config.maxInfluenceDepth.toNat id
  have hexpanded : (expansions (dependents config store) config.maxInfluenceDepth.toNat id).map
      Prod.fst = (influenceFrom (dependents config store) (multiplier config)
        (config.maxInfluenceDepth.toNat + 1) 0 id []).2.reverse :=
    map_fst_expansions config.maxInfluenceDepth.toNat id
  have hhead : (expansions (dependents config store) config.maxInfluenceDepth.toNat id).head? =
      some (id, 0) := head?_expansions config.maxInfluenceDepth.toNat id
  generalize expansions (dependents config store) config.maxInfluenceDepth.toNat id = trace
    at hgood hsum hexpanded hhead ⊢
  have hdepth : ∀ expansion ∈ trace, expansion.2 < config.depthCeiling.toNat := by
    intro expansion hmem
    exact (hgood.depth_le expansion hmem).trans_lt hceiling
  have hstatements := hsum.trans (contributions_eq_sum store hgood.nodup hdepth)
  have hcounted := countedWeight_mem_Icc hvalid store hdepth
  constructor
  · exact hexpanded
  · exact hhead
  · exact hgood.nodup
  · exact hgood.depth_le
  · exact hgood.leads
  · intro expansion hmem
    have hlt := hdepth expansion hmem
    exact ⟨hlt, by omega⟩
  · rw [hsum, contributions]
    congr 1
    apply List.map_congr_left
    intro expansion hmem
    exact contribution_eq (hdepth expansion hmem) store expansion.1
  · exact hstatements
  · rw [hstatements]
    exact hcounted.1
  · rw [hstatements]
    exact hcounted.2

/-- Only citations count, in exact numbers. -/
def citationsExactly : WeightConfig ℚ where
  weight
    | .cites => some 1
    | _ => none
  baseScore _ := none
  maxInfluenceDepth := 4
  depthCeiling := 5
  inboundFactor := 3 / 2
  influenceFactor := 1 / 5
  ratioFactor := 5
  reachDivisor := 10

/-- A citation of itself and a circle of citations, the last of them made twice. -/
def citationCircle : List Statement :=
  [⟨⟨"A"⟩, .cites, ⟨"B"⟩⟩, ⟨⟨"B"⟩, .cites, ⟨"C"⟩⟩, ⟨⟨"C"⟩, .cites, ⟨"A"⟩⟩,
    ⟨⟨"C"⟩, .cites, ⟨"A"⟩⟩, ⟨⟨"A"⟩, .cites, ⟨"A"⟩⟩]

/-- Each element of the circle is expanded once, so each of the five citations
is counted once. -/
theorem influence_citationCircle :
    let store := Store.ofList citationCircle
    let trace := expansions (dependents citationsExactly store) 4 ⟨"A"⟩
    citationsExactly.IsValid ∧ trace = [(⟨"A"⟩, 0), (⟨"C"⟩, 1), (⟨"B"⟩, 2)] ∧
      InfluenceAccount citationsExactly store ⟨"A"⟩ trace ∧
      transitiveInfluence citationsExactly store ⟨"A"⟩ = 3 * 5 + 1 * 4 + 1 * 3 := by
  intro store trace
  have hproblems : citationsExactly.problems.isEmpty = true := by decide +kernel
  have hvalid : citationsExactly.IsValid := List.isEmpty_iff.mp hproblems
  have htrace : trace = [(⟨"A"⟩, 0), (⟨"C"⟩, 1), (⟨"B"⟩, 2)] := by
    simp only [trace, store, dependents_ofList]
    decide +kernel
  have haccount : InfluenceAccount citationsExactly store ⟨"A"⟩ trace :=
    transitiveInfluence_account citationsExactly hvalid store ⟨"A"⟩
  have hinfluence : transitiveInfluence citationsExactly store ⟨"A"⟩ = 3 * 5 + 1 * 4 + 1 * 3 := by
    simp only [transitiveInfluence, store, dependents_ofList]
    decide +kernel
  exact ⟨hvalid, htrace, haccount, hinfluence⟩

end Treatise.Weights
