import Treatise.Proofs.Weights.Approach
import Treatise.Proofs.Weights.Influence

/-!
# Statements in another order

The direct weights and the depth of an element do not depend on the order of
the statements.  Its influence does: an element that several ways lead to is
expanded where the traversal first comes to it, and the order of the
statements decides which way is the first.  Nothing else does, so the
influence is the same as soon as the expansions are, and then so is the score.

This is so when the statements that count for an element at one predicate keep
their order, and when each element leads to the start on one level only.
-/

namespace Treatise.Weights

section AnyScalar

variable {α : Type} [Scalar α]

/-! ## Direct weights -/

theorem count_eq_of_perm {store other : Store} (hperm : other.toList.Perm store.toList)
    (pattern : Pattern) : other.count pattern = store.count pattern := by
  rw [Store.count, Store.count, Store.matching_eq, Store.matching_eq]
  exact (hperm.filter pattern.accepts).length_eq

/-- A side and what is contributed on it. -/
def BreakdownEntry.sided (entry : BreakdownEntry α) : Direction × α :=
  (entry.direction, entry.weight)

theorem map_sided_contribution? (config : WeightConfig α) (store : Store) (id : ElementId)
    (predicate : Predicate) (direction : Direction) :
    (contribution? config store id predicate direction).map BreakdownEntry.sided =
      (config.weight predicate).bind fun weight =>
        if store.count (direction.pattern id predicate) = 0 then none
        else some (direction,
          Scalar.ofNat (store.count (direction.pattern id predicate)) * weight) := by
  unfold contribution? Store.count
  cases config.weight predicate with
  | none => rfl
  | some weight =>
      cases store.matching (direction.pattern id predicate) with
      | nil => rfl
      | cons first others => rfl

theorem map_sided_breakdown_eq_of_perm (config : WeightConfig α) {store other : Store}
    (hperm : other.toList.Perm store.toList) (id : ElementId) :
    (breakdown config other id).map BreakdownEntry.sided =
      (breakdown config store id).map BreakdownEntry.sided := by
  simp only [breakdown, List.map_flatMap, List.map_filterMap, map_sided_contribution?,
    count_eq_of_perm hperm]

theorem directionalWeight_eq_of_perm (config : WeightConfig α) {store other : Store}
    (hperm : other.toList.Perm store.toList) (id : ElementId) (direction : Direction) :
    directionalWeight (breakdown config other id) direction =
      directionalWeight (breakdown config store id) direction := by
  have hsided : ∀ entries : List (BreakdownEntry α),
      (entries.filter (·.direction == direction)).map (·.weight) =
        ((entries.map BreakdownEntry.sided).filter (·.1 == direction)).map Prod.snd := by
    intro entries
    rw [List.filter_map, List.map_map]
    rfl
  rw [directionalWeight, directionalWeight, hsided, hsided,
    map_sided_breakdown_eq_of_perm config hperm]

omit [Scalar α] in
theorem depthOf_eq_of_perm (config : WeightConfig α) {store other : Store}
    (hperm : other.toList.Perm store.toList) (id : ElementId) :
    depthOf config other id = depthOf config store id :=
  depthOf_eq_of_walkLengths_eq (walkLengths_eq_of_perm config hperm id)

theorem analyze_foundationalScore_eq (config : WeightConfig α) (catalog : Catalog)
    {store other : Store} (hperm : other.toList.Perm store.toList) {id : ElementId}
    (hinfluence : transitiveInfluence config other id = transitiveInfluence config store id) :
    (analyze config catalog other id).foundationalScore =
      (analyze config catalog store id).foundationalScore := by
  have hinbound := directionalWeight_eq_of_perm config hperm id .inbound
  have houtbound := directionalWeight_eq_of_perm config hperm id .outbound
  simp only [analyze, hinbound, houtbound, hinfluence]

end AnyScalar

/-! ## Expansions -/

/-- The elements that the influence of an element comes from, each with the
depth at which the traversal first comes to it. -/
def reach (config : WeightConfig ℚ) (store : Store) (id : ElementId) : List (ElementId × ℕ) :=
  expansions (dependents config store) config.maxInfluenceDepth.toNat id

theorem weightedStep_iff_mem_dependents {α : Type} {config : WeightConfig α} {store : Store}
    {x y : ElementId} :
    WeightedStep config store x y ↔ x ∈ (dependents config store y).map Prod.fst := by
  constructor
  · rintro ⟨predicate, hweighted, hmem⟩
    rcases Option.isSome_iff_exists.mp hweighted with ⟨weight, hweight⟩
    apply List.mem_map.mpr
    refine ⟨(x, weight), ?_, rfl⟩
    rw [(dependents_perm config store y).mem_iff, List.mem_filterMap]
    exact ⟨⟨x, predicate, y⟩, by simp [hmem], by simp [hweight]⟩
  · intro hmem
    rcases List.mem_map.mp hmem with ⟨dependent, hdependent, rfl⟩
    exact weightedStep_of_mem_dependents config store y dependent hdependent

theorem nodup_reach (config : WeightConfig ℚ) (store : Store) (id : ElementId) :
    ((reach config store id).map Prod.fst).Nodup :=
  (expansionInvariant_expansions (weightedStep_of_mem_dependents config store)
    config.maxInfluenceDepth.toNat id).nodup

/-- The influence of an element counts each statement by where its object was reached. -/
theorem transitiveInfluence_eq_sum {config : WeightConfig ℚ} (hvalid : config.IsValid)
    (store : Store) (id : ElementId) :
    transitiveInfluence config store id =
      (store.toList.map fun statement =>
        weightOf config statement * countAt config (reach config store id)
          statement.object).sum := by
  have hgood := expansionInvariant_expansions (weightedStep_of_mem_dependents config store)
    config.maxInfluenceDepth.toNat id
  have hdepth : ∀ expansion ∈ reach config store id,
      expansion.2 < config.depthCeiling.toNat := by
    intro expansion hmem
    exact (hgood.depth_le expansion hmem).trans_lt hvalid.maxInfluenceDepth_lt
  have hcontributions : transitiveInfluence config store id =
      contributions (dependents config store) (multiplier config) (reach config store id) :=
    influence_eq_contributions config.maxInfluenceDepth.toNat id
  exact hcontributions.trans (contributions_eq_sum store hgood.nodup hdepth)

theorem lookup_eq_some_iff_mem {κ : Type} [DecidableEq κ] {trace : List (κ × ℕ)}
    (hnodup : (trace.map Prod.fst).Nodup) {element : κ} {depth : ℕ} :
    trace.lookup element = some depth ↔ (element, depth) ∈ trace := by
  induction trace with
  | nil => simp
  | cons expansion later ih =>
      rcases expansion with ⟨first, level⟩
      rcases List.nodup_cons.mp hnodup with ⟨hfresh, hlater⟩
      by_cases hsame : element = first
      · subst hsame
        have habsent : (element, depth) ∉ later := by
          intro hmem
          exact hfresh (List.mem_map.mpr ⟨_, hmem, rfl⟩)
        simp [habsent, eq_comm]
      · have hbeq : (element == first) = false := beq_eq_false_iff_ne.mpr hsame
        simp [List.lookup_cons, hbeq, hsame, ih hlater]

theorem countAt_eq_of_mem_iff (config : WeightConfig ℚ) {trace other : List (ElementId × ℕ)}
    (hnodup : (trace.map Prod.fst).Nodup) (hother : (other.map Prod.fst).Nodup)
    (hsame : ∀ expansion, expansion ∈ other ↔ expansion ∈ trace) (id : ElementId) :
    countAt config other id = countAt config trace id := by
  have hlookup : other.lookup id = trace.lookup id := by
    apply Option.ext
    intro depth
    rw [lookup_eq_some_iff_mem hother, lookup_eq_some_iff_mem hnodup]
    exact hsame (id, depth)
  rw [countAt, countAt, hlookup]

/-! ## Two orders -/

/-- The statements that end at an element with a weighted predicate stand in
the same order in both stores. -/
def SameArrivals (config : WeightConfig ℚ) (store other : Store) : Prop :=
  ∀ predicate id, (config.weight predicate).isSome →
    other.toList.filter (fun statement => statement.predicate = predicate ∧ statement.object = id) =
      store.toList.filter fun statement => statement.predicate = predicate ∧ statement.object = id

theorem dependents_eq_of_sameArrivals {config : WeightConfig ℚ} {store other : Store}
    (hsame : SameArrivals config store other) :
    dependents config other = dependents config store := by
  have hfilter : ∀ (any : Store) (predicate : Predicate) (id : ElementId),
      any.matching (.arriving predicate id) = any.toList.filter fun statement =>
        statement.predicate = predicate ∧ statement.object = id := by
    intro any predicate id
    rw [Store.matching_eq]
    apply List.filter_congr
    intro statement _
    rw [Bool.eq_iff_iff]
    simp [Pattern.accepts, Pattern.arriving, @eq_comm _ predicate, @eq_comm _ id]
  funext id
  unfold dependents
  apply List.flatMap_congr
  rintro ⟨predicate, weight⟩ hmem
  have hweighted : (config.weight predicate).isSome := by
    rw [WeightConfig.mem_weighted_iff.mp hmem]
    rfl
  simp only [hfilter, hsame predicate id hweighted]

theorem weightedStep_eq_of_perm {α : Type} (config : WeightConfig α) {store other : Store}
    (hperm : other.toList.Perm store.toList) :
    WeightedStep config other = WeightedStep config store := by
  funext x y
  simp only [WeightedStep, hperm.mem_iff]

structure SameScores (analysis reordered : WeightAnalysis ℚ) : Prop where
  transitiveInfluence_eq : reordered.transitiveInfluence = analysis.transitiveInfluence
  foundationalScore_eq : reordered.foundationalScore = analysis.foundationalScore

/-- What an analysis has in common for two orders of the statements, and when
the whole of it is the same. -/
structure AgreesWith (config : WeightConfig ℚ) (store other : Store) (id : ElementId)
    (analysis reordered : WeightAnalysis ℚ) : Prop where
  inboundWeight_eq : reordered.inboundWeight = analysis.inboundWeight
  outboundWeight_eq : reordered.outboundWeight = analysis.outboundWeight
  dependencyDepth_eq : reordered.dependencyDepth = analysis.dependencyDepth
  /-- The influence differs by what the statements are counted for more or less often. -/
  influence_sub : reordered.transitiveInfluence - analysis.transitiveInfluence =
    (store.toList.map fun statement => weightOf config statement *
      (countAt config (reach config other id) statement.object -
        countAt config (reach config store id) statement.object)).sum
  sameReach : (∀ expansion, expansion ∈ reach config other id ↔
    expansion ∈ reach config store id) → SameScores analysis reordered
  sameArrivals : SameArrivals config store other → SameScores analysis reordered
  oneLevel : HasOneLevel (WeightedStep config store) id config.maxInfluenceDepth.toNat →
    SameScores analysis reordered

theorem transitiveInfluence_sub {config : WeightConfig ℚ} (hvalid : config.IsValid)
    {store other : Store} (hperm : other.toList.Perm store.toList) (id : ElementId) :
    transitiveInfluence config other id - transitiveInfluence config store id =
      (store.toList.map fun statement => weightOf config statement *
        (countAt config (reach config other id) statement.object -
          countAt config (reach config store id) statement.object)).sum := by
  have hother := transitiveInfluence_eq_sum hvalid other id
  have hstore := transitiveInfluence_eq_sum hvalid store id
  have hreordered := (hperm.map fun statement => weightOf config statement *
    countAt config (reach config other id) statement.object).sum_eq
  rw [hother, hreordered, hstore, sub_eq_iff_eq_add, ← List.sum_map_add]
  congr 1
  apply List.map_congr_left
  intro statement _
  ring

theorem transitiveInfluence_eq_of_reach {config : WeightConfig ℚ} (hvalid : config.IsValid)
    {store other : Store} (hperm : other.toList.Perm store.toList) {id : ElementId}
    (hreach : ∀ expansion, expansion ∈ reach config other id ↔
      expansion ∈ reach config store id) :
    transitiveInfluence config other id = transitiveInfluence config store id := by
  have hsub := transitiveInfluence_sub hvalid hperm id
  have hcount := countAt_eq_of_mem_iff config (nodup_reach config store id)
    (nodup_reach config other id) hreach
  simp only [hcount, sub_self, mul_zero, List.map_const', List.sum_replicate, nsmul_zero] at hsub
  exact sub_eq_zero.mp hsub

theorem mem_reach_iff_of_oneLevel {config : WeightConfig ℚ} {store : Store} {id : ElementId}
    (hlevel : HasOneLevel (WeightedStep config store) id config.maxInfluenceDepth.toNat)
    {expansion : ElementId × ℕ} :
    expansion ∈ reach config store id ↔
      expansion.2 ≤ config.maxInfluenceDepth.toNat ∧
        ∃ rest, Approach (WeightedStep config store) id expansion.1 rest ∧
          rest.length = expansion.2 :=
  mem_expansions_iff_of_oneLevel (fun _ _ => weightedStep_iff_mem_dependents) hlevel

/-- The order of the statements matters for the influence and the score only,
and only through where the traversal first comes to an element. -/
theorem analyze_agrees_of_perm (config : WeightConfig ℚ) (hvalid : config.IsValid)
    (catalog : Catalog) (store other : Store) (hperm : other.toList.Perm store.toList)
    (id : ElementId) :
    AgreesWith config store other id (analyze config catalog store id)
      (analyze config catalog other id) := by
  have hagree : transitiveInfluence config other id = transitiveInfluence config store id →
      SameScores (analyze config catalog store id) (analyze config catalog other id) := by
    intro hinfluence
    exact ⟨hinfluence, analyze_foundationalScore_eq config catalog hperm hinfluence⟩
  constructor
  · exact directionalWeight_eq_of_perm config hperm id .inbound
  · exact directionalWeight_eq_of_perm config hperm id .outbound
  · exact depthOf_eq_of_perm config hperm id
  · exact transitiveInfluence_sub hvalid hperm id
  · intro hreach
    exact hagree (transitiveInfluence_eq_of_reach hvalid hperm hreach)
  · intro hsame
    have hdependents := dependents_eq_of_sameArrivals hsame
    apply hagree
    rw [transitiveInfluence, transitiveInfluence, hdependents]
  · intro hlevel
    have hsteps := weightedStep_eq_of_perm config hperm
    have hother : HasOneLevel (WeightedStep config other) id
        config.maxInfluenceDepth.toNat := by
      rw [hsteps]
      exact hlevel
    apply hagree
    apply transitiveInfluence_eq_of_reach hvalid hperm
    intro expansion
    rw [mem_reach_iff_of_oneLevel hlevel, mem_reach_iff_of_oneLevel hother, hsteps]

/-! ## A shortcut -/

theorem sameArrivals_swap (config : WeightConfig ℚ) {first second : Statement}
    (hapart : first.object ≠ second.object) (before after : List Statement) :
    SameArrivals config (Store.ofList (before ++ first :: second :: after))
      (Store.ofList (before ++ second :: first :: after)) := by
  intro predicate id _
  simp only [Store.toList_ofList, List.filter_append, List.filter_cons]
  congr 1
  by_cases hfirst : first.predicate = predicate ∧ first.object = id
  · have hsecond : ¬ (second.predicate = predicate ∧ second.object = id) := by
      intro hsecond
      exact hapart (hfirst.2.trans hsecond.2.symm)
    simp [hfirst, hsecond]
  · simp [hfirst]

/-- Two elements that cite a third one, and one of them the other. -/
def shortcut : List Statement :=
  [⟨⟨"B"⟩, .cites, ⟨"A"⟩⟩, ⟨⟨"C"⟩, .cites, ⟨"A"⟩⟩, ⟨⟨"C"⟩, .cites, ⟨"B"⟩⟩,
    ⟨⟨"D"⟩, .cites, ⟨"C"⟩⟩]

/-- The same with the way round before the direct one. -/
def shortcutLate : List Statement :=
  [⟨⟨"B"⟩, .cites, ⟨"A"⟩⟩, ⟨⟨"C"⟩, .cites, ⟨"B"⟩⟩, ⟨⟨"C"⟩, .cites, ⟨"A"⟩⟩,
    ⟨⟨"D"⟩, .cites, ⟨"C"⟩⟩]

/-- The same with the direct way to the third one first. -/
def shortcutFirst : List Statement :=
  [⟨⟨"C"⟩, .cites, ⟨"A"⟩⟩, ⟨⟨"B"⟩, .cites, ⟨"A"⟩⟩, ⟨⟨"C"⟩, .cites, ⟨"B"⟩⟩,
    ⟨⟨"D"⟩, .cites, ⟨"C"⟩⟩]

theorem isValid_citationsExactly : citationsExactly.IsValid := by
  have hproblems : citationsExactly.problems.isEmpty = true := by decide +kernel
  exact List.isEmpty_iff.mp hproblems

theorem influence_shortcut :
    transitiveInfluence citationsExactly (Store.ofList shortcut) ⟨"A"⟩ = 17 := by
  simp only [transitiveInfluence, dependents_ofList]
  decide +kernel

/-- The two citations of the same element keep their order. -/
theorem analyze_shortcutLate :
    let store := Store.ofList shortcut
    let other := Store.ofList shortcutLate
    citationsExactly.IsValid ∧ other.toList.Perm store.toList ∧
      AgreesWith citationsExactly store other ⟨"A"⟩ (analyze citationsExactly .empty store ⟨"A"⟩)
        (analyze citationsExactly .empty other ⟨"A"⟩) ∧
      (analyze citationsExactly .empty other ⟨"A"⟩).transitiveInfluence = 17 := by
  intro store other
  have hperm : other.toList.Perm store.toList := by
    simp only [store, other, Store.toList_ofList]
    decide
  have hsame : SameArrivals citationsExactly store other :=
    sameArrivals_swap citationsExactly (by decide) [⟨⟨"B"⟩, .cites, ⟨"A"⟩⟩]
      [⟨⟨"D"⟩, .cites, ⟨"C"⟩⟩]
  have hagree := analyze_agrees_of_perm citationsExactly isValid_citationsExactly .empty store
    other hperm ⟨"A"⟩
  have hinfluence := (hagree.sameArrivals hsame).transitiveInfluence_eq
  exact ⟨isValid_citationsExactly, hperm, hagree, hinfluence.trans influence_shortcut⟩

theorem baseScore_citationsExactly (catalog : Catalog) (id : ElementId) :
    baseScore citationsExactly catalog id = 0 := by
  have hnone : (catalog.categoryOf? id).bind citationsExactly.baseScore = none :=
    Option.bind_fun_none _
  rw [baseScore, hnone]
  rfl

theorem foundationalScore_citationsExactly (catalog : Catalog) (id : ElementId)
    {inbound influence : ℚ} (hpos : 0 ≤ 3 / 2 * inbound + influence / 5) :
    foundationalScore citationsExactly catalog id inbound 0 influence =
      3 / 2 * inbound + influence / 5 + 5 := by
  have hratio : supportRatio inbound (0 : ℚ) = 1 := rfl
  have hsum : (0 : ℚ) + inbound * (3 / 2) + influence * (1 / 5) + 1 * 5 =
      3 / 2 * inbound + influence / 5 + 5 := by
    ring
  have hbelow : Scalar.isBelow (0 : ℚ) (3 / 2 * inbound + influence / 5 + 5) = true := by
    apply decide_eq_true
    linarith
  unfold foundationalScore
  rw [baseScore_citationsExactly, hratio]
  change Scalar.atLeastZero ((0 : ℚ) + inbound * (3 / 2) + influence * (1 / 5) + 1 * 5) = _
  rw [hsum]
  exact if_pos hbelow

/-- The citation of the element that both ways lead to counts four times or
three times, by which of the ways comes first. -/
theorem influence_shortcut_depends_on_order :
    let store := Store.ofList shortcut
    let other := Store.ofList shortcutFirst
    citationsExactly.IsValid ∧ other.toList.Perm store.toList ∧
      (analyze citationsExactly .empty store ⟨"A"⟩).transitiveInfluence = 17 ∧
      (analyze citationsExactly .empty other ⟨"A"⟩).transitiveInfluence = 18 ∧
      (analyze citationsExactly .empty store ⟨"A"⟩).foundationalScore = 57 / 5 ∧
      (analyze citationsExactly .empty other ⟨"A"⟩).foundationalScore = 58 / 5 := by
  intro store other
  have hperm : other.toList.Perm store.toList := by
    simp only [store, other, Store.toList_ofList]
    decide
  have hother : transitiveInfluence citationsExactly other ⟨"A"⟩ = 18 := by
    simp only [transitiveInfluence, other, dependents_ofList]
    decide +kernel
  have hinbound : directionalWeight (breakdown citationsExactly store ⟨"A"⟩) .inbound = 2 := by
    simp only [breakdown, contribution?, store, Store.matching_eq, Store.toList_ofList]
    decide +kernel
  have houtbound : directionalWeight (breakdown citationsExactly store ⟨"A"⟩) .outbound = 0 := by
    simp only [breakdown, contribution?, store, Store.matching_eq, Store.toList_ofList]
    decide +kernel
  have hscore : (analyze citationsExactly .empty store ⟨"A"⟩).foundationalScore = 57 / 5 := by
    simp only [analyze, hinbound, houtbound, store, influence_shortcut]
    rw [foundationalScore_citationsExactly] <;> norm_num
  have hreordered : (analyze citationsExactly .empty other ⟨"A"⟩).foundationalScore = 58 / 5 := by
    simp only [analyze, directionalWeight_eq_of_perm citationsExactly hperm, hinbound, houtbound,
      hother]
    rw [foundationalScore_citationsExactly] <;> norm_num
  exact ⟨isValid_citationsExactly, hperm, influence_shortcut, hother, hscore, hreordered⟩

end Treatise.Weights
