import Treatise.Proofs.Report.Counts
import Treatise.Proofs.Store.Lookup
import Treatise.Proofs.Weights.Locality
import Treatise.Proofs.Weights.Reordering
import Treatise.Proofs.Weights.Score

/-!
# A fresh dependent

An element that no statement mentions is the end of every traversal that comes
to it, because nothing leads to it.  A traversal that meets such an element on
its way is therefore the traversal without it, up to that one expansion.  So a
statement from a fresh element adds what it contributes itself, and it takes
nothing away from any other statement.
-/

namespace Treatise.Weights

/-! ## Traversals that meet a leaf -/

section Leaf

variable {κ : Type} [DecidableEq κ] {dependents others : κ → List (κ × ℚ)} {leaf : κ}

/-- The expansions of other elements. -/
def without (leaf : κ) (expanded : List (κ × ℕ)) : List (κ × ℕ) :=
  expanded.filter (·.1 ≠ leaf)

theorem without_cons_self (depth : ℕ) (expanded : List (κ × ℕ)) :
    without leaf ((leaf, depth) :: expanded) = without leaf expanded := by
  simp [without]

theorem without_cons_of_ne {element : κ} (hne : element ≠ leaf) (depth : ℕ)
    (expanded : List (κ × ℕ)) :
    without leaf ((element, depth) :: expanded) = (element, depth) :: without leaf expanded := by
  simp [without, hne]

theorem mem_map_fst_without_iff {element : κ} (hne : element ≠ leaf)
    {expanded : List (κ × ℕ)} :
    element ∈ (without leaf expanded).map Prod.fst ↔ element ∈ expanded.map Prod.fst := by
  simp [without, hne]

theorem without_expandFrom_leaf (hleaf : dependents leaf = []) (levels depth : ℕ)
    (expanded : List (κ × ℕ)) :
    without leaf (expandFrom dependents levels depth leaf expanded) =
      without leaf expanded := by
  cases levels with
  | zero => rfl
  | succ levels =>
      by_cases hmem : leaf ∈ expanded.map Prod.fst
      · rw [expandFrom_of_mem hmem]
      · rw [expandFrom_of_fresh hmem, hleaf, List.foldl_nil, without_cons_self]

theorem without_foldl (hleaf : dependents leaf = []) {levels depth : ℕ}
    (hbelow : ∀ element, element ≠ leaf → ∀ before,
      without leaf (expandFrom dependents levels depth element before) =
        expandFrom others levels depth element (without leaf before))
    (followed : List (κ × ℚ)) (before : List (κ × ℕ)) :
    without leaf (followed.foldl
      (fun expanded dependent => expandFrom dependents levels depth dependent.1 expanded)
      before) =
      (followed.filter (·.1 ≠ leaf)).foldl
        (fun expanded dependent => expandFrom others levels depth dependent.1 expanded)
        (without leaf before) := by
  induction followed generalizing before with
  | nil => rfl
  | cons dependent followed ih =>
      rw [List.foldl_cons, ih]
      by_cases hdependent : dependent.1 = leaf
      · rw [List.filter_cons_of_neg (by simpa using hdependent), hdependent,
          without_expandFrom_leaf hleaf]
      · rw [List.filter_cons_of_pos (by simpa using hdependent), List.foldl_cons,
          hbelow _ hdependent]

/-- A traversal goes its way past a leaf: its other expansions are those of the
traversal that does not know the leaf. -/
theorem without_expandFrom (hleaf : dependents leaf = [])
    (hothers : ∀ element, others element = (dependents element).filter (·.1 ≠ leaf))
    (levels depth : ℕ) {element : κ} (hne : element ≠ leaf) (expanded : List (κ × ℕ)) :
    without leaf (expandFrom dependents levels depth element expanded) =
      expandFrom others levels depth element (without leaf expanded) := by
  -- One traversal may have expanded the leaf before, so they are compared without it throughout.
  induction levels generalizing depth element expanded with
  | zero => rfl
  | succ levels ih =>
      by_cases hmem : element ∈ expanded.map Prod.fst
      · have hmemWithout := (mem_map_fst_without_iff hne).mpr hmem
        rw [expandFrom_of_mem hmem, expandFrom_of_mem hmemWithout]
      · have hfreshWithout := (mem_map_fst_without_iff hne).not.mpr hmem
        have hbelow : ∀ below, below ≠ leaf → ∀ before,
            without leaf (expandFrom dependents levels (depth + 1) below before) =
              expandFrom others levels (depth + 1) below (without leaf before) := by
          intro below hbelowNe before
          exact ih (depth + 1) hbelowNe before
        rw [expandFrom_of_fresh hmem, expandFrom_of_fresh hfreshWithout,
          without_foldl hleaf hbelow, without_cons_of_ne hne, hothers element]

theorem without_expansions (hleaf : dependents leaf = [])
    (hothers : ∀ element, others element = (dependents element).filter (·.1 ≠ leaf))
    (maxDepth : ℕ) {start : κ} (hne : start ≠ leaf) :
    without leaf (expansions dependents maxDepth start) = expansions others maxDepth start := by
  have htraversal := without_expandFrom hleaf hothers (maxDepth + 1) 0 hne []
  have hnone : without leaf ([] : List (κ × ℕ)) = [] := rfl
  rw [hnone] at htraversal
  rw [expansions, expansions, ← htraversal, without, without, List.filter_reverse]

end Leaf

theorem countAt_without {config : WeightConfig ℚ} {leaf id : ElementId} (hne : id ≠ leaf)
    (trace : List (ElementId × ℕ)) :
    countAt config (without leaf trace) id = countAt config trace id := by
  induction trace with
  | nil => rfl
  | cons expansion later ih =>
      obtain ⟨element, depth⟩ := expansion
      by_cases hleaf : element = leaf
      · subst hleaf
        rw [without_cons_self, countAt_cons_of_ne hne, ih]
      · rw [without_cons_of_ne hleaf]
        by_cases hhere : id = element
        · subst hhere
          rw [countAt_cons_self, countAt_cons_self]
        · rw [countAt_cons_of_ne hhere, countAt_cons_of_ne hhere, ih]

/-! ## Direct weights as sums -/

/-- What a predicate contributes on a side weighs as much as the statements
with that end, and these weigh nothing if the predicate does not count. -/
theorem sum_contribution? (config : WeightConfig ℚ) (store : Store) (id : ElementId)
    (predicate : Predicate) (direction : Direction) :
    ((contribution? config store id predicate direction).map (·.weight)).toList.sum =
      ((store.matching (direction.pattern id predicate)).map (weightOf config)).sum := by
  have hweights : (store.matching (direction.pattern id predicate)).map (weightOf config) =
      List.replicate (store.matching (direction.pattern id predicate)).length
        ((config.weight predicate).getD 0) := by
    apply List.eq_replicate_iff.mpr
    refine ⟨List.length_map _, ?_⟩
    intro weight hmem
    obtain ⟨statement, hstatement, rfl⟩ := List.mem_map.mp hmem
    have haccepts := (Store.mem_matching_iff.mp hstatement).2
    rw [weightOf, (Direction.accepts_pattern_iff.mp haccepts).1]
  rw [hweights, List.sum_replicate, nsmul_eq_mul]
  unfold contribution?
  cases config.weight predicate with
  | none => simp
  | some weight =>
      cases store.matching (direction.pattern id predicate) with
      | nil => simp
      | cons first others =>
          have hcount : Scalar.ofNat (first :: others).length =
              (((first :: others).length : ℕ) : ℚ) := rfl
          simp only [hcount, Option.map_some, Option.toList_some, List.sum_singleton,
            Option.getD_some]

theorem filter_direction_breakdown {α : Type} [Scalar α] (config : WeightConfig α)
    (store : Store) (id : ElementId) (direction : Direction) :
    (breakdown config store id).filter (·.direction == direction) =
      Predicate.all.flatMap fun predicate =>
        (contribution? config store id predicate direction).toList := by
  have hside : ∀ predicate side,
      (contribution? config store id predicate side).toList.filter (·.direction == direction) =
        if side = direction then (contribution? config store id predicate side).toList
        else [] := by
    intro predicate side
    cases hentry : contribution? config store id predicate side with
    | none => simp
    | some entry =>
        obtain ⟨-, rfl⟩ := contribution?_key hentry
        by_cases hsame : entry.direction = direction <;> simp [hsame]
  rw [breakdown, List.filter_flatMap]
  apply List.flatMap_congr
  intro predicate _
  rw [List.filterMap_eq_flatMap_toList, List.filter_flatMap]
  simp only [hside, Direction.all]
  cases direction <;> simp

theorem directionalWeight_eq_sum (config : WeightConfig ℚ) (store : Store) (id : ElementId)
    (direction : Direction) :
    directionalWeight (breakdown config store id) direction =
      ((store.toList.filter (direction.nearEnd · == id)).map (weightOf config)).sum := by
  have hstatements := ((Store.perm_flatMap_pattern store direction id).map
    (weightOf config)).sum_eq
  rw [directionalWeight, filter_direction_breakdown, ← List.sum_eq_foldl, ← hstatements,
    List.map_flatMap, List.map_flatMap, List.flatMap_def, List.flatMap_def, List.sum_flatten,
    List.sum_flatten, List.map_map, List.map_map]
  congr 1
  apply List.map_congr_left
  intro predicate _
  simp only [Function.comp_apply, Option.toList_map, ← sum_contribution?]

theorem directionalWeight_nonneg {config : WeightConfig ℚ} (hvalid : config.IsValid)
    (store : Store) (id : ElementId) (direction : Direction) :
    0 ≤ directionalWeight (breakdown config store id) direction := by
  rw [directionalWeight_eq_sum]
  apply List.sum_nonneg
  intro weight hmem
  obtain ⟨statement, -, rfl⟩ := List.mem_map.mp hmem
  exact weightOf_nonneg hvalid statement

/-! ## One statement more -/

section Gains

variable {config : WeightConfig ℚ} {statement : Statement} {store other : Store} {id : ElementId}

theorem Gains.directionalWeight_eq (hgains : Gains statement store other)
    (direction : Direction) :
    directionalWeight (breakdown config other id) direction =
      directionalWeight (breakdown config store id) direction +
        if direction.nearEnd statement = id then weightOf config statement else 0 := by
  have hsum := ((hgains.perm.filter (direction.nearEnd · == id)).map (weightOf config)).sum_eq
  rw [directionalWeight_eq_sum, directionalWeight_eq_sum, hsum]
  by_cases hnear : direction.nearEnd statement = id
  · simp [hnear, add_comm]
  · simp [hnear]

theorem Gains.filter_subject_eq (hgains : Gains statement store other)
    (hfresh : statement.subject ∉ Store.mentionedIn store.toList) :
    other.toList.filter (·.subject ≠ statement.subject) = store.toList := by
  have hkept : ∀ found ∈ store.toList, decide (found.subject ≠ statement.subject) = true := by
    intro found hmem
    apply decide_eq_true
    intro hsame
    exact hfresh (hsame ▸ Store.subject_mentionedIn hmem)
  rcases hgains with ⟨before, after, hstore, hother⟩
  rw [hstore] at hkept
  rw [hstore, hother, List.filter_append, List.filter_cons_of_neg (by simp),
    ← List.filter_append]
  exact List.filter_eq_self.mpr hkept

theorem Gains.dependents_eq_filter (hgains : Gains statement store other)
    (hfresh : statement.subject ∉ Store.mentionedIn store.toList) (element : ElementId) :
    dependents config store element =
      (dependents config other element).filter (·.1 ≠ statement.subject) := by
  have hmatching : ∀ pattern : Pattern, store.matching pattern =
      (other.matching pattern).filter (·.subject ≠ statement.subject) := by
    intro pattern
    rw [Store.matching_eq, Store.matching_eq, List.filter_comm, hgains.filter_subject_eq hfresh]
  simp only [dependents, hmatching, List.filter_flatMap, List.filter_map, Function.comp_def]

theorem Gains.dependents_fresh (hgains : Gains statement store other)
    (hfresh : statement.subject ∉ Store.mentionedIn store.toList)
    (hne : statement.subject ≠ statement.object) :
    dependents config other statement.subject = [] := by
  rw [hgains.dependents_eq_of_ne hne]
  apply List.eq_nil_iff_forall_not_mem.mpr
  intro dependent hmem
  obtain ⟨predicate, -, hstatement⟩ := weightedStep_of_mem_dependents config store _ _ hmem
  exact hfresh (Store.object_mentionedIn hstatement)

theorem Gains.without_reach (hgains : Gains statement store other)
    (hfresh : statement.subject ∉ Store.mentionedIn store.toList)
    (hne : statement.subject ≠ statement.object) (hid : id ≠ statement.subject) :
    without statement.subject (reach config other id) = reach config store id :=
  without_expansions (hgains.dependents_fresh hfresh hne) (hgains.dependents_eq_filter hfresh)
    config.maxInfluenceDepth.toNat hid

theorem countAt_reach_self (config : WeightConfig ℚ) (store : Store) (id : ElementId) :
    countAt config (reach config store id) id = config.depthCeiling.toNat := by
  have hhead : (reach config store id).head? = some (id, 0) :=
    head?_expansions config.maxInfluenceDepth.toNat id
  obtain ⟨later, hreach⟩ := List.head?_eq_some_iff.mp hhead
  rw [hreach, countAt_cons_self, Nat.cast_zero, sub_zero]

/-- A statement from a fresh element is counted at the start of the traversal,
and all others are counted as they were. -/
theorem Gains.transitiveInfluence_eq_of_fresh (hvalid : config.IsValid)
    (hgains : Gains statement store other)
    (hfresh : statement.subject ∉ Store.mentionedIn store.toList)
    (hne : statement.subject ≠ statement.object) :
    transitiveInfluence config other statement.object =
      transitiveInfluence config store statement.object +
        weightOf config statement * config.depthCeiling.toNat := by
  have hcount : ∀ found ∈ store.toList,
      countAt config (reach config other statement.object) found.object =
        countAt config (reach config store statement.object) found.object := by
    intro found hmem
    have hobject : found.object ≠ statement.subject := by
      intro hsame
      exact hfresh (hsame ▸ Store.object_mentionedIn hmem)
    rw [← hgains.without_reach hfresh hne hne.symm, countAt_without hobject]
  have hstatements := (hgains.perm.map fun found => weightOf config found *
    countAt config (reach config other statement.object) found.object).sum_eq
  have hothers : (store.toList.map fun found => weightOf config found *
      countAt config (reach config other statement.object) found.object).sum =
        transitiveInfluence config store statement.object := by
    rw [transitiveInfluence_eq_sum hvalid]
    congr 1
    apply List.map_congr_left
    intro found hmem
    rw [hcount found hmem]
  rw [transitiveInfluence_eq_sum hvalid, hstatements, List.map_cons, List.sum_cons, hothers,
    countAt_reach_self, add_comm]

theorem Gains.depthOf_eq_of_fresh (hgains : Gains statement store other)
    (hfresh : statement.subject ∉ Store.mentionedIn store.toList)
    (hid : id ≠ statement.subject) : depthOf config other id = depthOf config store id := by
  apply hgains.depthOf_eq_of_unreached
  intro hreach
  rcases hreach.cases_tail with hsame | ⟨_, -, predicate, -, hmem⟩
  · exact hid hsame.symm
  · exact hfresh (Store.object_mentionedIn hmem)

end Gains

/-- What a statement from a fresh element changes in the analysis of its object. -/
structure AddsContribution (config : WeightConfig ℚ) (weight : ℚ)
    (analysis extended : WeightAnalysis ℚ) : Prop where
  outboundWeight_eq : extended.outboundWeight = analysis.outboundWeight
  dependencyDepth_eq : extended.dependencyDepth = analysis.dependencyDepth
  inboundWeight_eq : extended.inboundWeight = analysis.inboundWeight + weight
  transitiveInfluence_eq : extended.transitiveInfluence =
    analysis.transitiveInfluence + weight * config.depthCeiling.toNat
  foundationalScore_le : analysis.foundationalScore ≤ extended.foundationalScore

/-- A weighted statement from an element that no statement mentions adds its
weight to what leads to its object, and as often as the ceiling says to the
influence of its object. -/
theorem analyze_addsContribution (config : WeightConfig ℚ) (hvalid : config.IsValid)
    (catalog : Catalog) {store other : Store} {fresh id : ElementId} {predicate : Predicate}
    {weight : ℚ} (hgains : Gains ⟨fresh, predicate, id⟩ store other)
    (hweight : config.weight predicate = some weight) (hne : fresh ≠ id)
    (hfresh : fresh ∉ Store.mentionedIn store.toList) :
    AddsContribution config weight (analyze config catalog store id)
      (analyze config catalog other id) := by
  have hweightOf : weightOf config ⟨fresh, predicate, id⟩ = weight := by
    simp [weightOf, hweight]
  have hnonneg : 0 ≤ weight := hvalid.weight_nonneg hweight
  have houtbound : directionalWeight (breakdown config other id) .outbound =
      directionalWeight (breakdown config store id) .outbound := by
    rw [hgains.directionalWeight_eq]
    simp [Direction.nearEnd, hne]
  have hinbound : directionalWeight (breakdown config other id) .inbound =
      directionalWeight (breakdown config store id) .inbound + weight := by
    rw [hgains.directionalWeight_eq, hweightOf]
    simp [Direction.nearEnd]
  have hinfluence : transitiveInfluence config other id =
      transitiveInfluence config store id + weight * config.depthCeiling.toNat := by
    have hadded := hgains.transitiveInfluence_eq_of_fresh hvalid hfresh hne
    rwa [hweightOf] at hadded
  constructor
  · exact houtbound
  · exact hgains.depthOf_eq_of_fresh hfresh hne.symm
  · exact hinbound
  · exact hinfluence
  · have hcounted : 0 ≤ weight * config.depthCeiling.toNat :=
      mul_nonneg hnonneg (Nat.cast_nonneg _)
    have hnonnegInbound := directionalWeight_nonneg hvalid store id .inbound
    have hnonnegOutbound := directionalWeight_nonneg hvalid store id .outbound
    simp only [analyze, houtbound, hinbound, hinfluence]
    apply foundationalScore_mono hvalid catalog id
    · linarith
    · exact le_rfl
    · linarith
    · linarith
    · exact hnonnegOutbound

/-- One more citation of an element that lies on a circle of citations and
cites itself. -/
theorem analyze_citationCircle_insert :
    let store := Store.ofList citationCircle
    let other := store.insert ⟨⟨"F"⟩, .cites, ⟨"A"⟩⟩
    citationsExactly.IsValid ∧ citationsExactly.weight .cites = some 1 ∧
      (⟨"F"⟩ : ElementId) ≠ ⟨"A"⟩ ∧ ⟨"F"⟩ ∉ Store.mentionedIn store.toList ∧
      AddsContribution citationsExactly 1 (analyze citationsExactly .empty store ⟨"A"⟩)
        (analyze citationsExactly .empty other ⟨"A"⟩) ∧
      (analyze citationsExactly .empty store ⟨"A"⟩).transitiveInfluence = 22 ∧
      (analyze citationsExactly .empty other ⟨"A"⟩).transitiveInfluence = 27 := by
  intro store other
  have hne : (⟨"F"⟩ : ElementId) ≠ ⟨"A"⟩ := by decide
  have hfresh : ⟨"F"⟩ ∉ Store.mentionedIn store.toList := by
    simp [store, Store.mentionedIn, citationCircle]
  have hinfluence : transitiveInfluence citationsExactly store ⟨"A"⟩ = 22 := by
    simp only [transitiveInfluence, store, dependents_ofList]
    decide +kernel
  have hadds : AddsContribution citationsExactly 1
      (analyze citationsExactly .empty store ⟨"A"⟩)
      (analyze citationsExactly .empty other ⟨"A"⟩) :=
    analyze_addsContribution citationsExactly isValid_citationsExactly .empty
      (gains_insert _ store) rfl hne hfresh
  have hceiling : citationsExactly.depthCeiling.toNat = 5 := rfl
  have hextended : (analyze citationsExactly .empty other ⟨"A"⟩).transitiveInfluence = 27 := by
    rw [hadds.transitiveInfluence_eq, hceiling]
    change transitiveInfluence citationsExactly store ⟨"A"⟩ + _ = _
    rw [hinfluence]
    norm_num
  exact ⟨isValid_citationsExactly, rfl, hne, hfresh, hadds, hinfluence, hextended⟩

end Treatise.Weights
