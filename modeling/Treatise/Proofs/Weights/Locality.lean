import Treatise.Proofs.Weights.Influence

/-!
# Statements that do not matter for an element

An analysis looks at weighted statements only, the influence of an element at
those whose object leads to it, and its depth at those whose subject it leads
to.  Both searches carry along what they have seen, but what they see is fixed
by the statements that they come to.  So a statement that they never come to
may be added anywhere.
-/

namespace Treatise.Weights

/-- The other store has one statement more, which may stand anywhere. -/
def Gains (statement : Statement) (store other : Store) : Prop :=
  ∃ before after, store.toList = before ++ after ∧
    other.toList = before ++ statement :: after

theorem gains_insert (statement : Statement) (store : Store) :
    Gains statement store (store.insert statement) :=
  ⟨store.toList, [], by simp, by simp⟩

section Gains

variable {statement : Statement} {store other : Store}

theorem Gains.perm (hgains : Gains statement store other) :
    other.toList.Perm (statement :: store.toList) := by
  rcases hgains with ⟨before, after, hstore, hother⟩
  rw [hstore, hother]
  exact List.perm_middle

theorem Gains.mem_iff (hgains : Gains statement store other) {found : Statement} :
    found ∈ other.toList ↔ found = statement ∨ found ∈ store.toList := by
  rw [hgains.perm.mem_iff, List.mem_cons]

theorem Gains.matching_eq (hgains : Gains statement store other) {pattern : Pattern}
    (hrefused : pattern.accepts statement = false) :
    other.matching pattern = store.matching pattern := by
  rcases hgains with ⟨before, after, hstore, hother⟩
  rw [Store.matching_eq, Store.matching_eq, hstore, hother]
  simp [hrefused]

end Gains

/-! ## What a traversal comes to -/

section Traversal

variable {κ α : Type} [DecidableEq κ] [Scalar α]

/-- Two traversals go the same way if dependents are the same for all elements
that lead to the start within the levels that are followed. -/
theorem influenceFrom_congr {dependents others : κ → List (κ × α)} {multiplier : ℕ → α}
    {step : κ → κ → Prop} {start : κ} {maxDepth : ℕ}
    (hstep : ∀ element, ∀ dependent ∈ dependents element, step dependent.1 element)
    (hsame : ∀ length ≤ maxDepth, ∀ element, LeadsIn step start length element →
      others element = dependents element)
    {levels depth : ℕ} {element : κ} (expanded : List κ)
    (hlevels : levels + depth = maxDepth + 1) (hleads : LeadsIn step start depth element) :
    influenceFrom others multiplier levels depth element expanded =
      influenceFrom dependents multiplier levels depth element expanded := by
  induction levels generalizing depth element expanded with
  | zero => rfl
  | succ levels ih =>
      have hhere : others element = dependents element :=
        hsame depth (by omega) element hleads
      rw [influenceFrom, influenceFrom, hhere]
      congr 1
      apply List.foldl_ext
      rintro ⟨sum, expanded⟩ ⟨dependent, weight⟩ hdependent
      have hbelow := ih expanded (by omega) (.step (hstep element _ hdependent) hleads)
      simp only [hbelow]

end Traversal

/-! ## What a walk comes to -/

section Walk

variable {κ : Type} {step other : κ → κ → Prop} {start : κ}

theorem IsWalk.transfer {length : ℕ} {vertices : List κ}
    (hsteps : ∀ x y, Relation.ReflTransGen step start x → step x y → other x y)
    (hwalk : IsWalk step start length vertices) : IsWalk other start length vertices where
  head := hwalk.head
  distinct := hwalk.distinct
  length_eq := hwalk.length_eq
  steps := by
    obtain ⟨rest, rfl⟩ := List.head?_eq_some_iff.mp hwalk.head
    have hchain := hwalk.steps
    clear hwalk
    induction rest generalizing start with
    | nil => exact .singleton start
    | cons next rest ih =>
        obtain ⟨hfirst, hrest⟩ := List.isChain_cons_cons.mp hchain
        have hnext : (next :: rest).IsChain other := by
          apply ih _ hrest
          intro x y hreach
          exact hsteps x y (.head hfirst hreach)
        exact List.isChain_cons_cons.mpr ⟨hsteps start next .refl hfirst, hnext⟩

theorem reflTransGen_of_same
    (hsame : ∀ x y, Relation.ReflTransGen step start x → (other x y ↔ step x y)) {x : κ}
    (hreach : Relation.ReflTransGen other start x) : Relation.ReflTransGen step start x := by
  induction hreach with
  | refl => exact .refl
  | tail _ hlast ih => exact ih.tail ((hsame _ _ ih).mp hlast)

theorem isWalk_iff_of_same
    (hsame : ∀ x y, Relation.ReflTransGen step start x → (other x y ↔ step x y)) {length : ℕ}
    {vertices : List κ} :
    IsWalk other start length vertices ↔ IsWalk step start length vertices := by
  constructor
  · apply IsWalk.transfer
    intro x y hreach
    exact (hsame x y (reflTransGen_of_same hsame hreach)).mp
  · apply IsWalk.transfer
    intro x y hreach
    exact (hsame x y hreach).mpr

end Walk

/-! ## The searches of an analysis -/

section Store

variable {α : Type} {config : WeightConfig α} {statement : Statement} {store other : Store}
  {id : ElementId}

theorem depthOf_eq_of_same
    (hsame : ∀ x y, Relation.ReflTransGen (WeightedStep config store) id x →
      (WeightedStep config other x y ↔ WeightedStep config store x y)) :
    depthOf config other id = depthOf config store id := by
  apply depthOf_eq_of_walkLengths_eq
  simp only [walkLengths, isWalk_iff_of_same hsame]

theorem Gains.weightedStep_iff (hgains : Gains statement store other) {x y : ElementId} :
    WeightedStep config other x y ↔
      WeightedStep config store x y ∨
        ((config.weight statement.predicate).isSome ∧ x = statement.subject ∧
          y = statement.object) := by
  simp only [WeightedStep, hgains.mem_iff]
  constructor
  · rintro ⟨predicate, hweighted, rfl | hold⟩
    · exact .inr ⟨hweighted, rfl, rfl⟩
    · exact .inl ⟨predicate, hweighted, hold⟩
  · rintro (⟨predicate, hweighted, hold⟩ | ⟨hweighted, rfl, rfl⟩)
    · exact ⟨predicate, hweighted, .inr hold⟩
    · exact ⟨statement.predicate, hweighted, .inl rfl⟩

theorem Gains.depthOf_eq_of_unweighted (hgains : Gains statement store other)
    (hweight : config.weight statement.predicate = none) (id : ElementId) :
    depthOf config other id = depthOf config store id := by
  apply depthOf_eq_of_same
  intro x y _
  rw [hgains.weightedStep_iff, hweight]
  simp

theorem Gains.depthOf_eq_of_unreached (hgains : Gains statement store other)
    (hunreached : ¬ Relation.ReflTransGen (WeightedStep config store) id statement.subject) :
    depthOf config other id = depthOf config store id := by
  apply depthOf_eq_of_same
  intro x y hreach
  have hne : x ≠ statement.subject := by
    rintro rfl
    exact hunreached hreach
  rw [hgains.weightedStep_iff]
  simp [hne]

theorem Gains.dependents_eq_of_unweighted (hgains : Gains statement store other)
    (hweight : config.weight statement.predicate = none) :
    dependents config other = dependents config store := by
  funext id
  apply List.flatMap_congr
  rintro ⟨predicate, weight⟩ hmem
  have hpredicate : predicate ≠ statement.predicate := by
    rintro rfl
    simp [WeightConfig.mem_weighted_iff.mp hmem] at hweight
  have hrefused : (Pattern.arriving predicate id).accepts statement = false := by
    simp [Pattern.accepts, Pattern.arriving, hpredicate]
  simp only [hgains.matching_eq hrefused]

theorem Gains.dependents_eq_of_ne (hgains : Gains statement store other)
    (hne : id ≠ statement.object) :
    dependents config other id = dependents config store id := by
  apply List.flatMap_congr
  rintro ⟨predicate, weight⟩ -
  have hrefused : (Pattern.arriving predicate id).accepts statement = false := by
    simp [Pattern.accepts, Pattern.arriving, hne]
  simp only [hgains.matching_eq hrefused]

variable [Scalar α]

/-- The influence of an element sums statements whose object leads to it within
the levels that are followed. -/
theorem Gains.transitiveInfluence_eq_of_unreached (hgains : Gains statement store other)
    (hunreached : ∀ length ≤ config.maxInfluenceDepth.toNat,
      ¬ LeadsIn (WeightedStep config store) id length statement.object) :
    transitiveInfluence config other id = transitiveInfluence config store id := by
  have hsame : ∀ length ≤ config.maxInfluenceDepth.toNat, ∀ element,
      LeadsIn (WeightedStep config store) id length element →
        dependents config other element = dependents config store element := by
    intro length hlength element hleads
    apply hgains.dependents_eq_of_ne
    rintro rfl
    exact hunreached length hlength hleads
  have htraversals : influenceFrom (dependents config other) (multiplier config)
        (config.maxInfluenceDepth.toNat + 1) 0 id [] =
      influenceFrom (dependents config store) (multiplier config)
        (config.maxInfluenceDepth.toNat + 1) 0 id [] :=
    influenceFrom_congr (weightedStep_of_mem_dependents config store) hsame []
      (Nat.add_zero _) .here
  exact congrArg Prod.fst htraversals

theorem Gains.contribution?_eq_of_unweighted (hgains : Gains statement store other)
    (hweight : config.weight statement.predicate = none) (id : ElementId)
    (predicate : Predicate) (direction : Direction) :
    contribution? config other id predicate direction =
      contribution? config store id predicate direction := by
  by_cases hpredicate : predicate = statement.predicate
  · subst hpredicate
    simp only [contribution?, hweight]
  · have hrefused : (direction.pattern id predicate).accepts statement = false := by
      cases direction <;>
        simp [Direction.pattern, Pattern.accepts, Pattern.leaving, Pattern.arriving, hpredicate]
    unfold contribution?
    rw [hgains.matching_eq hrefused]

theorem Gains.breakdown_eq_of_unweighted (hgains : Gains statement store other)
    (hweight : config.weight statement.predicate = none) (id : ElementId) :
    breakdown config other id = breakdown config store id := by
  simp only [breakdown, hgains.contribution?_eq_of_unweighted hweight]

/-- A statement without weight changes nothing in an analysis.  A weighted one
leaves the influence of an element as it was unless its object leads to the
element within the levels that are followed, and the depth unless the element
leads to its subject. -/
theorem analyze_eq_of_irrelevant (config : WeightConfig α) (catalog : Catalog)
    {statement : Statement} {store other : Store} (hgains : Gains statement store other)
    (id : ElementId) :
    let analysis := analyze config catalog store id
    let extended := analyze config catalog other id
    (config.weight statement.predicate = none → extended = analysis) ∧
      ((∀ length ≤ config.maxInfluenceDepth.toNat,
          ¬ LeadsIn (WeightedStep config store) id length statement.object) →
        extended.transitiveInfluence = analysis.transitiveInfluence) ∧
      (¬ Relation.ReflTransGen (WeightedStep config store) id statement.subject →
        extended.dependencyDepth = analysis.dependencyDepth) := by
  intro analysis extended
  refine ⟨?_, ?_, ?_⟩
  · intro hweight
    have hbreakdown := hgains.breakdown_eq_of_unweighted hweight id
    have hdependents := hgains.dependents_eq_of_unweighted hweight
    have hdepth := hgains.depthOf_eq_of_unweighted hweight id
    simp only [analysis, extended, analyze, transitiveInfluence, hbreakdown, hdependents, hdepth]
  · intro hunreached
    exact hgains.transitiveInfluence_eq_of_unreached hunreached
  · intro hunreached
    exact hgains.depthOf_eq_of_unreached hunreached

end Store

/-! ## A citation too far away -/

/-- Only citations count, and influence is followed for one level. -/
def nearCitations : WeightConfig Float :=
  { WeightConfig.citationsOnly with maxInfluenceDepth := 1, depthCeiling := 2 }

/-- Citations that lead to `A` in one and in two steps, and one that leads away. -/
def citationPath : List Statement :=
  [⟨⟨"A"⟩, .cites, ⟨"F"⟩⟩, ⟨⟨"B"⟩, .cites, ⟨"A"⟩⟩, ⟨⟨"C"⟩, .cites, ⟨"B"⟩⟩]

theorem of_weightedStep_citationPath {x y : ElementId}
    (hstep : WeightedStep nearCitations (Store.ofList citationPath) x y) :
    x = ⟨"A"⟩ ∧ y = ⟨"F"⟩ ∨ x = ⟨"B"⟩ ∧ y = ⟨"A"⟩ ∨ x = ⟨"C"⟩ ∧ y = ⟨"B"⟩ := by
  rcases hstep with ⟨predicate, -, hmem⟩
  simp only [Store.toList_ofList, citationPath, List.mem_cons, List.not_mem_nil, or_false,
    Statement.mk.injEq] at hmem
  tauto

/-- The citation of `C` is one step too far away to count for `A`, and its
subject is not among what `A` rests on. -/
theorem analyze_citationPath :
    let store := Store.ofList citationPath
    let analysis := analyze nearCitations .empty store ⟨"A"⟩
    let cited := Store.ofList (⟨⟨"D"⟩, .cites, ⟨"C"⟩⟩ :: citationPath)
    let placed := Store.ofList (citationPath ++ [⟨⟨"A"⟩, .partOf, ⟨"A"⟩⟩])
    (∀ length ≤ 1, ¬ LeadsIn (WeightedStep nearCitations store) ⟨"A"⟩ length ⟨"C"⟩) ∧
      ¬ Relation.ReflTransGen (WeightedStep nearCitations store) ⟨"A"⟩ ⟨"D"⟩ ∧
      (analyze nearCitations .empty cited ⟨"A"⟩).transitiveInfluence =
        analysis.transitiveInfluence ∧
      (analyze nearCitations .empty cited ⟨"A"⟩).dependencyDepth = analysis.dependencyDepth ∧
      analyze nearCitations .empty placed ⟨"A"⟩ = analysis := by
  intro store analysis cited placed
  have hcited : Gains ⟨⟨"D"⟩, .cites, ⟨"C"⟩⟩ store cited :=
    ⟨[], citationPath, by simp [store], by simp [cited]⟩
  have hplaced : Gains ⟨⟨"A"⟩, .partOf, ⟨"A"⟩⟩ store placed :=
    ⟨citationPath, [], by simp [store], by simp [placed]⟩
  have hfar : ∀ length ≤ 1,
      ¬ LeadsIn (WeightedStep nearCitations store) ⟨"A"⟩ length ⟨"C"⟩ := by
    intro length hlength hleads
    generalize hid : (⟨"C"⟩ : ElementId) = id at hleads
    cases hleads with
    | here => simp at hid
    | step hstep hrest =>
        cases hrest with
        | here =>
            subst hid
            simpa using of_weightedStep_citationPath hstep
        | step => omega
  have hunreached : ∀ id, Relation.ReflTransGen (WeightedStep nearCitations store) ⟨"A"⟩ id →
      id = ⟨"A"⟩ ∨ id = ⟨"F"⟩ := by
    intro id hreach
    induction hreach with
    | refl => exact .inl rfl
    | tail _ hstep ih =>
        rcases of_weightedStep_citationPath hstep with ⟨-, rfl⟩ | ⟨rfl, rfl⟩ | ⟨rfl, rfl⟩
        · exact .inr rfl
        · exact .inl rfl
        · simp at ih
  have hapart : ¬ Relation.ReflTransGen (WeightedStep nearCitations store) ⟨"A"⟩ ⟨"D"⟩ := by
    intro hreach
    simpa using hunreached _ hreach
  obtain ⟨-, hinfluence, hdepth⟩ := analyze_eq_of_irrelevant nearCitations .empty hcited ⟨"A"⟩
  obtain ⟨hwhole, -, -⟩ := analyze_eq_of_irrelevant nearCitations .empty hplaced ⟨"A"⟩
  exact ⟨hfar, hapart, hinfluence hfar, hdepth hapart, hwhole rfl⟩

end Treatise.Weights
