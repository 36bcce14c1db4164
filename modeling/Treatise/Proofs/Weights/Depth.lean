import Mathlib.Data.List.Perm.Subperm
import Treatise.Grouping
import Treatise.Proofs.Store.Lookup
import Treatise.Proofs.Weights.Chain
import Treatise.Weights.Analysis

/-!
# The search for the longest chain

The search looks settled elements up without comparing paths.  This is sound
because an element is settled only when no cycle lies above it, and such an
element is independent of every path that leads to it.  The bound of the
search is never reached: a path has no repetition and its elements are nodes,
so it is shorter than the bound.

At the level of the store the depth of an element is the length of the longest
walk over weighted statements whose vertices but the last are distinct.
-/

namespace Treatise.Weights

section Search

variable {κ : Type} {supports : κ → List κ}

/-- The state of the path when an element is measured. -/
structure PathInvariant (supports : κ → List κ) (nodes : List κ) (bound : ℕ)
    (path : List κ) (element : κ) : Prop where
  nodup : path.Nodup
  subset : ∀ other ∈ path, other ∈ nodes
  enough : nodes.length < path.length + bound
  leads : ∀ other ∈ path, Relation.TransGen (RestsOn supports) other element

theorem PathInvariant.initial {nodes : List κ} {bound : ℕ} (element : κ)
    (hbound : nodes.length < bound) :
    PathInvariant supports nodes bound [] element := by
  constructor <;> simp [hbound]

theorem PathInvariant.bound_ne_zero {nodes : List κ} {bound : ℕ} {path : List κ}
    {element : κ} (hgood : PathInvariant supports nodes bound path element) :
    bound ≠ 0 := by
  have hlength := (hgood.nodup.subperm hgood.subset).length_le
  have henough := hgood.enough
  omega

theorem PathInvariant.afterStep {nodes : List κ} {bound : ℕ} {path : List κ}
    {element support : κ}
    (hgood : PathInvariant supports nodes (bound + 1) path element)
    (hnodes : ∀ element, ∀ support ∈ supports element, element ∈ nodes)
    (hfresh : element ∉ path) (hsupport : support ∈ supports element) :
    PathInvariant supports nodes bound (element :: path) support where
  nodup := List.nodup_cons.mpr ⟨hfresh, hgood.nodup⟩
  subset := by
    intro other hmem
    rcases List.mem_cons.mp hmem with rfl | hold
    · exact hnodes other support hsupport
    · exact hgood.subset other hold
  enough := by
    have henough := hgood.enough
    rw [List.length_cons]
    omega
  leads := by
    intro other hmem
    rcases List.mem_cons.mp hmem with rfl | hold
    · exact .single hsupport
    · exact (hgood.leads other hold).tail hsupport

variable [BEq κ] [Hashable κ]

/-- Every entry is right where there is no path. -/
def SettledSound (supports : κ → List κ) (settled : Settled κ) : Prop :=
  ∀ element depth, settled[element]? = some depth →
    IsMeasured supports [] element ⟨depth, true⟩

theorem SettledSound.lookup {settled : Settled κ} {path : List κ} {element : κ}
    {depth : ℕ} (hsettled : SettledSound supports settled)
    (hleads : ∀ other ∈ path, Relation.TransGen (RestsOn supports) other element)
    (hentry : settled[element]? = some depth) :
    IsMeasured supports path element ⟨depth, true⟩ := by
  have hmeasured := hsettled element depth hentry
  exact hmeasured.changePath ((hmeasured.isIndependent_iff.mp rfl).ofLeads hleads)

variable [LawfulBEq κ]

theorem settledSound_empty : SettledSound supports (∅ : Settled κ) := by
  intro element depth hentry
  simp at hentry

theorem SettledSound.insert {settled : Settled κ} {path : List κ} {element : κ}
    {depth : ℕ} (hsettled : SettledSound supports settled)
    (hmeasured : IsMeasured supports path element ⟨depth, true⟩) :
    SettledSound supports (settled.insert element depth) := by
  intro other otherDepth hentry
  rw [Std.HashMap.getElem?_insert] at hentry
  split at hentry
  next hsame =>
    obtain rfl : element = other := eq_of_beq hsame
    obtain rfl : depth = otherDepth := Option.some.inj hentry
    exact hmeasured.changePath (hmeasured.isIndependent_iff.mp rfl).toNil
  next => exact hsettled other otherDepth hentry

/-! ### The search itself -/

/-- Measures one more support at the end of a path. -/
def visitSupport (supports : κ → List κ) (bound : ℕ) (path : List κ)
    (state : Measured × Settled κ) (support : κ) : Measured × Settled κ :=
  let (next, settled) := depthFrom supports bound support path state.2
  (state.1.extend next, settled)

theorem depthFrom_of_mem {bound : ℕ} {path : List κ} {element : κ} {settled : Settled κ}
    (hmem : element ∈ path) :
    depthFrom supports (bound + 1) element path settled = (⟨0, false⟩, settled) := by
  simp [depthFrom, hmem]

theorem depthFrom_of_settled {bound depth : ℕ} {path : List κ} {element : κ}
    {settled : Settled κ} (hfresh : element ∉ path)
    (hentry : settled[element]? = some depth) :
    depthFrom supports (bound + 1) element path settled = (⟨depth, true⟩, settled) := by
  simp [depthFrom, hfresh, hentry]

theorem depthFrom_of_unsettled {bound : ℕ} {path : List κ} {element : κ}
    {settled : Settled κ} (hfresh : element ∉ path) (hentry : settled[element]? = none) :
    depthFrom supports (bound + 1) element path settled =
      let state := (supports element).foldl (visitSupport supports bound (element :: path))
        (⟨0, true⟩, settled)
      (state.1,
        if state.1.isIndependent then state.2.insert element state.1.depth else state.2) := by
  have hoffPath : ¬ path.contains element := mt List.contains_iff_mem.mp hfresh
  rw [depthFrom, if_neg hoffPath, hentry]
  rfl

/-- What the search keeps while it visits the supports of an element. -/
structure VisitInvariant (supports : κ → List κ) (path visited : List κ)
    (state : Measured × Settled κ) : Prop where
  measured : IsMeasuredOver supports path visited state.1
  settledSound : SettledSound supports state.2

/-- Each call of the search measures its element and leaves a sound table. -/
theorem depthFrom_measures {nodes : List κ}
    (hnodes : ∀ element, ∀ support ∈ supports element, element ∈ nodes)
    {bound : ℕ} {path : List κ} {element : κ} {settled : Settled κ}
    (hgood : PathInvariant supports nodes bound path element)
    (hsettled : SettledSound supports settled) :
    IsMeasured supports path element (depthFrom supports bound element path settled).1 ∧
      SettledSound supports (depthFrom supports bound element path settled).2 := by
  induction bound generalizing path element settled with
  | zero => exact absurd rfl hgood.bound_ne_zero
  | succ bound ih =>
      by_cases hmem : element ∈ path
      · rw [depthFrom_of_mem hmem]
        exact ⟨isMeasured_of_mem_path hmem, hsettled⟩
      cases hentry : settled[element]? with
      | some depth =>
          rw [depthFrom_of_settled hmem hentry]
          exact ⟨hsettled.lookup hgood.leads hentry, hsettled⟩
      | none =>
          have hvisited :
              VisitInvariant supports (element :: path) (supports element)
                ((supports element).foldl (visitSupport supports bound (element :: path))
                  (⟨0, true⟩, settled)) := by
            apply foldl_preserves (VisitInvariant supports (element :: path))
              ⟨isMeasuredOver_nil _, hsettled⟩
            intro visited state support hsupport hstate
            obtain ⟨hnext, htable⟩ :=
              ih (hgood.afterStep hnodes hmem hsupport) hstate.settledSound
            exact ⟨hstate.measured.extend hnext, htable⟩
          rw [depthFrom_of_unsettled hmem hentry]
          simp only
          generalize (supports element).foldl _ _ = state at hvisited ⊢
          obtain ⟨⟨depth, isIndependent⟩, table⟩ := state
          have hwhole : IsMeasured supports path element ⟨depth, isIndependent⟩ :=
            hvisited.measured.whole hmem
          refine ⟨hwhole, ?_⟩
          cases isIndependent with
          | false => exact hvisited.settledSound
          | true => exact hvisited.settledSound.insert hwhole

theorem depthFrom_eq_of_enough {nodes : List κ}
    (hnodes : ∀ element, ∀ support ∈ supports element, element ∈ nodes)
    {bound otherBound : ℕ} {path : List κ} {element : κ} (settled : Settled κ)
    (hgood : PathInvariant supports nodes bound path element)
    (hother : PathInvariant supports nodes otherBound path element) :
    depthFrom supports bound element path settled =
      depthFrom supports otherBound element path settled := by
  induction bound generalizing otherBound path element settled with
  | zero => exact absurd rfl hgood.bound_ne_zero
  | succ bound ih =>
      cases otherBound with
      | zero => exact absurd rfl hother.bound_ne_zero
      | succ otherBound =>
          by_cases hmem : element ∈ path
          · rw [depthFrom_of_mem hmem, depthFrom_of_mem hmem]
          cases hentry : settled[element]? with
          | some depth =>
              rw [depthFrom_of_settled hmem hentry, depthFrom_of_settled hmem hentry]
          | none =>
              have hvisits :
                  (supports element).foldl (visitSupport supports bound (element :: path))
                      (⟨0, true⟩, settled) =
                    (supports element).foldl
                      (visitSupport supports otherBound (element :: path))
                      (⟨0, true⟩, settled) := by
                apply List.foldl_ext
                intro state support hsupport
                unfold visitSupport
                rw [ih state.2 (hgood.afterStep hnodes hmem hsupport)
                  (hother.afterStep hnodes hmem hsupport)]
              rw [depthFrom_of_unsettled hmem hentry, depthFrom_of_unsettled hmem hentry,
                hvisits]

/-! ### The search without a table -/

/-- The search that measures an element again each time that it comes to it. -/
def plainDepthFrom (supports : κ → List κ) :
    (bound : ℕ) → κ → (path : List κ) → Measured
  | 0, _, _ => ⟨0, false⟩
  | bound + 1, element, path =>
    if path.contains element then ⟨0, false⟩
    else
      (supports element).foldl
        (fun measured support =>
          measured.extend (plainDepthFrom supports bound support (element :: path)))
        ⟨0, true⟩

omit [Hashable κ] in
theorem plainDepthFrom_measures {nodes : List κ}
    (hnodes : ∀ element, ∀ support ∈ supports element, element ∈ nodes)
    {bound : ℕ} {path : List κ} {element : κ}
    (hgood : PathInvariant supports nodes bound path element) :
    IsMeasured supports path element (plainDepthFrom supports bound element path) := by
  induction bound generalizing path element with
  | zero => exact absurd rfl hgood.bound_ne_zero
  | succ bound ih =>
      by_cases hmem : element ∈ path
      · have honPath : path.contains element := List.contains_iff_mem.mpr hmem
        rw [plainDepthFrom, if_pos honPath]
        exact isMeasured_of_mem_path hmem
      · have hoffPath : ¬ path.contains element := mt List.contains_iff_mem.mp hmem
        rw [plainDepthFrom, if_neg hoffPath]
        apply IsMeasuredOver.whole _ hmem
        exact foldl_preserves (IsMeasuredOver supports (element :: path))
          (isMeasuredOver_nil _) fun visited measured support hsupport hvisited =>
            hvisited.extend (ih (hgood.afterStep hnodes hmem hsupport))

end Search

/-! ## Weighted statements -/

section Store

variable {α : Type}

/-- An asserted statement with a weighted predicate leads from one element to
the other. -/
def WeightedStep (config : WeightConfig α) (store : Store) (x y : ElementId) : Prop :=
  ∃ predicate, (config.weight predicate).isSome ∧ ⟨x, predicate, y⟩ ∈ store.toList

theorem mem_supports_iff {config : WeightConfig α} {store : Store} {x y : ElementId} :
    y ∈ supports config store x ↔ WeightedStep config store x y := by
  simp only [supports, WeightConfig.weighted, List.mem_flatMap, List.mem_filterMap,
    Option.map_eq_some_iff, Store.mem_objects_leaving_iff, WeightedStep,
    Option.isSome_iff_exists]
  constructor
  · intro hweighted
    rcases hweighted with ⟨_, ⟨predicate, -, weight, hweight, rfl⟩, hmem⟩
    exact ⟨predicate, ⟨weight, hweight⟩, hmem⟩
  · intro hweighted
    rcases hweighted with ⟨predicate, ⟨weight, hweight⟩, hmem⟩
    exact ⟨_, ⟨predicate, predicate.mem_all, weight, hweight, rfl⟩, hmem⟩

theorem restsOn_supports (config : WeightConfig α) (store : Store) :
    RestsOn (supports config store) = WeightedStep config store := by
  funext x y
  exact propext mem_supports_iff

theorem mem_nodes_of_mem_supports {config : WeightConfig α} {store : Store} :
    ∀ x, ∀ y ∈ supports config store x, x ∈ store.nodes := by
  intro x y hmem
  obtain ⟨predicate, -, hstatement⟩ := mem_supports_iff.mp hmem
  exact Store.subject_mem_nodes hstatement

theorem pathInvariant_initial (config : WeightConfig α) {store : Store} (id : ElementId)
    {bound : ℕ} (hbound : store.nodeCount < bound) :
    PathInvariant (supports config store) store.nodes bound [] id := by
  rw [Store.nodeCount_eq_length_nodes] at hbound
  exact .initial id hbound

/-- The lengths of the walks that count for the depth of an element. -/
def walkLengths (config : WeightConfig α) (store : Store) (id : ElementId) : Set ℕ :=
  {length | ∃ vertices, IsWalk (WeightedStep config store) id length vertices}

theorem isGreatest_depthOf (config : WeightConfig α) (store : Store) (id : ElementId) :
    IsGreatest (walkLengths config store id) (depthOf config store id) := by
  have hgood := pathInvariant_initial config id (Nat.lt_succ_self store.nodeCount)
  have hmeasured := (depthFrom_measures mem_nodes_of_mem_supports hgood settledSound_empty).1
  have hlongest := hmeasured.longest
  simp only [chain_nil_iff_walk, restsOn_supports] at hlongest
  exact hlongest

theorem depthOf_eq_of_walkLengths_eq {config : WeightConfig α} {store other : Store}
    {id : ElementId} (hlengths : walkLengths config other id = walkLengths config store id) :
    depthOf config other id = depthOf config store id := by
  have hother := isGreatest_depthOf config other id
  rw [hlengths] at hother
  exact hother.unique (isGreatest_depthOf config store id)

theorem length_le_size_of_walk {config : WeightConfig α} {store : Store} {id : ElementId}
    {length : ℕ} {vertices : List ElementId}
    (hwalk : IsWalk (WeightedStep config store) id length vertices) :
    length ≤ store.size := by
  have hsubjects : vertices.dropLast ⊆ store.toList.map (·.subject) := by
    intro vertex hmem
    obtain ⟨object, predicate, -, hstatement⟩ := hwalk.exists_step hmem
    exact List.mem_map.mpr ⟨_, hstatement, rfl⟩
  have hle := (hwalk.distinct.subperm hsubjects).length_le
  have hlength := hwalk.length_eq
  simp only [List.length_dropLast, List.length_map, hlength] at hle
  simpa [Store.toList, Store.size] using hle

theorem walkLengths_eq_of_perm (config : WeightConfig α) {store other : Store}
    (hperm : other.toList.Perm store.toList) (id : ElementId) :
    walkLengths config other id = walkLengths config store id := by
  have hsteps : WeightedStep config other = WeightedStep config store := by
    funext x y
    simp only [WeightedStep, hperm.mem_iff]
  rw [walkLengths, walkLengths, hsteps]

/-- The depth of an element is the length of the longest walk over weighted
statements whose vertices but the last are distinct.  A larger bound changes
nothing in the search, and neither does it to go without the table or to order
the statements differently. -/
theorem depthOf_longest_walk (config : WeightConfig α) (store : Store) (id : ElementId) :
    IsGreatest (walkLengths config store id) (depthOf config store id) ∧
      (∀ bound, store.nodeCount < bound →
        depthFrom (supports config store) bound id [] ∅ =
            depthFrom (supports config store) (store.nodeCount + 1) id [] ∅ ∧
          (plainDepthFrom (supports config store) bound id []).depth =
            depthOf config store id) ∧
      (∀ other : Store, other.toList.Perm store.toList →
        depthOf config other id = depthOf config store id) ∧
      depthOf config store id ≤ store.size := by
  have hgreatest := isGreatest_depthOf config store id
  have hinitial := pathInvariant_initial config id (Nat.lt_succ_self store.nodeCount)
  refine ⟨hgreatest, ?_, ?_, ?_⟩
  · intro bound hbound
    have hgood := pathInvariant_initial config id hbound
    refine ⟨depthFrom_eq_of_enough mem_nodes_of_mem_supports ∅ hgood hinitial, ?_⟩
    have hplain := plainDepthFrom_measures mem_nodes_of_mem_supports hgood
    have hsearch :=
      (depthFrom_measures mem_nodes_of_mem_supports hinitial settledSound_empty).1
    rw [hplain.unique hsearch]
    rfl
  · intro other hperm
    have hother := isGreatest_depthOf config other id
    rw [walkLengths_eq_of_perm config hperm id] at hother
    exact hother.unique hgreatest
  · obtain ⟨vertices, hwalk⟩ := hgreatest.1
    exact length_le_size_of_walk hwalk

/-- Two elements that cite each other. -/
def mutualCitation : List Statement :=
  [⟨⟨"A"⟩, .cites, ⟨"B"⟩⟩, ⟨⟨"B"⟩, .cites, ⟨"A"⟩⟩]

/-- The longest walk from an element of a cycle goes around it once, however
the statements are ordered and however large the bound is. -/
theorem depthOf_mutualCitation :
    let store := Store.ofList mutualCitation
    let other := Store.ofList mutualCitation.reverse
    other.toList.Perm store.toList ∧ store.nodeCount < store.nodeCount + 7 ∧
      depthOf WeightConfig.citationsOnly other ⟨"A"⟩ = 2 ∧
      (plainDepthFrom (supports WeightConfig.citationsOnly store) (store.nodeCount + 7)
        ⟨"A"⟩ []).depth = 2 := by
  intro store other
  obtain ⟨hgreatest, hbound, horder, hsize⟩ :=
    depthOf_longest_walk WeightConfig.citationsOnly store ⟨"A"⟩
  have hperm : other.toList.Perm store.toList := by
    simp only [store, other, Store.toList_ofList]
    exact List.reverse_perm mutualCitation
  have hmem : ∀ statement ∈ mutualCitation, statement ∈ store.toList := by
    simp [store]
  have hwalk : IsWalk (WeightedStep WeightConfig.citationsOnly store) ⟨"A"⟩ 2
      [⟨"A"⟩, ⟨"B"⟩, ⟨"A"⟩] := by
    refine ⟨rfl, ?_, by decide, rfl⟩
    simp only [List.isChain_cons_cons, List.isChain_singleton, and_true]
    exact ⟨⟨.cites, rfl, hmem _ (by decide)⟩, ⟨.cites, rfl, hmem _ (by decide)⟩⟩
  have hdepth : depthOf WeightConfig.citationsOnly store ⟨"A"⟩ = 2 :=
    le_antisymm hsize (hgreatest.2 ⟨_, hwalk⟩)
  have hlarger : store.nodeCount < store.nodeCount + 7 := by omega
  exact ⟨hperm, hlarger, (horder other hperm).trans hdepth,
    (hbound _ hlarger).2.trans hdepth⟩

end Store

end Treatise.Weights
