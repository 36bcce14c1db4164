import Treatise.Proofs.Weights.FreshDependent

/-!
# What a breakdown explains

The breakdown of an analysis has one entry for each weighted predicate and
direction in which something matches, and the weights of the entries on one
side are summed up in their order.  What it says about one element is mirrored
at the others: the elements that an entry relates stand in it as often as there
are statements, and so does the element itself in their entries.

Entries and sums may be gathered together, in one pass over the weighted
predicates for each direction, if the entries are sorted at the end.
-/

namespace Treatise

theorem Store.matching_pattern (store : Store) (direction : Direction) (id : ElementId)
    (predicate : Predicate) :
    store.matching (direction.pattern id predicate) =
      store.toList.filter fun statement =>
        statement.predicate = predicate ∧ direction.nearEnd statement = id := by
  rw [matching_eq]
  apply List.filter_congr
  intro statement _
  rw [Bool.eq_iff_iff, Direction.accepts_pattern_iff, decide_eq_true_iff]

/-- The elements that the entry for a predicate and a direction relates; none
where there is no such entry. -/
def WeightAnalysis.relatedFor {α : Type} (analysis : WeightAnalysis α) (predicate : Predicate)
    (direction : Direction) : List ElementId :=
  ((analysis.entryFor? predicate direction).map (·.related)).getD []

namespace BreakdownEntry

variable {α : Type}

def group (entry : BreakdownEntry α) : Predicate × Direction :=
  (entry.predicate, entry.direction)

/-- The place of an entry in the order of the vocabulary, outbound before inbound. -/
def place (entry : BreakdownEntry α) : ℕ := Relationships.groups.idxOf entry.group

end BreakdownEntry

namespace Weights

variable {α : Type} {config : WeightConfig α} {store : Store} {id : ElementId}

/-- A group has an entry if its predicate has a weight and something matches. -/
def IsExplained (config : WeightConfig α) (store : Store) (id : ElementId)
    (group : Predicate × Direction) : Prop :=
  (config.weight group.1).isSome ∧
    ∃ statement ∈ store.toList, statement.predicate = group.1 ∧
      group.2.nearEnd statement = id

instance : DecidablePred (IsExplained config store id) :=
  fun _ => inferInstanceAs (Decidable (_ ∧ ∃ statement ∈ store.toList, _))

theorem matching_pattern_ne_nil_iff {predicate : Predicate} {direction : Direction} :
    store.matching (direction.pattern id predicate) ≠ [] ↔
      ∃ statement ∈ store.toList, statement.predicate = predicate ∧
        direction.nearEnd statement = id := by
  rw [Store.matching_pattern, ← List.isEmpty_eq_false_iff, List.isEmpty_eq_false_iff_exists_mem]
  simp only [List.mem_filter, decide_eq_true_eq]

/-- What a pass over the weighted predicates has gathered: the weight on its
side, and the entries behind those that were there before it. -/
structure Gathered (α : Type) where
  total : α
  entries : List (BreakdownEntry α)

variable [Scalar α]

/-! ## Entries -/

theorem contribution?_eq_some_iff {predicate : Predicate} {direction : Direction}
    {entry : BreakdownEntry α} :
    contribution? config store id predicate direction = some entry ↔
      ∃ weight, config.weight predicate = some weight ∧
        store.matching (direction.pattern id predicate) ≠ [] ∧
        entry = {
          predicate
          direction
          count := (store.matching (direction.pattern id predicate)).length
          weight :=
            Scalar.ofNat (store.matching (direction.pattern id predicate)).length * weight
          related := (store.matching (direction.pattern id predicate)).map
            direction.otherEnd } := by
  unfold contribution?
  cases config.weight predicate with
  | none => simp
  | some weight =>
      cases store.matching (direction.pattern id predicate) with
      | nil => simp
      | cons first others => simp [eq_comm]

theorem map_group_contribution? (group : Predicate × Direction) :
    (contribution? config store id group.1 group.2).map BreakdownEntry.group =
      Option.guard (IsExplained config store id) group := by
  rw [Option.guard]
  by_cases hexplained : IsExplained config store id group
  · obtain ⟨weight, hweight⟩ := Option.isSome_iff_exists.mp hexplained.1
    have hmatch := matching_pattern_ne_nil_iff.mpr hexplained.2
    have hentry := contribution?_eq_some_iff.mpr ⟨weight, hweight, hmatch, rfl⟩
    rw [hentry, if_pos (decide_eq_true hexplained)]
    rfl
  · have hnone : contribution? config store id group.1 group.2 = none := by
      apply Option.eq_none_iff_forall_ne_some.mpr
      intro entry hentry
      obtain ⟨weight, hweight, hmatch, -⟩ := contribution?_eq_some_iff.mp hentry
      apply hexplained
      exact ⟨by simp [hweight], matching_pattern_ne_nil_iff.mp hmatch⟩
    rw [hnone, if_neg (by simpa using hexplained)]
    rfl

theorem breakdown_eq_filterMap (config : WeightConfig α) (store : Store) (id : ElementId) :
    breakdown config store id =
      Relationships.groups.filterMap fun group =>
        contribution? config store id group.1 group.2 := by
  have hgroups : Relationships.groups =
      Predicate.all.flatMap fun predicate => Direction.all.map (Prod.mk predicate) := rfl
  rw [hgroups, List.filterMap_flatMap, breakdown]
  simp only [List.filterMap_map, Function.comp_def]

theorem map_group_breakdown (config : WeightConfig α) (store : Store) (id : ElementId) :
    (breakdown config store id).map BreakdownEntry.group =
      Relationships.groups.filter (IsExplained config store id) := by
  rw [breakdown_eq_filterMap, List.map_filterMap]
  simp only [map_group_contribution?]
  exact congrFun List.filterMap_eq_filter _

/-! ## One pass for each direction -/

/-- Takes up a weighted predicate, unless nothing matches. -/
def Gathered.take (store : Store) (id : ElementId) (direction : Direction)
    (gathered : Gathered α) (weighted : Predicate × α) : Gathered α :=
  match store.matching (direction.pattern id weighted.1) with
  | [] => gathered
  | found =>
    let summed := Scalar.ofNat found.length * weighted.2
    { total := gathered.total + summed
      entries := gathered.entries ++ [{
        predicate := weighted.1
        direction
        count := found.length
        weight := summed
        related := found.map direction.otherEnd }] }

def gather (config : WeightConfig α) (store : Store) (id : ElementId) (direction : Direction)
    (before : List (BreakdownEntry α)) : Gathered α :=
  config.weighted.foldl (Gathered.take store id direction) ⟨0, before⟩

def Gathered.append (gathered : Gathered α) (entries : List (BreakdownEntry α)) : Gathered α where
  total := (entries.map (·.weight)).foldl (· + ·) gathered.total
  entries := gathered.entries ++ entries

theorem Gathered.append_nil (gathered : Gathered α) : gathered.append [] = gathered := by
  simp [append]

theorem Gathered.append_append (gathered : Gathered α) (first second : List (BreakdownEntry α)) :
    (gathered.append first).append second = gathered.append (first ++ second) := by
  simp [append]

theorem Gathered.take_eq {predicate : Predicate} {weight : α}
    (hweight : config.weight predicate = some weight) (direction : Direction)
    (gathered : Gathered α) :
    gathered.take store id direction (predicate, weight) =
      gathered.append (contribution? config store id predicate direction).toList := by
  unfold take contribution?
  rw [hweight]
  cases store.matching (direction.pattern id predicate) with
  | nil => exact gathered.append_nil.symm
  | cons first others => rfl

/-- The entries on one side, in the order of the vocabulary. -/
def side (config : WeightConfig α) (store : Store) (id : ElementId) (direction : Direction) :
    List (BreakdownEntry α) :=
  Predicate.all.flatMap fun predicate =>
    (contribution? config store id predicate direction).toList

/-- A pass gathers the entries on its side and sums them up as it goes. -/
theorem gather_eq (config : WeightConfig α) (store : Store) (id : ElementId)
    (direction : Direction) (before : List (BreakdownEntry α)) :
    gather config store id direction before =
      (⟨0, before⟩ : Gathered α).append (side config store id direction) := by
  unfold gather WeightConfig.weighted side
  generalize (⟨0, before⟩ : Gathered α) = gathered
  generalize Predicate.all = predicates
  induction predicates generalizing gathered with
  | nil => exact gathered.append_nil.symm
  | cons predicate predicates ih =>
      rw [List.flatMap_cons, ← Gathered.append_append, ← ih]
      cases hweight : config.weight predicate with
      | none =>
          have hnone : contribution? config store id predicate direction = none := by
            simp only [contribution?, hweight]
          simp only [List.filterMap_cons, hweight, Option.map_none, hnone, Option.toList_none,
            Gathered.append_nil]
      | some weight =>
          simp only [List.filterMap_cons, hweight, Option.map_some, List.foldl_cons,
            Gathered.take_eq hweight]

theorem total_gather (config : WeightConfig α) (store : Store) (id : ElementId)
    (direction : Direction) (before : List (BreakdownEntry α)) :
    (gather config store id direction before).total =
      directionalWeight (breakdown config store id) direction := by
  rw [gather_eq, directionalWeight, filter_direction_breakdown]
  rfl

theorem entries_gather (config : WeightConfig α) (store : Store) (id : ElementId)
    (direction : Direction) (before : List (BreakdownEntry α)) :
    (gather config store id direction before).entries =
      before ++ side config store id direction := by
  rw [gather_eq]
  rfl

theorem perm_sides (config : WeightConfig α) (store : Store) (id : ElementId) :
    (side config store id .inbound ++ side config store id .outbound).Perm
      (breakdown config store id) := by
  have hboth : ∀ predicate, Direction.all.filterMap
      (fun direction => contribution? config store id predicate direction) =
        (contribution? config store id predicate .outbound).toList ++
          (contribution? config store id predicate .inbound).toList := by
    intro predicate
    simp [List.filterMap_eq_flatMap_toList, Direction.all]
  unfold breakdown side
  simp only [hboth]
  exact List.perm_append_comm.trans (List.flatMap_append_perm _ _ _)

theorem pairwise_place_breakdown (config : WeightConfig α) (store : Store) (id : ElementId) :
    (breakdown config store id).Pairwise (·.place < ·.place) := by
  have hgroups : Relationships.groups.Pairwise fun group other =>
      Relationships.groups.idxOf group < Relationships.groups.idxOf other := by
    decide +kernel
  have hexplained : ((breakdown config store id).map BreakdownEntry.group).Pairwise
      fun group other =>
        Relationships.groups.idxOf group < Relationships.groups.idxOf other := by
    rw [map_group_breakdown]
    exact hgroups.sublist List.filter_sublist
  rwa [List.pairwise_map] at hexplained

theorem eq_of_place_eq {entry other : BreakdownEntry α}
    (hentry : entry ∈ breakdown config store id) (hother : other ∈ breakdown config store id)
    (hplace : entry.place = other.place) : entry = other := by
  have hgroup : entry.group = other.group :=
    (List.idxOf_inj (Relationships.mem_groups _ _)).mp hplace
  obtain ⟨hpredicate, hdirection⟩ := Prod.mk.inj hgroup
  have hfound := mem_breakdown_iff.mp hentry
  rw [hpredicate, hdirection, mem_breakdown_iff.mp hother] at hfound
  exact (Option.some.inj hfound).symm

theorem mergeSort_eq_breakdown {entries : List (BreakdownEntry α)}
    (hperm : entries.Perm (breakdown config store id)) :
    entries.mergeSort (fun entry other => entry.place ≤ other.place) =
      breakdown config store id := by
  have hpairwise : (entries.mergeSort fun entry other => entry.place ≤ other.place).Pairwise
      fun entry other => decide (entry.place ≤ other.place) = true := by
    apply List.pairwise_mergeSort
    · intro first second third hfirst hsecond
      simp only [decide_eq_true_eq] at hfirst hsecond ⊢
      omega
    · intro first second
      simpa using Nat.le_total first.place second.place
  have hsorted : (entries.mergeSort fun entry other => entry.place ≤ other.place).Pairwise
      (·.place ≤ ·.place) := by
    simpa using hpairwise
  have hbreakdown : (breakdown config store id).Pairwise (·.place ≤ ·.place) :=
    (pairwise_place_breakdown config store id).imp Nat.le_of_lt
  have hsame := (List.mergeSort_perm entries fun entry other => entry.place ≤ other.place).trans
    hperm
  refine hsame.eq_of_pairwise ?_ hsorted hbreakdown
  intro entry other hentry hother hle hge
  exact eq_of_place_eq (hsame.mem_iff.mp hentry) hother (Nat.le_antisymm hle hge)

/-! ## What is explained -/

/-- What the breakdown of an analysis says about its element and its weights. -/
structure ExplainsWeights (config : WeightConfig α) (store : Store) (id : ElementId)
    (analysis : WeightAnalysis α) : Prop where
  /-- There is one entry for each weighted group with a match, in the order of the groups. -/
  groups_eq : analysis.breakdown.map BreakdownEntry.group =
    Relationships.groups.filter (IsExplained config store id)
  related_eq : ∀ entry ∈ analysis.breakdown,
    entry.related = (store.toList.filter fun statement =>
      statement.predicate = entry.predicate ∧ entry.direction.nearEnd statement = id).map
        entry.direction.otherEnd
  count_eq : ∀ entry ∈ analysis.breakdown, entry.count = entry.related.length
  weight_eq : ∀ entry ∈ analysis.breakdown, ∃ weight,
    config.weight entry.predicate = some weight ∧
      entry.weight = Scalar.ofNat entry.count * weight
  inboundWeight_eq : analysis.inboundWeight =
    ((analysis.breakdown.filter (·.direction = .inbound)).map (·.weight)).foldl (· + ·) 0
  outboundWeight_eq : analysis.outboundWeight =
    ((analysis.breakdown.filter (·.direction = .outbound)).map (·.weight)).foldl (· + ·) 0
  /-- An inbound pass and then an outbound one gather the same. -/
  gathered :
    let inbound := gather config store id .inbound []
    let outbound := gather config store id .outbound inbound.entries
    analysis.inboundWeight = inbound.total ∧ analysis.outboundWeight = outbound.total ∧
      analysis.breakdown = outbound.entries.mergeSort fun entry other =>
        entry.place ≤ other.place

theorem explainsWeights_analyze (config : WeightConfig α) (catalog : Catalog) (store : Store)
    (id : ElementId) :
    ExplainsWeights config store id (analyze config catalog store id) := by
  have hentries : ∀ entry ∈ (analyze config catalog store id).breakdown, _ :=
    fun entry hmem => contribution?_eq_some_iff.mp (mem_breakdown_iff.mp hmem)
  constructor
  · exact map_group_breakdown config store id
  · intro entry hmem
    obtain ⟨_, -, -, hentry⟩ := hentries entry hmem
    rw [congrArg BreakdownEntry.related hentry, Store.matching_pattern]
  · intro entry hmem
    obtain ⟨_, -, -, hentry⟩ := hentries entry hmem
    rw [congrArg BreakdownEntry.count hentry, congrArg BreakdownEntry.related hentry,
      List.length_map]
  · intro entry hmem
    obtain ⟨weight, hweight, -, hentry⟩ := hentries entry hmem
    refine ⟨weight, hweight, ?_⟩
    rw [congrArg BreakdownEntry.weight hentry, congrArg BreakdownEntry.count hentry]
  · rfl
  · rfl
  · refine ⟨(total_gather config store id .inbound []).symm,
      (total_gather config store id .outbound _).symm, ?_⟩
    rw [entries_gather, entries_gather, List.nil_append]
    exact (mergeSort_eq_breakdown (perm_sides config store id)).symm

/-! ## Mirrored entries -/

theorem relatedFor_analyze (catalog : Catalog) {predicate : Predicate}
    (hweight : (config.weight predicate).isSome) (direction : Direction) :
    (analyze config catalog store id).relatedFor predicate direction =
      (store.matching (direction.pattern id predicate)).map direction.otherEnd := by
  obtain ⟨weight, hweight⟩ := Option.isSome_iff_exists.mp hweight
  rw [WeightAnalysis.relatedFor, entryFor?_analyze, contribution?, hweight]
  cases store.matching (direction.pattern id predicate) with
  | nil => rfl
  | cons first others => rfl

theorem count_otherEnd (store : Store) (direction : Direction) (id other : ElementId)
    (statement : Statement) (hnear : direction.nearEnd statement = id)
    (hother : direction.otherEnd statement = other) :
    ((store.matching (direction.pattern id statement.predicate)).map direction.otherEnd).count
        other = store.toList.count statement := by
  rw [Store.matching_pattern, List.count, List.countP_map, List.countP_filter, List.count]
  apply List.countP_congr
  intro found _
  obtain ⟨subject, predicate, object⟩ := statement
  obtain ⟨foundSubject, foundPredicate, foundObject⟩ := found
  subst hnear hother
  cases direction <;> simp [Direction.nearEnd, Direction.otherEnd, and_comm, and_left_comm]

/-- The breakdowns explain the direct weights of all elements, and the entries
of two elements for the statements between them agree. -/
theorem analyze_explained (config : WeightConfig α) (catalog : Catalog) (store : Store) :
    (∀ id, ExplainsWeights config store id (analyze config catalog store id)) ∧
      ∀ predicate, (config.weight predicate).isSome → ∀ a b,
        ((analyze config catalog store a).relatedFor predicate .outbound).count b =
            store.toList.count ⟨a, predicate, b⟩ ∧
          ((analyze config catalog store b).relatedFor predicate .inbound).count a =
            store.toList.count ⟨a, predicate, b⟩ := by
  refine ⟨explainsWeights_analyze config catalog store, ?_⟩
  intro predicate hweight a b
  rw [relatedFor_analyze catalog hweight, relatedFor_analyze catalog hweight]
  exact ⟨count_otherEnd store .outbound a b ⟨a, predicate, b⟩ rfl rfl,
    count_otherEnd store .inbound b a ⟨a, predicate, b⟩ rfl rfl⟩

/-! ## A negative weight and a derived predicate -/

/-- Tables that are not valid. -/
def unruly : WeightConfig Float :=
  { WeightConfig.standard with
    weight := fun
      | .cites => some (-0.5)
      | .dependsOn => some 2.0
      | _ => none }

/-- Two citations of `B` by `A`, and one of `A` by itself. -/
def mirrored : List Statement :=
  [⟨⟨"A"⟩, .dependsOn, ⟨"B"⟩⟩, ⟨⟨"A"⟩, .cites, ⟨"B"⟩⟩, ⟨⟨"A"⟩, .cites, ⟨"A"⟩⟩,
    ⟨⟨"A"⟩, .provedBy, ⟨"B"⟩⟩, ⟨⟨"A"⟩, .cites, ⟨"B"⟩⟩]

theorem analyze_explained_mirrored :
    let store := Store.ofList mirrored
    let analysis := analyze unruly .empty store
    (unruly.weight .cites).isSome ∧ ExplainsWeights unruly store ⟨"A"⟩ (analysis ⟨"A"⟩) ∧
      (analysis ⟨"A"⟩).breakdown.map BreakdownEntry.group =
        [(.cites, .outbound), (.cites, .inbound), (.dependsOn, .outbound)] ∧
      ((analysis ⟨"A"⟩).relatedFor .cites .outbound).count ⟨"B"⟩ = 2 ∧
      ((analysis ⟨"B"⟩).relatedFor .cites .inbound).count ⟨"A"⟩ = 2 ∧
      ((analysis ⟨"A"⟩).relatedFor .cites .inbound).count ⟨"A"⟩ = 1 := by
  intro store analysis
  obtain ⟨hexplains, hmirrored⟩ := analyze_explained unruly .empty store
  have hcounts : store.toList.count ⟨⟨"A"⟩, .cites, ⟨"B"⟩⟩ = 2 ∧
      store.toList.count ⟨⟨"A"⟩, .cites, ⟨"A"⟩⟩ = 1 := by
    simp only [store, Store.toList_ofList]
    decide
  have hgroups : Relationships.groups.filter (IsExplained unruly store ⟨"A"⟩) =
      [(.cites, .outbound), (.cites, .inbound), (.dependsOn, .outbound)] := by
    simp only [IsExplained, store, Store.toList_ofList]
    decide +kernel
  obtain ⟨houtbound, hinbound⟩ := hmirrored .cites rfl ⟨"A"⟩ ⟨"B"⟩
  obtain ⟨-, hself⟩ := hmirrored .cites rfl ⟨"A"⟩ ⟨"A"⟩
  exact ⟨rfl, hexplains ⟨"A"⟩, (hexplains ⟨"A"⟩).groups_eq.trans hgroups,
    houtbound.trans hcounts.1, hinbound.trans hcounts.1, hself.trans hcounts.2⟩

end Weights

end Treatise
