import Treatise.Proofs.Relationships
import Treatise.Proofs.Report.Tally
import Treatise.Proofs.Store.Lookup
import Treatise.Report
import Treatise.Weights.Analysis

/-!
# Numbers that agree

Reports, statistics, analyses and queries count statements in ways of their
own.  For a predicate and a direction all of them count the ends that the
statements have in that direction.  So an element has the same number of
citations in each of them, and the numbers of all elements add up to the
number of statements.
-/

namespace Treatise

open Report

/-! ## Ends of statements -/

/-- The ends in this direction of the statements with this predicate. -/
def Store.endsOf (store : Store) (predicate : Predicate) (direction : Direction) :
    List ElementId :=
  (store.matching (.ofPredicate predicate)).map direction.nearEnd

namespace Store

theorem length_endsOf (store : Store) (predicate : Predicate) (direction : Direction) :
    (store.endsOf predicate direction).length = store.count (.ofPredicate predicate) :=
  List.length_map _

theorem mem_endsOf_iff {store : Store} {predicate : Predicate} {direction : Direction}
    {id : ElementId} :
    id ∈ store.endsOf predicate direction ↔
      ∃ statement ∈ store.toList, statement.predicate = predicate ∧
        direction.nearEnd statement = id := by
  simp only [endsOf, List.mem_map, mem_matching_ofPredicate_iff, and_assoc]

theorem count_endsOf (store : Store) (predicate : Predicate) (direction : Direction)
    (id : ElementId) :
    (store.endsOf predicate direction).count id =
      (store.matching (direction.pattern id predicate)).length := by
  rw [endsOf, matching_eq, matching_eq, List.count, List.countP_map, List.countP_filter,
    ← List.countP_eq_length_filter]
  apply List.countP_congr
  intro statement _
  rw [Direction.accepts_pattern_iff]
  simp [Pattern.accepts, Pattern.ofPredicate, @eq_comm _ predicate, and_comm]

end Store

theorem Relationships.length_under_query (facts : Facts) (id : ElementId)
    (predicate : Predicate) (direction : Direction) :
    (under (query facts id) predicate direction).length =
      ((facts.storeOf predicate).endsOf predicate direction).count id := by
  rw [under_query, Store.count_endsOf, matching_storeOf, shownUnder, List.length_map]

/-! ## Entries of an analysis -/

namespace Weights

variable {α : Type} [Scalar α] {config : WeightConfig α} {store : Store} {id : ElementId}

theorem contribution?_key {predicate : Predicate} {direction : Direction}
    {entry : BreakdownEntry α}
    (hentry : contribution? config store id predicate direction = some entry) :
    entry.predicate = predicate ∧ entry.direction = direction := by
  unfold contribution? at hentry
  split at hentry
  · cases hentry
  · cases hentry
  · obtain rfl := Option.some.inj hentry
    exact ⟨rfl, rfl⟩

theorem mem_breakdown_iff {entry : BreakdownEntry α} :
    entry ∈ breakdown config store id ↔
      contribution? config store id entry.predicate entry.direction = some entry := by
  simp only [breakdown, List.mem_flatMap, List.mem_filterMap]
  constructor
  · rintro ⟨predicate, -, direction, -, hentry⟩
    obtain ⟨rfl, rfl⟩ := contribution?_key hentry
    exact hentry
  · intro hentry
    have hgroup := Relationships.mem_groups entry.predicate entry.direction
    obtain ⟨hpredicate, hdirection⟩ := List.mem_product.mp hgroup
    exact ⟨_, hpredicate, _, hdirection, hentry⟩

theorem entryFor?_analyze (catalog : Catalog) (predicate : Predicate) (direction : Direction) :
    (analyze config catalog store id).entryFor? predicate direction =
      contribution? config store id predicate direction := by
  have hfound : ∀ {entry}, (analyze config catalog store id).entryFor? predicate direction =
      some entry → contribution? config store id predicate direction = some entry := by
    intro entry hentry
    have hkey := List.find?_some hentry
    simp only [Bool.and_eq_true, beq_iff_eq] at hkey
    have hmem := mem_breakdown_iff.mp (List.mem_of_find?_eq_some hentry)
    rwa [hkey.1, hkey.2] at hmem
  cases hcontributed : contribution? config store id predicate direction with
  | none =>
      apply Option.eq_none_iff_forall_ne_some.mpr
      intro entry hentry
      rw [hfound hentry] at hcontributed
      cases hcontributed
  | some entry =>
      obtain ⟨rfl, rfl⟩ := contribution?_key hcontributed
      cases hentry : (analyze config catalog store id).entryFor? entry.predicate
          entry.direction with
      | some other => rw [← hcontributed, hfound hentry]
      | none =>
          have habsent := List.find?_eq_none.mp hentry entry (mem_breakdown_iff.mpr hcontributed)
          simp at habsent

theorem count_contribution? {predicate : Predicate} (hweight : (config.weight predicate).isSome)
    (direction : Direction) :
    ((contribution? config store id predicate direction).map (·.count)).getD 0 =
      (store.endsOf predicate direction).count id := by
  obtain ⟨weight, hweight⟩ := Option.isSome_iff_exists.mp hweight
  rw [Store.count_endsOf, contribution?, hweight]
  cases store.matching (direction.pattern id predicate) with
  | nil => rfl
  | cons statement others => rfl

end Weights

/-- The count of the entry for a predicate and a direction, zero where there
is no such entry. -/
def WeightAnalysis.countFor {α : Type} (analysis : WeightAnalysis α) (predicate : Predicate)
    (direction : Direction) : ℕ :=
  ((analysis.entryFor? predicate direction).map (·.count)).getD 0

/-! ## Tables of counts -/

theorem Report.mem_countsOf_iff {ids : List ElementId} {row : CitationCount} :
    row ∈ countsOf ids ↔ row.elementId ∈ ids ∧ row.count = ids.count row.elementId := by
  rw [countsOf, List.mem_map]
  constructor
  · rintro ⟨pair, hmem, rfl⟩
    exact mem_tally_iff.mp hmem
  · intro hrow
    exact ⟨(row.elementId, row.count), mem_tally_iff.mpr hrow, rfl⟩

theorem Report.countAt_countsOf {ids : List ElementId} {rows : List CitationCount}
    (hrows : rows.Perm (countsOf ids)) (id : ElementId) :
    countAt (·.elementId) (·.count) rows id = ids.count id := by
  apply countAt_eq
  · intro row hmem
    exact (mem_countsOf_iff.mp (hrows.mem_iff.mp hmem)).2
  · intro hcount
    have hid : id ∈ ids := List.count_pos_iff.mp (Nat.pos_of_ne_zero hcount)
    exact ⟨⟨id, ids.count id⟩, hrows.mem_iff.mpr (mem_countsOf_iff.mpr ⟨hid, rfl⟩), rfl⟩

theorem Report.sum_countsOf {ids : List ElementId} {rows : List CitationCount}
    (hrows : rows.Perm (countsOf ids)) : (rows.map (·.count)).sum = ids.length := by
  have hcounts : (countsOf ids).map (·.count) = (tally ids).map (·.2) := by
    rw [countsOf, List.map_map]
    rfl
  rw [(hrows.map _).sum_eq, hcounts, sum_tally]

/-- The elements that are cited in a store. -/
def Store.cited (store : Store) : Set ElementId :=
  {id | ∃ statement ∈ store.toList, statement.predicate = .cites ∧ statement.object = id}

theorem Store.ncard_cited (store : Store) :
    store.cited.ncard = (store.endsOf .cites .inbound).toFinset.card := by
  have hset : store.cited = ((store.endsOf .cites .inbound).toFinset : Set ElementId) := by
    ext id
    rw [List.coe_toFinset, Set.mem_ofPred_eq, mem_endsOf_iff]
    rfl
  rw [hset, Set.ncard_coe_finset]

theorem Report.perm_citationCounts {store : Store} {top : ℕ} (htop : store.cited.ncard ≤ top) :
    (citationCounts store top).Perm (countsOf (store.endsOf .cites .inbound)) := by
  have hranked := perm_rank (·.count) (countsOf (store.endsOf .cites .inbound))
  have hroom : (rank (·.count) (countsOf (store.endsOf .cites .inbound))).length ≤ top := by
    rw [hranked.length_eq, countsOf, List.length_map, length_tally, ← Store.ncard_cited]
    exact htop
  change ((rank (·.count) (countsOf (store.endsOf .cites .inbound))).take top).Perm _
  rw [List.take_of_length_le hroom]
  exact hranked

theorem Report.sum_elementTypes (store : Store) :
    ((statistics store).elementTypes.map (·.count)).sum = (statistics store).totalElements := by
  let classes := tally (store.endsOf .instanceOf .inbound)
  have hranked : (statistics store).elementTypes.Perm
      (classes.map fun row => ⟨row.1.text, row.2⟩) := perm_rank _ _
  have hcounts : (classes.map fun row => (⟨row.1.text, row.2⟩ : ClassCount)).map (·.count) =
      classes.map (·.2) := by
    rw [List.map_map]
    rfl
  have htotal : (statistics store).totalElements = (store.endsOf .instanceOf .inbound).length :=
    (store.length_endsOf .instanceOf .inbound).symm
  rw [(hranked.map _).sum_eq, hcounts, sum_tally, htotal]

theorem Report.countAt_histogram {predicate : Predicate}
    (hsemantic : predicate ∈ Predicate.semantic) (store : Store) :
    countAt (·.predicate) (·.count) (histogram store) predicate =
      store.count (.ofPredicate predicate) := by
  apply countAt_eq
  · intro row hmem
    obtain ⟨other, -, rfl⟩ := List.mem_map.mp (List.mem_filter.mp hmem).1
    rfl
  · intro hcount
    refine ⟨⟨predicate, store.count (.ofPredicate predicate)⟩, ?_, rfl⟩
    apply List.mem_filter.mpr
    exact ⟨List.mem_map_of_mem hsemantic, by simpa using Nat.pos_of_ne_zero hcount⟩

/-! ## Agreement -/

theorem Predicate.isDerived_of_mem_semantic {predicate : Predicate}
    (hsemantic : predicate ∈ Predicate.semantic) : predicate.isDerived = false := by
  revert predicate
  decide

/-- What is counted in a report, in the statistics, in the analysis of an
element and in the answer to a query about it. -/
structure CountsAgree {α : Type} [Scalar α] (facts : Facts) (catalog : Catalog)
    (config : WeightConfig α) : Prop where
  cited : ∀ top, facts.asserted.cited.ncard ≤ top → ∀ id,
    countAt (·.elementId) (·.count) (citationCounts facts.asserted top) id =
        (Weights.analyze config catalog facts.asserted id).countFor .cites .inbound ∧
      (Weights.analyze config catalog facts.asserted id).countFor .cites .inbound =
        (Relationships.under (Relationships.query facts id) .cites .inbound).length
  citing : ∀ id,
    countAt (·.elementId) (·.count) (statistics facts.asserted).citationsByCiter id =
        (Weights.analyze config catalog facts.asserted id).countFor .cites .outbound ∧
      (Weights.analyze config catalog facts.asserted id).countFor .cites .outbound =
        (Relationships.under (Relationships.query facts id) .cites .outbound).length
  sum_cited : ∀ top, facts.asserted.cited.ncard ≤ top →
    ((citationCounts facts.asserted top).map (·.count)).sum =
      (statistics facts.asserted).totalCitations
  sum_citing : ((statistics facts.asserted).citationsByCiter.map (·.count)).sum =
    (statistics facts.asserted).totalCitations
  sum_elements : ((statistics facts.asserted).elementTypes.map (·.count)).sum =
    (statistics facts.asserted).totalElements
  /-- The ids are any that include the subjects of all statements. -/
  sum_outbound : ∀ predicate ∈ Predicate.semantic, ∀ ids : Finset ElementId,
    (∀ statement ∈ facts.asserted.toList, statement.subject ∈ ids) →
      ∑ id ∈ ids,
          (Relationships.under (Relationships.query facts id) predicate .outbound).length =
        countAt (·.predicate) (·.count) (histogram facts.asserted) predicate

theorem counts_agree {α : Type} [Scalar α] (facts : Facts) (catalog : Catalog)
    {config : WeightConfig α} (hcites : (config.weight .cites).isSome) :
    CountsAgree facts catalog config := by
  have hanalysis : ∀ id direction,
      (Weights.analyze config catalog facts.asserted id).countFor .cites direction =
        (facts.asserted.endsOf .cites direction).count id := by
    intro id direction
    rw [WeightAnalysis.countFor, Weights.entryFor?_analyze, Weights.count_contribution? hcites]
  have hquery : ∀ id direction,
      (Relationships.under (Relationships.query facts id) .cites direction).length =
        (facts.asserted.endsOf .cites direction).count id :=
    fun id direction => Relationships.length_under_query facts id .cites direction
  constructor
  · intro top htop id
    rw [hanalysis, hquery, countAt_countsOf (perm_citationCounts htop)]
    exact ⟨rfl, rfl⟩
  · intro id
    rw [hanalysis, hquery]
    exact ⟨countAt_countsOf (.refl _) id, rfl⟩
  · intro top htop
    rw [sum_countsOf (perm_citationCounts htop), Store.length_endsOf]
    rfl
  · change ((countsOf (facts.asserted.endsOf .cites .outbound)).map (·.count)).sum = _
    rw [sum_countsOf (.refl _), Store.length_endsOf]
    rfl
  · exact sum_elementTypes facts.asserted
  · intro predicate hsemantic ids hids
    have hasserted : facts.storeOf predicate = facts.asserted :=
      if_neg (by simp [Predicate.isDerived_of_mem_semantic hsemantic])
    have hends : ∀ id ∈ (facts.asserted.endsOf predicate .outbound : Multiset ElementId),
        id ∈ ids := by
      intro id hmem
      obtain ⟨statement, hstatement, -, rfl⟩ := Store.mem_endsOf_iff.mp (Multiset.mem_coe.mp hmem)
      exact hids statement hstatement
    have hsum := Multiset.sum_count_eq_card hends
    simp only [Multiset.coe_count, Multiset.coe_card] at hsum
    simp only [Relationships.length_under_query, hasserted]
    rw [countAt_histogram hsemantic, hsum, Store.length_endsOf]

/-! ## Citations stated twice and of oneself -/

/-- The citation in the store of derived facts counts nowhere. -/
def crowded : Facts where
  asserted := Store.ofList
    [⟨⟨"A"⟩, .cites, ⟨"B"⟩⟩, ⟨⟨"B"⟩, .cites, ⟨"B"⟩⟩, ⟨⟨"A"⟩, .provedBy, ⟨"C"⟩⟩,
      ⟨⟨"A"⟩, .cites, ⟨"B"⟩⟩, ⟨⟨"A"⟩, .instanceOf, ⟨"Proposition"⟩⟩]
  derived := Store.ofList [⟨⟨"C"⟩, .cites, ⟨"B"⟩⟩]

theorem counts_agree_crowded :
    let analysis := Weights.analyze WeightConfig.standard Catalog.empty crowded.asserted ⟨"B"⟩
    (WeightConfig.standard.weight .cites).isSome ∧ crowded.asserted.cited.ncard ≤ 1 ∧
      countAt (·.elementId) (·.count) (citationCounts crowded.asserted 1) ⟨"B"⟩ = 3 ∧
      analysis.countFor .cites .inbound = 3 ∧
      (Relationships.under (Relationships.query crowded ⟨"B"⟩) .cites .inbound).length = 3 ∧
      (∀ statement ∈ crowded.asserted.toList, statement.subject ∈ ({⟨"A"⟩, ⟨"B"⟩} : Finset _)) ∧
      ∑ id ∈ ({⟨"A"⟩, ⟨"B"⟩} : Finset ElementId),
        (Relationships.under (Relationships.query crowded id) .provedBy .outbound).length = 1 := by
  intro analysis
  have hcites : (WeightConfig.standard.weight .cites).isSome := rfl
  have hagree := counts_agree crowded Catalog.empty hcites
  have htop : crowded.asserted.cited.ncard ≤ 1 := by
    rw [Store.ncard_cited]
    simp only [Store.endsOf, Store.matching_eq, crowded, Store.toList_ofList]
    decide +kernel
  have hcount : countAt (·.elementId) (·.count) (citationCounts crowded.asserted 1) ⟨"B"⟩ = 3 := by
    simp only [citationCounts, countsOf, tally_eq, Store.matching_eq, crowded,
      Store.toList_ofList]
    decide +kernel
  have hids : ∀ statement ∈ crowded.asserted.toList,
      statement.subject ∈ ({⟨"A"⟩, ⟨"B"⟩} : Finset _) := by
    simp only [crowded, Store.toList_ofList]
    decide
  have hhistogram : countAt (·.predicate) (·.count) (histogram crowded.asserted) .provedBy = 1 := by
    simp only [histogram, Store.count, Store.matching_eq, crowded, Store.toList_ofList]
    decide +kernel
  obtain ⟨hanalysis, hquery⟩ := hagree.cited 1 htop ⟨"B"⟩
  have hsum := hagree.sum_outbound .provedBy (by decide) _ hids
  rw [hcount] at hanalysis
  rw [hhistogram] at hsum
  exact ⟨hcites, htop, hcount, hanalysis.symm, by rw [← hquery, ← hanalysis], hids, hsum⟩

end Treatise
