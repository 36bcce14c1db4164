import Treatise.Proofs.FirstOccurrence
import Treatise.Proofs.Report.Counts

/-!
# What is cited most

The citations of a store order its cited elements: an element that is cited
more often comes first, and of two that are cited equally often the one that
was cited first.  A report of what is cited most lists the elements from the
beginning of this order, and a longer report goes on where a shorter one ends.
-/

namespace Treatise

open Report

namespace Store

/-- How many statements cite an element; one that is stated twice counts twice. -/
def timesCited (store : Store) (id : ElementId) : ℕ :=
  store.toList.countP fun statement => statement.predicate == .cites && statement.object == id

/-- The position of the first statement that cites an element. -/
def firstCitation (store : Store) (id : ElementId) : ℕ :=
  firstWith (·.predicate == .cites) (·.object) store.toList id

/-- The order of the cited elements. -/
def CitedBefore (store : Store) (id other : ElementId) : Prop :=
  store.timesCited other < store.timesCited id ∨
    store.timesCited id = store.timesCited other ∧
      store.firstCitation id < store.firstCitation other

end Store

/-- The rows of a report of the `top` elements that are cited most. -/
structure IsTopCited (store : Store) (top : ℕ) (rows : List CitationCount) : Prop where
  length_eq : rows.length = min top store.cited.ncard
  nodup : (rows.map (·.elementId)).Nodup
  cited : ∀ row ∈ rows, row.elementId ∈ store.cited
  count_eq : ∀ row ∈ rows, row.count = store.timesCited row.elementId
  ordered : (rows.map (·.elementId)).Pairwise store.CitedBefore
  omitted : ∀ id ∈ store.cited, id ∉ rows.map (·.elementId) →
    ∀ row ∈ rows, store.CitedBefore row.elementId id ∧ ¬ store.CitedBefore id row.elementId

theorem Store.CitedBefore.asymm {store : Store} {id other : ElementId}
    (hbefore : store.CitedBefore id other) : ¬ store.CitedBefore other id := by
  unfold CitedBefore at *
  omega

/-! ## The whole ranking -/

theorem Store.mem_cited_iff {store : Store} {id : ElementId} :
    id ∈ store.cited ↔ id ∈ store.endsOf .cites .inbound := by
  rw [mem_endsOf_iff]
  rfl

theorem Store.count_endsOf_cites (store : Store) (id : ElementId) :
    (store.endsOf .cites .inbound).count id = store.timesCited id := by
  rw [endsOf, matching_ofPredicate, List.count, List.countP_map, List.countP_filter, timesCited]
  apply List.countP_congr
  intro statement _
  simp [Direction.nearEnd, and_comm]

theorem Report.countsOf_eq (ids : List ElementId) :
    countsOf ids = ids.eraseDups.map fun id => ⟨id, ids.count id⟩ := by
  rw [countsOf, tally_eq, List.map_map]
  rfl

theorem Report.map_elementId_countsOf (ids : List ElementId) :
    (countsOf ids).map (·.elementId) = ids.eraseDups := by
  rw [countsOf_eq, List.map_map]
  exact List.map_id _

/-- All cited elements, ranked. -/
def Report.rankedCitations (store : Store) : List CitationCount :=
  rank (·.count) (countsOf (store.endsOf .cites .inbound))

namespace Report

theorem citationCounts_eq_take (store : Store) (top : ℕ) :
    citationCounts store top = (rankedCitations store).take top := rfl

theorem perm_rankedCitations (store : Store) :
    ((rankedCitations store).map (·.elementId)).Perm
      (store.endsOf .cites .inbound).eraseDups := by
  rw [← map_elementId_countsOf]
  exact (perm_rank _ _).map _

theorem nodup_rankedCitations (store : Store) :
    ((rankedCitations store).map (·.elementId)).Nodup :=
  (perm_rankedCitations store).nodup_iff.mpr (nodup_eraseDups _)

theorem mem_rankedCitations_iff {store : Store} {id : ElementId} :
    id ∈ (rankedCitations store).map (·.elementId) ↔ id ∈ store.cited := by
  rw [(perm_rankedCitations store).mem_iff, List.mem_eraseDups, Store.mem_cited_iff]

theorem length_rankedCitations (store : Store) :
    (rankedCitations store).length = store.cited.ncard := by
  rw [← List.length_map (·.elementId), (perm_rankedCitations store).length_eq,
    length_eraseDups, Store.ncard_cited]

theorem count_rankedCitations {store : Store} {row : CitationCount}
    (hmem : row ∈ rankedCitations store) : row.count = store.timesCited row.elementId := by
  have hrow := (perm_rank _ _).mem_iff.mp hmem
  rw [(mem_countsOf_iff.mp hrow).2, Store.count_endsOf_cites]

theorem pairwise_firstCitation (store : Store) :
    (countsOf (store.endsOf .cites .inbound)).Pairwise fun row other =>
      store.firstCitation row.elementId < store.firstCitation other.elementId := by
  rw [countsOf_eq, List.pairwise_map, Store.endsOf, Store.matching_ofPredicate]
  exact pairwise_firstWith _ _ _

theorem pairwise_rankedCitations (store : Store) :
    ((rankedCitations store).map (·.elementId)).Pairwise store.CitedBefore := by
  rw [List.pairwise_map]
  apply (pairwise_rank (pairwise_firstCitation store)).imp_of_mem
  intro row other hrow hother hbefore
  rwa [count_rankedCitations hrow, count_rankedCitations hother] at hbefore

theorem isTopCited_citationCounts (store : Store) (top : ℕ) :
    IsTopCited store top (citationCounts store top) := by
  have hsplit := List.take_append_drop top (rankedCitations store)
  have hsublist : (citationCounts store top).Sublist (rankedCitations store) :=
    List.take_sublist _ _
  constructor
  · rw [citationCounts_eq_take, List.length_take, length_rankedCitations]
  · exact (nodup_rankedCitations store).sublist (hsublist.map _)
  · intro row hmem
    exact mem_rankedCitations_iff.mp (List.mem_map_of_mem (hsublist.subset hmem))
  · intro row hmem
    exact count_rankedCitations (hsublist.subset hmem)
  · exact (pairwise_rankedCitations store).sublist (hsublist.map _)
  · intro id hcited homitted row hmem
    have hranked := mem_rankedCitations_iff.mpr hcited
    have hordered := pairwise_rankedCitations store
    rw [← hsplit, List.map_append] at hranked hordered
    have hlater := (List.mem_append.mp hranked).resolve_left homitted
    have hbefore := (List.pairwise_append.mp hordered).2.2 _ (List.mem_map_of_mem hmem) _ hlater
    exact ⟨hbefore, hbefore.asymm⟩

/-- A report of what is cited most is correct for every size, and the sizes
agree with each other. -/
theorem citationCounts_top (store : Store) :
    (∀ top, IsTopCited store top (citationCounts store top)) ∧
      ∀ fewer more, fewer ≤ more →
        citationCounts store fewer <+: citationCounts store more := by
  refine ⟨isTopCited_citationCounts store, ?_⟩
  intro fewer more hle
  rw [citationCounts_eq_take, citationCounts_eq_take]
  exact List.take_prefix_take_left hle

/-- One citation is stated twice, and four elements are cited in all. -/
def citedEqually : Store := .ofList
  [⟨⟨"D"⟩, .cites, ⟨"A"⟩⟩, ⟨⟨"E"⟩, .cites, ⟨"C"⟩⟩, ⟨⟨"D"⟩, .cites, ⟨"B"⟩⟩,
    ⟨⟨"D"⟩, .buildsUpon, ⟨"A"⟩⟩, ⟨⟨"E"⟩, .cites, ⟨"C"⟩⟩, ⟨⟨"E"⟩, .cites, ⟨"B"⟩⟩,
    ⟨⟨"E"⟩, .cites, ⟨"E"⟩⟩]

theorem citationCounts_citedEqually :
    citationCounts citedEqually 3 = [⟨⟨"C"⟩, 2⟩, ⟨⟨"B"⟩, 2⟩, ⟨⟨"A"⟩, 1⟩] ∧
      1 ≤ 3 ∧ citationCounts citedEqually 1 <+: citationCounts citedEqually 3 := by
  refine ⟨?_, by decide, (citationCounts_top citedEqually).2 1 3 (by decide)⟩
  have hrows : countsOf (citedEqually.endsOf .cites .inbound) =
      [⟨⟨"A"⟩, 1⟩, ⟨⟨"C"⟩, 2⟩, ⟨⟨"B"⟩, 2⟩, ⟨⟨"E"⟩, 1⟩] := by
    simp only [countsOf_eq, Store.endsOf, Store.matching_eq, citedEqually, Store.toList_ofList]
    decide +kernel
  rw [citationCounts_eq_take, rankedCitations, hrows]
  simp [rank, List.mergeSort]

end Report

end Treatise
