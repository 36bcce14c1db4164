import Mathlib.Data.List.Dedup
import Mathlib.Data.Set.Card
import Treatise.Store.Basic

/-!
# What a lookup finds

A store that statements were inserted into one by one answers each pattern as
if it scanned these statements: the fitting ones, as often and in the order
in which they were inserted.  The index takes part in no answer, and neither
does the order in which the graph lists the edges at a node.
-/

namespace Treatise

/-- The end of a statement that looks in this direction. -/
def Direction.nearEnd (direction : Direction) (statement : Statement) : ElementId :=
  match direction with
  | outbound => statement.subject
  | inbound => statement.object

theorem Direction.accepts_pattern_iff {direction : Direction} {id : ElementId}
    {predicate : Predicate} {statement : Statement} :
    (direction.pattern id predicate).accepts statement ↔
      statement.predicate = predicate ∧ direction.nearEnd statement = id := by
  cases direction with
  | outbound =>
      simp only [pattern, Pattern.leaving, Pattern.accepts, nearEnd, Option.all_some,
        Option.all_none, Bool.and_true, Bool.and_eq_true, beq_iff_eq]
      constructor
      · rintro ⟨rfl, rfl⟩
        exact ⟨rfl, rfl⟩
      · rintro ⟨rfl, rfl⟩
        exact ⟨rfl, rfl⟩
  | inbound =>
      simp only [pattern, Pattern.arriving, Pattern.accepts, nearEnd, Option.all_some,
        Option.all_none, Bool.true_and, Bool.and_eq_true, beq_iff_eq]
      constructor
      · rintro ⟨rfl, rfl⟩
        exact ⟨rfl, rfl⟩
      · rintro ⟨rfl, rfl⟩
        exact ⟨rfl, rfl⟩

namespace Store

variable {store : Store} {statement : Statement}

theorem mem_matching_iff {pattern : Pattern} :
    statement ∈ store.matching pattern ↔
      statement ∈ store.toList ∧ pattern.accepts statement := by
  rw [matching_eq, List.mem_filter]

theorem matching_ofPredicate (store : Store) (predicate : Predicate) :
    store.matching (.ofPredicate predicate) =
      store.toList.filter (·.predicate == predicate) := by
  rw [matching_eq]
  apply List.filter_congr
  intro statement _
  simp [Pattern.accepts, Pattern.ofPredicate, BEq.comm]

theorem mem_matching_ofPredicate_iff {predicate : Predicate} :
    statement ∈ store.matching (.ofPredicate predicate) ↔
      statement ∈ store.toList ∧ statement.predicate = predicate := by
  rw [matching_ofPredicate, List.mem_filter, beq_iff_eq]

theorem mem_matching_leaving_iff {subject : ElementId} {predicate : Predicate} :
    statement ∈ store.matching (.leaving subject predicate) ↔
      statement ∈ store.toList ∧ statement.subject = subject ∧
        statement.predicate = predicate := by
  rw [mem_matching_iff]
  simp [Pattern.accepts, Pattern.leaving, @eq_comm _ predicate, @eq_comm _ subject]

theorem count_ofPredicate_pos_iff {predicate : Predicate} :
    0 < store.count (.ofPredicate predicate) ↔
      ∃ statement ∈ store.toList, statement.predicate = predicate := by
  rw [count, List.length_pos_iff_exists_mem]
  simp only [mem_matching_ofPredicate_iff]

theorem count_leaving_eq_zero_iff {subject : ElementId} {predicate : Predicate} :
    store.count (.leaving subject predicate) = 0 ↔
      ∀ object, ⟨subject, predicate, object⟩ ∉ store.toList := by
  rw [count, List.length_eq_zero_iff, List.eq_nil_iff_forall_not_mem]
  simp only [mem_matching_leaving_iff]
  constructor
  · intro hnone object hmem
    exact hnone _ ⟨hmem, rfl, rfl⟩
  · rintro hnone ⟨_, _, object⟩ ⟨hmem, rfl, rfl⟩
    exact hnone object hmem

theorem mem_objects_leaving_iff {subject object : ElementId} {predicate : Predicate} :
    object ∈ (store.matching (.leaving subject predicate)).map (·.object) ↔
      ⟨subject, predicate, object⟩ ∈ store.toList := by
  simp only [List.mem_map, mem_matching_leaving_iff]
  constructor
  · intro hfound
    rcases hfound with ⟨found, ⟨hmem, rfl, rfl⟩, rfl⟩
    exact hmem
  · intro hmem
    exact ⟨_, ⟨hmem, rfl, rfl⟩, rfl⟩

theorem matching_triple_eq_nil_iff {subject object : ElementId} {predicate : Predicate} :
    store.matching ⟨subject, predicate, object⟩ = [] ↔
      ⟨subject, predicate, object⟩ ∉ store.toList := by
  rw [matching_eq, List.filter_eq_nil_iff]
  constructor
  · intro hnone hmem
    exact hnone _ hmem (by simp [Pattern.accepts])
  · rintro habsent ⟨s, p, o⟩ hmem haccepts
    simp only [Pattern.accepts, Option.all_some, Bool.and_eq_true,
      beq_iff_eq] at haccepts
    obtain ⟨⟨rfl, rfl⟩, rfl⟩ := haccepts
    exact habsent hmem

/-- The elements that some statement mentions, each of them once. -/
def nodes (store : Store) : List ElementId :=
  (store.toList.flatMap fun statement => [statement.subject, statement.object]).dedup

theorem mem_nodes_iff {id : ElementId} :
    id ∈ store.nodes ↔
      ∃ statement ∈ store.toList, statement.subject = id ∨ statement.object = id := by
  simp [nodes, eq_comm]

theorem subject_mem_nodes (hmem : statement ∈ store.toList) :
    statement.subject ∈ store.nodes :=
  mem_nodes_iff.mpr ⟨statement, hmem, .inl rfl⟩

theorem nodeCount_eq_length_nodes (store : Store) :
    store.nodeCount = store.nodes.length := by
  have hdescribes := store.index_describes
  have hperm : store.index.nodeOf.keys.Perm store.nodes := by
    apply (List.perm_ext_iff_of_nodup Std.HashMap.nodup_keys (List.nodup_dedup _)).mpr
    intro id
    rw [Std.HashMap.mem_keys, hdescribes.mem_nodeOf_iff id]
    exact mem_nodes_iff.symm
  calc
    store.nodeCount = store.index.nodeOf.size := hdescribes.numbers.size_nodeOf.symm
    _ = store.index.nodeOf.keys.length := Std.HashMap.length_keys.symm
    _ = store.nodes.length := hperm.length_eq

/-! ## Predicate by predicate -/

theorem perm_flatMap_filter {α κ : Type} [DecidableEq κ] {key : α → κ} {keys : List κ}
    {elements : List α} (hnodup : keys.Nodup)
    (hkeys : ∀ element ∈ elements, key element ∈ keys) :
    (keys.flatMap fun k => elements.filter fun element => key element == k).Perm elements := by
  induction keys generalizing elements with
  | nil =>
      have hnone : elements = [] := by
        apply List.eq_nil_iff_forall_not_mem.mpr
        intro element hmem
        exact absurd (hkeys element hmem) List.not_mem_nil
      rw [hnone]
      exact .refl _
  | cons k keys ih =>
      obtain ⟨hfresh, hrest⟩ := List.nodup_cons.mp hnodup
      -- The other classes do not meet the first one.
      have hothers : ∀ other ∈ keys, elements.filter (fun element => key element == other) =
          (elements.filter fun element => !(key element == k)).filter
            fun element => key element == other := by
        intro other hmem
        rw [List.filter_filter]
        apply List.filter_congr
        intro element _
        by_cases hsame : key element = other
        · have hne : other ≠ k := fun hk => hfresh (hk ▸ hmem)
          simp [hsame, hne]
        · simp [hsame]
      have hperm : (keys.flatMap fun other =>
          (elements.filter fun element => !(key element == k)).filter
            fun element => key element == other).Perm
          (elements.filter fun element => !(key element == k)) := by
        apply ih hrest
        intro element hmem
        obtain ⟨hmem, hother⟩ := List.mem_filter.mp hmem
        have hne : key element ≠ k := by simpa using hother
        exact (List.mem_cons.mp (hkeys element hmem)).resolve_left hne
      rw [List.flatMap_cons, List.flatMap_congr hothers]
      exact (hperm.append_left _).trans (List.filter_append_perm _ _)

/-- The answers for all predicates on one side of an element are the statements
with that end. -/
theorem perm_flatMap_pattern (store : Store) (direction : Direction) (id : ElementId) :
    (Predicate.all.flatMap fun predicate => store.matching (direction.pattern id predicate)).Perm
      (store.toList.filter (direction.nearEnd · == id)) := by
  have hmatching : ∀ predicate ∈ Predicate.all,
      store.matching (direction.pattern id predicate) =
        (store.toList.filter (direction.nearEnd · == id)).filter (·.predicate == predicate) := by
    intro predicate _
    rw [matching_eq, List.filter_filter]
    apply List.filter_congr
    intro statement _
    rw [Bool.eq_iff_iff, Direction.accepts_pattern_iff]
    simp only [Bool.and_eq_true, beq_iff_eq]
  rw [List.flatMap_congr hmatching]
  exact perm_flatMap_filter Predicate.nodup_all fun statement _ =>
    statement.predicate.mem_all

end Store

/-- A statement fits a pattern when it has in each bound position what the
pattern binds there. -/
structure Pattern.Fits (pattern : Pattern) (statement : Statement) : Prop where
  subject : ∀ subject, pattern.subject = some subject → statement.subject = subject
  predicate : ∀ predicate, pattern.predicate = some predicate →
    statement.predicate = predicate
  object : ∀ object, pattern.object = some object → statement.object = object

theorem Pattern.accepts_iff_fits {pattern : Pattern} {statement : Statement} :
    pattern.accepts statement ↔ pattern.Fits statement := by
  simp only [accepts, Bool.and_eq_true, Option.all_eq_true, beq_iff_eq]
  constructor
  · intro haccepts
    obtain ⟨⟨hsubject, hpredicate⟩, hobject⟩ := haccepts
    constructor
    · intro subject hbound
      exact (hsubject subject hbound).symm
    · intro predicate hbound
      exact (hpredicate predicate hbound).symm
    · intro object hbound
      exact (hobject object hbound).symm
  · intro hfits
    refine ⟨⟨?_, ?_⟩, ?_⟩
    · intro subject hbound
      exact (hfits.subject subject hbound).symm
    · intro predicate hbound
      exact (hfits.predicate predicate hbound).symm
    · intro object hbound
      exact (hfits.object object hbound).symm

instance (pattern : Pattern) : DecidablePred pattern.Fits := fun _ =>
  decidable_of_iff _ Pattern.accepts_iff_fits

namespace Store

theorem filter_accepts_eq (statements : List Statement) (pattern : Pattern) :
    statements.filter pattern.accepts = statements.filter (pattern.Fits ·) := by
  apply List.filter_congr
  intro statement _
  rw [Bool.eq_iff_iff, Pattern.accepts_iff_fits, decide_eq_true_iff]

/-- The elements that some statement has as its subject or object. -/
def mentionedIn (statements : List Statement) : Set ElementId :=
  {id | ∃ statement ∈ statements, statement.subject = id ∨ statement.object = id}

theorem subject_mentionedIn {statements : List Statement} {statement : Statement}
    (hmem : statement ∈ statements) : statement.subject ∈ mentionedIn statements :=
  ⟨statement, hmem, .inl rfl⟩

theorem object_mentionedIn {statements : List Statement} {statement : Statement}
    (hmem : statement ∈ statements) : statement.object ∈ mentionedIn statements :=
  ⟨statement, hmem, .inr rfl⟩

theorem nodeCount_eq_ncard (store : Store) :
    store.nodeCount = (mentionedIn store.toList).ncard := by
  have hnodes : mentionedIn store.toList = store.nodes.toFinset := by
    ext id
    rw [Finset.mem_coe, List.mem_toFinset, mem_nodes_iff]
    rfl
  have hnodup : store.nodes.Nodup := List.nodup_dedup _
  rw [hnodes, Set.ncard_coe_finset, List.toFinset_card_of_nodup hnodup,
    nodeCount_eq_length_nodes]

/-- Lookups in a store that statements were inserted into answer what a scan
of these statements would, whichever way the edges of the graph are listed. -/
theorem lookup_eq_scan (statements : List Statement) (pattern : Pattern)
    (listing : Graph.Listing)
    (hlisting : listing.Lists (statements.foldl insert empty).index.graph) :
    let store := statements.foldl insert empty
    store.matchingBy listing pattern = statements.filter (pattern.Fits ·) ∧
      store.matching pattern = statements.filter (pattern.Fits ·) ∧
      store.count pattern = (statements.filter (pattern.Fits ·)).length ∧
      store.size = statements.length ∧
      store.nodeCount = (mentionedIn statements).ncard := by
  intro store
  have hstatements : store.toList = statements := by
    simpa using toList_foldl_insert statements empty
  have hlisted := matchingBy_eq hlisting pattern
  have hmatching := matching_eq store pattern
  rw [hstatements, filter_accepts_eq] at hlisted hmatching
  have hsize : store.size = store.toList.length := by
    simp [size, toList]
  have hcount := nodeCount_eq_ncard store
  rw [hstatements] at hsize hcount
  exact ⟨hlisted, hmatching, by rw [count, hmatching], hsize, hcount⟩

/-- An element that cites itself, twice, and another one that cites it. -/
def selfCitation : List Statement :=
  [⟨⟨"A"⟩, .cites, ⟨"A"⟩⟩, ⟨⟨"B"⟩, .cites, ⟨"A"⟩⟩, ⟨⟨"A"⟩, .cites, ⟨"A"⟩⟩]

/-- The edges at a node with the oldest first. -/
def oldestFirst (graph : Graph) : Graph.Listing where
  outgoing node := (graph.outgoing node).reverse
  incoming node := (graph.incoming node).reverse

theorem lookup_selfCitation :
    let store := selfCitation.foldl insert empty
    let pattern : Pattern := { object := some ⟨"A"⟩ }
    (oldestFirst store.index.graph).Lists store.index.graph ∧
      store.matchingBy (oldestFirst store.index.graph) pattern = selfCitation ∧
      store.matching pattern = selfCitation ∧ store.count pattern = 3 ∧
      store.size = 3 ∧ store.nodeCount = 2 := by
  intro store pattern
  have hlisting : (oldestFirst store.index.graph).Lists store.index.graph := by
    constructor
    · intro node
      exact List.reverse_perm _
    · intro node
      exact List.reverse_perm _
  obtain ⟨hlisted, hmatching, hcount, hsize, hnodes⟩ :=
    lookup_eq_scan selfCitation pattern (oldestFirst store.index.graph) hlisting
  have hscan : selfCitation.filter (pattern.Fits ·) = selfCitation := by
    decide
  have hmentioned : mentionedIn selfCitation = {⟨"A"⟩, ⟨"B"⟩} := by
    ext id
    simp only [mentionedIn, selfCitation, Set.mem_ofPred_eq, Set.mem_insert_iff,
      Set.mem_singleton_iff, List.exists_mem_cons_iff, List.not_mem_nil, false_and, exists_false]
    grind
  rw [hscan] at hlisted hmatching hcount
  rw [hmentioned, Set.ncard_pair (by decide)] at hnodes
  exact ⟨hlisting, hlisted, hmatching, hcount, hsize, hnodes⟩

end Store

end Treatise
