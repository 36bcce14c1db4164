import Treatise.Proofs.FirstOccurrence
import Treatise.Proofs.Inference.BreadthFirst
import Treatise.Proofs.Inference.Chaining

/-!
# The order of the closure

What the transitive rule derives stands at the end of an answer.  It goes
source by source, and the sources come in the order in which the dependencies
first mention them, the asserted ones before the derived ones.  What a source
depends on goes by the number of steps that it takes to get there.
-/

namespace Treatise.Inference

/-- The position of the first dependency of an element among the facts and
what was derived from them. -/
def firstDependency (facts : Store) (derived : List Statement) (id : ElementId) : ℕ :=
  firstWith (·.predicate == .dependsOn) (·.subject) (facts.toList ++ derived) id

/-- The statements of the transitive rule close an answer, in breadth-first
order from each source. -/
structure ClosesBreadthFirst (facts : Store) (derived : List Statement) : Prop where
  last : derived.Pairwise fun statement later =>
    statement.predicate = .transitivelyDependsOn → later.predicate = .transitivelyDependsOn
  sources : (derived.filter (·.predicate == .transitivelyDependsOn)).Pairwise
    fun statement later =>
      statement.subject = later.subject ∨
        firstDependency facts derived statement.subject <
          firstDependency facts derived later.subject
  reached_iff : ∀ x y, ⟨x, .transitivelyDependsOn, y⟩ ∈ derived ↔
    ∃ length, ReachesIn (DependsIn facts derived) length x y
  nearest : (derived.filter (·.predicate == .transitivelyDependsOn)).Pairwise
    fun statement later =>
      statement.subject = later.subject →
        distance (DependsIn facts derived) statement.subject statement.object ≤
          distance (DependsIn facts derived) later.subject later.object

variable {facts : Store} {rules : List Rule}

theorem exists_closing (facts : Store) (rules : List Rule) :
    ∃ closing, infer facts rules = (direct facts rules).toList ++ closing ∧
      closing.Sublist (closure (dependencies facts rules)) := by
  rw [infer_eq, List.eraseDups_append, toList_direct]
  refine ⟨_, rfl, (eraseDups_sublist _).trans ?_⟩
  refine List.filter_sublist.trans ?_
  split
  · exact List.Sublist.refl _
  · exact List.nil_sublist _

theorem predicate_of_mem_closure {dependencies : List Statement} {statement : Statement}
    (hmem : statement ∈ closure dependencies) :
    statement.predicate = .transitivelyDependsOn :=
  (mem_closure_iff.mp hmem).1

theorem predicate_ne_of_mem_direct {statement : Statement}
    (hmem : statement ∈ (direct facts rules).toList) :
    statement.predicate ≠ .transitivelyDependsOn := by
  obtain ⟨fact, -, hgives⟩ := mem_direct_iff.mp hmem
  exact hgives.predicate_ne

theorem filter_closing {closing : List Statement}
    (hclosing : closing.Sublist (closure (dependencies facts rules))) :
    ((direct facts rules).toList ++ closing).filter
      (·.predicate == .transitivelyDependsOn) = closing := by
  have hdirect : (direct facts rules).toList.filter
      (·.predicate == .transitivelyDependsOn) = [] := by
    rw [List.filter_eq_nil_iff]
    intro statement hmem
    simpa using predicate_ne_of_mem_direct hmem
  have hall : closing.filter (·.predicate == .transitivelyDependsOn) = closing := by
    rw [List.filter_eq_self]
    intro statement hmem
    simpa using predicate_of_mem_closure (hclosing.subset hmem)
  rw [List.filter_append, hdirect, hall, List.nil_append]

theorem filter_dependsOn {closing : List Statement}
    (hclosing : closing.Sublist (closure (dependencies facts rules))) :
    (facts.toList ++ ((direct facts rules).toList ++ closing)).filter
      (·.predicate == .dependsOn) = dependencies facts rules := by
  have hnone : closing.filter (·.predicate == .dependsOn) = [] := by
    rw [List.filter_eq_nil_iff]
    intro statement hmem
    simp [predicate_of_mem_closure (hclosing.subset hmem)]
  rw [List.filter_append, List.filter_append, hnone, List.append_nil, dependencies,
    Store.matching_ofPredicate]

theorem pairwise_sources {statements : List Statement} {dependencies : List Statement}
    (hdependencies : statements.filter (·.predicate == .dependsOn) = dependencies) :
    (closure dependencies).Pairwise fun statement later =>
      statement.subject = later.subject ∨
        firstWith (·.predicate == .dependsOn) (·.subject) statements statement.subject <
          firstWith (·.predicate == .dependsOn) (·.subject) statements later.subject := by
  rw [closure, keys_edgesOf, List.pairwise_flatMap]
  constructor
  · intro source _
    apply List.pairwise_of_forall_mem_list
    intro statement hstatement later hlater
    obtain ⟨_, -, rfl⟩ := List.mem_map.mp hstatement
    obtain ⟨_, -, rfl⟩ := List.mem_map.mp hlater
    exact .inl rfl
  · rw [← hdependencies]
    apply (pairwise_firstWith (·.predicate == .dependsOn) (·.subject) statements).imp
    intro source other hlt statement hstatement later hlater
    obtain ⟨_, -, rfl⟩ := List.mem_map.mp hstatement
    obtain ⟨_, -, rfl⟩ := List.mem_map.mp hlater
    exact .inr hlt

theorem pairwise_nearest (dependencies : List Statement) :
    (closure dependencies).Pairwise fun statement later =>
      statement.subject = later.subject →
        distance (HasEdge dependencies) statement.subject statement.object ≤
          distance (HasEdge dependencies) later.subject later.object := by
  have hedges : (fun x y => y ∈ (edgesOf dependencies).get x) = HasEdge dependencies := by
    funext x y
    exact propext mem_get_edgesOf_iff
  rw [closure, List.pairwise_flatMap]
  constructor
  · intro source _
    rw [List.pairwise_map]
    apply (pairwise_reachable _ _ source).imp
    intro target later hle _
    rwa [hedges] at hle
  · rw [keys_edgesOf]
    apply (nodup_eraseDups _).imp
    intro source other hne statement hstatement later hlater hsame
    obtain ⟨_, -, rfl⟩ := List.mem_map.mp hstatement
    obtain ⟨_, -, rfl⟩ := List.mem_map.mp hlater
    exact absurd hsame hne

theorem closesBreadthFirst_infer (hrule : .transitiveDependency ∈ rules) :
    ClosesBreadthFirst facts (infer facts rules) := by
  obtain ⟨closing, hinfer, hclosing⟩ := exists_closing facts rules
  constructor
  · rw [hinfer]
    refine List.pairwise_append.mpr ⟨?_, ?_, ?_⟩
    · apply List.pairwise_of_forall_mem_list
      intro statement hmem _ _ htransitive
      exact absurd htransitive (predicate_ne_of_mem_direct hmem)
    · apply List.pairwise_of_forall_mem_list
      intro _ _ later hmem _
      exact predicate_of_mem_closure (hclosing.subset hmem)
    · intro statement hmem _ _ htransitive
      exact absurd htransitive (predicate_ne_of_mem_direct hmem)
  · unfold firstDependency
    rw [hinfer, filter_closing hclosing]
    exact (pairwise_sources (filter_dependsOn hclosing)).sublist hclosing
  · intro x y
    rw [mem_infer_transitivelyDependsOn_iff, transGen_iff_exists_reachesIn]
    exact and_iff_right hrule
  · have hnearest := (pairwise_nearest (dependencies facts rules)).sublist hclosing
    rw [hasEdge_dependencies_eq] at hnearest
    rwa [← filter_closing hclosing, ← hinfer] at hnearest

/-- Chaining answers, and with the transitive rule the closure ends the answer
in breadth-first order. -/
theorem chaining_breadthFirst (facts : Store) {rules : List Rule}
    (hrule : .transitiveDependency ∈ rules) :
    ∃ derived, Oracle.chaining.infer facts rules = .ok derived ∧
      ClosesBreadthFirst facts derived :=
  ⟨infer facts rules, rfl, closesBreadthFirst_infer hrule⟩

/-! ## Two circles -/

/-- All three elements lie on a circle, and one circle is shorter.  The asserted
dependency stands last. -/
def twoCircles : Store := .ofList
  [⟨⟨"A"⟩, .cites, ⟨"B"⟩⟩, ⟨⟨"A"⟩, .cites, ⟨"C"⟩⟩, ⟨⟨"C"⟩, .cites, ⟨"A"⟩⟩,
    ⟨⟨"A"⟩, .cites, ⟨"B"⟩⟩, ⟨⟨"B"⟩, .dependsOn, ⟨"C"⟩⟩]

theorem chaining_twoCircles :
    let derived : List Statement :=
      [⟨⟨"A"⟩, .dependsOn, ⟨"B"⟩⟩, ⟨⟨"A"⟩, .dependsOn, ⟨"C"⟩⟩, ⟨⟨"C"⟩, .dependsOn, ⟨"A"⟩⟩,
        ⟨⟨"B"⟩, .transitivelyDependsOn, ⟨"C"⟩⟩, ⟨⟨"B"⟩, .transitivelyDependsOn, ⟨"A"⟩⟩,
        ⟨⟨"B"⟩, .transitivelyDependsOn, ⟨"B"⟩⟩, ⟨⟨"A"⟩, .transitivelyDependsOn, ⟨"B"⟩⟩,
        ⟨⟨"A"⟩, .transitivelyDependsOn, ⟨"C"⟩⟩, ⟨⟨"A"⟩, .transitivelyDependsOn, ⟨"A"⟩⟩,
        ⟨⟨"C"⟩, .transitivelyDependsOn, ⟨"A"⟩⟩, ⟨⟨"C"⟩, .transitivelyDependsOn, ⟨"B"⟩⟩,
        ⟨⟨"C"⟩, .transitivelyDependsOn, ⟨"C"⟩⟩]
    .transitiveDependency ∈ Rule.all ∧
      Oracle.chaining.infer twoCircles Rule.all = .ok derived ∧
      ClosesBreadthFirst twoCircles derived := by
  intro derived
  have hrule : .transitiveDependency ∈ Rule.all := by decide
  have hinfer : infer twoCircles Rule.all = derived := by
    simp only [infer_eq, dependencies, toList_direct, closure_eq, Store.matching_eq, twoCircles,
      Store.toList_ofList]
    decide +kernel
  have hanswer : Oracle.chaining.infer twoCircles Rule.all = .ok derived :=
    congrArg Except.ok hinfer
  obtain ⟨answered, hanswered, hcloses⟩ := chaining_breadthFirst twoCircles hrule
  rw [hanswer] at hanswered
  cases hanswered
  exact ⟨hrule, hanswer, hcloses⟩

end Treatise.Inference
