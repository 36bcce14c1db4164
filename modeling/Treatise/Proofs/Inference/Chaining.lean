import Treatise.Inference
import Treatise.Proofs.Inference.Reachability
import Treatise.Proofs.Store.Lookup

/-!
# What chaining derives

`DerivesExactly` reads the six rules as equivalences between what a list of
statements holds and what the facts hold.  Five of them look at the facts
only.  The transitive rule is about paths over dependencies, and these may be
asserted or derived.  Chaining always answers, and its answer satisfies all
of the equivalences.
-/

namespace Treatise.Inference

/-- A dependency among the facts or among what was derived from them. -/
def DependsIn (facts : Store) (derived : List Statement) (x y : ElementId) : Prop :=
  ⟨x, .dependsOn, y⟩ ∈ facts.toList ∨ ⟨x, .dependsOn, y⟩ ∈ derived

/-- The statements that the rules derive from the facts, and no others. -/
structure DerivesExactly (facts : Store) (rules : List Rule)
    (derived : List Statement) : Prop where
  nodup : derived.Nodup
  isDerived : ∀ statement ∈ derived, statement.isDerived
  dependsOn_iff : ∀ x y, ⟨x, .dependsOn, y⟩ ∈ derived ↔
    (.citationDependency ∈ rules ∧ ⟨x, .cites, y⟩ ∈ facts.toList) ∨
      (.logicalDependency ∈ rules ∧
        ∃ predicate ∈ Predicate.logical, ⟨x, predicate, y⟩ ∈ facts.toList)
  transitivelyDependsOn_iff : ∀ x y, ⟨x, .transitivelyDependsOn, y⟩ ∈ derived ↔
    .transitiveDependency ∈ rules ∧ Relation.TransGen (DependsIn facts derived) x y
  circularArgument_iff : ∀ x y, ⟨x, .circularArgument, y⟩ ∈ derived ↔
    .circularArgument ∈ rules ∧
      ⟨x, .refutedByAbsurdity, y⟩ ∈ facts.toList ∧
        ⟨y, .refutedByAbsurdity, x⟩ ∈ facts.toList
  derivedFrom_iff : ∀ x y, ⟨x, .derivedFrom, y⟩ ∈ derived ↔
    .proofDerivation ∈ rules ∧
      (⟨x, .corollaryOf, y⟩ ∈ facts.toList ∨
        ∃ q, ⟨x, .provedBy, q⟩ ∈ facts.toList ∧ ⟨q, .cites, y⟩ ∈ facts.toList)
  explains_iff : ∀ x y, ⟨x, .explains, y⟩ ∈ derived ↔
    .explanation ∈ rules ∧ ⟨y, .evidentFrom, x⟩ ∈ facts.toList

/-! ## One fact at a time -/

/-- What a fact gives rise to in the presence of the others, rule by rule. -/
inductive Gives (facts : Store) (rules : List Rule) : Statement → Statement → Prop
  | citation {x y : ElementId} (hrule : .citationDependency ∈ rules) :
      Gives facts rules ⟨x, .cites, y⟩ ⟨x, .dependsOn, y⟩
  | logical {x y : ElementId} {predicate : Predicate}
      (hrule : .logicalDependency ∈ rules) (hlogical : predicate ∈ Predicate.logical) :
      Gives facts rules ⟨x, predicate, y⟩ ⟨x, .dependsOn, y⟩
  | circular {x y : ElementId} (hrule : .circularArgument ∈ rules)
      (hback : ⟨y, .refutedByAbsurdity, x⟩ ∈ facts.toList) :
      Gives facts rules ⟨x, .refutedByAbsurdity, y⟩ ⟨x, .circularArgument, y⟩
  | proof {x q y : ElementId} (hrule : .proofDerivation ∈ rules)
      (hcites : ⟨q, .cites, y⟩ ∈ facts.toList) :
      Gives facts rules ⟨x, .provedBy, q⟩ ⟨x, .derivedFrom, y⟩
  | corollary {x y : ElementId} (hrule : .proofDerivation ∈ rules) :
      Gives facts rules ⟨x, .corollaryOf, y⟩ ⟨x, .derivedFrom, y⟩
  | explanation {x y : ElementId} (hrule : .explanation ∈ rules) :
      Gives facts rules ⟨x, .evidentFrom, y⟩ ⟨y, .explains, x⟩

theorem mem_onlyIf_iff {rules : List Rule} {rule : Rule} {statements : List Statement}
    {statement : Statement} :
    statement ∈ consequencesOf.onlyIf rules rule statements ↔
      rule ∈ rules ∧ statement ∈ statements := by
  unfold consequencesOf.onlyIf
  split <;> simp_all

theorem gives_of_mem_consequencesOf {facts : Store} {rules : List Rule}
    {fact conclusion : Statement}
    (hmem : conclusion ∈ consequencesOf facts rules fact) :
    Gives facts rules fact conclusion := by
  obtain ⟨x, predicate, y⟩ := fact
  cases predicate <;>
    simp only [consequencesOf, mem_onlyIf_iff, List.mem_singleton, List.not_mem_nil] at hmem
  case cites =>
    obtain ⟨hrule, rfl⟩ := hmem
    exact .citation hrule
  case necessarilyFollows | clearlyFollowsFrom | appliesResultFrom | groundedIn | buildsUpon =>
    obtain ⟨hrule, rfl⟩ := hmem
    exact .logical hrule (by decide)
  case refutedByAbsurdity =>
    obtain ⟨hrule, hmutual⟩ := hmem
    split at hmutual
    next => simp at hmutual
    next hgiven =>
      rw [List.mem_singleton.mp hmutual]
      apply Gives.circular hrule
      by_contra habsent
      simp [Store.matching_triple_eq_nil_iff.mpr habsent] at hgiven
  case provedBy =>
    obtain ⟨hrule, hcited⟩ := hmem
    obtain ⟨⟨q, _, cited⟩, hfound, rfl⟩ := List.mem_map.mp hcited
    obtain ⟨hfact, rfl, rfl⟩ := Store.mem_matching_leaving_iff.mp hfound
    exact .proof hrule hfact
  case corollaryOf =>
    obtain ⟨hrule, rfl⟩ := hmem
    exact .corollary hrule
  case evidentFrom =>
    obtain ⟨hrule, rfl⟩ := hmem
    exact .explanation hrule

theorem mem_consequencesOf_of_gives {facts : Store} {rules : List Rule}
    {fact conclusion : Statement} (hgives : Gives facts rules fact conclusion) :
    conclusion ∈ consequencesOf facts rules fact := by
  cases hgives with
  | citation hrule => simp [consequencesOf, mem_onlyIf_iff, hrule]
  | @logical _ _ predicate hrule hlogical =>
      simp only [Predicate.logical, List.mem_cons, List.not_mem_nil, or_false] at hlogical
      rcases hlogical with rfl | rfl | rfl | rfl | rfl <;>
        simp [consequencesOf, mem_onlyIf_iff, hrule]
  | circular hrule hback =>
      have hmutual := mt Store.matching_triple_eq_nil_iff.mp (not_not_intro hback)
      simp [consequencesOf, mem_onlyIf_iff, hrule, hmutual]
  | proof hrule hcites =>
      simp only [consequencesOf, mem_onlyIf_iff, List.mem_map]
      exact ⟨hrule, _, Store.mem_matching_leaving_iff.mpr ⟨hcites, rfl, rfl⟩, rfl⟩
  | corollary hrule => simp [consequencesOf, mem_onlyIf_iff, hrule]
  | explanation hrule => simp [consequencesOf, mem_onlyIf_iff, hrule]

theorem Gives.isDerived {facts : Store} {rules : List Rule} {fact conclusion : Statement}
    (hgives : Gives facts rules fact conclusion) : conclusion.isDerived := by
  cases hgives <;> rfl

theorem Gives.predicate_ne {facts : Store} {rules : List Rule} {fact conclusion : Statement}
    (hgives : Gives facts rules fact conclusion) :
    conclusion.predicate ≠ .transitivelyDependsOn := by
  cases hgives <;> simp

theorem mem_direct_iff {facts : Store} {rules : List Rule} {conclusion : Statement} :
    conclusion ∈ (direct facts rules).toList ↔
      ∃ fact ∈ facts.toList, Gives facts rules fact conclusion := by
  simp only [toList_direct, List.mem_eraseDups, List.mem_flatMap]
  constructor
  · intro hgiven
    rcases hgiven with ⟨fact, hfact, hmem⟩
    exact ⟨fact, hfact, gives_of_mem_consequencesOf hmem⟩
  · intro hgiven
    rcases hgiven with ⟨fact, hfact, hgives⟩
    exact ⟨fact, hfact, mem_consequencesOf_of_gives hgives⟩

/-! ## The closure -/

/-- Some dependency of the list is of the first element on the second. -/
def HasEdge (dependencies : List Statement) (x y : ElementId) : Prop :=
  ∃ dependency ∈ dependencies, dependency.subject = x ∧ dependency.object = y

theorem mem_get_edgesOf_iff {dependencies : List Statement} {x y : ElementId} :
    y ∈ (edgesOf dependencies).get x ↔ HasEdge dependencies x y := by
  simp [get_edgesOf, HasEdge, and_assoc]

/-- Following the dependencies of a list from one element finds the ends of
all paths over them. -/
theorem mem_reachable_edgesOf_iff {dependencies : List Statement} {source target : ElementId} :
    target ∈ reachable (edgesOf dependencies).get dependencies.length source ↔
      Relation.TransGen (HasEdge dependencies) source target := by
  have hobjects : ∀ x, ∀ y ∈ (edgesOf dependencies).get x,
      y ∈ dependencies.map (·.object) := by
    intro x y hmem
    obtain ⟨dependency, hdependency, -, rfl⟩ := mem_get_edgesOf_iff.mp hmem
    exact List.mem_map_of_mem hdependency
  rw [mem_reachable_iff hobjects (Nat.le_of_eq (List.length_map _))]
  simp only [mem_get_edgesOf_iff]

theorem mem_closure_iff {dependencies : List Statement} {statement : Statement} :
    statement ∈ closure dependencies ↔
      statement.predicate = .transitivelyDependsOn ∧
        Relation.TransGen (HasEdge dependencies) statement.subject statement.object := by
  simp only [closure, keys_edgesOf, List.mem_flatMap, List.mem_map, List.mem_eraseDups,
    mem_reachable_edgesOf_iff]
  constructor
  · intro hgiven
    rcases hgiven with ⟨source, -, target, hpath, rfl⟩
    exact ⟨rfl, hpath⟩
  · obtain ⟨x, predicate, y⟩ := statement
    intro hgiven
    rcases hgiven with ⟨rfl, hpath⟩
    refine ⟨x, ?_, y, hpath, rfl⟩
    -- the first step of the path is a dependency that starts at `x`
    obtain ⟨middle, ⟨dependency, hfirst, hsubject, -⟩, -⟩ := Relation.TransGen.head'_iff.mp hpath
    exact ⟨dependency, hfirst, hsubject⟩

theorem hasEdge_dependencies_iff {facts : Store} {rules : List Rule} {x y : ElementId} :
    HasEdge (dependencies facts rules) x y ↔ DependsIn facts (direct facts rules).toList x y := by
  have hmem : ⟨x, .dependsOn, y⟩ ∈ dependencies facts rules ↔
      DependsIn facts (direct facts rules).toList x y := by
    simp [dependencies, DependsIn, Store.mem_matching_ofPredicate_iff]
  rw [← hmem]
  constructor
  · rintro ⟨⟨_, predicate, _⟩, hdependency, rfl, rfl⟩
    have hpredicate : predicate = .dependsOn := by
      rcases List.mem_append.mp hdependency with hasserted | hderived
      · exact (Store.mem_matching_ofPredicate_iff.mp hasserted).2
      · simpa using (List.mem_filter.mp hderived).2
    rwa [← hpredicate]
  · intro hdependency
    exact ⟨_, hdependency, rfl, rfl⟩

/-! ## The whole answer -/

theorem mem_infer_iff {facts : Store} {rules : List Rule} {statement : Statement} :
    statement ∈ infer facts rules ↔
      statement ∈ (direct facts rules).toList ∨
        .transitiveDependency ∈ rules ∧
          statement ∈ closure (dependencies facts rules) := by
  rw [infer_eq, List.mem_eraseDups, List.mem_append, toList_direct, List.mem_eraseDups]
  split <;> simp_all

/-- Apart from the closure an answer consists of what single facts give rise to. -/
theorem mem_infer_iff_gives {facts : Store} {rules : List Rule} {statement : Statement}
    (hpredicate : statement.predicate ≠ .transitivelyDependsOn) :
    statement ∈ infer facts rules ↔
      ∃ fact ∈ facts.toList, Gives facts rules fact statement := by
  rw [mem_infer_iff, mem_direct_iff, mem_closure_iff]
  simp [hpredicate]

/-- What the closure follows is all dependencies of the answer. -/
theorem hasEdge_dependencies_eq (facts : Store) (rules : List Rule) :
    HasEdge (dependencies facts rules) = DependsIn facts (infer facts rules) := by
  funext x y
  rw [hasEdge_dependencies_iff, DependsIn, DependsIn, mem_infer_iff_gives (by simp),
    mem_direct_iff]

theorem mem_infer_transitivelyDependsOn_iff {facts : Store} {rules : List Rule}
    {x y : ElementId} :
    ⟨x, .transitivelyDependsOn, y⟩ ∈ infer facts rules ↔
      .transitiveDependency ∈ rules ∧
        Relation.TransGen (DependsIn facts (infer facts rules)) x y := by
  have hnotDirect : ⟨x, .transitivelyDependsOn, y⟩ ∉ (direct facts rules).toList := by
    rw [mem_direct_iff]
    intro hgiven
    rcases hgiven with ⟨fact, -, hgives⟩
    exact hgives.predicate_ne rfl
  rw [mem_infer_iff, mem_closure_iff, hasEdge_dependencies_eq]
  simp only [hnotDirect, false_or, true_and]

theorem nodup_infer (facts : Store) (rules : List Rule) : (infer facts rules).Nodup := by
  rw [infer_eq]
  exact nodup_eraseDups _

theorem isDerived_of_mem_infer {facts : Store} {rules : List Rule} {statement : Statement}
    (hmem : statement ∈ infer facts rules) : statement.isDerived := by
  rcases mem_infer_iff.mp hmem with hdirect | ⟨-, hclosed⟩
  · obtain ⟨fact, -, hgives⟩ := mem_direct_iff.mp hdirect
    exact hgives.isDerived
  · rw [Statement.isDerived, (mem_closure_iff.mp hclosed).1]
    rfl

theorem infer_derivesExactly (facts : Store) (rules : List Rule) :
    DerivesExactly facts rules (infer facts rules) where
  nodup := nodup_infer facts rules
  isDerived _ := isDerived_of_mem_infer
  dependsOn_iff x y := by
    rw [mem_infer_iff_gives (by simp)]
    constructor
    · intro hgiven
      rcases hgiven with ⟨fact, hfact, hgives⟩
      cases hgives with
      | citation hrule => exact .inl ⟨hrule, hfact⟩
      | logical hrule hlogical => exact .inr ⟨hrule, _, hlogical, hfact⟩
    · intro hgiven
      rcases hgiven with ⟨hrule, hfact⟩ | ⟨hrule, predicate, hlogical, hfact⟩
      · exact ⟨_, hfact, .citation hrule⟩
      · exact ⟨_, hfact, .logical hrule hlogical⟩
  transitivelyDependsOn_iff x y := mem_infer_transitivelyDependsOn_iff
  circularArgument_iff x y := by
    rw [mem_infer_iff_gives (by simp)]
    constructor
    · intro hgiven
      rcases hgiven with ⟨fact, hfact, hgives⟩
      cases hgives with
      | circular hrule hback => exact ⟨hrule, hfact, hback⟩
    · intro hgiven
      rcases hgiven with ⟨hrule, hfact, hback⟩
      exact ⟨_, hfact, .circular hrule hback⟩
  derivedFrom_iff x y := by
    rw [mem_infer_iff_gives (by simp)]
    constructor
    · intro hgiven
      rcases hgiven with ⟨fact, hfact, hgives⟩
      cases hgives with
      | proof hrule hcites => exact ⟨hrule, .inr ⟨_, hfact, hcites⟩⟩
      | corollary hrule => exact ⟨hrule, .inl hfact⟩
    · intro hgiven
      rcases hgiven with ⟨hrule, hfact | ⟨q, hfact, hcites⟩⟩
      · exact ⟨_, hfact, .corollary hrule⟩
      · exact ⟨_, hfact, .proof hrule hcites⟩
  explains_iff x y := by
    rw [mem_infer_iff_gives (by simp)]
    constructor
    · intro hgiven
      rcases hgiven with ⟨fact, hfact, hgives⟩
      cases hgives with
      | explanation hrule => exact ⟨hrule, hfact⟩
    · intro hgiven
      rcases hgiven with ⟨hrule, hfact⟩
      exact ⟨_, hfact, .explanation hrule⟩

/-! ## What the answer is about -/

open Store (mentionedIn subject_mentionedIn object_mentionedIn)

theorem Gives.mentioned {facts : Store} {rules : List Rule} {fact conclusion : Statement}
    (hgives : Gives facts rules fact conclusion) (hfact : fact ∈ facts.toList) :
    conclusion.subject ∈ mentionedIn facts.toList ∧
      conclusion.object ∈ mentionedIn facts.toList := by
  have hsubject := subject_mentionedIn hfact
  have hobject := object_mentionedIn hfact
  cases hgives with
  | explanation => exact ⟨hobject, hsubject⟩
  | proof _ hcites =>
      have hcited := object_mentionedIn hcites
      exact ⟨hsubject, hcited⟩
  | _ => exact ⟨hsubject, hobject⟩

theorem DependsIn.mentioned {facts : Store} {rules : List Rule} {x y : ElementId}
    (hdepends : DependsIn facts (direct facts rules).toList x y) :
    x ∈ mentionedIn facts.toList ∧ y ∈ mentionedIn facts.toList := by
  rcases hdepends with hfact | hderived
  · exact ⟨subject_mentionedIn hfact, object_mentionedIn hfact⟩
  · rcases mem_direct_iff.mp hderived with ⟨fact, hfact, hgives⟩
    exact hgives.mentioned hfact

theorem mentionedIn_infer_subset (facts : Store) (rules : List Rule) :
    mentionedIn (infer facts rules) ⊆ mentionedIn facts.toList := by
  rintro id ⟨statement, hmem, hend⟩
  have hends : statement.subject ∈ mentionedIn facts.toList ∧
      statement.object ∈ mentionedIn facts.toList := by
    rcases mem_infer_iff.mp hmem with hdirect | ⟨-, hclosed⟩
    · rcases mem_direct_iff.mp hdirect with ⟨fact, hfact, hgives⟩
      exact hgives.mentioned hfact
    · have hpath := (mem_closure_iff.mp hclosed).2
      rcases Relation.TransGen.head'_iff.mp hpath with ⟨_, hfirst, -⟩
      rcases Relation.TransGen.tail'_iff.mp hpath with ⟨_, -, hlast⟩
      exact ⟨(hasEdge_dependencies_iff.mp hfirst).mentioned.1,
        (hasEdge_dependencies_iff.mp hlast).mentioned.2⟩
  rcases hend with rfl | rfl
  · exact hends.1
  · exact hends.2

/-- Chaining answers for all facts and rules, and derives what follows from
them and nothing else. -/
theorem chaining_sound_complete (facts : Store) (rules : List Rule) :
    ∃ derived, Oracle.chaining.infer facts rules = .ok derived ∧
      DerivesExactly facts rules derived :=
  ⟨infer facts rules, rfl, infer_derivesExactly facts rules⟩

end Treatise.Inference
