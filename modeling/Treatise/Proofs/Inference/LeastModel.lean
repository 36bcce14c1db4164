import Mathlib.Data.Set.Lattice
import Mathlib.Order.Bounds.Basic
import Treatise.N3.Document
import Treatise.Proofs.Inference.Chaining
import Treatise.Proofs.Inference.RuleText

/-!
# Chaining beside the rule text

A reasoner that is given the facts and the rule text answers for the least set
of statements that holds the facts and is closed under the clauses of the
text.  Chaining stays inside of that set, and it finds all of it except where
the facts assert `transitivelyDependsOn`: the text composes such statements
with all others, and chaining composes dependencies only.
-/

namespace Treatise

/-! ## Models of a text -/

/-- An atom as a statement, with elements in the place of its variables. -/
def Atom.ground (values : Char → ElementId) (atom : Atom) : Statement :=
  ⟨values atom.subject, atom.predicate, values atom.object⟩

def Clause.IsClosed (model : Set Statement) (clause : Clause) : Prop :=
  ∀ values : Char → ElementId, (∀ premise ∈ clause.premises, premise.ground values ∈ model) →
    clause.conclusion.ground values ∈ model

/-- The sets that hold the facts and are closed under the clauses that a text
writes out. -/
def modelsOf (label text : String) (facts : Store) : Set (Set Statement) :=
  {model | (∀ fact ∈ facts.toList, fact ∈ model) ∧
    ∃ clauses, Clause.textOf label clauses = text ∧ ∀ clause ∈ clauses, clause.IsClosed model}

def leastModel (label text : String) (facts : Store) : Set Statement :=
  Set.sInter (modelsOf label text facts)

/-! ## Clauses of each form -/

section Forms

variable {model : Set Statement} {a b c : Char} {p q r : Predicate}

theorem isClosed_same_iff (hne : a ≠ b) :
    Clause.IsClosed model ⟨[⟨a, p, b⟩], ⟨a, q, b⟩⟩ ↔
      ∀ x y, ⟨x, p, y⟩ ∈ model → ⟨x, q, y⟩ ∈ model := by
  constructor
  · intro hclosed x y hmem
    have hinstance := hclosed fun letter => if letter = a then x else y
    simpa [Atom.ground, hne.symm, hmem] using hinstance
  · intro hclosed values hpremises
    exact hclosed _ _ (hpremises _ List.mem_cons_self)

theorem isClosed_flipped_iff (hne : a ≠ b) :
    Clause.IsClosed model ⟨[⟨a, p, b⟩], ⟨b, q, a⟩⟩ ↔
      ∀ x y, ⟨x, p, y⟩ ∈ model → ⟨y, q, x⟩ ∈ model := by
  constructor
  · intro hclosed x y hmem
    have hinstance := hclosed fun letter => if letter = a then x else y
    simpa [Atom.ground, hne.symm, hmem] using hinstance
  · intro hclosed values hpremises
    exact hclosed _ _ (hpremises _ List.mem_cons_self)

theorem isClosed_mutual_iff (hne : a ≠ b) :
    Clause.IsClosed model ⟨[⟨a, p, b⟩, ⟨b, p, a⟩], ⟨a, q, b⟩⟩ ↔
      ∀ x y, ⟨x, p, y⟩ ∈ model → ⟨y, p, x⟩ ∈ model → ⟨x, q, y⟩ ∈ model := by
  constructor
  · intro hclosed x y hmem hback
    have hinstance := hclosed fun letter => if letter = a then x else y
    simpa [Atom.ground, hne.symm, hmem, hback] using hinstance
  · intro hclosed values hpremises
    exact hclosed _ _ (hpremises ⟨a, p, b⟩ (by simp)) (hpremises ⟨b, p, a⟩ (by simp))

theorem isClosed_composed_iff (hab : a ≠ b) (hac : a ≠ c) (hbc : b ≠ c) :
    Clause.IsClosed model ⟨[⟨a, p, b⟩, ⟨b, q, c⟩], ⟨a, r, c⟩⟩ ↔
      ∀ x y z, ⟨x, p, y⟩ ∈ model → ⟨y, q, z⟩ ∈ model → ⟨x, r, z⟩ ∈ model := by
  constructor
  · intro hclosed x y z hfirst hsecond
    have hinstance := hclosed fun letter =>
      if letter = a then x else if letter = b then y else z
    simpa [Atom.ground, hab.symm, hac.symm, hbc.symm, hfirst, hsecond] using hinstance
  · intro hclosed values hpremises
    exact hclosed _ _ _ (hpremises ⟨a, p, b⟩ (by simp)) (hpremises ⟨b, q, c⟩ (by simp))

end Forms

namespace Inference

/-- The clauses of the rules, read as conditions on a set of statements. -/
structure IsClosedUnder (rules : List Rule) (model : Set Statement) : Prop where
  citation : .citationDependency ∈ rules →
    ∀ x y, ⟨x, .cites, y⟩ ∈ model → ⟨x, .dependsOn, y⟩ ∈ model
  logical : .logicalDependency ∈ rules → ∀ predicate ∈ Predicate.logical,
    ∀ x y, ⟨x, predicate, y⟩ ∈ model → ⟨x, .dependsOn, y⟩ ∈ model
  dependency : .transitiveDependency ∈ rules →
    ∀ x y, ⟨x, .dependsOn, y⟩ ∈ model → ⟨x, .transitivelyDependsOn, y⟩ ∈ model
  composition : .transitiveDependency ∈ rules →
    ∀ x y z, ⟨x, .transitivelyDependsOn, y⟩ ∈ model →
      ⟨y, .transitivelyDependsOn, z⟩ ∈ model → ⟨x, .transitivelyDependsOn, z⟩ ∈ model
  circular : .circularArgument ∈ rules →
    ∀ x y, ⟨x, .refutedByAbsurdity, y⟩ ∈ model → ⟨y, .refutedByAbsurdity, x⟩ ∈ model →
      ⟨x, .circularArgument, y⟩ ∈ model
  proof : .proofDerivation ∈ rules →
    ∀ x q y, ⟨x, .provedBy, q⟩ ∈ model → ⟨q, .cites, y⟩ ∈ model → ⟨x, .derivedFrom, y⟩ ∈ model
  corollary : .proofDerivation ∈ rules →
    ∀ x y, ⟨x, .corollaryOf, y⟩ ∈ model → ⟨x, .derivedFrom, y⟩ ∈ model
  explanation : .explanation ∈ rules →
    ∀ x y, ⟨x, .evidentFrom, y⟩ ∈ model → ⟨y, .explains, x⟩ ∈ model

theorem isClosedUnder_iff {rules : List Rule} {model : Set Statement} :
    (∀ clause ∈ rules.flatMap Rule.clauses, clause.IsClosed model) ↔
      IsClosedUnder rules model := by
  have hsplit : (∀ clause ∈ rules.flatMap Rule.clauses, clause.IsClosed model) ↔
      ∀ rule ∈ rules, ∀ clause ∈ rule.clauses, clause.IsClosed model := by
    constructor
    · intro hclosed rule hrule clause hclause
      exact hclosed clause (List.mem_flatMap.mpr ⟨rule, hrule, hclause⟩)
    · intro hclosed clause hmem
      obtain ⟨rule, hrule, hclause⟩ := List.mem_flatMap.mp hmem
      exact hclosed rule hrule clause hclause
  rw [hsplit]
  constructor
  · intro hclosed
    constructor
    · intro hrule
      exact (isClosed_same_iff (by decide)).mp (hclosed _ hrule _ List.mem_cons_self)
    · intro hrule predicate hlogical
      exact (isClosed_same_iff (by decide)).mp
        (hclosed _ hrule _ (List.mem_map_of_mem hlogical))
    · intro hrule
      exact (isClosed_same_iff (by decide)).mp (hclosed _ hrule _ List.mem_cons_self)
    · intro hrule
      exact (isClosed_composed_iff (by decide) (by decide) (by decide)).mp
        (hclosed _ hrule _ (List.mem_cons_of_mem _ List.mem_cons_self))
    · intro hrule
      exact (isClosed_mutual_iff (by decide)).mp (hclosed _ hrule _ List.mem_cons_self)
    · intro hrule
      exact (isClosed_composed_iff (by decide) (by decide) (by decide)).mp
        (hclosed _ hrule _ List.mem_cons_self)
    · intro hrule
      exact (isClosed_same_iff (by decide)).mp
        (hclosed _ hrule _ (List.mem_cons_of_mem _ List.mem_cons_self))
    · intro hrule
      exact (isClosed_flipped_iff (by decide)).mp (hclosed _ hrule _ List.mem_cons_self)
  · intro hclosed rule hrule clause hclause
    cases rule with
    | citationDependency =>
        obtain rfl := List.mem_singleton.mp hclause
        exact (isClosed_same_iff (by decide)).mpr (hclosed.citation hrule)
    | logicalDependency =>
        obtain ⟨predicate, hlogical, rfl⟩ := List.mem_map.mp hclause
        exact (isClosed_same_iff (by decide)).mpr (hclosed.logical hrule predicate hlogical)
    | transitiveDependency =>
        simp only [Rule.clauses, List.mem_cons, List.not_mem_nil, or_false] at hclause
        rcases hclause with rfl | rfl
        · exact (isClosed_same_iff (by decide)).mpr (hclosed.dependency hrule)
        · exact (isClosed_composed_iff (by decide) (by decide) (by decide)).mpr
            (hclosed.composition hrule)
    | circularArgument =>
        obtain rfl := List.mem_singleton.mp hclause
        exact (isClosed_mutual_iff (by decide)).mpr (hclosed.circular hrule)
    | proofDerivation =>
        simp only [Rule.clauses, List.mem_cons, List.not_mem_nil, or_false] at hclause
        rcases hclause with rfl | rfl
        · exact (isClosed_composed_iff (by decide) (by decide) (by decide)).mpr
            (hclosed.proof hrule)
        · exact (isClosed_same_iff (by decide)).mpr (hclosed.corollary hrule)
    | explanation =>
        obtain rfl := List.mem_singleton.mp hclause
        exact (isClosed_flipped_iff (by decide)).mpr (hclosed.explanation hrule)

theorem mem_modelsOf_iff {label : String} {rules : List Rule} {facts : Store}
    {model : Set Statement} :
    model ∈ modelsOf label (Rule.text label rules) facts ↔
      (∀ fact ∈ facts.toList, fact ∈ model) ∧ IsClosedUnder rules model := by
  rw [← isClosedUnder_iff]
  constructor
  · intro hmodel
    obtain ⟨hfacts, clauses, htext, hclosed⟩ := hmodel
    obtain rfl := Clause.textOf_injective label (htext.trans (Rule.text_eq label rules))
    exact ⟨hfacts, hclosed⟩
  · intro hmodel
    exact ⟨hmodel.1, _, rfl, hmodel.2⟩

/-! ## What chaining leaves out -/

/-- The facts together with what chaining derives from them. -/
def known (facts : Store) (rules : List Rule) : Set Statement :=
  {statement | statement ∈ facts.toList ∨ statement ∈ infer facts rules}

/-- A dependency, or a fact that asserts a composition of dependencies. -/
def LinkedIn (facts : Store) (rules : List Rule) (x y : ElementId) : Prop :=
  DependsIn facts (infer facts rules) x y ∨ ⟨x, .transitivelyDependsOn, y⟩ ∈ facts.toList

theorem linkedPath_of_dependencies {facts : Store} {rules : List Rule} {x y : ElementId}
    (hpath : Relation.TransGen (DependsIn facts (infer facts rules)) x y) :
    Relation.TransGen (LinkedIn facts rules) x y := by
  have hlinked : ∀ a b, DependsIn facts (infer facts rules) a b → LinkedIn facts rules a b := by
    intro a b hdepends
    exact .inl hdepends
  exact Relation.TransGen.mono hlinked x y hpath

/-- What the transitive clauses make of paths over links. -/
def linked (facts : Store) (rules : List Rule) : Set Statement :=
  {statement | statement.predicate = .transitivelyDependsOn ∧
    .transitiveDependency ∈ rules ∧
      Relation.TransGen (LinkedIn facts rules) statement.subject statement.object}

theorem mem_facts_of_mem_known {facts : Store} {rules : List Rule} {statement : Statement}
    (hmem : statement ∈ known facts rules ∪ linked facts rules)
    (hasserted : statement.isDerived = false) : statement ∈ facts.toList := by
  rcases hmem with (hfact | hderived) | ⟨hpredicate, -, -⟩
  · exact hfact
  · rw [isDerived_of_mem_infer hderived] at hasserted
    cases hasserted
  · rw [Statement.isDerived, hpredicate] at hasserted
    cases hasserted

theorem dependsIn_of_mem {facts : Store} {rules : List Rule} {x y : ElementId}
    (hmem : ⟨x, .dependsOn, y⟩ ∈ known facts rules ∪ linked facts rules) :
    DependsIn facts (infer facts rules) x y := by
  rcases hmem with hknown | ⟨hpredicate, -, -⟩
  · exact hknown
  · cases hpredicate

theorem path_of_mem {facts : Store} {rules : List Rule} {x y : ElementId}
    (hmem : ⟨x, .transitivelyDependsOn, y⟩ ∈ known facts rules ∪ linked facts rules) :
    Relation.TransGen (LinkedIn facts rules) x y := by
  rcases hmem with (hfact | hderived) | ⟨-, -, hpath⟩
  · exact .single (.inr hfact)
  · obtain ⟨-, hpath⟩ := mem_infer_transitivelyDependsOn_iff.mp hderived
    exact linkedPath_of_dependencies hpath
  · exact hpath

theorem isClosedUnder_known_union_linked (facts : Store) (rules : List Rule) :
    IsClosedUnder rules (known facts rules ∪ linked facts rules) := by
  have hexact := infer_derivesExactly facts rules
  constructor
  · intro hrule x y hcites
    have hfact := mem_facts_of_mem_known hcites rfl
    exact .inl (.inr ((hexact.dependsOn_iff x y).mpr (.inl ⟨hrule, hfact⟩)))
  · intro hrule predicate hlogical x y hmem
    have hasserted : ∀ predicate ∈ Predicate.logical, predicate.isDerived = false := by decide
    have hfact := mem_facts_of_mem_known hmem (hasserted predicate hlogical)
    exact .inl (.inr ((hexact.dependsOn_iff x y).mpr
      (.inr ⟨hrule, predicate, hlogical, hfact⟩)))
  · intro hrule x y hmem
    exact .inr ⟨rfl, hrule, .single (.inl (dependsIn_of_mem hmem))⟩
  · intro hrule x y z hfirst hsecond
    exact .inr ⟨rfl, hrule, (path_of_mem hfirst).trans (path_of_mem hsecond)⟩
  · intro hrule x y hmem hback
    have hfact := mem_facts_of_mem_known hmem rfl
    have hbackFact := mem_facts_of_mem_known hback rfl
    exact .inl (.inr ((hexact.circularArgument_iff x y).mpr ⟨hrule, hfact, hbackFact⟩))
  · intro hrule x q y hproved hcites
    have hfact := mem_facts_of_mem_known hproved rfl
    have hcited := mem_facts_of_mem_known hcites rfl
    exact .inl (.inr ((hexact.derivedFrom_iff x y).mpr ⟨hrule, .inr ⟨q, hfact, hcited⟩⟩))
  · intro hrule x y hmem
    have hfact := mem_facts_of_mem_known hmem rfl
    exact .inl (.inr ((hexact.derivedFrom_iff x y).mpr ⟨hrule, .inl hfact⟩))
  · intro hrule x y hmem
    have hfact := mem_facts_of_mem_known hmem rfl
    exact .inl (.inr ((hexact.explains_iff y x).mpr ⟨hrule, hfact⟩))

theorem Gives.mem_of_isClosedUnder {facts : Store} {rules : List Rule} {model : Set Statement}
    {fact conclusion : Statement} (hgives : Gives facts rules fact conclusion)
    (hfacts : ∀ fact ∈ facts.toList, fact ∈ model) (hclosed : IsClosedUnder rules model)
    (hfact : fact ∈ model) : conclusion ∈ model := by
  cases hgives with
  | citation hrule => exact hclosed.citation hrule _ _ hfact
  | logical hrule hlogical => exact hclosed.logical hrule _ hlogical _ _ hfact
  | circular hrule hback => exact hclosed.circular hrule _ _ hfact (hfacts _ hback)
  | proof hrule hcites => exact hclosed.proof hrule _ _ _ hfact (hfacts _ hcites)
  | corollary hrule => exact hclosed.corollary hrule _ _ hfact
  | explanation hrule => exact hclosed.explanation hrule _ _ hfact

theorem linked_subset {facts : Store} {rules : List Rule} {model : Set Statement}
    (hfacts : ∀ fact ∈ facts.toList, fact ∈ model) (hclosed : IsClosedUnder rules model) :
    linked facts rules ⊆ model := by
  rintro ⟨x, predicate, y⟩ ⟨hpredicate, hrule, hpath⟩
  obtain rfl : predicate = .transitivelyDependsOn := hpredicate
  have hlink : ∀ a b, LinkedIn facts rules a b → ⟨a, .transitivelyDependsOn, b⟩ ∈ model := by
    intro a b hlinked
    rcases hlinked with (hasserted | hderived) | hasserted
    · exact hclosed.dependency hrule a b (hfacts _ hasserted)
    · obtain ⟨fact, hfact, hgives⟩ := (mem_infer_iff_gives (by simp)).mp hderived
      exact hclosed.dependency hrule a b
        (hgives.mem_of_isClosedUnder hfacts hclosed (hfacts fact hfact))
    · exact hfacts _ hasserted
  change Relation.TransGen (LinkedIn facts rules) x y at hpath
  -- by induction along the path, one link after the other
  induction hpath with
  | single hlast => exact hlink _ _ hlast
  | tail _ hlast ih => exact hclosed.composition hrule _ _ _ ih (hlink _ _ hlast)

theorem known_subset {facts : Store} {rules : List Rule} {model : Set Statement}
    (hfacts : ∀ fact ∈ facts.toList, fact ∈ model) (hclosed : IsClosedUnder rules model) :
    known facts rules ⊆ model := by
  rintro ⟨x, predicate, y⟩ (hfact | hderived)
  · exact hfacts _ hfact
  · by_cases hpredicate : predicate = .transitivelyDependsOn
    · subst hpredicate
      obtain ⟨hrule, hpath⟩ := mem_infer_transitivelyDependsOn_iff.mp hderived
      exact linked_subset hfacts hclosed
        ⟨rfl, hrule, linkedPath_of_dependencies hpath⟩
    · obtain ⟨fact, hfact, hgives⟩ := (mem_infer_iff_gives hpredicate).mp hderived
      exact hgives.mem_of_isClosedUnder hfacts hclosed (hfacts fact hfact)

theorem isLeast_known_union_linked (label : String) (facts : Store) (rules : List Rule) :
    IsLeast (modelsOf label (Rule.text label rules) facts)
      (known facts rules ∪ linked facts rules) := by
  constructor
  · rw [mem_modelsOf_iff]
    exact ⟨fun fact hfact => .inl (.inl hfact), isClosedUnder_known_union_linked facts rules⟩
  · intro model hmodel
    obtain ⟨hfacts, hclosed⟩ := mem_modelsOf_iff.mp hmodel
    exact Set.union_subset (known_subset hfacts hclosed) (linked_subset hfacts hclosed)

theorem leastModel_eq (label : String) (facts : Store) (rules : List Rule) :
    leastModel label (Rule.text label rules) facts = known facts rules ∪ linked facts rules :=
  (isLeast_known_union_linked label facts rules).isGLB.sInf_eq

theorem linked_subset_known_iff {facts : Store} {rules : List Rule} :
    linked facts rules ⊆ known facts rules ↔
      (.transitiveDependency ∈ rules → ∀ x y, Relation.TransGen (LinkedIn facts rules) x y →
        ⟨x, .transitivelyDependsOn, y⟩ ∈ known facts rules) := by
  constructor
  · intro hsubset hrule x y hpath
    exact hsubset ⟨rfl, hrule, hpath⟩
  · rintro hpaths ⟨x, predicate, y⟩ ⟨hpredicate, hrule, hpath⟩
    obtain rfl : predicate = .transitivelyDependsOn := hpredicate
    exact hpaths hrule x y hpath

theorem linked_subset_known {facts : Store} {rules : List Rule}
    (hnone : ∀ fact ∈ facts.toList, fact.predicate ≠ .transitivelyDependsOn) :
    linked facts rules ⊆ known facts rules := by
  rw [linked_subset_known_iff]
  intro hrule x y hpath
  have hdepends : ∀ a b, LinkedIn facts rules a b → DependsIn facts (infer facts rules) a b := by
    intro a b hlinked
    rcases hlinked with hdepends | hasserted
    · exact hdepends
    · exact absurd rfl (hnone _ hasserted)
  exact .inr (mem_infer_transitivelyDependsOn_iff.mpr
    ⟨hrule, Relation.TransGen.mono hdepends x y hpath⟩)

/-- What the rule text makes of the facts is what chaining makes of them,
together with the paths over asserted `transitivelyDependsOn`. -/
theorem leastModel_of_text (label : String) (facts : Store) (rules : List Rule) :
    let model := leastModel label (Rule.text label rules) facts
    IsLeast (modelsOf label (Rule.text label rules) facts) model ∧
      model = known facts rules ∪ linked facts rules ∧
      (model = known facts rules ↔
        (.transitiveDependency ∈ rules → ∀ x y, Relation.TransGen (LinkedIn facts rules) x y →
          ⟨x, .transitivelyDependsOn, y⟩ ∈ known facts rules)) ∧
      ((∀ fact ∈ facts.toList, fact.predicate ≠ .transitivelyDependsOn) →
        model = known facts rules) := by
  intro model
  have hmodel : model = known facts rules ∪ linked facts rules := leastModel_eq label facts rules
  refine ⟨?_, hmodel, ?_, ?_⟩
  · rw [hmodel]
    exact isLeast_known_union_linked label facts rules
  · rw [hmodel, Set.union_eq_left, linked_subset_known_iff]
  · intro hnone
    rw [hmodel, Set.union_eq_left]
    exact linked_subset_known hnone

def dependencyChain : List Statement :=
  [⟨⟨"A"⟩, .cites, ⟨"B"⟩⟩, ⟨⟨"B"⟩, .groundedIn, ⟨"C"⟩⟩, ⟨⟨"C"⟩, .dependsOn, ⟨"D"⟩⟩]

/-- Two derived dependencies and an asserted one compose. -/
theorem leastModel_dependencyChain :
    let facts := Store.ofList dependencyChain
    let model := leastModel N3.defaultLabel (Rule.text N3.defaultLabel Rule.all) facts
    (∀ fact ∈ facts.toList, fact.predicate ≠ .transitivelyDependsOn) ∧
      model = known facts Rule.all ∧ ⟨⟨"A"⟩, .transitivelyDependsOn, ⟨"D"⟩⟩ ∈ model := by
  intro facts model
  obtain ⟨-, hmodel, -, hexact⟩ := leastModel_of_text N3.defaultLabel facts Rule.all
  have hfacts : facts.toList = dependencyChain := Store.toList_ofList dependencyChain
  have hnone : ∀ fact ∈ facts.toList, fact.predicate ≠ .transitivelyDependsOn := by
    rw [hfacts]
    decide
  have hderives := infer_derivesExactly facts Rule.all
  have hfirst : LinkedIn facts Rule.all ⟨"A"⟩ ⟨"B"⟩ := by
    have hcites : ⟨⟨"A"⟩, .cites, ⟨"B"⟩⟩ ∈ facts.toList := by
      rw [hfacts]
      decide
    exact .inl (.inr ((hderives.dependsOn_iff _ _).mpr (.inl ⟨by decide, hcites⟩)))
  have hsecond : LinkedIn facts Rule.all ⟨"B"⟩ ⟨"C"⟩ := by
    have hgrounded : ⟨⟨"B"⟩, .groundedIn, ⟨"C"⟩⟩ ∈ facts.toList := by
      rw [hfacts]
      decide
    exact .inl (.inr ((hderives.dependsOn_iff _ _).mpr
      (.inr ⟨by decide, .groundedIn, by decide, hgrounded⟩)))
  have hthird : LinkedIn facts Rule.all ⟨"C"⟩ ⟨"D"⟩ := by
    have hasserted : ⟨⟨"C"⟩, .dependsOn, ⟨"D"⟩⟩ ∈ facts.toList := by
      rw [hfacts]
      decide
    exact .inl (.inl hasserted)
  have hlinked : ⟨⟨"A"⟩, .transitivelyDependsOn, ⟨"D"⟩⟩ ∈ linked facts Rule.all :=
    ⟨rfl, by decide, .tail (.tail (.single hfirst) hsecond) hthird⟩
  have hmem : ⟨⟨"A"⟩, .transitivelyDependsOn, ⟨"D"⟩⟩ ∈ model := hmodel.ge (.inr hlinked)
  exact ⟨hnone, hexact hnone, hmem⟩

/-! ## Facts that assert compositions -/

def assertedCompositions : List Statement :=
  [⟨⟨"A"⟩, .transitivelyDependsOn, ⟨"B"⟩⟩, ⟨⟨"B"⟩, .transitivelyDependsOn, ⟨"C"⟩⟩]

def assertedText : String :=
  "ethics:A ethics:transitivelyDependsOn ethics:B .\n" ++
    "ethics:B ethics:transitivelyDependsOn ethics:C .\n"

theorem infer_assertedCompositions :
    infer (Store.ofList assertedCompositions) [.transitiveDependency] = [] := by
  have hgives : ∀ fact ∈ (Store.ofList assertedCompositions).toList, ∀ conclusion,
      ¬ Gives (Store.ofList assertedCompositions) [.transitiveDependency] fact conclusion := by
    intro fact hfact conclusion hgives
    cases hgives <;> simp at *
  rw [List.eq_nil_iff_forall_not_mem]
  rintro ⟨x, predicate, y⟩ hmem
  by_cases hpredicate : predicate = .transitivelyDependsOn
  · subst hpredicate
    obtain ⟨-, hpath⟩ := mem_infer_transitivelyDependsOn_iff.mp hmem
    obtain ⟨z, hfirst, -⟩ := Relation.TransGen.head'_iff.mp hpath
    rcases hfirst with hasserted | hderived
    · rw [Store.toList_ofList] at hasserted
      simp [assertedCompositions] at hasserted
    · obtain ⟨fact, hfact, hfactGives⟩ := (mem_infer_iff_gives (by simp)).mp hderived
      exact hgives fact hfact _ hfactGives
  · obtain ⟨fact, hfact, hfactGives⟩ := (mem_infer_iff_gives hpredicate).mp hmem
    exact hgives fact hfact _ hfactGives

/-- A file may assert two compositions.  The rule text makes a third of them,
and chaining derives nothing. -/
theorem leastModel_assertedCompositions :
    let facts := Store.ofList assertedCompositions
    let model := leastModel N3.defaultLabel
      (Rule.text N3.defaultLabel [.transitiveDependency]) facts
    N3.Document.ofText N3.defaultLabel assertedText =
        .ok ⟨[], assertedCompositions, 0, 0⟩ ∧
      infer facts [.transitiveDependency] = [] ∧
      ⟨⟨"A"⟩, .transitivelyDependsOn, ⟨"C"⟩⟩ ∈ model ∧
      model ≠ known facts [.transitiveDependency] := by
  intro facts model
  have hread : N3.Document.ofText N3.defaultLabel assertedText =
      .ok ⟨[], assertedCompositions, 0, 0⟩ := by
    decide +kernel
  have hempty := infer_assertedCompositions
  have hlink : ∀ statement ∈ assertedCompositions,
      LinkedIn facts [.transitiveDependency] statement.subject statement.object := by
    intro statement hmem
    right
    rw [Store.toList_ofList]
    simp only [assertedCompositions, List.mem_cons, List.not_mem_nil, or_false] at hmem ⊢
    rcases hmem with rfl | rfl
    · left; rfl
    · right; rfl
  have hpath : Relation.TransGen (LinkedIn facts [.transitiveDependency]) ⟨"A"⟩ ⟨"C"⟩ :=
    .tail (.single (hlink ⟨⟨"A"⟩, .transitivelyDependsOn, ⟨"B"⟩⟩ (by decide)))
      (hlink ⟨⟨"B"⟩, .transitivelyDependsOn, ⟨"C"⟩⟩ (by decide))
  have hmodel : ⟨⟨"A"⟩, .transitivelyDependsOn, ⟨"C"⟩⟩ ∈ model := by
    simp only [model, leastModel_eq]
    exact .inr ⟨rfl, List.mem_singleton_self _, hpath⟩
  refine ⟨hread, hempty, hmodel, ?_⟩
  intro hsame
  rw [hsame] at hmodel
  rcases hmodel with hfact | hderived
  · rw [Store.toList_ofList] at hfact
    revert hfact
    decide
  · rw [hempty] at hderived
    cases hderived

end Inference

end Treatise
