import Treatise.Proofs.Inference.Chaining
import Treatise.Session

/-!
# The chains of an element after chaining

Once a session has reasoned with all rules, the chains of an element are what
it depends on and what depends on it.  The transitive ones are the paths over
the facts that make elements depend on each other, and a path is one chain
however many ways there are along it.  Each chain is found from both of its
ends.
-/

namespace Treatise

/-! ## A session after chaining -/

theorem ensureDerived_infer (facts : Store) (rules : List Rule) :
    ensureDerived (Inference.infer facts rules) = .ok (Inference.infer facts rules) :=
  ensureDerived_eq_ok_iff.mpr ⟨rfl, fun _ hmem => Inference.isDerived_of_mem_infer hmem⟩

theorem Session.reason_chaining (session : Session) (rules : List Rule) :
    session.reason .chaining rules =
      ⟨session.replaceDerived (Store.ofList (Inference.infer session.asserted rules)),
        (Inference.infer session.asserted rules).length, none⟩ := by
  have hanswer : Oracle.chaining.infer session.asserted rules >>= ensureDerived =
      .ok (Inference.infer session.asserted rules) :=
    ensureDerived_infer session.asserted rules
  unfold reason accept
  rw [hanswer]

/-! ## The chains that a store holds -/

namespace Chains

/-- The chains of one kind from one element to another. -/
def between (records : List ChainRecord) (kind : ChainKind) (start finish : ElementId) :
    List ChainRecord :=
  records.filter fun found =>
    found.kind = kind ∧ found.start = start ∧ found.finish = finish

theorem mem_find_iff {derived : Store} {id : ElementId} {found : ChainRecord} :
    found ∈ find derived id ↔
      ∃ kind, ∃ statement ∈ derived.toList, statement.predicate = kind.predicate ∧
        kind.direction.nearEnd statement = id ∧ record kind statement = found := by
  have hall : ∀ kind : ChainKind, kind ∈ ChainKind.all := by
    intro kind
    cases kind <;> decide
  simp only [find, List.mem_flatMap, List.mem_map, Store.matching_eq, List.mem_filter,
    Direction.accepts_pattern_iff]
  constructor
  · rintro ⟨kind, -, statement, ⟨hmem, hpredicate, hend⟩, hrecord⟩
    exact ⟨kind, statement, hmem, hpredicate, hend, hrecord⟩
  · rintro ⟨kind, statement, hmem, hpredicate, hend, hrecord⟩
    exact ⟨kind, hall kind, statement, ⟨hmem, hpredicate, hend⟩, hrecord⟩

/-- Among the chains of an element those of one kind are the statements with
the predicate of that kind at the element. -/
theorem filter_kind_find (derived : Store) (id : ElementId) (kind : ChainKind) :
    (find derived id).filter (fun found => found.kind = kind) =
      (derived.matching (kind.direction.pattern id kind.predicate)).map (record kind) := by
  have hgroup : ∀ other : ChainKind,
      ((derived.matching (other.direction.pattern id other.predicate)).map
        (record other)).filter (fun found => found.kind = kind) =
        if other = kind then
          (derived.matching (other.direction.pattern id other.predicate)).map (record other)
        else [] := by
    intro other
    split
    next hsame =>
      apply List.filter_eq_self.mpr
      intro found hmem
      rcases List.mem_map.mp hmem with ⟨statement, -, rfl⟩
      simp [record, hsame]
    next hother =>
      apply List.filter_eq_nil_iff.mpr
      intro found hmem
      rcases List.mem_map.mp hmem with ⟨statement, -, rfl⟩
      simp [record, hother]
  simp only [find, List.filter_flatMap, hgroup, ChainKind.all]
  cases kind <;> simp

theorem between_find (derived : Store) (id : ElementId) (kind : ChainKind)
    (start finish : ElementId) :
    between (find derived id) kind start finish =
      ((derived.matching (kind.direction.pattern id kind.predicate)).filter fun statement =>
        statement = ⟨start, kind.predicate, finish⟩).map (record kind) := by
  have hsplit : between (find derived id) kind start finish =
      ((find derived id).filter fun found => found.kind = kind).filter fun found =>
        found.start = start ∧ found.finish = finish := by
    rw [List.filter_filter]
    apply List.filter_congr
    intro found _
    simp only [Bool.decide_and]
    exact Bool.and_comm _ _
  rw [hsplit, filter_kind_find, List.filter_map]
  congr 1
  apply List.filter_congr
  intro statement hmem
  have hpredicate : statement.predicate = kind.predicate :=
    (Direction.accepts_pattern_iff.mp (Store.mem_matching_iff.mp hmem).2).1
  rcases statement with ⟨subject, predicate, object⟩
  obtain rfl : predicate = kind.predicate := hpredicate
  simp only [Function.comp_apply, record, Statement.mk.injEq, true_and]
  exact decide_eq_decide.mpr Iff.rfl

/-- In a store without repetition a statement is one chain of its kind, seen
from the end that the kind looks from. -/
theorem between_find_of_mem {derived : Store} (hnodup : derived.toList.Nodup) (kind : ChainKind)
    {start finish : ElementId} (hmem : ⟨start, kind.predicate, finish⟩ ∈ derived.toList) :
    between (find derived (kind.direction.nearEnd ⟨start, kind.predicate, finish⟩)) kind start
      finish = [record kind ⟨start, kind.predicate, finish⟩] := by
  have hfound : ⟨start, kind.predicate, finish⟩ ∈ derived.matching (kind.direction.pattern
      (kind.direction.nearEnd ⟨start, kind.predicate, finish⟩) kind.predicate) :=
    Store.mem_matching_iff.mpr ⟨hmem, Direction.accepts_pattern_iff.mpr ⟨rfl, rfl⟩⟩
  have honce : (derived.matching (kind.direction.pattern
      (kind.direction.nearEnd ⟨start, kind.predicate, finish⟩) kind.predicate)).Nodup := by
    rw [Store.matching_eq]
    exact hnodup.filter _
  rw [between_find, List.filter_eq, List.count_eq_one_of_mem honce hfound]
  rfl

theorem between_find_of_not_mem {derived : Store} (id : ElementId) (kind : ChainKind)
    {start finish : ElementId} (habsent : ⟨start, kind.predicate, finish⟩ ∉ derived.toList) :
    between (find derived id) kind start finish = [] := by
  have hnone : ⟨start, kind.predicate, finish⟩ ∉
      derived.matching (kind.direction.pattern id kind.predicate) := by
    intro hfound
    exact habsent (Store.mem_matching_iff.mp hfound).1
  rw [between_find, List.filter_eq, List.count_eq_zero_of_not_mem hnone]
  rfl

/-! ## Dependencies -/

/-- A citation, or a fact that says how one element logically depends on another. -/
def DependsDirectly (asserted : Store) (start finish : ElementId) : Prop :=
  ⟨start, .cites, finish⟩ ∈ asserted.toList ∨
    ∃ predicate ∈ Predicate.logical, ⟨start, predicate, finish⟩ ∈ asserted.toList

/-- A step of a dependency, which may be asserted as such. -/
def DependsAtOnce (asserted : Store) (start finish : ElementId) : Prop :=
  DependsDirectly asserted start finish ∨ ⟨start, .dependsOn, finish⟩ ∈ asserted.toList

theorem dependsOn_iff_dependsDirectly {asserted : Store} {start finish : ElementId} :
    ⟨start, .dependsOn, finish⟩ ∈ Inference.infer asserted Rule.all ↔
      DependsDirectly asserted start finish := by
  have hcitation : Rule.citationDependency ∈ Rule.all := by decide
  have hlogical : Rule.logicalDependency ∈ Rule.all := by decide
  rw [(Inference.infer_derivesExactly asserted Rule.all).dependsOn_iff]
  simp only [hcitation, hlogical, true_and, DependsDirectly]

theorem transitivelyDependsOn_iff_transGen {asserted : Store} {start finish : ElementId} :
    ⟨start, .transitivelyDependsOn, finish⟩ ∈ Inference.infer asserted Rule.all ↔
      Relation.TransGen (DependsAtOnce asserted) start finish := by
  have htransitive : Rule.transitiveDependency ∈ Rule.all := by decide
  have hsteps : Inference.DependsIn asserted (Inference.infer asserted Rule.all) =
      DependsAtOnce asserted := by
    funext x y
    apply propext
    rw [Inference.DependsIn, dependsOn_iff_dependsDirectly, DependsAtOnce]
    exact or_comm
  rw [Inference.mem_infer_transitivelyDependsOn_iff, hsteps]
  simp only [htransitive, true_and]

/-- The chains of elements are their dependencies: for each pair of elements
there is one chain of a kind or none. -/
structure FollowDependencies (asserted : Store) (chains : ElementId → List ChainRecord) :
    Prop where
  transitive : ∀ e t, Relation.TransGen (DependsAtOnce asserted) e t →
    between (chains e) .transitiveDependency e t =
      [record .transitiveDependency ⟨e, .transitivelyDependsOn, t⟩]
  not_transitive : ∀ e t, ¬ Relation.TransGen (DependsAtOnce asserted) e t →
    between (chains e) .transitiveDependency e t = []
  direct : ∀ e t, DependsDirectly asserted e t →
    between (chains e) .directDependency e t =
      [record .directDependency ⟨e, .dependsOn, t⟩]
  not_direct : ∀ e t, ¬ DependsDirectly asserted e t →
    between (chains e) .directDependency e t = []
  /-- From its other end a chain looks the same, but for its kind. -/
  transitiveDependent : ∀ e t, between (chains t) .transitiveDependent e t =
    (between (chains e) .transitiveDependency e t).map fun found =>
      { found with kind := .transitiveDependent }
  directDependent : ∀ e t, between (chains t) .directDependent e t =
    (between (chains e) .directDependency e t).map fun found =>
      { found with kind := .directDependent }
  exhaustive : ∀ e, ∀ found ∈ chains e,
    found.start = e ∧
        (found.kind = .transitiveDependency ∨ found.kind = .directDependency) ∨
      found.finish = e ∧
        (found.kind = .transitiveDependent ∨ found.kind = .directDependent)
  circular_iff : ∀ e, (∃ found ∈ chains e, found.start = e ∧ found.finish = e) ↔
    Relation.TransGen (DependsAtOnce asserted) e e

theorem between_find_farEnd {derived : Store} (hnodup : derived.toList.Nodup)
    (kind other : ChainKind) (hpredicate : other.predicate = kind.predicate)
    (hkind : kind.direction = .outbound) (hother : other.direction = .inbound)
    (start finish : ElementId) :
    between (find derived finish) other start finish =
      (between (find derived start) kind start finish).map fun found =>
        { found with kind := other } := by
  by_cases hmem : ⟨start, kind.predicate, finish⟩ ∈ derived.toList
  · have hfrom := between_find_of_mem hnodup kind hmem
    have hto := between_find_of_mem hnodup other (by rw [hpredicate]; exact hmem)
    rw [hkind] at hfrom
    rw [hother] at hto
    simp only [Direction.nearEnd] at hfrom hto
    rw [hfrom, hto, hpredicate]
    rfl
  · have hfrom := between_find_of_not_mem start kind hmem
    have hto := between_find_of_not_mem finish other
      (by rw [hpredicate]; exact hmem)
    rw [hfrom, hto]
    rfl

theorem exhaustive_find {derived : Store} {id : ElementId} {found : ChainRecord}
    (hmem : found ∈ find derived id) :
    found.start = id ∧
        (found.kind = .transitiveDependency ∨ found.kind = .directDependency) ∨
      found.finish = id ∧
        (found.kind = .transitiveDependent ∨ found.kind = .directDependent) := by
  rcases mem_find_iff.mp hmem with ⟨kind, statement, -, -, hend, rfl⟩
  cases kind with
  | transitiveDependency => exact .inl ⟨hend, .inl rfl⟩
  | transitiveDependent => exact .inr ⟨hend, .inl rfl⟩
  | directDependency => exact .inl ⟨hend, .inr rfl⟩
  | directDependent => exact .inr ⟨hend, .inr rfl⟩

/-- After reasoning with all rules the chains of elements are their dependencies. -/
theorem chains_follow_dependencies (session : Session) :
    FollowDependencies session.asserted (session.reason .chaining Rule.all).session.chains := by
  have hchains : (session.reason .chaining Rule.all).session.chains =
      find (Store.ofList (Inference.infer session.asserted Rule.all)) := by
    rw [Session.reason_chaining]
    rfl
  have hnodup : (Store.ofList (Inference.infer session.asserted Rule.all)).toList.Nodup := by
    rw [Store.toList_ofList]
    exact Inference.nodup_infer session.asserted Rule.all
  have hpath : ∀ e t, ⟨e, .transitivelyDependsOn, t⟩ ∈
      (Store.ofList (Inference.infer session.asserted Rule.all)).toList ↔
        Relation.TransGen (DependsAtOnce session.asserted) e t := by
    intro e t
    rw [Store.toList_ofList]
    exact transitivelyDependsOn_iff_transGen
  have hdirect : ∀ e t, ⟨e, .dependsOn, t⟩ ∈
      (Store.ofList (Inference.infer session.asserted Rule.all)).toList ↔
        DependsDirectly session.asserted e t := by
    intro e t
    rw [Store.toList_ofList]
    exact dependsOn_iff_dependsDirectly
  rw [hchains]
  generalize Store.ofList (Inference.infer session.asserted Rule.all) = derived at *
  constructor
  · intro e t hdepends
    exact between_find_of_mem hnodup .transitiveDependency ((hpath e t).mpr hdepends)
  · intro e t hindependent
    exact between_find_of_not_mem e _ (mt (hpath e t).mp hindependent)
  · intro e t hdepends
    exact between_find_of_mem hnodup .directDependency ((hdirect e t).mpr hdepends)
  · intro e t hindependent
    exact between_find_of_not_mem e _ (mt (hdirect e t).mp hindependent)
  · intro e t
    exact between_find_farEnd hnodup .transitiveDependency .transitiveDependent rfl rfl rfl e t
  · intro e t
    exact between_find_farEnd hnodup .directDependency .directDependent rfl rfl rfl e t
  · intro e found hmem
    exact exhaustive_find hmem
  · intro e
    constructor
    · rintro ⟨found, hmem, hstart, hfinish⟩
      rcases mem_find_iff.mp hmem with ⟨kind, ⟨x, predicate, y⟩, hstatement, hpredicate, -, rfl⟩
      obtain rfl : x = e := hstart
      obtain rfl : y = x := hfinish
      simp only at hpredicate
      subst hpredicate
      cases kind with
      | transitiveDependency => exact (hpath _ _).mp hstatement
      | transitiveDependent => exact (hpath _ _).mp hstatement
      | directDependency => exact .single (.inl ((hdirect _ _).mp hstatement))
      | directDependent => exact .single (.inl ((hdirect _ _).mp hstatement))
    · intro hcycle
      refine ⟨record .transitiveDependency ⟨e, .transitivelyDependsOn, e⟩, ?_, rfl, rfl⟩
      exact mem_find_iff.mpr ⟨.transitiveDependency, _, (hpath e e).mpr hcycle, rfl, rfl, rfl⟩

end Chains

end Treatise
