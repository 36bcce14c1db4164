import Mathlib.Data.List.ProdSigma
import Treatise.Proofs.Session.Chains
import Treatise.Relationships

/-!
# What a query of an element shows

A query shows the statements that are visible at an element: those of either
family in the store that is read for it.  Each is shown once for each of its
ends that is the element, under a name from which the predicate can be read
back.  So nothing is lost or added, and a statement is shown as often at its
object as at its subject.
-/

namespace Treatise

/-- What queries can see: of each store the statements of its own family. -/
def Facts.visible (facts : Facts) : List Statement :=
  facts.asserted.toList.filter (·.predicate ∈ Predicate.asserted) ++
    facts.derived.toList.filter (·.predicate ∈ Predicate.derived)

namespace Relationships

/-! ## Names -/

/-- The predicate that has this name in this direction. -/
def predicateNamed? (direction : Direction) (name : String) : Option Predicate :=
  Predicate.all.find? fun predicate => nameOf predicate direction == name

theorem predicateNamed?_eq_some_iff {direction : Direction} {name : String}
    {predicate : Predicate} :
    predicateNamed? direction name = some predicate ↔ name = nameOf predicate direction := by
  constructor
  · intro hfound
    unfold predicateNamed? at hfound
    have hname := List.find?_some hfound
    exact (beq_iff_eq.mp hname).symm
  · intro hname
    subst hname
    cases direction <;> cases predicate <;> decide

theorem nameOf_injective (direction : Direction) :
    Function.Injective fun predicate => nameOf predicate direction := by
  intro predicate other hsame
  have hfound : predicateNamed? direction (nameOf predicate direction) = some other :=
    predicateNamed?_eq_some_iff.mpr hsame
  rw [predicateNamed?_eq_some_iff.mpr rfl] at hfound
  exact Option.some.inj hfound

/-- A record shows a statement when it has both of its ends and the name of
its predicate in the direction of the record. -/
structure Shows (found : RelationshipRecord) (statement : Statement) : Prop where
  subject : found.subject = statement.subject
  name : found.predicate = nameOf statement.predicate found.direction
  object : found.object = statement.object

theorem shows_iff {found : RelationshipRecord} {statement : Statement} :
    Shows found statement ↔
      found.subject = statement.subject ∧
        found.predicate = nameOf statement.predicate found.direction ∧
        found.object = statement.object :=
  ⟨fun hshows => ⟨hshows.subject, hshows.name, hshows.object⟩,
    fun ⟨hsubject, hname, hobject⟩ => ⟨hsubject, hname, hobject⟩⟩

instance (found : RelationshipRecord) : DecidablePred (Shows found) := fun _ =>
  decidable_of_iff _ shows_iff.symm

/-- The statement behind a record, read off its direction and its name. -/
def statementOf? (found : RelationshipRecord) : Option Statement :=
  (predicateNamed? found.direction found.predicate).map fun predicate =>
    ⟨found.subject, predicate, found.object⟩

theorem statementOf?_eq_some_iff {found : RelationshipRecord} {statement : Statement} :
    statementOf? found = some statement ↔ Shows found statement := by
  rw [statementOf?, Option.map_eq_some_iff, shows_iff]
  constructor
  · rintro ⟨predicate, hname, rfl⟩
    exact ⟨rfl, predicateNamed?_eq_some_iff.mp hname, rfl⟩
  · rintro ⟨hsubject, hname, hobject⟩
    refine ⟨statement.predicate, predicateNamed?_eq_some_iff.mpr hname, ?_⟩
    rw [hsubject, hobject]

theorem shows_record_iff {direction : Direction} {statement other : Statement} :
    Shows (record direction statement) other ↔ statement = other := by
  constructor
  · intro hshows
    have hpredicate : statement.predicate = other.predicate :=
      nameOf_injective direction hshows.name
    have hsubject : statement.subject = other.subject := hshows.subject
    have hobject : statement.object = other.object := hshows.object
    cases statement
    simp_all
  · rintro rfl
    exact ⟨rfl, rfl, rfl⟩

/-! ## Groups -/

/-- The predicates in the order of the vocabulary, and for each the outbound
direction before the inbound one. -/
def groups : List (Predicate × Direction) := Predicate.all ×ˢ Direction.all

theorem mem_groups (predicate : Predicate) (direction : Direction) :
    (predicate, direction) ∈ groups := by
  have hdirection : direction ∈ Direction.all := by
    cases direction <;> decide
  exact List.mem_product.mpr ⟨predicate.mem_all, hdirection⟩

theorem nodup_groups : groups.Nodup := Predicate.nodup_all.product (by decide)

/-- The records in a direction under the name that a predicate has there. -/
def under (records : List RelationshipRecord) (predicate : Predicate) (direction : Direction) :
    List RelationshipRecord :=
  records.filter fun found =>
    found.direction = direction ∧ found.predicate = nameOf predicate direction

theorem matching_storeOf (facts : Facts) (id : ElementId) (predicate : Predicate)
    (direction : Direction) :
    (facts.storeOf predicate).matching (direction.pattern id predicate) =
      facts.visible.filter fun statement =>
        statement.predicate = predicate ∧ direction.nearEnd statement = id := by
  have haccepts : ∀ statement, (direction.pattern id predicate).accepts statement =
      decide (statement.predicate = predicate ∧ direction.nearEnd statement = id) := by
    intro statement
    rw [Bool.eq_iff_iff, Direction.accepts_pattern_iff, decide_eq_true_iff]
  have hother : ∀ family : List Predicate, predicate ∉ family → ∀ statements : List Statement,
      (statements.filter (·.predicate ∈ family)).filter
        (fun statement => statement.predicate = predicate ∧ direction.nearEnd statement = id) =
          [] := by
    intro family habsent statements
    rw [List.filter_filter, List.filter_eq_nil_iff]
    intro statement _
    grind
  have hown : ∀ family : List Predicate, predicate ∈ family → ∀ statements : List Statement,
      (statements.filter (·.predicate ∈ family)).filter
        (fun statement => statement.predicate = predicate ∧ direction.nearEnd statement = id) =
          statements.filter (direction.pattern id predicate).accepts := by
    intro family hmem statements
    rw [List.filter_filter]
    apply List.filter_congr
    intro statement _
    rw [haccepts]
    grind
  rw [Store.matching_eq, Facts.visible, List.filter_append, Facts.storeOf]
  cases hfamily : predicate.isDerived with
  | true =>
      have hasserted : predicate ∉ Predicate.asserted := by
        simp [Predicate.mem_asserted_iff, hfamily]
      rw [hother _ hasserted, hown _ ((Predicate.mem_derived_iff _).mpr hfamily)]
      simp
  | false =>
      have hderived : predicate ∉ Predicate.derived := by
        simp [Predicate.mem_derived_iff, hfamily]
      rw [hother _ hderived, hown _ ((Predicate.mem_asserted_iff _).mpr hfamily)]
      simp

/-- The records of one group of a query. -/
def shownUnder (facts : Facts) (id : ElementId) (group : Predicate × Direction) :
    List RelationshipRecord :=
  (facts.visible.filter fun statement =>
    statement.predicate = group.1 ∧ group.2.nearEnd statement = id).map (record group.2)

theorem query_eq_flatMap (facts : Facts) (id : ElementId) :
    query facts id = groups.flatMap (shownUnder facts id) := by
  have hgroups : groups =
      Predicate.all.flatMap fun predicate => Direction.all.map (Prod.mk predicate) := rfl
  rw [hgroups, List.flatMap_assoc, query]
  simp only [List.flatMap_map, shownUnder, matching_storeOf]

theorem mem_query_iff {facts : Facts} {id : ElementId} {found : RelationshipRecord} :
    found ∈ query facts id ↔
      ∃ direction : Direction, ∃ statement ∈ facts.visible,
        direction.nearEnd statement = id ∧ record direction statement = found := by
  simp only [query_eq_flatMap, shownUnder, List.mem_flatMap, List.mem_map, List.mem_filter,
    decide_eq_true_eq]
  constructor
  · rintro ⟨group, -, statement, ⟨hvisible, -, hend⟩, hrecord⟩
    exact ⟨group.2, statement, hvisible, hend, hrecord⟩
  · rintro ⟨direction, statement, hvisible, hend, hrecord⟩
    exact ⟨(statement.predicate, direction), mem_groups _ _, statement,
      ⟨hvisible, rfl, hend⟩, hrecord⟩

theorem flatMap_eq_of_forall_ne {κ α : Type} {keys : List κ} {key : κ} {f : κ → List α}
    (hnodup : keys.Nodup) (hmem : key ∈ keys)
    (hother : ∀ other ∈ keys, other ≠ key → f other = []) : keys.flatMap f = f key := by
  obtain ⟨before, after, rfl⟩ := List.append_of_mem hmem
  have hfresh : key ∉ before ++ after :=
    (List.nodup_cons.mp (List.nodup_middle.mp hnodup)).1
  have hnone : ∀ other ∈ before ++ after, f other = [] := by
    intro other hothers
    have hne : other ≠ key := fun hsame => hfresh (hsame ▸ hothers)
    apply hother other _ hne
    rcases List.mem_append.mp hothers with hbefore | hafter
    · exact List.mem_append_left _ hbefore
    · exact List.mem_append_right _ (List.mem_cons_of_mem key hafter)
  have hbefore : before.flatMap f = [] := by
    rw [List.flatMap_eq_nil_iff]
    intro other hmem
    exact hnone other (List.mem_append_left _ hmem)
  have hafter : after.flatMap f = [] := by
    rw [List.flatMap_eq_nil_iff]
    intro other hmem
    exact hnone other (List.mem_append_right _ hmem)
  rw [List.flatMap_append, List.flatMap_cons, hbefore, hafter, List.nil_append, List.append_nil]

theorem under_query (facts : Facts) (id : ElementId) (predicate : Predicate)
    (direction : Direction) :
    under (query facts id) predicate direction =
      shownUnder facts id (predicate, direction) := by
  have hgroup : ∀ group : Predicate × Direction, ∀ found ∈ shownUnder facts id group,
      found.direction = group.2 ∧ found.predicate = nameOf group.1 group.2 := by
    intro group found hmem
    obtain ⟨statement, hstatement, rfl⟩ := List.mem_map.mp hmem
    have hpredicate : statement.predicate = group.1 := by
      have hfits := (List.mem_filter.mp hstatement).2
      exact (of_decide_eq_true hfits).1
    exact ⟨rfl, by rw [← hpredicate]; rfl⟩
  have hown : under (shownUnder facts id (predicate, direction)) predicate direction =
      shownUnder facts id (predicate, direction) := by
    apply List.filter_eq_self.mpr
    intro found hmem
    simpa using hgroup _ found hmem
  have hother : ∀ other ∈ groups, other ≠ (predicate, direction) →
      under (shownUnder facts id other) predicate direction = [] := by
    intro other _ hne
    apply List.filter_eq_nil_iff.mpr
    intro found hmem
    obtain ⟨hdirection, hname⟩ := hgroup other found hmem
    simp only [decide_eq_true_eq]
    rintro ⟨hsame, hsameName⟩
    rw [hdirection] at hsame
    rw [hname, hsame] at hsameName
    exact hne (Prod.ext (nameOf_injective direction hsameName) hsame)
  rw [query_eq_flatMap, under, List.filter_flatMap]
  exact (flatMap_eq_of_forall_ne nodup_groups (mem_groups predicate direction) hother).trans hown

/-! ## Counts -/

/-- A statement is shown in a direction as often as it is visible, at the one
element that is its end there. -/
theorem countP_shows_query (facts : Facts) (id : ElementId) (direction : Direction)
    (statement : Statement) :
    (query facts id).countP (fun found => found.direction = direction ∧ Shows found statement) =
      if direction.nearEnd statement = id then facts.visible.count statement else 0 := by
  -- Only records under the name of the statement's predicate can show it.
  have hunder : (query facts id).countP
        (fun found => found.direction = direction ∧ Shows found statement) =
      (under (query facts id) statement.predicate direction).countP
        (fun found => Shows found statement) := by
    rw [under, List.countP_filter]
    apply List.countP_congr
    intro found _
    simp only [Bool.and_eq_true, decide_eq_true_eq]
    constructor
    · rintro ⟨rfl, hshows⟩
      exact ⟨hshows, rfl, hshows.name⟩
    · rintro ⟨hshows, hdirection, -⟩
      exact ⟨hdirection, hshows⟩
  have hshown : ∀ statements : List Statement,
      (statements.map (record direction)).countP (fun found => Shows found statement) =
        statements.count statement := by
    intro statements
    rw [List.countP_map, List.count]
    apply List.countP_congr
    intro other _
    simp [shows_record_iff]
  rw [hunder, under_query, shownUnder, hshown]
  split
  next hend =>
    apply List.count_filter
    simpa using hend
  next hend =>
    apply List.count_eq_zero.mpr
    intro hmem
    simp [hend] at hmem

/-! ## Answers -/

/-- The answers for all elements show what is visible and nothing else. -/
structure ShowsVisible (facts : Facts) (answers : ElementId → List RelationshipRecord) :
    Prop where
  outbound : ∀ id statement,
    (answers id).countP (fun found => found.direction = .outbound ∧ Shows found statement) =
      if statement.subject = id then facts.visible.count statement else 0
  inbound : ∀ id statement,
    (answers id).countP (fun found => found.direction = .inbound ∧ Shows found statement) =
      if statement.object = id then facts.visible.count statement else 0
  visible : ∀ id, ∀ found ∈ answers id, ∃ statement ∈ facts.visible, Shows found statement
  inferred_iff : ∀ id, ∀ found ∈ answers id, ∀ statement, Shows found statement →
    (found.inferred ↔ statement.predicate ∈ Predicate.derived)
  /-- The groups of an answer stand one after the other. -/
  grouped : ∀ id, answers id =
    groups.flatMap fun (predicate, direction) => under (answers id) predicate direction
  /-- A group has the order of the store that it is read from. -/
  ordered : ∀ id predicate direction,
    (under (answers id) predicate direction).map statementOf? =
      ((facts.storeOf predicate).toList.filter fun statement =>
        statement.predicate = predicate ∧ direction.nearEnd statement = id).map some
  /-- A statement is found as often from its object as from its subject. -/
  mirrored : ∀ subject predicate object,
    (answers subject).countP (fun found => found.direction = .outbound ∧
        Shows found ⟨subject, predicate, object⟩) =
      (answers object).countP (fun found => found.direction = .inbound ∧
        Shows found ⟨subject, predicate, object⟩)

theorem map_statementOf?_shownUnder (facts : Facts) (id : ElementId) (predicate : Predicate)
    (direction : Direction) :
    (shownUnder facts id (predicate, direction)).map statementOf? =
      ((facts.storeOf predicate).toList.filter fun statement =>
        statement.predicate = predicate ∧ direction.nearEnd statement = id).map some := by
  have hback : statementOf? ∘ record direction = some := by
    funext statement
    exact statementOf?_eq_some_iff.mpr (shows_record_iff.mpr rfl)
  rw [shownUnder, ← matching_storeOf, Store.matching_eq, List.map_map, hback]
  congr 1
  apply List.filter_congr
  intro statement _
  rw [Bool.eq_iff_iff, Direction.accepts_pattern_iff, decide_eq_true_iff]

theorem query_shows_visible (facts : Facts) :
    ShowsVisible facts (query facts) ∧
      ∀ found statement, statementOf? found = some statement ↔ Shows found statement := by
  refine ⟨?_, fun found statement => statementOf?_eq_some_iff⟩
  constructor
  · intro id statement
    exact countP_shows_query facts id .outbound statement
  · intro id statement
    exact countP_shows_query facts id .inbound statement
  · intro id found hmem
    obtain ⟨direction, statement, hvisible, -, rfl⟩ := mem_query_iff.mp hmem
    exact ⟨statement, hvisible, shows_record_iff.mpr rfl⟩
  · intro id found hmem statement hshows
    obtain ⟨direction, shown, -, -, rfl⟩ := mem_query_iff.mp hmem
    obtain rfl := shows_record_iff.mp hshows
    exact (Predicate.mem_derived_iff _).symm
  · intro id
    simp only [under_query]
    exact query_eq_flatMap facts id
  · intro id predicate direction
    rw [under_query]
    exact map_statementOf?_shownUnder facts id predicate direction
  · intro subject predicate object
    rw [countP_shows_query, countP_shows_query]
    simp [Direction.nearEnd]

end Relationships

end Treatise
