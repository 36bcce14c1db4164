import Treatise.Proofs.FirstOccurrence
import Treatise.Proofs.Store.Lookup
import Treatise.Report

/-!
# What the structural checks report

A citation is reported once for each time it is stated, and an element without
a place once at all.  Which elements are defined is settled by the whole
store, so it does not matter whether an element is cited before or after a
statement gives it a class.  More such statements can only make errors go
away.
-/

namespace Treatise

open Report

/-- An element is defined when a statement gives it a class or the catalog
knows it. -/
def IsDefined (store : Store) (catalog : Catalog) (id : ElementId) : Prop :=
  (∃ className, ⟨id, .instanceOf, className⟩ ∈ store.toList) ∨ (catalog.get? id).isSome

/-- The statement gives its subject a class whose elements have a place. -/
def Statement.IsPlaceable (statement : Statement) : Prop :=
  statement.predicate = .instanceOf ∧
    statement.object.text ∈ ["Definition", "Axiom", "Proposition"]

instance (statement : Statement) : Decidable statement.IsPlaceable :=
  inferInstanceAs (Decidable (_ ∧ _))

/-- The elements without a place, each of them once.  There are none where no
element has a place. -/
structure ListsUnplaced (store : Store) (ids : List ElementId) : Prop where
  nodup : ids.Nodup
  mem_iff : ∀ id, id ∈ ids ↔
    (∃ statement ∈ store.toList, statement.predicate = .partOf) ∧
      (∃ statement ∈ store.toList, statement.IsPlaceable ∧ statement.subject = id) ∧
        ∀ place, ⟨id, .partOf, place⟩ ∉ store.toList
  ordered : ids.Pairwise fun id other =>
    firstWith (fun statement => statement.IsPlaceable) (·.subject) store.toList id <
      firstWith (fun statement => statement.IsPlaceable) (·.subject) store.toList other

theorem isDefined_iff {store : Store} {catalog : Catalog} {id : ElementId} :
    isDefined (store.matching (.ofPredicate .instanceOf)) catalog id ↔
      IsDefined store catalog id := by
  have hknown : catalog.contains id ↔ (catalog.get? id).isSome := by
    rw [Catalog.get?, Option.isSome_map, Catalog.contains, Std.HashMap.contains_eq_isSome_getElem?]
  rw [isDefined, Bool.or_eq_true, hknown, IsDefined, List.any_eq_true]
  apply or_congr_left
  simp only [Store.mem_matching_ofPredicate_iff, beq_iff_eq]
  constructor
  · rintro ⟨⟨_, _, className⟩, ⟨hmem, rfl⟩, rfl⟩
    exact ⟨className, hmem⟩
  · rintro ⟨className, hmem⟩
    exact ⟨_, ⟨hmem, rfl⟩, rfl⟩

instance (store : Store) (catalog : Catalog) (id : ElementId) :
    Decidable (IsDefined store catalog id) :=
  decidable_of_iff _ isDefined_iff

/-- The violations in a store, and nothing else. -/
structure ReportsViolations (store : Store) (catalog : Catalog) (report : ValidationReport) :
    Prop where
  errors_eq : report.errors = (store.toList.filter fun statement =>
    statement.predicate = .cites ∧ ¬ IsDefined store catalog statement.object).map
      fun statement => .undefinedCitation statement.subject statement.object
  warnings_eq : ∃ unplaced, ListsUnplaced store unplaced ∧
    report.warnings = (store.toList.filter fun statement =>
      statement.predicate = .cites ∧ statement.subject = statement.object).map
        (fun statement => .selfCitation statement.subject) ++ unplaced.map .unplaced
  isOk_iff : report.isOk ↔
    ∀ statement ∈ store.toList, statement.predicate = .cites →
      IsDefined store catalog statement.object

/-- The second store has further type statements, at any places. -/
structure Store.AddsTypes (store other : Store) : Prop where
  sublist : store.toList.Sublist other.toList
  filter_eq : other.toList.filter (·.predicate != .instanceOf) =
    store.toList.filter (·.predicate != .instanceOf)

/-- The second store has the type statements at other places. -/
structure Store.MovesTypes (store other : Store) : Prop where
  perm : other.toList.Perm store.toList
  filter_eq : other.toList.filter (·.predicate != .instanceOf) =
    store.toList.filter (·.predicate != .instanceOf)

/-! ## The pass over the citations -/

theorem foldl_checkCitation (typed : List Statement) (catalog : Catalog)
    (citations : List Statement) (report : ValidationReport) :
    citations.foldl (checkCitation typed catalog) report =
      { errors := report.errors ++
          (citations.filter fun citation => !isDefined typed catalog citation.object).map
            fun citation => .undefinedCitation citation.subject citation.object
        warnings := report.warnings ++
          (citations.filter fun citation => citation.subject == citation.object).map
            fun citation => .selfCitation citation.subject } := by
  induction citations generalizing report with
  | nil => simp
  | cons citation citations ih =>
      rw [List.foldl_cons, ih]
      cases hdefined : isDefined typed catalog citation.object <;>
        cases hself : citation.subject == citation.object <;>
          simp [checkCitation, hdefined, hself]

/-! ## The pass over the type statements -/

theorem isPlaceable_iff {className : String} :
    isPlaceable className ↔ className ∈ ["Definition", "Axiom", "Proposition"] := by
  cases hclass : Category.ofClassName? className with
  | none =>
      have hother : className ∉ ["Definition", "Axiom", "Proposition"] := by
        intro hmem
        simp only [List.mem_cons, List.not_mem_nil, or_false] at hmem
        rcases hmem with rfl | rfl | rfl <;> exact absurd hclass (by decide)
      simp only [isPlaceable, hclass, hother]
      simp
  | some category =>
      obtain rfl := Category.className_of_ofClassName? hclass
      cases category <;> decide

/-- The elements to which some of the statements gives a placeable class. -/
def placeableOf (declarations : List Statement) : List ElementId :=
  (declarations.filter fun declaration => isPlaceable declaration.object.text).map (·.subject)

/-- Where the pass stands after these statements, when there were warnings
before it. -/
structure PassInvariant (store : Store) (before : List Issue) (pass : PlacementPass)
    (declarations : List Statement) : Prop where
  mem_checked_iff : ∀ id, id ∈ pass.checked ↔ id ∈ placeableOf declarations
  warnings_eq : pass.warnings = before ++
    ((placeableOf declarations).eraseDups.filter fun id =>
      store.count (.leaving id .partOf) = 0).map .unplaced

theorem visit_of_known {store : Store} {pass : PlacementPass} {declaration : Statement}
    (hknown : declaration.subject ∈ pass.checked) : pass.visit store declaration = pass := by
  simp [PlacementPass.visit, hknown]

theorem visit_of_not_placeable {store : Store} {pass : PlacementPass} {declaration : Statement}
    (hplaceable : isPlaceable declaration.object.text = false) :
    pass.visit store declaration = pass := by
  simp [PlacementPass.visit, hplaceable]

theorem visit_of_new {store : Store} {pass : PlacementPass} {declaration : Statement}
    (hplaceable : isPlaceable declaration.object.text)
    (hnew : declaration.subject ∉ pass.checked) :
    pass.visit store declaration =
      { checked := declaration.subject :: pass.checked
        warnings := pass.warnings ++
          ([declaration.subject].filter fun id =>
            store.count (.leaving id .partOf) = 0).map .unplaced } := by
  by_cases hplaced : store.count (.leaving declaration.subject .partOf) = 0 <;>
    simp [PlacementPass.visit, hplaceable, hnew, hplaced]

theorem PassInvariant.visit {store : Store} {before : List Issue} {pass : PlacementPass}
    {declarations : List Statement} (hpass : PassInvariant store before pass declarations)
    (declaration : Statement) :
    PassInvariant store before (pass.visit store declaration)
      (declarations ++ [declaration]) := by
  cases hplaceable : isPlaceable declaration.object.text with
  | false =>
      have hsame : placeableOf (declarations ++ [declaration]) = placeableOf declarations := by
        simp [placeableOf, hplaceable]
      rw [visit_of_not_placeable hplaceable]
      constructor
      · simpa [hsame] using hpass.mem_checked_iff
      · simpa [hsame] using hpass.warnings_eq
  | true =>
      have hmore : placeableOf (declarations ++ [declaration]) =
          placeableOf declarations ++ [declaration.subject] := by
        simp [placeableOf, hplaceable]
      have hdistinct := eraseDups_append_singleton (placeableOf declarations) declaration.subject
      by_cases hknown : declaration.subject ∈ placeableOf declarations
      · rw [if_pos hknown] at hdistinct
        rw [visit_of_known ((hpass.mem_checked_iff _).mpr hknown)]
        constructor
        · intro id
          rw [hpass.mem_checked_iff, hmore, ← List.mem_eraseDups, ← hdistinct, List.mem_eraseDups]
        · rw [hmore, hdistinct]
          exact hpass.warnings_eq
      · rw [if_neg hknown] at hdistinct
        rw [visit_of_new hplaceable (mt (hpass.mem_checked_iff _).mp hknown)]
        constructor
        · intro id
          rw [hmore, List.mem_cons, hpass.mem_checked_iff, List.mem_append, List.mem_singleton,
            or_comm]
        · rw [hmore, hdistinct, List.filter_append, List.map_append, ← List.append_assoc,
            ← hpass.warnings_eq]

theorem passInvariant_foldl_visit (store : Store) (before : List Issue)
    (declarations : List Statement) :
    PassInvariant store before (declarations.foldl (PlacementPass.visit store) ⟨[], before⟩)
      declarations := by
  have hinitial : PassInvariant store before ⟨[], before⟩ [] :=
    ⟨by simp [placeableOf], by simp [placeableOf]⟩
  exact foldl_preserves (fun declarations pass => PassInvariant store before pass declarations)
    hinitial fun _ _ declaration _ hpass => hpass.visit declaration

/-! ## The whole report -/

variable {store : Store} {catalog : Catalog}

/-- The elements that the second pass warns of. -/
def unplacedElements (store : Store) : List ElementId :=
  if 0 < store.count (.ofPredicate .partOf) then
    (placeableOf (store.matching (.ofPredicate .instanceOf))).eraseDups.filter fun id =>
      store.count (.leaving id .partOf) = 0
  else []

theorem validate_eq (store : Store) (catalog : Catalog) :
    validate store catalog =
      { errors := ((store.matching (.ofPredicate .cites)).filter fun citation =>
          !isDefined (store.matching (.ofPredicate .instanceOf)) catalog citation.object).map
            fun citation => .undefinedCitation citation.subject citation.object
        warnings := ((store.matching (.ofPredicate .cites)).filter fun citation =>
            citation.subject == citation.object).map
              (fun citation => .selfCitation citation.subject) ++
          (unplacedElements store).map .unplaced } := by
  simp only [validate, foldl_checkCitation, List.nil_append, unplacedElements]
  split
  next =>
    rw [(passInvariant_foldl_visit store _ _).warnings_eq]
  next => simp

theorem placeableOf_declarations (store : Store) :
    placeableOf (store.matching (.ofPredicate .instanceOf)) =
      (store.toList.filter fun statement => statement.IsPlaceable).map (·.subject) := by
  rw [placeableOf, Store.matching_ofPredicate, List.filter_filter]
  congr 1
  apply List.filter_congr
  intro statement _
  rw [Bool.eq_iff_iff, Bool.and_eq_true, isPlaceable_iff, beq_iff_eq, decide_eq_true_eq,
    Statement.IsPlaceable, and_comm]

theorem listsUnplaced_unplacedElements (store : Store) :
    ListsUnplaced store (unplacedElements store) := by
  rw [unplacedElements, placeableOf_declarations]
  split
  next hplaces =>
    have hplaces' := Store.count_ofPredicate_pos_iff.mp hplaces
    constructor
    · exact (nodup_eraseDups _).filter _
    · intro id
      simp only [List.mem_filter, List.mem_eraseDups, List.mem_map, decide_eq_true_eq,
        Store.count_leaving_eq_zero_iff, hplaces', true_and, and_assoc]
    · exact (pairwise_firstWith _ _ _).filter _
  next hnoPlaces =>
    have hnoPlaces' := mt Store.count_ofPredicate_pos_iff.mpr hnoPlaces
    constructor
    · exact List.nodup_nil
    · intro id
      simp [hnoPlaces']
    · exact List.Pairwise.nil

theorem filter_citations (store : Store) (selects : Statement → Prop) [DecidablePred selects] :
    (store.toList.filter fun statement => statement.predicate = .cites ∧ selects statement) =
      (store.matching (.ofPredicate .cites)).filter fun statement => selects statement := by
  rw [Store.matching_ofPredicate, List.filter_filter]
  apply List.filter_congr
  intro statement _
  rw [Bool.eq_iff_iff, Bool.and_eq_true, decide_eq_true_eq, decide_eq_true_eq, beq_iff_eq,
    and_comm]

theorem errors_validate (store : Store) (catalog : Catalog) :
    (validate store catalog).errors = (store.toList.filter fun statement =>
      statement.predicate = .cites ∧ ¬ IsDefined store catalog statement.object).map
        fun statement => .undefinedCitation statement.subject statement.object := by
  simp only [validate_eq, filter_citations]
  congr 1
  apply List.filter_congr
  intro statement _
  rw [Bool.eq_iff_iff, decide_eq_true_eq, ← isDefined_iff, Bool.not_eq_true', Bool.not_eq_true]

theorem reportsViolations_validate (store : Store) (catalog : Catalog) :
    ReportsViolations store catalog (validate store catalog) := by
  constructor
  · exact errors_validate store catalog
  · refine ⟨unplacedElements store, listsUnplaced_unplacedElements store, ?_⟩
    simp only [validate_eq, filter_citations]
    rfl
  · rw [ValidationReport.isOk, List.isEmpty_iff, errors_validate, List.map_eq_nil_iff,
      List.filter_eq_nil_iff]
    simp

/-! ## Stores with other type statements -/

variable {other : Store}

theorem IsDefined.mono {id : ElementId} (hdefined : IsDefined store catalog id)
    (hsubset : store.toList ⊆ other.toList) : IsDefined other catalog id :=
  hdefined.imp_left fun ⟨className, hmem⟩ => ⟨className, hsubset hmem⟩

theorem errors_sublist (catalog : Catalog) (hsubset : store.toList ⊆ other.toList)
    (hothers : other.toList.filter (·.predicate != .instanceOf) =
      store.toList.filter (·.predicate != .instanceOf)) :
    (validate other catalog).errors.Sublist (validate store catalog).errors := by
  have hcitations : ∀ statement : Statement, (statement.predicate == .cites &&
      statement.predicate != .instanceOf) = (statement.predicate == .cites) := by
    rintro ⟨_, predicate, _⟩
    cases predicate <;> rfl
  have hcites : other.matching (.ofPredicate .cites) = store.matching (.ofPredicate .cites) := by
    have hfiltered := congrArg (List.filter (·.predicate == .cites)) hothers
    simpa only [List.filter_filter, hcitations, ← Store.matching_ofPredicate] using hfiltered
  rw [errors_validate, errors_validate, filter_citations, filter_citations, hcites]
  apply List.Sublist.map
  apply List.monotone_filter_right
  intro statement hundefined
  simp only [decide_eq_true_eq] at hundefined ⊢
  exact mt (fun hdefined => hdefined.mono hsubset) hundefined

/-- The checks report the violations in a store and nothing else, and what they
report as an error does not depend on where the type statements stand. -/
theorem validate_exact (store : Store) (catalog : Catalog) :
    ReportsViolations store catalog (validate store catalog) ∧
      (∀ other, store.AddsTypes other →
        (validate other catalog).errors.Sublist (validate store catalog).errors) ∧
      ∀ other, store.MovesTypes other →
        (validate other catalog).errors = (validate store catalog).errors := by
  refine ⟨reportsViolations_validate store catalog, ?_, ?_⟩
  · intro other hadds
    exact errors_sublist catalog hadds.sublist.subset hadds.filter_eq
  · intro other hmoves
    apply List.Sublist.antisymm
    · exact errors_sublist catalog hmoves.perm.symm.subset hmoves.filter_eq
    · exact errors_sublist catalog hmoves.perm.subset hmoves.filter_eq.symm

/-- An element is cited before a statement gives it a class, and another one
has three classes. -/
def citedAhead : Store := .ofList
  [⟨⟨"A"⟩, .cites, ⟨"B"⟩⟩, ⟨⟨"A"⟩, .cites, ⟨"C"⟩⟩, ⟨⟨"A"⟩, .instanceOf, ⟨"Note"⟩⟩,
    ⟨⟨"A"⟩, .cites, ⟨"A"⟩⟩, ⟨⟨"A"⟩, .instanceOf, ⟨"Axiom"⟩⟩, ⟨⟨"A"⟩, .cites, ⟨"C"⟩⟩,
    ⟨⟨"B"⟩, .instanceOf, ⟨"Note"⟩⟩, ⟨⟨"A"⟩, .instanceOf, ⟨"Definition"⟩⟩,
    ⟨⟨"B"⟩, .partOf, ⟨"D"⟩⟩]

/-- The same with a class for each cited element. -/
def citedAheadTyped : Store := .ofList
  [⟨⟨"A"⟩, .cites, ⟨"B"⟩⟩, ⟨⟨"A"⟩, .cites, ⟨"C"⟩⟩, ⟨⟨"A"⟩, .instanceOf, ⟨"Note"⟩⟩,
    ⟨⟨"A"⟩, .cites, ⟨"A"⟩⟩, ⟨⟨"C"⟩, .instanceOf, ⟨"Note"⟩⟩, ⟨⟨"A"⟩, .instanceOf, ⟨"Axiom"⟩⟩,
    ⟨⟨"A"⟩, .cites, ⟨"C"⟩⟩, ⟨⟨"B"⟩, .instanceOf, ⟨"Note"⟩⟩, ⟨⟨"A"⟩, .instanceOf, ⟨"Definition"⟩⟩,
    ⟨⟨"B"⟩, .partOf, ⟨"D"⟩⟩]

/-- The same with the classes in the beginning. -/
def citedBehind : Store := .ofList
  [⟨⟨"B"⟩, .instanceOf, ⟨"Note"⟩⟩, ⟨⟨"A"⟩, .instanceOf, ⟨"Note"⟩⟩,
    ⟨⟨"A"⟩, .instanceOf, ⟨"Definition"⟩⟩, ⟨⟨"A"⟩, .instanceOf, ⟨"Axiom"⟩⟩,
    ⟨⟨"A"⟩, .cites, ⟨"B"⟩⟩, ⟨⟨"A"⟩, .cites, ⟨"C"⟩⟩, ⟨⟨"A"⟩, .cites, ⟨"A"⟩⟩,
    ⟨⟨"A"⟩, .cites, ⟨"C"⟩⟩, ⟨⟨"B"⟩, .partOf, ⟨"D"⟩⟩]

theorem validate_citedAhead :
    validate citedAhead Catalog.empty =
        ⟨[.undefinedCitation ⟨"A"⟩ ⟨"C"⟩, .undefinedCitation ⟨"A"⟩ ⟨"C"⟩],
          [.selfCitation ⟨"A"⟩, .unplaced ⟨"A"⟩]⟩ ∧
      citedAhead.AddsTypes citedAheadTyped ∧
      (validate citedAheadTyped Catalog.empty).errors.Sublist
        (validate citedAhead Catalog.empty).errors ∧
      citedAhead.MovesTypes citedBehind ∧
      (validate citedBehind Catalog.empty).errors = (validate citedAhead Catalog.empty).errors := by
  have hreport : validate citedAhead Catalog.empty =
      ⟨[.undefinedCitation ⟨"A"⟩ ⟨"C"⟩, .undefinedCitation ⟨"A"⟩ ⟨"C"⟩],
        [.selfCitation ⟨"A"⟩, .unplaced ⟨"A"⟩]⟩ := by
    simp only [validate_eq, unplacedElements, isDefined, Catalog.contains, Catalog.empty,
      Std.HashMap.contains_empty, Store.count, Store.matching_eq, citedAhead, Store.toList_ofList]
    decide +kernel
  have hadds : citedAhead.AddsTypes citedAheadTyped := by
    constructor <;> simp only [citedAhead, citedAheadTyped, Store.toList_ofList] <;> decide
  have hmoves : citedAhead.MovesTypes citedBehind := by
    constructor <;> simp only [citedAhead, citedBehind, Store.toList_ofList] <;> decide
  obtain ⟨-, hadded, hmoved⟩ := validate_exact citedAhead Catalog.empty
  exact ⟨hreport, hadds, hadded _ hadds, hmoves, hmoved _ hmoves⟩

end Treatise
