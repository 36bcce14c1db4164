import Std.Data.HashMap
import Treatise.Element.Catalog
import Treatise.Grouping
import Treatise.Store.Basic

/-!
# Reports about a store

Tallies and what they are used for: the most cited elements, statistics, proofs by their owners, and
structural checks.  `Tally.tally_eq` says what the rows of a tally are.
-/

namespace Treatise.Report

variable {α : Type}

structure Tally (α : Type) [DecidableEq α] [Hashable α] where
  rows : Array (α × Nat)
  positions : Std.HashMap α Nat

namespace Tally

variable [DecidableEq α] [Hashable α]

def empty : Tally α := ⟨#[], ∅⟩

def add (tally : Tally α) (value : α) : Tally α :=
  match tally.positions[value]? with
  | some position =>
    { tally with rows := tally.rows.modify position fun (value, count) => (value, count + 1) }
  | none =>
    { rows := tally.rows.push (value, 1)
      positions := tally.positions.insert value tally.rows.size }

end Tally

def tally [DecidableEq α] [Hashable α] (values : List α) : List (α × Nat) :=
  (values.foldl Tally.add Tally.empty).rows.toList

def rank (countOf : α → Nat) (rows : List α) : List α :=
  rows.mergeSort fun a b => countOf b ≤ countOf a

theorem perm_rank (countOf : α → Nat) (rows : List α) : (rank countOf rows).Perm rows :=
  List.mergeSort_perm rows _

/-! ## Rows and their positions -/

theorem getElem?_concat_eq_some_iff {values : List α} {value other : α} {position : Nat} :
    (values ++ [value])[position]? = some other ↔
      values[position]? = some other ∨ position = values.length ∧ value = other := by
  rcases Nat.lt_trichotomy position values.length with hlt | rfl | hgt
  · simp [List.getElem?_append_left hlt, Nat.ne_of_lt hlt]
  · simp
  · have hnone : values[position]? = none := List.getElem?_eq_none (Nat.le_of_lt hgt)
    have hbeyond : (values ++ [value])[position]? = none :=
      List.getElem?_eq_none (by simpa using Nat.succ_le_of_lt hgt)
    simp [hnone, hbeyond, Nat.ne_of_gt hgt]

namespace Tally

variable [DecidableEq α] [Hashable α]

/-- The tally of exactly these values: each has a row, which stands at its position. -/
structure Describes (tally : Tally α) (values : List α) : Prop where
  rows_eq : tally.rows.toList = values.eraseDups.map fun value => (value, values.count value)
  position_iff : ∀ (value : α) (position : Nat),
    tally.positions[value]? = some position ↔ values.eraseDups[position]? = some value

theorem describes_empty : (empty : Tally α).Describes [] where
  rows_eq := by simp [empty]
  position_iff value position := by simp [empty]

theorem Describes.mem_of_position {tally : Tally α} {values : List α}
    (hdescribes : tally.Describes values) {value : α} {position : Nat}
    (hposition : tally.positions[value]? = some position) : value ∈ values :=
  List.mem_eraseDups.mp
    (List.mem_of_getElem? ((hdescribes.position_iff value position).mp hposition))

theorem Describes.notMem_of_none {tally : Tally α} {values : List α}
    (hdescribes : tally.Describes values) {value : α}
    (hnone : tally.positions[value]? = none) : value ∉ values := by
  intro hmem
  obtain ⟨position, hposition⟩ := List.mem_iff_getElem?.mp (List.mem_eraseDups.mpr hmem)
  rw [(hdescribes.position_iff value position).mpr hposition] at hnone
  cases hnone

theorem Describes.position_eq_iff {tally : Tally α} {values : List α}
    (hdescribes : tally.Describes values) {value other : α} {position index : Nat}
    (hposition : tally.positions[value]? = some position)
    (hother : values.eraseDups[index]? = some other) : position = index ↔ value = other := by
  have hat := (hdescribes.position_iff value position).mp hposition
  have hstands := (hdescribes.position_iff other index).mpr hother
  constructor
  · rintro rfl
    exact Option.some.inj (hat.symm.trans hother)
  · rintro rfl
    exact Option.some.inj (hposition.symm.trans hstands)

theorem Describes.countAgain {tally : Tally α} {values : List α}
    (hdescribes : tally.Describes values) {value : α} {position : Nat} (hposition : tally.positions[value]? = some position) :
    Describes
      { tally with rows := tally.rows.modify position fun (value, count) => (value, count + 1) }
      (values ++ [value]) := by
  have hdistinct : (values ++ [value]).eraseDups = values.eraseDups := by
    rw [eraseDups_append_singleton, if_pos (hdescribes.mem_of_position hposition)]
  constructor
  · apply List.ext_getElem?
    intro index
    rw [Array.toList_modify, List.getElem?_modify, hdescribes.rows_eq, hdistinct,
      List.getElem?_map, List.getElem?_map]
    cases hother : values.eraseDups[index]? with
    | none => rfl
    | some other =>
        have hrow := hdescribes.position_eq_iff hposition hother
        by_cases hsame : value = other <;> simp [hrow, hsame]
  · rw [hdistinct]
    exact hdescribes.position_iff

theorem Describes.openRow {tally : Tally α} {values : List α} (hdescribes : tally.Describes values)
    {value : α} (hnone : tally.positions[value]? = none) :
    Describes
      { rows := tally.rows.push (value, 1)
        positions := tally.positions.insert value tally.rows.size }
      (values ++ [value]) := by
  have hnew : value ∉ values := hdescribes.notMem_of_none hnone
  have hdistinct : (values ++ [value]).eraseDups = values.eraseDups ++ [value] := by
    rw [eraseDups_append_singleton, if_neg hnew]
  have hsize : tally.rows.size = values.eraseDups.length := by
    rw [← Array.length_toList, hdescribes.rows_eq, List.length_map]
  constructor
  · have hkept : ∀ other ∈ values.eraseDups,
        (other, values.count other) = (other, (values ++ [value]).count other) := by
      intro other hmem
      have hne : value ≠ other := by
        rintro rfl
        exact hnew (List.mem_eraseDups.mp hmem)
      simp [hne]
    rw [Array.toList_push, hdescribes.rows_eq, hdistinct, List.map_append,
      List.map_congr_left hkept]
    simp [List.count_eq_zero.mpr hnew]
  · intro other position
    rw [hdistinct, Std.HashMap.getElem?_insert, hsize, getElem?_concat_eq_some_iff,
      ← hdescribes.position_iff]
    by_cases hsame : value = other
    · subst other
      simp [hnone, eq_comm]
    · simp [hsame]

theorem Describes.add {tally : Tally α} {values : List α} (hdescribes : tally.Describes values)
    (value : α) : (tally.add value).Describes (values ++ [value]) := by
  unfold Tally.add
  split
  next hposition => exact hdescribes.countAgain hposition
  next hnone => exact hdescribes.openRow hnone

theorem describes_foldl_add (values : List α) :
    (values.foldl add empty).Describes values :=
  foldl_preserves (fun values tally => Describes tally values) describes_empty
    fun _ _ value _ hdescribes => hdescribes.add value

end Tally

theorem tally_eq [DecidableEq α] [Hashable α] (values : List α) :
    tally values = values.eraseDups.map fun value => (value, values.count value) :=
  (Tally.describes_foldl_add values).rows_eq

end Treatise.Report

namespace Treatise

structure CitationCount where
  elementId : ElementId
  count : Nat
  deriving DecidableEq

structure PredicateCount where
  predicate : Predicate
  count : Nat
  deriving DecidableEq

namespace Report

def countsOf (ids : List ElementId) : List CitationCount :=
  (tally ids).map fun (id, count) => ⟨id, count⟩

def citationCounts (store : Store) (top : Nat) : List CitationCount :=
  (rank (·.count) (countsOf ((store.matching (.ofPredicate .cites)).map (·.object)))).take top

def histogram (store : Store) : List PredicateCount :=
  (Predicate.semantic.map fun predicate =>
    ⟨predicate, store.count (.ofPredicate predicate)⟩).filter fun row => 0 < row.count

end Report

structure ClassCount where
  className : String
  count : Nat
  deriving DecidableEq

structure Statistics where
  totalTriples : Nat
  totalElements : Nat
  totalCitations : Nat
  elementTypes : List ClassCount
  citationsByCiter : List CitationCount
  deriving DecidableEq

def Report.statistics (store : Store) : Statistics :=
  let typed := store.matching (.ofPredicate .instanceOf)
  let citations := store.matching (.ofPredicate .cites)
  { totalTriples := store.size
    totalElements := typed.length
    totalCitations := citations.length
    elementTypes :=
      rank (·.count)
        ((tally (typed.map (·.object))).map fun (id, count) => ⟨id.text, count⟩)
    citationsByCiter := countsOf (citations.map (·.subject)) }

structure ProofCount where
  proposition : ElementId
  count : Nat
  proofs : List ElementId
  deriving DecidableEq

namespace Report

def declaredProofs (store : Store) : List ElementId :=
  (((store.matching (.ofPredicate .instanceOf)).filter fun statement =>
    Category.ofClassName? statement.object.text == some .proof).map (·.subject)).eraseDups

/-- The proofs among the elements that no type statement declares, in the order of their ids. -/
def undeclaredProofs (declared : List ElementId) (elements : List Element) : List ElementId :=
  (((elements.filter fun element => element.category == .proof).map (·.id)).filter fun id =>
    !declared.contains id).mergeSort ElementId.atMost

def proofs (store : Store) (elements : List Element) : List ElementId :=
  let declared := declaredProofs store
  declared ++ undeclaredProofs declared elements

def ownerOf? (id : ElementId) : Option ElementId :=
  id.address?.map fun address => ⟨address.owner.text⟩

def placed (proofs : List ElementId) : List (ElementId × ElementId) :=
  proofs.filterMap fun proof => (ownerOf? proof).map fun owner => (owner, proof)

/-- The units with more than one proof, those with the most proofs first, where the catalog lists
these elements. -/
def multiProofBy (store : Store) (elements : List Element) : List ProofCount :=
  let groups := Grouping.ofPairs (placed (proofs store elements))
  rank (·.count)
    ((groups.keys.map fun owner =>
      let found := groups.get owner
      ⟨owner, found.length, found⟩).filter fun row => 1 < row.count)

def multiProof (store : Store) (catalog : Catalog) : List ProofCount :=
  multiProofBy store catalog.elements

def reductioSubjects (store : Store) : List ElementId :=
  ((store.matching (.ofPredicate .refutedByAbsurdity)).map (·.subject)).eraseDups

end Report

inductive Issue where
  | undefinedCitation (citing cited : ElementId)
  | selfCitation (id : ElementId)
  | unplaced (id : ElementId)
  deriving DecidableEq

namespace Issue

def kindName : Issue → String
  | undefinedCitation _ _ => "undefined_citation"
  | selfCitation _ => "self_citation"
  | unplaced _ => "unplaced"

def elementId : Issue → ElementId
  | undefinedCitation citing _ => citing
  | selfCitation id => id
  | unplaced id => id

def message : Issue → String
  | undefinedCitation citing cited => citing.text ++ " cites undefined element: " ++ cited.text
  | selfCitation id => "self-citation detected: " ++ id.text ++ " cites itself"
  | unplaced id => id.text ++ " is not assigned to a section"

end Issue

structure ValidationReport where
  errors : List Issue
  warnings : List Issue
  deriving DecidableEq

def ValidationReport.isOk (report : ValidationReport) : Bool := report.errors.isEmpty

namespace Report

def isDefined (typed : List Statement) (catalog : Catalog) (id : ElementId) : Bool :=
  typed.any (fun statement => statement.subject == id) || catalog.contains id

def checkCitation (typed : List Statement) (catalog : Catalog) (report : ValidationReport)
    (citation : Statement) : ValidationReport where
  errors :=
    if isDefined typed catalog citation.object then report.errors
    else report.errors ++ [.undefinedCitation citation.subject citation.object]
  warnings :=
    if citation.subject == citation.object then
      report.warnings ++ [.selfCitation citation.subject]
    else report.warnings

def isPlaceable (className : String) : Bool :=
  match Category.ofClassName? className with
  | some .definition | some .axiomItem | some .proposition => true
  | _ => false

structure PlacementPass where
  checked : List ElementId
  warnings : List Issue

/-- Looks for the place of an element, unless its class has none or it was looked for already. -/
def PlacementPass.visit (store : Store) (pass : PlacementPass) (declaration : Statement) :
    PlacementPass :=
  let id := declaration.subject
  if !isPlaceable declaration.object.text || pass.checked.contains id then pass
  else
    { checked := id :: pass.checked
      warnings :=
        if store.count (.leaving id .partOf) = 0 then pass.warnings ++ [.unplaced id]
        else pass.warnings }

def validate (store : Store) (catalog : Catalog) : ValidationReport :=
  let typed := store.matching (.ofPredicate .instanceOf)
  let report :=
    (store.matching (.ofPredicate .cites)).foldl (checkCitation typed catalog) ⟨[], []⟩
  if 0 < store.count (.ofPredicate .partOf) then
    let pass := typed.foldl (PlacementPass.visit store) ⟨[], report.warnings⟩
    { report with warnings := pass.warnings }
  else report

end Report

end Treatise
