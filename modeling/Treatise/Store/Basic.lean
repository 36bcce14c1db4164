import Treatise.Statement
import Treatise.Store.Index

/-!
# The fact store

A store is an append-only list of statements with an index.  A lookup sorts the positions that its
pattern points at; `matchingBy_eq` says that it answers what a scan of the list would.
-/

namespace Treatise

structure Pattern where
  subject : Option ElementId := none
  predicate : Option Predicate := none
  object : Option ElementId := none

namespace Pattern

def accepts (pattern : Pattern) (statement : Statement) : Bool :=
  pattern.subject.all (· == statement.subject) &&
    pattern.predicate.all (· == statement.predicate) &&
    pattern.object.all (· == statement.object)

def ofPredicate (predicate : Predicate) : Pattern := { predicate := some predicate }

def leaving (subject : ElementId) (predicate : Predicate) : Pattern :=
  { subject := some subject, predicate := some predicate }

def arriving (predicate : Predicate) (object : ElementId) : Pattern :=
  { predicate := some predicate, object := some object }

end Pattern

structure Store where
  statements : Array Statement
  index : Index
  index_describes : index.Describes statements.toList

namespace Store

def empty : Store := ⟨#[], .empty, Index.describes_empty⟩

def insert (store : Store) (statement : Statement) : Store :=
  let position := store.statements.size
  { statements := store.statements.push statement
    index := store.index.insert statement position
    index_describes := by
      simpa using store.index_describes.insert statement }

def ofList (statements : List Statement) : Store := statements.foldl insert empty

def toList (store : Store) : List Statement := store.statements.toList

def size (store : Store) : Nat := store.statements.size

def isEmpty (store : Store) : Bool := store.statements.isEmpty

def nodeCount (store : Store) : Nat := store.index.nodeCount

/-- The positions that a lookup reads: that of every accepted statement is among them. -/
def positionsBy (store : Store) (listing : Graph.Listing) (pattern : Pattern) : List Nat :=
  match pattern.subject, pattern.object, pattern.predicate with
  | some subject, _, _ => store.index.adjacent listing.outgoing subject
  | none, some object, _ => store.index.adjacent listing.incoming object
  | none, none, some predicate => (store.index.withPredicate predicate).toList
  | none, none, none => List.range store.size

/-- A lookup where `listing` lists the edges of the graph. -/
def matchingBy (store : Store) (listing : Graph.Listing) (pattern : Pattern) : List Statement :=
  let positions := (store.positionsBy listing pattern).mergeSort
  (positions.filterMap (store.statements[·]?)).filter pattern.accepts

def matching (store : Store) (pattern : Pattern) : List Statement :=
  store.matchingBy store.index.graph.listing pattern

def count (store : Store) (pattern : Pattern) : Nat := (store.matching pattern).length

@[simp]
theorem toList_empty : empty.toList = [] := rfl

@[simp]
theorem toList_insert (store : Store) (statement : Statement) :
    (store.insert statement).toList = store.toList ++ [statement] := by
  simp [toList, insert]

theorem toList_foldl_insert (statements : List Statement) (store : Store) :
    (statements.foldl insert store).toList = store.toList ++ statements := by
  induction statements generalizing store with
  | nil => simp
  | cons statement rest ih => simp [ih]

@[simp]
theorem toList_ofList (statements : List Statement) : (ofList statements).toList = statements := by
  simp [ofList, toList_foldl_insert]

theorem exists_positionsBy_perm {store : Store} {listing : Graph.Listing}
    (hlisting : listing.Lists store.index.graph) (pattern : Pattern) :
    ∃ isCandidate : Statement → Bool,
      (∀ statement, pattern.accepts statement → isCandidate statement) ∧
        (store.positionsBy listing pattern).Perm
          (positionsWhere isCandidate store.toList) := by
  have hdescribes : store.index.Describes store.toList := store.index_describes
  obtain ⟨subject, predicate, object⟩ := pattern
  cases subject with
  | some subject =>
      refine ⟨(·.subject == subject), fun statement haccepts => ?_, ?_⟩
      · simp_all [Pattern.accepts]
      · exact hdescribes.outgoing_perm hlisting.outgoing_perm subject
  | none =>
      cases object with
      | some object =>
          refine ⟨(·.object == object), fun statement haccepts => ?_, ?_⟩
          · simp_all [Pattern.accepts]
          · exact hdescribes.incoming_perm hlisting.incoming_perm object
      | none =>
          cases predicate with
          | some predicate =>
              refine ⟨(·.predicate == predicate), fun statement haccepts => ?_, ?_⟩
              · simp_all [Pattern.accepts]
              · exact .of_eq (hdescribes.withPredicate_eq predicate)
          | none =>
              refine ⟨fun _ => true, fun _ _ => rfl, .of_eq ?_⟩
              rw [positionsWhere_true]
              rfl

/-- A lookup answers what a scan of all statements would, however the edges are listed. -/
theorem matchingBy_eq {store : Store} {listing : Graph.Listing}
    (hlisting : listing.Lists store.index.graph) (pattern : Pattern) :
    store.matchingBy listing pattern = store.toList.filter pattern.accepts := by
  obtain ⟨isCandidate, hcandidate, hperm⟩ := exists_positionsBy_perm hlisting pattern
  have hread : (store.positionsBy listing pattern).mergeSort.filterMap (store.statements[·]?) =
      store.toList.filter isCandidate := by
    rw [mergeSort_eq_positionsWhere hperm, ← filterMap_positionsWhere]
    simp [toList]
  have hboth : ∀ statement,
      (pattern.accepts statement && isCandidate statement) = pattern.accepts statement := by
    intro statement
    cases haccepts : pattern.accepts statement
    · rfl
    · simp [hcandidate statement haccepts]
  simp only [matchingBy, hread, List.filter_filter, hboth]

theorem matching_eq (store : Store) (pattern : Pattern) :
    store.matching pattern = store.toList.filter pattern.accepts :=
  matchingBy_eq store.index.graph.listing_lists pattern

end Store

inductive Direction where
  | outbound
  | inbound
  deriving DecidableEq, Inhabited

namespace Direction

def all : List Direction := [.outbound, .inbound]

def name : Direction → String
  | outbound => "outbound"
  | inbound => "inbound"

def ofName? (name : String) : Option Direction :=
  all.find? fun direction => direction.name == name

def pattern (direction : Direction) (id : ElementId) (predicate : Predicate) : Pattern :=
  match direction with
  | outbound => .leaving id predicate
  | inbound => .arriving predicate id

def otherEnd (direction : Direction) (statement : Statement) : ElementId :=
  match direction with
  | outbound => statement.object
  | inbound => statement.subject

theorem ofName?_name (direction : Direction) : ofName? direction.name = some direction := by
  cases direction <;> decide

end Direction

end Treatise
