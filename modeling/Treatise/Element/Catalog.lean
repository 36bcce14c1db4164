import Std.Data.HashMap
import Treatise.Element.Address
import Treatise.Store.Basic

/-!
# The catalog of elements

A catalog is given, or read off the type statements of a store: a class that names a category
decides it, any other class leaves it to the id, and the first statement that settles an id stands.
-/

namespace Treatise

structure Element where
  id : ElementId
  category : Category
  parent : Option ElementId
  deriving DecidableEq

def Element.ofId? (id : ElementId) : Option Element :=
  id.address?.map fun address => ⟨id, address.category, address.parent⟩

structure Catalog where
  entries : Std.HashMap ElementId (Category × Option ElementId)

namespace Catalog

def empty : Catalog := ⟨∅⟩

def get? (catalog : Catalog) (id : ElementId) : Option Element :=
  catalog.entries[id]?.map fun (category, parent) => ⟨id, category, parent⟩

def contains (catalog : Catalog) (id : ElementId) : Bool := catalog.entries.contains id

def size (catalog : Catalog) : Nat := catalog.entries.size

def isEmpty (catalog : Catalog) : Bool := catalog.entries.isEmpty

def insert (catalog : Catalog) (element : Element) : Catalog :=
  ⟨catalog.entries.insert element.id (element.category, element.parent)⟩

def insertIfNew (catalog : Catalog) (element : Element) : Catalog :=
  ⟨catalog.entries.insertIfNew element.id (element.category, element.parent)⟩

def ofList (elements : List Element) : Catalog := elements.foldl insert empty

/-- The elements in the order in which they are kept, of which nothing is known. -/
def elements (catalog : Catalog) : List Element :=
  catalog.entries.toList.map fun (id, category, parent) => ⟨id, category, parent⟩

def toList (catalog : Catalog) : List Element :=
  catalog.elements.mergeSort fun a b => a.id.atMost b.id

/-- The element that a type statement declares, if its class or its subject tells a category. -/
def declared? (statement : Statement) : Option Element :=
  match Category.ofClassName? statement.object.text with
  | some category =>
    some ⟨statement.subject, category, (Element.ofId? statement.subject).bind (·.parent)⟩
  | none => Element.ofId? statement.subject

def ofStore (store : Store) : Catalog :=
  ((store.matching (.ofPredicate .instanceOf)).filterMap declared?).foldl insertIfNew empty

def categoryOf? (catalog : Catalog) (id : ElementId) : Option Category :=
  match catalog.get? id with
  | some element => some element.category
  | none => id.address?.map Address.category

/-- What to call an element: its address in words where it is known and has one, else its id. -/
def label (catalog : Catalog) (id : ElementId) : String :=
  if catalog.contains id then (id.address?.map Address.label).getD id.text else id.text

theorem id_of_get? {catalog : Catalog} {id : ElementId} {element : Element}
    (hfound : catalog.get? id = some element) : element.id = id := by
  obtain ⟨_, -, rfl⟩ := Option.map_eq_some_iff.mp hfound
  rfl

theorem get?_empty (id : ElementId) : empty.get? id = none := by
  simp [get?, empty]

theorem get?_insert (catalog : Catalog) (element : Element) (id : ElementId) :
    (catalog.insert element).get? id =
      if element.id = id then some element else catalog.get? id := by
  by_cases hsame : element.id = id
  · subst hsame
    simp [get?, insert]
  · simp [get?, insert, Std.HashMap.getElem?_insert, hsame]

theorem get?_insertIfNew (catalog : Catalog) (element : Element) (id : ElementId) :
    (catalog.insertIfNew element).get? id =
      if element.id = id ∧ catalog.get? id = none then some element else catalog.get? id := by
  simp only [get?, insertIfNew, Std.HashMap.getElem?_insertIfNew, Option.map_eq_none_iff]
  by_cases hsame : element.id = id
  · subst hsame
    by_cases hknown : element.id ∈ catalog.entries <;> simp [hknown]
  · simp [hsame]

structure Lists (catalog : Catalog) (elements : List Element) : Prop where
  nodup : (elements.map (·.id)).Nodup
  mem_iff : ∀ element, element ∈ elements ↔ catalog.get? element.id = some element

theorem lists_elements (catalog : Catalog) : catalog.Lists catalog.elements where
  nodup := by
    rw [elements, List.map_map, List.Nodup, List.pairwise_map]
    apply catalog.entries.distinct_keys_toList.imp
    intro entry other hdistinct
    simpa using hdistinct
  mem_iff element := by
    simp only [elements, get?, List.mem_map, Option.map_eq_some_iff]
    constructor
    · rintro ⟨entry, hmem, rfl⟩
      exact ⟨_, Std.HashMap.mem_toList_iff_getElem?_eq_some.mp hmem, rfl⟩
    · rintro ⟨content, hcontent, hsame⟩
      exact ⟨(element.id, content), Std.HashMap.mem_toList_iff_getElem?_eq_some.mpr hcontent, hsame⟩

end Catalog

end Treatise
