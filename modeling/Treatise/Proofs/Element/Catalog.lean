import Mathlib.Data.List.Induction
import Mathlib.Data.List.Nodup
import Treatise.Element.Catalog
import Treatise.Proofs.Store.Lookup

/-!
# Which class settles an element

A catalog that is read off a store asks of an id only the classes that type
statements give it, in their order.  For an id that is no address the first
class with a category decides.  For an address the very first class decides:
if it has no category then the address tells one, and a class that comes later
is not heard, be it the only one with a category.

A catalog says nothing about the order of its elements, so two listings of it
have the same elements in some order.
-/

namespace Treatise

namespace Store

/-- The classes that the store gives an element, in the order of the store. -/
def classesOf (store : Store) (id : ElementId) : List String :=
  (store.toList.filter fun statement =>
    statement.predicate == .instanceOf && statement.subject == id).map (·.object.text)

def categoriesOf (store : Store) (id : ElementId) : List Category :=
  (store.classesOf id).filterMap Category.ofClassName?

theorem classesOf_eq (store : Store) (id : ElementId) :
    store.classesOf id = ((store.matching (.ofPredicate .instanceOf)).filter
      (·.subject == id)).map (·.object.text) := by
  simp only [classesOf, matching_ofPredicate, List.filter_filter, Bool.and_comm]

end Store

/-- The unit that an id says its element elaborates. -/
def ElementId.parent? (id : ElementId) : Option ElementId := id.address?.bind Address.parent

namespace Catalog

/-- The element that an id is once it is given this class. -/
def ofClass? (id : ElementId) (className : String) : Option Element :=
  match Category.ofClassName? className with
  | some category => some ⟨id, category, id.parent?⟩
  | none => Element.ofId? id

theorem declared?_eq_ofClass? (statement : Statement) :
    declared? statement = ofClass? statement.subject statement.object.text := by
  have hparent : (Element.ofId? statement.subject).bind (·.parent) =
      statement.subject.parent? := by
    rw [Element.ofId?, ElementId.parent?, Option.bind_map]
    rfl
  rw [declared?, hparent]
  rfl

theorem id_of_ofClass? {id : ElementId} {className : String} {element : Element}
    (hclass : ofClass? id className = some element) : element.id = id := by
  unfold ofClass? at hclass
  split at hclass
  next => exact congrArg Element.id (Option.some.inj hclass).symm
  next =>
    obtain ⟨address, -, rfl⟩ := Option.map_eq_some_iff.mp hclass
    rfl

theorem get?_foldl_insertIfNew (elements : List Element) (catalog : Catalog) (id : ElementId) :
    (elements.foldl insertIfNew catalog).get? id =
      (catalog.get? id).or (elements.find? (·.id == id)) := by
  induction elements generalizing catalog with
  | nil => simp
  | cons element elements ih =>
      rw [List.foldl_cons, ih, get?_insertIfNew]
      by_cases hid : element.id = id
      · cases catalog.get? id <;> simp [hid]
      · simp [hid]

theorem find?_declared? (statements : List Statement) (id : ElementId) :
    (statements.filterMap declared?).find? (·.id == id) =
      ((statements.filter (·.subject == id)).map (·.object.text)).findSome? (ofClass? id) := by
  induction statements with
  | nil => rfl
  | cons statement statements ih =>
      by_cases hsubject : statement.subject = id
      · rw [List.filter_cons_of_pos (by simpa using hsubject), List.map_cons,
          List.findSome?_cons, ← ih, List.filterMap_cons, declared?_eq_ofClass?, hsubject]
        cases hclass : ofClass? id statement.object.text with
        | none => rfl
        | some element => simp [id_of_ofClass? hclass]
      · rw [List.filter_cons_of_neg (by simpa using hsubject), ← ih, List.filterMap_cons,
          declared?_eq_ofClass?]
        cases hclass : ofClass? statement.subject statement.object.text with
        | none => rfl
        | some element =>
            -- It has the id of its own subject and is passed over.
            have hid : element.id ≠ id := by
              rwa [id_of_ofClass? hclass]
            simp [hid]

theorem get?_ofStore (store : Store) (id : ElementId) :
    (ofStore store).get? id = (store.classesOf id).findSome? (ofClass? id) := by
  rw [ofStore, get?_foldl_insertIfNew, get?_empty, Option.none_or, find?_declared?,
    store.classesOf_eq]

theorem get?_ofStore_of_address?_eq_none (store : Store) {id : ElementId}
    (haddress : id.address? = none) :
    (ofStore store).get? id = (store.categoriesOf id).head?.map (⟨id, ·, none⟩) := by
  have hclass : ofClass? id =
      fun className => (Category.ofClassName? className).map (⟨id, ·, none⟩) := by
    funext className
    rw [ofClass?, Element.ofId?, ElementId.parent?, haddress]
    cases Category.ofClassName? className <;> rfl
  rw [get?_ofStore, hclass, Store.categoriesOf, List.head?_filterMap, List.map_findSome?]
  rfl

theorem get?_ofStore_of_address?_eq_some (store : Store) {id : ElementId} {address : Address}
    (haddress : id.address? = some address) :
    (ofStore store).get? id = (store.classesOf id).head?.map fun className =>
      ⟨id, (Category.ofClassName? className).getD address.category, address.parent⟩ := by
  have hclass : ∀ className, ofClass? id className =
      some ⟨id, (Category.ofClassName? className).getD address.category, address.parent⟩ := by
    intro className
    rw [ofClass?, Element.ofId?, ElementId.parent?, haddress]
    cases Category.ofClassName? className <;> rfl
  rw [get?_ofStore]
  cases store.classesOf id with
  | nil => rfl
  | cons className classNames =>
      rw [List.findSome?_cons, hclass]
      rfl

/-- A class with a category puts an id into the catalog, with the parent that
the id tells.  The category is that of the first such class, unless the id is
an address and another class comes before; then the address decides.  Without
such a class only addresses that have some class are known, by what they say. -/
theorem get?_ofStore_cases (store : Store) (id : ElementId) :
    (∀ category, (store.categoriesOf id).head? = some category →
      (id.address? = none ∨ ((store.classesOf id).head?.bind Category.ofClassName?).isSome →
        (ofStore store).get? id = some ⟨id, category, id.parent?⟩) ∧
      ∀ address, id.address? = some address →
        (store.classesOf id).head?.bind Category.ofClassName? = none →
          (ofStore store).get? id = some ⟨id, address.category, id.parent?⟩) ∧
    (store.categoriesOf id = [] →
      (ofStore store).get? id = if store.classesOf id = [] then none else Element.ofId? id) := by
  cases haddress : id.address? with
  | none =>
      have hget := get?_ofStore_of_address?_eq_none store haddress
      have hparent : id.parent? = none := by
        simp [ElementId.parent?, haddress]
      have hid : Element.ofId? id = none := by
        simp [Element.ofId?, haddress]
      refine ⟨?_, ?_⟩
      · intro category hcategory
        rw [hget, hcategory, hparent]
        exact ⟨fun _ => rfl, by simp⟩
      · intro hnone
        rw [hget, hnone, hid, ite_self]
        rfl
  | some address =>
      have hget := get?_ofStore_of_address?_eq_some store haddress
      have hparent : id.parent? = address.parent := by
        simp [ElementId.parent?, haddress]
      have hid : Element.ofId? id = some ⟨id, address.category, address.parent⟩ := by
        simp [Element.ofId?, haddress]
      rw [hget, hparent, hid, Store.categoriesOf]
      cases store.classesOf id with
      | nil => simp
      | cons first later =>
          cases hfirst : Category.ofClassName? first with
          | none => simp [hfirst]
          | some category => simp [hfirst]

/-- Classes with a category and `Theorem`, which has none, in every order. -/
def mixed : Store := .ofList
  [⟨⟨"I.prop.1"⟩, .instanceOf, ⟨"Theorem"⟩⟩,
    ⟨⟨"I.prop.1"⟩, .instanceOf, ⟨"Definition"⟩⟩,
    ⟨⟨"I.prop.11.proof1"⟩, .instanceOf, ⟨"Note"⟩⟩,
    ⟨⟨"I.prop.11.proof1"⟩, .instanceOf, ⟨"Theorem"⟩⟩,
    ⟨⟨"Preface"⟩, .instanceOf, ⟨"Theorem"⟩⟩,
    ⟨⟨"Preface"⟩, .instanceOf, ⟨"Note"⟩⟩,
    ⟨⟨"I.ax.3"⟩, .instanceOf, ⟨"Theorem"⟩⟩]

theorem get?_ofStore_mixed :
    (ofStore mixed).get? ⟨"I.prop.1"⟩ = some ⟨⟨"I.prop.1"⟩, .proposition, none⟩ ∧
      (ofStore mixed).get? ⟨"I.prop.11.proof1"⟩ =
        some ⟨⟨"I.prop.11.proof1"⟩, .note, some ⟨"I.prop.11"⟩⟩ ∧
      (ofStore mixed).get? ⟨"Preface"⟩ = some ⟨⟨"Preface"⟩, .note, none⟩ ∧
      (ofStore mixed).get? ⟨"I.ax.3"⟩ = some ⟨⟨"I.ax.3"⟩, .axiomItem, none⟩ ∧
      (ofStore mixed).get? ⟨"I.ax.4"⟩ = none := by
  have haddress : ElementId.address? ⟨"I.prop.1"⟩ =
      some ⟨"I", .proposition, 1, none, by decide⟩ := by
    decide
  have hparent : ElementId.parent? ⟨"I.prop.11.proof1"⟩ = some ⟨"I.prop.11"⟩ := by
    decide
  obtain ⟨hproposition, -⟩ := get?_ofStore_cases mixed ⟨"I.prop.1"⟩
  obtain ⟨hproof, -⟩ := get?_ofStore_cases mixed ⟨"I.prop.11.proof1"⟩
  obtain ⟨hpreface, -⟩ := get?_ofStore_cases mixed ⟨"Preface"⟩
  obtain ⟨-, haddressed⟩ := get?_ofStore_cases mixed ⟨"I.ax.3"⟩
  obtain ⟨-, hunknown⟩ := get?_ofStore_cases mixed ⟨"I.ax.4"⟩
  refine ⟨?_, ?_, ?_, ?_, ?_⟩
  · exact (hproposition .definition (by decide +kernel)).2 _ haddress (by decide +kernel)
  · rw [← hparent]
    exact (hproof .note (by decide +kernel)).1 (.inr (by decide +kernel))
  · exact (hpreface .note (by decide +kernel)).1 (.inl (by decide +kernel))
  · rw [haddressed (by decide +kernel)]
    decide +kernel
  · rw [hunknown (by decide +kernel)]
    decide +kernel

/-- A class without a category, given first, hides the class that has one. -/
theorem declared_class_hidden :
    ¬ ∀ (store : Store) (id : ElementId) (category : Category),
      (store.categoriesOf id).head? = some category →
        ∃ element, (ofStore store).get? id = some element ∧ element.category = category := by
  intro hwins
  have hdeclared : (mixed.categoriesOf ⟨"I.prop.1"⟩).head? = some .definition := by
    decide +kernel
  have hknown : (ofStore mixed).get? ⟨"I.prop.1"⟩ =
      some ⟨⟨"I.prop.1"⟩, .proposition, none⟩ := by
    rw [get?_ofStore]
    decide +kernel
  obtain ⟨element, helement, hcategory⟩ := hwins mixed ⟨"I.prop.1"⟩ .definition hdeclared
  rw [hknown] at helement
  obtain rfl := Option.some.inj helement
  cases hcategory

/-! ## Listings -/

theorem Lists.perm {catalog : Catalog} {elements other : List Element}
    (hlists : catalog.Lists elements) (hother : catalog.Lists other) : elements.Perm other := by
  apply (List.perm_ext_iff_of_nodup hlists.nodup.of_map hother.nodup.of_map).mpr
  intro element
  rw [hlists.mem_iff, hother.mem_iff]

theorem lists_ofList {elements : List Element} (hnodup : (elements.map (·.id)).Nodup) :
    (ofList elements).Lists elements where
  nodup := hnodup
  mem_iff element := by
    induction elements using List.reverseRecOn with
    | nil => simp [ofList, get?_empty]
    | append_singleton elements last ih =>
        rw [List.map_append, List.map_singleton, List.nodup_append] at hnodup
        have hnew : ∀ other ∈ elements, other.id ≠ last.id := by
          intro other hmem
          exact hnodup.2.2 _ (List.mem_map_of_mem hmem) _ List.mem_cons_self
        have hinsert : ofList (elements ++ [last]) = (ofList elements).insert last := by
          simp [ofList]
        rw [hinsert, get?_insert, List.mem_append, List.mem_singleton, ih hnodup.1]
        split
        next hsame =>
          have habsent : element ∉ elements := fun hmem => hnew element hmem hsame.symm
          rw [← ih hnodup.1, Option.some.injEq, eq_comm]
          simp [habsent]
        next hother =>
          have hne : element ≠ last := fun hsame => hother (congrArg Element.id hsame).symm
          simp [hne]

end Catalog

end Treatise
