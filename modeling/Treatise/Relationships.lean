import Treatise.Store.Basic

/-!
# Relationships and dependency chains

Asserted facts and derived ones are kept in two stores, and a relationship is looked up in the
store of its family only.  A chain is a single derived step.
-/

namespace Treatise

structure Facts where
  asserted : Store
  derived : Store

def Facts.storeOf (facts : Facts) (predicate : Predicate) : Store :=
  if predicate.isDerived then facts.derived else facts.asserted

structure RelationshipRecord where
  subject : ElementId
  predicate : String
  object : ElementId
  direction : Direction
  inferred : Bool
  deriving DecidableEq

namespace Relationships

def nameOf (predicate : Predicate) : Direction → String
  | .outbound => predicate.wireName
  | .inbound => predicate.inverseName

def record (direction : Direction) (statement : Statement) : RelationshipRecord where
  subject := statement.subject
  predicate := nameOf statement.predicate direction
  object := statement.object
  direction := direction
  inferred := statement.isDerived

/-- All relationships of an element: by predicate in the order of the vocabulary, outbound before
inbound, and then in the order of the store. -/
def query (facts : Facts) (id : ElementId) : List RelationshipRecord :=
  Predicate.all.flatMap fun predicate =>
    Direction.all.flatMap fun direction =>
      ((facts.storeOf predicate).matching (direction.pattern id predicate)).map (record direction)

end Relationships

/-- What an element has to do with a chain: it depends on the end, or the start depends on it. -/
inductive ChainKind where
  | transitiveDependency
  | transitiveDependent
  | directDependency
  | directDependent
  deriving DecidableEq, Inhabited

namespace ChainKind

def all : List ChainKind :=
  [.transitiveDependency, .transitiveDependent, .directDependency, .directDependent]

def name : ChainKind → String
  | transitiveDependency => "transitive_dependency"
  | transitiveDependent => "transitive_dependent"
  | directDependency => "direct_dependency"
  | directDependent => "direct_dependent"

def ofName? (name : String) : Option ChainKind := all.find? fun kind => kind.name == name

def predicate : ChainKind → Predicate
  | transitiveDependency | transitiveDependent => .transitivelyDependsOn
  | directDependency | directDependent => .dependsOn

def direction : ChainKind → Direction
  | transitiveDependency | directDependency => .outbound
  | transitiveDependent | directDependent => .inbound

theorem ofName?_name (kind : ChainKind) : ofName? kind.name = some kind := by
  cases kind <;> decide

end ChainKind

structure PathStep where
  source : ElementId
  target : ElementId
  relationship : Predicate
  deriving DecidableEq

structure ChainRecord where
  kind : ChainKind
  start : ElementId
  finish : ElementId
  relationship : Predicate
  inferred : Bool
  path : List PathStep
  deriving DecidableEq

namespace Chains

def record (kind : ChainKind) (statement : Statement) : ChainRecord where
  kind := kind
  start := statement.subject
  finish := statement.object
  relationship := statement.predicate
  inferred := true
  path := [⟨statement.subject, statement.object, statement.predicate⟩]

def find (derived : Store) (id : ElementId) : List ChainRecord :=
  ChainKind.all.flatMap fun kind =>
    (derived.matching (kind.direction.pattern id kind.predicate)).map (record kind)

end Chains

end Treatise
