/-!
# Statements

A statement relates two elements by a predicate of a closed vocabulary.  Asserted predicates carry
what authors write; derived ones are only ever produced by inference.
-/

namespace Treatise

structure ElementId where
  text : String
  deriving DecidableEq, Hashable, Inhabited

namespace ElementId

def atMost (a b : ElementId) : Bool := decide (a.text ≤ b.text)

end ElementId

inductive Predicate where
  | cites
  | necessarilyFollows
  | clearlyFollowsFrom
  | evidentFrom
  | provedBy
  | appliesResultFrom
  | refutedByAbsurdity
  | buildsUpon
  | groundedIn
  | demonstratedBy
  | corollaryOf
  | partOf
  | instanceOf
  | transitivelyDependsOn
  | dependsOn
  | circularArgument
  | derivedFrom
  | explains
  deriving DecidableEq, Hashable, Inhabited

namespace Predicate

def asserted : List Predicate :=
  [.cites, .necessarilyFollows, .clearlyFollowsFrom, .evidentFrom, .provedBy, .appliesResultFrom,
    .refutedByAbsurdity, .buildsUpon, .groundedIn, .demonstratedBy, .corollaryOf, .partOf,
    .instanceOf]

def derived : List Predicate :=
  [.transitivelyDependsOn, .dependsOn, .circularArgument, .derivedFrom, .explains]

def all : List Predicate := asserted ++ derived

theorem mem_all (predicate : Predicate) : predicate ∈ all := by
  cases predicate <;> decide

theorem nodup_all : all.Nodup := by decide

def isDerived : Predicate → Bool
  | transitivelyDependsOn | dependsOn | circularArgument | derivedFrom | explains => true
  | _ => false

theorem mem_derived_iff (predicate : Predicate) :
    predicate ∈ derived ↔ predicate.isDerived := by
  cases predicate <;> decide

theorem mem_asserted_iff (predicate : Predicate) :
    predicate ∈ asserted ↔ predicate.isDerived = false := by
  cases predicate <;> decide

def semantic : List Predicate :=
  [.clearlyFollowsFrom, .necessarilyFollows, .groundedIn, .evidentFrom, .refutedByAbsurdity,
    .appliesResultFrom, .demonstratedBy, .provedBy, .buildsUpon]

def logical : List Predicate :=
  [.necessarilyFollows, .clearlyFollowsFrom, .appliesResultFrom, .groundedIn, .buildsUpon]

def wireName : Predicate → String
  | cites => "cites"
  | necessarilyFollows => "necessarilyFollows"
  | clearlyFollowsFrom => "clearlyfollowsFrom"
  | evidentFrom => "evidentFrom"
  | provedBy => "provedBy"
  | appliesResultFrom => "appliesResultFrom"
  | refutedByAbsurdity => "refutedByAbsurdity"
  | buildsUpon => "buildsUpon"
  | groundedIn => "groundedIn"
  | demonstratedBy => "demonstratedBy"
  | corollaryOf => "corollaryOf"
  | partOf => "partOf"
  | instanceOf => "a"
  | transitivelyDependsOn => "transitivelyDependsOn"
  | dependsOn => "dependsOn"
  | circularArgument => "circularArgument"
  | derivedFrom => "derivedFrom"
  | explains => "explains"

/-- The registered name of the relationship seen from its object; derived predicates have none. -/
def inverse : Predicate → Option String
  | cites => some "citedBy"
  | necessarilyFollows => some "necessarilyFollowedBy"
  | clearlyFollowsFrom => some "clearlyYields"
  | evidentFrom => some "makesEvident"
  | provedBy => some "proves"
  | appliesResultFrom => some "resultAppliedBy"
  | refutedByAbsurdity => some "refutesByAbsurdity"
  | buildsUpon => some "builtUponBy"
  | groundedIn => some "grounds"
  | demonstratedBy => some "demonstrates"
  | corollaryOf => some "hasCorollary"
  | partOf => some "hasPart"
  | instanceOf => some "hasInstance"
  | transitivelyDependsOn | dependsOn | circularArgument | derivedFrom | explains => none

def inverseName (predicate : Predicate) : String :=
  predicate.inverse.getD ("inverse_" ++ predicate.wireName)

def ofWireName? (name : String) : Option Predicate :=
  all.find? fun predicate => predicate.wireName == name

/-- Reads a predicate as authors write it, where `rdf:type` is another spelling of `a`. -/
def ofName? (name : String) : Option Predicate :=
  if name = "rdf:type" then some instanceOf else ofWireName? name

theorem ofWireName?_wireName (predicate : Predicate) :
    ofWireName? predicate.wireName = some predicate := by
  cases predicate <;> decide

theorem wireName_of_ofWireName? {name : String} {predicate : Predicate}
    (hfound : ofWireName? name = some predicate) : predicate.wireName = name := by
  simpa using List.find?_some hfound

end Predicate

structure Statement where
  subject : ElementId
  predicate : Predicate
  object : ElementId
  deriving DecidableEq, Hashable, Inhabited

namespace Statement

def isDerived (statement : Statement) : Bool := statement.predicate.isDerived

def shown (statement : Statement) : String :=
  "(" ++ statement.subject.text ++ " " ++ statement.predicate.wireName ++ " " ++
    statement.object.text ++ ")"

end Statement

end Treatise
