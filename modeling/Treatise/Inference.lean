import Std.Data.HashSet
import Treatise.Decimal
import Treatise.Grouping
import Treatise.Statement
import Treatise.Store.Basic

/-!
# Inference

Six rules tell which facts follow.  Only the transitive one feeds on derived facts, and only on
dependencies: one pass over the facts derives everything else, and reachability closes the
dependencies.  An oracle is any other reasoner for the rules; its answer is acceptable when every
statement of it uses a derived predicate.
-/

namespace Treatise

inductive Rule where
  | citationDependency
  | logicalDependency
  | transitiveDependency
  | circularArgument
  | proofDerivation
  | explanation
  deriving DecidableEq

namespace Rule

def all : List Rule :=
  [.citationDependency, .logicalDependency, .transitiveDependency, .circularArgument,
    .proofDerivation, .explanation]

def name : Rule → String
  | citationDependency => "CitationDependency"
  | logicalDependency => "LogicalDependency"
  | transitiveDependency => "TransitiveDependency"
  | circularArgument => "CircularArgument"
  | proofDerivation => "ProofDerivation"
  | explanation => "Explanation"

end Rule

inductive OracleError where
  | failed (reason : String)
  | foreignPredicate (statement : Statement)
  | timedOut (seconds : Nat)

def OracleError.message : OracleError → String
  | failed reason => "Oracle failed: " ++ reason
  | foreignPredicate statement => "Oracle returned non-derived predicate: " ++ statement.shown
  | timedOut seconds => "Oracle timed out after " ++ Decimal.ofNat seconds ++ "s"

abbrev OracleAnswer := Except OracleError (List Statement)

structure Oracle where
  name : String
  infer : Store → List Rule → OracleAnswer

namespace Oracle

def constant (answer : OracleAnswer) : Oracle where
  name := "static"
  infer _ _ := answer

end Oracle

/-- Passes on an answer whose statements are all derived. -/
def ensureDerived (statements : List Statement) : OracleAnswer :=
  match statements.find? fun statement => !statement.isDerived with
  | some statement => .error (.foreignPredicate statement)
  | none => .ok statements

theorem ensureDerived_eq_ok_iff {statements answer : List Statement} :
    ensureDerived statements = .ok answer ↔
      answer = statements ∧ ∀ statement ∈ statements, statement.isDerived := by
  unfold ensureDerived
  split
  next statement hfound =>
    have hmem := List.mem_of_find?_eq_some hfound
    have hforeign : statement.isDerived = false := by simpa using List.find?_some hfound
    constructor
    · intro hanswer
      cases hanswer
    · rintro ⟨-, hderived⟩
      simp [hderived statement hmem] at hforeign
  next hnone =>
    simp only [List.find?_eq_none, Bool.not_eq_true, Bool.not_eq_false'] at hnone
    constructor
    · intro hanswer
      exact ⟨(Except.ok.inj hanswer).symm, hnone⟩
    · rintro ⟨rfl, -⟩
      rfl

end Treatise

namespace Treatise.Inference

structure Derivations where
  statements : Array Statement
  seen : Std.HashSet Statement

namespace Derivations

def empty : Derivations := ⟨#[], ∅⟩

def add (derivations : Derivations) (statement : Statement) : Derivations :=
  if derivations.seen.contains statement then derivations
  else
    { statements := derivations.statements.push statement
      seen := derivations.seen.insert statement }

def addAll (derivations : Derivations) (statements : List Statement) : Derivations :=
  statements.foldl add derivations

def ofList (statements : List Statement) : Derivations := empty.addAll statements

def toList (derivations : Derivations) : List Statement := derivations.statements.toList

structure Describes (derivations : Derivations) (statements : List Statement) : Prop where
  toList_eq : derivations.toList = statements.eraseDups
  seen_iff : ∀ statement, derivations.seen.contains statement ↔ statement ∈ statements

theorem describes_empty : empty.Describes [] where
  toList_eq := by simp [toList, empty]
  seen_iff := by simp [empty]

theorem Describes.add {derivations : Derivations} {statements : List Statement}
    (hdescribes : derivations.Describes statements) (statement : Statement) :
    (derivations.add statement).Describes (statements ++ [statement]) := by
  have hlist : derivations.statements.toList = statements.eraseDups := hdescribes.toList_eq
  have hseen := hdescribes.seen_iff statement
  constructor
  · rw [eraseDups_append_singleton, ← hlist, Derivations.add]
    split
    next hknown => rw [if_pos (hseen.mp hknown)]; rfl
    next hnew => rw [if_neg (mt hseen.mpr hnew)]; exact Array.toList_push
  · intro other
    rw [Derivations.add]
    split
    next hknown =>
      rw [hdescribes.seen_iff, List.mem_append, List.mem_singleton]
      refine ⟨.inl, ?_⟩
      rintro (hold | rfl)
      · exact hold
      · exact hseen.mp hknown
    next =>
      rw [Std.HashSet.contains_insert, Bool.or_eq_true, hdescribes.seen_iff, beq_iff_eq,
        List.mem_append, List.mem_singleton, or_comm, eq_comm]

theorem describes_ofList (statements : List Statement) :
    (ofList statements).Describes statements :=
  foldl_preserves (fun statements derivations => Describes derivations statements)
    describes_empty fun _ _ statement _ hdescribes => hdescribes.add statement

theorem toList_ofList (statements : List Statement) :
    (ofList statements).toList = statements.eraseDups :=
  (describes_ofList statements).toList_eq

theorem addAll_ofList (statements later : List Statement) :
    (ofList statements).addAll later = ofList (statements ++ later) :=
  List.foldl_append.symm

end Derivations

section Search

variable {α : Type} [DecidableEq α]

def newlyFound (next : α → List α) (found : List α) (element : α) : List α :=
  ((next element).filter fun target => !found.contains target).eraseDups

/-- The elements found in the end, in the order in which they are found.  At most `turns` elements
are taken out of the queue. -/
def findFrom (next : α → List α) : (turns : Nat) → (found queue : List α) → List α
  | 0, found, _ => found
  | _ + 1, found, [] => found
  | turns + 1, found, element :: queue =>
    let fresh := newlyFound next found element
    findFrom next turns (found ++ fresh) (queue ++ fresh)

/-- Each element is queued where it is found, and the start once more in the beginning. -/
def reachable (next : α → List α) (elementCount : Nat) (start : α) : List α :=
  findFrom next (elementCount + 1) [] [start]

end Search

def consequencesOf (facts : Store) (rules : List Rule) (fact : Statement) : List Statement :=
  match fact.predicate with
  | .cites => onlyIf .citationDependency [⟨fact.subject, .dependsOn, fact.object⟩]
  | .necessarilyFollows | .clearlyFollowsFrom | .appliesResultFrom | .groundedIn | .buildsUpon =>
    onlyIf .logicalDependency [⟨fact.subject, .dependsOn, fact.object⟩]
  | .refutedByAbsurdity =>
    onlyIf .circularArgument
      (if (facts.matching ⟨fact.object, some .refutedByAbsurdity, fact.subject⟩).isEmpty then []
        else [⟨fact.subject, .circularArgument, fact.object⟩])
  | .provedBy =>
    onlyIf .proofDerivation
      ((facts.matching (.leaving fact.object .cites)).map fun citation =>
        ⟨fact.subject, .derivedFrom, citation.object⟩)
  | .corollaryOf => onlyIf .proofDerivation [⟨fact.subject, .derivedFrom, fact.object⟩]
  | .evidentFrom => onlyIf .explanation [⟨fact.object, .explains, fact.subject⟩]
  | _ => []
where
  onlyIf (rule : Rule) (statements : List Statement) : List Statement :=
    if rule ∈ rules then statements else []

def direct (facts : Store) (rules : List Rule) : Derivations :=
  .ofList (facts.toList.flatMap (consequencesOf facts rules))

def dependencies (facts : Store) (rules : List Rule) : List Statement :=
  facts.matching (.ofPredicate .dependsOn) ++
    (direct facts rules).toList.filter fun statement => statement.predicate == .dependsOn

def edgesOf (dependencies : List Statement) : Grouping ElementId ElementId :=
  .ofPairs (dependencies.map fun dependency => (dependency.subject, dependency.object))

/-- What the transitive rule derives, source by source. -/
def closure (dependencies : List Statement) : List Statement :=
  let edges := edgesOf dependencies
  edges.keys.flatMap fun source =>
    (reachable edges.get dependencies.length source).map fun target =>
      ⟨source, .transitivelyDependsOn, target⟩

def infer (facts : Store) (rules : List Rule) : List Statement :=
  ((direct facts rules).addAll
    (if Rule.transitiveDependency ∈ rules then closure (dependencies facts rules) else [])).toList

theorem toList_direct (facts : Store) (rules : List Rule) :
    (direct facts rules).toList = (facts.toList.flatMap (consequencesOf facts rules)).eraseDups :=
  Derivations.toList_ofList _

theorem infer_eq (facts : Store) (rules : List Rule) :
    infer facts rules =
      (facts.toList.flatMap (consequencesOf facts rules) ++
        if Rule.transitiveDependency ∈ rules then closure (dependencies facts rules)
        else []).eraseDups := by
  rw [infer, direct, Derivations.addAll_ofList, Derivations.toList_ofList]

theorem keys_edgesOf (dependencies : List Statement) :
    (edgesOf dependencies).keys = (dependencies.map (·.subject)).eraseDups := by
  rw [edgesOf, (Grouping.describes_ofPairs _).keys_eq, List.map_map]
  rfl

theorem get_edgesOf (dependencies : List Statement) (id : ElementId) :
    (edgesOf dependencies).get id =
      (dependencies.filter fun dependency => dependency.subject == id).map (·.object) := by
  rw [edgesOf, (Grouping.describes_ofPairs _).get_eq, List.filter_map, List.map_map]
  rfl

theorem closure_eq (dependencies : List Statement) :
    closure dependencies =
      (dependencies.map (·.subject)).eraseDups.flatMap fun source =>
        (reachable (fun id =>
          (dependencies.filter fun dependency => dependency.subject == id).map (·.object))
            dependencies.length source).map fun target =>
              ⟨source, .transitivelyDependsOn, target⟩ := by
  have hget : (edgesOf dependencies).get = fun id =>
      (dependencies.filter fun dependency => dependency.subject == id).map (·.object) :=
    funext (get_edgesOf dependencies)
  rw [closure, keys_edgesOf, hget]

end Treatise.Inference

namespace Treatise

def Oracle.chaining : Oracle where
  name := "fixed-rules"
  infer facts rules := .ok (Inference.infer facts rules)

end Treatise
