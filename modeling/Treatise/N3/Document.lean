import Treatise.N3.Tokenize
import Treatise.Statement
import Treatise.Text.Cut

/-!
# The documents that fact files hold

Each token moves the reader's place on and may complete an item.  A triple is a statement when its
predicate belongs to the vocabulary; under a foreign label or address it is skipped, and under the
label of the facts it has to belong to the vocabulary.
-/

namespace Treatise.N3

def defaultLabel : String := "ethics"

def defaultNamespace : String := "http://example.org/ethics#"

inductive Term where
  | id (id : ElementId)
  | literal
  deriving DecidableEq

inductive Verb where
  | known (predicate : Predicate)
  | foreign
  deriving DecidableEq

def localName (iri : String) : String :=
  String.ofList (Text.afterLast (fun c => c == '#' || c == '/') iri.toList)

/-- Reads an id or a literal.  A name with a colon is an id, without its label. -/
def termOf (lexeme : Lexeme) : Except Error Term :=
  match lexeme.token with
  | .name name =>
    match Text.cut ':' name.toList with
    | some (_, local') => .ok (.id ⟨String.ofList local'⟩)
    | none => .ok .literal
  | .iri iri => .ok (.id ⟨localName iri⟩)
  | .literal _ => .ok .literal
  | other => .error ⟨lexeme.line, .expected .term other⟩

def verbOf (label : String) (lexeme : Lexeme) : Except Error Verb :=
  match lexeme.token with
  | .iri iri =>
    match Predicate.ofName? (localName iri) with
    | some predicate => .ok (.known predicate)
    | none => .ok .foreign
  | .name name =>
    if name = "a" ∨ name = "rdf:type" then .ok (.known .instanceOf)
    else
      match Text.cut ':' name.toList with
      | none => .error ⟨lexeme.line, .unknownPredicate name⟩
      | some (nameLabel, local') =>
        if nameLabel = label.toList then
          match Predicate.ofName? (String.ofList local') with
          | some predicate => .ok (.known predicate)
          | none => .error ⟨lexeme.line, .unknownPredicate (String.ofList local')⟩
        else .ok .foreign
  | other => .error ⟨lexeme.line, .expected .predicate other⟩

/-- The label that a directive binds, which is written with a colon after it. -/
def labelOf? (name : String) : Option String :=
  if name.toList.getLast? = some ':' then
    some (String.ofList (name.toList.reverse.dropWhile (· == ':')).reverse)
  else none

inductive Item where
  | binding (label iri : String)
  | rule
  | triple (statement : Statement)
  | skipped
  deriving DecidableEq

/-- Where a reader is.  A block of a rule is `depth` braces deep inside its own. -/
inductive Place where
  | betweenItems
  | atLabel
  | atIri (label : String)
  | atEndOfDirective (label iri : String)
  | inPremises (depth : Nat)
  | afterPremises
  | atConclusion
  | inConclusion (depth : Nat)
  | afterRule
  | atPredicate (subject : ElementId)
  | atObject (subject : ElementId) (verb : Verb)
  | afterObject (subject : ElementId) (verb : Verb)
  | afterSemicolon (subject : ElementId)
  deriving DecidableEq

def Place.mayEnd : Place → Bool
  | betweenItems | afterPremises | afterRule => true
  | _ => false

abbrev Move := Place × Option Item

def beginItem (lexeme : Lexeme) : Except Error Move :=
  match lexeme.token with
  | .directive => .ok (.atLabel, none)
  | .openBrace => .ok (.inPremises 0, none)
  | _ =>
    match termOf lexeme with
    | .error error => .error error
    | .ok .literal => .error ⟨lexeme.line, .literalSubject⟩
    | .ok (.id subject) => .ok (.atPredicate subject, none)

def readPredicate (label : String) (subject : ElementId) (lexeme : Lexeme) : Except Error Move :=
  (verbOf label lexeme).map fun verb => (.atObject subject verb, none)

def readObject (subject : ElementId) (verb : Verb) (lexeme : Lexeme) : Except Error Move :=
  match termOf lexeme, verb with
  | .error error, _ => .error error
  | .ok (.id object), .known predicate =>
    .ok (.afterObject subject verb, some (.triple ⟨subject, predicate, object⟩))
  | .ok .literal, .known predicate => .error ⟨lexeme.line, .literalObject predicate⟩
  | .ok _, .foreign => .ok (.afterObject subject verb, some .skipped)

def move (label : String) (place : Place) (lexeme : Lexeme) : Except Error Move :=
  match place, lexeme.token with
  | .betweenItems, _ => beginItem lexeme
  | .atLabel, .name name =>
    match labelOf? name with
    | some bound => .ok (.atIri bound, none)
    | none => .error ⟨lexeme.line, .expectedLabel⟩
  | .atLabel, _ => .error ⟨lexeme.line, .expectedLabel⟩
  | .atIri bound, .iri iri => .ok (.atEndOfDirective bound iri, none)
  | .atIri _, _ => .error ⟨lexeme.line, .expectedIri⟩
  | .atEndOfDirective bound iri, .dot => .ok (.betweenItems, some (.binding bound iri))
  | .atEndOfDirective _ _, other => .error ⟨lexeme.line, .expected .endOfDirective other⟩
  | .inPremises depth, .openBrace => .ok (.inPremises (depth + 1), none)
  | .inPremises 0, .closeBrace => .ok (.afterPremises, some .rule)
  | .inPremises (depth + 1), .closeBrace => .ok (.inPremises depth, none)
  | .inPremises depth, _ => .ok (.inPremises depth, none)
  | .afterPremises, .implies => .ok (.atConclusion, none)
  | .afterPremises, .dot => .ok (.betweenItems, none)
  | .afterPremises, _ => beginItem lexeme
  | .atConclusion, .openBrace => .ok (.inConclusion 0, none)
  | .atConclusion, other => .error ⟨lexeme.line, .expected .block other⟩
  | .inConclusion depth, .openBrace => .ok (.inConclusion (depth + 1), none)
  | .inConclusion 0, .closeBrace => .ok (.afterRule, none)
  | .inConclusion (depth + 1), .closeBrace => .ok (.inConclusion depth, none)
  | .inConclusion depth, _ => .ok (.inConclusion depth, none)
  | .afterRule, .dot => .ok (.betweenItems, none)
  | .afterRule, _ => beginItem lexeme
  | .atPredicate subject, _ => readPredicate label subject lexeme
  | .atObject subject verb, _ => readObject subject verb lexeme
  | .afterObject subject verb, .comma => .ok (.atObject subject verb, none)
  | .afterObject _ _, .dot => .ok (.betweenItems, none)
  | .afterObject subject _, .semicolon => .ok (.afterSemicolon subject, none)
  | .afterObject _ _, other => .error ⟨lexeme.line, .expected .separator other⟩
  | .afterSemicolon _, .dot => .ok (.betweenItems, none)
  | .afterSemicolon subject, _ => readPredicate label subject lexeme

theorem move_eq_beginItem {label : String} {place : Place} {lexeme : Lexeme} (hends : place.mayEnd)
    (hdot : lexeme.token ≠ .dot)
    (himplies : place = .afterPremises → lexeme.token ≠ .implies) :
    move label place lexeme = beginItem lexeme := by
  cases place <;> simp_all [move, Place.mayEnd]

theorem move_eq_readPredicate {label : String} {place : Place} {subject : ElementId}
    {lexeme : Lexeme} (hawaits : place = .atPredicate subject ∨ place = .afterSemicolon subject)
    (hdot : lexeme.token ≠ .dot) :
    move label place lexeme = readPredicate label subject lexeme := by
  rcases hawaits with rfl | rfl <;> simp_all [move]

/-- The items of a token list; `line` is that of the token before it. -/
def itemsFrom (label : String) (place : Place) (line : Nat) :
    List Lexeme → Except Error (List Item)
  | [] => if place.mayEnd then .ok [] else .error ⟨line, .endOfInput⟩
  | lexeme :: rest =>
    match move label place lexeme with
    | .error error => .error error
    | .ok (next, item) => (item.toList ++ ·) <$> itemsFrom label next lexeme.line rest

def items (label : String) (lexemes : List Lexeme) : Except Error (List Item) :=
  itemsFrom label .betweenItems 1 lexemes

structure Document where
  bindings : List (String × String)
  statements : List Statement
  ruleCount : Nat
  skippedCount : Nat
  deriving DecidableEq

namespace Document

def ofItems (items : List Item) : Document where
  bindings := items.filterMap fun
    | .binding label iri => some (label, iri)
    | _ => none
  statements := items.filterMap fun
    | .triple statement => some statement
    | _ => none
  ruleCount := items.count .rule
  skippedCount := items.count .skipped

def ofText (label text : String) : Except Error Document := do
  let lexemes ← tokenize text
  ofItems <$> items label lexemes

end Document

def labelled (label name : String) : String := label ++ ":" ++ name

def written (label : String) : Predicate → String
  | .instanceOf => "a"
  | predicate => labelled label predicate.wireName

def bindingLine (label iri : String) : String := "@prefix " ++ label ++ ": <" ++ iri ++ "> .\n"

def statementLine (label : String) (statement : Statement) : String :=
  labelled label statement.subject.text ++ " " ++ written label statement.predicate ++ " " ++
    labelled label statement.object.text ++ " .\n"

def serialize (label iri : String) (statements : List Statement) : String :=
  bindingLine label iri ++ "\n" ++ String.join (statements.map (statementLine label))

end Treatise.N3
