import Treatise.N3.Document

/-!
# The grammar of documents

A document is a sequence of phrases, and a phrase is a directive, a rule or a
sentence.  The grammar relates the tokens of a phrase to what the phrase adds
to the document, so it says which token lists are documents and what they
mean.  It looks at texts as concatenations and knows nothing of places or
moves.
-/

namespace Treatise.N3

/-! ## Documents one after the other -/

/-- The document that says nothing. -/
def Document.blank : Document := ⟨[], [], 0, 0⟩

def Document.append (first second : Document) : Document where
  bindings := first.bindings ++ second.bindings
  statements := first.statements ++ second.statements
  ruleCount := first.ruleCount + second.ruleCount
  skippedCount := first.skippedCount + second.skippedCount

instance : Append Document := ⟨Document.append⟩

def Document.ofBinding (label iri : String) : Document :=
  { Document.blank with bindings := [(label, iri)] }

def Document.ofStatement (statement : Statement) : Document :=
  { Document.blank with statements := [statement] }

def Document.ofRule : Document := { Document.blank with ruleCount := 1 }

def Document.ofSkipped : Document := { Document.blank with skippedCount := 1 }

/-! ## What a token may stand for -/

/-- A name with a colon is a label and a local name, which may have colons too. -/
def IsLabelled (name label localName : String) : Prop :=
  name.toList = label.toList ++ ':' :: localName.toList ∧ ':' ∉ label.toList

/-- The local name of an address follows its last number sign or slash. -/
def IsLocalName (iri localName : String) : Prop :=
  ∃ before, iri.toList = before ++ localName.toList ∧
    '#' ∉ localName.toList ∧ '/' ∉ localName.toList ∧
    (before = [] ∨ before.getLast? = some '#' ∨ before.getLast? = some '/')

/-- The texts that stand for a predicate. -/
def IsSpelling (text : String) (predicate : Predicate) : Prop :=
  text = predicate.wireName ∨ text = "rdf:type" ∧ predicate = .instanceOf

/-- A directive writes colons after the label that it binds. -/
def BindsLabel (name label : String) : Prop :=
  ∃ count, name.toList = label.toList ++ List.replicate (count + 1) ':' ∧
    label.toList.getLast? ≠ some ':'

/-- Tokens that stand for an element. -/
inductive Names : Token → ElementId → Prop
  | name {name label localName : String} (hlabelled : IsLabelled name label localName) :
      Names (.name name) ⟨localName⟩
  | iri {iri localName : String} (hlocal : IsLocalName iri localName) :
      Names (.iri iri) ⟨localName⟩

inductive IsLiteral : Token → Prop
  | literal (text : String) : IsLiteral (.literal text)
  | name {name : String} (hplain : ':' ∉ name.toList) : IsLiteral (.name name)

/-- Tokens that stand for a verb.  Under the label of the facts only the
vocabulary does. -/
inductive Expresses (label : String) : Token → Verb → Prop
  | shorthand : Expresses label (.name "a") (.known .instanceOf)
  | type : Expresses label (.name "rdf:type") (.known .instanceOf)
  | labelled {name localName : String} {predicate : Predicate}
      (hlabelled : IsLabelled name label localName)
      (hspelling : IsSpelling localName predicate) :
      Expresses label (.name name) (.known predicate)
  | foreignLabel {name other localName : String}
      (hlabelled : IsLabelled name other localName) (hother : other ≠ label)
      (htype : name ≠ "rdf:type") :
      Expresses label (.name name) .foreign
  | iri {iri localName : String} {predicate : Predicate}
      (hlocal : IsLocalName iri localName) (hspelling : IsSpelling localName predicate) :
      Expresses label (.iri iri) (.known predicate)
  | foreignIri {iri localName : String} (hlocal : IsLocalName iri localName)
      (hunknown : ∀ predicate, ¬ IsSpelling localName predicate) :
      Expresses label (.iri iri) .foreign

/-! ## Sentences -/

/-- An object of a known verb is an element and completes a statement.  An
object of a foreign verb may be a literal as well and is skipped. -/
inductive CompletesWith (subject : ElementId) : Verb → Token → Document → Prop
  | statement {predicate : Predicate} {token : Token} {object : ElementId}
      (hobject : Names token object) :
      CompletesWith subject (.known predicate) token
        (.ofStatement ⟨subject, predicate, object⟩)
  | skipped {token : Token} (hterm : (∃ object, Names token object) ∨ IsLiteral token) :
      CompletesWith subject .foreign token .ofSkipped

/-- Objects with commas between them. -/
inductive Objects (subject : ElementId) (verb : Verb) : List Token → Document → Prop
  | last {token : Token} {document : Document}
      (hobject : CompletesWith subject verb token document) :
      Objects subject verb [token] document
  | cons {token : Token} {rest : List Token} {document others : Document}
      (hobject : CompletesWith subject verb token document)
      (hrest : Objects subject verb rest others) :
      Objects subject verb (token :: .comma :: rest) (document ++ others)

/-- Verbs with their objects and single semicolons between them. -/
inductive Groups (label : String) (subject : ElementId) : List Token → Document → Prop
  | last {token : Token} {verb : Verb} {objects : List Token} {document : Document}
      (hverb : Expresses label token verb)
      (hobjects : Objects subject verb objects document) :
      Groups label subject (token :: objects) document
  | cons {token : Token} {verb : Verb} {objects rest : List Token}
      {document others : Document} (hverb : Expresses label token verb)
      (hobjects : Objects subject verb objects document)
      (hrest : Groups label subject rest others) :
      Groups label subject (token :: objects ++ .semicolon :: rest) (document ++ others)

/-- A sentence ends with a dot, and a semicolon may stand before it. -/
inductive SentenceEnd : List Token → Prop
  | dot : SentenceEnd [.dot]
  | semicolonDot : SentenceEnd [.semicolon, .dot]

/-! ## Rules -/

/-- Token lists whose braces come in pairs. -/
inductive Balanced : List Token → Prop
  | nil : Balanced []
  | plain {token : Token} {rest : List Token} (hopen : token ≠ .openBrace)
      (hclose : token ≠ .closeBrace) (hrest : Balanced rest) : Balanced (token :: rest)
  | nested {inner rest : List Token} (hinner : Balanced inner) (hrest : Balanced rest) :
      Balanced (.openBrace :: inner ++ .closeBrace :: rest)

inductive Block : List Token → Prop
  | braces {inner : List Token} (hinner : Balanced inner) :
      Block (.openBrace :: inner ++ [.closeBrace])

inductive Conclusion : List Token → Prop
  | absent : Conclusion []
  | present {block : List Token} (hblock : Block block) : Conclusion (.implies :: block)

inductive RuleEnd : List Token → Prop
  | absent : RuleEnd []
  | dot : RuleEnd [.dot]

/-! ## Phrases -/

inductive Phrase (label : String) : List Token → Document → Prop
  | directive {name bound iri : String} (hname : BindsLabel name bound) :
      Phrase label [.directive, .name name, .iri iri, .dot] (.ofBinding bound iri)
  | rule {premises conclusion ending : List Token} (hpremises : Block premises)
      (hconclusion : Conclusion conclusion) (hending : RuleEnd ending) :
      Phrase label (premises ++ conclusion ++ ending) .ofRule
  | sentence {token : Token} {subject : ElementId} {groups ending : List Token}
      {document : Document} (hsubject : Names token subject)
      (hgroups : Groups label subject groups document) (hending : SentenceEnd ending) :
      Phrase label (token :: groups ++ ending) document

/-- The token lists that are documents, with their meaning. -/
inductive Phrases (label : String) : List Token → Document → Prop
  | nil : Phrases label [] .blank
  | cons {phrase rest : List Token} {document others : Document}
      (hphrase : Phrase label phrase document) (hrest : Phrases label rest others) :
      Phrases label (phrase ++ rest) (document ++ others)

end Treatise.N3
