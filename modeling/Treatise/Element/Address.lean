import Treatise.Decimal
import Treatise.Statement
import Treatise.Text.Classes
import Treatise.Text.Cut

/-!
# Addresses

The grammar of ids.  An address names a part, a heading with its number and possibly what is
attached to that unit, as in `I.prop.11.proof2`.  The name of a part has neither dots nor blanks,
so the dots of an address are exactly those between its segments.
-/

namespace Treatise

inductive Category where
  | definition
  | axiomItem
  | proposition
  | proof
  | corollary
  | note
  | lemmaItem
  | postulate
  | explanation
  deriving DecidableEq, Hashable, Inhabited

namespace Category

def all : List Category :=
  [.definition, .axiomItem, .proposition, .proof, .corollary, .note, .lemmaItem, .postulate,
    .explanation]

theorem mem_all (category : Category) : category ∈ all := by
  cases category <;> decide

theorem nodup_all : all.Nodup := by decide

def className : Category → String
  | definition => "Definition"
  | axiomItem => "Axiom"
  | proposition => "Proposition"
  | proof => "Proof"
  | corollary => "Corollary"
  | note => "Note"
  | lemmaItem => "Lemma"
  | postulate => "Postulate"
  | explanation => "Explanation"

def fieldName : Category → String
  | definition => "definition"
  | axiomItem => "axiom"
  | proposition => "proposition"
  | proof => "proof"
  | corollary => "corollary"
  | note => "note"
  | lemmaItem => "lemma"
  | postulate => "postulate"
  | explanation => "explanation"

/-- The segments of an id that stand for the category; the first is the usual one. -/
def abbreviations : Category → List String
  | definition => ["def"]
  | axiomItem => ["ax"]
  | proposition => ["prop"]
  | proof => ["proof"]
  | corollary => ["corollary"]
  | note => ["note"]
  | lemmaItem => ["lemma"]
  | postulate => ["post"]
  | explanation => ["expl", "explanation"]

def ofClassName? (name : String) : Option Category :=
  all.find? fun category => category.className == name

def ofFieldName? (name : String) : Option Category :=
  all.find? fun category => category.fieldName == name

def ofAbbreviation? (name : String) : Option Category :=
  all.find? fun category => category.abbreviations.contains name

theorem ofClassName?_className (category : Category) :
    ofClassName? category.className = some category := by
  cases category <;> decide

theorem className_of_ofClassName? {name : String} {category : Category}
    (hfound : ofClassName? name = some category) : category.className = name := by
  simpa using List.find?_some hfound

theorem ofFieldName?_fieldName (category : Category) :
    ofFieldName? category.fieldName = some category := by
  cases category <;> decide

end Category

inductive Heading where
  | definition
  | axiomItem
  | proposition
  | lemmaItem
  | postulate
  | explanation
  deriving DecidableEq, Inhabited

namespace Heading

def all : List Heading :=
  [.definition, .axiomItem, .proposition, .lemmaItem, .postulate, .explanation]

def segment : Heading → String
  | definition => "def"
  | axiomItem => "ax"
  | proposition => "prop"
  | lemmaItem => "lemma"
  | postulate => "post"
  | explanation => "expl"

def category : Heading → Category
  | definition => .definition
  | axiomItem => .axiomItem
  | proposition => .proposition
  | lemmaItem => .lemmaItem
  | postulate => .postulate
  | explanation => .explanation

def ofSegment? (segment : List Char) : Option Heading :=
  all.find? fun heading => heading.segment.toList == segment

end Heading

inductive Elaboration where
  | proof
  | corollary
  | note
  | explanation
  | lemmaItem
  deriving DecidableEq, Inhabited

namespace Elaboration

def all : List Elaboration := [.proof, .corollary, .note, .explanation, .lemmaItem]

def segment : Elaboration → String
  | proof => "proof"
  | corollary => "corollary"
  | note => "note"
  | explanation => "explanation"
  | lemmaItem => "lemma"

def category : Elaboration → Category
  | proof => .proof
  | corollary => .corollary
  | note => .note
  | explanation => .explanation
  | lemmaItem => .lemmaItem

def ofSegment? (segment : List Char) : Option Elaboration :=
  all.find? fun elaboration => elaboration.segment.toList == segment

end Elaboration

structure Attachment where
  kind : Elaboration
  index : Option UInt32
  deriving DecidableEq, Inhabited

def IsPartName (name : List Char) : Prop :=
  name ≠ [] ∧ ∀ c ∈ name, c ≠ '.' ∧ Text.isBlank c = false

instance (name : List Char) : Decidable (IsPartName name) :=
  @instDecidableAnd _ _ instDecidableNot (List.decidableBAll _ name)

structure Address where
  part : String
  heading : Heading
  number : UInt32
  attachment : Option Attachment
  part_isPartName : IsPartName part.toList
  deriving DecidableEq

namespace Attachment

def ofSegment? (segment : List Char) : Option Attachment := do
  let name := segment.takeWhile fun c => !c.isDigit
  let kind ← Elaboration.ofSegment? name
  match segment.dropWhile fun c => !c.isDigit with
  | [] => some ⟨kind, none⟩
  | number => do
    let index ← Decimal.word32? number
    some ⟨kind, some index⟩

def segment (attachment : Attachment) : List Char :=
  attachment.kind.segment.toList ++
    match attachment.index with
    | none => []
    | some index => Decimal.digits index.toNat

end Attachment

namespace Address

def ofSegments? : List (List Char) → Option Address
  | [part, heading, number] => unit? part heading number none
  | [part, heading, number, last] => do
    let attachment ← Attachment.ofSegment? last
    unit? part heading number (some attachment)
  | _ => none
where
  unit? (part heading number : List Char) (attachment : Option Attachment) : Option Address := do
    let heading ← Heading.ofSegment? heading
    let number ← Decimal.word32? number
    if isPartName : IsPartName part then
      some ⟨String.ofList part, heading, number, attachment, by simpa using isPartName⟩
    else none

def ofText? (text : String) : Option Address := ofSegments? (Text.segments '.' text.toList)

def segments (address : Address) : List (List Char) :=
  [address.part.toList, address.heading.segment.toList, Decimal.digits address.number.toNat] ++
    (address.attachment.map Attachment.segment).toList

def text (address : Address) : String :=
  String.ofList (['.'].intercalate address.segments)

def category (address : Address) : Category :=
  match address.attachment with
  | none => address.heading.category
  | some attachment => attachment.kind.category

def owner (address : Address) : Address := { address with attachment := none }

def parent (address : Address) : Option ElementId :=
  address.attachment.map fun _ => ⟨address.owner.text⟩

/-- The address in words, as in `Part I, Proposition 11, Proof 2`. -/
def label (address : Address) : String :=
  "Part " ++ address.part ++ ", " ++ address.heading.category.className ++ " " ++
    Decimal.ofNat address.number.toNat ++
    match address.attachment with
    | none => ""
    | some attachment =>
      ", " ++ attachment.kind.category.className ++
        match attachment.index with
        | none => ""
        | some index => " " ++ Decimal.ofNat index.toNat

end Address

def ElementId.address? (id : ElementId) : Option Address := Address.ofText? id.text

end Treatise
