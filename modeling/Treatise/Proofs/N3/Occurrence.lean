import Treatise.Proofs.N3.RoundTrip
import Treatise.Proofs.Store.Lookup

/-!
# Where the ids of a document come from

Every id that a document mentions is named by one of its tokens.  A name token
gives an id that may stand under a label again.  An address gives whatever
follows its last number sign or slash, and that may hold blanks, commas or
braces; but an address stands between brackets on one line of the text.
-/

namespace Treatise.N3

open Store (mentionedIn)

/-! ## Tokens in their text -/

theorem isPlain_iff {text : List Char} : IsPlain text ↔ ∀ c ∈ text, isNameChar c := by
  constructor
  · exact IsPlain.isNameChar
  · intro hchars c hmem
    have hchar := hchars c hmem
    simp_all [isNameChar]

/-- An address that a text has between brackets on one line. -/
structure Brackets (text : List Char) (iri : String) : Prop where
  between : '<' :: (iri.toList ++ ['>']) <:+: text
  noClose : '>' ∉ iri.toList
  noLine : '\n' ∉ iri.toList

theorem Brackets.append_left {text : List Char} {iri : String} (hbrackets : Brackets text iri)
    (rest : List Char) : Brackets (text ++ rest) iri where
  between := hbrackets.between.trans (List.prefix_append text rest).isInfix
  noClose := hbrackets.noClose
  noLine := hbrackets.noLine

theorem Brackets.append_right {text : List Char} {iri : String} (hbrackets : Brackets text iri)
    (front : List Char) : Brackets (front ++ text) iri where
  between := hbrackets.between.trans (List.suffix_append front text).isInfix
  noClose := hbrackets.noClose
  noLine := hbrackets.noLine

theorem Piece.isName {front rest : List Char} {tokens : List Token} {newlines : ℕ}
    {name : String} (hpiece : Piece front rest tokens newlines) (hmem : .name name ∈ tokens) :
    IsName name.toList := by
  cases hpiece with
  | mark hmark => cases hmark <;> simp at hmem
  | word hname => simp_all
  | _ => simp at hmem

theorem Piece.brackets {front rest : List Char} {tokens : List Token} {newlines : ℕ}
    {iri : String} (hpiece : Piece front rest tokens newlines) (hmem : .iri iri ∈ tokens) :
    Brackets front iri := by
  cases hpiece with
  | mark hmark => cases hmark <;> simp at hmem
  | iri hclose hline =>
    obtain rfl : iri = _ := by simpa using hmem
    constructor <;> simp_all
  | _ => simp at hmem

theorem Spells.isName {text : List Char} {tokens : List Token} {name : String}
    (hspells : Spells text tokens) (hmem : .name name ∈ tokens) : IsName name.toList := by
  induction hspells with
  | nil => cases hmem
  | cons hpiece _ ih =>
      rcases List.mem_append.mp hmem with hfront | hrest
      · exact hpiece.isName hfront
      · exact ih hrest

theorem Spells.brackets {text : List Char} {tokens : List Token} {iri : String}
    (hspells : Spells text tokens) (hmem : .iri iri ∈ tokens) : Brackets text iri := by
  induction hspells with
  | nil => cases hmem
  | cons hpiece _ ih =>
      rcases List.mem_append.mp hmem with hfront | hrest
      · exact (hpiece.brackets hfront).append_left _
      · exact (ih hrest).append_right _

/-! ## Ids in their document -/

def Named (tokens : List Token) (id : ElementId) : Prop := ∃ token ∈ tokens, Names token id

theorem Named.mono {tokens others : List Token} {id : ElementId} (hnamed : Named tokens id)
    (hsubset : tokens ⊆ others) : Named others id := by
  rcases hnamed with ⟨token, hmem, hnames⟩
  exact ⟨token, hsubset hmem, hnames⟩

theorem mem_append_statements {first second : Document} {statement : Statement} :
    statement ∈ (first ++ second).statements ↔
      statement ∈ first.statements ∨ statement ∈ second.statements :=
  List.mem_append

theorem CompletesWith.named {subject : ElementId} {verb : Verb} {token : Token}
    {document : Document} {statement : Statement}
    (hobject : CompletesWith subject verb token document)
    (hmem : statement ∈ document.statements) :
    statement.subject = subject ∧ Names token statement.object := by
  cases hobject with
  | statement hnames =>
      rw [List.mem_singleton.mp hmem]
      exact ⟨rfl, hnames⟩
  | skipped => cases hmem

theorem Objects.named {subject : ElementId} {verb : Verb} {tokens : List Token}
    {document : Document} {statement : Statement} (hobjects : Objects subject verb tokens document)
    (hmem : statement ∈ document.statements) :
    statement.subject = subject ∧ Named tokens statement.object := by
  induction hobjects with
  | last hobject =>
      rcases hobject.named hmem with ⟨hsubject, hnames⟩
      exact ⟨hsubject, _, List.mem_singleton_self _, hnames⟩
  | cons hobject _ ih =>
      rcases mem_append_statements.mp hmem with hfirst | hothers
      · rcases hobject.named hfirst with ⟨hsubject, hnames⟩
        exact ⟨hsubject, _, List.mem_cons_self, hnames⟩
      · rcases ih hothers with ⟨hsubject, hnamed⟩
        exact ⟨hsubject, hnamed.mono fun token htoken => by simp [htoken]⟩

theorem Groups.named {label : String} {subject : ElementId} {tokens : List Token}
    {document : Document} {statement : Statement} (hgroups : Groups label subject tokens document)
    (hmem : statement ∈ document.statements) :
    statement.subject = subject ∧ Named tokens statement.object := by
  induction hgroups with
  | last _ hobjects =>
      rcases hobjects.named hmem with ⟨hsubject, hnamed⟩
      exact ⟨hsubject, hnamed.mono (List.subset_cons_self _ _)⟩
  | cons _ hobjects _ ih =>
      rcases mem_append_statements.mp hmem with hfirst | hothers
      · rcases hobjects.named hfirst with ⟨hsubject, hnamed⟩
        exact ⟨hsubject, hnamed.mono fun token htoken => by simp [htoken]⟩
      · rcases ih hothers with ⟨hsubject, hnamed⟩
        exact ⟨hsubject, hnamed.mono fun token htoken => by simp [htoken]⟩

theorem Phrase.named {label : String} {tokens : List Token} {document : Document}
    {statement : Statement} (hphrase : Phrase label tokens document)
    (hmem : statement ∈ document.statements) :
    Named tokens statement.subject ∧ Named tokens statement.object := by
  cases hphrase with
  | directive => cases hmem
  | rule => cases hmem
  | sentence hsubject hgroups =>
      rcases hgroups.named hmem with ⟨rfl, hnamed⟩
      exact ⟨⟨_, List.mem_cons_self, hsubject⟩, hnamed.mono fun token htoken => by simp [htoken]⟩

theorem Phrases.named {label : String} {tokens : List Token} {document : Document}
    {id : ElementId} (hphrases : Phrases label tokens document)
    (hmentioned : id ∈ mentionedIn document.statements) : Named tokens id := by
  induction hphrases with
  | nil =>
      rcases hmentioned with ⟨statement, hmem, -⟩
      cases hmem
  | cons hphrase _ ih =>
      rcases hmentioned with ⟨statement, hmem, hend⟩
      rcases mem_append_statements.mp hmem with hfirst | hothers
      · rcases hphrase.named hfirst with ⟨hsubject, hobject⟩
        rcases hend with rfl | rfl
        · exact hsubject.mono (List.subset_append_left _ _)
        · exact hobject.mono (List.subset_append_left _ _)
      · exact (ih ⟨statement, hothers, hend⟩).mono (List.subset_append_right _ _)

/-! ## Ids in their text -/

theorem isWritable_of_isName {name label localName : String} (hname : IsName name.toList)
    (hlabelled : IsLabelled name label localName) : IsWritable localName := by
  have hparts := hlabelled.1
  constructor
  · rw [isPlain_iff]
    intro c hmem
    apply hname.chars
    simp [hparts, hmem]
  · intro hlast
    apply hname.last
    simp [hparts, List.getLast?_append, List.getLast?_cons, hlast]

/-- How an id may come out of a text. -/
inductive Supplies (text : List Char) (id : ElementId) : Prop
  | name (hwritable : IsWritable id.text) : Supplies text id
  | iri {iri : String} (hbrackets : Brackets text iri) (hlocal : IsLocalName iri id.text) :
      Supplies text id

theorem supplies_of_ofText {label text : String} {document : Document}
    (hread : Document.ofText label text = .ok document) {id : ElementId}
    (hmentioned : id ∈ mentionedIn document.statements) : Supplies text.toList id := by
  obtain ⟨tokens, hspells, hphrases⟩ := ofText_eq_ok_iff.mp hread
  rcases hphrases.named hmentioned with ⟨token, hmem, hnames⟩
  cases hnames with
  | name hlabelled => exact .name (isWritable_of_isName (hspells.isName hmem) hlabelled)
  | iri hlocal => exact .iri (hspells.brackets hmem) hlocal

theorem Supplies.isWritable_of_close {text : List Char} {id : ElementId}
    (hsupplies : Supplies text id) (hclose : '>' ∈ id.text.toList) : IsWritable id.text := by
  cases hsupplies with
  | name hwritable => exact hwritable
  | iri hbrackets hlocal =>
      rcases hlocal with ⟨before, hparts, -⟩
      exact absurd (by simp [hparts, hclose]) hbrackets.noClose

end Treatise.N3
