import Treatise.N3.Document
import Treatise.Proofs.N3.Reader

/-!
# Serialized statements read back

A serialized file splits into pieces whose tokens are one directive and one
sentence for each statement.  All that has to be known about the ids and the
label is that the names made of them are names for the tokenizer as well, and
that the colon of a label is the first one in such a name.
-/

namespace Treatise.N3

/-! ## Texts of names -/

/-- A text without blanks and without the characters that end a name. -/
def IsPlain (text : List Char) : Prop :=
  ∀ c ∈ text, Text.isBlank c = false ∧ c ∉ [';', ',', '{', '}', '<', '"']

instance (text : List Char) : Decidable (IsPlain text) := List.decidableBAll _ text

/-- Local names that stand under a label. -/
structure IsWritable (name : String) : Prop where
  plain : IsPlain name.toList
  last : name.toList.getLast? ≠ some '.'

/-- Labels under which names stand. -/
structure IsLabel (label : String) : Prop where
  plain : IsPlain label.toList
  noColon : ':' ∉ label.toList
  first : label.toList.head? ∉ [some '.', some '#', some '@']
  noArrow : ¬ ['=', '>'] <+: label.toList

theorem isLabel_defaultLabel : IsLabel defaultLabel :=
  ⟨by decide, by decide, by decide, by decide⟩

theorem IsPlain.isNameChar {text : List Char} (hplain : IsPlain text) :
    ∀ c ∈ text, isNameChar c := by
  intro c hmem
  obtain ⟨hblank, hother⟩ := hplain c hmem
  simp_all [N3.isNameChar]

theorem toList_labelled (label name : String) :
    (labelled label name).toList = label.toList ++ ':' :: name.toList := by
  simp [labelled]

theorem isLabelled_labelled {label : String} (hlabel : IsLabel label) (name : String) :
    IsLabelled (labelled label name) label name :=
  ⟨toList_labelled label name, hlabel.noColon⟩

theorem exists_first_labelled {label : List Char} (name : List Char)
    (hfirst : label.head? ∉ [some '.', some '#', some '@']) :
    ∃ c, (label ++ ':' :: name).head? = some c ∧ c ≠ '.' ∧ c ≠ '#' ∧ c ≠ '@' := by
  cases label with
  | nil => exact ⟨':', rfl, by decide⟩
  | cons c label => exact ⟨c, rfl, by simpa using hfirst⟩

theorem not_arrow_labelled {label : List Char} (name : List Char)
    (harrow : ¬ ['=', '>'] <+: label) : ¬ ['=', '>'] <+: label ++ ':' :: name := by
  intro hprefix
  rcases label with _ | ⟨c, _ | ⟨d, label⟩⟩
  · simp at hprefix
  · simp at hprefix
  · apply harrow
    simpa using hprefix

theorem IsLabel.isName {label name : String} (hlabel : IsLabel label)
    (hname : IsWritable name) : IsName (labelled label name).toList := by
  rw [toList_labelled]
  refine ⟨?_, exists_first_labelled name.toList hlabel.first, ?_, ?_⟩
  · intro c hmem
    rcases List.mem_append.mp hmem with hmem | hmem
    · exact hlabel.plain.isNameChar c hmem
    · rcases List.mem_cons.mp hmem with rfl | hmem
      · decide
      · exact hname.plain.isNameChar c hmem
  · exact not_arrow_labelled name.toList hlabel.noArrow
  · rw [List.getLast?_append, List.getLast?_cons, Option.some_or]
    cases hlast : name.toList.getLast? with
    | none => decide
    | some c =>
        intro hdot
        exact hname.last (hlast.trans hdot)

theorem written_cases (label : String) (predicate : Predicate) :
    (predicate = .instanceOf ∧ written label predicate = "a") ∨
      written label predicate = labelled label predicate.wireName := by
  cases predicate with
  | instanceOf => exact .inl ⟨rfl, rfl⟩
  | _ => exact .inr rfl

theorem isWritable_wireName (predicate : Predicate) : IsWritable predicate.wireName := by
  cases predicate <;> exact ⟨by decide, by decide⟩

theorem isName_written {label : String} (hlabel : IsLabel label) (predicate : Predicate) :
    IsName (written label predicate).toList := by
  rcases written_cases label predicate with ⟨_, hwritten⟩ | hwritten
  · rw [hwritten]
    exact ⟨List.all_eq_true.mp (by decide), ⟨'a', by decide⟩, by decide, by decide⟩
  · rw [hwritten]
    exact hlabel.isName (isWritable_wireName predicate)

theorem expresses_written {label : String} (hlabel : IsLabel label) (predicate : Predicate) :
    Expresses label (.name (written label predicate)) (.known predicate) := by
  rcases written_cases label predicate with ⟨rfl, hwritten⟩ | hwritten
  · exact .shorthand
  · rw [hwritten]
    exact .labelled (isLabelled_labelled hlabel predicate.wireName) (.inl rfl)

/-! ## Tokens of the lines -/

theorem Spells.name {name : String} {rest : List Char} {tokens : List Token}
    (hname : IsName name.toList) (hrest : Spells (' ' :: rest) tokens) :
    Spells (name.toList ++ ' ' :: rest) (.name name :: tokens) := by
  have hstop : ∀ c, (' ' :: rest).head? = some c → isNameChar c = false := by
    intro c hhead
    obtain rfl := Option.some.inj hhead
    decide
  have hspells := Spells.cons (.word hname 0 hstop) hrest
  simpa using hspells

theorem Spells.directive {rest : List Char} {tokens : List Token}
    (hrest : Spells (' ' :: rest) tokens) :
    Spells (['@', 'p', 'r', 'e', 'f', 'i', 'x'] ++ ' ' :: rest) (.directive :: tokens) := by
  have hblank : ∀ c, (' ' :: rest).head? = some c → Text.isBlank c := by
    intro c hhead
    obtain rfl := Option.some.inj hhead
    decide
  exact .cons (.directive hblank) hrest

theorem Spells.space {rest : List Char} {tokens : List Token} (hrest : Spells rest tokens) :
    Spells (' ' :: rest) tokens :=
  .cons (.blank (by decide) (by decide) rest) hrest

theorem Spells.endOfLine {rest : List Char} {tokens : List Token}
    (hrest : Spells rest tokens) : Spells ('.' :: '\n' :: rest) (.dot :: tokens) := by
  have hline : Spells ('\n' :: rest) tokens := .cons (.newline rest) hrest
  exact .cons (.mark .dot _) hline

def tokensOfStatement (label : String) (statement : Statement) : List Token :=
  [.name (labelled label statement.subject.text), .name (written label statement.predicate),
    .name (labelled label statement.object.text), .dot]

theorem spells_statementLine {label : String} {statement : Statement} {rest : List Char}
    {tokens : List Token} (hlabel : IsLabel label)
    (hsubject : IsWritable statement.subject.text)
    (hobject : IsWritable statement.object.text) (hrest : Spells rest tokens) :
    Spells ((statementLine label statement).toList ++ rest)
      (tokensOfStatement label statement ++ tokens) := by
  have hend : Spells (' ' :: '.' :: '\n' :: rest) (.dot :: tokens) := .space (.endOfLine hrest)
  have hwords := Spells.name (hlabel.isName hsubject)
    (.space (.name (isName_written hlabel statement.predicate)
      (.space (.name (hlabel.isName hobject) hend))))
  simpa [statementLine, tokensOfStatement] using hwords

theorem phrase_statement {label : String} (hlabel : IsLabel label) (statement : Statement) :
    Phrase label (tokensOfStatement label statement) (.ofStatement statement) := by
  have hsubject : Names (.name (labelled label statement.subject.text)) statement.subject :=
    .name (isLabelled_labelled hlabel _)
  have hobject : Names (.name (labelled label statement.object.text)) statement.object :=
    .name (isLabelled_labelled hlabel _)
  have hverb := expresses_written hlabel statement.predicate
  exact .sentence hsubject (.last hverb (.last (.statement hobject))) .dot

/-! ## The whole file -/

theorem spells_statementLines {label : String} {statements : List Statement}
    (hlabel : IsLabel label)
    (hids : ∀ statement ∈ statements,
      IsWritable statement.subject.text ∧ IsWritable statement.object.text) :
    Spells (statements.flatMap fun statement => (statementLine label statement).toList)
      (statements.flatMap (tokensOfStatement label)) := by
  induction statements with
  | nil => exact .nil
  | cons statement rest ih =>
      obtain ⟨hsubject, hobject⟩ := hids statement List.mem_cons_self
      have hrest := ih fun other hother => hids other (List.mem_cons_of_mem statement hother)
      exact spells_statementLine hlabel hsubject hobject hrest

theorem phrases_statements {label : String} (hlabel : IsLabel label)
    (statements : List Statement) :
    Phrases label (statements.flatMap (tokensOfStatement label)) ⟨[], statements, 0, 0⟩ := by
  induction statements with
  | nil => exact .nil
  | cons statement rest ih => exact .cons (phrase_statement hlabel statement) ih

def tokensOfBinding (label iri : String) : List Token :=
  [.directive, .name (label ++ ":"), .iri iri, .dot]

theorem bindsLabel_colon {label : String} (hlabel : IsLabel label) :
    BindsLabel (label ++ ":") label := by
  refine ⟨0, by simp, ?_⟩
  intro hcolon
  exact hlabel.noColon (List.mem_of_getLast? hcolon)

theorem spells_bindingLine {label iri : String} {rest : List Char} {tokens : List Token}
    (hlabel : IsLabel label) (hclose : '>' ∉ iri.toList) (hline : '\n' ∉ iri.toList)
    (hrest : Spells rest tokens) :
    Spells ((bindingLine label iri).toList ++ rest) (tokensOfBinding label iri ++ tokens) := by
  -- The name in a directive is the label with the empty local name.
  have hempty : IsWritable "" := ⟨by decide, by decide⟩
  have hend : Spells (' ' :: '.' :: '\n' :: rest) (.dot :: tokens) := .space (.endOfLine hrest)
  have hiri := Spells.cons (.iri hclose hline _) hend
  have hname := Spells.name (hlabel.isName hempty) hiri.space
  have hwhole := Spells.directive hname.space
  simpa [bindingLine, tokensOfBinding, labelled] using hwhole

/-- Serialized statements read back as they are, whatever they are about. -/
theorem ofText_serialize {label iri : String} {statements : List Statement}
    (hlabel : IsLabel label) (hclose : '>' ∉ iri.toList) (hline : '\n' ∉ iri.toList)
    (hids : ∀ statement ∈ statements,
      IsWritable statement.subject.text ∧ IsWritable statement.object.text) :
    Document.ofText label (serialize label iri statements) =
      .ok ⟨[(label, iri)], statements, 0, 0⟩ := by
  have hbinding : Phrase label (tokensOfBinding label iri) (.ofBinding label iri) :=
    .directive (bindsLabel_colon hlabel)
  have hlines := spells_statementLines hlabel hids
  have hblankLine := Spells.cons (.newline _) hlines
  have hwhole := spells_bindingLine hlabel hclose hline hblankLine
  rw [ofText_eq_ok_iff]
  refine ⟨_, ?_, .cons hbinding (phrases_statements hlabel statements)⟩
  simpa [serialize, String.toList_join, List.flatMap_map] using hwhole

theorem ofText_serialize_dotted :
    Document.ofText "=" (serialize "=" "http://example.org/ethics#"
      [⟨⟨"1.p2=>#"⟩, .cites, ⟨".@:a"⟩⟩, ⟨⟨"1.p2=>#"⟩, .instanceOf, ⟨"Proposition"⟩⟩,
        ⟨⟨"1.p2=>#"⟩, .cites, ⟨".@:a"⟩⟩]) =
      .ok ⟨[("=", "http://example.org/ethics#")],
        [⟨⟨"1.p2=>#"⟩, .cites, ⟨".@:a"⟩⟩, ⟨⟨"1.p2=>#"⟩, .instanceOf, ⟨"Proposition"⟩⟩,
          ⟨⟨"1.p2=>#"⟩, .cites, ⟨".@:a"⟩⟩], 0, 0⟩ := by
  apply ofText_serialize
  · exact ⟨by decide, by decide, by decide, by decide⟩
  · decide
  · decide
  · intro statement hmem
    simp only [List.mem_cons, List.not_mem_nil, or_false] at hmem
    rcases hmem with rfl | rfl | rfl <;>
      exact ⟨⟨by decide, by decide⟩, ⟨by decide, by decide⟩⟩

end Treatise.N3
