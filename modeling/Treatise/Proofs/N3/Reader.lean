import Treatise.Proofs.N3.Moves
import Treatise.Proofs.N3.Pieces

/-!
# The reader accepts the grammar

`Remainder` says for each place what is left of the phrase at hand and what it
adds to the document.  A move either begins a phrase or leads from one
remainder to another, and every remainder is worked off by moves.  So a reader
that ends where it may has read phrases, and it reads every list of phrases to
its end.
-/

namespace Treatise.N3

/-! ## Documents one after the other -/

namespace Document

@[simp]
theorem blank_append (document : Document) : blank ++ document = document := by
  change append blank document = document
  simp [append, blank]

@[simp]
theorem append_blank (document : Document) : document ++ blank = document := by
  change append document blank = document
  simp [append, blank]

theorem append_assoc (first second third : Document) :
    first ++ second ++ third = first ++ (second ++ third) := by
  change append (append first second) third = append first (append second third)
  simp [append, Nat.add_assoc]

theorem ofItems_append (first second : List Item) :
    ofItems (first ++ second) = ofItems first ++ ofItems second := by
  change ofItems (first ++ second) = append (ofItems first) (ofItems second)
  simp [ofItems, append]

@[simp]
theorem ofItems_nil : ofItems [] = blank := rfl

theorem ofItems_none_append (document : Document) :
    ofItems (none : Option Item).toList ++ document = document :=
  blank_append document

end Document

/-! ## Closing braces -/

/-- Tokens that end a block and the `depth` blocks around it. -/
inductive Closing : ℕ → List Token → Prop
  | last {inner : List Token} (hinner : Balanced inner) :
      Closing 0 (inner ++ [.closeBrace])
  | cons {depth : ℕ} {inner rest : List Token} (hinner : Balanced inner)
      (hrest : Closing depth rest) : Closing (depth + 1) (inner ++ .closeBrace :: rest)

theorem Closing.plain {depth : ℕ} {token : Token} {tokens : List Token}
    (hopen : token ≠ .openBrace) (hclose : token ≠ .closeBrace)
    (hclosing : Closing depth tokens) : Closing depth (token :: tokens) := by
  cases hclosing with
  | last hinner => exact .last (.plain hopen hclose hinner)
  | cons hinner hrest => exact .cons (.plain hopen hclose hinner) hrest

theorem Closing.opened {depth : ℕ} {tokens : List Token}
    (hclosing : Closing (depth + 1) tokens) : Closing depth (.openBrace :: tokens) := by
  cases hclosing with
  | @cons _ inner _ hinner hrest =>
      cases hrest with
      | @last others hothers =>
          have hnested := Balanced.nested hinner hothers
          simpa using Closing.last hnested
      | @cons _ others _ hothers hrest =>
          have hnested := Balanced.nested hinner hothers
          simpa using Closing.cons hnested hrest

theorem closing_of_blockMoves {depth next : ℕ} {token : Token} {tokens : List Token}
    (hmoves : BlockMoves depth token (some next)) (hclosing : Closing next tokens) :
    Closing depth (token :: tokens) := by
  cases hmoves with
  | opened => exact hclosing.opened
  | closed => exact .cons .nil hclosing
  | plain _ hopen hclose => exact hclosing.plain hopen hclose

theorem closing_of_ended {depth : ℕ} {token : Token}
    (hmoves : BlockMoves depth token none) : Closing depth [token] := by
  cases hmoves with
  | ended => exact .last .nil

theorem Closing.exists_blockMoves {depth : ℕ} {token : Token} {tokens : List Token}
    (hclosing : Closing depth (token :: tokens)) :
    (BlockMoves depth token none ∧ tokens = []) ∨
      ∃ next, BlockMoves depth token (some next) ∧ Closing next tokens := by
  generalize hwhole : token :: tokens = whole at hclosing
  cases hclosing with
  | last hinner =>
      cases hinner with
      | nil =>
          cases hwhole
          exact .inl ⟨.ended, rfl⟩
      | plain hopen hclose hrest =>
          cases hwhole
          exact .inr ⟨0, .plain 0 hopen hclose, .last hrest⟩
      | nested hinner hrest =>
          rw [List.append_assoc, List.cons_append, List.cons_append] at hwhole
          cases hwhole
          exact .inr ⟨1, .opened 0, .cons hinner (.last hrest)⟩
  | @cons depth _ _ hinner hclosing =>
      cases hinner with
      | nil =>
          cases hwhole
          exact .inr ⟨depth, .closed depth, hclosing⟩
      | plain hopen hclose hrest =>
          cases hwhole
          exact .inr ⟨depth + 1, .plain _ hopen hclose, .cons hrest hclosing⟩
      | nested hinner hrest =>
          rw [List.append_assoc, List.cons_append, List.cons_append] at hwhole
          cases hwhole
          exact .inr ⟨depth + 2, .opened _, .cons hinner (.cons hrest hclosing)⟩

theorem Closing.ne_nil {depth : ℕ} {tokens : List Token}
    (hclosing : Closing depth tokens) : tokens ≠ [] := by
  cases hclosing <;> simp

theorem block_iff {tokens : List Token} :
    Block tokens ↔ ∃ rest, tokens = .openBrace :: rest ∧ Closing 0 rest := by
  constructor
  · intro hblock
    cases hblock with
    | braces hinner => exact ⟨_, rfl, .last hinner⟩
  · intro htokens
    obtain ⟨rest, rfl, hclosing⟩ := htokens
    cases hclosing with
    | last hinner => exact .braces hinner

/-! ## What is left of a phrase -/

/-- What may follow the objects of a group: the end of the sentence or further
groups. -/
inductive MoreGroups (label : String) (subject : ElementId) : List Token → Document → Prop
  | ended {ending : List Token} (hending : SentenceEnd ending) :
      MoreGroups label subject ending .blank
  | semicolon {groups ending : List Token} {document : Document}
      (hgroups : Groups label subject groups document) (hending : SentenceEnd ending) :
      MoreGroups label subject (.semicolon :: (groups ++ ending)) document

/-- What is left of the phrase at hand, and what it adds to the document. -/
inductive Remainder (label : String) : Place → List Token → Document → Prop
  | betweenItems : Remainder label .betweenItems [] .blank
  | atLabel {name bound : String} (hname : BindsLabel name bound) (iri : String) :
      Remainder label .atLabel [.name name, .iri iri, .dot] (.ofBinding bound iri)
  | atIri (bound iri : String) :
      Remainder label (.atIri bound) [.iri iri, .dot] (.ofBinding bound iri)
  | atEndOfDirective (bound iri : String) :
      Remainder label (.atEndOfDirective bound iri) [.dot] (.ofBinding bound iri)
  | inPremises {depth : ℕ} {closing conclusion ending : List Token}
      (hclosing : Closing depth closing) (hconclusion : Conclusion conclusion)
      (hending : RuleEnd ending) :
      Remainder label (.inPremises depth) (closing ++ (conclusion ++ ending)) .ofRule
  | afterPremises {conclusion ending : List Token} (hconclusion : Conclusion conclusion)
      (hending : RuleEnd ending) :
      Remainder label .afterPremises (conclusion ++ ending) .blank
  | atConclusion {block ending : List Token} (hblock : Block block)
      (hending : RuleEnd ending) :
      Remainder label .atConclusion (block ++ ending) .blank
  | inConclusion {depth : ℕ} {closing ending : List Token}
      (hclosing : Closing depth closing) (hending : RuleEnd ending) :
      Remainder label (.inConclusion depth) (closing ++ ending) .blank
  | afterRule {ending : List Token} (hending : RuleEnd ending) :
      Remainder label .afterRule ending .blank
  | atPredicate {subject : ElementId} {groups ending : List Token} {document : Document}
      (hgroups : Groups label subject groups document) (hending : SentenceEnd ending) :
      Remainder label (.atPredicate subject) (groups ++ ending) document
  | atObject {subject : ElementId} {verb : Verb} {objects more : List Token}
      {document others : Document} (hobjects : Objects subject verb objects document)
      (hmore : MoreGroups label subject more others) :
      Remainder label (.atObject subject verb) (objects ++ more) (document ++ others)
  | comma {subject : ElementId} {verb : Verb} {objects more : List Token}
      {document others : Document} (hobjects : Objects subject verb objects document)
      (hmore : MoreGroups label subject more others) :
      Remainder label (.afterObject subject verb) (.comma :: (objects ++ more))
        (document ++ others)
  | afterObject {subject : ElementId} {more : List Token} {document : Document}
      (verb : Verb) (hmore : MoreGroups label subject more document) :
      Remainder label (.afterObject subject verb) more document
  | endOfSentence (subject : ElementId) :
      Remainder label (.afterSemicolon subject) [.dot] .blank
  | afterSemicolon {subject : ElementId} {groups ending : List Token} {document : Document}
      (hgroups : Groups label subject groups document) (hending : SentenceEnd ending) :
      Remainder label (.afterSemicolon subject) (groups ++ ending) document

theorem exists_groups {label : String} {subject : ElementId} {token : Token} {verb : Verb}
    {objects more : List Token} {document others : Document}
    (hverb : Expresses label token verb) (hobjects : Objects subject verb objects document)
    (hmore : MoreGroups label subject more others) :
    ∃ groups ending, token :: (objects ++ more) = groups ++ ending ∧
      Groups label subject groups (document ++ others) ∧ SentenceEnd ending := by
  cases hmore with
  | ended hending =>
      rw [Document.append_blank]
      exact ⟨token :: objects, more, rfl, .last hverb hobjects, hending⟩
  | semicolon hgroups hending =>
      refine ⟨_, _, ?_, .cons hverb hobjects hgroups, hending⟩
      simp

theorem Groups.exists_verb {label : String} {subject : ElementId}
    {groups ending : List Token} {document : Document}
    (hgroups : Groups label subject groups document) (hending : SentenceEnd ending) :
    ∃ token verb rest, groups ++ ending = token :: rest ∧ Expresses label token verb ∧
      Remainder label (.atObject subject verb) rest document := by
  cases hgroups with
  | @last token verb objects document hverb hobjects =>
      refine ⟨token, verb, objects ++ ending, rfl, hverb, ?_⟩
      rw [← document.append_blank]
      exact .atObject hobjects (.ended hending)
  | @cons token verb objects rest document others hverb hobjects hrest =>
      refine ⟨token, verb, objects ++ (.semicolon :: (rest ++ ending)), ?_, hverb, ?_⟩
      · simp
      · exact .atObject hobjects (.semicolon hrest hending)

theorem Objects.cases_first {subject : ElementId} {verb : Verb} {objects more : List Token}
    {label : String} {document others : Document}
    (hobjects : Objects subject verb objects document)
    (hmore : MoreGroups label subject more others) :
    ∃ token rest first left, objects ++ more = token :: rest ∧
      CompletesWith subject verb token first ∧
      Remainder label (.afterObject subject verb) rest left ∧
      document ++ others = first ++ left := by
  cases hobjects with
  | @last token document hobject =>
      exact ⟨token, more, document, others, rfl, hobject, .afterObject verb hmore, rfl⟩
  | @cons token rest document left hobject hrest =>
      refine ⟨token, _, document, left ++ others, rfl, hobject, .comma hrest hmore, ?_⟩
      exact Document.append_assoc document left others

theorem CompletesWith.remainder {label : String} {subject : ElementId} {verb : Verb}
    {token : Token} {rest : List Token} {document left : Document}
    (hobject : CompletesWith subject verb token document)
    (hrest : Remainder label (.afterObject subject verb) rest left) :
    Remainder label (.atObject subject verb) (token :: rest) (document ++ left) := by
  cases hrest with
  | comma hobjects hmore =>
      rw [← Document.append_assoc]
      exact .atObject (.cons hobject hobjects) hmore
  | afterObject _ hmore => exact .atObject (.last hobject) hmore

theorem completesWith_iff {label : String} {subject : ElementId} {verb : Verb}
    {token : Token} {document : Document} :
    CompletesWith subject verb token document ↔
      ∃ item, Moves label (.atObject subject verb) token (.afterObject subject verb) item ∧
        Document.ofItems item.toList = document := by
  constructor
  · intro hobject
    cases hobject with
    | statement hobject => exact ⟨_, .statement hobject, rfl⟩
    | skipped hterm => exact ⟨_, .skipped hterm, rfl⟩
  · intro hmoves
    obtain ⟨item, hmoves, rfl⟩ := hmoves
    cases hmoves with
    | begins hplace => simp [Place.mayEnd] at hplace
    | statement hobject => exact .statement hobject
    | skipped hterm => exact .skipped hterm

/-! ## Moves work off what is left -/

theorem Begins.phrase {label : String} {token : Token} {next : Place} {rest : List Token}
    {document : Document} (hbegins : Begins token next)
    (hrest : Remainder label next rest document) :
    Phrase label (token :: rest) document := by
  cases hbegins with
  | directive =>
      cases hrest with
      | atLabel hname iri => exact .directive hname
  | premises =>
      cases hrest with
      | @inPremises _ closing conclusion ending hclosing hconclusion hending =>
          have hblock : Block (.openBrace :: closing) := block_iff.mpr ⟨closing, rfl, hclosing⟩
          have hrule : Phrase label (.openBrace :: closing ++ conclusion ++ ending) .ofRule :=
            .rule hblock hconclusion hending
          rw [List.append_assoc] at hrule
          exact hrule
  | subject hsubject =>
      cases hrest with
      | atPredicate hgroups hending => exact .sentence hsubject hgroups hending

theorem Phrase.exists_begins {label : String} {tokens : List Token} {document : Document}
    (hphrase : Phrase label tokens document) :
    ∃ token rest next, tokens = token :: rest ∧ Begins token next ∧
      Remainder label next rest document := by
  cases hphrase with
  | directive hname => exact ⟨_, _, _, rfl, .directive, .atLabel hname _⟩
  | rule hpremises hconclusion hending =>
      obtain ⟨closing, rfl, hclosing⟩ := block_iff.mp hpremises
      refine ⟨_, _, _, ?_, .premises, .inPremises hclosing hconclusion hending⟩
      simp
  | sentence hsubject hgroups hending =>
      exact ⟨_, _, _, rfl, .subject hsubject, .atPredicate hgroups hending⟩

theorem remainder_of_moves {label : String} {place next : Place} {token : Token}
    {item : Option Item} {rest : List Token} {document : Document}
    (hmoves : Moves label place token next item)
    (hrest : Remainder label next rest document) :
    (place.mayEnd ∧ Begins token next ∧ item = none) ∨
      Remainder label place (token :: rest) (Document.ofItems item.toList ++ document) := by
  cases hmoves with
  | begins hplace hbegins => exact .inl ⟨hplace, hbegins, rfl⟩
  | boundLabel hname =>
      cases hrest with
      | atIri => exact .inr (.atLabel hname _)
  | boundIri bound iri =>
      cases hrest with
      | atEndOfDirective => exact .inr (.atIri bound iri)
  | endOfDirective bound iri =>
      cases hrest with
      | betweenItems => exact .inr (.atEndOfDirective bound iri)
  | inPremises hblock =>
      cases hrest with
      | inPremises hclosing hconclusion hending =>
          have hwhole := closing_of_blockMoves hblock hclosing
          exact .inr (.inPremises hwhole hconclusion hending)
  | endOfPremises hblock =>
      cases hrest with
      | afterPremises hconclusion hending =>
          exact .inr (.inPremises (closing_of_ended hblock) hconclusion hending)
  | implies =>
      cases hrest with
      | atConclusion hblock hending =>
          exact .inr (.afterPremises (.present hblock) hending)
  | conclusion =>
      cases hrest with
      | inConclusion hclosing hending =>
          have hblock := block_iff.mpr ⟨_, rfl, hclosing⟩
          exact .inr (.atConclusion hblock hending)
  | inConclusion hblock =>
      cases hrest with
      | inConclusion hclosing hending =>
          exact .inr (.inConclusion (closing_of_blockMoves hblock hclosing) hending)
  | endOfConclusion hblock =>
      cases hrest with
      | afterRule hending =>
          exact .inr (.inConclusion (closing_of_ended hblock) hending)
  | endOfRule hplace =>
      cases hrest with
      | betweenItems =>
          rcases hplace with rfl | rfl
          · exact .inr (.afterPremises .absent .dot)
          · exact .inr (.afterRule .dot)
  | predicate hplace hverb =>
      cases hrest with
      | atObject hobjects hmore =>
          obtain ⟨groups, ending, htokens, hgroups, hending⟩ :=
            exists_groups hverb hobjects hmore
          rw [htokens, Document.ofItems_none_append]
          rcases hplace with rfl | rfl
          · exact .inr (.atPredicate hgroups hending)
          · exact .inr (.afterSemicolon hgroups hending)
  | statement hobject =>
      exact .inr (CompletesWith.remainder (.statement hobject) hrest)
  | skipped hterm =>
      exact .inr (CompletesWith.remainder (.skipped hterm) hrest)
  | comma subject verb =>
      cases hrest with
      | atObject hobjects hmore =>
          rw [Document.ofItems_none_append]
          exact .inr (.comma hobjects hmore)
  | semicolon subject verb =>
      cases hrest with
      | endOfSentence => exact .inr (.afterObject verb (.ended .semicolonDot))
      | afterSemicolon hgroups hending =>
          rw [Document.ofItems_none_append]
          exact .inr (.afterObject verb (.semicolon hgroups hending))
  | endOfSentence hplace =>
      cases hrest with
      | betweenItems =>
          rcases hplace with ⟨verb, rfl⟩ | rfl
          · exact .inr (.afterObject verb (.ended .dot))
          · exact .inr (.endOfSentence _)

theorem Remainder.exists_moves {label : String} {place : Place} {token : Token}
    {rest : List Token} {document : Document}
    (hremainder : Remainder label place (token :: rest) document) :
    ∃ next item left, Moves label place token next item ∧
      Remainder label next rest left ∧ document = Document.ofItems item.toList ++ left := by
  generalize hwhole : token :: rest = whole at hremainder
  cases hremainder with
  | betweenItems => simp at hwhole
  | atLabel hname iri =>
      cases hwhole
      exact ⟨_, none, _, .boundLabel hname, .atIri _ iri, rfl⟩
  | atIri bound iri =>
      cases hwhole
      exact ⟨_, none, _, .boundIri bound iri, .atEndOfDirective bound iri, rfl⟩
  | atEndOfDirective bound iri =>
      cases hwhole
      exact ⟨_, _, _, .endOfDirective bound iri, .betweenItems, rfl⟩
  | @inPremises depth closing conclusion ending hclosing hconclusion hending =>
      obtain ⟨first, inner, rfl⟩ := List.exists_cons_of_ne_nil hclosing.ne_nil
      cases hwhole
      rcases hclosing.exists_blockMoves with ⟨hblock, rfl⟩ | ⟨next, hblock, hclosing⟩
      · have hleft : Remainder label .afterPremises (conclusion ++ ending) .blank :=
          .afterPremises hconclusion hending
        exact ⟨_, _, _, .endOfPremises hblock, hleft, rfl⟩
      · exact ⟨_, none, _, .inPremises hblock, .inPremises hclosing hconclusion hending, rfl⟩
  | afterPremises hconclusion hending =>
      cases hconclusion with
      | absent =>
          cases hending with
          | absent => simp at hwhole
          | dot =>
              cases hwhole
              exact ⟨_, none, _, .endOfRule (.inl rfl), .betweenItems, rfl⟩
      | present hblock =>
          cases hwhole
          exact ⟨_, none, _, .implies, .atConclusion hblock hending, rfl⟩
  | atConclusion hblock hending =>
      obtain ⟨closing, rfl, hclosing⟩ := block_iff.mp hblock
      cases hwhole
      exact ⟨_, none, _, .conclusion, .inConclusion hclosing hending, rfl⟩
  | @inConclusion depth closing ending hclosing hending =>
      obtain ⟨first, inner, rfl⟩ := List.exists_cons_of_ne_nil hclosing.ne_nil
      cases hwhole
      rcases hclosing.exists_blockMoves with ⟨hblock, rfl⟩ | ⟨next, hblock, hclosing⟩
      · exact ⟨_, none, _, .endOfConclusion hblock, .afterRule hending, rfl⟩
      · exact ⟨_, none, _, .inConclusion hblock, .inConclusion hclosing hending, rfl⟩
  | afterRule hending =>
      cases hending with
      | absent => simp at hwhole
      | dot =>
          cases hwhole
          exact ⟨_, none, _, .endOfRule (.inr rfl), .betweenItems, rfl⟩
  | atPredicate hgroups hending =>
      obtain ⟨first, verb, left, htokens, hverb, hleft⟩ := hgroups.exists_verb hending
      obtain ⟨rfl, rfl⟩ := List.cons.inj (hwhole.trans htokens)
      refine ⟨_, none, _, .predicate (.inl rfl) hverb, hleft, ?_⟩
      rw [Document.ofItems_none_append]
  | atObject hobjects hmore =>
      obtain ⟨first, left, meaning, others, htokens, hobject, hleft, hdocument⟩ :=
        hobjects.cases_first hmore
      obtain ⟨rfl, rfl⟩ := List.cons.inj (hwhole.trans htokens)
      obtain ⟨item, hmoves, rfl⟩ := completesWith_iff.mp hobject
      exact ⟨_, item, _, hmoves, hleft, hdocument⟩
  | comma hobjects hmore =>
      cases hwhole
      refine ⟨_, none, _, .comma _ _, .atObject hobjects hmore, ?_⟩
      rw [Document.ofItems_none_append]
  | @afterObject subject more document verb hmore =>
      cases hmore with
      | ended hending =>
          cases hending with
          | dot =>
              cases hwhole
              exact ⟨_, none, _, .endOfSentence (.inl ⟨verb, rfl⟩), .betweenItems, rfl⟩
          | semicolonDot =>
              cases hwhole
              exact ⟨_, none, _, .semicolon subject verb, .endOfSentence subject, rfl⟩
      | semicolon hgroups hending =>
          cases hwhole
          refine ⟨_, none, _, .semicolon subject verb, .afterSemicolon hgroups hending, ?_⟩
          rw [Document.ofItems_none_append]
  | endOfSentence subject =>
      cases hwhole
      exact ⟨_, none, _, .endOfSentence (.inr rfl), .betweenItems, rfl⟩
  | afterSemicolon hgroups hending =>
      obtain ⟨first, verb, left, htokens, hverb, hleft⟩ := hgroups.exists_verb hending
      obtain ⟨rfl, rfl⟩ := List.cons.inj (hwhole.trans htokens)
      refine ⟨_, none, _, .predicate (.inr rfl) hverb, hleft, ?_⟩
      rw [Document.ofItems_none_append]

theorem Remainder.eq_blank_of_nil {label : String} {place : Place} {document : Document}
    (hremainder : Remainder label place [] document) :
    place.mayEnd ∧ document = .blank := by
  generalize hwhole : ([] : List Token) = whole at hremainder
  cases hremainder with
  | betweenItems => exact ⟨rfl, rfl⟩
  | afterPremises => exact ⟨rfl, rfl⟩
  | afterRule => exact ⟨rfl, rfl⟩
  | inPremises hclosing => exact absurd (List.append_eq_nil_iff.mp hwhole.symm).1 hclosing.ne_nil
  | inConclusion hclosing =>
      exact absurd (List.append_eq_nil_iff.mp hwhole.symm).1 hclosing.ne_nil
  | atConclusion hblock =>
      obtain ⟨closing, rfl, hclosing⟩ := block_iff.mp hblock
      simp at hwhole
  | atPredicate hgroups hending =>
      obtain ⟨token, verb, rest, htokens, hverb, hrest⟩ := hgroups.exists_verb hending
      simp [htokens] at hwhole
  | afterSemicolon hgroups hending =>
      obtain ⟨token, verb, rest, htokens, hverb, hrest⟩ := hgroups.exists_verb hending
      simp [htokens] at hwhole
  | atObject hobjects => cases hobjects <;> simp at hwhole
  | afterObject verb hmore =>
      cases hmore with
      | ended hending => cases hending <;> simp at hwhole
      | semicolon => simp at hwhole
  | _ => simp at hwhole

theorem remainder_of_mayEnd {label : String} {place : Place} (hplace : place.mayEnd) :
    Remainder label place [] .blank := by
  cases place with
  | betweenItems => exact .betweenItems
  | afterPremises => exact .afterPremises .absent .absent
  | afterRule => exact .afterRule .absent
  | _ => simp [Place.mayEnd] at hplace

theorem Phrases.eq_blank_of_nil {label : String} {document : Document}
    (hphrases : Phrases label [] document) : document = .blank := by
  generalize hwhole : ([] : List Token) = whole at hphrases
  cases hphrases with
  | nil => rfl
  | cons hphrase =>
      obtain ⟨token, rest, next, rfl, hbegins, hremainder⟩ := hphrase.exists_begins
      simp at hwhole

/-! ## Runs -/

/-- What is left of the phrase at hand and the phrases after it. -/
def Continues (label : String) (place : Place) (tokens : List Token) (document : Document) :
    Prop :=
  ∃ remainder phrases left others, tokens = remainder ++ phrases ∧
    document = left ++ others ∧ Remainder label place remainder left ∧
    Phrases label phrases others

theorem continues_betweenItems_iff {label : String} {tokens : List Token}
    {document : Document} :
    Continues label .betweenItems tokens document ↔ Phrases label tokens document := by
  constructor
  · intro hcontinues
    obtain ⟨remainder, phrases, left, others, rfl, rfl, hremainder, hphrases⟩ := hcontinues
    cases hremainder with
    | betweenItems =>
        rw [Document.blank_append]
        exact hphrases
  · intro hphrases
    refine ⟨[], tokens, .blank, document, rfl, ?_, .betweenItems, hphrases⟩
    exact (Document.blank_append document).symm

theorem continues_nil_iff {label : String} {place : Place} {document : Document} :
    Continues label place [] document ↔ place.mayEnd ∧ document = .blank := by
  constructor
  · intro hcontinues
    obtain ⟨remainder, phrases, left, others, htokens, rfl, hremainder, hphrases⟩ := hcontinues
    obtain ⟨rfl, rfl⟩ := List.append_eq_nil_iff.mp htokens.symm
    obtain ⟨hplace, rfl⟩ := hremainder.eq_blank_of_nil
    rw [hphrases.eq_blank_of_nil]
    exact ⟨hplace, Document.blank_append .blank⟩
  · intro hends
    obtain ⟨hplace, rfl⟩ := hends
    refine ⟨[], [], .blank, .blank, rfl, ?_, remainder_of_mayEnd hplace, .nil⟩
    exact (Document.blank_append .blank).symm

theorem continues_of_moves {label : String} {place next : Place} {token : Token}
    {item : Option Item} {rest : List Token} {document : Document}
    (hmoves : Moves label place token next item)
    (hrest : Continues label next rest document) :
    Continues label place (token :: rest) (Document.ofItems item.toList ++ document) := by
  obtain ⟨remainder, phrases, left, others, rfl, rfl, hremainder, hphrases⟩ := hrest
  -- A token that begins a phrase finishes the one before it.
  rcases remainder_of_moves hmoves hremainder with ⟨hplace, hbegins, rfl⟩ | hwhole
  · refine ⟨[], token :: (remainder ++ phrases), .blank, left ++ others, rfl, ?_,
      remainder_of_mayEnd hplace, .cons (hbegins.phrase hremainder) hphrases⟩
    rw [Document.ofItems_none_append, Document.blank_append]
  · refine ⟨token :: remainder, phrases, _, others, rfl, ?_, hwhole, hphrases⟩
    rw [Document.append_assoc]

theorem Continues.exists_moves {label : String} {place : Place} {token : Token}
    {rest : List Token} {document : Document}
    (hcontinues : Continues label place (token :: rest) document) :
    ∃ next item left, Moves label place token next item ∧
      Continues label next rest left ∧ document = Document.ofItems item.toList ++ left := by
  obtain ⟨remainder, phrases, left, others, htokens, rfl, hremainder, hphrases⟩ := hcontinues
  cases remainder with
  | nil =>
      obtain ⟨hplace, rfl⟩ := hremainder.eq_blank_of_nil
      rw [List.nil_append] at htokens
      rw [Document.blank_append]
      cases hphrases with
      | nil => simp at htokens
      | @cons phrase more meaning others hphrase hmore =>
          obtain ⟨first, remainder, next, rfl, hbegins, hremainder⟩ := hphrase.exists_begins
          obtain ⟨rfl, rfl⟩ := List.cons.inj htokens
          refine ⟨next, none, _, .begins hplace hbegins,
            ⟨remainder, more, meaning, others, rfl, rfl, hremainder, hmore⟩, ?_⟩
          rw [Document.ofItems_none_append]
  | cons first remainder =>
      obtain ⟨rfl, rfl⟩ := List.cons.inj htokens
      obtain ⟨next, item, after, hmoves, hafter, rfl⟩ := hremainder.exists_moves
      refine ⟨next, item, after ++ others, hmoves,
        ⟨remainder, phrases, after, others, rfl, rfl, hafter, hphrases⟩, ?_⟩
      rw [Document.append_assoc]

theorem itemsFrom_cons_eq_ok_iff {label : String} {place : Place} {line : ℕ}
    {lexeme : Lexeme} {rest : List Lexeme} {found : List Item} :
    itemsFrom label place line (lexeme :: rest) = .ok found ↔
      ∃ next item others, Moves label place lexeme.token next item ∧
        itemsFrom label next lexeme.line rest = .ok others ∧
        found = item.toList ++ others := by
  rw [itemsFrom]
  constructor
  · intro hrun
    split at hrun
    next => simp at hrun
    next next item hmove =>
      obtain ⟨others, hothers, rfl⟩ := Text.map_eq_ok_iff.mp hrun
      exact ⟨next, item, others, moves_of_move hmove, hothers, rfl⟩
  · intro hfound
    obtain ⟨next, item, others, hmoves, hothers, rfl⟩ := hfound
    simp only [move_of_moves hmoves]
    exact Text.map_eq_ok_iff.mpr ⟨others, hothers, rfl⟩

/-- Runs of the reader from any place are what the grammar leaves for it. -/
theorem itemsFrom_iff_continues {label : String} {place : Place} {line : ℕ}
    {lexemes : List Lexeme} {document : Document} :
    Document.ofItems <$> itemsFrom label place line lexemes = .ok document ↔
      Continues label place (lexemes.map Lexeme.token) document := by
  -- The line matters for errors only, so it is left to the induction.
  induction lexemes generalizing place line document with
  | nil =>
      rw [List.map_nil, continues_nil_iff, itemsFrom]
      by_cases hplace : place.mayEnd
      · simp [hplace, eq_comm]
      · simp [hplace]
  | cons lexeme rest ih =>
      rw [List.map_cons, Text.map_eq_ok_iff]
      constructor
      · intro hrun
        obtain ⟨found, hfound, rfl⟩ := hrun
        obtain ⟨next, item, others, hmoves, hothers, rfl⟩ :=
          itemsFrom_cons_eq_ok_iff.mp hfound
        rw [Document.ofItems_append]
        apply continues_of_moves hmoves
        exact ih.mp (Text.map_eq_ok_iff.mpr ⟨others, hothers, rfl⟩)
      · intro hcontinues
        obtain ⟨next, item, left, hmoves, hleft, rfl⟩ := hcontinues.exists_moves
        obtain ⟨others, hothers, rfl⟩ := Text.map_eq_ok_iff.mp (ih.mpr hleft)
        refine ⟨item.toList ++ others, ?_, Document.ofItems_append _ _⟩
        exact itemsFrom_cons_eq_ok_iff.mpr ⟨next, item, others, hmoves, hothers, rfl⟩

/-- The reader accepts the token lists of the grammar and no others, and what
it returns is their meaning. -/
theorem reads_iff_phrases (label : String) (lexemes : List Lexeme) (document : Document) :
    Document.ofItems <$> items label lexemes = .ok document ↔
      Phrases label (lexemes.map Lexeme.token) document := by
  rw [items, itemsFrom_iff_continues, continues_betweenItems_iff]

/-- A text is a document when it splits into the tokens of one. -/
theorem ofText_eq_ok_iff {label text : String} {document : Document} :
    Document.ofText label text = .ok document ↔
      ∃ tokens, Spells text.toList tokens ∧ Phrases label tokens document := by
  have hparts : Document.ofText label text = .ok document ↔
      ∃ lexemes, tokenize text = .ok lexemes ∧
        Document.ofItems <$> items label lexemes = .ok document := by
    unfold Document.ofText
    cases tokenize text with
    | error error => simp [Bind.bind, Except.bind]
    | ok lexemes => simp [Bind.bind, Except.bind]
  rw [hparts]
  simp only [tokenize_eq_ok_iff, items, itemsFrom_iff_continues, continues_betweenItems_iff,
    spells_iff 1]
  constructor
  · intro hread
    obtain ⟨lexemes, hsplits, hphrases⟩ := hread
    exact ⟨_, ⟨lexemes, hsplits, rfl⟩, hphrases⟩
  · intro hread
    obtain ⟨tokens, ⟨lexemes, hsplits, rfl⟩, hphrases⟩ := hread
    exact ⟨lexemes, hsplits, hphrases⟩

end Treatise.N3
