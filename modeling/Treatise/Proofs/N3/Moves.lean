import Treatise.Proofs.N3.Grammar
import Treatise.Proofs.Text.Cut

/-!
# The moves of the reader

The reader goes from place to place, one token at a time.  `Moves` says once
where each token leads and which item it completes, in the words of the
grammar.  It describes the reader exactly, and nothing after this file looks
into the reader again.
-/

namespace Treatise.N3

/-! ## What the reader makes of a token -/

theorem localName_eq_iff {iri localName' : String} :
    localName iri = localName' ↔ IsLocalName iri localName' := by
  have htext : localName iri = localName' ↔
      Text.afterLast (fun c => c == '#' || c == '/') iri.toList = localName'.toList := by
    rw [localName, ← String.toList_inj, String.toList_ofList]
  rw [htext, Text.afterLast_eq_iff, IsLocalName]
  apply exists_congr
  intro before
  have hplain : (∀ c ∈ localName'.toList, (c == '#' || c == '/') = false) ↔
      '#' ∉ localName'.toList ∧ '/' ∉ localName'.toList := by
    simp only [Bool.or_eq_false_iff, beq_eq_false_iff_ne]
    grind
  have hmark : (∀ c, before.getLast? = some c → (c == '#' || c == '/') = true) ↔
      before = [] ∨ before.getLast? = some '#' ∨ before.getLast? = some '/' := by
    rw [← List.getLast?_eq_none_iff]
    simp only [Bool.or_eq_true, beq_iff_eq]
    grind
  rw [hplain, hmark, and_assoc]

theorem isLocalName_localName (iri : String) : IsLocalName iri (localName iri) :=
  localName_eq_iff.mp rfl

theorem ofName?_eq_some_iff {text : String} {predicate : Predicate} :
    Predicate.ofName? text = some predicate ↔ IsSpelling text predicate := by
  unfold Predicate.ofName? IsSpelling
  split
  next htype =>
    subst htype
    have hwire : "rdf:type" ≠ predicate.wireName := by
      cases predicate <;> decide
    simp [hwire, eq_comm]
  next hother =>
    simp only [hother, false_and, or_false]
    constructor
    · intro hfound
      exact (Predicate.wireName_of_ofWireName? hfound).symm
    · intro hwire
      subst hwire
      exact Predicate.ofWireName?_wireName predicate

theorem ofName?_eq_none_iff {text : String} :
    Predicate.ofName? text = none ↔ ∀ predicate, ¬ IsSpelling text predicate := by
  simp only [Option.eq_none_iff_forall_ne_some, ne_eq, ofName?_eq_some_iff]

theorem cut_eq_some_iff_isLabelled {name label localName : String} :
    Text.cut ':' name.toList = some (label.toList, localName.toList) ↔
      IsLabelled name label localName :=
  Text.cut_eq_some_iff

theorem isLabelled_of_cut {name : String} {label localName : List Char}
    (hcut : Text.cut ':' name.toList = some (label, localName)) :
    IsLabelled name (String.ofList label) (String.ofList localName) := by
  rw [← cut_eq_some_iff_isLabelled, String.toList_ofList, String.toList_ofList]
  exact hcut

theorem IsLabelled.ne_shorthand {name label localName : String}
    (hlabelled : IsLabelled name label localName) : name ≠ "a" := by
  intro hname
  subst hname
  have hcolon : ':' ∈ "a".toList := by
    rw [hlabelled.1]
    simp
  exact absurd hcolon (by decide)

/-- The other spelling of the type predicate is none of the vocabulary under a
label. -/
theorem IsLabelled.ne_type {name label localName : String} {predicate : Predicate}
    (hlabelled : IsLabelled name label localName)
    (hspelling : IsSpelling localName predicate) : name ≠ "rdf:type" := by
  intro hname
  subst hname
  have hcut : Text.cut ':' "rdf:type".toList = some ("rdf".toList, "type".toList) := by
    decide
  rw [cut_eq_some_iff_isLabelled.mpr hlabelled] at hcut
  have hlocal : localName = "type" :=
    String.toList_inj.mp (Prod.mk.inj (Option.some.inj hcut)).2
  have hnone : Predicate.ofName? "type" = none := by decide
  exact ofName?_eq_none_iff.mp hnone predicate (hlocal ▸ hspelling)

theorem labelOf?_eq_some_iff {name label : String} :
    labelOf? name = some label ↔ BindsLabel name label := by
  unfold labelOf? BindsLabel
  constructor
  · intro hbound
    split at hbound
    next hlast =>
      obtain rfl := Option.some.inj hbound
      obtain ⟨count, hname⟩ := Text.exists_eq_append_replicate ':' name.toList
      have hstop := Text.getLast?_reverse_dropWhile_ne ':' name.toList
      rw [String.toList_ofList]
      cases count with
      | zero =>
          rw [hname, List.replicate_zero, List.append_nil] at hlast
          exact absurd hlast hstop
      | succ count => exact ⟨count, hname, hstop⟩
    next => simp at hbound
  · intro hbinds
    rcases hbinds with ⟨count, hname, hlabel⟩
    have hlast : name.toList.getLast? = some ':' := by
      rw [hname, List.replicate_succ']
      simp
    rw [if_pos hlast, hname, List.reverse_append, Text.dropWhile_append_of_stop]
    · simp
    · intro c hmem
      simpa using hmem
    · intro c hhead
      rw [List.head?_reverse] at hhead
      simp only [beq_eq_false_iff_ne]
      intro hcolon
      subst hcolon
      exact hlabel hhead

theorem termOf_eq_id_iff {lexeme : Lexeme} {id : ElementId} :
    termOf lexeme = .ok (.id id) ↔ Names lexeme.token id := by
  constructor
  · intro hterm
    unfold termOf at hterm
    split at hterm
    next name htoken =>
      split at hterm
      next hcut =>
        cases hterm
        rw [htoken]
        exact .name (isLabelled_of_cut hcut)
      next => simp at hterm
    next iri htoken =>
      cases hterm
      rw [htoken]
      exact .iri (isLocalName_localName iri)
    all_goals simp at hterm
  · obtain ⟨token, line⟩ := lexeme
    intro hnames
    cases hnames with
    | name hlabelled =>
        simp [termOf, cut_eq_some_iff_isLabelled.mpr hlabelled]
    | iri hlocal =>
        simp [termOf, localName_eq_iff.mpr hlocal]

theorem termOf_eq_literal_iff {lexeme : Lexeme} :
    termOf lexeme = .ok .literal ↔ IsLiteral lexeme.token := by
  constructor
  · intro hterm
    unfold termOf at hterm
    split at hterm
    next name htoken =>
      split at hterm
      next => simp at hterm
      next hcut =>
        rw [htoken]
        exact .name (Text.cut_eq_none_iff.mp hcut)
    next => simp at hterm
    next text htoken =>
      rw [htoken]
      exact .literal text
    next => simp at hterm
  · obtain ⟨token, line⟩ := lexeme
    intro hliteral
    cases hliteral with
    | literal text => rfl
    | name hplain => simp [termOf, Text.cut_eq_none_iff.mpr hplain]

theorem verbOf_eq_ok_iff {label : String} {lexeme : Lexeme} {verb : Verb} :
    verbOf label lexeme = .ok verb ↔ Expresses label lexeme.token verb := by
  constructor
  · intro hverb
    unfold verbOf at hverb
    split at hverb
    next iri htoken =>
      rw [htoken]
      split at hverb
      next predicate hfound =>
        cases hverb
        exact .iri (isLocalName_localName iri) (ofName?_eq_some_iff.mp hfound)
      next hnone =>
        cases hverb
        exact .foreignIri (isLocalName_localName iri) (ofName?_eq_none_iff.mp hnone)
    next name htoken =>
      rw [htoken]
      split at hverb
      next htype =>
        cases hverb
        rcases htype with rfl | rfl
        · exact .shorthand
        · exact .type
      next hnotType =>
        split at hverb
        next => simp at hverb
        next nameLabel localName hcut =>
          have hlabelled := isLabelled_of_cut hcut
          split at hverb
          next hlabel =>
            rw [hlabel, String.ofList_toList] at hlabelled
            split at hverb
            next predicate hfound =>
              cases hverb
              exact .labelled hlabelled (ofName?_eq_some_iff.mp hfound)
            next => simp at hverb
          next hlabel =>
            cases hverb
            refine .foreignLabel hlabelled ?_ fun htype => hnotType (.inr htype)
            intro hsame
            subst hsame
            exact hlabel (by simp)
    next => simp at hverb
  · obtain ⟨token, line⟩ := lexeme
    intro hexpresses
    cases hexpresses with
    | shorthand => simp [verbOf]
    | type => simp [verbOf]
    | labelled hlabelled hspelling =>
        have hnotType := hlabelled.ne_type hspelling
        simp [verbOf, hlabelled.ne_shorthand, hnotType,
          cut_eq_some_iff_isLabelled.mpr hlabelled, ofName?_eq_some_iff.mpr hspelling]
    | foreignLabel hlabelled hother htype =>
        simp [verbOf, hlabelled.ne_shorthand, htype,
          cut_eq_some_iff_isLabelled.mpr hlabelled, String.toList_inj, hother]
    | iri hlocal hspelling =>
        simp [verbOf, localName_eq_iff.mpr hlocal, ofName?_eq_some_iff.mpr hspelling]
    | foreignIri hlocal hunknown =>
        simp [verbOf, localName_eq_iff.mpr hlocal, ofName?_eq_none_iff.mpr hunknown]

/-! ## Moves -/

/-- A token where a phrase may begin, and the place after it. -/
inductive Begins : Token → Place → Prop
  | directive : Begins .directive .atLabel
  | premises : Begins .openBrace (.inPremises 0)
  | subject {token : Token} {subject : ElementId} (hsubject : Names token subject) :
      Begins token (.atPredicate subject)

/-- The depth after a token inside of a block, or none when the block ends. -/
inductive BlockMoves : ℕ → Token → Option ℕ → Prop
  | opened (depth : ℕ) : BlockMoves depth .openBrace (some (depth + 1))
  | closed (depth : ℕ) : BlockMoves (depth + 1) .closeBrace (some depth)
  | ended : BlockMoves 0 .closeBrace none
  | plain (depth : ℕ) {token : Token} (hopen : token ≠ .openBrace)
      (hclose : token ≠ .closeBrace) : BlockMoves depth token (some depth)

/-- Where a token leads from a place, and the item that it completes. -/
inductive Moves (label : String) : Place → Token → Place → Option Item → Prop
  | begins {place next : Place} {token : Token} (hplace : place.mayEnd)
      (hbegins : Begins token next) : Moves label place token next none
  | boundLabel {name bound : String} (hname : BindsLabel name bound) :
      Moves label .atLabel (.name name) (.atIri bound) none
  | boundIri (bound iri : String) :
      Moves label (.atIri bound) (.iri iri) (.atEndOfDirective bound iri) none
  | endOfDirective (bound iri : String) :
      Moves label (.atEndOfDirective bound iri) .dot .betweenItems
        (some (.binding bound iri))
  | inPremises {depth next : ℕ} {token : Token}
      (hblock : BlockMoves depth token (some next)) :
      Moves label (.inPremises depth) token (.inPremises next) none
  | endOfPremises {depth : ℕ} {token : Token} (hblock : BlockMoves depth token none) :
      Moves label (.inPremises depth) token .afterPremises (some .rule)
  | implies : Moves label .afterPremises .implies .atConclusion none
  | conclusion : Moves label .atConclusion .openBrace (.inConclusion 0) none
  | inConclusion {depth next : ℕ} {token : Token}
      (hblock : BlockMoves depth token (some next)) :
      Moves label (.inConclusion depth) token (.inConclusion next) none
  | endOfConclusion {depth : ℕ} {token : Token} (hblock : BlockMoves depth token none) :
      Moves label (.inConclusion depth) token .afterRule none
  | endOfRule {place : Place} (hplace : place = .afterPremises ∨ place = .afterRule) :
      Moves label place .dot .betweenItems none
  | predicate {place : Place} {token : Token} {subject : ElementId} {verb : Verb}
      (hplace : place = .atPredicate subject ∨ place = .afterSemicolon subject)
      (hverb : Expresses label token verb) :
      Moves label place token (.atObject subject verb) none
  | statement {token : Token} {subject object : ElementId} {predicate : Predicate}
      (hobject : Names token object) :
      Moves label (.atObject subject (.known predicate)) token
        (.afterObject subject (.known predicate))
        (some (.triple ⟨subject, predicate, object⟩))
  | skipped {token : Token} {subject : ElementId}
      (hterm : (∃ object, Names token object) ∨ IsLiteral token) :
      Moves label (.atObject subject .foreign) token (.afterObject subject .foreign)
        (some .skipped)
  | comma (subject : ElementId) (verb : Verb) :
      Moves label (.afterObject subject verb) .comma (.atObject subject verb) none
  | semicolon (subject : ElementId) (verb : Verb) :
      Moves label (.afterObject subject verb) .semicolon (.afterSemicolon subject) none
  | endOfSentence {place : Place} {subject : ElementId}
      (hplace : (∃ verb, place = .afterObject subject verb) ∨
        place = .afterSemicolon subject) :
      Moves label place .dot .betweenItems none

theorem Begins.ne_dot {token : Token} {next : Place} (hbegins : Begins token next) :
    token ≠ .dot := by
  intro htoken
  subst htoken
  cases hbegins with
  | subject hsubject => cases hsubject

theorem Begins.ne_implies {token : Token} {next : Place} (hbegins : Begins token next) :
    token ≠ .implies := by
  intro htoken
  subst htoken
  cases hbegins with
  | subject hsubject => cases hsubject

theorem Expresses.ne_dot {label : String} {token : Token} {verb : Verb}
    (hverb : Expresses label token verb) : token ≠ .dot := by
  intro htoken
  subst htoken
  cases hverb

theorem begins_of_beginItem {lexeme : Lexeme} {next : Place} {item : Option Item}
    (hbegin : beginItem lexeme = .ok (next, item)) :
    Begins lexeme.token next ∧ item = none := by
  unfold beginItem at hbegin
  split at hbegin
  next htoken =>
    cases hbegin
    rw [htoken]
    exact ⟨.directive, rfl⟩
  next htoken =>
    cases hbegin
    rw [htoken]
    exact ⟨.premises, rfl⟩
  next =>
    split at hbegin
    next => simp at hbegin
    next => simp at hbegin
    next subject hterm =>
      cases hbegin
      exact ⟨.subject (termOf_eq_id_iff.mp hterm), rfl⟩

theorem beginItem_of_begins {lexeme : Lexeme} {next : Place}
    (hbegins : Begins lexeme.token next) : beginItem lexeme = .ok (next, none) := by
  obtain ⟨token, line⟩ := lexeme
  cases hbegins with
  | directive => rfl
  | premises => rfl
  | subject hsubject =>
      have hterm := termOf_eq_id_iff.mpr hsubject
      cases hsubject with
      | name => simp only [beginItem, hterm]
      | iri => simp only [beginItem, hterm]

theorem predicate_of_readPredicate {label : String} {subject : ElementId} {lexeme : Lexeme}
    {next : Place} {item : Option Item}
    (hread : readPredicate label subject lexeme = .ok (next, item)) :
    ∃ verb, Expresses label lexeme.token verb ∧ next = .atObject subject verb ∧
      item = none := by
  unfold readPredicate at hread
  cases hverb : verbOf label lexeme with
  | error error => simp [hverb, Except.map] at hread
  | ok verb =>
      simp only [hverb, Except.map, Except.ok.injEq, Prod.mk.injEq] at hread
      exact ⟨verb, verbOf_eq_ok_iff.mp hverb, hread.1.symm, hread.2.symm⟩

theorem readPredicate_of_expresses {label : String} {subject : ElementId} {lexeme : Lexeme}
    {verb : Verb} (hverb : Expresses label lexeme.token verb) :
    readPredicate label subject lexeme = .ok (.atObject subject verb, none) := by
  rw [readPredicate, verbOf_eq_ok_iff.mpr hverb]
  rfl

theorem term_of_termOf {lexeme : Lexeme} {term : Term} (hterm : termOf lexeme = .ok term) :
    (∃ object, Names lexeme.token object) ∨ IsLiteral lexeme.token := by
  cases term with
  | id object => exact .inl ⟨object, termOf_eq_id_iff.mp hterm⟩
  | literal => exact .inr (termOf_eq_literal_iff.mp hterm)

theorem exists_blockMoves (depth : ℕ) (token : Token) :
    ∃ inner, BlockMoves depth token inner := by
  cases token with
  | openBrace => exact ⟨_, .opened depth⟩
  | closeBrace =>
      cases depth with
      | zero => exact ⟨_, .ended⟩
      | succ depth => exact ⟨_, .closed depth⟩
  | _ => exact ⟨_, .plain depth (by simp) (by simp)⟩

theorem move_inPremises {label : String} {depth : ℕ} {lexeme : Lexeme} {inner : Option ℕ}
    (hblock : BlockMoves depth lexeme.token inner) :
    move label (.inPremises depth) lexeme =
      .ok (match inner with
        | some depth => (.inPremises depth, none)
        | none => (.afterPremises, some .rule)) := by
  obtain ⟨token, line⟩ := lexeme
  cases hblock with
  | opened => simp [move]
  | closed => simp [move]
  | ended => rfl
  | plain _ hopen hclose => simp [move, hclose]

theorem move_inConclusion {label : String} {depth : ℕ} {lexeme : Lexeme}
    {inner : Option ℕ} (hblock : BlockMoves depth lexeme.token inner) :
    move label (.inConclusion depth) lexeme =
      .ok (match inner with
        | some depth => (.inConclusion depth, none)
        | none => (.afterRule, none)) := by
  obtain ⟨token, line⟩ := lexeme
  cases hblock with
  | opened => simp [move]
  | closed => simp [move]
  | ended => rfl
  | plain _ hopen hclose => simp [move, hclose]

theorem moves_of_move {label : String} {place next : Place} {lexeme : Lexeme}
    {item : Option Item} (hmove : move label place lexeme = .ok (next, item)) :
    Moves label place lexeme.token next item := by
  obtain ⟨token, line⟩ := lexeme
  cases place with
  | betweenItems =>
      obtain ⟨hbegins, rfl⟩ := begins_of_beginItem hmove
      exact .begins rfl hbegins
  | atLabel =>
      cases token with
      | name name =>
          simp only [move] at hmove
          split at hmove
          next bound hbound =>
            cases hmove
            exact .boundLabel (labelOf?_eq_some_iff.mp hbound)
          next => simp at hmove
      | _ => simp [move] at hmove
  | atIri bound =>
      cases token with
      | iri iri =>
          cases hmove
          exact .boundIri bound iri
      | _ => simp [move] at hmove
  | atEndOfDirective bound iri =>
      cases token with
      | dot =>
          cases hmove
          exact .endOfDirective bound iri
      | _ => simp [move] at hmove
  | inPremises depth =>
      obtain ⟨inner, hblock⟩ := exists_blockMoves depth token
      rw [move_inPremises hblock] at hmove
      cases inner with
      | none =>
          cases hmove
          exact .endOfPremises hblock
      | some inner =>
          cases hmove
          exact .inPremises hblock
  | afterPremises =>
      cases token with
      | implies =>
          cases hmove
          exact .implies
      | dot =>
          cases hmove
          exact .endOfRule (.inl rfl)
      | _ =>
          rw [move_eq_beginItem rfl (by simp) (by simp)] at hmove
          obtain ⟨hbegins, rfl⟩ := begins_of_beginItem hmove
          exact .begins rfl hbegins
  | atConclusion =>
      cases token with
      | openBrace =>
          cases hmove
          exact .conclusion
      | _ => simp [move] at hmove
  | inConclusion depth =>
      obtain ⟨inner, hblock⟩ := exists_blockMoves depth token
      rw [move_inConclusion hblock] at hmove
      cases inner with
      | none =>
          cases hmove
          exact .endOfConclusion hblock
      | some inner =>
          cases hmove
          exact .inConclusion hblock
  | afterRule =>
      cases token with
      | dot =>
          cases hmove
          exact .endOfRule (.inr rfl)
      | _ =>
          rw [move_eq_beginItem rfl (by simp) (by simp)] at hmove
          obtain ⟨hbegins, rfl⟩ := begins_of_beginItem hmove
          exact .begins rfl hbegins
  | atPredicate subject =>
      obtain ⟨verb, hverb, rfl, rfl⟩ := predicate_of_readPredicate hmove
      exact .predicate (.inl rfl) hverb
  | atObject subject verb =>
      simp only [move, readObject] at hmove
      split at hmove
      next => simp at hmove
      next object predicate hterm =>
        cases hmove
        exact .statement (termOf_eq_id_iff.mp hterm)
      next => simp at hmove
      next term hterm =>
        cases hmove
        exact .skipped (term_of_termOf hterm)
  | afterObject subject verb =>
      cases token with
      | comma =>
          cases hmove
          exact .comma subject verb
      | dot =>
          cases hmove
          exact .endOfSentence (.inl ⟨verb, rfl⟩)
      | semicolon =>
          cases hmove
          exact .semicolon subject verb
      | _ => simp [move] at hmove
  | afterSemicolon subject =>
      cases token with
      | dot =>
          cases hmove
          exact .endOfSentence (.inr rfl)
      | _ =>
          rw [move_eq_readPredicate (.inr rfl) (by simp)] at hmove
          obtain ⟨verb, hverb, rfl, rfl⟩ := predicate_of_readPredicate hmove
          exact .predicate (.inr rfl) hverb

theorem move_of_moves {label : String} {place next : Place} {lexeme : Lexeme}
    {item : Option Item} (hmoves : Moves label place lexeme.token next item) :
    move label place lexeme = .ok (next, item) := by
  obtain ⟨token, line⟩ := lexeme
  cases hmoves with
  | begins hplace hbegins =>
      rw [move_eq_beginItem hplace hbegins.ne_dot fun _ => hbegins.ne_implies]
      exact beginItem_of_begins hbegins
  | boundLabel hname => simp [move, labelOf?_eq_some_iff.mpr hname]
  | boundIri bound iri => rfl
  | endOfDirective bound iri => rfl
  | inPremises hblock => exact move_inPremises hblock
  | endOfPremises hblock => exact move_inPremises hblock
  | implies => rfl
  | conclusion => rfl
  | inConclusion hblock => exact move_inConclusion hblock
  | endOfConclusion hblock => exact move_inConclusion hblock
  | endOfRule hplace => rcases hplace with rfl | rfl <;> rfl
  | predicate hplace hverb =>
      rw [move_eq_readPredicate hplace hverb.ne_dot]
      exact readPredicate_of_expresses hverb
  | statement hobject =>
      simp [move, readObject, termOf_eq_id_iff.mpr hobject]
  | skipped hterm =>
      rcases hterm with ⟨object, hobject⟩ | hliteral
      · simp [move, readObject, termOf_eq_id_iff.mpr hobject]
      · simp [move, readObject, termOf_eq_literal_iff.mpr hliteral]
  | comma => rfl
  | semicolon => rfl
  | endOfSentence hplace => rcases hplace with ⟨verb, rfl⟩ | rfl <;> rfl

end Treatise.N3
