import Mathlib.Data.Finset.Max
import Treatise.Proofs.N3.Occurrence
import Treatise.Rendering

/-!
# Derived facts read back

Derived facts are written with each id under the label of the facts.  They
read back as they are when every id may stand there, and then only.  An id
that may not would have to come out of an address, whose brackets come from
the two ids of one line.  The id with the closing bracket has no opening one,
so the other id has more opening brackets than the one in the address; and
among finitely many ids this comes to an end.
-/

namespace Treatise.N3

open Store (mentionedIn)

/-! ## Lines -/

theorem isInfix_or_of_endOfLine {part line rest : List Char} (hpart : '\n' ∉ part)
    (hline : line.getLast? = some '\n') (hwhole : part <:+: line ++ rest) :
    part <:+: line ∨ part <:+: rest := by
  obtain ⟨front, rfl⟩ := List.getLast?_eq_some_iff.mp hline
  rw [List.append_assoc, List.singleton_append] at hwhole
  refine (Text.isInfix_or_of_notMem hpart hwhole).imp_left fun hfront => ?_
  exact hfront.trans (List.prefix_append front ['\n']).isInfix

theorem Brackets.notMem {text : List Char} {iri : String} (hbrackets : Brackets text iri) :
    '\n' ∉ '<' :: (iri.toList ++ ['>']) := by
  simp [hbrackets.noLine]

theorem Brackets.splitLine {line rest : List Char} {iri : String}
    (hbrackets : Brackets (line ++ rest) iri) (hline : line.getLast? = some '\n') :
    Brackets line iri ∨ Brackets rest iri := by
  rcases isInfix_or_of_endOfLine hbrackets.notMem hline hbrackets.between with hfront | hback
  · exact .inl ⟨hfront, hbrackets.noClose, hbrackets.noLine⟩
  · exact .inr ⟨hback, hbrackets.noClose, hbrackets.noLine⟩

theorem getLast?_statementLine (label : String) (statement : Statement) :
    (statementLine label statement).toList.getLast? = some '\n' := by
  rw [statementLine, String.toList_append, List.getLast?_append]
  rfl

theorem Brackets.exists_line {label : String} {statements : List Statement} {iri : String}
    (hbrackets : Brackets
      (statements.flatMap fun statement => (statementLine label statement).toList) iri) :
    ∃ statement ∈ statements, Brackets (statementLine label statement).toList iri := by
  induction statements with
  | nil =>
      have hnone := hbrackets.between
      simp at hnone
  | cons statement others ih =>
      rw [List.flatMap_cons] at hbrackets
      rcases hbrackets.splitLine (getLast?_statementLine label statement) with hfirst | hothers
      · exact ⟨statement, List.mem_cons_self, hfirst⟩
      · rcases ih hothers with ⟨other, hmem, hline⟩
        exact ⟨other, List.mem_cons_of_mem statement hmem, hline⟩

/-! ## The two ids of a line -/

/-- How many opening brackets there are in an id. -/
def openings (id : ElementId) : ℕ := id.text.toList.count '<'

theorem openings_eq_zero {id : ElementId} (hwritable : IsWritable id.text) : openings id = 0 := by
  apply List.count_eq_zero.mpr
  intro hmem
  exact (hwritable.plain '<' hmem).2 (by decide)

theorem count_statementLine (statement : Statement) :
    (statementLine defaultLabel statement).toList.count '<' =
      openings statement.subject + openings statement.object := by
  have hlabel : defaultLabel.toList.count '<' = 0 := by decide
  have hverb : (written defaultLabel statement.predicate).toList.count '<' = 0 := by
    cases statement.predicate <;> decide
  simp [statementLine, labelled, openings, hlabel, hverb]

theorem close_mem_statementLine {statement : Statement}
    (hclose : '>' ∈ (statementLine defaultLabel statement).toList) :
    '>' ∈ statement.subject.text.toList ∨ '>' ∈ statement.object.text.toList := by
  have hlabel : '>' ∉ defaultLabel.toList := by decide
  have hverb : '>' ∉ (written defaultLabel statement.predicate).toList := by
    cases statement.predicate <;> decide
  simpa [statementLine, labelled, hlabel, hverb] using hclose

theorem Brackets.count_lt {text : List Char} {iri : String} (hbrackets : Brackets text iri) :
    iri.toList.count '<' < text.count '<' := by
  have hcount := hbrackets.between.sublist.count_le '<'
  simp only [List.count_cons_self, List.count_append] at hcount
  omega

theorem Brackets.close_mem {text : List Char} {iri : String} (hbrackets : Brackets text iri) :
    '>' ∈ text :=
  hbrackets.between.subset (by simp)

theorem openings_le_of_isLocalName {iri : String} {id : ElementId}
    (hlocal : IsLocalName iri id.text) : openings id ≤ iri.toList.count '<' := by
  rcases hlocal with ⟨before, hparts, -⟩
  rw [hparts, List.count_append]
  exact Nat.le_add_left _ _

/-- An address on a line takes its brackets from both ids, so one of them has
more opening brackets than the address. -/
theorem Brackets.exists_more_openings {statement : Statement} {iri : String}
    (hbrackets : Brackets (statementLine defaultLabel statement).toList iri)
    (hclosed : ∀ id ∈ mentionedIn [statement], '>' ∈ id.text.toList → IsWritable id.text) :
    ∃ id ∈ mentionedIn [statement], iri.toList.count '<' < openings id := by
  have hcount := hbrackets.count_lt
  rw [count_statementLine] at hcount
  have hsubject : statement.subject ∈ mentionedIn [statement] :=
    ⟨statement, List.mem_singleton_self _, .inl rfl⟩
  have hobject : statement.object ∈ mentionedIn [statement] :=
    ⟨statement, List.mem_singleton_self _, .inr rfl⟩
  rcases close_mem_statementLine hbrackets.close_mem with hclose | hclose
  · have hnone := openings_eq_zero (hclosed _ hsubject hclose)
    exact ⟨statement.object, hobject, by omega⟩
  · have hnone := openings_eq_zero (hclosed _ hobject hclose)
    exact ⟨statement.subject, hsubject, by omega⟩

/-! ## The head of the file -/

theorem Brackets.eq_of_single {front inside back : List Char} {iri : String}
    (hbrackets : Brackets (front ++ '<' :: (inside ++ '>' :: back)) iri)
    (hfront : '<' ∉ front) (hinside : '<' ∉ inside) (hback : '<' ∉ back)
    (hclose : '>' ∉ inside) : iri.toList = inside := by
  rcases hbrackets.between with ⟨before, after, hparts⟩
  have hsplit : front ++ '<' :: (inside ++ '>' :: back) =
      before ++ '<' :: (iri.toList ++ '>' :: after) := by
    rw [← hparts]
    simp
  have hbefore : '<' ∉ before := by
    have hcount := congrArg (List.count '<') hsplit
    simp only [List.count_append, List.count_cons_self, List.count_eq_zero.mpr hfront,
      List.count_eq_zero.mpr hinside] at hcount
    apply List.count_eq_zero.mp
    have hrest : ('>' :: back).count '<' = 0 := by
      simp [List.count_eq_zero.mpr hback]
    omega
  have hopen := Text.cut_eq_some_iff.mpr ⟨hsplit, hbefore⟩
  rw [Text.cut_eq_some_iff.mpr ⟨rfl, hfront⟩] at hopen
  have hinner := (Prod.mk.inj (Option.some.inj hopen)).2
  have hcut := Text.cut_eq_some_iff.mpr ⟨hinner, hbrackets.noClose⟩
  rw [Text.cut_eq_some_iff.mpr ⟨rfl, hclose⟩] at hcut
  exact (Prod.mk.inj (Option.some.inj hcut)).1.symm

theorem Brackets.eq_defaultNamespace {iri : String}
    (hbrackets : Brackets (bindingLine defaultLabel defaultNamespace).toList iri) :
    iri = defaultNamespace := by
  have hline : (bindingLine defaultLabel defaultNamespace).toList =
      ("@prefix " ++ defaultLabel ++ ": ").toList ++
        '<' :: (defaultNamespace.toList ++ '>' :: " .\n".toList) := by
    simp [bindingLine]
  rw [hline] at hbrackets
  apply String.toList_inj.mp
  exact hbrackets.eq_of_single (by decide) (by decide) (by decide) (by decide)

theorem toList_derived (statements : List Statement) :
    (Rendering.derived statements).toList =
      (bindingLine defaultLabel defaultNamespace).toList ++
        ('\n' :: statements.flatMap fun statement =>
          (statementLine defaultLabel statement).toList) := by
  simp [Rendering.derived, serialize, String.toList_join, List.flatMap_map]

theorem Brackets.cases_derived {statements : List Statement} {iri : String}
    (hbrackets : Brackets (Rendering.derived statements).toList iri) :
    iri = defaultNamespace ∨
      ∃ statement ∈ statements, Brackets (statementLine defaultLabel statement).toList iri := by
  have hhead : (bindingLine defaultLabel defaultNamespace).toList.getLast? = some '\n' := by
    rw [bindingLine, String.toList_append, List.getLast?_append]
    rfl
  rw [toList_derived] at hbrackets
  rcases hbrackets.splitLine hhead with hbinding | hrest
  · exact .inl hbinding.eq_defaultNamespace
  · have hblankLine : (['\n'] : List Char).getLast? = some '\n' := rfl
    rw [← List.singleton_append] at hrest
    rcases hrest.splitLine hblankLine with hblank | hlines
    · have hcount := hblank.count_lt
      simp at hcount
    · exact .inr hlines.exists_line

/-! ## The whole file -/

theorem exists_more_openings {statements : List Statement}
    (hclosed : ∀ id ∈ mentionedIn statements, '>' ∈ id.text.toList → IsWritable id.text)
    {id : ElementId} (hsupplies : Supplies (Rendering.derived statements).toList id)
    (hbad : ¬ IsWritable id.text) :
    ∃ other ∈ mentionedIn statements, openings id < openings other := by
  cases hsupplies with
  | name hwritable => exact absurd hwritable hbad
  | @iri iri hbrackets hlocal =>
      rcases hbrackets.cases_derived with rfl | ⟨statement, hmem, hline⟩
      · -- What follows the last number sign of the namespace is empty.
        have hempty : localName defaultNamespace = "" := by decide
        rw [← localName_eq_iff.mpr hlocal, hempty] at hbad
        exact absurd ⟨by decide, by decide⟩ hbad
      · have hsubset : mentionedIn [statement] ⊆ mentionedIn statements := by
          rintro other ⟨same, hsame, hend⟩
          rw [List.mem_singleton.mp hsame] at hend
          exact ⟨statement, hmem, hend⟩
        rcases hline.exists_more_openings fun other hother => hclosed other (hsubset hother)
          with ⟨other, hother, hmore⟩
        exact ⟨other, hsubset hother, (openings_le_of_isLocalName hlocal).trans_lt hmore⟩

theorem isWritable_of_supplies {statements : List Statement}
    (hclosed : ∀ id ∈ mentionedIn statements, '>' ∈ id.text.toList → IsWritable id.text)
    (hsupplies : ∀ id ∈ mentionedIn statements,
      Supplies (Rendering.derived statements).toList id) :
    ∀ id ∈ mentionedIn statements, IsWritable id.text := by
  have hnodes : ∀ id, id ∈ (Store.ofList statements).nodes ↔ id ∈ mentionedIn statements := by
    intro id
    rw [Store.mem_nodes_iff, Store.toList_ofList]
    rfl
  intro id hid
  by_contra hbad
  rcases exists_more_openings hclosed (hsupplies id hid) hbad with ⟨other, hother, hpositive⟩
  rcases Finset.exists_max_image (Store.ofList statements).nodes.toFinset openings
    ⟨id, by simpa [hnodes] using hid⟩ with ⟨top, htop, hmost⟩
  simp only [List.mem_toFinset, hnodes] at htop hmost
  -- The id with the most opening brackets has some, so another one has more.
  have hbracket : ¬ IsWritable top.text := by
    intro hwritable
    have hnone := openings_eq_zero hwritable
    have hatLeast := hmost other hother
    omega
  rcases exists_more_openings hclosed (hsupplies top htop) hbracket with ⟨more, hmore, hlt⟩
  have hatMost := hmost more hmore
  omega

theorem ofText_derived {statements : List Statement}
    (hids : ∀ id ∈ mentionedIn statements, IsWritable id.text) :
    Document.ofText defaultLabel (Rendering.derived statements) =
      .ok ⟨[(defaultLabel, defaultNamespace)], statements, 0, 0⟩ := by
  have hends : ∀ statement ∈ statements,
      IsWritable statement.subject.text ∧ IsWritable statement.object.text := by
    intro statement hmem
    exact ⟨hids _ ⟨statement, hmem, .inl rfl⟩, hids _ ⟨statement, hmem, .inr rfl⟩⟩
  have hlines := Spells.cons (.newline _) (spells_statementLines isLabel_defaultLabel hends)
  have hspells : Spells (Rendering.derived statements).toList
      (tokensOfBinding defaultLabel defaultNamespace ++
        statements.flatMap (tokensOfStatement defaultLabel)) := by
    rw [toList_derived]
    exact spells_bindingLine isLabel_defaultLabel (by decide) (by decide) hlines
  have hbinding : Phrase defaultLabel (tokensOfBinding defaultLabel defaultNamespace)
      (.ofBinding defaultLabel defaultNamespace) :=
    .directive (bindsLabel_colon isLabel_defaultLabel)
  exact ofText_eq_ok_iff.mpr
    ⟨_, hspells, .cons hbinding (phrases_statements isLabel_defaultLabel statements)⟩

/-- Derived facts read back as they are when all of their ids may stand under
the label of the facts, and then only. -/
theorem derived_reads_back_iff {statements : List Statement}
    (hclosed : ∀ id ∈ mentionedIn statements, '>' ∈ id.text.toList → IsWritable id.text) :
    (∃ document, Document.ofText defaultLabel (Rendering.derived statements) = .ok document ∧
        document.statements = statements) ↔
      ∀ id ∈ mentionedIn statements, IsWritable id.text := by
  constructor
  · rintro ⟨document, hread, hsame⟩
    apply isWritable_of_supplies hclosed
    intro id hid
    rw [← hsame] at hid
    exact supplies_of_ofText hread hid
  · intro hids
    exact ⟨_, ofText_derived hids, rfl⟩

end Treatise.N3
