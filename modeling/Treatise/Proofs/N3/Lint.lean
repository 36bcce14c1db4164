import Mathlib.Data.List.Infix
import Treatise.N3.Lint
import Treatise.Proofs.N3.RoundTrip

/-!
# Serialized files pass the checks

The checks judge a serialized file line by line: the binding of the label is in
order, the empty line is passed over, and each statement has the line that is
two below its place among the statements.  Names that may stand under the label
have no separator and no bracket in them, so nothing in such a line looks like
names joined by a separator or like an address; and the line ends as it should.
What is left is the mark of two periods, which an id may hold.
-/

namespace Treatise.N3.Lint

/-! ## Shapes -/

theorem occurs_iff {shape : Shape} {text : List Char} :
    occurs shape text = true ↔ ∃ rest, rest <:+ text ∧ (shape rest).isSome := by
  induction text with
  | nil => simp [occurs]
  | cons c rest ih =>
      rw [occurs, Bool.or_eq_true, ih]
      constructor
      · rintro (hhere | ⟨later, hsuffix, hshape⟩)
        · exact ⟨c :: rest, List.suffix_rfl, hhere⟩
        · exact ⟨later, hsuffix.trans (List.suffix_cons c rest), hshape⟩
      · rintro ⟨later, hsuffix, hshape⟩
        rcases List.suffix_cons_iff.mp hsuffix with rfl | hlater
        · exact .inl hshape
        · exact .inr ⟨later, hlater, hshape⟩

theorem isSome_exactly_iff {mark text : List Char} :
    (exactly mark text).isSome ↔ mark <+: text := by
  rw [exactly, ← List.isPrefixOf_iff_prefix]
  split <;> simp_all

theorem contains_iff {mark : String} {line : List Char} :
    contains mark line = true ↔ mark.toList <:+: line := by
  rw [contains, occurs_iff, List.infix_iff_prefix_suffix]
  simp only [isSome_exactly_iff, and_comm]

theorem suffix_of_exactly {mark text rest : List Char} (hread : exactly mark text = some rest) :
    rest <:+ text := by
  unfold exactly at hread
  split at hread
  next =>
    obtain rfl := Option.some.inj hread
    exact List.drop_suffix _ text
  next => cases hread

theorem suffix_of_run {isMember : Char → Bool} {text rest : List Char}
    (hread : run isMember text = some rest) : rest <:+ text := by
  unfold run at hread
  split at hread
  next => cases hread
  next =>
    obtain rfl := Option.some.inj hread
    exact List.dropWhile_suffix _

theorem suffix_of_runEnding {isMember isLast : Char → Bool} {text rest : List Char}
    (hread : runEnding isMember isLast text = some rest) : rest <:+ text := by
  unfold runEnding at hread
  split at hread
  next =>
    obtain rfl := Option.some.inj hread
    exact List.dropWhile_suffix _
  next => cases hread

theorem exists_mark_of_oneOf {marks text rest : List Char}
    (hread : oneOf marks text = some rest) : ∃ mark ∈ marks, mark ∈ text := by
  cases text with
  | nil => cases hread
  | cons c others =>
      by_cases hmark : marks.contains c
      · exact ⟨c, List.contains_iff_mem.mp hmark, List.mem_cons_self⟩
      · rw [oneOf, if_neg hmark] at hread
        cases hread

theorem exists_separator_of_crampedNames {text : List Char}
    (hshape : (crampedNames text).isSome) : ∃ mark ∈ [';', ','], mark ∈ text := by
  obtain ⟨rest, hread⟩ := Option.isSome_iff_exists.mp hshape
  simp only [crampedNames, Option.bind_eq_bind, Option.bind_eq_some_iff] at hread
  obtain ⟨local', hcolon, separated, hlocal, second, hmark, -⟩ := hread
  obtain ⟨mark, hmem, hin⟩ := exists_mark_of_oneOf hmark
  exact ⟨mark, hmem, (suffix_of_exactly hcolon).subset ((suffix_of_runEnding hlocal).subset hin)⟩

theorem followsRun_crampedNames {line : List Char} (hplain : ∀ mark ∈ [';', ','], mark ∉ line) :
    followsRun Text.isWord crampedNames line = false := by
  rw [followsRun_eq_occurs, Bool.eq_false_iff]
  intro hoccurs
  obtain ⟨start, hstart, hshape⟩ := occurs_iff.mp hoccurs
  obtain ⟨found, hfound⟩ := Option.isSome_iff_exists.mp hshape
  obtain ⟨rest, hrun, hnames⟩ := Option.bind_eq_some_iff.mp hfound
  obtain ⟨mark, hmem, hin⟩ :=
    exists_separator_of_crampedNames (Option.isSome_iff_exists.mpr ⟨found, hnames⟩)
  exact hplain mark hmem (hstart.subset ((suffix_of_run hrun).subset hin))

theorem addresses_eq_nil {line : List Char} (hopen : '<' ∉ line) : addresses line = [] := by
  induction line with
  | nil => rw [addresses]
  | cons c rest ih =>
      have hc : c ≠ '<' := fun hbracket => hopen (hbracket ▸ List.mem_cons_self)
      rw [addresses, if_neg (fun hboth => hc hboth.1)]
      exact ih fun hmem => hopen (List.mem_cons_of_mem c hmem)

/-! ## Lines of statements -/

theorem startsWith_eq_false {mark : String} {line : List Char} {c d : Char}
    (hmark : mark.toList.head? = some c) (hfirst : line.head? = some d) (hne : c ≠ d) :
    startsWith mark line = false := by
  rw [startsWith, Bool.eq_false_iff]
  intro hprefix
  obtain ⟨rest, rfl⟩ := List.isPrefixOf_iff_prefix.mp hprefix
  rw [List.head?_append, hmark] at hfirst
  exact hne (Option.some.inj hfirst)

theorem judged_of_head? {line : List Char} {c : Char} (hfirst : line.head? = some c)
    (hcomment : c ≠ '#') : (!line.isEmpty && !startsWith "#" line) = true := by
  rw [startsWith_eq_false rfl hfirst hcomment.symm]
  obtain ⟨rest, rfl⟩ := List.head?_eq_some_iff.mp hfirst
  rfl

theorem dropWhile_isBlank_eq_self {text : List Char} {first : Char}
    (hfirst : text.head? = some first) (hblank : Text.isBlank first = false) :
    text.dropWhile Text.isBlank = text := by
  obtain ⟨rest, rfl⟩ := List.head?_eq_some_iff.mp hfirst
  simp [hblank]

theorem trim_eq_self {line : List Char} {first last : Char} (hfirst : line.head? = some first)
    (hfirstBlank : Text.isBlank first = false) (hlast : line.getLast? = some last)
    (hlastBlank : Text.isBlank last = false) : Text.trim line = line := by
  rw [← List.head?_reverse] at hlast
  rw [Text.trim, Text.trimStart, dropWhile_isBlank_eq_self hfirst hfirstBlank, Text.trimEnd,
    dropWhile_isBlank_eq_self hlast hlastBlank, List.reverse_reverse]

/-- Two periods in a row somewhere, and three in a row nowhere. -/
def HasDoublePeriod (line : List Char) : Prop :=
  ['.', '.'] <:+: line ∧ ¬ ['.', '.', '.'] <:+: line

instance (line : List Char) : Decidable (HasDoublePeriod line) :=
  inferInstanceAs (Decidable (_ ∧ _))

/-- What the checks may rely on in the line of a statement. -/
structure IsTidy (line : List Char) : Prop where
  first : ∃ c, line.head? = some c ∧ Text.isBlank c = false ∧ c ≠ '#' ∧ c ≠ '@'
  last : [' ', '.'] <:+ line
  plain : ∀ mark ∈ ['\n', ';', ',', '<'], mark ∉ line

namespace IsTidy

variable {line : List Char}

theorem not_directive (htidy : IsTidy line) : startsWith "@prefix" line = false := by
  obtain ⟨c, hfirst, -, -, hdirective⟩ := htidy.first
  exact startsWith_eq_false rfl hfirst hdirective.symm

theorem errorsOf_eq (htidy : IsTidy line) :
    errorsOf line = if HasDoublePeriod line then [.doublePeriod] else [] := by
  have hsemicolons : contains ";;" line = false := by
    rw [Bool.eq_false_iff]
    intro hcontains
    exact htidy.plain ';' (by decide) ((contains_iff.mp hcontains).subset (by decide))
  have hperiods : (contains ".." line && !contains "..." line) =
      decide (HasDoublePeriod line) := by
    rw [Bool.eq_iff_iff, Bool.and_eq_true, Bool.not_eq_true', ← Bool.not_eq_true,
      contains_iff, contains_iff, decide_eq_true_iff]
    rfl
  rw [errorsOf, htidy.not_directive, hsemicolons, hperiods]
  simp

theorem warningsOf_eq_nil (htidy : IsTidy line) : warningsOf line = [] := by
  have hterminated : isTerminated line = true := by
    have hend : endsWith " ." line = true := List.isSuffixOf_iff_suffix.mpr htidy.last
    simp [isTerminated, hend]
  have hcramped : followsRun Text.isWord crampedNames line = false :=
    followsRun_crampedNames fun mark hmem => htidy.plain mark (by grind)
  have haddresses : addresses line = [] := addresses_eq_nil (htidy.plain '<' (by decide))
  simp [warningsOf, htidy.not_directive, hterminated, hcramped, haddresses]

theorem trim_eq (htidy : IsTidy line) : Text.trim line = line := by
  obtain ⟨c, hfirst, hblank, -⟩ := htidy.first
  apply trim_eq_self hfirst hblank _ (by decide : Text.isBlank '.' = false)
  obtain ⟨front, rfl⟩ := htidy.last
  rw [List.getLast?_append]
  rfl

end IsTidy

/-! ## The lines of a serialized file -/

/-- The line of a statement without its line feed. -/
def lineOf (label : String) (statement : Statement) : List Char :=
  (labelled label statement.subject.text).toList ++ ' ' ::
    ((written label statement.predicate).toList ++ ' ' ::
      ((labelled label statement.object.text).toList ++ [' ', '.']))

/-- The line that binds the label without its line feed. -/
def bindingOf (label iri : String) : List Char :=
  ("@prefix " ++ label ++ ": <" ++ iri ++ "> .").toList

theorem toList_statementLine (label : String) (statement : Statement) :
    (statementLine label statement).toList = lineOf label statement ++ ['\n'] := by
  simp [statementLine, lineOf]

theorem toList_bindingLine (label iri : String) :
    (bindingLine label iri).toList = bindingOf label iri ++ ['\n'] := by
  simp [bindingLine, bindingOf]

theorem toList_serialize (label iri : String) (statements : List Statement) :
    (serialize label iri statements).toList =
      bindingOf label iri ++ '\n' :: ([] ++ '\n' ::
        statements.flatMap fun statement => lineOf label statement ++ ['\n']) := by
  simp [serialize, toList_bindingLine, String.toList_join, List.flatMap_map,
    toList_statementLine]

theorem isPlain_labelled {label name : String} (hlabel : IsLabel label)
    (hname : IsWritable name) : IsPlain (labelled label name).toList := by
  intro c hmem
  rw [toList_labelled] at hmem
  rcases List.mem_append.mp hmem with hmem | hmem
  · exact hlabel.plain c hmem
  · rcases List.mem_cons.mp hmem with rfl | hmem
    · decide
    · exact hname.plain c hmem

theorem isPlain_written {label : String} (hlabel : IsLabel label) (predicate : Predicate) :
    IsPlain (written label predicate).toList := by
  rcases written_cases label predicate with ⟨-, hwritten⟩ | hwritten
  · rw [hwritten]
    decide
  · rw [hwritten]
    exact isPlain_labelled hlabel (isWritable_wireName predicate)

theorem mark_notMem_of_isPlain {text : List Char} (hplain : IsPlain text) :
    ∀ mark ∈ ['\n', ';', ',', '<'], mark ∉ text := by
  intro mark hmark hmem
  obtain ⟨hblank, hother⟩ := hplain mark hmem
  rcases List.mem_cons.mp hmark with rfl | hmark
  · exact absurd hblank (by decide)
  · simp_all

theorem isTidy_lineOf {label : String} {statement : Statement} (hlabel : IsLabel label)
    (hsubject : IsWritable statement.subject.text)
    (hobject : IsWritable statement.object.text) : IsTidy (lineOf label statement) where
  first := by
    have hplain := isPlain_labelled hlabel hsubject
    obtain ⟨c, hfirst, -, hcomment, hdirective⟩ :=
      exists_first_labelled statement.subject.text.toList hlabel.first
    rw [← toList_labelled] at hfirst
    obtain ⟨hblank, -⟩ := hplain c (List.mem_of_head? hfirst)
    refine ⟨c, ?_, hblank, hcomment, hdirective⟩
    rw [lineOf, List.head?_append, hfirst, Option.some_or]
  last := by
    refine ⟨(labelled label statement.subject.text).toList ++ ' ' ::
      ((written label statement.predicate).toList ++ ' ' ::
        (labelled label statement.object.text).toList), ?_⟩
    simp [lineOf]
  plain := by
    intro mark hmark hmem
    have hspace : mark ≠ ' ' := by
      rintro rfl
      exact absurd hmark (by decide)
    have hperiod : mark ≠ '.' := by
      rintro rfl
      exact absurd hmark (by decide)
    simp only [lineOf, List.mem_append, List.mem_cons, List.not_mem_nil, or_false, hspace,
      hperiod, false_or] at hmem
    rcases hmem with hmem | hmem | hmem
    · exact mark_notMem_of_isPlain (isPlain_labelled hlabel hsubject) mark hmark hmem
    · exact mark_notMem_of_isPlain (isPlain_written hlabel _) mark hmark hmem
    · exact mark_notMem_of_isPlain (isPlain_labelled hlabel hobject) mark hmark hmem

theorem head?_bindingOf (label iri : String) : (bindingOf label iri).head? = some '@' := by
  simp [bindingOf]

theorem feed_notMem_bindingOf {label iri : String} (hlabel : IsLabel label)
    (hiri : '\n' ∉ iri.toList) : '\n' ∉ bindingOf label iri := by
  have hplain : '\n' ∉ label.toList := mark_notMem_of_isPlain hlabel.plain '\n' (by decide)
  simp [bindingOf, hplain, hiri]

theorem trim_bindingOf (label iri : String) :
    Text.trim (bindingOf label iri) = bindingOf label iri := by
  have hdot : Text.isBlank '.' = false := by decide
  apply trim_eq_self (head?_bindingOf label iri) (by decide) _ hdot
  rw [bindingOf, String.toList_append, List.getLast?_append]
  rfl

section File

variable {label iri : String} {statements : List Statement}

theorem lines_serialize (hbinding : '\n' ∉ bindingOf label iri)
    (hlines : ∀ statement ∈ statements, IsTidy (lineOf label statement)) :
    Text.lines (serialize label iri statements).toList =
      bindingOf label iri :: [] :: statements.map (lineOf label) := by
  have hfeeds : ∀ statement ∈ statements, '\n' ∉ lineOf label statement :=
    fun statement hmem => (hlines statement hmem).plain '\n' (by decide)
  rw [toList_serialize, Text.lines_append hbinding, Text.lines_append List.not_mem_nil,
    Text.lines_flatMap hfeeds]

theorem judgedLines_serialize (hbinding : '\n' ∉ bindingOf label iri)
    (hlines : ∀ statement ∈ statements, IsTidy (lineOf label statement)) :
    judgedLines (serialize label iri statements).toList =
      (bindingOf label iri, 1) :: (statements.map (lineOf label)).zipIdx 3 := by
  have htrimmed : (statements.map (lineOf label)).map Text.trim =
      statements.map (lineOf label) := by
    rw [List.map_map]
    exact List.map_congr_left fun statement hmem => (hlines statement hmem).trim_eq
  have hbound := judged_of_head? (head?_bindingOf label iri) (by decide)
  -- The binding is kept and the empty line below it is not.
  rw [judgedLines, lines_serialize hbinding hlines, List.map_cons, List.map_cons,
    trim_bindingOf, htrimmed, List.zipIdx_cons, List.zipIdx_cons, List.filter_cons,
    if_pos hbound, List.filter_cons, if_neg (by decide), List.cons_inj_right,
    List.filter_eq_self]
  rintro ⟨line, number⟩ hmem
  obtain ⟨statement, hstatement, rfl⟩ := List.mem_map.mp (List.fst_mem_of_mem_zipIdx hmem)
  obtain ⟨c, hfirst, -, hcomment, -⟩ := (hlines statement hstatement).first
  exact judged_of_head? hfirst hcomment

end File

theorem problemsOf_bindingOf (label iri : String) :
    errorsOf (bindingOf label iri) = [] ∧ warningsOf (bindingOf label iri) = [] := by
  have hdirective : startsWith "@prefix" (bindingOf label iri) = true := by
    simp [startsWith, bindingOf]
  have hend : endsWith " ." (bindingOf label iri) = true := by
    rw [endsWith, List.isSuffixOf_iff_suffix, bindingOf, String.toList_append]
    exact (by decide : " .".toList <:+ "> .".toList).trans (List.suffix_append _ _)
  simp [errorsOf, warningsOf, hdirective, hend]

/-! ## Double periods -/

theorem isInfix_concat_iff {mark line : List Char} (hfeed : '\n' ∉ mark) :
    mark <:+: line ++ ['\n'] ↔ mark <:+: line := by
  constructor
  · intro hmark
    rcases Text.isInfix_or_of_notMem hfeed hmark with hfront | hback
    · exact hfront
    · rw [List.infix_nil.mp hback]
      exact List.nil_infix
  · exact fun hmark => hmark.trans (List.prefix_append line ['\n']).isInfix

theorem hasDoublePeriod_statementLine_iff (label : String) (statement : Statement) :
    HasDoublePeriod (statementLine label statement).toList ↔
      HasDoublePeriod (lineOf label statement) := by
  rw [HasDoublePeriod, HasDoublePeriod, toList_statementLine, isInfix_concat_iff (by decide),
    isInfix_concat_iff (by decide)]

theorem periods_of_labelled {label name : String}
    (hperiods : ['.', '.'] <:+: (labelled label name).toList) :
    ['.', '.'] <:+: label.toList ∨ ['.', '.'] <:+: name.toList := by
  rw [toList_labelled] at hperiods
  exact Text.isInfix_or_of_notMem (by decide) hperiods

theorem periods_of_written {label : String} {predicate : Predicate}
    (hperiods : ['.', '.'] <:+: (written label predicate).toList) :
    ['.', '.'] <:+: label.toList := by
  rcases written_cases label predicate with ⟨-, hwritten⟩ | hwritten
  · rw [hwritten] at hperiods
    exact absurd hperiods (by decide)
  · rw [hwritten] at hperiods
    have hplain : '.' ∉ predicate.wireName.toList := by
      cases predicate <;> decide
    exact (periods_of_labelled hperiods).resolve_right fun hname =>
      hplain (hname.subset List.mem_cons_self)

theorem periods_of_lineOf {label : String} {statement : Statement}
    (hperiods : ['.', '.'] <:+: lineOf label statement) :
    ['.', '.'] <:+: label.toList ∨ ['.', '.'] <:+: statement.subject.text.toList ∨
      ['.', '.'] <:+: statement.object.text.toList := by
  rcases Text.isInfix_or_of_notMem (by decide) hperiods with hsubject | hrest
  · exact (periods_of_labelled hsubject).imp_right .inl
  rcases Text.isInfix_or_of_notMem (by decide) hrest with hpredicate | hrest
  · exact .inl (periods_of_written hpredicate)
  rcases Text.isInfix_or_of_notMem (by decide) hrest with hobject | hend
  · exact (periods_of_labelled hobject).imp_right .inr
  · exact absurd hend (by decide)

/-! ## Reports -/

theorem errors_of_lines {label : String} {statements : List Statement}
    (hlines : ∀ statement ∈ statements, IsTidy (lineOf label statement)) (k : ℕ) :
    (((statements.map (lineOf label)).zipIdx (k + 2)).flatMap fun (line, number) =>
        (errorsOf line).map fun problem => (⟨number, problem⟩ : Finding)) =
      ((statements.zipIdx k).filter fun (statement, _) =>
          HasDoublePeriod (statementLine label statement).toList).map
        fun (_, place) => ⟨place + 2, .doublePeriod⟩ := by
  induction statements generalizing k with
  | nil => rfl
  | cons statement others ih =>
      obtain ⟨hline, hothers⟩ := List.forall_mem_cons.mp hlines
      rw [List.map_cons, List.zipIdx_cons, List.zipIdx_cons, List.flatMap_cons, List.filter_cons,
        Nat.add_right_comm, ih hothers (k + 1)]
      simp only [hline.errorsOf_eq, hasDoublePeriod_statementLine_iff]
      by_cases hperiod : HasDoublePeriod (lineOf label statement) <;> simp [hperiod]

theorem findings_serialize {label iri : String} {statements : List Statement}
    (hbinding : '\n' ∉ bindingOf label iri)
    (hlines : ∀ statement ∈ statements, IsTidy (lineOf label statement))
    {problemsOf : List Char → List Problem} (hnone : problemsOf (bindingOf label iri) = []) :
    findings problemsOf (serialize label iri statements).toList =
      ((statements.map (lineOf label)).zipIdx 3).flatMap fun (line, number) =>
        (problemsOf line).map fun problem => ⟨number, problem⟩ := by
  rw [findings, judgedLines_serialize hbinding hlines, List.flatMap_cons]
  simp only [hnone, List.map_nil, List.nil_append]

theorem warnings_check (text : String) :
    (check text).warnings = findings warningsOf text.toList := rfl

theorem errors_check (text : String) :
    (check text).errors = findings errorsOf text.toList := rfl

theorem warnings_serialize {label iri : String} {statements : List Statement}
    (hbinding : '\n' ∉ bindingOf label iri)
    (hlines : ∀ statement ∈ statements, IsTidy (lineOf label statement)) :
    (check (serialize label iri statements)).warnings = [] := by
  rw [warnings_check, findings_serialize hbinding hlines (problemsOf_bindingOf label iri).2,
    List.flatMap_eq_nil_iff]
  rintro ⟨line, number⟩ hmem
  obtain ⟨statement, hstatement, rfl⟩ := List.mem_map.mp (List.fst_mem_of_mem_zipIdx hmem)
  simp only [(hlines statement hstatement).warningsOf_eq_nil, List.map_nil]

theorem errors_serialize {label iri : String} {statements : List Statement}
    (hbinding : '\n' ∉ bindingOf label iri)
    (hlines : ∀ statement ∈ statements, IsTidy (lineOf label statement)) :
    (check (serialize label iri statements)).errors =
      ((statements.zipIdx 1).filter fun (statement, _) =>
          HasDoublePeriod (statementLine label statement).toList).map
        fun (_, place) => ⟨place + 2, .doublePeriod⟩ := by
  rw [errors_check, findings_serialize hbinding hlines (problemsOf_bindingOf label iri).1]
  exact errors_of_lines hlines 1

/-- The checks have no warning about a serialized file, and its errors are the
double periods in the lines of its statements.  Where no id has two periods in a
row the file is clean. -/
theorem check_serialized_file {statements : List Statement}
    (hids : ∀ statement ∈ statements,
      IsWritable statement.subject.text ∧ IsWritable statement.object.text) :
    let report := check (serialize defaultLabel defaultNamespace statements)
    report.warnings = [] ∧
      report.errors =
        ((statements.zipIdx 1).filter fun (statement, _) =>
            HasDoublePeriod (statementLine defaultLabel statement).toList).map
          (fun (_, place) => ⟨place + 2, .doublePeriod⟩) ∧
      Problem.words .doublePeriod = "double period" ∧
      ((∀ statement ∈ statements, ¬ ['.', '.'] <:+: statement.subject.text.toList ∧
          ¬ ['.', '.'] <:+: statement.object.text.toList) → report.isClean = true) := by
  intro report
  have hbinding : '\n' ∉ bindingOf defaultLabel defaultNamespace :=
    feed_notMem_bindingOf isLabel_defaultLabel (by decide)
  have hlines : ∀ statement ∈ statements, IsTidy (lineOf defaultLabel statement) :=
    fun statement hmem =>
      isTidy_lineOf isLabel_defaultLabel (hids statement hmem).1 (hids statement hmem).2
  have hwarnings : report.warnings = [] := warnings_serialize hbinding hlines
  have herrors := errors_serialize hbinding hlines
  refine ⟨hwarnings, herrors, rfl, ?_⟩
  intro hsingle
  have hnone : report.errors = [] := by
    change (check _).errors = []
    rw [herrors, List.map_eq_nil_iff, List.filter_eq_nil_iff]
    rintro ⟨statement, place⟩ hmem hperiod
    obtain ⟨hsubject, hobject⟩ := hsingle statement (List.fst_mem_of_mem_zipIdx hmem)
    have hline := (hasDoublePeriod_statementLine_iff _ _).mp (of_decide_eq_true hperiod)
    rcases periods_of_lineOf hline.1 with hlabel | hin | hin
    · exact absurd hlabel (by decide)
    · exact hsubject hin
    · exact hobject hin
  simp [Report.isClean, hwarnings, hnone]

/-- Ids with two periods in a row, with three of them, and with marks that mean
nothing inside an id. -/
def dottedIds : List Statement :=
  [⟨⟨"1..2"⟩, .cites, ⟨"#>:a"⟩⟩, ⟨⟨"a...b..c"⟩, .instanceOf, ⟨"Proposition"⟩⟩,
    ⟨⟨"@x"⟩, .dependsOn, ⟨"..y"⟩⟩]

theorem check_serialized_file_dotted :
    (∀ statement ∈ dottedIds,
        IsWritable statement.subject.text ∧ IsWritable statement.object.text) ∧
      (check (serialize defaultLabel defaultNamespace dottedIds)).warnings = [] ∧
      (check (serialize defaultLabel defaultNamespace dottedIds)).errors =
        [⟨3, .doublePeriod⟩, ⟨5, .doublePeriod⟩] ∧
      (check (serialize defaultLabel defaultNamespace
        [⟨⟨"I.prop.1"⟩, .cites, ⟨"#>:a"⟩⟩])).isClean = true := by
  have hids : ∀ statement ∈ dottedIds,
      IsWritable statement.subject.text ∧ IsWritable statement.object.text := by
    intro statement hmem
    simp only [dottedIds, List.mem_cons, List.not_mem_nil, or_false] at hmem
    rcases hmem with rfl | rfl | rfl <;>
      exact ⟨⟨by decide, by decide⟩, ⟨by decide, by decide⟩⟩
  have hsingle : ∀ statement ∈ [(⟨⟨"I.prop.1"⟩, .cites, ⟨"#>:a"⟩⟩ : Statement)],
      IsWritable statement.subject.text ∧ IsWritable statement.object.text := by
    intro statement hmem
    obtain rfl := List.mem_singleton.mp hmem
    exact ⟨⟨by decide, by decide⟩, ⟨by decide, by decide⟩⟩
  obtain ⟨hwarnings, herrors, -⟩ := check_serialized_file hids
  obtain ⟨-, -, -, hclean⟩ := check_serialized_file hsingle
  refine ⟨hids, hwarnings, herrors.trans (by decide), hclean ?_⟩
  intro statement hmem
  obtain rfl := List.mem_singleton.mp hmem
  exact ⟨by decide, by decide⟩

end Treatise.N3.Lint
