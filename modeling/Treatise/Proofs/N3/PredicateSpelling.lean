import Treatise.Proofs.N3.RoundTrip
import Treatise.Proofs.N3.Runs

/-!
# Two spellings of a predicate

A predicate may be written as a name under the label of the facts or as an
address that ends in its local name.  For the vocabulary both spellings come to
the same.  For any other local name they do not: the name is refused, but the
address is taken for one from elsewhere and its triples are skipped, because
the reader looks at no more of an address than the local name in it.
-/

namespace Treatise.N3

/-! ## What stands before a predicate -/

theorem Piece.of_head?_eq {front rest other : List Char} {tokens : List Token} {newlines : ℕ}
    (hpiece : Piece front rest tokens newlines) (hhead : other.head? = rest.head?) :
    Piece front other tokens newlines := by
  cases hpiece with
  | newline => exact .newline other
  | blank hblank hline => exact .blank hblank hline other
  | comment hbody hrest => exact .comment hbody (hhead ▸ hrest)
  | mark hmark => exact .mark hmark other
  | implies => exact .implies other
  | iri hclose hline => exact .iri hclose hline other
  | short hbody hopen hsuffix hrest =>
      refine .short hbody ?_ hsuffix (hhead ▸ hrest)
      rw [List.head?_append, hhead, ← List.head?_append]
      exact hopen
  | long hbody hsuffix hrest => exact .long hbody hsuffix (hhead ▸ hrest)
  | directive hrest => exact .directive (hhead ▸ hrest)
  | word hname dots hrest => exact .word hname dots (hhead ▸ hrest)

theorem isSuffixChar_of_isNameChar {c : Char} (hchar : isNameChar c) (hdot : c ≠ '.') :
    isSuffixChar c := by
  simp_all [isNameChar, isSuffixChar]

/-- Words run on, so a piece that a word may follow is one that anything may follow. -/
theorem Piece.of_before_name {front name rest : List Char} {tokens : List Token} {newlines : ℕ}
    (hpiece : Piece front (name ++ rest) tokens newlines) (hname : IsName name)
    (other : List Char) : Piece front other tokens newlines := by
  obtain ⟨c, hfirst, hdot, hcomment, hdirective⟩ := hname.first
  have hhead : (name ++ rest).head? = some c := by
    rw [List.head?_append, hfirst, Option.some_or]
  have hchar : isNameChar c := hname.chars c (List.mem_of_head? hfirst)
  have hblank := isBlank_eq_false_of_isNameChar hchar
  have hsuffixChar := isSuffixChar_of_isNameChar hchar hdot
  cases hpiece with
  | newline => exact .newline other
  | blank hblank hline => exact .blank hblank hline other
  | mark hmark => exact .mark hmark other
  | implies => exact .implies other
  | iri hclose hline => exact .iri hclose hline other
  | comment hbody hrest =>
      obtain rfl := hrest c hhead
      exact absurd hblank (by decide)
  | short hbody hopen hsuffix hrest => simp [hrest c hhead] at hsuffixChar
  | long hbody hsuffix hrest => simp [hrest c hhead] at hsuffixChar
  | directive hrest => simp [hrest c hhead] at hblank
  | word hname dots hrest => simp [hrest c hhead] at hchar

theorem Precedes.of_before_name {name rest before : List Char} {line final : ℕ}
    {lexemes : List Lexeme} (hbefore : Precedes (name ++ rest) line before final lexemes)
    (hname : IsName name) (other : List Char) : Precedes other line before final lexemes := by
  induction hbefore with
  | nil line => exact .nil line
  | @cons line newlines final front before tokens lexemes hpiece _ ih =>
      refine .cons ?_ ih
      cases before with
      | nil =>
          have hlast : Piece front (name ++ rest) tokens newlines := hpiece
          exact hlast.of_before_name hname other
      | cons c before => exact hpiece.of_head?_eq rfl

/-- After this beginning the reader waits for a predicate on the given line,
at the first place of a sentence or after a semicolon. -/
inductive AwaitsPredicate (label : String) (before rest : List Char) (line : ℕ) : Prop
  | intro {lexemes : List Lexeme} {place : Place} {found : List Item} {subject : ElementId}
      (hbefore : Precedes rest 1 before line lexemes)
      (hruns : Runs label .betweenItems (lexemes.map Lexeme.token) place found)
      (hplace : place = .atPredicate subject ∨ place = .afterSemicolon subject) :
      AwaitsPredicate label before rest line

theorem lastLine_concat (line : ℕ) (lexemes : List Lexeme) (lexeme : Lexeme) :
    lastLine line (lexemes ++ [lexeme]) = lexeme.line := by
  simp [lastLine]

section Reading

variable {label : String} {before after front : List Char} {line : ℕ} {lexemes : List Lexeme}
  {place : Place} {found : List Item} {subject : ElementId} {token : Token}

theorem ofText_of_expresses (hbefore : Precedes (front ++ after) 1 before line lexemes)
    (hruns : Runs label .betweenItems (lexemes.map Lexeme.token) place found)
    (hplace : place = .atPredicate subject ∨ place = .afterSemicolon subject)
    (hpiece : Piece front after [token] 0) {verb : Verb} (hverb : Expresses label token verb) :
    Document.ofText label (String.ofList (before ++ (front ++ after))) = (do
      let later ← Text.scanAll tokenStep line after
      Document.ofItems <$> ((found ++ ·) <$>
        itemsFrom label (.atObject subject verb) line later)) := by
  have hmoves : Moves label place token (.atObject subject verb) none := .predicate hplace hverb
  have hlonger : Runs label .betweenItems
      ((lexemes ++ [(⟨token, line⟩ : Lexeme)]).map Lexeme.token) (.atObject subject verb)
        found := by
    simpa using hruns.concat hmoves
  have hread := ofText_eq_of_precedes (hbefore.concat hpiece) hlonger
  rw [List.map_singleton, lastLine_concat] at hread
  rw [← List.append_assoc]
  exact hread

theorem ofText_of_piece (hbefore : Precedes (front ++ after) 1 before line lexemes)
    (hruns : Runs label .betweenItems (lexemes.map Lexeme.token) place found)
    {tokens : List Token} (hpiece : Piece front after tokens 0) {later : List Lexeme}
    (hafter : Text.scanAll tokenStep line after = .ok later) :
    Document.ofText label (String.ofList (before ++ (front ++ after))) =
      Document.ofItems <$> ((found ++ ·) <$> itemsFrom label place (lastLine 1 lexemes)
        ((tokens.map fun token => ⟨token, line⟩) ++ later)) := by
  have hfirst : Precedes after line (front ++ []) (line + 0)
      ((tokens.map fun token => ⟨token, line⟩) ++ []) := .cons hpiece (.nil _)
  have hscan := hfirst.scanAll_eq
  rw [List.append_nil, List.append_nil, Nat.add_zero, hafter] at hscan
  rw [ofText_eq_of_precedes hbefore hruns, hscan]
  rfl

theorem itemsFrom_of_refused
    (hplace : place = .atPredicate subject ∨ place = .afterSemicolon subject)
    (hdot : token ≠ .dot) {error : Error} (hverb : verbOf label ⟨token, line⟩ = .error error)
    (last : ℕ) (later : List Lexeme) :
    itemsFrom label place last (⟨token, line⟩ :: later) = .error error := by
  have hmove : move label place ⟨token, line⟩ = .error error := by
    rw [move_eq_readPredicate hplace hdot, readPredicate, hverb]
    rfl
  rw [itemsFrom, hmove]

end Reading

/-! ## Names under the label -/

theorem IsLabelled.ne_type_of_label {text label name : String}
    (hlabelled : IsLabelled text label name) (hlabel : label ≠ "rdf") : text ≠ "rdf:type" := by
  rintro rfl
  have hcut : Text.cut ':' "rdf:type".toList = some ("rdf".toList, "type".toList) := by
    decide
  rw [cut_eq_some_iff_isLabelled.mpr hlabelled] at hcut
  exact hlabel (String.toList_inj.mp (Prod.mk.inj (Option.some.inj hcut)).1)

theorem verbOf_of_unknown {text label name : String} (hlabelled : IsLabelled text label name)
    (hlabel : label ≠ "rdf") (hunknown : ∀ predicate, ¬ IsSpelling name predicate) (line : ℕ) :
    verbOf label ⟨.name text, line⟩ = .error ⟨line, .unknownPredicate name⟩ := by
  have htype := hlabelled.ne_type_of_label hlabel
  simp [verbOf, hlabelled.ne_shorthand, htype, cut_eq_some_iff_isLabelled.mpr hlabelled,
    ofName?_eq_none_iff.mpr hunknown]

/-- Local names with no mark at which an address or a name would be cut. -/
def IsSimple (name : String) : Prop :=
  ∀ c ∈ name.toList, isNameChar c ∧ c ∉ ['#', '/', '>', ':']

instance : DecidablePred IsSimple := fun name => List.decidableBAll _ name.toList

theorem IsSimple.not_mem {name : String} (hname : IsSimple name) {c : Char}
    (hmark : c ∈ ['#', '/', '>', ':']) : c ∉ name.toList := by
  intro hmem
  exact (hname c hmem).2 hmark

theorem IsSimple.noLine {name : String} (hname : IsSimple name) : '\n' ∉ name.toList := by
  intro hmem
  exact absurd (hname '\n' hmem).1 (by decide)

theorem IsSimple.isWritable {name : String} (hname : IsSimple name)
    (hlast : name.toList.getLast? ≠ some '.') : IsWritable name := by
  refine ⟨?_, hlast⟩
  intro c hmem
  have hchar := (hname c hmem).1
  simp_all [isNameChar]

theorem IsSimple.isSpelling_iff {name : String} (hname : IsSimple name) {predicate : Predicate} :
    IsSpelling name predicate ↔ name = predicate.wireName := by
  have htype : name ≠ "rdf:type" := by
    rintro rfl
    exact absurd (by decide) (hname.not_mem (c := ':') (by decide))
  simp [IsSpelling, htype]

theorem IsSimple.not_isSpelling {name : String} (hname : IsSimple name)
    (hunknown : ∀ predicate : Predicate, name ≠ predicate.wireName) (predicate : Predicate) :
    ¬ IsSpelling name predicate := by
  rw [hname.isSpelling_iff]
  exact hunknown predicate

/-- A name is a stem and the dots at its end, which are none of its token. -/
structure Stems (name stem : String) (dots : ℕ) : Prop where
  parts : name.toList = stem.toList ++ List.replicate dots '.'
  last : stem.toList.getLast? ≠ some '.'

theorem exists_stems (name : String) : ∃ stem dots, Stems name stem dots := by
  obtain ⟨dots, hparts⟩ := Text.exists_eq_append_replicate '.' name.toList
  have hlast := Text.getLast?_reverse_dropWhile_ne '.' name.toList
  refine ⟨String.ofList (name.toList.reverse.dropWhile (· == '.')).reverse, dots, ?_, ?_⟩
  · rwa [String.toList_ofList]
  · rwa [String.toList_ofList]

section Stems

variable {name stem : String} {dots : ℕ}

theorem Stems.eq_of_no_dots (hstems : Stems name stem 0) : stem = name := by
  rw [← String.toList_inj, hstems.parts, List.replicate_zero, List.append_nil]

theorem Stems.no_dots (hstems : Stems name stem dots) (hlast : name.toList.getLast? ≠ some '.') :
    dots = 0 := by
  cases dots with
  | zero => rfl
  | succ dots =>
      rw [hstems.parts, List.replicate_succ', ← List.append_assoc, List.getLast?_concat] at hlast
      exact absurd rfl hlast

theorem Stems.isSimple (hstems : Stems name stem dots) (hname : IsSimple name) :
    IsSimple stem := by
  intro c hmem
  exact hname c (hstems.parts ▸ List.mem_append_left _ hmem)

theorem Stems.toList_labelled (hstems : Stems name stem dots) (label : String) :
    (labelled label name).toList =
      (labelled label stem).toList ++ List.replicate dots '.' := by
  rw [N3.toList_labelled, N3.toList_labelled, hstems.parts, List.append_assoc, List.cons_append]

theorem Stems.piece (hstems : Stems name stem dots) (hname : IsSimple name) {label : String}
    (hlabel : IsLabel label) {rest : List Char}
    (hrest : ∀ c, rest.head? = some c → isNameChar c = false) :
    Piece (labelled label name).toList rest
      (.name (labelled label stem) :: List.replicate dots .dot) 0 := by
  have hword := hlabel.isName ((hstems.isSimple hname).isWritable hstems.last)
  have hpiece := Piece.word hword dots hrest
  rwa [String.ofList_toList, ← hstems.toList_labelled] at hpiece

theorem Stems.precedes (hstems : Stems name stem dots) (hname : IsSimple name) {label : String}
    (hlabel : IsLabel label) {first line : ℕ} {before after : List Char} {lexemes : List Lexeme}
    (hbefore : Precedes ((labelled label name).toList ++ after) first before line lexemes)
    (other : List Char) : Precedes other first before line lexemes := by
  have hword := hlabel.isName ((hstems.isSimple hname).isWritable hstems.last)
  rw [hstems.toList_labelled, List.append_assoc] at hbefore
  exact hbefore.of_before_name hword other

end Stems

/-! ## Addresses in a namespace -/

structure IsNamespace (base : String) : Prop where
  mark : base.toList.getLast? = some '#' ∨ base.toList.getLast? = some '/'
  noClose : '>' ∉ base.toList
  noLine : '\n' ∉ base.toList

def addressed (base name : String) : List Char := '<' :: ((base ++ name).toList ++ ['>'])

theorem IsNamespace.isLocalName {base name : String} (hbase : IsNamespace base)
    (hname : IsSimple name) : IsLocalName (base ++ name) name :=
  ⟨base.toList, String.toList_append, hname.not_mem (by simp), hname.not_mem (by simp),
    .inr hbase.mark⟩

theorem IsNamespace.piece {base name : String} (hbase : IsNamespace base) (hname : IsSimple name)
    (rest : List Char) : Piece (addressed base name) rest [.iri (base ++ name)] 0 := by
  have hclose : '>' ∉ (base ++ name).toList := by
    simpa using ⟨hbase.noClose, hname.not_mem (by simp)⟩
  have hline : '\n' ∉ (base ++ name).toList := by
    simpa using ⟨hbase.noLine, hname.noLine⟩
  have hpiece := Piece.iri hclose hline rest
  rwa [String.ofList_toList] at hpiece

/-! ## Both spellings -/

/-- A text with a spelling of a predicate in it. -/
def withPredicate (before spelling after : List Char) : String :=
  String.ofList (before ++ (spelling ++ after))

/-- What a local name amounts to under the label and in a namespace. -/
structure SpellingsCompare (label base name : String) (before after : List Char) (line : ℕ) :
    Prop where
  known : (∃ predicate : Predicate, name = predicate.wireName) →
    Document.ofText label (withPredicate before (addressed base name) after) =
      Document.ofText label (withPredicate before (labelled label name).toList after)
  /-- A dot at the end of a name is no part of its token and may be at fault instead. -/
  refused : (∀ predicate : Predicate, name ≠ predicate.wireName) →
    ∀ later, Text.scanAll tokenStep line after = .ok later →
      ∃ fault, Document.ofText label (withPredicate before (labelled label name).toList after) =
        .error ⟨line, fault⟩ ∧
        (name.toList.getLast? ≠ some '.' → fault = .unknownPredicate name)
  /-- The address is skipped like a predicate under any other label. -/
  skipped : (∀ predicate : Predicate, name ≠ predicate.wireName) →
    ∀ foreign : String, IsName foreign.toList → Expresses label (.name foreign) .foreign →
      Document.ofText label (withPredicate before (addressed base name) after) =
        Document.ofText label (withPredicate before foreign.toList after)

section Spellings

variable {label base name : String} {before after : List Char} {line : ℕ}

theorem ofText_of_known (hlabel : IsLabel label) (hbase : IsNamespace base)
    (hname : IsSimple name) (hafter : ∀ c, after.head? = some c → isNameChar c = false)
    (hawaits : AwaitsPredicate label before ((labelled label name).toList ++ after) line)
    {predicate : Predicate} (hknown : name = predicate.wireName) :
    Document.ofText label (withPredicate before (addressed base name) after) =
      Document.ofText label (withPredicate before (labelled label name).toList after) := by
  have hspelling : IsSpelling name predicate := .inl hknown
  have hwritable : IsWritable name := hknown ▸ isWritable_wireName predicate
  have hstems : Stems name name 0 := ⟨by simp, hwritable.last⟩
  have hnamed := hstems.piece hname hlabel hafter
  obtain ⟨hbefore, hruns, hplace⟩ := hawaits
  have haddressed := hstems.precedes hname hlabel hbefore (addressed base name ++ after)
  have hverb := Expresses.labelled (isLabelled_labelled hlabel name) hspelling
  rw [withPredicate, withPredicate, ofText_of_expresses hbefore hruns hplace hnamed hverb,
    ofText_of_expresses haddressed hruns hplace (hbase.piece hname after)
      (.iri (hbase.isLocalName hname) hspelling)]

theorem ofText_of_unknown (hlabel : IsLabel label) (htype : label ≠ "rdf")
    (hname : IsSimple name) (hafter : ∀ c, after.head? = some c → isNameChar c = false)
    (hawaits : AwaitsPredicate label before ((labelled label name).toList ++ after) line)
    (hunknown : ∀ predicate : Predicate, name ≠ predicate.wireName) {later : List Lexeme}
    (hlater : Text.scanAll tokenStep line after = .ok later) :
    ∃ fault, Document.ofText label (withPredicate before (labelled label name).toList after) =
      .error ⟨line, fault⟩ ∧
      (name.toList.getLast? ≠ some '.' → fault = .unknownPredicate name) := by
  obtain ⟨stem, dots, hstems⟩ := exists_stems name
  have hnamed := hstems.piece hname hlabel hafter
  have hlabelled := isLabelled_labelled hlabel stem
  obtain ⟨hbefore, hruns, hplace⟩ := hawaits
  rw [withPredicate, ofText_of_piece hbefore hruns hnamed hlater, List.map_cons, List.cons_append]
  by_cases hknown : ∃ predicate : Predicate, stem = predicate.wireName
  · -- The name is a predicate, so it is the dot after it that is refused.
    obtain ⟨predicate, hpredicate⟩ := hknown
    cases dots with
    | zero => exact absurd (hstems.eq_of_no_dots.symm.trans hpredicate) (hunknown predicate)
    | succ dots =>
        refine ⟨.expected .term .dot, ?_, fun hlast => absurd (hstems.no_dots hlast) (by simp)⟩
        rw [itemsFrom_cons_of_moves (.predicate hplace (.labelled hlabelled (.inl hpredicate)))]
        rfl
  · have hrefused := (hstems.isSimple hname).not_isSpelling fun predicate hpredicate =>
      hknown ⟨predicate, hpredicate⟩
    refine ⟨.unknownPredicate stem, ?_, ?_⟩
    · rw [itemsFrom_of_refused hplace (by simp) (verbOf_of_unknown hlabelled htype hrefused line)]
      rfl
    · intro hlast
      obtain rfl := hstems.no_dots hlast
      rw [hstems.eq_of_no_dots]

theorem ofText_of_foreign (hlabel : IsLabel label) (hbase : IsNamespace base)
    (hname : IsSimple name) (hafter : ∀ c, after.head? = some c → isNameChar c = false)
    (hawaits : AwaitsPredicate label before ((labelled label name).toList ++ after) line)
    (hunknown : ∀ predicate : Predicate, name ≠ predicate.wireName) {foreign : String}
    (hforeign : IsName foreign.toList) (hverb : Expresses label (.name foreign) .foreign) :
    Document.ofText label (withPredicate before (addressed base name) after) =
      Document.ofText label (withPredicate before foreign.toList after) := by
  obtain ⟨stem, dots, hstems⟩ := exists_stems name
  obtain ⟨hbefore, hruns, hplace⟩ := hawaits
  have hother := hstems.precedes hname hlabel hbefore
  have haddress : Expresses label (.iri (base ++ name)) .foreign :=
    .foreignIri (hbase.isLocalName hname) (hname.not_isSpelling hunknown)
  have hpiece : Piece foreign.toList after [.name foreign] 0 := by
    have hword := Piece.word hforeign 0 hafter
    rwa [String.ofList_toList, List.replicate_zero, List.append_nil] at hword
  rw [withPredicate, withPredicate,
    ofText_of_expresses (hother _) hruns hplace (hbase.piece hname after) haddress,
    ofText_of_expresses (hother _) hruns hplace hpiece hverb]

/-- A known predicate may be written as a name under the label of the facts or
as an address.  Any other local name is refused under the label, on the line on
which it stands.  In an address it is skipped with its triples, whatever the
address and whatever the label is bound to. -/
theorem predicate_spellings (hlabel : IsLabel label) (htype : label ≠ "rdf")
    (hbase : IsNamespace base) (hname : IsSimple name)
    (hafter : ∀ c, after.head? = some c → isNameChar c = false)
    (hawaits : AwaitsPredicate label before ((labelled label name).toList ++ after) line) :
    SpellingsCompare label base name before after line := by
  constructor
  · rintro ⟨predicate, hknown⟩
    exact ofText_of_known hlabel hbase hname hafter hawaits hknown
  · intro hunknown later hlater
    exact ofText_of_unknown hlabel htype hname hafter hawaits hunknown hlater
  · intro hunknown foreign hforeign hverb
    exact ofText_of_foreign hlabel hbase hname hafter hawaits hunknown hforeign hverb

end Spellings

theorem awaitsPredicate_secondLine {rest : List Char} :
    AwaitsPredicate defaultLabel "\nethics:A ".toList rest 2 := by
  have hname : IsName "ethics:A".toList :=
    ⟨List.all_eq_true.mp (by decide), ⟨'e', by decide⟩, by decide, by decide⟩
  have hstop : ∀ c, ([' '] ++ rest).head? = some c → isNameChar c = false := by
    intro c hhead
    obtain rfl := Option.some.inj hhead
    decide
  have hblank : Precedes rest 2 ([' '] ++ []) 2 ([] ++ []) :=
    .cons (.blank (by decide) (by decide) _) (.nil 2)
  have hword : Precedes rest 2 ("ethics:A".toList ++ [' ']) 2 [⟨.name "ethics:A", 2⟩] :=
    .cons (.word hname 0 hstop) hblank
  have hbefore : Precedes rest 1 "\nethics:A ".toList 2 [⟨.name "ethics:A", 2⟩] :=
    .cons (.newline _) hword
  have hlabelled : IsLabelled "ethics:A" "ethics" "A" := ⟨rfl, by decide⟩
  have hruns : Runs defaultLabel .betweenItems [.name "ethics:A"] (.atPredicate ⟨"A"⟩) [] :=
    .cons (.begins rfl (.subject (.name hlabelled))) (.nil _)
  exact .intro hbefore hruns (.inl rfl)

/-- A name of the vocabulary and the same with a capital letter. -/
theorem predicate_spellings_cites :
    SpellingsCompare defaultLabel defaultNamespace "cites" "\nethics:A ".toList
        " ethics:B .".toList 2 ∧
      SpellingsCompare defaultLabel defaultNamespace "Cites" "\nethics:A ".toList
        " ethics:B .".toList 2 := by
  have hbase : IsNamespace defaultNamespace := ⟨.inl (by decide), by decide, by decide⟩
  have hafter : ∀ c, " ethics:B .".toList.head? = some c → isNameChar c = false := by
    intro c hhead
    obtain rfl : ' ' = c := Option.some.inj hhead
    decide
  constructor
  · exact predicate_spellings isLabel_defaultLabel (by decide) hbase (by decide) hafter
      awaitsPredicate_secondLine
  · exact predicate_spellings isLabel_defaultLabel (by decide) hbase (by decide) hafter
      awaitsPredicate_secondLine

/-- The address lies in the namespace that the label is bound to. -/
theorem unknown_address_skipped :
    let opening := "@prefix ethics: <http://example.org/ethics#> .\nethics:A "
    Document.ofText defaultLabel (opening ++ "ethics:Cites ethics:B .\n") =
        .error ⟨2, .unknownPredicate "Cites"⟩ ∧
      Document.ofText defaultLabel
          (opening ++ "<http://example.org/ethics#Cites> ethics:B .\n") =
        .ok ⟨[("ethics", "http://example.org/ethics#")], [], 0, 1⟩ := by
  decide +kernel

end Treatise.N3
