import Mathlib.Data.Bool.AllAny
import Treatise.Proofs.N3.CanonicalText
import Treatise.Proofs.N3.Concatenation

/-!
# Literals with a language tag or a datatype

What may follow a literal at once is dropped up to its first blank, dot, comma
or semicolon.  No language tag has such a character, but the name or address
of a datatype may have one, and then what is left of it is read as further
tokens.  So literal and suffix are one token if and only if the suffix has no
dot, comma or semicolon, and a sentence with such an object is skipped as a
whole.
-/

namespace Treatise.N3

/-! ## What may stand after a literal -/

/-- Letters, and after hyphens letters and digits. -/
def IsLanguageTag (tag : List Char) : Prop :=
  ∃ (first : List Char) (subtags : List (List Char)), tag = first ++ subtags.flatMap ('-' :: ·) ∧
    first ≠ [] ∧ (∀ c ∈ first, c.isAlpha) ∧
    ∀ subtag ∈ subtags, subtag ≠ [] ∧ ∀ c ∈ subtag, c.isAlphanum

inductive IsLiteralSuffix : List Char → Prop
  | language {tag : List Char} (htag : IsLanguageTag tag) : IsLiteralSuffix ('@' :: tag)
  | datatypeName {name : List Char} (hname : IsName name) (hlabelled : ':' ∈ name) :
      IsLiteralSuffix ('^' :: '^' :: name)
  | datatypeIri {iri : List Char}
      (hplain : ∀ c ∈ iri, Text.isBlank c = false ∧ c ≠ '<' ∧ c ≠ '>') :
      IsLiteralSuffix ('^' :: '^' :: '<' :: (iri ++ ['>']))

/-- Characters at which a tag or a datatype is taken to end, other than blanks. -/
def suffixStops : List Char := ['.', ',', ';']

theorem isSuffixChar_iff {c : Char} :
    isSuffixChar c ↔ Text.isBlank c = false ∧ c ∉ suffixStops := by
  simp only [isSuffixChar, suffixStops, Bool.and_eq_true, Bool.not_eq_true', bne_iff_ne,
    List.mem_cons, List.not_mem_nil, or_false, not_or]
  tauto

theorem isBlank_eq_false_of_isAlphanum {c : Char} (hletter : c.isAlphanum) :
    Text.isBlank c = false := by
  unfold Char.isAlphanum Char.isAlpha Char.isUpper Char.isLower Char.isDigit at hletter
  simp only [Bool.or_eq_true, Bool.and_eq_true, decide_eq_true_eq,
    UInt32.le_iff_toNat_le] at hletter
  simp only [Text.isBlank, Text.blankRanges, Text.Ranges.contains, Char.toNat]
  grind

theorem IsLanguageTag.letters {tag : List Char} (htag : IsLanguageTag tag) :
    ∀ c ∈ tag, c = '-' ∨ c.isAlphanum := by
  rcases htag with ⟨first, subtags, rfl, -, hfirst, hsubtags⟩
  intro c hmem
  rcases List.mem_append.mp hmem with hmem | hmem
  · exact .inr (by simp [Char.isAlphanum, hfirst c hmem])
  · rcases List.mem_flatMap.mp hmem with ⟨subtag, hsubtag, hmem⟩
    rcases List.mem_cons.mp hmem with hhyphen | hletter
    · exact .inl hhyphen
    · exact .inr ((hsubtags subtag hsubtag).2 c hletter)

theorem IsLanguageTag.isSuffixChar {tag : List Char} (htag : IsLanguageTag tag) :
    ∀ c ∈ tag, isSuffixChar c := by
  intro c hmem
  rcases htag.letters c hmem with rfl | hletter
  · decide
  · refine isSuffixChar_iff.mpr ⟨isBlank_eq_false_of_isAlphanum hletter, ?_⟩
    intro hstop
    have hnone : ∀ stop ∈ suffixStops, stop.isAlphanum = false :=
      List.all_iff_forall_prop.mp (by decide)
    simp [hnone c hstop] at hletter

theorem IsLiteralSuffix.noBlank {suffix : List Char} (hsuffix : IsLiteralSuffix suffix) :
    ∀ c ∈ suffix, Text.isBlank c = false := by
  cases hsuffix with
  | language htag =>
      intro c hmem
      rcases List.mem_cons.mp hmem with rfl | hmem
      · decide
      · exact (isSuffixChar_iff.mp (htag.isSuffixChar c hmem)).1
  | datatypeName hname =>
      intro c hmem
      simp only [List.mem_cons] at hmem
      rcases hmem with rfl | rfl | hmem
      · decide
      · decide
      · exact isBlank_eq_false_of_isNameChar (hname.chars c hmem)
  | datatypeIri hplain =>
      intro c hmem
      simp only [List.mem_cons, List.mem_append, List.not_mem_nil, or_false] at hmem
      rcases hmem with rfl | rfl | rfl | hmem | rfl
      · decide
      · decide
      · decide
      · exact (hplain c hmem).1
      · decide

theorem IsLiteralSuffix.head_ne {suffix : List Char} (hsuffix : IsLiteralSuffix suffix)
    (rest : List Char) : (suffix ++ rest).head? ≠ some '"' := by
  cases hsuffix <;> simp

theorem IsLiteralSuffix.forall_isSuffixChar_iff {suffix : List Char}
    (hsuffix : IsLiteralSuffix suffix) :
    (∀ c ∈ suffix, isSuffixChar c) ↔ ∀ c ∈ suffix, c ∉ suffixStops := by
  apply forall₂_congr
  intro c hmem
  simp [isSuffixChar_iff, hsuffix.noBlank c hmem]

/-! ## Literals with what stands after them -/

/-- A literal as a text has it, with its value and the lines that it is
counted to end. -/
inductive LiteralText : List Char → List Char → ℕ → Prop
  | short {raw value : List Char} (hbody : ShortBody raw value) :
      LiteralText ('"' :: (raw ++ ['"'])) value 0
  | long {raw value : List Char} {newlines : ℕ} (hbody : LongBody raw value newlines) :
      LiteralText ('"' :: '"' :: '"' :: (raw ++ ['"', '"', '"'])) value newlines

section Literal

variable {literal value : List Char} {newlines : ℕ}

theorem LiteralText.piece (hliteral : LiteralText literal value newlines)
    {suffix rest : List Char} (hopen : (suffix ++ rest).head? ≠ some '"')
    (hsuffix : ∀ c ∈ suffix, isSuffixChar c)
    (hrest : ∀ c, rest.head? = some c → isSuffixChar c = false) :
    Piece (literal ++ suffix) rest [.literal (String.ofList value)] newlines := by
  cases hliteral with
  | short hbody =>
      have hpiece := Piece.short hbody (fun _ => hopen) hsuffix hrest
      simpa using hpiece
  | long hbody =>
      have hpiece := Piece.long hbody hsuffix hrest
      simpa using hpiece

/-- The text begins with one literal of this value, and reading goes on with
the rest. -/
def TakesLiteral (line : ℕ) (text value : List Char) (newlines : ℕ) (rest : List Char) : Prop :=
  ∃ c tail, text = c :: tail ∧ ∃ scanned, tokenStep line c tail = .ok scanned ∧
    HandsOn scanned line [.literal (String.ofList value)] newlines rest

theorem LiteralText.takes (hliteral : LiteralText literal value newlines)
    {after : List Char} (hopen : after.head? ≠ some '"') (line : ℕ) :
    TakesLiteral line (literal ++ after) value newlines (dropSuffix after) := by
  have hparts : after.takeWhile isSuffixChar ++ dropSuffix after = after :=
    List.takeWhile_append_dropWhile
  obtain ⟨hsuffix, hrest⟩ := suffix_dropSuffix after
  have hpiece := hliteral.piece (by rwa [hparts]) hsuffix hrest
  have hstep := step_of_piece hpiece line
  rwa [List.append_assoc, hparts] at hstep

theorem TakesLiteral.rest_unique {line : ℕ} {text rest other : List Char}
    (htakes : TakesLiteral line text value newlines rest)
    (hother : TakesLiteral line text value newlines other) : rest = other := by
  rcases htakes with ⟨c, tail, htext, scanned, hstep, hon⟩
  rcases hother with ⟨d, tail', htext', scanned', hstep', hon'⟩
  obtain ⟨rfl, rfl⟩ := List.cons.inj (htext.symm.trans htext')
  obtain rfl := Except.ok.inj (hstep.symm.trans hstep')
  exact hon.rest.symm.trans hon'.rest

/-- What is dropped after a literal ends at the first stop or at the blank
after the suffix. -/
theorem dropSuffix_append_of_blank {suffix rest : List Char}
    (hrest : ∀ c, rest.head? = some c → Text.isBlank c) :
    dropSuffix (suffix ++ rest) = suffix.dropWhile isSuffixChar ++ rest := by
  induction suffix with
  | nil =>
      have hwhole : ([] ++ rest).dropWhile isSuffixChar = rest :=
        Text.dropWhile_append_of_stop (by simp) fun c hhead =>
          isSuffixChar_of_isBlank (hrest c hhead)
      simpa [dropSuffix] using hwhole
  | cons c suffix ih =>
      by_cases hchar : isSuffixChar c
      · simpa [dropSuffix, hchar] using ih
      · simp [dropSuffix, hchar]

theorem dropWhile_append_eq_iff (suffix rest : List Char) :
    suffix.dropWhile isSuffixChar ++ rest = rest ↔ ∀ c ∈ suffix, isSuffixChar c := by
  rw [List.append_left_eq_self, List.dropWhile_eq_nil_iff]

end Literal

/-! ## Sentences with such objects -/

/-- A sentence on a line of its own whose object is a literal with a suffix. -/
def labellingLine (subject verb : Token) (literal suffix : List Char) : String :=
  String.ofList (subject.canonical ++ ' ' :: (verb.canonical ++ ' ' :: (literal ++ suffix ++
    [' ', '.', '\n'])))

theorem spells_labellingLine {subject verb : Token} {literal value suffix rest : List Char}
    {newlines : ℕ} {tokens : List Token} (hsubject : subject.IsWellFormed)
    (hverb : verb.IsWellFormed) (hliteral : LiteralText literal value newlines)
    (hsuffix : IsLiteralSuffix suffix) (hstops : ∀ c ∈ suffix, c ∉ suffixStops)
    (hrest : Spells rest tokens) :
    Spells ((labellingLine subject verb literal suffix).toList ++ rest)
      ([subject, verb, .literal (String.ofList value), .dot] ++ tokens) := by
  have hend : Spells (' ' :: '.' :: '\n' :: rest) (.dot :: tokens) := .space (.endOfLine hrest)
  have hobject : Piece (literal ++ suffix) (' ' :: '.' :: '\n' :: rest)
      [.literal (String.ofList value)] newlines :=
    hliteral.piece (hsuffix.head_ne _) (hsuffix.forall_isSuffixChar_iff.mpr hstops)
      fun c hhead => isSuffixChar_of_isBlank (isBlank_of_head?_space _ c hhead)
  have hwhole := Spells.cons (hsubject.piece (isBlank_of_head?_space _))
    (Spells.space (.cons (hverb.piece (isBlank_of_head?_space _)) (.space (.cons hobject hend))))
  simpa [labellingLine] using hwhole

theorem phrase_labelling {label : String} {subject verb : Token} {id : ElementId}
    (hnames : Names subject id) (hforeign : Expresses label verb .foreign) (value : String) :
    Phrase label [subject, verb, .literal value, .dot] .ofSkipped :=
  .sentence hnames (.last hforeign (.last (.skipped (.inr (.literal value))))) .dot

theorem ofText_labellingLine {label first second : String} {before after : Document}
    {subject verb : Token} {id : ElementId} {literal value suffix : List Char} {newlines : ℕ}
    (hfirst : Document.ofText label first = .ok before)
    (hsecond : Document.ofText label second = .ok after)
    (hsubject : subject.IsWellFormed) (hnames : Names subject id)
    (hverb : verb.IsWellFormed) (hforeign : Expresses label verb .foreign)
    (hliteral : LiteralText literal value newlines) (hsuffix : IsLiteralSuffix suffix)
    (hstops : ∀ c ∈ suffix, c ∉ suffixStops) :
    Document.ofText label (first ++ "\n" ++ (labellingLine subject verb literal suffix ++ second)) =
      .ok (before ++ (.ofSkipped ++ after)) := by
  obtain ⟨tokens, hspells, hphrases⟩ := ofText_eq_ok_iff.mp hsecond
  apply ofText_append_newline hfirst
  rw [ofText_eq_ok_iff]
  refine ⟨_, ?_, .cons (phrase_labelling hnames hforeign (String.ofList value)) hphrases⟩
  rw [String.toList_append]
  exact spells_labellingLine hsubject hverb hliteral hsuffix hstops hspells

/-- A literal is always one token, and reading goes on at the first dot, comma
or semicolon of its suffix; so the suffix belongs to the token if and only if
it has none.  Language tags have none, and a sentence whose object has such a
suffix is skipped as one triple. -/
theorem literal_with_suffix {literal value suffix : List Char} {newlines : ℕ}
    (hliteral : LiteralText literal value newlines) (hsuffix : IsLiteralSuffix suffix) :
    (∀ line rest, (∀ c, rest.head? = some c → Text.isBlank c) →
      TakesLiteral line (literal ++ (suffix ++ rest)) value newlines
        (suffix.dropWhile isSuffixChar ++ rest) ∧
      (TakesLiteral line (literal ++ (suffix ++ rest)) value newlines rest ↔
        ∀ c ∈ suffix, c ∉ suffixStops)) ∧
    (∀ tag, suffix = '@' :: tag → ∀ c ∈ suffix, c ∉ suffixStops) ∧
    ((∀ c ∈ suffix, c ∉ suffixStops) →
      ∀ (label first second : String) (before after : Document) (subject verb : Token)
        (id : ElementId),
        Document.ofText label first = .ok before → Document.ofText label second = .ok after →
        subject.IsWellFormed → Names subject id →
        verb.IsWellFormed → Expresses label verb .foreign →
          Document.ofText label
              (first ++ "\n" ++ (labellingLine subject verb literal suffix ++ second)) =
            .ok (before ++ (.ofSkipped ++ after))) := by
  refine ⟨?_, ?_, ?_⟩
  · intro line rest hrest
    have htakes := hliteral.takes (hsuffix.head_ne rest) line
    rw [dropSuffix_append_of_blank hrest] at htakes
    refine ⟨htakes, ?_⟩
    rw [← hsuffix.forall_isSuffixChar_iff, ← dropWhile_append_eq_iff suffix rest]
    constructor
    · intro hwhole
      exact htakes.rest_unique hwhole
    · intro hsame
      rwa [hsame] at htakes
  · intro tag hlanguage
    rw [← hsuffix.forall_isSuffixChar_iff]
    cases hsuffix with
    | language htag =>
        intro c hmem
        rcases List.mem_cons.mp hmem with rfl | hmem
        · decide
        · exact htag.isSuffixChar c hmem
    | datatypeName => simp at hlanguage
    | datatypeIri => simp at hlanguage
  · intro hstops label first second before after subject verb id hfirst hsecond hsubject hnames
      hverb hforeign
    exact ofText_labellingLine hfirst hsecond hsubject hnames hverb hforeign hliteral hsuffix hstops

/-! ## A literal over two lines -/

def twoLines : List Char := "\"\"\"a. #\n\"b\\\"\"\"\"".toList

def twoLinesValue : List Char := "a. #\n\"b\"".toList

theorem literalText_twoLines : LiteralText twoLines twoLinesValue 1 := by
  have hsecond : LongBody "\"b\\\"".toList "\"b\"".toList 0 :=
    .plain (by decide) (by decide) (by decide)
      (.plain (by decide) (by decide) (by decide) (.escaped '"' .nil))
  have hbody : LongBody ("a. #".toList ++ '\n' :: "\"b\\\"".toList) twoLinesValue 1 :=
    .plain (by decide) (by decide) (by decide)
      (.plain (by decide) (by decide) (by decide)
        (.plain (by decide) (by decide) (by decide)
          (.plain (by decide) (by decide) (by decide) (.newline hsecond))))
  exact .long hbody

theorem literal_with_suffix_twoLines :
    LiteralText twoLines twoLinesValue 1 ∧ IsLiteralSuffix "@en-GB".toList ∧
      TakesLiteral 7 (twoLines ++ "@en-GB .".toList) twoLinesValue 1 " .".toList ∧
      Document.ofText defaultLabel ("ethics:A ethics:cites ethics:B . # \x7b\n" ++
          "ethics:A rdfs:label \"\"\"a. #\n\"b\\\"\"\"\"@en-GB .\n" ++
          "ethics:B ethics:cites ethics:C .") =
        .ok ⟨[], [⟨⟨"A"⟩, .cites, ⟨"B"⟩⟩, ⟨⟨"B"⟩, .cites, ⟨"C"⟩⟩], 0, 1⟩ := by
  have hregion : ∀ subtag ∈ [['G', 'B']], subtag ≠ [] ∧ ∀ c ∈ subtag, c.isAlphanum := by
    intro subtag hmem
    obtain rfl := List.mem_singleton.mp hmem
    exact ⟨by decide, List.all_iff_forall_prop.mp (by decide)⟩
  have hsuffix : IsLiteralSuffix "@en-GB".toList :=
    .language ⟨['e', 'n'], [['G', 'B']], rfl, by decide, List.all_iff_forall_prop.mp (by decide),
      hregion⟩
  obtain ⟨htakes, hlanguage, hskipped⟩ := literal_with_suffix literalText_twoLines hsuffix
  have hstops := hlanguage "en-GB".toList rfl
  have hfirst : Document.ofText defaultLabel "ethics:A ethics:cites ethics:B . # \x7b" =
      .ok (.ofStatement ⟨⟨"A"⟩, .cites, ⟨"B"⟩⟩) := by decide +kernel
  have hsecond : Document.ofText defaultLabel "ethics:B ethics:cites ethics:C ." =
      .ok (.ofStatement ⟨⟨"B"⟩, .cites, ⟨"C"⟩⟩) := by decide +kernel
  have hsubject : IsName "ethics:A".toList :=
    ⟨List.all_iff_forall_prop.mp (by decide), ⟨'e', by decide⟩, by decide, by decide⟩
  have hverb : IsName "rdfs:label".toList :=
    ⟨List.all_iff_forall_prop.mp (by decide), ⟨'r', by decide⟩, by decide, by decide⟩
  have hlabelled : IsLabelled "ethics:A" "ethics" "A" := ⟨rfl, by decide⟩
  have hforeign : IsLabelled "rdfs:label" "rdfs" "label" := ⟨rfl, by decide⟩
  have hwhole := hskipped hstops defaultLabel _ _ _ _ (.name "ethics:A") (.name "rdfs:label") ⟨"A"⟩
    hfirst hsecond hsubject (.name hlabelled) hverb (.foreignLabel hforeign (by decide) (by decide))
  have htext : "ethics:A ethics:cites ethics:B . # \x7b" ++ "\n" ++
      (labellingLine (.name "ethics:A") (.name "rdfs:label") twoLines "@en-GB".toList ++
        "ethics:B ethics:cites ethics:C .") =
      "ethics:A ethics:cites ethics:B . # \x7b\n" ++
        "ethics:A rdfs:label \"\"\"a. #\n\"b\\\"\"\"\"@en-GB .\n" ++
          "ethics:B ethics:cites ethics:C ." := by decide
  have hblank : ∀ c, " .".toList.head? = some c → Text.isBlank c := isBlank_of_head?_space ['.']
  rw [htext] at hwhole
  exact ⟨literalText_twoLines, hsuffix, (htakes 7 " .".toList hblank).2.mpr hstops, hwhole⟩

/-! ## The full address of a datatype -/

def fullDatatype : String := "^^<http://www.w3.org/2000/01/rdf-schema#Literal>"

theorem fullDatatype_breaks_off :
    LiteralText "\"1\"".toList ['1'] 0 ∧ IsLiteralSuffix fullDatatype.toList ∧
      ¬ TakesLiteral 1 ("\"1\"".toList ++ (fullDatatype.toList ++ " .\n".toList)) ['1'] 0
        " .\n".toList ∧
      Document.ofText defaultLabel ("ethics:A rdfs:label \"1\"" ++ fullDatatype ++ " .\n") =
        .error ⟨1, .literalSubject⟩ := by
  have hliteral : LiteralText "\"1\"".toList ['1'] 0 :=
    .short (.plain (by decide) (by decide) (by decide) .nil)
  have hplain : ∀ c ∈ "http://www.w3.org/2000/01/rdf-schema#Literal".toList,
      Text.isBlank c = false ∧ c ≠ '<' ∧ c ≠ '>' := List.all_iff_forall_prop.mp (by decide)
  have hsuffix : IsLiteralSuffix fullDatatype.toList := .datatypeIri hplain
  refine ⟨hliteral, hsuffix, ?_, by decide +kernel⟩
  intro htakes
  have hread := hliteral.takes (hsuffix.head_ne " .\n".toList) 1
  exact absurd (htakes.rest_unique hread) (by decide)

end Treatise.N3
