import Mathlib.Data.List.Forall2
import Treatise.Proofs.N3.Runs

/-!
# The lines of tokens

A token bears the line on which it starts, and the tokenizer finds it by
counting line feeds.  It counts them wherever it reads past them but in one
case: a line feed after a backslash in a literal goes unseen.  So the line of a
token falls short by the escaped line feeds in the literals before it, and it
is exact if there are none.  A reader that refuses a token names the line that
the token bears.
-/

namespace Treatise.N3

/-! ## Escaped line feeds -/

/-- The line feeds that stand after a backslash which is not escaped itself. -/
def escapedLines : List Char → ℕ
  | '\\' :: c :: rest => escapedLines rest + if c = '\n' then 1 else 0
  | _ :: rest => escapedLines rest
  | [] => 0

theorem escapedLines_cons_of_ne {c : Char} (hescape : c ≠ '\\') (rest : List Char) :
    escapedLines (c :: rest) = escapedLines rest := by
  rw [escapedLines]
  intro _ _ hc
  exact absurd hc hescape

theorem escapedLines_eq_zero {text : List Char} (hnone : ¬ ['\\', '\n'] <:+: text) :
    escapedLines text = 0 := by
  fun_induction escapedLines text with
  | case1 c rest ih =>
      have hline : c ≠ '\n' := by
        rintro rfl
        exact hnone ⟨[], rest, rfl⟩
      have hrest : ¬ ['\\', '\n'] <:+: rest := by
        intro hpair
        exact hnone (hpair.trans (List.suffix_append ['\\', c] rest).isInfix)
      rw [ih hrest, if_neg hline]
  | case2 c rest _ ih =>
      apply ih
      intro hpair
      exact hnone (hpair.trans (List.suffix_cons c rest).isInfix)
  | case3 => rfl

theorem not_escaped_of_noLine {text : List Char} (hline : '\n' ∉ text) :
    ¬ ['\\', '\n'] <:+: text := by
  intro hpair
  exact hline (hpair.subset (by simp))

theorem ShortBody.escapedLines_append {raw value : List Char} (hbody : ShortBody raw value)
    (after : List Char) :
    escapedLines (raw ++ after) = raw.count '\n' + escapedLines after := by
  induction hbody with
  | nil => simp
  | escaped c hrest ih =>
      rw [List.cons_append, List.cons_append, escapedLines, ih,
        List.count_cons_of_ne (by decide), List.count_cons]
      simp only [beq_iff_eq]
      omega
  | plain hescape hclose hline hrest ih =>
      rw [List.cons_append, escapedLines_cons_of_ne hescape, ih, List.count_cons_of_ne hline]

theorem LongBody.escapedLines_append {raw value : List Char} {newlines : ℕ}
    (hbody : LongBody raw value newlines) (after : List Char) :
    newlines + escapedLines (raw ++ after) = raw.count '\n' + escapedLines after := by
  induction hbody with
  | nil => simp
  | escaped c hrest ih =>
      rw [List.cons_append, List.cons_append, escapedLines, List.count_cons_of_ne (by decide),
        List.count_cons]
      simp only [beq_iff_eq]
      omega
  | newline hrest ih =>
      rw [List.cons_append, escapedLines_cons_of_ne (by decide), List.count_cons_self]
      omega
  | plain hescape hline hclose hrest ih =>
      rw [List.cons_append, escapedLines_cons_of_ne hescape, List.count_cons_of_ne hline, ih]

/-! ## Line feeds in pieces -/

theorem count_line_of_noLine {front : List Char} (hline : '\n' ∉ front) :
    0 + escapedLines front = front.count '\n' := by
  rw [escapedLines_eq_zero (not_escaped_of_noLine hline), List.count_eq_zero_of_not_mem hline]

theorem noLine_of_isSuffixChar {suffix : List Char} (hsuffix : ∀ c ∈ suffix, isSuffixChar c) :
    '\n' ∉ suffix := by
  intro hmem
  exact absurd (hsuffix '\n' hmem) (by decide)

theorem IsName.noLine {name : List Char} (hname : IsName name) (dots : ℕ) :
    '\n' ∉ name ++ List.replicate dots '.' := by
  intro hmem
  rcases List.mem_append.mp hmem with hchar | hdot
  · exact absurd (hname.chars '\n' hchar) (by decide)
  · exact absurd (List.eq_of_mem_replicate hdot) (by decide)

theorem Piece.newlines_eq {front rest : List Char} {tokens : List Token} {newlines : ℕ}
    (hpiece : Piece front rest tokens newlines) :
    newlines + escapedLines front = front.count '\n' := by
  cases hpiece with
  | newline => rfl
  | blank hblank hline => exact count_line_of_noLine (by simpa using hline.symm)
  | comment hbody => exact count_line_of_noLine (by simpa using hbody)
  | mark hmark => cases hmark <;> rfl
  | implies => rfl
  | iri hclose hline => exact count_line_of_noLine (by simpa using hline)
  | @short raw value suffix _ hbody hopen hsuffix hrest =>
      have hafter := count_line_of_noLine (noLine_of_isSuffixChar hsuffix)
      rw [escapedLines_cons_of_ne (by decide), hbody.escapedLines_append,
        escapedLines_cons_of_ne (by decide), List.count_cons_of_ne (by decide), List.count_append,
        List.count_cons_of_ne (by decide)]
      omega
  | @long raw value suffix _ newlines hbody hsuffix hrest =>
      have hafter := count_line_of_noLine (noLine_of_isSuffixChar hsuffix)
      have hwhole := hbody.escapedLines_append ('"' :: '"' :: '"' :: suffix)
      have hclosing : escapedLines ('"' :: '"' :: '"' :: suffix) = escapedLines suffix := by
        simp only [escapedLines_cons_of_ne (by decide : '"' ≠ '\\')]
      simp only [escapedLines_cons_of_ne (by decide : '"' ≠ '\\'), List.count_append,
        List.count_cons_of_ne (by decide : '"' ≠ '\n')]
      omega
  | directive => rfl
  | word hname dots => exact count_line_of_noLine (hname.noLine dots)

/-! ## Where tokens stand -/

/-- A token with the text before its first character and the number of escaped
line feeds in the literals of that text. -/
structure Standing where
  token : Token
  before : List Char
  escaped : ℕ

/-- The tokens of a piece stand at its start, but a dot at the end of a word
stands after what it ends. -/
inductive Placed (before : List Char) (escaped : ℕ) : List Char → List Token → List Standing → Prop
  | none (front : List Char) : Placed before escaped front [] []
  | whole (front : List Char) (token : Token) :
      Placed before escaped front [token] [⟨token, before, escaped⟩]
  | dot {front : List Char} {tokens : List Token} {standings : List Standing}
      (hplaced : Placed before escaped front tokens standings) (hword : tokens ≠ []) :
      Placed before escaped (front ++ ['.']) (tokens ++ [.dot])
        (standings ++ [⟨.dot, before ++ front, escaped⟩])

/-- The tokens of a text that goes on after another one, where they stand. -/
inductive Stands : List Char → ℕ → List Char → List Standing → Prop
  | nil (before : List Char) (escaped : ℕ) : Stands before escaped [] []
  | cons {before front rest : List Char} {escaped newlines : ℕ} {tokens : List Token}
      {standings others : List Standing} (hpiece : Piece front rest tokens newlines)
      (hplaced : Placed before escaped front tokens standings)
      (hrest : Stands (before ++ front) (escaped + escapedLines front) rest others) :
      Stands before escaped (front ++ rest) (standings ++ others)

/-- The text goes on with a spelling of the token there. -/
def Standing.IsWrittenIn (standing : Standing) (text : List Char) : Prop :=
  ∃ spelling after newlines, text = standing.before ++ (spelling ++ after) ∧
    Piece spelling [] [standing.token] newlines

theorem Standing.IsWrittenIn.append {standing : Standing} {text : List Char}
    (hwritten : standing.IsWrittenIn text) (more : List Char) :
    standing.IsWrittenIn (text ++ more) := by
  rcases hwritten with ⟨spelling, after, newlines, rfl, hpiece⟩
  refine ⟨spelling, after ++ more, newlines, ?_, hpiece⟩
  simp only [List.append_assoc]

/-- The line of a token is one more than the line feeds before it, but for the
escaped ones. -/
structure CountsLines (lexeme : Lexeme) (standing : Standing) : Prop where
  token_eq : lexeme.token = standing.token
  line_eq : lexeme.line + standing.escaped = 1 + standing.before.count '\n'

theorem Piece.alone {front rest : List Char} {tokens : List Token} {newlines : ℕ}
    (hpiece : Piece front rest tokens newlines) : Piece front [] tokens newlines := by
  have hnone : ∀ {P : Char → Prop} (c : Char), ([] : List Char).head? = some c → P c := by
    intro P c hhead
    cases hhead
  cases hpiece with
  | newline => exact .newline []
  | blank hblank hline => exact .blank hblank hline []
  | comment hbody => exact .comment hbody hnone
  | mark hmark => exact .mark hmark []
  | implies => exact .implies []
  | iri hclose hline => exact .iri hclose hline []
  | @short raw value suffix _ hbody hopen hsuffix hrest =>
      refine .short hbody ?_ hsuffix hnone
      intro hraw
      cases suffix with
      | nil => simp
      | cons c suffix => exact hopen hraw
  | long hbody hsuffix hrest => exact .long hbody hsuffix hnone
  | directive => exact .directive hnone
  | word hname dots => exact .word hname dots hnone

section Placing

variable {before : List Char} {escaped line : ℕ}

/-- The tokens of a piece can be placed, each where it is written and with the
line feeds that its line stands for. -/
def CanPlace (before : List Char) (escaped line : ℕ) (front : List Char) (tokens : List Token) :
    Prop :=
  ∃ standings, Placed before escaped front tokens standings ∧
    List.Forall₂ CountsLines (tokens.map fun token => ⟨token, line⟩) standings ∧
    ∀ standing ∈ standings, standing.escaped = escaped ∧ standing.IsWrittenIn (before ++ front)

theorem canPlace_none (front : List Char) : CanPlace before escaped line front [] :=
  ⟨[], .none front, .nil, by simp⟩

theorem canPlace_whole (hline : line + escaped = 1 + before.count '\n') {front rest : List Char}
    {token : Token} {newlines : ℕ} (hpiece : Piece front rest [token] newlines) :
    CanPlace before escaped line front [token] := by
  refine ⟨_, .whole front token, .cons ⟨rfl, hline⟩ .nil, ?_⟩
  intro standing hmem
  obtain rfl := List.mem_singleton.mp hmem
  exact ⟨rfl, front, [], newlines, by simp, hpiece.alone⟩

theorem CanPlace.dot (hline : line + escaped = 1 + before.count '\n') {front : List Char}
    {tokens : List Token} (hplace : CanPlace before escaped line front tokens)
    (hfront : '\n' ∉ front) (hword : tokens ≠ []) :
    CanPlace before escaped line (front ++ ['.']) (tokens ++ [.dot]) := by
  rcases hplace with ⟨standings, hplaced, hcounts, hstandings⟩
  have hdot : CountsLines ⟨.dot, line⟩ ⟨.dot, before ++ front, escaped⟩ := by
    refine ⟨rfl, ?_⟩
    rw [List.count_append, List.count_eq_zero_of_not_mem hfront]
    exact hline
  refine ⟨_, hplaced.dot hword, ?_, ?_⟩
  · rw [List.map_append]
    exact List.rel_append hcounts (.cons hdot .nil)
  · intro standing hmem
    rw [← List.append_assoc]
    rcases List.mem_append.mp hmem with hmem | hmem
    · obtain ⟨hescaped, hwritten⟩ := hstandings standing hmem
      exact ⟨hescaped, hwritten.append ['.']⟩
    · obtain rfl := List.mem_singleton.mp hmem
      exact ⟨rfl, ['.'], [], 0, by simp, .mark .dot []⟩

theorem canPlace_word (hline : line + escaped = 1 + before.count '\n') {name : List Char}
    (hname : IsName name) (dots : ℕ) :
    CanPlace before escaped line (name ++ List.replicate dots '.')
      (.name (String.ofList name) :: List.replicate dots .dot) := by
  induction dots with
  | zero =>
      have hpiece : Piece (name ++ []) [] [.name (String.ofList name)] 0 := .word hname 0 (by simp)
      exact canPlace_whole hline hpiece
  | succ dots ih =>
      have hplace := ih.dot hline (hname.noLine dots) (by simp)
      rwa [List.append_assoc, ← List.replicate_succ', List.cons_append,
        ← List.replicate_succ'] at hplace

theorem Piece.canPlace (hline : line + escaped = 1 + before.count '\n') {front rest : List Char}
    {tokens : List Token} {newlines : ℕ} (hpiece : Piece front rest tokens newlines) :
    CanPlace before escaped line front tokens := by
  cases hpiece with
  | newline => exact canPlace_none _
  | blank => exact canPlace_none _
  | comment => exact canPlace_none _
  | mark hmark => exact canPlace_whole hline (.mark hmark rest)
  | implies => exact canPlace_whole hline (.implies rest)
  | iri hclose hline' => exact canPlace_whole hline (.iri hclose hline' rest)
  | short hbody hopen hsuffix hrest =>
      exact canPlace_whole hline (.short hbody hopen hsuffix hrest)
  | long hbody hsuffix hrest => exact canPlace_whole hline (.long hbody hsuffix hrest)
  | directive hrest => exact canPlace_whole hline (.directive hrest)
  | word hname dots => exact canPlace_word hline hname dots

end Placing

/-! ## Whole texts -/

theorem Splits.exists_stands {line : ℕ} {text : List Char} {lexemes : List Lexeme}
    (hsplits : Splits line text lexemes) {before : List Char} {escaped : ℕ}
    (hline : line + escaped = 1 + before.count '\n') :
    ∃ standings, Stands before escaped text standings ∧
      List.Forall₂ CountsLines lexemes standings ∧
      ∀ standing ∈ standings, standing.IsWrittenIn (before ++ text) ∧
        (¬ ['\\', '\n'] <:+: text → standing.escaped = escaped) := by
  -- The line and the escaped line feeds add up to all line feeds of the text before.
  induction hsplits generalizing before escaped with
  | nil line => exact ⟨[], .nil before escaped, .nil, by simp⟩
  | @cons line newlines front rest tokens lexemes hpiece hrest ih =>
      obtain ⟨standings, hplaced, hcounts, hstandings⟩ := hpiece.canPlace hline
      have hafter : line + newlines + (escaped + escapedLines front) =
          1 + (before ++ front).count '\n' := by
        rw [List.count_append, ← hpiece.newlines_eq]
        omega
      obtain ⟨others, hstands, hothers, hlater⟩ := ih hafter
      refine ⟨standings ++ others, .cons hpiece hplaced hstands,
        List.rel_append hcounts hothers, ?_⟩
      intro standing hmem
      rcases List.mem_append.mp hmem with hmem | hmem
      · obtain ⟨hescaped, hwritten⟩ := hstandings standing hmem
        rw [← List.append_assoc]
        exact ⟨hwritten.append rest, fun _ => hescaped⟩
      · obtain ⟨hwritten, hescaped⟩ := hlater standing hmem
        rw [List.append_assoc] at hwritten
        refine ⟨hwritten, ?_⟩
        intro hnone
        have hfront : ¬ ['\\', '\n'] <:+: front := fun hpair =>
          hnone (hpair.trans (List.prefix_append front rest).isInfix)
        have hrest : ¬ ['\\', '\n'] <:+: rest := fun hpair =>
          hnone (hpair.trans (List.suffix_append front rest).isInfix)
        rw [hescaped hrest, escapedLines_eq_zero hfront, Nat.add_zero]

/-- What the lines of the tokens of a text say, and what those of errors do. -/
structure LineAccount (label text : String) (lexemes : List Lexeme)
    (standings : List Standing) : Prop where
  stands : Stands [] 0 text.toList standings
  written : ∀ standing ∈ standings, standing.IsWrittenIn text.toList
  counts : List.Forall₂ CountsLines lexemes standings
  noneEscaped : ¬ ['\\', '\n'] <:+: text.toList → ∀ standing ∈ standings, standing.escaped = 0
  fails : ∀ error, Document.ofText label text = .error error →
    FailsAt label 1 .betweenItems lexemes error

/-- The line of each token is one more than the line feeds before its first
character, but for the escaped ones in literals; it is exact in a text without
a line feed after a backslash.  A reader that fails at a token names its line. -/
theorem exists_lineAccount (label text : String) {lexemes : List Lexeme}
    (htokens : tokenize text = .ok lexemes) :
    ∃ standings, LineAccount label text lexemes standings := by
  have hline : 1 + 0 = 1 + ([] : List Char).count '\n' := rfl
  obtain ⟨standings, hstands, hcounts, hstandings⟩ :=
    (tokenize_eq_ok_iff.mp htokens).exists_stands hline
  refine ⟨standings, hstands, ?_, hcounts, ?_, ?_⟩
  · intro standing hmem
    exact (hstandings standing hmem).1
  · intro hnone standing hmem
    exact (hstandings standing hmem).2 hnone
  · intro error hread
    exact failsAt_of_ofText htokens hread

/-- A comment and a literal over two lines before a predicate that is not known. -/
def laidOut : String :=
  "# An axiom\nethics:A rdfs:label \"\"\"one\ntwo\"\"\"@en ;\n  ethics:bogus ethics:B ."

theorem lineAccount_laidOut :
    let lexemes := [⟨.name "ethics:A", 2⟩, ⟨.name "rdfs:label", 2⟩, ⟨.literal "one\ntwo", 2⟩,
      ⟨.semicolon, 3⟩, ⟨.name "ethics:bogus", 4⟩, ⟨.name "ethics:B", 4⟩, ⟨.dot, 4⟩]
    tokenize laidOut = .ok lexemes ∧
      (∃ standings, LineAccount defaultLabel laidOut lexemes standings ∧
        ∀ standing ∈ standings, standing.escaped = 0) ∧
      Document.ofText defaultLabel laidOut = .error ⟨4, .unknownPredicate "bogus"⟩ := by
  intro lexemes
  have htokens : tokenize laidOut = .ok lexemes := by decide +kernel
  have hnone : ¬ ['\\', '\n'] <:+: laidOut.toList := by
    intro hpair
    have hescape : '\\' ∈ laidOut.toList := hpair.subset (by simp)
    exact absurd hescape (by decide +kernel)
  obtain ⟨standings, haccount⟩ := exists_lineAccount defaultLabel laidOut htokens
  exact ⟨htokens, ⟨standings, haccount, haccount.noneEscaped hnone⟩, by decide +kernel⟩

/-- The lines after an escaped line feed are all one too low. -/
theorem escaped_line_not_counted :
    let before := "ethics:A rdfs:label \"a\\\nb\" .\nethics:C "
    let earlier := [⟨.name "ethics:A", 1⟩, ⟨.name "rdfs:label", 1⟩, ⟨.literal "a\nb", 1⟩, ⟨.dot, 1⟩,
      ⟨.name "ethics:C", 2⟩]
    before.toList.count '\n' = 2 ∧ tokenize before = .ok earlier ∧
      tokenize (before ++ "ethics:bogus ethics:D .\n") =
        .ok (earlier ++ [⟨.name "ethics:bogus", 2⟩, ⟨.name "ethics:D", 2⟩, ⟨.dot, 2⟩]) ∧
      Document.ofText defaultLabel (before ++ "ethics:bogus ethics:D .\n") =
        .error ⟨2, .unknownPredicate "bogus"⟩ := by
  decide +kernel

end Treatise.N3
