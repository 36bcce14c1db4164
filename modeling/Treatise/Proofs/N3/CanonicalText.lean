import Treatise.Proofs.N3.Occurrence

/-!
# The canonical text of tokens

Every token has a canonical text.  Written with layout between them, canonical
texts are read as the tokens that they were written for, whatever the layout
is: single spaces, lines, comments, or nothing at the ends.  Conversely, all
tokens that are found in any text have a form that can be written, so the
canonical text of what was found has the same tokens again.
-/

namespace Treatise.N3

/-- The form of the tokens that a text may have. -/
def Token.IsWellFormed : Token → Prop
  | .name text => IsName text.toList
  | .iri text => '>' ∉ text.toList ∧ '\n' ∉ text.toList
  | _ => True

/-- A character of a literal, which is escaped if it could end the literal. -/
def literalChar (c : Char) : List Char :=
  if c = '"' ∨ c = '\\' ∨ c = '\n' then ['\\', c] else [c]

def Token.canonical : Token → List Char
  | .directive => ['@', 'p', 'r', 'e', 'f', 'i', 'x']
  | .dot => ['.']
  | .semicolon => [';']
  | .comma => [',']
  | .openBrace => ['{']
  | .closeBrace => ['}']
  | .implies => ['=', '>']
  | .iri text => '<' :: (text.toList ++ ['>'])
  | .name text => text.toList
  | .literal text => '"' :: (text.toList.flatMap literalChar ++ ['"'])

def canonicalText (tokens : List Token) : String :=
  String.ofList ([' '].intercalate (tokens.map Token.canonical))

/-- The text has these tokens, on whatever lines they stand. -/
def HasTokens (text : String) (tokens : List Token) : Prop :=
  ∃ lexemes, tokenize text = .ok lexemes ∧ lexemes.map Lexeme.token = tokens

theorem hasTokens_iff {text : String} {tokens : List Token} :
    HasTokens text tokens ↔ Spells text.toList tokens := by
  rw [spells_iff 1]
  simp only [HasTokens, tokenize_eq_ok_iff]

/-! ## Layout -/

/-- Blanks, and comments up to the ends of their lines. -/
inductive Layout : List Char → Prop
  | nil : Layout []
  | blank {c : Char} {rest : List Char} (hblank : Text.isBlank c) (hrest : Layout rest) :
      Layout (c :: rest)
  | comment {body rest : List Char} (hbody : '\n' ∉ body) (hrest : Layout rest) :
      Layout ('#' :: (body ++ '\n' :: rest))

/-- Canonical texts with layout before, between and after them.  A blank or the
end of the text follows on each, and the last comment may lack its line feed. -/
inductive LaidOut : List Token → List Char → Prop
  | nil {layout : List Char} (hlayout : Layout layout) : LaidOut [] layout
  | lastComment {layout body : List Char} (hlayout : Layout layout) (hbody : '\n' ∉ body) :
      LaidOut [] (layout ++ '#' :: body)
  | cons {layout rest : List Char} {token : Token} {tokens : List Token}
      (hlayout : Layout layout) (hrest : LaidOut tokens rest)
      (hapart : ∀ c, rest.head? = some c → Text.isBlank c) :
      LaidOut (token :: tokens) (layout ++ (token.canonical ++ rest))

theorem Spells.blank {c : Char} {rest : List Char} {tokens : List Token}
    (hblank : Text.isBlank c) (hrest : Spells rest tokens) : Spells (c :: rest) tokens := by
  by_cases hline : c = '\n'
  · subst hline
    exact .cons (.newline rest) hrest
  · exact .cons (.blank hblank hline rest) hrest

theorem Spells.comment {body rest : List Char} {tokens : List Token} (hbody : '\n' ∉ body)
    (hend : ∀ c, rest.head? = some c → c = '\n') (hrest : Spells rest tokens) :
    Spells ('#' :: (body ++ rest)) tokens :=
  .cons (.comment hbody hend) hrest

theorem Layout.spells {layout rest : List Char} {tokens : List Token} (hlayout : Layout layout)
    (hrest : Spells rest tokens) : Spells (layout ++ rest) tokens := by
  induction hlayout with
  | nil => exact hrest
  | blank hblank _ ih => exact ih.blank hblank
  | @comment body layout hbody _ ih =>
      rw [List.cons_append, List.append_assoc]
      apply Spells.comment hbody
      · intro c hhead
        exact (Option.some.inj hhead).symm
      · exact ih.blank (by decide)

theorem LaidOut.blank {c : Char} {text : List Char} {tokens : List Token}
    (hblank : Text.isBlank c) (hlaid : LaidOut tokens text) : LaidOut tokens (c :: text) := by
  cases hlaid with
  | nil hlayout => exact .nil (hlayout.blank hblank)
  | lastComment hlayout hbody => exact .lastComment (hlayout.blank hblank) hbody
  | cons hlayout hrest hapart => exact .cons (hlayout.blank hblank) hrest hapart

/-! ## Canonical texts are read back -/

theorem shortBody_literalChars (text : List Char) :
    ShortBody (text.flatMap literalChar) text := by
  induction text with
  | nil => exact .nil
  | cons c rest ih =>
      rw [List.flatMap_cons]
      by_cases hescaped : c = '"' ∨ c = '\\' ∨ c = '\n'
      · rw [literalChar, if_pos hescaped]
        exact .escaped c ih
      · rw [literalChar, if_neg hescaped]
        push Not at hescaped
        exact .plain hescaped.2.1 hescaped.1 hescaped.2.2 ih

theorem isSuffixChar_of_isBlank {c : Char} (hblank : Text.isBlank c) :
    isSuffixChar c = false := by
  simp [isSuffixChar, hblank]

theorem isNameChar_of_isBlank {c : Char} (hblank : Text.isBlank c) : isNameChar c = false := by
  simp [isNameChar, hblank]

theorem Token.IsWellFormed.piece {token : Token} (hformed : token.IsWellFormed)
    {rest : List Char} (hrest : ∀ c, rest.head? = some c → Text.isBlank c) :
    Piece token.canonical rest [token] 0 := by
  cases token with
  | directive => exact .directive hrest
  | dot => exact .mark .dot rest
  | semicolon => exact .mark .semicolon rest
  | comma => exact .mark .comma rest
  | openBrace => exact .mark .openBrace rest
  | closeBrace => exact .mark .closeBrace rest
  | implies => exact .implies rest
  | iri text =>
      have hpiece := Piece.iri hformed.1 hformed.2 rest
      rwa [String.ofList_toList] at hpiece
  | name text =>
      have hpiece := Piece.word hformed 0 fun c hhead => isNameChar_of_isBlank (hrest c hhead)
      simpa [Token.canonical] using hpiece
  | literal text =>
      have hquote : ([] ++ rest).head? ≠ some '"' := by
        intro hhead
        exact absurd (hrest '"' hhead) (by decide)
      have hpiece := Piece.short (shortBody_literalChars text.toList) (fun _ => hquote)
        (by simp) fun c hhead => isSuffixChar_of_isBlank (hrest c hhead)
      rwa [String.ofList_toList] at hpiece

theorem LaidOut.spells {text : List Char} {tokens : List Token} (hlaid : LaidOut tokens text)
    (hformed : ∀ token ∈ tokens, token.IsWellFormed) : Spells text tokens := by
  induction hlaid with
  | nil hlayout =>
      have hspells := hlayout.spells .nil
      rwa [List.append_nil] at hspells
  | lastComment hlayout hbody =>
      have hspells := hlayout.spells (.comment hbody (by simp) .nil)
      rwa [List.append_nil] at hspells
  | @cons layout rest token tokens hlayout _ hapart ih =>
      have htoken := hformed token List.mem_cons_self
      have hrest := ih fun other hmem => hformed other (List.mem_cons_of_mem token hmem)
      exact hlayout.spells (.cons (htoken.piece hapart) hrest)

theorem isBlank_of_head?_space (rest : List Char) :
    ∀ c, (' ' :: rest).head? = some c → Text.isBlank c := by
  intro c hhead
  obtain rfl := Option.some.inj hhead
  decide

theorem laidOut_canonical (tokens : List Token) :
    LaidOut tokens ([' '].intercalate (tokens.map Token.canonical)) := by
  induction tokens with
  | nil => exact .nil .nil
  | cons token tokens ih =>
      cases tokens with
      | nil =>
          have hlaid : LaidOut [token] ([] ++ (token.canonical ++ [])) :=
            .cons .nil (.nil .nil) (by simp)
          simpa using hlaid
      | cons next others =>
          have hspaced := ih.blank (c := ' ') (by decide)
          have hlaid : LaidOut (token :: next :: others) ([] ++ (token.canonical ++ _)) :=
            .cons .nil hspaced (isBlank_of_head?_space _)
          simpa using hlaid

/-! ## Tokens that are found -/

theorem Spells.isWellFormed {text : List Char} {tokens : List Token}
    (hspells : Spells text tokens) : ∀ token ∈ tokens, token.IsWellFormed := by
  intro token hmem
  cases token with
  | name text => exact hspells.isName hmem
  | iri text => exact ⟨(hspells.brackets hmem).noClose, (hspells.brackets hmem).noLine⟩
  | _ => trivial

/-- The tokens of any text are well formed; well-formed tokens are the tokens
of their canonical text, and of every text that lays them out; so a text and
the canonical text of its tokens have the same tokens. -/
theorem canonicalText_inverted :
    (∀ text tokens, HasTokens text tokens →
      (∀ token ∈ tokens, token.IsWellFormed) ∧ HasTokens (canonicalText tokens) tokens) ∧
    ∀ tokens : List Token, (∀ token ∈ tokens, token.IsWellFormed) →
      HasTokens (canonicalText tokens) tokens ∧
        ∀ text : String, LaidOut tokens text.toList → HasTokens text tokens := by
  have hlaidOut : ∀ tokens : List Token, (∀ token ∈ tokens, token.IsWellFormed) →
      ∀ text : String, LaidOut tokens text.toList → HasTokens text tokens := by
    intro tokens hformed text hlaid
    exact hasTokens_iff.mpr (hlaid.spells hformed)
  have hcanonical : ∀ tokens : List Token, (∀ token ∈ tokens, token.IsWellFormed) →
      HasTokens (canonicalText tokens) tokens := by
    intro tokens hformed
    apply hlaidOut tokens hformed
    rw [canonicalText, String.toList_ofList]
    exact laidOut_canonical tokens
  constructor
  · intro text tokens hfound
    have hformed := (hasTokens_iff.mp hfound).isWellFormed
    exact ⟨hformed, hcanonical tokens hformed⟩
  · intro tokens hformed
    exact ⟨hcanonical tokens hformed, hlaidOut tokens hformed⟩

/-! ## Tokens that look like others -/

def misleadingTokens : List Token :=
  [.name "a:b.c#=>@", .dot, .dot, .iri "ethics# \"\x7b", .implies, .literal "say \"#\x7d\\\n.",
    .literal "", .name ">", .semicolon]

def misleadingText : String :=
  "a:b.c#=>@..<ethics# \"\x7b>=># => ;\n\"say \\\"#\x7d\\\\\\\n.\"@en \"\"\"\"\"\"^^x:y\n>;#"

theorem canonicalText_misleading :
    HasTokens misleadingText misleadingTokens ∧
      (∀ token ∈ misleadingTokens, token.IsWellFormed) ∧
      canonicalText misleadingTokens =
        "a:b.c#=>@ . . <ethics# \"\x7b> => \"say \\\"#\x7d\\\\\\\n.\" \"\" > ;" ∧
      HasTokens (canonicalText misleadingTokens) misleadingTokens ∧
      LaidOut [.literal "\"", .dot] "# => ;\n\"\\\"\" .".toList ∧
      HasTokens "# => ;\n\"\\\"\" ." [.literal "\"", .dot] := by
  have hfound : HasTokens misleadingText misleadingTokens :=
    ⟨misleadingTokens.zipWith Lexeme.mk [1, 1, 1, 1, 1, 2, 2, 3, 3], by decide +kernel, rfl⟩
  obtain ⟨hformed, hcanonical⟩ := canonicalText_inverted.1 _ _ hfound
  have hlaid : LaidOut [.literal "\"", .dot] "# => ;\n\"\\\"\" .".toList := by
    have hdot : LaidOut [.dot] [' ', '.'] :=
      .cons (.blank (by decide) .nil) (.nil .nil) (by simp)
    have hbody : '\n' ∉ " => ;".toList := by decide
    have hcomment : Layout "# => ;\n".toList := .comment hbody .nil
    exact .cons hcomment hdot (isBlank_of_head?_space ['.'])
  have hpair : ∀ token ∈ [Token.literal "\"", .dot], token.IsWellFormed := by
    intro token hmem
    rcases List.mem_pair.mp hmem with rfl | rfl <;> trivial
  refine ⟨hfound, hformed, by decide +kernel, hcanonical, hlaid, ?_⟩
  exact (canonicalText_inverted.2 _ hpair).2 _ hlaid

end Treatise.N3
