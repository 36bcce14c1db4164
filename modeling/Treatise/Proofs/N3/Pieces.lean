import Treatise.N3.Tokenize
import Treatise.Proofs.Text.Cut

/-!
# The pieces of a fact file

The tokenizer takes a text apart into pieces.  `Piece` says once what the
pieces look like, which tokens they hold and what may follow them, and a
text splits into tokens when it is a succession of pieces.  The tokenizer
finds every such succession and nothing else.
-/

namespace Treatise.N3

/-! ## Literals -/

/-- The raw text of a short literal between its marks, and its value. -/
inductive ShortBody : List Char → List Char → Prop
  | nil : ShortBody [] []
  | escaped {raw value : List Char} (c : Char) (hrest : ShortBody raw value) :
      ShortBody ('\\' :: c :: raw) (c :: value)
  | plain {c : Char} {raw value : List Char} (hescape : c ≠ '\\') (hclose : c ≠ '"')
      (hline : c ≠ '\n') (hrest : ShortBody raw value) : ShortBody (c :: raw) (c :: value)

/-- The raw text of a long literal between its marks, its value and the line
feeds in it that are not escaped. -/
inductive LongBody : List Char → List Char → ℕ → Prop
  | nil : LongBody [] [] 0
  | escaped {raw value : List Char} {newlines : ℕ} (c : Char)
      (hrest : LongBody raw value newlines) :
      LongBody ('\\' :: c :: raw) (c :: value) newlines
  | newline {raw value : List Char} {newlines : ℕ} (hrest : LongBody raw value newlines) :
      LongBody ('\n' :: raw) ('\n' :: value) (newlines + 1)
  | plain {c : Char} {raw value : List Char} {newlines : ℕ} (hescape : c ≠ '\\')
      (hline : c ≠ '\n')
      (hclose : c = '"' → ¬ ['"', '"'] <+: raw ++ ['"', '"', '"'])
      (hrest : LongBody raw value newlines) : LongBody (c :: raw) (c :: value) newlines

theorem map_cons_eq_ok_iff {outcome : Except Fault LiteralBody} {c : Char}
    {body : LiteralBody} :
    outcome.map (LiteralBody.cons c) = .ok body ↔
      ∃ value, body.value = c :: value ∧
        outcome = .ok { body with value := value } := by
  obtain ⟨whole, newlines, rest⟩ := body
  change LiteralBody.cons c <$> outcome = .ok _ ↔ _
  rw [Text.map_eq_ok_iff]
  constructor
  · intro hmap
    obtain ⟨⟨value, _, _⟩, houtcome, hbody⟩ := hmap
    simp only [LiteralBody.cons, LiteralBody.mk.injEq] at hbody
    obtain ⟨rfl, rfl, rfl⟩ := hbody
    exact ⟨value, rfl, houtcome⟩
  · intro hmap
    obtain ⟨value, rfl, houtcome⟩ := hmap
    exact ⟨_, houtcome, rfl⟩

theorem short_of_shortBody {raw value : List Char} (hbody : ShortBody raw value)
    (rest : List Char) : LiteralBody.short (raw ++ '"' :: rest) = .ok ⟨value, 0, rest⟩ := by
  induction hbody with
  | nil => simp [LiteralBody.short]
  | escaped c hrest ih =>
      rw [List.cons_append, List.cons_append, LiteralBody.short, ih]
      rfl
  | plain hescape hclose hline hrest ih =>
      rw [List.cons_append, LiteralBody.short, ih]
      · rfl
      · intro _ _ hc
        exact absurd hc hescape
      · exact hclose
      · exact hline

theorem shortBody_of_short {text : List Char} {body : LiteralBody}
    (hshort : LiteralBody.short text = .ok body) :
    ∃ raw, text = raw ++ '"' :: body.rest ∧ ShortBody raw body.value ∧ body.newlines = 0 := by
  fun_induction LiteralBody.short text generalizing body with
  | case1 => simp at hshort
  | case2 c rest ih =>
      obtain ⟨value, hvalue, hrest⟩ := map_cons_eq_ok_iff.mp hshort
      obtain ⟨raw, rfl, hraw, hnewlines⟩ := ih hrest
      refine ⟨'\\' :: c :: raw, rfl, ?_, hnewlines⟩
      rw [hvalue]
      exact .escaped c hraw
  | case3 rest =>
      cases hshort
      exact ⟨[], rfl, .nil, rfl⟩
  | case4 => simp at hshort
  | case5 c rest hescape hclose hline ih =>
      obtain ⟨value, hvalue, hrest⟩ := map_cons_eq_ok_iff.mp hshort
      obtain ⟨raw, rfl, hraw, hnewlines⟩ := ih hrest
      refine ⟨c :: raw, rfl, ?_, hnewlines⟩
      rw [hvalue]
      refine .plain ?_ hclose hline hraw
      intro hc
      cases raw with
      | nil => exact hescape '"' body.rest hc rfl
      | cons first others => exact hescape first (others ++ '"' :: body.rest) hc rfl

theorem long_of_longBody {raw value : List Char} {newlines : ℕ}
    (hbody : LongBody raw value newlines) (rest : List Char) :
    LiteralBody.long (raw ++ '"' :: '"' :: '"' :: rest) = .ok ⟨value, newlines, rest⟩ := by
  induction hbody with
  | nil => simp [LiteralBody.long]
  | escaped c hrest ih =>
      rw [List.cons_append, List.cons_append, LiteralBody.long, ih]
      rfl
  | newline hrest ih =>
      rw [List.cons_append, LiteralBody.long, ih]
      rfl
  | @plain c raw value newlines hescape hline hclose hrest ih =>
      rw [List.cons_append, LiteralBody.long, ih]
      · rfl
      · intro _ _ hc
        exact absurd hc hescape
      · intro after hc hmarks
        have hwhole : ['"', '"'] <+: (raw ++ ['"', '"', '"']) ++ rest := by
          rw [List.append_assoc]
          exact ⟨after, hmarks.symm⟩
        have hlength : ['"', '"'].length ≤ (raw ++ ['"', '"', '"']).length := by
          simp
        exact hclose hc
          (List.prefix_of_prefix_length_le hwhole (List.prefix_append _ rest) hlength)
      · exact hline

theorem longBody_of_long {text : List Char} {body : LiteralBody}
    (hlong : LiteralBody.long text = .ok body) :
    ∃ raw, text = raw ++ '"' :: '"' :: '"' :: body.rest ∧
      LongBody raw body.value body.newlines := by
  fun_induction LiteralBody.long text generalizing body with
  | case1 => simp at hlong
  | case2 c rest ih =>
      obtain ⟨value, hvalue, hrest⟩ := map_cons_eq_ok_iff.mp hlong
      obtain ⟨raw, rfl, hraw⟩ := ih hrest
      refine ⟨'\\' :: c :: raw, rfl, ?_⟩
      rw [hvalue]
      exact .escaped c hraw
  | case3 rest =>
      cases hlong
      exact ⟨[], rfl, .nil⟩
  | case4 rest ih =>
      obtain ⟨inner, hinner, rfl⟩ := Text.map_eq_ok_iff.mp hlong
      obtain ⟨raw, rfl, hraw⟩ := ih hinner
      exact ⟨'\n' :: raw, rfl, .newline hraw⟩
  | case5 c rest hescape hclose hline ih =>
      obtain ⟨value, hvalue, hrest⟩ := map_cons_eq_ok_iff.mp hlong
      obtain ⟨raw, rfl, hraw⟩ := ih hrest
      refine ⟨c :: raw, rfl, ?_⟩
      rw [hvalue]
      refine .plain ?_ hline ?_ hraw
      · intro hc
        cases raw with
        | nil => exact hescape '"' _ hc rfl
        | cons first others => exact hescape first _ hc rfl
      · intro hc hmarks
        obtain ⟨after, hafter⟩ := hmarks
        apply hclose (after ++ body.rest) hc
        have hmarked := congrArg (· ++ body.rest) hafter
        simpa using hmarked.symm

/-! ## Addresses and names -/

theorem iriBody_eq_ok_iff {text iri rest : List Char} :
    iriBody text = .ok (iri, rest) ↔
      text = iri ++ '>' :: rest ∧ '>' ∉ iri ∧ '\n' ∉ iri := by
  constructor
  · intro hbody
    fun_induction iriBody text generalizing iri with
    | case1 => simp at hbody
    | case2 remaining =>
        cases hbody
        simp
    | case3 => simp at hbody
    | case4 c remaining hclose hline ih =>
        obtain ⟨⟨inner, after⟩, hinner, hparts⟩ := Text.map_eq_ok_iff.mp hbody
        cases hparts
        obtain ⟨rfl, hnoClose, hnoLine⟩ := ih hinner
        refine ⟨rfl, ?_, ?_⟩
        · simpa [eq_comm] using ⟨hclose, hnoClose⟩
        · simpa [eq_comm] using ⟨hline, hnoLine⟩
  · intro hparts
    obtain ⟨rfl, hclose, hline⟩ := hparts
    induction iri with
    | nil => simp [iriBody]
    | cons c iri ih =>
        rw [List.mem_cons, not_or] at hclose hline
        rw [List.cons_append, iriBody, ih hclose.2 hline.2]
        · rfl
        · exact fun hc => hclose.1 hc.symm
        · exact fun hc => hline.1 hc.symm

theorem isBlank_eq_false_of_isNameChar {c : Char} (hchar : isNameChar c) :
    Text.isBlank c = false := by
  simp only [isNameChar, Bool.and_eq_true, Bool.not_eq_true'] at hchar
  exact hchar.1.1.1.1.1.1

/-- The texts of name tokens. -/
structure IsName (name : List Char) : Prop where
  chars : ∀ c ∈ name, isNameChar c
  first : ∃ c, name.head? = some c ∧ c ≠ '.' ∧ c ≠ '#' ∧ c ≠ '@'
  noArrow : ¬ ['=', '>'] <+: name
  last : name.getLast? ≠ some '.'

theorem tokensOfWord_append {name : List Char} (hlast : name.getLast? ≠ some '.')
    (dots : ℕ) :
    tokensOfWord (name ++ List.replicate dots '.') =
      .name (String.ofList name) :: List.replicate dots .dot := by
  have hdots : ∀ c ∈ List.replicate dots '.', (c == '.') = true := by
    intro c hmem
    simpa using List.eq_of_mem_replicate hmem
  have hstop : ∀ c, name.reverse.head? = some c → (c == '.') = false := by
    intro c hhead
    rw [List.head?_reverse] at hhead
    simp only [beq_eq_false_iff_ne]
    intro hc
    exact hlast (hc ▸ hhead)
  rw [tokensOfWord, List.reverse_append, List.reverse_replicate,
    Text.dropWhile_append_of_stop hdots hstop, Text.takeWhile_append_of_stop hdots hstop]
  simp

/-! ## Pieces -/

/-- Characters that are tokens by themselves. -/
inductive Mark : Char → Token → Prop
  | dot : Mark '.' .dot
  | semicolon : Mark ';' .semicolon
  | comma : Mark ',' .comma
  | openBrace : Mark '{' .openBrace
  | closeBrace : Mark '}' .closeBrace

/-- A text that may stand before another one as one piece, the tokens in it
and the number of lines that it ends. -/
inductive Piece : List Char → List Char → List Token → ℕ → Prop
  | newline (rest : List Char) : Piece ['\n'] rest [] 1
  | blank {c : Char} (hblank : Text.isBlank c) (hline : c ≠ '\n') (rest : List Char) :
      Piece [c] rest [] 0
  | comment {body rest : List Char} (hbody : '\n' ∉ body)
      (hrest : ∀ c, rest.head? = some c → c = '\n') : Piece ('#' :: body) rest [] 0
  | mark {c : Char} {token : Token} (hmark : Mark c token) (rest : List Char) :
      Piece [c] rest [token] 0
  | implies (rest : List Char) : Piece ['=', '>'] rest [.implies] 0
  | iri {iri : List Char} (hclose : '>' ∉ iri) (hline : '\n' ∉ iri) (rest : List Char) :
      Piece ('<' :: (iri ++ ['>'])) rest [.iri (String.ofList iri)] 0
  | short {raw value suffix rest : List Char} (hbody : ShortBody raw value)
      (hopen : raw = [] → (suffix ++ rest).head? ≠ some '"')
      (hsuffix : ∀ c ∈ suffix, isSuffixChar c)
      (hrest : ∀ c, rest.head? = some c → isSuffixChar c = false) :
      Piece ('"' :: (raw ++ '"' :: suffix)) rest [.literal (String.ofList value)] 0
  | long {raw value suffix rest : List Char} {newlines : ℕ}
      (hbody : LongBody raw value newlines) (hsuffix : ∀ c ∈ suffix, isSuffixChar c)
      (hrest : ∀ c, rest.head? = some c → isSuffixChar c = false) :
      Piece ('"' :: '"' :: '"' :: (raw ++ '"' :: '"' :: '"' :: suffix)) rest
        [.literal (String.ofList value)] newlines
  | directive {rest : List Char} (hrest : ∀ c, rest.head? = some c → Text.isBlank c) :
      Piece ['@', 'p', 'r', 'e', 'f', 'i', 'x'] rest [.directive] 0
  | word {name rest : List Char} (hname : IsName name) (dots : ℕ)
      (hrest : ∀ c, rest.head? = some c → isNameChar c = false) :
      Piece (name ++ List.replicate dots '.') rest
        (.name (String.ofList name) :: List.replicate dots .dot) 0

/-- What a step of the tokenizer hands on. -/
structure HandsOn {input : List Char} (scanned : Step input) (line : ℕ)
    (tokens : List Token) (newlines : ℕ) (rest : List Char) : Prop where
  items : scanned.items = tokens.map fun token => ⟨token, line⟩
  state : scanned.state = line + newlines
  rest : scanned.rest = rest

/-- The step of a word, which is the only one that no character announces. -/
theorem tokenStep_word {c : Char} {rest : List Char} (hchar : isNameChar c)
    (hfirst : c ≠ '.' ∧ c ≠ '#' ∧ c ≠ '@') (harrow : c = '=' → rest.head? ≠ some '>')
    (line : ℕ) :
    ∃ scanned, tokenStep line c rest = .ok scanned ∧
      HandsOn scanned line (tokensOfWord (c :: rest.takeWhile isNameChar)) 0
        (rest.dropWhile isNameChar) := by
  obtain ⟨hdot, hcomment, hdirective⟩ := hfirst
  have hblank := isBlank_eq_false_of_isNameChar hchar
  unfold tokenStep
  split
  case h_2 => exact absurd rfl hcomment
  case h_3 => exact absurd rfl hdot
  case h_8 => exact absurd rfl (harrow rfl)
  case h_12 => exact absurd rfl hdirective
  case h_13 =>
    rw [if_neg (by simp [hblank])]
    exact ⟨_, rfl, rfl, rfl, rfl⟩
  -- All others stand for characters that no name has.
  all_goals exact absurd hchar (by decide)

theorem tokenStep_blank {c : Char} (hblank : Text.isBlank c) (hline : c ≠ '\n') (line : ℕ)
    (rest : List Char) :
    ∃ scanned, tokenStep line c rest = .ok scanned ∧ HandsOn scanned line [] 0 rest :=
  ⟨_, tokenStep_of_isBlank hblank hline line rest, rfl, rfl, rfl⟩

theorem tokenStep_iri {tail iri rest : List Char} (hbody : iriBody tail = .ok (iri, rest))
    (line : ℕ) :
    ∃ scanned, tokenStep line '<' tail = .ok scanned ∧
      HandsOn scanned line [.iri (String.ofList iri)] 0 rest := by
  unfold tokenStep
  simp only
  split
  next hfault => simp [hbody] at hfault
  next hfound =>
    obtain ⟨rfl, rfl⟩ := Prod.mk.inj (Except.ok.inj (hbody.symm.trans hfound))
    exact ⟨_, rfl, rfl, rfl, rfl⟩

theorem tokenStep_long {tail : List Char} {body : LiteralBody}
    (hbody : LiteralBody.long tail = .ok body) (line : ℕ) :
    ∃ scanned, tokenStep line '"' ('"' :: '"' :: tail) = .ok scanned ∧
      HandsOn scanned line [.literal (String.ofList body.value)] body.newlines
        (dropSuffix body.rest) := by
  unfold tokenStep
  simp only
  split
  next hfault => simp [hbody] at hfault
  next hfound =>
    obtain rfl := Except.ok.inj (hbody.symm.trans hfound)
    exact ⟨_, rfl, rfl, rfl, rfl⟩

theorem tokenStep_short {tail : List Char} {body : LiteralBody}
    (hbody : LiteralBody.short tail = .ok body) (hopen : ¬ ['"', '"'] <+: tail) (line : ℕ) :
    ∃ scanned, tokenStep line '"' tail = .ok scanned ∧
      HandsOn scanned line [.literal (String.ofList body.value)] body.newlines
        (dropSuffix body.rest) := by
  generalize hmark : '"' = mark
  unfold tokenStep
  split
  case h_10 after => exact absurd ⟨after, rfl⟩ hopen
  case h_11 =>
    split
    next hfault => simp [hbody] at hfault
    next hfound =>
      obtain rfl := Except.ok.inj (hbody.symm.trans hfound)
      exact ⟨_, rfl, rfl, rfl, rfl⟩
  case h_13 => exact absurd hmark.symm ‹¬ mark = '"'›
  all_goals exact absurd hmark (by decide)

theorem dropSuffix_append {suffix rest : List Char} (hsuffix : ∀ c ∈ suffix, isSuffixChar c)
    (hrest : ∀ c, rest.head? = some c → isSuffixChar c = false) :
    dropSuffix (suffix ++ rest) = rest :=
  Text.dropWhile_append_of_stop hsuffix hrest

theorem ShortBody.not_opens_long {raw value after : List Char} (hbody : ShortBody raw value)
    (hopen : raw = [] → after.head? ≠ some '"') : ¬ ['"', '"'] <+: raw ++ '"' :: after := by
  intro hmarks
  cases hbody with
  | nil =>
      obtain ⟨others, hothers⟩ := hmarks
      apply hopen rfl
      rw [← (List.cons.inj hothers).2]
      rfl
  | escaped c hrest => simp at hmarks
  | plain hescape hclose hline hrest =>
      rw [List.cons_append, List.cons_prefix_cons] at hmarks
      exact hclose hmarks.1.symm

theorem tokenStep_directive {rest : List Char}
    (hrest : ∀ c, rest.head? = some c → Text.isBlank c) (line : ℕ) :
    ∃ scanned, tokenStep line '@' (['p', 'r', 'e', 'f', 'i', 'x'] ++ rest) = .ok scanned ∧
      HandsOn scanned line [.directive] 0 rest := by
  have hword : ∀ c ∈ ['p', 'r', 'e', 'f', 'i', 'x'], (!Text.isBlank c) = true :=
    List.all_eq_true.mp (by decide)
  have hstop : ∀ c, rest.head? = some c → (!Text.isBlank c) = false := by
    intro c hhead
    simpa using hrest c hhead
  unfold tokenStep
  simp only
  rw [if_pos (Text.takeWhile_append_of_stop hword hstop)]
  exact ⟨_, rfl, rfl, rfl, Text.dropWhile_append_of_stop hword hstop⟩

theorem IsName.no_arrow {first : Char} {others rest : List Char}
    (hname : IsName (first :: others)) (dots : ℕ)
    (hrest : ∀ c, rest.head? = some c → isNameChar c = false) (hequals : first = '=') :
    ((others ++ List.replicate dots '.') ++ rest).head? ≠ some '>' := by
  intro hhead
  cases others with
  | cons second others =>
      obtain rfl := Option.some.inj hhead
      exact hname.noArrow ⟨others, by rw [hequals]; rfl⟩
  | nil =>
      cases dots with
      | zero => exact absurd (hrest '>' hhead) (by decide)
      | succ dots => exact absurd (Option.some.inj hhead) (by decide)

theorem step_of_word {name rest : List Char} (hname : IsName name) (dots : ℕ)
    (hrest : ∀ c, rest.head? = some c → isNameChar c = false) (line : ℕ) :
    ∃ c tail, name ++ List.replicate dots '.' ++ rest = c :: tail ∧
      ∃ scanned, tokenStep line c tail = .ok scanned ∧
        HandsOn scanned line
          (.name (String.ofList name) :: List.replicate dots .dot) 0 rest := by
  obtain ⟨first, hhead, hfirst⟩ := hname.first
  obtain ⟨others, rfl⟩ := List.head?_eq_some_iff.mp hhead
  have hchars : ∀ c ∈ others ++ List.replicate dots '.', isNameChar c := by
    intro c hmem
    rcases List.mem_append.mp hmem with hother | hdot
    · exact hname.chars c (List.mem_cons_of_mem first hother)
    · rw [List.eq_of_mem_replicate hdot]
      decide
  have hword : tokensOfWord (first :: (others ++ List.replicate dots '.')) =
      .name (String.ofList (first :: others)) :: List.replicate dots .dot :=
    tokensOfWord_append hname.last dots
  have hstep := tokenStep_word (hname.chars first List.mem_cons_self) hfirst
    (hname.no_arrow dots hrest) line
  rw [Text.takeWhile_append_of_stop hchars hrest, hword,
    Text.dropWhile_append_of_stop hchars hrest] at hstep
  exact ⟨first, _, rfl, hstep⟩

theorem step_of_piece {front rest : List Char} {tokens : List Token} {newlines : ℕ}
    (hpiece : Piece front rest tokens newlines) (line : ℕ) :
    ∃ c tail, front ++ rest = c :: tail ∧
      ∃ scanned, tokenStep line c tail = .ok scanned ∧
        HandsOn scanned line tokens newlines rest := by
  cases hpiece with
  | newline => exact ⟨_, _, rfl, _, rfl, rfl, rfl, rfl⟩
  | blank hblank hline => exact ⟨_, _, rfl, tokenStep_blank hblank hline line rest⟩
  | @comment body _ hbody hrest =>
      refine ⟨'#', body ++ rest, rfl, _, rfl, rfl, rfl, ?_⟩
      apply Text.dropWhile_append_of_stop
      · intro c hmem
        have hc : c ≠ '\n' := fun hc => hbody (hc ▸ hmem)
        simpa using hc
      · intro c hhead
        simpa using hrest c hhead
  | mark hmark => cases hmark <;> exact ⟨_, _, rfl, _, rfl, rfl, rfl, rfl⟩
  | implies => exact ⟨_, _, rfl, _, rfl, rfl, rfl, rfl⟩
  | @iri iri hclose hline =>
      have hbody : iriBody (iri ++ '>' :: rest) = .ok (iri, rest) :=
        iriBody_eq_ok_iff.mpr ⟨rfl, hclose, hline⟩
      refine ⟨'<', iri ++ '>' :: rest, ?_, tokenStep_iri hbody line⟩
      simp
  | @short raw value suffix _ hbody hopen hsuffix hrest =>
      have hshort := short_of_shortBody hbody (suffix ++ rest)
      have hstep := tokenStep_short hshort (hbody.not_opens_long hopen) line
      simp only [dropSuffix_append hsuffix hrest] at hstep
      refine ⟨'"', raw ++ '"' :: (suffix ++ rest), ?_, hstep⟩
      simp
  | @long raw value suffix _ newlines hbody hsuffix hrest =>
      have hlong := long_of_longBody hbody (suffix ++ rest)
      have hstep := tokenStep_long hlong line
      simp only [dropSuffix_append hsuffix hrest] at hstep
      refine ⟨'"', '"' :: '"' :: (raw ++ '"' :: '"' :: '"' :: (suffix ++ rest)), ?_, hstep⟩
      simp
  | directive hrest => exact ⟨'@', _, rfl, tokenStep_directive hrest line⟩
  | word hname dots hrest => exact step_of_word hname dots hrest line

theorem suffix_dropSuffix (text : List Char) :
    (∀ c ∈ text.takeWhile isSuffixChar, isSuffixChar c) ∧
      ∀ c, (dropSuffix text).head? = some c → isSuffixChar c = false :=
  ⟨fun _ hmem => List.mem_takeWhile_imp hmem, fun _ hhead => Text.head?_dropWhile_eq_false hhead⟩

theorem exists_isName {c : Char} {rest : List Char} (hchar : isNameChar c)
    (hfirst : c ≠ '.' ∧ c ≠ '#' ∧ c ≠ '@') (harrow : c = '=' → rest.head? ≠ some '>') :
    ∃ name dots, c :: rest.takeWhile isNameChar = name ++ List.replicate dots '.' ∧
      IsName name := by
  obtain ⟨dots, hword⟩ := Text.exists_eq_append_replicate '.' (c :: rest.takeWhile isNameChar)
  have hlast := Text.getLast?_reverse_dropWhile_ne '.' (c :: rest.takeWhile isNameChar)
  generalize ((c :: rest.takeWhile isNameChar).reverse.dropWhile (· == '.')).reverse = name
    at hword hlast
  refine ⟨name, dots, hword, ?_, ?_, ?_, hlast⟩
  · intro d hmem
    have hword : d ∈ c :: rest.takeWhile isNameChar := by
      rw [hword]
      exact List.mem_append_left _ hmem
    rcases List.mem_cons.mp hword with rfl | hrest
    · exact hchar
    · exact List.mem_takeWhile_imp hrest
  · cases name with
    | nil =>
        have hmem : c ∈ List.replicate dots '.' := by
          rw [List.nil_append] at hword
          rw [← hword]
          exact List.mem_cons_self
        exact absurd (List.eq_of_mem_replicate hmem) hfirst.1
    | cons first others =>
        obtain ⟨rfl, hothers⟩ := List.cons.inj hword
        exact ⟨c, rfl, hfirst⟩
  · intro hprefix
    have hwhole : ['=', '>'] <+: c :: rest.takeWhile isNameChar := by
      rw [hword]
      exact hprefix.trans (List.prefix_append _ _)
    rw [List.cons_prefix_cons] at hwhole
    obtain ⟨after, hafter⟩ := hwhole.2.trans (List.takeWhile_prefix isNameChar)
    apply harrow hwhole.1.symm
    rw [← hafter]
    rfl

theorem piece_of_iriBody {tail iri rest : List Char}
    (hbody : iriBody tail = .ok (iri, rest)) :
    ∃ front, '<' :: tail = front ++ rest ∧ Piece front rest [.iri (String.ofList iri)] 0 := by
  obtain ⟨rfl, hclose, hline⟩ := iriBody_eq_ok_iff.mp hbody
  refine ⟨'<' :: (iri ++ ['>']), ?_, .iri hclose hline rest⟩
  simp

theorem piece_of_long {tail : List Char} {body : LiteralBody}
    (hlong : LiteralBody.long tail = .ok body) :
    ∃ front, '"' :: '"' :: '"' :: tail = front ++ dropSuffix body.rest ∧
      Piece front (dropSuffix body.rest) [.literal (String.ofList body.value)]
        body.newlines := by
  obtain ⟨raw, rfl, hraw⟩ := longBody_of_long hlong
  obtain ⟨hsuffix, hrest⟩ := suffix_dropSuffix body.rest
  refine ⟨_, ?_, .long hraw hsuffix hrest⟩
  simp [dropSuffix]

theorem piece_of_short {tail : List Char} {body : LiteralBody}
    (hshort : LiteralBody.short tail = .ok body)
    (hopen : ∀ rest, tail = '"' :: '"' :: rest → False) :
    ∃ front, '"' :: tail = front ++ dropSuffix body.rest ∧
      Piece front (dropSuffix body.rest) [.literal (String.ofList body.value)]
        body.newlines := by
  obtain ⟨raw, rfl, hraw, hnewlines⟩ := shortBody_of_short hshort
  obtain ⟨hsuffix, hrest⟩ := suffix_dropSuffix body.rest
  have hempty : raw = [] →
      (body.rest.takeWhile isSuffixChar ++ dropSuffix body.rest).head? ≠ some '"' := by
    intro hraw hhead
    rw [dropSuffix, List.takeWhile_append_dropWhile] at hhead
    obtain ⟨after, hafter⟩ := List.head?_eq_some_iff.mp hhead
    apply hopen after
    rw [hraw, hafter]
    rfl
  rw [hnewlines]
  refine ⟨_, ?_, .short hraw hempty hsuffix hrest⟩
  simp [dropSuffix]

theorem piece_of_directive {tail : List Char}
    (hword : tail.takeWhile (!Text.isBlank ·) = ['p', 'r', 'e', 'f', 'i', 'x']) :
    ∃ front, '@' :: tail = front ++ tail.dropWhile (!Text.isBlank ·) ∧
      Piece front (tail.dropWhile (!Text.isBlank ·)) [.directive] 0 := by
  refine ⟨'@' :: tail.takeWhile (!Text.isBlank ·), ?_, ?_⟩
  · rw [List.cons_append, List.takeWhile_append_dropWhile]
  · rw [hword]
    apply Piece.directive
    intro c hhead
    simpa using Text.head?_dropWhile_eq_false hhead

theorem piece_of_word {c : Char} {tail : List Char} (hchar : isNameChar c)
    (hfirst : c ≠ '.' ∧ c ≠ '#' ∧ c ≠ '@') (harrow : c = '=' → tail.head? ≠ some '>') :
    ∃ front, c :: tail = front ++ tail.dropWhile isNameChar ∧
      Piece front (tail.dropWhile isNameChar)
        (tokensOfWord (c :: tail.takeWhile isNameChar)) 0 := by
  obtain ⟨name, dots, hword, hname⟩ := exists_isName hchar hfirst harrow
  refine ⟨c :: tail.takeWhile isNameChar, ?_, ?_⟩
  · rw [List.cons_append, List.takeWhile_append_dropWhile]
  · rw [hword, tokensOfWord_append hname.last]
    apply Piece.word hname
    intro c hhead
    exact Text.head?_dropWhile_eq_false hhead

theorem piece_of_comment (tail : List Char) :
    ∃ front, '#' :: tail = front ++ tail.dropWhile (· != '\n') ∧
      Piece front (tail.dropWhile (· != '\n')) [] 0 := by
  refine ⟨'#' :: tail.takeWhile (· != '\n'), ?_, .comment ?_ ?_⟩
  · rw [List.cons_append, List.takeWhile_append_dropWhile]
  · intro hmem
    simpa using List.mem_takeWhile_imp hmem
  · intro c hhead
    simpa using Text.head?_dropWhile_eq_false hhead

theorem piece_of_step {line : ℕ} {c : Char} {tail : List Char} {scanned : Step (c :: tail)}
    (hstep : tokenStep line c tail = .ok scanned) :
    ∃ front tokens newlines, c :: tail = front ++ scanned.rest ∧
      Piece front scanned.rest tokens newlines ∧
      HandsOn scanned line tokens newlines scanned.rest := by
  unfold tokenStep at hstep
  split at hstep
  case h_1 =>
    cases hstep
    exact ⟨['\n'], [], 1, rfl, .newline tail, rfl, rfl, rfl⟩
  case h_2 =>
    cases hstep
    obtain ⟨front, htext, hpiece⟩ := piece_of_comment tail
    exact ⟨front, [], 0, htext, hpiece, rfl, rfl, rfl⟩
  case h_3 =>
    cases hstep
    exact ⟨['.'], [.dot], 0, rfl, .mark .dot tail, rfl, rfl, rfl⟩
  case h_4 =>
    cases hstep
    exact ⟨[';'], [.semicolon], 0, rfl, .mark .semicolon tail, rfl, rfl, rfl⟩
  case h_5 =>
    cases hstep
    exact ⟨[','], [.comma], 0, rfl, .mark .comma tail, rfl, rfl, rfl⟩
  case h_6 =>
    cases hstep
    exact ⟨['{'], [.openBrace], 0, rfl, .mark .openBrace tail, rfl, rfl, rfl⟩
  case h_7 =>
    cases hstep
    exact ⟨['}'], [.closeBrace], 0, rfl, .mark .closeBrace tail, rfl, rfl, rfl⟩
  case h_8 =>
    cases hstep
    exact ⟨['=', '>'], [.implies], 0, rfl, .implies _, rfl, rfl, rfl⟩
  case h_9 =>
    split at hstep
    next => simp at hstep
    next iri remaining hfound =>
      cases hstep
      obtain ⟨front, htext, hpiece⟩ := piece_of_iriBody hfound
      exact ⟨front, [.iri (String.ofList iri)], 0, htext, hpiece, rfl, rfl, rfl⟩
  case h_10 =>
    split at hstep
    next => simp at hstep
    next body hfound =>
      cases hstep
      obtain ⟨front, htext, hpiece⟩ := piece_of_long hfound
      exact ⟨front, [.literal (String.ofList body.value)], body.newlines, htext, hpiece,
        rfl, rfl, rfl⟩
  case h_11 hopen =>
    split at hstep
    next => simp at hstep
    next body hfound =>
      cases hstep
      obtain ⟨front, htext, hpiece⟩ := piece_of_short hfound hopen
      exact ⟨front, [.literal (String.ofList body.value)], body.newlines, htext, hpiece,
        rfl, rfl, rfl⟩
  case h_12 =>
    dsimp only at hstep
    split at hstep
    next hword =>
      cases hstep
      obtain ⟨front, htext, hpiece⟩ := piece_of_directive hword
      exact ⟨front, [.directive], 0, htext, hpiece, rfl, rfl, rfl⟩
    next => simp at hstep
  case h_13 =>
    split at hstep
    next hblank =>
      cases hstep
      exact ⟨[c], [], 0, rfl, .blank hblank ‹¬ c = '\n'› tail, rfl, rfl, rfl⟩
    next hblank =>
      cases hstep
      have hchar : isNameChar c := by
        simp_all [isNameChar]
      have hfirst : c ≠ '.' ∧ c ≠ '#' ∧ c ≠ '@' :=
        ⟨‹¬ c = '.'›, ‹¬ c = '#'›, ‹¬ c = '@'›⟩
      have harrow : c = '=' → tail.head? ≠ some '>' := by
        intro hequals hhead
        obtain ⟨after, hafter⟩ := List.head?_eq_some_iff.mp hhead
        exact ‹∀ rest, c = '=' → tail = '>' :: rest → False› after hequals hafter
      obtain ⟨front, htext, hpiece⟩ := piece_of_word hchar hfirst harrow
      exact ⟨front, _, 0, htext, hpiece, rfl, rfl, rfl⟩

/-! ## Texts -/

/-- A succession of pieces from a line on, with the tokens in it. -/
inductive Splits : ℕ → List Char → List Lexeme → Prop
  | nil (line : ℕ) : Splits line [] []
  | cons {line newlines : ℕ} {front rest : List Char} {tokens : List Token}
      {others : List Lexeme} (hpiece : Piece front rest tokens newlines)
      (hrest : Splits (line + newlines) rest others) :
      Splits line (front ++ rest) ((tokens.map fun token => ⟨token, line⟩) ++ others)

theorem scanAll_of_splits {line : ℕ} {text : List Char} {lexemes : List Lexeme}
    (hsplits : Splits line text lexemes) :
    Text.scanAll tokenStep line text = .ok lexemes := by
  induction hsplits with
  | nil line => exact Text.scanAll_nil tokenStep line
  | @cons line newlines front rest tokens others hpiece hrest ih =>
      obtain ⟨c, tail, htext, scanned, hstep, hon⟩ := step_of_piece hpiece line
      rw [htext, Text.scanAll_cons_eq_ok_iff]
      refine ⟨scanned, others, hstep, ?_, ?_⟩
      · rw [hon.state, hon.rest]
        exact ih
      · rw [hon.items]

theorem splits_of_scanAll {line : ℕ} {text : List Char} {lexemes : List Lexeme}
    (hscan : Text.scanAll tokenStep line text = .ok lexemes) : Splits line text lexemes := by
  induction hlength : text.length using Nat.strong_induction_on
    generalizing line text lexemes with
  | _ length ih =>
      cases text with
      | nil =>
          obtain rfl := Text.scanAll_nil_eq_ok_iff.mp hscan
          exact .nil line
      | cons c tail =>
          obtain ⟨scanned, others, hstep, hothers, rfl⟩ := Text.scanAll_cons_eq_ok_iff.mp hscan
          obtain ⟨front, tokens, newlines, htext, hpiece, hon⟩ := piece_of_step hstep
          have hrest : Splits scanned.state scanned.rest others :=
            ih scanned.rest.length (hlength ▸ scanned.shorter) hothers rfl
          rw [hon.items, htext]
          rw [hon.state] at hrest
          exact .cons hpiece hrest

/-- The tokenizer finds the succession of pieces that a text is. -/
theorem tokenize_eq_ok_iff {text : String} {lexemes : List Lexeme} :
    tokenize text = .ok lexemes ↔ Splits 1 text.toList lexemes :=
  ⟨splits_of_scanAll, scanAll_of_splits⟩

/-- A succession of pieces, whatever its lines. -/
inductive Spells : List Char → List Token → Prop
  | nil : Spells [] []
  | cons {newlines : ℕ} {front rest : List Char} {tokens others : List Token}
      (hpiece : Piece front rest tokens newlines) (hrest : Spells rest others) :
      Spells (front ++ rest) (tokens ++ others)

theorem spells_iff {text : List Char} {tokens : List Token} (line : ℕ) :
    Spells text tokens ↔
      ∃ lexemes, Splits line text lexemes ∧ lexemes.map Lexeme.token = tokens := by
  constructor
  · intro hspells
    induction hspells generalizing line with
    | nil => exact ⟨[], .nil line, rfl⟩
    | @cons newlines front rest tokens others hpiece hrest ih =>
        obtain ⟨lexemes, hsplits, rfl⟩ := ih (line + newlines)
        refine ⟨_, .cons hpiece hsplits, ?_⟩
        simp [Function.comp_def]
  · intro hsplits
    obtain ⟨lexemes, hsplits, rfl⟩ := hsplits
    induction hsplits with
    | nil => exact .nil
    | @cons line newlines front rest tokens others hpiece hrest ih =>
        have hspells := Spells.cons hpiece ih
        simpa [Function.comp_def] using hspells

end Treatise.N3
