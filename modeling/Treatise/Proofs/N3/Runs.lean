import Treatise.Proofs.N3.Reader

/-!
# Runs that stop on the way

The tokenizer and the reader go through a text from left to right.  What they
make of the beginning is settled by the beginning and by the next character,
which ends its last piece.  So a reading may be cut between two pieces: the
beginning leads the reader to a place, and the outcome is what it makes of the
rest from there.  A reading that fails is cut at the token that it fails at.
-/

namespace Treatise.N3

/-! ## The beginning of a text -/

/-- Pieces with more text after them, the lines on which they and the rest of
the text start, and their lexemes. -/
inductive Precedes (rest : List Char) : ℕ → List Char → ℕ → List Lexeme → Prop
  | nil (line : ℕ) : Precedes rest line [] line []
  | cons {line newlines final : ℕ} {front before : List Char} {tokens : List Token}
      {lexemes : List Lexeme} (hpiece : Piece front (before ++ rest) tokens newlines)
      (hrest : Precedes rest (line + newlines) before final lexemes) :
      Precedes rest line (front ++ before) final
        ((tokens.map fun token => ⟨token, line⟩) ++ lexemes)

theorem Precedes.concat {line middle newlines : ℕ} {before front rest : List Char}
    {lexemes : List Lexeme} {tokens : List Token}
    (hbefore : Precedes (front ++ rest) line before middle lexemes)
    (hpiece : Piece front rest tokens newlines) :
    Precedes rest line (before ++ front) (middle + newlines)
      (lexemes ++ tokens.map fun token => ⟨token, middle⟩) := by
  induction hbefore with
  | nil line =>
      have hlast : Precedes rest line (front ++ []) (line + newlines)
          ((tokens.map fun token => ⟨token, line⟩) ++ []) := .cons hpiece (.nil _)
      simpa using hlast
  | cons hfirst hrest ih =>
      rw [List.append_assoc, List.append_assoc]
      refine .cons ?_ ih
      rwa [List.append_assoc]

theorem Precedes.scanAll_eq {line final : ℕ} {before rest : List Char} {lexemes : List Lexeme}
    (hbefore : Precedes rest line before final lexemes) :
    Text.scanAll tokenStep line (before ++ rest) =
      (lexemes ++ ·) <$> Text.scanAll tokenStep final rest := by
  induction hbefore with
  | nil line => simp
  | @cons line newlines final front before tokens lexemes hpiece hrest ih =>
      obtain ⟨c, tail, htext, scanned, hstep, hon⟩ := step_of_piece hpiece line
      rw [List.append_assoc, htext, Text.scanAll_cons_of_step hstep, hon.items, hon.state,
        hon.rest, ih, Text.map_append_map_append]

/-! ## The beginning of a run -/

/-- The moves from one place to another and the items that they complete. -/
inductive Runs (label : String) : Place → List Token → Place → List Item → Prop
  | nil (place : Place) : Runs label place [] place []
  | cons {place next final : Place} {token : Token} {tokens : List Token} {item : Option Item}
      {found : List Item} (hmoves : Moves label place token next item)
      (hrest : Runs label next tokens final found) :
      Runs label place (token :: tokens) final (item.toList ++ found)

theorem Runs.concat {label : String} {place middle final : Place} {tokens : List Token}
    {token : Token} {found : List Item} {item : Option Item}
    (hruns : Runs label place tokens middle found)
    (hmoves : Moves label middle token final item) :
    Runs label place (tokens ++ [token]) final (found ++ item.toList) := by
  induction hruns with
  | nil place =>
      have hlast := Runs.cons hmoves (.nil final)
      simpa using hlast
  | cons hfirst _ ih =>
      rw [List.append_assoc]
      exact .cons hfirst (ih hmoves)

/-- The line of the last lexeme, or the given line if there is none. -/
def lastLine (line : ℕ) (lexemes : List Lexeme) : ℕ :=
  (lexemes.getLast?.map Lexeme.line).getD line

theorem lastLine_cons (line : ℕ) (lexeme : Lexeme) (lexemes : List Lexeme) :
    lastLine line (lexeme :: lexemes) = lastLine lexeme.line lexemes := by
  rw [lastLine, lastLine, List.getLast?_cons]
  cases lexemes.getLast? <;> rfl

theorem itemsFrom_cons_of_moves {label : String} {place next : Place} {lexeme : Lexeme}
    {item : Option Item} (hmoves : Moves label place lexeme.token next item) (line : ℕ)
    (rest : List Lexeme) :
    itemsFrom label place line (lexeme :: rest) =
      (item.toList ++ ·) <$> itemsFrom label next lexeme.line rest := by
  rw [itemsFrom, move_of_moves hmoves]

/-- What a reader finds is what its run has found and what it finds from there. -/
theorem Runs.itemsFrom_append {label : String} {place final : Place} {earlier : List Lexeme}
    {found : List Item} (hruns : Runs label place (earlier.map Lexeme.token) final found)
    (line : ℕ) (later : List Lexeme) :
    itemsFrom label place line (earlier ++ later) =
      (found ++ ·) <$> itemsFrom label final (lastLine line earlier) later := by
  induction earlier generalizing place line found with
  | nil =>
      cases hruns
      simp [lastLine]
  | cons lexeme earlier ih =>
      cases hruns with
      | cons hmoves hrest =>
          rw [List.cons_append, itemsFrom_cons_of_moves hmoves, ih hrest,
            Text.map_append_map_append, lastLine_cons]

theorem ofText_eq_of_precedes {label : String} {before rest : List Char} {line : ℕ}
    {lexemes : List Lexeme} {place : Place} {found : List Item}
    (hbefore : Precedes rest 1 before line lexemes)
    (hruns : Runs label .betweenItems (lexemes.map Lexeme.token) place found) :
    Document.ofText label (String.ofList (before ++ rest)) = (do
      let later ← Text.scanAll tokenStep line rest
      Document.ofItems <$> ((found ++ ·) <$>
        itemsFrom label place (lastLine 1 lexemes) later)) := by
  rw [Document.ofText, tokenize, String.toList_ofList, hbefore.scanAll_eq]
  cases Text.scanAll tokenStep line rest with
  | error error => rfl
  | ok later =>
      change Document.ofItems <$> items label (lexemes ++ later) = _
      rw [items, hruns.itemsFrom_append]
      rfl

/-! ## Runs that fail -/

theorem line_of_termOf_error {lexeme : Lexeme} {error : Error}
    (hterm : termOf lexeme = .error error) : error.line = lexeme.line := by
  unfold termOf at hterm
  split at hterm
  next => split at hterm <;> cases hterm
  next => cases hterm
  next => cases hterm
  next =>
    cases hterm
    rfl

theorem line_of_verbOf_error {label : String} {lexeme : Lexeme} {error : Error}
    (hverb : verbOf label lexeme = .error error) : error.line = lexeme.line := by
  unfold verbOf at hverb
  split at hverb
  next => split at hverb <;> cases hverb
  next =>
    split at hverb
    next => cases hverb
    next =>
      split at hverb
      next =>
        cases hverb
        rfl
      next =>
        split at hverb
        next =>
          split at hverb
          next => cases hverb
          next =>
            cases hverb
            rfl
        next => cases hverb
  next =>
    cases hverb
    rfl

theorem line_of_beginItem_error {lexeme : Lexeme} {error : Error}
    (hbegin : beginItem lexeme = .error error) : error.line = lexeme.line := by
  unfold beginItem at hbegin
  split at hbegin
  next => cases hbegin
  next => cases hbegin
  next =>
    split at hbegin
    next other hterm =>
      cases hbegin
      exact line_of_termOf_error hterm
    next =>
      cases hbegin
      rfl
    next => cases hbegin

theorem line_of_readPredicate_error {label : String} {subject : ElementId} {lexeme : Lexeme}
    {error : Error} (hread : readPredicate label subject lexeme = .error error) :
    error.line = lexeme.line := by
  unfold readPredicate at hread
  cases hverb : verbOf label lexeme with
  | error other =>
      rw [hverb] at hread
      cases hread
      exact line_of_verbOf_error hverb
  | ok verb =>
      rw [hverb] at hread
      cases hread

theorem line_of_readObject_error {subject : ElementId} {verb : Verb} {lexeme : Lexeme}
    {error : Error} (hread : readObject subject verb lexeme = .error error) :
    error.line = lexeme.line := by
  unfold readObject at hread
  split at hread
  next other hterm =>
    cases hread
    exact line_of_termOf_error hterm
  next => cases hread
  next =>
    cases hread
    rfl
  next => cases hread

theorem line_of_move_error {label : String} {place : Place} {lexeme : Lexeme} {error : Error}
    (hmove : move label place lexeme = .error error) : error.line = lexeme.line := by
  unfold move at hmove
  split at hmove
  case h_2 =>
    split at hmove
    next => cases hmove
    next =>
      cases hmove
      rfl
  all_goals first
    -- The token is left to one of the readers,
    | exact line_of_beginItem_error hmove
    | exact line_of_readPredicate_error hmove
    | exact line_of_readObject_error hmove
    -- or the place has an answer of its own.
    | (cases hmove; rfl)
    | cases hmove

/-- The reader fails at a token that it comes to, or at the end of the text. -/
inductive FailsAt (label : String) (line : ℕ) (place : Place) (lexemes : List Lexeme)
    (error : Error) : Prop
  | token {earlier later : List Lexeme} {lexeme : Lexeme} {next : Place} {found : List Item}
      (hlexemes : lexemes = earlier ++ lexeme :: later)
      (hruns : Runs label place (earlier.map Lexeme.token) next found)
      (hmove : move label next lexeme = .error error) (hline : error.line = lexeme.line) :
      FailsAt label line place lexemes error
  | endOfInput {next : Place} {found : List Item}
      (hruns : Runs label place (lexemes.map Lexeme.token) next found)
      (hplace : next.mayEnd = false) (herror : error = ⟨lastLine line lexemes, .endOfInput⟩) :
      FailsAt label line place lexemes error

theorem failsAt_of_itemsFrom {label : String} {place : Place} {line : ℕ} {lexemes : List Lexeme}
    {error : Error} (hrun : itemsFrom label place line lexemes = .error error) :
    FailsAt label line place lexemes error := by
  induction lexemes generalizing place line with
  | nil =>
      rw [itemsFrom] at hrun
      split at hrun
      next => cases hrun
      next hplace =>
        cases hrun
        exact .endOfInput (.nil place) (Bool.eq_false_iff.mpr hplace) rfl
  | cons lexeme rest ih =>
      cases hmove : move label place lexeme with
      | error other =>
          rw [itemsFrom, hmove] at hrun
          cases hrun
          exact .token (List.nil_append (lexeme :: rest)).symm (.nil place) hmove
            (line_of_move_error hmove)
      | ok moved =>
          obtain ⟨next, item⟩ := moved
          have hmoves := moves_of_move hmove
          rw [itemsFrom_cons_of_moves hmoves] at hrun
          cases hrest : itemsFrom label next lexeme.line rest with
          | ok others =>
              rw [hrest] at hrun
              cases hrun
          | error other =>
              rw [hrest] at hrun
              cases hrun
              cases ih hrest with
              | @token earlier later failing _ _ hlexemes hruns hmove hline =>
                  have hwhole : lexeme :: rest = (lexeme :: earlier) ++ failing :: later := by
                    rw [hlexemes, List.cons_append]
                  exact .token hwhole (.cons hmoves hruns) hmove hline
              | endOfInput hruns hplace herror =>
                  refine .endOfInput (.cons hmoves hruns) hplace ?_
                  rw [lastLine_cons, herror]

theorem failsAt_of_ofText {label text : String} {lexemes : List Lexeme} {error : Error}
    (htokens : tokenize text = .ok lexemes) (hread : Document.ofText label text = .error error) :
    FailsAt label 1 .betweenItems lexemes error := by
  apply failsAt_of_itemsFrom
  rw [Document.ofText, htokens] at hread
  change Document.ofItems <$> items label lexemes = .error error at hread
  rw [items] at hread
  cases hrun : itemsFrom label .betweenItems 1 lexemes with
  | error other =>
      rw [hrun] at hread
      cases hread
      rfl
  | ok found =>
      rw [hrun] at hread
      cases hread

end Treatise.N3
