import Treatise.Decimal
import Treatise.Statement
import Treatise.Text.Classes
import Treatise.Text.Cut

/-!
# From text to tokens

Each token remembers the line on which it starts.  Blanks and comments stand between tokens; a name
runs to a blank or to a character that ends it, and dots at its end are tokens of their own.
-/

namespace Treatise.N3

inductive Token where
  | directive
  | dot
  | semicolon
  | comma
  | openBrace
  | closeBrace
  | implies
  | iri (text : String)
  | name (text : String)
  | literal (text : String)
  deriving DecidableEq

structure Lexeme where
  token : Token
  line : Nat
  deriving DecidableEq

def Token.shown : Token → String
  | directive => "Prefix"
  | dot => "Dot"
  | semicolon => "Semicolon"
  | comma => "Comma"
  | openBrace => "OpenBrace"
  | closeBrace => "CloseBrace"
  | implies => "Implies"
  | iri text => "Iri(" ++ Text.quoted text ++ ")"
  | name text => "Name(" ++ Text.quoted text ++ ")"
  | literal text => "Literal(" ++ Text.quoted text ++ ")"

inductive Expectation where
  | endOfDirective
  | block
  | term
  | predicate
  | separator
  deriving DecidableEq

def Expectation.words : Expectation → String
  | endOfDirective => "'.' after @prefix"
  | block => "'\x7b'"
  | term => "a term"
  | predicate => "a predicate"
  | separator => "';', ',' or '.'"

inductive Fault where
  | unterminatedIri
  | unterminatedLiteral
  | newlineInLiteral
  | unsupportedDirective (word : String)
  | endOfInput
  | expectedLabel
  | expectedIri
  | expected (expectation : Expectation) (found : Token)
  | literalSubject
  | literalObject (predicate : Predicate)
  | unknownPredicate (name : String)
  deriving DecidableEq

structure Error where
  line : Nat
  fault : Fault
  deriving DecidableEq

def Fault.words : Fault → String
  | unterminatedIri => "unterminated IRI"
  | unterminatedLiteral => "unterminated string literal"
  | newlineInLiteral => "newline in string literal"
  | unsupportedDirective word => "unsupported directive " ++ word
  | endOfInput => "unexpected end of input"
  | expectedLabel => "expected prefix label ending in ':'"
  | expectedIri => "expected <iri> in @prefix"
  | expected expectation found => "expected " ++ expectation.words ++ ", found " ++ found.shown
  | literalSubject => "literal in subject position"
  | literalObject predicate => "literal object for predicate " ++ predicate.wireName
  | unknownPredicate name => name

def Error.message (error : Error) : String :=
  let place := " at line " ++ Decimal.ofNat error.line ++ ": " ++ error.fault.words
  match error.fault with
  | .unknownPredicate _ => "Unknown predicate" ++ place
  | _ => "Parse error" ++ place

structure LiteralBody where
  value : List Char
  newlines : Nat
  rest : List Char

namespace LiteralBody

def cons (c : Char) (body : LiteralBody) : LiteralBody := { body with value := c :: body.value }

def countLine (body : LiteralBody) : LiteralBody := { body with newlines := body.newlines + 1 }

def short : List Char → Except Fault LiteralBody
  | [] => .error .unterminatedLiteral
  | '\\' :: c :: rest => (short rest).map (cons c)
  | '"' :: rest => .ok ⟨[], 0, rest⟩
  | '\n' :: _ => .error .newlineInLiteral
  | c :: rest => (short rest).map (cons c)

def long : List Char → Except Fault LiteralBody
  | [] => .error .unterminatedLiteral
  | '\\' :: c :: rest => (long rest).map (cons c)
  | '"' :: '"' :: '"' :: rest => .ok ⟨[], 0, rest⟩
  | '\n' :: rest => (long rest).map fun body => (body.cons '\n').countLine
  | c :: rest => (long rest).map (cons c)

/-- What comes before a body makes the text longer and leaves the rest as it is. -/
theorem length_rest_of_map {read : Except Fault LiteralBody} {change : LiteralBody → LiteralBody}
    {body : LiteralBody} {length : Nat} (hfound : read.map change = .ok body)
    (hkept : ∀ body, (change body).rest = body.rest)
    (hread : ∀ inner, read = .ok inner → inner.rest.length < length) :
    body.rest.length < length + 1 := by
  cases read with
  | error fault => cases hfound
  | ok inner =>
      obtain rfl : change inner = body := Except.ok.inj hfound
      rw [hkept]
      exact Nat.lt_succ_of_lt (hread inner rfl)

theorem length_rest_short {input : List Char} {body : LiteralBody}
    (hfound : short input = .ok body) : body.rest.length < input.length := by
  fun_induction short input generalizing body with
  | case1 => cases hfound
  | case2 c rest ih =>
      exact Nat.lt_succ_of_lt (length_rest_of_map hfound (fun _ => rfl) fun _ => ih)
  | case3 rest =>
      obtain rfl := Except.ok.inj hfound
      exact Nat.lt_succ_self _
  | case4 => cases hfound
  | case5 c rest _ _ _ ih => exact length_rest_of_map hfound (fun _ => rfl) fun _ => ih

theorem length_rest_long {input : List Char} {body : LiteralBody}
    (hfound : long input = .ok body) : body.rest.length < input.length := by
  fun_induction long input generalizing body with
  | case1 => cases hfound
  | case2 c rest ih =>
      exact Nat.lt_succ_of_lt (length_rest_of_map hfound (fun _ => rfl) fun _ => ih)
  | case3 rest =>
      obtain rfl := Except.ok.inj hfound
      simp only [List.length_cons]
      omega
  | case4 rest ih => exact length_rest_of_map hfound (fun _ => rfl) fun _ => ih
  | case5 c rest _ _ _ ih => exact length_rest_of_map hfound (fun _ => rfl) fun _ => ih

end LiteralBody

/-- The characters that a language tag or datatype is made of. -/
def isSuffixChar (c : Char) : Bool := !Text.isBlank c && c != ';' && c != ',' && c != '.'

def dropSuffix (text : List Char) : List Char := text.dropWhile isSuffixChar

def isNameChar (c : Char) : Bool :=
  !Text.isBlank c && c != ';' && c != ',' && c != '{' && c != '}' && c != '<' && c != '"'

/-- The tokens of a word: the name without the dots at its end, then the dots. -/
def tokensOfWord (word : List Char) : List Token :=
  .name (String.ofList (word.reverse.dropWhile (· == '.')).reverse) ::
    (word.reverse.takeWhile (· == '.')).map fun _ => .dot

/-- Reads an address in angle brackets, which ends on the line on which it starts. -/
def iriBody : List Char → Except Fault (List Char × List Char)
  | [] => .error .unterminatedIri
  | '>' :: rest => .ok ([], rest)
  | '\n' :: _ => .error .unterminatedIri
  | c :: rest => (iriBody rest).map fun (iri, rest) => (c :: iri, rest)

theorem length_rest_iriBody {input iri rest : List Char}
    (hfound : iriBody input = .ok (iri, rest)) : rest.length < input.length := by
  fun_induction iriBody input generalizing iri with
  | case1 => cases hfound
  | case2 =>
      obtain ⟨-, rfl⟩ := Prod.mk.inj (Except.ok.inj hfound)
      exact Nat.lt_succ_self _
  | case3 => cases hfound
  | case4 c remaining _ _ ih =>
      cases hread : iriBody remaining with
      | error fault =>
          rw [hread] at hfound
          cases hfound
      | ok body =>
          rw [hread] at hfound
          obtain ⟨-, rfl⟩ := Prod.mk.inj (Except.ok.inj hfound)
          exact Nat.lt_succ_of_lt (ih hread)

theorem length_dropSuffix_lt {rest text : List Char} (hshorter : rest.length < text.length) :
    (dropSuffix rest).length < text.length :=
  Nat.lt_of_le_of_lt (Text.length_dropWhile_le _ rest) hshorter

abbrev Step := Text.Scanned Nat Lexeme

def tokenStep (line : Nat) (c : Char) (rest : List Char) : Except Error (Step (c :: rest)) :=
  match c, rest with
  | '\n', rest => .ok ⟨[], line + 1, rest, Nat.lt_succ_self _⟩
  | '#', rest =>
    .ok ⟨[], line, rest.dropWhile (· != '\n'),
      Nat.lt_succ_of_le (Text.length_dropWhile_le _ rest)⟩
  | '.', rest => .ok ⟨[⟨.dot, line⟩], line, rest, Nat.lt_succ_self _⟩
  | ';', rest => .ok ⟨[⟨.semicolon, line⟩], line, rest, Nat.lt_succ_self _⟩
  | ',', rest => .ok ⟨[⟨.comma, line⟩], line, rest, Nat.lt_succ_self _⟩
  | '{', rest => .ok ⟨[⟨.openBrace, line⟩], line, rest, Nat.lt_succ_self _⟩
  | '}', rest => .ok ⟨[⟨.closeBrace, line⟩], line, rest, Nat.lt_succ_self _⟩
  | '=', '>' :: rest =>
    .ok ⟨[⟨.implies, line⟩], line, rest, Nat.lt_succ_of_lt (Nat.lt_succ_self _)⟩
  | '<', rest =>
    match hfound : iriBody rest with
    | .error fault => .error ⟨line, fault⟩
    | .ok (iri, remaining) =>
      .ok ⟨[⟨.iri (String.ofList iri), line⟩], line, remaining,
        Nat.lt_succ_of_lt (length_rest_iriBody hfound)⟩
  | '"', '"' :: '"' :: rest =>
    match hfound : LiteralBody.long rest with
    | .error fault => .error ⟨line, fault⟩
    | .ok body =>
      .ok ⟨[⟨.literal (String.ofList body.value), line⟩], line + body.newlines,
        dropSuffix body.rest, Nat.lt_succ_of_lt (Nat.lt_succ_of_lt
          (Nat.lt_succ_of_lt (length_dropSuffix_lt (LiteralBody.length_rest_long hfound))))⟩
  | '"', rest =>
    match hfound : LiteralBody.short rest with
    | .error fault => .error ⟨line, fault⟩
    | .ok body =>
      .ok ⟨[⟨.literal (String.ofList body.value), line⟩], line + body.newlines,
        dropSuffix body.rest,
        Nat.lt_succ_of_lt (length_dropSuffix_lt (LiteralBody.length_rest_short hfound))⟩
  | '@', rest =>
    let word := rest.takeWhile (!Text.isBlank ·)
    if word = ['p', 'r', 'e', 'f', 'i', 'x'] then
      .ok ⟨[⟨.directive, line⟩], line, rest.dropWhile (!Text.isBlank ·),
        Nat.lt_succ_of_le (Text.length_dropWhile_le _ rest)⟩
    else .error ⟨line, .unsupportedDirective (String.ofList ('@' :: word))⟩
  | c, rest =>
    if Text.isBlank c then .ok ⟨[], line, rest, Nat.lt_succ_self _⟩
    else
      .ok ⟨(tokensOfWord (c :: rest.takeWhile isNameChar)).map fun token => ⟨token, line⟩, line,
        rest.dropWhile isNameChar, Nat.lt_succ_of_le (Text.length_dropWhile_le _ rest)⟩

theorem tokenStep_of_isBlank {c : Char} (hblank : Text.isBlank c) (hline : c ≠ '\n') (line : Nat)
    (rest : List Char) :
    tokenStep line c rest = .ok ⟨[], line, rest, Nat.lt_succ_self _⟩ := by
  unfold tokenStep
  split
  case h_1 => exact absurd rfl hline
  case h_13 => rw [if_pos hblank]
  all_goals exact absurd hblank (by decide)

def tokenize (text : String) : Except Error (List Lexeme) :=
  Text.scanAll tokenStep 1 text.toList

end Treatise.N3
