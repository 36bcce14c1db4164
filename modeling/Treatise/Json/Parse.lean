import Treatise.Json.Print
import Treatise.Text.Cut

/-!
# Reading JSON text

Text is a sequence of tokens.  The values that are still open lie on a stack, the innermost on top,
and the place says what may come next.
-/

namespace Treatise.Json

inductive Token where
  | openBracket
  | closeBracket
  | openBrace
  | closeBrace
  | comma
  | colon
  | null
  | bool (value : Bool)
  | number (text : String)
  | string (content : Content)
  deriving DecidableEq

abbrev Cut := List Char × List Char

def readDigits (text : List Char) : Option Cut :=
  if text.takeWhile Char.isDigit = [] then none
  else some (text.takeWhile Char.isDigit, text.dropWhile Char.isDigit)

def readWhole : List Char → Option Cut
  | '0' :: rest => some (['0'], rest)
  | text => readDigits text

def readFraction : List Char → Option Cut
  | '.' :: rest => (readDigits rest).map fun (found, after) => ('.' :: found, after)
  | text => some ([], text)

def readExponentDigits : List Char → Option Cut
  | '+' :: rest => (readDigits rest).map fun (found, after) => ('+' :: found, after)
  | '-' :: rest => (readDigits rest).map fun (found, after) => ('-' :: found, after)
  | text => readDigits text

def readExponent : List Char → Option Cut
  | 'e' :: rest => (readExponentDigits rest).map fun (found, after) => ('e' :: found, after)
  | 'E' :: rest => (readExponentDigits rest).map fun (found, after) => ('E' :: found, after)
  | text => some ([], text)

def readMagnitude (text : List Char) : Option Cut := do
  let (whole, text) ← readWhole text
  let (fraction, text) ← readFraction text
  let (exponent, text) ← readExponent text
  some (whole ++ fraction ++ exponent, text)

theorem length_readDigits {text : List Char} {cut : Cut} (hfound : readDigits text = some cut) :
    cut.2.length < text.length := by
  unfold readDigits at hfound
  split at hfound
  next => cases hfound
  next hnonempty =>
    obtain rfl := Option.some.inj hfound
    have htotal :
        (text.takeWhile Char.isDigit ++ text.dropWhile Char.isDigit).length = text.length :=
      congrArg List.length List.takeWhile_append_dropWhile
    have hdigits := List.length_pos_iff.mpr hnonempty
    rw [List.length_append] at htotal
    simp only
    omega

theorem length_readWhole {text : List Char} {cut : Cut} (hfound : readWhole text = some cut) :
    cut.2.length < text.length := by
  unfold readWhole at hfound
  split at hfound
  next rest =>
    obtain rfl := Option.some.inj hfound
    exact Nat.lt_succ_self rest.length
  next => exact length_readDigits hfound

/-- A mark in front of what is read only makes the whole text longer. -/
theorem length_of_map_eq_some {read : Option Cut} {mark c : Char} {rest : List Char} {cut : Cut}
    (hread : ∀ inner, read = some inner → inner.2.length ≤ rest.length)
    (hfound : (read.map fun inner => (mark :: inner.1, inner.2)) = some cut) :
    cut.2.length ≤ (c :: rest).length := by
  obtain ⟨inner, hinner, rfl⟩ := Option.map_eq_some_iff.mp hfound
  exact Nat.le_succ_of_le (hread inner hinner)

theorem length_readFraction {text : List Char} {cut : Cut} (hfound : readFraction text = some cut) :
    cut.2.length ≤ text.length := by
  unfold readFraction at hfound
  split at hfound
  next => exact length_of_map_eq_some (fun _ hread => Nat.le_of_lt (length_readDigits hread)) hfound
  next =>
    obtain rfl := Option.some.inj hfound
    exact Nat.le_refl _

theorem length_readExponentDigits {text : List Char} {cut : Cut}
    (hfound : readExponentDigits text = some cut) : cut.2.length ≤ text.length := by
  unfold readExponentDigits at hfound
  split at hfound
  next => exact length_of_map_eq_some (fun _ hread => Nat.le_of_lt (length_readDigits hread)) hfound
  next => exact length_of_map_eq_some (fun _ hread => Nat.le_of_lt (length_readDigits hread)) hfound
  next => exact Nat.le_of_lt (length_readDigits hfound)

theorem length_readExponent {text : List Char} {cut : Cut} (hfound : readExponent text = some cut) :
    cut.2.length ≤ text.length := by
  unfold readExponent at hfound
  split at hfound
  next => exact length_of_map_eq_some (fun _ => length_readExponentDigits) hfound
  next => exact length_of_map_eq_some (fun _ => length_readExponentDigits) hfound
  next =>
    obtain rfl := Option.some.inj hfound
    exact Nat.le_refl _

theorem length_readMagnitude {text : List Char} {cut : Cut}
    (hfound : readMagnitude text = some cut) : cut.2.length < text.length := by
  unfold readMagnitude at hfound
  simp only [Option.bind_eq_bind, Option.bind_eq_some_iff] at hfound
  obtain ⟨whole, hwhole, fraction, hfraction, exponent, hexponent, hsame⟩ := hfound
  obtain rfl := Option.some.inj hsame
  calc
    exponent.2.length ≤ fraction.2.length := length_readExponent hexponent
    _ ≤ whole.2.length := length_readFraction hfraction
    _ < text.length := length_readWhole hwhole

abbrev Step := Text.Scanned Unit Token

def tokenStep (_ : Unit) (c : Char) (rest : List Char) : Except Unit (Step (c :: rest)) :=
  match c, rest with
  | ' ', rest | '\t', rest | '\n', rest | '\r', rest => .ok ⟨[], (), rest, by simp⟩
  | '[', rest => .ok ⟨[.openBracket], (), rest, by simp⟩
  | ']', rest => .ok ⟨[.closeBracket], (), rest, by simp⟩
  | '{', rest => .ok ⟨[.openBrace], (), rest, by simp⟩
  | '}', rest => .ok ⟨[.closeBrace], (), rest, by simp⟩
  | ',', rest => .ok ⟨[.comma], (), rest, by simp⟩
  | ':', rest => .ok ⟨[.colon], (), rest, by simp⟩
  | 'n', 'u' :: 'l' :: 'l' :: rest => .ok ⟨[.null], (), rest, by grind⟩
  | 't', 'r' :: 'u' :: 'e' :: rest => .ok ⟨[.bool true], (), rest, by grind⟩
  | 'f', 'a' :: 'l' :: 's' :: 'e' :: rest => .ok ⟨[.bool false], (), rest, by grind⟩
  | '"', rest =>
    match hfound : readString rest with
    | none => .error ()
    | some (pieces, after) =>
      .ok ⟨[.string ((join pieces).map String.ofList)], (), after,
        Nat.lt_succ_of_lt (length_readString hfound)⟩
  | '-', rest =>
    match hfound : readMagnitude rest with
    | none => .error ()
    | some (text, after) =>
      .ok ⟨[.number (String.ofList ('-' :: text))], (), after,
        Nat.lt_succ_of_lt (length_readMagnitude hfound)⟩
  | c, rest =>
    match hfound : readMagnitude (c :: rest) with
    | none => .error ()
    | some (text, after) =>
      .ok ⟨[.number (String.ofList text)], (), after, length_readMagnitude hfound⟩

def tokenize (text : List Char) : Option (List Token) :=
  (Text.scanAll tokenStep () text).toOption

/-- A value that is still open, with what it holds so far, the latest first. -/
inductive Frame where
  | items (done : List Value)
  | members (done : List (Content × Value))
  | member (done : List (Content × Value)) (name : Content)

inductive Place where
  | value
  | firstItem
  | firstName
  | name
  | colon
  | after (value : Value)

structure Reader where
  place : Place
  stack : List Frame

namespace Reader

def start : Reader := ⟨.value, []⟩

def beginValue (stack : List Frame) : Token → Option Reader
  | .null => some ⟨.after .null, stack⟩
  | .bool value => some ⟨.after (.bool value), stack⟩
  | .number text => some ⟨.after (.number text), stack⟩
  | .string content => some ⟨.after (.string content), stack⟩
  | .openBracket => some ⟨.firstItem, .items [] :: stack⟩
  | .openBrace => some ⟨.firstName, .members [] :: stack⟩
  | _ => none

def continueWith (value : Value) : List Frame → Token → Option Reader
  | .items done :: stack, .comma => some ⟨.value, .items (value :: done) :: stack⟩
  | .items done :: stack, .closeBracket =>
    some ⟨.after (.array (value :: done).reverse), stack⟩
  | .member done name :: stack, .comma => some ⟨.name, .members ((name, value) :: done) :: stack⟩
  | .member done name :: stack, .closeBrace =>
    some ⟨.after (.object ((name, value) :: done).reverse), stack⟩
  | _, _ => none

def move (reader : Reader) (token : Token) : Option Reader :=
  match reader.place, reader.stack, token with
  | .value, stack, token => beginValue stack token
  | .firstItem, .items _ :: stack, .closeBracket => some ⟨.after (.array []), stack⟩
  | .firstItem, stack, token => beginValue stack token
  | .firstName, .members _ :: stack, .closeBrace => some ⟨.after (.object []), stack⟩
  | .firstName, .members done :: stack, .string name
  | .name, .members done :: stack, .string name => some ⟨.colon, .member done name :: stack⟩
  | .colon, stack, .colon => some ⟨.value, stack⟩
  | .after value, stack, token => continueWith value stack token
  | _, _, _ => none

def run (reader : Reader) : List Token → Option Reader
  | [] => some reader
  | token :: rest => (reader.move token).bind fun next => next.run rest

def result? (reader : Reader) : Option Value :=
  match reader.place, reader.stack with
  | .after value, [] => some value
  | _, _ => none

end Reader

def parse (text : String) : Option Value := do
  let tokens ← tokenize text.toList
  let reader ← Reader.start.run tokens
  reader.result?

end Treatise.Json
