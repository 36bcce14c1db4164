import Treatise.Decimal

/-!
# JSON values and their text

A number is kept as its text.  A string has content unless one of its escapes names half of a
surrogate pair without the other half; such a string is written as null.
-/

namespace Treatise.Json

/-- The text of a string, if it is text. -/
abbrev Content := Option String

inductive Value where
  | null
  | bool (value : Bool)
  | number (text : String)
  | string (content : Content)
  | array (items : List Value)
  | object (members : List (Content × Value))

namespace Value

def text (content : String) : Value := .string (some content)

def ofFields (fields : List (String × Value)) : Value :=
  .object (fields.map fun (name, value) => (some name, value))

end Value

inductive Piece where
  | char (c : Char)
  | unit (code : Nat)
  deriving DecidableEq

def isHighUnit (code : Nat) : Bool := 0xD800 ≤ code && code < 0xDC00

def isLowUnit (code : Nat) : Bool := 0xDC00 ≤ code && code < 0xE000

def charOfPair (high low : Nat) : Char :=
  Char.ofNat (0x10000 + (high - 0xD800) * 0x400 + (low - 0xDC00))

/-- Puts the units of a string together; nothing where one lacks its other half. -/
def join : List Piece → Option (List Char)
  | [] => some []
  | .char c :: rest => (join rest).map (c :: ·)
  | .unit code :: .unit low :: rest =>
    if isHighUnit code then
      if isLowUnit low then (join rest).map (charOfPair code low :: ·) else none
    else if isLowUnit code then none
    else (join (.unit low :: rest)).map (Char.ofNat code :: ·)
  | .unit code :: rest =>
    if isHighUnit code || isLowUnit code then none else (join rest).map (Char.ofNat code :: ·)

def hexValue? (c : Char) : Option Nat :=
  if '0' ≤ c ∧ c ≤ '9' then some (c.toNat - '0'.toNat)
  else if 'a' ≤ c ∧ c ≤ 'f' then some (c.toNat - 'a'.toNat + 10)
  else if 'A' ≤ c ∧ c ≤ 'F' then some (c.toNat - 'A'.toNat + 10)
  else none

def unit? (a b c d : Char) : Option Nat := do
  return (((← hexValue? a) * 16 + (← hexValue? b)) * 16 + (← hexValue? c)) * 16 + (← hexValue? d)

def shortEscape? : Char → Option Char
  | '"' => some '"'
  | '\\' => some '\\'
  | '/' => some '/'
  | 'b' => some '\x08'
  | 'f' => some '\x0c'
  | 'n' => some '\n'
  | 'r' => some '\r'
  | 't' => some '\t'
  | _ => none

def readString : List Char → Option (List Piece × List Char)
  | [] => none
  | '"' :: rest => some ([], rest)
  | '\\' :: 'u' :: a :: b :: c :: d :: rest =>
    match unit? a b c d, readString rest with
    | some code, some (pieces, after) => some (.unit code :: pieces, after)
    | _, _ => none
  | '\\' :: c :: rest =>
    match shortEscape? c, readString rest with
    | some escaped, some (pieces, after) => some (.char escaped :: pieces, after)
    | _, _ => none
  | c :: rest =>
    if c.toNat < 0x20 then none
    else (readString rest).map fun (pieces, after) => (.char c :: pieces, after)

theorem length_readString {input after : List Char} {pieces : List Piece}
    (hfound : readString input = some (pieces, after)) : after.length < input.length := by
  fun_induction readString input generalizing pieces with
  | case1 => cases hfound
  | case2 =>
      obtain ⟨-, rfl⟩ := Prod.mk.inj (Option.some.inj hfound)
      exact Nat.lt_succ_self _
  | case3 a b c d rest code inner remaining hread _ ih =>
      obtain ⟨-, rfl⟩ := Prod.mk.inj (Option.some.inj hfound)
      have hrest := ih hread
      simp only [List.length_cons]
      omega
  | case4 => cases hfound
  | case5 c rest _ _ inner remaining hread _ ih =>
      obtain ⟨-, rfl⟩ := Prod.mk.inj (Option.some.inj hfound)
      have hrest := ih hread
      simp only [List.length_cons]
      omega
  | case6 => cases hfound
  | case7 => cases hfound
  | case8 c rest _ _ _ _ ih =>
      obtain ⟨inner, hread, hsame⟩ := Option.map_eq_some_iff.mp hfound
      obtain ⟨-, rfl⟩ := Prod.mk.inj hsame
      exact Nat.lt_succ_of_lt (ih hread)

def hexDigit (value : Nat) : Char := Nat.digitChar value

def escapeChar (c : Char) : List Char :=
  if c = '"' then ['\\', '"']
  else if c = '\\' then ['\\', '\\']
  else if c = '\x08' then ['\\', 'b']
  else if c = '\x0c' then ['\\', 'f']
  else if c = '\n' then ['\\', 'n']
  else if c = '\r' then ['\\', 'r']
  else if c = '\t' then ['\\', 't']
  else if c.toNat < 0x20 then
    ['\\', 'u', '0', '0', hexDigit (c.toNat / 16), hexDigit (c.toNat % 16)]
  else [c]

def escape (text : List Char) : List Char := '"' :: text.flatMap escapeChar ++ ['"']

def contentText : Content → List Char
  | none => "null".toList
  | some text => escape text.toList

def separated (mark : List Char) : List (List Char) → List Char
  | [] => []
  | first :: rest => first ++ rest.flatMap (mark ++ ·)

mutual

def compactText : Value → List Char
  | .null => "null".toList
  | .bool value => (if value then "true" else "false").toList
  | .number text => text.toList
  | .string content => contentText content
  | .array items => '[' :: separated [','] (compactItems items) ++ [']']
  | .object members => '{' :: separated [','] (compactMembers members) ++ ['}']

def compactItems : List Value → List (List Char)
  | [] => []
  | item :: rest => compactText item :: compactItems rest

def compactMembers : List (Content × Value) → List (List Char)
  | [] => []
  | (name, value) :: rest => (contentText name ++ ':' :: compactText value) :: compactMembers rest

end

def newline (depth : Nat) : List Char := '\n' :: List.replicate (2 * depth) ' '

def enclosed (depth : Nat) (opening closing : Char) (items : List (List Char)) : List Char :=
  if items.isEmpty then [opening, closing]
  else
    opening :: newline (depth + 1) ++ separated (',' :: newline (depth + 1)) items ++
      newline depth ++ [closing]

mutual

def prettyText (depth : Nat) : Value → List Char
  | .null => "null".toList
  | .bool value => (if value then "true" else "false").toList
  | .number text => text.toList
  | .string content => contentText content
  | .array items => enclosed depth '[' ']' (prettyItems (depth + 1) items)
  | .object members => enclosed depth '{' '}' (prettyMembers (depth + 1) members)

def prettyItems (depth : Nat) : List Value → List (List Char)
  | [] => []
  | item :: rest => prettyText depth item :: prettyItems depth rest

def prettyMembers (depth : Nat) : List (Content × Value) → List (List Char)
  | [] => []
  | (name, value) :: rest =>
    (contentText name ++ ':' :: ' ' :: prettyText depth value) :: prettyMembers depth rest

end

def Value.compact (value : Value) : String := String.ofList (compactText value)

def Value.pretty (value : Value) : String := String.ofList (prettyText 0 value)

end Treatise.Json
