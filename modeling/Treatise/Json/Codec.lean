import Treatise.Decimal
import Treatise.Json.Parse
import Treatise.Json.Print

/-!
# Codecs

Reading is more liberal than writing: a record may be an array, and its members may come in any
order and among unknown ones.  A number that is read is rounded twice, once to a word of digits
and then to a double.
-/

namespace Treatise.Json

structure Numeral where
  negative : Bool
  whole : List Char
  fraction : List Char
  exponentNegative : Bool
  exponent : List Char

namespace Numeral

def ofText (text : List Char) : Numeral :=
  let unsigned := text.filter fun c => c != '+'
  let magnitude := unsigned.dropWhile (· == '-')
  let isMark (c : Char) : Bool := c == 'e' || c == 'E'
  let mantissa := magnitude.takeWhile fun c => !isMark c
  let exponent := (magnitude.dropWhile fun c => !isMark c).drop 1
  { negative := text.head? == some '-'
    whole := mantissa.takeWhile Char.isDigit
    fraction := (mantissa.dropWhile Char.isDigit).drop 1
    exponentNegative := exponent.head? == some '-'
    exponent := exponent.dropWhile (· == '-') }

/-- Digits read onto a significand for as long as it fits a word, and the digits left over. -/
def takeDigits (significand : Nat) : List Char → Nat × List Char
  | [] => (significand, [])
  | digit :: rest =>
    let longer := significand * 10 + (digit.toNat - '0'.toNat)
    if longer < UInt64.size then takeDigits longer rest else (significand, digit :: rest)

/-- The significand and the power of ten that goes with it, without the exponent. -/
def significand (numeral : Numeral) : Nat × Int :=
  let (whole, wholeRest) := takeDigits 0 numeral.whole
  let (significand, fractionRest) := takeDigits whole numeral.fraction
  (significand, wholeRest.length - (numeral.fraction.length - fractionRest.length))

end Numeral

def largestPower : Nat := 308

/-- The greatest exponent that is read; a longer one stands for any that is greater. -/
def largestExponent : Nat := Nat.pow 2 31 - 1

def powerOfTen (exponent : Nat) : Float := Float.ofScientific 1 false exponent

def scaleDown (x : Float) (exponent : Nat) : (steps : Nat) → Float
  | 0 => x
  | steps + 1 =>
    if exponent ≤ largestPower then x / powerOfTen exponent
    else if x == 0 then x
    else scaleDown (x / powerOfTen largestPower) (exponent - largestPower) steps

/-- A significand of one word is zero after two steps of the greatest power, so the third is the
last. -/
def scaleDownSteps : Nat := 3

def scale (significand : Nat) (exponent : Int) : Option Float :=
  let x := Float.ofNat significand
  if exponent < 0 then some (scaleDown x exponent.natAbs scaleDownSteps)
  else if exponent.toNat ≤ largestPower then
    let scaled := x * powerOfTen exponent.toNat
    if scaled.isInf then none else some scaled
  else if x == 0 then some x
  else none

def Numeral.magnitude? (numeral : Numeral) : Option Float :=
  let (significand, power) := numeral.significand
  let exponent := Nat.ofDigitChars 10 numeral.exponent 0
  if largestExponent < exponent then
    if significand = 0 ∨ numeral.exponentNegative then some 0 else none
  else
    scale significand (if numeral.exponentNegative then power - exponent else power + exponent)

def float? (text : String) : Option Float :=
  let numeral := Numeral.ofText text.toList
  numeral.magnitude?.map fun x => if numeral.negative then -x else x

def layout : Decimal.Layout where
  tie := .even
  isPositional exponent := decide (-5 ≤ exponent ∧ exponent < 16)
  wholeEnding := ".0"

def Value.ofFloat (x : Float) : Value :=
  match Decimal.decode x with
  | .finite _ => .number (layout.text x)
  | _ => .null

def Value.ofNat (n : Nat) : Value := .number (Decimal.ofNat n)

structure Codec (α : Type) where
  encode : α → Value
  decode : Value → Option α

namespace Codec

def string : Codec String where
  encode := .text
  decode
    | .string content => content
    | _ => none

def bool : Codec Bool where
  encode := .bool
  decode
    | .bool value => some value
    | _ => none

def count : Codec Nat where
  encode := .ofNat
  decode
    | .number text => (Decimal.word64? text.toList).map UInt64.toNat
    | _ => none

def word32 : Codec UInt32 where
  encode n := .ofNat n.toNat
  decode
    | .number text => Decimal.word32? text.toList
    | _ => none

def word64 : Codec UInt64 where
  encode n := .ofNat n.toNat
  decode
    | .number text => Decimal.word64? text.toList
    | _ => none

def float : Codec Float where
  encode := .ofFloat
  decode
    | .number text => float? text
    | _ => none

def list {α : Type} (codec : Codec α) : Codec (List α) where
  encode items := .array (items.map codec.encode)
  decode
    | .array items => items.mapM codec.decode
    | _ => none

def optional {α : Type} (codec : Codec α) : Codec (Option α) where
  encode
    | none => .null
    | some value => codec.encode value
  decode
    | .null => some none
    | value => (codec.decode value).map some

def alternatives {α : Type} (nameOf : α → String) (ofName? : String → Option α) : Codec α where
  encode alternative := .text (nameOf alternative)
  decode
    | .string (some name) => ofName? name
    | .object [(some name, .null)] => ofName? name
    | _ => none

def via {α β : Type} (codec : Codec β) (encode : α → β) (decode : β → α) : Codec α where
  encode value := codec.encode (encode value)
  decode value := (codec.decode value).map decode

end Codec

def member? (members : List (Content × Value)) (name : String) : Option Value :=
  (members.find? fun (other, _) => other == some name).map (·.2)

def areUnambiguous (names : List String) (members : List (Content × Value)) : Bool :=
  (members.all fun (name, _) => name.isSome) &&
    names.all fun name => (members.countP fun (other, _) => other == some name) ≤ 1

/-- The members of a record in the order of their names, from an object or from the array of all of
them.  A member that an object does not have is left open. -/
def recordMembers? (names : List String) : Value → Option (List (Option Value))
  | .object members =>
    if areUnambiguous names members then some (names.map (member? members)) else none
  | .array items => if items.length = names.length then some (items.map some) else none
  | _ => none

def partialMembers? (names : List String) : Value → Option (List (Option Value))
  | .array items =>
    if items.length ≤ names.length then
      some (items.map some ++ List.replicate (names.length - items.length) none)
    else none
  | value => recordMembers? names value

def required {α : Type} (codec : Codec α) (member : Option Value) : Option α :=
  member.bind codec.decode

def withDefault {α : Type} (codec : Codec α) (default : α) : Option Value → Option α
  | none => some default
  | some value => codec.decode value

def Codec.ofText {α : Type} (codec : Codec α) (text : String) : Option α :=
  (parse text).bind codec.decode

def Codec.compact {α : Type} (codec : Codec α) (value : α) : String :=
  (codec.encode value).compact

end Treatise.Json
