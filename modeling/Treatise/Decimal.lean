/-!
# Numbers in decimal notation

Reading a natural number accepts leading zeros.  A finite double is taken apart into a whole number
and a power of two, so that all of its decimal forms are matters of whole numbers.
-/

namespace Treatise.Decimal

def digits (n : Nat) : List Char := Nat.toDigits 10 n

def ofNat (n : Nat) : String := String.ofList (digits n)

def natural? (text : List Char) : Option Nat :=
  if text ≠ [] ∧ text.all Char.isDigit then some (Nat.ofDigitChars 10 text 0) else none

def word32? (text : List Char) : Option UInt32 :=
  match natural? text with
  | none => none
  | some n => if hbound : n < UInt32.size then some (UInt32.ofNatLT n hbound) else none

def word64? (text : List Char) : Option UInt64 :=
  match natural? text with
  | none => none
  | some n => if hbound : n < UInt64.size then some (UInt64.ofNatLT n hbound) else none

theorem natural?_eq_some_iff {text : List Char} {n : Nat} :
    natural? text = some n ↔
      (text ≠ [] ∧ text.all Char.isDigit) ∧ Nat.ofDigitChars 10 text 0 = n := by
  unfold natural?
  split
  next haccepted =>
    constructor
    · intro hread
      exact ⟨haccepted, Option.some.inj hread⟩
    · rintro ⟨-, rfl⟩
      rfl
  next hrefused =>
    constructor
    · intro hread
      cases hread
    · rintro ⟨haccepted, -⟩
      exact absurd haccepted hrefused

structure Binary where
  negative : Bool
  significand : Nat
  exponent : Int
  deriving DecidableEq

inductive Decoded where
  | finite (value : Binary)
  | infinite (negative : Bool)
  | notANumber
  deriving DecidableEq

def leastExponent : Int := -1074

def leadingBit : Nat := Nat.pow 2 52

def decode (x : Float) : Decoded :=
  let bits := x.toBits.toNat
  let negative := bits / Nat.pow 2 63 == 1
  let field := bits / leadingBit % 2048
  let fraction := bits % leadingBit
  if field = 2047 then if fraction = 0 then .infinite negative else .notANumber
  else if field = 0 then .finite ⟨negative, fraction, leastExponent⟩
  else .finite ⟨negative, leadingBit + fraction, leastExponent + (field - 1)⟩

/-- The magnitude is the quotient of this number and `Binary.denominator`. -/
def Binary.numerator (value : Binary) : Nat := value.significand * Nat.pow 2 value.exponent.toNat

def Binary.denominator (value : Binary) : Nat := Nat.pow 2 (-value.exponent).toNat

inductive Tie where
  | away
  | even
  deriving DecidableEq

def roundQuotient (tie : Tie) (numerator denominator : Nat) : Nat :=
  let below := numerator / denominator
  let twice := 2 * (numerator % denominator)
  if twice < denominator then below
  else if denominator < twice then below + 1
  else
    match tie with
    | .away => below + 1
    | .even => below + below % 2

/-- The nearest whole number that a word can hold; what is not a number counts as zero. -/
def nearestWord (x : Float) : UInt64 :=
  match decode x with
  | .notANumber => 0
  | .infinite negative => if negative then 0 else largest
  | .finite value =>
    if value.negative then 0
    else
      let nearest := roundQuotient .away value.numerator value.denominator
      if nearest < UInt64.size then UInt64.ofNat nearest else largest
where
  largest : UInt64 := UInt64.ofNat (UInt64.size - 1)

structure Scientific where
  figures : Nat
  exponent : Int
  deriving DecidableEq

def Scientific.leadingExponent (number : Scientific) : Int :=
  number.exponent + ((digits number.figures).length - 1 : Nat)

def leadingExponent (numerator denominator : Nat) : Int :=
  let shift := denominator.log2
  ((digits (numerator * Nat.pow 10 shift / denominator)).length : Int) - 1 - shift

/-- Four times the distances to the ends of the reals that read back as the number, in units of
its last place.  Below a power of two the doubles are twice as close. -/
def Binary.reach (value : Binary) : Nat × Nat :=
  if value.significand = leadingBit ∧ leastExponent < value.exponent then (1, 2) else (2, 2)

/-- The better neighbour of the number on the grid of multiples of ten to the `exponent`, if one of
them reads back as the number.  The ends of the interval do so when the significand is even. -/
def gridNeighbour? (tie : Tie) (value : Binary) (exponent : Int) : Option Nat :=
  let scale := Nat.pow 2 value.exponent.toNat * Nat.pow 10 (-exponent).toNat
  let unit := 4 * value.denominator * Nat.pow 10 exponent.toNat
  let position := 4 * value.significand * scale
  let (reachBelow, reachAbove) := value.reach
  let below := position / unit
  let rest := position % unit
  let isWithin (distance reach : Nat) : Bool :=
    distance < reach * scale || distance == reach * scale && value.significand % 2 == 0
  match isWithin rest reachBelow, isWithin (unit - rest) reachAbove with
  | false, false => none
  | true, false => some below
  | false, true => some (below + 1)
  | true, true => some (roundQuotient tie position unit)

def Scientific.trim (number : Scientific) : (bound : Nat) → Scientific
  | 0 => number
  | bound + 1 =>
    if number.figures % 10 = 0 then Scientific.trim ⟨number.figures / 10, number.exponent + 1⟩ bound
    else number

def shortestFrom (tie : Tie) (value : Binary) (leading : Int) (count : Nat) :
    (remaining : Nat) → Scientific
  | 0 => ⟨0, 0⟩
  | remaining + 1 =>
    let exponent := leading - (count - 1 : Nat)
    match gridNeighbour? tie value exponent with
    | some digits => Scientific.trim ⟨digits, exponent⟩ count
    | none => shortestFrom tie value leading (count + 1) remaining

def shortest (tie : Tie) (value : Binary) : Scientific :=
  if value.significand = 0 then ⟨0, 0⟩
  else shortestFrom tie value (leadingExponent value.numerator value.denominator) 1 17

structure Layout where
  tie : Tie
  isPositional : Int → Bool
  wholeEnding : String

def zeros (count : Nat) : List Char := List.replicate count '0'

def positional (layout : Layout) (number : Scientific) : List Char :=
  let figures := digits number.figures
  if 0 ≤ number.exponent then figures ++ zeros number.exponent.toNat ++ layout.wholeEnding.toList
  else if 0 ≤ number.leadingExponent then
    let whole := number.leadingExponent.toNat + 1
    figures.take whole ++ '.' :: figures.drop whole
  else '0' :: '.' :: zeros (-number.leadingExponent - 1).toNat ++ figures

def scientific (number : Scientific) : List Char :=
  let (first, others) := (digits number.figures).splitAt 1
  let exponent := number.leadingExponent
  first ++ (if others.isEmpty then [] else '.' :: others) ++
    'e' :: (if exponent < 0 then '-' else '+') :: digits exponent.natAbs

def signed (negative : Bool) (text : List Char) : String :=
  String.ofList (if negative then '-' :: text else text)

def Layout.text (layout : Layout) (x : Float) : String :=
  match decode x with
  | .notANumber => "NaN"
  | .infinite negative => signed negative "inf".toList
  | .finite value =>
    let number := shortest layout.tie value
    signed value.negative
      (if layout.isPositional number.leadingExponent then positional layout number
        else scientific number)

def withPoint (places units : Nat) : List Char :=
  let figures := digits (units % Nat.pow 10 places)
  digits (units / Nat.pow 10 places) ++ '.' :: (zeros (places - figures.length) ++ figures)

def fixed (places : Nat) (x : Float) : String :=
  match decode x with
  | .notANumber => "NaN"
  | .infinite negative => signed negative "inf".toList
  | .finite value =>
    signed value.negative
      (withPoint places
        (roundQuotient .even (value.numerator * Nat.pow 10 places) value.denominator))

end Treatise.Decimal
