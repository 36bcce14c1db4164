/-!
# Taking texts apart

Texts are cut at given characters, or scanned piece by piece.  A scanner hands on what it found, the
state in which the next piece is read and the rest, which is shorter than what it was given.
-/

namespace Treatise.Text

def cut (mark : Char) : List Char → Option (List Char × List Char)
  | [] => none
  | c :: rest =>
    if c = mark then some ([], rest)
    else (cut mark rest).map fun (before, after) => (c :: before, after)

/-- The text after the last character of the class, or the whole text. -/
def afterLast (isMark : Char → Bool) (text : List Char) : List Char :=
  (text.reverse.takeWhile fun c => !isMark c).reverse

def segments (mark : Char) : List Char → List (List Char)
  | [] => [[]]
  | c :: rest =>
    if c = mark then [] :: segments mark rest
    else
      match segments mark rest with
      | [] => [[c]]
      | first :: others => (c :: first) :: others

def lines : List Char → List (List Char)
  | [] => []
  | c :: rest =>
    if c = '\n' then [] :: lines rest
    else
      match lines rest with
      | [] => [[c]]
      | first :: others => (c :: first) :: others

structure Scanned (σ α : Type) (input : List Char) where
  items : List α
  state : σ
  rest : List Char
  shorter : rest.length < input.length

def scanAll {σ ε α : Type}
    (step : σ → (c : Char) → (rest : List Char) → Except ε (Scanned σ α (c :: rest)))
    (state : σ) (input : List Char) : Except ε (List α) :=
  match input with
  | [] => .ok []
  | c :: rest =>
    match step state c rest with
    | .error fault => .error fault
    | .ok scanned => (scanned.items ++ ·) <$> scanAll step scanned.state scanned.rest
termination_by input.length
decreasing_by exact scanned.shorter

theorem scanAll_nil {σ ε α : Type}
    (step : σ → (c : Char) → (rest : List Char) → Except ε (Scanned σ α (c :: rest)))
    (state : σ) : scanAll step state [] = .ok [] := by
  rw [scanAll]

theorem length_dropWhile_le (isMember : Char → Bool) (text : List Char) :
    (text.dropWhile isMember).length ≤ text.length :=
  (List.dropWhile_sublist isMember).length_le

def alignLeft (width : Nat) (text : String) : String :=
  text ++ "".pushn ' ' (width - text.length)

def alignRight (width : Nat) (text : String) : String :=
  "".pushn ' ' (width - text.length) ++ text

end Treatise.Text
