import Treatise.Text.Classes
import Treatise.Text.Cut

/-!
# Cheap checks on the lines of a fact file

A line is judged without the blanks at its ends.  A shape is a function from a text to what is left
after it, and `occurs` tries it at every place.  A shape that starts with a run of some class need
not be tried inside of a run (`followsRun_eq_occurs`).
-/

namespace Treatise.N3.Lint

inductive Problem where
  | unterminatedDirective
  | doubleSemicolon
  | doublePeriod
  | missingTerminator
  | crampedSeparator
  | unusualScheme (address : String)
  deriving DecidableEq

def Problem.words : Problem → String
  | unterminatedDirective => "@prefix must end with ' .'"
  | doubleSemicolon => "double semicolon"
  | doublePeriod => "double period"
  | missingTerminator => "triple may be missing terminator"
  | crampedSeparator => "missing space around separator"
  | unusualScheme address => "unusual URI scheme: " ++ address

structure Finding where
  line : Nat
  problem : Problem
  deriving DecidableEq

structure Report where
  errors : List Finding
  warnings : List Finding
  deriving DecidableEq

def Report.isClean (report : Report) : Bool := report.errors.isEmpty && report.warnings.isEmpty

abbrev Shape := List Char → Option (List Char)

def occurs (shape : Shape) : List Char → Bool
  | [] => (shape []).isSome
  | c :: rest => (shape (c :: rest)).isSome || occurs shape rest

def exactly (text : List Char) : Shape := fun input =>
  if text.isPrefixOf input then some (input.drop text.length) else none

def run (isMember : Char → Bool) : Shape := fun input =>
  if (input.takeWhile isMember).isEmpty then none else some (input.dropWhile isMember)

/-- A run of the class as `run` reads it whose last character is of a narrower class. -/
def runEnding (isMember isLast : Char → Bool) : Shape := fun input =>
  if (input.takeWhile isMember).getLast?.any isLast then some (input.dropWhile isMember) else none

def followsRun (isMember : Char → Bool) (shape : Shape) (text : List Char) : Bool :=
  match text with
  | [] => false
  | c :: rest =>
    if isMember c then
      let after := rest.dropWhile isMember
      (shape after).isSome || followsRun isMember shape after
    else followsRun isMember shape rest
termination_by text.length
decreasing_by
  · exact Nat.lt_succ_of_le (Text.length_dropWhile_le _ rest)
  · simp

/-- Past the run at the front a shape that starts with a run occurs, or at the front itself. -/
theorem occurs_run_bind (isMember : Char → Bool) (shape : Shape) (text : List Char) :
    occurs (fun input => (run isMember input).bind shape) text =
      (((run isMember text).bind shape).isSome ||
        occurs (fun input => (run isMember input).bind shape) (text.dropWhile isMember)) := by
  induction text with
  | nil => simp [occurs, run]
  | cons c rest ih =>
      by_cases hmember : isMember c
      · rw [List.dropWhile_cons_of_pos hmember]
        simp only [occurs]
        rw [ih, ← Bool.or_assoc]
        congr 1
        by_cases hnone : (rest.takeWhile isMember).isEmpty
        · simp [run, hnone]
        · simp [run, hnone, hmember]
      · rw [List.dropWhile_cons_of_neg hmember]
        simp [occurs]

theorem followsRun_eq_occurs (isMember : Char → Bool) (shape : Shape) (text : List Char) :
    followsRun isMember shape text =
      occurs (fun input => (run isMember input).bind shape) text := by
  fun_induction followsRun isMember shape text with
  | case1 => simp [occurs, run]
  | case2 c rest hmember hafter ih =>
      rw [occurs_run_bind, ih, List.dropWhile_cons_of_pos hmember]
      simp [run, hmember, hafter]
  | case3 c rest hmember ih => simp [occurs, run, hmember, ih]

def oneOf (marks : List Char) : Shape
  | [] => none
  | c :: rest => if marks.contains c then some rest else none

def isDottedWord (c : Char) : Bool := Text.isWord c || c == '.'

def localName : Shape := fun input => do run isDottedWord (← exactly [':'] input)

/-- What follows the label of a name that starts a triple: its local name and a second name, with
blanks after each. -/
def tripleStart : Shape := fun input => do
  let middle ← run Text.isBlank (← localName input)
  run Text.isBlank (← localName (← run isDottedWord middle))

def crampedNames : Shape := fun input => do
  let second ← oneOf [';', ','] (← runEnding isDottedWord Text.isWord (← exactly [':'] input))
  run Text.isWord (← exactly [':'] (← run Text.isWord second))

def addresses (text : List Char) : List (List Char) :=
  match text with
  | [] => []
  | c :: rest =>
    if c = '<' ∧ rest.head? ≠ some '>' then
      if rest.contains '>' then
        rest.takeWhile (· != '>') :: addresses (rest.dropWhile (· != '>'))
      else []
    else addresses rest
termination_by text.length
decreasing_by
  · exact Nat.lt_succ_of_le (Text.length_dropWhile_le _ rest)
  · simp

def isUsualAddress (address : List Char) : Bool :=
  "http".toList.isPrefixOf address || "file".toList.isPrefixOf address ||
    "urn".toList.isPrefixOf address

def contains (mark : String) (line : List Char) : Bool := occurs (exactly mark.toList) line

def endsWith (mark : String) (line : List Char) : Bool := mark.toList.isSuffixOf line

def startsWith (mark : String) (line : List Char) : Bool := mark.toList.isPrefixOf line

def isTerminated (line : List Char) : Bool :=
  endsWith " ." line || endsWith " ;" line || endsWith " ," line

def hasBrace (line : List Char) : Bool := line.contains '{' || line.contains '}'

def errorsOf (line : List Char) : List Problem :=
  if startsWith "@prefix" line then
    if endsWith " ." line then [] else [.unterminatedDirective]
  else
    (if contains ";;" line then [.doubleSemicolon] else []) ++
      (if contains ".." line && !contains "..." line then [.doublePeriod] else [])

def warningsOf (line : List Char) : List Problem :=
  if startsWith "@prefix" line then []
  else
    (if followsRun isDottedWord tripleStart line && !isTerminated line && !hasBrace line then
      [.missingTerminator] else []) ++
    (if followsRun Text.isWord crampedNames line then [.crampedSeparator] else []) ++
    ((addresses line).filter fun address => !isUsualAddress address).map fun address =>
      .unusualScheme (String.ofList address)

/-- The lines to be judged, without the blanks at their ends, and their numbers from one on. -/
def judgedLines (text : List Char) : List (List Char × Nat) :=
  (((Text.lines text).map Text.trim).zipIdx 1).filter fun (line, _) =>
    !line.isEmpty && !startsWith "#" line

def findings (problemsOf : List Char → List Problem) (text : List Char) : List Finding :=
  (judgedLines text).flatMap fun (line, number) =>
    (problemsOf line).map fun problem => ⟨number, problem⟩

def check (text : String) : Report where
  errors := findings errorsOf text.toList
  warnings := findings warningsOf text.toList

end Treatise.N3.Lint
