import Treatise.Decimal
import Treatise.Text.Cut

/-!
# The arguments of the program

Words are read from left to right.  Asking for help or for the version is answered at once, and
the first word that cannot be read ends the reading.
-/

namespace Treatise.CommandLine

inductive Request where
  | query (id : String)
  | chains (id : String)
  | analyze (id : String)
  | inspect (id : String)
  | report (top : Nat)
  | validate
  | stats
  | reason
  deriving DecidableEq

/-- Whether the answer depends on derived facts. -/
def Request.needsDerived : Request → Bool
  | query _ | chains _ | inspect _ | reason => true
  | analyze _ | report _ | validate | stats => false

structure Invocation where
  request : Request
  facts : List String
  derived : Option String
  config : Option String
  reasoner : Option String
  deadline : Nat
  noReason : Bool
  json : Bool
  verbose : Bool
  quiet : Bool
  deriving DecidableEq

inductive Parsed where
  | help
  | version
  | invocation (invocation : Invocation)
  deriving DecidableEq

inductive Command where
  | query
  | chains
  | analyze
  | inspect
  | report
  | validate
  | stats
  | reason
  deriving DecidableEq

namespace Command

def all : List Command :=
  [.query, .chains, .analyze, .inspect, .report, .validate, .stats, .reason]

def name : Command → String
  | query => "query"
  | chains => "chains"
  | analyze => "analyze"
  | inspect => "inspect"
  | report => "report"
  | validate => "validate"
  | stats => "stats"
  | reason => "reason"

def ofName? (name : String) : Option Command := all.find? fun command => command.name == name

def takesElement : Command → Bool
  | query | chains | analyze | inspect => true
  | report | validate | stats | reason => false

def switches : List String := ["verbose", "quiet", "no-reason", "json"]

def options (command : Command) : List String :=
  ["facts", "derived", "config", "reasoner", "oracle-timeout-secs"] ++
    if command = report then ["top"] else []

end Command

inductive Word where
  | terminator
  | long (name : String) (value : Option String)
  | short (letters : List Char)
  | operand (text : String)
  deriving DecidableEq

def Word.ofText (text : String) : Word :=
  match text.toList with
  | ['-', '-'] => .terminator
  | '-' :: '-' :: name =>
    match Text.cut '=' name with
    | some (name, value) => .long (String.ofList name) (some (String.ofList value))
    | none => .long (String.ofList name) none
  | '-' :: c :: letters => .short (c :: letters)
  | _ => .operand text

def switchOfLetter : Char → String
  | 'v' => "verbose"
  | 'h' => "help"
  | 'V' => "version"
  | c => c.toString

def number? (text : String) : Option Nat :=
  (Decimal.word64? (match text.toList with
    | '+' :: digits => digits
    | digits => digits)).map UInt64.toNat

/-- What has been read of a command and of the switches before it. -/
structure Draft where
  command : Command
  opening : List String
  switches : List String
  values : List (String × String)
  operands : List String

namespace Draft

def start (opening : List String) (command : Command) : Draft := ⟨command, opening, [], [], []⟩

def isOn (draft : Draft) (switch : String) : Bool :=
  draft.opening.contains switch || draft.switches.contains switch

/-- The last value of an option; only an option that may be repeated has several. -/
def value? (draft : Draft) (option : String) : Option String :=
  (draft.values.find? fun (name, _) => name == option).map (·.2)

def isValue (option value : String) : Bool :=
  if option = "facts" ∨ option = "derived" ∨ option = "config" then !value.isEmpty
  else if option = "top" ∨ option = "oracle-timeout-secs" then (number? value).isSome
  else true

def addValue? (draft : Draft) (option value : String) : Option Draft :=
  if draft.command.options.contains option ∧ isValue option value ∧
      (option = "facts" ∨ draft.value? option = none) then
    some { draft with values := (option, value) :: draft.values }
  else none

def addOperand? (draft : Draft) (operand : String) : Option Draft :=
  if draft.command.takesElement ∧ draft.operands = [] then
    some { draft with operands := [operand] }
  else none

def addOperands? (draft : Draft) : List String → Option Draft
  | [] => some draft
  | operand :: rest => (draft.addOperand? operand).bind fun draft => draft.addOperands? rest

inductive Continued where
  | draft (draft : Draft)
  | answer (parsed : Parsed)

def addSwitches? (draft : Draft) : List String → Option Continued
  | [] => some (.draft draft)
  | name :: rest =>
    if name = "help" then some (.answer .help)
    else if Command.switches.contains name ∧ ¬ draft.switches.contains name then
      { draft with switches := name :: draft.switches }.addSwitches? rest
    else none

def request? (draft : Draft) : Option Request :=
  match draft.command, draft.operands with
  | .query, [id] => some (.query id)
  | .chains, [id] => some (.chains id)
  | .analyze, [id] => some (.analyze id)
  | .inspect, [id] => some (.inspect id)
  | .report, [] => some (.report (((draft.value? "top").bind number?).getD 10))
  | .validate, [] => some .validate
  | .stats, [] => some .stats
  | .reason, [] => some .reason
  | _, _ => none

def factFiles (draft : Draft) : List String :=
  ((draft.values.filter fun (name, _) => name == "facts").map (·.2)).reverse

def finish? (draft : Draft) : Option Parsed := do
  let request ← draft.request?
  if draft.factFiles.isEmpty then none
  else
    some (.invocation {
      request
      facts := draft.factFiles
      derived := draft.value? "derived"
      config := draft.value? "config"
      reasoner := draft.value? "reasoner"
      deadline := ((draft.value? "oracle-timeout-secs").bind number?).getD 30
      noReason := draft.switches.contains "no-reason"
      json := draft.switches.contains "json"
      verbose := draft.isOn "verbose"
      quiet := draft.isOn "quiet" })

/-- Reads the words after a command; `pending` is an option that still lacks its value. -/
def read (draft : Draft) (pending : Option String) : List String → Option Parsed
  | [] => if pending = none then draft.finish? else none
  | word :: rest =>
    match pending, Word.ofText word with
    | some option, .operand value =>
      (draft.addValue? option value).bind fun draft => draft.read none rest
    | some _, _ => none
    | none, .terminator => (draft.addOperands? rest).bind finish?
    | none, .operand operand => (draft.addOperand? operand).bind fun draft => draft.read none rest
    | none, .long name (some value) =>
      (draft.addValue? name value).bind fun draft => draft.read none rest
    | none, .long name none =>
      if draft.command.options.contains name then draft.read (some name) rest
      else
        (draft.addSwitches? [name]).bind fun
          | .draft draft => draft.read none rest
          | .answer parsed => some parsed
    | none, .short letters =>
      (draft.addSwitches? (letters.map switchOfLetter)).bind fun
        | .draft draft => draft.read none rest
        | .answer parsed => some parsed

end Draft

inductive Opening where
  | switches (given : List String)
  | answer (parsed : Parsed)

def openingSwitches? (given : List String) : List String → Option Opening
  | [] => some (.switches given)
  | name :: rest =>
    if name = "help" then some (.answer .help)
    else if name = "version" then some (.answer .version)
    else if (name = "verbose" ∨ name = "quiet") ∧ ¬ given.contains name then
      openingSwitches? (name :: given) rest
    else none

def helpCommand? : List String → Option Parsed
  | [] => some .help
  | [topic] => if topic = "help" ∨ (Command.ofName? topic).isSome then some .help else none
  | _ => none

def readFrom (given : List String) : List String → Option Parsed
  | [] => none
  | word :: rest =>
    match Word.ofText word with
    | .operand name =>
      if name = "help" then helpCommand? rest
      else
        (Command.ofName? name).bind fun command => (Draft.start given command).read none rest
    | .long name none =>
      (openingSwitches? given [name]).bind fun
        | .switches given => readFrom given rest
        | .answer parsed => some parsed
    | .short letters =>
      (openingSwitches? given (letters.map switchOfLetter)).bind fun
        | .switches given => readFrom given rest
        | .answer parsed => some parsed
    | .long _ (some _) | .terminator => none

def parse (arguments : List String) : Option Parsed := readFrom [] arguments

end Treatise.CommandLine
