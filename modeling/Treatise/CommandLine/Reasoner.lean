import Treatise.CommandLine.Host
import Treatise.CommandLine.Log
import Treatise.Inference
import Treatise.N3.Document

/-!
# External reasoners

A reasoner is a program that reads facts and rules, each rule as clauses one to a line, and writes
what it derives as a fact file.  Whatever goes wrong with it is a failure of the oracle.
-/

namespace Treatise

structure Atom where
  subject : Char
  predicate : Predicate
  object : Char
  deriving DecidableEq

structure Clause where
  premises : List Atom
  conclusion : Atom
  deriving DecidableEq

def Atom.text (label : String) (atom : Atom) : String :=
  "?" ++ atom.subject.toString ++ " " ++ N3.labelled label atom.predicate.wireName ++ " ?" ++
    atom.object.toString

def Clause.text (label : String) (clause : Clause) : String :=
  "\x7b " ++ " . ".intercalate (clause.premises.map (Atom.text label)) ++ " \x7d => \x7b " ++
    clause.conclusion.text label ++ " \x7d .\n"

namespace Rule

def clauses : Rule → List Clause
  | citationDependency => [⟨[⟨'a', .cites, 'b'⟩], ⟨'a', .dependsOn, 'b'⟩⟩]
  | logicalDependency =>
    Predicate.logical.map fun predicate => ⟨[⟨'a', predicate, 'b'⟩], ⟨'a', .dependsOn, 'b'⟩⟩
  | transitiveDependency =>
    [⟨[⟨'a', .dependsOn, 'b'⟩], ⟨'a', .transitivelyDependsOn, 'b'⟩⟩,
      ⟨[⟨'a', .transitivelyDependsOn, 'b'⟩, ⟨'b', .transitivelyDependsOn, 'c'⟩],
        ⟨'a', .transitivelyDependsOn, 'c'⟩⟩]
  | circularArgument =>
    [⟨[⟨'x', .refutedByAbsurdity, 'y'⟩, ⟨'y', .refutedByAbsurdity, 'x'⟩],
      ⟨'x', .circularArgument, 'y'⟩⟩]
  | proofDerivation =>
    [⟨[⟨'p', .provedBy, 'q'⟩, ⟨'q', .cites, 'c'⟩], ⟨'p', .derivedFrom, 'c'⟩⟩,
      ⟨[⟨'c', .corollaryOf, 'p'⟩], ⟨'c', .derivedFrom, 'p'⟩⟩]
  | explanation => [⟨[⟨'a', .evidentFrom, 'b'⟩], ⟨'b', .explains, 'a'⟩⟩]

def text (label : String) (rules : List Rule) : String :=
  String.join ((rules.flatMap clauses).map (Clause.text label))

end Rule

end Treatise

namespace Treatise.CommandLine

/-- A command line split at its blanks into a program and its arguments. -/
structure ReasonerCommand where
  program : String
  arguments : List String
  deriving DecidableEq

def ReasonerCommand.ofText? (text : String) : Option ReasonerCommand :=
  match Text.words text.toList with
  | [] => none
  | program :: arguments => some ⟨String.ofList program, arguments.map String.ofList⟩

def reasonerInput (facts : List Statement) (rules : List Rule) : String :=
  N3.serialize N3.defaultLabel N3.defaultNamespace facts ++ "\n" ++
    Rule.text N3.defaultLabel rules

def readAnswer (output : ByteArray) : OracleAnswer :=
  match String.fromUTF8? output with
  | none => .error (.failed "reasoner output is not UTF-8")
  | some text =>
    match N3.Document.ofText N3.defaultLabel text with
    | .error error => .error (.failed ("unreadable reasoner output: " ++ error.message))
    | .ok document => .ok document.statements

def answerOf (program : String) (deadline : Nat) : Launch → OracleAnswer
  | .notStarted reason => .error (.failed ("cannot start " ++ program ++ ": " ++ reason))
  | .noInput => .error (.failed "reasoner stdin unavailable")
  | .overdue => .error (.timedOut deadline)
  | .lost reason => .error (.failed ("reasoner I/O failed: " ++ reason))
  | .aborted reason => .error (.failed ("reasoning task aborted: " ++ reason))
  | .exited status output errors _ =>
    if status = .code 0 then readAnswer output
    else
      .error (.failed (program ++ " exited with " ++ status.words ++ ": " ++
        String.ofList (Text.trim errors.toList)))

def ReasonerCommand.callOn (command : ReasonerCommand) (deadline : Nat) (facts : Store)
    (rules : List Rule) : Call :=
  ⟨command.program, command.arguments, reasonerInput facts.toList rules, deadline⟩

def Host.oracle (host : Host) (command : ReasonerCommand) (deadline : Nat) : Oracle where
  name := command.program
  infer facts rules :=
    answerOf command.program deadline (host.launch (command.callOn deadline facts rules))

/-! ## The log of a reasoner -/

def documentEntry (document : N3.Document) : Log.Entry :=
  Log.debug ("Parsed N3: " ++ Decimal.ofNat document.statements.length ++ " statements, " ++
    Decimal.ofNat document.ruleCount ++ " rule blocks, " ++
    Decimal.ofNat document.skippedCount ++ " skipped")

/-- The reading of a text is logged when the text is a document. -/
def readingEntries (text : String) : List Log.Entry :=
  match N3.Document.ofText N3.defaultLabel text with
  | .error _ => []
  | .ok document => [documentEntry document]

def outcomeEntries : Launch → List Log.Entry
  | .exited (.code 0) output _ unread =>
    (unread.toList.map fun reason => Log.debug ("Reasoner closed stdin early: " ++ reason)) ++
      (String.fromUTF8? output).toList.flatMap readingEntries
  | _ => []

def Host.exchangeEntries (host : Host) (command : ReasonerCommand) (deadline : Nat)
    (facts : Store) (rules : List Rule) : List Log.Entry :=
  Log.debug ("Sending " ++ Decimal.ofNat facts.size ++ " statements and " ++
      Decimal.ofNat rules.length ++ " rules to " ++ command.program) ::
    outcomeEntries (host.launch (command.callOn deadline facts rules))

end Treatise.CommandLine
