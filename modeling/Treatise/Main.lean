import Treatise.CommandLine.Programs
import Treatise.CommandLine.Run

/-!
# The program

The answer goes to the standard output, the log and failures to the standard error.
-/

namespace Treatise.CommandLine

def leadsToInput (path : String) : Bool := Directory.read [] path matches .ok .input

/-- The files that an invocation may read.  A reasoner has an input of its own. -/
def Invocation.paths (invocation : Invocation) : List String :=
  invocation.facts ++ invocation.derived.toList ++ invocation.config.toList ++
    match invocation.reasoner.bind ReasonerCommand.ofText? with
    | none => []
    | some command => (command.program :: command.arguments).filter (!leadsToInput ·)

def pathsOf (arguments : List String) : List String :=
  match parse arguments with
  | some (.invocation invocation) => invocation.paths
  | _ => []

/-- The cause that the system's number for an error names; some calls give its negative. -/
def FileError.ofNumber (number : UInt32) : FileError :=
  let causes := [.notDirectory, .isDirectory, .nameTooLong, .notPermitted]
  (causes.find? fun cause => cause.number == toString (min number (0 - number))).getD .notFound

def FileError.ofSystem : IO.Error → FileError
  | .noFileOrDirectory _ number _ | .permissionDenied _ number _ | .inappropriateType _ number _
  | .invalidArgument _ number _ | .otherError number _ => ofNumber number
  | _ => .notFound

def readFiles : List String → IO (List (String × Except FileError String))
  | [] => pure []
  | path :: rest => do
    let file ← (IO.FS.readFile path).toBaseIO
    let files ← readFiles rest
    return (path, file.mapError FileError.ofSystem) :: files

def fileIn (files : List (String × Except FileError String)) (path : String) :
    Except FileError String :=
  ((files.find? fun (name, _) => name == path).map (·.2)).getD (.error .notFound)

def hostOf (files : List (String × Except FileError String)) : Host where
  readFile := fileIn files
  launch := Programs.launch fun path =>
    if leadsToInput path then .ok .input else (fileIn files path).map .text

end Treatise.CommandLine

open Treatise.CommandLine

def main (arguments : List String) : IO UInt32 := do
  let files ← readFiles (pathsOf arguments)
  let outcome := run (hostOf files) arguments
  for entry in log (hostOf files) arguments do
    IO.eprintln entry.line
  IO.print outcome.output
  match outcome.failure with
  | some failure => IO.eprintln failure.report
  | none => pure ()
  return outcome.code
