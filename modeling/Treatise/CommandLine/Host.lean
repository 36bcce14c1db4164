import Treatise.Decimal
import Treatise.Text.Cut

/-!
# Files and programs outside

A host reads files and runs programs, and neither has to succeed.  A path is followed through a
directory part by part; outside it only the directories that every system has are known.
-/

namespace Treatise.CommandLine

inductive FileError where
  | notFound
  | notDirectory
  | isDirectory
  | nameTooLong
  | notPermitted
  deriving DecidableEq

def FileError.words : FileError → String
  | notFound => "No such file or directory"
  | notDirectory => "Not a directory"
  | isDirectory => "Is a directory"
  | nameTooLong => "File name too long"
  | notPermitted => "Permission denied"

def FileError.number : FileError → String
  | notFound => "2"
  | notDirectory => "20"
  | isDirectory => "21"
  | nameTooLong => "36"
  | notPermitted => "13"

def FileError.message (error : FileError) : String :=
  error.words ++ " (os error " ++ error.number ++ ")"

inductive Source where
  | text (content : String)
  | input

namespace Source

def content (input : String) : Source → String
  | .text content => content
  | .input => input

def leftover (input : String) : Source → String
  | .text _ => input
  | .input => ""

end Source

abbrev Directory := List (String × String)

namespace Directory

def inputs : List String := ["dev/fd/0", "dev/stdin", "proc/self/fd/0"]

/-- What every system has; none of these files holds a text. -/
def system : Directory :=
  (inputs ++ ["bin/", "boot/", "dev/null", "dev/shm/", "etc/", "home/", "lib/", "media/", "mnt/",
    "opt/", "run/", "sbin/", "srv/", "sys/", "tmp/", "usr/bin/", "usr/lib/", "usr/local/bin/",
    "usr/sbin/", "usr/share/", "var/lib/", "var/log/", "var/tmp/"]).map fun name => (name, "")

def joinNames (names : List (List Char)) : String := String.ofList (['/'].intercalate names)

def file? (directory : Directory) (names : List (List Char)) : Option String :=
  (directory.find? fun (name, _) => name == joinNames names).map (·.2)

def hasDirectory (directory : Directory) (names : List (List Char)) : Bool :=
  names.isEmpty || directory.any fun (name, _) =>
    (joinNames names ++ "/").toList.isPrefixOf name.toList

end Directory

/-- Where a path has led: by these names from the directory, or from the root. -/
inductive Place where
  | within (names : List (List Char))
  | outside (names : List (List Char))
  deriving DecidableEq

namespace Place

def ofPath (path : String) : Place :=
  if path.toList.head? = some '/' then outside [] else within []

def back : Place → Place
  | within [] => outside [['t', 'm', 'p']]
  | within (name :: names) => within (name :: names).dropLast
  | outside names => outside names.dropLast

def child (name : List Char) : Place → Place
  | within names => within (names ++ [name])
  | outside names => outside (names ++ [name])

end Place

namespace Directory

def sourceAt? (directory : Directory) : Place → Option Source
  | .within names => (directory.file? names).map .text
  | .outside names =>
    if inputs.contains (joinNames names) then some .input else (system.file? names).map .text

def isDirectoryAt (directory : Directory) : Place → Bool
  | .within names => directory.hasDirectory names
  | .outside names => system.hasDirectory names

def longestName : Nat := 255

def longestPath : Nat := 4095

def follow (directory : Directory) (place : Place) (part : List Char) : Except FileError Place :=
  let next := place.child part
  if !directory.isDirectoryAt place then .error .notDirectory
  else if part = [] ∨ part = ['.'] then .ok place
  else if part = ['.', '.'] then .ok place.back
  else if longestName < (String.ofList part).utf8ByteSize then .error .nameTooLong
  else if (directory.sourceAt? next).isSome || directory.isDirectoryAt next then .ok next
  else .error .notFound

def find (directory : Directory) (path : String) : Except FileError Place :=
  if path = "" then .error .notFound
  else if longestPath < path.utf8ByteSize then .error .nameTooLong
  else (Text.segments '/' path.toList).foldlM directory.follow (Place.ofPath path)

def read (directory : Directory) (path : String) : Except FileError Source :=
  match directory.find path with
  | .error error => .error error
  | .ok place =>
    match directory.sourceAt? place with
    | some source => .ok source
    | none => .error .isDirectory

end Directory

structure Call where
  program : String
  arguments : List String
  input : String
  deadline : Nat

def signalNames : List String :=
  ["HUP", "INT", "QUIT", "ILL", "TRAP", "ABRT", "BUS", "FPE", "KILL", "USR1", "SEGV", "USR2",
    "PIPE", "ALRM", "TERM", "STKFLT", "CHLD", "CONT", "STOP", "TSTP", "TTIN", "TTOU", "URG",
    "XCPU", "XFSZ", "VTALRM", "PROF", "WINCH", "IO", "PWR", "SYS"]

inductive ExitStatus where
  | code (number : Nat)
  | signal (number : Nat) (dumpedCore : Bool)
  deriving DecidableEq

namespace ExitStatus

def signalSuffix (number : Nat) : String :=
  match ("" :: signalNames)[number]? with
  | none | some "" => ""
  | some name => " (SIG" ++ name ++ ")"

def words : ExitStatus → String
  | code number => "exit status: " ++ Decimal.ofNat number
  | signal number dumpedCore =>
    "signal: " ++ Decimal.ofNat number ++ signalSuffix number ++
      if dumpedCore then " (core dumped)" else ""

end ExitStatus

inductive Launch where
  | notStarted (reason : String)
  | noInput
  | overdue
  | lost (reason : String)
  | aborted (reason : String)
  /-- It ended; `unread` says why it did not take all of its input, if it did not. -/
  | exited (status : ExitStatus) (output : ByteArray) (errors : String) (unread : Option String)

structure Host where
  readFile : String → Except FileError String
  launch : Call → Launch

end Treatise.CommandLine
