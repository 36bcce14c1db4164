/-!
# The log

What would steer a terminal is left out of a text for the log: controls, and the sequences that an
escape starts.  Blanks that are controls stay, even within a sequence; what follows one is written
until the next control, at which the sequence goes on where it stood.
-/

namespace Treatise.CommandLine.Log

/-- How far a sequence has been read. -/
inductive Sequence where
  | ended
  | escape
  | marks
  | control
  | command
  | device
  | deviceParameters
  | deviceMarks
  | string

namespace Sequence

def keepsBlanks : Sequence → Bool
  | ended | escape | marks | control => true
  | command | device | deviceParameters | deviceMarks | string => false

def isMark (c : Char) : Bool := ' ' ≤ c && c ≤ '/'

def isParameter (c : Char) : Bool := '0' ≤ c && c ≤ ';'

def isPrivate (c : Char) : Bool := '<' ≤ c && c ≤ '?'

def isFinal (c : Char) : Bool := '@' ≤ c && c ≤ '~'

def afterEscape (c : Char) : Sequence :=
  if c = '[' then control
  else if c = ']' then command
  else if c = 'P' then device
  else if c = 'X' ∨ c = '^' ∨ c = '_' then string
  else if isMark c then marks
  else if isParameter c || isPrivate c || isFinal c then ended
  else escape

/-- The bytes of some characters include the terminator of strings. -/
def endsString (c : Char) : Bool := (String.singleton c).toUTF8.toList.contains 0x9C

def next (c : Char) : Sequence → Sequence
  | ended => ended
  | escape => afterEscape c
  | marks => if isParameter c || isPrivate c || isFinal c then ended else marks
  | control => if isFinal c then ended else control
  | command => if c = '\x07' then ended else command
  | device =>
    if isMark c then deviceMarks
    else if isParameter c || isPrivate c then deviceParameters
    else if isFinal c then string
    else device
  | deviceParameters =>
    if isMark c then deviceMarks
    else if isPrivate c || isFinal c then string
    else deviceParameters
  | deviceMarks => if isParameter c || isPrivate c || isFinal c then string else deviceMarks
  | string => if endsString c then ended else string

end Sequence

def isBlankControl (c : Char) : Bool := c = '\t' || c = '\n' || c = '\x0c' || c = '\r'

def isBeyondAscii (c : Char) : Bool := 128 ≤ c.toNat

def isPrinted (c : Char) : Bool :=
  (' ' ≤ c && c ≤ '~') || isBlankControl c || isBeyondAscii c

def restart? (c : Char) : Option Sequence :=
  if c = '\x18' ∨ c = '\x1a' then some .ended else if c = '\x1b' then some .escape else none

/-- What is written of a text; `writing` tells whether the last character was. -/
def plainFrom (writing : Bool) (sequence : Sequence) : List Char → List Char
  | [] => []
  | c :: rest =>
    match restart? c with
    | some sequence => plainFrom false sequence rest
    | none =>
      if writing then
        if isPrinted c then
          c :: plainFrom true (if isBeyondAscii c then .ended else sequence) rest
        else plainFrom false sequence rest
      else
        match sequence with
        | .ended =>
          if isPrinted c then c :: plainFrom true .ended rest else plainFrom false .ended rest
        | _ =>
          if sequence.keepsBlanks && isBlankControl c then c :: plainFrom true sequence rest
          else plainFrom false (sequence.next c) rest

def setIn (text : List Char) : List Char :=
  text.flatMap fun c => if c = '\n' then "\n    ".toList else [c]

def plain (text : String) : String := String.ofList (plainFrom false .ended (setIn text.toList))

/-! ## Entries -/

inductive Level where
  | debug
  | info
  | warning
  deriving DecidableEq

namespace Level

def name : Level → String
  | debug => "DEBUG"
  | info => "INFO"
  | warning => "WARN"

def weight : Level → Nat
  | debug => 0
  | info => 1
  | warning => 2

end Level

structure Entry where
  level : Level
  text : String
  deriving DecidableEq

def debug (text : String) : Entry := ⟨.debug, plain text⟩

def info (text : String) : Entry := ⟨.info, plain text⟩

def warning (text : String) : Entry := ⟨.warning, plain text⟩

def Entry.line (entry : Entry) : String := "[" ++ entry.level.name ++ "] " ++ entry.text

def shown (level : Level) (entries : List Entry) : List Entry :=
  entries.filter fun entry => level.weight ≤ entry.level.weight

def warnings (entries : List Entry) : List String :=
  (entries.filter fun entry => entry.level == .warning).map (·.text)

end Treatise.CommandLine.Log
