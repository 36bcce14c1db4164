import Treatise.CommandLine.Host
import Treatise.Text.Cut

/-!
# Programs that can stand in for a reasoner

They copy files or their input, write what a template stands for, wait, or only succeed or fail.  A
program that takes no less time than it may is overdue.
-/

namespace Treatise.Text

def isPlainInShell (c : Char) : Bool := c.isAlphanum || "%+,-./@]_".toList.contains c

def isBareWord : List Char → Bool
  | [] => false
  | [c] => isPlainInShell c
  | first :: rest =>
    (isPlainInShell first || first = '{' || first = '}') &&
      rest.all fun c => isPlainInShell c || "#~{}".toList.contains c

def isKeptInDouble (c : Char) : Bool := isPlainInShell c || " ':".toList.contains c

def prefersDouble : List Char → Bool
  | [] => false
  | first :: rest =>
    (first :: rest).contains '\'' && (isKeptInDouble first || "#~".toList.contains first) &&
      rest.all isKeptInDouble

def controlLetters : List Char := ['a', 'b', 't', 'n', 'v', 'f', 'r']

def octalEscape (byte : UInt8) : List Char :=
  let value := byte.toNat
  '\\' :: [value / 64, value / 8 % 8, value % 8].map Nat.digitChar

def escapeInShell (c : Char) : List Char :=
  match if c.toNat < 7 then none else controlLetters[c.toNat - 7]? with
  | some letter => ['\\', letter]
  | none => (String.singleton c).toUTF8.toList.flatMap octalEscape

def isPrintableAscii (c : Char) : Bool := ' ' ≤ c && c ≤ '~'

/-- What stands between single quotes for a word; `escaping` tells whether escapes were just
written, so that the next plain character closes their stretch and opens another. -/
def singleQuoted (escaping : Bool) : List Char → List Char
  | [] => []
  | c :: rest =>
    if c = '\'' then ['\'', '\\', '\'', '\''] ++ singleQuoted false rest
    else if isPrintableAscii c then
      (if escaping then ['\'', '\''] else []) ++ c :: singleQuoted false rest
    else
      (if escaping then [] else ['\'', '$', '\'']) ++ escapeInShell c ++ singleQuoted true rest

/-- Whether a word holds a single quote and ends in an escape.  Such a word is written as if escapes
had come before it. -/
def startsEscaping (text : List Char) : Bool :=
  text.contains '\'' && text.getLast?.any fun c => !isPrintableAscii c

def shellWord (word : String) : String :=
  let text := word.toList
  if isBareWord text then word
  else if prefersDouble text then "\"" ++ word ++ "\""
  else "'" ++ String.ofList (singleQuoted (startsEscaping text) text) ++ "'"

end Treatise.Text

namespace Treatise.CommandLine.Template

inductive Fault where
  | noHexDigits
  | noCharacter (written : List Char)
  | noDirective (written : List Char)

def Fault.message : Fault → String
  | noHexDigits => "missing hexadecimal number in escape"
  | noCharacter written => "invalid universal character name " ++ String.ofList written
  | noDirective written => String.ofList written ++ ": invalid conversion specification"

def bytesOf (text : List Char) : List UInt8 := (String.ofList text).toUTF8.toList

def isOctalDigit (c : Char) : Bool := '0' ≤ c && c ≤ '7'

def isHexDigit (c : Char) : Bool := c.isDigit || ('a' ≤ c && c ≤ 'f') || ('A' ≤ c && c ≤ 'F')

def hexValue (digits : List Char) : Nat :=
  digits.foldl (fun value c =>
    16 * value + (if c.isDigit then c.toNat - '0'.toNat else c.toLower.toNat - 'a'.toNat + 10)) 0

def hexDigits (count value : Nat) : List Char :=
  let digits := Nat.toDigits 16 value
  List.replicate (count - digits.length) '0' ++ digits

def letterEscape? : Char → Option Char
  | 'a' => some '\x07'
  | 'b' => some '\x08'
  | 'e' => some '\x1b'
  | 'f' => some '\x0c'
  | 'n' => some '\n'
  | 'r' => some '\r'
  | 't' => some '\t'
  | 'v' => some '\x0b'
  | '\\' => some '\\'
  | '"' => some '"'
  | _ => none

/-- What an escape is written as for a code point; only ASCII is written as it is. -/
def codePointText (point : Nat) : List Char :=
  if point < 128 then [Char.ofNat point]
  else
    let count := if point < 0x10000 then 4 else 8
    '\\' :: (if count = 4 then 'u' else 'U') :: (hexDigits count point).map Char.toUpper

def readEscape (text : List Char) : Except Fault (List UInt8 × List Char) :=
  let octal := (text.take 3).takeWhile isOctalDigit
  if octal ≠ [] then .ok ([UInt8.ofNat (Nat.ofDigitChars 8 octal 0)], text.drop octal.length)
  else
    match text with
    | [] => .ok (bytesOf ['\\'], [])
    | 'c' :: _ => .ok ([], [])
    | 'x' :: rest =>
      let digits := (rest.take 2).takeWhile isHexDigit
      if digits = [] then .error .noHexDigits
      else .ok ([UInt8.ofNat (hexValue digits)], rest.drop digits.length)
    | c :: rest =>
      if c = 'u' ∨ c = 'U' then
        let count := if c = 'u' then 4 else 8
        let digits := (rest.take count).takeWhile isHexDigit
        let point := hexValue digits
        if digits.length < count then .error .noHexDigits
        else if 0xD800 ≤ point ∧ point < 0xE000 then
          .error (.noCharacter ('\\' :: c :: hexDigits count point))
        else .ok (bytesOf (codePointText point), rest.drop count)
      else
        match letterEscape? c with
        | some escaped => .ok (bytesOf [escaped], rest)
        | none => .ok (bytesOf ['\\', c], rest)

structure Field where
  flags : List Char
  width : Nat
  precision : Option Nat
  conversion : Char

namespace Field

def has (field : Field) (flag : Char) : Bool := field.flags.contains flag

def isSigned (field : Field) : Bool := "aAdeEfFgGi".toList.contains field.conversion

def isInteger (field : Field) : Bool := "diouxX".toList.contains field.conversion

def isAdmitted (field : Field) : Bool :=
  "aAcdeEfFgGiosuxX".toList.contains field.conversion &&
    !((field.has '\'' || field.has 'I') && "aAceEosxX".toList.contains field.conversion) &&
    !(field.has '#' && "cdisu".toList.contains field.conversion) &&
    !(field.has '0' && "cs".toList.contains field.conversion) &&
    !(field.precision.isSome && field.conversion = 'c')

def lead (field : Field) : List Char :=
  (if !field.isSigned then []
    else if field.has '+' then ['+'] else if field.has ' ' then [' '] else []) ++
  match field.conversion with
  | 'a' => ['0', 'x']
  | 'A' => ['0', 'X']
  | _ => []

def places (field : Field) (count : Nat) : List Char :=
  '0' :: (if count = 0 ∧ !field.has '#' then [] else '.' :: List.replicate count '0')

def zero (field : Field) : List Char :=
  match field.conversion with
  | 'a' => field.places (field.precision.getD 0) ++ ['p', '+', '0']
  | 'A' => field.places (field.precision.getD 0) ++ ['P', '+', '0']
  | 'e' => field.places (field.precision.getD 6) ++ ['e', '+', '0', '0']
  | 'E' => field.places (field.precision.getD 6) ++ ['E', '+', '0', '0']
  | 'f' | 'F' => field.places (field.precision.getD 6)
  | 'g' | 'G' => field.places (if field.has '#' then field.precision.getD 6 - 1 else 0)
  | 'o' => List.replicate (max (field.precision.getD 1) (if field.has '#' then 1 else 0)) '0'
  | _ => List.replicate (field.precision.getD 1) '0'

def text (field : Field) : List Char :=
  let (lead, body) :=
    if field.conversion = 's' then ([], [])
    else if field.conversion = 'c' then ([], ['\x00'])
    else (field.lead, field.zero)
  let missing := field.width - (lead.length + body.length)
  if field.has '-' then lead ++ body ++ List.replicate missing ' '
  else if field.has '0' ∧ !(field.isInteger ∧ field.precision.isSome) then
    lead ++ List.replicate missing '0' ++ body
  else List.replicate missing ' ' ++ lead ++ body

end Field

def readCount (text : List Char) : Nat × List Char :=
  match text with
  | '*' :: rest => (0, rest)
  | _ =>
    let digits := text.takeWhile Char.isDigit
    (Nat.ofDigitChars 10 digits 0, text.drop digits.length)

def readPrecision (text : List Char) : Option Nat × List Char :=
  match text with
  | '.' :: rest => (some (readCount rest).1, (readCount rest).2)
  | _ => (none, text)

def isLengthMark (c : Char) : Bool := "lLhjtz".toList.contains c

def readField (text : List Char) : (Char → Field) × List Char :=
  let flags := text.takeWhile "-+ #0'I".toList.contains
  let width := readCount (text.drop flags.length)
  let precision := readPrecision width.2
  (Field.mk flags width.1 precision.1, precision.2.dropWhile isLengthMark)

def written (before : List Char) (conversion : Option Char) : List Char :=
  '%' :: before ++
    match conversion with
    | none => []
    | some c => if c.toNat < 128 then [c] else ['\uFFFD']

def readDirective (text : List Char) : Except Fault (List UInt8 × List Char) :=
  match text with
  | '%' :: rest => .ok (bytesOf ['%'], rest)
  | 'b' :: rest | 'q' :: rest => .ok ([], rest)
  | _ =>
    let before := text.take (text.length - (readField text).2.length)
    match (readField text).2 with
    | [] => .error (.noDirective (written before none))
    | conversion :: rest =>
      let field := (readField text).1 conversion
      if field.isAdmitted then .ok (bytesOf field.text, rest)
      else .error (.noDirective (written before (some conversion)))

theorem length_readEscape {text : List Char} {read : List UInt8 × List Char}
    (hread : readEscape text = .ok read) : read.2.length ≤ text.length := by
  simp only [readEscape] at hread
  grind

theorem length_readCount (text : List Char) : (readCount text).2.length ≤ text.length := by
  unfold readCount
  split <;> grind

theorem length_readPrecision (text : List Char) :
    (readPrecision text).2.length ≤ text.length := by
  unfold readPrecision
  split
  · exact Nat.le_succ_of_le (length_readCount _)
  · exact Nat.le_refl _

theorem length_readField (text : List Char) : (readField text).2.length ≤ text.length := by
  let flags := text.takeWhile "-+ #0'I".toList.contains
  let width := readCount (text.drop flags.length)
  calc (readField text).2.length
    _ ≤ (readPrecision width.2).2.length := Text.length_dropWhile_le isLengthMark _
    _ ≤ width.2.length := length_readPrecision _
    _ ≤ (text.drop flags.length).length := length_readCount _
    _ ≤ text.length := by simp only [List.length_drop]; omega

theorem length_readDirective {text : List Char} {read : List UInt8 × List Char}
    (hread : readDirective text = .ok read) : read.2.length ≤ text.length := by
  have hfield := length_readField text
  simp only [readDirective] at hread
  grind

def goOn {text : List Char} (c : Char) (read : List UInt8 × List Char)
    (hlength : read.2.length ≤ text.length) : Text.Scanned Unit UInt8 (c :: text) where
  items := read.1
  state := ()
  rest := read.2
  shorter := by grind

def step (_ : Unit) (c : Char) (text : List Char) :
    Except Fault (Text.Scanned Unit UInt8 (c :: text)) :=
  if c = '\\' then
    match hread : readEscape text with
    | .ok read => .ok (goOn c read (length_readEscape hread))
    | .error fault => .error fault
  else if c = '%' then
    match hread : readDirective text with
    | .ok read => .ok (goOn c read (length_readDirective hread))
    | .error fault => .error fault
  else .ok (goOn c (bytesOf [c], text) (Nat.le_refl _))

def expand (template : List Char) : Except Fault (List UInt8) := Text.scanAll step () template

end Treatise.CommandLine.Template

namespace Treatise.CommandLine.Programs

structure Run where
  seconds : Nat
  status : Nat
  output : ByteArray
  errors : List String

def succeed (output : ByteArray) : Run := ⟨0, 0, output, []⟩

def fail (errors : List String) : Run := ⟨0, 1, .empty, errors⟩

def helpHint (program : String) : String :=
  "Try '" ++ program ++ " --help' for more information."

abbrev Reader := String → Except FileError Source

/-- Copies files one after the other; a dash stands for the input, and nothing is left of that once
it has been copied.  A file that cannot be read is reported, and the copying goes on. -/
def copy (readFile : Reader) (program input : String) : List String → Run
  | [] => succeed .empty
  | name :: names =>
    match if name = "-" then .ok .input else readFile name with
    | .ok source =>
      let rest := copy readFile program (source.leftover input) names
      { rest with output := (source.content input).toUTF8 ++ rest.output }
    | .error error =>
      let rest := copy readFile program input names
      let message := program ++ ": " ++ Text.shellWord name ++ ": " ++ error.words
      { rest with status := 1, errors := message :: rest.errors }

def write (program template : String) : Run :=
  match Template.expand template.toList with
  | .ok bytes => succeed ⟨bytes.toArray⟩
  | .error fault => fail [program ++ ": " ++ fault.message]

/-- The whole seconds of an interval, which may have a fraction and the letter of a unit. -/
def interval? (text : String) : Option Nat := do
  let (whole, rest) := text.toList.span Char.isDigit
  let (fraction, rest) := match rest with
    | '.' :: rest => rest.span Char.isDigit
    | _ => ([], rest)
  guard (whole ++ fraction ≠ [])
  let unit ← match rest with
    | [] | ['s'] => some 1
    | ['m'] => some 60
    | ['h'] => some 3600
    | ['d'] => some 86400
    | _ => none
  return Nat.ofDigitChars 10 (whole ++ fraction) 0 * unit / Nat.pow 10 fraction.length

def wait (program : String) (intervals : List String) : Run :=
  let wrong := intervals.filter fun text => (interval? text).isNone
  if wrong = [] then
    { succeed .empty with seconds := (intervals.filterMap interval?).foldl (· + ·) 0 }
  else
    fail (wrong.map (program ++ ": invalid time interval '" ++ · ++ "'") ++ [helpHint program])

def keptIn (place : Place) : Bool :=
  place = .outside ["bin".toList] || place = .outside ["usr".toList, "bin".toList]

def nameOf (program : String) : String :=
  let parts := Text.segments '/' program.toList
  match parts.dropLast.foldlM (Directory.follow []) (Place.ofPath program) with
  | .ok place => if keptIn place then String.ofList (parts.getLastD []) else program
  | .error _ => program

def run? (readFile : Reader) (call : Call) : Option Run :=
  let program := call.program
  let missing := fail [program ++ ": missing operand", helpHint program]
  match nameOf program, call.arguments.erase "--" with
  | "true", _ => some (succeed .empty)
  | "false", _ => some (fail [])
  | "cat", [] => some (copy readFile program call.input ["-"])
  | "cat", names => some (copy readFile program call.input names)
  | "printf", template :: _ => some (write program template)
  | "sleep", intervals@(_ :: _) => some (wait program intervals)
  | "printf", [] | "sleep", [] => some missing
  | _, _ => none

/-- Why a program that is none of these does not start.  A name with a slash is a path, and so is
one of dots; what stands at its end may not be run.  Any other name is looked up as it is. -/
def refusal (readFile : Reader) (program : String) : FileError :=
  if program.toList.contains '/' ∨ program = "." ∨ program = ".." then
    match readFile program with
    | .ok _ | .error .isDirectory => .notPermitted
    | .error error => error
  else if Directory.longestName < program.utf8ByteSize then .nameTooLong
  else .notFound

def launch (readFile : Reader) (call : Call) : Launch :=
  match run? readFile call with
  | none => .notStarted (refusal readFile call.program).message
  | some run =>
    if run.seconds < call.deadline then
      .exited (.code run.status) run.output ("\n".intercalate run.errors) none
    else .overdue

end Programs

def Host.ofDirectory (directory : Directory) : Host where
  readFile path := (directory.read path).map (·.content "")
  launch := Programs.launch directory.read

end Treatise.CommandLine
