import Treatise.CommandLine.Arguments
import Treatise.CommandLine.Log
import Treatise.CommandLine.Reasoner
import Treatise.Inference
import Treatise.Json.Records

/-!
# Running the program

A run loads a session and answers one request, in plain text or as JSON.  An answer that is
complete stays written even when the run counts as failed.
-/

namespace Treatise.CommandLine

/-- What stopped a run, and what lay behind that, the nearest cause first. -/
structure Failure where
  what : String
  causes : List String
  deriving DecidableEq

def Failure.report (failure : Failure) : String :=
  "Error: " ++ failure.what ++
    match failure.causes with
    | [] => ""
    | [cause] => "\n\nCaused by:\n    " ++ cause
    | causes =>
      "\n\nCaused by:" ++
        String.join (causes.zipIdx.map fun (cause, number) =>
          "\n    " ++ Decimal.ofNat number ++ ": " ++ cause)

inductive Halt where
  | failed (failure : Failure)
  | panicked

structure Outcome where
  code : UInt32
  output : String
  warnings : List String
  failure : Option Failure
  deriving DecidableEq

def Halt.outcome : Halt → Outcome
  | failed failure => ⟨1, "", [], some failure⟩
  | panicked => ⟨101, "", [], none⟩

structure FactFile where
  path : String
  text : String
  document : N3.Document

def FactFile.statements (file : FactFile) : List Statement := file.document.statements

structure Loaded where
  session : Session
  files : List FactFile
  warnings : List String

def readOrFail (host : Host) (words path : String) : Except Halt String :=
  match host.readFile path with
  | .ok text => .ok text
  | .error error => .error (.failed ⟨words ++ path, [error.message]⟩)

def parseOrFail (path text : String) : Except Halt N3.Document :=
  match N3.Document.ofText N3.defaultLabel text with
  | .ok document => .ok document
  | .error error => .error (.failed ⟨"Failed to parse " ++ path, [error.message]⟩)

def loadConfig (host : Host) : Option String → Except Halt (WeightConfig Float)
  | none => .ok .standard
  | some path =>
    let invalid (causes : List String) : Halt := .failed ⟨"Invalid config " ++ path, causes⟩
    match host.readFile path with
    | .error error => .error (invalid ["IO error: " ++ error.message, error.message])
    | .ok text =>
      match Json.readConfig text with
      | .ok config => .ok config
      | .error .malformed =>
        .error (invalid ["Configuration is not valid JSON: the text has another form"])
      | .error (.invalid problem) => .error (invalid [problem.message])

def loadFactFile (host : Host) (path : String) : Except Halt FactFile := do
  let text ← readOrFail host "Failed to read facts from " path
  let document ← parseOrFail path text
  return ⟨path, text, document⟩

def loadFactFiles (host : Host) : List String → Except Halt (List FactFile)
  | [] => .ok []
  | path :: rest => do
    let file ← loadFactFile host path
    let files ← loadFactFiles host rest
    return file :: files

def storeOf (files : List FactFile) : Store := Store.ofList (files.flatMap (·.statements))

def loadDerived (host : Host) (path : String) : Except Halt Store := do
  let text ← readOrFail host "Failed to read derived facts from " path
  let document ← parseOrFail path text
  match ensureDerived document.statements with
  | .ok statements => return Store.ofList statements
  | .error error => throw (.failed ⟨path ++ " contains asserted facts", [error.message]⟩)

def oracleOf (host : Host) (invocation : Invocation) : Except Halt Oracle :=
  match invocation.reasoner with
  | none => .ok Oracle.chaining
  | some text =>
    match ReasonerCommand.ofText? text with
    | none => .error (.failed ⟨"--reasoner must name a program", []⟩)
    | some command => .ok (host.oracle command invocation.deadline)

def joinGrace : Nat := 2

/-- Whether the time for which an oracle is waited for can be told: whole seconds are counted in
a word. -/
def Invocation.isTimed (invocation : Invocation) : Bool :=
  invocation.deadline + joinGrace < UInt64.size

/-- Gives a session its derived facts: those of a file, or those of an oracle where the request
needs them and reasoning is not switched off.  A deadline that is too far away to be waited for
is a panic, whatever the oracle does. -/
def derive (host : Host) (invocation : Invocation) (session : Session) :
    Except Halt (Session × List String) :=
  match invocation.derived with
  | some path => do
    let derived ← loadDerived host path
    return (session.replaceDerived derived, [])
  | none =>
    if invocation.request.needsDerived ∧ ¬ invocation.noReason then do
      let oracle ← oracleOf host invocation
      if invocation.isTimed then
        let accepted := session.reason oracle Rule.all
        return (accepted.session,
          accepted.warning.toList.map fun warning => Log.plain warning.message)
      else throw .panicked
    else .ok (session, [])

def loadedSession (config : WeightConfig Float) (files : List FactFile) : Session :=
  { Session.ofAsserted (storeOf files) with config }

def load (host : Host) (invocation : Invocation) : Except Halt Loaded := do
  let config ← loadConfig host invocation.config
  let files ← loadFactFiles host invocation.facts
  let (session, warnings) ← derive host invocation (loadedSession config files)
  return ⟨session, files, warnings⟩

structure Answer where
  text : String
  json : Json.Value
  failure : Option Failure

def Answer.of (text : String) (json : Json.Value) : Answer := ⟨text, json, none⟩

def checkFiles (files : List FactFile) : List Rendering.CheckedFile :=
  files.map fun file => ⟨file.path, N3.Lint.check file.text⟩

def answerValidation (session : Session) (files : List FactFile) : Answer :=
  let report := Report.validate session.asserted session.catalog
  let checked := checkFiles files
  let errors := Rendering.errorCount report checked
  { text := Rendering.validation report checked
    json := Json.validation report checked
    failure :=
      if errors = 0 then none
      else some ⟨"Validation failed with " ++ Decimal.ofNat errors ++ " error(s)", []⟩ }

def answer (loaded : Loaded) (request : Request) : Answer :=
  let session := loaded.session
  match request with
  | .query id =>
    let records := session.query ⟨id⟩
    .of (Rendering.relationships (session.label ⟨id⟩) ⟨id⟩ records)
      (Json.relationship.list.encode records)
  | .chains id =>
    let records := session.chains ⟨id⟩
    .of (Rendering.chains ⟨id⟩ records) (Json.chain.list.encode records)
  | .analyze id =>
    let analysis := session.analyze ⟨id⟩
    .of (Rendering.weights analysis) (Json.weightAnalysis.encode analysis)
  | .inspect id =>
    let inspected := session.inspect ⟨id⟩
    .of (Rendering.inspection inspected) (Json.inspection inspected)
  | .report top =>
    let report := CitationReport.ofSession session top
    .of (Rendering.report session report) (Json.citationReport report)
  | .validate => answerValidation session loaded.files
  | .stats =>
    let statistics := Report.statistics session.asserted
    .of (Rendering.statistics statistics) (Json.statistics statistics)
  | .reason =>
    let statements := session.derived.toList
    .of (Rendering.derived statements) (Json.statement.list.encode statements)

def runInvocation (host : Host) (invocation : Invocation) : Outcome :=
  match load host invocation with
  | .error halt => halt.outcome
  | .ok loaded =>
    let answer := answer loaded invocation.request
    { code := if answer.failure.isSome then 1 else 0
      output := if invocation.json then answer.json.pretty ++ "\n" else answer.text
      warnings := loaded.warnings
      failure := answer.failure }

def versionText : String := "ethica 0.1.1\n"

def helpText : String :=
  "Relationship weighting and transitive influence analysis\n\n" ++
    "Usage: ethica [OPTIONS] <COMMAND> --facts <FILE>...\n\n" ++
    "Commands: " ++ ", ".intercalate (Command.all.map Command.name) ++ "\n"

/-- Runs the program with these arguments.  Words that are no command line of the program make it
end with the code two. -/
def run (host : Host) (arguments : List String) : Outcome :=
  match parse arguments with
  | none => ⟨2, "", [], none⟩
  | some .help => ⟨0, helpText, [], none⟩
  | some .version => ⟨0, versionText, [], none⟩
  | some (.invocation invocation) => runInvocation host invocation

/-! ## The log of a run -/

def fileEntries (host : Host) : List String → List Log.Entry
  | [] => []
  | path :: rest =>
    match loadFactFile host path with
    | .error _ => []
    | .ok file =>
      documentEntry file.document ::
        Log.debug (path ++ ": " ++ Decimal.ofNat file.statements.length ++ " statements, " ++
          Decimal.ofNat file.document.ruleCount ++ " rule blocks skipped") ::
        fileEntries host rest

def sessionEntries (session : Session) : List Log.Entry :=
  let elements := Decimal.ofNat session.catalog.size
  [Log.debug ("Catalog built from store: " ++ elements ++ " elements"),
    Log.info ("Session loaded: " ++ elements ++ " elements, " ++
      Decimal.ofNat session.asserted.size ++ " asserted statements")]

def acceptEntry (oracle : String) (accepted : Accepted) : Log.Entry :=
  match accepted.warning with
  | some warning => Log.warning warning.message
  | none =>
    Log.info ("Oracle '" ++ oracle ++ "' derived " ++ Decimal.ofNat accepted.count ++
      " statements")

def oracleEntries (host : Host) (invocation : Invocation) (facts : Store) : List Log.Entry :=
  match invocation.reasoner.bind ReasonerCommand.ofText? with
  | some command => host.exchangeEntries command invocation.deadline facts Rule.all
  | none =>
    let derived := Inference.infer facts Rule.all
    [Log.debug ("Fixed-rule inference derived " ++ Decimal.ofNat derived.length ++
      " statements from " ++ Decimal.ofNat facts.size)]

def derivedFileEntries (host : Host) (path : String) : List Log.Entry :=
  match host.readFile path with
  | .error _ => []
  | .ok text => readingEntries text

/-- The log of `derive`.  A panic does not wait for an answer, so nothing is known of what the
oracle still logs. -/
def derivationEntries (host : Host) (invocation : Invocation) (session : Session) :
    List Log.Entry :=
  match invocation.derived with
  | some path => derivedFileEntries host path
  | none =>
    if invocation.request.needsDerived ∧ ¬ invocation.noReason then
      match oracleOf host invocation with
      | .error _ => []
      | .ok oracle =>
        if invocation.isTimed then
          oracleEntries host invocation session.asserted ++
            [acceptEntry oracle.name (session.reason oracle Rule.all)]
        else []
    else []

def queryEntry (session : Session) (id : String) : Log.Entry :=
  Log.debug ("Relationships for " ++ id ++ ": " ++
    Decimal.ofNat (session.query ⟨id⟩).length)

def analysisEntry (analysis : WeightAnalysis Float) : Log.Entry :=
  let shown := ConfigProblem.layout.text
  Log.debug ("Weights for " ++ analysis.elementId.text ++ ": in=" ++
    shown analysis.inboundWeight ++ " out=" ++ shown analysis.outboundWeight ++ " influence=" ++
    shown analysis.transitiveInfluence ++ " depth=" ++ Decimal.ofNat analysis.dependencyDepth)

def unplacedEntries (session : Session) : List Log.Entry :=
  ((Report.proofs session.asserted session.catalog.elements).filter fun proof =>
    (Report.ownerOf? proof).isNone).map fun proof =>
      Log.debug ("Proof " ++ proof.text ++ " has no parsable owner; skipped")

def answerEntries (session : Session) : Request → List Log.Entry
  | .query id => [queryEntry session id]
  | .analyze id => [analysisEntry (session.analyze ⟨id⟩)]
  | .inspect id => [queryEntry session id, analysisEntry (session.analyze ⟨id⟩)]
  | .report _ => unplacedEntries session
  | .chains _ | .validate | .stats | .reason => []

def journal (host : Host) (invocation : Invocation) : List Log.Entry :=
  match loadConfig host invocation.config with
  | .error _ => []
  | .ok config =>
    fileEntries host invocation.facts ++
      match loadFactFiles host invocation.facts with
      | .error _ => []
      | .ok files =>
        sessionEntries (loadedSession config files) ++
          (derivationEntries host invocation (loadedSession config files) ++
            match derive host invocation (loadedSession config files) with
            | .error _ => []
            | .ok (session, _) => answerEntries session invocation.request)

/-- The least level that a run shows; JSON is not mixed with information. -/
def Invocation.logLevel (invocation : Invocation) : Log.Level :=
  if invocation.json || invocation.quiet then .warning
  else if invocation.verbose then .debug else .info

/-- The log that a run shows where the environment asks for no level. -/
def log (host : Host) (arguments : List String) : List Log.Entry :=
  match parse arguments with
  | some (.invocation invocation) => Log.shown invocation.logLevel (journal host invocation)
  | _ => []

end Treatise.CommandLine
