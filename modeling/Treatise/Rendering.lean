import Treatise.Decimal
import Treatise.N3.Document
import Treatise.N3.Lint
import Treatise.Report
import Treatise.Session
import Treatise.Text.Cut

/-!
# Answers in plain text

An element is shown in lines and columns, a citation report with headings, and derived facts as a
fact file.
-/

namespace Treatise.Rendering

def relationshipLine (record : RelationshipRecord) : String :=
  let (arrow, other) :=
    match record.direction with
    | .outbound => ("-> ", record.object)
    | .inbound => ("<- ", record.subject)
  arrow ++ Text.alignLeft 28 record.predicate ++ " " ++ other.text ++
    (if record.inferred then "  [inferred]" else "") ++ "\n"

def relationships (label : String) (id : ElementId) (records : List RelationshipRecord) : String :=
  "# " ++ label ++ " (" ++ id.text ++ ")\n\n" ++
    if records.isEmpty then "No relationships.\n"
    else String.join (records.map relationshipLine)

def chainLine (chain : ChainRecord) : String :=
  "  " ++ Text.alignLeft 24 chain.kind.name ++ " " ++ chain.start.text ++ " -[" ++
    chain.relationship.wireName ++ "]-> " ++ chain.finish.text ++ "\n"

def chains (id : ElementId) (records : List ChainRecord) : String :=
  if records.isEmpty then
    "No dependency chains for " ++ id.text ++ " (derived store is empty or has no match).\n"
  else "Dependency chains for " ++ id.text ++ ":\n" ++ String.join (records.map chainLine)

def amount (width : Nat) (x : Float) : String := Text.alignRight width (Decimal.fixed 2 x)

def ids (related : List ElementId) : String := ", ".intercalate (related.map (·.text))

def entryLine (entry : BreakdownEntry Float) : String :=
  let direction :=
    match entry.direction with
    | .outbound => "out"
    | .inbound => "in"
  "    " ++ Text.alignLeft 20 entry.predicate.wireName ++ " " ++ Text.alignLeft 3 direction ++
    " x" ++ Text.alignLeft 3 (Decimal.ofNat entry.count) ++ " = " ++ amount 6 entry.weight ++
    "  (" ++ ids entry.related ++ ")\n"

def weightLine (name value : String) : String := "  " ++ Text.alignLeft 22 name ++ value ++ "\n"

def weights (analysis : WeightAnalysis Float) : String :=
  "Weights for " ++ analysis.elementId.text ++ ":\n" ++
    weightLine "inbound weight" (amount 8 analysis.inboundWeight) ++
    weightLine "outbound weight" (amount 8 analysis.outboundWeight) ++
    weightLine "transitive influence" (amount 8 analysis.transitiveInfluence) ++
    weightLine "foundational score" (amount 8 analysis.foundationalScore) ++
    weightLine "dependency depth"
      (Text.alignRight 8 (Decimal.ofNat analysis.dependencyDepth)) ++
    weightLine "influence reach"
      (Text.alignRight 8 (Decimal.ofNat analysis.influenceReach.toNat)) ++
    if analysis.breakdown.isEmpty then ""
    else "  breakdown:\n" ++ String.join (analysis.breakdown.map entryLine)

def inspection (inspected : Inspection) : String :=
  relationships inspected.label inspected.elementId inspected.relationships ++ "\n" ++
    chains inspected.elementId inspected.chains ++ "\n" ++ weights inspected.weights

end Treatise.Rendering

namespace Treatise

structure CitationReport where
  cited : List CitationCount
  multiProof : List ProofCount
  reductio : List ElementId
  predicates : List PredicateCount

def CitationReport.ofSession (session : Session) (top : Nat) : CitationReport where
  cited := Report.citationCounts session.asserted top
  multiProof := Report.multiProof session.asserted session.catalog
  reductio := Report.reductioSubjects session.asserted
  predicates := Report.histogram session.asserted

namespace Rendering

def citedLine (session : Session) (row : CitationCount) : String :=
  "| `" ++ row.elementId.text ++ "` | " ++ session.label row.elementId ++ " | " ++
    Decimal.ofNat row.count ++ " |\n"

def proofsLine (row : ProofCount) : String :=
  "- `" ++ row.proposition.text ++ "`: " ++ Decimal.ofNat row.count ++ " proofs (" ++
    ids row.proofs ++ ")\n"

def predicateLine (row : PredicateCount) : String :=
  "- " ++ row.predicate.wireName ++ ": " ++ Decimal.ofNat row.count ++ "\n"

/-- The lines of a section, or a word for there being none. -/
def orNone (lines : List String) : String :=
  if lines.isEmpty then "None.\n" else String.join lines

def report (session : Session) (content : CitationReport) : String :=
  "## Most cited\n\n| element | label | citations |\n|---|---|---:|\n" ++
    String.join (content.cited.map (citedLine session)) ++
    "\n## Propositions with multiple proofs\n\n" ++
    orNone (content.multiProof.map proofsLine) ++
    "\n## Proofs by reductio ad absurdum\n\n" ++
    orNone (content.reductio.map fun id => "- `" ++ id.text ++ "`\n") ++
    "\n## Semantic relationships\n\n" ++ String.join (content.predicates.map predicateLine)

structure CheckedFile where
  path : String
  report : N3.Lint.Report

def findingLine (severity path : String) (finding : N3.Lint.Finding) : String :=
  severity ++ ": " ++ path ++ ":" ++ Decimal.ofNat finding.line ++ ": " ++
    finding.problem.words ++ "\n"

def checkedFile (file : CheckedFile) : String :=
  String.join (file.report.errors.map (findingLine "error" file.path)) ++
    String.join (file.report.warnings.map (findingLine "warning" file.path))

def issueLine (severity : String) (issue : Issue) : String :=
  severity ++ ": " ++ issue.message ++ "\n"

def errorCount (report : ValidationReport) (files : List CheckedFile) : Nat :=
  report.errors.length + (files.flatMap (·.report.errors)).length

def warningCount (report : ValidationReport) (files : List CheckedFile) : Nat :=
  report.warnings.length + (files.flatMap (·.report.warnings)).length

def validation (report : ValidationReport) (files : List CheckedFile) : String :=
  String.join (files.map checkedFile) ++
    String.join (report.errors.map (issueLine "error")) ++
    String.join (report.warnings.map (issueLine "warning")) ++
    Decimal.ofNat (errorCount report files) ++ " error(s), " ++
    Decimal.ofNat (warningCount report files) ++ " warning(s)\n"

def classLine (row : ClassCount) : String :=
  "  " ++ Text.alignLeft 14 row.className ++ " " ++ Decimal.ofNat row.count ++ "\n"

def citerLine (row : CitationCount) : String :=
  "  " ++ row.elementId.text ++ " " ++ Decimal.ofNat row.count ++ "\n"

def statistics (statistics : Statistics) : String :=
  "Total triples:   " ++ Decimal.ofNat statistics.totalTriples ++
    "\nTotal elements:  " ++ Decimal.ofNat statistics.totalElements ++
    "\nTotal citations: " ++ Decimal.ofNat statistics.totalCitations ++
    "\n\nElement types:\n" ++ String.join (statistics.elementTypes.map classLine) ++
    if statistics.citationsByCiter.isEmpty then ""
    else "\nCitations made:\n" ++ String.join (statistics.citationsByCiter.map citerLine)

def derived (statements : List Statement) : String :=
  N3.serialize N3.defaultLabel N3.defaultNamespace statements

end Rendering

end Treatise
