import Treatise.Inference
import Treatise.Relationships
import Treatise.Weights.Analysis
import Treatise.Weights.Config

/-!
# Sessions

A session holds the catalog and the facts of one treatise.  Only its derived facts ever change, and
they change as a whole.
-/

namespace Treatise

structure Session where
  catalog : Catalog
  asserted : Store
  derived : Store
  config : WeightConfig Float

structure OracleWarning where
  oracle : String
  error : OracleError

def OracleWarning.message (warning : OracleWarning) : String :=
  "Oracle '" ++ warning.oracle ++ "' failed, continuing without inferred facts: " ++
    warning.error.message

structure Accepted where
  session : Session
  count : Nat
  warning : Option OracleWarning

structure Inspection where
  elementId : ElementId
  label : String
  relationships : List RelationshipRecord
  chains : List ChainRecord
  weights : WeightAnalysis Float

namespace Session

def start (catalog : Catalog) (asserted : Store) : Session :=
  ⟨catalog, asserted, Store.empty, WeightConfig.standard⟩

def ofAsserted (asserted : Store) : Session := start (Catalog.ofStore asserted) asserted

def withConfig (session : Session) (config : WeightConfig Float) :
    Except (ConfigProblem Float) Session :=
  match config.problem? with
  | some problem => .error problem
  | none => .ok { session with config }

def replaceDerived (session : Session) (derived : Store) : Session := { session with derived }

/-- Takes an answer if it is acceptable, and forgets all derived facts otherwise. -/
def accept (session : Session) (oracle : String) (answer : OracleAnswer) : Accepted :=
  match answer >>= ensureDerived with
  | .ok statements => ⟨session.replaceDerived (Store.ofList statements), statements.length, none⟩
  | .error error => ⟨session.replaceDerived Store.empty, 0, some ⟨oracle, error⟩⟩

def reason (session : Session) (oracle : Oracle) (rules : List Rule) : Accepted :=
  session.accept oracle.name (oracle.infer session.asserted rules)

/-- Takes the answer of an oracle if it is acceptable, and keeps the session otherwise. -/
def tryReason (session : Session) (oracle : Oracle) (rules : List Rule) :
    Except OracleError (Session × Nat) :=
  match oracle.infer session.asserted rules >>= ensureDerived with
  | .ok statements => .ok (session.replaceDerived (Store.ofList statements), statements.length)
  | .error error => .error error

def facts (session : Session) : Facts := ⟨session.asserted, session.derived⟩

def query (session : Session) (id : ElementId) : List RelationshipRecord :=
  Relationships.query session.facts id

def chains (session : Session) (id : ElementId) : List ChainRecord :=
  Chains.find session.derived id

def analyze (session : Session) (id : ElementId) : WeightAnalysis Float :=
  Weights.analyze session.config session.catalog session.asserted id

def label (session : Session) (id : ElementId) : String := session.catalog.label id

def inspect (session : Session) (id : ElementId) : Inspection where
  elementId := id
  label := session.label id
  relationships := session.query id
  chains := session.chains id
  weights := session.analyze id

end Session

def OracleError.reported (error : OracleError) : String := "Inference failed: " ++ error.message

end Treatise
