import Treatise.Element.Catalog
import Treatise.Json.Codec
import Treatise.Rendering
import Treatise.Session
import Treatise.Statement
import Treatise.Weights.Config

/-!
# The records of the program in JSON

Configurations, statements and answers.  A configuration keeps the standard value of what it leaves
out, and of a repeated name in its tables the last number stands.
-/

namespace Treatise.Json

def elementId : Codec ElementId := Codec.string.via ElementId.text ElementId.mk

def category : Codec Category := .alternatives Category.fieldName Category.ofFieldName?

def predicate : Codec Predicate := .alternatives Predicate.wireName Predicate.ofWireName?

def statement : Codec Statement where
  encode statement :=
    .ofFields [
      ("subject", elementId.encode statement.subject),
      ("predicate", predicate.encode statement.predicate),
      ("object", elementId.encode statement.object)]
  decode value :=
    match recordMembers? ["subject", "predicate", "object"] value with
    | some [subject, verb, object] => do
      return {
        subject := ← required elementId subject
        predicate := ← required predicate verb
        object := ← required elementId object }
    | _ => none

def element : Codec Element where
  encode element :=
    .ofFields [
      ("id", elementId.encode element.id),
      ("category", category.encode element.category),
      ("parent_id", elementId.optional.encode element.parent)]
  decode value :=
    match recordMembers? ["id", "category", "parent_id"] value with
    | some [id, kind, parent] => do
      return {
        id := ← required elementId id
        category := ← required category kind
        parent := ← withDefault elementId.optional none parent }
    | _ => none

def tableRows {κ : Type} (ofName? : String → Option κ) :
    List (Content × Value) → Option (List (κ × Float))
  | [] => some []
  | (name, value) :: rest => do
    let key ← name.bind ofName?
    let number ← Codec.float.decode value
    let rows ← tableRows ofName? rest
    return (key, number) :: rows

/-- The table that gives each key its last value. -/
def tableOfRows {κ : Type} [BEq κ] (rows : List (κ × Float)) (key : κ) : Option Float :=
  (rows.reverse.find? fun row => row.1 == key).map (·.2)

def table {κ : Type} [BEq κ] (keys : List κ) (nameOf : κ → String) (ofName? : String → Option κ) :
    Codec (κ → Option Float) where
  encode numbers :=
    .ofFields (keys.filterMap fun key =>
      (numbers key).map fun number => (nameOf key, Codec.float.encode number))
  decode
    | .object members => (tableRows ofName? members).map tableOfRows
    | _ => none

def weightTable : Codec (Predicate → Option Float) :=
  table Predicate.all Predicate.wireName Predicate.ofWireName?

def scoreTable : Codec (Category → Option Float) :=
  table Category.all Category.fieldName Category.ofFieldName?

def configFields : List String :=
  ["weights", "base_scores", "max_influence_depth", "depth_multiplier_ceiling",
    "inbound_factor", "influence_factor", "ratio_factor", "reach_divisor"]

def config : Codec (WeightConfig Float) where
  encode config :=
    .ofFields (configFields.zip [
      weightTable.encode config.weight,
      scoreTable.encode config.baseScore,
      Codec.word32.encode config.maxInfluenceDepth,
      Codec.word32.encode config.depthCeiling,
      Codec.float.encode config.inboundFactor,
      Codec.float.encode config.influenceFactor,
      Codec.float.encode config.ratioFactor,
      Codec.float.encode config.reachDivisor])
  decode value :=
    let standard := WeightConfig.standard
    match partialMembers? configFields value with
    | some [weights, scores, depth, ceiling, inbound, influence, ratio, divisor] => do
      return {
        weight := ← withDefault weightTable standard.weight weights
        baseScore := ← withDefault scoreTable standard.baseScore scores
        maxInfluenceDepth := ← withDefault .word32 standard.maxInfluenceDepth depth
        depthCeiling := ← withDefault .word32 standard.depthCeiling ceiling
        inboundFactor := ← withDefault .float standard.inboundFactor inbound
        influenceFactor := ← withDefault .float standard.influenceFactor influence
        ratioFactor := ← withDefault .float standard.ratioFactor ratio
        reachDivisor := ← withDefault .float standard.reachDivisor divisor }
    | _ => none

inductive ConfigError where
  | malformed
  | invalid (problem : ConfigProblem Float)

def readConfig (text : String) : Except ConfigError (WeightConfig Float) :=
  match config.ofText text with
  | none => .error .malformed
  | some config =>
    match config.problem? with
    | some problem => .error (.invalid problem)
    | none => .ok config

def direction : Codec Direction := .alternatives Direction.name Direction.ofName?

def relationship : Codec RelationshipRecord where
  encode record :=
    .ofFields [
      ("subject", elementId.encode record.subject),
      ("predicate", Codec.string.encode record.predicate),
      ("object", elementId.encode record.object),
      ("direction", direction.encode record.direction),
      ("inferred", Codec.bool.encode record.inferred)]
  decode value :=
    match recordMembers? ["subject", "predicate", "object", "direction", "inferred"] value with
    | some [subject, name, object, side, inferred] => do
      return {
        subject := ← required elementId subject
        predicate := ← required .string name
        object := ← required elementId object
        direction := ← required direction side
        inferred := ← required .bool inferred }
    | _ => none

def chainKind : Codec ChainKind := .alternatives ChainKind.name ChainKind.ofName?

def pathStep : Codec PathStep where
  encode step :=
    .ofFields [
      ("from", elementId.encode step.source),
      ("to", elementId.encode step.target),
      ("relationship", predicate.encode step.relationship)]
  decode value :=
    match recordMembers? ["from", "to", "relationship"] value with
    | some [source, target, relationship] => do
      return {
        source := ← required elementId source
        target := ← required elementId target
        relationship := ← required predicate relationship }
    | _ => none

def chain : Codec ChainRecord where
  encode chain :=
    .ofFields [
      ("type", chainKind.encode chain.kind),
      ("start", elementId.encode chain.start),
      ("end", elementId.encode chain.finish),
      ("relationship", predicate.encode chain.relationship),
      ("inferred", Codec.bool.encode chain.inferred),
      ("path", pathStep.list.encode chain.path)]
  decode value :=
    match recordMembers? ["type", "start", "end", "relationship", "inferred", "path"] value with
    | some [kind, start, finish, relationship, inferred, path] => do
      return {
        kind := ← required chainKind kind
        start := ← required elementId start
        finish := ← required elementId finish
        relationship := ← required predicate relationship
        inferred := ← required .bool inferred
        path := ← required pathStep.list path }
    | _ => none

def breakdownEntry : Codec (BreakdownEntry Float) where
  encode entry :=
    .ofFields [
      ("predicate", predicate.encode entry.predicate),
      ("direction", direction.encode entry.direction),
      ("count", Codec.count.encode entry.count),
      ("weight", Codec.float.encode entry.weight),
      ("related", elementId.list.encode entry.related)]
  decode value :=
    match recordMembers? ["predicate", "direction", "count", "weight", "related"] value with
    | some [verb, side, count, weight, related] => do
      return {
        predicate := ← required predicate verb
        direction := ← required direction side
        count := ← required .count count
        weight := ← required .float weight
        related := ← required elementId.list related }
    | _ => none

def weightAnalysisFields : List String :=
  ["element_id", "inbound_weight", "outbound_weight", "transitive_influence",
    "foundational_score", "dependency_depth", "influence_reach", "relationship_breakdown"]

def weightAnalysis : Codec (WeightAnalysis Float) where
  encode analysis :=
    .ofFields (weightAnalysisFields.zip [
      elementId.encode analysis.elementId,
      Codec.float.encode analysis.inboundWeight,
      Codec.float.encode analysis.outboundWeight,
      Codec.float.encode analysis.transitiveInfluence,
      Codec.float.encode analysis.foundationalScore,
      Codec.count.encode analysis.dependencyDepth,
      Codec.word64.encode analysis.influenceReach,
      breakdownEntry.list.encode analysis.breakdown])
  decode value :=
    match recordMembers? weightAnalysisFields value with
    | some [id, inbound, outbound, influence, score, depth, reach, entries] => do
      return {
        elementId := ← required elementId id
        inboundWeight := ← required .float inbound
        outboundWeight := ← required .float outbound
        transitiveInfluence := ← required .float influence
        foundationalScore := ← required .float score
        dependencyDepth := ← required .count depth
        influenceReach := ← required .word64 reach
        breakdown := ← required breakdownEntry.list entries }
    | _ => none

def citationCount : Codec CitationCount where
  encode row :=
    .ofFields [
      ("element_id", elementId.encode row.elementId),
      ("count", Codec.count.encode row.count)]
  decode value :=
    match recordMembers? ["element_id", "count"] value with
    | some [id, count] => do
      return { elementId := ← required elementId id, count := ← required .count count }
    | _ => none

def proofCount : Codec ProofCount where
  encode row :=
    .ofFields [
      ("proposition", elementId.encode row.proposition),
      ("count", Codec.count.encode row.count),
      ("proofs", elementId.list.encode row.proofs)]
  decode value :=
    match recordMembers? ["proposition", "count", "proofs"] value with
    | some [proposition, count, proofs] => do
      return {
        proposition := ← required elementId proposition
        count := ← required .count count
        proofs := ← required elementId.list proofs }
    | _ => none

def predicateCount : Codec PredicateCount where
  encode row :=
    .ofFields [
      ("predicate", predicate.encode row.predicate),
      ("count", Codec.count.encode row.count)]
  decode value :=
    match recordMembers? ["predicate", "count"] value with
    | some [verb, count] => do
      return { predicate := ← required predicate verb, count := ← required .count count }
    | _ => none

/-! ## What is only written -/

def listOf {α : Type} (encode : α → Value) (rows : List α) : Value := .array (rows.map encode)

def inspection (inspected : Inspection) : Value :=
  .ofFields [
    ("element_id", elementId.encode inspected.elementId),
    ("label", .text inspected.label),
    ("relationships", relationship.list.encode inspected.relationships),
    ("chains", chain.list.encode inspected.chains),
    ("weights", weightAnalysis.encode inspected.weights)]

def citationReport (report : CitationReport) : Value :=
  .ofFields [
    ("most_cited", citationCount.list.encode report.cited),
    ("multi_proof", proofCount.list.encode report.multiProof),
    ("reductio", elementId.list.encode report.reductio),
    ("semantic_relationships", predicateCount.list.encode report.predicates)]

def issue (issue : Issue) : Value :=
  .ofFields [
    ("kind", .text issue.kindName),
    ("element_id", elementId.encode issue.elementId),
    ("message", .text issue.message)]

def validationReport (report : ValidationReport) : Value :=
  .ofFields [("errors", listOf issue report.errors), ("warnings", listOf issue report.warnings)]

def finding (finding : N3.Lint.Finding) : Value :=
  .ofFields [("line", .ofNat finding.line), ("message", .text finding.problem.words)]

def lintReport (report : N3.Lint.Report) : Value :=
  .ofFields [
    ("errors", listOf finding report.errors),
    ("warnings", listOf finding report.warnings)]

def checkedFile (file : Rendering.CheckedFile) : Value :=
  .ofFields [("path", .text file.path), ("report", lintReport file.report)]

def validation (report : ValidationReport) (files : List Rendering.CheckedFile) : Value :=
  .ofFields [("structure", validationReport report), ("syntax", listOf checkedFile files)]

def classCount (row : ClassCount) : Value :=
  .ofFields [("class", .text row.className), ("count", .ofNat row.count)]

def statistics (statistics : Statistics) : Value :=
  .ofFields [
    ("total_triples", .ofNat statistics.totalTriples),
    ("total_elements", .ofNat statistics.totalElements),
    ("total_citations", .ofNat statistics.totalCitations),
    ("element_types", listOf classCount statistics.elementTypes),
    ("citations_by_citer", citationCount.list.encode statistics.citationsByCiter)]

end Treatise.Json
