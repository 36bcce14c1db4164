import Treatise.Proofs.CommandLine.Loading
import Treatise.Proofs.N3.DerivedFacts
import Treatise.Proofs.Session.Chains

/-!
# Derived facts from a file

A run may take its derived facts from a file instead of reasoning.  Given the
output of an earlier run that reasoned about the same facts, it has the same
session as if it had reasoned again, provided that every id in the derived
facts may stand under a label.  Ids that are written with a label always may;
only full addresses bring in others, and for these the file is refused or
holds other facts.
-/

namespace Treatise.CommandLine

open N3
open Store (mentionedIn)

/-! ## Runs that reason and runs that need not -/

/-- Runs that reason by themselves wherever derived facts are needed. -/
structure Reasons (invocation : Invocation) : Prop where
  noFile : invocation.derived = none
  noReasoner : invocation.reasoner = none
  reasoning : invocation.noReason = false

theorem Reasons.ofReason {invocation : Invocation} (hreasons : Reasons invocation) :
    Reasons { invocation with request := .reason, json := false } :=
  ⟨hreasons.noFile, hreasons.noReasoner, hreasons.reasoning⟩

/-- What all rules derive from the facts of the files. -/
def derivedFacts (files : List FactFile) : List Statement :=
  Inference.infer (storeOf files) Rule.all

theorem supplies_of_loadFactFiles {host : Host} {paths : List String} {files : List FactFile}
    (hload : loadFactFiles host paths = .ok files) {id : ElementId}
    (hmentioned : id ∈ mentionedIn (derivedFacts files)) :
    ∃ file ∈ files, Supplies file.text.toList id := by
  have hfacts := Inference.mentionedIn_infer_subset (storeOf files) Rule.all hmentioned
  rw [storeOf, Store.toList_ofList] at hfacts
  rcases hfacts with ⟨statement, hmem, hend⟩
  rcases List.mem_flatMap.mp hmem with ⟨file, hfile, hstatement⟩
  rcases ofText_of_loadFactFiles hload file hfile with ⟨document, hread, hsame⟩
  rw [← hsame] at hstatement
  exact ⟨file, hfile, supplies_of_ofText hread ⟨statement, hstatement, hend⟩⟩

section Runs

variable {host : Host} {invocation : Invocation} {config : WeightConfig Float}
  {files : List FactFile} {path : String}

theorem load_of_derive {session : Session} {warnings : List String}
    (hconfig : loadConfig host invocation.config = .ok config)
    (hfiles : loadFactFiles host invocation.facts = .ok files)
    (hderive : derive host invocation (loadedSession config files) = .ok (session, warnings)) :
    load host invocation = .ok ⟨session, files, warnings⟩ := by
  rw [load, hconfig, ok_bind, hfiles, ok_bind]
  rw [hderive]
  rfl

theorem load_of_halt {halt : Halt} (hconfig : loadConfig host invocation.config = .ok config)
    (hfiles : loadFactFiles host invocation.facts = .ok files)
    (hderive : derive host invocation (loadedSession config files) = .error halt) :
    load host invocation = .error halt := by
  rw [load, hconfig, ok_bind, hfiles, ok_bind, hderive]
  rfl

/-- An oracle whose deadline cannot be waited for is not asked for its answer. -/
theorem derive_of_untimed {session : Session} {oracle : Oracle}
    (hfile : invocation.derived = none) (hneeds : invocation.request.needsDerived)
    (hreasoning : invocation.noReason = false) (horacle : oracleOf host invocation = .ok oracle)
    (huntimed : ¬ invocation.isTimed) : derive host invocation session = .error .panicked := by
  have hreason : invocation.request.needsDerived ∧ ¬ invocation.noReason :=
    ⟨hneeds, by simp [hreasoning]⟩
  simp only [derive, hfile]
  rw [if_pos hreason, horacle, ok_bind, if_neg huntimed]
  rfl

theorem load_of_unloaded {changed : Invocation} (hconfig : changed.config = invocation.config)
    (hfacts : changed.facts = invocation.facts)
    (hunloaded : ∀ config files, loadConfig host invocation.config = .ok config →
      loadFactFiles host invocation.facts ≠ .ok files) :
    load host changed = load host invocation := by
  unfold load
  rw [hconfig, hfacts]
  cases hloaded : loadConfig host invocation.config with
  | error failure => rfl
  | ok config =>
      cases hfiles : loadFactFiles host invocation.facts with
      | error failure => rfl
      | ok files => exact absurd hfiles (hunloaded config files hloaded)

theorem load_of_reasons (hreasons : Reasons invocation)
    (hneeds : invocation.request.needsDerived) (htimed : invocation.isTimed)
    (hconfig : loadConfig host invocation.config = .ok config)
    (hfiles : loadFactFiles host invocation.facts = .ok files) :
    load host invocation =
      .ok ⟨(loadedSession config files).replaceDerived (Store.ofList (derivedFacts files)),
        files, []⟩ := by
  have hderive : derive host invocation (loadedSession config files) =
      .ok ((loadedSession config files).replaceDerived (Store.ofList (derivedFacts files)),
        []) := by
    have hreason : invocation.request.needsDerived ∧ ¬ invocation.noReason :=
      ⟨hneeds, by simp [hreasons.reasoning]⟩
    simp only [derive, hreasons.noFile]
    rw [if_pos hreason, oracleOf, hreasons.noReasoner, ok_bind, Session.reason_chaining,
      if_pos htimed]
    rfl
  exact load_of_derive hconfig hfiles hderive

theorem load_of_file (hconfig : loadConfig host invocation.config = .ok config)
    (hfiles : loadFactFiles host invocation.facts = .ok files) :
    load host { invocation with derived := some path } =
      (loadDerived host path).map fun derived =>
        ⟨(loadedSession config files).replaceDerived derived, files, []⟩ := by
  unfold load
  rw [hconfig, ok_bind, hfiles, ok_bind]
  cases hderived : loadDerived host path with
  | ok derived =>
      simp only [derive, hderived]
      rfl
  | error failure =>
      simp only [derive, hderived]
      rfl

theorem load_of_file_eq_load_iff (hreasons : Reasons invocation)
    (hneeds : invocation.request.needsDerived) (htimed : invocation.isTimed)
    (hconfig : loadConfig host invocation.config = .ok config)
    (hfiles : loadFactFiles host invocation.facts = .ok files) :
    load host { invocation with derived := some path } = load host invocation ↔
      loadDerived host path = .ok (Store.ofList (derivedFacts files)) := by
  rw [load_of_file hconfig hfiles, load_of_reasons hreasons hneeds htimed hconfig hfiles]
  constructor
  · intro hsame
    rcases Text.map_eq_ok_iff.mp hsame with ⟨derived, hderived, hloaded⟩
    have hstore := congrArg (fun loaded => loaded.session.derived) hloaded
    rw [hderived]
    exact congrArg _ hstore
  · intro hderived
    rw [hderived]
    rfl

/-- A file with derived facts stands in for reasoning when all ids in them may
stand under a label, and then only. -/
theorem load_of_file_eq_load_iff_writable (hreasons : Reasons invocation)
    (hneeds : invocation.request.needsDerived) (htimed : invocation.isTimed)
    (hconfig : loadConfig host invocation.config = .ok config)
    (hfiles : loadFactFiles host invocation.facts = .ok files)
    (hread : host.readFile path = .ok (Rendering.derived (derivedFacts files))) :
    load host { invocation with derived := some path } = load host invocation ↔
      ∀ id ∈ mentionedIn (derivedFacts files), IsWritable id.text := by
  have hclosed : ∀ id ∈ mentionedIn (derivedFacts files), '>' ∈ id.text.toList →
      IsWritable id.text := by
    intro id hmentioned hclose
    rcases supplies_of_loadFactFiles hfiles hmentioned with ⟨file, -, hsupplies⟩
    exact hsupplies.isWritable_of_close hclose
  rw [load_of_file_eq_load_iff hreasons hneeds htimed hconfig hfiles, loadDerived_eq_ok_iff hread,
    ← derived_reads_back_iff hclosed]
  -- Stores of different statements are different, so the file holds what was derived.
  apply exists_congr
  intro document
  apply and_congr_right
  intro _
  constructor
  · rintro ⟨-, hstore⟩
    have hlist := congrArg Store.toList hstore
    rw [Store.toList_ofList, Store.toList_ofList] at hlist
    exact hlist
  · intro hsame
    rw [hsame]
    exact ⟨fun statement hmem => Inference.isDerived_of_mem_infer hmem, rfl⟩

theorem runInvocation_reason (hreasons : Reasons invocation) (htimed : invocation.isTimed)
    (hconfig : loadConfig host invocation.config = .ok config)
    (hfiles : loadFactFiles host invocation.facts = .ok files) :
    runInvocation host { invocation with request := .reason, json := false } =
      ⟨0, Rendering.derived (derivedFacts files), [], none⟩ := by
  have hload := load_of_reasons hreasons.ofReason rfl htimed hconfig hfiles
  have hstatements : (Store.ofList (derivedFacts files)).toList = derivedFacts files :=
    Store.toList_ofList _
  rw [runInvocation, hload]
  change (⟨0, Rendering.derived (Store.ofList (derivedFacts files)).toList, [], none⟩ : Outcome) = _
  rw [hstatements]

theorem Halt.code_ne_zero (halt : Halt) : halt.outcome.code ≠ 0 := by
  cases halt <;> simp [outcome]

theorem exists_files_of_code_eq_zero (hcode : (runInvocation host invocation).code = 0) :
    ∃ config files, loadConfig host invocation.config = .ok config ∧
      loadFactFiles host invocation.facts = .ok files := by
  unfold runInvocation at hcode
  cases hload : load host invocation with
  | error halt =>
      rw [hload] at hcode
      exact absurd hcode halt.code_ne_zero
  | ok loaded =>
      rcases bind_eq_ok_iff.mp hload with ⟨config, hconfig, hrest⟩
      rcases bind_eq_ok_iff.mp hrest with ⟨files, hfiles, -⟩
      exact ⟨config, files, hconfig, hfiles⟩

/-- A run that is to reason and succeeds has a deadline that can be waited for. -/
theorem isTimed_of_code_eq_zero (hreasons : Reasons invocation)
    (hneeds : invocation.request.needsDerived)
    (hcode : (runInvocation host invocation).code = 0) : invocation.isTimed := by
  obtain ⟨config, files, hconfig, hfiles⟩ := exists_files_of_code_eq_zero hcode
  by_contra huntimed
  have hderive : derive host invocation (loadedSession config files) = .error .panicked :=
    derive_of_untimed hreasons.noFile hneeds hreasons.reasoning
      (by rw [oracleOf, hreasons.noReasoner]) huntimed
  rw [runInvocation, load_of_halt hconfig hfiles hderive] at hcode
  exact Halt.code_ne_zero _ hcode

end Runs

/-- Statements that are read back as they are from where they are written, and
may serve as derived facts. -/
def ReadsBack (statements : List Statement) : Prop :=
  ∃ document, Document.ofText defaultLabel (Rendering.derived statements) = .ok document ∧
    document.statements = statements ∧ ensureDerived document.statements = .ok statements

theorem readsBack_iff {text : String} {document : Document} (rules : List Rule)
    (hread : Document.ofText defaultLabel text = .ok document) :
    let derived := Inference.infer (Store.ofList document.statements) rules
    (ReadsBack derived ↔ ∀ id ∈ mentionedIn derived, IsWritable id.text) ∧
      ∀ id ∈ mentionedIn derived, Supplies text.toList id := by
  intro derived
  have hsupplies : ∀ id ∈ mentionedIn derived, Supplies text.toList id := by
    intro id hmentioned
    have hfacts := Inference.mentionedIn_infer_subset _ rules hmentioned
    rw [Store.toList_ofList] at hfacts
    exact supplies_of_ofText hread hfacts
  have hback := derived_reads_back_iff fun id hmentioned =>
    (hsupplies id hmentioned).isWritable_of_close
  refine ⟨?_, hsupplies⟩
  rw [← hback]
  constructor
  · rintro ⟨again, hagain, hsame, -⟩
    exact ⟨again, hagain, hsame⟩
  · rintro ⟨again, hagain, hsame⟩
    refine ⟨again, hagain, hsame, ?_⟩
    rw [hsame]
    exact ensureDerived_infer _ rules

/-- A run that takes its derived facts from the output of a run that reasoned. -/
structure TakesOutput (host : Host) (invocation : Invocation) (path : String) : Prop where
  reasons : Reasons invocation
  needsDerived : invocation.request.needsDerived
  succeeded :
    (runInvocation host { invocation with request := .reason, json := false }).code = 0
  readFile_eq : host.readFile path =
    .ok (runInvocation host { invocation with request := .reason, json := false }).output

theorem TakesOutput.load_iff {host : Host} {invocation : Invocation} {path : String}
    (htakes : TakesOutput host invocation path) {files : List FactFile}
    (hfiles : loadFactFiles host invocation.facts = .ok files) :
    load host { invocation with derived := some path } = load host invocation ↔
      ∀ id ∈ mentionedIn (derivedFacts files), IsWritable id.text := by
  rcases exists_files_of_code_eq_zero htakes.succeeded with ⟨config, _, hconfig, -⟩
  have htimed : Invocation.isTimed { invocation with request := .reason, json := false } :=
    isTimed_of_code_eq_zero htakes.reasons.ofReason rfl htakes.succeeded
  have hread := htakes.readFile_eq
  rw [runInvocation_reason htakes.reasons htimed hconfig hfiles] at hread
  exact load_of_file_eq_load_iff_writable htakes.reasons htakes.needsDerived htimed hconfig
    hfiles hread

/-- Written down, what was derived from a text reads back as it is when all of
its ids may stand under a label, and then only.  A run on the text that takes
the output of a run that reasoned is a run that reasons again in the same case. -/
theorem precomputed_iff_writable (text : String) (document : Document)
    (hread : Document.ofText defaultLabel text = .ok document) :
    let facts := Store.ofList document.statements
    (∀ rules : List Rule,
      let derived := Inference.infer facts rules
      (ReadsBack derived ↔ ∀ id ∈ mentionedIn derived, IsWritable id.text) ∧
        ∀ id ∈ mentionedIn derived, Supplies text.toList id) ∧
    ∀ (host : Host) (invocation : Invocation) (path file : String),
      TakesOutput host invocation path → invocation.facts = [file] →
      host.readFile file = .ok text →
        let derived := Inference.infer facts Rule.all
        (load host { invocation with derived := some path } = load host invocation ↔
          ∀ id ∈ mentionedIn derived, IsWritable id.text) ∧
        ((∀ id ∈ mentionedIn derived, IsWritable id.text) →
          runInvocation host { invocation with derived := some path } =
            runInvocation host invocation) := by
  intro facts
  constructor
  · intro rules
    exact readsBack_iff rules hread
  · intro host invocation path file htakes hfacts hfile derived
    have hfiles : loadFactFiles host invocation.facts =
        .ok [⟨file, text, document⟩] := by
      rw [hfacts]
      exact loadFactFiles_cons_of_load (loadFactFile_of_read hfile hread) rfl
    have hderived : derivedFacts [⟨file, text, document⟩] = derived := by
      simp [derivedFacts, storeOf, FactFile.statements, derived, facts]
    have hload := htakes.load_iff hfiles
    rw [hderived] at hload
    refine ⟨hload, ?_⟩
    intro hwritable
    rw [runInvocation, runInvocation, hload.mpr hwritable]

/-! ## Two texts with addresses -/

/-- One of the ids is written with its full address. -/
def addressed : String :=
  "ethics:I.prop.1 ethics:cites ethics:I.def.2 .\n" ++
    "<http://example.org/ethics#I.prop.2> ethics:cites ethics:I.prop.1 .\n"

def addressedFacts : List Statement :=
  [⟨⟨"I.prop.1"⟩, .cites, ⟨"I.def.2"⟩⟩, ⟨⟨"I.prop.2"⟩, .cites, ⟨"I.prop.1"⟩⟩]

def addressedDerived : List Statement :=
  [⟨⟨"I.prop.1"⟩, .dependsOn, ⟨"I.def.2"⟩⟩, ⟨⟨"I.prop.2"⟩, .dependsOn, ⟨"I.prop.1"⟩⟩,
    ⟨⟨"I.prop.1"⟩, .transitivelyDependsOn, ⟨"I.def.2"⟩⟩,
    ⟨⟨"I.prop.2"⟩, .transitivelyDependsOn, ⟨"I.prop.1"⟩⟩,
    ⟨⟨"I.prop.2"⟩, .transitivelyDependsOn, ⟨"I.def.2"⟩⟩]

theorem infer_addressed :
    Inference.infer (Store.ofList addressedFacts) Rule.all = addressedDerived := by
  simp only [Inference.infer_eq, Inference.toList_direct, Inference.dependencies,
    Inference.closure_eq, Store.matching_eq, Store.toList_ofList]
  decide +kernel

/-- A host with the facts in one file and what they derive in the other. -/
def twoRuns : Host where
  readFile path :=
    .ok (if path = "facts" then addressed else Rendering.derived addressedDerived)
  launch _ := .overdue

def chainsOfSecond : Invocation where
  request := .chains "I.prop.2"
  facts := ["facts"]
  derived := none
  config := none
  reasoner := none
  deadline := 30
  noReason := false
  json := false
  verbose := false
  quiet := false

theorem precomputed_addressed :
    Document.ofText defaultLabel addressed = .ok ⟨[], addressedFacts, 0, 0⟩ ∧
      ReadsBack addressedDerived ∧ TakesOutput twoRuns chainsOfSecond "derived" ∧
      runInvocation twoRuns { chainsOfSecond with derived := some "derived" } =
        runInvocation twoRuns chainsOfSecond := by
  have hread : Document.ofText defaultLabel addressed = .ok ⟨[], addressedFacts, 0, 0⟩ := by
    decide +kernel
  have hfile : twoRuns.readFile "facts" = .ok addressed := rfl
  have hfiles : loadFactFiles twoRuns chainsOfSecond.facts =
      .ok [⟨"facts", addressed, ⟨[], addressedFacts, 0, 0⟩⟩] :=
    loadFactFiles_cons_of_load (loadFactFile_of_read hfile hread) rfl
  have hwritable : ∀ id ∈ mentionedIn addressedDerived, IsWritable id.text := by
    rintro id ⟨statement, hmem, hend⟩
    simp only [addressedDerived, List.mem_cons, List.not_mem_nil, or_false] at hmem
    rcases hmem with rfl | rfl | rfl | rfl | rfl <;> rcases hend with rfl | rfl <;>
      exact ⟨by decide, by decide⟩
  have hderived :
      derivedFacts [⟨"facts", addressed, ⟨[], addressedFacts, 0, 0⟩⟩] = addressedDerived :=
    infer_addressed
  have hreasons : Reasons chainsOfSecond := ⟨rfl, rfl, rfl⟩
  have hreasoned :
      runInvocation twoRuns { chainsOfSecond with request := .reason, json := false } =
        ⟨0, Rendering.derived addressedDerived, [], none⟩ := by
    rw [runInvocation_reason hreasons rfl rfl hfiles, hderived]
  have htakes : TakesOutput twoRuns chainsOfSecond "derived" := by
    constructor
    · exact hreasons
    · rfl
    · rw [hreasoned]
    · rw [hreasoned]
      rfl
  obtain ⟨htexts, hruns⟩ := precomputed_iff_writable addressed _ hread
  have hback := (htexts Rule.all).1
  have hsame := (hruns twoRuns chainsOfSecond "derived" "facts" htakes rfl hfile).2
  simp only [infer_addressed] at hback hsame
  exact ⟨hread, hback.mpr hwritable, htakes, hsame hwritable⟩

/-- The id is all that follows the number sign. -/
def spaced : String := "<http://example.org/ethics#a b> ethics:cites ethics:c .\n"

def spacedFacts : List Statement := [⟨⟨"a b"⟩, .cites, ⟨"c"⟩⟩]

theorem infer_spaced :
    Inference.infer (Store.ofList spacedFacts) Rule.all =
      [⟨⟨"a b"⟩, .dependsOn, ⟨"c"⟩⟩, ⟨⟨"a b"⟩, .transitivelyDependsOn, ⟨"c"⟩⟩] := by
  simp only [Inference.infer_eq, Inference.toList_direct, Inference.dependencies,
    Inference.closure_eq, Store.matching_eq, Store.toList_ofList]
  decide +kernel

/-- Under a label the blank ends the id, and a word stands in the place of the predicate. -/
theorem spaced_not_readsBack :
    let derived := Inference.infer (Store.ofList spacedFacts) Rule.all
    Document.ofText defaultLabel spaced = .ok ⟨[], spacedFacts, 0, 0⟩ ∧
      Document.ofText defaultLabel (Rendering.derived derived) =
        .error ⟨3, .unknownPredicate "b"⟩ ∧
      ¬ ReadsBack derived := by
  intro derived
  have hread : Document.ofText defaultLabel spaced = .ok ⟨[], spacedFacts, 0, 0⟩ := by
    decide +kernel
  have hrefused : Document.ofText defaultLabel (Rendering.derived derived) =
      .error ⟨3, .unknownPredicate "b"⟩ := by
    simp only [derived, infer_spaced]
    decide +kernel
  refine ⟨hread, hrefused, ?_⟩
  rintro ⟨document, hdocument, -⟩
  rw [hrefused] at hdocument
  cases hdocument

end Treatise.CommandLine
