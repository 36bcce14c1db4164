import Treatise.CommandLine.Programs
import Treatise.Proofs.CommandLine.Precomputed
import Treatise.Proofs.CommandLine.Reasoner

/-!
# Runs with a reasoner that fails

A session that is refused an answer is the session that was loaded.  So a run
whose reasoner fails answers like a run that does not reason, in every request
and in both forms, and its log has one warning more; details of the exchange
with the reasoner stand before the warning in a log that shows details.  The
deadline has to leave room for the grace: a run that cannot tell how long it
is to wait panics.  The reasoner is not started before all fact files are
loaded; a run that does not come so far ends in the same way with it and
without it.
-/

namespace Treatise.CommandLine

open N3

/-- A run that is to take its derived facts from this reasoner. -/
structure AsksReasoner (invocation : Invocation) (command : ReasonerCommand) : Prop where
  needed : invocation.request.needsDerived
  noFile : invocation.derived = none
  reasoning : invocation.noReason = false
  named : invocation.reasoner.bind ReasonerCommand.ofText? = some command

/-- The same run without reasoning, whether or not it names a reasoner. -/
def Invocation.withoutReasoning (invocation : Invocation) (reasoner : Option String) :
    Invocation :=
  { invocation with reasoner, noReason := true }

/-- How a reasoner is called on the facts of these files. -/
def callOf (invocation : Invocation) (command : ReasonerCommand) (files : List FactFile) : Call :=
  command.callOn invocation.deadline (storeOf files) Rule.all

/-- What a run logs of its exchange with a reasoner about these files. -/
def exchangeOf (host : Host) (invocation : Invocation) (command : ReasonerCommand)
    (files : List FactFile) : List Log.Entry :=
  Log.shown invocation.logLevel
    (host.exchangeEntries command invocation.deadline (storeOf files) Rule.all)

/-- The second log is the first one with some entries put in at one place. -/
def Log.Adds (entries log longer : List Entry) : Prop :=
  ∃ before after, log = before ++ after ∧ longer = before ++ entries ++ after

section Loading

variable {host : Host} {invocation : Invocation} {command : ReasonerCommand}
  {config : WeightConfig Float} {files : List FactFile}

theorem AsksReasoner.oracleOf_eq (hasks : AsksReasoner invocation command) :
    oracleOf host invocation = .ok (host.oracle command invocation.deadline) := by
  obtain ⟨text, hreasoner, hcommand⟩ := Option.bind_eq_some_iff.mp hasks.named
  simp only [oracleOf, hreasoner, hcommand]

theorem AsksReasoner.reasons (hasks : AsksReasoner invocation command) :
    invocation.request.needsDerived ∧ ¬ invocation.noReason :=
  ⟨hasks.needed, by simp [hasks.reasoning]⟩

theorem reason_of_refused {error : OracleError}
    (hrefused : Refused (answerOf command.program invocation.deadline
      (host.launch (callOf invocation command files))) error) :
    (loadedSession config files).reason (host.oracle command invocation.deadline) Rule.all =
      ⟨(loadedSession config files).replaceDerived .empty, 0, some ⟨command.program, error⟩⟩ :=
  Session.accept_of_refused hrefused

theorem derive_of_refused (hasks : AsksReasoner invocation command) (htimed : invocation.isTimed)
    {error : OracleError}
    (hrefused : Refused (answerOf command.program invocation.deadline
      (host.launch (callOf invocation command files))) error) :
    derive host invocation (loadedSession config files) =
      .ok (loadedSession config files, [Log.plain (OracleWarning.message
        ⟨command.program, error⟩)]) := by
  simp only [derive, hasks.noFile]
  rw [if_pos hasks.reasons, hasks.oracleOf_eq, ok_bind, if_pos htimed,
    reason_of_refused hrefused]
  rfl

theorem derivationEntries_of_refused (hasks : AsksReasoner invocation command)
    (htimed : invocation.isTimed) {error : OracleError}
    (hrefused : Refused (answerOf command.program invocation.deadline
      (host.launch (callOf invocation command files))) error) :
    derivationEntries host invocation (loadedSession config files) =
      host.exchangeEntries command invocation.deadline (storeOf files) Rule.all ++
        [Log.warning (OracleWarning.message ⟨command.program, error⟩)] := by
  simp only [derivationEntries, oracleEntries, hasks.noFile, hasks.named, hasks.oracleOf_eq]
  rw [if_pos hasks.reasons, if_pos htimed, reason_of_refused hrefused]
  rfl

theorem derive_withoutReasoning (hfile : invocation.derived = none) (reasoner : Option String)
    (session : Session) :
    derive host (invocation.withoutReasoning reasoner) session = .ok (session, []) := by
  simp [derive, Invocation.withoutReasoning, hfile]

theorem derivationEntries_withoutReasoning (hfile : invocation.derived = none)
    (reasoner : Option String) (session : Session) :
    derivationEntries host (invocation.withoutReasoning reasoner) session = [] := by
  simp [derivationEntries, Invocation.withoutReasoning, hfile]

theorem journal_of_derive {session : Session} {warnings : List String}
    (hconfig : loadConfig host invocation.config = .ok config)
    (hfiles : loadFactFiles host invocation.facts = .ok files)
    (hderive : derive host invocation (loadedSession config files) = .ok (session, warnings)) :
    journal host invocation =
      fileEntries host invocation.facts ++ sessionEntries (loadedSession config files) ++
        derivationEntries host invocation (loadedSession config files) ++
          answerEntries session invocation.request := by
  unfold journal
  simp only [hconfig, hfiles, hderive, List.append_assoc]

/-- Where the configuration or a fact file is not loaded, it does not matter
what is asked about reasoning. -/
theorem load_withoutReasoning_of_unloaded
    (hunloaded : ∀ config files, loadConfig host invocation.config = .ok config →
      loadFactFiles host invocation.facts ≠ .ok files) (reasoner : Option String) :
    load host (invocation.withoutReasoning reasoner) = load host invocation :=
  load_of_unloaded rfl rfl hunloaded

theorem journal_withoutReasoning_of_unloaded
    (hunloaded : ∀ config files, loadConfig host invocation.config = .ok config →
      loadFactFiles host invocation.facts ≠ .ok files) (reasoner : Option String) :
    journal host (invocation.withoutReasoning reasoner) = journal host invocation := by
  unfold journal Invocation.withoutReasoning
  cases hconfig : loadConfig host invocation.config with
  | error halt => rfl
  | ok config =>
      cases hfiles : loadFactFiles host invocation.facts with
      | error halt => rfl
      | ok files => exact absurd hfiles (hunloaded config files hconfig)

/-- Without reasoning, all that is missing in the journal is the exchange and its warning. -/
theorem adds_journal_of_refused (hasks : AsksReasoner invocation command)
    (htimed : invocation.isTimed) (hconfig : loadConfig host invocation.config = .ok config)
    (hfiles : loadFactFiles host invocation.facts = .ok files) {error : OracleError}
    (hrefused : Refused (answerOf command.program invocation.deadline
      (host.launch (callOf invocation command files))) error) (reasoner : Option String) :
    Log.Adds
      (host.exchangeEntries command invocation.deadline (storeOf files) Rule.all ++
        [Log.warning (OracleWarning.message ⟨command.program, error⟩)])
      (journal host (invocation.withoutReasoning reasoner)) (journal host invocation) := by
  refine ⟨fileEntries host invocation.facts ++ sessionEntries (loadedSession config files),
    answerEntries (loadedSession config files) invocation.request, ?_, ?_⟩
  · have hplain : journal host (invocation.withoutReasoning reasoner) = _ :=
      journal_of_derive hconfig hfiles (derive_withoutReasoning hasks.noFile reasoner _)
    rw [hplain, derivationEntries_withoutReasoning hasks.noFile, List.append_nil]
    rfl
  · rw [journal_of_derive hconfig hfiles (derive_of_refused hasks htimed hrefused),
      derivationEntries_of_refused hasks htimed hrefused]

end Loading

theorem Log.Adds.shown {entries log longer : List Log.Entry} (hadds : Log.Adds entries log longer)
    (level : Log.Level) :
    Log.Adds (Log.shown level entries) (Log.shown level log) (Log.shown level longer) := by
  obtain ⟨before, after, rfl, rfl⟩ := hadds
  exact ⟨Log.shown level before, Log.shown level after, by simp [Log.shown], by simp [Log.shown]⟩

/-- Every level shows warnings. -/
theorem Log.shown_append_warning (level : Log.Level) (entries : List Log.Entry) (message : String) :
    Log.shown level (entries ++ [Log.warning message]) =
      Log.shown level entries ++ [Log.warning message] := by
  unfold Log.shown
  rw [List.filter_append]
  cases level <;> rfl

theorem level_of_mem_exchangeOf {host : Host} {invocation : Invocation} {command : ReasonerCommand}
    {files : List FactFile} {entry : Log.Entry}
    (hmem : entry ∈ exchangeOf host invocation command files) :
    entry.level = .debug ∧ invocation.logLevel = .debug := by
  obtain ⟨hentry, hshown⟩ := List.mem_filter.mp hmem
  have hdebug := level_of_mem_exchangeEntries hentry
  refine ⟨hdebug, ?_⟩
  rw [hdebug] at hshown
  cases hlevel : invocation.logLevel <;> simp [hlevel, Log.Level.weight] at hshown ⊢

/-- A run that has loaded its files and whose reasoner then fails is a run
without reasoning and one warning that says why, provided that the deadline
leaves room for the grace.  Otherwise the run panics, whatever the reasoner does. -/
theorem failing_reasoner_only_warns {host : Host} {arguments others : List String}
    {invocation : Invocation} {command : ReasonerCommand} {reasoner : Option String}
    (hparse : parse arguments = some (.invocation invocation))
    (hothers : parse others = some (.invocation (invocation.withoutReasoning reasoner)))
    (hasks : AsksReasoner invocation command) :
    (∀ config files, loadConfig host invocation.config = .ok config →
      loadFactFiles host invocation.facts = .ok files →
      (invocation.isTimed → Fails (host.launch (callOf invocation command files)) →
        ∃ error, Refused (answerOf command.program invocation.deadline
            (host.launch (callOf invocation command files))) error ∧
          (run host others).warnings = [] ∧
          run host arguments = { run host others with
            warnings := [Log.plain (OracleWarning.message ⟨command.program, error⟩)] } ∧
          Log.Adds
            (exchangeOf host invocation command files ++
              [Log.warning (OracleWarning.message ⟨command.program, error⟩)])
            (log host others) (log host arguments) ∧
          ∀ entry ∈ exchangeOf host invocation command files,
            entry.level = .debug ∧ invocation.logLevel = .debug) ∧
      (¬ invocation.isTimed → run host arguments = ⟨101, "", [], none⟩)) ∧
      ((∀ config files, loadConfig host invocation.config = .ok config →
          loadFactFiles host invocation.facts ≠ .ok files) →
        run host arguments = run host others ∧ log host arguments = log host others) := by
  have hreasoned : run host arguments = runInvocation host invocation := by
    simp only [run, hparse]
  have hplain : run host others =
      runInvocation host (invocation.withoutReasoning reasoner) := by
    simp only [run, hothers]
  have hlogged : log host arguments =
      Log.shown invocation.logLevel (journal host invocation) := by
    simp only [log, hparse]
  have hplainLogged : log host others = Log.shown invocation.logLevel
      (journal host (invocation.withoutReasoning reasoner)) := by
    simp only [log, hothers]
    rfl
  rw [hreasoned, hplain, hlogged, hplainLogged]
  constructor
  · intro config files hconfig hfiles
    constructor
    · intro htimed hfails
      obtain ⟨error, hrefused⟩ := exists_refused_iff_fails.mpr hfails
      have hload := load_of_derive hconfig hfiles (derive_of_refused hasks htimed hrefused)
      have hother : load host (invocation.withoutReasoning reasoner) =
          .ok ⟨loadedSession config files, files, []⟩ :=
        load_of_derive hconfig hfiles (derive_withoutReasoning hasks.noFile reasoner _)
      have hadds := (adds_journal_of_refused hasks htimed hconfig hfiles hrefused reasoner).shown
        invocation.logLevel
      rw [Log.shown_append_warning] at hadds
      refine ⟨error, hrefused, ?_, ?_, hadds, fun entry => level_of_mem_exchangeOf⟩
      · rw [runInvocation, hother]
      · unfold runInvocation
        rw [hload, hother]
        rfl
    · intro huntimed
      have hderive : derive host invocation (loadedSession config files) = .error .panicked :=
        derive_of_untimed hasks.noFile hasks.needed hasks.reasoning hasks.oracleOf_eq huntimed
      rw [runInvocation, load_of_halt hconfig hfiles hderive]
      rfl
  · intro hunloaded
    constructor
    · unfold runInvocation
      rw [load_withoutReasoning_of_unloaded hunloaded reasoner]
      rfl
    · rw [journal_withoutReasoning_of_unloaded hunloaded reasoner]

/-! ## A reasoner that derives a citation -/

def oneCitation : String := "ethics:A ethics:cites ethics:B .\n"

def citationFile : FactFile := ⟨"facts.n3", oneCitation, ⟨[], [⟨⟨"A"⟩, .cites, ⟨"B"⟩⟩], 0, 0⟩⟩

theorem loadFactFiles_oneCitation {host : Host}
    (hread : host.readFile "facts.n3" = .ok oneCitation) :
    loadFactFiles host ["facts.n3"] = .ok [citationFile] := by
  have hdocument : Document.ofText defaultLabel oneCitation = .ok citationFile.document := by
    decide +kernel
  exact loadFactFiles_cons_of_load (loadFactFile_of_read hread hdocument) rfl

/-- The first statement is acceptable as an answer, the second one is not. -/
def citingAnswer : String :=
  "ethics:A ethics:dependsOn ethics:B .\nethics:B ethics:cites ethics:A .\n"

def citingHost : Host where
  readFile _ := .ok oneCitation
  launch _ := .exited (.code 0) citingAnswer.toUTF8 "" none

def chainsOfCiting : Invocation where
  request := .chains "A"
  facts := ["facts.n3"]
  derived := none
  config := none
  reasoner := some "eye --pass-only-new"
  deadline := 30
  noReason := false
  json := true
  verbose := false
  quiet := false

theorem failing_reasoner_citing :
    let asking := ["chains", "A", "--facts", "facts.n3", "--json",
      "--reasoner", "eye --pass-only-new"]
    let plain := ["chains", "A", "--facts", "facts.n3", "--json", "--no-reason"]
    let noFiles := { citingHost with readFile := fun _ => .error .notFound }
    let message := "Oracle 'eye' failed, continuing without inferred facts: " ++
      "Oracle returned non-derived predicate: (B cites A)"
    parse asking = some (.invocation chainsOfCiting) ∧
      parse plain = some (.invocation (chainsOfCiting.withoutReasoning none)) ∧
      AsksReasoner chainsOfCiting ⟨"eye", ["--pass-only-new"]⟩ ∧
      run citingHost asking = { run citingHost plain with warnings := [message] } ∧
      Log.Adds [⟨.warning, message⟩] (log citingHost plain) (log citingHost asking) ∧
      run noFiles asking = run noFiles plain := by
  intro asking plain noFiles message
  have hparse : parse asking = some (.invocation chainsOfCiting) := by decide +kernel
  have hothers : parse plain = some (.invocation (chainsOfCiting.withoutReasoning none)) := by
    decide +kernel
  have hasks : AsksReasoner chainsOfCiting ⟨"eye", ["--pass-only-new"]⟩ :=
    ⟨rfl, rfl, rfl, by decide +kernel⟩
  have hfiles : loadFactFiles citingHost chainsOfCiting.facts = .ok [citationFile] :=
    loadFactFiles_oneCitation rfl
  have hanswer : Document.ofText defaultLabel citingAnswer =
      .ok ⟨[], [⟨⟨"A"⟩, .dependsOn, ⟨"B"⟩⟩, ⟨⟨"B"⟩, .cites, ⟨"A"⟩⟩], 0, 0⟩ := by decide +kernel
  have hfails : Fails (.exited (.code 0) citingAnswer.toUTF8 "" none) :=
    .foreign hanswer (List.mem_cons_of_mem _ List.mem_cons_self) (by decide)
  obtain ⟨error, hrefused, -, hrun, hlog, hdetails⟩ :=
    ((failing_reasoner_only_warns hparse hothers hasks).1 _ _ rfl hfiles).1 rfl hfails
  -- An answer determines why it is refused, so the warning is known.
  change Refused (readAnswer citingAnswer.toUTF8) error at hrefused
  rw [readAnswer_of_ofText hanswer] at hrefused
  obtain rfl : error = .foreignPredicate ⟨⟨"B"⟩, .cites, ⟨"A"⟩⟩ :=
    hrefused.error_eq (ensureDerived_eq_error_iff.mp rfl)
  have hmessage : Log.plain (OracleWarning.message
      ⟨"eye", .foreignPredicate ⟨⟨"B"⟩, .cites, ⟨"A"⟩⟩⟩) = message := by decide +kernel
  rw [hmessage] at hrun
  rw [Log.warning, hmessage] at hlog
  have hnone : exchangeOf citingHost chainsOfCiting ⟨"eye", ["--pass-only-new"]⟩
      [citationFile] = [] := by
    rw [List.eq_nil_iff_forall_not_mem]
    intro entry hmem
    cases (hdetails entry hmem).2
  rw [hnone] at hlog
  have hmissing : ∀ files, loadFactFiles noFiles chainsOfCiting.facts ≠ .ok files := by
    intro files hloaded
    cases hloaded
  refine ⟨hparse, hothers, hasks, hrun, hlog, ?_⟩
  exact ((failing_reasoner_only_warns hparse hothers hasks).2 fun _ files _ => hmissing files).1

/-! ## A deadline that leaves no room -/

def chainsToTheEnd : Invocation :=
  { chainsOfCiting with reasoner := some "false", deadline := 18446744073709551615 }

/-- A reasoner that does nothing but fail is not what such a run ends with. -/
theorem endless_deadline_panics :
    let host := Host.ofDirectory [("facts.n3", oneCitation)]
    let asking := ["chains", "A", "--facts", "facts.n3", "--json", "--reasoner", "false",
      "--oracle-timeout-secs", "18446744073709551615"]
    let plain := asking ++ ["--no-reason"]
    parse asking = some (.invocation chainsToTheEnd) ∧
      parse plain = some (.invocation (chainsToTheEnd.withoutReasoning (some "false"))) ∧
      AsksReasoner chainsToTheEnd ⟨"false", []⟩ ∧
      (∃ config files, loadConfig host chainsToTheEnd.config = .ok config ∧
        loadFactFiles host chainsToTheEnd.facts = .ok files ∧
        Fails (host.launch (callOf chainsToTheEnd ⟨"false", []⟩ files))) ∧
      run host asking = ⟨101, "", [], none⟩ ∧
      run host plain = ⟨0, "[]\n", [], none⟩ := by
  intro host asking plain
  have hparse : parse asking = some (.invocation chainsToTheEnd) := by decide +kernel
  have hothers : parse plain =
      some (.invocation (chainsToTheEnd.withoutReasoning (some "false"))) := by
    decide +kernel
  have hasks : AsksReasoner chainsToTheEnd ⟨"false", []⟩ := ⟨rfl, rfl, rfl, by decide +kernel⟩
  have hfiles : loadFactFiles host chainsToTheEnd.facts = .ok [citationFile] :=
    loadFactFiles_oneCitation (by decide +kernel)
  refine ⟨hparse, hothers, hasks, ⟨_, _, rfl, hfiles, ?_⟩, ?_, ?_⟩
  · exact .status (by decide)
  · have hderive : derive host chainsToTheEnd (loadedSession .standard [citationFile]) =
        .error .panicked :=
      derive_of_untimed hasks.noFile hasks.needed hasks.reasoning hasks.oracleOf_eq (by decide)
    simp only [run, hparse]
    rw [runInvocation, load_of_halt rfl hfiles hderive]
    rfl
  · have hload : load host (chainsToTheEnd.withoutReasoning (some "false")) =
        .ok ⟨loadedSession .standard [citationFile], [citationFile], []⟩ :=
      load_of_derive rfl hfiles (derive_withoutReasoning hasks.noFile (some "false") _)
    have hchains : (loadedSession .standard [citationFile]).chains ⟨"A"⟩ = [] := by
      have hempty : (loadedSession .standard [citationFile]).derived.toList = [] := rfl
      simp [Session.chains, Chains.find, Store.matching_eq, hempty]
    simp only [run, hothers]
    rw [runInvocation, hload]
    simp only [answer, Invocation.withoutReasoning, chainsToTheEnd, chainsOfCiting, hchains]
    decide +kernel

end Treatise.CommandLine
