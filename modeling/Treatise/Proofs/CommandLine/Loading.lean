import Treatise.Proofs.N3.Concatenation

/-!
# What loading gives and logs

Loading succeeds when every file can be read and is a document, and then the
statements are those of the documents.  A file with derived facts has to hold
derived facts only.  The warnings that a run ends with are those of its log.
-/

namespace Treatise.CommandLine

open N3

theorem bind_eq_ok_iff {ε α β : Type} {outcome : Except ε α} {next : α → Except ε β} {result : β} :
    (outcome >>= next) = .ok result ↔ ∃ value, outcome = .ok value ∧ next value = .ok result := by
  cases outcome with
  | error error => simp [Bind.bind, Except.bind]
  | ok value => simp [Bind.bind, Except.bind]

theorem ok_bind {ε α β : Type} (value : α) (next : α → Except ε β) :
    ((.ok value : Except ε α) >>= next) = next value := rfl

theorem readOrFail_eq_ok_iff {host : Host} {words path text : String} :
    readOrFail host words path = .ok text ↔ host.readFile path = .ok text := by
  unfold readOrFail
  split <;> simp_all

theorem parseOrFail_eq_ok_iff {path text : String} {document : Document} :
    parseOrFail path text = .ok document ↔ Document.ofText defaultLabel text = .ok document := by
  unfold parseOrFail
  split <;> simp_all

theorem ofText_of_loadFactFiles {host : Host} {paths : List String} {files : List FactFile}
    (hload : loadFactFiles host paths = .ok files) : ∀ file ∈ files,
      ∃ document, Document.ofText defaultLabel file.text = .ok document ∧
        document.statements = file.statements := by
  induction paths generalizing files with
  | nil =>
      obtain rfl : [] = files := Except.ok.inj hload
      simp
  | cons path others ih =>
      rcases bind_eq_ok_iff.mp hload with ⟨first, hfirst, hrest⟩
      rcases bind_eq_ok_iff.mp hrest with ⟨rest, hothers, hfiles⟩
      obtain rfl : first :: rest = files := Except.ok.inj hfiles
      rcases bind_eq_ok_iff.mp hfirst with ⟨text, -, hparse⟩
      rcases bind_eq_ok_iff.mp hparse with ⟨document, hdocument, hfile⟩
      obtain rfl : ⟨path, text, document⟩ = first := Except.ok.inj hfile
      intro file hmem
      rcases List.mem_cons.mp hmem with rfl | hlater
      · exact ⟨document, parseOrFail_eq_ok_iff.mp hdocument, rfl⟩
      · exact ih hothers file hlater

theorem loadDerived_eq_ok_iff {host : Host} {path text : String}
    (hread : host.readFile path = .ok text) {derived : Store} :
    loadDerived host path = .ok derived ↔
      ∃ document, Document.ofText defaultLabel text = .ok document ∧
        (∀ statement ∈ document.statements, statement.isDerived) ∧
        Store.ofList document.statements = derived := by
  unfold loadDerived
  simp only [bind_eq_ok_iff, readOrFail_eq_ok_iff, parseOrFail_eq_ok_iff, hread,
    Except.ok.injEq, exists_eq_left']
  apply exists_congr
  intro document
  apply and_congr_right
  intro _
  cases hanswer : ensureDerived document.statements with
  | ok answer =>
      rcases ensureDerived_eq_ok_iff.mp hanswer with ⟨rfl, hderived⟩
      constructor
      · intro hloaded
        exact ⟨hderived, Except.ok.inj hloaded⟩
      · rintro ⟨-, rfl⟩
        rfl
  | error error =>
      have hforeign : ¬ ∀ statement ∈ document.statements, statement.isDerived := by
        intro hderived
        rw [ensureDerived_eq_ok_iff.mpr ⟨rfl, hderived⟩] at hanswer
        cases hanswer
      constructor
      · intro hthrown
        cases hthrown
      · intro hloaded
        exact absurd hloaded.1 hforeign

/-! ## Warnings in the log -/

namespace Log

theorem warnings_append (first second : List Entry) :
    warnings (first ++ second) = warnings first ++ warnings second := by
  simp [warnings]

theorem warnings_eq_nil {entries : List Entry}
    (hlevels : ∀ entry ∈ entries, entry.level ≠ .warning) : warnings entries = [] := by
  simpa [warnings] using hlevels

/-- No level is so high that a run would keep a warning back. -/
theorem warnings_shown (level : Level) (entries : List Entry) :
    warnings (shown level entries) = warnings entries := by
  unfold warnings shown
  rw [List.filter_filter]
  congr 2
  funext entry
  cases hlevel : entry.level <;> cases level <;> rfl

end Log

section Journal

variable {host : Host} {invocation : Invocation}

theorem level_of_mem_fileEntries {paths : List String} {entry : Log.Entry}
    (hmem : entry ∈ fileEntries host paths) : entry.level = .debug := by
  induction paths with
  | nil => cases hmem
  | cons path rest ih =>
      unfold fileEntries at hmem
      split at hmem
      · cases hmem
      · rcases List.mem_cons.mp hmem with rfl | hmem
        · rfl
        · rcases List.mem_cons.mp hmem with rfl | hmem
          · rfl
          · exact ih hmem

theorem level_of_mem_readingEntries {text : String} {entry : Log.Entry}
    (hmem : entry ∈ readingEntries text) : entry.level = .debug := by
  unfold readingEntries at hmem
  split at hmem
  · cases hmem
  · obtain rfl := List.mem_singleton.mp hmem
    rfl

theorem level_of_mem_derivedFileEntries {path : String} {entry : Log.Entry}
    (hmem : entry ∈ derivedFileEntries host path) : entry.level = .debug := by
  unfold derivedFileEntries at hmem
  split at hmem
  · cases hmem
  · exact level_of_mem_readingEntries hmem

theorem level_of_mem_outcomeEntries {launch : Launch} {entry : Log.Entry}
    (hmem : entry ∈ outcomeEntries launch) : entry.level = .debug := by
  unfold outcomeEntries at hmem
  split at hmem
  · rcases List.mem_append.mp hmem with hunread | hread
    · obtain ⟨reason, -, rfl⟩ := List.mem_map.mp hunread
      rfl
    · obtain ⟨text, -, hentry⟩ := List.mem_flatMap.mp hread
      exact level_of_mem_readingEntries hentry
  · cases hmem

theorem level_of_mem_exchangeEntries {command : ReasonerCommand} {deadline : ℕ} {facts : Store}
    {rules : List Rule} {entry : Log.Entry}
    (hmem : entry ∈ host.exchangeEntries command deadline facts rules) :
    entry.level = .debug := by
  rcases List.mem_cons.mp hmem with rfl | houtcome
  · rfl
  · exact level_of_mem_outcomeEntries houtcome

theorem level_of_mem_oracleEntries {facts : Store} {entry : Log.Entry}
    (hmem : entry ∈ oracleEntries host invocation facts) : entry.level = .debug := by
  unfold oracleEntries at hmem
  split at hmem
  · exact level_of_mem_exchangeEntries hmem
  · obtain rfl := List.mem_singleton.mp hmem
    rfl

theorem level_of_mem_answerEntries {session : Session} {request : Request} {entry : Log.Entry}
    (hmem : entry ∈ answerEntries session request) : entry.level = .debug := by
  cases request with
  | query id | analyze id =>
      obtain rfl := List.mem_singleton.mp hmem
      rfl
  | inspect id => rcases List.mem_pair.mp hmem with rfl | rfl <;> rfl
  | report top =>
      obtain ⟨proof, -, rfl⟩ := List.mem_map.mp hmem
      rfl
  | chains id | validate | stats | reason => cases hmem

theorem warnings_of_debug {entries : List Log.Entry}
    (hlevels : ∀ entry ∈ entries, entry.level = .debug) : Log.warnings entries = [] := by
  apply Log.warnings_eq_nil
  intro entry hmem
  rw [hlevels entry hmem]
  decide

theorem warnings_acceptEntry (oracle : String) (accepted : Accepted) :
    Log.warnings [acceptEntry oracle accepted] =
      accepted.warning.toList.map fun warning => Log.plain warning.message := by
  unfold acceptEntry
  cases accepted.warning <;> rfl

theorem warnings_derivationEntries (host : Host) (invocation : Invocation) (session : Session) :
    Log.warnings (derivationEntries host invocation session) =
      match derive host invocation session with
      | .error _ => []
      | .ok (_, warnings) => warnings := by
  unfold derivationEntries derive
  cases invocation.derived with
  | some path =>
      simp only [warnings_of_debug fun _ => level_of_mem_derivedFileEntries]
      cases loadDerived host path <;> rfl
  | none =>
      by_cases hreason : invocation.request.needsDerived ∧ ¬ invocation.noReason
      · simp only [if_pos hreason]
        cases oracleOf host invocation with
        | error halt => rfl
        | ok oracle =>
            rw [ok_bind]
            by_cases htimed : invocation.isTimed
            · simp only [if_pos htimed]
              rw [Log.warnings_append, warnings_of_debug fun _ => level_of_mem_oracleEntries,
                warnings_acceptEntry]
              rfl
            · simp only [if_neg htimed]
              rfl
      · simp only [if_neg hreason]
        rfl

theorem warnings_journal (host : Host) (invocation : Invocation) :
    Log.warnings (journal host invocation) = (runInvocation host invocation).warnings := by
  unfold journal runInvocation load
  cases loadConfig host invocation.config with
  | error halt => cases halt <;> rfl
  | ok config =>
      simp only [ok_bind]
      rw [Log.warnings_append, warnings_of_debug fun _ => level_of_mem_fileEntries]
      cases loadFactFiles host invocation.facts with
      | error halt => cases halt <;> rfl
      | ok files =>
          simp only [ok_bind]
          have hsession : Log.warnings (sessionEntries (loadedSession config files)) = [] := rfl
          rw [Log.warnings_append, Log.warnings_append, hsession, warnings_derivationEntries]
          cases derive host invocation (loadedSession config files) with
          | error halt => cases halt <;> rfl
          | ok derived =>
              have hanswer : Log.warnings (answerEntries derived.1 invocation.request) = [] :=
                warnings_of_debug fun _ => level_of_mem_answerEntries
              simp only [hanswer, List.nil_append, List.append_nil]
              rfl

/-- What a run warns of is what its log warns of, whichever entries the log shows. -/
theorem warnings_log (host : Host) (arguments : List String) :
    Log.warnings (log host arguments) = (run host arguments).warnings := by
  unfold log run
  cases parse arguments with
  | none => rfl
  | some parsed =>
      cases parsed with
      | help => rfl
      | version => rfl
      | invocation invocation => exact (Log.warnings_shown _ _).trans (warnings_journal _ _)

end Journal

end Treatise.CommandLine
