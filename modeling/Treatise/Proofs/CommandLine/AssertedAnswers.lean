import Treatise.Proofs.CommandLine.Options
import Treatise.Proofs.CommandLine.Precomputed

/-!
# Answers from the asserted facts

Weights, reports, validation and statistics are answered from the asserted
facts.  Such a run does not reason, so it does not matter whether it should,
with which program and for how long, nor what programs do when they are run.
Derived facts from a file are loaded, but only a file that is refused makes a
difference.
-/

namespace Treatise.CommandLine

/-- The requests that are answered from the asserted facts. -/
inductive Request.IsAsserted : Request → Prop
  | analyze (id : String) : IsAsserted (.analyze id)
  | report (top : ℕ) : IsAsserted (.report top)
  | validate : IsAsserted .validate
  | stats : IsAsserted .stats

/-- The file with derived facts, if the run has one, is not refused. -/
def AcceptsDerived (host : Host) (invocation : Invocation) : Prop :=
  ∀ path, invocation.derived = some path → ∃ derived, loadDerived host path = .ok derived

section Answers

variable {request : Request}

theorem Request.IsAsserted.needsDerived (hasserted : request.IsAsserted) :
    request.needsDerived = false := by
  cases hasserted <;> rfl

theorem answer_of_isAsserted (hasserted : request.IsAsserted) (session : Session)
    (derived : Store) (files : List FactFile) (warnings others : List String) :
    answer ⟨session.replaceDerived derived, files, warnings⟩ request =
      answer ⟨session, files, others⟩ request := by
  cases hasserted <;> rfl

end Answers

section Loading

variable {host : Host} {invocation : Invocation}

theorem loadFactFiles_launch (host : Host) (launch : Call → Launch) (paths : List String) :
    loadFactFiles { host with launch } paths = loadFactFiles host paths := by
  induction paths with
  | nil => rfl
  | cons path rest ih =>
      unfold loadFactFiles
      rw [ih]
      rfl

theorem derive_of_isAsserted (hasserted : invocation.request.IsAsserted) (session : Session) :
    derive host invocation session =
      match invocation.derived with
      | some path => do return (session.replaceDerived (← loadDerived host path), [])
      | none => .ok (session, []) := by
  unfold derive
  cases invocation.derived with
  | some path => rfl
  | none => simp [hasserted.needsDerived]

theorem load_of_isAsserted {changed : Invocation} (hasserted : invocation.request.IsAsserted)
    (hchanged : changed.request.IsAsserted) (launch : Call → Launch)
    (hfacts : changed.facts = invocation.facts) (hconfig : changed.config = invocation.config)
    (hderived : changed.derived = invocation.derived) :
    load { host with launch } changed = load host invocation := by
  unfold load
  simp only [derive_of_isAsserted hasserted, derive_of_isAsserted hchanged, hfacts, hconfig,
    hderived, loadFactFiles_launch]
  rfl

end Loading

section Runs

variable {host : Host} {invocation changed : Invocation}

theorem runInvocation_of_isAsserted (hasserted : invocation.request.IsAsserted)
    (launch : Call → Launch)
    (hsame : invocation.without reasoningOptions = changed.without reasoningOptions) :
    runInvocation { host with launch } changed = runInvocation host invocation := by
  simp only [Invocation.without, Invocation.mk.injEq] at hsame
  obtain ⟨hrequest, hfacts, hderived, hconfig, -, -, -, hjson, -, -⟩ := hsame
  have hload : load { host with launch } changed = load host invocation :=
    load_of_isAsserted hasserted (hrequest ▸ hasserted) launch hfacts.symm hconfig.symm
      hderived.symm
  unfold runInvocation
  rw [hload, ← hrequest, ← hjson]

theorem runInvocation_of_accepts (hasserted : invocation.request.IsAsserted)
    (haccepts : AcceptsDerived host invocation) :
    runInvocation host { invocation with derived := none } = runInvocation host invocation := by
  by_cases hloaded : ∃ config files, loadConfig host invocation.config = .ok config ∧
      loadFactFiles host invocation.facts = .ok files
  · obtain ⟨config, files, hconfig, hfiles⟩ := hloaded
    have hplainAsserted : ({ invocation with derived := none } : Invocation).request.IsAsserted :=
      hasserted
    have hplain : load host { invocation with derived := none } =
        .ok ⟨loadedSession config files, files, []⟩ :=
      load_of_derive hconfig hfiles (derive_of_isAsserted hplainAsserted _)
    cases hderived : invocation.derived with
    | none => rw [← hderived]
    | some path =>
        obtain ⟨derived, hread⟩ := haccepts path hderived
        have hderive : derive host invocation (loadedSession config files) =
            .ok ((loadedSession config files).replaceDerived derived, []) := by
          rw [derive_of_isAsserted hasserted, hderived]
          simp only [hread]
          rfl
        unfold runInvocation
        rw [hplain, load_of_derive hconfig hfiles hderive]
        simp only [answer_of_isAsserted hasserted _ derived files [] []]
  · push Not at hloaded
    have hload : load host { invocation with derived := none } = load host invocation :=
      load_of_unloaded rfl rfl hloaded
    unfold runInvocation
    rw [hload]

theorem without_eq_of_withoutOptions_eq {names arguments others : List String}
    (hnames : names ⊆ derivationOptions)
    (hparse : parse arguments = some (.invocation invocation))
    (hothers : parse others = some (.invocation changed))
    (hsame : withoutOptions names arguments = withoutOptions names others) :
    invocation.without names = changed.without names := by
  have hplain := parse_withoutOptions hnames hparse
  rw [hsame, parse_withoutOptions hnames hothers] at hplain
  exact (Parsed.invocation.inj (Option.some.inj hplain)).symm

end Runs

/-- Two runs that are answered from the asserted facts end alike if their
command lines differ in nothing but how to reason, whatever programs do; and
also if derived facts from a file are added, provided that it is not refused. -/
theorem asserted_answers_ignore_reasoning {host : Host} {arguments others : List String}
    {invocation changed : Invocation}
    (hparse : parse arguments = some (.invocation invocation))
    (hothers : parse others = some (.invocation changed))
    (hasserted : invocation.request.IsAsserted) (launch : Call → Launch) :
    (withoutOptions reasoningOptions arguments = withoutOptions reasoningOptions others →
      run { host with launch } others = run host arguments) ∧
    (withoutOptions derivationOptions arguments = withoutOptions derivationOptions others →
      AcceptsDerived host invocation → AcceptsDerived host changed →
        run { host with launch } others = run host arguments) := by
  simp only [run, hparse, hothers]
  constructor
  · intro hsame
    apply runInvocation_of_isAsserted hasserted launch
    exact without_eq_of_withoutOptions_eq (List.subset_cons_self _ _) hparse hothers hsame
  · intro hsame haccepts hchanged
    have hplain := without_eq_of_withoutOptions_eq (List.Subset.refl _) hparse hothers hsame
    have hrequest := congrArg Invocation.request hplain
    have hchangedAsserted : changed.request.IsAsserted := hrequest ▸ hasserted
    have hunderived : ({ invocation with derived := none } : Invocation).without reasoningOptions =
        ({ changed with derived := none } : Invocation).without reasoningOptions := hplain
    have hplainAsserted : ({ invocation with derived := none } : Invocation).request.IsAsserted :=
      hasserted
    calc
      runInvocation { host with launch } changed = runInvocation host changed :=
        runInvocation_of_isAsserted hchangedAsserted launch rfl
      _ = runInvocation host { changed with derived := none } :=
        (runInvocation_of_accepts hchangedAsserted hchanged).symm
      _ = runInvocation host { invocation with derived := none } :=
        runInvocation_of_isAsserted hplainAsserted host.launch hunderived
      _ = runInvocation host invocation := runInvocation_of_accepts hasserted haccepts

/-! ## A report with a reasoner that names no program -/

def derivedHost : Host where
  readFile path :=
    if path = "derived.n3" then .ok "ethics:A ethics:dependsOn ethics:B .\n"
    else .ok "ethics:A ethics:cites ethics:B .\n"
  launch _ := .notStarted FileError.notFound.message

def reportOnThree : Invocation where
  request := .report 3
  facts := ["facts.n3"]
  derived := none
  config := none
  reasoner := none
  deadline := 30
  noReason := false
  json := true
  verbose := false
  quiet := false

theorem asserted_answers_blankReasoner :
    let plain := ["report", "--facts", "facts.n3", "--top", "3", "--json"]
    let blank := ["report", "--reasoner", " ", "--facts", "facts.n3", "--top", "3", "--no-reason",
      "--json"]
    let added := ["report", "--facts", "facts.n3", "--derived=derived.n3", "--top", "3",
      "--oracle-timeout-secs", "0", "--json"]
    parse plain = some (.invocation reportOnThree) ∧
      parse blank = some (.invocation { reportOnThree with reasoner := " ", noReason := true }) ∧
      parse added =
        some (.invocation { reportOnThree with derived := "derived.n3", deadline := 0 }) ∧
      (∃ derived, loadDerived derivedHost "derived.n3" = .ok derived) ∧
      run { derivedHost with launch := fun _ => .overdue } blank = run derivedHost plain ∧
      run { derivedHost with launch := fun _ => .overdue } added = run derivedHost plain := by
  intro plain blank added
  have hplain : parse plain = some (.invocation reportOnThree) := by decide +kernel
  have hblank : parse blank =
      some (.invocation { reportOnThree with reasoner := " ", noReason := true }) := by
    decide +kernel
  have hadded : parse added =
      some (.invocation { reportOnThree with derived := "derived.n3", deadline := 0 }) := by
    decide +kernel
  have hdocument : N3.Document.ofText N3.defaultLabel "ethics:A ethics:dependsOn ethics:B .\n" =
      .ok ⟨[], [⟨⟨"A"⟩, .dependsOn, ⟨"B"⟩⟩], 0, 0⟩ := by decide +kernel
  have hderived : ∃ derived, loadDerived derivedHost "derived.n3" = .ok derived :=
    ⟨_, (loadDerived_eq_ok_iff rfl).mpr ⟨_, hdocument, by decide, rfl⟩⟩
  have haccepts : AcceptsDerived derivedHost
      { reportOnThree with derived := "derived.n3", deadline := 0 } := by
    intro path hpath
    obtain rfl := Option.some.inj hpath
    exact hderived
  have hnone : AcceptsDerived derivedHost reportOnThree := by
    intro path hpath
    cases hpath
  refine ⟨hplain, hblank, hadded, hderived, ?_, ?_⟩
  · exact (asserted_answers_ignore_reasoning hplain hblank (.report 3) _).1 (by decide +kernel)
  · exact (asserted_answers_ignore_reasoning hplain hadded (.report 3) _).2 (by decide +kernel)
      hnone haccepts

end Treatise.CommandLine
