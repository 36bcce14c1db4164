import Mathlib.Tactic.Common
import Treatise.CommandLine.Arguments

/-!
# Command lines without some of their options

The options that say where derived facts come from can be taken out of a
command line word by word, an option with its value.  What is left is a command
line as well, and it asks for the same, with the defaults of the options that
were taken out.
-/

namespace Treatise.CommandLine

/-- The options that say how to reason. -/
def reasoningOptions : List String := ["reasoner", "oracle-timeout-secs", "no-reason"]

/-- The options that say where derived facts come from. -/
def derivationOptions : List String := "derived" :: reasoningOptions

/-- The words without the switches and options of these names. -/
def withoutOptions (names : List String) : List String → List String
  | [] => []
  | word :: rest =>
    match Word.ofText word with
    | .terminator => word :: rest
    | .long name (some _) =>
      if name ∈ names then withoutOptions names rest else word :: withoutOptions names rest
    | .long name none =>
      if name ∈ names then
        if name ∈ Command.switches then withoutOptions names rest
        else
          match rest with
          | [] => []
          | _ :: rest => withoutOptions names rest
      else word :: withoutOptions names rest
    | .short _ | .operand _ => word :: withoutOptions names rest

/-- The same invocation with the defaults for the options of these names. -/
def Invocation.without (names : List String) (invocation : Invocation) : Invocation where
  request := invocation.request
  facts := invocation.facts
  derived := if "derived" ∈ names then none else invocation.derived
  config := invocation.config
  reasoner := if "reasoner" ∈ names then none else invocation.reasoner
  deadline := if "oracle-timeout-secs" ∈ names then 30 else invocation.deadline
  noReason := if "no-reason" ∈ names then false else invocation.noReason
  json := invocation.json
  verbose := invocation.verbose
  quiet := invocation.quiet

namespace Draft

def without (names : List String) (draft : Draft) : Draft where
  command := draft.command
  opening := draft.opening
  switches := draft.switches.filter (· ∉ names)
  values := draft.values.filter fun (name, _) => name ∉ names
  operands := draft.operands

variable {names : List String} {draft next : Draft} {option value : String}

theorem value?_without (names : List String) (draft : Draft) (option : String) :
    (draft.without names).value? option = if option ∈ names then none else draft.value? option := by
  rw [value?, value?, Draft.without, List.find?_filter]
  by_cases hmem : option ∈ names
  · rw [if_pos hmem, Option.map_eq_none_iff, List.find?_eq_none]
    intro ⟨name, _⟩ _
    by_cases hsame : name = option
    · simp [hsame, hmem]
    · simp [hsame]
  · rw [if_neg hmem]
    congr 2
    funext ⟨name, _⟩
    by_cases hsame : name = option
    · simp [hsame, hmem]
    · simp [hsame]

theorem contains_switches_without (names : List String) (draft : Draft) (name : String) :
    (draft.without names).switches.contains name =
      if name ∈ names then false else draft.switches.contains name := by
  by_cases hmem : name ∈ names
  · simp [Draft.without, hmem]
  · simp [Draft.without, hmem]

theorem isOn_without {names : List String} {switch : String} (hother : switch ∉ names)
    (draft : Draft) : (draft.without names).isOn switch = draft.isOn switch := by
  rw [isOn, contains_switches_without, if_neg hother]
  rfl

theorem addValue?_without (hother : option ∉ names)
    (hadd : draft.addValue? option value = some next) :
    (draft.without names).addValue? option value = some (next.without names) := by
  unfold addValue? at hadd ⊢
  rw [value?_without, if_neg hother]
  split at hadd
  next hallowed =>
    obtain rfl := Option.some.inj hadd
    exact (if_pos hallowed).trans (by simp [Draft.without, hother])
  next => cases hadd

theorem without_addValue? (hmem : option ∈ names)
    (hadd : draft.addValue? option value = some next) :
    next.without names = draft.without names := by
  unfold addValue? at hadd
  split at hadd
  next =>
    obtain rfl := Option.some.inj hadd
    simp [Draft.without, hmem]
  next => cases hadd

theorem addOperand?_without {operand : String} (hadd : draft.addOperand? operand = some next) :
    (draft.without names).addOperand? operand = some (next.without names) := by
  unfold addOperand? at hadd ⊢
  split at hadd
  next hallowed =>
    obtain rfl := Option.some.inj hadd
    exact if_pos hallowed
  next => cases hadd

theorem addOperands?_without {operands : List String}
    (hadd : draft.addOperands? operands = some next) :
    (draft.without names).addOperands? operands = some (next.without names) := by
  induction operands generalizing draft with
  | nil =>
      obtain rfl := Option.some.inj hadd
      rfl
  | cons operand rest ih =>
      obtain ⟨middle, hfirst, hrest⟩ := Option.bind_eq_some_iff.mp hadd
      rw [addOperands?, addOperand?_without hfirst, Option.bind_some]
      exact ih hrest

theorem addSwitches?_without {given : List String} (hgiven : ∀ name ∈ given, name ∉ names)
    (hadd : draft.addSwitches? given = some (.draft next)) :
    (draft.without names).addSwitches? given = some (.draft (next.without names)) := by
  induction given generalizing draft with
  | nil =>
      cases hadd
      rfl
  | cons name rest ih =>
      have hother : name ∉ names := hgiven name List.mem_cons_self
      unfold addSwitches? at hadd ⊢
      split at hadd
      next => cases hadd
      next hhelp =>
        split at hadd
        next hallowed =>
          have hrest := ih (fun other hmem => hgiven other (List.mem_cons_of_mem name hmem)) hadd
          rw [if_neg hhelp, contains_switches_without, if_neg hother, if_pos hallowed]
          simpa [Draft.without, hother] using hrest
        next => cases hadd

theorem without_addSwitches? {name : String} (hmem : name ∈ names)
    (hadd : draft.addSwitches? [name] = some (.draft next)) :
    next.without names = draft.without names := by
  unfold addSwitches? at hadd
  split at hadd
  next => cases hadd
  next =>
    split at hadd
    next =>
      cases hadd
      simp [Draft.without, hmem]
    next => cases hadd

/-! ## How words are read -/

theorem eq_help_of_addSwitches? {given : List String} {parsed : Parsed}
    (hadd : draft.addSwitches? given = some (.answer parsed)) : parsed = .help := by
  induction given generalizing draft with
  | nil => cases hadd
  | cons name rest ih =>
      unfold addSwitches? at hadd
      split at hadd
      next =>
        cases hadd
        rfl
      next =>
        split at hadd
        next => exact ih hadd
        next => cases hadd

theorem read_nil (draft : Draft) (pending : Option String) :
    draft.read pending [] = if pending = none then draft.finish? else none := rfl

theorem read_cons (draft : Draft) (pending : Option String) (word : String) (rest : List String) :
    draft.read pending (word :: rest) =
      match pending, Word.ofText word with
      | some option, .operand value =>
        (draft.addValue? option value).bind fun next => next.read none rest
      | some _, _ => none
      | none, .terminator => (draft.addOperands? rest).bind finish?
      | none, .operand operand => (draft.addOperand? operand).bind fun next => next.read none rest
      | none, .long name (some value) =>
        (draft.addValue? name value).bind fun next => next.read none rest
      | none, .long name none =>
        if draft.command.options.contains name then draft.read (some name) rest
        else
          (draft.addSwitches? [name]).bind fun
            | .draft next => next.read none rest
            | .answer parsed => some parsed
      | none, .short letters =>
        (draft.addSwitches? (letters.map switchOfLetter)).bind fun
          | .draft next => next.read none rest
          | .answer parsed => some parsed := rfl

section Words

variable {word name : String} {rest : List String} {invocation : Invocation}

theorem pending_eq_none_of_read {pending : Option String} {result : Parsed}
    (hword : ∀ text, Word.ofText word ≠ .operand text)
    (hread : draft.read pending (word :: rest) = some result) : pending = none := by
  cases pending with
  | none => rfl
  | some option =>
      rw [read_cons] at hread
      split at hread <;> simp_all

theorem read_terminator (hword : Word.ofText word = .terminator) :
    draft.read none (word :: rest) = (draft.addOperands? rest).bind finish? := by
  simp only [read_cons, hword]

theorem read_value (hword : Word.ofText word = .operand value) :
    draft.read (some option) (word :: rest) =
      (draft.addValue? option value).bind fun next => next.read none rest := by
  simp only [read_cons, hword]

theorem read_operand (hword : Word.ofText word = .operand value) :
    draft.read none (word :: rest) =
      (draft.addOperand? value).bind fun next => next.read none rest := by
  simp only [read_cons, hword]

theorem read_assignment (hword : Word.ofText word = .long name (some value)) :
    draft.read none (word :: rest) =
      (draft.addValue? name value).bind fun next => next.read none rest := by
  simp only [read_cons, hword]

theorem read_option (hword : Word.ofText word = .long name none)
    (hoption : draft.command.options.contains name) :
    draft.read none (word :: rest) = draft.read (some name) rest := by
  simp only [read_cons, hword, if_pos hoption]

theorem read_switch_iff (hword : Word.ofText word = .long name none)
    (hswitch : ¬ draft.command.options.contains name) :
    draft.read none (word :: rest) = some (.invocation invocation) ↔
      ∃ next, draft.addSwitches? [name] = some (.draft next) ∧
        next.read none rest = some (.invocation invocation) := by
  simp only [read_cons, hword, if_neg hswitch]
  cases hadd : draft.addSwitches? [name] with
  | none => simp
  | some continued =>
      cases continued with
      | draft next => simp
      | answer parsed => simp [eq_help_of_addSwitches? hadd]

theorem read_letters_iff {letters : List Char} (hword : Word.ofText word = .short letters) :
    draft.read none (word :: rest) = some (.invocation invocation) ↔
      ∃ next, draft.addSwitches? (letters.map switchOfLetter) = some (.draft next) ∧
        next.read none rest = some (.invocation invocation) := by
  simp only [read_cons, hword]
  cases hadd : draft.addSwitches? (letters.map switchOfLetter) with
  | none => simp
  | some continued =>
      cases continued with
      | draft next => simp
      | answer parsed => simp [eq_help_of_addSwitches? hadd]

end Words

/-! ## Options about derived facts -/

theorem contains_options_iff {name : String} (hmem : name ∈ derivationOptions)
    (command : Command) : command.options.contains name ↔ name ∉ Command.switches := by
  revert name
  cases command <;> decide

section Derivation

variable {names : List String} (hnames : names ⊆ derivationOptions)

include hnames

theorem notMem_of_notMem {name : String} (hother : name ∉ derivationOptions) : name ∉ names :=
  fun hmem => hother (hnames hmem)

theorem switchOfLetter_notMem (c : Char) : switchOfLetter c ∉ names := by
  apply notMem_of_notMem hnames
  have hlong : ∀ name ∈ derivationOptions, name.length ≠ 1 := by decide
  unfold switchOfLetter
  split
  · decide
  · decide
  · decide
  · exact fun hmem => hlong _ hmem (by simp [Char.toString])

theorem request?_without (draft : Draft) : (draft.without names).request? = draft.request? := by
  have htop : "top" ∉ names := notMem_of_notMem hnames (by decide)
  unfold request?
  rw [value?_without, if_neg htop]
  rfl

theorem factFiles_without (draft : Draft) :
    (draft.without names).factFiles = draft.factFiles := by
  have hfacts : "facts" ∉ names := notMem_of_notMem hnames (by decide)
  unfold factFiles Draft.without
  rw [List.filter_filter]
  congr 3
  funext ⟨name, _⟩
  by_cases hsame : name = "facts"
  · simp [hsame, hfacts]
  · simp [hsame]

theorem finish?_without {draft : Draft} {invocation : Invocation}
    (hfinish : draft.finish? = some (.invocation invocation)) :
    (draft.without names).finish? = some (.invocation (invocation.without names)) := by
  have hconfig : "config" ∉ names := notMem_of_notMem hnames (by decide)
  have hjson : "json" ∉ names := notMem_of_notMem hnames (by decide)
  have hverbose : "verbose" ∉ names := notMem_of_notMem hnames (by decide)
  have hquiet : "quiet" ∉ names := notMem_of_notMem hnames (by decide)
  obtain ⟨request, hrequest, hparts⟩ := Option.bind_eq_some_iff.mp hfinish
  rw [finish?, request?_without hnames, hrequest]
  simp only [factFiles_without hnames, value?_without, contains_switches_without, if_neg hconfig,
    if_neg hjson, isOn_without hverbose, isOn_without hquiet]
  split at hparts
  next => cases hparts
  next hfacts =>
    cases hparts
    simp only [Option.bind_eq_bind, Option.bind_some, if_neg hfacts, Invocation.without]
    congr 3
    split <;> rfl

theorem read_without {words : List String} {draft : Draft} {pending : Option String}
    {invocation : Invocation} (hpending : ∀ option, pending = some option → option ∉ names)
    (hread : draft.read pending words = some (.invocation invocation)) :
    (draft.without names).read pending (withoutOptions names words) =
      some (.invocation (invocation.without names)) := by
  have hnone : ∀ option, (none : Option String) = some option → option ∉ names := by simp
  fun_induction withoutOptions names words generalizing draft pending with
  | case1 =>
      rw [read_nil] at hread ⊢
      split at hread
      next hdone =>
        rw [if_pos hdone]
        exact finish?_without hnames hread
      next => cases hread
  | case2 word rest hword =>
      obtain rfl := pending_eq_none_of_read (by simp [hword]) hread
      rw [read_terminator hword] at hread ⊢
      obtain ⟨next, hadd, hfinish⟩ := Option.bind_eq_some_iff.mp hread
      rw [addOperands?_without hadd, Option.bind_some]
      exact finish?_without hnames hfinish
  | case3 word rest name value hword hmem ih =>
      obtain rfl := pending_eq_none_of_read (by simp [hword]) hread
      rw [read_assignment hword] at hread
      obtain ⟨next, hadd, hrest⟩ := Option.bind_eq_some_iff.mp hread
      rw [← without_addValue? hmem hadd]
      exact ih hnone hrest
  | case4 word rest name value hword hother ih =>
      obtain rfl := pending_eq_none_of_read (by simp [hword]) hread
      rw [read_assignment hword] at hread ⊢
      obtain ⟨next, hadd, hrest⟩ := Option.bind_eq_some_iff.mp hread
      rw [addValue?_without hother hadd, Option.bind_some]
      exact ih hnone hrest
  | case5 word rest name hword hmem hswitch ih =>
      obtain rfl := pending_eq_none_of_read (by simp [hword]) hread
      have hplain : ¬ draft.command.options.contains name := fun hoption =>
        (contains_options_iff (hnames hmem) draft.command).mp hoption hswitch
      obtain ⟨next, hadd, hrest⟩ := (read_switch_iff hword hplain).mp hread
      rw [← without_addSwitches? hmem hadd]
      exact ih hnone hrest
  | case6 word name hword hmem hswitch =>
      obtain rfl := pending_eq_none_of_read (by simp [hword]) hread
      have hoption := (contains_options_iff (hnames hmem) draft.command).mpr hswitch
      rw [read_option hword hoption] at hread
      cases hread
  | case7 word name hword hmem hswitch value rest ih =>
      obtain rfl := pending_eq_none_of_read (by simp [hword]) hread
      have hoption := (contains_options_iff (hnames hmem) draft.command).mpr hswitch
      rw [read_option hword hoption] at hread
      by_cases hvalue : ∃ text, Word.ofText value = .operand text
      · obtain ⟨text, hvalue⟩ := hvalue
        rw [read_value hvalue] at hread
        obtain ⟨next, hadd, hrest⟩ := Option.bind_eq_some_iff.mp hread
        rw [← without_addValue? hmem hadd]
        exact ih hnone hrest
      · push Not at hvalue
        cases pending_eq_none_of_read hvalue hread
  | case8 word rest name hword hother ih =>
      obtain rfl := pending_eq_none_of_read (by simp [hword]) hread
      by_cases hoption : draft.command.options.contains name
      · have hoption' : (draft.without names).command.options.contains name := hoption
        rw [read_option hword hoption] at hread
        rw [read_option hword hoption']
        apply ih _ hread
        intro option hsame
        exact Option.some.inj hsame ▸ hother
      · have hoption' : ¬ (draft.without names).command.options.contains name := hoption
        obtain ⟨next, hadd, hrest⟩ := (read_switch_iff hword hoption).mp hread
        have hgiven : ∀ other ∈ [name], other ∉ names := by simpa using hother
        refine (read_switch_iff hword hoption').mpr ⟨_, addSwitches?_without hgiven hadd, ?_⟩
        exact ih hnone hrest
  | case9 word rest letters hword ih =>
      obtain rfl := pending_eq_none_of_read (by simp [hword]) hread
      obtain ⟨next, hadd, hrest⟩ := (read_letters_iff hword).mp hread
      have hgiven : ∀ name ∈ letters.map switchOfLetter, name ∉ names := by
        intro name hmem
        obtain ⟨c, -, rfl⟩ := List.mem_map.mp hmem
        exact switchOfLetter_notMem hnames c
      exact (read_letters_iff hword).mpr ⟨_, addSwitches?_without hgiven hadd, ih hnone hrest⟩
  | case10 word rest text hword ih =>
      cases pending with
      | none =>
          rw [read_operand hword] at hread ⊢
          obtain ⟨next, hadd, hrest⟩ := Option.bind_eq_some_iff.mp hread
          rw [addOperand?_without hadd, Option.bind_some]
          exact ih hnone hrest
      | some option =>
          rw [read_value hword] at hread ⊢
          obtain ⟨next, hadd, hrest⟩ := Option.bind_eq_some_iff.mp hread
          rw [addValue?_without (hpending option rfl) hadd, Option.bind_some]
          exact ih hnone hrest

end Derivation

end Draft

/-! ## Whole command lines -/

theorem ne_invocation_of_openingSwitches? {given names : List String} {parsed : Parsed}
    (hopening : openingSwitches? given names = some (.answer parsed)) (invocation : Invocation) :
    parsed ≠ .invocation invocation := by
  induction names generalizing given with
  | nil => cases hopening
  | cons name rest ih =>
      unfold openingSwitches? at hopening
      split at hopening
      next => cases hopening; simp
      next =>
        split at hopening
        next => cases hopening; simp
        next =>
          split at hopening
          next => exact ih hopening
          next => cases hopening

theorem eq_verbose_or_quiet_of_openingSwitches? {given next : List String} {name : String}
    (hopening : openingSwitches? given [name] = some (.switches next)) :
    name = "verbose" ∨ name = "quiet" := by
  unfold openingSwitches? at hopening
  split at hopening
  next => cases hopening
  next =>
    split at hopening
    next => cases hopening
    next =>
      split at hopening
      next hallowed => exact hallowed.1
      next => cases hopening

section Opening

variable {word name : String} {rest given : List String} {invocation : Invocation}

theorem readFrom_switch_iff (hword : Word.ofText word = .long name none) :
    readFrom given (word :: rest) = some (.invocation invocation) ↔
      ∃ next, openingSwitches? given [name] = some (.switches next) ∧
        readFrom next rest = some (.invocation invocation) := by
  simp only [readFrom, hword]
  cases hopening : openingSwitches? given [name] with
  | none => simp
  | some opening =>
      cases opening with
      | switches next => simp
      | answer parsed => simp [ne_invocation_of_openingSwitches? hopening]

theorem readFrom_letters_iff {letters : List Char} (hword : Word.ofText word = .short letters) :
    readFrom given (word :: rest) = some (.invocation invocation) ↔
      ∃ next, openingSwitches? given (letters.map switchOfLetter) = some (.switches next) ∧
        readFrom next rest = some (.invocation invocation) := by
  simp only [readFrom, hword]
  cases hopening : openingSwitches? given (letters.map switchOfLetter) with
  | none => simp
  | some opening =>
      cases opening with
      | switches next => simp
      | answer parsed => simp [ne_invocation_of_openingSwitches? hopening]

theorem readFrom_command_iff (hword : Word.ofText word = .operand name) :
    readFrom given (word :: rest) = some (.invocation invocation) ↔
      name ≠ "help" ∧ ∃ command, Command.ofName? name = some command ∧
        (Draft.start given command).read none rest = some (.invocation invocation) := by
  simp only [readFrom, hword]
  by_cases hhelp : name = "help"
  · rw [if_pos hhelp]
    unfold helpCommand?
    split
    · simp [hhelp]
    · split <;> simp [hhelp]
    · simp [hhelp]
  · rw [if_neg hhelp, Option.bind_eq_some_iff]
    simp [hhelp]

end Opening

theorem readFrom_without {names words given : List String} (hnames : names ⊆ derivationOptions)
    {invocation : Invocation} (hread : readFrom given words = some (.invocation invocation)) :
    readFrom given (withoutOptions names words) =
      some (.invocation (invocation.without names)) := by
  induction words generalizing given with
  | nil => cases hread
  | cons word rest ih =>
      unfold withoutOptions
      cases hword : Word.ofText word with
      | terminator => simp [readFrom, hword] at hread
      | operand name =>
          obtain ⟨hhelp, command, hcommand, hrest⟩ := (readFrom_command_iff hword).mp hread
          exact (readFrom_command_iff hword).mpr
            ⟨hhelp, command, hcommand, Draft.read_without hnames (by simp) hrest⟩
      | short letters =>
          obtain ⟨next, hopening, hrest⟩ := (readFrom_letters_iff hword).mp hread
          exact (readFrom_letters_iff hword).mpr ⟨next, hopening, ih hrest⟩
      | long name value =>
          cases value with
          | some value => simp [readFrom, hword] at hread
          | none =>
              obtain ⟨next, hopening, hrest⟩ := (readFrom_switch_iff hword).mp hread
              have hother : name ∉ names := by
                apply Draft.notMem_of_notMem hnames
                rcases eq_verbose_or_quiet_of_openingSwitches? hopening with rfl | rfl
                · decide
                · decide
              simp only [if_neg hother]
              exact (readFrom_switch_iff hword).mpr ⟨next, hopening, ih hrest⟩

theorem parse_withoutOptions {names words : List String} (hnames : names ⊆ derivationOptions)
    {invocation : Invocation} (hparse : parse words = some (.invocation invocation)) :
    parse (withoutOptions names words) = some (.invocation (invocation.without names)) :=
  readFrom_without hnames hparse

end Treatise.CommandLine
