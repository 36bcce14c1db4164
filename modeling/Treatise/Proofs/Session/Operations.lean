import Mathlib.Data.List.Induction
import Treatise.Session

/-!
# Operations on a session

Four operations give a session other derived facts.  Three of them take the
answer of an oracle, and they differ in what a refused answer leaves behind:
no derived facts at all, or the facts that were there before.  The fourth
takes a store as it is.

The law of a step is a relation, `Effect`, that names the reason for each
outcome.  A session that has only been given answers holds derived facts of
the derived family only, because a refused answer never enters it.
-/

namespace Treatise

/-! ## Acceptable answers -/

/-- The answer consists of these statements, and all of them are derived. -/
structure Grants (answer : OracleAnswer) (statements : List Statement) : Prop where
  answer_eq : answer = .ok statements
  derived : ∀ statement ∈ statements, statement.predicate ∈ Predicate.derived

/-- Why an answer is not acceptable: the oracle has failed, or this is the
first statement of the answer that is not derived. -/
inductive Refused : OracleAnswer → OracleError → Prop
  | failed (error : OracleError) : Refused (.error error) error
  | foreign {before after : List Statement} {statement : Statement}
      (hbefore : ∀ earlier ∈ before, earlier.predicate ∈ Predicate.derived)
      (hforeign : statement.predicate ∈ Predicate.asserted) :
      Refused (.ok (before ++ statement :: after)) (.foreignPredicate statement)

theorem ensureDerived_eq_error_iff {statements : List Statement} {error : OracleError} :
    ensureDerived statements = .error error ↔ Refused (.ok statements) error := by
  unfold ensureDerived
  split
  next statement hfound =>
    have hsplit := List.find?_eq_some_iff_append.mp hfound
    rcases hsplit with ⟨hforeign, before, after, rfl, hbefore⟩
    have hasserted : statement.predicate ∈ Predicate.asserted := by
      rw [Predicate.mem_asserted_iff]
      simpa [Statement.isDerived] using hforeign
    have hderived : ∀ earlier ∈ before, earlier.predicate ∈ Predicate.derived := by
      intro earlier hmem
      rw [Predicate.mem_derived_iff]
      simpa [Statement.isDerived] using hbefore earlier hmem
    constructor
    · intro herror
      rw [← Except.error.inj herror]
      exact .foreign hderived hasserted
    · intro hrefused
      generalize hwhole : before ++ statement :: after = whole at hrefused
      cases hrefused with
      | @foreign others later other hothers hother =>
          -- The search stops at the first statement that is not derived, so both are that one.
          have hfirst : (others ++ other :: later).find? (fun entry => !entry.isDerived) =
              some other := by
            rw [List.find?_eq_some_iff_append]
            refine ⟨?_, others, later, rfl, ?_⟩
            · simpa [Statement.isDerived, Predicate.mem_asserted_iff] using hother
            · intro entry hmem
              simpa [Statement.isDerived, Predicate.mem_derived_iff] using hothers entry hmem
          rw [← hwhole, hfound] at hfirst
          rw [Option.some.inj hfirst]
  next hnone =>
    simp only [reduceCtorEq, false_iff]
    intro hrefused
    cases hrefused with
    | @foreign before after statement _ hforeign =>
        have hderived := List.find?_eq_none.mp hnone statement (by simp)
        rw [Predicate.mem_asserted_iff] at hforeign
        simp [Statement.isDerived, hforeign] at hderived

theorem bind_ensureDerived_eq_ok_iff {answer : OracleAnswer} {statements : List Statement} :
    answer >>= ensureDerived = .ok statements ↔ Grants answer statements := by
  cases answer with
  | error error =>
      constructor
      · intro hok
        cases hok
      · intro hgrants
        cases hgrants.answer_eq
  | ok given =>
      change ensureDerived given = .ok statements ↔ _
      rw [ensureDerived_eq_ok_iff]
      constructor
      · rintro ⟨rfl, hderived⟩
        refine ⟨rfl, ?_⟩
        intro statement hmem
        exact (Predicate.mem_derived_iff _).mpr (hderived statement hmem)
      · rintro ⟨hsame, hderived⟩
        cases hsame
        refine ⟨rfl, ?_⟩
        intro statement hmem
        exact (Predicate.mem_derived_iff _).mp (hderived statement hmem)

theorem bind_ensureDerived_eq_error_iff {answer : OracleAnswer} {error : OracleError} :
    answer >>= ensureDerived = .error error ↔ Refused answer error := by
  cases answer with
  | error reason =>
      constructor
      · intro herror
        cases herror
        exact .failed error
      · intro hrefused
        cases hrefused
        rfl
  | ok statements => exact ensureDerived_eq_error_iff

theorem Refused.not_grants {answer : OracleAnswer} {error : OracleError}
    {statements : List Statement} (hrefused : Refused answer error) :
    ¬ Grants answer statements := by
  intro hgrants
  have hok := bind_ensureDerived_eq_ok_iff.mpr hgrants
  rw [bind_ensureDerived_eq_error_iff.mpr hrefused] at hok
  cases hok

/-! ## Steps -/

/-- What may be asked of a session that gives it other derived facts. -/
inductive Operation where
  | reason (oracle : Oracle) (rules : List Rule)
  | tryReason (oracle : Oracle) (rules : List Rule)
  | accept (oracle : String) (answer : OracleAnswer)
  | replaceDerived (derived : Store)

/-- How many facts were derived, or why the session did not take an answer. -/
inductive Reply where
  | count (count : Nat)
  | failed (error : OracleError)
  | replaced

structure Performed where
  session : Session
  reply : Reply

def Session.perform (session : Session) : Operation → Performed
  | .reason oracle rules =>
    let accepted := session.reason oracle rules
    ⟨accepted.session, .count accepted.count⟩
  | .tryReason oracle rules =>
    match session.tryReason oracle rules with
    | .ok (next, count) => ⟨next, .count count⟩
    | .error error => ⟨session, .failed error⟩
  | .accept oracle answer =>
    let accepted := session.accept oracle answer
    ⟨accepted.session, .count accepted.count⟩
  | .replaceDerived derived => ⟨session.replaceDerived derived, .replaced⟩

/-- An answer is installed as it is, or nothing is left. -/
inductive Installs (answer : OracleAnswer) (after : Store) : Reply → Prop
  | granted {statements : List Statement} (hgrants : Grants answer statements)
      (hafter : after.toList = statements) : Installs answer after (.count statements.length)
  | refused {error : OracleError} (hrefused : Refused answer error)
      (hafter : after.toList = []) : Installs answer after (.count 0)

/-- An answer is installed as it is, or what was there stays. -/
inductive Tries (before : Store) (answer : OracleAnswer) : Store → Reply → Prop
  | granted {statements : List Statement} {after : Store} (hgrants : Grants answer statements)
      (hafter : after.toList = statements) : Tries before answer after (.count statements.length)
  | refused {error : OracleError} (hrefused : Refused answer error) :
      Tries before answer before (.failed error)

/-- What an operation makes of the derived facts, and what it replies. -/
inductive Effect (asserted before : Store) : Operation → Store → Reply → Prop
  | reason {oracle : Oracle} {rules : List Rule} {after : Store} {reply : Reply}
      (hinstalls : Installs (oracle.infer asserted rules) after reply) :
      Effect asserted before (.reason oracle rules) after reply
  | tryReason {oracle : Oracle} {rules : List Rule} {after : Store} {reply : Reply}
      (htries : Tries before (oracle.infer asserted rules) after reply) :
      Effect asserted before (.tryReason oracle rules) after reply
  | accept {oracle : String} {answer : OracleAnswer} {after : Store} {reply : Reply}
      (hinstalls : Installs answer after reply) :
      Effect asserted before (.accept oracle answer) after reply
  | replaceDerived (derived : Store) :
      Effect asserted before (.replaceDerived derived) derived .replaced

/-- The facts and tables that a session was started with. -/
structure Session.StandsOn (session : Session) (catalog : Catalog) (asserted : Store)
    (config : WeightConfig Float) : Prop where
  catalog_eq : session.catalog = catalog
  asserted_eq : session.asserted = asserted
  config_eq : session.config = config

/-- A lawful step has its effect on the derived facts and changes nothing else. -/
structure Performed.Lawful (performed : Performed) (session : Session) (operation : Operation) :
    Prop where
  base : performed.session.StandsOn session.catalog session.asserted session.config
  effect : Effect session.asserted session.derived operation performed.session.derived
    performed.reply

namespace Session

theorem standsOn_replaceDerived (session : Session) (derived : Store) :
    (session.replaceDerived derived).StandsOn session.catalog session.asserted
      session.config :=
  ⟨rfl, rfl, rfl⟩

theorem accept_installs (session : Session) (oracle : String) (answer : OracleAnswer) :
    ∃ derived, (session.accept oracle answer).session = session.replaceDerived derived ∧
      Installs answer derived (.count (session.accept oracle answer).count) := by
  unfold accept
  cases hanswer : answer >>= ensureDerived with
  | ok statements =>
      have hgrants := bind_ensureDerived_eq_ok_iff.mp hanswer
      exact ⟨_, rfl, .granted hgrants (Store.toList_ofList statements)⟩
  | error error =>
      have hrefused := bind_ensureDerived_eq_error_iff.mp hanswer
      exact ⟨_, rfl, .refused hrefused Store.toList_empty⟩

theorem perform_lawful (session : Session) (operation : Operation) :
    (session.perform operation).Lawful session operation := by
  cases operation with
  | reason oracle rules =>
      have haccept := session.accept_installs oracle.name (oracle.infer session.asserted rules)
      rcases haccept with ⟨derived, hsession, hinstalls⟩
      unfold perform reason
      simp only [hsession]
      exact ⟨session.standsOn_replaceDerived derived, .reason hinstalls⟩
  | tryReason oracle rules =>
      unfold perform
      cases hanswer : oracle.infer session.asserted rules >>= ensureDerived with
      | ok statements =>
          have hgrants := bind_ensureDerived_eq_ok_iff.mp hanswer
          simp only [tryReason, hanswer]
          exact ⟨session.standsOn_replaceDerived _,
            .tryReason (.granted hgrants (Store.toList_ofList statements))⟩
      | error error =>
          have hrefused := bind_ensureDerived_eq_error_iff.mp hanswer
          simp only [tryReason, hanswer]
          exact ⟨⟨rfl, rfl, rfl⟩, .tryReason (.refused hrefused)⟩
  | accept oracle answer =>
      rcases session.accept_installs oracle answer with ⟨derived, hsession, hinstalls⟩
      unfold perform
      simp only [hsession]
      exact ⟨session.standsOn_replaceDerived derived, .accept hinstalls⟩
  | replaceDerived derived =>
      exact ⟨session.standsOn_replaceDerived derived, .replaceDerived derived⟩

/-! ## Runs -/

def after (session : Session) (operations : List Operation) : Session :=
  operations.foldl (fun session operation => (session.perform operation).session) session

theorem after_append_singleton (session : Session) (operations : List Operation)
    (operation : Operation) :
    session.after (operations ++ [operation]) =
      ((session.after operations).perform operation).session := by
  rw [after, List.foldl_append]
  rfl

theorem standsOn_after (session : Session) (operations : List Operation) :
    (session.after operations).StandsOn session.catalog session.asserted session.config := by
  induction operations using List.reverseRecOn with
  | nil => exact ⟨rfl, rfl, rfl⟩
  | append_singleton operations operation ih =>
      have hbase := ((session.after operations).perform_lawful operation).base
      rw [after_append_singleton]
      constructor
      · exact hbase.catalog_eq.trans ih.catalog_eq
      · exact hbase.asserted_eq.trans ih.asserted_eq
      · exact hbase.config_eq.trans ih.config_eq

end Session

def Store.HoldsDerived (store : Store) : Prop :=
  ∀ statement ∈ store.toList, statement.predicate ∈ Predicate.derived

theorem Installs.holdsDerived {answer : OracleAnswer} {after : Store} {reply : Reply}
    (hinstalls : Installs answer after reply) : after.HoldsDerived := by
  cases hinstalls with
  | granted hgrants hafter =>
      unfold Store.HoldsDerived
      rw [hafter]
      exact hgrants.derived
  | refused _ hafter =>
      unfold Store.HoldsDerived
      simp [hafter]

theorem Installs.toList_eq_nil {answer : OracleAnswer} {error : OracleError} {after : Store}
    {reply : Reply} (hinstalls : Installs answer after reply)
    (hrefused : Refused answer error) : after.toList = [] := by
  cases hinstalls with
  | granted hgrants => exact absurd hgrants hrefused.not_grants
  | refused _ hafter => exact hafter

/-- Whatever an oracle answers, it brings no other predicates into a session. -/
theorem Effect.holdsDerived {asserted before after : Store} {operation : Operation}
    {reply : Reply} (heffect : Effect asserted before operation after reply)
    (hanswer : ∀ derived, operation ≠ .replaceDerived derived) (hbefore : before.HoldsDerived) :
    after.HoldsDerived := by
  cases heffect with
  | reason hinstalls => exact hinstalls.holdsDerived
  | tryReason htries =>
      cases htries with
      | granted hgrants hafter =>
          unfold Store.HoldsDerived
          rw [hafter]
          exact hgrants.derived
      | refused => exact hbefore
  | accept hinstalls => exact hinstalls.holdsDerived
  | replaceDerived => exact absurd rfl (hanswer _)

theorem Session.holdsDerived_after {session : Session} (hstart : session.derived.HoldsDerived)
    {operations : List Operation}
    (hanswers : ∀ derived, Operation.replaceDerived derived ∉ operations) :
    (session.after operations).derived.HoldsDerived := by
  -- The last operation is taken off, since only what came before it decides its effect.
  induction operations using List.reverseRecOn with
  | nil => exact hstart
  | append_singleton operations operation ih =>
      have hbefore : (session.after operations).derived.HoldsDerived := by
        apply ih
        intro derived hmem
        exact hanswers derived (List.mem_append_left _ hmem)
      have hanswer : ∀ derived, operation ≠ .replaceDerived derived := by
        intro derived hsame
        apply hanswers derived
        simp [hsame]
      have heffect := ((session.after operations).perform_lawful operation).effect
      rw [after_append_singleton]
      exact heffect.holdsDerived hanswer hbefore

/-- Every step of every run has its effect, the base of the session never
changes, and without a replacement the derived facts stay in their family. -/
theorem derived_follows_operations (catalog : Catalog) (asserted : Store)
    (config : WeightConfig Float) (operations : List Operation) :
    let start : Session := ⟨catalog, asserted, .empty, config⟩
    let reached := start.after operations
    reached.StandsOn catalog asserted config ∧
      (∀ operation, Effect asserted reached.derived operation
        (start.after (operations ++ [operation])).derived (reached.perform operation).reply) ∧
      ((∀ derived, Operation.replaceDerived derived ∉ operations) →
        reached.derived.HoldsDerived) := by
  intro start reached
  have hbase : reached.StandsOn catalog asserted config := start.standsOn_after operations
  have hempty : start.derived.HoldsDerived := by
    intro statement hmem
    simp [start] at hmem
  refine ⟨hbase, ?_, ?_⟩
  · intro operation
    have heffect := (reached.perform_lawful operation).effect
    rw [hbase.asserted_eq] at heffect
    rw [Session.after_append_singleton]
    exact heffect
  · intro hanswers
    exact Session.holdsDerived_after hempty hanswers

/-- An answer that is taken, and one that is tried and has an asserted fact at its end. -/
def takenThenTried : List Operation :=
  [.accept "first" (.ok [⟨⟨"A"⟩, .dependsOn, ⟨"B"⟩⟩]),
    .tryReason (.constant (.ok [⟨⟨"B"⟩, .explains, ⟨"A"⟩⟩, ⟨⟨"A"⟩, .cites, ⟨"B"⟩⟩])) Rule.all]

/-- The refused answer leaves the one before it, and an answer that is taken
after it but fails leaves nothing. -/
theorem derived_takenThenTried :
    let start : Session := ⟨Catalog.ofStore .empty, .empty, .empty, .standard⟩
    (∀ derived, Operation.replaceDerived derived ∉ takenThenTried) ∧
      (start.after takenThenTried).derived.HoldsDerived ∧
      (start.after takenThenTried).derived.toList = [⟨⟨"A"⟩, .dependsOn, ⟨"B"⟩⟩] ∧
      (start.after (takenThenTried ++
        [.reason (.constant (.error (.timedOut 0))) Rule.all])).derived.toList = [] := by
  intro start
  have hrun := derived_follows_operations (Catalog.ofStore .empty) .empty .standard takenThenTried
  rcases hrun with ⟨-, heffect, hfamily⟩
  have hanswers : ∀ derived, Operation.replaceDerived derived ∉ takenThenTried := by
    simp [takenThenTried]
  have hkept : (start.after takenThenTried).derived.toList = [⟨⟨"A"⟩, .dependsOn, ⟨"B"⟩⟩] := rfl
  refine ⟨hanswers, hfamily hanswers, hkept, ?_⟩
  have hfailed := heffect (.reason (.constant (.error (.timedOut 0))) Rule.all)
  cases hfailed with
  | reason hinstalls => exact hinstalls.toList_eq_nil (.failed _)

end Treatise
