import Treatise.CommandLine.Reasoner
import Treatise.Proofs.Session.Operations

/-!
# Reasoners that fail

An answer is refused when the reasoner has failed in one of the ways of
`Fails`, and then only.  A session that is refused an answer has no derived
facts, whatever else the answer holds.
-/

namespace Treatise

theorem Session.accept_of_grants {session : Session} {oracle : String} {answer : OracleAnswer}
    {statements : List Statement} (hgrants : Grants answer statements) :
    session.accept oracle answer =
      ⟨session.replaceDerived (Store.ofList statements), statements.length, none⟩ := by
  unfold accept
  rw [bind_ensureDerived_eq_ok_iff.mpr hgrants]

theorem Session.accept_of_refused {session : Session} {oracle : String} {answer : OracleAnswer}
    {error : OracleError} (hrefused : Refused answer error) :
    session.accept oracle answer =
      ⟨session.replaceDerived .empty, 0, some ⟨oracle, error⟩⟩ := by
  unfold accept
  rw [bind_ensureDerived_eq_error_iff.mpr hrefused]

theorem Refused.error_eq {answer : OracleAnswer} {error other : OracleError}
    (hrefused : Refused answer error) (hother : Refused answer other) : error = other := by
  have hbind := bind_ensureDerived_eq_error_iff.mpr hrefused
  rw [bind_ensureDerived_eq_error_iff.mpr hother] at hbind
  exact (Except.error.inj hbind).symm

theorem exists_refused_ok_iff {statements : List Statement} :
    (∃ error, Refused (.ok statements) error) ↔
      ∃ statement ∈ statements, statement.predicate ∈ Predicate.asserted := by
  constructor
  · rintro ⟨error, hrefused⟩
    generalize hanswer : (.ok statements : OracleAnswer) = answer at hrefused
    cases hrefused with
    | failed error => cases hanswer
    | @foreign before after statement hbefore hforeign =>
        rw [Except.ok.inj hanswer]
        exact ⟨statement, by simp, hforeign⟩
  · rintro ⟨statement, hmem, hasserted⟩
    cases hanswer : ensureDerived statements with
    | error error => exact ⟨error, ensureDerived_eq_error_iff.mp hanswer⟩
    | ok granted =>
        have hderived := (ensureDerived_eq_ok_iff.mp hanswer).2 statement hmem
        rw [Predicate.mem_asserted_iff] at hasserted
        simp [Statement.isDerived, hasserted] at hderived

namespace CommandLine

open N3

/-! ## What a reasoner has written -/

theorem fromUTF8?_eq_some_iff {bytes : ByteArray} {text : String} :
    String.fromUTF8? bytes = some text ↔ bytes = text.toUTF8 := by
  constructor
  · intro hread
    unfold String.fromUTF8? at hread
    split at hread
    next hvalid =>
      cases hread
      rfl
    next => cases hread
  · rintro rfl
    simp only [String.fromUTF8?, String.toUTF8_eq_toByteArray, dif_pos text.isValidUTF8]
    rfl

theorem readAnswer_of_ofText {text : String} {document : Document}
    (hread : Document.ofText defaultLabel text = .ok document) :
    readAnswer text.toUTF8 = .ok document.statements := by
  simp only [readAnswer, fromUTF8?_eq_some_iff.mpr rfl, hread]

/-- The ways in which a reasoner can fail. -/
inductive Fails : Launch → Prop
  | notStarted (reason : String) : Fails (.notStarted reason)
  | noInput : Fails .noInput
  | overdue : Fails .overdue
  | lost (reason : String) : Fails (.lost reason)
  | aborted (reason : String) : Fails (.aborted reason)
  | status {status : ExitStatus} {output : ByteArray} {errors : String} {unread : Option String}
      (hstatus : status ≠ .code 0) : Fails (.exited status output errors unread)
  | noText {output : ByteArray} {errors : String} {unread : Option String}
      (hbytes : ∀ text : String, output ≠ text.toUTF8) :
      Fails (.exited (.code 0) output errors unread)
  | noDocument {text : String} {error : N3.Error} {errors : String} {unread : Option String}
      (hread : Document.ofText defaultLabel text = .error error) :
      Fails (.exited (.code 0) text.toUTF8 errors unread)
  | foreign {text : String} {document : Document} {statement : Statement} {errors : String}
      {unread : Option String} (hread : Document.ofText defaultLabel text = .ok document)
      (hmem : statement ∈ document.statements)
      (hasserted : statement.predicate ∈ Predicate.asserted) :
      Fails (.exited (.code 0) text.toUTF8 errors unread)

theorem answerOf_exited (program : String) (deadline : Nat) (output : ByteArray)
    (errors : String) (unread : Option String) :
    answerOf program deadline (.exited (.code 0) output errors unread) = readAnswer output := by
  rw [answerOf, if_pos rfl]

theorem Fails.exists_refused {launch : Launch} (hfails : Fails launch) (program : String)
    (deadline : Nat) : ∃ error, Refused (answerOf program deadline launch) error := by
  cases hfails with
  | notStarted reason => exact ⟨_, .failed _⟩
  | noInput => exact ⟨_, .failed _⟩
  | overdue => exact ⟨_, .failed _⟩
  | lost reason => exact ⟨_, .failed _⟩
  | aborted reason => exact ⟨_, .failed _⟩
  | status hstatus =>
      rw [answerOf, if_neg hstatus]
      exact ⟨_, .failed _⟩
  | @noText output _ _ hbytes =>
      have hnone : String.fromUTF8? output = none := by
        rw [Option.eq_none_iff_forall_ne_some]
        intro text hread
        exact hbytes text (fromUTF8?_eq_some_iff.mp hread)
      rw [answerOf_exited]
      simp only [readAnswer, hnone]
      exact ⟨_, .failed _⟩
  | noDocument hread =>
      rw [answerOf_exited]
      simp only [readAnswer, fromUTF8?_eq_some_iff.mpr rfl, hread]
      exact ⟨_, .failed _⟩
  | foreign hread hmem hasserted =>
      rw [answerOf_exited, readAnswer_of_ofText hread]
      exact exists_refused_ok_iff.mpr ⟨_, hmem, hasserted⟩

theorem fails_of_refused {program : String} {deadline : Nat} {launch : Launch}
    {error : OracleError} (hrefused : Refused (answerOf program deadline launch) error) :
    Fails launch := by
  cases launch with
  | notStarted reason => exact .notStarted reason
  | noInput => exact .noInput
  | overdue => exact .overdue
  | lost reason => exact .lost reason
  | aborted reason => exact .aborted reason
  | exited status output errors unread =>
      by_cases hstatus : status = .code 0
      · subst hstatus
        rw [answerOf_exited] at hrefused
        cases htext : String.fromUTF8? output with
        | none =>
            apply Fails.noText
            intro text hsame
            rw [fromUTF8?_eq_some_iff.mpr hsame] at htext
            cases htext
        | some text =>
            obtain rfl : output = text.toUTF8 := fromUTF8?_eq_some_iff.mp htext
            cases hread : Document.ofText defaultLabel text with
            | error error => exact .noDocument hread
            | ok document =>
                rw [readAnswer_of_ofText hread] at hrefused
                obtain ⟨statement, hmem, hasserted⟩ := exists_refused_ok_iff.mp ⟨_, hrefused⟩
                exact .foreign hread hmem hasserted
      · exact .status hstatus

/-- A reasoner's answer is refused when the reasoner has failed, and then only. -/
theorem exists_refused_iff_fails {program : String} {deadline : Nat} {launch : Launch} :
    (∃ error, Refused (answerOf program deadline launch) error) ↔ Fails launch :=
  ⟨fun ⟨_, hrefused⟩ => fails_of_refused hrefused,
    fun hfails => hfails.exists_refused program deadline⟩

end CommandLine

end Treatise
