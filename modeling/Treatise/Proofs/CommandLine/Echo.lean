import Treatise.CommandLine.Programs
import Treatise.Proofs.CommandLine.Reasoner
import Treatise.Proofs.N3.Concatenation
import Treatise.Proofs.N3.DerivedFacts
import Treatise.Proofs.N3.RuleBlocks

/-!
# What a reasoner is given to read

A reasoner reads the facts and after them the rules.  As a document that text
has exactly the facts as statements, and the rules are only counted.  So a
reasoner that writes what it reads answers with the facts, which a session
takes as derived facts if they are, and otherwise not at all.
-/

namespace Treatise.CommandLine

open N3 Store

theorem ofText_reasonerInput {statements : List Statement}
    (hids : ∀ id ∈ mentionedIn statements, IsWritable id.text) (rules : List Rule) :
    Document.ofText defaultLabel (reasonerInput statements rules) =
      .ok ⟨[(defaultLabel, defaultNamespace)], statements, (rules.map blocksOf).sum, 0⟩ := by
  have hfacts := ofText_derived hids
  have hrules := ofText_ruleText isLabel_defaultLabel rules
  have hdocument : (⟨[(defaultLabel, defaultNamespace)], statements, 0, 0⟩ ++
      ⟨[], [], (rules.map blocksOf).sum, 0⟩ : Document) =
        ⟨[(defaultLabel, defaultNamespace)], statements, (rules.map blocksOf).sum, 0⟩ := by
    change Document.append _ _ = _
    simp [Document.append]
  have hwhole := ofText_append_newline hfacts hrules
  rw [hdocument] at hwhole
  exact hwhole

/-- A reasoner that writes what it reads. -/
def Echoes (host : Host) (command : ReasonerCommand) (deadline : Nat) : Prop :=
  ∀ input, ∃ errors unread,
    host.launch ⟨command.program, command.arguments, input, deadline⟩ =
      .exited (.code 0) input.toUTF8 errors unread

theorem Echoes.infer_eq {host : Host} {command : ReasonerCommand} {deadline : Nat}
    (hechoes : Echoes host command deadline) {facts : Store}
    (hids : ∀ id ∈ mentionedIn facts.toList, IsWritable id.text) (rules : List Rule) :
    (host.oracle command deadline).infer facts rules = .ok facts.toList := by
  obtain ⟨errors, unread, hlaunch⟩ := hechoes (reasonerInput facts.toList rules)
  change answerOf command.program deadline (host.launch _) = _
  rw [ReasonerCommand.callOn, hlaunch, answerOf_exited]
  exact readAnswer_of_ofText (ofText_reasonerInput hids rules)

/-- A session is given its own facts as derived ones.  They are taken when all
of them are derived, and else the session has no derived facts. -/
structure TakesFacts (session : Session) (oracle : String) (accepted : Accepted) : Prop where
  derived : (∀ statement ∈ session.asserted.toList, statement.predicate ∈ Predicate.derived) →
    accepted = ⟨session.replaceDerived (Store.ofList session.asserted.toList),
      session.asserted.toList.length, none⟩
  asserted : (∃ statement ∈ session.asserted.toList,
      statement.predicate ∈ Predicate.asserted) →
    ∃ error, Refused (.ok session.asserted.toList) error ∧
      accepted = ⟨session.replaceDerived .empty, 0, some ⟨oracle, error⟩⟩

/-- The facts come back from the text that a reasoner reads, whatever rules
follow them, and a reasoner that repeats the text gives back the facts. -/
theorem reasonerInput_gives_back (facts : Store)
    (hids : ∀ id ∈ mentionedIn facts.toList, IsWritable id.text) :
    (∀ rules, Document.ofText defaultLabel (reasonerInput facts.toList rules) =
      .ok ⟨[(defaultLabel, defaultNamespace)], facts.toList, (rules.map blocksOf).sum, 0⟩) ∧
    ∀ (host : Host) (command : ReasonerCommand) (deadline : Nat), Echoes host command deadline →
      ∀ session : Session, session.asserted = facts → ∀ rules,
        TakesFacts session command.program
          (session.reason (host.oracle command deadline) rules) := by
  refine ⟨ofText_reasonerInput hids, ?_⟩
  rintro host command deadline hechoes session rfl rules
  have hanswer := hechoes.infer_eq hids rules
  unfold Session.reason
  rw [hanswer]
  constructor
  · intro hderived
    exact Session.accept_of_grants ⟨rfl, hderived⟩
  · intro hasserted
    obtain ⟨error, hrefused⟩ := exists_refused_ok_iff.mpr hasserted
    exact ⟨error, hrefused, Session.accept_of_refused hrefused⟩

/-! ## A program that copies -/

theorem echoes_cat (directory : Directory) {deadline : Nat} (hdeadline : 0 < deadline) :
    Echoes (Host.ofDirectory directory) ⟨"cat", []⟩ deadline := by
  intro input
  have hname : Programs.nameOf "cat" = "cat" := by decide +kernel
  have hrun : Programs.run? directory.read ⟨"cat", [], input, deadline⟩ =
      some (Programs.copy directory.read "cat" input ["-"]) := by
    simp only [Programs.run?, hname]
    rfl
  have hcopy : Programs.copy directory.read "cat" input ["-"] =
      Programs.succeed input.toUTF8 := by
    simp [Programs.copy, Programs.succeed, Source.content]
  refine ⟨"", none, ?_⟩
  change Programs.launch directory.read _ = _
  simp only [Programs.launch, hrun, hcopy, Programs.succeed, if_pos hdeadline]
  rfl

/-- Derived facts about ids that are easily misread. -/
def misleading : List Statement :=
  [⟨⟨"1.p2=>#"⟩, .dependsOn, ⟨".@:a"⟩⟩, ⟨⟨".@:a"⟩, .explains, ⟨"?x"⟩⟩]

/-- A citation comes after them. -/
def withCitation : List Statement := misleading ++ [⟨⟨"?x"⟩, .cites, ⟨"?x"⟩⟩]

theorem isWritable_of_mem_withCitation {id : ElementId} (hid : id ∈ mentionedIn withCitation) :
    IsWritable id.text := by
  obtain ⟨statement, hmem, hend⟩ := hid
  simp only [withCitation, misleading, List.cons_append, List.nil_append, List.mem_cons,
    List.not_mem_nil, or_false] at hmem
  rcases hmem with rfl | rfl | rfl <;> rcases hend with rfl | rfl <;>
    exact ⟨by decide, by decide⟩

theorem isWritable_of_mem_misleading {id : ElementId} (hid : id ∈ mentionedIn misleading) :
    IsWritable id.text := by
  obtain ⟨statement, hmem, hend⟩ := hid
  exact isWritable_of_mem_withCitation ⟨statement, List.mem_append_left _ hmem, hend⟩

/-- The copying program gives back the derived facts, and those with a
citation among them are refused. -/
theorem reasonerInput_misleading :
    let derived := Session.ofAsserted (Store.ofList misleading)
    let mixed := Session.ofAsserted (Store.ofList withCitation)
    let cat := (Host.ofDirectory []).oracle ⟨"cat", []⟩ 30
    (∀ id ∈ mentionedIn withCitation, IsWritable id.text) ∧
      Document.ofText defaultLabel
          (reasonerInput withCitation [.transitiveDependency, .logicalDependency,
            .transitiveDependency]) =
        .ok ⟨[(defaultLabel, defaultNamespace)], withCitation, 9, 0⟩ ∧
      derived.reason cat Rule.all =
        ⟨derived.replaceDerived (Store.ofList misleading), 2, none⟩ ∧
      mixed.reason cat Rule.all =
        ⟨mixed.replaceDerived .empty, 0,
          some ⟨"cat", .foreignPredicate ⟨⟨"?x"⟩, .cites, ⟨"?x"⟩⟩⟩⟩ := by
  intro derived mixed cat
  have hechoes : Echoes (Host.ofDirectory []) ⟨"cat", []⟩ 30 := echoes_cat [] (by decide)
  have hmisleading := reasonerInput_gives_back (Store.ofList misleading) (by
    rw [Store.toList_ofList]
    exact fun id => isWritable_of_mem_misleading)
  have hwithCitation := reasonerInput_gives_back (Store.ofList withCitation) (by
    rw [Store.toList_ofList]
    exact fun id => isWritable_of_mem_withCitation)
  obtain ⟨-, htaken⟩ := hmisleading
  obtain ⟨hread, hrefused⟩ := hwithCitation
  have hderived := (htaken _ _ _ hechoes derived rfl Rule.all).derived
  have hmixed := (hrefused _ _ _ hechoes mixed rfl Rule.all).asserted
  have hderivedFacts : derived.asserted.toList = misleading := Store.toList_ofList _
  have hmixedFacts : mixed.asserted.toList = withCitation := Store.toList_ofList _
  rw [Store.toList_ofList] at hread
  rw [hderivedFacts] at hderived
  rw [hmixedFacts] at hmixed
  refine ⟨fun id => isWritable_of_mem_withCitation, hread _, hderived (by decide), ?_⟩
  obtain ⟨error, herror, hreason⟩ := hmixed (by decide)
  obtain rfl : error = .foreignPredicate ⟨⟨"?x"⟩, .cites, ⟨"?x"⟩⟩ :=
    herror.error_eq (ensureDerived_eq_error_iff.mp rfl)
  exact hreason

end Treatise.CommandLine
