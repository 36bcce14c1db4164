import Treatise.CommandLine.Reasoner
import Treatise.Proofs.Text.Cut

/-!
# A rule text says one thing

The clauses of a text follow one another, and the end of each part of a clause
shows whatever follows it.  So no text writes out two different lists of
clauses, and what it tells a reasoner is fixed by its characters.
-/

namespace Treatise

/-- The text of clauses, one to a line. -/
def Clause.textOf (label : String) (clauses : List Clause) : String :=
  String.join (clauses.map (Clause.text label))

theorem Rule.text_eq (label : String) (rules : List Rule) :
    Rule.text label rules = Clause.textOf label (rules.flatMap Rule.clauses) := rfl

/-! ## Texts that end where they are read to end -/

/-- What is written can be split off the front of any longer text. -/
def IsPrefixFree {α : Type} (write : α → List Char) : Prop :=
  ∀ a b s t, write a ++ s = write b ++ t → a = b ∧ s = t

theorem isPrefixFree_wireName :
    IsPrefixFree fun predicate : Predicate => predicate.wireName.toList ++ [' '] := by
  intro predicate other s t hsame
  have hblank : ∀ predicate : Predicate, ' ' ∉ predicate.wireName.toList := by
    intro predicate
    cases predicate <;> decide
  have hcut : Text.cut ' ' (predicate.wireName.toList ++ ' ' :: s) =
      some (predicate.wireName.toList, s) :=
    Text.cut_eq_some_iff.mpr ⟨rfl, hblank predicate⟩
  have hother : Text.cut ' ' (other.wireName.toList ++ ' ' :: t) =
      some (other.wireName.toList, t) :=
    Text.cut_eq_some_iff.mpr ⟨rfl, hblank other⟩
  have hparts : predicate.wireName.toList ++ ' ' :: s = other.wireName.toList ++ ' ' :: t := by
    simpa using hsame
  rw [hparts, hother] at hcut
  obtain ⟨hname, hrest⟩ := Prod.mk.inj (Option.some.inj hcut)
  have hwire := Predicate.ofWireName?_wireName predicate
  rw [← String.toList_inj.mp hname, Predicate.ofWireName?_wireName] at hwire
  exact ⟨(Option.some.inj hwire).symm, hrest.symm⟩

theorem toList_atomText (label : String) (atom : Atom) :
    (atom.text label).toList =
      '?' :: atom.subject :: ' ' :: (label.toList ++ ':' :: (atom.predicate.wireName.toList ++
        [' ', '?', atom.object])) := by
  simp [Atom.text, N3.labelled]

theorem isPrefixFree_atomText (label : String) :
    IsPrefixFree fun atom : Atom => (atom.text label).toList := by
  intro atom other s t hsame
  obtain ⟨subject, predicate, object⟩ := atom
  obtain ⟨subject', predicate', object'⟩ := other
  simp only [toList_atomText, List.cons_append, List.append_assoc, List.cons.injEq, true_and,
    List.append_cancel_left_eq, List.nil_append] at hsame
  obtain ⟨rfl, hrest⟩ := hsame
  have hwire := isPrefixFree_wireName predicate predicate' ('?' :: object :: s)
    ('?' :: object' :: t) (by simpa using hrest)
  simpa [and_assoc] using hwire

theorem isPrefixFree_premises (label : String) :
    IsPrefixFree fun premises : List Atom =>
      (premises.flatMap fun premise => " . ".toList ++ (premise.text label).toList) ++
        " \x7d => \x7b ".toList := by
  intro premises
  induction premises with
  | nil =>
      intro others s t hsame
      cases others with
      | nil => simpa using hsame
      | cons other others => simp at hsame
  | cons premise premises ih =>
      intro others s t hsame
      cases others with
      | nil => simp at hsame
      | cons other others =>
          simp only [List.flatMap_cons, List.append_assoc, List.append_cancel_left_eq] at hsame
          obtain ⟨rfl, hrest⟩ := isPrefixFree_atomText label _ _ _ _ hsame
          obtain ⟨rfl, hend⟩ := ih others s t (by simpa using hrest)
          exact ⟨rfl, hend⟩

theorem toList_intercalate_premises (label : String) (premise : Atom) (premises : List Atom) :
    (" . ".intercalate ((premise :: premises).map (Atom.text label))).toList =
      (premise.text label).toList ++
        premises.flatMap fun premise => " . ".toList ++ (premise.text label).toList := by
  induction premises generalizing premise with
  | nil => simp
  | cons next others ih =>
      rw [List.map_cons, List.map_cons, String.intercalate_cons_cons, ← List.map_cons,
        String.toList_append, ih]
      simp

theorem toList_clauseText (label : String) (clause : Clause) :
    (clause.text label).toList =
      '\x7b' :: ' ' :: ((" . ".intercalate (clause.premises.map (Atom.text label))).toList ++
        (" \x7d => \x7b ".toList ++ ((clause.conclusion.text label).toList ++
          " \x7d .\n".toList))) := by
  simp [Clause.text]

theorem isPrefixFree_clauseText (label : String) :
    IsPrefixFree fun clause : Clause => (clause.text label).toList := by
  intro clause other s t hsame
  obtain ⟨premises, conclusion⟩ := clause
  obtain ⟨premises', conclusion'⟩ := other
  simp only [toList_clauseText, List.cons_append, List.append_assoc, List.cons.injEq,
    true_and] at hsame
  have hconclusion : ∀ u v : List Char,
      (conclusion.text label).toList ++ u = (conclusion'.text label).toList ++ v →
        conclusion = conclusion' ∧ u = v :=
    isPrefixFree_atomText label conclusion conclusion'
  cases premises with
  | nil =>
      cases premises' with
      | nil =>
          simp only [List.map_nil, String.intercalate_nil, List.append_cancel_left_eq] at hsame
          obtain ⟨rfl, hrest⟩ := hconclusion _ _ hsame
          simpa using hrest
      | cons premise' others' =>
          simp [toList_atomText] at hsame
  | cons premise others =>
      cases premises' with
      | nil => simp [toList_atomText] at hsame
      | cons premise' others' =>
          simp only [toList_intercalate_premises, List.append_assoc] at hsame
          obtain ⟨rfl, hrest⟩ := isPrefixFree_atomText label _ _ _ _ hsame
          simp only [← List.append_assoc] at hrest
          obtain ⟨rfl, hend⟩ := isPrefixFree_premises label others others' _ _
            (by simpa using hrest)
          obtain ⟨rfl, hrest⟩ := hconclusion _ _ hend
          simpa using hrest

theorem Clause.textOf_injective (label : String) : Function.Injective (Clause.textOf label) := by
  intro clauses
  induction clauses with
  | nil =>
      intro others hsame
      cases others with
      | nil => rfl
      | cons other others =>
          have hempty := congrArg String.toList hsame
          simp [textOf, String.toList_join, toList_clauseText] at hempty
  | cons clause clauses ih =>
      intro others hsame
      have hlists := congrArg String.toList hsame
      cases others with
      | nil => simp [textOf, String.toList_join, toList_clauseText] at hlists
      | cons other others =>
          simp only [textOf, String.toList_join, List.map_cons, List.flatMap_cons] at hlists
          obtain ⟨rfl, hrest⟩ := isPrefixFree_clauseText label _ _ _ _ hlists
          have hothers : textOf label clauses = textOf label others := by
            apply String.toList_inj.mp
            simpa [textOf, String.toList_join] using hrest
          rw [ih hothers]

end Treatise
