import Mathlib.Algebra.GroupWithZero.Nat
import Treatise.Proofs.Inference.RuleText
import Treatise.Proofs.N3.RoundTrip

/-!
# Rule texts as documents

To a reader of facts the text of a clause is a rule of two blocks.  Whatever
stands in the blocks, dots and names of the vocabulary among it, belongs to
the rule, which is counted and not read any further.  So rules after facts
leave the facts as they are.
-/

namespace Treatise

/-! ## Clauses whose variables are names -/

/-- With a question mark before it such a letter is a name. -/
def N3.IsVariable (letter : Char) : Prop := N3.isNameChar letter ∧ letter ≠ '.'

instance : DecidablePred N3.IsVariable := fun _ => inferInstanceAs (Decidable (_ ∧ _))

def Atom.HasVariables (atom : Atom) : Prop :=
  N3.IsVariable atom.subject ∧ N3.IsVariable atom.object

instance : DecidablePred Atom.HasVariables := fun _ => inferInstanceAs (Decidable (_ ∧ _))

def Clause.HasVariables (clause : Clause) : Prop :=
  (∀ premise ∈ clause.premises, premise.HasVariables) ∧ clause.conclusion.HasVariables

instance : DecidablePred Clause.HasVariables := fun _ => inferInstanceAs (Decidable (_ ∧ _))

theorem Rule.hasVariables_clauses (rule : Rule) :
    ∀ clause ∈ rule.clauses, clause.HasVariables := by
  cases rule <;> decide

namespace N3

theorem IsVariable.isName {letter : Char} (hvariable : IsVariable letter) :
    IsName ("?" ++ letter.toString).toList := by
  obtain ⟨hchar, hdot⟩ := hvariable
  have htext : ("?" ++ letter.toString).toList = ['?', letter] := by simp
  rw [htext]
  refine ⟨?_, ⟨'?', rfl, by decide⟩, by simp, by simpa using hdot⟩
  intro c hmem
  simp only [List.mem_cons, List.not_mem_nil, or_false] at hmem
  rcases hmem with rfl | rfl
  · decide
  · exact hchar

/-! ## The tokens of a clause -/

def tokensOfAtom (label : String) (atom : Atom) : List Token :=
  [.name ("?" ++ atom.subject.toString), .name (labelled label atom.predicate.wireName),
    .name ("?" ++ atom.object.toString)]

/-- The premises with dots between them. -/
def tokensOfPremises (label : String) : List Atom → List Token
  | [] => []
  | [premise] => tokensOfAtom label premise
  | premise :: others => tokensOfAtom label premise ++ .dot :: tokensOfPremises label others

def inBraces (tokens : List Token) : List Token := .openBrace :: tokens ++ [.closeBrace]

def tokensOfClause (label : String) (clause : Clause) : List Token :=
  inBraces (tokensOfPremises label clause.premises) ++
    .implies :: inBraces (tokensOfAtom label clause.conclusion) ++ [.dot]

theorem Spells.mark {c : Char} {token : Token} {rest : List Char} {tokens : List Token}
    (hmark : Mark c token) (hrest : Spells rest tokens) :
    Spells (c :: rest) (token :: tokens) :=
  .cons (.mark hmark rest) hrest

theorem spells_atom {label : String} {atom : Atom} {rest : List Char} {tokens : List Token}
    (hlabel : IsLabel label) (hvariables : atom.HasVariables)
    (hrest : Spells (' ' :: rest) tokens) :
    Spells ((atom.text label).toList ++ ' ' :: rest) (tokensOfAtom label atom ++ tokens) := by
  have hverb := hlabel.isName (isWritable_wireName atom.predicate)
  have hwords := Spells.name hvariables.1.isName
    (.space (.name hverb (.space (.name hvariables.2.isName hrest))))
  simpa [Atom.text, tokensOfAtom] using hwords

theorem spells_premises {label : String} {premises : List Atom} {rest : List Char}
    {tokens : List Token} (hlabel : IsLabel label)
    (hvariables : ∀ premise ∈ premises, premise.HasVariables)
    (hrest : Spells (' ' :: rest) tokens) :
    Spells ((" . ".intercalate (premises.map (Atom.text label))).toList ++ ' ' :: rest)
      (tokensOfPremises label premises ++ tokens) := by
  induction premises with
  | nil => exact hrest
  | cons premise others ih =>
      have hpremise := hvariables premise List.mem_cons_self
      have hothers := ih fun other hmem => hvariables other (List.mem_cons_of_mem premise hmem)
      cases others with
      | nil => simpa [tokensOfPremises] using spells_atom hlabel hpremise hrest
      | cons next later =>
          have hdot := Spells.space (.mark .dot (.space hothers))
          have hwhole := spells_atom hlabel hpremise hdot
          simpa [tokensOfPremises, String.intercalate_cons_cons] using hwhole

theorem spells_clause {label : String} {clause : Clause} {rest : List Char}
    {tokens : List Token} (hlabel : IsLabel label) (hvariables : clause.HasVariables)
    (hrest : Spells rest tokens) :
    Spells ((clause.text label).toList ++ rest) (tokensOfClause label clause ++ tokens) := by
  have hend : Spells (' ' :: '}' :: ' ' :: '.' :: '\n' :: rest)
      (.closeBrace :: .dot :: tokens) :=
    .space (.mark .closeBrace (.space (.endOfLine hrest)))
  have hconclusion := Spells.mark .openBrace (.space (spells_atom hlabel hvariables.2 hend))
  have harrow := Spells.cons (.implies _) (Spells.space hconclusion)
  have hclose := Spells.space (.mark .closeBrace (.space harrow))
  have hpremises := spells_premises hlabel hvariables.1 hclose
  have hwhole := Spells.mark .openBrace (.space hpremises)
  simpa [toList_clauseText, tokensOfClause, inBraces] using hwhole

/-! ## Clauses as rules -/

theorem balanced_of_forall_ne {tokens : List Token}
    (hplain : ∀ token ∈ tokens, token ≠ .openBrace ∧ token ≠ .closeBrace) : Balanced tokens := by
  induction tokens with
  | nil => exact .nil
  | cons token rest ih =>
      obtain ⟨hopen, hclose⟩ := hplain token List.mem_cons_self
      have hrest : ∀ other ∈ rest, other ≠ .openBrace ∧ other ≠ .closeBrace :=
        fun other hmem => hplain other (List.mem_cons_of_mem token hmem)
      exact .plain hopen hclose (ih hrest)

theorem ne_brace_of_mem_tokensOfAtom {label : String} {atom : Atom} {token : Token}
    (hmem : token ∈ tokensOfAtom label atom) : token ≠ .openBrace ∧ token ≠ .closeBrace := by
  simp only [tokensOfAtom, List.mem_cons, List.not_mem_nil, or_false] at hmem
  rcases hmem with rfl | rfl | rfl <;> simp

theorem ne_brace_of_mem_tokensOfPremises {label : String} {premises : List Atom} {token : Token}
    (hmem : token ∈ tokensOfPremises label premises) :
    token ≠ .openBrace ∧ token ≠ .closeBrace := by
  induction premises with
  | nil => cases hmem
  | cons premise others ih =>
      cases others with
      | nil => exact ne_brace_of_mem_tokensOfAtom hmem
      | cons next later =>
          rcases List.mem_append.mp hmem with hfirst | hrest
          · exact ne_brace_of_mem_tokensOfAtom hfirst
          · rcases List.mem_cons.mp hrest with rfl | hothers
            · simp
            · exact ih hothers

theorem phrase_clause (label : String) (clause : Clause) :
    Phrase label (tokensOfClause label clause) .ofRule := by
  have hpremises : Block (inBraces (tokensOfPremises label clause.premises)) :=
    .braces (balanced_of_forall_ne fun _ => ne_brace_of_mem_tokensOfPremises)
  have hconclusion : Block (inBraces (tokensOfAtom label clause.conclusion)) :=
    .braces (balanced_of_forall_ne fun _ => ne_brace_of_mem_tokensOfAtom)
  exact .rule hpremises (.present hconclusion) .dot

theorem spells_clauses {label : String} {clauses : List Clause} (hlabel : IsLabel label)
    (hvariables : ∀ clause ∈ clauses, clause.HasVariables) :
    Spells (clauses.flatMap fun clause => (clause.text label).toList)
      (clauses.flatMap (tokensOfClause label)) := by
  induction clauses with
  | nil => exact .nil
  | cons clause others ih =>
      have hothers := ih fun other hmem => hvariables other (List.mem_cons_of_mem clause hmem)
      exact spells_clause hlabel (hvariables clause List.mem_cons_self) hothers

theorem phrases_clauses (label : String) (clauses : List Clause) :
    Phrases label (clauses.flatMap (tokensOfClause label)) ⟨[], [], clauses.length, 0⟩ := by
  induction clauses with
  | nil => exact .nil
  | cons clause others ih =>
      have hdocument : (⟨[], [], (clause :: others).length, 0⟩ : Document) =
          .ofRule ++ ⟨[], [], others.length, 0⟩ := by
        rw [List.length_cons, Nat.add_comm]
        rfl
      rw [hdocument]
      exact .cons (phrase_clause label clause) ih

/-! ## Rules as documents -/

/-- How many clauses there are to a rule. -/
def blocksOf : Rule → ℕ
  | .citationDependency => 1
  | .logicalDependency => Predicate.logical.length
  | .transitiveDependency => 2
  | .circularArgument => 1
  | .proofDerivation => 2
  | .explanation => 1

theorem length_clauses (rule : Rule) : rule.clauses.length = blocksOf rule := by
  cases rule <;> rfl

theorem ofText_ruleText {label : String} (hlabel : IsLabel label) (rules : List Rule) :
    Document.ofText label (Rule.text label rules) = .ok ⟨[], [], (rules.map blocksOf).sum, 0⟩ := by
  have hvariables : ∀ clause ∈ rules.flatMap Rule.clauses, clause.HasVariables := by
    intro clause hmem
    obtain ⟨rule, -, hclause⟩ := List.mem_flatMap.mp hmem
    exact rule.hasVariables_clauses clause hclause
  have hlength : (rules.flatMap Rule.clauses).length = (rules.map blocksOf).sum := by
    simp only [List.length_flatMap, length_clauses]
  rw [ofText_eq_ok_iff, ← hlength]
  refine ⟨_, ?_, phrases_clauses label _⟩
  simpa [Rule.text, String.toList_join, List.flatMap_map] using spells_clauses hlabel hvariables

end N3

end Treatise
