import Mathlib.Algebra.BigOperators.Group.List.Basic
import Mathlib.Tactic.Linarith
import Mathlib.Tactic.Ring
import Treatise.Proofs.Weights.Depth
import Treatise.Proofs.Weights.Score
import Treatise.Weights.Analysis

/-!
# The expansions of a traversal

The traversal behind the transitive influence expands an element where it is
first reached, and the depth of that place fixes how often the weights at the
element count.  Here the traversal is run again with the depths written down.
The influence is then one sum over the expansions, although siblings share
the elements that were expanded before.
-/

namespace Treatise.Weights

/-- A chain with exactly this many steps that ends at the target. -/
inductive LeadsIn {κ : Type} (step : κ → κ → Prop) (target : κ) : ℕ → κ → Prop
  | here : LeadsIn step target 0 target
  | step {length : ℕ} {element next : κ} (hstep : step element next)
      (hrest : LeadsIn step target length next) : LeadsIn step target (length + 1) element

section Traversal

variable {κ : Type} [DecidableEq κ] {dependents : κ → List (κ × ℚ)} {multiplier : ℕ → ℚ}

/-- The elements that a traversal has expanded with the depths at which it did
so, the latest first. -/
def expandFrom (dependents : κ → List (κ × ℚ)) :
    (levels depth : ℕ) → κ → (expanded : List (κ × ℕ)) → List (κ × ℕ)
  | 0, _, _, expanded => expanded
  | levels + 1, depth, element, expanded =>
    if element ∈ expanded.map Prod.fst then expanded
    else
      (dependents element).foldl
        (fun expanded (dependent, _) =>
          expandFrom dependents levels (depth + 1) dependent expanded)
        ((element, depth) :: expanded)

/-- What one expansion adds to the influence. -/
def contribution (dependents : κ → List (κ × ℚ)) (multiplier : ℕ → ℚ)
    (expansion : κ × ℕ) : ℚ :=
  ((dependents expansion.1).map fun (_, weight) => weight * multiplier expansion.2).sum

def contributions (dependents : κ → List (κ × ℚ)) (multiplier : ℕ → ℚ)
    (expanded : List (κ × ℕ)) : ℚ :=
  (expanded.map (contribution dependents multiplier)).sum

/-! ### One traversal beside the other -/

/-- Follows one more dependent below an element. -/
def visitDependent (dependents : κ → List (κ × ℚ)) (multiplier : ℕ → ℚ) (levels depth : ℕ)
    (state : ℚ × List κ) (dependent : κ × ℚ) : ℚ × List κ :=
  let (below, expanded) :=
    influenceFrom dependents multiplier levels (depth + 1) dependent.1 state.2
  (state.1 + dependent.2 * multiplier depth + below, expanded)

theorem influenceFrom_of_mem {levels depth : ℕ} {element : κ} {expanded : List κ}
    (hmem : element ∈ expanded) :
    influenceFrom dependents multiplier (levels + 1) depth element expanded =
      (0, expanded) := by
  rw [influenceFrom, if_pos hmem]

theorem influenceFrom_of_fresh {levels depth : ℕ} {element : κ} {expanded : List κ}
    (hfresh : element ∉ expanded) :
    influenceFrom dependents multiplier (levels + 1) depth element expanded =
      (dependents element).foldl (visitDependent dependents multiplier levels depth)
        (0, element :: expanded) := by
  rw [influenceFrom, if_neg hfresh]
  rfl

theorem expandFrom_of_mem {levels depth : ℕ} {element : κ} {expanded : List (κ × ℕ)}
    (hmem : element ∈ expanded.map Prod.fst) :
    expandFrom dependents (levels + 1) depth element expanded = expanded := by
  rw [expandFrom, if_pos hmem]

theorem expandFrom_of_fresh {levels depth : ℕ} {element : κ} {expanded : List (κ × ℕ)}
    (hfresh : element ∉ expanded.map Prod.fst) :
    expandFrom dependents (levels + 1) depth element expanded =
      (dependents element).foldl
        (fun expanded dependent =>
          expandFrom dependents levels (depth + 1) dependent.1 expanded)
        ((element, depth) :: expanded) := by
  rw [expandFrom, if_neg hfresh]

/-- The traversal with depths has expanded the same elements, and what the
other one found is the sum of the contributions that were added. -/
structure Accounts (dependents : κ → List (κ × ℚ)) (multiplier : ℕ → ℚ)
    (before after : List (κ × ℕ)) (found : ℚ × List κ) : Prop where
  expanded_eq : found.2 = after.map Prod.fst
  sum_eq : contributions dependents multiplier before + found.1 =
    contributions dependents multiplier after

omit [DecidableEq κ] in
theorem contributions_cons (expansion : κ × ℕ) (expanded : List (κ × ℕ)) :
    contributions dependents multiplier (expansion :: expanded) =
      contribution dependents multiplier expansion +
        contributions dependents multiplier expanded := by
  simp [contributions]

/-- Following dependents one by one adds their weights at this depth and what
is found below each of them. -/
theorem accounts_foldl {levels depth : ℕ}
    (hbelow : ∀ element before, Accounts dependents multiplier before
      (expandFrom dependents levels (depth + 1) element before)
      (influenceFrom dependents multiplier levels (depth + 1) element
        (before.map Prod.fst)))
    (followed : List (κ × ℚ)) (sum : ℚ) (before : List (κ × ℕ)) :
    let found := followed.foldl (visitDependent dependents multiplier levels depth)
      (sum, before.map Prod.fst)
    let after := followed.foldl
      (fun expanded dependent =>
        expandFrom dependents levels (depth + 1) dependent.1 expanded) before
    found.2 = after.map Prod.fst ∧
      contributions dependents multiplier before + found.1 =
        sum + (followed.map fun (_, weight) => weight * multiplier depth).sum +
          contributions dependents multiplier after := by
  induction followed generalizing sum before with
  | nil =>
      refine ⟨rfl, ?_⟩
      simp only [List.foldl_nil, List.map_nil, List.sum_nil]
      ring
  | cons dependent others ih =>
      have hfirst := hbelow dependent.1 before
      have hstate : visitDependent dependents multiplier levels depth
          (sum, before.map Prod.fst) dependent =
            (sum + dependent.2 * multiplier depth +
                (influenceFrom dependents multiplier levels (depth + 1) dependent.1
                  (before.map Prod.fst)).1,
              (expandFrom dependents levels (depth + 1) dependent.1 before).map Prod.fst) := by
        rw [← hfirst.expanded_eq]
        rfl
      simp only [List.foldl_cons, hstate, List.map_cons, List.sum_cons]
      obtain ⟨hexpanded, hsum⟩ := ih
        (sum + dependent.2 * multiplier depth +
          (influenceFrom dependents multiplier levels (depth + 1) dependent.1
            (before.map Prod.fst)).1)
        (expandFrom dependents levels (depth + 1) dependent.1 before)
      refine ⟨hexpanded, ?_⟩
      have hadded := hfirst.sum_eq
      linarith

theorem accounts_expandFrom (levels depth : ℕ) (element : κ) (before : List (κ × ℕ)) :
    Accounts dependents multiplier before
      (expandFrom dependents levels depth element before)
      (influenceFrom dependents multiplier levels depth element (before.map Prod.fst)) := by
  induction levels generalizing depth element before with
  | zero => exact ⟨rfl, add_zero _⟩
  | succ levels ih =>
      by_cases hmem : element ∈ before.map Prod.fst
      · rw [influenceFrom_of_mem hmem, expandFrom_of_mem hmem]
        exact ⟨rfl, add_zero _⟩
      · rw [influenceFrom_of_fresh hmem, expandFrom_of_fresh hmem]
        obtain ⟨hexpanded, hsum⟩ := accounts_foldl (ih (depth + 1)) (dependents element) 0
          ((element, depth) :: before)
        refine ⟨hexpanded, ?_⟩
        have hown : ((dependents element).map fun (_, weight) =>
            weight * multiplier depth).sum =
              contribution dependents multiplier (element, depth) := rfl
        rw [contributions_cons, hown] at hsum
        simp only [List.map_cons] at hsum
        linarith

/-! ### What a traversal expands -/

/-- The expansions of a traversal from `start` that follows at most `maxDepth`
levels of dependents. -/
structure ExpansionInvariant (step : κ → κ → Prop) (start : κ) (maxDepth : ℕ)
    (expanded : List (κ × ℕ)) : Prop where
  nodup : (expanded.map Prod.fst).Nodup
  depth_le : ∀ expansion ∈ expanded, expansion.2 ≤ maxDepth
  leads : ∀ expansion ∈ expanded, LeadsIn step start expansion.2 expansion.1

omit [DecidableEq κ] in
theorem ExpansionInvariant.initial (step : κ → κ → Prop) (start : κ) (maxDepth : ℕ) :
    ExpansionInvariant step start maxDepth [] := by
  constructor <;> simp

omit [DecidableEq κ] in
theorem ExpansionInvariant.afterExpansion {step : κ → κ → Prop} {start element : κ}
    {maxDepth depth : ℕ} {expanded : List (κ × ℕ)}
    (hgood : ExpansionInvariant step start maxDepth expanded)
    (hfresh : element ∉ expanded.map Prod.fst) (hdepth : depth ≤ maxDepth)
    (hleads : LeadsIn step start depth element) :
    ExpansionInvariant step start maxDepth ((element, depth) :: expanded) where
  nodup := List.nodup_cons.mpr ⟨hfresh, hgood.nodup⟩
  depth_le := by
    intro expansion hmem
    rcases List.mem_cons.mp hmem with rfl | hold
    · exact hdepth
    · exact hgood.depth_le expansion hold
  leads := by
    intro expansion hmem
    rcases List.mem_cons.mp hmem with rfl | hold
    · exact hleads
    · exact hgood.leads expansion hold

theorem expandFrom_preserves {step : κ → κ → Prop} {start : κ} {maxDepth : ℕ}
    (hstep : ∀ element, ∀ dependent ∈ dependents element, step dependent.1 element)
    {levels depth : ℕ} {element : κ} {expanded : List (κ × ℕ)}
    (hlevels : levels + depth = maxDepth + 1) (hleads : LeadsIn step start depth element)
    (hgood : ExpansionInvariant step start maxDepth expanded) :
    ExpansionInvariant step start maxDepth
      (expandFrom dependents levels depth element expanded) := by
  induction levels generalizing depth element expanded with
  | zero => exact hgood
  | succ levels ih =>
      by_cases hmem : element ∈ expanded.map Prod.fst
      · rw [expandFrom_of_mem hmem]
        exact hgood
      · rw [expandFrom_of_fresh hmem]
        apply foldl_preserves fun _ after => ExpansionInvariant step start maxDepth after
        · exact hgood.afterExpansion hmem (by omega) hleads
        · intro _ after dependent hdependent hafter
          exact ih (by omega) (.step (hstep element dependent hdependent) hleads) hafter

theorem suffix_expandFrom (levels depth : ℕ) (element : κ) (expanded : List (κ × ℕ)) :
    expanded <:+ expandFrom dependents levels depth element expanded := by
  induction levels generalizing depth element expanded with
  | zero => exact List.suffix_refl _
  | succ levels ih =>
      by_cases hmem : element ∈ expanded.map Prod.fst
      · have hsame : expandFrom dependents (levels + 1) depth element expanded = expanded :=
          expandFrom_of_mem hmem
        exact hsame.symm ▸ List.suffix_refl expanded
      · rw [expandFrom_of_fresh hmem]
        apply foldl_preserves fun _ after => expanded <:+ after
        · exact List.suffix_cons _ _
        · intro _ after dependent _ hafter
          exact hafter.trans (ih _ _ after)

/-- The expansions of a whole traversal in the order in which they happen. -/
def expansions (dependents : κ → List (κ × ℚ)) (maxDepth : ℕ) (start : κ) :
    List (κ × ℕ) :=
  (expandFrom dependents (maxDepth + 1) 0 start []).reverse

theorem head?_expansions (maxDepth : ℕ) (start : κ) :
    (expansions dependents maxDepth start).head? = some (start, 0) := by
  have hsuffix : [(start, 0)] <:+ expandFrom dependents (maxDepth + 1) 0 start [] := by
    rw [expandFrom_of_fresh (by simp)]
    apply foldl_preserves fun _ after => [(start, 0)] <:+ after
    · exact List.suffix_refl _
    · intro _ after dependent _ hafter
      exact hafter.trans (suffix_expandFrom _ _ _ after)
  obtain ⟨later, hlater⟩ := hsuffix
  rw [expansions, ← hlater]
  simp

theorem map_fst_expansions (maxDepth : ℕ) (start : κ) :
    (expansions dependents maxDepth start).map Prod.fst =
      (influenceFrom dependents multiplier (maxDepth + 1) 0 start []).2.reverse := by
  have haccounts : Accounts dependents multiplier [] _ _ :=
    accounts_expandFrom (maxDepth + 1) 0 start []
  rw [expansions, List.map_reverse, ← haccounts.expanded_eq]
  rfl

/-- The influence of an element is the sum of what the expansions contribute. -/
theorem influence_eq_contributions (maxDepth : ℕ) (start : κ) :
    influence dependents multiplier maxDepth start =
      contributions dependents multiplier (expansions dependents maxDepth start) := by
  have haccounts : Accounts dependents multiplier [] _ _ :=
    accounts_expandFrom (maxDepth + 1) 0 start []
  have hsum := haccounts.sum_eq
  have hnone : contributions dependents multiplier ([] : List (κ × ℕ)) = 0 := rfl
  rw [hnone, zero_add] at hsum
  have hreversed : contributions dependents multiplier (expansions dependents maxDepth start) =
      contributions dependents multiplier
        (expandFrom dependents (maxDepth + 1) 0 start []) := by
    rw [contributions, contributions, expansions, List.map_reverse, List.sum_reverse]
  exact hsum.trans hreversed.symm

theorem expansionInvariant_expansions {step : κ → κ → Prop}
    (hstep : ∀ element, ∀ dependent ∈ dependents element, step dependent.1 element)
    (maxDepth : ℕ) (start : κ) :
    ExpansionInvariant step start maxDepth (expansions dependents maxDepth start) := by
  have hgood := expandFrom_preserves hstep (Nat.add_zero (maxDepth + 1)) .here
    (ExpansionInvariant.initial step start maxDepth)
  constructor
  · rw [expansions, List.map_reverse, List.nodup_reverse]
    exact hgood.nodup
  · intro expansion hmem
    exact hgood.depth_le expansion (List.mem_reverse.mp hmem)
  · intro expansion hmem
    exact hgood.leads expansion (List.mem_reverse.mp hmem)

end Traversal

end Treatise.Weights
