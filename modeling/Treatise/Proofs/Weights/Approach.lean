import Treatise.Proofs.Weights.Expansion

/-!
# Where a traversal reaches an element

A traversal expands an element where it first comes to it, and it comes to it
along a chain without repetition.  Below the deepest level it follows every
dependent.  So if the chains without repetition from each element have one
length only, the lengths of these chains are all that the traversal finds,
whatever order it follows dependents in.
-/

namespace Treatise.Weights

variable {κ : Type}

/-- A chain without repetition to a target, given by its elements after the first. -/
inductive Approach (step : κ → κ → Prop) (target : κ) : κ → List κ → Prop
  | here : Approach step target target []
  | step {element next : κ} {rest : List κ} (hstep : step element next)
      (hfresh : element ∉ next :: rest) (hrest : Approach step target next rest) :
      Approach step target element (next :: rest)

/-- No two chains without repetition from one element have different lengths,
as far as the traversal goes. -/
def HasOneLevel (step : κ → κ → Prop) (target : κ) (maxDepth : ℕ) : Prop :=
  ∀ element rest other, Approach step target element rest → Approach step target element other →
    rest.length ≤ maxDepth → other.length ≤ maxDepth → rest.length = other.length

section Traversal

variable [DecidableEq κ] {dependents : κ → List (κ × ℚ)} {step : κ → κ → Prop} {start : κ}
  {maxDepth : ℕ}

variable (dependents) in
/-- What holds when an element has been opened and is kept by following each of
its dependents holds when the element has been expanded. -/
theorem expandFrom_fresh_preserves (levels : ℕ) {depth : ℕ} {element : κ} {expanded : List (κ × ℕ)}
    (hfresh : element ∉ expanded.map Prod.fst) (Holds : List (κ × ℚ) → List (κ × ℕ) → Prop)
    (hopened : Holds [] ((element, depth) :: expanded))
    (hfollow : ∀ visited after, ∀ dependent ∈ dependents element, Holds visited after →
      Holds (visited ++ [dependent])
        (expandFrom dependents levels (depth + 1) dependent.1 after)) :
    Holds (dependents element) (expandFrom dependents (levels + 1) depth element expanded) := by
  rw [expandFrom_of_fresh hfresh]
  exact foldl_preserves Holds hopened hfollow

/-! ## Each expansion lies at the end of a chain -/

/-- The way on which a traversal comes to an element: the element is the start,
or a step leads from it to an expanded element at the end of a chain. -/
inductive ComesTo (step : κ → κ → Prop) (start : κ) (expanded : List (κ × ℕ)) : ℕ → κ → Prop
  | start : ComesTo step start expanded 0 start
  | step {element next : κ} {rest : List κ} (hstep : step element next)
      (hrest : Approach step start next rest)
      (hexpanded : ∀ vertex ∈ next :: rest, vertex ∈ expanded.map Prod.fst) :
      ComesTo step start expanded (rest.length + 1) element

omit [DecidableEq κ] in
theorem ComesTo.exists_approach {expanded : List (κ × ℕ)} {depth : ℕ} {element : κ}
    (hcomes : ComesTo step start expanded depth element)
    (hfresh : element ∉ expanded.map Prod.fst) :
    ∃ rest, Approach step start element rest ∧ rest.length = depth ∧
      ∀ vertex ∈ rest, vertex ∈ expanded.map Prod.fst := by
  cases hcomes with
  | start => exact ⟨[], .here, rfl, by simp⟩
  | @step _ next rest hstep hrest hexpanded =>
      have hnew : element ∉ next :: rest := by
        intro hmem
        exact hfresh (hexpanded element hmem)
      exact ⟨next :: rest, .step hstep hnew hrest, rfl, hexpanded⟩

/-- Every expansion is at the end of a chain whose length is its depth. -/
def Approached (step : κ → κ → Prop) (start : κ) (expanded : List (κ × ℕ)) : Prop :=
  ∀ expansion ∈ expanded, ∃ rest, Approach step start expansion.1 rest ∧
    rest.length = expansion.2

theorem expandFrom_approached
    (hstep : ∀ element, ∀ dependent ∈ dependents element, step dependent.1 element)
    {levels depth : ℕ} {element : κ} {expanded : List (κ × ℕ)}
    (hcomes : ComesTo step start expanded depth element)
    (hbefore : Approached step start expanded) :
    Approached step start (expandFrom dependents levels depth element expanded) := by
  induction levels generalizing depth element expanded with
  | zero => exact hbefore
  | succ levels ih =>
      by_cases hmem : element ∈ expanded.map Prod.fst
      · rw [expandFrom_of_mem hmem]
        exact hbefore
      rcases hcomes.exists_approach hmem with ⟨rest, happroach, hlength, hpath⟩
      subst hlength
      have hopened : Approached step start ((element, rest.length) :: expanded) := by
        intro expansion hexpansion
        rcases List.mem_cons.mp hexpansion with rfl | hold
        · exact ⟨rest, happroach, rfl⟩
        · exact hbefore expansion hold
      -- The chain stays expanded while the dependents are followed, because expansions
      -- are only added.
      have hvisited := expandFrom_fresh_preserves dependents levels hmem
        (fun _ after => Approached step start after ∧
          ((element, rest.length) :: expanded) <:+ after)
        ⟨hopened, List.suffix_refl _⟩ ?_
      · exact hvisited.1
      intro _ after dependent hdependent hafter
      rcases hafter with ⟨happroached, hsuffix⟩
      have hopen : ∀ vertex ∈ element :: rest, vertex ∈ after.map Prod.fst := by
        intro vertex hvertex
        have hbefore : vertex ∈ ((element, rest.length) :: expanded).map Prod.fst := by
          rcases List.mem_cons.mp hvertex with rfl | hrest
          · exact List.mem_cons_self
          · exact List.mem_cons_of_mem _ (hpath vertex hrest)
        exact (hsuffix.map Prod.fst).subset hbefore
      have hnext : ComesTo step start after (rest.length + 1) dependent.1 :=
        .step (hstep element dependent hdependent) happroach hopen
      exact ⟨ih hnext happroached, hsuffix.trans (suffix_expandFrom _ _ _ after)⟩

/-! ## Every dependent is followed -/

/-- The dependents of an expanded element are expanded too, unless it lies at
the deepest level. -/
def Followed (dependents : κ → List (κ × ℚ)) (maxDepth : ℕ) (after : List (κ × ℕ))
    (expansion : κ × ℕ) : Prop :=
  expansion.2 < maxDepth → ∀ dependent ∈ dependents expansion.1,
    dependent.1 ∈ after.map Prod.fst

omit [DecidableEq κ] in
theorem Followed.mono {before after : List (κ × ℕ)} {expansion : κ × ℕ}
    (hfollowed : Followed dependents maxDepth before expansion) (hsuffix : before <:+ after) :
    Followed dependents maxDepth after expansion := by
  intro hdepth dependent hdependent
  exact (hsuffix.map Prod.fst).subset (hfollowed hdepth dependent hdependent)

theorem mem_expandFrom (levels depth : ℕ) (element : κ) (expanded : List (κ × ℕ)) :
    element ∈ (expandFrom dependents (levels + 1) depth element expanded).map Prod.fst := by
  by_cases hmem : element ∈ expanded.map Prod.fst
  · rw [expandFrom_of_mem hmem]
    exact hmem
  · have hsuffix : ((element, depth) :: expanded) <:+
        expandFrom dependents (levels + 1) depth element expanded := by
      apply expandFrom_fresh_preserves dependents levels hmem
        (fun _ after => ((element, depth) :: expanded) <:+ after) (List.suffix_refl _)
      intro _ after dependent _ hafter
      exact hafter.trans (suffix_expandFrom _ _ _ after)
    exact (hsuffix.map Prod.fst).subset List.mem_cons_self

theorem expandFrom_followed {levels depth : ℕ} {element : κ} {expanded : List (κ × ℕ)}
    (hlevels : levels + depth = maxDepth + 1) :
    ∀ expansion ∈ expandFrom dependents levels depth element expanded,
      expansion ∈ expanded ∨
        Followed dependents maxDepth (expandFrom dependents levels depth element expanded)
          expansion := by
  induction levels generalizing depth element expanded with
  | zero =>
      intro expansion hmem
      exact .inl hmem
  | succ levels ih =>
      by_cases hknown : element ∈ expanded.map Prod.fst
      · rw [expandFrom_of_mem hknown]
        intro expansion hmem
        exact .inl hmem
      -- The element itself is followed when all of its dependents have been visited.
      have hvisited := expandFrom_fresh_preserves dependents levels hknown
        (fun visited after =>
          (depth < maxDepth → ∀ dependent ∈ visited, dependent.1 ∈ after.map Prod.fst) ∧
            ∀ expansion ∈ after, expansion ∈ (element, depth) :: expanded ∨
              Followed dependents maxDepth after expansion)
        ⟨by simp, fun _ hmem => .inl hmem⟩ ?_
      · rcases hvisited with ⟨hdependents, hothers⟩
        intro expansion hmem
        rcases hothers expansion hmem with hbefore | hfollowed
        · rcases List.mem_cons.mp hbefore with rfl | hold
          · exact .inr hdependents
          · exact .inl hold
        · exact .inr hfollowed
      intro visited after dependent _ hafter
      rcases hafter with ⟨hdependents, hothers⟩
      have hsuffix : after <:+ expandFrom dependents levels (depth + 1) dependent.1 after :=
        suffix_expandFrom levels (depth + 1) dependent.1 after
      constructor
      · intro hdepth other hother
        rcases List.mem_append.mp hother with hearlier | hlast
        · exact (hsuffix.map Prod.fst).subset (hdependents hdepth other hearlier)
        · rw [List.mem_singleton.mp hlast]
          obtain ⟨fewer, rfl⟩ : ∃ fewer, levels = fewer + 1 := ⟨levels - 1, by omega⟩
          exact mem_expandFrom fewer (depth + 1) dependent.1 after
      · intro expansion hmem
        rcases ih (by omega) expansion hmem with hbefore | hfollowed
        · exact (hothers expansion hbefore).imp_right fun hfollowed => hfollowed.mono hsuffix
        · exact .inr hfollowed

/-! ## The whole traversal -/

theorem approached_expansions
    (hstep : ∀ element, ∀ dependent ∈ dependents element, step dependent.1 element)
    (maxDepth : ℕ) (start : κ) :
    Approached step start (expansions dependents maxDepth start) := by
  have hnone : Approached step start ([] : List (κ × ℕ)) := by
    intro expansion hmem
    cases hmem
  have happroached : Approached step start (expandFrom dependents (maxDepth + 1) 0 start []) :=
    expandFrom_approached hstep .start hnone
  intro expansion hmem
  exact happroached expansion (List.mem_reverse.mp hmem)

theorem followed_expansions (maxDepth : ℕ) (start : κ) :
    ∀ expansion ∈ expansions dependents maxDepth start,
      Followed dependents maxDepth (expansions dependents maxDepth start) expansion := by
  intro expansion hmem
  have hfollowed : expansion ∈ [] ∨ Followed dependents maxDepth
      (expandFrom dependents (maxDepth + 1) 0 start []) expansion :=
    expandFrom_followed (Nat.add_zero (maxDepth + 1)) expansion (List.mem_reverse.mp hmem)
  intro hdepth dependent hdependent
  have hafter := (hfollowed.resolve_left List.not_mem_nil) hdepth dependent hdependent
  rw [expansions, List.map_reverse]
  exact List.mem_reverse.mpr hafter

theorem mem_expansions_iff_of_oneLevel
    (hstep : ∀ element other, step other element ↔ other ∈ (dependents element).map Prod.fst)
    (hlevel : HasOneLevel step start maxDepth) {element : κ} {depth : ℕ} :
    (element, depth) ∈ expansions dependents maxDepth start ↔
      depth ≤ maxDepth ∧ ∃ rest, Approach step start element rest ∧ rest.length = depth := by
  have hforward : ∀ element, ∀ dependent ∈ dependents element, step dependent.1 element := by
    intro element dependent hdependent
    exact (hstep element dependent.1).mpr (List.mem_map_of_mem hdependent)
  have hbound := (expansionInvariant_expansions hforward maxDepth start).depth_le
  have happroached := approached_expansions hforward maxDepth start
  constructor
  · intro hmem
    exact ⟨hbound _ hmem, happroached _ hmem⟩
  · rintro ⟨hdepth, rest, happroach, rfl⟩
    induction happroach with
    | here =>
        have hhead : (expansions dependents maxDepth start).head? = some (start, 0) :=
          head?_expansions maxDepth start
        exact List.mem_of_head? hhead
    | @step element next rest hfirst hfresh hrest ih =>
        have hlonger : (next :: rest).length ≤ maxDepth := hdepth
        have hshorter : rest.length < maxDepth := hlonger
        have hnext := ih hshorter.le
        rcases List.mem_map.mp ((hstep next element).mp hfirst) with ⟨dependent, hmem, rfl⟩
        -- The element is reached through its neighbour or earlier, and on the same level.
        have hreached := followed_expansions maxDepth start _ hnext hshorter dependent hmem
        rcases List.mem_map.mp hreached with ⟨⟨found, level⟩, hfound, hsame⟩
        obtain rfl : found = dependent.1 := hsame
        rcases happroached _ hfound with ⟨other, hother, rfl⟩
        have hlength := hlevel _ _ _ (.step hfirst hfresh hrest) hother hlonger
          (hbound _ hfound)
        rw [hlength]
        exact hfound

end Traversal

end Treatise.Weights
