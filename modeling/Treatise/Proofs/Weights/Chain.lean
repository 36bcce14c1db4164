import Mathlib.Data.List.Chain
import Mathlib.Data.Set.Basic
import Mathlib.Logic.Relation
import Mathlib.Order.Bounds.Basic
import Treatise.Weights.Analysis

/-!
# Chains that avoid a path

A chain leaves an element and goes on as long as the element that it stands
at is neither on the path that led there nor on the chain already.  The last
element of a chain is free from this.  The search for the longest chain
passes its path along, so chains are described for every path and not only
for the empty one.

An element is independent of a path when nothing that it rests on lies on the
path or on a cycle.  The chains from such an element are the same for every
path that it is independent of.
-/

namespace Treatise.Weights

variable {κ : Type} {supports : κ → List κ}

/-- One step of a chain. -/
def RestsOn (supports : κ → List κ) (element support : κ) : Prop :=
  support ∈ supports element

/-- A chain of this length that leaves an element at the end of a path. -/
inductive Chain (supports : κ → List κ) : List κ → κ → ℕ → Prop
  | stop (path : List κ) (element : κ) : Chain supports path element 0
  | step {path : List κ} {element support : κ} {length : ℕ}
      (hfresh : element ∉ path) (hsupport : support ∈ supports element)
      (hrest : Chain supports (element :: path) support length) :
      Chain supports path element (length + 1)

/-- A walk with this many steps in which only the last vertex may repeat an
earlier one. -/
structure IsWalk (step : κ → κ → Prop) (start : κ) (length : ℕ)
    (vertices : List κ) : Prop where
  head : vertices.head? = some start
  steps : vertices.IsChain step
  distinct : vertices.dropLast.Nodup
  length_eq : vertices.length = length + 1

theorem IsWalk.cons {step : κ → κ → Prop} {start support : κ} {length : ℕ}
    {vertices : List κ} (hwalk : IsWalk step support length vertices)
    (hstep : step start support) (hfresh : start ∉ vertices.dropLast) :
    IsWalk step start (length + 1) (start :: vertices) := by
  obtain ⟨hhead, hsteps, hdistinct, hlength⟩ := hwalk
  cases vertices with
  | nil => simp at hhead
  | cons first others =>
      obtain rfl : first = support := by simpa using hhead
      constructor
      · rfl
      · exact List.isChain_cons_cons.mpr ⟨hstep, hsteps⟩
      · simpa using ⟨hfresh, hdistinct⟩
      · simpa using hlength

theorem IsWalk.exists_step {step : κ → κ → Prop} {start vertex : κ} {length : ℕ}
    {vertices : List κ} (hwalk : IsWalk step start length vertices)
    (hmem : vertex ∈ vertices.dropLast) : ∃ support, step vertex support := by
  obtain ⟨index, hindex, rfl⟩ := List.mem_iff_getElem.mp hmem
  have hnext : index + 1 < vertices.length := by
    rw [List.length_dropLast] at hindex
    omega
  rw [List.getElem_dropLast]
  exact ⟨_, List.isChain_iff_getElem.mp hwalk.steps index hnext⟩

theorem exists_walk_of_chain {path : List κ} {element : κ} {length : ℕ}
    (hchain : Chain supports path element length) :
    ∃ vertices, IsWalk (RestsOn supports) element length vertices ∧
      ∀ vertex ∈ vertices.dropLast, vertex ∉ path := by
  induction hchain with
  | stop path element =>
      exact ⟨[element], ⟨rfl, .singleton element, by simp, rfl⟩, by simp⟩
  | @step path element support length hfresh hsupport _ ih =>
      obtain ⟨vertices, hwalk, havoids⟩ := ih
      have hnew : element ∉ vertices.dropLast := by
        intro hmem
        exact havoids element hmem List.mem_cons_self
      refine ⟨element :: vertices, hwalk.cons hsupport hnew, ?_⟩
      intro vertex hmem
      have hne : vertices ≠ [] := by
        have := hwalk.length_eq
        exact List.ne_nil_of_length_pos (by omega)
      rw [List.dropLast_cons_of_ne_nil hne] at hmem
      rcases List.mem_cons.mp hmem with rfl | hlater
      · exact hfresh
      · exact fun hpath => havoids vertex hlater (List.mem_cons_of_mem _ hpath)

theorem chain_of_walk {path : List κ} {element : κ} {length : ℕ} {vertices : List κ}
    (hwalk : IsWalk (RestsOn supports) element length vertices)
    (havoids : ∀ vertex ∈ vertices.dropLast, vertex ∉ path) :
    Chain supports path element length := by
  induction vertices generalizing path element length with
  | nil => simpa using hwalk.head
  | cons first others ih =>
      obtain ⟨hhead, hsteps, hdistinct, hlength⟩ := hwalk
      obtain rfl : first = element := by simpa using hhead
      cases others with
      | nil =>
          obtain rfl : length = 0 := by simpa using hlength.symm
          exact .stop path first
      | cons support rest =>
          obtain ⟨hsupport, hrest⟩ := List.isChain_cons_cons.mp hsteps
          rw [List.dropLast_cons_cons] at hdistinct havoids
          obtain ⟨hfirst, hothers⟩ := List.nodup_cons.mp hdistinct
          obtain ⟨shorter, rfl⟩ : ∃ shorter, length = shorter + 1 :=
            ⟨rest.length, by simpa using hlength.symm⟩
          apply Chain.step (havoids first List.mem_cons_self) hsupport
          refine ih ⟨rfl, hrest, hothers, by simpa using hlength⟩ ?_
          intro vertex hmem hpath
          rcases List.mem_cons.mp hpath with rfl | hold
          · exact hfirst hmem
          · exact havoids vertex (List.mem_cons_of_mem _ hmem) hold

theorem chain_nil_iff_walk {element : κ} {length : ℕ} :
    Chain supports [] element length ↔
      ∃ vertices, IsWalk (RestsOn supports) element length vertices := by
  constructor
  · intro hchain
    obtain ⟨vertices, hwalk, -⟩ := exists_walk_of_chain hchain
    exact ⟨vertices, hwalk⟩
  · intro hexists
    rcases hexists with ⟨vertices, hwalk⟩
    exact chain_of_walk hwalk (by simp)

/-! ## Independence of a path -/

structure Independent (supports : κ → List κ) (path : List κ) (element : κ) : Prop where
  avoids : ∀ other, Relation.ReflTransGen (RestsOn supports) element other → other ∉ path
  acyclic : ∀ other, Relation.ReflTransGen (RestsOn supports) element other →
    ¬ Relation.TransGen (RestsOn supports) other other

theorem independent_iff {path : List κ} {element : κ} :
    Independent supports path element ↔
      element ∉ path ∧
        ∀ support ∈ supports element, Independent supports (element :: path) support := by
  constructor
  · intro hfree
    refine ⟨hfree.avoids element .refl, ?_⟩
    intro support hsupport
    constructor
    · intro other hreach hpath
      rcases List.mem_cons.mp hpath with rfl | hold
      · exact hfree.acyclic other .refl (.head' hsupport hreach)
      · exact hfree.avoids other (.head hsupport hreach) hold
    · intro other hreach
      exact hfree.acyclic other (.head hsupport hreach)
  · intro hexists
    rcases hexists with ⟨hfresh, hsupports⟩
    have hnoReturn : ∀ support ∈ supports element,
        ¬ Relation.ReflTransGen (RestsOn supports) support element :=
      fun support hsupport hreach =>
        (hsupports support hsupport).avoids element hreach List.mem_cons_self
    constructor
    · intro other hreach hpath
      rcases Relation.ReflTransGen.cases_head hreach with rfl | ⟨support, hsupport, hrest⟩
      · exact hfresh hpath
      · exact (hsupports support hsupport).avoids other hrest
          (List.mem_cons_of_mem _ hpath)
    · intro other hreach hcycle
      rcases Relation.ReflTransGen.cases_head hreach with rfl | ⟨support, hsupport, hrest⟩
      · obtain ⟨support, hsupport, hback⟩ := Relation.TransGen.head'_iff.mp hcycle
        exact hnoReturn support hsupport hback
      · exact (hsupports support hsupport).acyclic other hrest hcycle

theorem Independent.toNil {path : List κ} {element : κ}
    (hfree : Independent supports path element) : Independent supports [] element where
  avoids := by simp
  acyclic := hfree.acyclic

theorem Independent.ofLeads {path : List κ} {element : κ}
    (hfree : Independent supports [] element)
    (hleads : ∀ other ∈ path, Relation.TransGen (RestsOn supports) other element) :
    Independent supports path element where
  avoids := by
    intro other hreach hpath
    exact hfree.acyclic element .refl
      (Relation.TransGen.trans_right hreach (hleads other hpath))
  acyclic := hfree.acyclic

theorem Chain.changePath {path otherPath : List κ} {element : κ} {length : ℕ}
    (hchain : Chain supports path element length)
    (hfree : Independent supports otherPath element) :
    Chain supports otherPath element length := by
  induction hchain generalizing otherPath with
  | stop path element => exact .stop otherPath element
  | step _ hsupport _ ih =>
      obtain ⟨hfresh, hsupports⟩ := independent_iff.mp hfree
      exact .step hfresh hsupport (ih (hsupports _ hsupport))

/-! ## What a search should measure -/

/-- The length of the longest chain, and whether the path has no part in it. -/
structure IsMeasured (supports : κ → List κ) (path : List κ) (element : κ)
    (measured : Measured) : Prop where
  longest : IsGreatest {length | Chain supports path element length} measured.depth
  isIndependent_iff :
    measured.isIndependent = true ↔ Independent supports path element

theorem IsMeasured.unique {path : List κ} {element : κ} {measured other : Measured}
    (hmeasured : IsMeasured supports path element measured)
    (hother : IsMeasured supports path element other) : measured = other := by
  obtain ⟨depth, isIndependent⟩ := measured
  obtain ⟨otherDepth, otherIsIndependent⟩ := other
  have hdepth : depth = otherDepth := hmeasured.longest.unique hother.longest
  have hflag : isIndependent = otherIsIndependent :=
    Bool.eq_iff_iff.mpr
      (hmeasured.isIndependent_iff.trans hother.isIndependent_iff.symm)
  rw [hdepth, hflag]

/-- An element on the path has no chain but the one without steps. -/
theorem isMeasured_of_mem_path {path : List κ} {element : κ} (hmem : element ∈ path) :
    IsMeasured supports path element ⟨0, false⟩ where
  longest := by
    refine ⟨Chain.stop path element, ?_⟩
    intro length hchain
    cases hchain with
    | stop => exact le_rfl
    | step hfresh => exact absurd hmem hfresh
  isIndependent_iff := by
    simp only [Bool.false_eq_true, false_iff]
    exact fun hfree => hfree.avoids element .refl hmem

/-- What is independent of one path may be looked up for another. -/
theorem IsMeasured.changePath {path otherPath : List κ} {element : κ} {depth : ℕ}
    (hmeasured : IsMeasured supports path element ⟨depth, true⟩)
    (hfree : Independent supports otherPath element) :
    IsMeasured supports otherPath element ⟨depth, true⟩ where
  longest := by
    refine ⟨hmeasured.longest.1.changePath hfree, ?_⟩
    intro length hchain
    exact hmeasured.longest.2
      (hchain.changePath (hmeasured.isIndependent_iff.mp rfl))
  isIndependent_iff := by simpa using hfree

/-- The longest chain among those whose first step goes to one of `visited`. -/
structure IsMeasuredOver (supports : κ → List κ) (path visited : List κ)
    (measured : Measured) : Prop where
  attained : measured.depth = 0 ∨
    ∃ support ∈ visited, ∃ length, Chain supports path support length ∧
      measured.depth = length + 1
  bound : ∀ support ∈ visited, ∀ length, Chain supports path support length →
    length + 1 ≤ measured.depth
  isIndependent_iff : measured.isIndependent = true ↔
    ∀ support ∈ visited, Independent supports path support

theorem isMeasuredOver_nil (path : List κ) :
    IsMeasuredOver supports path [] ⟨0, true⟩ := by
  constructor <;> simp

theorem IsMeasuredOver.extend {path visited : List κ} {support : κ}
    {measured next : Measured}
    (hvisited : IsMeasuredOver supports path visited measured)
    (hnext : IsMeasured supports path support next) :
    IsMeasuredOver supports path (visited ++ [support]) (measured.extend next) where
  attained := by
    rcases le_total measured.depth (next.depth + 1) with hle | hle
    · right
      exact ⟨support, by simp, next.depth, hnext.longest.1, max_eq_right hle⟩
    · have hsame : (measured.extend next).depth = measured.depth := max_eq_left hle
      rw [hsame]
      refine hvisited.attained.imp_right ?_
      intro hexists
      rcases hexists with ⟨earlier, hmem, length, hchain, hlength⟩
      exact ⟨earlier, List.mem_append_left _ hmem, length, hchain, hlength⟩
  bound := by
    intro other hmem length hchain
    rcases List.mem_append.mp hmem with hearlier | hlast
    · exact (hvisited.bound other hearlier length hchain).trans (le_max_left _ _)
    · rw [List.mem_singleton.mp hlast] at hchain
      exact (Nat.succ_le_succ (hnext.longest.2 hchain)).trans (le_max_right _ _)
  isIndependent_iff := by
    simp only [Measured.extend, Bool.and_eq_true, hvisited.isIndependent_iff,
      hnext.isIndependent_iff, List.mem_append, List.mem_singleton]
    constructor
    · rintro ⟨hearlier, hlast⟩ other (hmem | rfl)
      · exact hearlier other hmem
      · exact hlast
    · intro hall
      exact ⟨fun other hmem => hall other (.inl hmem), hall support (.inr rfl)⟩

theorem IsMeasuredOver.whole {path : List κ} {element : κ} {measured : Measured}
    (hvisited : IsMeasuredOver supports (element :: path) (supports element) measured)
    (hfresh : element ∉ path) : IsMeasured supports path element measured where
  longest := by
    constructor
    · rcases hvisited.attained with hzero | ⟨support, hmem, length, hchain, hlength⟩
      · rw [hzero]
        exact Chain.stop path element
      · rw [hlength]
        exact Chain.step hfresh hmem hchain
    · intro length hchain
      cases hchain with
      | stop => exact Nat.zero_le _
      | step _ hsupport hrest => exact hvisited.bound _ hsupport _ hrest
  isIndependent_iff := by
    rw [hvisited.isIndependent_iff, independent_iff]
    exact (and_iff_right hfresh).symm

end Treatise.Weights
