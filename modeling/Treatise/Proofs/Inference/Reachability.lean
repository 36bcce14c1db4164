import Mathlib.Data.List.Perm.Subperm
import Mathlib.Logic.Relation
import Treatise.Grouping
import Treatise.Inference

/-!
# The search finds what steps lead to

The search by a queue finds exactly the elements that one or more steps lead
to, and finds each of them once.  When the queue is empty no step leaves what
has been found, and it becomes empty in time, because every element but the
start is queued where it is found and the elements come from a finite list.
-/

namespace Treatise.Inference

variable {α : Type} {next : α → List α}

/-- Where the search from a start stands before a turn: what it has found
comes from `elements` and is reached, there are turns enough to take out what
is queued and what is not found yet, and only what is queued is still to be
expanded. -/
structure SearchInvariant (next : α → List α) (start : α) (elements : List α)
    (turns : ℕ) (found queue : List α) : Prop where
  nodup : found.Nodup
  subset : ∀ target ∈ found, target ∈ elements
  enough : elements.length + queue.length ≤ found.length + turns
  reached : ∀ target ∈ found,
    Relation.TransGen (fun source target => target ∈ next source) start target
  queued : ∀ source ∈ queue, source = start ∨ source ∈ found
  expanded : ∀ source, source = start ∨ source ∈ found → source ∉ queue →
    ∀ target ∈ next source, target ∈ found

namespace SearchInvariant

variable {start : α} {elements : List α} {turns : ℕ} {found queue : List α}

theorem initial (start : α) (hturns : elements.length < turns) :
    SearchInvariant next start elements turns [] [start] where
  nodup := List.nodup_nil
  subset := by simp
  enough := by simpa using Nat.succ_le_of_lt hturns
  reached := by simp
  queued := by simp
  expanded := by simp

theorem queue_eq_nil (hgood : SearchInvariant next start elements 0 found queue) :
    queue = [] := by
  have hfound := (hgood.nodup.subperm hgood.subset).length_le
  have henough := hgood.enough
  exact List.length_eq_zero_iff.mp (by omega)

end SearchInvariant

variable [DecidableEq α]

theorem mem_newlyFound_iff {found : List α} {element target : α} :
    target ∈ newlyFound next found element ↔ target ∈ next element ∧ target ∉ found := by
  simp [newlyFound, List.mem_eraseDups]

theorem mem_append_newlyFound {found : List α} {element target : α}
    (hnext : target ∈ next element) : target ∈ found ++ newlyFound next found element := by
  by_cases hfound : target ∈ found
  · exact List.mem_append_left _ hfound
  · exact List.mem_append_right _ (mem_newlyFound_iff.mpr ⟨hnext, hfound⟩)

theorem nodup_append_newlyFound {found : List α} (hfound : found.Nodup) (element : α) :
    (found ++ newlyFound next found element).Nodup := by
  rw [List.nodup_append]
  refine ⟨hfound, nodup_eraseDups _, ?_⟩
  rintro target hold _ hnew rfl
  exact (mem_newlyFound_iff.mp hnew).2 hold

/-- What every turn preserves holds in the end, and then no turn is left or
nothing is queued. -/
theorem findFrom_preserves (next : α → List α) (Holds : ℕ → List α → List α → Prop)
    (hturn : ∀ {turns : ℕ} {found queue : List α} {element : α},
      Holds (turns + 1) found (element :: queue) →
        Holds turns (found ++ newlyFound next found element)
          (queue ++ newlyFound next found element))
    (turns : ℕ) (found queue : List α) (hstart : Holds turns found queue) :
    ∃ left rest, Holds left (findFrom next turns found queue) rest ∧
      (left = 0 ∨ rest = []) := by
  induction turns generalizing found queue with
  | zero => exact ⟨0, queue, hstart, .inl rfl⟩
  | succ turns ih =>
      cases queue with
      | nil => exact ⟨turns + 1, [], hstart, .inr rfl⟩
      | cons element queue => exact ih _ _ (hturn hstart)

namespace SearchInvariant

variable {start : α} {elements : List α} {turns : ℕ} {found queue : List α}

theorem turn {element : α} (helements : ∀ source, ∀ target ∈ next source, target ∈ elements)
    (hgood : SearchInvariant next start elements (turns + 1) found (element :: queue)) :
    SearchInvariant next start elements turns (found ++ newlyFound next found element)
      (queue ++ newlyFound next found element) where
  nodup := nodup_append_newlyFound hgood.nodup element
  subset := by
    intro target hmem
    rcases List.mem_append.mp hmem with hold | hnew
    · exact hgood.subset target hold
    · exact helements element target (mem_newlyFound_iff.mp hnew).1
  enough := by
    have henough := hgood.enough
    simp only [List.length_cons, List.length_append] at henough ⊢
    omega
  reached := by
    intro target hmem
    rcases List.mem_append.mp hmem with hold | hnew
    · exact hgood.reached target hold
    · have hnext := (mem_newlyFound_iff.mp hnew).1
      rcases hgood.queued element List.mem_cons_self with rfl | hfound
      · exact .single hnext
      · exact (hgood.reached element hfound).tail hnext
  queued := by
    intro source hmem
    rcases List.mem_append.mp hmem with hold | hnew
    · exact (hgood.queued source (List.mem_cons_of_mem _ hold)).imp_right
        (List.mem_append_left _)
    · exact .inr (List.mem_append_right _ hnew)
  expanded := by
    intro source hknown hnotQueued target hnext
    rw [List.mem_append, not_or] at hnotQueued
    by_cases helement : source = element
    · subst helement
      exact mem_append_newlyFound hnext
    · have hbefore : source = start ∨ source ∈ found :=
        hknown.imp_right fun hmem => (List.mem_append.mp hmem).resolve_right hnotQueued.2
      have hnotBefore : source ∉ element :: queue := by
        simp [helement, hnotQueued.1]
      exact List.mem_append_left _ (hgood.expanded source hbefore hnotBefore target hnext)

theorem atEnd {elementCount : ℕ} (start : α)
    (helements : ∀ source, ∀ target ∈ next source, target ∈ elements)
    (hcount : elements.length ≤ elementCount) :
    ∃ left, SearchInvariant next start elements left
      (reachable next elementCount start) [] := by
  obtain ⟨left, rest, hgood, hstopped⟩ :=
    findFrom_preserves next (SearchInvariant next start elements) (turn helements) _ _ _
      (initial start (Nat.lt_succ_of_le hcount))
  have hrest : rest = [] := by
    rcases hstopped with rfl | hnone
    · exact hgood.queue_eq_nil
    · exact hnone
  subst hrest
  exact ⟨left, hgood⟩

end SearchInvariant

/-- The search finds exactly what one or more steps lead to, if all steps end
in a list of at most `elementCount` elements. -/
theorem mem_reachable_iff {elements : List α} {elementCount : ℕ} {start target : α}
    (helements : ∀ source, ∀ target ∈ next source, target ∈ elements)
    (hcount : elements.length ≤ elementCount) :
    target ∈ reachable next elementCount start ↔
      Relation.TransGen (fun source target => target ∈ next source) start target := by
  obtain ⟨_, hend⟩ := SearchInvariant.atEnd start helements hcount
  constructor
  · exact hend.reached target
  · intro hsteps
    induction hsteps with
    | single hnext => exact hend.expanded start (.inl rfl) (by simp) _ hnext
    | tail _ hnext ih => exact hend.expanded _ (.inr ih) (by simp) _ hnext

end Treatise.Inference
