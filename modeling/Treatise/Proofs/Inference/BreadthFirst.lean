import Mathlib.Order.Lattice.Nat
import Treatise.Proofs.Inference.Reachability

/-!
# The search finds what is near first

The search by a queue finds elements in the order of their distances from the
start.  An element in the queue is at most one step farther away than the one
in front, so what the front leads to belongs at the end.  It is no nearer than
that, because everything nearer than the front has been expanded.

The distance is that of the shortest path with at least one step.  So the
start itself may be far from itself, or may not be reached at all.
-/

namespace Treatise.Inference

variable {α : Type}

/-! ## Shortest paths -/

/-- A path with this many steps, of which there is at least one. -/
inductive ReachesIn (step : α → α → Prop) : ℕ → α → α → Prop
  | single {source target : α} (hstep : step source target) : ReachesIn step 1 source target
  | tail {length : ℕ} {source middle target : α} (hpath : ReachesIn step length source middle)
      (hstep : step middle target) : ReachesIn step (length + 1) source target

/-- The length of the shortest path with at least one step, also from an
element to itself. -/
noncomputable def distance (step : α → α → Prop) (source target : α) : ℕ :=
  sInf {length | ReachesIn step length source target}

section Distance

variable {step : α → α → Prop} {length : ℕ} {source middle target : α}

theorem transGen_iff_exists_reachesIn :
    Relation.TransGen step source target ↔ ∃ length, ReachesIn step length source target := by
  constructor
  · intro hpath
    induction hpath with
    | single hstep => exact ⟨1, .single hstep⟩
    | tail _ hstep ih =>
        obtain ⟨length, hlength⟩ := ih
        exact ⟨length + 1, hlength.tail hstep⟩
  · rintro ⟨length, hpath⟩
    induction hpath with
    | single hstep => exact .single hstep
    | tail _ hstep ih => exact ih.tail hstep

theorem reachesIn_distance (hpath : Relation.TransGen step source target) :
    ReachesIn step (distance step source target) source target :=
  Nat.sInf_mem (transGen_iff_exists_reachesIn.mp hpath)

theorem distance_le (hpath : ReachesIn step length source target) :
    distance step source target ≤ length :=
  Nat.sInf_le hpath

theorem ReachesIn.transGen (hpath : ReachesIn step length source target) :
    Relation.TransGen step source target :=
  transGen_iff_exists_reachesIn.mpr ⟨length, hpath⟩

theorem distance_of_step (hstep : step source target) : distance step source target = 1 := by
  have hle := distance_le (.single hstep)
  have hpath := reachesIn_distance (.single hstep)
  generalize distance step source target = length at *
  cases hpath with
  | single => rfl
  | @tail length _ _ _ hpath =>
      cases hpath <;> omega

theorem distance_le_succ (hpath : Relation.TransGen step source middle)
    (hstep : step middle target) :
    distance step source target ≤ distance step source middle + 1 :=
  distance_le ((reachesIn_distance hpath).tail hstep)

theorem step_or_exists_nearer (hpath : Relation.TransGen step source target) :
    step source target ∨ ∃ middle, Relation.TransGen step source middle ∧ step middle target ∧
      distance step source middle < distance step source target := by
  have hshortest := reachesIn_distance hpath
  generalize distance step source target = length at *
  cases hshortest with
  | single hstep => exact .inl hstep
  | @tail _ _ middle _ hpath hstep =>
      exact .inr ⟨middle, hpath.transGen, hstep, Nat.lt_succ_of_le (distance_le hpath)⟩

end Distance

/-! ## The search goes by distance -/

variable [DecidableEq α] {next : α → List α}

/-- How far a search from the start has to go for an element. -/
noncomputable def depth (next : α → List α) (start : α) : α → ℕ :=
  distance (fun source target => target ∈ next source) start

/-- Where the search stands once the start has been taken out: what it has
found goes by the distance, the queue is the end of it, and nothing in the
queue is nearer by more than one step than anything found. -/
structure LayerInvariant (next : α → List α) (start : α) (found queue : List α) : Prop where
  reached : ∀ target ∈ found,
    Relation.TransGen (fun source target => target ∈ next source) start target
  ordered : found.Pairwise fun target later => depth next start target ≤ depth next start later
  start_expanded : ∀ target ∈ next start, target ∈ found
  split : ∃ expanded, found = expanded ++ queue ∧
    ∀ source ∈ expanded, ∀ target ∈ next source, target ∈ found
  span : ∀ source ∈ queue, ∀ target ∈ found,
    depth next start target ≤ depth next start source + 1

namespace LayerInvariant

variable {start : α} {found queue : List α}

theorem initial (next : α → List α) (start : α) :
    LayerInvariant next start (newlyFound next [] start) (newlyFound next [] start) := by
  have hnext : ∀ target ∈ newlyFound next [] start, target ∈ next start :=
    fun target hmem => (mem_newlyFound_iff.mp hmem).1
  have hdepth : ∀ target ∈ newlyFound next [] start, depth next start target = 1 :=
    fun target hmem => distance_of_step (hnext target hmem)
  constructor
  · exact fun target hmem => .single (hnext target hmem)
  · apply List.pairwise_of_forall_mem_list
    intro target htarget later hlater
    rw [hdepth target htarget, hdepth later hlater]
  · exact fun target hmem => mem_newlyFound_iff.mpr ⟨hmem, List.not_mem_nil⟩
  · exact ⟨[], rfl, by simp⟩
  · intro source _ target htarget
    rw [hdepth target htarget]
    omega

theorem mem_expanded_of_nearer {element : α} {expanded : List α}
    (hgood : LayerInvariant next start (expanded ++ element :: queue) (element :: queue))
    (hexpanded : ∀ source ∈ expanded, ∀ target ∈ next source,
      target ∈ expanded ++ element :: queue)
    {target : α}
    (hreached : Relation.TransGen (fun source target => target ∈ next source) start target)
    (hnearer : depth next start target < depth next start element) : target ∈ expanded := by
  induction hdepth : depth next start target using Nat.strongRecOn generalizing target with
  | ind distance ih =>
      have hfound : target ∈ expanded ++ element :: queue := by
        rcases step_or_exists_nearer hreached with hfirst | ⟨middle, hmiddle, hlast, hless⟩
        · exact hgood.start_expanded target hfirst
        · have hmem := ih _ (hdepth ▸ hless) hmiddle (Nat.lt_trans hless hnearer) rfl
          exact hexpanded middle hmem target hlast
      have hqueue := (List.pairwise_append.mp hgood.ordered).2.1
      rcases List.mem_append.mp hfound with hmem | hqueued
      · exact hmem
      · -- What is queued is not nearer than the front of the queue.
        rcases List.mem_cons.mp hqueued with rfl | hlater
        · exact absurd hnearer (Nat.lt_irrefl _)
        · have hle := (List.pairwise_cons.mp hqueue).1 target hlater
          omega

theorem turn {element : α} (hgood : LayerInvariant next start found (element :: queue)) :
    LayerInvariant next start (found ++ newlyFound next found element)
      (queue ++ newlyFound next found element) := by
  obtain ⟨expanded, hsplit, hexpanded⟩ := hgood.split
  have helement : element ∈ found := by simp [hsplit]
  have hreached : ∀ target ∈ newlyFound next found element,
      Relation.TransGen (fun source target => target ∈ next source) start target :=
    fun target hmem => (hgood.reached element helement).tail (mem_newlyFound_iff.mp hmem).1
  have hdepth : ∀ target ∈ newlyFound next found element,
      depth next start target = depth next start element + 1 := by
    intro target hmem
    obtain ⟨hnext, hnew⟩ := mem_newlyFound_iff.mp hmem
    apply Nat.le_antisymm (distance_le_succ (hgood.reached element helement) hnext)
    by_contra hnear
    rcases step_or_exists_nearer (hreached target hmem) with
      hfirst | ⟨middle, hmiddle, hlast, hless⟩
    · exact hnew (hgood.start_expanded target hfirst)
    · subst hsplit
      have hnearer : depth next start middle < depth next start element := by
        unfold depth at *
        omega
      exact hnew (hexpanded middle
        (mem_expanded_of_nearer hgood hexpanded hmiddle hnearer) target hlast)
  have hspan : ∀ target ∈ found, depth next start target ≤ depth next start element + 1 :=
    hgood.span element List.mem_cons_self
  have hqueue : ∀ source ∈ queue, depth next start element ≤ depth next start source := by
    have hordered := hgood.ordered
    rw [hsplit] at hordered
    exact (List.pairwise_cons.mp (List.pairwise_append.mp hordered).2.1).1
  constructor
  · intro target hmem
    rcases List.mem_append.mp hmem with hold | hnew
    · exact hgood.reached target hold
    · exact hreached target hnew
  · refine List.pairwise_append.mpr ⟨hgood.ordered, ?_, ?_⟩
    · apply List.pairwise_of_forall_mem_list
      intro target htarget later hlater
      rw [hdepth target htarget, hdepth later hlater]
    · intro target htarget later hlater
      rw [hdepth later hlater]
      exact hspan target htarget
  · intro target hmem
    exact List.mem_append_left _ (hgood.start_expanded target hmem)
  · refine ⟨expanded ++ [element], by simp [hsplit], ?_⟩
    intro source hsource target hnext
    rcases List.mem_append.mp hsource with hold | hlast
    · exact List.mem_append_left _ (hexpanded source hold target hnext)
    · rw [List.mem_singleton.mp hlast] at hnext
      exact mem_append_newlyFound hnext
  · intro source hsource target htarget
    have hfar : depth next start element ≤ depth next start source := by
      rcases List.mem_append.mp hsource with hold | hnew
      · exact hqueue source hold
      · rw [hdepth source hnew]
        omega
    rcases List.mem_append.mp htarget with hold | hnew
    · have hle := hspan target hold
      omega
    · rw [hdepth target hnew]
      omega

end LayerInvariant

/-- The search finds the nearer elements first. -/
theorem pairwise_reachable (next : α → List α) (elementCount : ℕ) (start : α) :
    (reachable next elementCount start).Pairwise fun target later =>
      distance (fun source target => target ∈ next source) start target ≤
        distance (fun source target => target ∈ next source) start later := by
  -- The first turn finds the neighbours of the start.
  obtain ⟨_, _, hgood, -⟩ := findFrom_preserves next (fun _ => LayerInvariant next start)
    LayerInvariant.turn elementCount _ _ (LayerInvariant.initial next start)
  exact hgood.ordered

end Treatise.Inference
