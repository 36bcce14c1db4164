import Treatise.Proofs.Weights.Depth

/-!
# What the table of settled elements holds

The table is read without a look at the path, at every visit of the search and
also where the path did not exist yet when the entry was made.  Two facts make
this sound.  With an element all its supports are settled, hence everything
that it rests on; and no element of the path is settled, because an element is
settled only when the search has come back from it.  So nothing that a settled
element rests on lies on the path.

Where nothing that an element rests on lies on a cycle, its chains never repeat
an element, and the path plays no part in how long they are.
-/

namespace Treatise.Weights

/-- The lengths of the chains of steps from an element, whatever they repeat. -/
def chainLengths {κ : Type} (step : κ → κ → Prop) (start : κ) : Set ℕ :=
  {length | ∃ vertices : List κ, vertices.head? = some start ∧ vertices.IsChain step ∧
    vertices.length = length + 1}

section Search

variable {κ : Type} {supports : κ → List κ}

theorem chain_of_isChain {path vertices : List κ} {element : κ} {length : ℕ}
    (hfree : Independent supports path element) (hhead : vertices.head? = some element)
    (hsteps : vertices.IsChain (RestsOn supports)) (hlength : vertices.length = length + 1) :
    Chain supports path element length := by
  induction vertices generalizing path element length with
  | nil => cases hhead
  | cons first others ih =>
      obtain rfl : first = element := Option.some.inj hhead
      cases others with
      | nil =>
          obtain rfl : length = 0 := by simpa using hlength.symm
          exact .stop path first
      | cons support rest =>
          obtain ⟨hsupport, hrest⟩ := List.isChain_cons_cons.mp hsteps
          obtain ⟨hfresh, hsupports⟩ := independent_iff.mp hfree
          obtain ⟨shorter, rfl⟩ : ∃ shorter, length = shorter + 1 :=
            ⟨rest.length, by simpa using hlength.symm⟩
          have hlater := ih (hsupports support hsupport) rfl hrest (by simpa using hlength)
          exact .step hfresh hsupport hlater

theorem Independent.setOf_chain {path : List κ} {element : κ}
    (hfree : Independent supports path element) :
    {length | Chain supports path element length} =
      chainLengths (RestsOn supports) element := by
  ext length
  constructor
  · intro hchain
    obtain ⟨vertices, hwalk, -⟩ := exists_walk_of_chain hchain
    exact ⟨vertices, hwalk.head, hwalk.steps, hwalk.length_eq⟩
  · rintro ⟨vertices, hhead, hsteps, hlength⟩
    exact chain_of_isChain hfree hhead hsteps hlength

variable [BEq κ] [Hashable κ]

/-! ## The table during the search -/

/-- With an element its supports are settled, and the path is not. -/
structure TableInvariant (supports : κ → List κ) (path : List κ) (settled : Settled κ) :
    Prop where
  closed : ∀ element ∈ settled, ∀ support ∈ supports element, support ∈ settled
  offPath : ∀ other ∈ path, other ∉ settled

theorem TableInvariant.mem_of_reach {path : List κ} {settled : Settled κ} {element other : κ}
    (htable : TableInvariant supports path settled) (hsettled : element ∈ settled)
    (hreach : Relation.ReflTransGen (RestsOn supports) element other) : other ∈ settled := by
  induction hreach with
  | refl => exact hsettled
  | tail _ hsupport ih => exact htable.closed _ ih _ hsupport

theorem TableInvariant.shorten {path : List κ} {settled : Settled κ} {element : κ}
    (htable : TableInvariant supports (element :: path) settled) :
    TableInvariant supports path settled where
  closed := htable.closed
  offPath other hmem := htable.offPath other (List.mem_cons_of_mem _ hmem)

theorem TableInvariant.extend {path : List κ} {settled : Settled κ} {element : κ}
    (htable : TableInvariant supports path settled) (hunsettled : element ∉ settled) :
    TableInvariant supports (element :: path) settled where
  closed := htable.closed
  offPath := by
    intro other hmem
    rcases List.mem_cons.mp hmem with rfl | hold
    · exact hunsettled
    · exact htable.offPath other hold

variable [LawfulBEq κ]

theorem mem_of_entry {settled : Settled κ} {element : κ} {depth : ℕ}
    (hentry : settled[element]? = some depth) : element ∈ settled := by
  rw [Std.HashMap.mem_iff_isSome_getElem?, hentry]
  rfl

omit [LawfulBEq κ] in
theorem tableInvariant_empty : TableInvariant supports [] (∅ : Settled κ) := by
  constructor <;> simp

theorem TableInvariant.insert {path : List κ} {settled : Settled κ} {element : κ} (depth : ℕ)
    (htable : TableInvariant supports path settled) (hfresh : element ∉ path)
    (hsupports : ∀ support ∈ supports element, support ∈ settled) :
    TableInvariant supports path (settled.insert element depth) where
  closed := by
    intro other hother support hsupport
    rw [Std.HashMap.mem_insert] at hother ⊢
    right
    rcases hother with hsame | hold
    · obtain rfl : element = other := eq_of_beq hsame
      exact hsupports support hsupport
    · exact htable.closed other hold support hsupport
  offPath := by
    intro other hmem hother
    rcases Std.HashMap.mem_insert.mp hother with hsame | hold
    · obtain rfl : element = other := eq_of_beq hsame
      exact hfresh hmem
    · exact htable.offPath other hmem hold

theorem TableInvariant.independent {path : List κ} {settled : Settled κ} {element : κ}
    {depth : ℕ} (htable : TableInvariant supports path settled)
    (hsettled : SettledSound supports settled) (hentry : settled[element]? = some depth) :
    Independent supports path element where
  avoids := by
    intro other hreach hpath
    exact htable.offPath other hpath (htable.mem_of_reach (mem_of_entry hentry) hreach)
  acyclic := ((hsettled element depth hentry).isIndependent_iff.mp rfl).acyclic

/-- What the visits of some elements at the end of a path do to the table. -/
structure Settles (supports : κ → List κ) (path : List κ) (settled : Settled κ)
    (visited : List κ) (state : Measured × Settled κ) : Prop where
  table : TableInvariant supports path state.2
  grows : ∀ other ∈ settled, other ∈ state.2
  settles : state.1.isIndependent = true → ∀ element ∈ visited, element ∈ state.2

omit [LawfulBEq κ] in
theorem Settles.visit {bound : ℕ} {path visited : List κ} {settled : Settled κ}
    {state : Measured × Settled κ} {support : κ}
    (hvisited : Settles supports path settled visited state)
    (hnext : Settles supports path state.2 [support]
      (depthFrom supports bound support path state.2)) :
    Settles supports path settled (visited ++ [support])
      (visitSupport supports bound path state support) where
  table := hnext.table
  grows other hmem := hnext.grows other (hvisited.grows other hmem)
  settles := by
    intro hindependent other hmem
    obtain ⟨hearlier, hlast⟩ := Bool.and_eq_true_iff.mp hindependent
    rcases List.mem_append.mp hmem with hold | hnew
    · exact hnext.grows other (hvisited.settles hearlier other hold)
    · exact hnext.settles hlast other hnew

theorem depthFrom_settles {nodes : List κ}
    (hnodes : ∀ element, ∀ support ∈ supports element, element ∈ nodes)
    {bound : ℕ} {path : List κ} {element : κ} {settled : Settled κ}
    (hgood : PathInvariant supports nodes bound path element)
    (htable : TableInvariant supports path settled) :
    Settles supports path settled [element]
      (depthFrom supports bound element path settled) := by
  induction bound generalizing path element settled with
  | zero => exact absurd rfl hgood.bound_ne_zero
  | succ bound ih =>
      by_cases hmem : element ∈ path
      · rw [depthFrom_of_mem hmem]
        exact ⟨htable, fun _ hold => hold, by simp⟩
      cases hentry : settled[element]? with
      | some depth =>
          rw [depthFrom_of_settled hmem hentry]
          refine ⟨htable, fun _ hold => hold, fun _ => ?_⟩
          simpa using mem_of_entry hentry
      | none =>
          have hunsettled : element ∉ settled := (getElem?_eq_none_iff settled element).mp hentry
          have hvisited : Settles supports (element :: path) settled (supports element)
              ((supports element).foldl (visitSupport supports bound (element :: path))
                (⟨0, true⟩, settled)) := by
            apply foldl_preserves (Settles supports (element :: path) settled)
              ⟨htable.extend hunsettled, fun _ hold => hold, by simp⟩
            intro visited state support hsupport hstate
            exact hstate.visit (ih (hgood.afterStep hnodes hmem hsupport) hstate.table)
          rw [depthFrom_of_unsettled hmem hentry]
          simp only
          generalize (supports element).foldl _ _ = state at hvisited ⊢
          obtain ⟨⟨depth, isIndependent⟩, table⟩ := state
          cases isIndependent with
          | false => exact ⟨hvisited.table.shorten, hvisited.grows, by simp⟩
          | true =>
              refine ⟨hvisited.table.shorten.insert depth hmem (hvisited.settles rfl), ?_, ?_⟩
              · intro other hold
                exact Std.HashMap.mem_insert.mpr (.inr (hvisited.grows other hold))
              · simp

/-! ## Every visit of a search -/

/-- What the search is given when it comes to an element. -/
structure Visit (κ : Type) [BEq κ] [Hashable κ] where
  bound : ℕ
  element : κ
  path : List κ
  settled : Settled κ

/-- What the search finds at a visit, and the table that it leaves. -/
def Visit.outcome (supports : κ → List κ) (visit : Visit κ) : Measured × Settled κ :=
  depthFrom supports visit.bound visit.element visit.path visit.settled

/-- The visits that come of a visit.  An element that is neither on its path nor
settled has its supports visited one after the other at the end of the longer
path, each with the table that the supports before it leave. -/
inductive LeadsTo (supports : κ → List κ) (first : Visit κ) : Visit κ → Prop
  | here : LeadsTo supports first first
  | support {bound : ℕ} {element support : κ} {path before after : List κ}
      {settled : Settled κ}
      (hvisit : LeadsTo supports first ⟨bound + 1, element, path, settled⟩)
      (hfresh : element ∉ path) (hunsettled : settled[element]? = none)
      (hsupports : supports element = before ++ support :: after) :
      LeadsTo supports first ⟨bound, support, element :: path,
        (before.foldl (visitSupport supports bound (element :: path)) (⟨0, true⟩, settled)).2⟩

/-- What holds when the search comes to an element. -/
structure VisitedSoundly (supports : κ → List κ) (nodes : List κ) (visit : Visit κ) :
    Prop where
  path : PathInvariant supports nodes visit.bound visit.path visit.element
  sound : SettledSound supports visit.settled
  table : TableInvariant supports visit.path visit.settled

theorem VisitedSoundly.support {nodes : List κ}
    (hnodes : ∀ element, ∀ support ∈ supports element, element ∈ nodes)
    {bound : ℕ} {element support : κ} {path before after : List κ} {settled : Settled κ}
    (hvisit : VisitedSoundly supports nodes ⟨bound + 1, element, path, settled⟩)
    (hfresh : element ∉ path) (hunsettled : settled[element]? = none)
    (hsupports : supports element = before ++ support :: after) :
    VisitedSoundly supports nodes ⟨bound, support, element :: path,
      (before.foldl (visitSupport supports bound (element :: path))
        (⟨0, true⟩, settled)).2⟩ := by
  have hpath : ∀ other ∈ supports element,
      PathInvariant supports nodes bound (element :: path) other :=
    fun other hother => hvisit.path.afterStep hnodes hfresh hother
  have hbefore : SettledSound supports (before.foldl
        (visitSupport supports bound (element :: path)) (⟨0, true⟩, settled)).2 ∧
      TableInvariant supports (element :: path) (before.foldl
        (visitSupport supports bound (element :: path)) (⟨0, true⟩, settled)).2 := by
    apply foldl_preserves fun (_ : List κ) (state : Measured × Settled κ) =>
      SettledSound supports state.2 ∧ TableInvariant supports (element :: path) state.2
    · exact ⟨hvisit.sound,
        hvisit.table.extend ((getElem?_eq_none_iff settled element).mp hunsettled)⟩
    · intro visited state other hother hstate
      obtain ⟨hsound, htable⟩ := hstate
      have hmem : other ∈ supports element := by
        rw [hsupports]
        exact List.mem_append_left _ hother
      exact ⟨(depthFrom_measures hnodes (hpath other hmem) hsound).2,
        (depthFrom_settles hnodes (hpath other hmem) htable).table⟩
  obtain ⟨hsound, htable⟩ := hbefore
  exact ⟨hpath support (by simp [hsupports]), hsound, htable⟩

theorem LeadsTo.visitedSoundly {nodes : List κ}
    (hnodes : ∀ element, ∀ support ∈ supports element, element ∈ nodes)
    {first visit : Visit κ} (hfirst : VisitedSoundly supports nodes first)
    (hleads : LeadsTo supports first visit) : VisitedSoundly supports nodes visit := by
  induction hleads with
  | here => exact hfirst
  | support _ hfresh hunsettled hsupports ih =>
      exact ih.support hnodes hfresh hunsettled hsupports

end Search

/-! ## Weighted statements -/

section Store

variable {α : Type}

/-- Nothing that the element rests on, itself included, is on the path or on a
cycle of weighted statements. -/
structure IsUnaffected (config : WeightConfig α) (store : Store) (path : List ElementId)
    (id : ElementId) : Prop where
  avoids : ∀ other, Relation.ReflTransGen (WeightedStep config store) id other → other ∉ path
  acyclic : ∀ other, Relation.ReflTransGen (WeightedStep config store) id other →
    ¬ Relation.TransGen (WeightedStep config store) other other

theorem independent_supports_iff {config : WeightConfig α} {store : Store}
    {path : List ElementId} {id : ElementId} :
    Independent (supports config store) path id ↔ IsUnaffected config store path id := by
  constructor
  · intro hfree
    have havoids := hfree.avoids
    have hacyclic := hfree.acyclic
    rw [restsOn_supports] at havoids hacyclic
    exact ⟨havoids, hacyclic⟩
  · intro hfree
    constructor
    · rw [restsOn_supports]
      exact hfree.avoids
    · rw [restsOn_supports]
      exact hfree.acyclic

/-- The lengths of the walks that count for the depth of an element at the end
of a path: only the last vertex may be on the path or be a repetition. -/
def walkLengthsOff (config : WeightConfig α) (store : Store) (path : List ElementId)
    (id : ElementId) : Set ℕ :=
  {length | ∃ vertices, IsWalk (WeightedStep config store) id length vertices ∧
    ∀ vertex ∈ vertices.dropLast, vertex ∉ path}

theorem setOf_chain_supports (config : WeightConfig α) (store : Store) (path : List ElementId)
    (id : ElementId) :
    {length | Chain (supports config store) path id length} =
      walkLengthsOff config store path id := by
  ext length
  rw [walkLengthsOff, ← restsOn_supports]
  constructor
  · exact fun hchain => exists_walk_of_chain hchain
  · rintro ⟨vertices, hwalk, havoids⟩
    exact chain_of_walk hwalk havoids

/-- The visit by which the depth of an element is found. -/
def Visit.first (store : Store) (id : ElementId) : Visit ElementId :=
  ⟨store.nodeCount + 1, id, [], ∅⟩

theorem visitedSoundly_first (config : WeightConfig α) (store : Store) (id : ElementId) :
    VisitedSoundly (supports config store) store.nodes (Visit.first store id) where
  path := pathInvariant_initial config id (Nat.lt_succ_self store.nodeCount)
  sound := settledSound_empty
  table := tableInvariant_empty

theorem IsUnaffected.isGreatest_chainLengths {config : WeightConfig α} {store : Store}
    {path : List ElementId} {id : ElementId} {measured : Measured}
    (hfree : IsUnaffected config store path id)
    (hmeasured : IsMeasured (supports config store) path id measured) :
    IsGreatest (chainLengths (WeightedStep config store) id) measured.depth := by
  have hlongest := hmeasured.longest
  rwa [(independent_supports_iff.mpr hfree).setOf_chain, restsOn_supports] at hlongest

/-- A table that tells of elements for which the path plays no part how long
their longest chains are. -/
def TellsLongest (config : WeightConfig α) (store : Store) (path : List ElementId)
    (settled : Settled ElementId) : Prop :=
  ∀ id depth, settled[id]? = some depth →
    IsUnaffected config store path id ∧
      IsGreatest (chainLengths (WeightedStep config store) id) depth

theorem tellsLongest_of_table {config : WeightConfig α} {store : Store} {path : List ElementId}
    {settled : Settled ElementId} (hsound : SettledSound (supports config store) settled)
    (htable : TableInvariant (supports config store) path settled) :
    TellsLongest config store path settled := by
  intro id depth hentry
  have hfree := htable.independent hsound hentry
  have hmeasured := (hsound id depth hentry).changePath hfree
  have hunaffected := independent_supports_iff.mp hfree
  exact ⟨hunaffected, hunaffected.isGreatest_chainLengths hmeasured⟩

/-- At every visit the table is right for the path, and it still is when the
search leaves.  What is found is independent of the path if the path plays no
part in it, and then it is the longest chain whatever the path is. -/
theorem settled_at_every_visit (config : WeightConfig α) (store : Store) (id : ElementId)
    {visit : Visit ElementId}
    (hvisit : LeadsTo (supports config store) (Visit.first store id) visit) :
    let outcome := visit.outcome (supports config store)
    depthOf config store id = ((Visit.first store id).outcome (supports config store)).1.depth ∧
      0 < visit.bound ∧
      TellsLongest config store visit.path visit.settled ∧
      TellsLongest config store visit.path outcome.2 ∧
      ((∃ depth, outcome.1 = ⟨depth, true⟩) ↔ IsUnaffected config store visit.path visit.element) ∧
      ∀ depth, outcome.1 = ⟨depth, true⟩ →
        IsGreatest (chainLengths (WeightedStep config store) visit.element) depth ∧
          ∀ path, IsUnaffected config store path visit.element →
            IsGreatest (walkLengthsOff config store path visit.element) depth := by
  intro outcome
  obtain ⟨hpath, hsound, htable⟩ :=
    hvisit.visitedSoundly mem_nodes_of_mem_supports (visitedSoundly_first config store id)
  obtain ⟨hmeasured, hleft⟩ := depthFrom_measures mem_nodes_of_mem_supports hpath hsound
  have hsettles := depthFrom_settles mem_nodes_of_mem_supports hpath htable
  refine ⟨rfl, Nat.pos_of_ne_zero hpath.bound_ne_zero, tellsLongest_of_table hsound htable,
    tellsLongest_of_table hleft hsettles.table, ?_, ?_⟩
  · rw [← independent_supports_iff, ← hmeasured.isIndependent_iff]
    constructor
    · rintro ⟨depth, hfound⟩
      change outcome.1.isIndependent = true
      rw [hfound]
    · intro hindependent
      exact ⟨outcome.1.depth, congrArg (Measured.mk outcome.1.depth) hindependent⟩
  · intro depth hfound
    change IsMeasured _ _ _ outcome.1 at hmeasured
    rw [hfound] at hmeasured
    have hfree := hmeasured.isIndependent_iff.mp rfl
    refine ⟨(independent_supports_iff.mp hfree).isGreatest_chainLengths hmeasured, ?_⟩
    intro path hunaffected
    have hlongest :=
      (hmeasured.changePath (independent_supports_iff.mpr hunaffected)).longest
    rwa [setOf_chain_supports] at hlongest

theorem supports_ofList (config : WeightConfig α) (statements : List Statement)
    (id : ElementId) :
    supports config (Store.ofList statements) id =
      config.weighted.flatMap fun entry =>
        (statements.filter (Pattern.leaving id entry.1).accepts).map (·.object) := by
  simp only [supports, Store.matching_eq, Store.toList_ofList]

/-- `A` cites `C` after `B`, which cites it too, and then `E`, which cites `A`. -/
def sharedCitation : List Statement :=
  [⟨⟨"A"⟩, .cites, ⟨"B"⟩⟩, ⟨⟨"A"⟩, .cites, ⟨"C"⟩⟩, ⟨⟨"A"⟩, .cites, ⟨"E"⟩⟩,
    ⟨⟨"B"⟩, .cites, ⟨"C"⟩⟩, ⟨⟨"C"⟩, .cites, ⟨"D"⟩⟩, ⟨⟨"E"⟩, .cites, ⟨"A"⟩⟩]

/-- When the search comes to `C` for the second time, the table knows `B`, `C`
and `D`, though `A`, which stands on the path, lies on a cycle. -/
theorem settled_at_every_visit_shared :
    let config := WeightConfig.citationsOnly
    let store := Store.ofList sharedCitation
    let settled := (((∅ : Settled ElementId).insert ⟨"D"⟩ 0).insert ⟨"C"⟩ 1).insert ⟨"B"⟩ 2
    let visit : Visit ElementId := ⟨store.nodeCount, ⟨"C"⟩, [⟨"A"⟩], settled⟩
    LeadsTo (supports config store) (Visit.first store ⟨"A"⟩) visit ∧
      IsUnaffected config store [⟨"A"⟩] ⟨"B"⟩ ∧
      IsGreatest (chainLengths (WeightedStep config store) ⟨"B"⟩) 2 ∧
      (visit.outcome (supports config store)).1 = ⟨1, true⟩ ∧
      IsUnaffected config store [⟨"A"⟩] ⟨"C"⟩ ∧
      IsGreatest (walkLengthsOff config store [⟨"A"⟩] ⟨"C"⟩) 1 := by
  intro config store settled visit
  have hsteps := supports_ofList config sharedCitation
  have hA : supports config store ⟨"A"⟩ = [⟨"B"⟩] ++ ⟨"C"⟩ :: [⟨"E"⟩] := (hsteps _).trans rfl
  have hB : supports config store ⟨"B"⟩ = [⟨"C"⟩] := (hsteps _).trans rfl
  have hC : supports config store ⟨"C"⟩ = [⟨"D"⟩] := (hsteps _).trans rfl
  have hD : supports config store ⟨"D"⟩ = [] := (hsteps _).trans rfl
  have hcount : store.nodeCount = 5 := by
    rw [Store.nodeCount_eq_length_nodes, Store.nodes, Store.toList_ofList]
    decide
  have hleft : ([⟨"B"⟩].foldl (visitSupport (supports config store) store.nodeCount [⟨"A"⟩])
      (⟨0, true⟩, ∅)).2 = settled := by
    rw [hcount]
    simp [visitSupport, depthFrom, hB, hC, hD, Measured.extend, settled]
  have hvisit : LeadsTo (supports config store) (Visit.first store ⟨"A"⟩) visit := by
    change LeadsTo _ _ ⟨store.nodeCount, ⟨"C"⟩, [⟨"A"⟩], settled⟩
    rw [← hleft]
    exact .support .here List.not_mem_nil Std.HashMap.getElem?_empty hA
  have hentry : settled[(⟨"B"⟩ : ElementId)]? = some 2 := Std.HashMap.getElem?_insert_self
  have hknown : settled[(⟨"C"⟩ : ElementId)]? = some 1 := by
    simp only [settled, Std.HashMap.getElem?_insert]
    rfl
  have hfound : (visit.outcome (supports config store)).1 = ⟨1, true⟩ := by
    change (depthFrom _ store.nodeCount _ _ _).1 = _
    rw [hcount, depthFrom_of_settled (by decide) hknown]
  obtain ⟨-, -, htable, -, hindependent, hlongest⟩ :=
    settled_at_every_visit config store ⟨"A"⟩ hvisit
  obtain ⟨hunaffected, hgreatest⟩ := htable ⟨"B"⟩ 2 hentry
  have hapart := hindependent.mp ⟨1, hfound⟩
  obtain ⟨-, hoff⟩ := hlongest 1 hfound
  exact ⟨hvisit, hunaffected, hgreatest, hfound, hapart, hoff [⟨"A"⟩] hapart⟩

end Store

end Treatise.Weights
