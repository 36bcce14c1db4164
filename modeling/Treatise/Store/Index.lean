import Std.Data.HashMap
import Treatise.Statement

/-!
# The index of a store

The index knows statements by their positions: a graph of the elements with positions for edges,
and the positions for every predicate.  `Index.Describes` says what the index of a list holds.
Nothing depends on the order in which edges are listed, so a `Graph.Listing` stands for any.
-/

namespace Treatise

structure Incidence where
  outgoing : List Nat
  incoming : List Nat

namespace Incidence

def none : Incidence := ⟨[], []⟩

def leave (label : Nat) (incidence : Incidence) : Incidence :=
  { incidence with outgoing := label :: incidence.outgoing }

def enter (label : Nat) (incidence : Incidence) : Incidence :=
  { incidence with incoming := label :: incidence.incoming }

end Incidence

structure Graph where
  nodes : Array Incidence

namespace Graph

def empty : Graph := ⟨#[]⟩

def nodeCount (graph : Graph) : Nat := graph.nodes.size

/-- Adds a node without edges.  Its number is the count of the nodes before it. -/
def addNode (graph : Graph) : Graph := ⟨graph.nodes.push .none⟩

def modify (graph : Graph) (node : Nat) (change : Incidence → Incidence) : Graph :=
  ⟨graph.nodes.modify node change⟩

def addEdge (graph : Graph) (source target label : Nat) : Graph :=
  (graph.modify source (.leave label)).modify target (.enter label)

def incidenceOf (graph : Graph) (node : Nat) : Incidence := graph.nodes[node]?.getD .none

def outgoing (graph : Graph) (node : Nat) : List Nat := (graph.incidenceOf node).outgoing

def incoming (graph : Graph) (node : Nat) : List Nat := (graph.incidenceOf node).incoming

structure Listing where
  outgoing : Nat → List Nat
  incoming : Nat → List Nat

def listing (graph : Graph) : Listing := ⟨graph.outgoing, graph.incoming⟩

/-- A listing gives exactly the edges of a graph, on each side of a node in an order of its own. -/
structure Listing.Lists (listing : Listing) (graph : Graph) : Prop where
  outgoing_perm : ∀ node, (listing.outgoing node).Perm (graph.outgoing node)
  incoming_perm : ∀ node, (listing.incoming node).Perm (graph.incoming node)

theorem listing_lists (graph : Graph) : graph.listing.Lists graph where
  outgoing_perm _ := .refl _
  incoming_perm _ := .refl _

@[simp]
theorem nodeCount_addNode (graph : Graph) : graph.addNode.nodeCount = graph.nodeCount + 1 := by
  simp [addNode, nodeCount]

@[simp]
theorem nodeCount_modify (graph : Graph) (node : Nat) (change : Incidence → Incidence) :
    (graph.modify node change).nodeCount = graph.nodeCount := by
  simp [modify, nodeCount]

@[simp]
theorem nodeCount_addEdge (graph : Graph) (source target label : Nat) :
    (graph.addEdge source target label).nodeCount = graph.nodeCount := by
  simp [addEdge]

theorem incidenceOf_nodeCount (graph : Graph) : graph.incidenceOf graph.nodeCount = .none := by
  simp [incidenceOf, nodeCount]

theorem incidenceOf_addNode (graph : Graph) (node : Nat) :
    graph.addNode.incidenceOf node = graph.incidenceOf node := by
  by_cases hnew : node = graph.nodes.size
  · simp [incidenceOf, addNode, hnew]
  · simp [incidenceOf, addNode, Array.getElem?_push, hnew]

theorem incidenceOf_modify {graph : Graph} {node : Nat} (hnode : node < graph.nodeCount)
    (change : Incidence → Incidence) (other : Nat) :
    (graph.modify node change).incidenceOf other =
      if node = other then change (graph.incidenceOf other) else graph.incidenceOf other := by
  have hsize : node < graph.nodes.size := hnode
  simp only [incidenceOf, modify, Array.getElem?_modify]
  split
  · subst other
    simp [hsize]
  · rfl

theorem incidenceOf_addEdge {graph : Graph} {source target : Nat}
    (hsource : source < graph.nodeCount) (htarget : target < graph.nodeCount)
    (label node : Nat) :
    (graph.addEdge source target label).incidenceOf node =
      let left := if source = node then (graph.incidenceOf node).leave label
        else graph.incidenceOf node
      if target = node then left.enter label else left := by
  have hmodified : target < (graph.modify source (.leave label)).nodeCount := by
    simpa using htarget
  rw [addEdge, incidenceOf_modify hmodified, incidenceOf_modify hsource]

theorem outgoing_addEdge {graph : Graph} {source target : Nat}
    (hsource : source < graph.nodeCount) (htarget : target < graph.nodeCount)
    (label node : Nat) :
    (graph.addEdge source target label).outgoing node =
      if source = node then label :: graph.outgoing node else graph.outgoing node := by
  simp only [outgoing, incidenceOf_addEdge hsource htarget]
  split <;> split <;> rfl

theorem incoming_addEdge {graph : Graph} {source target : Nat}
    (hsource : source < graph.nodeCount) (htarget : target < graph.nodeCount)
    (label node : Nat) :
    (graph.addEdge source target label).incoming node =
      if target = node then label :: graph.incoming node else graph.incoming node := by
  simp only [incoming, incidenceOf_addEdge hsource htarget]
  split <;> split <;> rfl

end Graph

section Positions

variable {α : Type}

def positionsWhere (isMember : α → Bool) (elements : List α) : List Nat :=
  (elements.zipIdx.filter fun (element, _) => isMember element).map (·.2)

@[simp]
theorem positionsWhere_nil (isMember : α → Bool) : positionsWhere isMember [] = [] := rfl

theorem positionsWhere_true (elements : List α) :
    positionsWhere (fun _ => true) elements = List.range elements.length := by
  have hall : elements.zipIdx.filter (fun _ => true) = elements.zipIdx :=
    List.filter_eq_self.mpr fun _ _ => rfl
  rw [List.range_eq_range', ← List.zipIdx_map_snd, positionsWhere, hall]

theorem positionsWhere_append_singleton (isMember : α → Bool) (elements : List α)
    (element : α) :
    positionsWhere isMember (elements ++ [element]) =
      positionsWhere isMember elements ++
        if isMember element then [elements.length] else [] := by
  cases hmember : isMember element <;>
    simp [positionsWhere, List.zipIdx_append, hmember]

theorem pairwise_positionsWhere (isMember : α → Bool) (elements : List α) :
    (positionsWhere isMember elements).Pairwise (· ≤ ·) := by
  have hsublist : (positionsWhere isMember elements).Sublist (List.range elements.length) := by
    have hpositions := (List.filter_sublist (p := fun (element, _) => isMember element)
      (l := elements.zipIdx)).map (·.2)
    rwa [List.zipIdx_map_snd, ← List.range_eq_range'] at hpositions
  exact List.pairwise_le_range.sublist hsublist

theorem filterMap_getElem?_of_entries {elements : List α} {entries : List (α × Nat)}
    (hentries : ∀ entry ∈ entries, elements[entry.2]? = some entry.1) :
    (entries.map (·.2)).filterMap (elements[·]?) = entries.map (·.1) := by
  induction entries with
  | nil => rfl
  | cons entry rest ih =>
      have hfirst : elements[entry.2]? = some entry.1 := hentries entry (by simp)
      have hrest : (rest.map (·.2)).filterMap (elements[·]?) = rest.map (·.1) :=
        ih fun other hmem => hentries other (by simp [hmem])
      simp [hfirst, hrest]

theorem filterMap_positionsWhere (isMember : α → Bool) (elements : List α) :
    (positionsWhere isMember elements).filterMap (elements[·]?) = elements.filter isMember := by
  have hentries : ∀ entry ∈ elements.zipIdx.filter fun (element, _) => isMember element,
      elements[entry.2]? = some entry.1 := by
    intro entry hmem
    exact List.mem_zipIdx_iff_getElem?.mp (List.mem_filter.mp hmem).1
  calc
    (positionsWhere isMember elements).filterMap (elements[·]?) =
        (elements.zipIdx.filter fun (element, _) => isMember element).map (·.1) :=
      filterMap_getElem?_of_entries hentries
    _ = (elements.zipIdx.map (·.1)).filter isMember := by
      rw [List.filter_map]
      rfl
    _ = elements.filter isMember := by
      rw [List.zipIdx_map_fst]

theorem mergeSort_eq_positionsWhere {isMember : α → Bool} {elements : List α}
    {positions : List Nat} (hperm : positions.Perm (positionsWhere isMember elements)) :
    positions.mergeSort = positionsWhere isMember elements := by
  have hpairwise : positions.mergeSort.Pairwise fun i j => decide (i ≤ j) = true := by
    apply List.pairwise_mergeSort
    · intro i j k hij hjk
      simp only [decide_eq_true_eq] at hij hjk ⊢
      omega
    · intro i j
      simpa using Nat.le_total i j
  have hsorted : positions.mergeSort.Pairwise (· ≤ ·) := by
    simpa using hpairwise
  have hsame : positions.mergeSort.Perm (positionsWhere isMember elements) :=
    (positions.mergeSort_perm _).trans hperm
  exact hsame.eq_of_pairwise (fun _ _ _ _ => Nat.le_antisymm) hsorted
    (pairwise_positionsWhere isMember elements)

end Positions

structure Index where
  graph : Graph
  nodeOf : Std.HashMap ElementId Nat
  positionsOf : Std.HashMap Predicate (Array Nat)

namespace Index

def empty : Index := ⟨.empty, ∅, ∅⟩

def nodeCount (index : Index) : Nat := index.graph.nodeCount

/-- The edges at an element, where `list` gives those at a node; an unknown element has none. -/
def adjacent (index : Index) (list : Nat → List Nat) (id : ElementId) : List Nat :=
  match index.nodeOf[id]? with
  | some node => list node
  | none => []

def outgoing (index : Index) (id : ElementId) : List Nat :=
  index.adjacent index.graph.outgoing id

def incoming (index : Index) (id : ElementId) : List Nat :=
  index.adjacent index.graph.incoming id

def withPredicate (index : Index) (predicate : Predicate) : Array Nat :=
  index.positionsOf[predicate]?.getD #[]

def addNode (index : Index) (id : ElementId) : Index :=
  { index with
    graph := index.graph.addNode
    nodeOf := index.nodeOf.insert id index.nodeCount }

def ensureNode (index : Index) (id : ElementId) : Index × Nat :=
  match index.nodeOf[id]? with
  | some node => (index, node)
  | none =>
    let node := index.nodeCount
    (index.addNode id, node)

def addEntry (index : Index) (source target : Nat) (predicate : Predicate) (position : Nat) :
    Index where
  graph := index.graph.addEdge source target position
  nodeOf := index.nodeOf
  positionsOf :=
    index.positionsOf.alter predicate fun positions =>
      some ((positions.getD #[]).push position)

def insert (index : Index) (statement : Statement) (position : Nat) : Index :=
  let (index, source) := index.ensureNode statement.subject
  let (index, target) := index.ensureNode statement.object
  index.addEntry source target statement.predicate position

/-! ## Elements and their nodes -/

structure Numbers (index : Index) : Prop where
  lt : ∀ {id : ElementId} {node : Nat},
    index.nodeOf[id]? = some node → node < index.nodeCount
  injective : ∀ {id other : ElementId} {node : Nat},
    index.nodeOf[id]? = some node → index.nodeOf[other]? = some node → id = other
  size_nodeOf : index.nodeOf.size = index.nodeCount

theorem numbers_empty : empty.Numbers := by
  constructor <;> simp [empty, nodeCount, Graph.empty, Graph.nodeCount]

theorem nodeOf_addNode (index : Index) (id other : ElementId) :
    (index.addNode id).nodeOf[other]? =
      if id = other then some index.nodeCount else index.nodeOf[other]? := by
  simp [addNode, Std.HashMap.getElem?_insert]

theorem nodeCount_addNode (index : Index) (id : ElementId) :
    (index.addNode id).nodeCount = index.nodeCount + 1 :=
  Graph.nodeCount_addNode index.graph

theorem Numbers.addNode {index : Index} (hnumbers : index.Numbers) {id : ElementId}
    (hnew : index.nodeOf[id]? = none) : (index.addNode id).Numbers where
  lt := by
    intro other node hother
    rw [nodeCount_addNode]
    rw [nodeOf_addNode] at hother
    split at hother
    · have hnode : index.nodeCount = node := Option.some.inj hother
      omega
    · have hlt := hnumbers.lt hother
      omega
  injective := by
    intro first second node hfirst hsecond
    rw [nodeOf_addNode] at hfirst hsecond
    split at hfirst <;> split at hsecond
    · simp_all
    · have hlt := hnumbers.lt hsecond
      have hnode : index.nodeCount = node := Option.some.inj hfirst
      omega
    · have hlt := hnumbers.lt hfirst
      have hnode : index.nodeCount = node := Option.some.inj hsecond
      omega
    · exact hnumbers.injective hfirst hsecond
  size_nodeOf := by
    have habsent : id ∉ index.nodeOf := by simpa using hnew
    have hsize := hnumbers.size_nodeOf
    rw [nodeCount_addNode, ← hsize]
    simp [Index.addNode, Std.HashMap.size_insert, habsent]

/-- A new node has no edges, just as an unknown element has none. -/
theorem adjacent_addNode {index : Index} {id : ElementId} (hnew : index.nodeOf[id]? = none)
    {side : Incidence → List Nat} (hside : side .none = []) (other : ElementId) :
    (index.addNode id).adjacent (fun node => side (index.graph.addNode.incidenceOf node)) other =
      index.adjacent (fun node => side (index.graph.incidenceOf node)) other := by
  simp only [adjacent, nodeOf_addNode, Graph.incidenceOf_addNode]
  by_cases hsame : id = other
  · subst other
    simp [hnew, nodeCount, Graph.incidenceOf_nodeCount, hside]
  · simp [hsame]

structure Ensures (index : Index) (id : ElementId) (ensured : Index × Nat) : Prop where
  numbers : ensured.1.Numbers
  nodeOf_self : ensured.1.nodeOf[id]? = some ensured.2
  nodeOf_of_some : ∀ {other : ElementId} {node : Nat},
    index.nodeOf[other]? = some node → ensured.1.nodeOf[other]? = some node
  mem_nodeOf_iff : ∀ other, other ∈ ensured.1.nodeOf ↔ id = other ∨ other ∈ index.nodeOf
  outgoing_eq : ∀ other, ensured.1.outgoing other = index.outgoing other
  incoming_eq : ∀ other, ensured.1.incoming other = index.incoming other
  withPredicate_eq : ∀ predicate,
    ensured.1.withPredicate predicate = index.withPredicate predicate

theorem Numbers.ensureNode {index : Index} (hnumbers : index.Numbers) (id : ElementId) :
    Ensures index id (index.ensureNode id) := by
  unfold Index.ensureNode
  split
  next node hnode =>
    have hmem : id ∈ index.nodeOf := Std.HashMap.mem_iff_isSome_getElem?.mpr (by simp [hnode])
    refine ⟨hnumbers, hnode, fun hnode => hnode, ?_, fun _ => rfl, fun _ => rfl, fun _ => rfl⟩
    intro other
    constructor
    · exact .inr
    · rintro (rfl | hother)
      · exact hmem
      · exact hother
  next hnew =>
    refine ⟨hnumbers.addNode hnew, ?_, ?_, ?_, ?_, ?_, fun _ => rfl⟩
    · simp [nodeOf_addNode]
    · intro other node hother
      have hne : id ≠ other := by
        intro hsame
        rw [← hsame, hnew] at hother
        cases hother
      simp [nodeOf_addNode, hne, hother]
    · intro other
      simp [Index.addNode]
    · exact adjacent_addNode hnew rfl
    · exact adjacent_addNode hnew rfl

/-! ## Inserting a statement -/

structure Inserts (index : Index) (statement : Statement) (position : Nat) (inserted : Index) :
    Prop where
  numbers : inserted.Numbers
  mem_nodeOf_iff : ∀ id, id ∈ inserted.nodeOf ↔
    (statement.subject = id ∨ statement.object = id) ∨ id ∈ index.nodeOf
  outgoing_eq : ∀ id, inserted.outgoing id =
    if statement.subject = id then position :: index.outgoing id else index.outgoing id
  incoming_eq : ∀ id, inserted.incoming id =
    if statement.object = id then position :: index.incoming id else index.incoming id
  withPredicate_eq : ∀ predicate, inserted.withPredicate predicate =
    if statement.predicate = predicate then (index.withPredicate predicate).push position
    else index.withPredicate predicate

theorem Numbers.adjacent_of_edge {index : Index} (hnumbers : index.Numbers) {id : ElementId}
    {node position : Nat} (hnode : index.nodeOf[id]? = some node) {list after : Nat → List Nat}
    (hafter : ∀ other, after other = if node = other then position :: list other else list other)
    (other : ElementId) :
    index.adjacent after other =
      if id = other then position :: index.adjacent list other
      else index.adjacent list other := by
  unfold adjacent
  cases hother : index.nodeOf[other]? with
  | none =>
      have hne : id ≠ other := by
        intro hsame
        rw [hsame, hother] at hnode
        cases hnode
      simp [hne]
  | some otherNode =>
      by_cases hsame : id = other
      · subst other
        have hnodes : node = otherNode := Option.some.inj (hnode.symm.trans hother)
        simp [hafter, hnodes]
      · have hnodes : node ≠ otherNode := by
          intro hnodes
          exact hsame (hnumbers.injective hnode (hnodes ▸ hother))
        simp [hafter, hsame, hnodes]

theorem Numbers.addEntry {index : Index} (hnumbers : index.Numbers) {statement : Statement}
    {source target : Nat} (hsource : index.nodeOf[statement.subject]? = some source)
    (htarget : index.nodeOf[statement.object]? = some target) (position : Nat) :
    Inserts index statement position
      (index.addEntry source target statement.predicate position) where
  numbers := by
    have hcount : (index.addEntry source target statement.predicate position).nodeCount =
        index.nodeCount := Graph.nodeCount_addEdge ..
    constructor
    · intro id node hnode
      rw [hcount]
      exact hnumbers.lt hnode
    · exact hnumbers.injective
    · exact hnumbers.size_nodeOf.trans hcount.symm
  mem_nodeOf_iff := by
    have hmem : ∀ {id node}, index.nodeOf[id]? = some node → id ∈ index.nodeOf := by
      intro id node hnode
      exact Std.HashMap.mem_iff_isSome_getElem?.mpr (by simp [hnode])
    intro id
    constructor
    · exact .inr
    · rintro ((rfl | rfl) | hold)
      · exact hmem hsource
      · exact hmem htarget
      · exact hold
  outgoing_eq :=
    hnumbers.adjacent_of_edge hsource
      (Graph.outgoing_addEdge (hnumbers.lt hsource) (hnumbers.lt htarget) position)
  incoming_eq :=
    hnumbers.adjacent_of_edge htarget
      (Graph.incoming_addEdge (hnumbers.lt hsource) (hnumbers.lt htarget) position)
  withPredicate_eq := by
    intro predicate
    by_cases hsame : statement.predicate = predicate <;>
      simp [withPredicate, Index.addEntry, Std.HashMap.getElem?_alter, hsame]

theorem Numbers.insert {index : Index} (hnumbers : index.Numbers) (statement : Statement)
    (position : Nat) : Inserts index statement position (index.insert statement position) := by
  have hsource := hnumbers.ensureNode statement.subject
  have htarget := hsource.numbers.ensureNode statement.object
  have hinserts := htarget.numbers.addEntry (htarget.nodeOf_of_some hsource.nodeOf_self)
    htarget.nodeOf_self position
  constructor
  · exact hinserts.numbers
  · intro id
    have hmem := hinserts.mem_nodeOf_iff id
    rw [htarget.mem_nodeOf_iff, hsource.mem_nodeOf_iff] at hmem
    refine hmem.trans ⟨?_, ?_⟩
    · rintro (hmentions | hobject | hsubject | hold)
      · exact .inl hmentions
      · exact .inl (.inr hobject)
      · exact .inl (.inl hsubject)
      · exact .inr hold
    · rintro (hmentions | hold)
      · exact .inl hmentions
      · exact .inr (.inr (.inr hold))
  · intro id
    have hkept := (htarget.outgoing_eq id).trans (hsource.outgoing_eq id)
    rw [← hkept]
    exact hinserts.outgoing_eq id
  · intro id
    have hkept := (htarget.incoming_eq id).trans (hsource.incoming_eq id)
    rw [← hkept]
    exact hinserts.incoming_eq id
  · intro predicate
    have hkept := (htarget.withPredicate_eq predicate).trans (hsource.withPredicate_eq predicate)
    rw [← hkept]
    exact hinserts.withPredicate_eq predicate

/-! ## The index of a list -/

/-- The index of exactly these statements, in this order. -/
structure Describes (index : Index) (statements : List Statement) : Prop where
  numbers : index.Numbers
  mem_nodeOf_iff : ∀ id, id ∈ index.nodeOf ↔
    ∃ statement ∈ statements, statement.subject = id ∨ statement.object = id
  outgoing_eq : ∀ id,
    index.outgoing id = (positionsWhere (·.subject == id) statements).reverse
  incoming_eq : ∀ id,
    index.incoming id = (positionsWhere (·.object == id) statements).reverse
  withPredicate_eq : ∀ predicate,
    (index.withPredicate predicate).toList = positionsWhere (·.predicate == predicate) statements

theorem adjacent_perm {index : Index} {list other : Nat → List Nat}
    (hperm : ∀ node, (list node).Perm (other node)) (id : ElementId) :
    (index.adjacent list id).Perm (index.adjacent other id) := by
  unfold adjacent
  split
  next node _ => exact hperm node
  next => exact .refl _

theorem Describes.outgoing_perm {index : Index} {statements : List Statement}
    (hdescribes : index.Describes statements) {list : Nat → List Nat}
    (hlist : ∀ node, (list node).Perm (index.graph.outgoing node)) (id : ElementId) :
    (index.adjacent list id).Perm (positionsWhere (·.subject == id) statements) := by
  have hperm : (index.adjacent list id).Perm (index.outgoing id) := adjacent_perm hlist id
  rw [hdescribes.outgoing_eq] at hperm
  exact hperm.trans (List.reverse_perm _)

theorem Describes.incoming_perm {index : Index} {statements : List Statement}
    (hdescribes : index.Describes statements) {list : Nat → List Nat}
    (hlist : ∀ node, (list node).Perm (index.graph.incoming node)) (id : ElementId) :
    (index.adjacent list id).Perm (positionsWhere (·.object == id) statements) := by
  have hperm : (index.adjacent list id).Perm (index.incoming id) := adjacent_perm hlist id
  rw [hdescribes.incoming_eq] at hperm
  exact hperm.trans (List.reverse_perm _)

theorem describes_empty : empty.Describes [] where
  numbers := numbers_empty
  mem_nodeOf_iff id := by simp [empty]
  outgoing_eq id := by simp [outgoing, adjacent, empty]
  incoming_eq id := by simp [incoming, adjacent, empty]
  withPredicate_eq predicate := by simp [withPredicate, empty]

theorem Describes.insert {index : Index} {statements : List Statement}
    (hdescribes : index.Describes statements) (statement : Statement) :
    (index.insert statement statements.length).Describes (statements ++ [statement]) := by
  have hinserts := hdescribes.numbers.insert statement statements.length
  constructor
  · exact hinserts.numbers
  · intro id
    rw [hinserts.mem_nodeOf_iff, hdescribes.mem_nodeOf_iff]
    constructor
    · rintro (hnew | ⟨other, hmem, hmentions⟩)
      · exact ⟨statement, by simp, hnew⟩
      · exact ⟨other, by simp [hmem], hmentions⟩
    · rintro ⟨other, hmem, hmentions⟩
      rcases List.mem_append.mp hmem with hold | hnew
      · exact .inr ⟨other, hold, hmentions⟩
      · rw [List.mem_singleton.mp hnew] at hmentions
        exact .inl hmentions
  · intro id
    rw [hinserts.outgoing_eq, hdescribes.outgoing_eq, positionsWhere_append_singleton]
    by_cases hsame : statement.subject = id <;> simp [hsame]
  · intro id
    rw [hinserts.incoming_eq, hdescribes.incoming_eq, positionsWhere_append_singleton]
    by_cases hsame : statement.object = id <;> simp [hsame]
  · intro predicate
    have hold := hdescribes.withPredicate_eq predicate
    rw [hinserts.withPredicate_eq, positionsWhere_append_singleton]
    by_cases hsame : statement.predicate = predicate <;> simp [hsame, hold]

end Index

end Treatise
