import Treatise.Proofs.Element.Catalog
import Treatise.Proofs.FirstOccurrence
import Treatise.Proofs.Report.Tally
import Treatise.Proofs.Store.Lookup
import Treatise.Report

/-!
# Propositions with several proofs

A unit is reported when at least two proofs belong to it.  Its proofs stand in
an order of all proofs: those that the store declares come first, in the order
of their declarations, and the others follow in the order of their ids.  The
units stand by the number of their proofs and, with equal numbers, in the
order of their first proofs.

The catalog may list its elements in any order, and the report is the same.
-/

namespace Treatise

namespace Report

/-- An element is a proof when a type statement or the catalog says so. -/
def IsProof (store : Store) (catalog : Catalog) (id : ElementId) : Prop :=
  ⟨id, .instanceOf, ⟨"Proof"⟩⟩ ∈ store.toList ∨
    ∃ element, catalog.get? id = some element ∧ element.category = .proof

/-- The proofs whose ids are addresses and tell this unit. -/
def proofsOf (store : Store) (catalog : Catalog) (owner : ElementId) : Set ElementId :=
  {id | IsProof store catalog id ∧
    ∃ address, id.address? = some address ∧ address.owner.text = owner.text}

/-- The position of the first statement that declares a proof, which is behind
all statements where there is none. -/
def firstDeclaration (store : Store) (id : ElementId) : ℕ :=
  firstWith (fun statement => statement.predicate == .instanceOf &&
    statement.object.text == "Proof") (·.subject) store.toList id

/-- The order of all proofs. -/
def ProofBefore (store : Store) (id other : ElementId) : Prop :=
  firstDeclaration store id < firstDeclaration store other ∨
    firstDeclaration store id = firstDeclaration store other ∧ id.text < other.text

/-- The rows of the report. -/
structure ListsMultiProof (store : Store) (catalog : Catalog) (rows : List ProofCount) :
    Prop where
  proposition_iff : ∀ owner, owner ∈ rows.map (·.proposition) ↔
    ∃ id ∈ proofsOf store catalog owner, ∃ other ∈ proofsOf store catalog owner, id ≠ other
  nodup_proposition : (rows.map (·.proposition)).Nodup
  mem_proofs_iff : ∀ row ∈ rows, ∀ id,
    id ∈ row.proofs ↔ id ∈ proofsOf store catalog row.proposition
  nodup_proofs : ∀ row ∈ rows, row.proofs.Nodup
  proofs_ordered : ∀ row ∈ rows, row.proofs.Pairwise (ProofBefore store)
  count_eq : ∀ row ∈ rows, row.count = row.proofs.length
  ordered : rows.Pairwise fun row other =>
    other.count < row.count ∨
      row.count = other.count ∧ ∃ first later, row.proofs.head? = some first ∧
        other.proofs.head? = some later ∧ ProofBefore store first later

/-! ## The order of all proofs -/

theorem ofClassName?_eq_proof_iff {name : String} :
    Category.ofClassName? name = some .proof ↔ name = "Proof" := by
  constructor
  · intro hfound
    exact (Category.className_of_ofClassName? hfound).symm
  · rintro rfl
    exact Category.ofClassName?_className .proof

theorem declaredProofs_eq (store : Store) :
    declaredProofs store = ((store.toList.filter fun statement =>
      statement.predicate == .instanceOf && statement.object.text == "Proof").map
        (·.subject)).eraseDups := by
  have hclass : ∀ statement : Statement,
      (Category.ofClassName? statement.object.text == some .proof &&
          statement.predicate == .instanceOf) =
        (statement.predicate == .instanceOf && statement.object.text == "Proof") := by
    intro statement
    rw [Bool.and_comm, Bool.eq_iff_iff]
    simp only [Bool.and_eq_true, beq_iff_eq, ofClassName?_eq_proof_iff]
  simp only [declaredProofs, Store.matching_ofPredicate, List.filter_filter, hclass]

theorem mem_declaredProofs_iff {store : Store} {id : ElementId} :
    id ∈ declaredProofs store ↔ ⟨id, .instanceOf, ⟨"Proof"⟩⟩ ∈ store.toList := by
  rw [declaredProofs_eq, List.mem_eraseDups]
  simp only [List.mem_map, List.mem_filter, Bool.and_eq_true, beq_iff_eq]
  constructor
  · rintro ⟨⟨_, _, ⟨_⟩⟩, ⟨hmem, rfl, rfl⟩, rfl⟩
    exact hmem
  · intro hmem
    exact ⟨_, ⟨hmem, rfl, rfl⟩, rfl⟩

theorem firstDeclaration_lt_iff {store : Store} {id : ElementId} :
    firstDeclaration store id < store.toList.length ↔ id ∈ declaredProofs store := by
  rw [declaredProofs_eq, List.mem_eraseDups]
  exact firstWith_lt_length_iff

theorem firstDeclaration_of_undeclared {store : Store} {id : ElementId}
    (hundeclared : id ∉ declaredProofs store) :
    firstDeclaration store id = store.toList.length := by
  have hnot := mt firstDeclaration_lt_iff.mp hundeclared
  exact Nat.le_antisymm List.findIdx_le_length (Nat.le_of_not_lt hnot)

variable {store : Store} {catalog : Catalog} {elements : List Element}

theorem mem_undeclaredProofs_iff (hlists : catalog.Lists elements) {declared : List ElementId}
    {id : ElementId} :
    id ∈ undeclaredProofs declared elements ↔
      (∃ element, catalog.get? id = some element ∧ element.category = .proof) ∧
        id ∉ declared := by
  simp only [undeclaredProofs, List.mem_mergeSort, List.mem_filter, List.mem_map,
    hlists.mem_iff, beq_iff_eq, Bool.not_eq_true', List.contains_eq_mem, decide_eq_false_iff_not]
  apply and_congr_left
  intro _
  constructor
  · rintro ⟨element, ⟨hfound, hproof⟩, rfl⟩
    exact ⟨element, hfound, hproof⟩
  · rintro ⟨element, hfound, hproof⟩
    have hid := Catalog.id_of_get? hfound
    exact ⟨element, ⟨hid ▸ hfound, hproof⟩, hid⟩

theorem pairwise_undeclaredProofs (hlists : catalog.Lists elements) (declared : List ElementId) :
    (undeclaredProofs declared elements).Pairwise fun id other => id.text < other.text := by
  have hnodup : (undeclaredProofs declared elements).Nodup := by
    rw [undeclaredProofs, (List.mergeSort_perm _ _).nodup_iff]
    exact (hlists.nodup.sublist (List.filter_sublist.map _)).filter _
  have hsorted : (undeclaredProofs declared elements).Pairwise fun id other =>
      id.atMost other := by
    apply List.pairwise_mergeSort
    · intro id other third hfirst hsecond
      simp only [ElementId.atMost, decide_eq_true_eq] at hfirst hsecond ⊢
      exact String.le_trans hfirst hsecond
    · intro id other
      simpa [ElementId.atMost] using String.le_total id.text other.text
  apply (hsorted.and hnodup).imp
  rintro ⟨id⟩ ⟨other⟩ ⟨hle, hne⟩
  apply String.not_le.mp
  intro hge
  exact hne (congrArg ElementId.mk (String.le_antisymm (of_decide_eq_true hle) hge))

theorem undeclaredProofs_eq_of_lists {other : List Element} (hlists : catalog.Lists elements)
    (hother : catalog.Lists other) (declared : List ElementId) :
    undeclaredProofs declared elements = undeclaredProofs declared other := by
  apply List.Perm.eq_of_pairwise _ (pairwise_undeclaredProofs hlists declared)
    (pairwise_undeclaredProofs hother declared)
  · have hperm := ((((hlists.perm hother).filter fun element =>
      element.category == .proof).map (·.id)).filter fun id => !declared.contains id)
    exact ((List.mergeSort_perm _ _).trans hperm).trans (List.mergeSort_perm _ _).symm
  · intro id other _ _ hlt hgt
    exact absurd hgt (String.lt_asymm hlt)

theorem mem_proofs_iff (hlists : catalog.Lists elements) {id : ElementId} :
    id ∈ proofs store elements ↔ IsProof store catalog id := by
  rw [proofs, List.mem_append, mem_undeclaredProofs_iff hlists, mem_declaredProofs_iff, IsProof]
  tauto

theorem pairwise_proofs (store : Store) (hlists : catalog.Lists elements) :
    (proofs store elements).Pairwise (ProofBefore store) := by
  refine List.pairwise_append.mpr ⟨?_, ?_, ?_⟩
  · have hdeclared := pairwise_firstWith (fun statement => statement.predicate == .instanceOf &&
      statement.object.text == "Proof") (·.subject) store.toList
    rw [← declaredProofs_eq] at hdeclared
    exact hdeclared.imp .inl
  · apply (pairwise_undeclaredProofs hlists _).imp_of_mem
    intro id other hid hother hlt
    have hlast := (mem_undeclaredProofs_iff hlists).mp hid
    have hlast' := (mem_undeclaredProofs_iff hlists).mp hother
    right
    rw [firstDeclaration_of_undeclared hlast.2, firstDeclaration_of_undeclared hlast'.2]
    exact ⟨rfl, hlt⟩
  · intro id hid other hother
    have hlast := (mem_undeclaredProofs_iff hlists).mp hother
    left
    rw [firstDeclaration_of_undeclared hlast.2]
    exact firstDeclaration_lt_iff.mpr hid

theorem ProofBefore.ne {id other : ElementId} (hbefore : ProofBefore store id other) :
    id ≠ other := by
  rintro rfl
  rcases hbefore with hlt | ⟨-, hlt⟩
  · exact Nat.lt_irrefl _ hlt
  · exact String.lt_irrefl _ hlt

/-! ## Groups of proofs -/

theorem ownerOf?_eq_some_iff {id owner : ElementId} :
    ownerOf? id = some owner ↔
      ∃ address, id.address? = some address ∧ address.owner.text = owner.text := by
  obtain ⟨text⟩ := owner
  simp [ownerOf?]

theorem get_placed (proofs : List ElementId) (owner : ElementId) :
    (Grouping.ofPairs (placed proofs)).get owner =
      proofs.filter fun id => ownerOf? id == some owner := by
  rw [(Grouping.describes_ofPairs _).get_eq]
  induction proofs with
  | nil => rfl
  | cons id proofs ih =>
      cases hid : ownerOf? id with
      | none => simpa [placed, hid] using ih
      | some unit =>
          by_cases hunit : unit = owner
          · simpa [placed, hid, hunit] using ih
          · simpa [placed, hid, hunit] using ih

theorem keys_placed (proofs : List ElementId) :
    (Grouping.ofPairs (placed proofs)).keys = (proofs.filterMap ownerOf?).eraseDups := by
  have howners : (placed proofs).map (·.1) = proofs.filterMap ownerOf? := by
    simp [placed, List.map_filterMap, Function.comp_def]
  rw [(Grouping.describes_ofPairs _).keys_eq, howners]

theorem pairwise_placed {proofs : List ElementId} (hordered : proofs.Pairwise (ProofBefore store)) :
    (placed proofs).Pairwise fun pair later => ProofBefore store pair.2 later.2 := by
  apply hordered.filterMap
  intro id other hbefore pair hpair later hlater
  obtain ⟨_, -, rfl⟩ := Option.map_eq_some_iff.mp hpair
  obtain ⟨_, -, rfl⟩ := Option.map_eq_some_iff.mp hlater
  exact hbefore

/-- The row of a unit among these proofs. -/
def rowOf (proofs : List ElementId) (owner : ElementId) : ProofCount :=
  let found := proofs.filter fun id => ownerOf? id == some owner
  ⟨owner, found.length, found⟩

theorem multiProofBy_eq (store : Store) (elements : List Element) :
    multiProofBy store elements =
      rank (·.count) ((((proofs store elements).filterMap ownerOf?).eraseDups.map
        (rowOf (proofs store elements))).filter fun row => 1 < row.count) := by
  simp only [multiProofBy, get_placed, keys_placed]
  rfl

theorem mem_multiProofBy_iff {row : ProofCount} :
    row ∈ multiProofBy store elements ↔
      rowOf (proofs store elements) row.proposition = row ∧ 1 < row.count := by
  rw [multiProofBy_eq, (perm_rank _ _).mem_iff, List.mem_filter, List.mem_map, decide_eq_true_eq]
  apply and_congr_left
  intro hseveral
  constructor
  · rintro ⟨owner, -, rfl⟩
    rfl
  · intro hrow
    refine ⟨row.proposition, ?_, hrow⟩
    -- A unit that no proof belongs to has an empty row.
    have hsome : 0 < ((proofs store elements).filter fun id =>
        ownerOf? id == some row.proposition).length := by
      rw [← hrow] at hseveral
      exact Nat.zero_lt_of_lt hseveral
    obtain ⟨id, hmem⟩ := List.exists_mem_of_length_pos hsome
    rw [List.mem_filter, beq_iff_eq] at hmem
    rw [List.mem_eraseDups, List.mem_filterMap]
    exact ⟨id, hmem⟩

theorem mem_rowOf_iff (hlists : catalog.Lists elements) {owner id : ElementId} :
    id ∈ (rowOf (proofs store elements) owner).proofs ↔ id ∈ proofsOf store catalog owner := by
  rw [rowOf, List.mem_filter, mem_proofs_iff hlists, beq_iff_eq, ownerOf?_eq_some_iff]
  rfl

theorem pairwise_rowOf (hlists : catalog.Lists elements) (owner : ElementId) :
    (rowOf (proofs store elements) owner).proofs.Pairwise (ProofBefore store) :=
  (pairwise_proofs store hlists).filter _

theorem one_lt_count_rowOf_iff (hlists : catalog.Lists elements) {owner : ElementId} :
    1 < (rowOf (proofs store elements) owner).count ↔
      ∃ id ∈ proofsOf store catalog owner, ∃ other ∈ proofsOf store catalog owner,
        id ≠ other := by
  have hnodup : (rowOf (proofs store elements) owner).proofs.Nodup :=
    (pairwise_rowOf hlists owner).imp ProofBefore.ne
  have hcount : (rowOf (proofs store elements) owner).count =
      (rowOf (proofs store elements) owner).proofs.toFinset.card :=
    (List.toFinset_card_of_nodup hnodup).symm
  rw [hcount, Finset.one_lt_card]
  simp only [List.mem_toFinset, mem_rowOf_iff hlists]

theorem pairwise_rows (store : Store) (hlists : catalog.Lists elements) :
    (((proofs store elements).filterMap ownerOf?).eraseDups.map
      (rowOf (proofs store elements))).Pairwise fun row other =>
        ∃ first later, row.proofs.head? = some first ∧ other.proofs.head? = some later ∧
          ProofBefore store first later := by
  have hheads := Grouping.pairwise_head? (pairwise_placed (pairwise_proofs store hlists))
  simp only [get_placed, keys_placed] at hheads
  exact List.pairwise_map.mpr hheads

theorem listsMultiProof_multiProofBy (hlists : catalog.Lists elements) :
    ListsMultiProof store catalog (multiProofBy store elements) := by
  have hrows : ∀ row ∈ multiProofBy store elements,
      rowOf (proofs store elements) row.proposition = row :=
    fun row hmem => (mem_multiProofBy_iff.mp hmem).1
  have hordered : ∀ row ∈ multiProofBy store elements,
      row.proofs.Pairwise (ProofBefore store) := by
    intro row hmem
    rw [← hrows row hmem]
    exact pairwise_rowOf hlists _
  constructor
  · intro owner
    rw [← one_lt_count_rowOf_iff hlists, List.mem_map]
    constructor
    · rintro ⟨row, hmem, rfl⟩
      rw [hrows row hmem]
      exact (mem_multiProofBy_iff.mp hmem).2
    · intro hseveral
      exact ⟨rowOf (proofs store elements) owner,
        mem_multiProofBy_iff.mpr ⟨rfl, hseveral⟩, rfl⟩
  · rw [multiProofBy_eq, ((perm_rank _ _).map _).nodup_iff]
    refine List.Nodup.sublist (List.filter_sublist.map _) ?_
    rw [List.map_map]
    exact (List.map_id _).symm ▸ nodup_eraseDups _
  · intro row hmem id
    rw [← mem_rowOf_iff hlists, hrows row hmem]
  · intro row hmem
    exact (hordered row hmem).imp ProofBefore.ne
  · exact hordered
  · intro row hmem
    rw [← hrows row hmem]
    rfl
  · rw [multiProofBy_eq]
    exact pairwise_rank ((pairwise_rows store hlists).filter _)

/-- The report is complete and ordered, and the same whatever the order is in
which the catalog lists its elements. -/
theorem multiProof_listed (store : Store) (catalog : Catalog) {elements : List Element}
    (hlists : catalog.Lists elements) :
    ListsMultiProof store catalog (multiProofBy store elements) ∧
      multiProof store catalog = multiProofBy store elements := by
  refine ⟨listsMultiProof_multiProofBy hlists, ?_⟩
  have hsame := undeclaredProofs_eq_of_lists (Catalog.lists_elements catalog) hlists
  simp only [multiProof, multiProofBy, proofs, hsame]

/-! ## A unit under two spellings -/

def scatteredProofs : Store := .ofList
  [⟨⟨"I.prop.8.proof1"⟩, .instanceOf, ⟨"Proof"⟩⟩, ⟨⟨"I.prop.11.proof2"⟩, .instanceOf, ⟨"Proof"⟩⟩,
    ⟨⟨"conclusion"⟩, .instanceOf, ⟨"Proof"⟩⟩, ⟨⟨"I.prop.8.proof1"⟩, .instanceOf, ⟨"Proof"⟩⟩,
    ⟨⟨"I.prop.011.proof1"⟩, .instanceOf, ⟨"Proof"⟩⟩]

/-- One of the proofs is declared as well. -/
def scatteredElements : List Element :=
  [⟨⟨"I.prop.8.proof2"⟩, .proof, none⟩, ⟨⟨"I.prop.11.proof2"⟩, .proof, none⟩,
    ⟨⟨"I.prop.11"⟩, .proposition, none⟩, ⟨⟨"I.prop.11.proof"⟩, .proof, none⟩]

theorem proofs_scattered : proofs scatteredProofs scatteredElements =
    [⟨"I.prop.8.proof1"⟩, ⟨"I.prop.11.proof2"⟩, ⟨"conclusion"⟩, ⟨"I.prop.011.proof1"⟩,
      ⟨"I.prop.11.proof"⟩, ⟨"I.prop.8.proof2"⟩] := by
  have hdeclared : declaredProofs scatteredProofs =
      [⟨"I.prop.8.proof1"⟩, ⟨"I.prop.11.proof2"⟩, ⟨"conclusion"⟩, ⟨"I.prop.011.proof1"⟩] := by
    simp only [declaredProofs_eq, scatteredProofs, Store.toList_ofList]
    decide +kernel
  have hundeclared : ((scatteredElements.filter fun element =>
      element.category == .proof).map (·.id)).filter (fun id =>
        !(declaredProofs scatteredProofs).contains id) =
      [⟨"I.prop.8.proof2"⟩, ⟨"I.prop.11.proof"⟩] := by
    rw [hdeclared]
    decide +kernel
  have horder : ElementId.atMost ⟨"I.prop.8.proof2"⟩ ⟨"I.prop.11.proof"⟩ = false := by
    decide +kernel
  rw [proofs, undeclaredProofs, hundeclared, hdeclared]
  simp [List.mergeSort, horder]

theorem multiProof_scattered :
    (Catalog.ofList scatteredElements).Lists scatteredElements ∧
      multiProof scatteredProofs (Catalog.ofList scatteredElements) =
        [⟨⟨"I.prop.11"⟩, 3, [⟨"I.prop.11.proof2"⟩, ⟨"I.prop.011.proof1"⟩, ⟨"I.prop.11.proof"⟩]⟩,
          ⟨⟨"I.prop.8"⟩, 2, [⟨"I.prop.8.proof1"⟩, ⟨"I.prop.8.proof2"⟩]⟩] := by
  have hlists : (Catalog.ofList scatteredElements).Lists scatteredElements :=
    Catalog.lists_ofList (by decide)
  refine ⟨hlists, ?_⟩
  have hrows : (((proofs scatteredProofs scatteredElements).filterMap ownerOf?).eraseDups.map
      (rowOf (proofs scatteredProofs scatteredElements))).filter (fun row => 1 < row.count) =
      [⟨⟨"I.prop.8"⟩, 2, [⟨"I.prop.8.proof1"⟩, ⟨"I.prop.8.proof2"⟩]⟩,
        ⟨⟨"I.prop.11"⟩, 3,
          [⟨"I.prop.11.proof2"⟩, ⟨"I.prop.011.proof1"⟩, ⟨"I.prop.11.proof"⟩]⟩] := by
    rw [proofs_scattered]
    decide +kernel
  rw [(multiProof_listed scatteredProofs _ hlists).2, multiProofBy_eq, hrows]
  simp [rank, List.mergeSort]

end Report

end Treatise
