import Treatise.Element.Catalog
import Treatise.Proofs.Element.Address

/-!
# Labels tell addresses apart

A label is an address in words.  The name of a part may hold commas, digits and
the names of classes, but no blank, so a label can be taken apart from the left:
up to the first space behind `Part` stands the part with a comma, up to the next
one the class of the heading, and then come a run of digits and what is
attached.  Hence no two addresses have the same label, and ids with one label
differ in superfluous zeros only.
-/

namespace Treatise

open Decimal

theorem Decimal.digits_injective : Function.Injective digits :=
  Function.LeftInverse.injective numberOf_digits

/-! ## The names in a label -/

theorem Category.className_injective : Function.Injective className := by
  intro category other hname
  have hfound := congrArg ofClassName? hname
  rw [ofClassName?_className, ofClassName?_className] at hfound
  exact Option.some.inj hfound

theorem Category.ne_space_of_mem_className (category : Category) :
    ∀ c ∈ category.className.toList, (c != ' ') = true := by
  have hname : (category.className.toList.all fun c => c != ' ') = true := by
    cases category <;> decide
  exact List.all_eq_true.mp hname

theorem Heading.category_injective : Function.Injective category := by
  intro heading other hcategory
  cases heading <;> cases other <;> first | rfl | cases hcategory

theorem Elaboration.category_injective : Function.Injective category := by
  intro kind other hcategory
  cases kind <;> cases other <;> first | rfl | cases hcategory

/-! ## Attachments -/

namespace Attachment

/-- The number of an attachment in a label. -/
def indexLabel : Option UInt32 → List Char
  | none => []
  | some index => ' ' :: digits index.toNat

def label (attachment : Attachment) : List Char :=
  attachment.kind.category.className.toList ++ indexLabel attachment.index

theorem indexLabel_injective : Function.Injective indexLabel := by
  intro index other hlabel
  cases index with
  | none =>
      cases other with
      | none => rfl
      | some word => cases hlabel
  | some word =>
      cases other with
      | none => cases hlabel
      | some otherWord =>
          have hdigits := (List.cons.inj hlabel).2
          rw [UInt32.toNat_inj.mp (digits_injective hdigits)]

theorem head?_indexLabel {index : Option UInt32} {c : Char}
    (hhead : (indexLabel index).head? = some c) : c = ' ' := by
  cases index with
  | none => cases hhead
  | some word => exact (Option.some.inj hhead).symm

theorem label_injective : Function.Injective label := by
  intro attachment other hlabel
  have hstop : ∀ index c, (indexLabel index).head? = some c → (c != ' ') = false := by
    intro index c hhead
    simp [head?_indexLabel hhead]
  obtain ⟨hclass, hindex⟩ := Text.append_inj_of_stop (Category.ne_space_of_mem_className _)
    (hstop _) (Category.ne_space_of_mem_className _) (hstop _) hlabel
  have hcategory := Category.className_injective (String.toList_injective hclass)
  obtain ⟨kind, index⟩ := attachment
  obtain ⟨otherKind, otherIndex⟩ := other
  rw [mk.injEq]
  exact ⟨Elaboration.category_injective hcategory, indexLabel_injective hindex⟩

end Attachment

/-! ## Addresses -/

namespace Address

/-- What stands in a label behind the number of the unit. -/
def labelEnding : Option Attachment → List Char
  | none => []
  | some attachment => ',' :: ' ' :: attachment.label

theorem toList_label (address : Address) :
    address.label.toList = "Part ".toList ++ ((address.part.toList ++ [',']) ++
      (' ' :: address.heading.category.className.toList ++
        (' ' :: (digits address.number.toNat ++ labelEnding address.attachment)))) := by
  obtain ⟨part, heading, number, attachment, isPartName⟩ := address
  rcases attachment with _ | ⟨kind, _ | index⟩ <;>
    simp [label, labelEnding, Attachment.label, Attachment.indexLabel, ofNat]

theorem labelEnding_injective : Function.Injective labelEnding := by
  intro attachment other hlabel
  cases attachment with
  | none =>
      cases other with
      | none => rfl
      | some otherAttachment => cases hlabel
  | some attachment =>
      cases other with
      | none => cases hlabel
      | some otherAttachment =>
          have htail := (List.cons.inj (List.cons.inj hlabel).2).2
          rw [Attachment.label_injective htail]

theorem head?_labelEnding {attachment : Option Attachment} {c : Char}
    (hhead : (labelEnding attachment).head? = some c) : c = ',' := by
  cases attachment with
  | none => cases hhead
  | some attachment => exact (Option.some.inj hhead).symm

theorem space_notMem_part (address : Address) : ' ' ∉ address.part.toList := by
  intro hmem
  exact absurd (address.part_isPartName.2 ' ' hmem).2 (by decide)

theorem label_injective : Function.Injective label := by
  intro address other hlabel
  have htext := congrArg String.toList hlabel
  rw [toList_label, toList_label] at htext
  -- Up to the next space: the part and its comma, and then the class of the heading.
  have hspace : ∀ rest c, (' ' :: rest).head? = some c → (c != ' ') = false := by
    intro rest c hhead
    simp [(Option.some.inj hhead).symm]
  have hpart : ∀ address : Address, ∀ c ∈ address.part.toList ++ [','], (c != ' ') = true := by
    intro address c hmem
    rw [bne_iff_ne]
    rintro rfl
    rcases List.mem_append.mp hmem with hpart | hcomma
    · exact address.space_notMem_part hpart
    · exact absurd hcomma (by decide)
  obtain ⟨hparts, hbehind⟩ := Text.append_inj_of_stop (hpart address) (hspace _) (hpart other)
    (hspace _) (List.append_cancel_left htext)
  obtain ⟨hheading, hnumbers⟩ := Text.append_inj_of_stop (Category.ne_space_of_mem_className _)
    (hspace _) (Category.ne_space_of_mem_className _) (hspace _) (List.cons.inj hbehind).2
  -- The digits of the number end at a comma or at the end of the label.
  have hdigits : ∀ n : ℕ, ∀ c ∈ digits n, c.isDigit = true :=
    fun n c hmem => isDigit_of_mem_digits hmem
  have hcomma : ∀ attachment c, (labelEnding attachment).head? = some c → c.isDigit = false := by
    intro attachment c hhead
    rw [head?_labelEnding hhead]
    decide
  obtain ⟨hnumber, hending⟩ := Text.append_inj_of_stop (hdigits _) (hcomma _) (hdigits _)
    (hcomma _) (List.cons.inj hnumbers).2
  have hcategory := Category.className_injective (String.toList_injective hheading)
  obtain ⟨part, heading, number, attachment, isPartName⟩ := address
  obtain ⟨otherPart, otherHeading, otherNumber, otherAttachment, otherIsPartName⟩ := other
  rw [mk.injEq]
  exact ⟨String.toList_injective (List.append_cancel_right hparts),
    Heading.category_injective hcategory, UInt32.toNat_inj.mp (digits_injective hnumber),
    labelEnding_injective hending⟩

end Address

/-! ## Ids -/

/-- The ids are spelled as addresses, and without superfluous zeros they are
spelled alike. -/
def DifferInZeros (id other : ElementId) : Prop :=
  ∃ spelling otherSpelling : Spelling,
    spelling.IsWellFormed ∧ spelling.text = id.text.toList ∧
      otherSpelling.IsWellFormed ∧ otherSpelling.text = other.text.toList ∧
        spelling.reduced = otherSpelling.reduced

theorem Address.spelling_injective : Function.Injective spelling := by
  intro address other hspelling
  have htext : address.text = other.text := by
    rw [text_eq_spelling, text_eq_spelling, hspelling]
  have hread := address.ofText?_text
  rw [htext, other.ofText?_text] at hread
  exact (Option.some.inj hread).symm

theorem address_eq_iff_differInZeros {id other : ElementId} {address otherAddress : Address}
    (haddress : id.address? = some address) (hother : other.address? = some otherAddress) :
    address = otherAddress ↔ DifferInZeros id other := by
  constructor
  · rintro rfl
    obtain ⟨spelling, hformed, hdenotes, htext⟩ := Address.exists_spelling haddress
    obtain ⟨otherSpelling, hotherFormed, hotherDenotes, hotherText⟩ :=
      Address.exists_spelling hother
    refine ⟨spelling, otherSpelling, hformed, htext, hotherFormed, hotherText, ?_⟩
    rw [← hdenotes.spelling_eq hformed, hotherDenotes.spelling_eq hotherFormed]
  · rintro ⟨spelling, otherSpelling, hformed, htext, hotherFormed, hotherText, hsame⟩
    obtain ⟨found, hfound, hdenotes, -⟩ := exists_address_of_spelling hformed htext
    obtain ⟨otherFound, hotherFound, hotherDenotes, -⟩ :=
      exists_address_of_spelling hotherFormed hotherText
    rw [haddress] at hfound
    rw [hother] at hotherFound
    obtain rfl := Option.some.inj hfound
    obtain rfl := Option.some.inj hotherFound
    apply Address.spelling_injective
    rw [hdenotes.spelling_eq hformed, hotherDenotes.spelling_eq hotherFormed, hsame]

theorem Address.space_mem_label (address : Address) : ' ' ∈ address.label.toList := by
  simp [toList_label]

namespace Catalog

variable {catalog : Catalog} {id other : ElementId}

theorem label_of_contains {address : Address} (hknown : catalog.contains id)
    (haddress : id.address? = some address) : catalog.label id = address.label := by
  rw [label, if_pos hknown, haddress]
  rfl

theorem label_of_address?_eq_none (hnone : id.address? = none) :
    catalog.label id = id.text := by
  simp [label, hnone]

/-- Where the text of an id has no space, a space in its label comes from an
address in words. -/
theorem space_mem_label_iff (hknown : catalog.contains id) (hspace : ' ' ∉ id.text.toList) :
    ' ' ∈ (catalog.label id).toList ↔ id.address?.isSome := by
  cases haddress : id.address? with
  | none => simp [label_of_address?_eq_none haddress, hspace]
  | some address => simp [label_of_contains hknown haddress, address.space_mem_label]

theorem address?_eq_of_label_eq (hknown : catalog.contains id)
    (hotherKnown : catalog.contains other) (hspace : ' ' ∉ id.text.toList)
    (hotherSpace : ' ' ∉ other.text.toList) (hlabel : catalog.label id = catalog.label other) :
    id.address? = other.address? ∧ (id.address? = none → id = other) := by
  have hboth : id.address?.isSome ↔ other.address?.isSome := by
    rw [← space_mem_label_iff hknown hspace, ← space_mem_label_iff hotherKnown hotherSpace,
      hlabel]
  cases haddress : id.address? with
  | none =>
      have hother : other.address? = none := by
        simpa [haddress] using hboth
      rw [label_of_address?_eq_none haddress, label_of_address?_eq_none hother] at hlabel
      exact ⟨hother.symm, fun _ => congrArg ElementId.mk hlabel⟩
  | some address =>
      obtain ⟨otherAddress, hother⟩ :=
        Option.isSome_iff_exists.mp (hboth.mp (Option.isSome_iff_exists.mpr ⟨address, haddress⟩))
      rw [label_of_contains hknown haddress, label_of_contains hotherKnown hother] at hlabel
      rw [hother, Address.label_injective hlabel]
      exact ⟨rfl, fun hnone => nomatch hnone⟩

end Catalog

/-- Ids with the same label have the same address, so they differ in zeros
only.  The labels that a catalog gives to the addresses it knows tell these
apart as well.  An id whose numbers are too large for an address keeps its text
for a label, and this has no space as an address in words has. -/
theorem labels_tell_apart :
    (∀ (id other : ElementId) (address otherAddress : Address),
      id.address? = some address → other.address? = some otherAddress →
        (address.label = otherAddress.label → address = otherAddress) ∧
          (address = otherAddress ↔ DifferInZeros id other)) ∧
    (∀ (catalog : Catalog) (id other : ElementId) (address otherAddress : Address),
      catalog.contains id → catalog.contains other →
        id.address? = some address → other.address? = some otherAddress →
          catalog.label id = catalog.label other → address = otherAddress) ∧
    ∀ (catalog : Catalog) (id other : ElementId),
      catalog.contains id → catalog.contains other →
        ' ' ∉ id.text.toList → ' ' ∉ other.text.toList →
          catalog.label id = catalog.label other →
            id.address? = other.address? ∧ (id.address? = none → id = other) := by
  refine ⟨?_, ?_, ?_⟩
  · intro id other address otherAddress haddress hother
    exact ⟨fun hlabel => Address.label_injective hlabel,
      address_eq_iff_differInZeros haddress hother⟩
  · intro catalog id other address otherAddress hknown hotherKnown haddress hother hlabel
    rw [Catalog.label_of_contains hknown haddress,
      Catalog.label_of_contains hotherKnown hother] at hlabel
    exact Address.label_injective hlabel
  · intro catalog id other hknown hotherKnown hspace hotherSpace hlabel
    exact Catalog.address?_eq_of_label_eq hknown hotherKnown hspace hotherSpace hlabel

/-- A part whose name ends in a comma, with superfluous zeros in the one id and
in the other, and a number that is too large. -/
theorem labels_tell_apart_comma :
    let id : ElementId := ⟨"I,.prop.0011.proof7"⟩
    let other : ElementId := ⟨"I,.prop.11.proof007"⟩
    let large : ElementId := ⟨"I,.prop.4294967296"⟩
    let catalog := Catalog.ofList
      [⟨id, .proof, none⟩, ⟨other, .proof, none⟩, ⟨large, .proposition, none⟩]
    catalog.contains id ∧ catalog.contains other ∧ catalog.contains large ∧
      catalog.label id = "Part I,, Proposition 11, Proof 7" ∧
      catalog.label other = "Part I,, Proposition 11, Proof 7" ∧
      id.address? = other.address? ∧ DifferInZeros id other ∧
      ' ' ∉ id.text.toList ∧ ' ' ∉ large.text.toList ∧
      catalog.label id ≠ catalog.label large := by
  intro id other large catalog
  have hknown : catalog.contains id := by
    simp [catalog, Catalog.ofList, Catalog.insert, Catalog.contains]
  have hotherKnown : catalog.contains other := by
    simp [catalog, Catalog.ofList, Catalog.insert, Catalog.contains]
  have hlargeKnown : catalog.contains large := by
    simp [catalog, Catalog.ofList, Catalog.insert, Catalog.contains]
  have hread : id.address?.map Address.label = some "Part I,, Proposition 11, Proof 7" := by
    decide
  have hotherRead : other.address?.map Address.label = some "Part I,, Proposition 11, Proof 7" := by
    decide
  have hlarge : large.address? = none := by
    decide
  obtain ⟨address, haddress, hlabel⟩ := Option.map_eq_some_iff.mp hread
  obtain ⟨otherAddress, hother, hotherLabel⟩ := Option.map_eq_some_iff.mp hotherRead
  rw [← Catalog.label_of_contains hknown haddress] at hlabel
  rw [← Catalog.label_of_contains hotherKnown hother] at hotherLabel
  obtain ⟨hids, hcatalog, hspaceless⟩ := labels_tell_apart
  have hsame := hcatalog catalog id other address otherAddress hknown hotherKnown haddress hother
    (hlabel.trans hotherLabel.symm)
  obtain ⟨-, hzeros⟩ := hids id other address otherAddress haddress hother
  have hspace : ' ' ∉ id.text.toList := by decide
  have hlargeSpace : ' ' ∉ large.text.toList := by decide
  have hapart : catalog.label id ≠ catalog.label large := by
    intro hlabels
    obtain ⟨haddresses, -⟩ :=
      hspaceless catalog id large hknown hlargeKnown hspace hlargeSpace hlabels
    rw [haddress, hlarge] at haddresses
    cases haddresses
  exact ⟨hknown, hotherKnown, hlargeKnown, hlabel, hotherLabel, by rw [haddress, hother, hsame],
    hzeros.mp hsame, hspace, hlargeSpace, hapart⟩

end Treatise
