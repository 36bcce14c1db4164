import Treatise.Element.Catalog
import Treatise.Proofs.Decimal.Natural
import Treatise.Proofs.Text.Cut

/-!
# The grammar of ids

An id is an address if it is spelled as one: the name of a part, a heading and
a number between dots, and possibly the name of what is attached, with digits
after it or without.  The numbers of a spelling may have superfluous zeros in
front.  Nothing else is lost when an address is read, so written again it is the
spelling without these zeros, and each address is read back from its text.
-/

namespace Treatise

open Decimal

/-! ## Segments -/

theorem find?_eq_some_iff_key {κ τ : Type} [BEq τ] [LawfulBEq τ] {kinds : List κ} {key : κ → τ}
    (hfinds : ∀ kind, kinds.find? (key · == key kind) = some kind) {text : τ} {kind : κ} :
    kinds.find? (key · == text) = some kind ↔ text = key kind := by
  constructor
  · intro hfound
    have hkey := List.find?_some hfound
    exact (beq_iff_eq.mp hkey).symm
  · rintro rfl
    exact hfinds kind

theorem Heading.ofSegment?_eq_some_iff {segment : List Char} {heading : Heading} :
    ofSegment? segment = some heading ↔ segment = heading.segment.toList := by
  have hfinds : ∀ heading : Heading, ofSegment? heading.segment.toList = some heading := by
    intro heading
    cases heading <;> decide
  unfold ofSegment? at hfinds ⊢
  exact find?_eq_some_iff_key hfinds

theorem Elaboration.ofSegment?_eq_some_iff {segment : List Char} {kind : Elaboration} :
    ofSegment? segment = some kind ↔ segment = kind.segment.toList := by
  have hfinds : ∀ kind : Elaboration, ofSegment? kind.segment.toList = some kind := by
    intro kind
    cases kind <;> decide
  unfold ofSegment? at hfinds ⊢
  exact find?_eq_some_iff_key hfinds

theorem Heading.dot_notMem (heading : Heading) : '.' ∉ heading.segment.toList := by
  cases heading <;> decide

theorem Elaboration.isDigit_eq_false_of_mem (kind : Elaboration) {c : Char}
    (hmem : c ∈ kind.segment.toList) : c.isDigit = false := by
  have hname : (kind.segment.toList.all fun c => !c.isDigit) = true := by
    cases kind <;> decide
  simpa using List.all_eq_true.mp hname c hmem

theorem Elaboration.dot_notMem (kind : Elaboration) : '.' ∉ kind.segment.toList := by
  cases kind <;> decide

theorem dot_notMem_of_isDigit {text : List Char} (hdigits : ∀ c ∈ text, c.isDigit) :
    '.' ∉ text := by
  intro hmem
  exact absurd (hdigits '.' hmem) (by decide)

namespace Attachment

theorem exists_index_of_ofSegment? {segment : List Char} {attachment : Attachment}
    (hread : ofSegment? segment = some attachment) :
    ∃ index : Option (List Char), segment = attachment.kind.segment.toList ++ index.getD [] ∧
      (∀ numeral, index = some numeral → IsNumeral32 numeral) ∧
      index.map numberOf = attachment.index.map UInt32.toNat := by
  simp only [ofSegment?, Option.bind_eq_bind, Option.bind_eq_some_iff] at hread
  obtain ⟨kind, hkind, hindex⟩ := hread
  have hname := Elaboration.ofSegment?_eq_some_iff.mp hkind
  have hsplit : segment = kind.segment.toList ++ segment.dropWhile fun c => !c.isDigit := by
    rw [← hname, List.takeWhile_append_dropWhile]
  split at hindex
  next hnone =>
    obtain rfl := Option.some.inj hindex
    rw [hnone] at hsplit
    exact ⟨none, hsplit, by simp, rfl⟩
  next numeral hnumeral =>
    obtain ⟨word, hword, hattachment⟩ := Option.bind_eq_some_iff.mp hindex
    obtain rfl := Option.some.inj hattachment
    obtain ⟨hfits, hvalue⟩ := word32?_eq_some_iff.mp hword
    exact ⟨some _, hsplit, by simpa using hfits, by simpa using hvalue⟩

theorem ofSegment?_append {kind : Elaboration} {index : Option (List Char)}
    {word : Option UInt32} (hnumeral : ∀ numeral, index = some numeral → IsNumeral32 numeral)
    (hvalue : index.map numberOf = word.map UInt32.toNat) :
    ofSegment? (kind.segment.toList ++ index.getD []) = some ⟨kind, word⟩ := by
  have hname : ∀ c ∈ kind.segment.toList, !c.isDigit := by
    intro c hmem
    simp [kind.isDigit_eq_false_of_mem hmem]
  have hstop : ∀ c, (index.getD []).head? = some c → (!c.isDigit) = false := by
    intro c hhead
    cases index with
    | none => cases hhead
    | some numeral => simp [(hnumeral numeral rfl).isDigit c (List.mem_of_head? hhead)]
  have hkind : Elaboration.ofSegment? kind.segment.toList = some kind :=
    Elaboration.ofSegment?_eq_some_iff.mpr rfl
  simp only [ofSegment?, Text.takeWhile_append_of_stop hname hstop,
    Text.dropWhile_append_of_stop hname hstop, hkind, Option.bind_eq_bind, Option.bind_some]
  cases index with
  | none =>
      have hword : word = none := by
        simpa using hvalue.symm
      rw [hword]
      rfl
  | some numeral =>
      obtain ⟨word, rfl, hword⟩ := Option.map_eq_some_iff.mp hvalue.symm
      have hread := word32?_eq_some_iff.mpr ⟨hnumeral numeral rfl, hword.symm⟩
      have hne := (hnumeral numeral rfl).ne_nil
      rw [Option.getD_some]
      split
      next => exact absurd rfl hne
      next => simp [hread]

end Attachment

/-! ## Spellings -/

/-- A text in the form of an address, taken apart. -/
structure Spelling where
  part : List Char
  heading : Heading
  number : List Char
  /-- What is attached, and the digits after its name if there are any. -/
  attachment : Option (Elaboration × Option (List Char))

namespace Spelling

/-- What is attached as it stands behind the number. -/
def ending : Option (Elaboration × Option (List Char)) → List Char
  | none => []
  | some (kind, index) => '.' :: (kind.segment.toList ++ index.getD [])

def text (spelling : Spelling) : List Char :=
  spelling.part ++ '.' :: spelling.heading.segment.toList ++ '.' :: spelling.number ++
    ending spelling.attachment

/-- The part has a name, and each number is a numeral that fits in 32 bits. -/
structure IsWellFormed (spelling : Spelling) : Prop where
  part : IsPartName spelling.part
  number : IsNumeral32 spelling.number
  index : ∀ kind numeral, spelling.attachment = some (kind, some numeral) → IsNumeral32 numeral

/-- The spelling with each number written as short as possible. -/
def reduced (spelling : Spelling) : Spelling :=
  { spelling with
    number := withoutLeadingZeros spelling.number
    attachment := spelling.attachment.map fun (kind, index) =>
      (kind, index.map withoutLeadingZeros) }

/-- The address has the parts of the spelling, and the values of its numerals. -/
structure Denotes (spelling : Spelling) (address : Address) : Prop where
  part : spelling.part = address.part.toList
  heading : spelling.heading = address.heading
  number : numberOf spelling.number = address.number.toNat
  attachment : spelling.attachment.map (fun (kind, index) => (kind, index.map numberOf)) =
    address.attachment.map fun attachment =>
      (attachment.kind, attachment.index.map UInt32.toNat)

def segments (spelling : Spelling) : List (List Char) :=
  [spelling.part, spelling.heading.segment.toList, spelling.number] ++
    (spelling.attachment.map fun (kind, index) => kind.segment.toList ++ index.getD []).toList

theorem intercalate_segments (spelling : Spelling) :
    ['.'].intercalate spelling.segments = spelling.text := by
  obtain ⟨part, heading, number, attachment⟩ := spelling
  cases attachment <;> simp [segments, text, ending, List.intercalate]

theorem IsWellFormed.dot_notMem {spelling : Spelling} (hformed : spelling.IsWellFormed) :
    ∀ segment ∈ spelling.segments, '.' ∉ segment := by
  have hpart : '.' ∉ spelling.part := fun hmem => (hformed.part.2 '.' hmem).1 rfl
  have hnumber := dot_notMem_of_isDigit hformed.number.isDigit
  have hlast : ∀ kind index, spelling.attachment = some (kind, index) →
      '.' ∉ kind.segment.toList ++ index.getD [] := by
    intro kind index hattachment hmem
    rcases List.mem_append.mp hmem with hname | hindex
    · exact kind.dot_notMem hname
    · cases index with
      | none => cases hindex
      | some numeral =>
          exact dot_notMem_of_isDigit (hformed.index kind numeral hattachment).isDigit hindex
  intro segment hmem
  simp only [segments, List.mem_append, List.mem_cons, List.not_mem_nil, or_false,
    Option.mem_toList, Option.map_eq_some_iff] at hmem
  rcases hmem with (rfl | rfl | rfl) | ⟨⟨kind, index⟩, hattachment, rfl⟩
  · exact hpart
  · exact spelling.heading.dot_notMem
  · exact hnumber
  · exact hlast kind index hattachment

theorem IsWellFormed.segments_text {spelling : Spelling} (hformed : spelling.IsWellFormed) :
    Text.segments '.' spelling.text = spelling.segments := by
  rw [Text.segments_eq_splitOn, ← intercalate_segments]
  exact List.splitOn_intercalate '.' hformed.dot_notMem (by simp [segments])

end Spelling

/-! ## Reading -/

namespace Address

theorem unit?_eq_some_iff {part heading number : List Char} {attachment : Option Attachment}
    {address : Address} :
    ofSegments?.unit? part heading number attachment = some address ↔
      part = address.part.toList ∧ heading = address.heading.segment.toList ∧
        (IsNumeral32 number ∧ numberOf number = address.number.toNat) ∧
        attachment = address.attachment := by
  rw [← word32?_eq_some_iff, ← Heading.ofSegment?_eq_some_iff]
  simp only [ofSegments?.unit?, Option.bind_eq_bind, Option.bind_eq_some_iff]
  constructor
  · rintro ⟨found, hheading, word, hnumber, hunit⟩
    split at hunit
    next =>
      obtain rfl := Option.some.inj hunit
      exact ⟨by simp, hheading, hnumber, rfl⟩
    next => cases hunit
  · rintro ⟨rfl, hheading, hnumber, rfl⟩
    refine ⟨address.heading, hheading, address.number, hnumber, ?_⟩
    rw [dif_pos address.part_isPartName]
    simp

theorem exists_spelling {text : String} {address : Address}
    (hread : ofText? text = some address) :
    ∃ spelling : Spelling, spelling.IsWellFormed ∧ spelling.Denotes address ∧
      spelling.text = text.toList := by
  -- Dots between the segments give the text again, so it is enough to spell the segments.
  have htext : ['.'].intercalate (Text.segments '.' text.toList) = text.toList := by
    rw [Text.segments_eq_splitOn, List.intercalate_splitOn]
  rw [← htext]
  unfold ofText? at hread
  generalize Text.segments '.' text.toList = segments at hread
  unfold ofSegments? at hread
  split at hread
  next part heading number =>
    obtain ⟨rfl, rfl, ⟨hnumeral, hvalue⟩, hattachment⟩ := unit?_eq_some_iff.mp hread
    refine ⟨⟨_, address.heading, number, none⟩, ⟨address.part_isPartName, hnumeral, by simp⟩,
      ⟨rfl, rfl, hvalue, by simp [← hattachment]⟩, ?_⟩
    rw [← Spelling.intercalate_segments]
    rfl
  next part heading number last =>
    obtain ⟨attachment, hlast, hunit⟩ := Option.bind_eq_some_iff.mp hread
    obtain ⟨rfl, rfl, ⟨hnumeral, hvalue⟩, hattachment⟩ := unit?_eq_some_iff.mp hunit
    obtain ⟨index, rfl, hindex, hword⟩ := Attachment.exists_index_of_ofSegment? hlast
    have hformed : ∀ kind numeral,
        some (attachment.kind, index) = some (kind, some numeral) → IsNumeral32 numeral :=
      fun _ numeral hlast => hindex numeral (Prod.mk.inj (Option.some.inj hlast)).2
    refine ⟨⟨_, address.heading, number, some (attachment.kind, index)⟩,
      ⟨address.part_isPartName, hnumeral, hformed⟩,
      ⟨rfl, rfl, hvalue, by simp [← hattachment, hword]⟩, ?_⟩
    rw [← Spelling.intercalate_segments]
    rfl
  next => cases hread

theorem ofText?_of_denotes {spelling : Spelling} {address : Address}
    (hformed : spelling.IsWellFormed) (hdenotes : spelling.Denotes address) :
    ofText? (String.ofList spelling.text) = some address := by
  rw [ofText?, String.toList_ofList, hformed.segments_text]
  obtain ⟨part, heading, number, attachment⟩ := spelling
  have hunit : ofSegments?.unit? part heading.segment.toList number address.attachment =
      some address :=
    unit?_eq_some_iff.mpr ⟨hdenotes.part, by rw [← hdenotes.heading],
      ⟨hformed.number, hdenotes.number⟩, rfl⟩
  have hattachment := hdenotes.attachment
  cases attachment with
  | none =>
      have hnone : address.attachment = none := by
        simpa using hattachment.symm
      rw [hnone] at hunit
      exact hunit
  | some last =>
      obtain ⟨kind, index⟩ := last
      obtain ⟨found, hfound, hlast⟩ := Option.map_eq_some_iff.mp hattachment.symm
      obtain ⟨rfl, hindex⟩ := Prod.mk.inj hlast
      have hnumeral : ∀ numeral, index = some numeral → IsNumeral32 numeral := by
        intro numeral hindex
        exact hformed.index found.kind numeral (by rw [hindex])
      have hsegment : Attachment.ofSegment? (found.kind.segment.toList ++ index.getD []) =
          some found :=
        Attachment.ofSegment?_append hnumeral hindex.symm
      rw [hfound] at hunit
      change (Attachment.ofSegment? _ >>= fun attachment => _) = _
      rw [hsegment]
      exact hunit

/-! ## Writing -/

def spelling (address : Address) : Spelling where
  part := address.part.toList
  heading := address.heading
  number := digits address.number.toNat
  attachment := address.attachment.map fun attachment =>
    (attachment.kind, attachment.index.map fun index => digits index.toNat)

theorem text_eq_spelling (address : Address) :
    address.text = String.ofList address.spelling.text := by
  obtain ⟨part, heading, number, attachment, isPartName⟩ := address
  rw [← Spelling.intercalate_segments, text]
  congr 2
  rcases attachment with _ | ⟨kind, _ | index⟩ <;> rfl

theorem isWellFormed_spelling (address : Address) : address.spelling.IsWellFormed where
  part := address.part_isPartName
  number := isNumeral32_digits address.number
  index := by
    intro kind numeral hattachment
    obtain ⟨attachment, -, hlast⟩ := Option.map_eq_some_iff.mp hattachment
    obtain ⟨index, -, rfl⟩ := Option.map_eq_some_iff.mp (Prod.mk.inj hlast).2
    exact isNumeral32_digits index

theorem denotes_spelling (address : Address) : address.spelling.Denotes address where
  part := rfl
  heading := rfl
  number := numberOf_digits _
  attachment := by
    simp only [spelling, Option.map_map, Function.comp_def, numberOf_digits]

theorem ofText?_text (address : Address) : ofText? address.text = some address := by
  rw [text_eq_spelling]
  exact ofText?_of_denotes address.isWellFormed_spelling address.denotes_spelling

end Address

namespace Spelling

theorem IsWellFormed.exists_address {spelling : Spelling} (hformed : spelling.IsWellFormed) :
    ∃ address, spelling.Denotes address := by
  obtain ⟨part, heading, number, attachment⟩ := spelling
  obtain ⟨word, hword⟩ := hformed.number.exists_word
  have hattached : ∃ found : Option Attachment,
      attachment.map (fun (kind, index) => (kind, index.map numberOf)) =
        found.map fun attachment => (attachment.kind, attachment.index.map UInt32.toNat) := by
    rcases attachment with _ | ⟨kind, _ | numeral⟩
    · exact ⟨none, rfl⟩
    · exact ⟨some ⟨kind, none⟩, rfl⟩
    · obtain ⟨index, hindex⟩ := (hformed.index kind numeral rfl).exists_word
      exact ⟨some ⟨kind, some index⟩, by simp [hindex]⟩
  obtain ⟨found, hfound⟩ := hattached
  have hpart : IsPartName (String.ofList part).toList := by
    rw [String.toList_ofList]
    exact hformed.part
  exact ⟨⟨String.ofList part, heading, word, found, hpart⟩,
    ⟨String.toList_ofList.symm, rfl, hword, hfound⟩⟩

theorem Denotes.spelling_eq {spelling : Spelling} {address : Address}
    (hformed : spelling.IsWellFormed) (hdenotes : spelling.Denotes address) :
    address.spelling = spelling.reduced := by
  have hnumber : digits address.number.toNat = withoutLeadingZeros spelling.number := by
    rw [← hdenotes.number, digits_numberOf hformed.number.isDigit]
  have hindex : ∀ last, spelling.attachment = some last →
      last.2.map (digits ∘ numberOf) = last.2.map withoutLeadingZeros := by
    rintro ⟨kind, _ | numeral⟩ hattachment
    · rfl
    · exact congrArg some (digits_numberOf (hformed.index kind numeral hattachment).isDigit)
  have hattachment : address.spelling.attachment = spelling.reduced.attachment := by
    calc
      address.spelling.attachment = (address.attachment.map fun attachment =>
          (attachment.kind, attachment.index.map UInt32.toNat)).map
            fun (kind, index) => (kind, index.map digits) := by
        simp [Address.spelling, Function.comp_def]
      _ = spelling.attachment.map fun (kind, index) => (kind, index.map (digits ∘ numberOf)) := by
        rw [← hdenotes.attachment, Option.map_map]
        simp [Function.comp_def]
      _ = spelling.reduced.attachment := by
        apply Option.map_congr
        rintro ⟨kind, index⟩ hlast
        exact congrArg (Prod.mk kind) (hindex _ hlast)
  unfold reduced at hattachment ⊢
  rw [Address.spelling, Spelling.mk.injEq]
  exact ⟨hdenotes.part.symm, hdenotes.heading.symm, hnumber, hattachment⟩

end Spelling

/-! ## Elements -/

/-- What stands in an address behind the text of its owner. -/
def Address.ending (address : Address) : String :=
  match address.attachment with
  | none => ""
  | some attachment =>
    "." ++ attachment.kind.segment ++
      match attachment.index with
      | none => ""
      | some index => ofNat index.toNat

theorem Address.text_eq_owner (address : Address) :
    address.text = address.owner.text ++ address.ending := by
  rw [text_eq_spelling, text_eq_spelling, ending, owner]
  obtain ⟨part, heading, number, attachment, isPartName⟩ := address
  apply String.toList_injective
  rcases attachment with _ | ⟨kind, _ | index⟩ <;>
    simp [spelling, Spelling.text, Spelling.ending, ofNat]

theorem parent_of_ofId? {id : ElementId} {element : Element}
    (helement : Element.ofId? id = some element) :
    ∃ address, id.address? = some address ∧
      element.parent = if address.attachment.isSome then some ⟨address.owner.text⟩ else none := by
  obtain ⟨address, haddress, rfl⟩ := Option.map_eq_some_iff.mp helement
  refine ⟨address, haddress, ?_⟩
  rw [Address.parent]
  cases address.attachment <;> rfl

theorem exists_address_of_spelling {id : ElementId} {spelling : Spelling}
    (hformed : spelling.IsWellFormed) (htext : spelling.text = id.text.toList) :
    ∃ address, id.address? = some address ∧ spelling.Denotes address ∧
      address.text = String.ofList spelling.reduced.text := by
  obtain ⟨address, hdenotes⟩ := hformed.exists_address
  have hread := Address.ofText?_of_denotes hformed hdenotes
  rw [htext, String.ofList_toList] at hread
  refine ⟨address, hread, hdenotes, ?_⟩
  rw [Address.text_eq_spelling, hdenotes.spelling_eq hformed]

/-- Addresses are read back from their texts, ids are addresses if they are
spelled as such, and then nothing but zeros is lost.  Owners are addresses, and
the parents of elements are these owners. -/
theorem address_grammar :
    (∀ address : Address, address.text = address.owner.text ++ address.ending ∧
      Address.ofText? address.text = some address ∧
      Address.ofText? address.owner.text =
        some ⟨address.part, address.heading, address.number, none, address.part_isPartName⟩) ∧
    (∀ id : ElementId, id.address?.isSome ↔
      ∃ spelling : Spelling, spelling.IsWellFormed ∧ spelling.text = id.text.toList) ∧
    (∀ (id : ElementId) (spelling : Spelling), spelling.IsWellFormed →
      spelling.text = id.text.toList →
        ∃ address, id.address? = some address ∧ spelling.Denotes address ∧
          address.text = String.ofList spelling.reduced.text) ∧
    ∀ id element, Element.ofId? id = some element →
      ∃ address, id.address? = some address ∧
        element.parent =
          if address.attachment.isSome then some ⟨address.owner.text⟩ else none := by
  refine ⟨?_, ?_, fun _ _ => exists_address_of_spelling, fun _ _ => parent_of_ofId?⟩
  · intro address
    exact ⟨address.text_eq_owner, address.ofText?_text, address.owner.ofText?_text⟩
  · intro id
    constructor
    · intro hread
      obtain ⟨address, haddress⟩ := Option.isSome_iff_exists.mp hread
      obtain ⟨spelling, hformed, -, htext⟩ := Address.exists_spelling haddress
      exact ⟨spelling, hformed, htext⟩
    · rintro ⟨spelling, hformed, htext⟩
      obtain ⟨address, haddress, -⟩ := exists_address_of_spelling hformed htext
      exact Option.isSome_iff_exists.mpr ⟨address, haddress⟩

/-- A spelling of `I.prop.11.proof7` with superfluous zeros. -/
def Spelling.zeros : Spelling where
  part := "I".toList
  heading := .proposition
  number := "0011".toList
  attachment := some (.proof, some "007".toList)

theorem Spelling.isWellFormed_zeros : Spelling.zeros.IsWellFormed where
  part := by decide
  number := ⟨by decide, List.all_eq_true.mp (by decide), by decide⟩
  index := by
    intro kind numeral hattachment
    obtain rfl := Option.some.inj (Prod.mk.inj (Option.some.inj hattachment)).2
    exact ⟨by decide, List.all_eq_true.mp (by decide), by decide⟩

theorem address_grammar_zeros :
    let id : ElementId := ⟨"I.prop.0011.proof007"⟩
    Spelling.zeros.IsWellFormed ∧ Spelling.zeros.text = id.text.toList ∧
      Element.ofId? id = some ⟨id, .proof, some ⟨"I.prop.11"⟩⟩ ∧
      (∃ address, id.address? = some address ∧ address.text = "I.prop.11.proof7") ∧
      ∃ address, id.address? = some address ∧ some ⟨"I.prop.11"⟩ =
        if address.attachment.isSome then some (ElementId.mk address.owner.text) else none := by
  intro id
  have htext : Spelling.zeros.text = id.text.toList := by
    decide
  have helement : Element.ofId? id = some ⟨id, .proof, some ⟨"I.prop.11"⟩⟩ := by
    decide
  have hreduced : String.ofList Spelling.zeros.reduced.text = "I.prop.11.proof7" := by
    decide
  obtain ⟨-, -, hread, hparent⟩ := address_grammar
  obtain ⟨address, haddress, -, hshort⟩ :=
    hread id Spelling.zeros Spelling.isWellFormed_zeros htext
  rw [hreduced] at hshort
  exact ⟨Spelling.isWellFormed_zeros, htext, helement, ⟨address, haddress, hshort⟩,
    hparent id _ helement⟩

end Treatise
