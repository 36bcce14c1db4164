import Treatise.Json.Records
import Treatise.Proofs.Json.Codecs

/-!
# Records are read back from JSON

Statements, elements, relationships, chains and the rows of the reports survive
their texts.  Ids and names may be any text, and counts any number that a word
can hold; what is read never has another count.
-/

namespace Treatise.Json

open Codec

/-! ## Values of members -/

theorem recovers_elementId : elementId.Recovers fun _ => True := recovers_string.via fun _ => rfl

theorem recovers_ids : elementId.list.Recovers fun ids => ∀ id ∈ ids, True :=
  recovers_elementId.list

theorem recovers_parent : elementId.optional.Recovers fun _ => True :=
  recovers_elementId.optional fun _ hnull => by cases hnull

theorem recovers_category : category.Recovers fun _ => True :=
  recovers_alternatives Category.ofFieldName?_fieldName

theorem recovers_predicate : predicate.Recovers fun _ => True :=
  recovers_alternatives Predicate.ofWireName?_wireName

theorem recovers_direction : direction.Recovers fun _ => True :=
  recovers_alternatives Direction.ofName?_name

theorem recovers_chainKind : chainKind.Recovers fun _ => True :=
  recovers_alternatives ChainKind.ofName?_name

/-! ## Facts -/

theorem isRecord_statement : statement.IsRecord ["subject", "predicate", "object"] where
  nodup := by decide
  encode _ := ⟨_, rfl, rfl⟩
  decode json other hmembers := by simp only [statement, hmembers]

theorem recovers_statement : statement.Recovers fun _ => True where
  plain value := .ofFields (by simp [recovers_elementId.plain, recovers_predicate.plain])
  decode_encode value _ := by
    simp [statement, recordMembers?_ofFields, recovers_elementId.required_encode,
      recovers_predicate.required_encode]
  fits_of_decode _ _ _ := trivial

theorem isRecord_element : element.IsRecord ["id", "category", "parent_id"] where
  nodup := by decide
  encode _ := ⟨_, rfl, rfl⟩
  decode json other hmembers := by simp only [element, hmembers]

theorem recovers_element : element.Recovers fun _ => True where
  plain value := .ofFields (by
    simp [recovers_elementId.plain, recovers_category.plain, recovers_parent.plain])
  decode_encode value _ := by
    simp [element, recordMembers?_ofFields, withDefault, recovers_elementId.required_encode,
      recovers_category.required_encode, recovers_parent.decode_encode]
  fits_of_decode _ _ _ := trivial

/-! ## Relationships and chains -/

theorem isRecord_relationship :
    relationship.IsRecord ["subject", "predicate", "object", "direction", "inferred"] where
  nodup := by decide
  encode _ := ⟨_, rfl, rfl⟩
  decode json other hmembers := by simp only [relationship, hmembers]

theorem recovers_relationship : relationship.Recovers fun _ => True where
  plain value := .ofFields (by
    simp [recovers_elementId.plain, recovers_string.plain, recovers_direction.plain,
      recovers_bool.plain])
  decode_encode value _ := by
    simp [relationship, recordMembers?_ofFields, recovers_elementId.required_encode,
      recovers_string.required_encode, recovers_direction.required_encode,
      recovers_bool.required_encode]
  fits_of_decode _ _ _ := trivial

theorem recovers_pathStep : pathStep.Recovers fun _ => True where
  plain value := .ofFields (by simp [recovers_elementId.plain, recovers_predicate.plain])
  decode_encode value _ := by
    simp [pathStep, recordMembers?_ofFields, recovers_elementId.required_encode,
      recovers_predicate.required_encode]
  fits_of_decode _ _ _ := trivial

theorem recovers_path : pathStep.list.Recovers fun path => ∀ step ∈ path, True :=
  recovers_pathStep.list

theorem isRecord_chain :
    chain.IsRecord ["type", "start", "end", "relationship", "inferred", "path"] where
  nodup := by decide
  encode _ := ⟨_, rfl, rfl⟩
  decode json other hmembers := by simp only [chain, hmembers]

theorem recovers_chain : chain.Recovers fun _ => True where
  plain value := .ofFields (by
    simp [recovers_elementId.plain, recovers_predicate.plain, recovers_chainKind.plain,
      recovers_bool.plain, recovers_path.plain])
  decode_encode value _ := by
    simp [chain, recordMembers?_ofFields, recovers_elementId.required_encode,
      recovers_predicate.required_encode, recovers_chainKind.required_encode,
      recovers_bool.required_encode, recovers_path.required_encode]
  fits_of_decode _ _ _ := trivial

/-! ## Rows of reports -/

theorem isRecord_citationCount : citationCount.IsRecord ["element_id", "count"] where
  nodup := by decide
  encode _ := ⟨_, rfl, rfl⟩
  decode json other hmembers := by simp only [citationCount, hmembers]

theorem recovers_citationCount : citationCount.Recovers fun row => row.count < UInt64.size where
  plain value := .ofFields (by simp [recovers_elementId.plain, recovers_count.plain])
  decode_encode value hfits := by
    simp [citationCount, recordMembers?_ofFields, recovers_elementId.required_encode,
      recovers_count.required_encode hfits]
  fits_of_decode json row hdecode := by
    simp only [citationCount] at hdecode
    split at hdecode
    next =>
      simp only [Option.bind_eq_bind, Option.bind_eq_some_iff] at hdecode
      obtain ⟨id, -, count, hcount, hrow⟩ := hdecode
      obtain rfl := Option.some.inj hrow
      exact recovers_count.fits_of_required hcount
    next => cases hdecode

theorem isRecord_proofCount : proofCount.IsRecord ["proposition", "count", "proofs"] where
  nodup := by decide
  encode _ := ⟨_, rfl, rfl⟩
  decode json other hmembers := by simp only [proofCount, hmembers]

theorem recovers_proofCount : proofCount.Recovers fun row => row.count < UInt64.size where
  plain value := .ofFields (by
    simp [recovers_elementId.plain, recovers_count.plain, recovers_ids.plain])
  decode_encode value hfits := by
    simp [proofCount, recordMembers?_ofFields, recovers_elementId.required_encode,
      recovers_count.required_encode hfits, recovers_ids.required_encode]
  fits_of_decode json row hdecode := by
    simp only [proofCount] at hdecode
    split at hdecode
    next =>
      simp only [Option.bind_eq_bind, Option.bind_eq_some_iff] at hdecode
      obtain ⟨id, -, count, hcount, proofs, -, hrow⟩ := hdecode
      obtain rfl := Option.some.inj hrow
      exact recovers_count.fits_of_required hcount
    next => cases hdecode

theorem isRecord_predicateCount : predicateCount.IsRecord ["predicate", "count"] where
  nodup := by decide
  encode _ := ⟨_, rfl, rfl⟩
  decode json other hmembers := by simp only [predicateCount, hmembers]

theorem recovers_predicateCount : predicateCount.Recovers fun row => row.count < UInt64.size where
  plain value := .ofFields (by simp [recovers_predicate.plain, recovers_count.plain])
  decode_encode value hfits := by
    simp [predicateCount, recordMembers?_ofFields, recovers_predicate.required_encode,
      recovers_count.required_encode hfits]
  fits_of_decode json row hdecode := by
    simp only [predicateCount] at hdecode
    split at hdecode
    next =>
      simp only [Option.bind_eq_bind, Option.bind_eq_some_iff] at hdecode
      obtain ⟨verb, -, count, hcount, hrow⟩ := hdecode
      obtain rfl := Option.some.inj hrow
      exact recovers_count.fits_of_required hcount
    next => cases hdecode

/-! ## All records -/

theorem records_roundTrip :
    (statement.RoundTrips fun _ => True) ∧
      (element.RoundTrips fun _ => True) ∧
      (relationship.RoundTrips fun _ => True) ∧
      (chain.RoundTrips fun _ => True) ∧
      (citationCount.RoundTrips fun row => row.count < UInt64.size) ∧
      (proofCount.RoundTrips fun row => row.count < UInt64.size) ∧
      predicateCount.RoundTrips fun row => row.count < UInt64.size :=
  ⟨recovers_statement.roundTrips isRecord_statement,
    recovers_element.roundTrips isRecord_element,
    recovers_relationship.roundTrips isRecord_relationship,
    recovers_chain.roundTrips isRecord_chain,
    recovers_citationCount.roundTrips isRecord_citationCount,
    recovers_proofCount.roundTrips isRecord_proofCount,
    recovers_predicateCount.roundTrips isRecord_predicateCount⟩

/-! ## Texts that need escapes and unusual spellings -/

def quotedRow : CitationCount := ⟨⟨"\"\\\n\x01é\x7b"⟩, UInt64.size - 1⟩

def bareAxiom : Element := ⟨⟨"A"⟩, .axiomItem, none⟩

def citing : Statement := ⟨⟨"A"⟩, .cites, ⟨"B"⟩⟩

def citingFields : List (String × Value) :=
  [("subject", .text "A"), ("predicate", .text "cites"), ("object", .text "B")]

def noteField : String × Value := ("note", .array [.null])

/-- The fields from the last to the first, after one that is not known. -/
def citingReversed : Value := .ofFields (noteField :: citingFields.reverse)

theorem records_roundTrip_unusual :
    citationCount.compact quotedRow =
        "\x7b\"element_id\":\"\\\"\\\\\\n\\u0001é\x7b\",\"count\":18446744073709551615\x7d" ∧
      citationCount.ofText (citationCount.compact quotedRow) = some quotedRow ∧
      element.ofText "[ \"\\u0041\", \x7b\"axiom\":null\x7d, null ]" = some bareAxiom ∧
      element.ofText (element.compact bareAxiom) = some bareAxiom ∧
      citingReversed.compact =
        "\x7b\"note\":[null],\"object\":\"B\",\"predicate\":\"cites\",\"subject\":\"A\"\x7d" ∧
      statement.ofText citingReversed.compact = some citing := by
  rcases records_roundTrip with ⟨hstatement, helement, -, -, hcitation, -⟩
  have hread : element.ofText "[ \"\\u0041\", \x7b\"axiom\":null\x7d, null ]" = some bareAxiom := by
    decide +kernel
  have hspelling : Spelling citingFields citingReversed :=
    .object ⟨[noteField], by decide, List.reverse_perm (citingFields ++ [noteField])⟩
  have hplain : citingReversed.IsPlain :=
    .ofFields (by
      simp [citingFields, noteField, Value.IsPlain.text, Value.IsPlain.array, Value.IsPlain.null])
  refine ⟨by decide +kernel, hcitation.1 quotedRow (by decide), hread,
    (helement.2.1 _ _ hread).1, by decide +kernel, ?_⟩
  exact hstatement.2.2 citing _ _ trivial rfl hspelling hplain

end Treatise.Json
