import Mathlib.Data.List.Nodup
import Treatise.Json.Codec
import Treatise.Proofs.Json.Compact

/-!
# Codecs that recover what they wrote

A codec recovers the values that fit if it writes plain values only, if reading
undoes that, and if what it reads always fits.  Then the compact text of a value
is read as that value, and whatever text a value was read from, its compact text
stands for it from then on.

The members of a record are found by their names, so neither their order nor
the members with other names matter, and the names may be left out altogether.
-/

namespace Treatise.Json

/-! ## Members of records -/

section Members

variable {fields members : List (String × Value)}

/-- Fields as the members of an object. -/
def named (fields : List (String × Value)) : List (Content × Value) :=
  fields.map fun field => (some field.1, field.2)

theorem ofFields_eq_object (fields : List (String × Value)) :
    Value.ofFields fields = .object (named fields) := rfl

theorem named_injective : Function.Injective named := by
  apply List.map_injective_iff.mpr
  intro field other hsame
  simpa [Prod.ext_iff] using hsame

theorem mem_of_member? {name : String} {value : Value}
    (hmember : member? (named members) name = some value) : (name, value) ∈ members := by
  obtain ⟨found, hfound, rfl⟩ := Option.map_eq_some_iff.mp hmember
  obtain ⟨field, hfield, rfl⟩ := List.mem_map.mp (List.mem_of_find?_eq_some hfound)
  have hname : field.1 = name := by simpa using List.find?_some hfound
  rwa [← hname]

theorem member?_of_unique {name : String} {value : Value} (hmem : (name, value) ∈ members)
    (hunique : ∀ other, (name, other) ∈ members → other = value) :
    member? (named members) name = some value := by
  cases hmember : member? (named members) name with
  | none =>
      have hnone := List.find?_eq_none.mp (Option.map_eq_none_iff.mp hmember) (some name, value)
      simp [named, hmem] at hnone
  | some other => rw [hunique other (mem_of_member? hmember)]

/-- The fields in any order, and others with other names among them. -/
def AreMembers (fields members : List (String × Value)) : Prop :=
  ∃ others : List (String × Value), (∀ other ∈ others, other.1 ∉ fields.map Prod.fst) ∧
    members.Perm (fields ++ others)

theorem AreMembers.mem_iff (hmembers : AreMembers fields members) {name : String}
    (hname : name ∈ fields.map Prod.fst) (value : Value) :
    (name, value) ∈ members ↔ (name, value) ∈ fields := by
  rcases hmembers with ⟨others, hothers, hperm⟩
  rw [hperm.mem_iff, List.mem_append]
  constructor
  · intro hmem
    rcases hmem with hfield | hother
    · exact hfield
    · exact absurd hname (hothers _ hother)
  · intro hfield
    exact .inl hfield

theorem AreMembers.count_le_one (hmembers : AreMembers fields members)
    (hnodup : (fields.map Prod.fst).Nodup) {name : String} (hname : name ∈ fields.map Prod.fst) :
    (members.map Prod.fst).count name ≤ 1 := by
  rcases hmembers with ⟨others, hothers, hperm⟩
  have hforeign : (others.map Prod.fst).count name = 0 := by
    rw [List.count_eq_zero]
    intro hmem
    rcases List.mem_map.mp hmem with ⟨other, hother, rfl⟩
    exact hothers other hother hname
  have honce := List.nodup_iff_count_le_one.mp hnodup name
  rw [(hperm.map Prod.fst).count_eq, List.map_append, List.count_append]
  omega

theorem AreMembers.areUnambiguous (hmembers : AreMembers fields members)
    (hnodup : (fields.map Prod.fst).Nodup) :
    areUnambiguous (fields.map Prod.fst) (named members) := by
  have honce : ∀ name ∈ fields.map Prod.fst,
      ((named members).countP fun member => member.1 == some name) ≤ 1 := by
    intro name hname
    have hcount := hmembers.count_le_one hnodup hname
    rw [List.count_eq_countP, List.countP_map] at hcount
    simpa [named, List.countP_map, Function.comp_def] using hcount
  have hnames : ∀ member ∈ named members, member.1.isSome := by
    intro member hmem
    obtain ⟨field, -, rfl⟩ := List.mem_map.mp hmem
    rfl
  simp only [Json.areUnambiguous, Bool.and_eq_true, List.all_eq_true, decide_eq_true_eq]
  exact ⟨hnames, honce⟩

theorem recordMembers?_of_members (hnodup : (fields.map Prod.fst).Nodup)
    (hmembers : AreMembers fields members) :
    recordMembers? (fields.map Prod.fst) (.ofFields members) =
      some (fields.map fun field => some field.2) := by
  rw [ofFields_eq_object, recordMembers?, if_pos (hmembers.areUnambiguous hnodup), List.map_map,
    Option.some.injEq]
  apply List.map_congr_left
  intro field hfield
  have hname : field.1 ∈ fields.map Prod.fst := List.mem_map_of_mem hfield
  apply member?_of_unique ((hmembers.mem_iff hname field.2).mpr hfield)
  intro other hother
  have hsame :=
    List.inj_on_of_nodup_map hnodup ((hmembers.mem_iff hname other).mp hother) hfield rfl
  exact congrArg Prod.snd hsame

/-- The ways to write a record: its fields in any order and among others, or
their values alone. -/
inductive Spelling (fields : List (String × Value)) : Value → Prop where
  | object {members : List (String × Value)} (hmembers : AreMembers fields members) :
      Spelling fields (.ofFields members)
  | array : Spelling fields (.array (fields.map Prod.snd))

theorem Spelling.recordMembers?_eq {spelling : Value} (hspelling : Spelling fields spelling)
    {names : List String} (hnames : fields.map Prod.fst = names) (hnodup : names.Nodup) :
    recordMembers? names spelling = some (fields.map fun field => some field.2) := by
  subst hnames
  cases hspelling with
  | object hmembers => exact recordMembers?_of_members hnodup hmembers
  | array => simp [recordMembers?]

theorem spelling_ofFields (fields : List (String × Value)) : Spelling fields (.ofFields fields) :=
  .object ⟨[], by simp, by simp⟩

theorem recordMembers?_ofFields {names : List String} (hnames : fields.map Prod.fst = names)
    (hnodup : names.Nodup) :
    recordMembers? names (.ofFields fields) = some (fields.map fun field => some field.2) :=
  (spelling_ofFields fields).recordMembers?_eq hnames hnodup

theorem ofFields_injective : Function.Injective Value.ofFields := by
  intro fields others hsame
  exact named_injective (Value.object.inj hsame)

end Members

namespace Codec

structure Recovers {α : Type} (codec : Codec α) (fits : α → Prop) : Prop where
  plain : ∀ value, (codec.encode value).IsPlain
  decode_encode : ∀ value, fits value → codec.decode (codec.encode value) = some value
  fits_of_decode : ∀ json value, codec.decode json = some value → fits value

section Recovers

variable {α β : Type} {codec : Codec α} {fits : α → Prop}

theorem Recovers.ofText_compact (hcodec : codec.Recovers fits) {value : α} (hfits : fits value) :
    codec.ofText (codec.compact value) = some value := by
  have hparse := (hcodec.plain value).parse_compact
  have hdecode := hcodec.decode_encode value hfits
  rw [ofText, compact, hparse, Option.bind_some, hdecode]

/-! ## Simple values -/

theorem recovers_string : string.Recovers fun _ => True where
  plain := .text
  decode_encode _ _ := rfl
  fits_of_decode _ _ _ := trivial

theorem recovers_bool : bool.Recovers fun _ => True where
  plain := .bool
  decode_encode _ _ := rfl
  fits_of_decode _ _ _ := trivial

theorem recovers_count : count.Recovers (· < UInt64.size) where
  plain := .ofNat
  decode_encode n hfits := by
    have hdigits := Decimal.toNat_word64?_digits hfits
    simpa [count, Value.ofNat, Decimal.ofNat] using hdigits
  fits_of_decode json n hdecode := by
    cases json with
    | number text =>
        obtain ⟨word, -, rfl⟩ := Option.map_eq_some_iff.mp hdecode
        exact word.toNat_lt_size
    | _ => cases hdecode

theorem recovers_alternatives {nameOf : α → String} {ofName? : String → Option α}
    (hname : ∀ value, ofName? (nameOf value) = some value) :
    (alternatives nameOf ofName?).Recovers fun _ => True where
  plain value := .text (nameOf value)
  decode_encode value _ := hname value
  fits_of_decode _ _ _ := trivial

/-! ## Values made of others -/

theorem Recovers.via (hcodec : codec.Recovers fun _ => True) {encode : β → α} {decode : α → β}
    (hdecode : ∀ value, decode (encode value) = value) :
    (codec.via encode decode).Recovers fun _ => True where
  plain value := hcodec.plain (encode value)
  decode_encode value _ := by
    have hinner := hcodec.decode_encode (encode value) trivial
    simp only [Codec.via, hinner, Option.map_some, hdecode]
  fits_of_decode _ _ _ := trivial

theorem Recovers.list (hcodec : codec.Recovers fits) :
    codec.list.Recovers fun items => ∀ item ∈ items, fits item where
  plain items := .array (by simpa using fun item _ => hcodec.plain item)
  decode_encode items hfits := by
    show (items.map codec.encode).mapM codec.decode = some items
    induction items with
    | nil => rfl
    | cons item rest ih =>
        have hitem := hcodec.decode_encode item (hfits item List.mem_cons_self)
        have hrest := ih fun other hmem => hfits other (List.mem_cons_of_mem item hmem)
        simp [hitem, hrest]
  fits_of_decode json items hdecode := by
    cases json with
    | array values =>
        have hvalues : values.mapM codec.decode = some items := hdecode
        clear hdecode
        induction values generalizing items with
        | nil => simp_all
        | cons value rest ih =>
            simp only [List.mapM_cons, Option.bind_eq_bind, Option.bind_eq_some_iff,
              Option.pure_def, Option.some.injEq] at hvalues
            obtain ⟨item, hitem, others, hothers, rfl⟩ := hvalues
            have hfirst := hcodec.fits_of_decode value item hitem
            simpa using ⟨hfirst, ih others hothers⟩
    | _ => cases hdecode

/-- The value that stands for a missing one must not be written as null. -/
theorem Recovers.optional (hcodec : codec.Recovers fun _ => True)
    (hnull : ∀ value, codec.encode value ≠ .null) : codec.optional.Recovers fun _ => True where
  plain
    | none => .null
    | some value => hcodec.plain value
  decode_encode
    | none, _ => rfl
    | some value, _ => by
      have hinner := hcodec.decode_encode value trivial
      simp only [Codec.optional]
      split
      next hmissing => exact absurd hmissing (hnull value)
      next => rw [hinner, Option.map_some]
  fits_of_decode _ _ _ := trivial

end Recovers

end Codec

/-! ## Records -/

namespace Codec

/-- What is read from a record depends on the members with these names only. -/
structure IsRecord {α : Type} (codec : Codec α) (names : List String) : Prop where
  nodup : names.Nodup
  encode : ∀ value, ∃ fields, fields.map Prod.fst = names ∧ codec.encode value = .ofFields fields
  decode : ∀ json other, recordMembers? names json = recordMembers? names other →
    codec.decode json = codec.decode other

/-- The compact text of a value that fits is read as the value, and so is that
of any other spelling.  What was read from any text is read again from its
compact text, which stays the same. -/
def RoundTrips {α : Type} (codec : Codec α) (fits : α → Prop) : Prop :=
  (∀ value, fits value → codec.ofText (codec.compact value) = some value) ∧
    (∀ text value, codec.ofText text = some value →
      codec.ofText (codec.compact value) = some value ∧
        (codec.ofText (codec.compact value)).map codec.compact = some (codec.compact value)) ∧
    ∀ value fields spelling, fits value → codec.encode value = .ofFields fields →
      Spelling fields spelling → spelling.IsPlain → codec.ofText spelling.compact = some value

section Records

variable {α : Type} {codec : Codec α} {fits : α → Prop} {names : List String}

theorem IsRecord.decode_spelling (hrecord : codec.IsRecord names) {value : α}
    {fields : List (String × Value)} (hfields : codec.encode value = .ofFields fields)
    {spelling : Value} (hspelling : Spelling fields spelling) :
    codec.decode spelling = codec.decode (codec.encode value) := by
  obtain ⟨encoded, hnames, hencode⟩ := hrecord.encode value
  have hsame : encoded = fields := ofFields_injective (hencode.symm.trans hfields)
  subst hsame
  apply hrecord.decode
  rw [hspelling.recordMembers?_eq hnames hrecord.nodup, hencode,
    recordMembers?_ofFields hnames hrecord.nodup]

theorem Recovers.roundTrips (hcodec : codec.Recovers fits) (hrecord : codec.IsRecord names) :
    codec.RoundTrips fits := by
  refine ⟨?_, ?_, ?_⟩
  · intro value hfits
    exact hcodec.ofText_compact hfits
  · intro text value htext
    obtain ⟨json, -, hdecode⟩ := Option.bind_eq_some_iff.mp htext
    have hagain := hcodec.ofText_compact (hcodec.fits_of_decode json value hdecode)
    exact ⟨hagain, by rw [hagain, Option.map_some]⟩
  · intro value fields spelling hfits hfields hspelling hplain
    rw [ofText, hplain.parse_compact, Option.bind_some, hrecord.decode_spelling hfields hspelling]
    exact hcodec.decode_encode value hfits

/-! ## Members that are read -/

theorem Recovers.required_encode (hcodec : codec.Recovers fits) {value : α} (hfits : fits value) :
    required codec (some (codec.encode value)) = some value :=
  hcodec.decode_encode value hfits

theorem Recovers.fits_of_required (hcodec : codec.Recovers fits) {member : Option Value}
    {value : α} (hread : required codec member = some value) : fits value := by
  obtain ⟨json, -, hdecode⟩ := Option.bind_eq_some_iff.mp hread
  exact hcodec.fits_of_decode json value hdecode

end Records

end Codec

end Treatise.Json
