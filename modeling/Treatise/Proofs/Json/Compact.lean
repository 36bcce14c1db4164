import Treatise.Json.Codec
import Treatise.Json.Parse
import Treatise.Json.Print
import Treatise.Proofs.Decimal.Natural
import Treatise.Proofs.Text.Cut

/-!
# Compact texts are read back

Every character of a string is written so that reading finds it again.  The
tokens of a value complete the value and nothing else, wherever in another
value they stand.  A compact text has the tokens of its value, because what
stands after a value there does not continue a number.
-/

namespace Treatise.Json

/-- The control characters that have a short escape. -/
def shortControls : List Char := ['\x08', '\x0c', '\n', '\r', '\t']

/-- What a written character is read into. -/
def pieceOf (c : Char) : Piece :=
  if c.toNat < 0x20 ∧ c ∉ shortControls then .unit c.toNat else .char c

theorem hexValue?_hexDigit : ∀ value < 16, hexValue? (hexDigit value) = some value := by
  decide

section Reading

variable {c : Char} (rest : List Char)

theorem readString_short {letter : Char} (hletter : shortEscape? letter = some c) :
    readString ('\\' :: letter :: rest) =
      (readString rest).map fun (pieces, after) => (.char c :: pieces, after) := by
  have hunit : letter ≠ 'u' := by
    intro hu
    subst hu
    cases hletter
  rw [readString, hletter]
  · cases readString rest <;> rfl
  · intro _ _ _ _ _ hu
    exact absurd hu hunit

theorem readString_control (hcontrol : c.toNat < 0x20) :
    readString (['\\', 'u', '0', '0', hexDigit (c.toNat / 16), hexDigit (c.toNat % 16)] ++ rest) =
      (readString rest).map fun (pieces, after) => (.unit c.toNat :: pieces, after) := by
  have hunit :
      unit? '0' '0' (hexDigit (c.toNat / 16)) (hexDigit (c.toNat % 16)) = some c.toNat := by
    have hzero : hexValue? '0' = some 0 := rfl
    simp only [unit?, hzero, hexValue?_hexDigit (c.toNat / 16) (by omega),
      hexValue?_hexDigit (c.toNat % 16) (by omega), Option.bind_eq_bind, Option.bind_some,
      Option.pure_def, Option.some.injEq]
    omega
  simp only [List.cons_append, List.nil_append, readString, hunit]
  cases readString rest <;> rfl

theorem readString_plain (hquote : c ≠ '"') (hescape : c ≠ '\\') (hcontrol : ¬ c.toNat < 0x20) :
    readString (c :: rest) =
      (readString rest).map fun (pieces, after) => (.char c :: pieces, after) := by
  rw [readString, if_neg hcontrol]
  · exact hquote
  · intro _ _ _ _ _ hc
    exact absurd hc hescape
  · intro _ _ hc
    exact absurd hc hescape

theorem readString_escapeChar (c : Char) :
    readString (escapeChar c ++ rest) =
      (readString rest).map fun (pieces, after) => (pieceOf c :: pieces, after) := by
  by_cases hquote : c = '"'
  · subst hquote
    exact readString_short rest rfl
  by_cases hescape : c = '\\'
  · subst hescape
    exact readString_short rest rfl
  by_cases hshort : c ∈ shortControls
  · simp only [shortControls, List.mem_cons, List.not_mem_nil, or_false] at hshort
    rcases hshort with rfl | rfl | rfl | rfl | rfl <;> exact readString_short rest rfl
  have hothers : c ≠ '\x08' ∧ c ≠ '\x0c' ∧ c ≠ '\n' ∧ c ≠ '\r' ∧ c ≠ '\t' := by
    simpa [shortControls] using hshort
  obtain ⟨hbackspace, hpage, hline, hreturn, htab⟩ := hothers
  simp only [escapeChar, if_neg hquote, if_neg hescape, if_neg hbackspace, if_neg hpage,
    if_neg hline, if_neg hreturn, if_neg htab]
  by_cases hcontrol : c.toNat < 0x20
  · rw [if_pos hcontrol, pieceOf, if_pos ⟨hcontrol, hshort⟩]
    exact readString_control rest hcontrol
  · rw [if_neg hcontrol, pieceOf, if_neg fun hunit => hcontrol hunit.1]
    exact readString_plain rest hquote hescape hcontrol

end Reading

theorem join_unit {code : Nat} (hsmall : code < 0xD800) (pieces : List Piece) :
    join (.unit code :: pieces) = (join pieces).map (Char.ofNat code :: ·) := by
  have hhigh : isHighUnit code = false := by
    simp only [isHighUnit, Bool.and_eq_false_iff, decide_eq_false_iff_not]
    omega
  have hlow : isLowUnit code = false := by
    simp only [isLowUnit, Bool.and_eq_false_iff, decide_eq_false_iff_not]
    omega
  cases pieces with
  | nil => simp [join, hhigh, hlow]
  | cons piece rest =>
      cases piece with
      | char c => simp [join, hhigh, hlow]
      | unit low => simp [join, hhigh, hlow]

theorem join_pieces (text : List Char) : join (text.map pieceOf) = some text := by
  induction text with
  | nil => rfl
  | cons c rest ih =>
      rw [List.map_cons, pieceOf]
      split
      next hcontrol =>
        have hsmall : c.toNat < 0xD800 := by omega
        rw [join_unit hsmall, ih, Option.map_some, Char.ofNat_toNat]
      next => rw [join, ih, Option.map_some]

theorem readString_escape (text rest : List Char) :
    readString (text.flatMap escapeChar ++ '"' :: rest) = some (text.map pieceOf, rest) := by
  induction text with
  | nil => simp [readString]
  | cons c text ih => rw [List.flatMap_cons, List.append_assoc, readString_escapeChar, ih]; rfl

/-- To show something of all values, an array or object may take it for granted
of what it holds. -/
theorem Value.inductionOn {motive : Value → Prop} (value : Value) (null : motive .null)
    (bool : ∀ value, motive (.bool value)) (number : ∀ text, motive (.number text))
    (string : ∀ content, motive (.string content))
    (array : ∀ items, (∀ item ∈ items, motive item) → motive (.array items))
    (object : ∀ members, (∀ member ∈ members, motive member.2) → motive (.object members)) :
    motive value := by
  match value with
  | .null => exact null
  | .bool value => exact bool value
  | .number text => exact number text
  | .string content => exact string content
  | .array items =>
      exact array items fun item _ => inductionOn item null bool number string array object
  | .object members =>
      exact object members fun member _ =>
        inductionOn member.2 null bool number string array object
termination_by sizeOf value
decreasing_by
  · have hsmaller := List.sizeOf_lt_of_mem ‹item ∈ items›
    simp only [Value.array.sizeOf_spec]
    omega
  · have hsmaller := List.sizeOf_lt_of_mem ‹member ∈ members›
    have hmember : sizeOf member.2 < sizeOf member := by
      obtain ⟨name, inner⟩ := member
      simp only [Prod.mk.sizeOf_spec]
      omega
    simp only [Value.object.sizeOf_spec]
    omega

/-! ## Tokens of values -/

def separatedTokens : List (List Token) → List Token
  | [] => []
  | first :: rest => first ++ rest.flatMap (.comma :: ·)

mutual

def tokensOf : Value → List Token
  | .null => [.null]
  | .bool value => [.bool value]
  | .number text => [.number text]
  | .string content => [.string content]
  | .array items => .openBracket :: (separatedTokens (tokensOfItems items) ++ [.closeBracket])
  | .object members => .openBrace :: (separatedTokens (tokensOfMembers members) ++ [.closeBrace])

def tokensOfItems : List Value → List (List Token)
  | [] => []
  | item :: rest => tokensOf item :: tokensOfItems rest

def tokensOfMembers : List (Content × Value) → List (List Token)
  | [] => []
  | (name, value) :: rest => (.string name :: .colon :: tokensOf value) :: tokensOfMembers rest

end

def tokensOfMember (member : Content × Value) : List Token :=
  .string member.1 :: .colon :: tokensOf member.2

theorem tokensOfItems_eq_map (items : List Value) : tokensOfItems items = items.map tokensOf := by
  induction items with
  | nil => rfl
  | cons item rest ih => rw [tokensOfItems, ih, List.map_cons]

theorem tokensOfMembers_eq_map (members : List (Content × Value)) :
    tokensOfMembers members = members.map tokensOfMember := by
  induction members with
  | nil => rfl
  | cons member rest ih => rw [tokensOfMembers, ih, List.map_cons, tokensOfMember]

/-! ## Reading tokens -/

namespace Reader

theorem move_of_begin {place : Place} (stack : List Frame) {token : Token}
    (hplace : place = .value ∨ place = .firstItem) (htoken : token ≠ .closeBracket) :
    move ⟨place, stack⟩ token = beginValue stack token := by
  rcases hplace with rfl | rfl
  · rfl
  · unfold move
    split <;> simp_all

/-- Reading these tokens where a value may stand completes the value. -/
def Completes (tokens : List Token) (value : Value) : Prop :=
  ∀ place stack rest, place = .value ∨ place = .firstItem →
    run ⟨place, stack⟩ (tokens ++ rest) = run ⟨.after value, stack⟩ rest

theorem run_items {items : List Value}
    (hitems : ∀ item ∈ items, Completes (tokensOf item) item) (value : Value)
    (done : List Value) (stack : List Frame) (rest : List Token) :
    run ⟨.after value, .items done :: stack⟩
        ((items.map tokensOf).flatMap (.comma :: ·) ++ .closeBracket :: rest) =
      run ⟨.after (.array (done.reverse ++ value :: items)), stack⟩ rest := by
  induction items generalizing value done with
  | nil => simp [run, move, continueWith]
  | cons item items ih =>
      have hitem := hitems item List.mem_cons_self
      have hothers := ih fun other hmem => hitems other (List.mem_cons_of_mem item hmem)
      simp only [List.map_cons, List.flatMap_cons, List.cons_append, List.append_assoc, run, move,
        continueWith, Option.bind_some]
      rw [hitem _ _ _ (.inl rfl), hothers]
      simp

theorem run_members {members : List (Content × Value)}
    (hmembers : ∀ member ∈ members, Completes (tokensOf member.2) member.2) (name : Content)
    (value : Value) (done : List (Content × Value)) (stack : List Frame) (rest : List Token) :
    run ⟨.after value, .member done name :: stack⟩
        ((members.map tokensOfMember).flatMap (.comma :: ·) ++ .closeBrace :: rest) =
      run ⟨.after (.object (done.reverse ++ (name, value) :: members)), stack⟩ rest := by
  induction members generalizing name value done with
  | nil => simp [run, move, continueWith]
  | cons member members ih =>
      have hmember := hmembers member List.mem_cons_self
      have hothers := ih fun other hmem => hmembers other (List.mem_cons_of_mem member hmem)
      simp only [List.map_cons, List.flatMap_cons, tokensOfMember, List.cons_append,
        List.append_assoc, run, move, continueWith, Option.bind_some]
      rw [hmember _ _ _ (.inl rfl), hothers]
      simp

theorem completes_tokensOf (value : Value) : Completes (tokensOf value) value := by
  induction value using Value.inductionOn with
  | null =>
      intro place stack rest hplace
      simp [tokensOf, run, move_of_begin stack hplace, beginValue]
  | bool value =>
      intro place stack rest hplace
      simp [tokensOf, run, move_of_begin stack hplace, beginValue]
  | number text =>
      intro place stack rest hplace
      simp [tokensOf, run, move_of_begin stack hplace, beginValue]
  | string content =>
      intro place stack rest hplace
      simp [tokensOf, run, move_of_begin stack hplace, beginValue]
  | array items ih =>
      intro place stack rest hplace
      have hopen : run ⟨place, stack⟩ (tokensOf (.array items) ++ rest) =
          run ⟨.firstItem, .items [] :: stack⟩
            (separatedTokens (items.map tokensOf) ++ .closeBracket :: rest) := by
        rw [tokensOf, tokensOfItems_eq_map]
        simp [run, move_of_begin stack hplace, beginValue]
      rw [hopen]
      cases items with
      | nil => simp [separatedTokens, run, move]
      | cons item items =>
          have hitem := ih item List.mem_cons_self
          have hothers := run_items fun other hmem => ih other (List.mem_cons_of_mem item hmem)
          rw [List.map_cons, separatedTokens, List.append_assoc, hitem _ _ _ (.inr rfl), hothers]
          rfl
  | object members ih =>
      intro place stack rest hplace
      have hopen : run ⟨place, stack⟩ (tokensOf (.object members) ++ rest) =
          run ⟨.firstName, .members [] :: stack⟩
            (separatedTokens (members.map tokensOfMember) ++ .closeBrace :: rest) := by
        rw [tokensOf, tokensOfMembers_eq_map]
        simp [run, move_of_begin stack hplace, beginValue]
      rw [hopen]
      cases members with
      | nil => simp [separatedTokens, run, move]
      | cons member members =>
          have hmember := ih member List.mem_cons_self
          have hothers := run_members fun other hmem => ih other (List.mem_cons_of_mem member hmem)
          simp only [List.map_cons, separatedTokens, tokensOfMember, List.cons_append,
            List.append_assoc, run, move, Option.bind_some]
          rw [hmember _ _ _ (.inl rfl), hothers]
          rfl

end Reader

/-! ## Scanning -/

/-- What stands here does not continue a value. -/
def Ends (rest : List Char) : Prop := ∀ c, rest.head? = some c → c ∈ [',', ']', '}']

/-- Where a value may end, this text has these tokens. -/
def Scans (text : List Char) (tokens : List Token) : Prop :=
  ∀ rest others, Ends rest → Text.scanAll tokenStep () rest = .ok others →
    Text.scanAll tokenStep () (text ++ rest) = .ok (tokens ++ others)

theorem scanAll_of_step {c : Char} {rest after : List Char} {token : Token}
    {others : List Token} {hshorter : after.length < (c :: rest).length}
    (hstep : tokenStep () c rest = .ok ⟨[token], (), after, hshorter⟩)
    (hafter : Text.scanAll tokenStep () after = .ok others) :
    Text.scanAll tokenStep () (c :: rest) = .ok (token :: others) :=
  Text.scanAll_cons_eq_ok_iff.mpr ⟨_, others, hstep, hafter, rfl⟩

theorem tokenStep_string {rest after : List Char} {pieces : List Piece}
    (hread : readString rest = some (pieces, after)) :
    ∃ hshorter, tokenStep () '"' rest =
      .ok ⟨[.string ((join pieces).map String.ofList)], (), after, hshorter⟩ := by
  unfold tokenStep
  simp only
  split
  next hnone => simp [hread] at hnone
  next hfound =>
    obtain ⟨rfl, rfl⟩ := Prod.mk.inj (Option.some.inj (hread.symm.trans hfound))
    exact ⟨Nat.lt_succ_of_lt (length_readString hread), rfl⟩

theorem tokenStep_number {c : Char} {rest text after : List Char} (hdigit : c.isDigit)
    (hread : readMagnitude (c :: rest) = some (text, after)) :
    ∃ hshorter, tokenStep () c rest =
      .ok ⟨[.number (String.ofList text)], (), after, hshorter⟩ := by
  unfold tokenStep
  split
  case h_16 =>
    split
    next hnone => simp [hread] at hnone
    next hfound =>
      obtain ⟨rfl, rfl⟩ := Prod.mk.inj (Option.some.inj (hread.symm.trans hfound))
      exact ⟨length_readMagnitude hread, rfl⟩
  all_goals exact absurd hdigit (by decide)

theorem scanAll_string (text : List Char) {rest : List Char} {others : List Token}
    (hrest : Text.scanAll tokenStep () rest = .ok others) :
    Text.scanAll tokenStep () (escape text ++ rest) =
      .ok (.string (some (String.ofList text)) :: others) := by
  have hread : readString (text.flatMap escapeChar ++ '"' :: rest) =
      some (text.map pieceOf, rest) := readString_escape text rest
  have hsplit : escape text ++ rest = '"' :: (text.flatMap escapeChar ++ '"' :: rest) := by
    simp [escape]
  obtain ⟨hshorter, hstep⟩ := tokenStep_string hread
  rw [join_pieces] at hstep
  rw [hsplit]
  exact scanAll_of_step hstep hrest

/-! ## Numbers -/

section Numbers

variable {rest : List Char} (hrest : Ends rest)

include hrest

theorem isDigit_eq_false_of_ends {c : Char} (hhead : rest.head? = some c) :
    c.isDigit = false := by
  have hmark := hrest c hhead
  simp only [List.mem_cons, List.not_mem_nil, or_false] at hmark
  rcases hmark with rfl | rfl | rfl <;> rfl

theorem readWhole_digits (n : ℕ) :
    readWhole (Decimal.digits n ++ rest) = some (Decimal.digits n, rest) := by
  unfold readWhole
  split
  -- A zero in front is read alone, so it has to be all there is.
  next tail hzero =>
    have hhead : (Decimal.digits n).head? = some '0' := by
      have happend := congrArg List.head? hzero
      rwa [List.head?_append, Option.or_of_isSome
        (List.isSome_head?.mpr (Decimal.digits_ne_nil n))] at happend
    have hn : n = 0 := Decimal.eq_zero_of_head?_digits hhead
    subst hn
    rw [← (List.cons.inj hzero).2]
    rfl
  next =>
    have hdigits : ∀ c ∈ Decimal.digits n, c.isDigit := fun c hmem =>
      Decimal.isDigit_of_mem_digits hmem
    have hstop : ∀ c, rest.head? = some c → c.isDigit = false := fun c hhead =>
      isDigit_eq_false_of_ends hrest hhead
    rw [readDigits, Text.takeWhile_append_of_stop hdigits hstop,
      Text.dropWhile_append_of_stop hdigits hstop, if_neg (Decimal.digits_ne_nil n)]

theorem readFraction_of_ends : readFraction rest = some ([], rest) := by
  unfold readFraction
  split
  next => exact absurd (hrest '.' rfl) (by decide)
  next => rfl

theorem readExponent_of_ends : readExponent rest = some ([], rest) := by
  unfold readExponent
  split
  next => exact absurd (hrest 'e' rfl) (by decide)
  next => exact absurd (hrest 'E' rfl) (by decide)
  next => rfl

theorem readMagnitude_digits (n : ℕ) :
    readMagnitude (Decimal.digits n ++ rest) = some (Decimal.digits n, rest) := by
  simp [readMagnitude, readWhole_digits hrest, readFraction_of_ends hrest,
    readExponent_of_ends hrest]

end Numbers

theorem scanAll_digits (n : ℕ) {rest : List Char} {others : List Token} (hrest : Ends rest)
    (hothers : Text.scanAll tokenStep () rest = .ok others) :
    Text.scanAll tokenStep () (Decimal.digits n ++ rest) =
      .ok (.number (Decimal.ofNat n) :: others) := by
  have hread := readMagnitude_digits hrest n
  have hdigit : ∀ c, (Decimal.digits n).head? = some c → c.isDigit = true := fun c hhead =>
    Decimal.isDigit_of_mem_digits (List.mem_of_head? hhead)
  rw [Decimal.ofNat]
  cases hdigits : Decimal.digits n with
  | nil => exact absurd hdigits (Decimal.digits_ne_nil n)
  | cons c tail =>
      rw [hdigits] at hread hdigit
      obtain ⟨hshorter, hstep⟩ := tokenStep_number (hdigit c rfl) hread
      exact scanAll_of_step hstep hothers

/-! ## Separated texts -/

theorem Scans.append {front back : List Char} {first second : List Token}
    (hfront : Scans front first) (hback : Scans back second)
    (hends : ∀ rest, Ends rest → Ends (back ++ rest)) :
    Scans (front ++ back) (first ++ second) := by
  intro rest others hrest hothers
  rw [List.append_assoc, List.append_assoc]
  exact hfront _ _ (hends rest hrest) (hback _ _ hrest hothers)

section Separated

variable {α : Type} {textOf : α → List Char} {tokensFor : α → List Token} {items : List α}

theorem ends_followers (texts : List (List Char)) {rest : List Char} (hrest : Ends rest) :
    Ends (texts.flatMap ([','] ++ ·) ++ rest) := by
  cases texts with
  | nil => exact hrest
  | cons text texts =>
      intro c hhead
      obtain rfl := Option.some.inj hhead
      exact List.mem_cons_self

theorem scans_followers (hitems : ∀ item ∈ items, Scans (textOf item) (tokensFor item)) :
    Scans ((items.map textOf).flatMap ([','] ++ ·))
      ((items.map tokensFor).flatMap (.comma :: ·)) := by
  induction items with
  | nil => exact fun rest others _ hothers => hothers
  | cons item items ih =>
      have hitem : Scans ([','] ++ textOf item) (.comma :: tokensFor item) := by
        intro rest others hrest hothers
        exact scanAll_of_step rfl (hitems item List.mem_cons_self rest others hrest hothers)
      have hothers := ih fun other hmem => hitems other (List.mem_cons_of_mem item hmem)
      exact hitem.append hothers fun rest => ends_followers _

theorem scans_separated (hitems : ∀ item ∈ items, Scans (textOf item) (tokensFor item)) :
    Scans (separated [','] (items.map textOf)) (separatedTokens (items.map tokensFor)) := by
  cases items with
  | nil => exact fun rest others _ hothers => hothers
  | cons item items =>
      have hothers := scans_followers fun other hmem =>
        hitems other (List.mem_cons_of_mem item hmem)
      exact (hitems item List.mem_cons_self).append hothers fun rest => ends_followers _

end Separated

/-! ## Values -/

/-- What is written as it is: the strings are text and the numbers are natural
numbers. -/
inductive Value.IsPlain : Value → Prop where
  | null : IsPlain .null
  | bool (value : Bool) : IsPlain (.bool value)
  | ofNat (n : ℕ) : IsPlain (.ofNat n)
  | text (content : String) : IsPlain (.text content)
  | array {items : List Value} (hitems : ∀ item ∈ items, IsPlain item) : IsPlain (.array items)
  | ofFields {fields : List (String × Value)} (hfields : ∀ field ∈ fields, IsPlain field.2) :
      IsPlain (.ofFields fields)

def compactMember (member : Content × Value) : List Char :=
  contentText member.1 ++ ':' :: compactText member.2

theorem compactItems_eq_map (items : List Value) : compactItems items = items.map compactText := by
  induction items with
  | nil => rfl
  | cons item rest ih => rw [compactItems, ih, List.map_cons]

theorem compactMembers_eq_map (members : List (Content × Value)) :
    compactMembers members = members.map compactMember := by
  induction members with
  | nil => rfl
  | cons member rest ih => rw [compactMembers, ih, List.map_cons, compactMember]

theorem scans_text (content : String) :
    Scans (contentText (some content)) [.string (some content)] := by
  intro rest others _ hothers
  have hscan := scanAll_string content.toList hothers
  rwa [String.ofList_toList] at hscan

theorem scans_member (name : String) {value : Value}
    (hvalue : Scans (compactText value) (tokensOf value)) :
    Scans (compactMember (some name, value)) (tokensOfMember (some name, value)) := by
  intro rest others hrest hothers
  have hcolon := scanAll_of_step (c := ':') rfl (hvalue rest others hrest hothers)
  have hname := scanAll_string name.toList hcolon
  rw [String.ofList_toList] at hname
  simpa [compactMember, contentText, tokensOfMember] using hname

theorem ends_closing {mark : Char} (hmark : mark ∈ [',', ']', '}']) (rest : List Char) :
    Ends (mark :: rest) := by
  intro c hhead
  obtain rfl := Option.some.inj hhead
  exact hmark

theorem Value.IsPlain.scans {value : Value} (hplain : value.IsPlain) :
    Scans (compactText value) (tokensOf value) := by
  induction hplain with
  | null => exact fun rest others _ hothers => scanAll_of_step rfl hothers
  | bool value =>
      intro rest others _ hothers
      cases value with
      | false => exact scanAll_of_step rfl hothers
      | true => exact scanAll_of_step rfl hothers
  | ofNat n =>
      intro rest others hrest hothers
      have hscan := scanAll_digits n hrest hothers
      simpa [Value.ofNat, compactText, tokensOf, Decimal.ofNat] using hscan
  | text content => exact scans_text content
  | @array items hitems ih =>
      intro rest others hrest hothers
      have hclose := scanAll_of_step (c := ']') rfl hothers
      have hinner := scans_separated ih _ _ (ends_closing (by decide) rest) hclose
      have hopen := scanAll_of_step (c := '[') rfl hinner
      simpa [compactText, tokensOf, compactItems_eq_map, tokensOfItems_eq_map] using hopen
  | @ofFields fields hfields ih =>
      intro rest others hrest hothers
      have hmembers : ∀ field ∈ fields,
          Scans (compactMember (some field.1, field.2)) (tokensOfMember (some field.1, field.2)) :=
        fun field hmem => scans_member field.1 (ih field hmem)
      have hclose := scanAll_of_step (c := '}') rfl hothers
      have hinner := scans_separated hmembers _ _ (ends_closing (by decide) rest) hclose
      have hopen := scanAll_of_step (c := '{') rfl hinner
      simpa [Value.ofFields, compactText, tokensOf, compactMembers_eq_map, tokensOfMembers_eq_map,
        Function.comp_def] using hopen

/-- The compact text of a plain value is read as that value. -/
theorem Value.IsPlain.parse_compact {value : Value} (hplain : value.IsPlain) :
    parse value.compact = some value := by
  have hscan := hplain.scans [] [] (by simp [Ends]) (Text.scanAll_nil tokenStep ())
  have hrun := Reader.completes_tokensOf value .value [] [] (.inl rfl)
  rw [List.append_nil] at hscan hrun
  rw [List.append_nil] at hscan
  simp [parse, Value.compact, tokenize, hscan, Except.toOption, Reader.start, hrun, Reader.run,
    Reader.result?]

end Treatise.Json
