import Mathlib.Order.WellFounded
import Mathlib.Tactic.Common
import Treatise.Decimal

/-!
# Decimal texts are read back

The decimal text of a number is a run of digits that stands for the number, and
it begins with a zero only if it is a zero.  Of the runs of digits that stand
for a number it is the one without superfluous zeros in front.
-/

namespace Treatise.Decimal

theorem digits_ne_nil (n : ℕ) : digits n ≠ [] := Nat.toDigits_ne_nil

theorem isDigit_of_mem_digits {n : ℕ} {c : Char} (hmem : c ∈ digits n) : c.isDigit :=
  Nat.isDigit_of_mem_toDigits (by decide) (by decide) hmem

/-- The number that a run of digits stands for. -/
def numberOf (text : List Char) : ℕ := Nat.ofDigitChars 10 text 0

theorem numberOf_digits (n : ℕ) : numberOf (digits n) = n := Nat.ofDigitChars_ten_toDigits

theorem natural?_digits (n : ℕ) : natural? (digits n) = some n := by
  rw [natural?_eq_some_iff, List.all_eq_true]
  exact ⟨⟨digits_ne_nil n, fun c hmem => isDigit_of_mem_digits hmem⟩,
    Nat.ofDigitChars_ten_toDigits⟩

theorem toNat_word64?_digits {n : ℕ} (hfits : n < UInt64.size) :
    (word64? (digits n)).map UInt64.toNat = some n := by
  simp only [word64?, natural?_digits, dif_pos hfits, Option.map_some, Option.some.injEq]
  exact UInt64.toNat_ofNatLT

theorem eq_zero_of_head?_digits {n : ℕ} (hzero : (digits n).head? = some '0') : n = 0 := by
  induction n using Nat.strong_induction_on with
  | _ n ih =>
      by_cases hsmall : n < 10
      · rw [digits, Nat.toDigits_of_lt_base hsmall] at hzero
        exact Nat.digitChar_eq_zero.mp (Option.some.inj hzero)
      · have hlarge : 10 ≤ n := Nat.le_of_not_lt hsmall
        have hsplit : digits n = digits (n / 10) ++ [(n % 10).digitChar] :=
          Nat.toDigits_of_base_le (by decide) hlarge
        have hhead : (digits n).head? = (digits (n / 10)).head? := by
          rw [hsplit, List.head?_append, Option.or_of_isSome]
          exact List.isSome_head?.mpr (digits_ne_nil _)
        have hfront := ih (n / 10) (by omega) (hhead ▸ hzero)
        omega

/-! ## Numerals that a word holds -/

/-- A run of ASCII digits whose number fits in 32 bits. -/
structure IsNumeral32 (text : List Char) : Prop where
  ne_nil : text ≠ []
  isDigit : ∀ c ∈ text, c.isDigit
  lt_size : numberOf text < UInt32.size

theorem word32?_eq_some_iff {text : List Char} {word : UInt32} :
    word32? text = some word ↔ IsNumeral32 text ∧ numberOf text = word.toNat := by
  constructor
  · intro hword
    unfold word32? at hword
    split at hword
    next => cases hword
    next n hnatural =>
      obtain ⟨⟨hne, hdigits⟩, rfl⟩ := natural?_eq_some_iff.mp hnatural
      split at hword
      next hbound =>
        obtain rfl := Option.some.inj hword
        exact ⟨⟨hne, List.all_eq_true.mp hdigits, hbound⟩, UInt32.toNat_ofNatLT.symm⟩
      next => cases hword
  · rintro ⟨hnumeral, hvalue⟩
    have hnatural : natural? text = some word.toNat :=
      natural?_eq_some_iff.mpr
        ⟨⟨hnumeral.ne_nil, List.all_eq_true.mpr hnumeral.isDigit⟩, hvalue⟩
    simp only [word32?, hnatural, dif_pos word.toNat_lt_size, UInt32.ofNatLT_toNat]

theorem IsNumeral32.exists_word {text : List Char} (hnumeral : IsNumeral32 text) :
    ∃ word : UInt32, numberOf text = word.toNat :=
  ⟨UInt32.ofNatLT (numberOf text) hnumeral.lt_size, UInt32.toNat_ofNatLT.symm⟩

theorem isNumeral32_digits (word : UInt32) : IsNumeral32 (digits word.toNat) where
  ne_nil := digits_ne_nil _
  isDigit _ hmem := isDigit_of_mem_digits hmem
  lt_size := by
    rw [numberOf_digits]
    exact word.toNat_lt_size

/-! ## Zeros in front -/

/-- A run of digits without superfluous zeros in front; of nothing but zeros
one is left. -/
def withoutLeadingZeros (text : List Char) : List Char :=
  match text.dropWhile (· == '0') with
  | [] => ['0']
  | significant => significant

theorem exists_digitChar {c : Char} (hdigit : c.isDigit) : ∃ d < 10, c = Nat.digitChar d := by
  have hchars : ∀ d < 10, Char.ofNat (48 + d) = Nat.digitChar d := by decide
  obtain ⟨hlower, hupper⟩ := Char.isDigit_iff_toNat.mp hdigit
  have hlow : 48 ≤ c.toNat := hlower
  have hup : c.toNat ≤ 57 := hupper
  refine ⟨c.toNat - 48, by omega, ?_⟩
  rw [← hchars _ (by omega), Nat.add_sub_cancel' hlow, Char.ofNat_toNat]

theorem digits_ofDigitChars_of_pos {text : List Char} (hdigits : ∀ c ∈ text, c.isDigit) {n : ℕ}
    (hpos : 0 < n) : digits (Nat.ofDigitChars 10 text n) = digits n ++ text := by
  induction text generalizing n with
  | nil => simp
  | cons c rest ih =>
      obtain ⟨hfirst, hrest⟩ := List.forall_mem_cons.mp hdigits
      obtain ⟨d, hd, rfl⟩ := exists_digitChar hfirst
      have hnumber : digits (10 * n + d) = digits n ++ [Nat.digitChar d] := by
        rw [digits, ← Nat.toDigits_append_toDigits (by decide) hpos hd,
          Nat.toDigits_of_lt_base hd, digits]
      rw [Nat.ofDigitChars_cons_digitChar_of_lt_ten hd, ih hrest (by omega), hnumber,
        List.append_assoc, List.singleton_append]

theorem digits_numberOf {text : List Char} (hdigits : ∀ c ∈ text, c.isDigit) :
    digits (numberOf text) = withoutLeadingZeros text := by
  unfold numberOf
  induction text with
  | nil => rfl
  | cons c rest ih =>
      obtain ⟨hfirst, hrest⟩ := List.forall_mem_cons.mp hdigits
      obtain ⟨d, hd, rfl⟩ := exists_digitChar hfirst
      rw [Nat.ofDigitChars_cons_digitChar_of_lt_ten hd, Nat.mul_zero, Nat.zero_add]
      by_cases hzero : d = 0
      · subst hzero
        exact ih hrest
      · have hsignificant : withoutLeadingZeros (Nat.digitChar d :: rest) =
            Nat.digitChar d :: rest := by
          have hne : Nat.digitChar d ≠ '0' := fun h => hzero (Nat.digitChar_eq_zero.mp h)
          simp [withoutLeadingZeros, hne]
        rw [digits_ofDigitChars_of_pos hrest (Nat.pos_of_ne_zero hzero), digits,
          Nat.toDigits_of_lt_base hd, hsignificant, List.singleton_append]

end Treatise.Decimal
