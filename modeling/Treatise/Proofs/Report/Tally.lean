import Mathlib.Algebra.BigOperators.Group.Finset.Basic
import Mathlib.Algebra.GroupWithZero.Nat
import Treatise.Report

/-!
# What tallies count

A tally has one row for each value that occurs, and the counts of its rows
add up to the number of values.  In a table whose rows state what a function
says of their keys, and which has a row wherever that is not zero, the
function can be looked up.
-/

namespace Treatise.Report

variable {α κ ρ : Type} [DecidableEq α] [DecidableEq κ]

theorem toFinset_eraseDups (values : List α) : values.eraseDups.toFinset = values.toFinset := by
  ext value
  simp [List.mem_eraseDups]

theorem length_eraseDups (values : List α) :
    values.eraseDups.length = values.toFinset.card := by
  rw [← toFinset_eraseDups, List.toFinset_card_of_nodup (nodup_eraseDups values)]

variable [Hashable α]

theorem mem_tally_iff {values : List α} {row : α × ℕ} :
    row ∈ tally values ↔ row.1 ∈ values ∧ row.2 = values.count row.1 := by
  rw [tally_eq, List.mem_map]
  constructor
  · rintro ⟨value, hmem, rfl⟩
    exact ⟨List.mem_eraseDups.mp hmem, rfl⟩
  · rintro ⟨hmem, hcount⟩
    exact ⟨row.1, List.mem_eraseDups.mpr hmem, Prod.ext rfl hcount.symm⟩

theorem length_tally (values : List α) : (tally values).length = values.toFinset.card := by
  rw [tally_eq, List.length_map, length_eraseDups]

theorem sum_tally (values : List α) : ((tally values).map (·.2)).sum = values.length := by
  have hcounts : (tally values).map (·.2) =
      values.eraseDups.map fun value => values.count value := by
    rw [tally_eq, List.map_map]
    rfl
  calc
    ((tally values).map (·.2)).sum
        = ∑ value ∈ values.eraseDups.toFinset, values.count value := by
          rw [hcounts, List.sum_toFinset _ (nodup_eraseDups values)]
    _ = values.length := by
          rw [toFinset_eraseDups, List.sum_toFinset_count_eq_length]

/-- The count in the first row that has this key, and zero where no row has it. -/
def countAt (keyOf : ρ → κ) (countOf : ρ → ℕ) (rows : List ρ) (key : κ) : ℕ :=
  ((rows.find? fun row => keyOf row = key).map countOf).getD 0

theorem countAt_eq {keyOf : ρ → κ} {countOf : ρ → ℕ} {rows : List ρ} {number : κ → ℕ} {key : κ}
    (hrows : ∀ row ∈ rows, countOf row = number (keyOf row))
    (hpresent : number key ≠ 0 → ∃ row ∈ rows, keyOf row = key) :
    countAt keyOf countOf rows key = number key := by
  unfold countAt
  cases hfound : rows.find? fun row => keyOf row = key with
  | some row =>
      have hkey : keyOf row = key := by simpa using List.find?_some hfound
      rw [Option.map_some, Option.getD_some, hrows row (List.mem_of_find?_eq_some hfound), hkey]
  | none =>
      by_contra hdiffers
      obtain ⟨row, hmem, hkey⟩ := hpresent fun hzero => hdiffers hzero.symm
      have habsent := List.find?_eq_none.mp hfound row hmem
      simp [hkey] at habsent

/-! ## Rankings -/

section Rankings

variable {countOf : ρ → ℕ}

theorem countOf_le_trans (row other third : ρ) (hfirst : decide (countOf other ≤ countOf row))
    (hsecond : decide (countOf third ≤ countOf other)) :
    decide (countOf third ≤ countOf row) := by
  simp only [decide_eq_true_eq] at hfirst hsecond ⊢
  exact hsecond.trans hfirst

theorem countOf_le_total (row other : ρ) :
    decide (countOf other ≤ countOf row) || decide (countOf row ≤ countOf other) := by
  simpa using Nat.le_total (countOf other) (countOf row)

theorem antitone_rank (countOf : ρ → ℕ) (rows : List ρ) :
    (rank countOf rows).Pairwise fun row other => countOf other ≤ countOf row :=
  (List.pairwise_mergeSort countOf_le_trans countOf_le_total rows).imp of_decide_eq_true

theorem filter_rank (countOf : ρ → ℕ) (rows : List ρ) (count : ℕ) :
    (rank countOf rows).filter (countOf · == count) = rows.filter (countOf · == count) := by
  have hcount : ∀ row ∈ rows.filter (countOf · == count), countOf row = count := by
    intro row hmem
    simpa using (List.mem_filter.mp hmem).2
  have hequal : (rows.filter (countOf · == count)).Pairwise fun row other =>
      decide (countOf other ≤ countOf row) := by
    apply List.pairwise_of_forall_mem_list
    intro row hrow other hother
    simp [hcount row hrow, hcount other hother]
  have hstable : (rows.filter (countOf · == count)).Sublist (rank countOf rows) :=
    List.sublist_mergeSort countOf_le_trans countOf_le_total hequal List.filter_sublist
  have hlength : ((rank countOf rows).filter (countOf · == count)).length =
      (rows.filter (countOf · == count)).length :=
    ((perm_rank countOf rows).filter _).length_eq
  have hkept := hstable.filter (countOf · == count)
  rw [List.filter_filter] at hkept
  simp only [Bool.and_self] at hkept
  exact (hkept.eq_of_length hlength.symm).symm

/-- A ranking goes by the count and, among equal counts, by the order that the
rows had before. -/
theorem pairwise_rank {rows : List ρ} {before : ρ → ρ → Prop} (hrows : rows.Pairwise before) :
    (rank countOf rows).Pairwise fun row other =>
      countOf other < countOf row ∨ countOf row = countOf other ∧ before row other := by
  rw [List.pairwise_iff_forall_sublist]
  intro row other hpair
  have hle := List.pairwise_iff_forall_sublist.mp (antitone_rank countOf rows) hpair
  rcases Nat.lt_or_eq_of_le hle with hlt | hsame
  · exact .inl hlt
  · have hkept := hpair.filter (countOf · == countOf row)
    rw [filter_rank] at hkept
    have hboth : [row, other].filter (countOf · == countOf row) = [row, other] := by
      simp [hsame]
    rw [hboth] at hkept
    exact .inr ⟨hsame.symm, List.pairwise_iff_forall_sublist.mp hrows
      (hkept.trans List.filter_sublist)⟩

end Rankings

end Treatise.Report
