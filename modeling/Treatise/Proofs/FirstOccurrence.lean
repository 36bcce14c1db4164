import Mathlib.Data.List.Induction
import Treatise.Grouping

/-!
# The order of first occurrences

Values without duplicates stand in the order in which they came first.  The
values are keys of the elements of a class, and where a key came first is the
position of an element in the whole list.
-/

namespace Treatise

variable {α κ : Type} [DecidableEq κ]

/-- The position of the first element of a class that has this key, which is
behind all elements where there is none. -/
def firstWith (isMember : α → Bool) (keyOf : α → κ) (elements : List α) (key : κ) : ℕ :=
  elements.findIdx fun element => isMember element && keyOf element == key

variable {isMember : α → Bool} {keyOf : α → κ} {elements : List α} {key : κ}

theorem firstWith_lt_length_iff :
    firstWith isMember keyOf elements key < elements.length ↔
      key ∈ (elements.filter isMember).map keyOf := by
  rw [firstWith, List.findIdx_lt_length]
  simp [and_assoc]

theorem firstWith_append (isMember : α → Bool) (keyOf : α → κ) (elements later : List α)
    (key : κ) :
    firstWith isMember keyOf (elements ++ later) key =
      if key ∈ (elements.filter isMember).map keyOf then firstWith isMember keyOf elements key
      else firstWith isMember keyOf later key + elements.length := by
  simp only [← firstWith_lt_length_iff]
  exact List.findIdx_append

theorem pairwise_firstWith (isMember : α → Bool) (keyOf : α → κ) (elements : List α) :
    ((elements.filter isMember).map keyOf).eraseDups.Pairwise fun key other =>
      firstWith isMember keyOf elements key < firstWith isMember keyOf elements other := by
  induction elements using List.reverseRecOn with
  | nil => exact .nil
  | append_singleton elements element ih =>
      have hkept : ((elements.filter isMember).map keyOf).eraseDups.Pairwise fun key other =>
          firstWith isMember keyOf (elements ++ [element]) key <
            firstWith isMember keyOf (elements ++ [element]) other := by
        apply ih.imp_of_mem
        intro key other hkey hother hlt
        rw [List.mem_eraseDups] at hkey hother
        rwa [firstWith_append, firstWith_append, if_pos hkey, if_pos hother]
      rw [List.filter_append, List.map_append]
      cases hmember : isMember element with
      | false => simpa [hmember] using hkept
      | true =>
          have hlast : ([element].filter isMember).map keyOf = [keyOf element] := by
            simp [hmember]
          rw [hlast, eraseDups_append_singleton]
          split
          next => exact hkept
          next hnew =>
            refine List.pairwise_append.mpr ⟨hkept, List.pairwise_singleton _ _, ?_⟩
            intro key hkey other hother
            rw [List.mem_eraseDups] at hkey
            have hearlier := firstWith_lt_length_iff.mpr hkey
            rw [List.mem_singleton.mp hother, firstWith_append, firstWith_append, if_pos hkey,
              if_neg hnew]
            omega

/-- In an ordered list the elements that have their keys first are in order
when the keys are. -/
theorem exists_find?_of_firstWith_lt {before : α → α → Prop} {other : κ}
    (hordered : elements.Pairwise before)
    (hlt : firstWith isMember keyOf elements key < firstWith isMember keyOf elements other)
    (hother : other ∈ (elements.filter isMember).map keyOf) :
    ∃ first later,
      elements.find? (fun element => isMember element && keyOf element == key) = some first ∧
        elements.find? (fun element => isMember element && keyOf element == other) = some later ∧
          before first later := by
  have hlater := firstWith_lt_length_iff.mpr hother
  have hfirst := Nat.lt_trans hlt hlater
  refine ⟨_, _, ?_, ?_, List.pairwise_iff_getElem.mp hordered _ _ hfirst hlater hlt⟩
  · rw [List.find?_eq_getElem?_findIdx]
    exact List.getElem?_eq_getElem hfirst
  · rw [List.find?_eq_getElem?_findIdx]
    exact List.getElem?_eq_getElem hlater

/-- If values come in order then the keys are in the order of the first values
of their groups. -/
theorem Grouping.pairwise_head? {ν : Type} [Hashable κ] {before : ν → ν → Prop}
    {pairs : List (κ × ν)} (hordered : pairs.Pairwise fun pair later => before pair.2 later.2) :
    (ofPairs pairs).keys.Pairwise fun key other =>
      ∃ first later, ((ofPairs pairs).get key).head? = some first ∧
        ((ofPairs pairs).get other).head? = some later ∧ before first later := by
  have hdescribes := describes_ofPairs pairs
  have hhead : ∀ key, ((ofPairs pairs).get key).head? =
      (pairs.find? fun pair => true && pair.1 == key).map (·.2) := by
    intro key
    rw [hdescribes.get_eq, List.head?_map, List.head?_filter]
    rfl
  have hall : pairs.filter (fun _ => true) = pairs := List.filter_eq_self.mpr fun _ _ => rfl
  have hkeys := pairwise_firstWith (fun _ => true) (·.1) pairs
  rw [hall] at hkeys
  rw [hdescribes.keys_eq]
  apply hkeys.imp_of_mem
  intro key other _ hother hlt
  have hpresent : other ∈ (pairs.filter fun _ => true).map (·.1) := by
    rw [hall]
    exact List.mem_eraseDups.mp hother
  obtain ⟨first, later, hfirst, hlater, hbefore⟩ :=
    exists_find?_of_firstWith_lt hordered hlt hpresent
  refine ⟨first.2, later.2, ?_, ?_, hbefore⟩
  · rw [hhead, hfirst]
    rfl
  · rw [hhead, hlater]
    rfl

end Treatise
