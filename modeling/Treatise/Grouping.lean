import Std.Data.HashMap

/-!
# Groups

A grouping collects values under their keys, in the order in which they come, and the keys in the
order of their first values (`describes_ofPairs`).
-/

namespace Treatise

variable {α : Type}

theorem foldl_preserves {σ : Type} {step : σ → α → σ} {elements : List α} {state : σ}
    (Holds : List α → σ → Prop) (hstart : Holds [] state)
    (hstep : ∀ visited state, ∀ element ∈ elements, Holds visited state →
      Holds (visited ++ [element]) (step state element)) :
    Holds elements (elements.foldl step state) := by
  suffices hlater : ∀ later visited state, (∀ element ∈ later, element ∈ elements) →
      Holds visited state → Holds (visited ++ later) (later.foldl step state) from
    hlater elements [] state (fun _ hmem => hmem) hstart
  intro later
  induction later with
  | nil => simp
  | cons element later ih =>
      intro visited state hmem hvisited
      have hnext := hstep visited state element (hmem element List.mem_cons_self) hvisited
      have hend := ih _ _ (fun other hother => hmem other (List.mem_cons_of_mem _ hother)) hnext
      rwa [List.append_assoc] at hend

/-- What `eraseDups` is by recursion: the first element stays and all others like it are gone. -/
theorem eraseDups_induction [BEq α] {motive : List α → Prop} (nil : motive [])
    (cons : ∀ element rest,
      motive (rest.filter fun other => !other == element) → motive (element :: rest))
    (elements : List α) : motive elements := by
  induction hlength : elements.length using Nat.strongRecOn generalizing elements with
  | ind length ih =>
      cases elements with
      | nil => exact nil
      | cons element rest =>
          have hshorter : (rest.filter fun other => !other == element).length < length := by
            rw [← hlength]
            exact Nat.lt_succ_of_le (List.length_filter_le _ rest)
          exact cons element rest (ih _ hshorter _ rfl)

theorem nodup_eraseDups [BEq α] [LawfulBEq α] (elements : List α) :
    elements.eraseDups.Nodup := by
  induction elements using eraseDups_induction with
  | nil => simp
  | cons element rest ih =>
      rw [List.eraseDups_cons, List.nodup_cons]
      refine ⟨?_, ih⟩
      simp [List.mem_eraseDups]

theorem eraseDups_sublist [BEq α] (elements : List α) :
    elements.eraseDups.Sublist elements := by
  induction elements using eraseDups_induction with
  | nil => simp
  | cons element rest ih =>
      rw [List.eraseDups_cons]
      exact (ih.trans List.filter_sublist).cons_cons element

theorem eraseDups_append_singleton [DecidableEq α] (elements : List α) (element : α) :
    (elements ++ [element]).eraseDups =
      if element ∈ elements then elements.eraseDups else elements.eraseDups ++ [element] := by
  rw [List.eraseDups_append]
  by_cases hmem : element ∈ elements
  · have hnone : [element].removeAll elements = [] := by
      simpa [List.removeAll] using hmem
    simp [hnone, hmem]
  · have hone : [element].removeAll elements = [element] := by
      simpa [List.removeAll] using hmem
    simp [hone, hmem, List.eraseDups_cons]

structure Grouping (κ ν : Type) [DecidableEq κ] [Hashable κ] where
  order : Array κ
  groups : Std.HashMap κ (Array ν)

namespace Grouping

variable {κ ν : Type} [DecidableEq κ] [Hashable κ]

def empty : Grouping κ ν := ⟨#[], ∅⟩

def add (grouping : Grouping κ ν) (key : κ) (value : ν) : Grouping κ ν where
  order := if grouping.groups.contains key then grouping.order else grouping.order.push key
  groups := grouping.groups.alter key fun group => some ((group.getD #[]).push value)

def ofPairs (pairs : List (κ × ν)) : Grouping κ ν :=
  pairs.foldl (fun grouping (key, value) => grouping.add key value) empty

def keys (grouping : Grouping κ ν) : List κ := grouping.order.toList

def get (grouping : Grouping κ ν) (key : κ) : List ν := (grouping.groups[key]?.getD #[]).toList

/-- The grouping of exactly these pairs, in this order. -/
structure Describes (grouping : Grouping κ ν) (pairs : List (κ × ν)) : Prop where
  keys_eq : grouping.keys = (pairs.map (·.1)).eraseDups
  contains_iff : ∀ key, grouping.groups.contains key ↔ key ∈ pairs.map (·.1)
  get_eq : ∀ key, grouping.get key = (pairs.filter (·.1 == key)).map (·.2)

theorem describes_empty : (empty : Grouping κ ν).Describes [] where
  keys_eq := by simp [keys, empty]
  contains_iff key := by simp [empty]
  get_eq key := by simp [get, empty]

theorem get_add (grouping : Grouping κ ν) (key : κ) (value : ν) (other : κ) :
    (grouping.add key value).get other =
      if key = other then grouping.get other ++ [value] else grouping.get other := by
  by_cases hsame : key = other
  · subst other
    simp [get, add]
  · simp [get, add, Std.HashMap.getElem?_alter, hsame]

theorem contains_add (grouping : Grouping κ ν) (key : κ) (value : ν) (other : κ) :
    (grouping.add key value).groups.contains other ↔
      key = other ∨ grouping.groups.contains other := by
  simp only [add, Std.HashMap.contains_alter]
  by_cases hsame : key = other <;> simp [hsame]

theorem Describes.add {grouping : Grouping κ ν} {pairs : List (κ × ν)}
    (hdescribes : grouping.Describes pairs) (key : κ) (value : ν) :
    (grouping.add key value).Describes (pairs ++ [(key, value)]) where
  keys_eq := by
    have hkeys : grouping.order.toList = (pairs.map (·.1)).eraseDups := hdescribes.keys_eq
    have hknown := hdescribes.contains_iff key
    rw [List.map_append, List.map_singleton, eraseDups_append_singleton, ← hkeys, keys]
    by_cases hmem : key ∈ pairs.map (·.1)
    · rw [if_pos hmem, Grouping.add, hknown.mpr hmem]
      rfl
    · rw [if_neg hmem, Grouping.add, Bool.eq_false_iff.mpr (mt hknown.mp hmem)]
      exact Array.toList_push
  contains_iff other := by
    rw [contains_add, hdescribes.contains_iff]
    simp [eq_comm, or_comm]
  get_eq other := by
    rw [get_add, hdescribes.get_eq]
    by_cases hsame : key = other <;> simp [hsame]

theorem describes_ofPairs (pairs : List (κ × ν)) : (ofPairs pairs).Describes pairs :=
  foldl_preserves (fun pairs grouping => Describes grouping pairs) describes_empty
    fun _ _ pair _ hdescribes => hdescribes.add pair.1 pair.2

end Grouping

end Treatise
