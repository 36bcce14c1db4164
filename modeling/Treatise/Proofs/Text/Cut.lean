import Mathlib.Data.List.TakeWhile
import Treatise.Text.Cut

/-!
# Where a text is cut and what a scan finds

A cut is the only way to write the text as a concatenation with the mark at
that place, so the parts can be found from the whole and the whole from the
parts.  A scan that succeeds is a succession of steps that succeed.
-/

namespace Treatise.Text

/-! ## Runs of a class -/

section Run

variable {α : Type} {isMember : α → Bool} {front back : List α}

theorem takeWhile_append_of_stop (hfront : ∀ c ∈ front, isMember c)
    (hback : ∀ c, back.head? = some c → isMember c = false) :
    (front ++ back).takeWhile isMember = front := by
  rw [List.takeWhile_append_of_pos hfront]
  cases back with
  | nil => simp
  | cons c rest => simp [hback c rfl]

theorem dropWhile_append_of_stop (hfront : ∀ c ∈ front, isMember c)
    (hback : ∀ c, back.head? = some c → isMember c = false) :
    (front ++ back).dropWhile isMember = back := by
  rw [List.dropWhile_append_of_pos hfront]
  cases back with
  | nil => simp
  | cons c rest => simp [hback c rfl]

theorem append_inj_of_stop {otherFront otherBack : List α} (hfront : ∀ c ∈ front, isMember c)
    (hback : ∀ c, back.head? = some c → isMember c = false)
    (hotherFront : ∀ c ∈ otherFront, isMember c)
    (hotherBack : ∀ c, otherBack.head? = some c → isMember c = false)
    (hsame : front ++ back = otherFront ++ otherBack) :
    front = otherFront ∧ back = otherBack := by
  have hrun : front = otherFront := by
    rw [← takeWhile_append_of_stop hfront hback, hsame,
      takeWhile_append_of_stop hotherFront hotherBack]
  have hrest : back = otherBack := by
    rw [← dropWhile_append_of_stop hfront hback, hsame,
      dropWhile_append_of_stop hotherFront hotherBack]
  exact ⟨hrun, hrest⟩

theorem head?_dropWhile_eq_false {text : List α} {c : α}
    (hhead : (text.dropWhile isMember).head? = some c) : isMember c = false := by
  have hstop := List.head?_dropWhile_not isMember text
  rw [hhead] at hstop
  simpa using hstop

end Run

theorem isInfix_or_of_notMem {α : Type} {part front back : List α} {c : α} (hpart : c ∉ part)
    (hwhole : part <:+: front ++ c :: back) : part <:+: front ∨ part <:+: back := by
  have hstart : ∀ start : List α, c ∉ start → start <+: c :: back → start = [] := by
    intro start hapart hprefix
    cases start with
    | nil => rfl
    | cons first others =>
        obtain ⟨rfl, -⟩ := List.cons_prefix_cons.mp hprefix
        exact absurd List.mem_cons_self hapart
  rcases List.infix_append_iff.mp hwhole with hfront | hback | ⟨start, rest, rfl, hfront, hback⟩
  · exact .inl hfront
  · rcases List.infix_cons_iff.mp hback with hprefix | hlater
    · rw [hstart part hpart hprefix]
      exact .inl List.nil_infix
    · exact .inr hlater
  · have hrest := hstart rest (fun hmem => hpart (List.mem_append_right start hmem)) hback
    rw [hrest, List.append_nil]
    exact .inl hfront.isInfix

theorem exists_eq_append_replicate (mark : Char) (text : List Char) :
    ∃ count, text =
      (text.reverse.dropWhile (· == mark)).reverse ++ List.replicate count mark := by
  have hrun : text.reverse.takeWhile (· == mark) =
      List.replicate (text.reverse.takeWhile (· == mark)).length mark := by
    rw [List.eq_replicate_iff]
    exact ⟨rfl, fun c hmem => by simpa using List.mem_takeWhile_imp hmem⟩
  have hreversed : (text.reverse.takeWhile (· == mark)).reverse =
      List.replicate (text.reverse.takeWhile (· == mark)).length mark :=
    (congrArg List.reverse hrun).trans List.reverse_replicate
  refine ⟨(text.reverse.takeWhile (· == mark)).length, ?_⟩
  calc
    text = (text.reverse.takeWhile (· == mark) ++
        text.reverse.dropWhile (· == mark)).reverse := by
      rw [List.takeWhile_append_dropWhile, List.reverse_reverse]
    _ = _ := by
      rw [List.reverse_append, hreversed]

theorem getLast?_reverse_dropWhile_ne (mark : Char) (text : List Char) :
    (text.reverse.dropWhile (· == mark)).reverse.getLast? ≠ some mark := by
  intro hlast
  rw [List.getLast?_reverse] at hlast
  simpa using head?_dropWhile_eq_false hlast

/-! ## Cuts -/

theorem cut_eq_some_iff {mark : Char} {text before after : List Char} :
    cut mark text = some (before, after) ↔
      text = before ++ mark :: after ∧ mark ∉ before := by
  induction text generalizing before with
  | nil => simp [cut]
  | cons c rest ih =>
      unfold cut
      split
      next hmark =>
        subst hmark
        constructor
        · intro hcut
          obtain ⟨rfl, rfl⟩ := Prod.mk.inj (Option.some.inj hcut)
          exact ⟨rfl, List.not_mem_nil⟩
        · intro hparts
          rcases hparts with ⟨hsplit, hfirst⟩
          cases before with
          | nil =>
              obtain ⟨-, rfl⟩ := List.cons.inj hsplit
              rfl
          | cons first others =>
              obtain ⟨rfl, -⟩ := List.cons.inj hsplit
              exact absurd List.mem_cons_self hfirst
      next hother =>
        constructor
        · intro hcut
          obtain ⟨⟨front, back⟩, hrest, hparts⟩ := Option.map_eq_some_iff.mp hcut
          obtain ⟨rfl, rfl⟩ := Prod.mk.inj hparts
          obtain ⟨rfl, hfront⟩ := ih.mp hrest
          refine ⟨rfl, ?_⟩
          simpa [Ne.symm hother] using hfront
        · intro hparts
          rcases hparts with ⟨hsplit, hfirst⟩
          cases before with
          | nil => exact absurd (List.cons.inj hsplit).1 hother
          | cons first others =>
              obtain ⟨rfl, hrest⟩ := List.cons.inj hsplit
              have hcut := ih.mpr ⟨hrest, fun hmem => hfirst (List.mem_cons_of_mem _ hmem)⟩
              rw [hcut]
              rfl

theorem cut_eq_none_iff {mark : Char} {text : List Char} :
    cut mark text = none ↔ mark ∉ text := by
  induction text with
  | nil => simp [cut]
  | cons c rest ih =>
      unfold cut
      split
      next hmark => simp [hmark]
      next hother => simp [ih, Ne.symm hother]

/-- The stretch of a text after its last mark is the end of the text that has
no mark and has a mark or nothing before it. -/
theorem afterLast_eq_iff {isMark : Char → Bool} {text last : List Char} :
    afterLast isMark text = last ↔
      ∃ before, text = before ++ last ∧ (∀ c ∈ last, isMark c = false) ∧
        ∀ c, before.getLast? = some c → isMark c := by
  unfold afterLast
  constructor
  · intro hlast
    subst hlast
    refine ⟨(text.reverse.dropWhile fun c => !isMark c).reverse, ?_, ?_, ?_⟩
    · rw [← List.reverse_append, List.takeWhile_append_dropWhile, List.reverse_reverse]
    · intro c hmem
      simpa using List.mem_takeWhile_imp (List.mem_reverse.mp hmem)
    · intro c hlast
      rw [List.getLast?_reverse] at hlast
      simpa using head?_dropWhile_eq_false hlast
  · intro hparts
    rcases hparts with ⟨before, rfl, hplain, hmark⟩
    rw [List.reverse_append, takeWhile_append_of_stop, List.reverse_reverse]
    · intro c hmem
      simpa using hplain c (List.mem_reverse.mp hmem)
    · intro c hhead
      rw [List.head?_reverse] at hhead
      simpa using hmark c hhead

theorem segments_eq_splitOn (mark : Char) (text : List Char) :
    segments mark text = text.splitOn mark := by
  induction text with
  | nil => rfl
  | cons c rest ih =>
      rw [List.splitOn_cons_eq_if_modifyHead, segments, ih]
      by_cases hmark : c = mark
      · simp [hmark]
      · obtain ⟨first, others, hsegments⟩ :=
          List.exists_cons_of_ne_nil (List.splitOn_ne_nil mark rest)
        simp [hmark, hsegments]

/-! ## Lines -/

theorem lines_append {line : List Char} (hline : '\n' ∉ line) (rest : List Char) :
    lines (line ++ '\n' :: rest) = line :: lines rest := by
  induction line with
  | nil => rfl
  | cons c others ih =>
      have hc : c ≠ '\n' := fun hfeed => hline (hfeed ▸ List.mem_cons_self)
      have hothers : '\n' ∉ others := fun hmem => hline (List.mem_cons_of_mem c hmem)
      rw [List.cons_append, lines, if_neg hc, ih hothers]

theorem lines_flatMap {α : Type} {lineOf : α → List Char} {elements : List α}
    (hlines : ∀ element ∈ elements, '\n' ∉ lineOf element) :
    lines (elements.flatMap fun element => lineOf element ++ ['\n']) = elements.map lineOf := by
  induction elements with
  | nil => rfl
  | cons element others ih =>
      obtain ⟨hline, hothers⟩ := List.forall_mem_cons.mp hlines
      rw [List.flatMap_cons, List.append_assoc, List.singleton_append, lines_append hline,
        ih hothers, List.map_cons]

theorem map_eq_ok_iff {ε α β : Type} {f : α → β} {outcome : Except ε α} {result : β} :
    f <$> outcome = .ok result ↔ ∃ value, outcome = .ok value ∧ f value = result := by
  cases outcome with
  | error error => simp [Functor.map, Except.map]
  | ok value => simp [Functor.map, Except.map]

theorem map_append_map_append {ε α : Type} (first second : List α) (outcome : Except ε (List α)) :
    (first ++ ·) <$> ((second ++ ·) <$> outcome) = ((first ++ second) ++ ·) <$> outcome := by
  cases outcome with
  | error error => rfl
  | ok others => exact congrArg Except.ok (List.append_assoc first second others).symm

section Scan

variable {σ ε α : Type}
  {step : σ → (c : Char) → (rest : List Char) → Except ε (Scanned σ α (c :: rest))}

theorem scanAll_nil_eq_ok_iff {state : σ} {found : List α} :
    scanAll step state [] = .ok found ↔ found = [] := by
  rw [scanAll_nil, Except.ok.injEq, eq_comm]

theorem scanAll_cons_of_step {state : σ} {c : Char} {rest : List Char}
    {scanned : Scanned σ α (c :: rest)} (hstep : step state c rest = .ok scanned) :
    scanAll step state (c :: rest) =
      (scanned.items ++ ·) <$> scanAll step scanned.state scanned.rest := by
  rw [scanAll, hstep]

theorem scanAll_cons_eq_ok_iff {state : σ} {c : Char} {rest : List Char} {found : List α} :
    scanAll step state (c :: rest) = .ok found ↔
      ∃ scanned others, step state c rest = .ok scanned ∧
        scanAll step scanned.state scanned.rest = .ok others ∧
        found = scanned.items ++ others := by
  rw [scanAll]
  cases hstep : step state c rest with
  | error fault => simp
  | ok scanned =>
      simp only [map_eq_ok_iff]
      constructor
      · intro hfound
        obtain ⟨others, hothers, rfl⟩ := hfound
        exact ⟨scanned, others, rfl, hothers, rfl⟩
      · intro hfound
        obtain ⟨first, others, hfirst, hothers, rfl⟩ := hfound
        obtain rfl := Except.ok.inj hfirst
        exact ⟨others, hothers, rfl⟩

end Scan

end Treatise.Text
