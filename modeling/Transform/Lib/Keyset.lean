import Mathlib.Data.List.Sort
import Mathlib.Tactic.SplitIfs

/-!
# Lib.Keyset — pages of a table that grows at its upper end

Rows in descending order of their keys are asked for in pages: each page is asked for with the key of the last row seen, and
holds the first rows below it.

* `found_eq_take`: while rows are added above those there were, what is found from a position on is what the first table
  has below it.
* `follow_exhausts`: a reader that goes on from page to page has, when it ends, everything from its position on.
-/

namespace Transform.Lib

/-! ## Rows in order -/

section Descending

variable {ρ κ : Type} [LinearOrder κ] (key : ρ → κ)

def descending (rows : List ρ) : List ρ := rows.mergeSort fun a b => decide (key b ≤ key a)

/-- The rows are in strictly descending order of their keys. -/
def Descends (rows : List ρ) : Prop := rows.Pairwise fun a b => key b < key a

variable {key} {rows rows' : List ρ}

theorem descending_perm (key : ρ → κ) (rows : List ρ) : (descending key rows).Perm rows := List.mergeSort_perm _ _

theorem descending_descends (h : (rows.map key).Nodup) : Descends key (descending key rows) := by
  have hsorted : (descending key rows).Pairwise fun a b => decide (key b ≤ key a) = true := by
    apply List.pairwise_mergeSort
    · intro a b c hab hbc
      rw [decide_eq_true_eq] at *
      exact le_trans hbc hab
    · intro a b
      rw [Bool.or_eq_true, decide_eq_true_eq, decide_eq_true_eq]
      exact le_total (key b) (key a)
  have hnodup : (descending key rows).Pairwise fun a b => key a ≠ key b :=
    List.pairwise_map.mp (((descending_perm key rows).map key).nodup_iff.mpr h)
  refine (hsorted.and hnodup).imp ?_
  rintro a b ⟨hle, hne⟩
  exact lt_of_le_of_ne (decide_eq_true_eq.mp hle) hne.symm

/-- Two strict arrangements of one set of rows are one. -/
theorem Descends.eq_of_perm (h : Descends key rows) (h' : Descends key rows') (hperm : rows.Perm rows') : rows = rows' :=
  hperm.eq_of_pairwise (fun _ _ _ _ hab hba => absurd hab (lt_asymm hba)) h h'

theorem Descends.filter_below {l r : List ρ} {row : ρ} (h : Descends key (l ++ row :: r)) :
    (l ++ row :: r).filter (fun e => decide (key e < key row)) = r := by
  obtain ⟨-, hrest, hleft⟩ := List.pairwise_append.mp h
  obtain ⟨hright, -⟩ := List.pairwise_cons.mp hrest
  have hl : l.filter (fun e => decide (key e < key row)) = [] := by
    rw [List.filter_eq_nil_iff]
    intro e he
    rw [decide_eq_true_eq]
    exact lt_asymm (hleft e he row List.mem_cons_self)
  have hr : r.filter (fun e => decide (key e < key row)) = r := by
    rw [List.filter_eq_self]
    exact fun e he => decide_eq_true (hright e he)
  rw [List.filter_append, hl, List.filter_cons_of_neg (by simp), hr, List.nil_append]

end Descending

/-! ## Tables that grow -/

section Growing

variable {ρ κ : Type} [LinearOrder κ] {key : ρ → κ} {base table l r : List ρ} {row : ρ}

/-- The table holds the rows of the first one, and above them others. -/
def GrownFrom (key : ρ → κ) (base table : List ρ) : Prop :=
  ∃ newer, table.Perm (base ++ newer) ∧ ∀ e ∈ newer, ∀ b ∈ base, key b < key e

theorem GrownFrom.refl (base : List ρ) : GrownFrom key base base := ⟨[], by simp, by simp⟩

theorem GrownFrom.filter (h : GrownFrom key base table) (p : ρ → Bool) :
    GrownFrom key (base.filter p) (table.filter p) := by
  obtain ⟨newer, hperm, hnewer⟩ := h
  refine ⟨newer.filter p, ?_, ?_⟩
  · rw [← List.filter_append]
    exact hperm.filter p
  · intro e he b hb
    exact hnewer e (List.mem_of_mem_filter he) b (List.mem_of_mem_filter hb)

theorem descending_below (hbase : (base.map key).Nodup) (hgrown : GrownFrom key base table)
    (hrow : descending key base = l ++ row :: r) :
    descending key (table.filter fun e => decide (key e < key row)) = r := by
  obtain ⟨newer, hperm, hnewer⟩ := hgrown
  have hdescends := descending_descends hbase
  rw [hrow] at hdescends
  have hmem : row ∈ base := (descending_perm key base).subset (by rw [hrow]; simp)
  have hnone : newer.filter (fun e => decide (key e < key row)) = [] := by
    rw [List.filter_eq_nil_iff]
    intro e he
    rw [decide_eq_true_eq]
    exact lt_asymm (hnewer e he row hmem)
  have hbelow : (table.filter fun e => decide (key e < key row)).Perm r := by
    refine (hperm.filter _).trans ?_
    rw [List.filter_append, hnone, List.append_nil]
    have h := (descending_perm key base).symm.filter fun e => decide (key e < key row)
    rwa [hrow, hdescends.filter_below] at h
  have hr : Descends key r := (List.pairwise_cons.mp (List.pairwise_append.mp hdescends).2.1).2
  refine (descending_descends ?_).eq_of_perm hr ((descending_perm key _).trans hbelow)
  rw [(hbelow.map key).nodup_iff]
  refine List.pairwise_map.mpr (hr.imp ?_)
  exact fun hlt => ne_of_gt hlt

end Growing

/-! ## Pages -/

section Pages

variable {α π γ : Type}

/-- The rows of a page of what was found, and its last row if more was found. -/
def pageOf (limit : ℕ) (found : List α) : List α × Option α :=
  (found.take limit, if limit < found.length then (found.take limit).getLast? else none)

theorem pageOf_take {limit : ℕ} (hlimit : 1 ≤ limit) (rest : List α) :
    pageOf limit (rest.take (limit + 1)) = (rest, none) ∨
      ∃ init last after, pageOf limit (rest.take (limit + 1)) = (init ++ [last], some last) ∧
        init ++ last :: after = rest := by
  unfold pageOf
  simp only [List.take_take, List.length_take]
  rw [Nat.min_eq_left (Nat.le_succ limit)]
  by_cases hlong : limit < rest.length
  · right
    rw [if_pos (by omega)]
    have hne : rest.take limit ≠ [] := by
      intro hnil
      have hlength := congrArg List.length hnil
      rw [List.length_take, List.length_nil] at hlength
      omega
    refine ⟨(rest.take limit).dropLast, (rest.take limit).getLast hne, rest.drop limit, ?_, ?_⟩
    · rw [List.dropLast_append_getLast hne, List.getLast?_eq_some_getLast hne]
    · rw [← List.singleton_append, ← List.append_assoc, List.dropLast_append_getLast hne, List.take_append_drop]
  · left
    rw [if_neg (by omega), List.take_of_length_le (by omega)]

/-- A reader asks for page after page, each with the cursor of the page before; `none` where a page is refused or the pages
do not end. -/
def follow (ask : ℕ → Option γ → Option (π × Option γ)) : (fuel request : ℕ) → Option γ → Option (List π)
  | 0, _, _ => none
  | fuel + 1, request, cursor => do
    let (page, next) ← ask request cursor
    match next with
    | none => some [page]
    | some next => (follow ask fuel (request + 1) (some next)).map (page :: ·)

/-- Every page gives the first of what is left: all of it, or some of it and the cursor of what is left then. -/
def Advances (ask : ℕ → Option γ → Option (π × Option γ)) (items : π → List α)
    (At : ℕ → Option γ → List α → Prop) : Prop :=
  ∀ request cursor rest, At request cursor rest → ∃ page next, ask request cursor = some (page, next) ∧
    ((next = none ∧ items page = rest) ∨ ∃ last after, items page ++ after = rest ∧ last ∈ items page ∧
      ∃ c, next = some c ∧ At (request + 1) (some c) after)

/-- Pages that show what other pages hold advance as these do. -/
theorem Advances.map {β π' : Type} {ask : ℕ → Option γ → Option (π × Option γ)}
    {ask' : ℕ → Option γ → Option (π' × Option γ)} {items : π → List α} {items' : π' → List β}
    {At : ℕ → Option γ → List α → Prop} {shown : ℕ → π × Option γ → π'} {f : α → β} (h : Advances ask items At)
    (hask : ∀ request cursor, ask' request cursor = (ask request cursor).map fun p => (shown request p, p.2))
    (hitems : ∀ request p, items' (shown request p) = (items p.1).map f) :
    Advances ask' items' fun request cursor rest' => ∃ rest, At request cursor rest ∧ rest.map f = rest' := by
  rintro request cursor _ ⟨rest, hat, rfl⟩
  obtain ⟨page, next, hpage, hcase⟩ := h request cursor rest hat
  refine ⟨shown request (page, next), next, by rw [hask, hpage]; rfl, ?_⟩
  rw [hitems]
  rcases hcase with ⟨hnone, hrest⟩ | ⟨last, after, hrest, hlast, c, hnext, hat'⟩
  · exact Or.inl ⟨hnone, by rw [hrest]⟩
  · refine Or.inr ⟨f last, after.map f, ?_, List.mem_map_of_mem hlast, c, hnext, after, hat', rfl⟩
    rw [← hrest, List.map_append]

/-- **A reader that goes on has everything from its position on, and ends.** -/
theorem follow_exhausts {ask : ℕ → Option γ → Option (π × Option γ)} {items : π → List α} {At : ℕ → Option γ → List α → Prop}
    (h : Advances ask items At) {fuel request : ℕ} {cursor : Option γ} {rest : List α} (hat : At request cursor rest)
    (hfuel : rest.length < fuel) :
    ∃ pages, follow ask fuel request cursor = some pages ∧ pages.flatMap items = rest := by
  induction fuel generalizing request cursor rest with
  | zero => omega
  | succ fuel ih =>
    obtain ⟨page, next, hask, ⟨rfl, hitems⟩ | ⟨last, after, hafter, hlast, c, rfl, hnext⟩⟩ := h request cursor rest hat
    · refine ⟨[page], ?_, by simp [hitems]⟩
      rw [follow, hask]
      rfl
    · have hshort : after.length < fuel := by
        have hpos : 0 < (items page).length := List.length_pos_of_mem hlast
        have hlength := congrArg List.length hafter
        rw [List.length_append] at hlength
        omega
      obtain ⟨pages, hpages, hrest⟩ := ih hnext hshort
      refine ⟨page :: pages, ?_, by rw [List.flatMap_cons, hrest, hafter]⟩
      rw [follow, hask]
      show (follow ask fuel (request + 1) (some c)).map (page :: ·) = _
      rw [hpages]
      rfl

end Pages

end Transform.Lib
