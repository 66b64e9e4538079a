import Mathlib.Algebra.GroupWithZero.Nat
import Transform.Lib.Lru

/-!
# Lib.Newest — the newest items of a list

The items of a list are taken from its end for as long as their weights fit a budget together.  The last item is taken even
where it does not fit.  What is taken is the longest suffix that fits (`isLongestSuffix_newestWithin`), so a list that
fits is taken whole.
-/

namespace Transform.Lib

section Budget

variable {α : Type} (weight : α → ℕ) (budget : ℕ)

/-- The items that are left, the newest first, and what is taken of the list, the oldest first. -/
def takeNewest : List α → List α → ℕ → List α
  | [], taken, _ => taken
  | a :: rest, taken, used =>
    if taken ≠ [] ∧ budget < used + weight a then taken else takeNewest rest (a :: taken) (used + weight a)

def newestWithin (l : List α) : List α := takeNewest weight budget l.reverse [] 0

def totalWeight (l : List α) : ℕ := (l.map weight).sum

/-- One item, or items whose weights fit together. -/
def FitsBudget (l : List α) : Prop := l.length ≤ 1 ∨ totalWeight weight l ≤ budget

variable {weight budget} {l s t taken rest : List α} {a : α}

theorem totalWeight_cons : totalWeight weight (a :: l) = weight a + totalWeight weight l := by
  simp [totalWeight]

theorem totalWeight_le_of_suffix (h : s <:+ l) : totalWeight weight s ≤ totalWeight weight l := by
  obtain ⟨front, rfl⟩ := h
  simp [totalWeight]

theorem IsLongestSuffix.unique {p : List α → Prop} (hs : IsLongestSuffix p l s) (ht : IsLongestSuffix p l t) : s = t :=
  (ht.longest s hs.suffix hs.allowed).eq_of_length_le (hs.longest t ht.suffix ht.allowed).length_le

theorem isLongestSuffix_takeNewest (htaken : FitsBudget weight budget taken) :
    IsLongestSuffix (FitsBudget weight budget) (rest.reverse ++ taken)
      (takeNewest weight budget rest taken (totalWeight weight taken)) := by
  induction rest generalizing taken with
  | nil => exact ⟨List.suffix_refl taken, htaken, fun t ht _ => ht⟩
  | cons a rest ih =>
    have hlist : (a :: rest).reverse ++ taken = rest.reverse ++ a :: taken := by simp
    rw [hlist, takeNewest]
    by_cases hstop : taken ≠ [] ∧ budget < totalWeight weight taken + weight a
    · rw [if_pos hstop]
      refine ⟨(List.suffix_cons a taken).trans (List.suffix_append ..), htaken, fun t ht hfits => ?_⟩
      rcases List.suffix_or_suffix_of_suffix ht (List.suffix_append rest.reverse (a :: taken)) with hwithin | hbeyond
      · rcases List.suffix_cons_iff.1 hwithin with rfl | hwithin
        · rcases hfits with hone | hfits
          · rcases taken with _ | ⟨b, taken⟩
            · exact absurd rfl hstop.1
            · simp at hone
          · rw [totalWeight_cons] at hfits
            omega
        · exact hwithin
      · -- A suffix beyond the item that does not fit has two items, and weighs more than the budget.
        have hweight : totalWeight weight (a :: taken) ≤ totalWeight weight t := totalWeight_le_of_suffix hbeyond
        rw [totalWeight_cons] at hweight
        rcases hfits with hone | hfits
        · have hlength := hbeyond.length_le
          have hpos := List.length_pos_iff.2 hstop.1
          rw [List.length_cons] at hlength
          omega
        · omega
    · rw [if_neg hstop]
      have hused : totalWeight weight taken + weight a = totalWeight weight (a :: taken) := by
        rw [totalWeight_cons, Nat.add_comm]
      rw [hused]
      refine ih ?_
      by_cases hnil : taken = []
      · exact .inl (by simp [hnil])
      · exact .inr (by
          have := not_and.1 hstop hnil
          omega)

/-- **What is taken** is the longest suffix that fits. -/
theorem isLongestSuffix_newestWithin :
    IsLongestSuffix (FitsBudget weight budget) l (newestWithin weight budget l) := by
  have h : IsLongestSuffix (FitsBudget weight budget) (l.reverse.reverse ++ []) (newestWithin weight budget l) :=
    isLongestSuffix_takeNewest (.inl (Nat.zero_le 1))
  rwa [List.reverse_reverse, List.append_nil] at h

theorem newestWithin_suffix : newestWithin weight budget l <:+ l := isLongestSuffix_newestWithin.suffix

theorem newestWithin_eq_self (h : totalWeight weight l ≤ budget) : newestWithin weight budget l = l :=
  isLongestSuffix_newestWithin.unique ⟨List.suffix_refl l, .inr h, fun _ ht _ => ht⟩

theorem getLast_mem_newestWithin : a ∈ (newestWithin weight budget (l ++ [a])).getLast? := by
  have hlast : [a] <:+ newestWithin weight budget (l ++ [a]) :=
    isLongestSuffix_newestWithin.longest [a] (List.suffix_append l [a]) (.inl le_rfl)
  obtain ⟨front, hfront⟩ := hlast
  rw [← hfront]
  simp

end Budget

end Transform.Lib
