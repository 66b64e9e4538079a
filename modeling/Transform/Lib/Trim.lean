import Mathlib.Data.List.DropRight
import Mathlib.Tactic.Common

/-!
# Lib.Trim — lists without what is dropped at their ends

`trim p l` is `l` without the elements at both ends that satisfy `p`, as `str.strip` takes blanks away.
-/

namespace Transform.Lib

section Trim

variable {α : Type} {p q : α → Bool} {l before after : List α}

def trim (p : α → Bool) (l : List α) : List α := (l.dropWhile p).rdropWhile p

/-- What is trimmed away satisfies `p`. -/
theorem trim_split (p : α → Bool) (l : List α) : ∃ before after, l = before ++ trim p l ++ after ∧
    (∀ a ∈ before, p a = true) ∧ ∀ a ∈ after, p a = true := by
  refine ⟨l.takeWhile p, (l.dropWhile p).rtakeWhile p, ?_, ?_, ?_⟩
  · rw [trim, List.append_assoc, List.rdropWhile_append_rtakeWhile, List.takeWhile_append_dropWhile]
  · exact fun a ha => List.mem_takeWhile_imp ha
  · exact fun a ha => List.mem_rtakeWhile_imp ha

theorem trim_eq_nil (h : ∀ a ∈ l, p a = true) : trim p l = [] := by
  rw [trim, List.dropWhile_eq_nil_iff.mpr h, List.rdropWhile_nil]

/-- A list whose ends do not satisfy `p` is left as it is. -/
theorem trim_eq_self (hhead : ∀ a ∈ l.head?, p a = false) (hlast : ∀ a ∈ l.getLast?, p a = false) : trim p l = l := by
  have hdrop : l.dropWhile p = l := by
    cases l with
    | nil => rfl
    | cons a l => exact List.dropWhile_cons_of_neg (by rw [hhead a rfl]; exact Bool.false_ne_true)
  rw [trim, hdrop, List.rdropWhile_eq_self_iff]
  intro hne
  rw [hlast _ (List.getLast?_eq_getLast_of_ne_nil hne)]
  exact Bool.false_ne_true

theorem head_trim : ∀ a ∈ (trim p l).head?, p a = false := by
  intro a ha
  obtain ⟨rest, hrest⟩ := List.rdropWhile_prefix p (l := l.dropWhile p)
  have hhead : (l.dropWhile p).head? = some a := by
    have ha : ((l.dropWhile p).rdropWhile p).head? = some a := ha
    rw [← hrest, List.head?_append, ha]
    rfl
  have hnot := List.head?_dropWhile_not p l
  rw [hhead] at hnot
  exact hnot

theorem trim_before (h : ∀ a ∈ before, p a = true) : trim p (before ++ l) = trim p l := by
  rw [trim, List.dropWhile_append_of_pos h, trim]

theorem rdropWhile_append_of_pos (h : ∀ a ∈ after, p a = true) : (l ++ after).rdropWhile p = l.rdropWhile p := by
  unfold List.rdropWhile
  rw [List.reverse_append, List.dropWhile_append_of_pos fun a ha => h a (List.mem_reverse.mp ha)]

theorem trim_after (h : ∀ a ∈ after, p a = true) : trim p (l ++ after) = trim p l := by
  by_cases hall : ∀ a ∈ l, p a = true
  · rw [trim_eq_nil hall, trim_eq_nil]
    intro a ha
    rcases List.mem_append.mp ha with ha | ha
    · exact hall a ha
    · exact h a ha
  · have hne : l.dropWhile p ≠ [] := fun hnil => hall (List.dropWhile_eq_nil_iff.mp hnil)
    have hdrop : (l ++ after).dropWhile p = l.dropWhile p ++ after := by
      rw [List.dropWhile_append, if_neg (by rw [List.isEmpty_iff]; exact hne)]
    rw [trim, hdrop, rdropWhile_append_of_pos h, trim]

/-- Trimming before leaving elements out makes no difference to a trimming after it. -/
theorem trim_filter (p q : α → Bool) (l : List α) : trim p ((trim p l).filter q) = trim p (l.filter q) := by
  obtain ⟨before, after, hsplit, hbefore, hafter⟩ := trim_split p l
  conv_rhs => rw [hsplit, List.filter_append, List.filter_append]
  rw [trim_after, trim_before]
  · exact fun a ha => hbefore a (List.mem_of_mem_filter ha)
  · exact fun a ha => hafter a (List.mem_of_mem_filter ha)

end Trim

end Transform.Lib
