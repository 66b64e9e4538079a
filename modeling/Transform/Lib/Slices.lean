import Mathlib.Algebra.BigOperators.Group.List.Basic
import Mathlib.Algebra.Order.BigOperators.Group.Finset
import Mathlib.Data.Finset.Dedup

/-!
# Lib.Slices — a list in numbered slices

The slices of a list are the runs of `size` items at the multiples of `size`; the last one may be shorter.  All of them
in order are the list (`slices_eq`), and no list of different slices that leaves one out is (`slices_ne`).
-/

namespace Transform.Lib

variable {α : Type} {size n : ℕ} {xs : List α}

/-- The slice number `i` of a list, counted from 0. -/
def sliceAt (size : ℕ) (xs : List α) (i : ℕ) : List α := (xs.drop (i * size)).take size

theorem slices_take : (List.range n).flatMap (sliceAt size xs) = xs.take (n * size) := by
  induction n with
  | zero => simp
  | succ n ih =>
    rw [List.range_succ, List.flatMap_append, ih, List.flatMap_singleton, Nat.succ_mul, List.take_add]
    rfl

theorem slices_eq (h : xs.length ≤ n * size) : (List.range n).flatMap (sliceAt size xs) = xs := by
  rw [slices_take, List.take_of_length_le h]

theorem sliceAt_pos {i : ℕ} (hsize : 0 < size) (h : i * size < xs.length) : 0 < (sliceAt size xs i).length := by
  unfold sliceAt
  rw [List.length_take, List.length_drop]
  omega

theorem length_flatMap_eq {keys : List ℕ} (hkeys : keys.Nodup) {f : ℕ → List α} :
    (keys.flatMap f).length = ∑ i ∈ keys.toFinset, (f i).length := by
  rw [List.length_flatMap, List.sum_toFinset _ hkeys]

theorem slices_ne (h : xs.length ≤ n * size) {keys : List ℕ} (hkeys : keys.Nodup) (hbelow : ∀ i ∈ keys, i < n) {j : ℕ}
    (hj : j < n) (hmissing : j ∉ keys) (hpos : 0 < (sliceAt size xs j).length) : keys.flatMap (sliceAt size xs) ≠ xs := by
  intro heq
  have hall : xs.length = ∑ i ∈ (List.range n).toFinset, (sliceAt size xs i).length := by
    rw [← length_flatMap_eq List.nodup_range, slices_eq h]
  have hsome : xs.length = ∑ i ∈ keys.toFinset, (sliceAt size xs i).length := by
    rw [← length_flatMap_eq hkeys, heq]
  have hlt : ∑ i ∈ keys.toFinset, (sliceAt size xs i).length <
      ∑ i ∈ (List.range n).toFinset, (sliceAt size xs i).length := by
    refine Finset.sum_lt_sum_of_subset (fun i hi => ?_) (i := j) ?_ ?_ hpos fun _ _ _ => Nat.zero_le _
    · simpa using hbelow i (by simpa using hi)
    · simpa using hj
    · simpa using hmissing
  omega

end Transform.Lib
