import Mathlib.Algebra.BigOperators.Group.List.Basic
import Mathlib.Data.Int.Order.Basic
import Mathlib.Data.List.Dedup
import Mathlib.Tactic.Ring

/-!
# Lib.Histogram — rows grouped by a key and joined to listed keys

A query groups rows by a key and a reader looks the groups of the keys that it expects up.  What it sums is the number of
rows whose key it expects (`sum_countP_keys`), so nothing is lost exactly if it expects every key (`sum_countP_keys_iff`).
Over the integers the keys are the aligned tiles of one size: a tile is the key of what lies in it
(`alignDown_eq_iff`), and the tiles from one on hold what lies between their ends (`alignDown_mem_tiles`).
-/

namespace Transform.Lib

section Groups

variable {α β κ : Type} [DecidableEq κ] {key : α → κ} {agg : κ → List α → β} {name : β → κ} {rows : List α} {keys : List κ}

def groups (key : α → κ) (agg : κ → List α → β) (rows : List α) : List β :=
  (rows.map key).dedup.map fun k => agg k (rows.filter (key · = k))

theorem find?_groups (hname : ∀ k rs, name (agg k rs) = k) {measured : List β} (hperm : measured.Perm (groups key agg rows))
    (k : κ) :
    measured.find? (name · = k) = if k ∈ rows.map key then some (agg k (rows.filter (key · = k))) else none := by
  by_cases hk : k ∈ rows.map key
  · rw [if_pos hk]
    have hmem : agg k (rows.filter (key · = k)) ∈ measured :=
      hperm.mem_iff.2 (List.mem_map.2 ⟨k, List.mem_dedup.2 hk, rfl⟩)
    have hfound : (measured.find? (name · = k)).isSome := by
      rw [List.find?_isSome]
      exact ⟨_, hmem, by simp [hname]⟩
    obtain ⟨g, hg⟩ := Option.isSome_iff_exists.1 hfound
    have hgname : name g = k := by simpa using List.find?_some hg
    obtain ⟨k', _, rfl⟩ := List.mem_map.1 (hperm.mem_iff.1 (List.mem_of_find?_eq_some hg))
    rw [hname] at hgname
    subst hgname
    exact hg
  · rw [if_neg hk, List.find?_eq_none]
    intro g hg hgk
    obtain ⟨k', hk', rfl⟩ := List.mem_map.1 (hperm.mem_iff.1 hg)
    rw [hname, decide_eq_true_eq] at hgk
    subst hgk
    exact hk (List.mem_dedup.1 hk')

theorem sum_indicator_keys (hnodup : keys.Nodup) (k : κ) :
    (keys.map fun k' => if k = k' then 1 else 0).sum = if k ∈ keys then 1 else 0 := by
  induction keys with
  | nil => simp
  | cons k' keys ih =>
    have htail := ih (List.nodup_cons.1 hnodup).2
    rw [List.map_cons, List.sum_cons, htail]
    by_cases h : k = k'
    · have hout : k ∉ keys := h ▸ (List.nodup_cons.1 hnodup).1
      simp [h, h ▸ hout]
    · simp [h]

theorem sum_countP_keys (hnodup : keys.Nodup) (p : α → Bool) :
    (keys.map fun k => (rows.filter (key · = k)).countP p).sum = rows.countP fun r => p r && decide (key r ∈ keys) := by
  induction rows with
  | nil => simp
  | cons r rows ih =>
    have hsplit : ∀ k, ((r :: rows).filter (key · = k)).countP p =
        (if key r = k then (if p r then 1 else 0) else 0) + (rows.filter (key · = k)).countP p := by
      intro k
      by_cases h : key r = k
      · simp [h, List.countP_cons, Nat.add_comm]
      · simp [h]
    simp only [hsplit, List.sum_map_add, ih]
    rw [List.countP_cons, Nat.add_comm]
    congr 1
    cases hp : p r with
    | true => simpa using sum_indicator_keys hnodup (key r)
    | false => simp

theorem sum_countP_keys_iff (hnodup : keys.Nodup) (p : α → Bool) :
    (keys.map fun k => (rows.filter (key · = k)).countP p).sum = rows.countP p ↔
      ∀ r ∈ rows, p r = true → key r ∈ keys := by
  have hcount : rows.countP (fun r => p r && decide (key r ∈ keys)) = (rows.filter p).countP (key · ∈ keys) := by
    rw [List.countP_filter]
    exact List.countP_congr fun r _ => by simp [and_comm]
  rw [sum_countP_keys hnodup, hcount, List.countP_eq_length_filter (p := p), List.countP_eq_length]
  constructor
  · intro h r hr hp
    simpa using h r (List.mem_filter.2 ⟨hr, hp⟩)
  · intro h r hr
    simpa using h r (List.mem_filter.1 hr).1 (List.mem_filter.1 hr).2

end Groups

/-! ## Aligned tiles -/

section Tiles

variable {size first x t : ℤ} {n : ℕ}

/-- The multiple of `size` at or below a number. -/
def alignDown (size x : ℤ) : ℤ := x - x % size

theorem alignDown_eq_mul (size x : ℤ) : alignDown size x = x / size * size := by
  have h := Int.emod_add_mul_ediv x size
  rw [alignDown, Int.mul_comm]
  omega

theorem dvd_alignDown (size x : ℤ) : size ∣ alignDown size x := by
  rw [alignDown_eq_mul]
  exact Dvd.intro_left _ rfl

theorem alignDown_le (hsize : 0 < size) : alignDown size x ≤ x := by
  have h := Int.emod_nonneg x (Int.ne_of_gt hsize)
  rw [alignDown]
  omega

theorem lt_alignDown_add (hsize : 0 < size) : x < alignDown size x + size := by
  have h := Int.emod_lt_of_pos x hsize
  rw [alignDown]
  omega

theorem alignDown_eq_iff (hsize : 0 < size) (ht : size ∣ t) : alignDown size x = t ↔ t ≤ x ∧ x < t + size := by
  constructor
  · rintro rfl
    exact ⟨alignDown_le hsize, lt_alignDown_add hsize⟩
  · rintro ⟨hle, hlt⟩
    obtain ⟨k, rfl⟩ := ht
    have hlow : k ≤ x / size := (Int.le_ediv_iff_mul_le hsize).2 (by rw [Int.mul_comm]; exact hle)
    have hhigh : x / size < k + 1 := Int.ediv_lt_of_lt_mul hsize (by rw [Int.add_mul, Int.mul_comm, Int.one_mul]; exact hlt)
    have hdiv : x / size = k := by omega
    rw [alignDown_eq_mul, hdiv, Int.mul_comm]

/-- The starts of `n` tiles that follow one another. -/
def tiles (first size : ℤ) (n : ℕ) : List ℤ := (List.range n).map fun i : ℕ => first + size * (i : ℤ)

theorem mem_tiles : t ∈ tiles first size n ↔ ∃ i < n, first + size * i = t := by
  simp [tiles]

theorem tiles_succ : tiles first size (n + 1) = first :: tiles (first + size) size n := by
  rw [tiles, tiles, List.range_succ_eq_map, List.map_cons, List.map_map]
  congr 1
  · simp
  · refine List.map_congr_left fun i _ => ?_
    simp only [Function.comp_apply, Nat.cast_succ]
    ring

theorem pairwise_tiles (hsize : 0 < size) : (tiles first size n).Pairwise fun a b => a + size ≤ b := by
  rw [tiles, List.pairwise_map]
  refine List.pairwise_lt_range.imp fun {i j} hij => ?_
  have hstep : ((i : ℤ) + 1) ≤ j := by omega
  have hmul := Int.mul_le_mul_of_nonneg_left hstep (Int.le_of_lt hsize)
  rw [Int.mul_add, Int.mul_one] at hmul
  omega

theorem nodup_tiles (hsize : 0 < size) : (tiles first size n).Nodup :=
  (pairwise_tiles hsize).imp fun h heq => by omega

theorem isChain_tiles : ∀ {n : ℕ} {first : ℤ}, (tiles first size n).IsChain fun a b => b = a + size
  | 0, _ => .nil
  | 1, first => by
    rw [tiles_succ]
    exact .singleton _
  | n + 2, first => by
    have ih : (tiles (first + size) size (n + 1)).IsChain fun a b => b = a + size := isChain_tiles
    rw [tiles_succ] at ih
    rw [tiles_succ, tiles_succ]
    exact List.isChain_cons_cons.2 ⟨rfl, ih⟩

theorem dvd_of_mem_tiles (hfirst : size ∣ first) (ht : t ∈ tiles first size n) : size ∣ t := by
  obtain ⟨i, _, rfl⟩ := mem_tiles.1 ht
  exact Int.dvd_add hfirst (Int.dvd_mul_right size i)

theorem alignDown_mem_tiles (hsize : 0 < size) (hfirst : size ∣ first) :
    alignDown size x ∈ tiles first size n ↔ first ≤ x ∧ x < first + size * n := by
  constructor
  · intro h
    have hdvd := dvd_of_mem_tiles hfirst h
    obtain ⟨hle, hlt⟩ := (alignDown_eq_iff hsize hdvd).1 rfl
    obtain ⟨i, hi, hit⟩ := mem_tiles.1 h
    have hstep : (i : ℤ) + 1 ≤ n := by omega
    have hmul := Int.mul_le_mul_of_nonneg_left hstep (Int.le_of_lt hsize)
    have hpos : 0 ≤ size * (i : ℤ) := Int.mul_nonneg (Int.le_of_lt hsize) (by omega)
    rw [Int.mul_add, Int.mul_one] at hmul
    omega
  · rintro ⟨hle, hlt⟩
    obtain ⟨k, rfl⟩ := hfirst
    have hlow : k ≤ x / size := (Int.le_ediv_iff_mul_le hsize).2 (by rw [Int.mul_comm]; exact hle)
    have hhigh : x / size < k + n :=
      Int.ediv_lt_of_lt_mul hsize (by rw [Int.mul_comm, Int.mul_add]; exact hlt)
    refine mem_tiles.2 ⟨(x / size - k).toNat, by omega, ?_⟩
    have hcast : (((x / size - k).toNat : ℕ) : ℤ) = x / size - k := Int.toNat_of_nonneg (by omega)
    rw [hcast, alignDown_eq_mul, Int.mul_sub, Int.mul_comm size (x / size)]
    omega

end Tiles

end Transform.Lib
