import Mathlib.Data.List.Nodup
import Mathlib.Data.List.Perm.Subperm
import Mathlib.Order.Basic
import Mathlib.Logic.Function.Basic

/-!
# Lib.Forest — parent links

`t x` is `none` where there is no node `x`, `some none` for a root and `some (some p)` for a child of `p`.

* `Forest t`: from every node the links lead up to a root.
* `Level t x n y`: `y` lies `n` steps below `x`; `Under t x y`: `y` is `x` or lies below it.
* Inserting a node, making one a root and removing a part that is closed downwards keep a forest; putting `x` under `p`
  keeps it exactly if `p` is not under `x` (`forest_reparent`).
* With finitely many nodes no way up or down is longer than they are many (`depth_lt`, `level_lt`).
-/

namespace Transform.Lib

variable {α : Type}

/-! ## Definitions -/

section Defs

variable (t : α → Option (Option α))

/-- `x` reaches a root in `n` steps upwards. -/
inductive Depth : α → ℕ → Prop
  | root {x : α} (h : t x = some none) : Depth x 0
  | child {x p : α} {n : ℕ} (h : t x = some (some p)) (hp : Depth p n) : Depth x (n + 1)

/-- From every node the parent links lead to a root. -/
def Forest : Prop := ∀ x, t x ≠ none → ∃ n, Depth t x n

/-- `y` lies `n` steps below `x`. -/
inductive Level (x : α) : ℕ → α → Prop
  | self : Level x 0 x
  | child {n : ℕ} {p y : α} (h : t y = some (some p)) (hp : Level x n p) : Level x (n + 1) y

/-- `y` is `x` or lies below it. -/
def Under (x y : α) : Prop := ∃ n, Level t x n y

/-- `y` lies below `x`. -/
def Below (x y : α) : Prop := ∃ n, Level t x (n + 1) y

end Defs

variable {t : α → Option (Option α)} {x y p : α} {m n : ℕ}

/-! ## Depths and levels -/

section Levels

theorem depth_unique (hm : Depth t x m) : Depth t x n → m = n := by
  induction hm generalizing n with
  | root h =>
    intro hn
    cases hn with
    | root _ => rfl
    | child h' _ => rw [h] at h'; cases h'
  | child h _ ih =>
    intro hn
    cases hn with
    | root h' => rw [h] at h'; cases h'
    | child h' hp' =>
      have hparent := Option.some.inj (Option.some.inj (h.symm.trans h'))
      subst hparent
      rw [ih hp']

theorem depth_level (hx : Depth t x m) (hy : Level t x n y) : Depth t y (m + n) := by
  induction hy with
  | self => exact hx
  | child h _ ih => exact .child h ih

theorem level_unique {k : ℕ} (hx : Depth t x k) (hm : Level t x m y) (hn : Level t x n y) : m = n := by
  have h := depth_unique (depth_level hx hm) (depth_level hx hn)
  omega

theorem level_zero : Level t x 0 y ↔ y = x := by
  constructor
  · intro h
    cases h
    rfl
  · rintro rfl
    exact .self

theorem level_succ : Level t x (n + 1) y ↔ ∃ p, t y = some (some p) ∧ Level t x n p := by
  constructor
  · intro h
    cases h with
    | child h hp => exact ⟨_, h, hp⟩
  · rintro ⟨p, h, hp⟩
    exact .child h hp

theorem level_trans {z : α} (hxy : Level t x m y) (hyz : Level t y n z) : Level t x (m + n) z := by
  induction hyz with
  | self => exact hxy
  | child h _ ih => exact .child h ih

theorem under_refl : Under t x x := ⟨0, .self⟩

theorem under_child (h : t y = some (some p)) (hp : Under t x p) : Under t x y := by
  obtain ⟨n, hn⟩ := hp
  exact ⟨n + 1, .child h hn⟩

theorem under_iff : Under t x y ↔ y = x ∨ Below t x y := by
  constructor
  · rintro ⟨n, hn⟩
    cases n with
    | zero => exact .inl (level_zero.1 hn)
    | succ n => exact .inr ⟨n, hn⟩
  · rintro (rfl | ⟨n, hn⟩)
    · exact under_refl
    · exact ⟨n + 1, hn⟩

/-- What lies under a child of `p` and is not it, lies under it by its own parent. -/
theorem under_parent (h : t y = some (some p)) (hy : Under t x y) : y = x ∨ Under t x p := by
  obtain ⟨n, hn⟩ := hy
  cases n with
  | zero => exact .inl (level_zero.1 hn)
  | succ n =>
    obtain ⟨p', h', hp'⟩ := level_succ.1 hn
    have hsame := Option.some.inj (Option.some.inj (h.symm.trans h'))
    rw [hsame]
    exact .inr ⟨n, hp'⟩

theorem below_parent (h : t y = some (some p)) : Below t x y ↔ Under t x p := by
  constructor
  · rintro ⟨n, hn⟩
    obtain ⟨p', h', hp'⟩ := level_succ.1 hn
    obtain rfl := Option.some.inj (Option.some.inj (h.symm.trans h'))
    exact ⟨n, hp'⟩
  · rintro ⟨n, hn⟩
    exact ⟨n, .child h hn⟩

/-- On a way up to a root there are only nodes. -/
theorem some_of_under (hy : Depth t y n) (h : Under t x y) : t x ≠ none := by
  induction hy with
  | root hroot =>
    rcases under_iff.1 h with rfl | ⟨k, hk⟩
    · rw [hroot]
      exact Option.some_ne_none _
    · obtain ⟨p, hp, -⟩ := level_succ.1 hk
      rw [hroot] at hp
      cases hp
  | child hparent _ ih =>
    rcases under_parent hparent h with rfl | hp
    · rw [hparent]
      exact Option.some_ne_none _
    · exact ih hp

theorem not_below_self (h : Depth t x m) : ¬ Below t x x := by
  rintro ⟨n, hn⟩
  have hlevel := level_unique h (.self : Level t x 0 x) hn
  omega

theorem depth_nodes (h : Depth t x n) :
    ∃ way : List α, way.length = n + 1 ∧ way.Nodup ∧ ∀ y ∈ way, t y ≠ none ∧ ∃ m, m ≤ n ∧ Depth t y m := by
  induction h with
  | @root x h =>
    refine ⟨[x], rfl, List.nodup_singleton x, fun y hy => ?_⟩
    obtain rfl := List.mem_singleton.1 hy
    exact ⟨by rw [h]; exact Option.some_ne_none _, 0, Nat.le_refl 0, .root h⟩
  | @child x p n h hp ih =>
    obtain ⟨way, hlen, hnodup, hway⟩ := ih
    have hx : Depth t x (n + 1) := .child h hp
    refine ⟨x :: way, by rw [List.length_cons, hlen], List.nodup_cons.2 ⟨fun hmem => ?_, hnodup⟩, fun y hy => ?_⟩
    · obtain ⟨-, m, hle, hm⟩ := hway x hmem
      have hsame := depth_unique hm hx
      omega
    · rcases List.mem_cons.1 hy with rfl | hy
      · exact ⟨by rw [h]; exact Option.some_ne_none _, n + 1, Nat.le_refl _, hx⟩
      · obtain ⟨hsome, m, hle, hm⟩ := hway y hy
        exact ⟨hsome, m, by omega, hm⟩

/-- Where nodes are finitely many, a root is not further away than they are many. -/
theorem depth_lt {nodes : List α} (hnodes : ∀ y, t y ≠ none → y ∈ nodes) (h : Depth t x n) : n < nodes.length := by
  obtain ⟨way, hlen, hnodup, hway⟩ := depth_nodes h
  have hsub : way.Subperm nodes := List.subperm_of_subset hnodup fun y hy => hnodes y (hway y hy).1
  have hle := hsub.length_le
  omega

/-- And nothing lies further below a node. -/
theorem level_lt {nodes : List α} (hnodes : ∀ y, t y ≠ none → y ∈ nodes) (hx : Depth t x m) (h : Level t x n y) :
    n < nodes.length := by
  have hlt := depth_lt hnodes (depth_level hx h)
  omega

theorem level_le {nodes : List α} (hf : Forest t) (hnodes : ∀ y, t y ≠ none → y ∈ nodes) (h : Level t x n y) :
    n ≤ nodes.length := by
  cases n with
  | zero => exact Nat.zero_le _
  | succ n =>
    obtain ⟨p, hp, -⟩ := level_succ.1 h
    obtain ⟨k, hk⟩ := hf y (by rw [hp]; exact Option.some_ne_none _)
    obtain ⟨m, hm⟩ := hf x (some_of_under hk ⟨n + 1, h⟩)
    exact Nat.le_of_lt (level_lt hnodes hm h)

end Levels

/-! ## Changes of a forest -/

section Changes

variable {t' : α → Option (Option α)}

/-- A path upwards along which nothing has changed is still there. -/
theorem depth_congr (hx : Depth t x n) (h : ∀ y, Under t y x → t' y = t y) : Depth t' x n := by
  induction hx with
  | root hx =>
    refine .root ?_
    rw [h _ under_refl]
    exact hx
  | child hx _ ih =>
    refine .child ?_ (ih fun y hy => h y (under_child hx hy))
    rw [h _ under_refl]
    exact hx

variable [DecidableEq α]

theorem forest_insert {q : Option α} (hf : Forest t) (hx : t x = none) (hq : ∀ p, q = some p → t p ≠ none) :
    Forest (Function.update t x (some q)) := by
  -- nothing is under a node that was not there
  have hold : ∀ y n, Depth t y n → Depth (Function.update t x (some q)) y n := by
    intro y n hy
    refine depth_congr hy fun z hz => Function.update_of_ne ?_ _ _
    rintro rfl
    exact some_of_under hy hz hx
  intro y hy
  by_cases hyx : y = x
  · subst hyx
    rcases q with _ | p
    · exact ⟨0, .root (Function.update_self ..)⟩
    · obtain ⟨n, hn⟩ := hf p (hq p rfl)
      exact ⟨n + 1, .child (Function.update_self ..) (hold p n hn)⟩
  · rw [Function.update_of_ne hyx] at hy
    obtain ⟨n, hn⟩ := hf y hy
    exact ⟨n, hold y n hn⟩

/-- Giving `x` another place: everything keeps its way up, if the new place has one. -/
theorem forest_update {q : Option α} (hf : Forest t) (hx : ∃ n, Depth (Function.update t x (some q)) x n) :
    Forest (Function.update t x (some q)) := by
  have hold : ∀ y n, Depth t y n → ∃ m, Depth (Function.update t x (some q)) y m := by
    intro y n hy
    induction hy with
    | @root y h =>
      by_cases hyx : y = x
      · rw [hyx]
        exact hx
      · exact ⟨0, .root (by rw [Function.update_of_ne hyx, h])⟩
    | @child y p n h _ ih =>
      by_cases hyx : y = x
      · rw [hyx]
        exact hx
      · obtain ⟨m, hm⟩ := ih
        exact ⟨m + 1, .child (by rw [Function.update_of_ne hyx, h]) hm⟩
  intro y hy
  by_cases hyx : y = x
  · rw [hyx]
    exact hx
  · rw [Function.update_of_ne hyx] at hy
    obtain ⟨n, hn⟩ := hf y hy
    exact hold y n hn

theorem forest_toRoot (hf : Forest t) : Forest (Function.update t x (some none)) :=
  forest_update hf ⟨0, .root (Function.update_self ..)⟩

/-- **Reparenting** keeps a forest exactly if the new parent is not under the node that moves. -/
theorem forest_reparent (hf : Forest t) (hx : t x ≠ none) (hp : t p ≠ none) :
    Forest (Function.update t x (some (some p))) ↔ ¬ Under t x p := by
  constructor
  · rintro hf' ⟨k, hk⟩
    -- the way up from `p` leads to `x`, and from there back to `p`
    have hlevel : ∀ k y, Level t x k y → ∃ j, Level (Function.update t x (some (some p))) x j y := by
      intro k y hy
      induction hy with
      | self => exact ⟨0, .self⟩
      | @child n p' y h _ ih =>
        by_cases hyx : y = x
        · rw [hyx]
          exact ⟨0, .self⟩
        · obtain ⟨j, hj⟩ := ih
          exact ⟨j + 1, .child (by rw [Function.update_of_ne hyx, h]) hj⟩
    obtain ⟨j, hj⟩ := hlevel k p hk
    obtain ⟨n, hn⟩ := hf' x (by rw [Function.update_self]; exact Option.some_ne_none _)
    exact not_below_self hn ⟨j, .child (Function.update_self ..) hj⟩
  · intro hnot
    obtain ⟨n, hn⟩ := hf p hp
    refine forest_update hf ⟨n + 1, .child (Function.update_self ..) (depth_congr hn fun y hy => ?_)⟩
    refine Function.update_of_ne ?_ _ _
    rintro rfl
    exact hnot hy

omit [DecidableEq α] in
/-- Removing nodes together with all that lies below them keeps a forest. -/
theorem forest_remove {gone : α → Prop} [DecidablePred gone] (hf : Forest t)
    (hgone : ∀ y p, t y = some (some p) → gone p → gone y) : Forest fun y => if gone y then none else t y := by
  have hold : ∀ y n, Depth t y n → ¬ gone y → Depth (fun y => if gone y then none else t y) y n := by
    intro y n hy
    induction hy with
    | root h =>
      intro hkept
      exact .root (by rw [if_neg hkept, h])
    | child h _ ih =>
      intro hkept
      exact .child (by rw [if_neg hkept, h]) (ih fun hp => hkept (hgone _ _ h hp))
  intro y hy
  have hkept : ¬ gone y := fun h => hy (if_pos h)
  have hnode : t y ≠ none := by simpa [hkept] using hy
  obtain ⟨n, hn⟩ := hf y hnode
  exact ⟨n, hold y n hn hkept⟩

end Changes

end Transform.Lib
