import Mathlib.Algebra.Order.Ring.Rat
import Mathlib.Data.Nat.Cast.Order.Ring
import Transform.Lib.Lru

/-!
# Lib.JsMap — the maps of JavaScript, and its numbers as limits

A `Map` has its entries in the order of their insertion, so that a key that is deleted and set again goes to the end.
Deleting the first key while there is too much leaves the longest suffix that is not (`entries_evictWhile`).
-/

namespace Transform.Lib

/-! ## Maps -/

section Maps

/-- A `Map`: no two entries have one key. -/
structure JsMap (κ ν : Type) where
  entries : List (κ × ν)
  nodup : (entries.map (·.1)).Nodup

namespace JsMap

variable {κ ν : Type}

/-- `new Map()` -/
def empty : JsMap κ ν := ⟨[], List.nodup_nil⟩

def size (m : JsMap κ ν) : ℕ := m.entries.length

/-- `m.keys().next().value` -/
def firstKey (m : JsMap κ ν) : Option κ := m.entries.head?.map (·.1)

variable [DecidableEq κ]

def get (m : JsMap κ ν) (key : κ) : Option ν := mapGet m.entries key

/-- A key that is there keeps its place. -/
def set (m : JsMap κ ν) (key : κ) (value : ν) : JsMap κ ν := ⟨mapSet m.entries key value, nodup_mapSet m.nodup⟩

def delete (m : JsMap κ ν) (key : κ) : JsMap κ ν :=
  ⟨m.entries.eraseP (·.1 = key), (List.eraseP_sublist.map _).nodup m.nodup⟩

/-- `while (excess) { delete the first key }`, which ends at an empty map. -/
def evictWhile (excess : JsMap κ ν → Bool) : ℕ → JsMap κ ν → JsMap κ ν
  | 0, m => m
  | turns + 1, m =>
    if excess m then
      match m.firstKey with
      | none => m
      | some oldest => evictWhile excess turns (m.delete oldest)
    else m

variable {m : JsMap κ ν} {key : κ} {value : ν}

theorem entries_delete : (m.delete key).entries = m.entries.eraseP (·.1 = key) := rfl

theorem entries_delete_set : ((m.delete key).set key value).entries = touch m.entries key value :=
  mapSet_new (mapGet_eq_none.1 (mapGet_eraseP_self m.nodup))

theorem entries_evictWhile {excess : JsMap κ ν → Bool} {allowed : List (κ × ν) → Bool}
    (hexcess : ∀ m, excess m = !allowed m.entries) {turns : ℕ} (hturns : m.size ≤ turns) :
    (m.evictWhile excess turns).entries = longestSuffix allowed m.entries := by
  induction turns generalizing m with
  | zero =>
    have hnil : m.entries = [] := List.eq_nil_of_length_eq_zero (Nat.le_zero.1 hturns)
    rw [evictWhile, hnil]
    rfl
  | succ turns ih =>
    rw [evictWhile, hexcess]
    by_cases hallowed : allowed m.entries = true
    · rw [hallowed, Bool.not_true, if_neg Bool.false_ne_true, longestSuffix_eq_self hallowed]
    · rw [Bool.eq_false_iff.2 hallowed, Bool.not_false, if_pos rfl, firstKey]
      cases hentries : m.entries with
      | nil =>
        show m.entries = _
        rw [hentries]
        rfl
      | cons e rest =>
        have hrest : (m.delete e.1).entries = rest := by
          rw [entries_delete, hentries]
          exact List.eraseP_cons_of_pos (decide_eq_true rfl)
        have hsize : (m.delete e.1).size ≤ turns := by
          rw [size, hentries, List.length_cons] at hturns
          rw [size, hrest]
          exact Nat.le_of_succ_le_succ hturns
        show ((m.delete e.1).evictWhile excess turns).entries = _
        rw [ih hsize, hrest, longestSuffix, if_neg (hentries ▸ hallowed)]

end JsMap

end Maps

/-! ## Numbers -/

section Numbers

/-- A number of JavaScript. -/
inductive JsNumber
  | finite (value : ℚ)
  | infinity
  | negInfinity
  | nan
  deriving DecidableEq

namespace JsNumber

/-- `n > limit`, which no number is if the limit is `NaN`. -/
def exceededBy (limit : JsNumber) (n : ℕ) : Bool :=
  match limit with
  | .finite value => value < n
  | .infinity => false
  | .negInfinity => true
  | .nan => false

/-- `limit >= n` -/
def AtLeast (limit : JsNumber) (n : ℕ) : Prop :=
  match limit with
  | .finite value => n ≤ value
  | .infinity => True
  | .negInfinity => False
  | .nan => False

instance decidableAtLeast (limit : JsNumber) (n : ℕ) : Decidable (limit.AtLeast n) := by
  cases limit <;> unfold AtLeast <;> infer_instance

variable {limit : JsNumber} {m n : ℕ}

/-- The two comparisons are opposite but for `NaN`. -/
theorem exceededBy_eq_false_iff : limit.exceededBy n = false ↔ limit.AtLeast n ∨ limit = .nan := by
  cases limit with
  | finite value => simp [exceededBy, AtLeast]
  | infinity => simp [exceededBy, AtLeast]
  | negInfinity => simp [exceededBy, AtLeast]
  | nan => simp [exceededBy, AtLeast]

theorem exceededBy_mono (hmn : m ≤ n) (h : limit.exceededBy m = true) : limit.exceededBy n = true := by
  cases limit with
  | finite value =>
    exact decide_eq_true ((of_decide_eq_true h : value < m).trans_le (Nat.cast_le.2 hmn))
  | infinity => exact h
  | negInfinity => rfl
  | nan => exact h

end JsNumber

end Numbers

end Transform.Lib
