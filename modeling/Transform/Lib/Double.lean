import Mathlib.Algebra.Order.Floor.Ring
import Mathlib.Data.Int.Log
import Mathlib.Data.Rat.Floor
import Mathlib.Tactic.Linarith
import Mathlib.Tactic.Positivity

/-!
# Lib.Double — rounding to a double

Non-negative numbers rounded to 53 significant bits, to the nearest and from half way to the even one, and differences
rounded so.  The exponent is not bounded.
-/

namespace Transform.Lib

variable {x y : ℚ}

/-! ## To an integer -/

/-- To the nearest integer, from half way to the even one. -/
def roundHalfEven (x : ℚ) : ℤ :=
  if x < ⌊x⌋ + 1 / 2 then ⌊x⌋ else if ⌊x⌋ + 1 / 2 < x then ⌊x⌋ + 1 else ⌊x⌋ + ⌊x⌋ % 2

theorem roundHalfEven_intCast (n : ℤ) : roundHalfEven n = n := by
  unfold roundHalfEven
  rw [Int.floor_intCast, if_pos (by linarith)]

theorem floor_le_roundHalfEven (x : ℚ) : ⌊x⌋ ≤ roundHalfEven x := by
  unfold roundHalfEven
  split_ifs <;> omega

theorem roundHalfEven_le_floor (x : ℚ) : roundHalfEven x ≤ ⌊x⌋ + 1 := by
  unfold roundHalfEven
  split_ifs <;> omega

theorem roundHalfEven_mono (h : x ≤ y) : roundHalfEven x ≤ roundHalfEven y := by
  rcases (Int.floor_mono h).lt_or_eq with hlt | heq
  · have hx := roundHalfEven_le_floor x
    have hy := floor_le_roundHalfEven y
    omega
  · unfold roundHalfEven
    rw [← heq]
    split_ifs <;> first | omega | exact absurd h (by linarith)

/-- The error is a half at most. -/
theorem abs_roundHalfEven_sub_le (x : ℚ) : |roundHalfEven x - x| ≤ 1 / 2 := by
  have hlow := Int.floor_le x
  have hhigh := Int.lt_floor_add_one x
  rw [abs_le]
  unfold roundHalfEven
  split_ifs with h h'
  · constructor <;> linarith
  · push_cast
    constructor <;> linarith
  · rcases Int.emod_two_eq_zero_or_one ⌊x⌋ with hbit | hbit <;>
      rw [hbit] <;> push_cast <;> constructor <;> linarith

/-! ## To a double -/

/-- The distance of the doubles about `x`. -/
def ulp (x : ℚ) : ℚ := 2 ^ (Int.log 2 x - 52)

def roundDouble (x : ℚ) : ℚ := roundHalfEven (x / ulp x) * ulp x

theorem ulp_pos (x : ℚ) : 0 < ulp x := zpow_pos two_pos _

theorem abs_roundDouble_sub_le (x : ℚ) : |roundDouble x - x| ≤ ulp x / 2 := by
  have hpos := ulp_pos x
  have hround := abs_roundHalfEven_sub_le (x / ulp x)
  have hfactor : roundDouble x - x = (roundHalfEven (x / ulp x) - x / ulp x) * ulp x := by
    unfold roundDouble
    rw [sub_mul, div_mul_cancel₀ _ hpos.ne']
  rw [hfactor, abs_mul, abs_of_pos hpos]
  calc |roundHalfEven (x / ulp x) - x / ulp x| * ulp x ≤ 1 / 2 * ulp x := mul_le_mul_of_nonneg_right hround hpos.le
    _ = ulp x / 2 := by ring

/-- Up to 2 ^ 53 the doubles are no further apart than the integers. -/
theorem ulp_le_one (h₀ : 0 ≤ x) (h : x < 2 ^ 53) : ulp x ≤ 1 := by
  have hlog : Int.log 2 x ≤ 52 := by
    rcases h₀.eq_or_lt with rfl | hpos
    · simp
    · have hlt : Int.log 2 x < 53 := (Int.lt_zpow_iff_log_lt one_lt_two hpos).1 (by exact_mod_cast h)
      omega
  exact zpow_le_one_of_nonpos₀ one_le_two (by omega)

/-- A multiple of the distance of the doubles about `x` that is not below `x` is not below its double. -/
theorem roundDouble_le {n : ℤ} (h : x ≤ n * ulp x) : roundDouble x ≤ n * ulp x := by
  have hpos := ulp_pos x
  have hint := roundHalfEven_mono ((div_le_iff₀ hpos).2 h)
  rw [roundHalfEven_intCast] at hint
  exact mul_le_mul_of_nonneg_right (by exact_mod_cast hint) hpos.le

theorem le_roundDouble {n : ℤ} (h : n * ulp x ≤ x) : n * ulp x ≤ roundDouble x := by
  have hpos := ulp_pos x
  have hint := roundHalfEven_mono ((le_div_iff₀ hpos).2 h)
  rw [roundHalfEven_intCast] at hint
  exact mul_le_mul_of_nonneg_right (by exact_mod_cast hint) hpos.le

theorem roundDouble_nonneg (h : 0 ≤ x) : 0 ≤ roundDouble x := by
  have hzero := @le_roundDouble x 0 (by simpa using h)
  simpa using hzero

/-- A power of two between two numbers is between their doubles. -/
theorem roundDouble_mono (h₀ : 0 ≤ x) (h : x ≤ y) : roundDouble x ≤ roundDouble y := by
  rcases h₀.eq_or_lt with rfl | hx
  · simpa [roundDouble, roundHalfEven] using roundDouble_nonneg h
  have hlog : Int.log 2 x ≤ Int.log 2 y := Int.log_mono_right hx h
  rcases hlog.lt_or_eq with hlt | heq
  · have htop : (2 ^ 53 : ℤ) * ulp x = 2 ^ (Int.log 2 x + 1) := by
      unfold ulp
      rw [show Int.log 2 x + 1 = 53 + (Int.log 2 x - 52) by ring, zpow_add₀ two_ne_zero]
      norm_num
    have hbottom : (2 ^ 52 : ℤ) * ulp y = 2 ^ Int.log 2 y := by
      unfold ulp
      rw [show Int.log 2 y = 52 + (Int.log 2 y - 52) by ring, zpow_add₀ two_ne_zero]
      norm_num
    have hxtop : x ≤ ((2 ^ 53 : ℤ) : ℚ) * ulp x := by
      push_cast at htop ⊢
      rw [htop]
      exact_mod_cast (Int.lt_zpow_succ_log_self one_lt_two x).le
    have hybottom : ((2 ^ 52 : ℤ) : ℚ) * ulp y ≤ y := by
      push_cast at hbottom ⊢
      rw [hbottom]
      exact_mod_cast Int.zpow_log_le_self one_lt_two (hx.trans_le h)
    calc roundDouble x ≤ ((2 ^ 53 : ℤ) : ℚ) * ulp x := roundDouble_le hxtop
      _ ≤ ((2 ^ 52 : ℤ) : ℚ) * ulp y := by
        push_cast at htop hbottom ⊢
        rw [htop, hbottom]
        exact zpow_le_zpow_right₀ one_le_two (by omega)
      _ ≤ roundDouble y := le_roundDouble hybottom
  · have hulp : ulp y = ulp x := by
      unfold ulp
      rw [heq]
    have hpos := ulp_pos x
    have hint := roundHalfEven_mono ((div_le_div_iff_of_pos_right hpos).2 h)
    unfold roundDouble
    rw [hulp]
    exact mul_le_mul_of_nonneg_right (by exact_mod_cast hint) hpos.le

/-- A number that rounding leaves as it is. -/
def IsDouble (x : ℚ) : Prop := roundDouble x = x

instance : DecidablePred IsDouble := fun x => inferInstanceAs (Decidable (roundDouble x = x))

theorem isDouble_of_multiple {n : ℤ} (h : x = n * ulp x) : IsDouble x :=
  le_antisymm ((roundDouble_le h.le).trans h.ge) (h.le.trans (le_roundDouble h.ge))

theorem isDouble_zero : IsDouble 0 := isDouble_of_multiple (n := 0) (by simp)

/-- The distance of the doubles grows by powers of two. -/
theorem ulp_of_log_le (h : Int.log 2 x ≤ Int.log 2 y) : ∃ k : ℕ, ulp y = 2 ^ k * ulp x := by
  obtain ⟨k, hk⟩ := Int.eq_ofNat_of_zero_le (sub_nonneg.2 h)
  refine ⟨k, ?_⟩
  unfold ulp
  rw [show Int.log 2 y - 52 = k + (Int.log 2 x - 52) by omega, zpow_add₀ two_ne_zero, zpow_natCast]

/-! ## Differences -/

/-- The difference of two doubles, rounded. -/
def subDouble (x y : ℚ) : ℚ := if y ≤ x then roundDouble (x - y) else -roundDouble (y - x)

theorem subDouble_mono {x' : ℚ} (h : x ≤ x') (y : ℚ) : subDouble x y ≤ subDouble x' y := by
  unfold subDouble
  split_ifs with hx hx' hx'
  · exact roundDouble_mono (sub_nonneg.2 hx) (by linarith)
  · exact absurd (hx.trans h) hx'
  · have hlow := roundDouble_nonneg (sub_nonneg.2 (not_le.1 hx).le)
    have hhigh := roundDouble_nonneg (sub_nonneg.2 hx')
    linarith
  · exact neg_le_neg (roundDouble_mono (sub_nonneg.2 (not_le.1 hx').le) (by linarith))

/-- **Doubles of which one is at most twice the other** have a double as their difference. -/
theorem subDouble_eq_sub (hx : IsDouble x) (hy : IsDouble y) (hle : y ≤ x) (htwice : x ≤ 2 * y) :
    subDouble x y = x - y := by
  unfold subDouble
  rw [if_pos hle]
  rcases hle.eq_or_lt with rfl | hlt
  · rw [sub_self]
    exact isDouble_zero
  have hypos : 0 < y := by linarith
  have hdiff : 0 < x - y := sub_pos.2 hlt
  -- both are multiples of the distance about the smaller one, and that one of the distance about the difference
  obtain ⟨k, hk⟩ := ulp_of_log_le (Int.log_mono_right (b := 2) hypos hle)
  obtain ⟨j, hj⟩ := ulp_of_log_le (Int.log_mono_right (b := 2) hdiff (by linarith : x - y ≤ y))
  have hxm : x = roundHalfEven (x / ulp x) * (2 ^ k * ulp y) := by
    rw [← hk]
    exact hx.symm
  have hyn : y = roundHalfEven (y / ulp y) * ulp y := hy.symm
  refine isDouble_of_multiple (n := (roundHalfEven (x / ulp x) * 2 ^ k - roundHalfEven (y / ulp y)) * 2 ^ j) ?_
  push_cast
  rw [mul_assoc _ _ (ulp (x - y)), ← hj, sub_mul, mul_assoc, ← hxm, ← hyn]

end Transform.Lib
