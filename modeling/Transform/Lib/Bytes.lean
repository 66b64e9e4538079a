import Mathlib.Algebra.Group.Nat.Defs
import Mathlib.Algebra.Ring.Int.Defs
import Mathlib.Tactic.Common
import Mathlib.Data.Nat.Notation

/-!
# Lib.Bytes — byte strings and fixed-width integers

`bigEndian w n` is the low part of `n` that `w` bytes hold; `ofBigEndian` reads it back.
-/

namespace Transform.Lib

/-- A byte string. -/
abbrev Bytes := List UInt8

def utf8 (text : String) : Bytes := text.toList.flatMap String.utf8EncodeChar

section BigEndian

/-- The low `w` bytes of `n`, the highest first. -/
def bigEndian : (w : ℕ) → (n : ℕ) → Bytes
  | 0, _ => []
  | w + 1, n => bigEndian w (n / 256) ++ [UInt8.ofNat n]

/-- The number that the bytes spell, the highest first. -/
def ofBigEndian (bytes : Bytes) : ℕ := bytes.foldl (fun n b => n * 256 + b.toNat) 0

@[simp] theorem length_bigEndian (w n : ℕ) : (bigEndian w n).length = w := by
  induction w generalizing n with
  | zero => rfl
  | succ w ih => simp [bigEndian, ih]

/-- What `w` bytes keep of a number. -/
theorem ofBigEndian_bigEndian (w n : ℕ) : ofBigEndian (bigEndian w n) = n % 256 ^ w := by
  induction w generalizing n with
  | zero => simp [bigEndian, ofBigEndian, Nat.mod_one]
  | succ w ih =>
    have hsplit : n % 256 ^ (w + 1) = n / 256 % 256 ^ w * 256 + n % 256 := by
      have h := Nat.mod_mul (x := n) (a := 256) (b := 256 ^ w)
      rw [Nat.pow_succ, Nat.mul_comm (256 ^ w) 256, h]
      omega
    have hread : ofBigEndian (bigEndian w (n / 256) ++ [UInt8.ofNat n]) =
        ofBigEndian (bigEndian w (n / 256)) * 256 + n % 256 := by
      unfold ofBigEndian
      rw [List.foldl_append]
      simp
    rw [bigEndian, hread, ih, hsplit]

theorem ofBigEndian_bigEndian_of_lt {w n : ℕ} (h : n < 256 ^ w) : ofBigEndian (bigEndian w n) = n := by
  rw [ofBigEndian_bigEndian, Nat.mod_eq_of_lt h]

/-- Numbers that fit are told apart by their bytes. -/
theorem bigEndian_inj {w m n : ℕ} (hm : m < 256 ^ w) (hn : n < 256 ^ w) (h : bigEndian w m = bigEndian w n) : m = n := by
  rw [← ofBigEndian_bigEndian_of_lt hm, ← ofBigEndian_bigEndian_of_lt hn, h]

end BigEndian

end Transform.Lib
