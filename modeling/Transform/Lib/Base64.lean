import Mathlib.Data.Nat.Notation
import Transform.Lib.Bytes

/-!
# Lib.Base64 — bytes as base64 text, and back

Three bytes are four digits; what is left at the end is padded.  What is encoded is decoded to what it was
(`b64decode_b64encode`).
-/

namespace Transform.Lib

section Base64

def base64Digit (n : ℕ) : Char :=
  if n < 26 then Char.ofNat (65 + n)
  else if n < 52 then Char.ofNat (71 + n)
  else if n < 62 then Char.ofNat (n - 4)
  else if n = 62 then '+'
  else '/'

def base64Value (c : Char) : Option ℕ :=
  if 'A' ≤ c ∧ c ≤ 'Z' then some (c.toNat - 65)
  else if 'a' ≤ c ∧ c ≤ 'z' then some (c.toNat - 71)
  else if '0' ≤ c ∧ c ≤ '9' then some (c.toNat + 4)
  else if c = '+' then some 62
  else if c = '/' then some 63
  else none

def encodeGroups : Bytes → List Char
  | [] => []
  | [a] => [base64Digit (a.toNat / 4), base64Digit (a.toNat % 4 * 16), '=', '=']
  | [a, b] =>
    [base64Digit (a.toNat / 4), base64Digit (a.toNat % 4 * 16 + b.toNat / 16), base64Digit (b.toNat % 16 * 4), '=']
  | a :: b :: c :: rest =>
    base64Digit (a.toNat / 4) :: base64Digit (a.toNat % 4 * 16 + b.toNat / 16) ::
      base64Digit (b.toNat % 16 * 4 + c.toNat / 64) :: base64Digit (c.toNat % 64) :: encodeGroups rest

/-- The bytes of four digits, or of the three or two before the padding. -/
def decodeGroups : List Char → Option Bytes
  | [] => some []
  | [w, x, '=', '='] => do
    let w ← base64Value w
    let x ← base64Value x
    some [UInt8.ofNat (w * 4 + x / 16)]
  | [w, x, y, '='] => do
    let w ← base64Value w
    let x ← base64Value x
    let y ← base64Value y
    some [UInt8.ofNat (w * 4 + x / 16), UInt8.ofNat (x % 16 * 16 + y / 4)]
  | w :: x :: y :: z :: rest => do
    let w ← base64Value w
    let x ← base64Value x
    let y ← base64Value y
    let z ← base64Value z
    let bytes ← decodeGroups rest
    some (UInt8.ofNat (w * 4 + x / 16) :: UInt8.ofNat (x % 16 * 16 + y / 4) :: UInt8.ofNat (y % 4 * 64 + z) :: bytes)
  | _ => none

/-- `base64.b64encode`, as text. -/
def b64encode (bytes : Bytes) : String := String.ofList (encodeGroups bytes)

/-- `base64.b64decode(…, validate=True)`; `none` where it raises. -/
def b64decode (text : String) : Option Bytes := decodeGroups text.toList

theorem base64Value_digit : ∀ n < 64, base64Value (base64Digit n) = some n := by decide

theorem base64Digit_ne_padding : ∀ n < 64, base64Digit n ≠ '=' := by decide

theorem ofNat_eq {a : UInt8} {n : ℕ} (h : n = a.toNat) : UInt8.ofNat n = a := by
  rw [h, UInt8.ofNat_toNat]

theorem decodeGroups_encodeGroups (bytes : Bytes) : decodeGroups (encodeGroups bytes) = some bytes := by
  fun_induction encodeGroups bytes with
  | case1 => rfl
  | case2 a =>
    have ha : a.toNat < 256 := a.toNat_lt_size
    rw [decodeGroups, base64Value_digit _ (by omega), base64Value_digit _ (by omega)]
    simp only [Option.bind_eq_bind, Option.bind_some]
    rw [ofNat_eq (a := a) (by omega)]
  | case3 a b =>
    have ha : a.toNat < 256 := a.toNat_lt_size
    have hb : b.toNat < 256 := b.toNat_lt_size
    rw [decodeGroups, base64Value_digit _ (by omega), base64Value_digit _ (by omega), base64Value_digit _ (by omega)]
    · simp only [Option.bind_eq_bind, Option.bind_some]
      rw [ofNat_eq (a := a) (by omega), ofNat_eq (a := b) (by omega)]
    · exact base64Digit_ne_padding _ (by omega)
  | case4 a b c rest ih =>
    have ha : a.toNat < 256 := a.toNat_lt_size
    have hb : b.toNat < 256 := b.toNat_lt_size
    have hc : c.toNat < 256 := c.toNat_lt_size
    rw [decodeGroups, base64Value_digit _ (by omega), base64Value_digit _ (by omega), base64Value_digit _ (by omega),
      base64Value_digit _ (by omega), ih]
    · simp only [Option.bind_eq_bind, Option.bind_some]
      rw [ofNat_eq (a := a) (by omega), ofNat_eq (a := b) (by omega), ofNat_eq (a := c) (by omega)]
    · exact fun hy => absurd hy (base64Digit_ne_padding _ (by omega))
    · exact fun hz => absurd hz (base64Digit_ne_padding _ (by omega))

/-- **What is encoded is decoded.** -/
theorem b64decode_b64encode (bytes : Bytes) : b64decode (b64encode bytes) = some bytes := by
  rw [b64decode, b64encode, String.toList_ofList]
  exact decodeGroups_encodeGroups bytes

end Base64

end Transform.Lib
