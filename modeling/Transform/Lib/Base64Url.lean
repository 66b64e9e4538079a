import Transform.Lib.Base64

/-!
# Lib.Base64Url — the URL-safe alphabet, without padding

The text of `urlsafe_b64encode` less its padding, the lenient decoding `a2b_base64`, and the decoding of UTF-8.

* `urlsafeDecode_urlsafeEncode`: the padding restored, what is encoded is decoded.
* `decodeUtf8Strict_utf8`: the UTF-8 bytes of a text are decoded to the text.
-/

namespace Transform.Lib

/-! ## Texts of bytes -/

section Utf8

/-- `bytes.decode("utf-8")`; `none` where it raises. -/
def decodeUtf8Strict (bytes : Bytes) : Option String :=
  bytes.toByteArray.utf8Decode?.map fun chars => String.ofList chars.toList

theorem decodeUtf8Strict_utf8 (text : String) : decodeUtf8Strict (utf8 text) = some text := by
  have hbytes : (utf8 text).toByteArray = text.toList.utf8Encode := rfl
  unfold decodeUtf8Strict
  rw [hbytes, List.utf8Decode?_utf8Encode]
  simp

end Utf8

/-! ## Lenient decoding -/

section Lenient

/-- `a2b_base64` from a place in a group of four on, with the bits left over and the padding met there.  Characters of no
digit are skipped, and complete padding ends the text. -/
def a2bFrom : (place left pads : ℕ) → List Char → Option Bytes
  | place, _, _, [] => if place = 0 then some [] else none
  | place, left, pads, c :: rest =>
    if c = '=' then
      if 2 ≤ place then
        if 4 ≤ place + (pads + 1) then some [] else a2bFrom place left (pads + 1) rest
      else a2bFrom place left pads rest
    else
      match base64Value c with
      | none => a2bFrom place left pads rest
      | some value =>
        match place with
        | 0 => a2bFrom 1 value 0 rest
        | 1 => (a2bFrom 2 (value % 16) 0 rest).map (UInt8.ofNat (left * 4 + value / 16) :: ·)
        | 2 => (a2bFrom 3 (value % 4) 0 rest).map (UInt8.ofNat (left * 16 + value / 4) :: ·)
        | _ => (a2bFrom 0 0 0 rest).map (UInt8.ofNat (left * 64 + value) :: ·)

def a2bBase64 (text : List Char) : Option Bytes := a2bFrom 0 0 0 text

variable {n left pads : ℕ} {rest : List Char}

theorem a2bFrom_zero (hn : n < 64) : a2bFrom 0 left pads (base64Digit n :: rest) = a2bFrom 1 n 0 rest := by
  rw [a2bFrom, if_neg (base64Digit_ne_padding n hn), base64Value_digit n hn]
  rfl

theorem a2bFrom_one (hn : n < 64) : a2bFrom 1 left pads (base64Digit n :: rest) =
    (a2bFrom 2 (n % 16) 0 rest).map (UInt8.ofNat (left * 4 + n / 16) :: ·) := by
  rw [a2bFrom, if_neg (base64Digit_ne_padding n hn), base64Value_digit n hn]
  rfl

theorem a2bFrom_two (hn : n < 64) : a2bFrom 2 left pads (base64Digit n :: rest) =
    (a2bFrom 3 (n % 4) 0 rest).map (UInt8.ofNat (left * 16 + n / 4) :: ·) := by
  rw [a2bFrom, if_neg (base64Digit_ne_padding n hn), base64Value_digit n hn]
  rfl

theorem a2bFrom_three (hn : n < 64) : a2bFrom 3 left pads (base64Digit n :: rest) =
    (a2bFrom 0 0 0 rest).map (UInt8.ofNat (left * 64 + n) :: ·) := by
  rw [a2bFrom, if_neg (base64Digit_ne_padding n hn), base64Value_digit n hn]
  rfl

/-- What is encoded is decoded leniently. -/
theorem a2bBase64_encodeGroups (bytes : Bytes) : a2bBase64 (encodeGroups bytes) = some bytes := by
  unfold a2bBase64
  fun_induction encodeGroups bytes with
  | case1 => rfl
  | case2 a =>
    have ha : a.toNat < 256 := a.toNat_lt_size
    rw [a2bFrom_zero (by omega), a2bFrom_one (by omega), ofNat_eq (a := a) (by omega)]
    rfl
  | case3 a b =>
    have ha : a.toNat < 256 := a.toNat_lt_size
    have hb : b.toNat < 256 := b.toNat_lt_size
    rw [a2bFrom_zero (by omega), a2bFrom_one (by omega), a2bFrom_two (by omega), ofNat_eq (a := a) (by omega),
      ofNat_eq (a := b) (by omega)]
    rfl
  | case4 a b c rest ih =>
    have ha : a.toNat < 256 := a.toNat_lt_size
    have hb : b.toNat < 256 := b.toNat_lt_size
    have hc : c.toNat < 256 := c.toNat_lt_size
    rw [a2bFrom_zero (by omega), a2bFrom_one (by omega), a2bFrom_two (by omega), a2bFrom_three (by omega), ih,
      ofNat_eq (a := a) (by omega), ofNat_eq (a := b) (by omega), ofNat_eq (a := c) (by omega)]
    rfl

end Lenient

/-! ## The URL-safe alphabet -/

section Urlsafe

def toUrlsafe (c : Char) : Char := if c = '+' then '-' else if c = '/' then '_' else c

def fromUrlsafe (c : Char) : Char := if c = '-' then '+' else if c = '_' then '/' else c

/-- `urlsafe_b64encode`, without the padding at the end. -/
def urlsafeEncode (bytes : Bytes) : List Char :=
  (((encodeGroups bytes).map toUrlsafe).reverse.dropWhile (· = '=')).reverse

/-- `urlsafe_b64decode` of a text with its padding; `none` where it raises. -/
def urlsafeDecode (text : List Char) : Option Bytes :=
  let padded := text ++ List.replicate ((4 - text.length % 4) % 4) '='
  if padded.all fun c => decide (c.toNat < 128) then a2bBase64 (padded.map fromUrlsafe) else none

theorem urlsafe_digit : ∀ n < 64, fromUrlsafe (toUrlsafe (base64Digit n)) = base64Digit n ∧
    (toUrlsafe (base64Digit n)).toNat < 128 ∧ toUrlsafe (base64Digit n) ≠ '=' := by decide

theorem encodeGroups_shape (bytes : Bytes) : ∃ digits pads, encodeGroups bytes = digits ++ List.replicate pads '=' ∧
    pads = (4 - digits.length % 4) % 4 ∧ ∀ c ∈ digits, ∃ n < 64, base64Digit n = c := by
  fun_induction encodeGroups bytes with
  | case1 => exact ⟨[], 0, rfl, rfl, by simp⟩
  | case2 a =>
    have ha : a.toNat < 256 := a.toNat_lt_size
    refine ⟨[base64Digit (a.toNat / 4), base64Digit (a.toNat % 4 * 16)], 2, rfl, rfl, ?_⟩
    simp only [List.mem_cons, List.not_mem_nil, or_false]
    rintro c (rfl | rfl)
    · exact ⟨_, by omega, rfl⟩
    · exact ⟨_, by omega, rfl⟩
  | case3 a b =>
    have ha : a.toNat < 256 := a.toNat_lt_size
    have hb : b.toNat < 256 := b.toNat_lt_size
    refine ⟨[base64Digit (a.toNat / 4), base64Digit (a.toNat % 4 * 16 + b.toNat / 16), base64Digit (b.toNat % 16 * 4)], 1,
      rfl, rfl, ?_⟩
    simp only [List.mem_cons, List.not_mem_nil, or_false]
    rintro c (rfl | rfl | rfl)
    · exact ⟨_, by omega, rfl⟩
    · exact ⟨_, by omega, rfl⟩
    · exact ⟨_, by omega, rfl⟩
  | case4 a b c rest ih =>
    obtain ⟨digits, pads, heq, hpads, hdigits⟩ := ih
    have ha : a.toNat < 256 := a.toNat_lt_size
    have hb : b.toNat < 256 := b.toNat_lt_size
    have hc : c.toNat < 256 := c.toNat_lt_size
    refine ⟨base64Digit (a.toNat / 4) :: base64Digit (a.toNat % 4 * 16 + b.toNat / 16) ::
      base64Digit (b.toNat % 16 * 4 + c.toNat / 64) :: base64Digit (c.toNat % 64) :: digits, pads, ?_, ?_, ?_⟩
    · rw [heq]
      rfl
    · simp only [List.length_cons]
      omega
    · simp only [List.mem_cons]
      rintro d (rfl | rfl | rfl | rfl | hd)
      · exact ⟨_, by omega, rfl⟩
      · exact ⟨_, by omega, rfl⟩
      · exact ⟨_, by omega, rfl⟩
      · exact ⟨_, by omega, rfl⟩
      · exact hdigits d hd

/-- **What is encoded for a URL is decoded.** -/
theorem urlsafeDecode_urlsafeEncode (bytes : Bytes) : urlsafeDecode (urlsafeEncode bytes) = some bytes := by
  obtain ⟨digits, pads, heq, hpads, hdigits⟩ := encodeGroups_shape bytes
  have hmapped : (encodeGroups bytes).map toUrlsafe = digits.map toUrlsafe ++ List.replicate pads '=' := by
    rw [heq, List.map_append, List.map_replicate]
    rfl
  have hne : ∀ c ∈ digits.map toUrlsafe, c ≠ '=' := by
    intro c hc
    obtain ⟨d, hd, rfl⟩ := List.mem_map.mp hc
    obtain ⟨n, hn, rfl⟩ := hdigits d hd
    exact (urlsafe_digit n hn).2.2
  have hencode : urlsafeEncode bytes = digits.map toUrlsafe := by
    unfold urlsafeEncode
    rw [hmapped, List.reverse_append, List.reverse_replicate,
      List.dropWhile_append_of_pos (by intro c hc; simp [List.eq_of_mem_replicate hc])]
    cases hdrop : (digits.map toUrlsafe).reverse with
    | nil =>
      rw [← List.reverse_reverse (digits.map toUrlsafe), hdrop]
      rfl
    | cons c cs =>
      have hmem : c ∈ digits.map toUrlsafe := by
        rw [← List.mem_reverse, hdrop]
        exact List.mem_cons_self
      rw [List.dropWhile_cons_of_neg (by simpa using hne c hmem), ← hdrop, List.reverse_reverse]
  unfold urlsafeDecode
  rw [hencode, List.length_map, ← hpads]
  have hascii : ((digits.map toUrlsafe ++ List.replicate pads '=').all fun c => decide (c.toNat < 128)) = true := by
    rw [List.all_eq_true]
    intro c hc
    rw [decide_eq_true_eq]
    rcases List.mem_append.mp hc with hc | hc
    · obtain ⟨d, hd, rfl⟩ := List.mem_map.mp hc
      obtain ⟨n, hn, rfl⟩ := hdigits d hd
      exact (urlsafe_digit n hn).2.1
    · rw [List.eq_of_mem_replicate hc]
      decide
  have hback : (digits.map toUrlsafe ++ List.replicate pads '=').map fromUrlsafe = encodeGroups bytes := by
    rw [heq, List.map_append, List.map_map, List.map_replicate]
    congr 1
    rw [List.map_congr_left (g := id), List.map_id]
    intro d hd
    obtain ⟨n, hn, rfl⟩ := hdigits d hd
    exact (urlsafe_digit n hn).1
  dsimp only
  rw [if_pos hascii, hback]
  exact a2bBase64_encodeGroups bytes

end Urlsafe

end Transform.Lib
