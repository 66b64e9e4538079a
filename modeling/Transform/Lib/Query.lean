import Transform.Lib.Bytes
import Transform.Lib.Json
import Transform.Lib.Splitting

/-!
# Lib.Query — the query strings of Python's `urllib.parse`

* `decodeUtf8` is `bytes.decode("utf-8", "replace")`.
* `quotePlus` and `unquotePlus` write and read one component.
* `urlencode` writes pairs of texts, `parseQsl` (with `keep_blank_values`) reads them: `parseQsl_urlencode`.
-/

namespace Transform.Lib

/-! ## UTF-8, with a replacement for what is not -/

section Utf8

/-- A continuation byte in a range. -/
def isBetween (low high : ℕ) (b : UInt8) : Bool := low ≤ b.toNat ∧ b.toNat ≤ high

/-- How many bytes of an ill-formed sequence one replacement stands for: the longest beginning of a well-formed one. -/
def illFormedLength : Bytes → ℕ
  | first :: second :: rest =>
    let n := first.toNat
    let low := if n = 0xE0 then 0xA0 else if n = 0xF0 then 0x90 else 0x80
    let high := if n = 0xED then 0x9F else if n = 0xF4 then 0x8F else 0xBF
    if 0xE0 ≤ n ∧ n ≤ 0xF4 ∧ isBetween low high second then
      match rest with
      | third :: _ => if 0xF0 ≤ n ∧ isBetween 0x80 0xBF third then 3 else 2
      | [] => 2
    else 1
  | _ => 1

/-- The characters of `bytes`, as far as `fuel` reaches. -/
def decodeFrom : ℕ → Bytes → List Char
  | 0, _ => []
  | _ + 1, [] => []
  | fuel + 1, bytes =>
    match ByteArray.utf8DecodeChar? bytes.toByteArray 0 with
    | some c => c :: decodeFrom fuel (bytes.drop c.utf8Size)
    | none => '\uFFFD' :: decodeFrom fuel (bytes.drop (illFormedLength bytes))

/-- `bytes.decode("utf-8", "replace")`. -/
def decodeUtf8 (bytes : Bytes) : List Char := decodeFrom bytes.length bytes

theorem decodeFrom_encode (text : List Char) : ∀ fuel, (text.flatMap String.utf8EncodeChar).length ≤ fuel →
    decodeFrom fuel (text.flatMap String.utf8EncodeChar) = text := by
  induction text with
  | nil =>
    intro fuel _
    cases fuel with
    | zero => rfl
    | succ fuel => rfl
  | cons c text ih =>
    intro fuel hfuel
    have hlength : (String.utf8EncodeChar c).length = c.utf8Size := String.length_utf8EncodeChar c
    have hpos : 0 < c.utf8Size := c.utf8Size_pos
    rw [List.flatMap_cons, List.length_append, hlength] at hfuel
    obtain ⟨fuel, rfl⟩ : ∃ n, fuel = n + 1 := ⟨fuel - 1, by omega⟩
    obtain ⟨b, rest, hb⟩ := List.exists_cons_of_ne_nil (String.utf8EncodeChar_ne_nil (c := c))
    have hfirst : ByteArray.utf8DecodeChar?
        (String.utf8EncodeChar c ++ text.flatMap String.utf8EncodeChar).toByteArray 0 = some c := by
      rw [List.toByteArray_append]
      exact ByteArray.utf8DecodeChar?_utf8EncodeChar_append
    have hdrop : (String.utf8EncodeChar c ++ text.flatMap String.utf8EncodeChar).drop c.utf8Size =
        text.flatMap String.utf8EncodeChar := by
      rw [← hlength]
      exact List.drop_left
    rw [List.flatMap_cons]
    rw [hb, List.cons_append] at hfirst hdrop ⊢
    rw [decodeFrom, hfirst]
    · dsimp only
      rw [hdrop, ih fuel (by omega)]
    · exact nofun

/-- Encoding loses nothing. -/
theorem decodeUtf8_encode (text : List Char) : decodeUtf8 (text.flatMap String.utf8EncodeChar) = text :=
  decodeFrom_encode text _ (Nat.le_refl _)

end Utf8

/-! ## One component -/

section Component

/-- A byte that `quote` leaves as it is: a letter, a digit, or one of `_.-~`. -/
def isUnreserved (b : UInt8) : Bool :=
  (Char.ofNat b.toNat).isAlphanum && b.toNat < 128 || "_.-~".toList.contains (Char.ofNat b.toNat)

/-- A hexadecimal digit, as `'%02X'` writes it. -/
def upperHexDigit (n : ℕ) : Char := if n < 10 then Char.ofNat (48 + n) else Char.ofNat (55 + n)

def quoteByte (b : UInt8) : List Char :=
  if isUnreserved b then [Char.ofNat b.toNat]
  else if b = 0x20 then ['+']
  else ['%', upperHexDigit (b.toNat / 16), upperHexDigit (b.toNat % 16)]

/-- `quote_plus`. -/
def quotePlus (text : List Char) : List Char := (text.flatMap String.utf8EncodeChar).flatMap quoteByte

/-- The bytes of an ASCII text with its escapes undone; what is no escape stays. -/
def unquoteBytes : List Char → Bytes
  | '%' :: a :: b :: rest =>
    match hexValue a, hexValue b with
    | some x, some y => UInt8.ofNat (16 * x + y) :: unquoteBytes rest
    | _, _ => 0x25 :: unquoteBytes (a :: b :: rest)
  | c :: rest => UInt8.ofNat c.toNat :: unquoteBytes rest
  | [] => []

/-- `unquote`: each run of ASCII is unquoted and decoded on its own. -/
def unquoteRuns (run : List Char) : List Char → List Char
  | [] => decodeUtf8 (unquoteBytes run.reverse)
  | c :: rest =>
    if c.toNat < 128 then unquoteRuns (c :: run) rest
    else decodeUtf8 (unquoteBytes run.reverse) ++ c :: unquoteRuns [] rest

def plusToSpace (c : Char) : Char := if c = '+' then ' ' else c

/-- `unquote_plus`. -/
def unquotePlus (text : List Char) : List Char := unquoteRuns [] (text.map plusToSpace)

/-- The characters that a quoted component is written with. -/
def isQuoted (c : Char) : Bool := c.toNat < 128 && (c.isAlphanum || "_.-~+%".toList.contains c)

theorem unquoteBytes_cons {c : Char} {rest : List Char} (h : c ≠ '%') :
    unquoteBytes (c :: rest) = UInt8.ofNat c.toNat :: unquoteBytes rest := by
  rw [unquoteBytes]
  rintro a b rest rfl
  exact absurd rfl h

theorem toNat_ofNat_byte (b : UInt8) : (Char.ofNat b.toNat).toNat = b.toNat := by
  have hlt : b.toNat < 256 := b.toNat_lt
  have hvalid : b.toNat.isValidChar := .inl (by omega)
  rw [Char.ofNat, dif_pos hvalid]
  rfl

theorem ne_of_isUnreserved {b : UInt8} (h : isUnreserved b = true) {c : Char} (halnum : c.isAlphanum = false)
    (hmark : "_.-~".toList.contains c = false) : Char.ofNat b.toNat ≠ c := by
  intro heq
  rw [isUnreserved, heq, halnum, hmark] at h
  cases h

theorem upperHexDigit_isQuoted : ∀ n < 16, isQuoted (upperHexDigit n) = true := by decide

theorem mark_isQuoted : "_.-~".toList.all isQuoted = true := by decide

theorem isQuoted_of_isUnreserved {b : UInt8} (h : isUnreserved b = true) : isQuoted (Char.ofNat b.toNat) = true := by
  rw [isUnreserved, Bool.or_eq_true, Bool.and_eq_true, decide_eq_true_eq, List.contains_iff_mem] at h
  rcases h with ⟨halnum, hascii⟩ | hmark
  · rw [isQuoted, halnum, toNat_ofNat_byte, Bool.true_or, Bool.and_true]
    exact decide_eq_true hascii
  · exact List.all_eq_true.1 mark_isQuoted _ hmark

theorem quoteByte_chars (b : UInt8) : ∀ c ∈ quoteByte b, isQuoted c = true := by
  intro c hc
  have hb : b.toNat < 256 := b.toNat_lt
  unfold quoteByte at hc
  split_ifs at hc with hunreserved
  · obtain rfl := List.mem_singleton.1 hc
    exact isQuoted_of_isUnreserved hunreserved
  · obtain rfl := List.mem_singleton.1 hc
    rfl
  · simp only [List.mem_cons, List.not_mem_nil, or_false] at hc
    rcases hc with rfl | rfl | rfl
    · rfl
    · exact upperHexDigit_isQuoted _ (by omega)
    · exact upperHexDigit_isQuoted _ (by omega)

theorem hexValue_upperHexDigit : ∀ n < 16, hexValue (upperHexDigit n) = some n := by decide

theorem upperHexDigit_plain : ∀ n < 16, plusToSpace (upperHexDigit n) = upperHexDigit n := by decide

theorem unreserved_plain (b : UInt8) (h : isUnreserved b = true) :
    plusToSpace (Char.ofNat b.toNat) = Char.ofNat b.toNat ∧ Char.ofNat b.toNat ≠ '%' ∧
      UInt8.ofNat (Char.ofNat b.toNat).toNat = b := by
  have hplus : Char.ofNat b.toNat ≠ '+' := ne_of_isUnreserved h (by decide) (by decide)
  refine ⟨if_neg hplus, ne_of_isUnreserved h (by decide) (by decide), ?_⟩
  rw [toNat_ofNat_byte, UInt8.ofNat_toNat]

theorem unquoteBytes_quoteByte (b : UInt8) (rest : List Char) :
    unquoteBytes ((quoteByte b).map plusToSpace ++ rest) = b :: unquoteBytes rest := by
  unfold quoteByte
  by_cases h : isUnreserved b = true
  · obtain ⟨hplus, hpercent, hback⟩ := unreserved_plain b h
    rw [if_pos h, List.map_singleton, hplus, List.singleton_append, unquoteBytes_cons hpercent, hback]
  · rw [if_neg h]
    by_cases hspace : b = 0x20
    · rw [if_pos hspace, hspace]
      rfl
    · have hb : b.toNat < 256 := b.toNat_lt
      have hhigh : b.toNat / 16 < 16 := by omega
      have hlow : b.toNat % 16 < 16 := by omega
      have hbyte : UInt8.ofNat (16 * (b.toNat / 16) + b.toNat % 16) = b := by
        rw [Nat.div_add_mod, UInt8.ofNat_toNat]
      rw [if_neg hspace]
      simp only [List.map_cons, List.map_nil, List.cons_append, List.nil_append, upperHexDigit_plain _ hhigh,
        upperHexDigit_plain _ hlow]
      have hpercent : plusToSpace '%' = '%' := rfl
      rw [hpercent, unquoteBytes, hexValue_upperHexDigit _ hhigh, hexValue_upperHexDigit _ hlow]
      dsimp only
      rw [hbyte]

theorem unquoteBytes_quoted (bytes : Bytes) : unquoteBytes ((bytes.flatMap quoteByte).map plusToSpace) = bytes := by
  induction bytes with
  | nil => rfl
  | cons b bytes ih => rw [List.flatMap_cons, List.map_append, unquoteBytes_quoteByte, ih]

theorem unquoteRuns_ascii : ∀ (text run : List Char), (∀ c ∈ text, c.toNat < 128) →
    unquoteRuns run text = decodeUtf8 (unquoteBytes (run.reverse ++ text))
  | [], run, _ => by rw [List.append_nil, unquoteRuns]
  | c :: text, run, h => by
    rw [unquoteRuns, if_pos (h c (List.mem_cons_self ..)),
      unquoteRuns_ascii text _ fun d hd => h d (List.mem_cons_of_mem _ hd), List.reverse_cons, List.append_assoc,
      List.singleton_append]

theorem quotePlus_chars (text : List Char) : ∀ c ∈ quotePlus text, isQuoted c = true := by
  intro c hc
  obtain ⟨b, -, hb⟩ := List.mem_flatMap.1 hc
  exact quoteByte_chars b c hb

/-- **A component is read back.** -/
theorem unquotePlus_quotePlus (text : List Char) : unquotePlus (quotePlus text) = text := by
  have hascii : ∀ c ∈ (quotePlus text).map plusToSpace, c.toNat < 128 := by
    intro c hc
    obtain ⟨d, hd, rfl⟩ := List.mem_map.1 hc
    have hquoted := quotePlus_chars text d hd
    unfold isQuoted at hquoted
    unfold plusToSpace
    split_ifs
    · decide
    · exact of_decide_eq_true (Bool.and_eq_true_iff.1 hquoted).1
  rw [unquotePlus, unquoteRuns_ascii _ _ hascii, List.reverse_nil, List.nil_append, quotePlus, unquoteBytes_quoted,
    decodeUtf8_encode]

end Component

/-! ## Pairs -/

section Pairs

/-- One `name=value`. -/
def encodePair (pair : String × String) : List Char := quotePlus pair.1.toList ++ '=' :: quotePlus pair.2.toList

/-- `urlencode`. -/
def urlencode (pairs : List (String × String)) : List Char := ['&'].intercalate (pairs.map encodePair)

/-- One piece of a query: its name and value, the value empty where there is no `=`. -/
def parsePair (piece : List Char) : String × String :=
  (String.ofList (unquotePlus (piece.takeWhile (· ≠ '='))),
    String.ofList (unquotePlus ((piece.dropWhile (· ≠ '=')).drop 1)))

/-- `parse_qsl(…, keep_blank_values=True)`: an empty piece is passed over. -/
def parseQsl (query : List Char) : List (String × String) :=
  ((query.splitOn '&').filter (· ≠ [])).map parsePair

theorem quotePlus_free {c : Char} (h : isQuoted c = false) (text : List Char) : c ∉ quotePlus text := by
  intro hc
  rw [quotePlus_chars text c hc] at h
  cases h

theorem parsePair_encodePair (pair : String × String) : parsePair (encodePair pair) = pair := by
  have hname : ∀ c ∈ quotePlus pair.1.toList, decide (c ≠ '=') = true := by
    intro c hc
    refine decide_eq_true fun heq => ?_
    rw [heq] at hc
    exact quotePlus_free (by decide) _ hc
  have htake : ∀ rest : List Char, ('=' :: rest).takeWhile (· ≠ '=') = [] := fun _ => rfl
  have hdrop : ∀ rest : List Char, ('=' :: rest).dropWhile (· ≠ '=') = '=' :: rest := fun _ => rfl
  rw [parsePair, encodePair, List.takeWhile_append_of_pos hname, htake, List.append_nil,
    List.dropWhile_append_of_pos hname, hdrop, List.drop_one, List.tail_cons,
    unquotePlus_quotePlus, unquotePlus_quotePlus, String.ofList_toList, String.ofList_toList]

/-- **What is encoded is read back**, pair by pair, whatever the texts. -/
theorem parseQsl_urlencode (pairs : List (String × String)) : parseQsl (urlencode pairs) = pairs := by
  by_cases hnil : pairs = []
  · rw [hnil]
    rfl
  have hfree : ∀ piece ∈ pairs.map encodePair, '&' ∉ piece := by
    intro piece hpiece hc
    obtain ⟨pair, -, rfl⟩ := List.mem_map.1 hpiece
    rcases List.mem_append.1 hc with hc | hc
    · exact quotePlus_free (by decide) _ hc
    · rcases List.mem_cons.1 hc with hc | hc
      · exact absurd hc (by decide)
      · exact quotePlus_free (by decide) _ hc
  have hne : pairs.map encodePair ≠ [] := fun h => hnil (List.map_eq_nil_iff.1 h)
  have hpieces : (pairs.map encodePair).filter (· ≠ []) = pairs.map encodePair := by
    refine List.filter_eq_self.2 fun piece hpiece => decide_eq_true fun hempty => ?_
    obtain ⟨pair, -, rfl⟩ := List.mem_map.1 hpiece
    exact List.append_ne_nil_of_right_ne_nil _ (List.cons_ne_nil _ _) hempty
  rw [parseQsl, urlencode, List.splitOn_intercalate '&' hfree hne, hpieces, List.map_map]
  exact (List.map_congr_left fun pair _ => parsePair_encodePair pair).trans (List.map_id _)

/-- The characters of an encoded query. -/
theorem urlencode_chars (pairs : List (String × String)) :
    ∀ c ∈ urlencode pairs, isQuoted c = true ∨ c = '=' ∨ c = '&' := by
  intro c hc
  rcases mem_intercalate hc with rfl | ⟨piece, hpiece, hc⟩
  · exact .inr (.inr rfl)
  obtain ⟨pair, -, rfl⟩ := List.mem_map.1 hpiece
  rcases List.mem_append.1 hc with hc | hc
  · exact .inl (quotePlus_chars _ c hc)
  · rcases List.mem_cons.1 hc with rfl | hc
    · exact .inr (.inl rfl)
    · exact .inl (quotePlus_chars _ c hc)

end Pairs

end Transform.Lib
