import Mathlib.Data.Int.Notation
import Mathlib.Data.Nat.Notation
import Transform.Lib.Keyed

/-!
# Lib.Json — values as JSON text, and back

`dumps` writes a value on one line, in ASCII; `loads` reads one.  A float is kept as the literal that it is written as.

* `loads_dumps`: what is written is read back, for a value whose objects have distinct keys (`Json.Distinct`).
-/

namespace Transform.Lib

/-! ## Numbers -/

section Numbers

def isNumberChar (c : Char) : Bool := c.isDigit || "+-.eE".toList.contains c

/-- Digits without a leading zero. -/
def isNatural (digits : List Char) : Bool :=
  digits.all Char.isDigit && !digits.isEmpty && (digits = ['0'] || digits.head? ≠ some '0')

def readInt (literal : List Char) : Option ℤ :=
  match literal with
  | '-' :: digits => if isNatural digits then some (-(Nat.ofDigitChars 10 digits 0)) else none
  | digits => if isNatural digits then some (Nat.ofDigitChars 10 digits 0) else none

def writeInt (n : ℤ) : List Char :=
  if n < 0 then '-' :: Nat.toDigits 10 n.natAbs else Nat.toDigits 10 n.natAbs

def dropSign : List Char → List Char
  | '-' :: rest => rest
  | rest => rest

def hasDigits (digits : List Char) : Bool := digits.all Char.isDigit && !digits.isEmpty

def isExponent : List Char → Bool
  | e :: '+' :: digits | e :: '-' :: digits => (e = 'e' || e = 'E') && hasDigits digits
  | e :: digits => (e = 'e' || e = 'E') && hasDigits digits
  | [] => false

/-- A number with a fraction, an exponent or both. -/
def isDecimal (literal : List Char) : Bool :=
  isNatural ((dropSign literal).takeWhile Char.isDigit) && match (dropSign literal).dropWhile Char.isDigit with
    | '.' :: rest =>
      hasDigits (rest.takeWhile Char.isDigit) &&
        ((rest.dropWhile Char.isDigit).isEmpty || isExponent (rest.dropWhile Char.isDigit))
    | rest => isExponent rest

def isFloat (literal : List Char) : Bool :=
  literal.all isNumberChar && (readInt literal).isNone && isDecimal literal

inductive JsonFloat
  | nan
  | infinity (negative : Bool)
  | literal (text : List Char) (wellFormed : isFloat text = true)
  deriving DecidableEq

def JsonFloat.text : JsonFloat → List Char
  | .nan => "NaN".toList
  | .infinity false => "Infinity".toList
  | .infinity true => "-Infinity".toList
  | .literal text _ => text

end Numbers

inductive Json
  | null
  | bool (b : Bool)
  | int (n : ℤ)
  | float (f : JsonFloat)
  | str (text : String)
  | arr (items : List Json)
  | obj (entries : List (String × Json))

def Json.str? : Json → Option String
  | .str text => some text
  | _ => none

def Json.arr? : Json → Option (List Json)
  | .arr items => some items
  | _ => none

def Json.obj? : Json → Option (List (String × Json))
  | .obj entries => some entries
  | _ => none

/-! ## Writing -/

section Writing

def hexDigit (n : ℕ) : Char := if n < 10 then Char.ofNat (48 + n) else Char.ofNat (87 + n)

def unicodeEscape (unit : ℕ) : List Char :=
  ['\\', 'u', hexDigit (unit / 4096 % 16), hexDigit (unit / 256 % 16), hexDigit (unit / 16 % 16), hexDigit (unit % 16)]

def escapeChar (c : Char) : List Char :=
  if c = '"' then ['\\', '"']
  else if c = '\\' then ['\\', '\\']
  else if c = '\n' then ['\\', 'n']
  else if c = '\r' then ['\\', 'r']
  else if c = '\t' then ['\\', 't']
  else if c.toNat = 8 then ['\\', 'b']
  else if c.toNat = 12 then ['\\', 'f']
  else if 32 ≤ c.toNat ∧ c.toNat < 127 then [c]
  else if c.toNat < 65536 then unicodeEscape c.toNat
  else unicodeEscape (55296 + (c.toNat - 65536) / 1024) ++ unicodeEscape (56320 + (c.toNat - 65536) % 1024)

/-- A string, its closing quote included. -/
def writeString (text : List Char) : List Char := text.flatMap escapeChar ++ ['"']

mutual

def Json.write : Json → List Char
  | .null => "null".toList
  | .bool true => "true".toList
  | .bool false => "false".toList
  | .int n => writeInt n
  | .float f => f.text
  | .str text => '"' :: writeString text.toList
  | .arr [] => "[]".toList
  | .arr (item :: items) => '[' :: item.write ++ writeItems items
  | .obj [] => "\x7b\x7d".toList
  | .obj (entry :: entries) => '\x7b' :: writeEntry entry ++ writeEntries entries
termination_by structural v => v

/-- The items after the first. -/
def writeItems : List Json → List Char
  | [] => [']']
  | item :: items => ", ".toList ++ item.write ++ writeItems items
termination_by structural items => items

def writeEntries : List (String × Json) → List Char
  | [] => ['\x7d']
  | entry :: entries => ", ".toList ++ writeEntry entry ++ writeEntries entries
termination_by structural entries => entries

def writeEntry : String × Json → List Char
  | (key, value) => '"' :: writeString key.toList ++ ": ".toList ++ value.write
termination_by structural entry => entry

end

/-- `json.dumps`. -/
def Json.dumps (v : Json) : String := String.ofList v.write

end Writing

/-! ## Reading -/

section Reading

def isSpace (c : Char) : Bool := " \t\n\r".toList.contains c

def skipSpace (text : List Char) : List Char := text.dropWhile isSpace

def hexValue (c : Char) : Option ℕ :=
  if '0' ≤ c ∧ c ≤ '9' then some (c.toNat - 48)
  else if 'a' ≤ c ∧ c ≤ 'f' then some (c.toNat - 87)
  else if 'A' ≤ c ∧ c ≤ 'F' then some (c.toNat - 55)
  else none

/-- The four digits of a code unit. -/
def readUnit : List Char → Option (ℕ × List Char)
  | a :: b :: c :: d :: rest => do
    some ((((← hexValue a) * 16 + (← hexValue b)) * 16 + (← hexValue c)) * 16 + (← hexValue d), rest)
  | _ => none

/-- A character from its code units; half of a pair is not one. -/
def readUnicode (rest : List Char) : Option (Char × List Char) := do
  let (unit, rest) ← readUnit rest
  if 55296 ≤ unit ∧ unit < 56320 then
    match rest with
    | '\\' :: 'u' :: rest =>
      let (low, rest) ← readUnit rest
      if 56320 ≤ low ∧ low < 57344 then some (Char.ofNat (65536 + (unit - 55296) * 1024 + (low - 56320)), rest)
      else none
    | _ => none
  else if 56320 ≤ unit ∧ unit < 57344 then none
  else some (Char.ofNat unit, rest)

def readEscape : List Char → Option (Char × List Char)
  | '"' :: rest => some ('"', rest)
  | '\\' :: rest => some ('\\', rest)
  | '/' :: rest => some ('/', rest)
  | 'n' :: rest => some ('\n', rest)
  | 'r' :: rest => some ('\r', rest)
  | 't' :: rest => some ('\t', rest)
  | 'b' :: rest => some (Char.ofNat 8, rest)
  | 'f' :: rest => some (Char.ofNat 12, rest)
  | 'u' :: rest => readUnicode rest
  | _ => none

/-- A string up to its closing quote, of at most so many characters. -/
def readString : ℕ → List Char → Option (List Char × List Char)
  | 0, _ => none
  | _ + 1, '"' :: rest => some ([], rest)
  | fuel + 1, '\\' :: rest => do
    let (c, rest) ← readEscape rest
    let (text, rest) ← readString fuel rest
    some (c :: text, rest)
  | fuel + 1, c :: rest =>
    if c.toNat < 32 then none else do
      let (text, rest) ← readString fuel rest
      some (c :: text, rest)
  | _ + 1, [] => none

def readText (rest : List Char) : Option (String × List Char) :=
  (readString (rest.length + 1) rest).map fun (text, rest) => (String.ofList text, rest)

def jsonWords : List (List Char × Json) :=
  [("null".toList, .null), ("true".toList, .bool true), ("false".toList, .bool false), ("NaN".toList, .float .nan),
    ("Infinity".toList, .float (.infinity false)), ("-Infinity".toList, .float (.infinity true))]

def readWord (text : List Char) : Option (Json × List Char) :=
  (jsonWords.find? fun word => word.1.isPrefixOf text).map fun word => (word.2, text.drop word.1.length)

def readNumber (text : List Char) : Option (Json × List Char) :=
  let literal := text.takeWhile isNumberChar
  let rest := text.dropWhile isNumberChar
  match readInt literal with
  | some n => some (.int n, rest)
  | none => if h : isFloat literal = true then some (.float (.literal literal h), rest) else none

mutual

def readValue : ℕ → List Char → Option (Json × List Char)
  | 0, _ => none
  | fuel + 1, text =>
    match text with
    | '"' :: rest => (readText rest).map fun (text, rest) => (.str text, rest)
    | '[' :: rest =>
      match skipSpace rest with
      | ']' :: rest => some (.arr [], rest)
      | rest => (readItems fuel rest).map fun (items, rest) => (.arr items, rest)
    | '\x7b' :: rest =>
      match skipSpace rest with
      | '\x7d' :: rest => some (.obj [], rest)
      | rest => (readEntries fuel [] rest).map fun (entries, rest) => (.obj entries, rest)
    | text => (readWord text).or (readNumber text)

def readItems : ℕ → List Char → Option (List Json × List Char)
  | 0, _ => none
  | fuel + 1, text => do
    let (item, rest) ← readValue fuel text
    match skipSpace rest with
    | ',' :: rest =>
      let (items, rest) ← readItems fuel (skipSpace rest)
      some (item :: items, rest)
    | ']' :: rest => some ([item], rest)
    | _ => none

/-- The entries of an object; a key that comes again replaces the value. -/
def readEntries : ℕ → List (String × Json) → List Char → Option (List (String × Json) × List Char)
  | 0, _, _ => none
  | fuel + 1, entries, text =>
    match text with
    | '"' :: rest => do
      let (key, rest) ← readText rest
      match skipSpace rest with
      | ':' :: rest =>
        let (value, rest) ← readValue fuel (skipSpace rest)
        let entries := mapSet entries key value
        match skipSpace rest with
        | ',' :: rest => readEntries fuel entries (skipSpace rest)
        | '\x7d' :: rest => some (entries, rest)
        | _ => none
      | _ => none
    | _ => none

end

/-- `json.loads`; `none` where it raises. -/
def Json.loads (text : String) : Option Json :=
  match readValue (text.toList.length + 1) (skipSpace text.toList) with
  | some (v, rest) => if skipSpace rest = [] then some v else none
  | none => none

end Reading

/-! ## Numbers are read back -/

section NumbersBack

variable {literal rest : List Char}

/-- What follows a number does not go on with it. -/
def Stops (rest : List Char) : Prop := ∀ c ∈ rest.head?, isNumberChar c = false

theorem stops_nil : Stops [] := by simp [Stops]

theorem stops_cons {c : Char} (h : isNumberChar c = false) : Stops (c :: rest) := by
  intro c' hc
  obtain rfl : c = c' := by simpa using hc
  exact h

theorem takeWhile_stops (h : ∀ c ∈ literal, isNumberChar c = true) (hstop : Stops rest) :
    (literal ++ rest).takeWhile isNumberChar = literal ∧ (literal ++ rest).dropWhile isNumberChar = rest := by
  rw [List.takeWhile_append_of_pos h, List.dropWhile_append_of_pos h]
  rcases rest with _ | ⟨c, rest⟩
  · simp
  · have hc : isNumberChar c = false := hstop c (by simp)
    simp [hc]

theorem isNumberChar_digit {c : Char} (h : c.isDigit = true) : isNumberChar c = true := by simp [isNumberChar, h]

theorem head?_toDigits : ∀ (n : ℕ), 0 < n → (Nat.toDigits 10 n).head? ≠ some '0' := by
  intro n
  induction n using Nat.strongRecOn with
  | _ n ih =>
    intro hn
    by_cases hlt : n < 10
    · have hdigit : ∀ m < 10, 0 < m → [m.digitChar].head? ≠ some '0' := by decide
      rw [Nat.toDigits_of_lt_base hlt]
      exact hdigit n hlt hn
    · rw [Nat.toDigits_of_base_le (by omega) (by omega), List.head?_append_of_ne_nil _ Nat.toDigits_ne_nil]
      exact ih (n / 10) (by omega) (by omega)

theorem isNatural_toDigits (n : ℕ) : isNatural (Nat.toDigits 10 n) = true := by
  have hall : (Nat.toDigits 10 n).all Char.isDigit = true :=
    List.all_eq_true.2 fun c hc => Nat.isDigit_of_mem_toDigits (by omega) (by omega) hc
  have hne : (Nat.toDigits 10 n).isEmpty = false := by simp [Nat.toDigits_ne_nil]
  unfold isNatural
  rw [hall, hne]
  rcases Nat.eq_zero_or_pos n with rfl | hn
  · simp [Nat.toDigits_zero]
  · simp [head?_toDigits n hn]

theorem writeInt_chars (n : ℤ) : ∀ c ∈ writeInt n, isNumberChar c = true := by
  have hdigits : ∀ c ∈ Nat.toDigits 10 n.natAbs, isNumberChar c = true := fun c hc =>
    isNumberChar_digit (Nat.isDigit_of_mem_toDigits (by omega) (by omega) hc)
  intro c hc
  unfold writeInt at hc
  split_ifs at hc
  · rcases List.mem_cons.1 hc with rfl | hc
    · decide
    · exact hdigits c hc
  · exact hdigits c hc

theorem readInt_writeInt (n : ℤ) : readInt (writeInt n) = some n := by
  unfold writeInt
  split_ifs with hn
  · simp only [readInt, isNatural_toDigits, if_true, Nat.ofDigitChars_ten_toDigits]
    congr 1
    omega
  · have hread : readInt (Nat.toDigits 10 n.natAbs) = some (Nat.ofDigitChars 10 (Nat.toDigits 10 n.natAbs) 0 : ℤ) := by
      unfold readInt
      split
      · rename_i digits hdigits
        have hdash := Nat.isDigit_of_mem_toDigits (b := 10) (n := n.natAbs) (c := '-') (by omega) (by omega)
          (by rw [hdigits]; simp)
        exact absurd hdash (by decide)
      · rw [if_pos (isNatural_toDigits _)]
    rw [hread, Nat.ofDigitChars_ten_toDigits]
    congr 1
    omega

theorem readWord_literal (h : ∀ c ∈ literal, isNumberChar c = true) (hne : dropSign literal ≠ []) :
    readWord (literal ++ rest) = none := by
  have hletter : ∀ c ∈ literal, c ≠ 'n' ∧ c ≠ 't' ∧ c ≠ 'f' ∧ c ≠ 'N' ∧ c ≠ 'I' := by
    intro c hc
    have hnumber := h c hc
    refine ⟨?_, ?_, ?_, ?_, ?_⟩ <;> rintro rfl <;> revert hnumber <;> decide
  unfold readWord
  rw [Option.map_eq_none_iff, List.find?_eq_none]
  intro word hword hprefix
  obtain ⟨t, ht⟩ := List.isPrefixOf_iff_prefix.1 hprefix
  rcases literal with _ | ⟨c, literal⟩
  · exact hne rfl
  obtain ⟨hn, htr, hf, hN, hI⟩ := hletter c List.mem_cons_self
  simp only [jsonWords, List.mem_cons, List.not_mem_nil, or_false] at hword
  rcases hword with rfl | rfl | rfl | rfl | rfl | rfl
  · exact hn (List.cons.inj ht).1.symm
  · exact htr (List.cons.inj ht).1.symm
  · exact hf (List.cons.inj ht).1.symm
  · exact hN (List.cons.inj ht).1.symm
  · exact hI (List.cons.inj ht).1.symm
  · obtain ⟨rfl, htail⟩ := List.cons.inj ht
    rcases literal with _ | ⟨d, literal⟩
    · exact hne rfl
    · exact (hletter d (by simp)).2.2.2.2 (List.cons.inj htail).1.symm

theorem dropSign_writeInt (n : ℤ) : dropSign (writeInt n) ≠ [] := by
  have hne : Nat.toDigits 10 n.natAbs ≠ [] := Nat.toDigits_ne_nil
  unfold writeInt
  split_ifs
  · exact hne
  · unfold dropSign
    split
    · rename_i digits hdigits
      have hdash := Nat.isDigit_of_mem_toDigits (b := 10) (n := n.natAbs) (c := '-') (by omega) (by omega)
        (by rw [hdigits]; simp)
      exact absurd hdash (by decide)
    · exact hne

theorem dropSign_float (h : isFloat literal = true) : dropSign literal ≠ [] := by
  intro hnil
  simp [isFloat, isDecimal, hnil, isNatural] at h

theorem readNumber_writeInt {n : ℤ} (hstop : Stops rest) : readNumber (writeInt n ++ rest) = some (.int n, rest) := by
  obtain ⟨htake, hdrop⟩ := takeWhile_stops (writeInt_chars n) hstop
  unfold readNumber
  dsimp only
  rw [htake, hdrop, readInt_writeInt]

theorem float_chars (h : isFloat literal = true) : ∀ c ∈ literal, isNumberChar c = true := by
  intro c hc
  unfold isFloat at h
  rw [Bool.and_eq_true, Bool.and_eq_true] at h
  exact List.all_eq_true.1 h.1.1 c hc

theorem readNumber_float (h : isFloat literal = true) (hstop : Stops rest) :
    readNumber (literal ++ rest) = some (.float (.literal literal h), rest) := by
  obtain ⟨htake, hdrop⟩ := takeWhile_stops (float_chars h) hstop
  have hint : readInt literal = none := by
    unfold isFloat at h
    rw [Bool.and_eq_true, Bool.and_eq_true] at h
    exact Option.isNone_iff_eq_none.1 h.1.2
  unfold readNumber
  dsimp only
  simp only [htake, hdrop, hint, h, dif_pos]

end NumbersBack

/-! ## Strings are read back -/

section StringsBack

variable {rest : List Char}

theorem hexValue_hexDigit : ∀ n < 16, hexValue (hexDigit n) = some n := by decide

theorem readUnit_digits {n : ℕ} (h : n < 65536) :
    readUnit (hexDigit (n / 4096 % 16) :: hexDigit (n / 256 % 16) :: hexDigit (n / 16 % 16) :: hexDigit (n % 16) :: rest) =
      some (n, rest) := by
  have hsum : ((n / 4096 % 16 * 16 + n / 256 % 16) * 16 + n / 16 % 16) * 16 + n % 16 = n := by omega
  simp only [readUnit, hexValue_hexDigit _ (Nat.mod_lt _ (by omega : 0 < 16)), Option.bind_eq_bind, Option.bind_some, hsum]

theorem char_bounds (c : Char) : c.toNat < 55296 ∨ 57343 < c.toNat ∧ c.toNat < 1114112 := c.valid

theorem readUnicode_escape {c : Char} (h : c.toNat < 65536) :
    readUnicode ((unicodeEscape c.toNat).drop 2 ++ rest) = some (c, rest) := by
  have hbounds := char_bounds c
  have hread : readUnit ((unicodeEscape c.toNat).drop 2 ++ rest) = some (c.toNat, rest) := readUnit_digits h
  unfold readUnicode
  simp only [hread, Option.bind_eq_bind, Option.bind_some]
  rw [if_neg (by omega), if_neg (by omega), Char.ofNat_toNat]

theorem readUnicode_pair (high low : ℕ) (hhigh : 55296 ≤ high ∧ high < 56320) (hlow : 56320 ≤ low ∧ low < 57344) :
    readUnicode ((unicodeEscape high).drop 2 ++ (unicodeEscape low ++ rest)) =
      some (Char.ofNat (65536 + (high - 55296) * 1024 + (low - 56320)), rest) := by
  have hreadHigh : ∀ rest, readUnit ((unicodeEscape high).drop 2 ++ rest) = some (high, rest) := fun _ =>
    readUnit_digits (by omega)
  have hreadLow : readUnit ((unicodeEscape low).drop 2 ++ rest) = some (low, rest) := readUnit_digits (by omega)
  have hsplit : unicodeEscape low ++ rest = '\\' :: 'u' :: ((unicodeEscape low).drop 2 ++ rest) := rfl
  unfold readUnicode
  rw [hreadHigh, hsplit]
  simp only [Option.bind_eq_bind, Option.bind_some]
  rw [if_pos hhigh, hreadLow]
  simp only [Option.bind_some]
  rw [if_pos hlow]

theorem length_escapeChar (c : Char) : 0 < (escapeChar c).length := by
  unfold escapeChar
  split_ifs <;> simp [unicodeEscape]

/-- **A character** is read back from its escape. -/
theorem readString_escapeChar {c : Char} {fuel : ℕ} :
    readString (fuel + 1) (escapeChar c ++ rest) = (readString fuel rest).map fun (text, rest) => (c :: text, rest) := by
  have hescape : ∀ body, readEscape (body ++ rest) = some (c, rest) →
      readString (fuel + 1) ('\\' :: (body ++ rest)) = (readString fuel rest).map fun (text, rest) => (c :: text, rest) := by
    intro body hbody
    rw [readString, hbody]
    simp only [Option.bind_eq_bind, Option.bind_some]
    rcases readString fuel rest with _ | ⟨text, rest⟩ <;> rfl
  have hbounds := char_bounds c
  unfold escapeChar
  split_ifs with h1 h2 h3 h4 h5 h6 h7 h8 h9
  · subst h1
    exact hescape ['"'] rfl
  · subst h2
    exact hescape ['\\'] rfl
  · subst h3
    exact hescape ['n'] rfl
  · subst h4
    exact hescape ['r'] rfl
  · subst h5
    exact hescape ['t'] rfl
  · obtain rfl : c = Char.ofNat 8 := by rw [← h6, Char.ofNat_toNat]
    exact hescape ['b'] rfl
  · obtain rfl : c = Char.ofNat 12 := by rw [← h7, Char.ofNat_toNat]
    exact hescape ['f'] rfl
  · rw [List.singleton_append, readString]
    · rw [if_neg (by omega)]
      rcases readString fuel rest with _ | ⟨text, rest⟩ <;> rfl
    · exact h1
    · exact h2
  · exact hescape ('u' :: (unicodeEscape c.toNat).drop 2) (readUnicode_escape h9)
  · refine hescape ('u' :: ((unicodeEscape (55296 + (c.toNat - 65536) / 1024)).drop 2 ++
      unicodeEscape (56320 + (c.toNat - 65536) % 1024))) ?_
    have hsum : 65536 + (55296 + (c.toNat - 65536) / 1024 - 55296) * 1024 +
        (56320 + (c.toNat - 65536) % 1024 - 56320) = c.toNat := by omega
    rw [List.cons_append, List.append_assoc]
    refine (readUnicode_pair (55296 + (c.toNat - 65536) / 1024) (56320 + (c.toNat - 65536) % 1024) (by omega)
      (by omega)).trans ?_
    rw [hsum, Char.ofNat_toNat]

theorem readString_write {text : List Char} {fuel : ℕ} (h : text.length < fuel) :
    readString fuel (writeString text ++ rest) = some (text, rest) := by
  obtain ⟨fuel, rfl⟩ : ∃ k, fuel = k + 1 := ⟨fuel - 1, by omega⟩
  induction text generalizing fuel with
  | nil => rfl
  | cons c text ih =>
    rw [List.length_cons] at h
    obtain ⟨fuel, rfl⟩ : ∃ k, fuel = k + 1 := ⟨fuel - 1, by omega⟩
    have hsplit : writeString (c :: text) ++ rest = escapeChar c ++ (writeString text ++ rest) := by simp [writeString]
    rw [hsplit, readString_escapeChar, ih fuel (by omega)]
    rfl

theorem length_writeString (text : List Char) : text.length < (writeString text).length := by
  induction text with
  | nil => simp [writeString]
  | cons c text ih =>
    have hc := length_escapeChar c
    simp only [writeString, List.flatMap_cons, List.length_append, List.length_cons] at ih ⊢
    omega

theorem readText_write {text : String} : readText (writeString text.toList ++ rest) = some (text, rest) := by
  have hlength := length_writeString text.toList
  unfold readText
  rw [readString_write (by rw [List.length_append]; omega), Option.map_some]
  dsimp only
  rw [String.ofList_toList]

end StringsBack

/-! ## Values are read back -/

section ValuesBack

mutual

/-- Every object has its keys once. -/
def Json.Distinct : Json → Prop
  | .null => True
  | .bool _ => True
  | .int _ => True
  | .float _ => True
  | .str _ => True
  | .arr items => DistinctItems items
  | .obj entries => (entries.map (·.1)).Nodup ∧ DistinctEntries entries
termination_by structural v => v

def DistinctItems : List Json → Prop
  | [] => True
  | item :: items => item.Distinct ∧ DistinctItems items
termination_by structural items => items

def DistinctEntries : List (String × Json) → Prop
  | [] => True
  | entry :: entries => DistinctEntry entry ∧ DistinctEntries entries
termination_by structural entries => entries

def DistinctEntry : String × Json → Prop
  | (_, value) => value.Distinct
termination_by structural entry => entry

end

variable {rest : List Char}

/-- A value is written from its first character on. -/
theorem write_head (v : Json) : ∃ c cs, v.write = c :: cs ∧ isSpace c = false ∧ c ≠ ']' := by
  have hnumber : ∀ c, isNumberChar c = true → isSpace c = false ∧ c ≠ ']' := by
    intro c hc
    constructor
    · by_contra hspace
      rw [Bool.not_eq_false, isSpace, List.contains_iff_mem] at hspace
      simp only [String.reduceToList, List.mem_cons, List.not_mem_nil, or_false] at hspace
      rcases hspace with rfl | rfl | rfl | rfl <;> revert hc <;> decide
    · rintro rfl
      revert hc
      decide
  have hliteral : ∀ literal : List Char, (∀ c ∈ literal, isNumberChar c = true) → dropSign literal ≠ [] →
      ∃ c cs, literal = c :: cs ∧ isSpace c = false ∧ c ≠ ']' := by
    intro literal hall hne
    rcases literal with _ | ⟨c, cs⟩
    · exact absurd rfl hne
    · obtain ⟨hspace, hbracket⟩ := hnumber c (hall c List.mem_cons_self)
      exact ⟨c, cs, rfl, hspace, hbracket⟩
  cases v with
  | null => exact ⟨'n', _, rfl, by decide, by decide⟩
  | bool b =>
    cases b
    · exact ⟨'f', _, rfl, by decide, by decide⟩
    · exact ⟨'t', _, rfl, by decide, by decide⟩
  | int n => exact hliteral _ (writeInt_chars n) (dropSign_writeInt n)
  | float f =>
    cases f with
    | nan => exact ⟨'N', _, rfl, by decide, by decide⟩
    | infinity negative =>
      cases negative
      · exact ⟨'I', _, rfl, by decide, by decide⟩
      · exact ⟨'-', _, rfl, by decide, by decide⟩
    | literal text h => exact hliteral text (float_chars h) (dropSign_float h)
  | str text => exact ⟨'"', _, rfl, by decide, by decide⟩
  | arr items => cases items <;> exact ⟨'[', _, rfl, by decide, by decide⟩
  | obj entries => cases entries <;> exact ⟨'\x7b', _, rfl, by decide, by decide⟩

theorem skipSpace_cons {c : Char} {cs : List Char} (h : isSpace c = false) : skipSpace (c :: cs) = c :: cs :=
  List.dropWhile_cons_of_neg (by simp [h])

theorem skipSpace_write (v : Json) : skipSpace (v.write ++ rest) = v.write ++ rest := by
  obtain ⟨c, cs, hwrite, hspace, -⟩ := write_head v
  rw [hwrite]
  exact skipSpace_cons hspace

theorem readValue_literal {literal : List Char} {fuel : ℕ} (h : ∀ c ∈ literal, isNumberChar c = true)
    (hne : dropSign literal ≠ []) : readValue (fuel + 1) (literal ++ rest) = readNumber (literal ++ rest) := by
  have hword : readWord (literal ++ rest) = none := readWord_literal h hne
  rcases literal with _ | ⟨c, cs⟩
  · exact absurd rfl hne
  · have hc := h c List.mem_cons_self
    have hquote : c ≠ '"' := by rintro rfl; revert hc; decide
    have hbracket : c ≠ '[' := by rintro rfl; revert hc; decide
    have hbrace : c ≠ '\x7b' := by rintro rfl; revert hc; decide
    rw [List.cons_append] at hword ⊢
    rw [readValue, hword, Option.none_or]
    · exact fun _ heq => hquote (List.cons.inj heq).1
    · exact fun _ heq => hbracket (List.cons.inj heq).1
    · exact fun _ heq => hbrace (List.cons.inj heq).1

/-- The value is read back, whatever follows that does not go on with it. -/
def ReadBack (v : Json) : Prop :=
  ∀ (fuel : ℕ) (rest : List Char), v.write.length ≤ fuel → Stops rest → readValue fuel (v.write ++ rest) = some (v, rest)

theorem stops_comma : Stops (',' :: rest) := stops_cons (by decide)

theorem stops_bracket : Stops (']' :: rest) := stops_cons (by decide)

theorem stops_brace : Stops ('\x7d' :: rest) := stops_cons (by decide)

theorem readBack_null : ReadBack .null := by
  rintro (_ | fuel) rest hfuel -
  · exact absurd hfuel (by decide)
  · rfl

theorem readBack_bool (b : Bool) : ReadBack (.bool b) := by
  rintro (_ | fuel) rest hfuel -
  · cases b <;> exact absurd hfuel (by decide)
  · cases b <;> rfl

theorem readBack_int (n : ℤ) : ReadBack (.int n) := by
  have hne : writeInt n ≠ [] := by
    intro hnil
    exact dropSign_writeInt n (by rw [hnil]; rfl)
  rintro (_ | fuel) rest hfuel hstop
  · exact absurd (List.length_eq_zero_iff.1 (Nat.le_zero.1 hfuel)) hne
  · exact (readValue_literal (writeInt_chars n) (dropSign_writeInt n)).trans (readNumber_writeInt hstop)

theorem readBack_float (f : JsonFloat) : ReadBack (.float f) := by
  cases f with
  | nan =>
    rintro (_ | fuel) rest hfuel -
    · exact absurd hfuel (by decide)
    · rfl
  | infinity negative =>
    rintro (_ | fuel) rest hfuel -
    · cases negative <;> exact absurd hfuel (by decide)
    · cases negative <;> rfl
  | literal text h =>
    have hne : text ≠ [] := by
      rintro rfl
      exact dropSign_float h rfl
    rintro (_ | fuel) rest hfuel hstop
    · exact absurd (List.length_eq_zero_iff.1 (Nat.le_zero.1 hfuel)) hne
    · exact (readValue_literal (float_chars h) (dropSign_float h)).trans (readNumber_float h hstop)

theorem readBack_str (text : String) : ReadBack (.str text) := by
  rintro (_ | fuel) rest hfuel -
  · simp [Json.write] at hfuel
  · have hwrite : (Json.str text).write ++ rest = '"' :: (writeString text.toList ++ rest) := rfl
    rw [hwrite, readValue, readText_write]
    rfl

theorem new_of_nodup {before entries : List (String × Json)} {key : String} {value : Json}
    (h : ((before ++ (key, value) :: entries).map (·.1)).Nodup) : key ∉ before.map (·.1) := by
  rw [List.map_append, List.nodup_append] at h
  exact fun hmem => h.2.2 key hmem key (by simp) rfl

theorem length_writeEntry (key : String) (value : Json) : value.write.length < (writeEntry (key, value)).length := by
  simp [writeEntry]
  omega

theorem skipSpace_entry {key : String} {value : Json} :
    skipSpace (writeEntry (key, value) ++ rest) = writeEntry (key, value) ++ rest := by
  have hquote : isSpace '"' = false := by decide
  exact skipSpace_cons hquote

theorem readEntry_write {key : String} {value : Json} (hvalue : ReadBack value) {before : List (String × Json)}
    (hnew : key ∉ before.map (·.1)) {fuel : ℕ} (hfuel : value.write.length ≤ fuel) {tail : List Char} (hstop : Stops tail) :
    readEntries (fuel + 1) before (writeEntry (key, value) ++ tail) = match skipSpace tail with
      | ',' :: rest => readEntries fuel (before ++ [(key, value)]) (skipSpace rest)
      | '\x7d' :: rest => some (before ++ [(key, value)], rest)
      | _ => none := by
  have hwrite : writeEntry (key, value) ++ tail =
      '"' :: (writeString key.toList ++ (':' :: ' ' :: (value.write ++ tail))) := by
    simp [writeEntry]
  have hcolon : ∀ cs, skipSpace (':' :: cs) = ':' :: cs := fun _ => skipSpace_cons (by decide)
  have hspace : skipSpace (' ' :: (value.write ++ tail)) = value.write ++ tail := skipSpace_write value
  rw [hwrite, readEntries, readText_write]
  simp only [Option.bind_eq_bind, Option.bind_some, hcolon, hspace, hvalue fuel tail hfuel hstop, mapSet_new hnew]

mutual

/-- **A value** is read back. -/
theorem readBack : ∀ v : Json, v.Distinct → ReadBack v
  | .null, _ => readBack_null
  | .bool b, _ => readBack_bool b
  | .int n, _ => readBack_int n
  | .float f, _ => readBack_float f
  | .str text, _ => readBack_str text
  | .arr [], _ => by
    rintro (_ | fuel) rest hfuel -
    · exact absurd hfuel (by decide)
    · rfl
  | .arr (item :: items), hd => by
    have hitem := readBack item hd.1
    have hitems := readItems_write items hd.2
    rintro (_ | fuel) rest hfuel -
    · simp [Json.write] at hfuel
    · have hwrite : (Json.arr (item :: items)).write ++ rest = '[' :: (item.write ++ (writeItems items ++ rest)) := by
        simp [Json.write]
      have hlength : (Json.arr (item :: items)).write.length = item.write.length + (writeItems items).length + 1 := by
        simp [Json.write]
      obtain ⟨c, cs, hhead, -, hbracket⟩ := write_head item
      have hread := hitems item hitem fuel rest (by omega)
      rw [hhead, List.cons_append] at hread
      rw [hwrite, readValue, skipSpace_write, hhead, List.cons_append]
      split
      · rename_i heq
        exact absurd (List.cons.inj heq).1 hbracket
      · rw [hread]
        rfl
  | .obj [], _ => by
    rintro (_ | fuel) rest hfuel -
    · exact absurd hfuel (by decide)
    · rfl
  | .obj ((key, value) :: entries), hd => by
    have hvalue := readBack value hd.2.1
    have hentries := readEntries_write entries hd.2.2
    rintro (_ | fuel) rest hfuel -
    · simp [Json.write] at hfuel
    · have hwrite : (Json.obj ((key, value) :: entries)).write ++ rest =
          '\x7b' :: (writeEntry (key, value) ++ (writeEntries entries ++ rest)) := by
        simp [Json.write]
      have hlength : (Json.obj ((key, value) :: entries)).write.length =
          (writeEntry (key, value)).length + (writeEntries entries).length + 1 := by
        simp [Json.write]
      have hread := hentries key value hvalue [] fuel rest hd.1 (by omega)
      have hspace : skipSpace (writeEntry (key, value) ++ (writeEntries entries ++ rest)) =
          writeEntry (key, value) ++ (writeEntries entries ++ rest) := skipSpace_entry
      rw [hwrite, readValue, hspace]
      split
      · rename_i heq
        exact absurd (List.cons.inj heq).1 (by decide)
      · rw [hread]
        rfl

theorem readItems_write : ∀ items : List Json, DistinctItems items → ∀ item : Json, ReadBack item →
    ∀ (fuel : ℕ) (rest : List Char), item.write.length + (writeItems items).length ≤ fuel →
      readItems fuel (item.write ++ (writeItems items ++ rest)) = some (item :: items, rest)
  | [], _ => by
    rintro item hitem (_ | fuel) rest hfuel
    · simp [writeItems] at hfuel
    · have hwrite : writeItems [] ++ rest = ']' :: rest := rfl
      have hlength : (writeItems []).length = 1 := rfl
      rw [readItems, hwrite, hitem fuel _ (by omega) stops_bracket]
      rfl
  | next :: items, hd => by
    have hnext := readBack next hd.1
    have hitems := readItems_write items hd.2
    rintro item hitem (_ | fuel) rest hfuel
    · simp [writeItems] at hfuel
    · have hwrite : writeItems (next :: items) ++ rest = ',' :: ' ' :: (next.write ++ (writeItems items ++ rest)) := by
        simp [writeItems]
      have hlength : (writeItems (next :: items)).length = 2 + next.write.length + (writeItems items).length := by
        simp [writeItems]
        omega
      rw [readItems, hwrite, hitem fuel _ (by omega) stops_comma]
      have hspace : skipSpace (' ' :: (next.write ++ (writeItems items ++ rest))) = next.write ++ (writeItems items ++ rest) :=
        skipSpace_write next
      have hcomma : ∀ cs, skipSpace (',' :: cs) = ',' :: cs := fun _ => skipSpace_cons (by decide)
      simp only [Option.bind_eq_bind, Option.bind_some, hcomma, hspace]
      rw [hitems next hnext fuel rest (by omega)]
      rfl

theorem readEntries_write : ∀ entries : List (String × Json), DistinctEntries entries → ∀ (key : String) (value : Json),
    ReadBack value → ∀ (before : List (String × Json)) (fuel : ℕ) (rest : List Char),
      ((before ++ (key, value) :: entries).map (·.1)).Nodup →
      (writeEntry (key, value)).length + (writeEntries entries).length ≤ fuel →
      readEntries fuel before (writeEntry (key, value) ++ (writeEntries entries ++ rest)) =
        some (before ++ (key, value) :: entries, rest)
  | [], _ => by
    rintro key value hvalue before (_ | fuel) rest hkeys hfuel
    · simp [writeEntries] at hfuel
    · have hwrite : writeEntries [] ++ rest = '\x7d' :: rest := rfl
      have hlength : (writeEntries []).length = 1 := rfl
      have hentry := length_writeEntry key value
      rw [hwrite, readEntry_write hvalue (new_of_nodup hkeys) (by omega) stops_brace]
      rfl
  | (nextKey, nextValue) :: entries, hd => by
    have hnext := readBack nextValue hd.1
    have hentries := readEntries_write entries hd.2
    rintro key value hvalue before (_ | fuel) rest hkeys hfuel
    · simp [writeEntries] at hfuel
    · have hwrite : writeEntries ((nextKey, nextValue) :: entries) ++ rest =
          ',' :: ' ' :: (writeEntry (nextKey, nextValue) ++ (writeEntries entries ++ rest)) := by
        simp [writeEntries]
      have hlength : (writeEntries ((nextKey, nextValue) :: entries)).length =
          2 + (writeEntry (nextKey, nextValue)).length + (writeEntries entries).length := by
        simp [writeEntries]
        omega
      have hentry := length_writeEntry key value
      have hcomma : ∀ cs, skipSpace (',' :: cs) = ',' :: cs := fun _ => skipSpace_cons (by decide)
      have hspace : skipSpace (' ' :: (writeEntry (nextKey, nextValue) ++ (writeEntries entries ++ rest))) =
          writeEntry (nextKey, nextValue) ++ (writeEntries entries ++ rest) := skipSpace_entry
      have hsplit : before ++ (key, value) :: (nextKey, nextValue) :: entries =
          before ++ [(key, value)] ++ (nextKey, nextValue) :: entries := by simp
      rw [hwrite, readEntry_write hvalue (new_of_nodup hkeys) (by omega) stops_comma, hcomma, hsplit]
      simp only [hspace]
      exact hentries nextKey nextValue hnext _ fuel rest (by rw [← hsplit]; exact hkeys) (by omega)

end

/-- **What is written is read back.** -/
theorem loads_dumps {v : Json} (h : v.Distinct) : Json.loads v.dumps = some v := by
  have hread := readBack v h (v.write.length + 1) [] (by omega) stops_nil
  have hspace : skipSpace v.write = v.write := by
    have hskip : skipSpace (v.write ++ []) = v.write ++ [] := skipSpace_write v
    rwa [List.append_nil] at hskip
  rw [List.append_nil] at hread
  unfold Json.loads Json.dumps
  rw [String.toList_ofList, hspace, hread]
  rfl

end ValuesBack

/-! ## Objects with distinct keys -/

section DistinctKeys

variable {entries : List (String × Json)} {key : String} {value : Json}

theorem distinctItems_iff : ∀ {items : List Json}, DistinctItems items ↔ ∀ item ∈ items, item.Distinct
  | [] => by simp [DistinctItems]
  | item :: items => by
    have ih : DistinctItems items ↔ ∀ item ∈ items, item.Distinct := distinctItems_iff
    rw [DistinctItems, ih, List.forall_mem_cons]

theorem distinctEntries_iff : ∀ {entries : List (String × Json)},
    DistinctEntries entries ↔ ∀ entry ∈ entries, entry.2.Distinct
  | [] => by simp [DistinctEntries]
  | (key, value) :: entries => by
    have ih : DistinctEntries entries ↔ ∀ entry ∈ entries, entry.2.Distinct := distinctEntries_iff
    rw [DistinctEntries, ih, List.forall_mem_cons]
    exact Iff.rfl

theorem distinct_obj : (Json.obj entries).Distinct ↔
    (entries.map (·.1)).Nodup ∧ ∀ entry ∈ entries, entry.2.Distinct :=
  and_congr Iff.rfl distinctEntries_iff

theorem distinct_get (h : (Json.obj entries).Distinct) (hget : mapGet entries key = some value) : value.Distinct :=
  (distinct_obj.1 h).2 _ (mem_of_mapGet hget)

theorem distinct_set (h : (Json.obj entries).Distinct) (hvalue : value.Distinct) :
    (Json.obj (mapSet entries key value)).Distinct := by
  obtain ⟨hkeys, hall⟩ := distinct_obj.1 h
  refine distinct_obj.2 ⟨?_, fun entry hentry => ?_⟩
  · rw [keys_mapSet]
    split_ifs with hmem
    · exact hkeys
    · rw [List.nodup_append]
      refine ⟨hkeys, List.nodup_singleton _, ?_⟩
      rintro other hother _ hnew rfl
      obtain rfl := List.mem_singleton.1 hnew
      exact hmem hother
  · unfold mapSet at hentry
    split_ifs at hentry
    · obtain ⟨old, hold, rfl⟩ := List.mem_map.1 hentry
      split_ifs
      · exact hvalue
      · exact hall old hold
    · rcases List.mem_append.1 hentry with hold | hnew
      · exact hall entry hold
      · obtain rfl := List.mem_singleton.1 hnew
        exact hvalue

theorem distinct_readWord {text rest : List Char} {v : Json} (h : readWord text = some (v, rest)) : v.Distinct := by
  obtain ⟨word, hword, hpair⟩ := Option.map_eq_some_iff.1 h
  cases hpair
  have hmem := List.mem_of_find?_eq_some hword
  simp only [jsonWords, List.mem_cons, List.not_mem_nil, or_false] at hmem
  rcases hmem with rfl | rfl | rfl | rfl | rfl | rfl <;> exact trivial

theorem distinct_readNumber {text rest : List Char} {v : Json} (h : readNumber text = some (v, rest)) :
    v.Distinct := by
  unfold readNumber at h
  dsimp only at h
  split at h
  · cases h
    exact trivial
  · split_ifs at h
    cases h
    exact trivial

theorem distinct_read : ∀ fuel,
    (∀ text v rest, readValue fuel text = some (v, rest) → v.Distinct) ∧
    (∀ text items rest, readItems fuel text = some (items, rest) → DistinctItems items) ∧
    ∀ entries text entries' rest, (Json.obj entries).Distinct → readEntries fuel entries text = some (entries', rest) →
      (Json.obj entries').Distinct := by
  have hempty : (Json.obj []).Distinct := ⟨List.nodup_nil, trivial⟩
  intro fuel
  induction fuel with
  | zero => exact ⟨nofun, nofun, fun _ _ _ _ _ h => by cases h⟩
  | succ fuel ih =>
    obtain ⟨ihValue, ihItems, ihEntries⟩ := ih
    refine ⟨fun text v rest h => ?_, fun text items rest h => ?_, fun entries text entries' rest hentries h => ?_⟩
    · unfold readValue at h
      split at h
      · obtain ⟨⟨s, t⟩, -, hpair⟩ := Option.map_eq_some_iff.1 h
        cases hpair
        exact trivial
      · split at h
        · cases h
          exact trivial
        · obtain ⟨⟨items, t⟩, hitems, hpair⟩ := Option.map_eq_some_iff.1 h
          cases hpair
          exact ihItems _ _ _ hitems
      · split at h
        · cases h
          exact hempty
        · obtain ⟨⟨entries, t⟩, hentries, hpair⟩ := Option.map_eq_some_iff.1 h
          cases hpair
          exact ihEntries _ _ _ _ hempty hentries
      · rcases Option.or_eq_some_iff.1 h with hword | ⟨-, hnumber⟩
        · exact distinct_readWord hword
        · exact distinct_readNumber hnumber
    · unfold readItems at h
      obtain ⟨⟨item, t⟩, hitem, h⟩ := Option.bind_eq_some_iff.1 h
      have hdistinct := ihValue _ _ _ hitem
      dsimp only at h
      split at h
      · obtain ⟨⟨items', t'⟩, hitems, hpair⟩ := Option.bind_eq_some_iff.1 h
        cases hpair
        exact ⟨hdistinct, ihItems _ _ _ hitems⟩
      · cases h
        exact ⟨hdistinct, trivial⟩
      · cases h
    · unfold readEntries at h
      split at h
      · obtain ⟨⟨key, t⟩, -, h⟩ := Option.bind_eq_some_iff.1 h
        dsimp only at h
        split at h
        · obtain ⟨⟨value, t'⟩, hvalue, h⟩ := Option.bind_eq_some_iff.1 h
          have hset : (Json.obj (mapSet entries key value)).Distinct := distinct_set hentries (ihValue _ _ _ hvalue)
          dsimp only at h
          split at h
          · exact ihEntries _ _ _ _ hset h
          · cases h
            exact hset
          · cases h
        · cases h
      · cases h

theorem distinct_loads {text : String} {v : Json} (h : Json.loads text = some v) : v.Distinct := by
  unfold Json.loads at h
  split at h
  · rename_i value rest hread
    split_ifs at h
    cases h
    exact (distinct_read _).1 _ _ _ hread
  · cases h

end DistinctKeys

/-! ## Equality -/

section Equality

mutual

/-- Whether two values are the same. -/
def Json.same : Json → Json → Bool
  | .null, .null => true
  | .bool b, .bool b' => b = b'
  | .int n, .int n' => n = n'
  | .float f, .float f' => f = f'
  | .str text, .str text' => text = text'
  | .arr items, .arr items' => sameItems items items'
  | .obj entries, .obj entries' => sameEntries entries entries'
  | _, _ => false
termination_by structural v => v

def sameItems : List Json → List Json → Bool
  | [], [] => true
  | item :: items, item' :: items' => item.same item' && sameItems items items'
  | _, _ => false
termination_by structural items => items

def sameEntries : List (String × Json) → List (String × Json) → Bool
  | [], [] => true
  | entry :: entries, entry' :: entries' => sameEntry entry entry' && sameEntries entries entries'
  | _, _ => false
termination_by structural entries => entries

def sameEntry : String × Json → String × Json → Bool
  | (key, value), (key', value') => key = key' && value.same value'
termination_by structural entry => entry

end

mutual

theorem same_iff : ∀ {v v' : Json}, v.same v' = true ↔ v = v'
  | .null, v' => by cases v' <;> simp [Json.same]
  | .bool b, v' => by cases v' <;> simp [Json.same]
  | .int n, v' => by cases v' <;> simp [Json.same]
  | .float f, v' => by cases v' <;> simp [Json.same]
  | .str text, v' => by cases v' <;> simp [Json.same]
  | .arr items, v' => by cases v' <;> simp [Json.same, sameItems_iff]
  | .obj entries, v' => by cases v' <;> simp [Json.same, sameEntries_iff]

theorem sameItems_iff : ∀ {items items' : List Json}, sameItems items items' = true ↔ items = items'
  | [], items' => by cases items' <;> simp [sameItems]
  | item :: items, items' => by cases items' <;> simp [sameItems, @same_iff item, @sameItems_iff items]

theorem sameEntries_iff : ∀ {entries entries' : List (String × Json)},
    sameEntries entries entries' = true ↔ entries = entries'
  | [], entries' => by cases entries' <;> simp [sameEntries]
  | (key, value) :: entries, entries' => by
    rcases entries' with _ | ⟨⟨key', value'⟩, entries'⟩
    · simp [sameEntries]
    · simp [sameEntries, sameEntry, @same_iff value, @sameEntries_iff entries]

end

instance : DecidableEq Json := fun _ _ => decidable_of_iff _ same_iff

end Equality

end Transform.Lib
