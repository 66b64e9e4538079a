import Mathlib.Tactic.SplitIfs
import Transform.Lib.Base64Url

/-!
# Lib.TextCodecs — UTF-8, UTF-16 and Latin-1

The strict decoders of Python, beside the texts whose bytes they read.

* `decodeUtf8Strict_eq_some`: UTF-8 is decoded to the text whose bytes are read, and nothing else is decoded.
* `decodeUtf16_encodeUtf16`: UTF-16 with its mark is decoded to the text.
* `take_utf8_iff`: the bytes of a text cut at some place are UTF-8 exactly if the cut is between two characters.
-/

namespace Transform.Lib

/-! ## UTF-8 -/

section Utf8

variable {text other : List Char} {c : Char} {bytes : Bytes} {n : ℕ}

/-- A byte that begins no character. -/
def isContinuation (b : UInt8) : Bool := 0x80 ≤ b.toNat ∧ b.toNat ≤ 0xBF

/-- `codecs.BOM_UTF8`. -/
def utf8Mark : Bytes := [0xEF, 0xBB, 0xBF]

@[simp] theorem utf8_ofList (text : List Char) : utf8 (String.ofList text) = text.flatMap String.utf8EncodeChar := by
  rw [utf8, String.toList_ofList]

theorem decodeUtf8Strict_eq_some {s : String} : decodeUtf8Strict bytes = some s ↔ bytes = utf8 s := by
  constructor
  · intro h
    have hsome : bytes.toByteArray.utf8Decode?.isSome := by
      unfold decodeUtf8Strict at h
      rw [Option.map_eq_some_iff] at h
      obtain ⟨chars, hchars, -⟩ := h
      rw [hchars]
      rfl
    obtain ⟨m, hm⟩ := ByteArray.isSome_utf8Decode?_iff.mp hsome
    have hbytes : bytes = utf8 (String.ofList m) := by
      rw [utf8_ofList]
      exact List.toByteArray_inj.mp hm
    rw [hbytes, decodeUtf8Strict_utf8] at h
    rw [hbytes, Option.some.inj h]
  · rintro rfl
    exact decodeUtf8Strict_utf8 s

theorem decodeUtf8Strict_eq_none : decodeUtf8Strict bytes = none ↔ ∀ s, bytes ≠ utf8 s := by
  rw [Option.eq_none_iff_forall_not_mem]
  exact forall_congr' fun s => not_congr decodeUtf8Strict_eq_some

theorem toNat_ofNat_of_lt {n : ℕ} (h : n < 256) : (UInt8.ofNat n).toNat = n := Nat.mod_eq_of_lt h

theorem isContinuation_ofNat {n : ℕ} (h : n < 64) : isContinuation (UInt8.ofNat (n + 0x80)) = true := by
  unfold isContinuation
  rw [toNat_ofNat_of_lt (by omega)]
  exact decide_eq_true (by omega)

theorem not_isContinuation {n : ℕ} (h : n < 0x80 ∨ 0xC0 ≤ n) (hn : n < 256) : isContinuation (UInt8.ofNat n) = false := by
  unfold isContinuation
  rw [toNat_ofNat_of_lt hn]
  exact decide_eq_false (by omega)

theorem utf8EncodeChar_spec (c : Char) : ∃ first rest, String.utf8EncodeChar c = first :: rest ∧
    isContinuation first = false ∧ first.toNat ≤ 0xF7 ∧ ∀ b ∈ rest, isContinuation b = true := by
  have hmod : ∀ v, v % 0x40 < 64 := fun v => Nat.mod_lt _ (by decide)
  unfold String.utf8EncodeChar
  dsimp only
  split_ifs with hone htwo hthree
  · refine ⟨_, _, rfl, not_isContinuation (by omega) (by omega), ?_, nofun⟩
    rw [toNat_ofNat_of_lt (by omega)]
    omega
  · refine ⟨_, _, rfl, not_isContinuation (by omega) (by omega), ?_, ?_⟩
    · rw [toNat_ofNat_of_lt (by omega)]
      omega
    · simp only [List.mem_cons, List.not_mem_nil, or_false]
      rintro b rfl
      exact isContinuation_ofNat (hmod _)
  · refine ⟨_, _, rfl, not_isContinuation (by omega) (by omega), ?_, ?_⟩
    · rw [toNat_ofNat_of_lt (by omega)]
      omega
    · simp only [List.mem_cons, List.not_mem_nil, or_false]
      rintro b (rfl | rfl)
      · exact isContinuation_ofNat (hmod _)
      · exact isContinuation_ofNat (hmod _)
  · refine ⟨_, _, rfl, not_isContinuation (by omega) (by omega), ?_, ?_⟩
    · rw [toNat_ofNat_of_lt (by omega)]
      omega
    · simp only [List.mem_cons, List.not_mem_nil, or_false]
      rintro b (rfl | rfl | rfl)
      · exact isContinuation_ofNat (hmod _)
      · exact isContinuation_ofNat (hmod _)
      · exact isContinuation_ofNat (hmod _)

/-- No text begins with a byte that UTF-16 marks begin with. -/
theorem decodeUtf8Strict_high {b : UInt8} (h : 0xF8 ≤ b.toNat) : decodeUtf8Strict (b :: bytes) = none := by
  rw [decodeUtf8Strict_eq_none]
  intro s hs
  unfold utf8 at hs
  cases htext : s.toList with
  | nil =>
    rw [htext] at hs
    cases hs
  | cons c text =>
    obtain ⟨first, rest, hc, -, hfirst, -⟩ := utf8EncodeChar_spec c
    rw [htext, List.flatMap_cons, hc] at hs
    cases hs
    omega

/-- What begins with the bytes of a character begins with that character. -/
theorem utf8EncodeChar_append_inj {c d : Char} {u v : Bytes}
    (h : String.utf8EncodeChar c ++ u = String.utf8EncodeChar d ++ v) : c = d ∧ u = v := by
  have hc : ∀ (c : Char) (u : Bytes), ByteArray.utf8DecodeChar? (String.utf8EncodeChar c ++ u).toByteArray 0 = some c := by
    intro c u
    rw [List.toByteArray_append]
    exact ByteArray.utf8DecodeChar?_utf8EncodeChar_append
  have hsame : c = d := by
    have hd := hc d v
    rw [← h, hc c u] at hd
    exact Option.some.inj hd
  subst hsame
  exact ⟨rfl, List.append_cancel_left h⟩

/-- The longest beginning of whole characters that fits in some bytes. -/
def wholeChars : ℕ → List Char → List Char
  | _, [] => []
  | n, c :: text => if c.utf8Size ≤ n then c :: wholeChars (n - c.utf8Size) text else []

/-- A cut of the bytes of a text is between two characters, or behind the last. -/
def AtBoundary (n : ℕ) (bytes : Bytes) : Prop := ∀ b ∈ bytes[n]?, isContinuation b = false

theorem flatMap_utf8_eq_nil : text.flatMap String.utf8EncodeChar = [] ↔ text = [] := by
  cases text with
  | nil => exact iff_of_true rfl rfl
  | cons c text => exact iff_of_false (fun h => String.utf8EncodeChar_ne_nil (List.append_eq_nil_iff.mp h).1) nofun

theorem take_utf8_iff {text other : List Char} {n : ℕ} :
    (text.flatMap String.utf8EncodeChar).take n = other.flatMap String.utf8EncodeChar ↔
      other = wholeChars n text ∧ AtBoundary n (text.flatMap String.utf8EncodeChar) := by
  induction text generalizing n other with
  | nil =>
    rw [List.flatMap_nil, List.take_nil, eq_comm, flatMap_utf8_eq_nil]
    exact (and_iff_left nofun).symm
  | cons c text ih =>
    have hlength : (String.utf8EncodeChar c).length = c.utf8Size := String.length_utf8EncodeChar c
    rw [List.flatMap_cons, wholeChars]
    by_cases hfits : c.utf8Size ≤ n
    · have htake : (String.utf8EncodeChar c ++ text.flatMap String.utf8EncodeChar).take n =
          String.utf8EncodeChar c ++ (text.flatMap String.utf8EncodeChar).take (n - c.utf8Size) := by
        rw [List.take_append, hlength, List.take_of_length_le (by omega)]
      have hcut : AtBoundary n (String.utf8EncodeChar c ++ text.flatMap String.utf8EncodeChar) ↔
          AtBoundary (n - c.utf8Size) (text.flatMap String.utf8EncodeChar) := by
        unfold AtBoundary
        rw [List.getElem?_append_right (by omega), hlength]
      rw [if_pos hfits, htake, hcut]
      cases other with
      | nil =>
        refine iff_of_false ?_ ?_
        · intro h
          exact String.utf8EncodeChar_ne_nil (List.append_eq_nil_iff.mp h).1
        · rintro ⟨h, -⟩
          cases h
      | cons d other =>
        rw [List.flatMap_cons, List.cons.injEq, and_assoc, ← ih]
        constructor
        · intro h
          obtain ⟨hsame, hrest⟩ := utf8EncodeChar_append_inj h
          exact ⟨hsame.symm, hrest⟩
        · rintro ⟨rfl, hrest⟩
          rw [hrest]
    · obtain ⟨first, rest, hc, hfirst, -, hrest⟩ := utf8EncodeChar_spec c
      have hlength' : rest.length + 1 = c.utf8Size := by rw [← hlength, hc, List.length_cons]
      rw [if_neg hfits]
      cases n with
      | zero =>
        rw [List.take_zero, eq_comm, flatMap_utf8_eq_nil]
        refine (and_iff_left ?_).symm
        rw [hc]
        rintro b ⟨⟩
        exact hfirst
      | succ n =>
        refine iff_of_false ?_ ?_
        · intro h
          cases other with
          | nil =>
            rw [hc] at h
            cases h
          | cons d other =>
            -- the character would be shorter than it is
            rw [List.take_append_of_le_length (by omega), List.flatMap_cons] at h
            have hwhole := List.take_append_drop (n + 1) (String.utf8EncodeChar c)
            rw [h, List.append_assoc] at hwhole
            have hsame : d = c := (utf8EncodeChar_append_inj (hwhole.trans (List.append_nil _).symm)).1
            have hshort := congrArg List.length h
            rw [hsame, List.length_take, List.length_append] at hshort
            omega
        · rintro ⟨-, hcut⟩
          have hn : n < rest.length := by omega
          have hget : (String.utf8EncodeChar c ++ text.flatMap String.utf8EncodeChar)[n + 1]? = some rest[n] := by
            rw [hc, List.cons_append, List.getElem?_cons_succ, List.getElem?_append_left hn, List.getElem?_eq_getElem hn]
          have hno := hcut rest[n] hget
          rw [hrest rest[n] (List.getElem_mem hn)] at hno
          cases hno

end Utf8

/-! ## UTF-16 -/

section Utf16

/-- The order of the bytes in a unit. -/
inductive ByteOrder
  | little
  | big
  deriving DecidableEq, Repr

/-- The code units of a character. -/
def utf16Units (c : Char) : List ℕ :=
  if c.toNat < 0x10000 then [c.toNat]
  else [0xD800 + (c.toNat - 0x10000) / 0x400, 0xDC00 + (c.toNat - 0x10000) % 0x400]

def ByteOrder.bytesOf (order : ByteOrder) (unit : ℕ) : Bytes :=
  match order with
  | .little => [UInt8.ofNat (unit % 0x100), UInt8.ofNat (unit / 0x100)]
  | .big => [UInt8.ofNat (unit / 0x100), UInt8.ofNat (unit % 0x100)]

def ByteOrder.unitOf (order : ByteOrder) (first second : UInt8) : ℕ :=
  match order with
  | .little => first.toNat + second.toNat * 0x100
  | .big => first.toNat * 0x100 + second.toNat

/-- The units of some bytes, if these are even in number. -/
def unitsOf (order : ByteOrder) : Bytes → Option (List ℕ)
  | [] => some []
  | [_] => none
  | first :: second :: rest => (unitsOf order rest).map (order.unitOf first second :: ·)

/-- The characters of some units, if each surrogate among them is one of a pair. -/
def charsOf : List ℕ → Option (List Char)
  | [] => some []
  | [unit] => if unit < 0xD800 ∨ 0xE000 ≤ unit then some [Char.ofNat unit] else none
  | unit :: low :: rest =>
    if unit < 0xD800 ∨ 0xE000 ≤ unit then (charsOf (low :: rest)).map (Char.ofNat unit :: ·)
    else if unit < 0xDC00 ∧ 0xDC00 ≤ low ∧ low < 0xE000 then
      (charsOf rest).map (Char.ofNat (0x10000 + (unit - 0xD800) * 0x400 + (low - 0xDC00)) :: ·)
    else none

def decodeUnits (order : ByteOrder) (bytes : Bytes) : Option String :=
  ((unitsOf order bytes).bind charsOf).map String.ofList

/-- `bytes.decode("utf-16")`: the mark tells the order, which is the machine's own where there is none. -/
def decodeUtf16 (native : ByteOrder) : Bytes → Option String
  | 0xFF :: 0xFE :: rest => decodeUnits .little rest
  | 0xFE :: 0xFF :: rest => decodeUnits .big rest
  | bytes => decodeUnits native bytes

/-- The UTF-16 of a text, with a mark. -/
def encodeUtf16 (order : ByteOrder) (s : String) : Bytes :=
  order.bytesOf 0xFEFF ++ (s.toList.flatMap utf16Units).flatMap order.bytesOf

variable {order native : ByteOrder} {c : Char} {text : List Char} {us : List ℕ} {u : ℕ}

/-- A character lies below the surrogates, or above them and below the end of the code space. -/
theorem toNat_char (c : Char) : c.toNat < 0xD800 ∨ 0xE000 ≤ c.toNat ∧ c.toNat < 0x110000 := by
  rcases c.valid with h | h
  · exact Or.inl h
  · exact Or.inr ⟨Nat.succ_le_of_lt h.1, h.2⟩

theorem charsOf_units (text : List Char) : charsOf (text.flatMap utf16Units) = some text := by
  induction text with
  | nil => rfl
  | cons c text ih =>
    have hchar := toNat_char c
    rw [List.flatMap_cons, utf16Units]
    split_ifs with hone
    · have hplain : c.toNat < 0xD800 ∨ 0xE000 ≤ c.toNat := by omega
      rw [List.singleton_append]
      cases hrest : text.flatMap utf16Units with
      | nil =>
        rw [hrest] at ih
        rw [charsOf, if_pos hplain, Char.ofNat_toNat]
        cases ih
        rfl
      | cons low rest =>
        rw [hrest] at ih
        rw [charsOf, if_pos hplain, ih, Char.ofNat_toNat]
        rfl
    · have hhigh : (c.toNat - 0x10000) / 0x400 < 0x400 := by omega
      have hcode : 0x10000 + (0xD800 + (c.toNat - 0x10000) / 0x400 - 0xD800) * 0x400 +
          (0xDC00 + (c.toNat - 0x10000) % 0x400 - 0xDC00) = c.toNat := by omega
      show charsOf (_ :: _ :: text.flatMap utf16Units) = _
      rw [charsOf, if_neg (by omega), if_pos (by omega), ih, hcode, Char.ofNat_toNat]
      rfl

theorem utf16Units_lt (hu : u ∈ utf16Units c) : u < 0x10000 := by
  have hchar := toNat_char c
  unfold utf16Units at hu
  split_ifs at hu with hone
  · rw [List.mem_singleton.mp hu]
    exact hone
  · simp only [List.mem_cons, List.not_mem_nil, or_false] at hu
    omega

theorem unitOf_bytesOf (order : ByteOrder) (hu : u < 0x10000) : ∃ first second, order.bytesOf u = [first, second] ∧
    order.unitOf first second = u := by
  have hlow : (UInt8.ofNat (u % 0x100)).toNat = u % 0x100 := toNat_ofNat_of_lt (by omega)
  have hhigh : (UInt8.ofNat (u / 0x100)).toNat = u / 0x100 := toNat_ofNat_of_lt (by omega)
  cases order with
  | little =>
    refine ⟨_, _, rfl, ?_⟩
    show _ + _ * 0x100 = u
    rw [hlow, hhigh]
    omega
  | big =>
    refine ⟨_, _, rfl, ?_⟩
    show _ * 0x100 + _ = u
    rw [hlow, hhigh]
    omega

theorem unitsOf_bytes (h : ∀ u ∈ us, u < 0x10000) : unitsOf order (us.flatMap order.bytesOf) = some us := by
  induction us with
  | nil => rfl
  | cons u us ih =>
    obtain ⟨first, second, hbytes, hunit⟩ := unitOf_bytesOf order (h u List.mem_cons_self)
    have hrest := ih fun u hu => h u (List.mem_cons_of_mem _ hu)
    rw [List.flatMap_cons, hbytes, List.cons_append, List.singleton_append, unitsOf, hrest, Option.map_some, hunit]

theorem decodeUtf16_encodeUtf16 (native order : ByteOrder) (s : String) :
    decodeUtf16 native (encodeUtf16 order s) = some s := by
  have hunits : unitsOf order ((s.toList.flatMap utf16Units).flatMap order.bytesOf) = some (s.toList.flatMap utf16Units) := by
    refine unitsOf_bytes ?_
    intro u hu
    obtain ⟨c, -, hu⟩ := List.mem_flatMap.mp hu
    exact utf16Units_lt hu
  have hdecode : decodeUtf16 native (encodeUtf16 order s) =
      decodeUnits order ((s.toList.flatMap utf16Units).flatMap order.bytesOf) := by
    cases order with
    | little => rfl
    | big => rfl
  rw [hdecode, decodeUnits, hunits, Option.bind_some, charsOf_units, Option.map_some, String.ofList_toList]

theorem encodeUtf16_head (order : ByteOrder) (s : String) : ∃ first rest, encodeUtf16 order s = first :: rest ∧
    0xF8 ≤ first.toNat := by
  cases order with
  | little => exact ⟨0xFF, _, rfl, by decide⟩
  | big => exact ⟨0xFE, _, rfl, by decide⟩

theorem length_unitsOf : ∀ {bytes : Bytes} {us : List ℕ}, unitsOf order bytes = some us → 2 * us.length = bytes.length
  | [], us, h => by
    cases h
    rfl
  | [_], us, h => by cases h
  | first :: second :: rest, us, h => by
    obtain ⟨us, hus, rfl⟩ := Option.map_eq_some_iff.mp h
    have ih : 2 * us.length = rest.length := length_unitsOf hus
    simp only [List.length_cons]
    omega

theorem length_charsOf : ∀ {us : List ℕ} {text : List Char}, charsOf us = some text → text.length ≤ us.length
  | [], text, h => by
    cases h
    exact Nat.le_refl _
  | [unit], text, h => by
    unfold charsOf at h
    split_ifs at h
    cases h
    exact Nat.le_refl _
  | unit :: low :: rest, text, h => by
    unfold charsOf at h
    split_ifs at h
    · obtain ⟨text, htext, rfl⟩ := Option.map_eq_some_iff.mp h
      have ih : text.length ≤ (low :: rest).length := length_charsOf htext
      exact Nat.succ_le_succ ih
    · obtain ⟨text, htext, rfl⟩ := Option.map_eq_some_iff.mp h
      have ih : text.length ≤ rest.length := length_charsOf htext
      simp only [List.length_cons]
      omega

theorem length_decodeUtf16 {bytes : Bytes} {s : String} (h : decodeUtf16 native bytes = some s) :
    2 * s.toList.length ≤ bytes.length := by
  have hunits : ∀ {order : ByteOrder} {rest : Bytes}, decodeUnits order rest = some s →
      2 * s.toList.length ≤ rest.length := by
    intro order rest h
    obtain ⟨text, htext, rfl⟩ := Option.map_eq_some_iff.mp h
    obtain ⟨us, hus, htext⟩ := Option.bind_eq_some_iff.mp htext
    have hbytes := length_unitsOf hus
    have hchars := length_charsOf htext
    rw [String.toList_ofList]
    omega
  unfold decodeUtf16 at h
  split at h
  · exact Nat.le_trans (hunits h) (Nat.le_add_right _ 2)
  · exact Nat.le_trans (hunits h) (Nat.le_add_right _ 2)
  · exact hunits h

end Utf16

/-! ## Latin-1 -/

section Latin1

/-- `bytes.decode("latin-1")`. -/
def decodeLatin1 (bytes : Bytes) : String := String.ofList (bytes.map fun b => Char.ofNat b.toNat)

def encodeLatin1 (s : String) : Option Bytes :=
  if s.toList.all (fun c => c.toNat < 256) = true then some (s.toList.map fun c => UInt8.ofNat c.toNat) else none

theorem decodeLatin1_encodeLatin1 {s : String} {bytes : Bytes} (h : encodeLatin1 s = some bytes) :
    decodeLatin1 bytes = s ∧ bytes.length = s.toList.length := by
  unfold encodeLatin1 at h
  split_ifs at h with hlatin
  cases h
  refine ⟨?_, List.length_map _⟩
  have hsame : (s.toList.map fun c => UInt8.ofNat c.toNat).map (fun b => Char.ofNat b.toNat) = s.toList := by
    rw [List.map_map]
    conv_rhs => rw [← List.map_id s.toList]
    refine List.map_congr_left ?_
    intro c hc
    show Char.ofNat (UInt8.ofNat c.toNat).toNat = c
    rw [toNat_ofNat_of_lt (of_decide_eq_true (List.all_eq_true.mp hlatin c hc)), Char.ofNat_toNat]
  rw [decodeLatin1, hsame, String.ofList_toList]

end Latin1

end Transform.Lib
