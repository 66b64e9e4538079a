import Transform.Lib.Query
import Transform.Lib.TextCodecs

/-!
# Documents.TextDecoding — the encodings of plain text

`_decode_text` tries UTF-8, then UTF-16, then Latin-1, and takes the first that decodes.  UTF-16 without a mark reads almost
any even number of bytes.

* `decodeText_back_iff`: the texts that are read back from all their encodings.
-/

namespace Transform.Documents

open Lib

section Decoding

/-- `bytes.decode("utf-8-sig")`: UTF-8, without the mark that it may begin with. -/
def decodeUtf8Sig : Bytes → Option String
  | 0xEF :: 0xBB :: 0xBF :: rest => decodeUtf8Strict rest
  | data => decodeUtf8Strict data

/-- The encodings that are tried, on a machine with some order of bytes; `none` where one raises. -/
def encodings (native : ByteOrder) : List (Bytes → Option String) :=
  [decodeUtf8Sig, decodeUtf16 native, fun data => some (decodeLatin1 data)]

/-- `_decode_text`, with the line behind its loop. -/
def decodeText (native : ByteOrder) (data : Bytes) : String :=
  ((encodings native).findSome? fun decode => decode data).getD (String.ofList (decodeUtf8 data))

variable {native : ByteOrder} {data : Bytes} {s : String}

theorem decodeText_utf8Sig (h : decodeUtf8Sig data = some s) : decodeText native data = s := by
  simp only [decodeText, encodings, List.findSome?_cons, h, Option.getD_some]

theorem decodeText_utf16 (h : decodeUtf8Sig data = none) (hwide : decodeUtf16 native data = some s) :
    decodeText native data = s := by
  simp only [decodeText, encodings, List.findSome?_cons, h, hwide, Option.getD_some]

theorem decodeText_latin1 (h : decodeUtf8Sig data = none) (hwide : decodeUtf16 native data = none) :
    decodeText native data = decodeLatin1 data := by
  simp only [decodeText, encodings, List.findSome?_cons, h, hwide, Option.getD_some]

/-- One of the encodings decodes, and the line behind the loop is not reached. -/
theorem decodeText_mem (native : ByteOrder) (data : Bytes) :
    ∃ decode ∈ encodings native, decode data = some (decodeText native data) := by
  cases h : decodeUtf8Sig data with
  | some s =>
    refine ⟨decodeUtf8Sig, by simp [encodings], ?_⟩
    rw [h, decodeText_utf8Sig h]
  | none =>
    cases hwide : decodeUtf16 native data with
    | some s =>
      refine ⟨decodeUtf16 native, by simp [encodings], ?_⟩
      rw [hwide, decodeText_utf16 h hwide]
    | none =>
      refine ⟨fun data => some (decodeLatin1 data), by simp [encodings], ?_⟩
      rw [decodeText_latin1 h hwide]

end Decoding

/-! ## Round trips -/

section RoundTrips

variable {native order : ByteOrder} {s : String} {data : Bytes}

/-- A text is read back from its UTF-8 with and without a mark, from its UTF-16 with one, and from its Latin-1 where that is
no UTF-8. -/
structure ReadBack (native : ByteOrder) (s : String) : Prop where
  plain : decodeText native (utf8 s) = s
  marked : decodeText native (utf8Mark ++ utf8 s) = s
  wide : ∀ order, decodeText native (encodeUtf16 order s) = s
  latin : ∀ data, encodeLatin1 s = some data → decodeUtf8Strict data = none → decodeText native data = s

/-- The mark as a character. -/
def mark : Char := '\uFEFF'

/-- A text that does not begin with the mark, and whose Latin-1 is not UTF-16, if it is not UTF-8. -/
def Unambiguous (native : ByteOrder) (s : String) : Prop :=
  s.toList.head? ≠ some mark ∧
    ∀ data, encodeLatin1 s = some data → decodeUtf8Strict data = none → decodeUtf16 native data = none

theorem utf8EncodeChar_mark : String.utf8EncodeChar mark = utf8Mark := by decide

theorem head_of_marked {rest : Bytes} (h : utf8 s = utf8Mark ++ rest) : ∃ text, s.toList = mark :: text ∧
    text.flatMap String.utf8EncodeChar = rest := by
  unfold utf8 at h
  rw [← utf8EncodeChar_mark] at h
  cases htext : s.toList with
  | nil =>
    rw [htext] at h
    exact absurd h.symm (fun hnil => String.utf8EncodeChar_ne_nil (List.append_eq_nil_iff.mp hnil).1)
  | cons c text =>
    rw [htext, List.flatMap_cons] at h
    obtain ⟨rfl, hrest⟩ := utf8EncodeChar_append_inj h
    exact ⟨text, rfl, hrest⟩

theorem decodeUtf8Sig_marked (data : Bytes) : decodeUtf8Sig (utf8Mark ++ data) = decodeUtf8Strict data := rfl

theorem decodeUtf8Sig_unmarked (h : ∀ rest, data ≠ utf8Mark ++ rest) : decodeUtf8Sig data = decodeUtf8Strict data := by
  unfold decodeUtf8Sig
  split
  · rename_i rest
    exact absurd rfl (h rest)
  · rfl

theorem decodeUtf8Sig_none (h : decodeUtf8Strict data = none) : decodeUtf8Sig data = none := by
  by_cases hmarked : ∃ rest, data = utf8Mark ++ rest
  · obtain ⟨rest, rfl⟩ := hmarked
    rw [decodeUtf8Sig_marked, decodeUtf8Strict_eq_none]
    rintro s rfl
    refine decodeUtf8Strict_eq_none.mp h (String.ofList (mark :: s.toList)) ?_
    rw [utf8_ofList, List.flatMap_cons, utf8EncodeChar_mark]
    rfl
  · rw [decodeUtf8Sig_unmarked (not_exists.mp hmarked)]
    exact h

theorem decodeText_utf8_iff : decodeText native (utf8 s) = s ↔ s.toList.head? ≠ some mark := by
  by_cases hmarked : ∃ rest, utf8 s = utf8Mark ++ rest
  · obtain ⟨rest, hrest⟩ := hmarked
    obtain ⟨text, htext, hflat⟩ := head_of_marked hrest
    refine iff_of_false ?_ ?_
    · -- the mark is gone
      have hdecode : decodeUtf8Sig (utf8 s) = some (String.ofList text) := by
        rw [hrest, decodeUtf8Sig_marked, decodeUtf8Strict_eq_some, utf8_ofList, hflat]
      rw [decodeText_utf8Sig hdecode]
      intro hsame
      have hlist := congrArg String.toList hsame
      rw [htext] at hlist
      have hlength := congrArg List.length hlist
      simp only [String.toList_ofList, List.length_cons] at hlength
      omega
    · rw [htext]
      exact fun h => h rfl
  · refine iff_of_true ?_ ?_
    · refine decodeText_utf8Sig ?_
      rw [decodeUtf8Sig_unmarked (not_exists.mp hmarked), decodeUtf8Strict_utf8]
    · intro hhead
      obtain ⟨text, htext⟩ := List.head?_eq_some_iff.mp hhead
      refine hmarked ⟨text.flatMap String.utf8EncodeChar, ?_⟩
      rw [utf8, htext, List.flatMap_cons, utf8EncodeChar_mark]

theorem decodeText_marked : decodeText native (utf8Mark ++ utf8 s) = s :=
  decodeText_utf8Sig (decodeUtf8Strict_utf8 s)

theorem decodeText_encodeUtf16 : decodeText native (encodeUtf16 order s) = s := by
  obtain ⟨first, rest, hhead, hfirst⟩ := encodeUtf16_head order s
  refine decodeText_utf16 (decodeUtf8Sig_none ?_) (decodeUtf16_encodeUtf16 native order s)
  rw [hhead]
  exact decodeUtf8Strict_high hfirst

theorem decodeText_latin1_iff (hlatin : encodeLatin1 s = some data) (hutf8 : decodeUtf8Strict data = none) :
    decodeText native data = s ↔ decodeUtf16 native data = none := by
  obtain ⟨hback, hlength⟩ := decodeLatin1_encodeLatin1 hlatin
  have hsig := decodeUtf8Sig_none hutf8
  cases hwide : decodeUtf16 native data with
  | none =>
    rw [decodeText_latin1 hsig hwide]
    exact iff_of_true hback rfl
  | some text =>
    -- half as many characters, and there is at least one
    rw [decodeText_utf16 hsig hwide]
    refine iff_of_false ?_ nofun
    rintro rfl
    have hshort := length_decodeUtf16 hwide
    have hnil : data = [] := List.length_eq_zero_iff.mp (by omega)
    rw [hnil] at hutf8
    exact decodeUtf8Strict_eq_none.mp hutf8 "" rfl

/-- **Every text is read back from its encodings**, exactly if it does not begin with the mark and its Latin-1 is UTF-8 or no
UTF-16; all bytes are decoded. -/
theorem decodeText_back_iff (native : ByteOrder) (s : String) :
    (∀ data, ∃ decode ∈ encodings native, decode data = some (decodeText native data)) ∧
      (ReadBack native s ↔ Unambiguous native s) := by
  refine ⟨decodeText_mem native, ?_⟩
  constructor
  · intro h
    refine ⟨decodeText_utf8_iff.mp h.plain, ?_⟩
    intro data hlatin hutf8
    exact (decodeText_latin1_iff hlatin hutf8).mp (h.latin data hlatin hutf8)
  · rintro ⟨hhead, hwide⟩
    refine ⟨decodeText_utf8_iff.mpr hhead, decodeText_marked, fun order => decodeText_encodeUtf16, ?_⟩
    intro data hlatin hutf8
    exact (decodeText_latin1_iff hlatin hutf8).mpr (hwide data hlatin hutf8)

/-- Two letters of Latin-1 are taken for one character of UTF-16. -/
theorem two_letters_misread : decodeText .little [0x6E, 0xE9] = "\uE96E" ∧ ¬ ReadBack .little "né" := by
  have hutf8 : decodeUtf8Strict [0x6E, 0xE9] = none := by decide +kernel
  have hread : decodeText .little [0x6E, 0xE9] = "\uE96E" := decodeText_utf16 (decodeUtf8Sig_none hutf8) (by decide +kernel)
  refine ⟨hread, ?_⟩
  intro h
  have hlatin : encodeLatin1 "né" = some [0x6E, 0xE9] := by
    have hall : "né".toList.all (fun c => c.toNat < 256) = true := rfl
    rw [encodeLatin1, if_pos hall]
    rfl
  have hback := h.latin [0x6E, 0xE9] hlatin hutf8
  rw [hread] at hback
  exact absurd hback (by decide)

end RoundTrips

end Transform.Documents
