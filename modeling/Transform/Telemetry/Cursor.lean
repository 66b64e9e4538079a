import Transform.Lib.Base64Url
import Transform.Lib.DateTimes

/-!
# Telemetry.Cursor — a position in a log, as a text

`encodeCursor` writes the time of a row in UTC and its id, `decodeCursor` reads them back; a text that is no position is no
cursor.  What is encoded of a row with an id is decoded (`decodeCursor_encodeCursor`).
-/

namespace Transform.Telemetry

open Lib

section Cursor

variable (others : String → Option DateTime)

/-- `none` where the time in UTC overflows. -/
def encodeCursor (timestamp : DateTime) (rowId : String) : Option String :=
  timestamp.toUtc.map fun utc => String.ofList (urlsafeEncode (utf8 (isoformat utc ++ "|" ++ rowId)))

/-- `str.partition` at a character: what is before its first place, whether there is one, and what is after. -/
def partition (separator : Char) (text : String) : String × Bool × String :=
  let after := text.toList.dropWhile (· ≠ separator)
  (String.ofList (text.toList.takeWhile (· ≠ separator)), !after.isEmpty, String.ofList (after.drop 1))

/-- A cursor that cannot be read, or names no row, is none. -/
def decodeCursor (cursor : String) : Option (DateTime × String) := do
  let bytes ← urlsafeDecode cursor.toList
  let raw ← decodeUtf8Strict bytes
  let (timestampPart, separator, rowId) := partition '|' raw
  if !separator || rowId = "" then none
  else
    let parsed ← fromIsoformat others timestampPart
    return (if parsed.offset = none then parsed.aware else parsed, rowId)

variable {others} {timestamp utc : DateTime} {rowId cursor : String}

theorem partition_append {before after : String} {separator : Char} (h : ∀ c ∈ before.toList, c ≠ separator) :
    partition separator (before ++ String.singleton separator ++ after) = (before, true, after) := by
  unfold partition
  rw [String.toList_append, String.toList_append, List.append_assoc,
    List.takeWhile_append_of_pos (by simpa using h), List.dropWhile_append_of_pos (by simpa using h)]
  simp

theorem partition_isoformat (utc : DateTime) (rowId : String) :
    partition '|' (isoformat utc ++ "|" ++ rowId) = (isoformat utc, true, rowId) := by
  refine partition_append ?_
  rintro c hc rfl
  exact absurd (isoformat_chars hc) (by decide)

theorem decodeCursor_of_encode (h : encodeCursor timestamp rowId = some cursor) :
    decodeCursor others cursor = if rowId = "" then none else timestamp.toUtc.map (·, rowId) := by
  unfold encodeCursor at h
  obtain ⟨utc, hutc, rfl⟩ := Option.map_eq_some_iff.mp h
  have haware : utc.offset ≠ none := by
    rw [(DateTime.ofInstant_eq_some hutc).2]
    exact Option.some_ne_none 0
  unfold decodeCursor
  rw [String.toList_ofList, urlsafeDecode_urlsafeEncode, hutc]
  simp only [Option.bind_eq_bind, Option.bind_some, decodeUtf8Strict_utf8, partition_isoformat, fromIsoformat_isoformat,
    Bool.not_true, Bool.false_or, decide_eq_true_eq, Option.map_some]
  split_ifs with hempty
  · rfl
  · rfl

/-- **What is encoded of a row with an id is decoded to its time in UTC and its id.** -/
theorem decodeCursor_encodeCursor (h : rowId ≠ "") :
    (encodeCursor timestamp rowId).bind (decodeCursor others) = timestamp.toUtc.map (·, rowId) := by
  cases hcursor : encodeCursor timestamp rowId with
  | none =>
    unfold encodeCursor at hcursor
    rw [Option.map_eq_none_iff] at hcursor
    rw [hcursor]
    rfl
  | some cursor =>
    rw [Option.bind_some, decodeCursor_of_encode hcursor, if_neg h]

theorem encodeCursor_empty : (encodeCursor timestamp "").bind (decodeCursor others) = none := by
  cases hcursor : encodeCursor timestamp "" with
  | none => rfl
  | some cursor => rw [Option.bind_some, decodeCursor_of_encode hcursor, if_pos rfl]

end Cursor

end Transform.Telemetry
