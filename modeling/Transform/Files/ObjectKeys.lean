import Transform.Files.Naming
import Transform.Lib.Anchored
import Transform.Lib.PosixPath

/-!
# Files.ObjectKeys — keys of stored objects

`sanitize_object_key` searches a key for what could lead out of a bucket and compares it with its clean form.  The clean form
of no components is a dot, and `$` matches before a newline at the end: these are the keys on which the checks and the
listed conditions (`CleanKey`) differ (`sanitizeObjectKey_iff`).
-/

namespace Transform.Files

open Lib PosixPath

/-! ## The check -/

section Check

def char (c : Char) : Anchored := .one fun d => d = c

/-- `\.\.(/|$)` -/
def dots : Anchored := .seq (char '.') (.seq (char '.') (.alt (char '/') .finish))

/-- `(^|/)\.\.(/|$)` -/
def traversal : Anchored := .seq (.alt .start (char '/')) dots

/-- `_FORBIDDEN`: `(^|/)\.\.(/|$)|(^/)|[\\]|(\x00)`. -/
def forbidden : Anchored := .alt traversal (.alt (.seq .start (char '/')) (.alt (char '\\') (char '\x00')))

/-- `_MAX_KEY_LENGTH` -/
def maxKeyLength : ℕ := 1024

structure UnsafeObjectKeyError where
  message : String
  deriving DecidableEq, Repr

def sanitizeObjectKey (key : String) (allowSlashes : Bool := true) : Except UnsafeObjectKeyError String :=
  if key = "" ∨ maxKeyLength < key.length then .error ⟨"Object key is empty or too long."⟩
  else if forbidden.search key.toList then .error ⟨"Object key contains forbidden path sequences."⟩
  else if allowSlashes = false ∧ '/' ∈ key.toList then .error ⟨"Object key must be a single path segment."⟩
  else
    let cleaned := asPosix key.toList
    if cleaned ≠ key.toList ∨ cleaned.head? = some '/' ∨ cleaned.getLast? = some '/' then
      .error ⟨"Object key is not a clean relative path."⟩
    else .ok (String.ofList cleaned)

/-- `_generate_object_key`, with the hexadecimal digits that were drawn. -/
def generateObjectKey (hex jobId fileExtension : String) : Except UnsafeObjectKeyError String :=
  let ext := normalizeExtension (some fileExtension)
  let ext := if ext = "" ∨ 20 < ext.length then "file" else ext
  let secureFilename := hex ++ "." ++ ext
  sanitizeObjectKey (jobId ++ "/" ++ secureFilename)

/-- The components of a key. -/
def segments (key : String) : List (List Char) := key.toList.splitOn '/'

structure CleanKey (key : String) : Prop where
  nonempty : key ≠ ""
  length_le : key.length ≤ maxKeyLength
  no_backslash : '\\' ∉ key.toList
  no_nul : '\x00' ∉ key.toList
  relative : key.toList.head? ≠ some '/'
  descends : ∀ segment ∈ segments key, Descends segment

/-- Two dots with a newline behind them, at the end of the key. -/
def EndsInDotsLine (key : String) : Prop := (segments key).getLast? = some ['.', '.', '\n']

instance (key : String) : Decidable (EndsInDotsLine key) := by
  unfold EndsInDotsLine
  infer_instance

end Check

/-! ## What the search finds -/

section Search

variable {text : List Char} {parts : List (List Char)} {first : Bool}

/-- Two dots are a component, or the last one begins with them and goes on with a newline. -/
def Traverses (parts : List (List Char)) : Prop := ['.', '.'] ∈ parts ∨ parts.getLast? = some ['.', '.', '\n']

theorem found_char {c : Char} : (char c).found first text = true ↔ c ∈ text := by
  rw [char, Anchored.found_one]
  constructor
  · rintro ⟨d, hd, heq⟩
    exact of_decide_eq_true heq ▸ hd
  · exact fun hc => ⟨c, hc, decide_eq_true rfl⟩

theorem ends_char {c d : Char} : (char c).ends (first, d :: text) ≠ [] ↔ d = c :=
  Anchored.ends_one.trans decide_eq_true_iff

theorem ends_char_seq {c d : Char} {s : Anchored} : (Anchored.seq (char c) s).ends (first, d :: text) ≠ [] ↔
    d = c ∧ s.ends (false, text) ≠ [] :=
  Anchored.ends_one_seq.trans (and_congr_left' decide_eq_true_iff)

theorem ends_slash_or_finish : (Anchored.alt (char '/') .finish).ends (first, text) ≠ [] ↔
    text.head? = some '/' ∨ text = [] ∨ text = ['\n'] := by
  rw [Anchored.ends_alt, Anchored.ends_finish]
  cases text with
  | nil => exact iff_of_true (.inr (.inl rfl)) (.inr (.inl rfl))
  | cons c text => rw [ends_char, List.head?_cons, Option.some_inj]

theorem eq_dots_of_takeWhile {rest : List Char} (h : text.takeWhile (· ≠ '/') = '.' :: '.' :: rest) :
    ∃ more, text = '.' :: '.' :: more := by
  have hprefix : text.takeWhile (· ≠ '/') <+: text := List.takeWhile_prefix _
  rw [h] at hprefix
  obtain ⟨more, heq⟩ := hprefix
  exact ⟨rest ++ more, heq.symm⟩

theorem ends_dots : dots.ends (first, text) ≠ [] ↔
    (text.splitOn '/').head? = some ['.', '.'] ∨ text = ['.', '.', '\n'] := by
  rw [head?_splitOn, Option.some_inj]
  by_cases hdots : ∃ more, text = '.' :: '.' :: more
  · obtain ⟨more, rfl⟩ := hdots
    have hstop : more.takeWhile (· ≠ '/') = [] ↔ more.head? = some '/' ∨ more = [] := by
      cases more <;> simp [List.takeWhile_cons]
    rw [dots, ends_char_seq, ends_char_seq, ends_slash_or_finish,
      List.takeWhile_cons_of_pos (by decide), List.takeWhile_cons_of_pos (by decide), List.cons_inj_right, List.cons_inj_right,
      List.cons_inj_right, List.cons_inj_right, hstop, and_iff_right rfl, and_iff_right rfl, or_assoc]
  · refine iff_of_false (fun hends => hdots ?_) (not_or.2 ⟨fun h => hdots (eq_dots_of_takeWhile h), fun h => hdots ⟨_, h⟩⟩)
    match text with
    | [] => exact absurd rfl hends
    | c :: text =>
      rw [dots, ends_char_seq] at hends
      match text with
      | [] => exact absurd rfl hends.2
      | d :: text =>
        rw [ends_char_seq] at hends
        exact ⟨text, by rw [hends.1, hends.2.1]⟩

theorem traverses_splitOn : Traverses (text.splitOn '/') ↔
    ((text.splitOn '/').head? = some ['.', '.'] ∨ text = ['.', '.', '\n']) ∨ Traverses (text.splitOn '/').tail := by
  have hline : text.splitOn '/' = [['.', '.', '\n']] ↔ text = ['.', '.', '\n'] := splitOn_eq_singleton_iff (by decide)
  rw [← hline]
  match text.splitOn '/' with
  | [] => simp [Traverses]
  | [part] => simp [Traverses, eq_comm]
  | part :: second :: rest =>
    simp [Traverses, eq_comm, or_assoc]

theorem found_slash_dots : (Anchored.seq (char '/') dots).found first text = true ↔ Traverses (text.splitOn '/').tail := by
  induction text generalizing first with
  | nil =>
    rw [Anchored.found_nil]
    exact iff_of_false (fun h => h rfl) (by simp [Traverses])
  | cons c text ih =>
    rw [Anchored.found_cons, ends_char_seq, ih, ends_dots, splitOn_cons]
    by_cases hc : c = '/'
    · rw [if_pos hc, and_iff_right hc, List.tail_cons]
      exact traverses_splitOn.symm
    · rw [if_neg hc]
      obtain ⟨head, tail, hsplit⟩ := List.exists_cons_of_ne_nil (List.splitOn_ne_nil '/' text)
      rw [hsplit, List.modifyHead_cons, List.tail_cons, List.tail_cons]
      exact or_iff_right fun h => hc h.1

theorem search_traversal : traversal.search text = true ↔ Traverses (text.splitOn '/') := by
  rw [traversal, Anchored.search, Anchored.found_seq_alt, ← Anchored.search, Anchored.search_start, ends_dots,
    found_slash_dots]
  exact traverses_splitOn.symm

theorem search_forbidden : forbidden.search text = true ↔
    Traverses (text.splitOn '/') ∨ text.head? = some '/' ∨ '\\' ∈ text ∨ '\x00' ∈ text := by
  have hslash : (Anchored.seq .start (char '/')).search text = true ↔ text.head? = some '/' := by
    rw [Anchored.search_start]
    cases text with
    | nil => exact iff_of_false (fun h => h rfl) nofun
    | cons c text => rw [ends_char, List.head?_cons, Option.some_inj]
  rw [forbidden, Anchored.search, Anchored.found_alt, Anchored.found_alt, Anchored.found_alt, found_char, found_char,
    ← Anchored.search, ← Anchored.search, search_traversal, hslash]

end Search

/-! ## The keys that are accepted -/

section Accepted

variable {key cleaned : String}

theorem toList_ne_nil_iff : key.toList ≠ [] ↔ key ≠ "" := not_congr String.toList_eq_nil_iff

theorem CleanKey.getLast?_ne (h : CleanKey key) : key.toList.getLast? ≠ some '/' := by
  obtain ⟨front, last, hsplit⟩ := (List.eq_nil_or_concat' (segments key)).resolve_left (List.splitOn_ne_nil '/' _)
  have hlast : last ∈ segments key := by
    rw [hsplit]
    exact List.mem_append_right _ (List.mem_singleton_self _)
  have hjoin : key.toList = ['/'].intercalate (front ++ [last]) := by
    rw [← hsplit]
    exact (List.intercalate_splitOn '/').symm
  rw [hjoin, getLast?_intercalate_concat (h.descends last hlast).1]
  exact fun hslash => not_mem_of_mem_splitOn hlast (List.mem_of_getLast? hslash)

theorem CleanKey.asPosix_eq (h : CleanKey key) : asPosix key.toList = key.toList :=
  (asPosix_eq_self_iff (toList_ne_nil_iff.2 h.nonempty) h.relative).2
    (.inr fun part hpart => ⟨(h.descends part hpart).1, (h.descends part hpart).2.1⟩)

theorem CleanKey.search_iff (h : CleanKey key) : forbidden.search key.toList = true ↔ EndsInDotsLine key := by
  have hdots : ['.', '.'] ∉ segments key := fun hmem => (h.descends _ hmem).2.2 rfl
  rw [search_forbidden, or_iff_left (not_or.2 ⟨h.relative, not_or.2 ⟨h.no_backslash, h.no_nul⟩⟩)]
  exact or_iff_right hdots

theorem sanitizeObjectKey_eq_ok : sanitizeObjectKey key = .ok cleaned ↔
    cleaned = key ∧ (key = "." ∨ CleanKey key ∧ ¬ EndsInDotsLine key) := by
  constructor
  · intro h
    unfold sanitizeObjectKey at h
    dsimp only at h
    split_ifs at h with hsize hforbidden hslashes hdirty
    obtain ⟨hempty, hlength⟩ := not_or.1 hsize
    rw [search_forbidden, not_or, not_or, not_or] at hforbidden
    obtain ⟨htraverses, hrelative, hbackslash, hnul⟩ := hforbidden
    have hclean : asPosix key.toList = key.toList := not_not.1 (not_or.1 hdirty).1
    cases h
    rw [hclean, String.ofList_toList]
    refine ⟨rfl, ?_⟩
    rcases (asPosix_eq_self_iff (toList_ne_nil_iff.2 hempty) hrelative).1 hclean with hdot | hparts
    · exact .inl (String.toList_inj.1 hdot)
    · have hdescends : ∀ segment ∈ segments key, Descends segment := fun segment hsegment =>
        ⟨(hparts segment hsegment).1, (hparts segment hsegment).2, fun heq => htraverses (.inl (heq ▸ hsegment))⟩
      exact .inr ⟨⟨hempty, Nat.le_of_not_lt hlength, hbackslash, hnul, hrelative, hdescends⟩,
        fun hline => htraverses (.inr hline)⟩
  · rintro ⟨rfl, rfl | ⟨hclean, hline⟩⟩
    · decide
    · have hsize : ¬ (cleaned = "" ∨ maxKeyLength < cleaned.length) :=
        not_or.2 ⟨hclean.nonempty, Nat.not_lt.2 hclean.length_le⟩
      have hends : ¬ (asPosix cleaned.toList ≠ cleaned.toList ∨ (asPosix cleaned.toList).head? = some '/' ∨
          (asPosix cleaned.toList).getLast? = some '/') := by
        rw [hclean.asPosix_eq]
        exact not_or.2 ⟨not_not.2 rfl, not_or.2 ⟨hclean.relative, hclean.getLast?_ne⟩⟩
      unfold sanitizeObjectKey
      rw [if_neg hsize, if_neg (fun hsearch => hline (hclean.search_iff.1 hsearch)), if_neg (fun hand => by cases hand.1),
        if_neg hends, hclean.asPosix_eq, String.ofList_toList]

end Accepted

/-! ## The guard -/

section Guard

variable {key : String}

/-- The directory or file that an absolute path names. -/
def resolve (path : List Char) : List (List Char) := walk [] path

/-- The check accepts a key exactly if it is clean, leaves it as it is, and what it accepts is strictly below every prefix. -/
structure Guards (key : String) : Prop where
  accepts_iff : (∃ cleaned, sanitizeObjectKey key = .ok cleaned) ↔ CleanKey key
  unchanged : ∀ cleaned, sanitizeObjectKey key = .ok cleaned → cleaned = key
  below : ∀ cleaned, sanitizeObjectKey key = .ok cleaned → ∀ bucket : List Char,
    StrictlyBelow (resolve bucket) (resolve (bucket ++ '/' :: cleaned.toList))

theorem CleanKey.below (h : CleanKey key) (bucket : List Char) :
    StrictlyBelow (resolve bucket) (resolve (bucket ++ '/' :: key.toList)) := by
  rw [resolve, resolve, walk_append]
  exact strictlyBelow_walk h.descends

/-- **The guard holds of a key** unless it is the dot, or a clean key whose last segment is two dots and a newline. -/
theorem guards_iff (key : String) : Guards key ↔ key ≠ "." ∧ ¬ (CleanKey key ∧ EndsInDotsLine key) := by
  constructor
  · intro h
    constructor
    · rintro rfl
      have hclean : CleanKey "." := h.accepts_iff.1 ⟨".", sanitizeObjectKey_eq_ok.2 ⟨rfl, .inl rfl⟩⟩
      exact (hclean.descends ['.'] (by decide)).2.1 rfl
    · rintro ⟨hclean, hline⟩
      obtain ⟨cleaned, hok⟩ := h.accepts_iff.2 hclean
      rcases (sanitizeObjectKey_eq_ok.1 hok).2 with rfl | ⟨-, hnot⟩
      · exact (hclean.descends ['.'] (by decide)).2.1 rfl
      · exact hnot hline
  · rintro ⟨hdot, hline⟩
    have haccepted : ∀ cleaned, sanitizeObjectKey key = .ok cleaned → cleaned = key ∧ CleanKey key := by
      intro cleaned hok
      obtain ⟨heq, hkey⟩ := sanitizeObjectKey_eq_ok.1 hok
      exact ⟨heq, (hkey.resolve_left hdot).1⟩
    refine ⟨⟨?_, ?_⟩, fun cleaned hok => (haccepted cleaned hok).1, ?_⟩
    · rintro ⟨cleaned, hok⟩
      exact (haccepted cleaned hok).2
    · exact fun hclean => ⟨key, sanitizeObjectKey_eq_ok.2 ⟨rfl, .inr ⟨hclean, fun h => hline ⟨hclean, h⟩⟩⟩⟩
    · intro cleaned hok bucket
      obtain ⟨rfl, hclean⟩ := haccepted cleaned hok
      exact hclean.below bucket

/-- The dot is accepted and names the bucket itself; dots with a newline are no way out of it, and are refused. -/
theorem dot_unguarded : sanitizeObjectKey "." = .ok "." ∧ ¬ CleanKey "." ∧
    ¬ StrictlyBelow (resolve "bucket".toList) (resolve ("bucket".toList ++ '/' :: ".".toList)) ∧ ¬ Guards "." ∧
    sanitizeObjectKey "a/..\n" = .error ⟨"Object key contains forbidden path sequences."⟩ ∧ CleanKey "a/..\n" ∧
    ¬ Guards "a/..\n" := by
  have hdot : ¬ CleanKey "." := fun hclean => (hclean.descends ['.'] (by decide)).2.1 rfl
  have hdotOk : sanitizeObjectKey "." = .ok "." := by decide
  have hlineError : sanitizeObjectKey "a/..\n" = .error ⟨"Object key contains forbidden path sequences."⟩ := by decide
  have hline : CleanKey "a/..\n" := ⟨by decide, by decide, by decide, by decide, by decide, by decide⟩
  refine ⟨hdotOk, hdot, ?_, fun h => hdot (h.accepts_iff.1 ⟨_, hdotOk⟩), hlineError, hline, fun h => ?_⟩
  · rw [resolve, resolve, walk_append]
    exact not_strictlyBelow_dot
  · obtain ⟨cleaned, hok⟩ := h.accepts_iff.2 hline
    rw [hlineError] at hok
    cases hok

theorem below_directory {directory file : String} (h : sanitizeObjectKey (directory ++ "/" ++ file) = .ok key)
    (bucket : List Char) :
    StrictlyBelow (resolve (bucket ++ '/' :: directory.toList)) (resolve (bucket ++ '/' :: key.toList)) := by
  obtain ⟨rfl, hkey⟩ := sanitizeObjectKey_eq_ok.1 h
  have hlist : (directory ++ "/" ++ file).toList = directory.toList ++ '/' :: file.toList := by
    rw [String.toList_append, String.toList_append, List.append_assoc]
    rfl
  have hdot : directory ++ "/" ++ file ≠ "." := by
    intro heq
    have hslash : '/' ∈ (directory ++ "/" ++ file).toList := by
      rw [hlist]
      exact List.mem_append_right _ (List.mem_cons_self ..)
    rw [heq] at hslash
    exact absurd hslash (by decide)
  have hclean : CleanKey (directory ++ "/" ++ file) := (hkey.resolve_left hdot).1
  rw [resolve, resolve, walk_append, walk_append, hlist, walk_append]
  refine strictlyBelow_walk fun segment hsegment => hclean.descends segment ?_
  rw [segments, hlist, List.splitOn_append_cons_self]
  exact List.mem_append_right _ hsegment

/-- An object is stored strictly below the directory of its job. -/
theorem generateObjectKey_below {hex jobId fileExtension : String} (h : generateObjectKey hex jobId fileExtension = .ok key)
    (bucket : List Char) : StrictlyBelow (resolve (bucket ++ '/' :: jobId.toList)) (resolve (bucket ++ '/' :: key.toList)) :=
  below_directory h bucket

theorem generateObjectKey_below_pdf : StrictlyBelow (resolve "bucket/job".toList) (resolve "bucket/job/ab.pdf".toList) :=
  @generateObjectKey_below "job/ab.pdf" "ab" "job" ".PDF" (by decide) "bucket".toList

end Guard

end Transform.Files
