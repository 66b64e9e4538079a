import Transform.Lib.Splitting
import Transform.Lib.Trim

/-!
# Lib.LineText — the lines of a text with their blanks collapsed

`collapse` brings line ends into one form, the blanks of a line down to one between two words, and the blank lines between
two others down to one.  Its value is `leading` of the lines (`collapse_eq`); a text that goes on with a new line collapses
to the same beginning and more, if there is more than blanks (`collapse_more`).
-/

namespace Transform.Lib

variable (blank : Char → Bool)

/-! ## Definitions -/

section Defs

/-- `text.replace("\r\n", "\n").replace("\r", "\n")`. -/
def newlines : List Char → List Char
  | [] => []
  | '\r' :: '\n' :: text => '\n' :: newlines text
  | '\r' :: text => '\n' :: newlines text
  | c :: text => c :: newlines text

/-- `line.split()`. -/
def words (line : List Char) : List (List Char) := (line.splitOnP blank).filter (· ≠ [])

/-- `" ".join(line.split())`. -/
def squash (line : List Char) : List Char := [' '].intercalate (words blank line)

/-- A line goes to those that are kept unless it and the last of them are empty. -/
def keepLine (kept : List (List Char)) (line : List Char) : List (List Char) :=
  if line = [] ∧ kept.getLast? = some [] then kept else kept ++ [line]

def squashedLines (text : List Char) : List (List Char) := ((newlines text).splitOn '\n').map (squash blank)

def collapse (text : List Char) : List Char :=
  trim blank (['\n'].intercalate ((squashedLines blank text).foldl keepLine []))

/-- What stands behind a line that is not empty; `gap` is whether an empty one came after it. -/
def following : (gap : Bool) → List (List Char) → List Char
  | _, [] => []
  | gap, line :: lines =>
    if line = [] then following true lines
    else (if gap then ['\n', '\n'] else ['\n']) ++ line ++ following false lines

/-- The lines from the first that is not empty on. -/
def leading : List (List Char) → List Char
  | [] => []
  | line :: lines => if line = [] then leading lines else line ++ following false lines

end Defs

variable {blank} {text more line : List Char} {lines lines' kept : List (List Char)} {gap : Bool}

/-! ## Words -/

section Words

theorem mem_words {word : List Char} (h : word ∈ words blank line) : word ≠ [] ∧ ∀ c ∈ word, blank c = false := by
  obtain ⟨hmem, hne⟩ := List.mem_filter.mp h
  exact ⟨of_decide_eq_true hne, not_of_mem_splitOnP hmem⟩

/-- A line without blanks at its ends. -/
def Tight (blank : Char → Bool) (line : List Char) : Prop :=
  (∀ c ∈ line.head?, blank c = false) ∧ ∀ c ∈ line.getLast?, blank c = false

theorem tight_squash : Tight blank (squash blank line) := by
  unfold Tight squash
  constructor
  · intro c hc
    cases hwords : words blank line with
    | nil =>
      rw [hwords] at hc
      cases hc
    | cons word rest =>
      have hword : word ≠ [] ∧ ∀ c ∈ word, blank c = false := mem_words (hwords ▸ List.mem_cons_self)
      rw [hwords, head?_intercalate_cons hword.1] at hc
      exact hword.2 c (List.mem_of_mem_head? hc)
  · intro c hc
    rcases List.eq_nil_or_concat (words blank line) with hwords | ⟨rest, word, hwords⟩
    · rw [hwords] at hc
      cases hc
    · have hword : word ≠ [] ∧ ∀ c ∈ word, blank c = false := mem_words (by rw [hwords]; simp)
      rw [hwords, List.concat_eq_append, getLast?_intercalate_concat hword.1] at hc
      exact hword.2 c (List.mem_of_getLast? hc)

theorem mem_splitOnP {c : Char} (hmem : c ∈ line) (hc : blank c = false) :
    ∃ piece ∈ line.splitOnP blank, c ∈ piece := by
  induction line with
  | nil => cases hmem
  | cons d line ih =>
    rw [List.splitOnP_cons_eq_if_modifyHead]
    obtain ⟨first, rest, hsplit⟩ := List.exists_cons_of_ne_nil (List.splitOnP_ne_nil blank line)
    rw [hsplit] at ih ⊢
    by_cases hd : blank d = true
    · rw [if_pos hd]
      have hne : c ≠ d := by
        rintro rfl
        exact Bool.false_ne_true (hc.symm.trans hd)
      obtain ⟨piece, hpiece, hin⟩ := ih ((List.mem_cons.mp hmem).resolve_left hne)
      exact ⟨piece, List.mem_cons_of_mem _ hpiece, hin⟩
    · rw [if_neg hd, List.modifyHead_cons]
      rcases List.mem_cons.mp hmem with rfl | hrest
      · exact ⟨c :: first, List.mem_cons_self, List.mem_cons_self⟩
      · obtain ⟨piece, hpiece, hin⟩ := ih hrest
        rcases List.mem_cons.mp hpiece with rfl | hpiece
        · exact ⟨d :: piece, List.mem_cons_self, List.mem_cons_of_mem _ hin⟩
        · exact ⟨piece, List.mem_cons_of_mem _ hpiece, hin⟩

theorem squash_eq_nil : squash blank line = [] ↔ ∀ c ∈ line, blank c = true := by
  constructor
  · intro h c hc
    by_contra hblank
    rw [Bool.not_eq_true] at hblank
    obtain ⟨piece, hpiece, hin⟩ := mem_splitOnP hc hblank
    have hword : piece ∈ words blank line :=
      List.mem_filter.mpr ⟨hpiece, decide_eq_true (List.ne_nil_of_mem hin)⟩
    have hthere : c ∈ squash blank line := mem_intercalate_of_mem hin hword
    rw [h] at hthere
    cases hthere
  · intro h
    have hwords : words blank line = [] := by
      induction line with
      | nil => rfl
      | cons c line ih =>
        rw [List.forall_mem_cons] at h
        rw [words, List.splitOnP_cons_eq_if_modifyHead, if_pos h.1, List.filter_cons_of_neg (by simp)]
        exact ih h.2
    rw [squash, hwords]
    rfl

end Words

/-! ## Lines -/

section Lines

theorem following_eq_nil : following gap lines = [] ↔ ∀ line ∈ lines, line = [] := by
  induction lines generalizing gap with
  | nil => exact iff_of_true rfl nofun
  | cons line lines ih =>
    unfold following
    rw [List.forall_mem_cons]
    by_cases h : line = []
    · rw [if_pos h, ih, and_iff_right h]
    · rw [if_neg h]
      refine iff_of_false ?_ fun hall => h hall.1
      intro hnil
      rw [List.append_eq_nil_iff, List.append_eq_nil_iff] at hnil
      exact h hnil.1.2

theorem leading_eq_nil : leading lines = [] ↔ ∀ line ∈ lines, line = [] := by
  induction lines with
  | nil => exact iff_of_true rfl nofun
  | cons line lines ih =>
    unfold leading
    rw [List.forall_mem_cons]
    by_cases h : line = []
    · rw [if_pos h, ih, and_iff_right h]
    · rw [if_neg h]
      refine iff_of_false ?_ fun hall => h hall.1
      intro hnil
      exact h (List.append_eq_nil_iff.mp hnil).1

theorem following_append (gap : Bool) (lines lines' : List (List Char)) : ∃ more,
    following gap (lines ++ lines') = following gap lines ++ more ∧ (more = [] ↔ ∀ line ∈ lines', line = []) := by
  induction lines generalizing gap with
  | nil => exact ⟨following gap lines', rfl, following_eq_nil⟩
  | cons line lines ih =>
    rw [List.cons_append, following, following]
    by_cases h : line = []
    · rw [if_pos h, if_pos h]
      exact ih true
    · obtain ⟨more, hmore, hnil⟩ := ih false
      rw [if_neg h, if_neg h, hmore]
      exact ⟨more, (List.append_assoc ..).symm, hnil⟩

theorem leading_append (lines lines' : List (List Char)) : ∃ more, leading (lines ++ lines') = leading lines ++ more ∧
    (more = [] ↔ ∀ line ∈ lines', line = []) := by
  induction lines with
  | nil => exact ⟨leading lines', rfl, leading_eq_nil⟩
  | cons line lines ih =>
    rw [List.cons_append, leading, leading]
    by_cases h : line = []
    · rw [if_pos h, if_pos h]
      exact ih
    · obtain ⟨more, hmore, hnil⟩ := following_append false lines lines'
      rw [if_neg h, if_neg h, hmore]
      exact ⟨more, (List.append_assoc ..).symm, hnil⟩

/-- Behind a gap there is nothing, or an empty line and the rest. -/
theorem following_gap (lines : List (List Char)) : (following true lines = [] ∧ leading lines = []) ∨
    following true lines = '\n' :: '\n' :: leading lines := by
  induction lines with
  | nil => exact Or.inl ⟨rfl, rfl⟩
  | cons line lines ih =>
    rw [following, leading]
    by_cases h : line = []
    · rw [if_pos h, if_pos h]
      exact ih
    · rw [if_neg h, if_neg h]
      exact Or.inr rfl

theorem getLast_following (htight : ∀ line ∈ lines, Tight blank line) :
    ∀ c ∈ (following gap lines).getLast?, blank c = false := by
  induction lines generalizing gap with
  | nil => exact fun _ => nofun
  | cons line lines ih =>
    rw [List.forall_mem_cons] at htight
    unfold following
    by_cases h : line = []
    · rw [if_pos h]
      exact ih htight.2
    · rw [if_neg h]
      intro c hc
      rw [List.getLast?_append] at hc
      cases hrest : (following false lines).getLast? with
      | some d =>
        rw [hrest] at hc
        exact ih htight.2 c (hrest.trans hc)
      | none =>
        rw [hrest, Option.none_or, List.getLast?_append_of_ne_nil _ h] at hc
        exact htight.1.2 c hc

theorem tight_leading (htight : ∀ line ∈ lines, Tight blank line) : Tight blank (leading lines) := by
  induction lines with
  | nil => exact ⟨fun _ => nofun, fun _ => nofun⟩
  | cons line lines ih =>
    rw [List.forall_mem_cons] at htight
    unfold leading
    by_cases h : line = []
    · rw [if_pos h]
      exact ih htight.2
    · rw [if_neg h]
      constructor
      · intro c hc
        rw [List.head?_append_of_ne_nil _ h] at hc
        exact htight.1.1 c hc
      · intro c hc
        rw [List.getLast?_append] at hc
        cases hrest : (following false lines).getLast? with
        | some d =>
          rw [hrest] at hc
          exact getLast_following htight.2 c (hrest.trans hc)
        | none =>
          rw [hrest, Option.none_or] at hc
          exact htight.1.2 c hc

/-! The text of the lines that are kept -/

theorem intercalate_concat {sep piece : List Char} {pieces : List (List Char)} (h : pieces ≠ []) :
    sep.intercalate (pieces ++ [piece]) = sep.intercalate pieces ++ (sep ++ piece) := by
  induction pieces with
  | nil => exact absurd rfl h
  | cons first pieces ih =>
    cases pieces with
    | nil =>
      rw [List.cons_append, List.nil_append, List.intercalate_cons_cons, List.intercalate_singleton,
        List.intercalate_singleton, List.append_assoc]
    | cons second pieces =>
      rw [List.cons_append, List.intercalate_cons_of_ne_nil (List.concat_ne_nil _ _), ih (List.cons_ne_nil _ _),
        List.intercalate_cons_of_ne_nil (List.cons_ne_nil _ _)]
      simp only [List.append_assoc]

/-- What the lines add to those that are kept; `empty` is whether the last of them is empty. -/
def added : (empty : Bool) → List (List Char) → List Char
  | _, [] => []
  | empty, line :: lines =>
    if line = [] ∧ empty = true then added true lines else ['\n'] ++ line ++ added (decide (line = [])) lines

theorem intercalate_foldl_keepLine (h : kept ≠ []) : ['\n'].intercalate (lines.foldl keepLine kept) =
    ['\n'].intercalate kept ++ added (decide (kept.getLast? = some [])) lines := by
  induction lines generalizing kept with
  | nil => exact (List.append_nil _).symm
  | cons line lines ih =>
    rw [List.foldl_cons, keepLine, added]
    by_cases hskip : line = [] ∧ kept.getLast? = some []
    · rw [if_pos hskip, if_pos ⟨hskip.1, decide_eq_true hskip.2⟩, ih h, decide_eq_true hskip.2]
    · have hnot : ¬ (line = [] ∧ decide (kept.getLast? = some []) = true) :=
        fun hand => hskip ⟨hand.1, of_decide_eq_true hand.2⟩
      have hlast : decide ((kept ++ [line]).getLast? = some []) = decide (line = []) := by
        rw [List.getLast?_concat]
        exact decide_eq_decide.mpr Option.some_inj
      rw [if_neg hskip, if_neg hnot, ih (List.concat_ne_nil _ _), intercalate_concat h, hlast, List.append_assoc]

theorem added_eq (lines : List (List Char)) :
    (∃ after, (∀ c ∈ after, c = '\n') ∧ added false lines = following false lines ++ after) ∧
    ∃ after, (∀ c ∈ after, c = '\n') ∧ '\n' :: added true lines = following true lines ++ after := by
  induction lines with
  | nil => exact ⟨⟨[], nofun, rfl⟩, ['\n'], fun c hc => List.mem_singleton.mp hc, rfl⟩
  | cons line lines ih =>
    obtain ⟨⟨after, hafter, hplain⟩, after', hafter', hgap⟩ := ih
    by_cases h : line = []
    · subst h
      refine ⟨⟨after', hafter', ?_⟩, after', hafter', ?_⟩
      · show '\n' :: added true lines = _
        rw [hgap]
        rfl
      · show '\n' :: added true lines = _
        rw [hgap]
        rfl
    · have hadded : ∀ empty, added empty (line :: lines) = ['\n'] ++ line ++ added false lines := by
        intro empty
        rw [added, if_neg (fun hand => h hand.1), decide_eq_false h]
      refine ⟨⟨after, hafter, ?_⟩, after, hafter, ?_⟩
      · rw [hadded, hplain, following, if_neg h, List.append_assoc, List.append_assoc, List.append_assoc]
        rfl
      · rw [hadded, hplain, following, if_neg h, if_pos rfl]
        simp only [List.append_assoc, List.cons_append, List.nil_append]

theorem trim_kept (hline : blank '\n' = true) (htight : ∀ line ∈ lines, Tight blank line) :
    trim blank (['\n'].intercalate (lines.foldl keepLine [])) = leading lines := by
  have hself : trim blank (leading lines) = leading lines :=
    trim_eq_self (tight_leading htight).1 (tight_leading htight).2
  have hblank : ∀ {after : List Char}, (∀ c ∈ after, c = '\n') → ∀ c ∈ after, blank c = true := by
    intro after hafter c hc
    rw [hafter c hc]
    exact hline
  cases lines with
  | nil => rfl
  | cons line lines =>
    have hfirst : keepLine [] line = [line] := if_neg fun hand => nomatch hand.2
    have hkept : (line :: lines).foldl keepLine [] = lines.foldl keepLine [line] := congrArg (lines.foldl keepLine) hfirst
    rw [hkept, intercalate_foldl_keepLine (List.cons_ne_nil _ _), List.intercalate_singleton]
    by_cases h : line = []
    · subst h
      obtain ⟨after, hafter, hgap⟩ := (added_eq lines).2
      show trim blank (added true lines) = leading lines
      have hrest : leading lines = leading ([] :: lines) := rfl
      rcases following_gap lines with ⟨hnone, hleading⟩ | hsome
      · rw [hnone] at hgap
        have hall : ∀ c ∈ added true lines, c = '\n' := by
          intro c hc
          refine hafter c ?_
          have hmem : c ∈ '\n' :: added true lines := List.mem_cons_of_mem _ hc
          rw [hgap] at hmem
          exact hmem
        rw [trim_eq_nil (hblank hall), hleading]
      · rw [hsome] at hgap
        have hadded : added true lines = ['\n'] ++ leading lines ++ after := (List.cons.inj hgap).2
        rw [hadded, trim_after (hblank hafter), trim_before (by simpa using hline), hrest, hself]
    · obtain ⟨after, hafter, hplain⟩ := (added_eq lines).1
      have hlast : decide ([line].getLast? = some []) = false := decide_eq_false fun heq => h (Option.some.inj heq)
      rw [hlast, hplain, ← List.append_assoc, trim_after (hblank hafter)]
      have hleading : line ++ following false lines = leading (line :: lines) := (if_neg h).symm
      rw [hleading, hself]

end Lines

/-! ## Texts -/

section Texts

variable (hline : blank '\n' = true)
include hline

theorem collapse_eq (text : List Char) : collapse blank text = leading (squashedLines blank text) := by
  refine trim_kept hline ?_
  intro line hmem
  obtain ⟨piece, -, rfl⟩ := List.mem_map.mp hmem
  exact tight_squash

omit hline in
/-- A line end stays one, if it does not end what a carriage return before it has begun. -/
theorem newlines_append (text more : List Char) : ∃ first, (newlines text = first ∨ newlines text = first ++ ['\n']) ∧
    newlines (text ++ '\n' :: more) = first ++ '\n' :: newlines more := by
  induction text using newlines.induct with
  | case1 => exact ⟨[], Or.inl rfl, rfl⟩
  | case2 text ih =>
    obtain ⟨first, hor, hmore⟩ := ih
    refine ⟨'\n' :: first, ?_, ?_⟩
    · exact hor.imp (congrArg ('\n' :: ·)) (congrArg ('\n' :: ·))
    · show '\n' :: newlines (text ++ '\n' :: more) = _
      rw [hmore]
      rfl
  | case3 text hnot ih =>
    cases text with
    | nil => exact ⟨[], Or.inr rfl, rfl⟩
    | cons c text =>
      obtain ⟨first, hor, hmore⟩ := ih
      have hother : c ≠ '\n' := fun heq => hnot text (by rw [heq])
      have hstep : ∀ rest, newlines ('\r' :: c :: rest) = '\n' :: newlines (c :: rest) := by
        intro rest
        rw [newlines]
        rintro _ heq
        exact hother (List.cons.inj heq).1
      refine ⟨'\n' :: first, ?_, ?_⟩
      · rw [hstep]
        exact hor.imp (congrArg ('\n' :: ·)) (congrArg ('\n' :: ·))
      · rw [List.cons_append, List.cons_append, hstep, ← List.cons_append, hmore]
        rfl
  | case4 c text hcrlf hcr ih =>
    obtain ⟨first, hor, hmore⟩ := ih
    have hc : c ≠ '\r' := fun heq => hcr heq
    have hstep : ∀ rest, newlines (c :: rest) = c :: newlines rest := by
      intro rest
      rw [newlines]
      · rintro _ heq
        exact absurd heq hc
      · exact hc
    refine ⟨c :: first, ?_, ?_⟩
    · rw [hstep]
      exact hor.imp (congrArg (c :: ·)) (congrArg (c :: ·))
    · rw [List.cons_append, hstep, hmore]
      rfl

omit hline in
theorem splitOn_line (first more : List Char) :
    (first ++ '\n' :: more).splitOn '\n' = first.splitOn '\n' ++ more.splitOn '\n' :=
  List.splitOn_append_cons_self first more

omit hline in
/-- What is behind a line end begins with a line of its own. -/
theorem squashedLines_append (blank : Char → Bool) (text more : List Char) : ∃ lines,
    leading (squashedLines blank text) = leading lines ∧
      squashedLines blank (text ++ '\n' :: more) = lines ++ squashedLines blank more := by
  obtain ⟨first, hor, hmore⟩ := newlines_append text more
  refine ⟨(first.splitOn '\n').map (squash blank), ?_, ?_⟩
  · rcases hor with hfirst | hfirst
    · rw [squashedLines, hfirst]
    · have hlines : squashedLines blank text = (first.splitOn '\n').map (squash blank) ++ [[]] := by
        rw [squashedLines, hfirst, splitOn_line, List.map_append]
        rfl
      obtain ⟨rest, hrest, hnil⟩ := leading_append ((first.splitOn '\n').map (squash blank)) [[]]
      rw [hlines, hrest, hnil.mpr fun line hmem => List.mem_singleton.mp hmem, List.append_nil]
  · rw [squashedLines, hmore, splitOn_line, List.map_append]
    rfl

omit hline in
theorem mem_newlines {c : Char} (h : c ∈ newlines text) : c = '\n' ∨ c ∈ text := by
  induction text using newlines.induct with
  | case1 => cases h
  | case2 text ih =>
    rcases List.mem_cons.mp h with rfl | h
    · exact Or.inl rfl
    · exact (ih h).imp_right fun hmem => List.mem_cons_of_mem _ (List.mem_cons_of_mem _ hmem)
  | case3 text hnot ih =>
    rw [newlines] at h
    · rcases List.mem_cons.mp h with rfl | h
      · exact Or.inl rfl
      · exact (ih h).imp_right fun hmem => List.mem_cons_of_mem _ hmem
    · exact hnot
  | case4 d text hcrlf hcr ih =>
    rw [newlines] at h
    · rcases List.mem_cons.mp h with rfl | h
      · exact Or.inr List.mem_cons_self
      · exact (ih h).imp_right fun hmem => List.mem_cons_of_mem _ hmem
    · exact fun text' heq => absurd heq hcr
    · exact hcr

omit hline in
theorem mem_newlines_of_mem {c : Char} (hc : c ≠ '\r') (h : c ∈ text) : c ∈ newlines text := by
  induction text using newlines.induct with
  | case1 => cases h
  | case2 text ih =>
    rcases List.mem_cons.mp h with rfl | h
    · exact absurd rfl hc
    · rcases List.mem_cons.mp h with rfl | h
      · exact List.mem_cons_self
      · exact List.mem_cons_of_mem _ (ih h)
  | case3 text hnot ih =>
    rw [newlines]
    · rcases List.mem_cons.mp h with rfl | h
      · exact absurd rfl hc
      · exact List.mem_cons_of_mem _ (ih h)
    · exact hnot
  | case4 d text hcrlf hcr ih =>
    rw [newlines]
    · rcases List.mem_cons.mp h with rfl | h
      · exact List.mem_cons_self
      · exact List.mem_cons_of_mem _ (ih h)
    · exact fun text' heq => absurd heq hcr
    · exact hcr

theorem squashedLines_empty (hreturn : blank '\r' = true) :
    (∀ line ∈ squashedLines blank text, line = []) ↔ ∀ c ∈ text, blank c = true := by
  have hpieces : (∀ line ∈ squashedLines blank text, line = []) ↔
      ∀ piece ∈ (newlines text).splitOn '\n', ∀ c ∈ piece, blank c = true := by
    rw [squashedLines, List.forall_mem_map]
    exact forall_congr' fun piece => forall_congr' fun _ => squash_eq_nil
  rw [hpieces]
  constructor
  · intro h c hc
    by_cases hcr : c = '\r'
    · rw [hcr]
      exact hreturn
    · by_cases hlf : c = '\n'
      · rw [hlf]
        exact hline
      · have hmem := mem_newlines_of_mem hcr hc
        have hjoin : ['\n'].intercalate ((newlines text).splitOn '\n') = newlines text := List.intercalate_splitOn '\n'
        rw [← hjoin] at hmem
        obtain ⟨piece, hpiece, hin⟩ := (mem_intercalate hmem).resolve_left hlf
        exact h piece hpiece c hin
  · intro h piece hpiece c hc
    rcases mem_newlines (mem_of_mem_splitOn hpiece hc) with rfl | hmem
    · exact hline
    · exact h c hmem

/-- **A text that goes on in a new line** collapses to what it did and more, unless only blanks come. -/
theorem collapse_more (hreturn : blank '\r' = true) (text more : List Char) : ∃ rest,
    collapse blank (text ++ '\n' :: more) = collapse blank text ++ rest ∧
      (rest = [] ↔ ∀ c ∈ more, blank c = true) := by
  obtain ⟨lines, htext, hmore⟩ := squashedLines_append blank text more
  obtain ⟨rest, hrest, hnil⟩ := leading_append lines (squashedLines blank more)
  refine ⟨rest, ?_, ?_⟩
  · rw [collapse_eq hline, collapse_eq hline, hmore, hrest, htext]
  · rw [hnil]
    exact squashedLines_empty hline hreturn

end Texts

end Transform.Lib
