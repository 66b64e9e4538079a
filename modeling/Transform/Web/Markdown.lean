import Transform.Lib.JsString
import Transform.Lib.Scanning

/-!
# Web.Markdown — the spans of a line of an answer

`parseInline` cuts a line into bold, italic and code spans with literal text between them.  A marker that is not closed is
literal text, so that the tokens spell the line whatever there is of it (`parseInline_spells`).
-/

namespace Transform.Web

open Lib

/-! ## The parser -/

section Parser

inductive InlineToken
  | text (value : JsString)
  | bold (value : JsString)
  | italic (value : JsString)
  | code (value : JsString)
  deriving DecidableEq

def InlineToken.isText : InlineToken → Bool
  | .text _ => true
  | _ => false

def backquote : UInt16 := 96

def star : UInt16 := 42

def underscore : UInt16 := 95

/-- `[A-Za-z0-9]` -/
def isWordUnit (u : UInt16) : Bool := (65 ≤ u && u ≤ 90) || (97 ≤ u && u ≤ 122) || (48 ≤ u && u ≤ 57)

/-- `text[i - 1]` -/
def unitBefore (text : JsString) (i : ℕ) : Option UInt16 := if i = 0 then none else text[i - 1]?

/-- `text.indexOf(pattern, start)`, for a pattern that is not empty. -/
def indexOf (text pattern : JsString) (start : ℕ) : Option ℕ :=
  (List.range' start (text.length - start)).find? fun j => pattern.isPrefixOf (text.drop j)

/-- A span is not empty, and has no white space at its ends. -/
def isFlanked (text : JsString) : Bool :=
  0 < text.length && !text.head?.any isJsSpace && !text.getLast?.any isJsSpace

/-- The marker at a place closes the span that was opened before `start`. -/
def closesEmphasis (text : JsString) (start : ℕ) (marker : UInt16) (j : ℕ) : Bool :=
  if text[j]? ≠ some marker then false
  else if marker = star ∧ (unitBefore text j = some star ∨ text[j + 1]? = some star) then false
  else if isFlanked (slice text start j) = false then false
  else if marker = underscore ∧ text[j + 1]?.any isWordUnit = true then false
  else true

def findEmphasisClose (text : JsString) (start : ℕ) (marker : UInt16) : Option ℕ :=
  (List.range' start (text.length - start)).find? (closesEmphasis text start marker)

/-- One turn of the loop. -/
def inlineStep (input : JsString) (s : Scan UInt16 InlineToken) (char : UInt16) : Scan UInt16 InlineToken :=
  if char = backquote then
    match indexOf input [backquote] (s.i + 1) with
    | some close => s.emit .text (.code (slice input (s.i + 1) close)) (close + 1)
    | none => s.literal char
  else if char = star ∧ input[s.i + 1]? = some star then
    match indexOf input [star, star] (s.i + 2) with
    | some close =>
      if isFlanked (slice input (s.i + 2) close) then
        s.emit .text (.bold (slice input (s.i + 2) close)) (close + 2)
      else s.literal char
    | none => s.literal char
  else if char = star ∨ char = underscore then
    if char = underscore ∧ (unitBefore input s.i).any isWordUnit = true then s.literal char
    else
      match findEmphasisClose input (s.i + 1) char with
      | some close => s.emit .text (.italic (slice input (s.i + 1) close)) (close + 1)
      | none => s.literal char
  else s.literal char

def parseInline (input : JsString) : List InlineToken := scanAll .text (inlineStep input) input

end Parser

/-! ## Closers -/

section Closers

variable {text pattern : JsString} {start j : ℕ} {u v marker : UInt16}

theorem isFlanked_iff : isFlanked text = true ↔
    text ≠ [] ∧ (∀ u ∈ text.head?, isJsSpace u = false) ∧ ∀ u ∈ text.getLast?, isJsSpace u = false := by
  have hends : ∀ unit : Option UInt16, (!unit.any isJsSpace) = true ↔ ∀ u ∈ unit, isJsSpace u = false := by
    intro unit
    cases unit <;> simp
  rw [isFlanked, Bool.and_eq_true, Bool.and_eq_true, hends, hends, decide_eq_true_iff, List.length_pos_iff, and_assoc]

theorem indexOf_some (h : indexOf text pattern start = some j) : start ≤ j ∧ pattern <+: text.drop j := by
  unfold indexOf at h
  have hprefix := List.find?_some h
  exact ⟨(List.mem_range'_1.mp (List.mem_of_find?_eq_some h)).1, List.isPrefixOf_iff_prefix.mp hprefix⟩

theorem indexOf_one (h : indexOf text [u] start = some j) : start ≤ j ∧ text[j]? = some u := by
  obtain ⟨hle, rest, hrest⟩ := indexOf_some h
  refine ⟨hle, ?_⟩
  rw [← List.head?_drop, ← hrest]
  rfl

theorem indexOf_two (h : indexOf text [u, v] start = some j) :
    start ≤ j ∧ text[j]? = some u ∧ text[j + 1]? = some v := by
  obtain ⟨hle, rest, hrest⟩ := indexOf_some h
  refine ⟨hle, ?_, ?_⟩
  · rw [← List.head?_drop, ← hrest]
    rfl
  · rw [← List.getElem?_drop, ← hrest]
    rfl

theorem findEmphasisClose_some (h : findEmphasisClose text start marker = some j) :
    start ≤ j ∧ text[j]? = some marker ∧ isFlanked (slice text start j) = true := by
  have hle : start ≤ j := (List.mem_range'_1.mp (List.mem_of_find?_eq_some h)).1
  have hcloses : closesEmphasis text start marker j = true := List.find?_some h
  unfold closesEmphasis at hcloses
  split_ifs at hcloses with hmarker hpair hflanked hword
  exact ⟨hle, not_not.mp hmarker, Bool.not_eq_false _ ▸ hflanked⟩

end Closers

/-! ## What the tokens spell -/

section Spelling

inductive SourceForm : InlineToken → JsString → Prop
  | text (value : JsString) : SourceForm (.text value) value
  | code (value : JsString) : SourceForm (.code value) ([backquote] ++ value ++ [backquote])
  | bold (value : JsString) : SourceForm (.bold value) ([star, star] ++ value ++ [star, star])
  | italic (value : JsString) (marker : UInt16) (h : marker = star ∨ marker = underscore) :
      SourceForm (.italic value) ([marker] ++ value ++ [marker])

/-- A text that is not empty and has no white space at its ends. -/
def Flanked (value : JsString) : Prop :=
  value ≠ [] ∧ (∀ u ∈ value.head?, isJsSpace u = false) ∧ ∀ u ∈ value.getLast?, isJsSpace u = false

def InlineToken.WellFormed : InlineToken → Prop
  | .bold value => Flanked value
  | .italic value => Flanked value
  | _ => True

def Writes (token : InlineToken) (piece : JsString) : Prop := token.WellFormed ∧ SourceForm token piece

variable {input : JsString} {s : Scan UInt16 InlineToken} {char u : UInt16} {close : ℕ}

theorem writes_text (literal : JsString) : Writes (.text literal) literal := ⟨trivial, .text literal⟩

theorem reads_span (h : Reads Writes InlineToken.isText input s) {token : InlineToken} (hopen : input[s.i]? = some char)
    (hclose : input[close]? = some char) (hlt : s.i + 1 ≤ close) (hnot : token.isText = false)
    (htoken : Writes token ([char] ++ slice input (s.i + 1) close ++ [char])) :
    Reads Writes InlineToken.isText input (s.emit .text token (close + 1)) ∧ s.i < close + 1 := by
  have hpiece : slice input s.i (close + 1) = [char] ++ slice input (s.i + 1) close ++ [char] :=
    slice_around hlt hopen hclose
  obtain ⟨hwithin, -⟩ := List.getElem?_eq_some_iff.mp hclose
  exact ⟨h.emit (fun literal _ => writes_text literal) (by omega) hwithin (hpiece ▸ htoken) hnot, by omega⟩

/-- A span between two pairs of markers. -/
theorem reads_boldSpan (h : Reads Writes InlineToken.isText input s) (hopen : input[s.i]? = some star)
    (hopen' : input[s.i + 1]? = some star) (hclose : input[close]? = some star) (hclose' : input[close + 1]? = some star)
    (hle : s.i + 2 ≤ close) (hflanked : Flanked (slice input (s.i + 2) close)) :
    Reads Writes InlineToken.isText input (s.emit .text (.bold (slice input (s.i + 2) close)) (close + 2)) ∧
      s.i < close + 2 := by
  have hinner : slice input (s.i + 1) (close + 1) = star :: slice input (s.i + 2) close ++ [star] :=
    slice_around hle hopen' hclose
  have hpiece : slice input s.i (close + 2) = [star, star] ++ slice input (s.i + 2) close ++ [star, star] := by
    rw [slice_around (by omega) hopen hclose', hinner]
    simp
  obtain ⟨hwithin, -⟩ := List.getElem?_eq_some_iff.mp hclose'
  have htoken : Writes (.bold (slice input (s.i + 2) close)) (slice input s.i (close + 2)) := by
    rw [hpiece]
    exact ⟨hflanked, .bold _⟩
  exact ⟨h.emit (fun literal _ => writes_text literal) (by omega) hwithin htoken rfl, by omega⟩

/-- One turn reads a piece of the line, whatever it finds. -/
theorem reads_inlineStep (h : Reads Writes InlineToken.isText input s) (hchar : input[s.i]? = some char) :
    Reads Writes InlineToken.isText input (inlineStep input s char) ∧ s.i < (inlineStep input s char).i := by
  have hliteral : Reads Writes InlineToken.isText input (s.literal char) ∧ s.i < (s.literal char).i :=
    ⟨h.literal hchar, Nat.lt_succ_self s.i⟩
  unfold inlineStep
  by_cases hback : char = backquote
  · rw [if_pos hback]
    cases hclose : indexOf input [backquote] (s.i + 1) with
    | none => exact hliteral
    | some close =>
      obtain ⟨hle, hmarker⟩ := indexOf_one hclose
      subst hback
      exact reads_span h hchar hmarker hle rfl ⟨trivial, .code _⟩
  rw [if_neg hback]
  by_cases hstars : char = star ∧ input[s.i + 1]? = some star
  · rw [if_pos hstars]
    cases hclose : indexOf input [star, star] (s.i + 2) with
    | none => exact hliteral
    | some close =>
      obtain ⟨hle, hfirst, hsecond⟩ := indexOf_two hclose
      show Reads _ _ _ (if _ then _ else _) ∧ _ < (if _ then _ else _ : Scan UInt16 InlineToken).i
      by_cases hflanked : isFlanked (slice input (s.i + 2) close) = true
      · rw [if_pos hflanked]
        exact reads_boldSpan h (hstars.1 ▸ hchar) hstars.2 hfirst hsecond hle (isFlanked_iff.mp hflanked)
      · rw [if_neg hflanked]
        exact hliteral
  rw [if_neg hstars]
  by_cases hmarker : char = star ∨ char = underscore
  · rw [if_pos hmarker]
    by_cases hglued : char = underscore ∧ (unitBefore input s.i).any isWordUnit = true
    · rw [if_pos hglued]
      exact hliteral
    · rw [if_neg hglued]
      cases hclose : findEmphasisClose input (s.i + 1) char with
      | none => exact hliteral
      | some close =>
        obtain ⟨hle, hend, hflanked⟩ := findEmphasisClose_some hclose
        exact reads_span h hchar hend hle rfl ⟨isFlanked_iff.mp hflanked, .italic _ char hmarker⟩
  · rw [if_neg hmarker]
    exact hliteral

/-- **No character is lost**: the tokens spell the line, literal text is one token, and what is bold or italic is flanked. -/
theorem parseInline_spells (input : JsString) : Spelled SourceForm (parseInline input) input ∧
    Separated InlineToken.isText (parseInline input) ∧ ∀ token ∈ parseInline input, token.WellFormed := by
  have hscan : Spelled Writes (parseInline input) input ∧ Separated InlineToken.isText (parseInline input) :=
    spelled_scanAll (fun _ _ h hchar => reads_inlineStep h hchar) fun literal _ => writes_text literal
  obtain ⟨⟨pieces, hwrites, hpieces⟩, hseparated⟩ := hscan
  obtain ⟨hformed, hforms⟩ := (List.forall₂_and_left _ _).mp hwrites
  exact ⟨⟨pieces, hforms, hpieces⟩, hseparated, hformed⟩

example : parseInline (units "a **b** _c_ `d` *e") =
    [.text (units "a "), .bold (units "b"), .text (units " "), .italic (units "c"), .text (units " "), .code (units "d"),
      .text (units " *e")] := by decide

end Spelling

end Transform.Web
