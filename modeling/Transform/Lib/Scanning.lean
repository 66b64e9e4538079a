import Mathlib.Data.List.Chain
import Mathlib.Data.List.Forall2

/-!
# Lib.Scanning — texts cut into tokens with literal text between them

A scan goes over a text from place to place.  It takes the unit at its place as literal text, or a piece of the text as a
token; literal text becomes one token when the next one comes.  If each token spells its piece, the tokens spell the text
(`spelled_scanAll`).
-/

namespace Transform.Lib

/-! ## Pieces of a text -/

section Slices

variable {α : Type} {text : List α} {i j k : ℕ} {a b : α}

/-- `text.slice(i, j)` -/
def slice (text : List α) (i j : ℕ) : List α := (text.take j).drop i

theorem slice_concat (hij : i ≤ j) (hj : text[j]? = some b) : slice text i (j + 1) = slice text i j ++ [b] := by
  obtain ⟨hlt, rfl⟩ := List.getElem?_eq_some_iff.mp hj
  have hlength : i ≤ (text.take j).length := by
    rw [List.length_take]
    omega
  rw [slice, slice, List.take_add_one, List.getElem?_eq_getElem hlt, Option.toList_some, List.drop_append_of_le_length hlength]

theorem slice_cons (hij : i < j) (hi : text[i]? = some a) : slice text i j = a :: slice text (i + 1) j := by
  have htake : (text.take j)[i]? = some a := by
    rw [List.getElem?_take_of_lt hij]
    exact hi
  obtain ⟨hlt, rfl⟩ := List.getElem?_eq_some_iff.mp htake
  exact List.drop_eq_getElem_cons hlt

theorem slice_around (hij : i < j) (hi : text[i]? = some a) (hj : text[j]? = some b) :
    slice text i (j + 1) = a :: slice text (i + 1) j ++ [b] := by
  rw [slice_concat (Nat.le_of_lt hij) hj, slice_cons hij hi]

theorem take_append_slice (hij : i ≤ j) : text.take i ++ slice text i j = text.take j := by
  have htake : text.take i = (text.take j).take i := by rw [List.take_take, Nat.min_eq_left hij]
  rw [slice, htake, List.take_append_drop]

end Slices

/-! ## Scans -/

section Scans

variable {α τ : Type}

/-- The tokens so far, the literal text behind them, and the place. -/
structure Scan (α τ : Type) where
  tokens : List τ := []
  buffer : List α := []
  i : ℕ := 0

namespace Scan

variable (text : List α → τ) (s : Scan α τ)

/-- Literal text becomes a token. -/
def flush : Scan α τ := if s.buffer = [] then s else { s with tokens := s.tokens ++ [text s.buffer], buffer := [] }

def literal (a : α) : Scan α τ := { s with buffer := s.buffer ++ [a], i := s.i + 1 }

/-- A token for the text up to another place. -/
def emit (token : τ) (next : ℕ) : Scan α τ :=
  let s := s.flush text
  { s with tokens := s.tokens ++ [token], i := next }

end Scan

/-- Turns of a scan while there is text. -/
def scanFrom (step : Scan α τ → α → Scan α τ) (input : List α) : (turns : ℕ) → Scan α τ → Scan α τ
  | 0, s => s
  | turns + 1, s =>
    match input[s.i]? with
    | none => s
    | some a => scanFrom step input turns (step s a)

def scanAll (text : List α → τ) (step : Scan α τ → α → Scan α τ) (input : List α) : List τ :=
  ((scanFrom step input input.length {}).flush text).tokens

end Scans

/-! ## What the tokens spell -/

section Spelling

variable {α τ : Type} {text : List α → τ} {spells : τ → List α → Prop} {isText : τ → Bool} {input : List α} {s : Scan α τ}
  {step : Scan α τ → α → Scan α τ} {token : τ} {next turns : ℕ} {a : α}

/-- The tokens spell the pieces of a text, in their order. -/
def Spelled (spells : τ → List α → Prop) (tokens : List τ) (input : List α) : Prop :=
  ∃ pieces, List.Forall₂ spells tokens pieces ∧ pieces.flatten = input

/-- No two tokens of literal text are neighbours. -/
def Separated (isText : τ → Bool) (tokens : List τ) : Prop :=
  tokens.IsChain fun first second => ¬ (isText first = true ∧ isText second = true)

/-- A scan that has come to its place: the tokens and the literal text spell what is before it. -/
structure Reads (spells : τ → List α → Prop) (isText : τ → Bool) (input : List α) (s : Scan α τ) : Prop where
  within : s.i ≤ input.length
  spelled : ∃ read, Spelled spells s.tokens read ∧ read ++ s.buffer = input.take s.i
  separated : Separated isText s.tokens
  last : ∀ token ∈ s.tokens.getLast?, isText token = false

theorem Spelled.concat {tokens : List τ} {read piece : List α} (h : Spelled spells tokens read) (ht : spells token piece) :
    Spelled spells (tokens ++ [token]) (read ++ piece) := by
  obtain ⟨pieces, hpieces, rfl⟩ := h
  exact ⟨pieces ++ [piece], List.rel_append hpieces (.cons ht .nil), by simp⟩

theorem Separated.concat {tokens : List τ} (h : Separated isText tokens)
    (hlast : ∀ last ∈ tokens.getLast?, isText last = false ∨ isText token = false) : Separated isText (tokens ++ [token]) := by
  refine List.isChain_append.mpr ⟨h, List.isChain_singleton _, ?_⟩
  intro last hlast' first hfirst hboth
  obtain rfl : token = first := by simpa using hfirst
  rcases hlast last hlast' with hnot | hnot
  · rw [hnot] at hboth
    exact Bool.false_ne_true hboth.1
  · rw [hnot] at hboth
    exact Bool.false_ne_true hboth.2

theorem reads_start : Reads spells isText input ({} : Scan α τ) :=
  ⟨Nat.zero_le _, ⟨[], ⟨[], .nil, rfl⟩, rfl⟩, .nil, nofun⟩

theorem Reads.literal (h : Reads spells isText input s) (ha : input[s.i]? = some a) :
    Reads spells isText input (s.literal a) := by
  obtain ⟨hlt, rfl⟩ := List.getElem?_eq_some_iff.mp ha
  obtain ⟨read, hspelled, hread⟩ := h.spelled
  refine ⟨hlt, ⟨read, hspelled, ?_⟩, h.separated, h.last⟩
  show read ++ (s.buffer ++ [input[s.i]]) = input.take (s.i + 1)
  rw [← List.append_assoc, hread, List.take_add_one, List.getElem?_eq_getElem hlt, Option.toList_some]

theorem Reads.flushed (h : Reads spells isText input s) (htext : ∀ literal, literal ≠ [] → spells (text literal) literal) :
    Spelled spells (s.flush text).tokens (input.take s.i) ∧ Separated isText (s.flush text).tokens ∧
      (s.flush text).buffer = [] := by
  obtain ⟨read, hspelled, hread⟩ := h.spelled
  unfold Scan.flush
  by_cases hempty : s.buffer = []
  · rw [if_pos hempty]
    rw [hempty, List.append_nil] at hread
    exact ⟨hread ▸ hspelled, h.separated, hempty⟩
  · rw [if_neg hempty, ← hread]
    exact ⟨hspelled.concat (htext _ hempty), h.separated.concat fun last hlast => .inl (h.last last hlast), rfl⟩

theorem Reads.emit (h : Reads spells isText input s) (htext : ∀ literal, literal ≠ [] → spells (text literal) literal)
    (hnext : s.i ≤ next) (hwithin : next ≤ input.length) (htoken : spells token (slice input s.i next))
    (hnot : isText token = false) : Reads spells isText input (s.emit text token next) := by
  obtain ⟨hspelled, hseparated, hbuffer⟩ := h.flushed htext
  refine ⟨hwithin, ⟨input.take next, ?_, ?_⟩, ?_, ?_⟩
  · rw [← take_append_slice hnext]
    exact hspelled.concat htoken
  · show input.take next ++ (s.flush text).buffer = input.take next
    rw [hbuffer, List.append_nil]
  · exact hseparated.concat fun _ _ => .inr hnot
  · intro last hlast
    obtain rfl : token = last := by simpa [Scan.emit] using hlast
    exact hnot

theorem reads_scanFrom (hstep : ∀ s a, Reads spells isText input s → input[s.i]? = some a →
      Reads spells isText input (step s a) ∧ s.i < (step s a).i)
    (h : Reads spells isText input s) (hturns : input.length ≤ s.i + turns) :
    Reads spells isText input (scanFrom step input turns s) ∧ (scanFrom step input turns s).i = input.length := by
  induction turns generalizing s with
  | zero =>
    have hwithin := h.within
    exact ⟨h, by rw [scanFrom]; omega⟩
  | succ turns ih =>
    rw [scanFrom]
    cases hunit : input[s.i]? with
    | none => exact ⟨h, Nat.le_antisymm h.within (List.getElem?_eq_none_iff.mp hunit)⟩
    | some a =>
      obtain ⟨hreads, hlt⟩ := hstep s a h hunit
      exact ih hreads (by omega)

/-- **The tokens of a text spell it**, and no two of literal text are neighbours. -/
theorem spelled_scanAll (hstep : ∀ s a, Reads spells isText input s → input[s.i]? = some a →
      Reads spells isText input (step s a) ∧ s.i < (step s a).i)
    (htext : ∀ literal, literal ≠ [] → spells (text literal) literal) :
    Spelled spells (scanAll text step input) input ∧ Separated isText (scanAll text step input) := by
  have hturns : input.length ≤ ({} : Scan α τ).i + input.length := Nat.le_add_left _ _
  obtain ⟨hreads, hend⟩ := reads_scanFrom hstep reads_start hturns
  obtain ⟨hspelled, hseparated, -⟩ := hreads.flushed htext
  rw [hend, List.take_length] at hspelled
  exact ⟨hspelled, hseparated⟩

end Spelling

end Transform.Lib
