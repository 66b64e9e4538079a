import Mathlib.Data.Nat.Notation
import Mathlib.Tactic.Common

/-!
# Lib.Regex — regular expressions that look for the longest run first

A matcher with a continuation: alternatives in their order, runs of a class as long as they can be and shorter if the rest
does not match.  What counts as a character of a word is a parameter.  `sub` puts a mark in the place of each match, from left
to right, in a text of characters or of anything that has one.
-/

namespace Transform.Lib

/-! ## Matching -/

section Matching

/-- `classes` is one character of each class in turn, `many` a run of one class, within bounds on its length. -/
inductive Regex
  | classes (ps : List (Char → Bool))
  | many (p : Char → Bool) (least : ℕ) (most : Option ℕ)
  | boundary
  | seq (r s : Regex)
  | alt (r s : Regex)

variable (isWord : Char → Bool) {β : Type}

/-- `\b` between two characters, or at an end of the text. -/
def wordBoundary (before after : Option Char) : Bool := before.any isWord != after.any isWord

/-- One character of each class, and what comes then. -/
def classesThen : List (Char → Bool) → Option Char → List Char → (Option Char → List Char → Option β) → Option β
  | [], before, text, k => k before text
  | _ :: _, _, [], _ => none
  | p :: ps, _, c :: text, k => if p c then classesThen ps (some c) text k else none

/-- A run of a class as long as what comes then allows. -/
def manyThen (p : Char → Bool) : (least : ℕ) → (most : Option ℕ) → Option Char → List Char →
    (Option Char → List Char → Option β) → Option β
  | least, _, before, [], k => if least = 0 then k before [] else none
  | least, most, before, c :: text, k =>
    let stop := if least = 0 then k before (c :: text) else none
    if p c = true ∧ most ≠ some 0 then
      (manyThen p (least - 1) (most.map (· - 1)) (some c) text k).or stop
    else stop

/-- A match at a place, with the character before it and what must come then. -/
def Regex.runThen : Regex → Option Char → List Char → (Option Char → List Char → Option β) → Option β
  | .classes ps, before, text, k => classesThen ps before text k
  | .many p least most, before, text, k => manyThen p least most before text k
  | .boundary, before, text, k => if wordBoundary isWord before text.head? then k before text else none
  | .seq r s, before, text, k => r.runThen before text fun before' rest => s.runThen before' rest k
  | .alt r s, before, text, k => (r.runThen before text k).or (s.runThen before text k)

def Regex.matchAt (r : Regex) (before : Option Char) (text : List Char) : Option ℕ :=
  r.runThen isWord before text fun _ rest => some (text.length - rest.length)

end Matching

/-! ## Substitution -/

section Substitution

variable {κ : Type} (isWord : Char → Bool) (r : Regex) (char : κ → Char) (mark : List κ)

/-- `pattern.sub`: from left to right, the mark in the place of what matches; `skip` is what is left of a match. -/
def subFrom : (skip : ℕ) → (before : Option Char) → List κ → List κ
  | _, _, [] => []
  | skip + 1, _, x :: rest => subFrom skip (some (char x)) rest
  | 0, before, x :: rest =>
    match r.matchAt isWord before ((x :: rest).map char) with
    | some (n + 1) => mark ++ subFrom n (some (char x)) rest
    | _ => x :: subFrom 0 (some (char x)) rest

def sub (text : List κ) : List κ := subFrom isWord r char mark 0 none text

end Substitution

end Transform.Lib
