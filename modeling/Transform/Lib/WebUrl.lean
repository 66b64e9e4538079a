import Mathlib.Data.List.DropRight
import Mathlib.Tactic.SplitIfs
import Transform.Lib.JsString

/-!
# Lib.WebUrl — references as the URL parser of browsers resolves them

A reference resolved against the origin of a page of a special scheme.  Before it is read the parser strips controls and
blanks at both ends and takes out tabs and newlines anywhere; a backslash is a slash.  A reference without a scheme leaves the
origin exactly when it goes on with a second slash (`resolve_slash`).
-/

namespace Transform.Lib.WebUrl

/-! ## The parser -/

section Parser

def slash : UInt16 := 47

def backslash : UInt16 := 92

/-- C0 controls and the blank. -/
def isC0OrSpace (u : UInt16) : Bool := u ≤ 32

def isTabOrNewline (u : UInt16) : Bool := u = 9 || u = 10 || u = 13

def isSlash (u : UInt16) : Bool := u = slash || u = backslash

def isAlpha (u : UInt16) : Bool := (65 ≤ u && u ≤ 90) || (97 ≤ u && u ≤ 122)

/-- The code units of a scheme: letters, digits, `+`, `-` and `.`. -/
def isSchemeUnit (u : UInt16) : Bool := isAlpha u || (48 ≤ u && u ≤ 57) || u = 43 || u = 45 || u = 46

/-- What ends an authority: a slash, `?` or `#`. -/
def endsAuthority (u : UInt16) : Bool := isSlash u || u = 63 || u = 35

def cleaned (input : JsString) : JsString :=
  ((input.dropWhile isC0OrSpace).rdropWhile isC0OrSpace).filter fun u => !isTabOrNewline u

/-- A letter, and scheme code units up to a colon. -/
def hasScheme (input : JsString) : Bool :=
  input.head?.any isAlpha && (input.dropWhile isSchemeUnit).head? == some 58

/-- The authority after the slashes, however many. -/
def authorityOf (input : JsString) : JsString := (input.dropWhile isSlash).takeWhile fun u => !endsAuthority u

/-- The special schemes of pages. -/
inductive Scheme where
  | http
  | https
  deriving DecidableEq, Repr

/-- An origin; the port is `none` where it is the scheme's own. -/
structure Origin (Host : Type) where
  scheme : Scheme
  host : Host
  port : Option UInt16
  deriving DecidableEq

/-- The parts of the parser that are left open: a reference with a scheme of its own, and the host and port of an authority.
Both may fail. -/
structure Parser (Host : Type) where
  withScheme : Origin Host → JsString → Option (Origin Host)
  hostAndPort : Scheme → JsString → Option (Host × Option UInt16)

variable {Host : Type} (parser : Parser Host) (base : Origin Host)

def Parser.ofAuthority (authority : JsString) : Option (Origin Host) :=
  (parser.hostAndPort base.scheme authority).map fun (host, port) => ⟨base.scheme, host, port⟩

/-- A reference without a scheme. -/
def Parser.relative : JsString → Option (Origin Host)
  | first :: second :: rest =>
    if isSlash first && isSlash second then parser.ofAuthority base (authorityOf rest) else some base
  | _ => some base

/-- The origin of the URL that the reference is resolved to. -/
def Parser.resolve (input : JsString) : Option (Origin Host) :=
  if hasScheme (cleaned input) then parser.withScheme base (cleaned input) else parser.relative base (cleaned input)

end Parser

/-! ## Paths -/

section Paths

variable {Host : Type} {parser : Parser Host} {base : Origin Host} {rest : JsString}

/-- What follows a first slash goes on with another one, for the parser. -/
def GoesOnWithSlash (rest : JsString) : Prop := (rest.find? fun u => !isTabOrNewline u).any isSlash = true

instance (rest : JsString) : Decidable (GoesOnWithSlash rest) := by
  unfold GoesOnWithSlash
  infer_instance

/-- The authority that is read after two slashes. -/
def smuggledAuthority (rest : JsString) : JsString := authorityOf (cleaned (slash :: rest))

theorem rdropWhile_cons {α : Type} {p : α → Bool} {a : α} (ha : p a = false) (l : List α) :
    (a :: l).rdropWhile p = a :: l.rdropWhile p := by
  induction l using List.reverseRecOn with
  | nil =>
    rw [List.rdropWhile_singleton, ha, List.rdropWhile_nil]
    rfl
  | append_singleton l b ih =>
    rw [← List.cons_append]
    by_cases hb : p b = true
    · rw [List.rdropWhile_concat_pos _ _ _ hb, List.rdropWhile_concat_pos _ _ _ hb, ih]
    · rw [List.rdropWhile_concat_neg _ _ _ hb, List.rdropWhile_concat_neg _ _ _ hb, List.cons_append]

theorem cleaned_slash :
    cleaned (slash :: rest) = slash :: (rest.rdropWhile isC0OrSpace).filter fun u => !isTabOrNewline u := by
  have hfirst : isC0OrSpace slash = false := by decide
  rw [cleaned, List.dropWhile_cons_of_neg (Bool.eq_false_iff.1 hfirst), rdropWhile_cons hfirst]
  rfl

/-- The blanks at the end make no difference. -/
theorem second_slash_iff (rest : JsString) :
    ((rest.rdropWhile isC0OrSpace).filter fun u => !isTabOrNewline u).head?.any isSlash = true ↔ GoesOnWithSlash rest := by
  have hsplit : rest.rdropWhile isC0OrSpace ++ rest.rtakeWhile isC0OrSpace = rest := List.rdropWhile_append_rtakeWhile
  have hblank : ∀ u, (rest.rtakeWhile isC0OrSpace).find? (fun u => !isTabOrNewline u) = some u → isSlash u = false := by
    intro u hu
    have hcontrol : isC0OrSpace u = true := List.mem_rtakeWhile_imp (List.mem_of_find?_eq_some hu)
    by_contra hslash
    rw [Bool.not_eq_false, isSlash, Bool.or_eq_true, decide_eq_true_iff, decide_eq_true_iff] at hslash
    rcases hslash with rfl | rfl <;> exact absurd hcontrol (by decide)
  unfold GoesOnWithSlash
  conv_rhs => rw [← hsplit]
  rw [List.head?_filter, List.find?_append]
  rcases (rest.rdropWhile isC0OrSpace).find? fun u => !isTabOrNewline u with _ | u
  · rw [Option.none_or]
    rcases hfound : (rest.rtakeWhile isC0OrSpace).find? fun u => !isTabOrNewline u with _ | u
    · exact Iff.rfl
    · rw [Option.any_some, hblank u hfound]
      exact Iff.rfl
  · exact Iff.rfl

/-- A reference that begins with a slash leaves the origin only through a second one. -/
theorem resolve_slash : parser.resolve base (slash :: rest) =
    if GoesOnWithSlash rest then parser.ofAuthority base (smuggledAuthority rest) else some base := by
  have hscheme : hasScheme (cleaned (slash :: rest)) = false := by
    rw [cleaned_slash]
    rfl
  have hslash : isSlash slash = true := by decide
  rw [Parser.resolve, hscheme, if_neg Bool.false_ne_true, smuggledAuthority, cleaned_slash]
  have hsecond := second_slash_iff rest
  generalize ((rest.rdropWhile isC0OrSpace).filter fun u => !isTabOrNewline u) = kept at hsecond ⊢
  rcases kept with _ | ⟨second, kept⟩
  · rw [if_neg fun h => Bool.false_ne_true (hsecond.2 h)]
    rfl
  · rw [List.head?_cons, Option.any_some] at hsecond
    rw [Parser.relative, hslash, Bool.true_and]
    by_cases hgoes : GoesOnWithSlash rest
    · have hskip : authorityOf (slash :: second :: kept) = authorityOf kept := by
        rw [authorityOf, List.dropWhile_cons_of_pos hslash, List.dropWhile_cons_of_pos (hsecond.2 hgoes)]
        rfl
      rw [if_pos hgoes, if_pos (hsecond.2 hgoes), hskip]
    · rw [if_neg hgoes, if_neg fun h => hgoes (hsecond.1 h)]

end Paths

end Transform.Lib.WebUrl
