import Transform.Lib.Regex
import Transform.Conversions.Job

/-!
# Assistant.Redaction — credentials in captured output

`redact_secrets` puts `[redacted]` in the place of what looks like a credential, one pattern after another, each in the text
that the patterns before it have left.
-/

namespace Transform.Assistant

open Lib Conversions

/-! ## Characters -/

section Characters

/-- The letters beyond ASCII that are ASCII ones without regard to case: a capital I with a dot, a small one without, a long
s, and the sign of the kelvin. -/
def foldedLetters : List Char := ['\u0130', '\u0131', '\u017f', '\u212a']

/-- The characters of a word, `\w`: what the interpreter's tables say beyond ASCII is left open, but for the letters that a
pattern without regard to case takes for ASCII ones. -/
structure WordTable where
  isWord : Char → Bool
  ascii : ∀ c, c.toNat < 128 → isWord c = (c.isAlphanum || c = '_')
  space : ∀ c, isStripped c = true → isWord c = false
  folded : ∀ c ∈ foldedLetters, isWord c = true

def asciiWords : WordTable where
  isWord c := c.isAlphanum || c = '_' || c ∈ foldedLetters
  ascii := by
    intro c hc
    have hother : c ∉ foldedLetters := by
      intro hmem
      simp only [foldedLetters, List.mem_cons, List.not_mem_nil, or_false] at hmem
      rcases hmem with rfl | rfl | rfl | rfl
      · exact Nat.not_lt.mpr (Nat.le_add_right 128 176) hc
      · exact Nat.not_lt.mpr (Nat.le_add_right 128 177) hc
      · exact Nat.not_lt.mpr (Nat.le_add_right 128 255) hc
      · exact Nat.not_lt.mpr (Nat.le_add_right 128 8362) hc
    rw [decide_eq_false hother, Bool.or_false]
  space := by
    intro c hc
    have hspaces : ∀ n ∈ [0x9, 0xA, 0xB, 0xC, 0xD, 0x1C, 0x1D, 0x1E, 0x1F, 0x20, 0x85, 0xA0, 0x1680, 0x2000, 0x2001,
        0x2002, 0x2003, 0x2004, 0x2005, 0x2006, 0x2007, 0x2008, 0x2009, 0x200A, 0x2028, 0x2029, 0x202F, 0x205F, 0x3000],
        ((Char.ofNat n).isAlphanum || Char.ofNat n = '_' || Char.ofNat n ∈ foldedLetters) = false := by
      decide +kernel
    have hplain := hspaces c.toNat (of_decide_eq_true hc)
    rwa [Char.ofNat_toNat] at hplain
  folded := by
    intro c hc
    rw [decide_eq_true hc, Bool.or_true]

/-- The letter that a character is without regard to case. -/
def fold (c : Char) : Char :=
  if c = '\u0130' ∨ c = '\u0131' then 'i' else if c = '\u017f' then 's' else if c = '\u212a' then 'k' else c.toLower

/-- A text without regard to case. -/
def ignoringCase (text : String) : Regex := .classes (text.toList.map fun x c => fold c = x)

def literal (text : String) : Regex := .classes (text.toList.map fun x c => c = x)

/-- `[A-Za-z0-9._\-]` without regard to case. -/
def isBearerChar (c : Char) : Bool := (fold c).isAlphanum || c = '.' || c = '_' || c = '-'

end Characters

/-! ## Patterns -/

section Patterns

/-- Patterns one after another. -/
def inTurn : List Regex → Regex
  | [] => .classes []
  | [r] => r
  | r :: rest => .seq r (inTurn rest)

/-- One pattern or another. -/
def oneOf (first : Regex) : List Regex → Regex
  | [] => first
  | r :: rest => .alt first (oneOf r rest)

/-- `\s*` -/
def spaces : Regex := .many isStripped 0 none

/-- `(api[_-]?key|secret|token|password|passwd|credential|authorization)` -/
def label : Regex :=
  oneOf (inTurn [ignoringCase "api", .many (fun c => c = '_' || c = '-') 0 (some 1), ignoringCase "key"])
    [ignoringCase "secret", ignoringCase "token", ignoringCase "password", ignoringCase "passwd",
      ignoringCase "credential", ignoringCase "authorization"]

/-- `(?i)\b(api[_-]?key|…)\b\s*[:=]\s*\S+` -/
def labelled : Regex :=
  inTurn [.boundary, label, .boundary, spaces, .classes [fun c => c = ':' || c = '='], spaces,
    .many (fun c => !isStripped c) 1 none]

/-- `(?i)\bbearer\s+[A-Za-z0-9._\-]{8,}` -/
def bearer : Regex := inTurn [.boundary, ignoringCase "bearer", .many isStripped 1 none, .many isBearerChar 8 none]

/-- `\b(sk|rk|pk)-[A-Za-z0-9]{16,}\b` -/
def providerKey : Regex :=
  inTurn [.boundary, oneOf (literal "sk") [literal "rk", literal "pk"], literal "-", .many Char.isAlphanum 16 none,
    .boundary]

/-- `\bAKIA[0-9A-Z]{16}\b` -/
def accessKey : Regex :=
  inTurn [.boundary, literal "AKIA", .many (fun c => c.isDigit || c.isUpper) 16 (some 16), .boundary]

/-- `\bgh[pousr]_[A-Za-z0-9]{20,}\b` -/
def hostToken : Regex :=
  inTurn [.boundary, literal "gh", .classes [fun c => c ∈ ['p', 'o', 'u', 's', 'r']], literal "_",
    .many Char.isAlphanum 20 none, .boundary]

/-- `-----BEGIN [A-Z ]*PRIVATE KEY-----` -/
def privateKey : Regex :=
  inTurn [literal "-----BEGIN ", .many (fun c => c.isUpper || c = ' ') 0 none, literal "PRIVATE KEY-----"]

/-- `_SECRET_PATTERNS` -/
def secretPatterns : List Regex := [labelled, bearer, providerKey, accessKey, hostToken, privateKey]

/-- `_REDACTED` -/
def redacted : List Char := "[redacted]".toList

/-- `redact_secrets`. -/
def redactSecrets (words : WordTable) (text : List Char) : List Char :=
  secretPatterns.foldl (fun scrubbed pattern => sub words.isWord pattern id redacted scrubbed) text

end Patterns

end Transform.Assistant
