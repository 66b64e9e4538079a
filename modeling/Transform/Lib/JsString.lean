import Mathlib.Data.List.Basic

/-!
# Lib.JsString — the strings of JavaScript
-/

namespace Transform.Lib

/-- A text of the browser: UTF-16 code units. -/
abbrev JsString : Type := List UInt16

/-- An ASCII text in code units. -/
def units (text : String) : JsString := text.toList.map fun c => UInt16.ofNat c.toNat

/-- The white space of `String.prototype.trim`. -/
def isJsSpace (u : UInt16) : Bool :=
  [9, 10, 11, 12, 13, 32, 0xA0, 0x1680, 0x2028, 0x2029, 0x202F, 0x205F, 0x3000, 0xFEFF].contains u ||
    (0x2000 ≤ u.toNat && u.toNat ≤ 0x200A)

end Transform.Lib
