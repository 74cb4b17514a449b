import Mathlib.Tactic.Common

namespace Shiftlush

/-! # Text, as Python strips it -/

/-- `str.isspace` of one character. -/
def isSpace (c : Char) : Bool :=
  let code := c.toNat
  decide ((9 ≤ code ∧ code ≤ 13) ∨ (28 ≤ code ∧ code ≤ 32) ∨ code = 133 ∨ code = 160 ∨
    code = 5760 ∨ (8192 ≤ code ∧ code ≤ 8202) ∨ code = 8232 ∨ code = 8233 ∨ code = 8239 ∨
    code = 8287 ∨ code = 12288)

/-- `str.strip` -/
@[irreducible] def strip (text : String) : String :=
  .ofList ((text.toList.dropWhile isSpace).reverse.dropWhile isSpace).reverse

/-- `not text.strip()` -/
def isBlank (text : String) : Bool := text.toList.all isSpace

end Shiftlush
