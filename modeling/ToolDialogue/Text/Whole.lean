import ToolDialogue.Decimal.Reading

namespace ToolDialogue.Text

-- A whole number below the limit: digits, with a plus sign allowed in front and
-- zeros as well. No blanks.
def whole? (limit : Nat) (text : List Char) : Option Nat :=
  let digits := match text with
    | '+' :: rest => rest
    | _ => text
  if digits ≠ [] ∧ digits.all Char.isDigit ∧ Decimal.natOf digits < limit then
    some (Decimal.natOf digits)
  else none

end ToolDialogue.Text
