import ToolDialogue.Arithmetic.Evaluate
import ToolDialogue.Decimal.Layout
import ToolDialogue.Decimal.Reading

namespace ToolDialogue.Arithmetic

def readDouble (text : List Char) : Float :=
  if text = ['i','n','f'] then 1.0/0.0
  else if text = ['N','a','N'] then 0.0/0.0
  else Decimal.unsignedValue text

-- Double precision throughout. Both zeros are zero divisors.
def doubles : Numbers Float where
  add := (· + ·)
  sub := (· - ·)
  mul := (· * ·)
  div := (· / ·)
  pow := Float.pow
  neg := Float.neg
  sqrt := Float.sqrt
  sin := Float.sin
  cos := Float.cos
  tan := Float.tan
  isZero := (· == 0.0)
  print := Decimal.plain.text
  read := readDouble

end ToolDialogue.Arithmetic
