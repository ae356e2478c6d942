namespace ToolDialogue.Decimal

def natOf (digits : List Char) : Nat :=
  digits.foldl (fun n c => 10*n + (c.toNat - '0'.toNat)) 0

-- No double has more digits in front of the point.
def mostDigits : Nat := 309

def unsignedValue (text : List Char) : Float :=
  let whole := (text.takeWhile (· != '.')).dropWhile (· == '0')
  let fraction := (text.dropWhile (· != '.')).drop 1
  if mostDigits < whole.length then 1.0/0.0
  else Float.ofScientific (natOf (text.filter (· != '.'))) true fraction.length

end ToolDialogue.Decimal
