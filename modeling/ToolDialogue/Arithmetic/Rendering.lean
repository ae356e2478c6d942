import ToolDialogue.Arithmetic.Ratio
import ToolDialogue.Decimal.Layout
import ToolDialogue.Text.Blank
import ToolDialogue.Text.LetterCase

namespace ToolDialogue.Arithmetic

inductive ResultFormat where
  | decimal
  | scientific
  | fraction
  | integer
  deriving DecidableEq, Repr

def ResultFormat.name : ResultFormat → String
  | .decimal => "decimal"
  | .scientific => "scientific"
  | .fraction => "fraction"
  | .integer => "integer"

def ResultFormat.ofName (name : String) : ResultFormat :=
  match Text.lower (Text.trim name) with
  | "scientific" => .scientific
  | "fraction" => .fraction
  | "integer" => .integer
  | _ => .decimal

def wholeText (x : Float) : String := toString ((Decimal.nearest? x).getD 0)

def decimalText (x : Float) : String :=
  if Decimal.isWhole x then wholeText x else String.ofList (Decimal.plain.text x)

def scientificText (x : Float) : String :=
  match Decimal.Double.of x with
  | .finite negative magnitude => String.ofList (Decimal.scientific negative magnitude)
  | _ => String.ofList (Decimal.plain.text x)

def millionths? (x : Float) : Option Int := Decimal.nearest? (x * Float.ofNat denominator)

-- What has more millionths than a word holds is written as a decimal.
def fractionText (x : Float) : String :=
  if Decimal.isWhole x then wholeText x
  else
    match millionths? x with
    | some millionths =>
      if small : millionths.natAbs < Word.limit then
        ((Ratio.ofMillionths? millionths).get (Ratio.ofMillionths?_isSome small)).text
      else decimalText x
    | none => decimalText x

def ResultFormat.render (format : ResultFormat) (x : Float) : String :=
  if x.isFinite then
    match format with
    | .decimal => decimalText x
    | .scientific => scientificText x
    | .fraction => fractionText x
    | .integer => wholeText x
  else String.ofList (Decimal.plain.text x)

end ToolDialogue.Arithmetic
