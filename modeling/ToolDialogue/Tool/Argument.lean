import ToolDialogue.Json.Print
import ToolDialogue.Session.Basic
import ToolDialogue.Text.Blank
import ToolDialogue.Text.LetterCase
import ToolDialogue.Text.Whole
import ToolDialogue.Tool.Error

namespace ToolDialogue.Argument

def invalid {α : Type} (text : String) : Except ToolError α := .error (.invalidArguments text)

def quoted (name : String) : String := "'" ++ name ++ "'"

def absent {α : Type} (name : String) : Except ToolError α :=
  invalid ("Missing parameter: " ++ name)

def text (values : Collected) (name : String) : Except ToolError String :=
  match Table.get? name values with
  | some (.text value) => .ok value
  | some (.int value) => .ok (Json.int value).compact
  | some (.double bits) => .ok (Json.double bits).compact
  | some (.bool value) => .ok (Json.bool value).compact
  | some _ => invalid (quoted name ++ " must be text")
  | none => absent name

def wholeLimit : Nat := Nat.pow 2 64

-- A double stands for a whole number if it is not negative and has no fraction.
-- One that is too large stands for the largest.
def wholeDouble? (bits : UInt64) : Option Nat :=
  match Decimal.Double.ofBits bits.toNat with
  | .finite negative magnitude =>
    if magnitude.isWhole ∧ (magnitude.mantissa = 0 ∨ negative = false) then
      some (min magnitude.floor (wholeLimit - 1))
    else none
  | _ => none

def whole? : Json → Option Nat
  | .int value => if 0 ≤ value then some value.toNat else none
  | .double bits => wholeDouble? bits
  | .text value => Text.whole? wholeLimit (Text.trimmed value.toList)
  | _ => none

def wholeNumber (values : Collected) (name : String) : Except ToolError Nat :=
  match Table.get? name values with
  | some value =>
    match whole? value with
    | some n => .ok n
    | none => invalid (quoted name ++ " must be a whole number")
  | none => absent name

def flagWord? (word : String) : Option Bool :=
  if word ∈ ["true","yes","1"] then some true
  else if word ∈ ["false","no","0"] then some false
  else none

def flag? : Json → Option Bool
  | .bool value => some value
  | .text value => flagWord? (Text.lower (Text.trim value))
  | _ => none

def flag (values : Collected) (name : String) (fallback : Bool) : Except ToolError Bool :=
  match Table.get? name values with
  | none => .ok fallback
  | some .null => .ok fallback
  | some value =>
    match flag? value with
    | some b => .ok b
    | none => invalid (quoted name ++ " must be true or false")

end ToolDialogue.Argument
