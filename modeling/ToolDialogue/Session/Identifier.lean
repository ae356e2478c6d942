import ToolDialogue.Json.Print

namespace ToolDialogue.Identifier

def hexDigits : Nat → Nat → List Char
  | 0,_ => []
  | count+1,n => hexDigits count (n / 16) ++ [Json.hexDigit (n % 16)]

-- A random id in groups of 8, 4, 4, 4 and 12 digits. Of the 128 random bits, six
-- give way to the version, 4, and to the variant, binary 10.
def ofRandom (bits : Nat) : String :=
  let field (count shift : Nat) : String := String.ofList (hexDigits count (bits / Nat.pow 2 shift))
  let version := String.ofList (hexDigits 4 (0x4000 + bits / Nat.pow 2 64 % 0x1000))
  let variant := String.ofList (hexDigits 4 (0x8000 + bits / Nat.pow 2 48 % 0x4000))
  String.intercalate "-" [field 8 96,field 4 80,version,variant,field 12 0]

end ToolDialogue.Identifier
