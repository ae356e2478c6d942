import ToolDialogue.Decimal.Layout
import ToolDialogue.Json.Basic

namespace ToolDialogue.Json

-- A double always shows that it is one: by a point or by an exponent. Orders from
-- -5 to 15 are positional, and of two equally near texts the even one is taken.
def doubleLayout : Decimal.Layout :=
  ⟨.even,['.','0'],fun order => -5 ≤ order && order ≤ 15⟩

def doubleText (bits : UInt64) : String :=
  String.ofList (doubleLayout.text (Float.ofBits bits))

def hexDigit (n : Nat) : Char := ("0123456789abcdef".toList)[n]?.getD '0'

def escaped (c : Char) : List Char :=
  if c = '"' then ['\\','"']
  else if c = '\\' then ['\\','\\']
  else if c = '\n' then ['\\','n']
  else if c = '\r' then ['\\','r']
  else if c = '\t' then ['\\','t']
  else if c.toNat = 8 then ['\\','b']
  else if c.toNat = 12 then ['\\','f']
  else if c.toNat < 32 then
    ['\\','u','0','0',hexDigit (c.toNat / 16),hexDigit (c.toNat % 16)]
  else [c]

def quoted (text : String) : String :=
  String.ofList ('"' :: (text.toList.flatMap escaped ++ ['"']))

def openBrace : String := "\x7b"

def closeBrace : String := "\x7d"

mutual
def compact : Json → String
  | .null => "null"
  | .bool value => if value then "true" else "false"
  | .int value => toString value
  | .double bits => doubleText bits
  | .text value => quoted value
  | .array items => "[" ++ String.intercalate "," (compactItems items) ++ "]"
  | .object members =>
    openBrace ++ String.intercalate "," (compactMembers members) ++ closeBrace
def compactItems : List Json → List String
  | [] => []
  | item :: rest => compact item :: compactItems rest
def compactMembers : List (String × Json) → List String
  | [] => []
  | (name,value) :: rest => (quoted name ++ ":" ++ compact value) :: compactMembers rest
end

def newLine (depth : Nat) : String := "\n" ++ String.ofList (List.replicate (2*depth) ' ')

def block (opening closing : String) (depth : Nat) (lines : List String) : String :=
  if lines = [] then opening ++ closing
  else opening ++ newLine (depth+1) ++ String.intercalate ("," ++ newLine (depth+1)) lines
    ++ newLine depth ++ closing

mutual
def prettyAt (depth : Nat) : Json → String
  | .array items => block "[" "]" depth (prettyItems (depth+1) items)
  | .object members => block openBrace closeBrace depth (prettyMembers (depth+1) members)
  | value => compact value
def prettyItems (depth : Nat) : List Json → List String
  | [] => []
  | item :: rest => prettyAt depth item :: prettyItems depth rest
def prettyMembers (depth : Nat) : List (String × Json) → List String
  | [] => []
  | (name,value) :: rest =>
    (quoted name ++ ": " ++ prettyAt depth value) :: prettyMembers depth rest
end

def pretty (value : Json) : String := prettyAt 0 value

end ToolDialogue.Json
