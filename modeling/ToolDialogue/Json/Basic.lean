import ToolDialogue.Table

namespace ToolDialogue

-- Whole numbers and doubles are kept apart: `30` and `30.0` are different
-- values. A double is kept by its bits. An object that is read lists its members
-- by increasing name, each name once.
inductive Json where
  | null
  | bool (value : Bool)
  | int (value : Int)
  | double (bits : UInt64)
  | text (value : String)
  | array (items : List Json)
  | object (members : List (String × Json))
  deriving Repr, Inhabited

namespace Json

abbrev Members := List (String × Json)

def Members.insert (members : Members) (name : String) (value : Json) : Members :=
  match members with
  | [] => [(name,value)]
  | (other,old) :: rest =>
    if name = other then (name,value) :: rest
    else if name < other then (name,value) :: (other,old) :: rest
    else (other,old) :: Members.insert rest name value

def Members.ofList (pairs : List (String × Json)) : Members :=
  pairs.foldl (fun members (name,value) => Members.insert members name value) []

def obj (pairs : List (String × Json)) : Json := .object (Members.ofList pairs)

def member? (value : Json) (name : String) : Option Json :=
  match value with
  | .object members => Table.get? name members
  | _ => none

def text? : Json → Option String
  | .text value => some value
  | _ => none

def nat (n : Nat) : Json := .int n

mutual
def same : Json → Json → Bool
  | .null,.null => true
  | .bool a,.bool b => a == b
  | .int a,.int b => a == b
  | .double a,.double b => Float.ofBits a == Float.ofBits b
  | .text a,.text b => a == b
  | .array a,.array b => sameItems a b
  | .object a,.object b => sameMembers a b
  | _,_ => false
def sameItems : List Json → List Json → Bool
  | [],[] => true
  | a :: as,b :: bs => same a b && sameItems as bs
  | _,_ => false
def sameMembers : List (String × Json) → List (String × Json) → Bool
  | [],[] => true
  | (n,a) :: as,(m,b) :: bs => n == m && same a b && sameMembers as bs
  | _,_ => false
end

end Json

end ToolDialogue
