import ToolDialogue.Arithmetic.Parentheses

namespace ToolDialogue.Arithmetic

def precedence : List (List Char) := [['+','-'],['*','/'],['^']]

-- A minus at the start of a text, behind an operator or behind an opening
-- parenthesis is a sign and separates nothing.
def isSign (before : Option Char) (c : Char) : Bool :=
  c == '-' && match before with
    | none => true
    | some b => ['+','-','*','/','^','('].contains b

-- Walking a text: how many parentheses are open, the character before, and every
-- character read with whether it separates, latest first.
structure Walk where
  depth : Nat
  before : Option Char
  read : List (Char × Bool)

def Walk.step (operators : List Char) (walk : Walk) (c : Char) : Walk :=
  let separates := walk.depth == 0 && operators.contains c && !isSign walk.before c
  let depth := if c = '(' then walk.depth + 1 else if c = ')' then walk.depth - 1 else walk.depth
  ⟨depth,some c,(c,separates) :: walk.read⟩

structure Sides where
  first : List Char
  rest : List (Char × List Char)
  deriving DecidableEq, Repr

def Sides.grow (sides : Sides) : Char × Bool → Sides
  | (c,true) => ⟨[],(c,sides.first) :: sides.rest⟩
  | (c,false) => ⟨c :: sides.first,sides.rest⟩

def sidesOf (operators : List Char) (text : List Char) : Sides :=
  (text.foldl (Walk.step operators) ⟨0,none,[]⟩).read.foldl Sides.grow ⟨[],[]⟩

variable {α : Type}

def applyOperator (ops : Numbers α) (operator : Char) (left right : α) : Except Error α :=
  if operator = '+' then .ok (ops.add left right)
  else if operator = '-' then .ok (ops.sub left right)
  else if operator = '*' then .ok (ops.mul left right)
  else if operator = '/' then
    if ops.isZero right then .error .divisionByZero else .ok (ops.div left right)
  else .ok (ops.pow left right)

end ToolDialogue.Arithmetic
