import ToolDialogue.Arithmetic.Error

namespace ToolDialogue.Arithmetic

inductive Balance where
  | balanced
  | unmatched
  | tooDeep
  deriving DecidableEq, Repr

def balanceFrom : Nat → List Char → Balance
  | depth,[] => if depth = 0 then .balanced else .unmatched
  | depth,c :: rest =>
    if c = '(' then
      if depth = maxNesting then .tooDeep else balanceFrom (depth+1) rest
    else if c = ')' then
      if depth = 0 then .unmatched else balanceFrom (depth-1) rest
    else balanceFrom depth rest

def balance (text : List Char) : Balance := balanceFrom 0 text

def checkBalanced (text : List Char) : Except Error Unit :=
  match balance text with
  | .balanced => .ok ()
  | .unmatched => .error (.unmatchedParenthesis text)
  | .tooDeep => .error .tooDeep

def nestingFrom : Nat → Nat → List Char → Nat
  | _,deepest,[] => deepest
  | depth,deepest,c :: rest =>
    if c = '(' then nestingFrom (depth+1) (max deepest (depth+1)) rest
    else if c = ')' then nestingFrom (depth-1) deepest rest
    else nestingFrom depth deepest rest

def nesting (text : List Char) : Nat := nestingFrom 0 0 text

-- Splits behind the parenthesis that closes the one already open: what it
-- encloses and what follows. `depth` more have been opened since.
def closeFrom : Nat → List Char → List Char → Option (List Char × List Char)
  | _,_,[] => none
  | depth,inner,c :: rest =>
    if c = ')' then
      if depth = 0 then some (inner.reverse,rest)
      else closeFrom (depth-1) (c :: inner) rest
    else if c = '(' then closeFrom (depth+1) (c :: inner) rest
    else closeFrom depth (c :: inner) rest

def enclosed? : List Char → Option (List Char)
  | '(' :: rest =>
    match closeFrom 0 [] rest with
    | some (inner,[]) => some inner
    | _ => none
  | _ => none

def commaFrom : Nat → List Char → List Char → Option (List Char × List Char)
  | _,_,[] => none
  | depth,before,c :: rest =>
    if c = ',' ∧ depth = 0 then some (before.reverse,rest)
    else if c = '(' then commaFrom (depth+1) (c :: before) rest
    else if c = ')' then commaFrom (depth-1) (c :: before) rest
    else commaFrom depth (c :: before) rest

def comma? (text : List Char) : Option (List Char × List Char) := commaFrom 0 [] text

end ToolDialogue.Arithmetic
