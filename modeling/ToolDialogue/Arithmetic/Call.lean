import ToolDialogue.Arithmetic.Parentheses

namespace ToolDialogue.Arithmetic

inductive Piece where
  | plain (text : List Char)
  | call (argument : List Char)
  | unclosed
  deriving DecidableEq, Repr

-- Reading pieces from the left. `depth` is zero outside a call and counts the
-- open parentheses inside one; `held` is the current piece, latest first.
structure Reader where
  depth : Nat
  held : List Char
  pieces : List Piece

def Reader.step (name : List Char) (reader : Reader) (c : Char) : Reader :=
  if reader.depth = 0 then
    if c = '(' ∧ name.reverse.isPrefixOf reader.held then
      ⟨1,[],.plain (reader.held.drop name.length).reverse :: reader.pieces⟩
    else ⟨0,c :: reader.held,reader.pieces⟩
  else if c = '(' then ⟨reader.depth + 1,c :: reader.held,reader.pieces⟩
  else if c = ')' then
    if reader.depth = 1 then ⟨0,[],.call reader.held.reverse :: reader.pieces⟩
    else ⟨reader.depth - 1,c :: reader.held,reader.pieces⟩
  else ⟨reader.depth,c :: reader.held,reader.pieces⟩

def Reader.finish (reader : Reader) : List Piece :=
  let last := if reader.depth = 0 then .plain reader.held.reverse else .unclosed
  (last :: reader.pieces).reverse

def piecesOf (function : Function) (text : List Char) : List Piece :=
  (text.foldl (Reader.step function.name.toList) ⟨0,[],[]⟩).finish

variable {α : Type}

def Numbers.unary (ops : Numbers α) : Function → α → α
  | .sqrt => ops.sqrt
  | .sin => ops.sin
  | .cos => ops.cos
  | .tan => ops.tan
  | .pow => id

def callValue (ops : Numbers α) (evaluate : List Char → Except Error α) (function : Function)
    (argument : List Char) : Except Error α :=
  match function,comma? argument with
  | .pow,some (base,exponent) => do
    let b ← evaluate base
    let e ← evaluate exponent
    pure (ops.pow b e)
  | .pow,none => .error (.wrongArity .pow)
  | function,some _ => .error (.wrongArity function)
  | function,none => ops.unary function <$> evaluate argument

def Piece.written (ops : Numbers α) (evaluate : List Char → Except Error α)
    (function : Function) : Piece → Except Error (List Char)
  | .plain text => .ok text
  | .call argument => ops.print <$> callValue ops evaluate function argument
  | .unclosed => .error (.unmatchedCall function)

-- Calls of one function are replaced from the left; what a call leaves behind is
-- not searched again for the same function.
def expandCalls (ops : Numbers α) (evaluate : List Char → Except Error α) (function : Function)
    (text : List Char) : Except Error (List Char) :=
  List.flatten <$> (piecesOf function text).mapM (·.written ops evaluate function)

def callOrder : List Function := [.sqrt,.pow,.sin,.cos,.tan]

def expandAll (ops : Numbers α) (evaluate : List Char → Except Error α)
    (text : List Char) : Except Error (List Char) :=
  callOrder.foldlM (fun text function => expandCalls ops evaluate function text) text

end ToolDialogue.Arithmetic
