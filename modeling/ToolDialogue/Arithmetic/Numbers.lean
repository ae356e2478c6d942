namespace ToolDialogue.Arithmetic

inductive Function where
  | sqrt
  | pow
  | sin
  | cos
  | tan
  deriving DecidableEq, Repr

def Function.name : Function → String
  | .sqrt => "sqrt"
  | .pow => "pow"
  | .sin => "sin"
  | .cos => "cos"
  | .tan => "tan"

-- Everything the evaluator asks of its numbers. `print` writes a value into the
-- text of an expression; `read` takes an unsigned numeral back.
structure Numbers (α : Type) where
  add : α → α → α
  sub : α → α → α
  mul : α → α → α
  div : α → α → α
  pow : α → α → α
  neg : α → α
  sqrt : α → α
  sin : α → α
  cos : α → α
  tan : α → α
  isZero : α → Bool
  print : α → List Char
  read : List Char → α

variable {α : Type}

def Numbers.value (ops : Numbers α) : List Char → α
  | '-' :: digits => ops.neg (ops.read digits)
  | digits => ops.read digits

end ToolDialogue.Arithmetic
