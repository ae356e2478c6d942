import ToolDialogue.Proofs.Arithmetic.Expression

namespace ToolDialogue.Arithmetic

variable {α : Type} {ops : Numbers α} {function : Function}

structure Numbers.Lawful (ops : Numbers α) : Prop where
  reads : ∀ v, isNumeral (ops.print v) = true
  value_print : ∀ v, ops.value (ops.print v) = v

namespace Expression

def blocked (ops : Numbers α) (function : Function) : Expression → Bool
  | .numeral _ _ => false
  | .constant _ => false
  | .binary _ left right => left.blocked ops function || right.blocked ops function
  | .group inner => inner.blocked ops function
  | .negated inner => inner.blocked ops function
  | .call other _ argument =>
    if other = function then argument.dividesByZero ops else argument.blocked ops function
  | .power base exponent =>
    if function = .pow then base.dividesByZero ops || exponent.dividesByZero ops
    else base.blocked ops function || exponent.blocked ops function

-- The outermost calls of the function give way to their printed values.
def reduced (lawful : ops.Lawful) (function : Function) : Expression → Expression
  | .numeral text reads => .numeral text reads
  | .constant which => .constant which
  | .binary operation left right =>
    .binary operation (left.reduced lawful function) (right.reduced lawful function)
  | .group inner => .group (inner.reduced lawful function)
  | .negated inner => .negated (inner.reduced lawful function)
  | .call other single argument =>
    if other = function then
      .numeral (ops.print (ops.unary other (argument.value ops))) (lawful.reads _)
    else .call other single (argument.reduced lawful function)
  | .power base exponent =>
    if function = .pow then
      .numeral (ops.print (ops.pow (base.value ops) (exponent.value ops))) (lawful.reads _)
    else .power (base.reduced lawful function) (exponent.reduced lawful function)

variable {lawful : ops.Lawful} {t : Expression}

end Expression

end ToolDialogue.Arithmetic
