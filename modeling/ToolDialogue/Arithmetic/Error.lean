import ToolDialogue.Arithmetic.Numbers

namespace ToolDialogue.Arithmetic

-- Longest accepted text in bytes, blanks not counted.
def maxLength : Nat := 100000

def maxNesting : Nat := 64

inductive Error where
  | empty
  | unmatchedParenthesis (text : List Char)
  | unmatchedCall (function : Function)
  | divisionByZero
  | wrongArity (function : Function)
  | missingOperand (text : List Char)
  | invalidNumber (text : List Char)
  | tooLong
  | tooDeep
  deriving DecidableEq, Repr

def Function.arguments : Function → String
  | .pow => "2 arguments: base, exponent"
  | _ => "1 argument"

def Error.message : Error → String
  | .empty => "Expression is empty"
  | .unmatchedParenthesis text =>
    "Unmatched parentheses in expression: " ++ String.ofList text
  | .unmatchedCall function => "Unmatched parentheses in " ++ function.name ++ " function"
  | .divisionByZero => "Division by zero"
  | .wrongArity function => function.name ++ " function requires " ++ function.arguments
  | .missingOperand text => "Missing operand in expression: " ++ String.ofList text
  | .invalidNumber text => "Unable to evaluate expression: " ++ String.ofList text
  | .tooLong =>
    "Expression is too complex: longer than " ++ toString maxLength ++ " characters"
  | .tooDeep =>
    "Expression is too complex: parentheses nested deeper than " ++ toString maxNesting ++ " levels"

end ToolDialogue.Arithmetic
