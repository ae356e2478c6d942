import ToolDialogue.Arithmetic.Double
import ToolDialogue.Arithmetic.Rendering
import ToolDialogue.Tool.Argument

namespace ToolDialogue.Calculate

def schema : Schema where
  required := [⟨"expression",
    "Mathematical expression to evaluate (e.g., '2 + 2', 'sqrt(16)', '(10 + 5) * 2')"⟩]
  optional := [⟨"format","Output format: decimal, scientific, fraction or integer",
    .text Arithmetic.ResultFormat.decimal.name⟩]

def formatOf (values : Collected) : Arithmetic.ResultFormat :=
  match Argument.text values "format" with
  | .ok name => .ofName name
  | .error _ => .decimal

def run (values : Collected) : Except ToolError String := do
  let expression ← Argument.text values "expression"
  match Arithmetic.evaluate Arithmetic.doubles expression with
  | .ok result =>
    .ok ("Expression: " ++ expression ++ "\nResult: " ++ (formatOf values).render result)
  | .error error => .error (.evaluation error)

end ToolDialogue.Calculate
