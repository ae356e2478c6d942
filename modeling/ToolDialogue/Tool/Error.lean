import ToolDialogue.Arithmetic.Error
import ToolDialogue.File.Confinement

namespace ToolDialogue

inductive ToolError where
  | invalidArguments (text : String)
  | evaluation (error : Arithmetic.Error)
  | path (refusal : File.Refusal)
  | execution (text : String)
  | system (cause : File.Cause)
  deriving DecidableEq, Repr

def ToolError.message : ToolError → String
  | .invalidArguments text => "Invalid arguments: " ++ text
  | .evaluation error => error.message
  | .path refusal => "Path security validation failed: " ++ refusal.message
  | .execution text => "Execution failed: " ++ text
  | .system cause => "I/O error: " ++ cause.message

end ToolDialogue
